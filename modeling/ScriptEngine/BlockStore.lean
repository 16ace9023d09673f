import ScriptEngine.Wire.Reader

/-! A store of encoded code blocks, each under the hash of its content. -/
namespace ScriptEngine

/-- A block in a store: its encoded form, its name, and when it was stored. -/
structure StoredBlock where
  hash : Text
  name : Text
  data : Text
  stored : Int := 0
deriving DecidableEq, Repr

/-- A store of blocks, no two under the same hash. A closed store declines
everything. -/
structure BlockStore where
  blocks : List StoredBlock := []
  isOpen : Bool := true
deriving DecidableEq, Repr

/-- Why a store did not do as asked. -/
inductive StoreError where
  | notFound
  | wire (error : Wire.Error)
  /-- The store is closed; says what it was to do. -/
  | closed (activity : String)
deriving DecidableEq, Repr

/-- The wording of a store error. -/
def StoreError.message : StoreError → Text
  | .notFound => utf8 "block not found"
  | .wire error => error.message
  | .closed activity => utf8 activity ++ utf8 ": sql: database is closed"

namespace BlockStore

/-- The block under a hash. -/
def find? (s : BlockStore) (hash : Text) : Option StoredBlock := s.blocks.find? (·.hash = hash)

/-- A store without the block under a hash. -/
def erase (s : BlockStore) (hash : Text) : BlockStore :=
  { s with blocks := s.blocks.filter (·.hash ≠ hash) }

/-- A store with a block, in place of any under the same hash. -/
def insert (s : BlockStore) (b : StoredBlock) : BlockStore :=
  { s.erase b.hash with blocks := b :: (s.erase b.hash).blocks }

/-- Stores a block; gives its hash. -/
def put (s : BlockStore) (now : Int) (block : CodeBlock) : Except StoreError (BlockStore × Text) :=
  match Wire.encode block, Wire.hash block with
  | .ok data, .ok digest =>
    if s.isOpen then
      let hash := Text.hex digest
      .ok (s.insert { hash, name := block.name, data, stored := now }, hash)
    else .error (.closed "saving block")
  | .error e, _ | _, .error e => .error (.wire e)

/-- The encoded block under a hash. -/
def raw (s : BlockStore) (hash : Text) : Except StoreError Text :=
  if s.isOpen then
    match s.find? hash with
    | some b => .ok b.data
    | none => .error .notFound
  else .error (.closed "querying block")

/-- Decodes an encoded block. -/
def decode (data : Text) : Except StoreError CodeBlock :=
  match Wire.decode data with
  | .ok block => .ok block
  | .error e => .error (.wire e)

/-- The block under a hash. -/
def get (s : BlockStore) (hash : Text) : Except StoreError CodeBlock := do decode (← s.raw hash)

/-- Later blocks first; of the same time, by hash. -/
def listedBefore (a b : StoredBlock) : Bool :=
  b.stored < a.stored || (a.stored = b.stored && Text.le a.hash b.hash)

/-- All blocks, the newest first. -/
def list (s : BlockStore) : Except StoreError (List StoredBlock) :=
  if s.isOpen then .ok (s.blocks.mergeSort listedBefore) else .error (.closed "listing blocks")

/-- Removes the block under a hash. -/
def delete (s : BlockStore) (hash : Text) : Except StoreError BlockStore :=
  if s.isOpen then
    match s.find? hash with
    | some _ => .ok (s.erase hash)
    | none => .error .notFound
  else .error (.closed "deleting block")

/-- Decodes an encoded block and stores it; gives the block and its hash. -/
def load (s : BlockStore) (now : Int) (data : Text) :
    Except StoreError (BlockStore × CodeBlock × Text) := do
  let block ← decode data
  let (s, hash) ← s.put now block
  return (s, block, hash)

def close (s : BlockStore) : BlockStore := { s with isOpen := false }

def reopen (s : BlockStore) : BlockStore := { s with isOpen := true }

/-! ### As a file -/

/-- The first bytes of a store's file, which no encoded block starts with. -/
def fileMark : Text := utf8 "block store 1\n"

/-- A block of a store as a data item. -/
def itemOfBlock (b : StoredBlock) : Cbor :=
  .array [.bytes b.hash, .bytes b.name, .bytes b.data, .ofInt b.stored]

/-- The block of a data item. -/
def blockOfItem? : Cbor → Option StoredBlock
  | .array [.bytes hash, .bytes name, .bytes data, .unsigned n] => some ⟨hash, name, data, n⟩
  | .array [.bytes hash, .bytes name, .bytes data, .negative n] => some ⟨hash, name, data, -1 - n⟩
  | _ => none

/-- The content of a store's file. -/
def toFile (s : BlockStore) : Text := fileMark ++ (Cbor.array (s.blocks.map itemOfBlock)).encode

/-- The store of a file. A file of at most one byte is an empty store. -/
def ofFile? (content : Text) : Option BlockStore :=
  if content.length ≤ 1 then some {}
  else if fileMark.isPrefixOf content then
    match Cbor.decode? (content.drop fileMark.length) with
    | some (.array items) => (items.mapM blockOfItem?).map fun blocks => { blocks }
    | _ => none
  else none

end BlockStore
end ScriptEngine
