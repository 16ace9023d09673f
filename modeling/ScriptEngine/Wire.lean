import ScriptEngine.Cbor.Reader
import ScriptEngine.CodeBlock.Validation
import ScriptEngine.Digest.Sha256
import ScriptEngine.Fault

/-! The encoded form of code blocks. A block becomes a record of plain fields,
the record a map with small integer keys, and the map its canonical bytes; the
hash of a block is the digest of those bytes with all identities cleared. -/
namespace ScriptEngine.Wire

/-- The version that encoding writes and decoding demands. -/
def version : UInt8 := 1

/-- A constant as plain fields; which ones matter depends on the kind. -/
structure ConstRecord where
  kind : UInt8 := 0
  int : Int64 := 0
  real : Binary64 := .zero
  bytes : Text := []
deriving DecidableEq, Repr

/-- The fields of a block apart from nested blocks. -/
structure BlockFields where
  version : UInt8 := 0
  id : BlockId := .zero
  name : Text := []
  source : Text := []
  code? : Option (Array UInt32) := none
  consts : List ConstRecord := []
  registers : Int64 := 0
  sharedSizes? : Option (List Int64) := none
  sourceMap : List SourceLoc := []
deriving DecidableEq, Repr

/-- A block as plain fields. -/
structure BlockRecord extends BlockFields where
  blocks : List BlockRecord := []

/-- Why a block could not be encoded or decoded. -/
inductive Error where
  /-- A constant of this kind has no encoded form. -/
  | unencodable (title : Text) (index : Nat) (kind : Kind)
  /-- Everything stops, for a place of a nested block is vacant. -/
  | stopped (panic : Panic)
  /-- The bytes are no encoded record. -/
  | malformed
  | version (found : UInt8)
  | constKind (name : Text) (index : Nat) (kind : UInt8)
  | invalid (error : BlockError)
deriving DecidableEq, Repr

/-- The wording of an error; what is wrong with malformed bytes is not said, and a
stop has none. -/
def Error.message : Error → Text
  | .unencodable title index kind =>
    utf8 "wire: " ++ title ++ utf8 ": constant " ++ Text.ofNat index ++ utf8 ": " ++
      utf8 kind.name ++ utf8 " constants cannot be encoded"
  | .stopped _ => []
  | .malformed => utf8 "wire: unmarshal block: malformed data"
  | .version found => utf8 "wire: unsupported version " ++ Text.ofNat found.toNat
  | .constKind name index kind =>
    utf8 "wire: " ++ name ++ utf8 ": constant " ++ Text.ofNat index ++
      utf8 ": unknown constant kind " ++ Text.ofNat kind.toNat
  | .invalid error => utf8 "wire: invalid block: " ++ error.message

/-- A constant as plain fields. -/
def ConstRecord.ofValue? : Value → Option ConstRecord
  | .void => some {}
  | .bool b => some { kind := 1, int := if b then 1 else 0 }
  | .int n => some { kind := 2, int := n }
  | .real x => some { kind := 3, real := x }
  | .string t => some { kind := 4, bytes := t }
  | .octet t => some { kind := 5, bytes := t }
  | .object .. => none

/-- The constant that plain fields stand for. -/
def ConstRecord.toValue? (c : ConstRecord) : Option Value :=
  match c.kind.toNat with
  | 0 => some .void
  | 1 => some (.bool (c.int ≠ 0))
  | 2 => some (.int c.int)
  | 3 => some (.real c.real)
  | 4 => some (.string c.bytes)
  | 5 => some (.octet c.bytes)
  | _ => none

/-- Constants as plain fields, the first with the given index. -/
def constRecords (title : Text) : (index : Nat) → List Value → Except Error (List ConstRecord)
  | _, [] => .ok []
  | index, v :: rest =>
    match ConstRecord.ofValue? v with
    | some c => do return c :: (← constRecords title (index + 1) rest)
    | none => .error (.unencodable title index v.kind)

/-- The constants of plain fields, the first with the given index. -/
def constValues (name : Text) : (index : Nat) → List ConstRecord → Except Error (List Value)
  | _, [] => .ok []
  | index, c :: rest =>
    match c.toValue? with
    | some v => do return v :: (← constValues name (index + 1) rest)
    | none => .error (.constKind name index c.kind)

mutual

/-- A block as a record. -/
def BlockRecord.ofBlock : CodeBlock → Except Error BlockRecord
  | ⟨data, blocks⟩ => do
    let consts ← constRecords data.title 0 data.consts
    let subs ← BlockRecord.ofPlaces blocks
    return {
      version := version, id := data.id, name := data.name, source := data.source
      code? := data.code?, consts, registers := data.registers
      sharedSizes? := data.sharedSizes?, sourceMap := data.sourceMap, blocks := subs }

/-- Nested blocks as records. -/
def BlockRecord.ofPlaces : List (Option CodeBlock) → Except Error (List BlockRecord)
  | [] => .ok []
  | sub :: rest => do return (← BlockRecord.ofPlace sub) :: (← BlockRecord.ofPlaces rest)

/-- The block at one place as a record. -/
def BlockRecord.ofPlace : Option CodeBlock → Except Error BlockRecord
  | none => .error (.stopped .invalidAccess)
  | some sub => BlockRecord.ofBlock sub

end

mutual

/-- The block of a record. -/
def BlockRecord.toBlock : BlockRecord → Except Error CodeBlock
  | ⟨fields, blocks⟩ =>
    if fields.version ≠ version then .error (.version fields.version)
    else do
      let consts ← constValues fields.name 0 fields.consts
      let subs ← BlockRecord.toBlocks blocks
      return {
        id := fields.id, name := fields.name, source := fields.source, code? := fields.code?
        consts, registers := fields.registers
        nestLevel := Int64.ofNat (fields.sharedSizes?.getD []).length
        sharedSizes? := fields.sharedSizes?, sourceMap := fields.sourceMap, blocks := subs }

/-- The nested blocks of records. -/
def BlockRecord.toBlocks : List BlockRecord → Except Error (List (Option CodeBlock))
  | [] => .ok []
  | sub :: rest => do return some (← BlockRecord.toBlock sub) :: (← BlockRecord.toBlocks rest)

end

/-- A map entry with an integer key. -/
def entry (key : Nat) (value : Cbor) : Cbor × Cbor := (.unsigned key, value)

/-- A map entry that is left out when the value is empty. -/
def entryUnless (empty : Bool) (key : Nat) (value : Cbor) : List (Cbor × Cbor) :=
  if empty then [] else [entry key value]

/-- A constant as a map. -/
def ConstRecord.toCbor (c : ConstRecord) : Cbor :=
  .map ([entry 1 (.unsigned c.kind.toNat)] ++ entryUnless (c.int = 0) 2 (Cbor.ofInt c.int.toInt) ++
    [entry 3 (.real c.real)] ++ entryUnless c.bytes.isEmpty 4 (.bytes c.bytes))

/-- A source position as a map. -/
def locToCbor (l : SourceLoc) : Cbor :=
  .map [entry 1 (Cbor.ofInt l.offset.toInt), entry 2 (Cbor.ofInt l.line.toInt),
    entry 3 (Cbor.ofInt l.column.toInt)]

/-- Absent code is null, which differs from code without words. -/
def codeToCbor : Option (Array UInt32) → Cbor
  | none => .null
  | some code => .array (code.toList.map fun w => .unsigned w.toNat)

mutual

/-- A record as a map; names, constants, sizes, nested blocks and source map
are left out when empty. -/
def BlockRecord.toCbor : BlockRecord → Cbor
  | ⟨f, blocks⟩ =>
    .map ([entry 1 (.unsigned f.version.toNat), entry 2 (.bytes f.id.toList)] ++
      entryUnless f.name.isEmpty 3 (.text [f.name]) ++
      entryUnless f.source.isEmpty 4 (.text [f.source]) ++
      [entry 5 (codeToCbor f.code?)] ++
      entryUnless f.consts.isEmpty 6 (.array (f.consts.map ConstRecord.toCbor)) ++
      [entry 7 (Cbor.ofInt f.registers.toInt)] ++
      entryUnless (f.sharedSizes?.getD []).isEmpty 8
        (.array ((f.sharedSizes?.getD []).map fun n => Cbor.ofInt n.toInt)) ++
      entryUnless blocks.isEmpty 9 (.array (BlockRecord.toCbors blocks)) ++
      entryUnless f.sourceMap.isEmpty 10 (.array (f.sourceMap.map locToCbor)))

/-- Records as maps. -/
def BlockRecord.toCbors : List BlockRecord → List Cbor
  | [] => []
  | r :: rest => BlockRecord.toCbor r :: BlockRecord.toCbors rest

end

mutual

/-- A record with its identity and all nested ones cleared. -/
def BlockRecord.anonymous : BlockRecord → BlockRecord
  | ⟨f, blocks⟩ => ⟨{ f with id := .zero }, BlockRecord.anonymousAll blocks⟩

/-- Records with all identities cleared. -/
def BlockRecord.anonymousAll : List BlockRecord → List BlockRecord
  | [] => []
  | r :: rest => BlockRecord.anonymous r :: BlockRecord.anonymousAll rest

end

/-- The bytes of a block. -/
def encode (b : CodeBlock) : Except Error Text := do
  let record ← BlockRecord.ofBlock b
  return record.toCbor.encode

/-- The content hash of a block: blocks that differ in identities only share it. -/
def hash (b : CodeBlock) : Except Error Text := do
  let record ← BlockRecord.ofBlock b
  return Sha256.digest record.anonymous.toCbor.encode

end ScriptEngine.Wire
