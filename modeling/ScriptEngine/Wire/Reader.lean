import ScriptEngine.Wire

/-! Reading encoded blocks. Unknown fields are passed over, of a repeated key the
first counts, null leaves a field as it was, and tags other than those for big
integers are transparent. -/
namespace ScriptEngine.Wire

/-- Whether the content of a tag has the type that the tag prescribes: text for
dates, numbers for times, byte strings for big integers. -/
def tagAdmits (number : Nat) (content : Cbor) : Bool :=
  match number, content with
  | 0, .text _ => true
  | 0, _ => false
  | 1, .unsigned _ => true
  | 1, .negative _ => true
  | 1, .real _ => true
  | 1, _ => false
  | 2, .bytes _ => true
  | 2, _ => false
  | 3, .bytes _ => true
  | 3, _ => false
  | _, _ => true

/-- The tag that only announces the format. -/
def selfDescribed : Nat := 55799

/-- What remains of an item once transparent tags are removed. -/
inductive Plain where
  | item (x : Cbor)
  /-- A big integer by its bytes; `below` if it counts down from minus one. -/
  | big (below : Bool) (bytes : Text)

/-- Removes transparent tags; fails on a tag with content of the wrong type. -/
def plain : Cbor → Option Plain
  | .tag number content =>
    if number = selfDescribed then plain content
    else if !tagAdmits number content then none
    else
      match number, content with
      | 2, .bytes b => some (.big false b)
      | 3, .bytes b => some (.big true b)
      | _, _ => plain content
  | x => some (.item x)

/-- Null and undefined. -/
def isNull : Cbor → Bool
  | .simple code => code = 22 || code = 23
  | _ => false

/-- An integer within bounds; a simple value without a meaning of its own
counts as its number. Null keeps the value given before. -/
def readInt (least most : Int) (before : Int) (x : Cbor) : Option Int := do
  let bounded (i : Int) : Option Int := if least ≤ i ∧ i ≤ most then some i else none
  match ← plain x with
  | .item (.unsigned n) => bounded n
  | .item (.negative n) => bounded (-1 - (n : Int))
  | .item (.simple code) =>
    if code = 22 ∨ code = 23 then some before
    else if code = 20 ∨ code = 21 then none
    else bounded code
  | .item _ => none
  | .big below b =>
    let n : Int := Cbor.ofBigEndian b
    if below then bounded (-1 - n) else bounded n

/-- A field of 64 bits. -/
def readInt64 (before : Int64) (x : Cbor) : Option Int64 :=
  (readInt Int64.minValue.toInt Int64.maxValue.toInt before.toInt x).map Int64.ofInt

/-- A byte. -/
def readByte (before : UInt8) (x : Cbor) : Option UInt8 :=
  (readInt 0 255 before.toNat x).map fun i => i.toNat.toUInt8

/-- A word of 32 bits. -/
def readWord (before : UInt32) (x : Cbor) : Option UInt32 :=
  (readInt 0 (UInt32.size - 1) before.toNat x).map fun i => i.toNat.toUInt32

/-- A real; integers of 64 bits convert. -/
def readReal (before : Binary64) (x : Cbor) : Option Binary64 := do
  let converted (least most i : Int) : Option Binary64 :=
    if least ≤ i ∧ i ≤ most then some (Binary64.ofInt i) else none
  match ← plain x with
  | .item (.unsigned n) => some (Binary64.ofInt n)
  | .item (.negative n) => converted Int64.minValue.toInt 0 (-1 - (n : Int))
  | .item (.real r) => some r
  | .item (.simple code) =>
    if code = 22 ∨ code = 23 then some before
    else if code = 20 ∨ code = 21 then none
    else some (Binary64.ofInt code)
  | .item _ => none
  | .big below b =>
    let n : Int := Cbor.ofBigEndian b
    if below then converted Int64.minValue.toInt 0 (-1 - n) else converted 0 (UInt64.size - 1) n

/-- A text, every chunk of which is well-formed UTF-8. -/
def readText (before : Text) (x : Cbor) : Option Text := do
  match ← plain x with
  | .item (.text chunks) => if chunks.all Text.isUtf8 then some chunks.flatten else none
  | .item y => if isNull y then some before else none
  | .big .. => none

/-- Reads every item of a list. -/
def readAll {α : Type} (read : Cbor → Option α) : List Cbor → Option (List α)
  | [] => some []
  | x :: rest => do return (← read x) :: (← readAll read rest)

/-- A list of elements; null is the absence of a list. -/
def readList {α : Type} (read : Cbor → Option α) (x : Cbor) : Option (Option (List α)) := do
  match ← plain x with
  | .item (.array items) => (readAll read items).map some
  | .item y => if isNull y then some none else none
  | .big .. => none

/-- A byte string, or a list of bytes. -/
def readBytes (x : Cbor) : Option Text := do
  match ← plain x with
  | .item (.bytes b) => some b
  | .item (.array items) => readAll (readByte 0) items
  | .item y => if isNull y then some [] else none
  | .big _ b => some b

/-- An identity: its bytes are padded or cut to sixteen. -/
def readId (before : BlockId) (x : Cbor) : Option BlockId := do
  match ← plain x with
  | .item (.bytes b) => some (.ofBytes b)
  | .item (.array items) => (readAll (readByte 0) (items.take 16)).map BlockId.ofBytes
  | .item y => if isNull y then some before else none
  | .big _ b => some (.ofBytes b)

/-- What a key of a map refers to: a field number, nothing, or a fault. -/
inductive KeyMeaning where
  | field (number : Int)
  | unknown
  | fault

/-- An integer key is a field number: an unsigned one is taken modulo its 64
bits, a negative one has to fit. The decimal text of a field number from one to
ten is that field, and other text is unknown. Nothing else is a key. -/
def keyMeaning : Cbor → KeyMeaning
  | .unsigned n => .field (Int64.ofNat n).toInt
  | .negative n => if n < 1 <<< 63 then .field (-1 - (n : Int)) else .fault
  | .text chunks =>
    if chunks.all Text.isUtf8 then
      match (List.range 10).find? fun i => Text.ofNat (i + 1) = chunks.flatten with
      | some i => .field (i + 1 : Nat)
      | none => .unknown
    else .fault
  | _ => .fault

/-- Goes through the entries of a map, giving each known field's first value to
`set`, which may not know the field. -/
def readEntries {α : Type} (set : Int → Cbor → α → Option α) (known : Int → Bool) :
    (seen : List Int) → List (Cbor × Cbor) → α → Option α
  | _, [], a => some a
  | seen, (key, value) :: rest, a =>
    match keyMeaning key with
    | .fault => none
    | .unknown => readEntries set known seen rest a
    | .field n =>
      if known n && !seen.contains n then
        match set n value a with
        | some a => readEntries set known (n :: seen) rest a
        | none => none
      else readEntries set known seen rest a

/-- A map of fields; null leaves all fields as they were. -/
def readRecord {α : Type} (set : Int → Cbor → α → Option α) (count : Nat) (before : α)
    (x : Cbor) : Option α := do
  match ← plain x with
  | .item (.map entries) => readEntries set (fun n => 1 ≤ n && n ≤ count) [] entries before
  | .item y => if isNull y then some before else none
  | .big .. => none

/-- Sets a field of a constant. -/
def setConst (n : Int) (x : Cbor) (c : ConstRecord) : Option ConstRecord :=
  match n with
  | 1 => (readByte c.kind x).map ({ c with kind := · })
  | 2 => (readInt64 c.int x).map ({ c with int := · })
  | 3 => (readReal c.real x).map ({ c with real := · })
  | 4 => (readBytes x).map ({ c with bytes := · })
  | _ => some c

/-- Sets a field of a source position. -/
def setLoc (n : Int) (x : Cbor) (l : SourceLoc) : Option SourceLoc :=
  match n with
  | 1 => (readInt64 l.offset x).map ({ l with offset := · })
  | 2 => (readInt64 l.line x).map ({ l with line := · })
  | 3 => (readInt64 l.column x).map ({ l with column := · })
  | _ => some l

/-- Sets a field of a block; nested blocks are read by `nested`. -/
def setBlock (nested : Cbor → Option BlockRecord) (n : Int) (x : Cbor) (b : BlockRecord) :
    Option BlockRecord :=
  match n with
  | 1 => (readByte b.version x).map ({ b with version := · })
  | 2 => (readId b.id x).map ({ b with id := · })
  | 3 => (readText b.name x).map ({ b with name := · })
  | 4 => (readText b.source x).map ({ b with source := · })
  | 5 => (readList (readWord 0) x).map fun ws => { b with code? := ws.map List.toArray }
  | 6 => (readList (readRecord setConst 4 {}) x).map fun cs => { b with consts := cs.getD [] }
  | 7 => (readInt64 b.registers x).map ({ b with registers := · })
  | 8 => (readList (readInt64 0) x).map ({ b with sharedSizes? := · })
  | 9 => (readList nested x).map fun bs => { b with blocks := bs.getD [] }
  | 10 => (readList (readRecord setLoc 3 ⟨0, 0, 0⟩) x).map fun ls => { b with sourceMap := ls.getD [] }
  | _ => some b

/-- Reads a record. `fuel` bounds the nesting of blocks. -/
def readBlock : (fuel : Nat) → Cbor → Option BlockRecord
  | 0, _ => none
  | fuel + 1, x => readRecord (setBlock (readBlock fuel)) 10 {} x

/-- The valid block that bytes encode. -/
def decode (t : Text) : Except Error CodeBlock :=
  match (Cbor.decode? t).bind (readBlock (Cbor.maxLevels + 1)) with
  | none => .error .malformed
  | some record => do
    let b ← record.toBlock
    match b.validate with
    | .ok _ => return b
    | .error e => .error (.invalid e)

end ScriptEngine.Wire
