import ScriptEngine.Cbor

/-! Reading data items. Any head that is well formed is taken, also one that is
longer than needed, and so are indefinite lengths; containers nest up to a
limit and have a limited number of elements. -/
namespace ScriptEngine.Cbor

/-- How deep arrays and maps may nest. -/
def maxLevels : Nat := 32

/-- How many elements an array, or pairs a map, may have. -/
def maxElements : Nat := 131072

/-- A head: major type, and the argument unless the length is indefinite. -/
structure Head where
  major : Nat
  info : Nat
  argument : Option Nat

/-- The first `count` bytes and the rest. -/
def takeBytes (count : Nat) (t : Text) : Option (Text × Text) :=
  let taken := t.take count
  if taken.length = count then some (taken, t.drop count) else none

/-- The number that bytes spell, the most significant first. -/
def ofBigEndian (t : Text) : Nat := t.foldl (fun n b => n * 256 + b.toNat) 0

/-- Bytes of argument that follow a lead byte with the given low bits. -/
def argumentWidth? (info : Nat) : Option Nat :=
  match info with
  | 24 => some 1
  | 25 => some 2
  | 26 => some 4
  | 27 => some 8
  | _ => none

/-- Reads a head. Two-byte simple values below 32 are ill formed, and so are
reserved low bits and indefinite lengths where there is no length. -/
def readHead : Text → Option (Head × Text)
  | [] => none
  | lead :: rest =>
    let major := lead.toNat / 32
    let info := lead.toNat % 32
    if info < 24 then some (⟨major, info, some info⟩, rest)
    else if info = 31 then
      if major = 0 ∨ major = 1 ∨ major = 6 ∨ major = 7 then none
      else some (⟨major, info, none⟩, rest)
    else do
      let width ← argumentWidth? info
      let (digits, rest) ← takeBytes width rest
      let n := ofBigEndian digits
      if major = 7 ∧ info = 24 ∧ n < 32 then none else some (⟨major, info, some n⟩, rest)

/-- Reads definite strings of one major type up to a break. -/
def readChunks (major : Nat) : (fuel : Nat) → Text → Option (List Text × Text)
  | 0, _ => none
  | fuel + 1, t =>
    match t with
    | 0xff :: rest => some ([], rest)
    | t => do
      let (h, rest) ← readHead t
      let length ← h.argument
      if h.major ≠ major then none
      else
        let (chunk, rest) ← takeBytes length rest
        let (chunks, rest) ← readChunks major fuel rest
        return (chunk :: chunks, rest)

/-- Reads `count` items one after the other. -/
def readCounted (item : Text → Option (Cbor × Text)) : (count : Nat) → Text → Option (List Cbor × Text)
  | 0, t => some ([], t)
  | count + 1, t => do
    let (x, rest) ← item t
    let (xs, rest) ← readCounted item count rest
    return (x :: xs, rest)

/-- Reads items up to a break. -/
def readToBreak (item : Text → Option (Cbor × Text)) : (fuel : Nat) → Text → Option (List Cbor × Text)
  | 0, _ => none
  | fuel + 1, t =>
    match t with
    | 0xff :: rest => some ([], rest)
    | t => do
      let (x, rest) ← item t
      let (xs, rest) ← readToBreak item fuel rest
      return (x :: xs, rest)

/-- Neighbouring items as pairs; nothing if one is left over. -/
def pairUp : List Cbor → Option (List (Cbor × Cbor))
  | [] => some []
  | [_] => none
  | k :: v :: rest => (pairUp rest).map ((k, v) :: ·)

/-- The content of a container with `perElement` items per element. -/
def readContent (item : Text → Option (Cbor × Text)) (perElement : Nat) (argument : Option Nat)
    (t : Text) : Option (List Cbor × Text) :=
  match argument with
  | some count =>
    if count ≤ maxElements then readCounted item (perElement * count) t else none
  | none => do
    let (items, rest) ← readToBreak item (perElement * (maxElements + 1) + 1) t
    if items.length / perElement ≤ maxElements then some (items, rest) else none

/-- A string that is definite or comes in chunks. -/
def readString (major : Nat) (argument : Option Nat) (t : Text) : Option (List Text × Text) :=
  match argument with
  | some length => (takeBytes length t).map fun (chunk, rest) => ([chunk], rest)
  | none => readChunks major (t.length + 1) t

/-- A number or simple value. -/
def ofPrimitive (info argument : Nat) : Cbor :=
  match info with
  | 25 => .real (Binary64.half.widen argument)
  | 26 => .real (Binary64.single.widen argument)
  | 27 => .real ⟨UInt64.ofNat argument⟩
  | _ => .simple argument

/-- Heads of tags that follow one another, as their numbers. -/
def readTags : (fuel : Nat) → Text → Option (List Nat × Text)
  | 0, _ => none
  | fuel + 1, t =>
    match t with
    | [] => some ([], [])
    | lead :: _ =>
      if lead.toNat / 32 = 6 then do
        let (h, rest) ← readHead t
        let number ← h.argument
        let (numbers, rest) ← readTags fuel rest
        return (number :: numbers, rest)
      else some ([], t)

/-- What follows a head. `levels` says how many containers may still nest, and
`item` reads what a container holds. -/
def readBody (item : Text → Option (Cbor × Text)) (levels : Nat) (h : Head) (t : Text) :
    Option (Cbor × Text) :=
  match h.major with
  | 0 => h.argument.map fun n => (.unsigned n, t)
  | 1 => h.argument.map fun n => (.negative n, t)
  | 2 => (readString 2 h.argument t).map fun (chunks, rest) => (.bytes chunks.flatten, rest)
  | 3 => (readString 3 h.argument t).map fun (chunks, rest) => (.text chunks, rest)
  | 4 =>
    if levels = 0 then none
    else (readContent item 1 h.argument t).map fun (items, rest) => (.array items, rest)
  | 5 =>
    if levels = 0 then none
    else
      (readContent item 2 h.argument t).bind fun (items, rest) =>
        (pairUp items).map fun entries => (.map entries, rest)
  | _ => h.argument.map fun n => (ofPrimitive h.info n, t)

/-- Reads an item. `levels` says how many containers may still nest; a tag
beyond the first in a row counts as one. `fuel` bounds the nesting too and is
meant to exceed `levels`. -/
def readItem : (fuel levels : Nat) → Text → Option (Cbor × Text)
  | 0, _, _ => none
  | fuel + 1, levels, t => do
    let (tags, t) ← readTags (levels + 2) t
    let extra := tags.length - 1
    if levels < extra then none
    else
      let levels := levels - extra
      let (h, rest) ← readHead t
      let (item, rest) ← readBody (readItem fuel (levels - 1)) levels h rest
      return (tags.foldr .tag item, rest)

/-- The item that a text encodes as a whole. -/
def decode? (t : Text) : Option Cbor :=
  match readItem (maxLevels + 1) maxLevels t with
  | some (item, []) => some item
  | _ => none

end ScriptEngine.Cbor
