import ScriptEngine.Binary64.Narrow
import ScriptEngine.Text.Utf8

/-! Data items of the concise binary object representation and their canonical
encoding: shortest heads, definite lengths, numbers in the narrowest format
that keeps them. -/
namespace ScriptEngine

/-- A data item. Text may come in chunks; `negative n` stands for `-1 - n`. -/
inductive Cbor where
  | unsigned (n : Nat)
  | negative (n : Nat)
  | bytes (b : Text)
  | text (chunks : List Text)
  | array (items : List Cbor)
  | map (entries : List (Cbor × Cbor))
  | tag (number : Nat) (content : Cbor)
  | simple (code : Nat)
  | real (x : Binary64)
deriving Inhabited, Repr

namespace Cbor

/-- A number as `count` bytes, the most significant first. -/
def bigEndian : (count n : Nat) → Text
  | 0, _ => []
  | count + 1, n => (n >>> (8 * count)).toUInt8 :: bigEndian count n

/-- The head of an item: major type and argument, in the fewest bytes. -/
def head (major n : Nat) : Text :=
  let lead (info : Nat) : UInt8 := (major * 32 + info).toUInt8
  if n < 24 then [lead n]
  else if n < UInt8.size then lead 24 :: bigEndian 1 n
  else if n < UInt16.size then lead 25 :: bigEndian 2 n
  else if n < UInt32.size then lead 26 :: bigEndian 4 n
  else lead 27 :: bigEndian 8 n

/-- A real in the narrowest format that keeps it; there is one not-a-number. -/
def encodeReal (x : Binary64) : Text :=
  if x.isNaN then [0xf9, 0x7e, 0x00]
  else
    match Binary64.half.narrow? x with
    | some w => 0xf9 :: bigEndian 2 w
    | none =>
      match Binary64.single.narrow? x with
      | some w => 0xfa :: bigEndian 4 w
      | none => 0xfb :: bigEndian 8 x.word

mutual

/-- The canonical encoding of an item. -/
def encode : Cbor → Text
  | .unsigned n => head 0 n
  | .negative n => head 1 n
  | .bytes b => head 2 b.length ++ b
  | .text chunks => head 3 chunks.flatten.length ++ chunks.flatten
  | .array items => head 4 items.length ++ encodeItems items
  | .map entries => head 5 entries.length ++ encodeEntries entries
  | .tag number content => head 6 number ++ encode content
  | .simple code => head 7 code
  | .real x => encodeReal x

/-- Items one after the other. -/
def encodeItems : List Cbor → Text
  | [] => []
  | item :: rest => encode item ++ encodeItems rest

/-- Keys and values one after the other. -/
def encodeEntries : List (Cbor × Cbor) → Text
  | [] => []
  | entry :: rest => encodeEntry entry ++ encodeEntries rest

/-- A key, then its value. -/
def encodeEntry : Cbor × Cbor → Text
  | (key, value) => encode key ++ encode value

end

/-- An integer of either sign. -/
def ofInt (i : Int) : Cbor := if 0 ≤ i then .unsigned i.toNat else .negative (-1 - i).toNat

/-- The null item. -/
def null : Cbor := .simple 22

end Cbor
end ScriptEngine
