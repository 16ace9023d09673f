/-! Byte strings. A script string is a sequence of bytes that need not be
well-formed UTF-8; everything the engine writes is such a sequence too. -/
namespace ScriptEngine

/-- A sequence of bytes, by convention UTF-8 but never required to be. -/
abbrev Text := List UInt8

/-- The UTF-8 encoding of a character string. -/
def utf8 (s : String) : Text := s.toList.flatMap String.utf8EncodeChar

namespace Text

/-- The bytes as one packed array. -/
def toByteArray (t : Text) : ByteArray := ⟨t.toArray⟩

/-- The character string a text encodes, when it is well-formed UTF-8. -/
def toString? (t : Text) : Option String := String.fromUTF8? (toByteArray t)

/-- Byte-wise lexicographic order: a proper initial part comes first. -/
def order : Text → Text → Ordering
  | [], [] => .eq
  | [], _ :: _ => .lt
  | _ :: _, [] => .gt
  | a :: s, b :: t => if a < b then .lt else if b < a then .gt else order s t

/-- Not after in byte-wise order. -/
def le (s t : Text) : Bool := order s t != .gt

/-- Texts joined with a separator between neighbours. -/
def joined (separator : Text) : List Text → Text
  | [] => []
  | [t] => t
  | t :: ts => t ++ separator ++ joined separator ts

/-- The parts between marks, empty ones included. -/
def split (mark : UInt8) : Text → List Text
  | [] => [[]]
  | c :: rest =>
    if c = mark then [] :: split mark rest
    else
      match split mark rest with
      | part :: others => (c :: part) :: others
      | [] => [[c]]

/-- Texts in byte-wise order. -/
def sorted (ts : List Text) : List Text := ts.mergeSort le

/-- At least `width` bytes, blanks added on the right. -/
def padRight (width : Nat) (t : Text) : Text := t ++ List.replicate (width - t.length) 0x20

/-- At least `width` bytes, blanks added on the left. -/
def padLeft (width : Nat) (t : Text) : Text := List.replicate (width - t.length) 0x20 ++ t

/-- The text of a natural number in base `base`, in lower case. -/
def ofNatBase (base n : Nat) : Text := (Nat.toDigits base n).map fun c => c.toNat.toUInt8

/-- Decimal text of a natural number. -/
def ofNat (n : Nat) : Text := ofNatBase 10 n

/-- Decimal text of an integer; only a negative one carries a sign. -/
def ofInt (i : Int) : Text := if i < 0 then 0x2d :: ofNat i.natAbs else ofNat i.natAbs

/-- Decimal text with zeros after the sign up to `width` bytes in all. -/
def ofIntPadded (width : Nat) (i : Int) : Text :=
  let digits := ofNat i.natAbs
  if i < 0 then 0x2d :: (List.replicate (width - 1 - digits.length) 0x30 ++ digits)
  else List.replicate (width - digits.length) 0x30 ++ digits

/-- The lower-case digit of a value below sixteen. -/
def hexDigit (n : UInt8) : UInt8 := if n < 10 then n + 0x30 else n + 0x57

/-- Two lower-case hexadecimal digits. -/
def hexByte (b : UInt8) : Text := [hexDigit (b >>> 4), hexDigit (b &&& 15)]

/-- Every byte as two lower-case hexadecimal digits. -/
def hex (t : Text) : Text := t.flatMap hexByte

/-- The value of a hexadecimal digit of either case. -/
def hexValue? (c : UInt8) : Option UInt8 :=
  if 0x30 ≤ c ∧ c ≤ 0x39 then some (c - 0x30)
  else if 0x61 ≤ c ∧ c ≤ 0x66 then some (c - 0x57)
  else if 0x41 ≤ c ∧ c ≤ 0x46 then some (c - 0x37)
  else none

/-- The bytes that pairs of hexadecimal digits spell. -/
def ofHex? : Text → Option Text
  | [] => some []
  | [_] => none
  | a :: b :: rest => do
    let hi ← hexValue? a
    let lo ← hexValue? b
    let tail ← ofHex? rest
    return (hi <<< 4 ||| lo) :: tail

end Text
end ScriptEngine
