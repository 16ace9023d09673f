import ScriptEngine.Text

/-! Reading a byte string as characters. Bytes that are not part of a
well-formed UTF-8 sequence stand for themselves, one at a time. -/
namespace ScriptEngine

/-- One readable unit of a text: a character, or a byte that belongs to none. -/
inductive Glyph where
  | char (code : Nat)
  | stray (byte : UInt8)
deriving DecidableEq, Repr

namespace Text

/-- A byte that continues a multi-byte sequence. -/
def isContinuation (b : UInt8) : Bool := 0x80 ≤ b && b ≤ 0xbf

/-- The payload bits of a continuation byte. -/
def payload (b : UInt8) : Nat := (b &&& 0x3f).toNat

/-- A two-byte sequence; the lead bytes `c0` and `c1` would encode ASCII. -/
def pair? (a b : UInt8) : Option Nat :=
  if 0xc2 ≤ a ∧ a ≤ 0xdf ∧ isContinuation b then
    some ((a &&& 0x1f).toNat * 64 + payload b)
  else none

/-- A three-byte sequence, excluding overlong forms and surrogates. -/
def triple? (a b c : UInt8) : Option Nat :=
  if 0xe0 ≤ a ∧ a ≤ 0xef ∧ isContinuation b ∧ isContinuation c ∧
      (a ≠ 0xe0 ∨ 0xa0 ≤ b) ∧ (a ≠ 0xed ∨ b ≤ 0x9f) then
    some (((a &&& 0x0f).toNat * 64 + payload b) * 64 + payload c)
  else none

/-- A four-byte sequence, excluding overlong forms and codes above `10ffff`. -/
def quadruple? (a b c d : UInt8) : Option Nat :=
  if 0xf0 ≤ a ∧ a ≤ 0xf4 ∧ isContinuation b ∧ isContinuation c ∧ isContinuation d ∧
      (a ≠ 0xf0 ∨ 0x90 ≤ b) ∧ (a ≠ 0xf4 ∨ b ≤ 0x8f) then
    some ((((a &&& 0x07).toNat * 64 + payload b) * 64 + payload c) * 64 + payload d)
  else none

/-- The character a multi-byte sequence begins with, and its length. -/
def multibyte? : Text → Option (Nat × Nat)
  | a :: b :: rest =>
    match pair? a b with
    | some code => some (code, 2)
    | none =>
      match rest with
      | c :: rest' =>
        match triple? a b c with
        | some code => some (code, 3)
        | none =>
          match rest' with
          | d :: _ => (quadruple? a b c d).map (·, 4)
          | [] => none
      | [] => none
  | _ => none

/-- The glyphs after the next `skip` bytes, which an earlier glyph covers. -/
def glyphsFrom : Nat → Text → List Glyph
  | _, [] => []
  | skip + 1, _ :: rest => glyphsFrom skip rest
  | 0, b :: rest =>
    if b < 0x80 then .char b.toNat :: glyphsFrom 0 rest
    else
      match multibyte? (b :: rest) with
      | some (code, length) => .char code :: glyphsFrom (length - 1) rest
      | none => .stray b :: glyphsFrom 0 rest

/-- A text as a sequence of glyphs. -/
def glyphs (t : Text) : List Glyph := glyphsFrom 0 t

/-- The UTF-8 bytes of a character code. -/
def ofCode (code : Nat) : Text := String.utf8EncodeChar (Char.ofNat code)

/-- A text all of whose bytes belong to characters. -/
def isUtf8 (t : Text) : Bool :=
  (glyphs t).all fun
    | .char _ => true
    | .stray _ => false

end Text

/-- The bytes a glyph was read from. -/
def Glyph.bytes : Glyph → Text
  | .char code => Text.ofCode code
  | .stray b => [b]

end ScriptEngine
