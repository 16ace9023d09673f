import ScriptEngine.Text.Printable
import ScriptEngine.Text.Utf8

/-! Texts between double quotes, with escapes for everything that would not
print. A stray byte is written by its value, so quoting loses nothing. -/
namespace ScriptEngine

/-- Lower-case hexadecimal text with at least `width` digits. -/
def Text.hexPadded (width n : Nat) : Text :=
  let digits := Text.ofNatBase 16 n
  List.replicate (width - digits.length) 0x30 ++ digits

/-- The two-character escapes. -/
def shortEscape? (code : Nat) : Option UInt8 :=
  match code with
  | 7 => some 0x61
  | 8 => some 0x62
  | 9 => some 0x74
  | 10 => some 0x6e
  | 11 => some 0x76
  | 12 => some 0x66
  | 13 => some 0x72
  | 0x22 => some 0x22
  | 0x5c => some 0x5c
  | _ => none

/-- A glyph as it stands between quotes. -/
def Glyph.quoted : Glyph → Text
  | .stray b => utf8 "\\x" ++ Text.hexByte b
  | .char code =>
    match shortEscape? code with
    | some letter => [0x5c, letter]
    | none =>
      if isPrintable code then Text.ofCode code
      else if code < 0x20 ∨ code = 0x7f then utf8 "\\x" ++ Text.hexPadded 2 code
      else if code < 0x10000 then utf8 "\\u" ++ Text.hexPadded 4 code
      else utf8 "\\U" ++ Text.hexPadded 8 code

/-- A text between double quotes. -/
def Text.quoted (t : Text) : Text := 0x22 :: (t.glyphs.flatMap Glyph.quoted ++ [0x22])

end ScriptEngine
