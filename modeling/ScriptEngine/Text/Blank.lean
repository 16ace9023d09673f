import ScriptEngine.Text.Utf8

/-! White space, as the Unicode property of that name, and trimming by it. -/
namespace ScriptEngine

/-- Characters with the `White_Space` property. -/
def isBlank (code : Nat) : Bool :=
  (9 ≤ code && code ≤ 13) || code == 0x20 || code == 0x85 || code == 0xa0 || code == 0x1680 ||
    (0x2000 ≤ code && code ≤ 0x200a) || code == 0x2028 || code == 0x2029 || code == 0x202f ||
    code == 0x205f || code == 0x3000

/-- A glyph that trimming removes; a stray byte is never blank. -/
def Glyph.isBlank : Glyph → Bool
  | .char code => ScriptEngine.isBlank code
  | .stray _ => false

/-- A text without its leading and trailing white space. -/
def Text.trimmed (t : Text) : Text :=
  let front := t.glyphs.dropWhile Glyph.isBlank
  let kept := (front.reverse.dropWhile Glyph.isBlank).reverse
  kept.flatMap Glyph.bytes

end ScriptEngine
