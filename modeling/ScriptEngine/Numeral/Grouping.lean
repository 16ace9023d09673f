import ScriptEngine.Text

/-! Underscores that group digits. One may stand between two digits or between
a base letter and a digit, nowhere else. -/
namespace ScriptEngine.Numeral

/-- ASCII letters in lower case; other bytes unchanged. -/
def lower (c : UInt8) : UInt8 := if 0x41 ≤ c ∧ c ≤ 0x5a then c + 0x20 else c

def isDigit (c : UInt8) : Bool := 0x30 ≤ c && c ≤ 0x39

/-- A letter that is a digit above nine in base sixteen. -/
def isHexLetter (c : UInt8) : Bool := 0x61 ≤ lower c && lower c ≤ 0x66

/-- What precedes a position of a numeral, as far as grouping cares. -/
inductive Before where
  | start
  | digit
  | separator
  | other
deriving DecidableEq

/-- Checks the rest of a numeral. -/
def groupedFrom (hexadecimal : Bool) : Before → Text → Bool
  | before, [] => before ≠ .separator
  | before, c :: rest =>
    if isDigit c || (hexadecimal && isHexLetter c) then groupedFrom hexadecimal .digit rest
    else if c = 0x5f then before = .digit && groupedFrom hexadecimal .separator rest
    else before ≠ .separator && groupedFrom hexadecimal .other rest

/-- Drops one leading sign. -/
def unsigned : Text → Text
  | c :: rest => if c = 0x2b ∨ c = 0x2d then rest else c :: rest
  | [] => []

/-- Whether every underscore of a numeral groups digits. A base letter counts
as a digit. -/
def isGrouped (t : Text) : Bool :=
  match unsigned t with
  | 0x30 :: c :: rest =>
    if lower c = 0x62 ∨ lower c = 0x6f ∨ lower c = 0x78 then
      groupedFrom (lower c = 0x78) .digit rest
    else groupedFrom false .start (0x30 :: c :: rest)
  | body => groupedFrom false .start body

end ScriptEngine.Numeral
