import ScriptEngine.Numeral.Grouping

/-! Integer literals: an optional sign, a base letter after a zero (`0x`, `0b`,
`0o`), a plain leading zero for base eight, and underscores between digits. -/
namespace ScriptEngine.Numeral

/-- The value of a digit or letter, without regard to any base. -/
def digitValue? (c : UInt8) : Option Nat :=
  if isDigit c then some (c.toNat - 48)
  else if 0x61 ≤ lower c ∧ lower c ≤ 0x7a then some ((lower c).toNat - 87)
  else none

/-- Accumulates digits of a base, skipping underscores. -/
def digitsValue? (base : Nat) : (value : Nat) → Text → Option Nat
  | value, [] => some value
  | value, c :: rest =>
    if c = 0x5f then digitsValue? base value rest
    else
      match digitValue? c with
      | some d => if d < base then digitsValue? base (value * base + d) rest else none
      | none => none

/-- The base of an unsigned literal and the digits that follow its mark. -/
def splitBase : Text → Nat × Text
  | 0x30 :: c :: d :: rest =>
    if lower c = 0x62 then (2, d :: rest)
    else if lower c = 0x6f then (8, d :: rest)
    else if lower c = 0x78 then (16, d :: rest)
    else (8, c :: d :: rest)
  | 0x30 :: rest => (8, rest)
  | body => (10, body)

/-- The size of an unsigned literal. -/
def natural? (t : Text) : Option Nat :=
  if t = [] then none
  else
    let (base, digits) := splitBase t
    digitsValue? base 0 digits

/-- The value of an integer literal of any size. -/
def integer? (t : Text) : Option Int := do
  let size ← natural? (unsigned t)
  if t.contains 0x5f && !isGrouped t then none
  else if t.head? = some 0x2d then return -(size : Int)
  else return size

/-- The value of an integer literal that fits in 64 bits. -/
def int64? (t : Text) : Option Int64 := do
  let i ← integer? t
  if Int64.minValue.toInt ≤ i ∧ i ≤ Int64.maxValue.toInt then return Int64.ofInt i else none

end ScriptEngine.Numeral
