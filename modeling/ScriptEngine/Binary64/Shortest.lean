import ScriptEngine.Binary64

/-! The shortest decimal that reads back as a given number.

For growing digit counts the two neighbours of the number on that decimal grid
are tried; the first grid with a neighbour that rounds back to the number wins,
and of two such neighbours the nearer one. The test is the reader's own
rounding, so what is written reads back by construction. -/
namespace ScriptEngine.Binary64

/-- A decimal `digits * 10 ^ exponent`. -/
structure Decimal where
  digits : Nat
  exponent : Int
deriving DecidableEq, Repr

/-- Whether a decimal rounds to the given magnitude. -/
def Decimal.readsAs (d : Decimal) (magnitude : Nat) : Bool :=
  (ofDecimal false d.digits d.exponent).magnitude = magnitude

/-- `units * 10 ^ -exponent` as a fraction: the number in steps of a grid. -/
def gridFraction (units : Nat) (exponent : Int) : Nat × Nat :=
  if 0 ≤ exponent then (units, unitsPerOne * Nat.pow 10 exponent.toNat)
  else (units * Nat.pow 10 exponent.natAbs, unitsPerOne)

/-- The better of the two neighbours on a grid that read back, if any. An
exact tie goes to the even neighbour. -/
def gridNeighbour? (units magnitude : Nat) (exponent : Int) : Option Decimal :=
  let (num, den) := gridFraction units exponent
  let below : Decimal := ⟨num / den, exponent⟩
  let above : Decimal := ⟨num / den + 1, exponent⟩
  match below.readsAs magnitude, above.readsAs magnitude with
  | true, true => some ⟨divideNearest num den, exponent⟩
  | true, false => some below
  | false, true => some above
  | false, false => none

/-- The first `e`, going down from `start`, with `10 ^ e` not above the number. -/
def descendExponent (units : Nat) : (fuel : Nat) → (start : Int) → Int
  | 0, e => e
  | fuel + 1, e =>
    if unitsPerOne ≤ units * Nat.pow 10 e.natAbs then e else descendExponent units fuel (e - 1)

/-- The exponent of the leading decimal digit of a nonzero number. -/
def leadingExponent (units : Nat) : Int :=
  let whole := units / unitsPerOne
  if whole = 0 then descendExponent units 330 (-1)
  else ((Nat.toDigits 10 whole).length : Int) - 1

/-- Tries the grids with `count`, `count + 1`, … digits. -/
def firstGrid (units magnitude : Nat) (leading : Int) : (fuel count : Nat) → Option Decimal
  | 0, _ => none
  | fuel + 1, count =>
    match gridNeighbour? units magnitude (leading - count + 1) with
    | some d => some d
    | none => firstGrid units magnitude leading fuel (count + 1)

/-- Every digit of the exact value. -/
def exactDecimal (units : Nat) : Decimal := ⟨units * Nat.pow 5 1074, -1074⟩

/-- The digits of a decimal without trailing zeros, most significant first,
and the exponent of its first digit. -/
structure Digits where
  digits : List Nat
  leading : Int
deriving DecidableEq, Repr

/-- A decimal by its digits. -/
def Decimal.toDigits (d : Decimal) : Digits :=
  let ds := (Nat.toDigits 10 d.digits).map fun c => c.toNat - 48
  let kept := (ds.reverse.dropWhile (· == 0)).reverse
  ⟨kept, d.exponent + (ds.length : Int) - 1⟩

/-- The shortest decimal that reads back as the size of a finite nonzero
number; seventeen digits always suffice. -/
def shortest (x : Binary64) : Decimal :=
  let units := x.units
  match firstGrid units x.magnitude (leadingExponent units) 17 1 with
  | some d => d
  | none => exactDecimal units

end ScriptEngine.Binary64
