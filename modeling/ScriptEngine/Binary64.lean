/-! Binary floating-point numbers of 64 bits, held as bit patterns.

A finite number is a whole multiple of the smallest positive one, so its size
is a natural number of such units. Every operation computes its exact result
as a fraction of units and rounds it once, to nearest with ties to even. -/
namespace ScriptEngine

/-- A binary64 number by its bit pattern, so that not-a-number patterns and
the two zeros stay apart. -/
structure Binary64 where
  bits : UInt64
deriving DecidableEq, Repr, Inhabited

namespace Binary64

/-- The bit pattern as a natural number. -/
def word (x : Binary64) : Nat := x.bits.toNat

def isNegative (x : Binary64) : Bool := 1 <<< 63 ≤ x.word

/-- Exponent and fraction fields together; sizes are ordered like this number. -/
def magnitude (x : Binary64) : Nat := x.word % 1 <<< 63

/-- The magnitude of an infinity; larger ones are not numbers. -/
def infiniteMagnitude : Nat := 2047 <<< 52

def isNaN (x : Binary64) : Bool := infiniteMagnitude < x.magnitude
def isInfinite (x : Binary64) : Bool := x.magnitude = infiniteMagnitude
def isFinite (x : Binary64) : Bool := x.magnitude < infiniteMagnitude
def isZero (x : Binary64) : Bool := x.magnitude = 0

/-- The pattern with a given sign and magnitude. -/
def ofMagnitude (negative : Bool) (magnitude : Nat) : Binary64 :=
  ⟨UInt64.ofNat (if negative then 1 <<< 63 + magnitude else magnitude)⟩

def zero : Binary64 := ⟨0⟩
def infinity (negative : Bool) : Binary64 := ofMagnitude negative infiniteMagnitude

/-- The not-a-number that literals and conversions give. -/
def nan : Binary64 := ⟨0x7ff8000000000001⟩

/-- How many units make one. -/
def unitsPerOne : Nat := 1 <<< 1074

/-- The size of a finite number in units. Below the first binade the
magnitude is the size; each further binade doubles the spacing. -/
def units (x : Binary64) : Nat :=
  let exponent := x.magnitude >>> 52
  if exponent = 0 then x.magnitude
  else (1 <<< 52 + x.magnitude % 1 <<< 52) <<< (exponent - 1)

/-- Size and sign in units. -/
def signedUnits (x : Binary64) : Int := if x.isNegative then -(x.units : Int) else x.units

/-- The quotient of two naturals rounded to nearest, ties to even. -/
def divideNearest (num den : Nat) : Nat :=
  let q := num / den
  let r := num % den
  if 2 * r < den then q
  else if den < 2 * r then q + 1
  else if q % 2 = 0 then q else q + 1

/-- The magnitude nearest to `num / den` units. The significand is rounded to
53 bits; a carry out of it moves into the exponent field by itself. -/
def roundMagnitude (num den : Nat) : Nat :=
  let whole := num / den
  let shift := if whole < 1 <<< 53 then 0 else whole.log2 - 52
  min (shift <<< 52 + divideNearest num (den <<< shift)) infiniteMagnitude

/-- The number nearest to `num / den` units with the given sign. -/
def round (negative : Bool) (num den : Nat) : Binary64 :=
  ofMagnitude negative (roundMagnitude num den)

/-- The number nearest to an integer. -/
def ofInt (i : Int) : Binary64 := round (i < 0) (i.natAbs * unitsPerOne) 1

/-- The number nearest to `digits * 10 ^ exponent`. -/
def ofDecimal (negative : Bool) (digits : Nat) (exponent : Int) : Binary64 :=
  if 0 ≤ exponent then round negative (digits * Nat.pow 10 exponent.toNat * unitsPerOne) 1
  else round negative (digits * unitsPerOne) (Nat.pow 10 exponent.natAbs)

/-- The number nearest to `digits * 2 ^ exponent`. -/
def ofBinary (negative : Bool) (digits : Nat) (exponent : Int) : Binary64 :=
  if 0 ≤ exponent then round negative (digits <<< exponent.toNat * unitsPerOne) 1
  else round negative (digits * unitsPerOne) (1 <<< exponent.natAbs)

/-- The whole part, toward zero; meant for finite numbers. -/
def truncate (x : Binary64) : Int :=
  let whole := x.units / unitsPerOne
  if x.isNegative then -(whole : Int) else whole

end Binary64
end ScriptEngine
