import ScriptEngine.Binary64

/-! Arithmetic and order. An operation passes on the first not-a-number among
its operands; numbers without a numeric answer give `invalid`. -/
namespace ScriptEngine.Binary64

/-- The result of an operation on numbers that has no numeric answer. -/
def invalid : Binary64 := ⟨0xfff8000000000000⟩

/-- A not-a-number as operations give it: with the first bit of its fraction. -/
def quiet (x : Binary64) : Binary64 := ⟨x.bits ||| 0x0008000000000000⟩

/-- The not-a-number that an operation passes on. -/
def passedOn? (a b : Binary64) : Option Binary64 :=
  if a.isNaN then some a.quiet else if b.isNaN then some b.quiet else none

/-- The same size with the other sign, also for zeros and not-a-numbers. -/
def negate (x : Binary64) : Binary64 := ⟨x.bits ^^^ 0x8000000000000000⟩

/-- A sum of units; an exact zero is negative only when both summands were. -/
def ofSum (a b : Binary64) : Binary64 :=
  let total := a.signedUnits + b.signedUnits
  if total = 0 then ofMagnitude (a.isNegative && b.isNegative) 0
  else round (total < 0) total.natAbs 1

/-- The sum of two numbers. -/
def addNumbers (a b : Binary64) : Binary64 :=
  if a.isInfinite then
    if b.isInfinite && a.isNegative != b.isNegative then invalid else a
  else if b.isInfinite then b
  else ofSum a b

/-- The product of two numbers. -/
def mulNumbers (a b : Binary64) : Binary64 :=
  let negative := a.isNegative != b.isNegative
  if a.isInfinite || b.isInfinite then
    if a.isZero || b.isZero then invalid else infinity negative
  else round negative (a.units * b.units) unitsPerOne

/-- The quotient of two numbers. -/
def divNumbers (a b : Binary64) : Binary64 :=
  let negative := a.isNegative != b.isNegative
  if a.isInfinite then
    if b.isInfinite then invalid else infinity negative
  else if b.isInfinite then ofMagnitude negative 0
  else if b.isZero then
    if a.isZero then invalid else infinity negative
  else round negative (a.units * unitsPerOne) b.units

def add (a b : Binary64) : Binary64 := (passedOn? a b).getD (addNumbers a b)
def sub (a b : Binary64) : Binary64 := (passedOn? a b).getD (addNumbers a b.negate)
def mul (a b : Binary64) : Binary64 := (passedOn? a b).getD (mulNumbers a b)
def div (a b : Binary64) : Binary64 := (passedOn? a b).getD (divNumbers a b)

/-- Position on the number line: an integer that orders numbers, equal for
the two zeros. -/
def rank (x : Binary64) : Int := if x.isNegative then -(x.magnitude : Int) else x.magnitude

/-- The order of two numbers, if neither is a not-a-number. -/
def order? (a b : Binary64) : Option Ordering :=
  if a.isNaN || b.isNaN then none else some (compare a.rank b.rank)

/-- Numeric equality: the zeros are equal, a not-a-number equals nothing. -/
def equal (a b : Binary64) : Bool := order? a b == some .eq

end ScriptEngine.Binary64
