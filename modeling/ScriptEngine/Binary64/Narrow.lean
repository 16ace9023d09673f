import ScriptEngine.Binary64

/-! Narrower binary formats that are used to write numbers compactly. A number
is written narrowly only if nothing is lost. -/
namespace ScriptEngine.Binary64

/-- A binary format: bits of fraction, the exponent field that marks numbers
which are not finite, and how many units of binary64 its smallest step has, as
a power of two. -/
structure Format where
  fractionBits : Nat
  topExponent : Nat
  stepExponent : Nat

def half : Format := ⟨10, 31, 1050⟩
def single : Format := ⟨23, 255, 925⟩

namespace Format

/-- The magnitude field of an infinity. -/
def infinite (f : Format) : Nat := f.topExponent <<< f.fractionBits

/-- The sign bit. -/
def signBit (f : Format) : Nat := f.infinite + 1 <<< f.fractionBits

/-- The magnitude field of a size in units, if the format has that size. -/
def magnitude? (f : Format) (units : Nat) : Option Nat :=
  let step := 1 <<< f.stepExponent
  let steps := units / step
  let shift := if steps < 1 <<< (f.fractionBits + 1) then 0 else steps.log2 - f.fractionBits
  let field := shift <<< f.fractionBits + steps >>> shift
  if units % step = 0 ∧ steps % 1 <<< shift = 0 ∧ field < f.infinite then some field else none

/-- The pattern of a number that is not a not-a-number, if nothing is lost. -/
def narrow? (f : Format) (x : Binary64) : Option Nat := do
  let field ← if x.isInfinite then some f.infinite else f.magnitude? x.units
  return if x.isNegative then f.signBit + field else field

/-- The number that a pattern stands for. A not-a-number keeps its sign and its
fraction, with the first bit of that set. -/
def widen (f : Format) (pattern : Nat) : Binary64 :=
  let negative := f.signBit ≤ pattern
  let field := pattern % f.signBit
  if f.infinite < field then
    ofMagnitude negative (infiniteMagnitude + ((field - f.infinite) <<< (52 - f.fractionBits) ||| 1 <<< 51))
  else if field = f.infinite then infinity negative
  else
    let exponent := field >>> f.fractionBits
    let steps :=
      if exponent = 0 then field
      else (1 <<< f.fractionBits + field % 1 <<< f.fractionBits) <<< (exponent - 1)
    round negative (steps <<< f.stepExponent) 1

end Format
end ScriptEngine.Binary64
