import ScriptEngine.Text
import ScriptEngine.Binary64.Shortest

/-! Numbers as text: the shortest digits that read back, positional for
moderate exponents and in exponent form outside them. -/
namespace ScriptEngine.Binary64

/-- The decisions of a number format. -/
structure Layout where
  /-- Smallest exponent of the leading digit that is written positionally. -/
  lowest : Int
  /-- First exponent that is written in exponent form again. -/
  highest : Int
  /-- Least number of exponent digits. -/
  exponentWidth : Nat
  notANumber : Text
  positiveInfinity : Text
  negativeInfinity : Text

/-- Script reals: positional from a ten-thousandth up to below a million, an
exponent of at least two digits with its sign. -/
def scriptLayout : Layout where
  lowest := -4
  highest := 6
  exponentWidth := 2
  notANumber := utf8 "NaN"
  positiveInfinity := utf8 "Infinity"
  negativeInfinity := utf8 "-Infinity"

/-- Decimal digits as text. -/
def digitText (ds : List Nat) : Text := ds.map fun d => (d + 48).toUInt8

/-- `d.ddde±xx`. -/
def Layout.exponentForm (layout : Layout) (d : Digits) : Text :=
  let fraction := match d.digits.drop 1 with
    | [] => []
    | ds => 0x2e :: digitText ds
  let exponent := Text.ofNat d.leading.natAbs
  digitText (d.digits.take 1) ++ fraction ++ [0x65, if d.leading < 0 then 0x2d else 0x2b] ++
    List.replicate (layout.exponentWidth - exponent.length) 0x30 ++ exponent

/-- Digits around a decimal point, with zeros where the digits do not reach. -/
def positional (d : Digits) : Text :=
  if d.leading < 0 then
    utf8 "0." ++ List.replicate (d.leading.natAbs - 1) 0x30 ++ digitText d.digits
  else
    let wholeLength := d.leading.toNat + 1
    let whole := digitText (d.digits.take wholeLength)
    let fraction := match d.digits.drop wholeLength with
      | [] => []
      | ds => 0x2e :: digitText ds
    whole ++ List.replicate (wholeLength - d.digits.length) 0x30 ++ fraction

/-- A nonzero finite size. -/
def Layout.printDigits (layout : Layout) (d : Digits) : Text :=
  if layout.lowest ≤ d.leading ∧ d.leading < layout.highest then positional d
  else layout.exponentForm d

/-- A number as text. -/
def Layout.print (layout : Layout) (x : Binary64) : Text :=
  if x.isNaN then layout.notANumber
  else if x.isInfinite then
    if x.isNegative then layout.negativeInfinity else layout.positiveInfinity
  else
    let sign : Text := if x.isNegative then [0x2d] else []
    let size := if x.isZero then [0x30] else layout.printDigits (shortest x).toDigits
    sign ++ size

end ScriptEngine.Binary64
