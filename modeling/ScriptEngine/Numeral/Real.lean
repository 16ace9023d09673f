import ScriptEngine.Binary64
import ScriptEngine.Numeral.Grouping

/-! Real literals: decimal with an optional exponent, hexadecimal with a binary
exponent, and the words for infinity and not-a-number in any case. A literal
beyond the largest finite number is no literal. -/
namespace ScriptEngine.Numeral

/-- Digits read so far: the number they form, whether there was any, whether a
point was seen and how many digits followed it. -/
structure Significand where
  digits : Nat := 0
  anyDigit : Bool := false
  point : Bool := false
  places : Nat := 0

/-- Adds one digit. -/
def Significand.push (s : Significand) (base d : Nat) : Significand :=
  { s with
    digits := s.digits * base + d
    anyDigit := true
    places := if s.point then s.places + 1 else s.places }

/-- Reads digits, underscores and at most one point; gives the rest. -/
def Significand.read (base : Nat) : Significand → Text → Significand × Text
  | s, [] => (s, [])
  | s, c :: rest =>
    if c = 0x5f then read base s rest
    else if c = 0x2e then
      if s.point then (s, c :: rest) else read base { s with point := true } rest
    else if isDigit c then read base (s.push base (c.toNat - 48)) rest
    else if base = 16 ∧ isHexLetter c then read base (s.push base ((lower c).toNat - 87)) rest
    else (s, c :: rest)

/-- The digits of an exponent. From ten thousand on more digits change nothing:
such an exponent is out of range either way. -/
def exponentDigits : (value : Nat) → Text → Nat × Text
  | value, [] => (value, [])
  | value, c :: rest =>
    if c = 0x5f then exponentDigits value rest
    else if isDigit c then
      exponentDigits (if value < 10000 then value * 10 + (c.toNat - 48) else value) rest
    else (value, c :: rest)

/-- An exponent after its letter: an optional sign, then a digit at least. -/
def exponent? (t : Text) : Option (Int × Text) :=
  match unsigned t with
  | c :: rest =>
    if isDigit c then
      let (size, left) := exponentDigits 0 (c :: rest)
      some (if t.head? = some 0x2d then -(size : Int) else size, left)
    else none
  | [] => none

/-- The finite number nearest to `digits * 10 ^ exponent`, if there is one.
Sizes far outside the format are settled without computing the power. -/
def finiteDecimal? (negative : Bool) (digits : Nat) (exponent : Int) : Option Binary64 :=
  let magnitude := exponent + (Nat.toDigits 10 digits).length
  if digits = 0 ∨ magnitude < -330 then some (Binary64.ofMagnitude negative 0)
  else if 310 < magnitude then none
  else
    let x := Binary64.ofDecimal negative digits exponent
    if x.isFinite then some x else none

/-- The finite number nearest to `digits * 2 ^ exponent`, if there is one. -/
def finiteBinary? (negative : Bool) (digits : Nat) (exponent : Int) : Option Binary64 :=
  let magnitude := exponent + digits.log2
  if digits = 0 ∨ magnitude < -1100 then some (Binary64.ofMagnitude negative 0)
  else if 1024 < magnitude then none
  else
    let x := Binary64.ofBinary negative digits exponent
    if x.isFinite then some x else none

/-- A decimal literal without its sign. -/
def decimal? (negative : Bool) (body : Text) : Option Binary64 :=
  let (s, rest) := Significand.read 10 {} body
  if !s.anyDigit then none
  else
    match rest with
    | [] => finiteDecimal? negative s.digits (-(s.places : Int))
    | c :: tail =>
      if lower c = 0x65 then
        match exponent? tail with
        | some (e, []) => finiteDecimal? negative s.digits (e - s.places)
        | _ => none
      else none

/-- A hexadecimal literal after its `0x`; the exponent is not optional. -/
def hexadecimal? (negative : Bool) (body : Text) : Option Binary64 :=
  let (s, rest) := Significand.read 16 {} body
  if !s.anyDigit then none
  else
    match rest with
    | c :: tail =>
      if lower c = 0x70 then
        match exponent? tail with
        | some (e, []) => finiteBinary? negative s.digits (e - 4 * s.places)
        | _ => none
      else none
    | [] => none

/-- The words for numbers that have no digits. -/
def word? (t : Text) : Option Binary64 :=
  let negative := t.head? = some 0x2d
  let name := (unsigned t).map lower
  if name = utf8 "inf" ∨ name = utf8 "infinity" then some (Binary64.infinity negative)
  else if t.map lower = utf8 "nan" then some Binary64.nan
  else none

/-- The value of a real literal. -/
def real? (t : Text) : Option Binary64 :=
  match word? t with
  | some x => some x
  | none =>
    if t.contains 0x5f && !isGrouped t then none
    else
      let negative := t.head? = some 0x2d
      match unsigned t with
      | 0x30 :: c :: d :: rest =>
        if lower c = 0x78 then hexadecimal? negative (d :: rest)
        else decimal? negative (0x30 :: c :: d :: rest)
      | body => decimal? negative body

end ScriptEngine.Numeral
