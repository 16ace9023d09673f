import ScriptEngine.Numeral.Integer
import ScriptEngine.Numeral.Real
import ScriptEngine.Toml.Moment

/-! Numbers of configuration files. A number is first cut out by the characters
it may hold, then checked. -/
namespace ScriptEngine.Toml

/-- A number, or a date or time. -/
inductive Scalar where
  | integer (n : Int64)
  | float (x : Binary64)
  | moment
deriving DecidableEq, Repr

open Numeral (isDigit isHexLetter)

def underscore : UInt8 := 0x5f

def isHexDigit (c : UInt8) : Bool := isDigit c || isHexLetter c

/-- Whether every underscore has a digit on both sides, as far as a digit of any
base goes, and the end is a digit. -/
def underscoresFit : (afterDigit : Bool) → Text → Bool
  | afterDigit, [] => afterDigit
  | afterDigit, c :: rest =>
    (c ≠ underscore || afterDigit) && underscoresFit (isHexDigit c) rest

/-- Whether a number starts with a zero that it does not need. -/
def hasLeadingZero : Text → Bool
  | 0x30 :: c :: _ => c ≠ 0x62 && c ≠ 0x6f && c ≠ 0x78
  | s :: 0x30 :: _ :: _ => s = 0x2b || s = 0x2d
  | _ => false

/-- An integer that has been cut out. -/
def integer? (t : Text) : Option Scalar :=
  if underscoresFit false t && !hasLeadingZero t then (Numeral.int64? t).map .integer else none

/-- The parts of a float between points and exponent letters. -/
def floatParts : Text → List Text
  | [] => [[]]
  | c :: rest =>
    if c = 0x2e ∨ Numeral.lower c = 0x65 then [] :: floatParts rest
    else
      match floatParts rest with
      | part :: others => (c :: part) :: others
      | [] => [[c]]

/-- Whether every point is followed by a digit. -/
def pointsFit : Text → Bool
  | [] => true
  | c :: rest => (c ≠ 0x2e || rest.head?.any isDigit) && pointsFit rest

/-- A float that has been cut out. -/
def float? (t : Text) : Option Scalar :=
  let given := (floatParts t).filter (· ≠ [])
  if given.all (underscoresFit false) && !(given.head?.any hasLeadingZero) && pointsFit t then
    (Numeral.real? (t.filter (· ≠ underscore))).map .float
  else none

/-- Cuts a text after the longest part with a property, and reads that part. -/
def cut (p : UInt8 → Bool) (read : Text → Option Scalar) (t : Text) : Option (Scalar × Text) :=
  (read (t.takeWhile p)).map (·, t.dropWhile p)

def isMomentChar (c : UInt8) : Bool :=
  isDigit c || (utf8 "-:Tt .Zz+").contains c

def isFloatChar (c : UInt8) : Bool := isDigit c || (utf8 "_.-+eE").contains c

/-- A date or time, without blanks at its end. -/
def moment? (t : Text) : Option Scalar :=
  if isMoment (t.reverse.dropWhile (· = 0x20)).reverse then some .moment else none

/-- A decimal integer or float; `t` is all of it, sign included. -/
def decimal? (t : Text) : Option (Scalar × Text) :=
  let isPart (c : UInt8) : Bool := isDigit c || c = underscore
  let sign := t.takeWhile fun c => c = 0x2b || c = 0x2d
  let body := t.drop sign.length
  match (body.dropWhile isPart).head? with
  | some c =>
    if c = 0x2e ∨ Numeral.lower c = 0x65 then
      (float? (sign ++ body.takeWhile isFloatChar)).map (·, body.dropWhile isFloatChar)
    else (integer? (sign ++ body.takeWhile isPart)).map (·, body.dropWhile isPart)
  | none => (integer? t).map (·, [])

/-- An integer after a mark of its base, of which a digit must follow. -/
def based? (mark : Text) (isBaseDigit : UInt8 → Bool) (t : Text) : Option (Scalar × Text) :=
  if t.head?.any isBaseDigit then
    cut (fun c => isBaseDigit c || c = underscore) (fun digits => integer? (mark ++ digits)) t
  else none

/-- The words for floats without digits, perhaps after a sign. -/
def word? (sign t : Text) : Option (Scalar × Text) :=
  let name := t.take 3
  if name = utf8 "inf" then
    some (.float (Binary64.infinity (sign = utf8 "-")), t.drop 3)
  else if name = utf8 "nan" then some (.float Binary64.nan, t.drop 3)
  else none

/-- A number, date or time at the start of a text, which starts with a digit, a
sign or a letter. -/
def scalar? (t : Text) : Option (Scalar × Text) :=
  match t with
  | 0x30 :: 0x62 :: rest => based? (utf8 "0b") (fun c => c = 0x30 || c = 0x31) rest
  | 0x30 :: 0x6f :: rest => based? (utf8 "0o") (fun c => 0x30 ≤ c && c ≤ 0x37) rest
  | 0x30 :: 0x78 :: rest => based? (utf8 "0x") isHexDigit rest
  | c :: rest =>
    if isDigit c then
      let digits := rest.takeWhile isDigit
      match (rest.drop digits.length).head? with
      | some d =>
        if (d = 0x2d ∨ d = 0x3a) ∧ (c ≠ 0x30 ∨ digits ≠ []) then cut isMomentChar moment? t
        else decimal? t
      | none => decimal? t
    else if c = 0x2b ∨ c = 0x2d then
      match rest with
      | d :: _ =>
        if isDigit d then decimal? t else word? [c] rest
      | [] => none
    else word? [] t
  | [] => none

end ScriptEngine.Toml
