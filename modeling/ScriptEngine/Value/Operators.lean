import ScriptEngine.Value

/-! The operators on values. Two integers stay integral and wrap around; a real
operand makes the result real; a string operand turns addition into
concatenation. -/
namespace ScriptEngine.Value

/-- Why an operator has no result. -/
inductive OperatorError where
  | divisionByZero
  /-- An operand without a string form was to be part of a string. -/
  | textless
deriving DecidableEq, Repr

/-- The wording of an operator error. -/
def OperatorError.message : OperatorError → Text
  | .divisionByZero => utf8 "division by zero"
  | .textless => utf8 "no string form"

/-- Applies an integer operation to two integers and a real one otherwise. -/
def arithmetic (onInts : Int64 → Int64 → Int64) (onReals : Binary64 → Binary64 → Binary64)
    (a b : Value) : Value :=
  match a.toNumber, b.toNumber with
  | .int x, .int y => .int (onInts x y)
  | x, y => .real (onReals x.toReal y.toReal)

/-- The concatenation of two string forms. -/
def concat : Option Text → Option Text → Except OperatorError Value
  | some s, some t => .ok (.string (s ++ t))
  | _, _ => .error .textless

/-- Addition: concatenation if either side is a string or both are octets. -/
def add (face : ObjRef → Face) (a b : Value) : Except OperatorError Value :=
  match a, b with
  | .string s, b => concat (some s) (b.toText face)
  | a, .string t => concat (a.toText face) (some t)
  | .octet s, .octet t => .ok (.octet (s ++ t))
  | a, b => .ok (arithmetic (· + ·) Binary64.add a b)

def sub (a b : Value) : Value := arithmetic (· - ·) Binary64.sub a b
def mul (a b : Value) : Value := arithmetic (· * ·) Binary64.mul a b

/-- Division is always real. -/
def div (a b : Value) : Value := .real (a.toReal.div b.toReal)

/-- The integer quotient, toward zero. -/
def quotient (a b : Value) : Except OperatorError Value :=
  if b.toInteger = 0 then .error .divisionByZero else .ok (.int (a.toInteger / b.toInteger))

/-- The integer remainder, with the sign of the dividend. -/
def remainder (a b : Value) : Except OperatorError Value :=
  if b.toInteger = 0 then .error .divisionByZero else .ok (.int (a.toInteger % b.toInteger))

def bitAnd (a b : Value) : Value := .int (a.toInteger &&& b.toInteger)
def bitOr (a b : Value) : Value := .int (a.toInteger ||| b.toInteger)
def bitXor (a b : Value) : Value := .int (a.toInteger ^^^ b.toInteger)
def bitNot (a : Value) : Value := .int (~~~a.toInteger)

/-- Shift counts are taken modulo 64. -/
def shiftCount (b : Value) : UInt64 := b.toInteger.toUInt64 &&& 63

def shiftLeft (a b : Value) : Value := .int (a.toInteger.toUInt64 <<< shiftCount b).toInt64

/-- The shift that copies the sign. -/
def shiftRight (a b : Value) : Value := .int (a.toInteger >>> (shiftCount b).toInt64)

/-- The shift that fills with zeros. -/
def shiftRightZero (a b : Value) : Value := .int (a.toInteger.toUInt64 >>> shiftCount b).toInt64

def negate (a : Value) : Value :=
  match a.toNumber with
  | .int n => .int (-n)
  | .real x => .real x.negate

/-- Numeric conversion. -/
def plus (a : Value) : Value := a.toNumber.toValue

def logNot (a : Value) : Value := .bool !a.toBool
def logOr (a b : Value) : Value := .bool (a.toBool || b.toBool)
def logAnd (a b : Value) : Value := .bool (a.toBool && b.toBool)

/-- Loose equality. Objects equal themselves whatever their context, octets
compare with octets only, void is an empty string beside a string, and all
else compares as numbers. -/
def equal (a b : Value) : Bool :=
  match a, b with
  | .void, .void => true
  | .object x _, .object y _ => x = y
  | .object .., _ => false
  | _, .object .. => false
  | .octet s, .octet t => s = t
  | .octet _, _ => false
  | _, .octet _ => false
  | .string s, .string t => s = t
  | .string s, .void => s = []
  | .void, .string t => t = []
  | a, b => a.toNumber.order? b.toNumber == some .eq

/-- Strict equality: the kinds must agree. -/
def strictEqual (a b : Value) : Bool :=
  match a, b with
  | .real x, .real y => x.equal y
  | .object x _, .object y _ => x = y
  | a, b => a = b

/-- The order of two values, if they have one: strings byte by byte, all else
as numbers. -/
def order? (a b : Value) : Option Ordering :=
  match a, b with
  | .string s, .string t => some (Text.order s t)
  | a, b => a.toNumber.order? b.toNumber

def less (a b : Value) : Bool := order? a b == some .lt
def greater (a b : Value) : Bool := order? a b == some .gt
def lessOrEqual (a b : Value) : Bool := order? a b == some .lt || order? a b == some .eq
def greaterOrEqual (a b : Value) : Bool := order? a b == some .gt || order? a b == some .eq

end ScriptEngine.Value
