import ScriptEngine.Binary64.Arithmetic
import ScriptEngine.Numeral.Integer
import ScriptEngine.Numeral.Real
import ScriptEngine.Text.Blank

/-! Numbers as scripts know them, and the number a string stands for. -/
namespace ScriptEngine

/-- An integer of 64 bits or a real. -/
inductive Number where
  | int (n : Int64)
  | real (x : Binary64)
deriving DecidableEq, Repr

namespace Number

/-- The real nearest to a number. -/
def toReal : Number → Binary64
  | .int n => Binary64.ofInt n.toInt
  | .real x => x

/-- The whole part of a number; zero for reals that are not finite. -/
def toInteger : Number → Int64
  | .int n => n
  | .real x => if x.isFinite then Int64.ofInt x.truncate else 0

/-- The number a string stands for: blank is zero, an integer literal is an
integer, a real literal a real, and anything else zero. -/
def ofText (t : Text) : Number :=
  let body := t.trimmed
  if body = [] then .int 0
  else
    match Numeral.int64? body with
    | some n => .int n
    | none =>
      match Numeral.real? body with
      | some x => .real x
      | none => .int 0

/-- The order of two numbers: exact between integers, otherwise as reals. -/
def order? : Number → Number → Option Ordering
  | .int a, .int b => some (compare a.toInt b.toInt)
  | a, b => a.toReal.order? b.toReal

end Number
end ScriptEngine
