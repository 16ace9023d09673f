import ScriptEngine.Binary64.Printed
import ScriptEngine.Numeral
import ScriptEngine.Text.Quoted

/-! The dynamic values that flow through registers and constants. -/
namespace ScriptEngine

/-- An object, by its place in the heap. -/
abbrev ObjRef := Nat

/-- A script value. An object value may be bound to a context object, the
receiver that a function value carries along. -/
inductive Value where
  | void
  | bool (b : Bool)
  | int (n : Int64)
  | real (x : Binary64)
  | string (t : Text)
  | octet (t : Text)
  | object (ref : ObjRef) (context : Option ObjRef)
deriving DecidableEq, Repr, Inhabited

/-- The case a value belongs to. -/
inductive Kind where
  | void | boolean | integer | real | string | octet | object
deriving DecidableEq, Repr

namespace Kind

/-- The name of a kind. -/
def name : Kind → String
  | .void => "void"
  | .boolean => "boolean"
  | .integer => "integer"
  | .real => "real"
  | .string => "string"
  | .octet => "octet"
  | .object => "object"

/-- Kinds by number. -/
def all : List Kind := [.void, .boolean, .integer, .real, .string, .octet, .object]

/-- The number of a kind. -/
def code (k : Kind) : Nat := all.idxOf k

/-- The kind with a number. -/
def ofCode? (n : Nat) : Option Kind := all[n]?

/-- The name for a number that may have no kind. -/
def nameOfCode (n : Nat) : Text :=
  match ofCode? n with
  | some k => utf8 k.name
  | none => utf8 "Kind(" ++ Text.ofNat n ++ utf8 ")"

end Kind

/-- What a value shows of an object: the name of its type, and its text if it
has one. -/
structure Face where
  typeName : String
  text : Option Text

namespace Value

def kind : Value → Kind
  | .void => .void
  | .bool _ => .boolean
  | .int _ => .integer
  | .real _ => .real
  | .string _ => .string
  | .octet _ => .octet
  | .object .. => .object

/-- The object of an object value. -/
def object? : Value → Option ObjRef
  | .object ref _ => some ref
  | _ => none

/-- The context of an object value. -/
def context? : Value → Option ObjRef
  | .object _ context => context
  | _ => none

/-- A reference as a value without context; no reference is void. -/
def ofObject : Option ObjRef → Value
  | some ref => .object ref none
  | none => .void

/-- An object value bound to another context. Other values have none. -/
def withContext (v : Value) (context : Option ObjRef) : Value :=
  match v with
  | .object ref _ => .object ref context
  | v => v

/-- The same value: equal bits for reals, same object and context for objects. -/
def identical (a b : Value) : Bool := a = b

/-- Octets between marks, two digits each. -/
def octetLiteral (t : Text) : Text :=
  utf8 "<%" ++ t.flatMap (fun b => 0x20 :: Text.hexByte b) ++ utf8 " %>"

/-- The string form of a value that is not an object. -/
def plainText : Value → Text
  | .void | .object .. => []
  | .bool b => utf8 (if b then "true" else "false")
  | .int n => Text.ofInt n.toInt
  | .real x => Binary64.scriptLayout.print x
  | .string t => t
  | .octet t => octetLiteral t

variable (face : ObjRef → Face)

/-- The string form of a value; an object may have none. -/
def toText : Value → Option Text
  | .object ref _ => (face ref).text
  | v => some v.plainText

/-- The form of a value in listings and messages: strings quoted, objects by
their type. -/
def describe : Value → Text
  | .void => utf8 "void"
  | .string t => t.quoted
  | .object ref _ => utf8 "(object " ++ utf8 (face ref).typeName ++ utf8 ")"
  | v => v.plainText

/-- The bytes of a value: those of its payload, or of its string form. -/
def toOctets : Value → Option Text
  | .octet t => some t
  | v => v.toText face

/-- Truth: zero, not-a-number, nothing and emptiness are false. -/
def toBool : Value → Bool
  | .void => false
  | .bool b => b
  | .int n => n ≠ 0
  | .real x => !x.isZero && !x.isNaN
  | .string t => t ≠ []
  | .octet t => t ≠ []
  | .object .. => true

/-- The number of a value; zero where it has none. -/
def toNumber : Value → Number
  | .bool b => .int (if b then 1 else 0)
  | .int n => .int n
  | .real x => .real x
  | .string t => .ofText t
  | _ => .int 0

def toInteger (v : Value) : Int64 := v.toNumber.toInteger
def toReal (v : Value) : Binary64 := v.toNumber.toReal

end Value

/-- A number as a value. -/
def Number.toValue : Number → Value
  | .int n => .int n
  | .real x => .real x

end ScriptEngine
