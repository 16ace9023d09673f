import ScriptEngine.Attribute
import ScriptEngine.Fault

/-! Requests to objects and what becomes of them. -/
namespace ScriptEngine

/-- What a request asks for. -/
inductive Operation where
  | call | new | dget | dset | iget | iset | dsetAttrib | instanceOf
  /-- A code without a meaning, which every object declines. -/
  | other (code : UInt8)
deriving DecidableEq, Repr

namespace Operation

/-- The operations by number. -/
def all : List Operation := [.call, .new, .dget, .dset, .iget, .iset, .dsetAttrib, .instanceOf]

def name : Operation → String
  | .call => "call"
  | .new => "new"
  | .dget => "dget"
  | .dset => "dset"
  | .iget => "iget"
  | .iset => "iset"
  | .dsetAttrib => "dsetattrib"
  | .instanceOf => "instanceof"
  | .other _ => "operate?"

/-- The operation with a number. -/
def ofCode (code : UInt8) : Operation := (all[code.toNat]?).getD (.other code)

end Operation

/-- A request. The empty name addresses the receiver itself. The value of a
write is the last argument, the key of an indexed access the first. -/
structure Request where
  operation : Operation
  name : Text := []
  flags : Flags := {}
  args : List Value := []
  blocks : List Value := []
  this : Value := .void
  wantsResult : Bool := true
deriving DecidableEq, Repr

namespace Request

/-- An argument, void where there is none. -/
def arg (r : Request) (i : Nat) : Value := r.args.getD i .void

/-- The value of a write. -/
def lastArg (r : Request) : Value := r.args.getLast?.getD .void

end Request

/-- Why an object declines a request. -/
inductive Refusal where
  | memberNotFound | memberReadOnly | propertyNotReadable | propertyNotWritable
  | other (code : UInt8)
deriving DecidableEq, Repr

namespace Refusal

def name : Refusal → String
  | .memberNotFound => "member not found"
  | .memberReadOnly => "member is read-only"
  | .propertyNotReadable => "property is not readable"
  | .propertyNotWritable => "property is not writable"
  | .other _ => "status?"

/-- The refusal with a number; zero is no refusal. -/
def ofCode? (code : UInt8) : Option Refusal :=
  match code.toNat with
  | 0 => none
  | 1 => some .memberNotFound
  | 2 => some .memberReadOnly
  | 3 => some .propertyNotReadable
  | 4 => some .propertyNotWritable
  | _ => some (.other code)

/-- The class of the exception that a refusal becomes. -/
def exceptionClass : Refusal → String
  | .memberNotFound => "MemberNotFoundException"
  | .memberReadOnly => "MemberReadOnlyException"
  | .propertyNotReadable => "PropertyNotReadableException"
  | .propertyNotWritable => "PropertyNotWritableException"
  | .other _ => "RuntimeException"

/-- The wording of that exception; the receiver itself has no name. -/
def exceptionMessage (r : Refusal) (name : Text) : Text :=
  let shown := (if name = [] then utf8 "(receiver)" else name).quoted
  match r with
  | .memberNotFound => utf8 "member " ++ shown ++ utf8 " not found"
  | .memberReadOnly => utf8 "member " ++ shown ++ utf8 " is read-only"
  | .propertyNotReadable => utf8 "property " ++ shown ++ utf8 " is not readable"
  | .propertyNotWritable => utf8 "property " ++ shown ++ utf8 " is not writable"
  | .other _ => utf8 "operation on " ++ shown ++ utf8 " failed: " ++ utf8 r.name

end Refusal

/-- What became of a request: it was carried out, it failed, or it was
declined. A value may have been written as the result in the first two cases;
a request that gave none leaves the result as it was. -/
inductive Reply where
  | done (written : Option Value)
  | failed (written : Option Value) (fault : Fault)
  | refused (refusal : Refusal)
deriving DecidableEq, Repr

namespace Reply

/-- The outcome by number and name, as hosts see it. -/
def statusName : Reply → String
  | .done _ | .failed .. => "ok"
  | .refused refusal => refusal.name

/-- The outcome with a number, without a result. -/
def ofCode (code : UInt8) : Reply :=
  match Refusal.ofCode? code with
  | none => .done none
  | some refusal => .refused refusal

/-- The name for a status number. -/
def statusNameOfCode (code : UInt8) : String := (ofCode code).statusName

end Reply
end ScriptEngine
