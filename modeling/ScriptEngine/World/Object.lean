import ScriptEngine.Request
import ScriptEngine.Table

/-! The kinds of objects. -/
namespace ScriptEngine

/-- A member of a script object. -/
structure Member where
  value : Value
  attr : Attribute := {}
deriving DecidableEq, Repr

/-- Data of the host that is attached to an object: the name of its type, and what
it holds. -/
structure HostData where
  typeName : String
  content : Value
deriving DecidableEq, Repr

/-- An object with a table of members. A name makes it a class: constructing
through it gives instances, which look for members along the class and its
ancestors. -/
structure ScriptObject where
  name : Text := []
  cls : Option ObjRef := none
  super : Option ObjRef := none
  members : Table Member := {}
  hostData : Option HostData := none
deriving DecidableEq, Repr

/-- The object that a search for members goes on with: an instance continues
with its class, a class with its ancestor. -/
def ScriptObject.next (o : ScriptObject) : Option ObjRef := o.cls.orElse fun _ => o.super

/-- Names a callable of the host. -/
abbrev HostKey := String

/-- Code outside scripts: the members of the two wrapper classes, or a callable
of the host. -/
inductive Native where
  | functionCall | functionBind | propertyGet | propertySet
  | host (key : HostKey)
deriving DecidableEq, Repr

/-- A register frame, by its place in the store of frames. -/
abbrev FrameRef := Nat

/-- Where a captured variable lives: a level of a chain and a slot in it. -/
structure BindingSlot where
  level : Int
  slot : Int
deriving DecidableEq, Repr

/-- Whether the thread that holds a lock may take it again. -/
inductive LockKind where
  | reentrant | plain
deriving DecidableEq, Repr

/-- An object of the host: the name of its type, and what it answers to a request.
`locker` is the lock that it gives when asked for one, if it can be asked at all. -/
structure HostObject where
  typeName : String
  answer : Request → Reply
  locker : Option (Option LockKind) := none

/-- An object. -/
inductive Object where
  | script (o : ScriptObject)
  /-- A block with the chain it captured, and its creator's register frame if
  it runs in that. -/
  | closure (block : Option CodeBlock) (frame : Option FrameRef) (chain : Chain)
  | nativeFunction (name : Text) (code : Option Native) (cls : Option ObjRef)
  | nativeProperty (name : Text) (getter setter : Option Native) (cls : Option ObjRef)
  /-- A callable presented as an instance of a class. -/
  | function (cls : Option ObjRef) (target : Option ObjRef)
  /-- A getter and setter presented as an instance of a class. -/
  | property (cls : Option ObjRef) (target : Option ObjRef)
  | scriptProperty (getter setter : Value)
  /-- Names for captured variables, and the receiver where they were captured. -/
  | binding (chain : Chain) (this : Value) (names : Table BindingSlot)
  /-- Two objects that look like one: the second is asked for what the first
  does not find. -/
  | proxy (first second : ObjRef)
  | error (className message : Text)
  /-- The outcome of a guarded call: what it raised, if it did, and the result
  or the raised value. -/
  | marker (raised : Option Fault) (value : Value)
  | host (o : HostObject)

namespace Object

/-- Callables that take the object they are read from as their context. -/
def isBindable : Object → Bool
  | .closure .. | .nativeFunction .. | .function .. => true
  | _ => false

/-- Data of the host that an object carries. -/
def hostData? : Object → Option HostData
  | .script o => o.hostData
  | _ => none

/-- The lock of an object itself, if it has one. -/
def lockKind? : Object → Option LockKind
  | .script _ => some .reentrant
  | .host o => o.locker.join
  | _ => none

/-- Whether an object can be asked for a lock. It need not have one. -/
def isSynchronizer : Object → Bool
  | .script _ | .proxy .. => true
  | .host o => o.locker.isSome
  | _ => false

/-- The name of an object's kind. -/
def kindName : Object → String
  | .script _ => "ScriptObject"
  | .closure .. => "Closure"
  | .nativeFunction .. => "NativeFunction"
  | .nativeProperty .. => "NativeProperty"
  | .function .. => "FunctionObject"
  | .property .. => "PropertyObject"
  | .scriptProperty .. => "ScriptProperty"
  | .binding .. => "Binding"
  | .proxy .. => "ThisProxy"
  | .error .. => "ErrorObject"
  | .marker .. => "tryMarker"
  | .host o => o.typeName

/-- The name of an object's type in listings. -/
def typeName : Object → String
  | .nativeFunction .. => "*vm.NativeFunction[github.com/chazu/kiri/vm.Shape]"
  | .nativeProperty .. =>
    "*vm.NativeProperty[github.com/chazu/kiri/vm.Shape,github.com/chazu/kiri/vm.Shape]"
  | .host o => o.typeName
  | o => "*vm." ++ o.kindName

end Object
end ScriptEngine
