import ScriptEngine.Host

/-! An engine: what stays fixed while code runs. -/
namespace ScriptEngine

/-- The switches of an engine. -/
structure Config where
  assertions : Bool := false
  dump : Bool := false
  capacity : Int := 0
deriving DecidableEq, Repr

/-- An engine, as one thread uses it. Values that are no objects answer requests
through the prototype of their kind, if it has one. -/
structure Engine where
  config : Config
  globals : ObjRef
  functionClass : Option ObjRef
  propertyClass : Option ObjRef
  prototypes : Kind → Option ObjRef := fun _ => none
  host : Host
  thread : Thread := 0

namespace Engine

/-- A callable presented as an instance of the function class. -/
def wrapFunction (e : Engine) (w : World) (target : Option ObjRef) : World × Value :=
  match e.functionClass with
  | none => (w, .ofObject target)
  | some c =>
    let (w, ref) := w.create (.function (some c) target)
    (w, .object ref none)

/-- A getter and setter presented as an instance of the property class. -/
def wrapProperty (e : Engine) (w : World) (target : Option ObjRef) : World × Value :=
  match e.propertyClass with
  | none => (w, .ofObject target)
  | some c =>
    let (w, ref) := w.create (.property (some c) target)
    (w, .object ref none)

/-- An engine without wrapper classes, as it is while they are being made. -/
def bare (e : Engine) : Engine := { e with functionClass := none, propertyClass := none }

/-- Whether natives are stored as they are rather than as instances of the
wrapper classes. -/
def isRaw (e : Engine) : Bool := e.functionClass.isNone || e.propertyClass.isNone

/-- Registers a native method on a class. -/
def bindMethod (e : Engine) (w : World) (cls : ObjRef) (name : Text) (code : Option Native)
    (attr : Attribute := {}) : World :=
  let (w, ref) := w.create (.nativeFunction name code (some cls))
  let (w, v) := if e.isRaw then (w, .object ref none) else e.wrapFunction w (some ref)
  w.define cls name v attr

/-- Registers a native property on a class. -/
def bindProperty (e : Engine) (w : World) (cls : ObjRef) (name : Text)
    (getter setter : Option Native) : World :=
  let (w, ref) := w.create (.nativeProperty name getter setter (some cls))
  let (w, v) := if e.isRaw then (w, .object ref none) else e.wrapProperty w (some ref)
  w.define cls name v { access := 2 }

/-- Registers a read-only value on a class. -/
def bindConstant (w : World) (cls : ObjRef) (name : Text) (v : Value) : World :=
  w.define cls name v { mutability := 2 }

/-- Registers a static native method on a class. -/
def bindStatic (e : Engine) (w : World) (cls : ObjRef) (name : Text) (code : Option Native) :
    World :=
  e.bindMethod w cls name code { level := 1 }

/-- A new engine and its world. The wrapper classes are made first, with their
members stored as they are, and become read-only globals. -/
def start (config : Config) (host : Host) : Engine × World :=
  let w : World := { arena := { capacity := config.capacity } }
  let (w, globals) := w.create (.script {})
  let (w, functionClass) := w.create (.script { name := utf8 "Function" })
  let (w, propertyClass) := w.create (.script { name := utf8 "Property" })
  let raw : Engine := { config, globals, functionClass := none, propertyClass := none, host }
  let w := raw.bindMethod w functionClass (utf8 "call") (some .functionCall)
  let w := raw.bindMethod w functionClass (utf8 "bind") (some .functionBind)
  let w := raw.bindMethod w propertyClass (utf8 "get") (some .propertyGet)
  let w := raw.bindMethod w propertyClass (utf8 "set") (some .propertySet)
  let e := { raw with functionClass := some functionClass, propertyClass := some propertyClass }
  let w := bindConstant w globals (utf8 "Function") (.object functionClass none)
  let w := bindConstant w globals (utf8 "Property") (.object propertyClass none)
  (e, w)

/-- Registers the object that values of a kind answer through. -/
def setPrototype (e : Engine) (kind : Kind) (ref : Option ObjRef) : Engine :=
  { e with prototypes := fun k => if k = kind then ref else e.prototypes k }

end Engine
end ScriptEngine
