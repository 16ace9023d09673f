import ScriptEngine.Host

/-! Values of the host and how they become values of scripts, and back. -/
namespace ScriptEngine

/-- A value of the host. -/
inductive HostValue where
  /-- Nothing, or something that scripts have no use for. -/
  | nothing
  | bool (b : Bool)
  /-- A whole number; it wraps around at 64 bits. -/
  | integer (n : Int)
  | real (x : Binary64)
  | string (t : Text)
  | bytes (t : Text)
  | list (items : List HostValue)
  | map (entries : List (Text × HostValue))
  /-- Anything else of the host, which scripts only carry about. -/
  | native (d : HostData)
  | fault (fault : HostFault)
  | value (v : Value)
deriving Inhabited

namespace HostValue

mutual

/-- The value for scripts. Lists and maps become plain objects: a list has its
items under their numbers and its length as a constant. Data of the host is
attached to a new object. -/
def toValue (w : World) : HostValue → World × Value
  | .nothing => (w, .void)
  | .bool b => (w, .bool b)
  | .integer n => (w, .int (Int64.ofInt n))
  | .real x => (w, .real x)
  | .string t => (w, .string t)
  | .bytes t => (w, .octet t)
  | .list items =>
    let (w, ref) := w.create (.script {})
    let w := defineItems w ref 0 items
    let w := w.define ref (utf8 "length") (.int (Int64.ofNat items.length)) { mutability := 2 }
    (w, .object ref none)
  | .map entries =>
    let (w, ref) := w.create (.script {})
    (defineEntries w ref entries, .object ref none)
  | .native d =>
    let (w, ref) := w.create (.script { hostData := some d })
    (w, .object ref none)
  | .fault raised =>
    let (w, f) := w.hostFault raised
    let (w, f) := w.asThrown f
    (w, w.faultValue f)
  | .value v => (w, v)

/-- Defines items under their numbers, from `i` on. -/
def defineItems (w : World) (ref : ObjRef) (i : Nat) : List HostValue → World
  | [] => w
  | item :: rest =>
    let (w, v) := toValue w item
    defineItems (w.define ref (Text.ofNat i) v) ref (i + 1) rest

/-- Defines entries under their names. -/
def defineEntries (w : World) (ref : ObjRef) : List (Text × HostValue) → World
  | [] => w
  | (name, item) :: rest =>
    let (w, v) := toValue w item
    defineEntries (w.define ref name v) ref rest

end

/-- The value for the host: data attached to an object in place of the object. -/
def ofValue (w : World) (v : Value) : HostValue :=
  match v with
  | .void => .nothing
  | .bool b => .bool b
  | .int n => .integer n.toInt
  | .real x => .real x
  | .string t => .string t
  | .octet t => .bytes t
  | .object ref _ =>
    match (w.script? ref).bind (·.hostData) with
    | some d => .native d
    | none => .value (.object ref none)

end HostValue
end ScriptEngine
