import ScriptEngine.Host
import ScriptEngine.Value.Operators

/-! Ready-made callables for hosts: plain functions, functions that fail in each
possible way, functions that call back, and the methods of counters. What the type
of counters is called is up to the host. -/
namespace ScriptEngine
namespace Callables

/-- Finishes with a result. -/
def returning (v : Value) : HostAction := .finish (some v) none

/-- Finishes without a result, with a failure. -/
def failing (fault : HostFault) : HostAction := .finish none (some fault)

/-- Finishes with whatever a call gave. -/
def passOn (_ : World) (v : Value) (fault : Option Fault) : HostAction :=
  .finish (some v) (fault.map .passed)

/-- Goes on with the string form of a value. -/
def withText (w : World) (v : Value) (next : Text → HostAction) : HostAction :=
  match w.textOf v with
  | some t => next t
  | none => .stop .invalidAccess

def free (run : World → CallInfo → HostAction) : HostCallable := { run }

/-- The exit that the arguments describe. -/
def exitFault (c : CallInfo) : HostFault :=
  .exit (c.arg 0).toInteger (c.arg 1).toInteger.toInt (c.arg 2)

/-- Calls a value and finishes with whatever that gives. -/
def calling (fn this : Value) (args : List Value) : HostAction :=
  .ask fn { operation := .call, args, this } passOn

/-- A counter as data of the host. -/
def counter (typeName : String) (n : Int64) : HostData := ⟨typeName, .int n⟩

/-- A function that works on the counter of its receiver, and may change it. -/
def onCounter (typeName : String) (run : World → CallInfo → ObjRef → Int64 → HostAction) :
    HostCallable :=
  { receiver := .typed typeName
    run := fun w c =>
      match c.this.object?, c.this.object?.bind w.script? with
      | some ref, some { hostData := some ⟨_, .int n⟩, .. } => run w c ref n
      | _, _ => .finish none none }

/-- The callables by name. -/
def all (counters : String) : List (HostKey × HostCallable) :=
  let onCounter := onCounter counters
  let counted (ref : ObjRef) (n : Int64) : HostAction :=
    .setData ref (counter counters n) (returning (.int n))
  [("noop", free fun _ _ => .finish none none),
    ("seven", free fun _ _ => returning (.int 7)),
    ("id", free fun _ c => returning (c.arg 0)),
    ("add", free fun w c =>
      match Value.add w.face (c.arg 0) (c.arg 1) with
      | .ok v => returning v
      | .error _ => .stop .invalidAccess),
    ("this", free fun _ c => returning c.this),
    ("counts", free fun _ c =>
      returning (.string (Text.ofNat c.args.length ++ utf8 "/" ++ Text.ofNat c.blocks.length))),
    ("argn", free fun _ c => returning (c.arg (c.arg 0).toInteger.toInt)),
    ("flags", free fun _ c => returning (.int (Int64.ofNat c.flags.pack.toNat))),
    ("class", free fun _ c => returning (.ofObject c.cls)),
    ("wantresult", free fun _ c => failing (.throw (.bool c.wantsResult))),
    ("fail", free fun w c => withText w (c.arg 0) fun t => failing (.text t)),
    ("throw", free fun _ c => failing (.throw (c.arg 0))),
    ("exit", free fun _ c => failing (exitFault c)),
    ("wrapthrow", free fun _ c => failing (.labelled (utf8 "wrapped") (.throw (c.arg 0)))),
    ("wrapexit", free fun _ c => failing (.labelled (utf8 "wrapped") (exitFault c))),
    ("lateerror", free fun _ c => .finish (some (c.arg 0)) (some (.text (utf8 "late")))),
    ("panic", free fun w c =>
      withText w (c.arg 0) fun t => .stop (.message (utf8 "host: " ++ t))),
    ("yield", free fun _ c =>
      match c.blocks with
      | [] => returning (.string (utf8 "no block"))
      | block :: _ => calling block .void c.args),
    ("apply", free fun _ c => calling (c.arg 0) (c.arg 1) (c.args.drop 2)),
    ("locked", free fun w c =>
      match (c.arg 0).object?.bind w.isLocked? with
      | some held => returning (.bool held)
      | none => returning .void),
    ("c.get", onCounter fun _ _ _ n => returning (.int n)),
    ("c.add", onCounter fun _ c ref n => counted ref (n + (c.arg 0).toInteger)),
    ("c.madd", onCounter fun _ c ref n =>
      counted ref (n * (c.arg 0).toInteger + (c.arg 1).toInteger)),
    ("c.cat3", onCounter fun w c _ _ =>
      withText w (c.arg 0) fun a => withText w (c.arg 1) fun b => withText w (c.arg 2) fun t =>
        returning (.string (Text.joined (utf8 "|") [a, b, t]))),
    ("c.set", onCounter fun _ c ref _ =>
      .setData ref (counter counters (c.arg 0).toInteger) (.finish none none)),
    ("c.badset", onCounter fun w c _ _ =>
      withText w (c.arg 0) fun t => failing (.text (utf8 "cannot set " ++ t))),
    ("c.fail", onCounter fun _ _ _ n =>
      .finish (some (.int n)) (some (.text (utf8 "counter failed")))),
    ("o.str",
      { receiver := .typed "*vm.ScriptObject"
        run := fun w c => withText w c.this fun t => returning (.string t) })]

/-- The callable of a name; one that does nothing for other names. -/
def named (counters : String) (key : HostKey) : HostCallable :=
  ((all counters).lookup key).getD (free fun _ _ => .finish none none)

/-- A callable by name, if there is one. -/
def native? (counters : String) (key : HostKey) : Option Native :=
  if ((all counters).lookup key).isSome then some (.host key) else none

end Callables
end ScriptEngine
