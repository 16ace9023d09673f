import ScriptEngine.Event
import ScriptEngine.World.Object

/-! Everything that running code can change. -/
namespace ScriptEngine

/-- A thread of the host. -/
abbrev Thread := Nat

/-- A lock: the thread that holds it, and how often. -/
structure Mutex where
  holder : Option Thread := none
  depth : Nat := 0
deriving DecidableEq, Repr

namespace Mutex

/-- Takes a lock for a thread. Nothing if the thread has to wait: another thread
holds the lock, or it does itself and may not take the lock again. -/
def take? (m : Mutex) (kind : LockKind) (thread : Thread) : Option Mutex :=
  match m.holder with
  | none => some { holder := some thread, depth := 1 }
  | some holder =>
    if kind = .reentrant ∧ holder = thread then some { m with depth := m.depth + 1 } else none

/-- Gives a lock back once. -/
def release (m : Mutex) : Mutex := if 1 < m.depth then { m with depth := m.depth - 1 } else {}

end Mutex

/-- The state of an engine: objects and their locks, register frames, shared frames,
signals, and what has been reported and printed. Objects, frames and signals are
never removed; a reference stays good for ever. -/
structure World where
  heap : Array Object := #[]
  locks : ObjRef → Mutex := fun _ => {}
  frames : Array (Array Value) := #[]
  arena : Arena := {}
  signals : Array Signal := #[]
  events : Array Event := #[]
  output : Array Text := #[]

namespace World

/-! ### Objects -/

/-- Adds an object. -/
def create (w : World) (o : Object) : World × ObjRef :=
  let ref := w.heap.size
  ({ w with heap := w.heap.push o }, ref)

/-- Replaces an object. -/
def setObject (w : World) (ref : ObjRef) (o : Object) : World :=
  { w with heap := w.heap.setIfInBounds ref o }

/-- The script object at a place, if there is one. -/
def script? (w : World) (ref : ObjRef) : Option ScriptObject :=
  match w.heap[ref]? with
  | some (.script o) => some o
  | _ => none

/-- Changes a script object; other objects stay as they are. -/
def modifyScript (w : World) (ref : ObjRef) (f : ScriptObject → ScriptObject) : World :=
  match w.script? ref with
  | some o => w.setObject ref (.script (f o))
  | none => w

/-- Gives a script object a member, in place of any of that name. -/
def define (w : World) (ref : ObjRef) (name : Text) (v : Value) (attr : Attribute := {}) : World :=
  w.modifyScript ref fun o => { o with members := o.members.insert name ⟨v, attr⟩ }

/-- The name of a class; empty for anything else. -/
def className (w : World) (ref : ObjRef) : Text := ((w.script? ref).map (·.name)).getD []

/-- The text of a script object. -/
def scriptText (w : World) (o : ScriptObject) : Text :=
  if o.name ≠ [] then utf8 "(class " ++ o.name ++ utf8 ")"
  else
    match o.cls with
    | some c => utf8 "(object " ++ w.className c ++ utf8 ")"
    | none => utf8 "(object)"

/-- The text of an object. Only a closure without a block has none. -/
def objectText (w : World) : Object → Option Text
  | .script o => some (w.scriptText o)
  | .closure block _ _ => block.map fun b => utf8 "(closure " ++ b.title ++ utf8 ")"
  | .nativeFunction name _ _ => some (utf8 "(native function " ++ name ++ utf8 ")")
  | .nativeProperty name _ _ _ => some (utf8 "(native property " ++ name ++ utf8 ")")
  | .function .. => some (utf8 "(function)")
  | .property .. => some (utf8 "(property)")
  | .error className message => some (className ++ utf8 ": " ++ message)
  | .marker raised _ =>
    some (utf8 (if raised.isSome then "(try-marker raised)" else "(try-marker)"))
  | .scriptProperty .. | .binding .. | .proxy .. | .host _ => some (utf8 "(object)")

/-- What values show of an object. -/
def face (w : World) (ref : ObjRef) : Face :=
  match w.heap[ref]? with
  | some o => ⟨o.typeName, w.objectText o⟩
  | none => ⟨"", none⟩

def textOf (w : World) (v : Value) : Option Text := v.toText w.face

def describe (w : World) (v : Value) : Text := v.describe w.face

/-! ### Members along classes -/

/-- Whether flags let a member be found. -/
def admits (flags : Flags) (attr : Attribute) : Bool :=
  !(flags.has Flags.instanceOnly && attr.isStatic) && (!flags.has Flags.finalOnly || attr.isFinal)

/-- Looks for an admitted member at an object, then along its class chain, at
most `fuel` objects far; gives the member and its holder. -/
def lookupFrom (w : World) (name : Text) (flags : Flags) :
    (fuel : Nat) → ObjRef → Option (Member × ObjRef)
  | 0, _ => none
  | fuel + 1, ref =>
    match w.script? ref with
    | none => none
    | some o =>
      match (o.members.find? name).filter (admits flags ·.attr) with
      | some m => some (m, ref)
      | none => o.next.bind (lookupFrom w name flags fuel)

/-- Looks for a member of a script object. The class rule starts at its class. -/
def lookup (w : World) (ref : ObjRef) (name : Text) (flags : Flags) : Option (Member × ObjRef) :=
  let start :=
    if flags.has Flags.classRule then ((w.script? ref).bind (·.cls)).getD ref else ref
  w.lookupFrom name flags w.heap.size start

/-- Whether a class or one of its ancestors is the given object, at most `fuel`
classes far. -/
def descends (w : World) (target : ObjRef) : (fuel : Nat) → Option ObjRef → Bool
  | 0, _ | _, none => false
  | fuel + 1, some c =>
    c = target || descends w target fuel ((w.script? c).bind (·.super))

/-- Whether a class is, or descends from, the class that a value refers to. -/
def inClass (w : World) (cls : Option ObjRef) (v : Value) : Bool :=
  match v.object? with
  | some target => (w.script? target).isSome && w.descends target w.heap.size cls
  | none => false

/-! ### Bindings -/

/-- Gives a captured variable a name in a binding; other objects stay as they
are. -/
def bindName (w : World) (ref : ObjRef) (name : Text) (slot : BindingSlot) : World :=
  match w.heap[ref]? with
  | some (.binding chain this names) =>
    w.setObject ref (.binding chain this (names.insert name slot))
  | _ => w

/-! ### Locks -/

/-- The lock of the object at a place, if it has one of its own. -/
def lockKind? (w : World) (ref : ObjRef) : Option LockKind := (w.heap[ref]?).bind Object.lockKind?

/-- The object whose lock a synchronised call on `ref` takes, at most `fuel`
proxies away. A proxy answers with its first object if that can be asked. -/
def lockOwnerFrom (w : World) : (fuel : Nat) → ObjRef → Option ObjRef
  | 0, _ => none
  | fuel + 1, ref =>
    match w.heap[ref]? with
    | some (.proxy first second) =>
      if (w.heap[first]?).any Object.isSynchronizer then lockOwnerFrom w fuel first
      else lockOwnerFrom w fuel second
    | _ => if (w.lockKind? ref).isSome then some ref else none

/-- The object whose lock stands for an object. -/
def lockOwner? (w : World) (ref : ObjRef) : Option ObjRef := w.lockOwnerFrom w.heap.size ref

def setLock (w : World) (ref : ObjRef) (m : Mutex) : World :=
  { w with locks := fun other => if ref = other then m else w.locks other }

/-- Takes the lock of an object for a thread, unless the thread has to wait. -/
def lock? (w : World) (thread : Thread) (ref : ObjRef) : Option World := do
  let kind ← w.lockKind? ref
  let m ← (w.locks ref).take? kind thread
  return w.setLock ref m

/-- Gives a lock back once. -/
def unlock (w : World) (ref : ObjRef) : World := w.setLock ref (w.locks ref).release

/-- Whether the lock that stands for an object is held; nothing if it has none. -/
def isLocked? (w : World) (ref : ObjRef) : Option Bool :=
  (w.lockOwner? ref).map fun owner => (w.locks owner).holder.isSome

/-! ### Register frames -/

/-- Adds a register frame. -/
def newFrame (w : World) (registers : Array Value) : World × FrameRef :=
  let ref := w.frames.size
  ({ w with frames := w.frames.push registers }, ref)

/-- The registers of a frame. -/
def registers (w : World) (frame : FrameRef) : Array Value := (w.frames[frame]?).getD #[]

/-- Writes a register that exists. -/
def setRegister (w : World) (frame : FrameRef) (index : Nat) (v : Value) : World :=
  { w with frames := w.frames.modify frame (·.setIfInBounds index v) }

/-! ### Reports -/

def report (w : World) (e : Event) : World := { w with events := w.events.push e }

/-- Reports what became of dropped references. -/
def reportReleases (w : World) (outcomes : List (FrameHandle × Release)) : World :=
  { w with events := w.events ++ (outcomes.flatMap Event.ofRelease).toArray }

/-- Drops a reference to every frame of a chain. -/
def releaseChain (w : World) (chain : Chain) : World :=
  let (arena, outcomes) := w.arena.releaseChain chain
  { w with arena }.reportReleases outcomes

/-! ### Faults -/

/-- Adds a signal. -/
def raise (w : World) (s : Signal) : World × Fault :=
  let ref := w.signals.size
  ({ w with signals := w.signals.push s }, .signal ref)

/-- Throws a value. -/
def throwValue (w : World) (v : Value) : World × Fault := w.raise (.thrown v [] none)

/-- Throws an exception of the engine. -/
def throwException (w : World) (className : String) (message : Text) (cause : Option Fault := none) :
    World × Fault :=
  let (w, ref) := w.create (.error (utf8 className) message)
  w.raise (.thrown (.object ref none) [] cause)

/-- The message of a signal: of its exception, or what was thrown. -/
def signalText (w : World) : Signal → Text
  | .thrown v _ _ =>
    match v.object?.bind (w.heap[·]?) with
    | some (.error className message) => className ++ utf8 ": " ++ message
    | _ => utf8 "thrown " ++ w.describe v
  | .exit id target _ _ =>
    utf8 "uncaught non-local exit (id " ++ Text.ofInt id.toInt ++ utf8 ", target " ++
      Text.ofInt target ++ utf8 ")"

/-- The value that a signal throws; nothing if it is an exit. -/
def thrown? (w : World) (ref : SignalRef) : Option Value :=
  match w.signals[ref]? with
  | some (.thrown v _ _) => some v
  | _ => none

/-- The signal of a failure that throws a value. -/
def thrownBy? (w : World) (f : Fault) : Option SignalRef :=
  f.signal?.filter fun ref => (w.thrown? ref).isSome

/-- The signal of a failure. -/
def signal? (w : World) (f : Fault) : Option Signal := f.signal?.bind (w.signals[·]?)

/-- The message of a failure. -/
def faultText (w : World) : Fault → Text
  | .signal ref => ((w.signals[ref]?).map w.signalText).getD []
  | .host error => error.message
  | .labelled label inner => label ++ utf8 ": " ++ w.faultText inner

/-- The value that a failure carries; void for failures outside scripts. -/
def faultValue (w : World) (f : Fault) : Value := ((w.signal? f).map (·.value)).getD .void

/-- A failure as scripts can catch it: one from outside scripts becomes an
exception that remembers it. -/
def asThrown (w : World) (f : Fault) : World × Fault :=
  if f.signal?.isSome then (w, f)
  else w.throwException "NativeException" (w.faultText f) (some f)

/-- Adds a trace point to the signal of a failure. -/
def annotate (w : World) (f : Fault) (p : TracePoint) : World :=
  match f.signal? with
  | some ref => { w with signals := w.signals.modify ref (·.annotated p) }
  | none => w

/-- The exception that a refusal becomes. -/
def throwRefusal (w : World) (r : Refusal) (name : Text) : World × Fault :=
  w.throwException r.exceptionClass (r.exceptionMessage name)

/-- What a caller that insists gets of a reply: the result, if one was written,
and the failure, if there is one. A refusal becomes an exception that names the
member. -/
def insist (w : World) (name : Text) : Reply → World × Option Value × Option Fault
  | .done written => (w, written, none)
  | .failed written fault => (w, written, some fault)
  | .refused r =>
    let (w, fault) := w.throwRefusal r name
    (w, none, some fault)

end World
end ScriptEngine
