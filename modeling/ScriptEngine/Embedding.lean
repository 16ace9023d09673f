import ScriptEngine.Machine

/-! What a host does with an engine: ask values, run blocks, keep shared frames
and bindings. Everything that runs code is given fuel, the number of machine
transitions it may take. -/
namespace ScriptEngine

/-- How a use of an engine ends. -/
inductive Outcome (α : Type) where
  | ok (a : α)
  | failed (fault : Fault)
  | stopped (panic : Panic)
  | unfinished
deriving Repr

namespace Outcome

variable {α β : Type}

def map (f : α → β) : Outcome α → Outcome β
  | .ok a => .ok (f a)
  | .failed fault => .failed fault
  | .stopped panic => .stopped panic
  | .unfinished => .unfinished

/-- The failure of a use, if it failed. -/
def fault? : Outcome α → Option Fault
  | .failed fault => some fault
  | _ => none

end Outcome

/-- The answer in a state that has come to its end. -/
def State.outcome (s : State) : World × Outcome Reply :=
  match s.control, s.stack with
  | .reply r, [] => (s.world, .ok r)
  | .panic p, [] => (s.world, .stopped p)
  | _, _ => (s.world, .unfinished)

/-- What a caller gets who insists on success: the result that was written. -/
def insisted (name : Text) : World × Outcome Reply → World × Outcome (Option Value)
  | (w, .ok r) =>
    match w.insist name r with
    | (w, written, none) => (w, .ok written)
    | (w, _, some f) => (w, .failed f)
  | (w, .failed f) => (w, .failed f)
  | (w, .stopped p) => (w, .stopped p)
  | (w, .unfinished) => (w, .unfinished)

/-- The result that was written, void if none was. -/
def orVoid : World × Outcome (Option Value) → World × Outcome Value
  | (w, outcome) => (w, outcome.map (·.getD .void))

namespace Engine

/-! ### Requests -/

/-- Asks a value. -/
def operate (e : Engine) (fuel : Nat) (w : World) (target : Value) (r : Request) :
    World × Outcome Reply :=
  (Machine.run e fuel ⟨w, .operate target r, []⟩).outcome

/-- Asks a value and insists on success. -/
def perform (e : Engine) (fuel : Nat) (w : World) (target : Value) (r : Request) :
    World × Outcome (Option Value) :=
  insisted r.name (e.operate fuel w target r)

/-- Reads a member. -/
def get (e : Engine) (fuel : Nat) (w : World) (target : Value) (name : Text) :
    World × Outcome Value :=
  orVoid (e.perform fuel w target { operation := .dget, name })

/-- Writes a member. -/
def set (e : Engine) (fuel : Nat) (w : World) (target : Value) (name : Text) (v : Value) :
    World × Outcome Unit :=
  let (w, outcome) :=
    e.perform fuel w target { operation := .dset, name, args := [v], wantsResult := false }
  (w, outcome.map fun _ => ())

/-- Calls a value. -/
def call (e : Engine) (fuel : Nat) (w : World) (fn this : Value) (args : List Value) :
    World × Outcome Value :=
  orVoid (e.perform fuel w fn { operation := .call, args, this })

/-- Calls a member of a value, with the value as receiver. -/
def callMember (e : Engine) (fuel : Nat) (w : World) (target : Value) (name : Text)
    (args : List Value) : World × Outcome Value :=
  orVoid (e.perform fuel w target { operation := .call, name, args, this := target })

/-! ### Blocks -/

/-- Runs a block. -/
def execute (e : Engine) (fuel : Nat) (w : World) (block : Option CodeBlock) (inv : Invocation) :
    World × Outcome Value :=
  orVoid (insisted [] (Machine.run e fuel ⟨w, .execute block inv .result, []⟩).outcome)

/-- The report of a failure that nothing caught. -/
def uncaught (w : World) (f : Fault) : Event :=
  match f with
  | .signal ref =>
    match w.signals[ref]? with
    | some s@(.thrown ..) => .uncaughtThrown (traceText (w.signalText s) s.trace)
    | some s@(.exit ..) => .uncaughtExit (traceText (w.signalText s) s.trace)
    | none => .executionFailed []
  | _ => .executionFailed (w.faultText f)

/-- Runs a block at the top level: the globals are the receiver, and a failure
is reported. -/
def run (e : Engine) (fuel : Nat) (w : World) (block : Option CodeBlock) (args : List Value) :
    World × Outcome Value :=
  let (w, outcome) := e.execute fuel w block { args, this := .object e.globals none }
  match outcome.fault? with
  | some f => (w.report (uncaught w f), outcome)
  | none => (w, outcome)

/-- Compiles a source text and runs it where a binding was made. -/
def eval (e : Engine) (fuel : Nat) (w : World) (binding : ObjRef) (source : Text) :
    World × Outcome Value :=
  match w.heap[binding]? with
  | some (.binding chain this names) =>
    let n := evaluate e w chain this names source
    orVoid (insisted [] (Machine.run e fuel ⟨n.world, n.control, n.push⟩).outcome)
  | _ => (w, .stopped .invalidAccess)

/-- Defines a global, in place of any of that name. -/
def setGlobal (e : Engine) (w : World) (name : Text) (v : Value) : World := w.define e.globals name v

/-- The world once a lock is taken, if the thread of the engine need not wait for it. -/
def locked (e : Engine) (w : World) (ref : ObjRef) : World := (w.lock? e.thread ref).getD w

end Engine

namespace World

/-! ### Shared frames -/

/-- An arena's answer as the end of a use. -/
def arenaOutcome {α : Type} (w : World) : Arena.Acquired α → World × Outcome α
  | .made arena a => ({ w with arena }, .ok a)
  | .failed arena dropped error =>
    ({ w with arena }.reportReleases dropped, .failed (.host (.arena error)))
  | .broken arena => ({ w with arena }, .stopped .invalidAccess)

def arenaFailure {α : Type} (error : ArenaError) : Outcome α := .failed (.host (.arena error))

/-- Makes a frame. -/
def allocFrame (w : World) (size : Int) : World × Outcome FrameHandle :=
  match w.arena.alloc size with
  | .made arena handle => ({ w with arena }, .ok handle)
  | .full => (w, arenaFailure .full)
  | .broken arena => ({ w with arena }, .stopped .invalidAccess)

/-- Adds a reference. -/
def retainFrame (w : World) (h : FrameHandle) : World × Outcome Unit :=
  match w.arena.retain? h with
  | some arena => ({ w with arena }, .ok ())
  | none => (w, arenaFailure .stale)

/-- Drops a reference. -/
def releaseFrame (w : World) (h : FrameHandle) : World × Outcome Unit :=
  match w.arena.release h with
  | (_, .stale) => (w, arenaFailure .stale)
  | (arena, outcome) => ({ w with arena }.reportReleases [(h, outcome)], .ok ())

def loadSlot (w : World) (h : FrameHandle) (slot : Int) : Outcome Value :=
  match w.arena.load h slot with
  | .ok v => .ok v
  | .error error => arenaFailure error

def storeSlot (w : World) (h : FrameHandle) (slot : Int) (v : Value) : World × Outcome Unit :=
  match w.arena.store h slot v with
  | .ok arena => ({ w with arena }, .ok ())
  | .error error => (w, arenaFailure error)

/-- The number of references to a frame. -/
def frameRefs (w : World) (h : FrameHandle) : Outcome Int32 :=
  match w.arena.refs? h with
  | some n => .ok n
  | none => arenaFailure .stale

/-- The chain of code that declares `sizes` and runs under `chain`. -/
def overlay (w : World) (chain : Chain) (sizes : List Int) : World × Outcome Chain :=
  w.arenaOutcome (w.arena.overlay chain sizes)

/-- Adds a reference to every frame of a chain. -/
def retainChain (w : World) (chain : Chain) : World × Outcome Unit :=
  w.arenaOutcome (w.arena.retainChain chain)

/-! ### Bindings -/

/-- Makes a binding of a chain, which holds references to its frames. -/
def newBinding (w : World) (chain : Chain) (this : Value) : World × Outcome ObjRef :=
  match w.retainChain chain with
  | (w, .ok ()) =>
    let (w, ref) := w.create (.binding chain this {})
    (w, .ok ref)
  | (w, .failed f) => (w, .failed f)
  | (w, .stopped p) => (w, .stopped p)
  | (w, .unfinished) => (w, .unfinished)

/-! ### Objects -/

/-- Two objects that look like one; a missing one leaves the other. -/
def newProxy (w : World) : (first second : Option ObjRef) → World × Value
  | none, second => (w, .ofObject second)
  | first, none => (w, .ofObject first)
  | some first, some second =>
    let (w, ref) := w.create (.proxy first second)
    (w, .object ref none)

/-- An object of the host that gives the same answer to every request. -/
def newHostObject (w : World) (typeName : String) (r : Reply) : World × ObjRef :=
  w.create (.host { typeName, answer := fun _ => r })

/-- An object of the host that throws a value at every request. -/
def newThrower (w : World) (typeName : String) (v : Value) : World × ObjRef :=
  let (w, fault) := w.throwValue v
  w.newHostObject typeName (.failed none fault)

/-! ### Failures -/

/-- Whether a failure carries an exception of a class. -/
def isError (w : World) (f : Fault) (className : Text) : Bool :=
  match (w.faultValue f).object?.bind (w.heap[·]?) with
  | some (.error c _) => c = className
  | _ => false

end World
end ScriptEngine
