import ScriptEngine.Engine

/-! The states of the machine that runs code.

A state is a world, what is being done now, and the stack of what waits for its
outcome. Every transition looks at the top of the stack only. -/
namespace ScriptEngine

/-- What an execution of a block receives. Without a frame it gets one of its
own. -/
structure Invocation where
  args : List Value := []
  blocks : List Value := []
  this : Value := .void
  frame : Option FrameRef := none
  shared : Chain := []
deriving DecidableEq, Repr

/-- What an execution answers with: its result, or the object it constructed. -/
inductive Completion where
  | result
  | constructed (self : Value)
deriving DecidableEq, Repr

/-- A running block. `owned` are the shared frames that it holds references to,
`caught` is the thrown value that its last catch took. -/
structure Activation where
  block : CodeBlock
  frame : FrameRef
  chain : Chain
  owned : Chain
  args : List Value
  blocks : List Value
  this : Value
  completion : Completion
  ip : Int := 0
  caught : Option SignalRef := none

/-- How a running block goes on when a request of its own is answered. The
register may be missing, which shows only when it is to be written. -/
inductive Await where
  /-- Insists on success and writes the result. -/
  | assign (name : Text) (dst : Option Nat) (next : Int)
  /-- Insists on success. -/
  | skip (name : Text) (next : Int)
  /-- Insists, and writes a marker of the outcome. -/
  | mark (dst : Nat) (next : Int)
  /-- Writes the answer of a membership test; a refusal means no. -/
  | membership (dst : Option Nat) (next : Int)
  /-- Insists on a class, then constructs an instance of it. -/
  | classOf (name : Text) (args : List Value) (dst : Option Nat) (next : Int)
deriving DecidableEq, Repr

/-- What is being done. -/
inductive Control where
  /-- A request to a value. -/
  | operate (target : Value) (request : Request)
  /-- A lock is taken, to be held while a request to a value is answered. -/
  | lock (ref : ObjRef) (target : Value) (request : Request)
  /-- A request to an object. -/
  | dispatch (ref : ObjRef) (request : Request)
  /-- A block is about to run. -/
  | execute (block : Option CodeBlock) (invocation : Invocation) (completion : Completion)
  /-- A block runs. -/
  | code (activation : Activation)
  /-- A callable of the host runs. -/
  | host (action : HostAction)
  /-- A request has been answered. -/
  | reply (reply : Reply)
  /-- Everything stops. -/
  | panic (panic : Panic)

/-- What waits for an answer. -/
inductive Cont where
  | code (activation : Activation) (await : Await)
  /-- A callable of the host that asked for a member, if it has a name. -/
  | host (name : Text) (resume : World → Value → Option Fault → HostAction)
  /-- A property made of script functions, being read or written. -/
  | getter
  | setter
  /-- A constructor at work on a new object. -/
  | constructor (self : Value)
  /-- A native of the wrapper classes that passes a request on, and the result
  back if it is to be kept. -/
  | forward (keep : Bool)
  /-- A member that is a property, being read or written. -/
  | propertyRead
  | propertyWrite
  /-- A member is read, to be called with this request. -/
  | callMember (request : Request)
  /-- The second object of a proxy, to be asked if the first finds nothing. -/
  | second (ref : ObjRef) (request : Request)
  /-- A lock to be given back. -/
  | unlock (ref : ObjRef)

/-- A state of the machine. -/
structure State where
  world : World
  control : Control
  stack : List Cont := []

/-- Whether the last answer is there. -/
def State.isFinal (s : State) : Bool :=
  match s.control, s.stack with
  | .reply _, [] | .panic _, [] => true
  | _, _ => false

/-- The part of a state that a transition makes anew: world, control, and what
is put on top of the stack. -/
structure Next where
  world : World
  control : Control
  push : List Cont := []

namespace Next

def reply (w : World) (r : Reply) : Next := { world := w, control := .reply r }

def done (w : World) (written : Option Value) : Next := reply w (.done written)

def result (w : World) (v : Value) : Next := reply w (.done (some v))

def refused (w : World) (r : Refusal) : Next := reply w (.refused r)

def notFound (w : World) : Next := refused w .memberNotFound

def failed (w : World) (f : Fault) : Next := reply w (.failed none f)

/-- Fails with an exception of the engine. -/
def throws (w : World) (className : String) (message : Text) : Next :=
  let (w, f) := w.throwException className message
  failed w f

def panic (w : World) (p : Panic) : Next := { world := w, control := .panic p }

/-- Asks a value, and answers with its answer. -/
def operate (w : World) (target : Value) (r : Request) (push : List Cont := []) : Next :=
  { world := w, control := .operate target r, push }

/-- Asks an object, and answers with its answer. -/
def dispatch (w : World) (ref : ObjRef) (r : Request) (push : List Cont := []) : Next :=
  { world := w, control := .dispatch ref r, push }

/-- Lets something wait below what is pushed already. -/
def before (n : Next) (c : Cont) : Next := { n with push := n.push ++ [c] }

end Next
end ScriptEngine
