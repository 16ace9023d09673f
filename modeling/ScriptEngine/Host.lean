import ScriptEngine.World

/-! The host: code outside scripts that scripts can call.

A callable is asked what it does with a call and answers step by step: it may
ask values for anything, change data of its own, print, and finally finish. It
cannot run blocks other than by calling closures, keep shared frames or take
locks; a host does this only when no callable of it runs. An object of the host
answers each request at once, by the request alone. -/
namespace ScriptEngine

/-- What a callable of the host is given. -/
structure CallInfo where
  wantsResult : Bool
  flags : Flags
  args : List Value
  blocks : List Value
  this : Value
  cls : Option ObjRef

/-- An argument, void where there is none. -/
def CallInfo.arg (c : CallInfo) (i : Int) : Value :=
  if i < 0 then .void else c.args.getD i.toNat .void

/-- A failure that a callable of the host reports. -/
inductive HostFault where
  | text (message : Text)
  | throw (v : Value)
  | exit (id : Int64) (target : Int) (v : Value)
  | labelled (label : Text) (inner : HostFault)
  /-- A failure that it got from the engine and passes on. -/
  | passed (fault : Fault)

/-- What a callable of the host does next. -/
inductive HostAction where
  /-- Ends the call, perhaps with a result and perhaps with a failure. -/
  | finish (result : Option Value) (fault : Option HostFault)
  /-- Stops everything. -/
  | stop (reason : Panic)
  /-- Asks a value, insists on success, and goes on with the result and failure. -/
  | ask (target : Value) (request : Request)
      (resume : World → Value → Option Fault → HostAction)
  | setData (object : ObjRef) (data : HostData) (next : HostAction)
  | print (line : Text) (next : HostAction)

/-- What the receiver of a call must be: anything, or an object of a type. -/
inductive Receiver where
  | any
  | typed (name : String)
deriving DecidableEq, Repr

/-- The name of the type that a receiver must have. -/
def Receiver.typeName : Receiver → String
  | .any => ""
  | .typed name => name

/-- Whether a value can be the receiver: an object of the type itself, or one that
carries data of the type. -/
def Receiver.accepts (r : Receiver) (w : World) (this : Value) : Bool :=
  match r with
  | .any => true
  | .typed name =>
    (this.object?.bind (w.heap[·]?)).any fun o =>
      o.typeName = name || o.hostData?.any (·.typeName = name)

/-- A callable of the host. -/
structure HostCallable where
  receiver : Receiver := .any
  run : World → CallInfo → HostAction

/-- The names that are bound where source text is compiled, and the block that
the text becomes; there may be no block at all. -/
abbrev Compiler := Text → Table BindingSlot → Except Text (Option CodeBlock)

/-- A host: its callables, and its compiler if it has one. -/
structure Host where
  callable : HostKey → HostCallable
  compiler : Option Compiler := none

/-- A failure of the host as a failure of the engine. -/
def World.hostFault (w : World) : HostFault → World × Fault
  | .text message => (w, .host (.text message))
  | .throw v => w.throwValue v
  | .exit id target v => w.raise (.exit id target v [])
  | .labelled label inner =>
    let (w, fault) := w.hostFault inner
    (w, .labelled label fault)
  | .passed fault => (w, fault)

end ScriptEngine
