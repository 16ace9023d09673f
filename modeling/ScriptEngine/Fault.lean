import ScriptEngine.Arena
import ScriptEngine.CodeBlock

/-! What travels when something fails: thrown values and non-local exits, which
collect a trace on their way, and failures of the host or of the arena. -/
namespace ScriptEngine

/-- A thrown value or exit, by its place in the store of signals. -/
abbrev SignalRef := Nat

/-- A failure outside scripts. -/
inductive HostError where
  | text (message : Text)
  | arena (error : ArenaError)
deriving DecidableEq, Repr

def HostError.message : HostError → Text
  | .text message => message
  | .arena error => error.message

/-- A failure on its way: a signal, a failure outside scripts, or another
failure under a label. -/
inductive Fault where
  | signal (ref : SignalRef)
  | host (error : HostError)
  | labelled (label : Text) (inner : Fault)
deriving DecidableEq, Repr

namespace Fault

/-- The signal that a failure carries, if any. -/
def signal? : Fault → Option SignalRef
  | .signal ref => some ref
  | .host _ => none
  | .labelled _ inner => inner.signal?

/-- The failure outside scripts at the bottom, if any. -/
def hostError? : Fault → Option HostError
  | .signal _ => none
  | .host error => some error
  | .labelled _ inner => inner.hostError?

end Fault

/-- One frame boundary that a signal crossed. -/
structure TracePoint where
  title : Text
  id : BlockId
  line : Int64
  column : Int64
deriving DecidableEq, Repr

/-- The text of a trace point: the source position, or the block's identity
where the line is unknown. -/
def TracePoint.text (p : TracePoint) : Text :=
  if p.line = 0 then p.title ++ utf8 " (" ++ p.id.text ++ utf8 ")"
  else
    p.title ++ utf8 " (" ++ Text.ofInt p.line.toInt ++ utf8 ":" ++ Text.ofInt p.column.toInt ++
      utf8 ")"

/-- The trace point of an offset in a block. -/
def BlockData.tracePoint (b : BlockData) (offset : Int) : TracePoint :=
  let (line, column) := b.position offset
  ⟨b.title, b.id, line, column⟩

/-- A thrown value, perhaps made from a failure outside scripts, or an exit for
a branch with the same identifier. Both collect the boundaries that they
crossed, the latest first. -/
inductive Signal where
  | thrown (value : Value) (crossed : List TracePoint) (cause : Option Fault)
  | exit (id : Int64) (target : Int) (value : Value) (crossed : List TracePoint)
deriving DecidableEq, Repr

namespace Signal

def value : Signal → Value
  | .thrown v _ _ => v
  | .exit _ _ v _ => v

/-- The boundaries that a signal crossed, in their order. -/
def trace : Signal → List TracePoint
  | .thrown _ crossed _ => crossed.reverse
  | .exit _ _ _ crossed => crossed.reverse

/-- A signal with one more trace point at the end. -/
def annotated (p : TracePoint) : Signal → Signal
  | .thrown v crossed cause => .thrown v (p :: crossed) cause
  | .exit id target v crossed => .exit id target v (p :: crossed)

end Signal

/-- A message followed by the lines of a trace. -/
def traceText (message : Text) (trace : List TracePoint) : Text :=
  message ++ trace.flatMap fun p => utf8 "\n  at " ++ p.text

/-- Why running had to stop altogether: with a message, or because of an access
outside of what is there. -/
inductive Panic where
  | message (text : Text)
  | invalidAccess
deriving DecidableEq, Repr

end ScriptEngine
