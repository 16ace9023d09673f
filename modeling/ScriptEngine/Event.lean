import ScriptEngine.Arena
import ScriptEngine.Attribute

/-! What the engine reports while it runs. -/
namespace ScriptEngine

/-- How much a report matters. -/
inductive Severity where
  | debug | warning | error
deriving DecidableEq, Repr

def Severity.name : Severity → String
  | .debug => "debug"
  | .warning => "warning"
  | .error => "error"

/-- A report. -/
inductive Event where
  | released (handle : FrameHandle)
  | staleRelease (handle : FrameHandle)
  | dump (title : Text) (line column : Int64) (registers : Text)
  | attributesOverwritten (name : Text) (attr : Attribute)
  | uncaughtThrown (trace : Text)
  | uncaughtExit (trace : Text)
  | executionFailed (message : Text)
deriving DecidableEq, Repr

namespace Event

def severity : Event → Severity
  | .released _ | .dump .. | .attributesOverwritten .. => .debug
  | .staleRelease _ => .warning
  | .uncaughtThrown _ | .uncaughtExit _ | .executionFailed _ => .error

/-- The wording of a report. -/
def text : Event → Text
  | .released handle => utf8 "released " ++ handle.text
  | .staleRelease handle =>
    utf8 "release " ++ handle.text ++ utf8 ": " ++ ArenaError.stale.message
  | .dump title line column registers =>
    utf8 "dump " ++ title ++ utf8 " (" ++ Text.ofInt line.toInt ++ utf8 ":" ++
      Text.ofInt column.toInt ++ utf8 "): " ++ registers
  | .attributesOverwritten name attr =>
    utf8 "attributes of " ++ name.quoted ++ utf8 " overwritten: " ++ attr.text
  | .uncaughtThrown trace => utf8 "uncaught " ++ trace
  | .uncaughtExit trace => trace
  | .executionFailed message => utf8 "execution failed: " ++ message

/-- The report that dropping a reference gives rise to. -/
def ofRelease : FrameHandle × Release → List Event
  | (handle, .freed) => [.released handle]
  | (handle, .stale) => [.staleRelease handle]
  | (_, .kept) => []

end Event
end ScriptEngine
