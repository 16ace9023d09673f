import ScriptEngine.BlockStore.Settings
import ScriptEngine.BlockStore.TimeZone

/-! Connecting to a store: its parameters say how its file is reached and which
settings it gets. -/
namespace ScriptEngine

/-- How a store is reached. -/
inductive StoreAccess where
  | file
  /-- Not at all; the store is forgotten when it is closed. -/
  | memory
deriving DecidableEq, Repr

namespace StoreAccess

/-- The names of the ways to reach a file. -/
def fileNames : List Text := ["", "unix", "unix-dotfile", "unix-excl", "unix-none"].map utf8

/-- Picks a name from those given: all that follow the first one that is not
empty have to be equal to it. -/
def chosen (names : List Text) : Except StoreTrouble Text :=
  match names.dropWhile (· = []) with
  | [] => .ok []
  | name :: rest => if rest.all (· = name) then .ok name else .error (.conflictingAccess names)

/-- How parameters say that a store is reached. -/
def ofParameters (ps : List Parameter) : Except StoreTrouble StoreAccess := do
  let name := (← chosen (Parameter.values ps "vfs")).takeWhile (· ≠ 0)
  if fileNames.contains name then return .file
  else if name = utf8 "memdb" then return .memory
  else throw .unknownAccess

end StoreAccess

namespace Connection

/-- Whether one setting is made before another: waiting times come first, the
others in their order without regard to case. -/
def madeBefore (a b : Text) : Bool :=
  let x := Text.trimmed (Text.lower a)
  let y := Text.trimmed (Text.lower b)
  let waiting := utf8 "busy_timeout"
  waiting.isPrefixOf x || (!waiting.isPrefixOf y && Text.order x y == .lt)

/-- Puts a setting among others, the last of which comes first. -/
def placed (a : Text) : List Text → List Text
  | b :: before => if madeBefore a b then b :: placed a before else a :: b :: before
  | [] => [a]

/-- Settings in the order in which they are made. -/
def ordered (settings : List Text) : List Text :=
  (settings.foldl (fun done a => placed a done) []).reverse

/-- The words for yes and no. -/
def switches : List Text := [
  "1", "t", "T", "TRUE", "true", "True", "0", "f", "F", "FALSE", "false", "False"].map utf8

/-- What is wrong with the name of a time zone. -/
def zoneRemark? (name : Text) : Option Text :=
  if name = utf8 "UTC" ∨ name = utf8 "Local" then none
  else if name.head? = some 0x2f ∨ name.head? = some 0x5c ∨ dotted name then
    some (utf8 ": time: invalid location name")
  else if isZone name then none
  else some (utf8 ": unknown time zone " ++ name)
where
  dotted : Text → Bool
    | 0x2e :: 0x2e :: _ => true
    | _ :: rest => dotted rest
    | [] => false

/-- What there is to say of a value that is not one of some. -/
def remarkUnless (known : List Text) (remark : String) (value : Text) : Option Text :=
  if known.contains value then none else some (utf8 remark)

/-- The parameters whose values are checked, in this order, each with what is wrong
with a value. -/
def checks : List (String × (Text → Option Text)) := [
  ("_time_format", remarkUnless (["sqlite", "datetime"].map utf8) ""),
  ("_timezone", zoneRemark?),
  ("_time_integer_format",
    remarkUnless (["unix", "unix_milli", "unix_micro", "unix_nano"].map utf8) ""),
  ("_txlock",
    fun value =>
      remarkUnless (["deferred", "immediate", "exclusive"].map utf8) "" (Text.lower value)),
  ("_inttotime", remarkUnless switches ", must be 0 or 1"),
  ("_texttotime", remarkUnless switches ", must be 0 or 1")]

/-- The first parameter with a wrong value. An empty value is none. -/
def wrongValue? (ps : List Parameter) : Option StoreTrouble :=
  checks.findSome? fun (name, remark?) =>
    let value := Parameter.firstValue ps name
    if value = [] then none else (remark? value).map (.unknownValue name value)

/-- The settings that parameters give to a store. -/
def settings (ps : List Parameter) (f : StoreFile) : Except StoreTrouble Settings := do
  let statements := (ordered (Parameter.values ps "_pragma")).map (utf8 "pragma " ++ ·)
  let s ← statements.foldlM (Settings.run f) {}
  match wrongValue? ps with
  | some trouble => throw trouble
  | none => return s

end Connection

/-- An open store. -/
structure Connection where
  /-- The file that it is kept in, if any. -/
  file? : Option Text
  store : BlockStore
  /-- Why it cannot be changed. -/
  refusal? : Option StoreTrouble := none
deriving DecidableEq, Repr

end ScriptEngine
