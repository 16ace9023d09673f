import ScriptEngine.CodeBlock.Listing
import ScriptEngine.CommandLine.Failure
import ScriptEngine.CommandLine.Options
import ScriptEngine.CommandLine.Timestamp
import ScriptEngine.Embedding

/-! The commands: run a code block, list one, and manage the store of blocks. A
command reads and writes files and ends with a report. -/
namespace ScriptEngine.CommandLine

/-- How a command ends: its exit code and what it printed. -/
structure Report where
  exit : Nat := 0
  output : Text := []
  errors : Text := []
deriving DecidableEq, Repr

/-- A text as a line. -/
def line (t : Text) : Text := t ++ [0x0a]

/-- The report of a failure. -/
def failing (message : Text) : Report := { exit := 1, errors := line (utf8 "Error: " ++ message) }

/-- The report of a misuse. -/
def misused (message : Text) : Report := { exit := 2, errors := message ++ usage }

/-! ### Running blocks -/

abbrev Environment := List (Text × Text)

/-- The callables that scripts are given: one prints its arguments on a line,
the other looks up a name in the environment. -/
def callable (env : Environment) (key : HostKey) : HostCallable :=
  { run := fun w c =>
      if key = "print" then
        match c.args.mapM w.textOf with
        | some parts => .print (Text.joined (utf8 " ") parts) (.finish none none)
        | none => .stop .invalidAccess
      else
        match w.textOf (c.arg 0) with
        | some name => .finish (some (((env.lookup name).map .string).getD .void)) none
        | none => .stop .invalidAccess }

/-- A new engine with the callables as globals. -/
def startEngine (config : Config) (env : Environment) : Engine × World :=
  let (e, w) := Engine.start config { callable := callable env }
  let bind (w : World) (name : String) : World :=
    let (w, ref) := w.create (.nativeFunction (utf8 name) (some (.host name)) none)
    let (w, fn) := e.wrapFunction w (some ref)
    e.setGlobal w (utf8 name) fn
  (e, bind (bind w "print") "env")

/-- The message for a failure that nothing caught. -/
def faultMessage (w : World) (f : Fault) : Text :=
  match w.signal? f with
  | some s@(.thrown ..) => utf8 "Uncaught " ++ traceText (w.signalText s) s.trace
  | some s@(.exit ..) => traceText (w.signalText s) s.trace
  | none => utf8 "Error: " ++ w.faultText f

/-- The report that running had to stop. -/
def stopped (output reason : Text) : Report :=
  { exit := 2, output, errors := line (utf8 "panic: " ++ reason) }

/-- Runs a block and reports its result, unless that is void. -/
def runBlock (fuel : Nat) (config : Config) (env : Environment) (block : CodeBlock) : Report :=
  let (e, w) := startEngine config env
  let (w, outcome) := e.run fuel w (some block) []
  let output := w.output.toList.flatMap line
  match outcome with
  | .ok .void => { output }
  | .ok v =>
    match w.textOf v with
    | some t => { output := output ++ line t }
    | none => stopped output (utf8 "invalid access")
  | .failed f => { exit := 1, output, errors := line (faultMessage w f) }
  | .stopped (.message message) => stopped output message
  | .stopped .invalidAccess => stopped output (utf8 "invalid access")
  | .unfinished => stopped output (utf8 "out of steps")

/-! ### The block store -/

variable {m : Type → Type} [Monad m]

/-- The longest path of a store that is not kept in a file. -/
def maxMemoryPath : Nat := 1016

/-- The file of a store, if it can be reached. -/
def reach (files : Files m) (path : Text) : StoreAccess → m (Option StoreFile)
  | .file => files.openStore path
  | .memory => return if maxMemoryPath < path.length then none else some {}

/-- Puts a store back into its file. -/
def save (files : Files m) (c : Connection) (store : BlockStore) : m (Except Failure Unit) := do
  match c.file? with
  | none => return .ok ()
  | some file =>
    match ← files.saveStore file store with
    | .ok () => return .ok ()
    | .error e => return .error (.file e)

/-- Connects to the store at a path that parameters were read from. -/
def connect (files : Files m) (file : Text) (ps : List Parameter) (access : StoreAccess) :
    m (Except CacheTrouble Connection) := do
  match ← reach files file access with
  | none => return .error (.unconnected .unopenable)
  | some f =>
    match Connection.settings ps f with
    | .error trouble => return .error (.unconnected trouble)
    | .ok settings =>
      match settings.begin f with
      | .error trouble => return .error (.unmade trouble)
      | .ok store =>
        let file? := if access = .file then some file else none
        let c : Connection := { file?, store, refusal? := settings.refusal? f }
        if f.content = .blank then
          let _ ← save files c store
        return .ok c

/-- Opens the store at a path; makes an empty one if there is none. -/
def openStore (files : Files m) (path : Text) : m (Except CacheTrouble Connection) := do
  match ← files.makeDirectories (Path.directory path) with
  | .error e => return .error (.noDirectory e)
  | .ok () =>
    let place := StorePath.ofText path
    match Parameter.allOf place.parameters with
    | .error e => return .error (.unconnected (.parameters e))
    | .ok ps =>
      match StoreAccess.ofParameters ps with
      | .error trouble => return .error (.unconnected trouble)
      | .ok access => connect files place.file ps access

/-- Decodes a block and keeps it in a store. -/
def keep (files : Files m) (c : Connection) (data : Text) :
    m (Except Failure (CodeBlock × Text)) := do
  match c.store.load (← files.now) data with
  | .error e => return .error (.store e)
  | .ok (store, block, hash) =>
    match c.refusal? with
    | some trouble => return .error (.change "saving block" trouble)
    | none => return (← save files c store).map fun () => (block, hash)

/-- Removes the block under a hash. A store that is only read does not even look
for it. -/
def remove (files : Files m) (c : Connection) (hash : Text) : m (Except Failure Unit) := do
  match c.store.delete hash, c.refusal? with
  | _, some .readOnly => return .error (.change "deleting block" .readOnly)
  | .error e, _ => return .error (.store e)
  | .ok _, some trouble => return .error (.change "deleting block" trouble)
  | .ok store, none => save files c store

/-- The block in a file or, where there is no such file, the block of that hash
in the store. If the store is in use, the block of the file is kept in it. -/
def loadBlock (files : Files m) (settings : Manifest) (argument : Text) (useCache : Bool) :
    m (Except Failure CodeBlock) := do
  let path := settings.cacheFile
  match ← files.read argument with
  | .error e =>
    if e.trouble ≠ .notFound then return .error (.file e)
    else
      match ← openStore files path with
      | .error _ => return .error (.file e)
      | .ok c =>
        match c.store.get argument with
        | .ok block => return .ok block
        | .error e => return .error (.store e)
  | .ok data =>
    if useCache then
      match ← openStore files path with
      | .error trouble => return .error (.cache trouble)
      | .ok c => return (← keep files c data).map Prod.fst
    else
      match Wire.decode data with
      | .ok block => return .ok block
      | .error e => return .error (.wire e)

/-- A text filled up with blanks on the right, by its characters. -/
def padded (width : Nat) (t : Text) : Text :=
  t ++ List.replicate (width - t.glyphs.length) 0x20

/-- The line of a stored block in a list. -/
def listLine (b : StoredBlock) : Text :=
  line (b.hash.take 16 ++ utf8 "  " ++ padded 24 b.name ++ utf8 " " ++
    Text.padLeft 8 (Text.ofNat b.data.length) ++ utf8 "  " ++ timestamp b.stored)

/-- A subcommand on an open store; gives what it prints. -/
def storeCommand (files : Files m) (c : Connection) (name : Text) (args : List Text) :
    m (Except Failure Text) := do
  if name = utf8 "put" then
    match args with
    | [] => return .error .nothingToPut
    | file :: _ =>
      match ← files.read file with
      | .error e => return .error (.file e)
      | .ok data => return (← keep files c data).map fun (_, hash) => line hash
  else if name = utf8 "get" then
    match args with
    | hash :: file :: _ =>
      match c.store.raw hash with
      | .error e => return .error (.store e)
      | .ok data =>
        match ← files.write file data with
        | .ok () => return .ok []
        | .error e => return .error (.file e)
    | _ => return .error .nothingToGet
  else if name = utf8 "list" then
    match c.store.list with
    | .error e => return .error (.store e)
    | .ok blocks => return .ok (blocks.flatMap listLine)
  else if name = utf8 "rm" then
    match args with
    | [] => return .error .nothingToRemove
    | hash :: _ => return (← remove files c hash).map fun () => []
  else return .error (.unknownSubcommand name)

/-! ### Commands -/

/-- Runs the block that is named, or else the one of the settings. -/
def run (files : Files m) (fuel : Nat) (env : Environment) (settings : Manifest) (useCache : Bool)
    (args : List Text) : m Report := do
  let argument := args.head?.getD settings.entryPath
  if argument = [] then return failing Failure.nothingToRun.message
  else
    match ← loadBlock files settings argument useCache with
    | .error e => return failing e.message
    | .ok block => return runBlock fuel settings.config env block

/-- Lists the instructions of a block. -/
def list (files : Files m) (settings : Manifest) (args : List Text) : m Report := do
  let failed (e : Failure) : Report := failing (utf8 "dis: " ++ e.message)
  match args with
  | [] => return failed .nothingToList
  | argument :: _ =>
    match ← loadBlock files settings argument false with
    | .error e => return failed e
    | .ok block => return { output := line (block.listing ({} : World).face) }

/-- Manages the store of blocks. The store is opened before the arguments are
looked at. -/
def cache (files : Files m) (settings : Manifest) (args : List Text) : m Report := do
  let failed (e : Failure) : Report := failing (utf8 "cache: " ++ e.message)
  match args with
  | [] => return failed .noSubcommand
  | name :: args =>
    match ← openStore files settings.cacheFile with
    | .error trouble => return failed (.cache trouble)
    | .ok c =>
      match ← storeCommand files c name args with
      | .error e => return failed e
      | .ok output => return { output }

/-- Opens the log file, if the settings name one and anything is to be logged. -/
def openLog (files : Files m) (settings : Manifest) (verbosity : Int64) :
    m (Except FileError Unit) := do
  let path := settings.logPath
  if path = [] ∨ verbosity ≤ -4 then return .ok ()
  else
    match ← files.read path with
    | .ok _ => return .ok ()
    | .error ⟨_, _, .notFound⟩ => files.write path []
    | .error e => return .error { e with action := "open" }

/-- Does what the arguments after the options say. -/
def command (files : Files m) (fuel : Nat) (env : Environment) (settings : Manifest)
    (useCache : Bool) : List Text → m Report
  | [] => return misused []
  | name :: args =>
    if name = utf8 "run" then run files fuel env settings useCache args
    else if name = utf8 "dis" then list files settings args
    else if name = utf8 "cache" then cache files settings args
    else return misused (utf8 "Unknown command: " ++ name ++ utf8 "\n\n")

/-- Does what the arguments say. -/
def perform (files : Files m) (fuel : Nat) (env : Environment) (args : List Text) : m Report := do
  match Options.parse {} args with
  | .help => return { errors := usage }
  | .wrong e => return misused (line e.message)
  | .ok options args =>
    match ← Manifest.findAndLoad files options.config with
    | .error e => return failing e.message
    | .ok found =>
      let settings := found.getD Manifest.standard
      let verbosity := if 0 ≤ options.verbosity then options.verbosity else settings.verbosity
      match ← openLog files settings verbosity with
      | .error e => return { exit := 1, errors := line (utf8 "log file error: " ++ e.message) }
      | .ok () =>
        command files fuel env settings (settings.cacheEnabled && !options.noCache) args

end ScriptEngine.CommandLine
