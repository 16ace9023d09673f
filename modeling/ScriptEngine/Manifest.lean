import ScriptEngine.Engine
import ScriptEngine.Files
import ScriptEngine.Toml

/-! Project settings, which a configuration file in the project's directory
gives. -/
namespace ScriptEngine

/-- The settings of a project. `dir` is the directory of the file they come
from; the defaults come from none. -/
structure Manifest where
  projectName : Text := []
  version : Text := []
  assertions : Bool := false
  dump : Bool := false
  arenaCapacity : Int64 := 0
  verbosity : Int64 := 0
  logFile : Text := []
  cacheEnabled : Bool := false
  cachePath : Text := []
  entry : Text := []
  dir : Text := []
deriving DecidableEq, Repr

/-- Why there are no settings. -/
inductive ManifestError where
  | unreadable (path : Text) (error : FileError)
  /-- The file is no configuration, or a setting has the wrong type. -/
  | malformed (path : Text)
  | negativeCapacity (path : Text)
deriving DecidableEq, Repr

/-- The wording of a manifest error; what is wrong with a malformed file is not
said. -/
def ManifestError.message : ManifestError → Text
  | .unreadable path error => utf8 "cannot read " ++ path ++ utf8 ": " ++ error.message
  | .malformed path => utf8 "parse error in " ++ path ++ utf8 ": malformed configuration"
  | .negativeCapacity path =>
    path ++ utf8 ": engine.arena-capacity must not be negative"

namespace Manifest

def fileName : Text := utf8 "kiri.toml"

def defaultCachePath : Text := utf8 ".kiri/cache.db"

/-- Settings with what is not given filled in. -/
def withDefaults (m : Manifest) : Manifest :=
  if m.cachePath = [] then { m with cachePath := defaultCachePath } else m

/-- The settings where no file gives any. -/
def standard : Manifest := withDefaults {}

/-! ### Settings of a document -/

/-- A character as names of settings see it: letters without case. The long `s`
and the Kelvin sign count as the letters that they are variants of. -/
def foldGlyph : Glyph → Glyph
  | .char code =>
    if 0x41 ≤ code ∧ code ≤ 0x5a then .char (code + 0x20)
    else if code = 0x17f then .char 0x73
    else if code = 0x212a then .char 0x6b
    else .char code
  | glyph => glyph

/-- Whether a key names a setting. -/
def names (setting : String) (key : Text) : Bool :=
  key.glyphs.map foldGlyph = (utf8 setting).glyphs

/-- Applies the entries that have a use; one of the wrong type is an error. -/
def applyAll {α : Type} (use : Text → Toml.Value → α → Option α) : Toml.Entries → α → Option α
  | [], a => some a
  | (key, v) :: rest, a => do applyAll use rest (← use key v a)

def string? : Toml.Value → Option Text
  | .string t => some t
  | _ => none

def boolean? : Toml.Value → Option Bool
  | .boolean b => some b
  | _ => none

def integer? : Toml.Value → Option Int64
  | .scalar (.integer n) => some n
  | _ => none

def table? : Toml.Value → Option Toml.Entries
  | .table entries => some entries
  | _ => none

/-- A setting of a section. -/
def setIn (sectionName : String) (key : Text) (v : Toml.Value) (m : Manifest) : Option Manifest :=
  let is (name : String) : Bool := names name key
  match sectionName with
  | "project" =>
    if is "name" then do return { m with projectName := ← string? v }
    else if is "version" then do return { m with version := ← string? v }
    else some m
  | "engine" =>
    if is "assertions" then do return { m with assertions := ← boolean? v }
    else if is "dump" then do return { m with dump := ← boolean? v }
    else if is "arena-capacity" then do return { m with arenaCapacity := ← integer? v }
    else some m
  | "log" =>
    if is "verbosity" then do return { m with verbosity := ← integer? v }
    else if is "file" then do return { m with logFile := ← string? v }
    else some m
  | "cache" =>
    if is "enabled" then do return { m with cacheEnabled := ← boolean? v }
    else if is "path" then do return { m with cachePath := ← string? v }
    else some m
  | "run" =>
    if is "entry" then do return { m with entry := ← string? v }
    else some m
  | _ => some m

def sections : List String := ["project", "engine", "log", "cache", "run"]

/-- The settings of a document. Unknown keys are ignored. -/
def ofEntries? (entries : Toml.Entries) : Option Manifest :=
  applyAll (fun key v m =>
    match sections.find? (names · key) with
    | some sectionName => do applyAll (setIn sectionName) (← table? v) m
    | none => some m) entries {}

/-! ### Files -/

variable {m : Type → Type} [Monad m]

/-- Reads the settings in a directory. -/
def load (files : Files m) (dir : Text) : m (Except ManifestError Manifest) := do
  let path := Path.join dir fileName
  match ← files.read path with
  | .error error => return .error (.unreadable path error)
  | .ok content =>
    match (Toml.read? content).bind ofEntries? with
    | none => return .error (.malformed path)
    | some settings =>
      if settings.arenaCapacity < 0 then return .error (.negativeCapacity path)
      else
        let full := Path.absolute (← files.workingDirectory) dir
        return .ok { settings with dir := full }.withDefaults

/-- The first of some directories that has a file of settings. -/
def firstWith (files : Files m) : List Text → m (Option Text)
  | [] => return none
  | dir :: rest => do
    if ← files.isThere (Path.join dir fileName) then return some dir else firstWith files rest

/-- Reads the settings in a directory or the nearest one around it that has any;
nothing if none has. -/
def findAndLoad (files : Files m) (start : Text) : m (Except ManifestError (Option Manifest)) := do
  let dir := Path.absolute (← files.workingDirectory) start
  match ← firstWith files (Path.ancestors dir) with
  | none => return .ok none
  | some found =>
    match ← load files found with
    | .ok settings => return .ok (some settings)
    | .error error => return .error error

/-! ### Uses -/

def config (s : Manifest) : Config :=
  { assertions := s.assertions, dump := s.dump, capacity := s.arenaCapacity.toInt }

/-- A path of the settings, seen from their directory. -/
def resolve (s : Manifest) (path : Text) : Text :=
  if Path.isAbsolute path ∨ s.dir = [] then path else Path.join s.dir path

def cacheFile (s : Manifest) : Text := s.resolve s.cachePath

/-- The log file; empty for none. -/
def logPath (s : Manifest) : Text := if s.logFile = [] then [] else s.resolve s.logFile

/-- The block to run; empty for none. -/
def entryPath (s : Manifest) : Text := if s.entry = [] then [] else s.resolve s.entry

end Manifest
end ScriptEngine
