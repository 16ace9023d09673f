import ScriptEngine.CommandLine
import Std.Time

/-! The program: commands over the files of the machine it runs on. -/
namespace ScriptEngine.Program

/-- A path as the file functions take it. -/
def pathString (t : Text) : String := String.fromUTF8? t.toByteArray |>.getD ""

def contentOf (b : ByteArray) : Text := b.data.toList

/-- The trouble behind an error of the machine. -/
def troubleOf : IO.Error → FileTrouble
  | .noFileOrDirectory .. | .noSuchThing .. => .notFound
  | .inappropriateType _ _ details =>
    if details = "Is a directory" then .isDirectory else .notDirectory
  | .alreadyExists .. => .alreadyThere
  | .invalidArgument _ code _ => if code = 36 then .nameTooLong else .invalidName
  | e => .other (utf8 (toString e))

/-- Tries to use a file. -/
def attempt {α : Type} (action : String) (path : Text) (use : IO α) :
    IO (Except FileError α) := do
  try
    return .ok (← use)
  catch e => return .error ⟨action, path, troubleOf e⟩

/-- Reads a file. A directory can be opened and not read. -/
def readFile (path : Text) : IO (Except FileError Text) := do
  let result ← attempt "open" path (IO.FS.readBinFile (pathString path))
  match result with
  | .error ⟨_, _, .isDirectory⟩ => return .error ⟨"read", path, .isDirectory⟩
  | .error e => return .error e
  | .ok content => return .ok (contentOf content)

def writeFile (path content : Text) : IO (Except FileError Unit) :=
  attempt "open" path (IO.FS.writeBinFile (pathString path) content.toByteArray)

/-- Opens the file of a store, an empty one if there is nothing yet. -/
def openStore (path : Text) : IO (Option StoreFile) := do
  match ← readFile path with
  | .ok content => return some { content := StoreContent.ofFile content }
  | .error ⟨_, _, .notFound⟩ =>
    match ← writeFile path [] with
    | .ok () => return some {}
    | .error _ => return none
  | .error _ => return none

/-- The files of the machine. -/
def files : Files IO where
  workingDirectory := return utf8 (← IO.currentDir).toString
  isThere path := do
    try
      let _ ← IO.FS.realPath (pathString path)
      return true
    catch _ => return false
  read := readFile
  write := writeFile
  makeDirectories path := attempt "mkdir" path (IO.FS.createDirAll (pathString path))
  openStore := openStore
  saveStore path store := writeFile path store.toFile
  now := return (← Std.Time.Timestamp.now).toSecondsSinceUnixEpoch.val

/-- The environment of the program. -/
def environment : IO CommandLine.Environment := do
  try
    let content ← IO.FS.readBinFile "/proc/self/environ"
    return ((contentOf content).split 0).map fun entry =>
      (entry.takeWhile (· ≠ 0x3d), (entry.dropWhile (· ≠ 0x3d)).drop 1)
  catch _ => return []

/-- More machine transitions than any run takes. -/
def fuel : Nat := 1 <<< 62

end ScriptEngine.Program

def main (args : List String) : IO UInt32 := do
  let report ← ScriptEngine.CommandLine.perform ScriptEngine.Program.files
    ScriptEngine.Program.fuel (← ScriptEngine.Program.environment) (args.map ScriptEngine.utf8)
  let out ← IO.getStdout
  let err ← IO.getStderr
  out.write report.output.toByteArray
  err.write report.errors.toByteArray
  return report.exit.toUInt32
