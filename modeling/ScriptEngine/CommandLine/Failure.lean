import ScriptEngine.BlockStore.Connection
import ScriptEngine.Manifest

/-! Why a command fails. -/
namespace ScriptEngine.CommandLine

/-- Why there is no store at a path. -/
inductive CacheTrouble where
  | noDirectory (error : FileError)
  /-- It cannot be opened and set up. -/
  | unconnected (trouble : StoreTrouble)
  /-- It is open and there is no place for blocks in it. -/
  | unmade (trouble : StoreTrouble)
deriving DecidableEq, Repr

/-- The wording of a trouble with a store's path. -/
def CacheTrouble.message : CacheTrouble → Text
  | .noDirectory error => utf8 "creating cache directory: " ++ error.message
  | .unconnected trouble => utf8 "setting busy timeout: " ++ trouble.message
  | .unmade trouble => utf8 "creating table: " ++ trouble.message

/-- Why a command fails. -/
inductive Failure where
  | manifest (error : ManifestError)
  | file (error : FileError)
  | wire (error : Wire.Error)
  | store (error : StoreError)
  | cache (trouble : CacheTrouble)
  /-- An open store could not be changed; says what was to be done. -/
  | change (activity : String) (trouble : StoreTrouble)
  | nothingToRun
  | nothingToList
  | noSubcommand
  | nothingToPut
  | nothingToGet
  | nothingToRemove
  | unknownSubcommand (name : Text)
deriving DecidableEq, Repr

/-- The wording of a failure. -/
def Failure.message : Failure → Text
  | .manifest error => error.message
  | .file error => error.message
  | .wire error => error.message
  | .store error => error.message
  | .cache trouble => trouble.message
  | .change activity trouble => utf8 activity ++ utf8 ": " ++ trouble.message
  | .nothingToRun => utf8 "run: no code block given and no [run] entry configured"
  | .nothingToList => utf8 "missing FILE.kbc or HASH"
  | .noSubcommand => utf8 "missing subcommand (put, get, list, rm)"
  | .nothingToPut => utf8 "put: missing FILE.kbc"
  | .nothingToGet => utf8 "get: usage: cache get HASH OUT"
  | .nothingToRemove => utf8 "rm: missing HASH"
  | .unknownSubcommand name => utf8 "unknown subcommand " ++ name.quoted

end ScriptEngine.CommandLine
