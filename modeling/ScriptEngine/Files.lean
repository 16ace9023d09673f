import ScriptEngine.BlockStore.Settings
import ScriptEngine.Path

/-! Files as programs use them. -/
namespace ScriptEngine

/-- What keeps a file from being used. -/
inductive FileTrouble where
  | notFound | isDirectory | notDirectory | alreadyThere | nameTooLong | invalidName
  | other (reason : Text)
deriving DecidableEq, Repr

/-- The wording of a trouble. -/
def FileTrouble.message : FileTrouble → Text
  | .notFound => utf8 "no such file or directory"
  | .isDirectory => utf8 "is a directory"
  | .notDirectory => utf8 "not a directory"
  | .alreadyThere => utf8 "file exists"
  | .nameTooLong => utf8 "file name too long"
  | .invalidName => utf8 "invalid argument"
  | .other reason => reason

/-- A failed use of a file: what was tried, and where. -/
structure FileError where
  action : String
  path : Text
  trouble : FileTrouble
deriving DecidableEq, Repr

/-- The wording of a file error. -/
def FileError.message (e : FileError) : Text :=
  utf8 e.action ++ utf8 " " ++ e.path ++ utf8 ": " ++ e.trouble.message

/-- The uses of files that programs make. -/
structure Files (m : Type → Type) where
  workingDirectory : m Text
  /-- Whether there is anything at a path. -/
  isThere : Text → m Bool
  read : Text → m (Except FileError Text)
  write : (path content : Text) → m (Except FileError Unit)
  /-- Makes a directory and those it lies in. -/
  makeDirectories : Text → m (Except FileError Unit)
  /-- Opens the file of a block store, if that can be; makes an empty one where
  there is nothing yet. -/
  openStore : Text → m (Option StoreFile)
  /-- Puts a block store into a file. -/
  saveStore : Text → BlockStore → m (Except FileError Unit)
  /-- The time in seconds since the start of 1970. -/
  now : m Int

end ScriptEngine
