import ScriptEngine.Files

/-! A tree of files that lives in memory. -/
namespace ScriptEngine

/-- What is at a place of a tree. -/
inductive FileNode where
  | file (content : Text)
  | store (blocks : BlockStore)
  | directory
deriving DecidableEq, Repr

/-- A place in a tree: the names on the way from the root. -/
abbrev Place := List Text

/-- A tree of files, seen from a working directory. What an entry lies in is a
directory even if it has no entry of its own. -/
structure FileTree where
  entries : List (Place × FileNode) := []
  workingDirectory : Place := []
deriving DecidableEq, Repr

namespace FileTree

/-- The longest name. -/
def maxName : Nat := 255

/-- The longest path. -/
def maxPath : Nat := 4095

/-- The longest path of a store from the root. -/
def maxStorePath : Nat := 504

/-- While a store changes there is a second file beside it, whose name is longer
by so much. -/
def journalSuffix : Nat := 8

/-- What is at a place. -/
def node? (t : FileTree) (place : Place) : Option FileNode :=
  match t.entries.find? (·.1 = place) with
  | some (_, node) => some node
  | none =>
    if place = [] ∨ place = t.workingDirectory ∨ t.entries.any (place.isPrefixOf ·.1) then
      some .directory
    else none

/-- Follows the parts of a path from a place. Every place on the way must be a
directory; the last one need not exist. -/
def walk (t : FileTree) : Place → List Text → Except FileTrouble Place
  | place, [] => .ok place
  | place, part :: rest =>
    match t.node? place with
    | none => .error .notFound
    | some .directory =>
      if part = [] ∨ part = Path.here then walk t place rest
      else if part = Path.up then walk t place.dropLast rest
      else if maxName < part.length then .error .nameTooLong
      else walk t (place ++ [part]) rest
    | some _ => .error .notDirectory

/-- Where a path starts, if it can be a path at all. -/
def start (t : FileTree) (path : Text) : Except FileTrouble Place :=
  if path.contains 0 then .error .invalidName
  else if path = [] then .error .notFound
  else if maxPath < path.length then .error .nameTooLong
  else .ok (if Path.isAbsolute path then [] else t.workingDirectory)

/-- The place that a path leads to. -/
def place? (t : FileTree) (path : Text) : Except FileTrouble Place := do
  t.walk (← t.start path) (Path.parts path)

/-- The place of a file that is to be written. A slash after a name says that it
is a directory, whatever is there. -/
def target? (t : FileTree) (path : Text) : Except FileTrouble Place := do
  let start ← t.start path
  let parts := Path.parts path
  match parts.reverse.dropWhile (· = []) with
  | last :: before =>
    if parts.getLast? = some [] ∧ last ≠ Path.here ∧ last ≠ Path.up then
      let _ ← t.walk start (before.reverse ++ [[]])
      .error .isDirectory
    else t.walk start parts
  | [] => .error .isDirectory

/-- What is at the end of a path. -/
def lookup (t : FileTree) (path : Text) : Except FileTrouble FileNode := do
  let place ← t.place? path
  match t.node? place with
  | some node => .ok node
  | none => .error .notFound

/-- Puts a node at a place, in place of any that is there. -/
def put (t : FileTree) (place : Place) (node : FileNode) : FileTree :=
  { t with entries := (place, node) :: t.entries.filter (·.1 ≠ place) }

def read (t : FileTree) (path : Text) : Except FileError Text :=
  match t.lookup path with
  | .ok (.file content) => .ok content
  | .ok (.store blocks) => .ok blocks.toFile
  | .ok .directory => .error ⟨"read", path, .isDirectory⟩
  | .error trouble => .error ⟨"open", path, trouble⟩

/-- Puts a file or a store at the end of a path. -/
def writeNode (t : FileTree) (path : Text) (node : FileNode) : Except FileError FileTree :=
  match t.target? path with
  | .error trouble => .error ⟨"open", path, trouble⟩
  | .ok place =>
    match t.node? place with
    | some .directory => .error ⟨"open", path, .isDirectory⟩
    | _ => .ok (t.put place node)

def write (t : FileTree) (path content : Text) : Except FileError FileTree :=
  t.writeNode path (.file content)

/-- Makes the directories on a list, each inside the one before. A slash follows
the names of all but the last. What was made before a failure stays. -/
def makeAll (t : FileTree) : List Text → Except FileError Unit × FileTree
  | [] => (.ok (), t)
  | dir :: rest =>
    let named := if rest = [] ∨ dir = [Path.slash] then dir else dir ++ [Path.slash]
    let failed (trouble : FileTrouble) : Except FileError Unit × FileTree :=
      (.error ⟨"mkdir", named, trouble⟩, t)
    match t.lookup named with
    | .ok .directory => makeAll t rest
    | .ok _ => failed .notDirectory
    | .error .notFound =>
      match t.place? dir with
      | .ok place => makeAll (t.put place .directory) rest
      | .error trouble => failed trouble
    | .error .notDirectory => failed .alreadyThere
    | .error trouble => failed trouble

def makeDirectories (t : FileTree) (dir : Text) : Except FileError Unit × FileTree :=
  t.makeAll (Path.ancestors dir).reverse

/-- The file of a store at a place. -/
def storeFile (place : Place) (content : StoreContent) : StoreFile :=
  { content, hasJournal := (place.getLastD []).length + journalSuffix ≤ maxName }

/-- Opens the file of a store at the end of a path, an empty one if there is
nothing yet. -/
def openStore (t : FileTree) (path : Text) : Option StoreFile × FileTree :=
  match t.place? path with
  | .error _ => (none, t)
  | .ok place =>
    if maxStorePath < (Path.ofParts true place).length then (none, t)
    else
      match t.node? place with
      | some (.store blocks) => (some (storeFile place (.blocks blocks)), t)
      | some (.file content) =>
        (some (storeFile place (if content.length ≤ 1 then .blank else .foreign)), t)
      | some .directory => (none, t)
      | none => (some (storeFile place .blank), t.put place (.file []))

/-- A change that may fail and then changes nothing. -/
def attempt (change : FileTree → Except FileError FileTree) :
    StateM FileTree (Except FileError Unit) := fun t =>
  match change t with
  | .ok t' => (.ok (), t')
  | .error e => (.error e, t)

/-- The files of a tree; its clock stands still. -/
def files : Files (StateM FileTree) where
  workingDirectory := fun t => (Path.ofParts true t.workingDirectory, t)
  isThere path := fun t => ((t.lookup path).toOption.isSome, t)
  read path := fun t => (t.read path, t)
  write path content := attempt (·.write path content)
  makeDirectories dir := fun t => t.makeDirectories dir
  openStore path := fun t => t.openStore path
  saveStore path blocks := attempt (·.writeNode path (.store blocks))
  now := fun t => (0, t)

end FileTree
end ScriptEngine
