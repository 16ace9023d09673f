import ScriptEngine.Text

/-! Slash-separated paths, handled as texts without looking at any files. -/
namespace ScriptEngine.Path

def slash : UInt8 := 0x2f

/-- The parts between slashes, empty ones included. -/
def parts (p : Text) : List Text := p.split slash

/-- Whether a path starts at the root. -/
def isAbsolute (p : Text) : Bool := p.head? = some slash

def here : Text := utf8 "."

def up : Text := utf8 ".."

/-- Parts in order, each way up cancelled against the part before it; at the
root there is no way up. `done` are the parts so far, last first. -/
def resolveParts (rooted : Bool) : (done : List Text) → List Text → List Text
  | done, [] => done.reverse
  | done, part :: rest =>
    if part = [] ∨ part = here then resolveParts rooted done rest
    else if part = up then
      match done with
      | last :: before =>
        if last = up then resolveParts rooted (part :: done) rest else resolveParts rooted before rest
      | [] => resolveParts rooted (if rooted then [] else [part]) rest
    else resolveParts rooted (part :: done) rest

/-- The path of some parts. -/
def ofParts (rooted : Bool) (ps : List Text) : Text :=
  if rooted then slash :: Text.joined [slash] ps
  else if ps = [] then here
  else Text.joined [slash] ps

/-- The shortest equivalent path. -/
def clean (p : Text) : Text :=
  let rooted := isAbsolute p
  ofParts rooted (resolveParts rooted [] (parts p))

/-- A path below another, clean; empty parts are left out. -/
def join (dir p : Text) : Text :=
  if dir = [] ∧ p = [] then []
  else if dir = [] then clean p
  else if p = [] then clean dir
  else clean (dir ++ slash :: p)

/-- The part of a path up to its last slash. -/
def uptoSlash (p : Text) : Text := (p.reverse.dropWhile (· != slash)).reverse

/-- The directory that a path lies in, clean. -/
def directory (p : Text) : Text := clean (uptoSlash p)

/-- A path as seen from the root, clean. -/
def absolute (workingDirectory p : Text) : Text :=
  if isAbsolute p then clean p else join workingDirectory p

/-- A directory and those it lies in, the innermost first. -/
def ancestors (dir : Text) : List Text :=
  let rooted := isAbsolute dir
  let ps := resolveParts rooted [] (parts dir)
  (List.range (ps.length + 1)).reverse.map fun n => ofParts rooted (ps.take n)

end ScriptEngine.Path
