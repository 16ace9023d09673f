import ScriptEngine.Text.Utf8

/-! Strings of configuration files: basic ones with escapes, literal ones
without, each also over several lines. -/
namespace ScriptEngine.Toml

def quote : UInt8 := 0x22

def apostrophe : UInt8 := 0x27

def backslash : UInt8 := 0x5c

def isNewline (c : UInt8) : Bool := c = 0x0a || c = 0x0d

def isBlank (c : UInt8) : Bool := c = 0x20 || c = 0x09

/-- The number of exactly `count` hexadecimal digits, and what follows. -/
def hexNumber? : (count value : Nat) → Text → Option (Nat × Text)
  | 0, value, t => some (value, t)
  | _ + 1, _, [] => none
  | count + 1, value, c :: rest =>
    match Text.hexValue? c with
    | some d => hexNumber? count (value * 16 + d.toNat) rest
    | none => none

/-- The character with a code of `count` hexadecimal digits. Halves of surrogate
pairs and codes beyond the last one are no characters. -/
def codedChar? (count : Nat) (t : Text) : Option (Text × Text) := do
  let (code, rest) ← hexNumber? count 0 t
  if code < 0xd800 ∨ (0xe000 ≤ code ∧ code ≤ 0x10ffff) then return (Text.ofCode code, rest) else none

/-- What an escape stands for, after its backslash. -/
def escape? : Text → Option (Text × Text)
  | [] => none
  | c :: rest =>
    match Char.ofNat c.toNat with
    | 'b' => some ([0x08], rest)
    | 't' => some ([0x09], rest)
    | 'n' => some ([0x0a], rest)
    | 'f' => some ([0x0c], rest)
    | 'r' => some ([0x0d], rest)
    | 'e' => some ([0x1b], rest)
    | '"' => some ([quote], rest)
    | '\\' => some ([backslash], rest)
    | 'x' => codedChar? 2 rest
    | 'u' => codedChar? 4 rest
    | 'U' => codedChar? 8 rest
    | _ => none

/-- A basic string on one line, after its opening quote. -/
def basic? : (fuel : Nat) → Text → Option (Text × Text)
  | 0, _ | _, [] => none
  | fuel + 1, c :: rest =>
    if c = quote then some ([], rest)
    else if isNewline c then none
    else if c = backslash then do
      let (char, rest) ← escape? rest
      let (more, rest) ← basic? fuel rest
      return (char ++ more, rest)
    else do
      let (more, rest) ← basic? fuel rest
      return (c :: more, rest)

/-- A literal string on one line, after its opening apostrophe. -/
def literal? : Text → Option (Text × Text)
  | [] => none
  | c :: rest =>
    if c = apostrophe then some ([], rest)
    else if isNewline c then none
    else (literal? rest).map fun (more, rest) => (c :: more, rest)

/-- Whether two marks stand at the end of a reversed text, and no backslash
before them where that escapes: three more marks and yet another are then too
many. -/
def crowded (mark : UInt8) (escapes : Bool) : Text → Bool
  | a :: b :: before => a = mark && b = mark && !(escapes && before.head? = some backslash)
  | _ => false

/-- The inside of a string over several lines as it is written, and what follows
its three closing marks. Up to two marks may stand right before those. `before`
is what has been read, reversed. -/
def untilTripled? (mark : UInt8) (escapes : Bool) : (before : Text) → Text → Option (Text × Text)
  | before, c :: d :: rest =>
    if c = mark ∧ d = mark ∧ rest.head? = some mark then
      if rest.tail.head? = some mark then
        if crowded mark escapes before then none else untilTripled? mark escapes (c :: before) (d :: rest)
      else some (before.reverse, rest.tail)
    else if escapes ∧ c = backslash then untilTripled? mark escapes (d :: c :: before) rest
    else untilTripled? mark escapes (c :: before) (d :: rest)
  | _, _ => none

/-- A text without a newline at its start. -/
def dropFirstNewline : Text → Text
  | 0x0a :: rest => rest
  | 0x0d :: 0x0a :: rest => rest
  | t => t

/-- The inside of a basic string over several lines with its escapes resolved. A
backslash at the end of a line takes away the white space that follows. -/
def resolved? : (fuel : Nat) → Text → Option Text
  | 0, _ => none
  | _, [] => some []
  | fuel + 1, c :: rest =>
    if c = backslash then
      let space := rest.takeWhile fun d => isBlank d || isNewline d
      if space.contains 0x0a then resolved? fuel (rest.drop space.length)
      else do
        let (char, rest) ← escape? rest
        return char ++ (← resolved? fuel rest)
    else (resolved? fuel rest).map (c :: ·)

/-- A basic string, of either form, after its first quote. -/
def anyBasic? (t : Text) : Option (Text × Text) :=
  match t with
  | 0x22 :: 0x22 :: rest => do
    let (written, rest) ← untilTripled? quote true [] rest
    return (← resolved? (written.length + 1) (dropFirstNewline written), rest)
  | _ => basic? (t.length + 1) t

/-- A literal string, of either form, after its first apostrophe. -/
def anyLiteral? (t : Text) : Option (Text × Text) :=
  match t with
  | 0x27 :: 0x27 :: rest => do
    let (written, rest) ← untilTripled? apostrophe false [] rest
    return (dropFirstNewline written, rest)
  | _ => literal? t

end ScriptEngine.Toml
