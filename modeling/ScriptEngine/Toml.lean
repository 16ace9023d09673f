import ScriptEngine.Toml.Document
import ScriptEngine.Toml.Quoted

/-! Reading configuration documents. -/
namespace ScriptEngine.Toml

/-! ### White space and keys -/

def dropBlanks (t : Text) : Text := t.dropWhile isBlank

/-- Drops blanks, newlines and comments. -/
def dropSpace : (inComment : Bool) → Text → Text
  | _, [] => []
  | true, c :: rest => dropSpace (!isNewline c) rest
  | false, c :: rest =>
    if isBlank c || isNewline c then dropSpace false rest
    else if c = 0x23 then dropSpace true rest
    else c :: rest

/-- What follows the end of a line, where only blanks and a comment may stand. -/
def lineEnd? (t : Text) : Option Text :=
  match dropBlanks t with
  | [] => some []
  | c :: rest =>
    if isNewline c then some rest
    else if c = 0x23 then some (rest.dropWhile (!isNewline ·))
    else none

def isBareKeyChar (c : UInt8) : Bool :=
  Numeral.isDigit c || (0x61 ≤ Numeral.lower c && Numeral.lower c ≤ 0x7a) || c = 0x5f || c = 0x2d

/-- One part of a key. -/
def keyPart? : Text → Option (Text × Text)
  | [] => none
  | c :: rest =>
    if c = quote then basic? (rest.length + 1) rest
    else if c = apostrophe then literal? rest
    else if isBareKeyChar c then
      some (c :: rest.takeWhile isBareKeyChar, rest.dropWhile isBareKeyChar)
    else none

/-- A key: parts with points between them, and blanks around those. -/
def key? : (fuel : Nat) → Text → Option (KeyPath × Text)
  | 0, _ => none
  | fuel + 1, t => do
    let (part, rest) ← keyPart? (dropBlanks t)
    match dropBlanks rest with
    | 0x2e :: rest =>
      let (parts, rest) ← key? fuel rest
      return (part :: parts, rest)
    | rest => return ([part], rest)

/-! ### Values -/

/-- Puts a value below tables that are made where they are missing. -/
def insertBelow : (parents : KeyPath) → (key : Text) → Value → Entries → Option Entries
  | [], key, v, entries => some (Table.insertIn key v entries)
  | parent :: parents, key, v, entries =>
    match (Table.findIn parent entries).getD (.table []) with
    | .table sub => do
      let changed ← insertBelow parents key v sub
      return Table.insertIn parent (.table changed) entries
    | _ => none

def isArray : Value → Bool
  | .array _ => true
  | _ => false

mutual

/-- The value at the start of a text, which is being defined as `key` in the
table at `context`. -/
def value? : (fuel : Nat) → Document → (context : KeyPath) → (key : Text) → (inArray : Bool) →
    Text → Option (Value × Document × Text)
  | 0, _, _, _, _, _ => none
  | fuel + 1, d, context, key, inArray, t =>
    match dropBlanks t with
    | [] => none
    | c :: rest =>
      if c = quote then (anyBasic? rest).map fun (s, rest) => (.string s, d, rest)
      else if c = apostrophe then (anyLiteral? rest).map fun (s, rest) => (.string s, d, rest)
      else if c = 0x5b then do
        let (items, d, rest) ← items? fuel (d.noteKind context key true) context key rest
        return (.array items, d, rest)
      else if c = 0x7b then do
        let path := context ++ [key]
        let d ← (d.markImplicit path).openTable path inArray
        let (entries, d, rest) ← entries? fuel d path [] rest
        return (.table entries, d, rest)
      else
        let letters := (c :: rest).takeWhile fun c =>
          0x61 ≤ Numeral.lower c && Numeral.lower c ≤ 0x7a
        if letters = utf8 "true" then some (.boolean true, d, (c :: rest).drop 4)
        else if letters = utf8 "false" then some (.boolean false, d, (c :: rest).drop 5)
        else (scalar? (c :: rest)).map fun (s, rest) => (.scalar s, d, rest)

/-- The items of an array, after its bracket or a comma. -/
def items? : (fuel : Nat) → Document → (context : KeyPath) → (key : Text) →
    Text → Option (List Value × Document × Text)
  | 0, _, _, _, _ => none
  | fuel + 1, d, context, key, t =>
    match dropSpace false t with
    | 0x5d :: rest => some ([], d, rest)
    | t => do
      let (v, d, rest) ← value? fuel d context key true t
      match dropSpace false rest with
      | 0x2c :: rest =>
        let (items, d, rest) ← items? fuel d context key rest
        return (v :: items, d, rest)
      | 0x5d :: rest => return ([v], d, rest)
      | _ => none

/-- The entries of an inline table at `context`, after its brace or a comma. -/
def entries? : (fuel : Nat) → Document → (context : KeyPath) → Entries →
    Text → Option (Entries × Document × Text)
  | 0, _, _, _, _ => none
  | fuel + 1, d, context, entries, t =>
    match dropSpace false t with
    | 0x7d :: rest => some (entries, d, rest)
    | t => do
      let (path, v, d, rest) ← definition? fuel d context t
      let entries ← insertBelow path.dropLast (path.getLast?.getD []) v entries
      match dropSpace false rest with
      | 0x2c :: rest => entries? fuel d context entries rest
      | 0x7d :: rest => return (entries, d, rest)
      | _ => none

/-- A key, an equals sign and the value of the key. -/
def definition? : (fuel : Nat) → Document → (context : KeyPath) →
    Text → Option (KeyPath × Value × Document × Text)
  | 0, _, _, _ => none
  | fuel + 1, d, context, t => do
    match ← key? (t.length + 1) t with
    | (path, 0x3d :: rest) =>
      let key := path.getLast?.getD []
      let d ← d.openParents context path.dropLast
      let context := context ++ path.dropLast
      let (v, d, rest) ← value? fuel d context key false rest
      let d ← d.define context key v
      return (path, v, d.noteKind context key (isArray v), rest)
    | _ => none

end

/-! ### Documents -/

/-- The header of a table after its first bracket: whether it is one of several,
its path, and what follows. -/
def header? (t : Text) : Option (Bool × KeyPath × Text) :=
  match t with
  | 0x5b :: rest => do
    match ← key? (rest.length + 1) rest with
    | (path, 0x5d :: 0x5d :: rest) => return (true, path, rest)
    | _ => none
  | _ => do
    match ← key? (t.length + 1) t with
    | (path, 0x5d :: rest) => return (false, path, rest)
    | _ => none

/-- Reads lines into a document; `context` is the table they belong to. -/
def lines? : (fuel : Nat) → Document → (context : KeyPath) → Text → Option Document
  | 0, _, _, _ => none
  | fuel + 1, d, context, t =>
    match dropSpace false t with
    | [] => some d
    | 0x5b :: rest => do
      let (oneMore, path, rest) ← header? rest
      let d ← d.openTable path oneMore
      lines? fuel (d.noteKind path [] false) path (← lineEnd? rest)
    | t => do
      let (_, _, d, rest) ← definition? (t.length + 1) d context t
      lines? fuel d context (← lineEnd? rest)

/-- Whether a text has no control characters but tabs and line ends. -/
def isPlain : Text → Bool
  | [] => true
  | c :: rest =>
    (if c = 0x0d then rest.head? = some 0x0a else c = 0x09 || c = 0x0a || (0x20 ≤ c && c ≠ 0x7f)) &&
      isPlain rest

/-- A text without a byte order mark. -/
def dropMark : Text → Text
  | 0xff :: 0xfe :: rest | 0xfe :: 0xff :: rest => rest
  | 0xef :: 0xbb :: 0xbf :: rest => rest
  | t => t

/-- The document that a text spells. -/
def read? (t : Text) : Option Entries :=
  let t := dropMark t
  if t.isUtf8 && isPlain t then (lines? (t.length + 1) {} [] t).map (·.root) else none

end ScriptEngine.Toml
