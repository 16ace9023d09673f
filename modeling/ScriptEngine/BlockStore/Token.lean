import ScriptEngine.Numeral.Grouping
import ScriptEngine.Text

/-! The tokens of statements that set up a store. -/
namespace ScriptEngine

/-- A text with its ASCII letters in lower case. -/
def Text.lower (t : Text) : Text := t.map Numeral.lower

/-- What a token is in a statement. -/
inductive TokenKind where
  /-- A name: a word that is not reserved, or anything between quotes. -/
  | name
  /-- A word that cannot be a name. -/
  | reserved
  | number
  | point | equals | plus | minus | opening | closing
  /-- The end of a statement. -/
  | semicolon
  /-- Something that stands in other statements only. -/
  | foreign
  /-- No token at all. -/
  | illegal
deriving DecidableEq, Repr

/-- A token as it is written. -/
structure Token where
  kind : TokenKind
  text : Text
deriving DecidableEq, Repr

namespace Token

/-- The words that cannot be names. -/
def reservedWords : List Text := [
  "add", "all", "alter", "and", "as", "autoincrement", "between", "case", "check", "collate",
  "commit", "constraint", "create", "default", "deferrable", "delete", "distinct", "drop", "else",
  "escape", "except", "exists", "foreign", "from", "group", "having", "in", "index", "insert",
  "intersect", "into", "is", "isnull", "join", "limit", "not", "nothing", "notnull", "null", "on",
  "or", "order", "primary", "references", "returning", "select", "set", "table", "then", "to",
  "transaction", "union", "unique", "update", "using", "values", "when", "where"].map utf8

/-- White space after other white space. -/
def isSpace (c : UInt8) : Bool := (9 ≤ c && c ≤ 13) || c == 0x20

/-- White space at the start of a token; a vertical tab is none. -/
def startsSpace (c : UInt8) : Bool := isSpace c && c != 11

def isLetter (c : UInt8) : Bool := 0x61 ≤ Numeral.lower c && Numeral.lower c ≤ 0x7a

/-- The characters of words. -/
def isWordChar (c : UInt8) : Bool :=
  isLetter c || Numeral.isDigit c || c == 0x5f || c == 0x24 || 0x80 ≤ c

/-- The characters that words start with. -/
def startsWord (c : UInt8) : Bool := isLetter c || c == 0x5f || 0x80 ≤ c

def isHexDigit (c : UInt8) : Bool := (Text.hexValue? c).isSome

/-- A digit, or the mark that may stand among digits. -/
def isGrouped (isDigit : UInt8 → Bool) (c : UInt8) : Bool := isDigit c || c == 0x5f

/-- The length of a text between quotes, from after the first one; nothing if the
last one is missing. A quote inside is written twice. -/
def quotedLength? (quote : UInt8) : Text → Option Nat
  | [] => none
  | [c] => if c = quote then some 1 else none
  | c :: d :: rest =>
    if c = quote then if d = quote then (quotedLength? quote rest).map (· + 2) else some 1
    else (quotedLength? quote (d :: rest)).map (· + 1)

/-- The length of a remark that an asterisk and a slash end, or the text. -/
def remarkLength : Text → Nat
  | 0x2a :: 0x2f :: _ => 2
  | _ :: rest => remarkLength rest + 1
  | [] => 0

/-- The length of a variable's name, from after its mark, with whether it has a
character; nothing if a bracket stays open. -/
def variableLength : (fuel : Nat) → (named : Bool) → Text → Option (Nat × Bool)
  | 0, named, _ => some (0, named)
  | fuel + 1, named, t =>
    match t with
    | 0x3a :: 0x3a :: rest => (variableLength fuel named rest).map fun (n, b) => (n + 2, b)
    | c :: rest =>
      if isWordChar c then (variableLength fuel true rest).map fun (n, b) => (n + 1, b)
      else if c = 0x28 ∧ named then none
      else some (0, named)
    | [] => some (0, named)

/-- The length of an exponent, which needs a digit. -/
def exponentLength : Text → Nat
  | e :: rest =>
    if Numeral.lower e = 0x65 then
      let sign := match rest with
        | 0x2b :: _ | 0x2d :: _ => 1
        | _ => 0
      match rest.drop sign with
      | d :: more =>
        if Numeral.isDigit d then
          2 + sign + (more.takeWhile (isGrouped Numeral.isDigit)).length
        else 0
      | [] => 0
    else 0
  | [] => 0

/-- The length of a number before anything that spoils it. -/
def numberLength (t : Text) : Nat :=
  match t with
  | 0x30 :: x :: d :: rest =>
    if Numeral.lower x = 0x78 ∧ isHexDigit d then
      3 + (rest.takeWhile (isGrouped isHexDigit)).length
    else decimal t
  | _ => decimal t
where
  decimal (t : Text) : Nat :=
    let whole := (t.takeWhile (isGrouped Numeral.isDigit)).length
    let fraction := match t.drop whole with
      | 0x2e :: rest => 1 + (rest.takeWhile (isGrouped Numeral.isDigit)).length
      | _ => 0
    whole + fraction + exponentLength (t.drop (whole + fraction))

/-- The kind and the length of a number. Characters of words right after it spoil
it, and marks among its digits are for other statements. -/
def number (t : Text) : TokenKind × Nat :=
  let length := numberLength t
  let spoiled := ((t.drop length).takeWhile isWordChar).length
  if spoiled ≠ 0 then (.illegal, length + spoiled)
  else if (t.take length).contains 0x5f then (.foreign, length)
  else (.number, length)

/-- The kind and the length of a word. -/
def word (t : Text) : TokenKind × Nat :=
  let w := t.takeWhile isWordChar
  (if reservedWords.contains (Text.lower w) then .reserved else .name, w.length)

/-- The kind and the length of bytes in hexadecimal digits, from after the letter
and the quote. -/
def bytes (t : Text) : TokenKind × Nat :=
  let digits := (t.takeWhile isHexDigit).length
  let inside := (t.takeWhile (· ≠ 0x27)).length
  let length := min (inside + 1) t.length + 2
  (if digits = inside ∧ inside < t.length ∧ digits % 2 = 0 then .foreign else .illegal, length)

/-- The kind and the length of a variable, from after its mark. -/
def variableName (t : Text) : TokenKind × Nat :=
  match variableLength t.length false t with
  | some (n, named) => (if named then .foreign else .illegal, n + 1)
  | none =>
    let before := (t.takeWhile (· ≠ 0x28)).length
    let inside := ((t.drop (before + 1)).takeWhile fun c => !isSpace c && c != 0x29).length
    match t.drop (before + 1 + inside) with
    | 0x29 :: _ => (.foreign, before + inside + 3)
    | _ => (.illegal, before + inside + 2)

/-- The kind and the length of the token that a text starts with; no kind for
white space and remarks. -/
def first : Text → Option TokenKind × Nat
  | [] => (none, 0)
  | 0xef :: 0xbb :: 0xbf :: _ => (none, 3)
  | 0x2d :: 0x2d :: rest => (none, 2 + (rest.takeWhile (· ≠ 0x0a)).length)
  | 0x2f :: 0x2a :: c :: rest => (none, 2 + remarkLength (c :: rest))
  | 0x2d :: 0x3e :: 0x3e :: _ => (some .foreign, 3)
  | 0x2d :: 0x3e :: _ | 0x3c :: 0x3d :: _ | 0x3c :: 0x3e :: _ | 0x3c :: 0x3c :: _
  | 0x3e :: 0x3d :: _ | 0x3e :: 0x3e :: _ | 0x21 :: 0x3d :: _ | 0x7c :: 0x7c :: _ =>
    (some .foreign, 2)
  | 0x3d :: 0x3d :: _ => (some .equals, 2)
  | c :: rest =>
    if startsSpace c then (none, 1 + (rest.takeWhile isSpace).length)
    else if c = 0x78 ∨ c = 0x58 then
      match rest with
      | 0x27 :: digits => let (kind, length) := bytes digits; (some kind, length)
      | _ => let (kind, length) := word (c :: rest); (some kind, length)
    else if startsWord c then let (kind, length) := word (c :: rest); (some kind, length)
    else if Numeral.isDigit c ∨ (c = 0x2e ∧ (rest.head?.any Numeral.isDigit)) then
      let (kind, length) := number (c :: rest)
      (some kind, length)
    else if c = 0x27 ∨ c = 0x22 ∨ c = 0x60 then
      match quotedLength? c rest with
      | some length => (some .name, length + 1)
      | none => (some .illegal, rest.length + 1)
    else if c = 0x5b then
      let inside := (rest.takeWhile (· ≠ 0x5d)).length
      if inside < rest.length then (some .name, inside + 2) else (some .illegal, inside + 1)
    else if c = 0x3f then (some .foreign, 1 + (rest.takeWhile Numeral.isDigit).length)
    else if c = 0x24 ∨ c = 0x40 ∨ c = 0x23 ∨ c = 0x3a then
      let (kind, length) := variableName rest
      (some kind, length)
    else (some (single c), 1)
where
  /-- The kind of a token of one character. -/
  single (c : UInt8) : TokenKind :=
    if c = 0x2e then .point
    else if c = 0x3d then .equals
    else if c = 0x2b then .plus
    else if c = 0x2d then .minus
    else if c = 0x28 then .opening
    else if c = 0x29 then .closing
    else if c = 0x3b then .semicolon
    else if (utf8 "*/%<>|,&~").contains c then .foreign
    else .illegal

/-- The tokens of a text; there are at most `fuel`. -/
def scan : (fuel : Nat) → Text → List Token
  | 0, _ | _, [] => []
  | fuel + 1, t =>
    match first t with
    | (some kind, length) => ⟨kind, t.take length⟩ :: scan fuel (t.drop length)
    | (none, length) => scan fuel (t.drop length)

/-- The tokens of a text, which a NUL ends. -/
def allOf (t : Text) : List Token :=
  let t := t.takeWhile (· ≠ 0)
  scan t.length t

/-- A quoted text up to its last quote. -/
def unquoted (quote : UInt8) : Text → Text
  | [] => []
  | [c] => if c = quote then [] else [c]
  | c :: d :: rest =>
    if c = quote then if d = quote then quote :: unquoted quote rest else []
    else c :: unquoted quote (d :: rest)

/-- What a token means, without its quotes. -/
def meaning (t : Token) : Text :=
  match t.text with
  | 0x5b :: rest => unquoted 0x5d rest
  | c :: rest => if c = 0x27 ∨ c = 0x22 ∨ c = 0x60 then unquoted c rest else t.text
  | [] => []

end Token
end ScriptEngine
