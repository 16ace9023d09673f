import ScriptEngine.BlockStore.Token

/-! Statements that set up a store. Each names a setting, perhaps in one of the
store's schemas, and may give it an argument:
`pragma name`, `pragma schema.name = argument` or `pragma name(argument)`. -/
namespace ScriptEngine

/-- What is wrong with a statement. -/
inductive StatementError where
  /-- A token that cannot stand where it does. -/
  | misplaced (token : Text)
  | unrecognized (token : Text)
  | incomplete
  | unknownSchema (name : Text)
  | noTable (name : Text)
  | unknownEncoding (name : Text)
  | noDirectory
deriving DecidableEq, Repr

/-- The wording of an error in a statement. -/
def StatementError.message : StatementError → Text
  | .misplaced token => utf8 "near \"" ++ token ++ utf8 "\": syntax error"
  | .unrecognized token => utf8 "unrecognized token: \"" ++ token ++ utf8 "\""
  | .incomplete => utf8 "incomplete input"
  | .unknownSchema name => utf8 "unknown database " ++ name
  | .noTable name => utf8 "no such table: " ++ name
  | .unknownEncoding name => utf8 "unsupported encoding: " ++ name
  | .noDirectory => utf8 "not a writable directory"

/-- The argument of a setting: its token, and whether a minus sign stands before it. -/
structure Argument where
  token : Token
  negative : Bool := false
deriving DecidableEq, Repr

/-- The meaning of an argument. -/
def Argument.text (a : Argument) : Text :=
  if a.negative then 0x2d :: a.token.text else a.token.meaning

/-- A statement. -/
inductive Statement where
  | setting (schema : Option Token) (name : Text) (argument : Option Argument)
  /-- One that sets nothing up. -/
  | other
deriving DecidableEq, Repr

namespace Statement

/-- What is wrong with tokens whose first one is not wanted. -/
def unwanted : List Token → StatementError
  | [] => .incomplete
  | t :: _ => if t.kind = .illegal then .unrecognized t.text else .misplaced t.text

/-- A reader of the first tokens; gives what it read and the rest. -/
abbrev Reader (α : Type) := List Token → Except StatementError (α × List Token)

/-- Reads a token of a kind. -/
def expect (kind : TokenKind) : Reader Token
  | t :: rest => if t.kind = kind then .ok (t, rest) else .error (unwanted (t :: rest))
  | [] => .error .incomplete

/-- Reads the end of a statement, where the text may end too. -/
def finish : Reader Unit
  | [] => .ok ((), [])
  | ts => do return ((), (← expect .semicolon ts).2)

/-- The reserved words that can be arguments. -/
def argumentWords : List Text := ["on", "delete", "default"].map utf8

/-- Reads an argument: a number with or without a sign, a name or a certain word. -/
def argument : Reader Argument
  | t :: rest =>
    if t.kind = .plus then do
      let (n, rest) ← expect .number rest
      return (⟨n, false⟩, rest)
    else if t.kind = .minus then do
      let (n, rest) ← expect .number rest
      return (⟨n, true⟩, rest)
    else if t.kind = .number ∨ t.kind = .name ∨
        (t.kind = .reserved ∧ argumentWords.contains (Text.lower t.text)) then
      .ok (⟨t, false⟩, rest)
    else .error (unwanted (t :: rest))
  | [] => .error .incomplete

/-- Reads the name of a setting, after its schema if it has one. -/
def settingName : Reader (Option Token × Text)
  | ts => do
    let (first, rest) ← expect .name ts
    match rest with
    | ⟨.point, _⟩ :: rest => do
      let (second, rest) ← expect .name rest
      return ((some first, second.meaning), rest)
    | _ => return ((none, first.meaning), rest)

/-- Reads what follows the word that settings start with. -/
def afterKeyword : Reader Statement
  | ts => do
    let ((schema, name), rest) ← settingName ts
    match rest with
    | ⟨.equals, _⟩ :: rest => do
      let (value, rest) ← argument rest
      let ((), rest) ← finish rest
      return (.setting schema name (some value), rest)
    | ⟨.opening, _⟩ :: rest => do
      let (value, rest) ← argument rest
      let (_, rest) ← expect .closing rest
      let ((), rest) ← finish rest
      return (.setting schema name (some value), rest)
    | _ => do
      let ((), rest) ← finish rest
      return (.setting schema name none, rest)

/-- The words that other statements start with. -/
def otherWords : List Text := [
  "alter", "analyze", "attach", "begin", "commit", "create", "delete", "detach", "drop", "end",
  "explain", "insert", "reindex", "release", "replace", "rollback", "savepoint", "select",
  "update", "vacuum", "values", "with"].map utf8

/-- Reads a statement. The end of a statement alone is one that does nothing. -/
def next : Reader Statement
  | t :: rest =>
    if t.kind = .semicolon then .ok (.other, rest)
    else if Text.lower t.text = utf8 "pragma" then afterKeyword rest
    else if otherWords.contains (Text.lower t.text) then
      .ok (.other, (rest.dropWhile (·.kind ≠ .semicolon)).drop 1)
    else .error (unwanted (t :: rest))
  | [] => .ok (.other, [])

end Statement
end ScriptEngine
