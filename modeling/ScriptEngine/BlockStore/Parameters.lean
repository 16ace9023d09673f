import ScriptEngine.Text.Quoted

/-! Where a block store is kept. Parameters may follow the path of its file after
a question mark, written as in web addresses. -/
namespace ScriptEngine

/-- The path of a store: its file, which the system takes up to a NUL, and its
parameters as they are written. -/
structure StorePath where
  file : Text
  parameters : Text
deriving DecidableEq, Repr

/-- Takes a path apart. A question mark at its start is part of the name. -/
def StorePath.ofText : Text → StorePath
  | [] => ⟨[], []⟩
  | c :: rest =>
    ⟨(c :: rest.takeWhile (· ≠ 0x3f)).takeWhile (· ≠ 0), (rest.dropWhile (· ≠ 0x3f)).drop 1⟩

/-- Why parameters cannot be read. -/
inductive ParameterError where
  | tooMany
  | semicolon
  /-- A percent sign without two hexadecimal digits; gives what is there. -/
  | escape (text : Text)
deriving DecidableEq, Repr

/-- The wording of an error in parameters. -/
def ParameterError.message : ParameterError → Text
  | .tooMany => utf8 "number of URL query parameters exceeded limit"
  | .semicolon => utf8 "invalid semicolon separator in query"
  | .escape text => utf8 "invalid URL escape " ++ text.quoted

/-- A parameter. -/
structure Parameter where
  name : Text
  value : Text
deriving DecidableEq, Repr

namespace Parameter

/-- A text with its escapes undone: a plus sign stands for a blank, and a percent
sign with two hexadecimal digits for a byte. -/
def unescaped : Text → Except ParameterError Text
  | 0x25 :: a :: b :: rest =>
    match Text.hexValue? a, Text.hexValue? b with
    | some high, some low => (unescaped rest).map ((high <<< 4 ||| low) :: ·)
    | _, _ => .error (.escape [0x25, a, b])
  | 0x25 :: rest => .error (.escape (0x25 :: rest))
  | 0x2b :: rest => (unescaped rest).map (0x20 :: ·)
  | c :: rest => (unescaped rest).map (c :: ·)
  | [] => .ok []

/-- Reads a parameter: a name and, after an equals sign, a value. -/
def ofText (t : Text) : Except ParameterError Parameter := do
  let name ← unescaped (t.takeWhile (· ≠ 0x3d))
  let value ← unescaped ((t.dropWhile (· ≠ 0x3d)).drop 1)
  return ⟨name, value⟩

/-- The most parameters, counted by the marks between them. -/
def maxCount : Nat := 10000

/-- Reads parameters with ampersands between them; empty ones are left out. A
semicolon counts more than any escape, and the first escape more than others. -/
def allOf (t : Text) : Except ParameterError (List Parameter) :=
  if maxCount ≤ t.count 0x26 then .error .tooMany
  else if t.contains 0x3b then .error .semicolon
  else ((Text.split 0x26 t).filter (· ≠ [])).mapM ofText

/-- The values that a name is given, in their order. -/
def values (ps : List Parameter) (name : String) : List Text :=
  (ps.filter (·.name = utf8 name)).map (·.value)

/-- The first value that a name is given, or nothing. -/
def firstValue (ps : List Parameter) (name : String) : Text := (values ps name).headD []

end Parameter
end ScriptEngine
