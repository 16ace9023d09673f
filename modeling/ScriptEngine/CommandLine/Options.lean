import ScriptEngine.Numeral.Integer
import ScriptEngine.Text.Quoted

/-! Options on the command line. An option starts with one or two dashes; its
value follows an equals sign or is the next argument. -/
namespace ScriptEngine.CommandLine

/-- What the options choose. -/
structure Options where
  /-- The directory where the search for settings starts. -/
  config : Text := utf8 "."
  /-- The log verbosity; if negative, the settings decide. -/
  verbosity : Int64 := -1
  noCache : Bool := false
deriving DecidableEq, Repr

/-- What is wrong with an option. -/
inductive OptionError where
  | badForm (argument : Text)
  | unknown (name : Text)
  | noValue (name : Text)
  | badNumber (name value : Text)
  | numberTooLarge (name value : Text)
  | badSwitch (name value : Text)
deriving DecidableEq, Repr

/-- The wording of an option error. -/
def OptionError.message : OptionError → Text
  | .badForm argument => utf8 "bad flag syntax: " ++ argument
  | .unknown name => utf8 "flag provided but not defined: -" ++ name
  | .noValue name => utf8 "flag needs an argument: -" ++ name
  | .badNumber name value =>
    utf8 "invalid value " ++ value.quoted ++ utf8 " for flag -" ++ name ++ utf8 ": parse error"
  | .numberTooLarge name value =>
    utf8 "invalid value " ++ value.quoted ++ utf8 " for flag -" ++ name ++
      utf8 ": value out of range"
  | .badSwitch name value =>
    utf8 "invalid boolean value " ++ value.quoted ++ utf8 " for -" ++ name ++ utf8 ": parse error"

/-- What comes of the options: those chosen and the other arguments, a call for
help, or an error. -/
inductive Parsed where
  | ok (options : Options) (rest : List Text)
  | help
  | wrong (error : OptionError)
deriving DecidableEq, Repr

/-- A switch in words. -/
def switch? (t : Text) : Option Bool :=
  if (["1", "t", "T", "TRUE", "true", "True"].map utf8).contains t then some true
  else if (["0", "f", "F", "FALSE", "false", "False"].map utf8).contains t then some false
  else none

/-- Whether the leading digits of a literal are more than 64 bits can hold. -/
def overflows (base : Nat) : (value : Nat) → Text → Bool
  | _, [] => false
  | value, c :: rest =>
    if c = 0x5f then overflows base value rest
    else
      match Numeral.digitValue? c with
      | some d =>
        d < base && (UInt64.size ≤ value * base + d || overflows base (value * base + d) rest)
      | none => false

/-- A number. A literal that is too large is reported as such from the digit on
that makes it so, whatever follows. -/
def number (name t : Text) : Except OptionError Int64 :=
  let (base, digits) := Numeral.splitBase (Numeral.unsigned t)
  if overflows base 0 digits then .error (.numberTooLarge name t)
  else
    match Numeral.int64? t, Numeral.integer? t with
    | some n, _ => .ok n
    | none, some _ => .error (.numberTooLarge name t)
    | none, none => .error (.badNumber name t)

/-- An argument that is an option: its name, and its value if it has one. -/
inductive Argument where
  | plain
  | lastOption
  | bad
  | named (name : Text) (value : Option Text)
deriving DecidableEq, Repr

/-- An option without its dashes. The name has at least one character. -/
def Argument.ofBody : Text → Argument
  | [] => .bad
  | c :: rest =>
    if c = 0x2d ∨ c = 0x3d then .bad
    else
      let name := c :: rest.takeWhile (· ≠ 0x3d)
      match rest.dropWhile (· ≠ 0x3d) with
      | [] => .named name none
      | _ :: value => .named name (some value)

/-- What an argument is. A dash alone is no option; two end the options. -/
def Argument.ofText : Text → Argument
  | [0x2d, 0x2d] => .lastOption
  | 0x2d :: 0x2d :: body => .ofBody body
  | 0x2d :: c :: body => .ofBody (c :: body)
  | _ => .plain

/-- Sets an option that takes a value. -/
def Options.set (o : Options) (name value : Text) : Except OptionError Options :=
  if name = utf8 "config" then .ok { o with config := value }
  else do return { o with verbosity := ← number name value }

/-- Reads the options at the front of the arguments. -/
def Options.parse (o : Options) : List Text → Parsed
  | [] => .ok o []
  | argument :: rest =>
    match Argument.ofText argument with
    | .plain => .ok o (argument :: rest)
    | .lastOption => .ok o rest
    | .bad => .wrong (.badForm argument)
    | .named name value =>
      if name = utf8 "no-cache" then
        match value with
        | none => parse { o with noCache := true } rest
        | some value =>
          match switch? value with
          | some noCache => parse { o with noCache } rest
          | none => .wrong (.badSwitch name value)
      else if name = utf8 "config" ∨ name = utf8 "v" then
        match value with
        | some value =>
          match o.set name value with
          | .ok o => parse o rest
          | .error e => .wrong e
        | none =>
          match rest with
          | [] => .wrong (.noValue name)
          | value :: rest =>
            match o.set name value with
            | .ok o => parse o rest
            | .error e => .wrong e
      else if name = utf8 "help" ∨ name = utf8 "h" then .help
      else .wrong (.unknown name)

/-- The help text. -/
def usage : Text := utf8 "Usage: kiri [options] <command> [args...]

Commands:
  run [FILE.kbc]        Execute a code block (default: [run] entry)
  dis FILE.kbc|HASH     Disassemble a code block
  cache put FILE.kbc    Store a code block, print its hash
  cache get HASH OUT    Write a cached code block to OUT
  cache list            List cached code blocks
  cache rm HASH         Remove a cached code block

Options:
  -config string
    \tDirectory to search (upwards) for kiri.toml (default \".\")
  -no-cache
    \tBypass the bytecode cache
  -v int
    \tLog verbosity (overrides [log] verbosity) (default -1)
"

end ScriptEngine.CommandLine
