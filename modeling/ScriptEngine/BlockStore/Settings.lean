import ScriptEngine.BlockStore
import ScriptEngine.BlockStore.Parameters
import ScriptEngine.BlockStore.Statement
import ScriptEngine.Text.Blank

/-! The file of a store, and the settings under which it is used. -/
namespace ScriptEngine

/-- What the file of a store holds. -/
inductive StoreContent where
  /-- Nothing yet. -/
  | blank
  /-- Something else than a store. -/
  | foreign
  | blocks (store : BlockStore)
deriving DecidableEq, Repr

/-- The content of a file; at most one byte is nothing. -/
def StoreContent.ofFile (content : Text) : StoreContent :=
  if content.length ≤ 1 then .blank
  else
    match BlockStore.ofFile? content with
    | some store => .blocks store
    | none => .foreign

/-- The file of a store. -/
structure StoreFile where
  content : StoreContent := .blank
  /-- Whether there can be a journal, a second file, beside it. -/
  hasJournal : Bool := true
deriving DecidableEq, Repr

/-- Why a store cannot be used. -/
inductive StoreTrouble where
  | parameters (error : ParameterError)
  /-- Several ways to reach the file. -/
  | conflictingAccess (names : List Text)
  | unknownAccess
  | unopenable
  | statement (error : StatementError)
  /-- A parameter without that value, and what else there is to say. -/
  | unknownValue (name : String) (value : Text) (remark : Text)
  | notStore
  | readOnly
  | noJournal
  | full
deriving DecidableEq, Repr

/-- The wording of a trouble with a store. -/
def StoreTrouble.message : StoreTrouble → Text
  | .parameters error => error.message
  | .conflictingAccess names =>
    utf8 "conflicting vfs query parameters: [" ++ Text.joined (utf8 " ") names ++ utf8 "]"
  | .unknownAccess => utf8 "SQL logic error: out of memory (1)"
  | .unopenable => utf8 "unable to open database file: out of memory (14)"
  | .statement error => utf8 "SQL logic error: " ++ error.message ++ utf8 " (1)"
  | .unknownValue name value remark =>
    utf8 "unknown " ++ utf8 name ++ utf8 " " ++ value.quoted ++ remark
  | .notStore => utf8 "file is not a database (26)"
  | .readOnly => utf8 "attempt to write a readonly database (8)"
  | .noJournal => utf8 "unable to open database file (14)"
  | .full => utf8 "database or disk is full (13)"

/-- The settings of an open store. -/
structure Settings where
  readOnly : Bool := false
  /-- Whether changes need a journal. -/
  journaled : Bool := true
  /-- The most pages that the file may have. -/
  maxPages : Nat := 0xfffffffe
  /-- Whether one page more says where the others belong. -/
  mapped : Bool := false
  /-- Whether the encoding of texts is known from the tables in the file. -/
  encodingFixed : Bool := false
deriving DecidableEq, Repr

namespace Settings

/-- The value of a number without sign that fits 31 bits; what follows its digits
does not count. -/
def small? (t : Text) : Option Nat :=
  match t with
  | 0x30 :: x :: d :: rest =>
    if Numeral.lower x = 0x78 ∧ Token.isHexDigit d then
      bounded (numeral 16 ((d :: rest).takeWhile Token.isHexDigit))
    else decimal t
  | _ => decimal t
where
  numeral (base : Nat) (digits : Text) : Nat :=
    digits.foldl (fun n c => n * base + ((Text.hexValue? c).getD 0).toNat) 0
  bounded (n : Nat) : Option Nat := if n < 1 <<< 31 then some n else none
  decimal (t : Text) : Option Nat :=
    match t.takeWhile Numeral.isDigit with
    | [] => none
    | digits => bounded (numeral 10 digits)

/-- Whether an argument says yes. A number does unless its last eight bits are
zero. -/
def saysYes (t : Text) : Bool :=
  if t.head?.any Numeral.isDigit then (small? t).getD 0 % 256 != 0
  else (["on", "yes", "true"].map utf8).contains (Text.lower t)

/-- The value of an argument that is a whole number and nothing else, or zero. -/
def pageCount (t : Text) : Nat :=
  let t := (t.dropWhile Token.isSpace).reverse.dropWhile Token.isSpace |>.reverse
  match t with
  | 0x30 :: x :: d :: rest =>
    if Numeral.lower x = 0x78 ∧ (d :: rest).all Token.isHexDigit then
      limited (small?.numeral 16 (d :: rest))
    else decimal t
  | 0x2b :: rest => decimal rest
  | _ => decimal t
where
  limited (n : Nat) : Nat := if n < 1 <<< 63 then min n 0xfffffffe else 0
  decimal (t : Text) : Nat := if t.all Numeral.isDigit then limited (small?.numeral 10 t) else 0

/-- The settings that need to know the tables in the file. -/
def tableNames : List Text := [
  "auto_vacuum", "cache_size", "default_cache_size", "foreign_key_check", "foreign_key_list",
  "incremental_vacuum", "index_info", "index_list", "index_xinfo", "integrity_check",
  "journal_mode", "max_page_count", "optimize", "page_count", "quick_check", "synchronous",
  "table_info", "table_list", "table_xinfo", "wal_checkpoint"].map utf8

/-- The settings that look only at the first bytes of the file. -/
def headerNames : List Text := [
  "application_id", "data_version", "freelist_count", "schema_version", "user_version"].map utf8

/-- The settings that are kept in the file. -/
def keptNames : List Text :=
  ["application_id", "default_cache_size", "schema_version", "user_version"].map utf8

/-- The ways to keep a journal, and whether it is a file beside the store. -/
def journalModes : List (Text × Bool) := [
  ("delete", true), ("persist", true), ("off", false), ("truncate", true), ("memory", false),
  ("wal", true)].map fun (name, isFile) => (utf8 name, isFile)

/-- The encodings of texts. -/
def encodings : List Text := [
  "utf8", "utf-8", "utf-16le", "utf-16be", "utf16le", "utf16be", "utf-16", "utf16"].map utf8

/-- The tables that every store has. -/
def systemTables : List Text := [
  "sqlite_master", "sqlite_schema", "sqlite_temp_master", "sqlite_temp_schema"].map utf8

/-- Why a store cannot be changed. -/
def refusal? (f : StoreFile) (s : Settings) : Option StoreTrouble :=
  if s.readOnly then some .readOnly
  else if s.journaled && !f.hasJournal then some .noJournal
  else none

/-- Whether a store has a table. -/
def hasTable (f : StoreFile) (name : Text) : Bool :=
  systemTables.contains (Text.lower name) ||
    match f.content with
    | .blocks _ => Text.lower name = utf8 "blocks"
    | _ => false

/-- The error for a table that is not there. -/
def missingTable (schema : Option Token) (name : Text) : StoreTrouble :=
  .statement <| .noTable <| match schema with
    | some token => Text.lower token.meaning ++ utf8 "." ++ name
    | none => name

/-- Settles how the journal is kept. An argument may leave out the end of a
name; one that fits no name changes nothing. -/
def setJournal (f : StoreFile) (s : Settings) (argument : Text) : Except StoreTrouble Settings :=
  match journalModes.find? ((Text.lower argument).isPrefixOf ·.1) with
  | some (mode, isFile) =>
    if mode = utf8 "wal" ∧ !f.hasJournal then .error .noJournal
    else .ok { s with journaled := isFile }
  | none => .ok s

/-- The number of a way to reuse pages. -/
def vacuumMode (t : Text) : Nat :=
  if Text.lower t = utf8 "full" then 1
  else if Text.lower t = utf8 "incremental" then 2
  else
    let n := (small? t).getD 0
    if n ≤ 2 then n else 0

/-- The settings after a look into the file, if one needs it. -/
def look (f : StoreFile) (s : Settings) (name : Text) : Except StoreTrouble Settings :=
  let needsTables := tableNames.contains name || name == utf8 "encoding"
  if needsTables || headerNames.contains name then
    match f.content with
    | .foreign => .error .notStore
    | .blocks _ => .ok { s with encodingFixed := s.encodingFixed || needsTables }
    | .blank => .ok s
  else .ok s

/-- Checks that the store can be changed. -/
def change (f : StoreFile) (s : Settings) : Except StoreTrouble Settings :=
  match refusal? f s with
  | some trouble => .error trouble
  | none => .ok s

/-- The settings after one with an argument. -/
def give (f : StoreFile) (s : Settings) (schema : Option Token) (name : Text) (a : Argument) :
    Except StoreTrouble Settings := do
  let t := a.text
  if name = utf8 "query_only" then return { s with readOnly := saysYes t }
  else if name = utf8 "encoding" then
    if s.encodingFixed || encodings.contains (Text.lower t) then return s
    else throw (.statement (.unknownEncoding t))
  else if name = utf8 "temp_store_directory" then
    if t = [] then return s else throw (.statement .noDirectory)
  else
    let s ← look f s name
    if keptNames.contains name then change f s
    else if name = utf8 "journal_mode" then setJournal f s t
    else if name = utf8 "max_page_count" then
      let n := pageCount t
      return if n = 0 then s else { s with maxPages := n }
    else if name = utf8 "auto_vacuum" then
      if f.content = .blank ∧ vacuumMode t ≠ 0 then
        return { (← change f s) with mapped := true }
      else return s
    else if name = utf8 "foreign_key_check" then
      if hasTable f t then return s else throw (missingTable schema t)
    else if name = utf8 "integrity_check" ∨ name = utf8 "quick_check" then
      if (small? a.token.text).isSome ∨ hasTable f t then return s
      else throw (missingTable schema t)
    else return s

/-- The settings after a statement. A setting that does not exist changes nothing. -/
def apply (f : StoreFile) (s : Settings) : Statement → Except StoreTrouble Settings
  | .other => .ok s
  | .setting schema name argument => do
    if let some token := schema then
      if !(["main", "temp"].map utf8).contains (Text.lower token.meaning) then
        throw (.statement (.unknownSchema token.text))
    let name := Text.lower name
    if name = utf8 "incremental_vacuum" then change f (← look f s name)
    else
      match argument with
      | some a => give f s schema name a
      | none => look f s name

/-- The settings after the statements that tokens make up; there are at most
`fuel`. -/
def applyAll (f : StoreFile) : (fuel : Nat) → Settings → List Token → Except StoreTrouble Settings
  | 0, s, _ | _, s, [] => .ok s
  | fuel + 1, s, ts =>
    match Statement.next ts with
    | .error e => .error (.statement e)
    | .ok (statement, rest) => do applyAll f fuel (← apply f s statement) rest

/-- The settings after a text with statements. -/
def run (f : StoreFile) (s : Settings) (t : Text) : Except StoreTrouble Settings :=
  let ts := Token.allOf t
  applyAll f ts.length s ts

/-- The pages of a new store. -/
def newPages (s : Settings) : Nat := if s.mapped then 4 else 3

/-- The store in a file, made if there is none yet. -/
def begin (f : StoreFile) (s : Settings) : Except StoreTrouble BlockStore :=
  match f.content with
  | .foreign => .error .notStore
  | .blocks store => .ok store
  | .blank =>
    match refusal? f s with
    | some trouble => .error trouble
    | none => if s.maxPages < newPages s then .error .full else .ok {}

end Settings
end ScriptEngine
