import ScriptEngine.Table
import ScriptEngine.Toml.Number
import Std.Data.HashSet

/-! Configuration documents as they are built up, and the rules on what may be
defined twice. -/
namespace ScriptEngine.Toml

/-- A value of a configuration. -/
inductive Value where
  | string (t : Text)
  | boolean (b : Bool)
  | scalar (s : Scalar)
  | array (items : List Value)
  | table (entries : List (Text × Value))
  /-- Tables under one name, of which the last is being filled. -/
  | tables (all : List (List (Text × Value)))
deriving Inhabited, Repr

abbrev Entries := List (Text × Value)

/-- The names from the top of a document down to a value. -/
abbrev KeyPath := List Text

/-- A document. A table is implicit if it came about by being named on the way
to something else; it may be defined once more. `arrays` are the places whose
last value was an array. -/
structure Document where
  root : Entries := []
  implicit : Std.HashSet KeyPath := {}
  arrays : Std.HashSet KeyPath := {}

/-- Changes the table at the end of a path. -/
def modifyAt (f : Entries → Entries) : KeyPath → Entries → Option Entries
  | [], entries => some (f entries)
  | key :: path, entries => do
    match ← Table.findIn key entries with
    | .table sub =>
      let changed ← modifyAt f path sub
      return Table.insertIn key (.table changed) entries
    | .tables all =>
      let changed ← modifyAt f path (← all.getLast?)
      return Table.insertIn key (.tables (all.dropLast ++ [changed])) entries
    | _ => none

/-- The table at the end of a path. -/
def tableAt? : KeyPath → Entries → Option Entries
  | [], entries => some entries
  | key :: path, entries => do
    match ← Table.findIn key entries with
    | .table sub => tableAt? path sub
    | .tables all => tableAt? path (← all.getLast?)
    | _ => none

/-- Makes the tables on a path below a table, where they are missing; gives the
paths of those made. `back` are the names from the table up to the top. -/
def ensureIn : (back path : KeyPath) → Entries → Option (Entries × List KeyPath)
  | _, [], entries => some (entries, [])
  | back, key :: path, entries => do
    match Table.findIn key entries with
    | none =>
      let (sub, made) ← ensureIn (key :: back) path []
      return (Table.insertIn key (.table sub) entries, (key :: back).reverse :: made)
    | some (.table sub) =>
      let (sub, made) ← ensureIn (key :: back) path sub
      return (Table.insertIn key (.table sub) entries, made)
    | some (.tables all) =>
      let (sub, made) ← ensureIn (key :: back) path (← all.getLast?)
      return (Table.insertIn key (.tables (all.dropLast ++ [sub])) entries, made)
    | some _ => none

namespace Document

def markImplicit (d : Document) (path : KeyPath) : Document :=
  { d with implicit := d.implicit.insert path }

def unmarkImplicit (d : Document) (path : KeyPath) : Document :=
  { d with implicit := d.implicit.erase path }

/-- Puts a value under a key, whatever is there. -/
def put (d : Document) (context : KeyPath) (key : Text) (v : Value) : Option Document := do
  let root ← modifyAt (Table.insertIn key v) context d.root
  return { d with root }

/-- Defines a key. What is defined already may be defined once more if it is
implicit: an array then takes the place of the tables in it, and a table stays
as it is. -/
def define (d : Document) (context : KeyPath) (key : Text) (v : Value) : Option Document := do
  let path := context ++ [key]
  match Table.findIn key (← tableAt? context d.root) with
  | none => d.put context key v
  | some _ =>
    if !d.implicit.contains path then none
    else if d.arrays.contains path then (d.unmarkImplicit path).put context key v
    else return d.unmarkImplicit path

/-- Makes the tables on a path, each implicit, below what is there already. -/
def ensure (d : Document) (path : KeyPath) : Option Document := do
  let (root, made) ← ensureIn [] path d.root
  return { d with root, implicit := d.implicit.insertMany made }

/-- Begins the table at a path, or one more of the tables there. -/
def openTable (d : Document) (path : KeyPath) (oneMore : Bool) : Option Document := do
  let key ← path.getLast?
  let parents := path.dropLast
  let d ← d.ensure parents
  if oneMore then
    match Table.findIn key (← tableAt? parents d.root) with
    | none => d.put parents key (.tables [[]])
    | some (.tables all) => d.put parents key (.tables (all ++ [[]]))
    | some _ => none
  else d.define parents key (.table [])

/-- Notes whether the value last defined under a key is an array. The empty key
counts for its table. -/
def noteKind (d : Document) (context : KeyPath) (key : Text) (isArray : Bool) : Document :=
  let path := if key ≠ [] ∨ context = [] then context ++ [key] else context
  { d with arrays := if isArray then d.arrays.insert path else d.arrays.erase path }

/-- Opens the implicit tables that a dotted key goes through. -/
def openParents (d : Document) (context : KeyPath) : KeyPath → Option Document
  | [] => some d
  | key :: rest => do
    let path := context ++ [key]
    let d ← (d.markImplicit path).openTable path false
    openParents d path rest

end Document
end ScriptEngine.Toml
