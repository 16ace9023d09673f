import ScriptEngine.Text

/-! Tables keyed by names. -/
namespace ScriptEngine

/-- Entries with their names, each name once. -/
structure Table (α : Type) where
  entries : List (Text × α) := []
deriving DecidableEq, Repr, Inhabited

namespace Table

variable {α : Type}

def empty : Table α := {}

/-- The entry of a name in a list of entries. -/
def findIn (name : Text) : List (Text × α) → Option α
  | [] => none
  | (key, a) :: rest => if key = name then some a else findIn name rest

/-- The entry of a name. -/
def find? (t : Table α) (name : Text) : Option α := findIn name t.entries

/-- Replaces the entry of a name, or adds it at the end. -/
def insertIn (name : Text) (a : α) : List (Text × α) → List (Text × α)
  | [] => [(name, a)]
  | (key, b) :: rest => if key = name then (key, a) :: rest else (key, b) :: insertIn name a rest

/-- Gives a name an entry, in place of any it had. -/
def insert (t : Table α) (name : Text) (a : α) : Table α := ⟨insertIn name a t.entries⟩

/-- The names in byte-wise order. -/
def names (t : Table α) : List Text := Text.sorted (t.entries.map Prod.fst)

theorem findIn_insertIn_self (name : Text) (a : α) (es : List (Text × α)) :
    findIn name (insertIn name a es) = some a := by
  induction es with
  | nil => simp [insertIn, findIn]
  | cons e rest ih => by_cases h : e.1 = name <;> simp [insertIn, findIn, h, ih]

theorem findIn_insertIn_of_ne {name other : Text} (a : α) (ne : other ≠ name)
    (es : List (Text × α)) : findIn other (insertIn name a es) = findIn other es := by
  induction es with
  | nil => simp [insertIn, findIn, ne.symm]
  | cons e rest ih =>
    by_cases h : e.1 = name
    · simp [insertIn, findIn, h, ne.symm]
    · by_cases k : e.1 = other <;> simp_all [insertIn, findIn]

@[simp]
theorem find?_insert_self (t : Table α) (name : Text) (a : α) :
    (t.insert name a).find? name = some a := findIn_insertIn_self name a t.entries

theorem find?_insert_of_ne (t : Table α) {name other : Text} (a : α) (ne : other ≠ name) :
    (t.insert name a).find? other = t.find? other := findIn_insertIn_of_ne a ne t.entries

end Table
end ScriptEngine
