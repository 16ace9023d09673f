import ScriptEngine.Instruction
import ScriptEngine.Value

/-! Code blocks: the compiled units that the engine runs. -/
namespace ScriptEngine

/-- The identity of a block. -/
abbrev BlockId := Vector UInt8 16

namespace BlockId

/-- The identity of sixteen zero bytes. -/
def zero : BlockId := Vector.replicate 16 0

/-- The first sixteen of some bytes, with zeros where they run out. -/
def ofBytes (t : Text) : BlockId := Vector.ofFn fun i => t.getD i.val 0

/-- Hexadecimal digits in groups of four, two, two, two and six bytes. -/
def text (id : BlockId) : Text :=
  let bytes := id.toList
  let group (start count : Nat) : Text := Text.hex ((bytes.drop start).take count)
  Text.joined (utf8 "-") [group 0 4, group 4 2, group 6 2, group 8 2, group 10 6]

end BlockId

/-- A code offset and the source position that it and the following offsets
come from. -/
structure SourceLoc where
  offset : Int64
  line : Int64
  column : Int64
deriving DecidableEq, Repr

/-- What a block holds besides its nested blocks. Code and shared sizes may be
absent, which running treats like empty and the encoded form does not. -/
structure BlockData where
  id : BlockId := .zero
  name : Text := []
  source : Text := []
  code? : Option (Array UInt32) := none
  consts : List Value := []
  registers : Int64 := 0
  nestLevel : Int64 := 0
  sharedSizes? : Option (List Int64) := none
  sourceMap : List SourceLoc := []
deriving DecidableEq, Repr

/-- A block: its own data, and nested blocks for the closures that it makes.
A place for a nested block may be vacant. -/
structure CodeBlock extends BlockData where
  blocks : List (Option CodeBlock) := []
deriving Inhabited

namespace BlockData

def code (b : BlockData) : Array UInt32 := b.code?.getD #[]

def sharedSizes (b : BlockData) : List Int64 := b.sharedSizes?.getD []

/-- The name shown for a block. -/
def title (b : BlockData) : Text := if b.name = [] then utf8 "(anonymous)" else b.name

/-- Halves `[low, high)` until it is empty: the first place whose offset is
beyond `offset`, when the map is sorted. -/
def firstBeyond (map : List SourceLoc) (offset : Int) : (fuel low high : Nat) → Nat
  | 0, low, _ => low
  | fuel + 1, low, high =>
    if low < high then
      let middle := (low + high) / 2
      match map[middle]? with
      | some loc =>
        if loc.offset.toInt > offset then firstBeyond map offset fuel low middle
        else firstBeyond map offset fuel (middle + 1) high
      | none => low
    else low

/-- Line and column of a code offset; zeros when no entry covers it. -/
def position (b : BlockData) (offset : Int) : Int64 × Int64 :=
  let count := b.sourceMap.length
  match firstBeyond b.sourceMap offset (count + 1) 0 count with
  | 0 => (0, 0)
  | i + 1 =>
    match b.sourceMap[i]? with
    | some loc => (loc.line, loc.column)
    | none => (0, 0)

end BlockData
end ScriptEngine
