import ScriptEngine.Value

/-! Shared frames: storage for the variables that closures capture.

A frame is addressed by a handle that names a slot of the arena and the
occupant of that slot it means. Frames count the references to them; when the
last one is dropped the slot is free for a new occupant, and handles of the
old one are stale. -/
namespace ScriptEngine

/-- Addresses an occupant of an arena slot. -/
structure FrameHandle where
  index : UInt32
  gen : UInt32
deriving DecidableEq, Repr, Inhabited

/-- The text of a handle. -/
def FrameHandle.text (h : FrameHandle) : Text :=
  utf8 "frame#" ++ Text.ofNat h.index.toNat ++ utf8 "." ++ Text.ofNat h.gen.toNat

/-- The shared frames that code sees, outermost first. -/
abbrev Chain := List FrameHandle

/-- A slot of the arena with its present or last occupant. -/
structure SharedFrame where
  slots : Array Value := #[]
  gen : UInt32 := 0
  refs : Int32 := 0
  live : Bool := false
deriving DecidableEq, Repr, Inhabited

/-- All shared frames of an engine; freed slots are reused last in, first out.
A capacity of zero or less means no limit on live frames. -/
structure Arena where
  frames : Array SharedFrame := #[]
  free : List UInt32 := []
  live : Int := 0
  capacity : Int := 0
deriving DecidableEq, Repr, Inhabited

/-- Why an arena operation failed. -/
inductive ArenaError where
  | stale
  | full
  | slotRange (handle : FrameHandle) (slot : Int) (size : Nat)
deriving DecidableEq, Repr

/-- The wording of an arena error. -/
def ArenaError.message : ArenaError → Text
  | .stale => utf8 "stale shared frame handle"
  | .full => utf8 "shared frame arena is full"
  | .slotRange handle slot size =>
    handle.text ++ utf8 ": slot " ++ Text.ofInt slot ++ utf8 " out of range (size " ++
      Text.ofNat size ++ utf8 ")"

/-- Whether there can be so many values in a row. -/
def isRoomFor (size : Int) : Bool := 0 ≤ size && size ≤ (1 <<< 42 : Nat)

/-- What became of a request for a frame. That there is no room is noticed only
once the slot is taken, which leaves a frame without slots that is not counted. -/
inductive Allocation where
  | full
  | made (arena : Arena) (handle : FrameHandle)
  | broken (arena : Arena)

/-- What dropping a reference did. -/
inductive Release where
  | kept
  | freed
  | stale
deriving DecidableEq, Repr

namespace Arena

/-- The live frame that a handle addresses. -/
def frame? (a : Arena) (h : FrameHandle) : Option SharedFrame :=
  match a.frames[h.index.toNat]? with
  | some f => if f.live ∧ f.gen = h.gen then some f else none
  | none => none

/-- Replaces the frame in the slot of a handle. -/
def setFrame (a : Arena) (h : FrameHandle) (f : SharedFrame) : Arena :=
  { a with frames := a.frames.setIfInBounds h.index.toNat f }

/-- Takes a slot: the one freed last, or a new one. -/
def takeSlot (a : Arena) : Arena × UInt32 :=
  match a.free with
  | index :: rest => ({ a with free := rest }, index)
  | [] =>
    let index := a.frames.size.toUInt32
    ({ a with frames := a.frames.push {} }, index)

/-- Whether another frame would exceed the capacity. -/
def isFull (a : Arena) : Bool := 0 < a.capacity && a.capacity ≤ a.live

/-- Makes a frame of `size` void slots with one reference. -/
def alloc (a : Arena) (size : Int) : Allocation :=
  if a.isFull then .full
  else
    let (b, index) := a.takeSlot
    let old := (b.frames[index.toNat]?).getD {}
    let taken : SharedFrame := { old with gen := old.gen + 1, refs := 1, live := true }
    let handle : FrameHandle := ⟨index, taken.gen⟩
    if !isRoomFor size then .broken (b.setFrame handle taken)
    else
      let frame := { taken with slots := Array.replicate size.toNat .void }
      .made { b.setFrame handle frame with live := b.live + 1 } handle

/-- Adds a reference. -/
def retain? (a : Arena) (h : FrameHandle) : Option Arena :=
  (a.frame? h).map fun f => a.setFrame h { f with refs := f.refs + 1 }

/-- Drops a reference; the last one frees the frame. -/
def release (a : Arena) (h : FrameHandle) : Arena × Release :=
  match a.frame? h with
  | none => (a, .stale)
  | some f =>
    let refs := f.refs - 1
    if 0 < refs then (a.setFrame h { f with refs }, .kept)
    else
      let b := a.setFrame h { f with refs, live := false, slots := #[] }
      ({ b with free := h.index :: b.free, live := b.live - 1 }, .freed)

/-- Reads a slot. -/
def load (a : Arena) (h : FrameHandle) (slot : Int) : Except ArenaError Value :=
  match a.frame? h with
  | none => .error .stale
  | some f =>
    if slot < 0 then .error (.slotRange h slot f.slots.size)
    else
      match f.slots[slot.toNat]? with
      | some v => .ok v
      | none => .error (.slotRange h slot f.slots.size)

/-- Writes a slot. -/
def store (a : Arena) (h : FrameHandle) (slot : Int) (v : Value) : Except ArenaError Arena :=
  match a.frame? h with
  | none => .error .stale
  | some f =>
    if slot < 0 ∨ f.slots.size ≤ slot.toNat then .error (.slotRange h slot f.slots.size)
    else .ok (a.setFrame h { f with slots := f.slots.setIfInBounds slot.toNat v })

/-- The number of references to a live frame. -/
def refs? (a : Arena) (h : FrameHandle) : Option Int32 := (a.frame? h).map (·.refs)

/-- Drops a reference to every frame of a chain; says what became of each. -/
def releaseChain : Arena → Chain → Arena × List (FrameHandle × Release)
  | a, [] => (a, [])
  | a, h :: rest =>
    let (b, outcome) := a.release h
    let (c, outcomes) := releaseChain b rest
    (c, (h, outcome) :: outcomes)

/-- What became of a request for references or frames: when it fails, the
references taken so far are dropped again. -/
inductive Acquired (α : Type) where
  | made (arena : Arena) (result : α)
  | failed (arena : Arena) (dropped : List (FrameHandle × Release)) (error : ArenaError)
  | broken (arena : Arena)

/-- Drops what was taken and fails. -/
def giveBack {α : Type} (a : Arena) (taken : Chain) (error : ArenaError) : Acquired α :=
  let (b, dropped) := a.releaseChain taken
  .failed b dropped error

/-- Adds a reference to every frame of a chain, of which `taken` is done. -/
def retainFrom (a : Arena) (taken : Chain) : Chain → Acquired Unit
  | [] => .made a ()
  | h :: rest =>
    match a.retain? h with
    | some b => retainFrom b (taken ++ [h]) rest
    | none => a.giveBack taken .stale

/-- Adds a reference to every frame of a chain. -/
def retainChain (a : Arena) (chain : Chain) : Acquired Unit := a.retainFrom [] chain

/-- One level of a chain to build. -/
inductive Layer where
  | shared (handle : FrameHandle)
  | fresh (size : Int)
deriving DecidableEq, Repr

/-- The levels of a chain for code that declares `sizes`: the innermost declared
level is fresh, others are shared with the given chain where it has them, and
levels that the chain has beyond the declared ones are kept. -/
def layers (chain : Chain) (sizes : List Int) : List Layer :=
  (List.range (max chain.length sizes.length)).map fun i =>
    match chain[i]? with
    | some h => if i + 1 = sizes.length then .fresh (sizes.getD i 0) else .shared h
    | none => .fresh (sizes.getD i 0)

/-- Builds levels after those in `taken`. -/
def overlayFrom (a : Arena) (taken : Chain) : List Layer → Acquired Chain
  | [] => .made a taken
  | .shared h :: rest =>
    match a.retain? h with
    | some b => overlayFrom b (taken ++ [h]) rest
    | none => a.giveBack taken .stale
  | .fresh size :: rest =>
    match a.alloc size with
    | .made b h => overlayFrom b (taken ++ [h]) rest
    | .full => a.giveBack taken .full
    | .broken b => .broken b

/-- The chain of code that declares `sizes` and runs under `chain`. Every level
of the result carries a reference for the caller. -/
def overlay (a : Arena) (chain : Chain) (sizes : List Int) : Acquired Chain :=
  a.overlayFrom [] (layers chain sizes)

end Arena
end ScriptEngine
