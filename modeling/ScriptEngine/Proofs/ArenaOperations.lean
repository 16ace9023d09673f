import ScriptEngine.Proofs.Ledger

/-! What the operations of an arena do, frame by frame. Making a frame fills one
vacant slot; a request for levels is a row of references and new frames, which
are dropped again if it cannot be met. -/
namespace ScriptEngine

/-- The arena after a request for a frame, unless the request was refused. -/
def Allocation.arena? : Allocation → Option Arena
  | .full => none
  | .made b _ | .broken b => some b

namespace Arena

variable {a b c : Arena} {h g : FrameHandle} {size : Int} {layers rest : List Layer}
  {taken more : Chain}

/-! ### Building levels one by one -/

/-- Levels built one after the other, and the handles taken for them. -/
inductive Builds : Arena → List Layer → Arena → Chain → Prop
  | done (a : Arena) : Builds a [] a []
  | shared {a b c : Arena} {h : FrameHandle} {rest : List Layer} {more : Chain}
      (retained : a.retain? h = some b) (later : Builds b rest c more) :
      Builds a (.shared h :: rest) c (h :: more)
  | fresh {a b c : Arena} {h : FrameHandle} {size : Int} {rest : List Layer} {more : Chain}
      (made : a.alloc size = .made b h) (later : Builds b rest c more) :
      Builds a (.fresh size :: rest) c (h :: more)

theorem size_retain (retained : a.retain? h = some b) : b.frames.size = a.frames.size := by
  obtain ⟨f, -, rfl⟩ := Option.map_eq_some_iff.mp retained
  simp [setFrame]

/-- A request for a frame takes a slot that is free, or a new one. -/
theorem size_alloc_cases (taken : (a.alloc size).arena? = some b) :
    b.frames.size = a.frames.size ∨ b.frames.size = a.frames.size + 1 := by
  unfold alloc takeSlot at taken
  split at taken
  · cases taken
  · dsimp only at taken
    split at taken <;> cases taken <;> simp only [setFrame, Array.size_setIfInBounds]
    all_goals split <;> simp

theorem size_alloc (taken : (a.alloc size).arena? = some b) : a.frames.size ≤ b.frames.size := by
  rcases size_alloc_cases taken with same | grown <;> omega

theorem Builds.length_eq (builds : Builds a layers b more) : more.length = layers.length := by
  induction builds with
  | done => rfl
  | shared _ _ ih | fresh _ _ ih => rw [List.length_cons, List.length_cons, ih]

theorem Builds.size_le (builds : Builds a layers b more) : a.frames.size ≤ b.frames.size := by
  induction builds with
  | done => exact Nat.le_refl _
  | shared retained _ ih => rwa [← size_retain retained]
  | fresh made _ ih => exact Nat.le_trans (size_alloc (by rw [made]; rfl)) ih

/-- What became of a request for levels: all are built, or some are and dropped
again with everything taken before, or a frame has no room. -/
inductive Attempt (a : Arena) (taken : Chain) (layers : List Layer) : Acquired Chain → Prop
  | made {b : Arena} {more : Chain} (builds : Builds a layers b more) :
      Attempt a taken layers (.made b (taken ++ more))
  | failed {b c : Arena} {built rest : List Layer} {more : Chain}
      {dropped : List (FrameHandle × Release)} (error : ArenaError) (cut : layers = built ++ rest)
      (builds : Builds a built b more) (drops : b.releaseChain (taken ++ more) = (c, dropped)) :
      Attempt a taken layers (.failed c dropped error)
  | broken (b : Arena) : Attempt a taken layers (.broken b)

/-- One more level in front of those that were attempted. -/
theorem Attempt.cons {layer : Layer} {acquired : Acquired Chain}
    (built : ∀ {built c more}, Builds b built c more → Builds a (layer :: built) c (h :: more))
    (attempt : Attempt b (taken ++ [h]) rest acquired) :
    Attempt a taken (layer :: rest) acquired := by
  cases attempt with
  | @made c more builds =>
    have whole : Attempt a taken (layer :: rest) (.made c (taken ++ h :: more)) := .made (built builds)
    rwa [List.append_cons] at whole
  | @failed c d done rest more dropped error cut builds drops =>
    rw [List.append_assoc] at drops
    exact .failed error (by rw [cut, List.cons_append]) (built builds) drops
  | broken c => exact .broken c

theorem overlayFrom_attempt (a : Arena) (taken : Chain) (layers : List Layer) :
    Attempt a taken layers (a.overlayFrom taken layers) := by
  induction layers generalizing a taken with
  | nil =>
    have none : Attempt a taken [] (.made a (taken ++ [])) := .made (.done a)
    rwa [List.append_nil] at none
  | cons layer rest ih =>
    have stuck (error : ArenaError) :
        Attempt a taken (layer :: rest) (a.giveBack taken error) := by
      apply Attempt.failed error (List.nil_append _).symm (.done a)
      rw [List.append_nil]
    cases layer with
    | shared h =>
      rw [overlayFrom]
      split
      next b retained => exact (ih b (taken ++ [h])).cons (.shared retained)
      · exact stuck .stale
    | fresh size =>
      rw [overlayFrom]
      split
      next b h made => exact (ih b (taken ++ [h])).cons (.fresh made)
      · exact stuck .full
      next b _ => exact .broken b

/-- References to a chain are taken like levels that are all shared. -/
theorem overlayFrom_shared (a : Arena) (taken chain : Chain) :
    a.overlayFrom taken (chain.map .shared) =
      match a.retainFrom taken chain with
      | .made b _ => .made b (taken ++ chain)
      | .failed b dropped error => .failed b dropped error
      | .broken b => .broken b := by
  induction chain generalizing a taken with
  | nil => rw [List.map_nil, overlayFrom, retainFrom, List.append_nil]
  | cons h rest ih =>
    rw [List.map_cons, overlayFrom, retainFrom]
    cases a.retain? h with
    | none => rfl
    | some b =>
      simp only [ih, List.append_assoc, List.singleton_append]

/-! ### Frames after one operation -/

theorem releaseChain_fst (a : Arena) (chain : Chain) :
    (a.releaseChain chain).2.map Prod.fst = chain := by
  induction chain generalizing a with
  | nil => rfl
  | cons h rest ih => rw [releaseChain, List.map_cons, ih]

theorem size_release (a : Arena) (h : FrameHandle) :
    (a.release h).1.frames.size = a.frames.size := by
  unfold release
  split
  · rfl
  · dsimp only
    split <;> simp [setFrame]

theorem size_releaseChain (a : Arena) (chain : Chain) :
    (a.releaseChain chain).1.frames.size = a.frames.size := by
  induction chain generalizing a with
  | nil => rfl
  | cons h rest ih => rw [releaseChain, ih, size_release]

/-- A frame as it is made. -/
def blank (size : Int) (h : FrameHandle) : SharedFrame :=
  { slots := Array.replicate size.toNat .void, gen := h.gen, refs := 1, live := true }

/-- What making a frame does: it takes a slot whose last occupant is gone, or a
new one, and nothing else changes. -/
structure Makes (a : Arena) (size : Int) (b : Arena) (h : FrameHandle) (old : SharedFrame) :
    Prop where
  vacant : a.frames[h.index.toNat]? = some old ∧ old.live = false ∨
    h.index.toNat = a.frames.size ∧ old = {}
  gen : h.gen = old.gen + 1
  frames : ∀ i, b.frames[i]? = if h.index.toNat = i then some (blank size h) else a.frames[i]?
  live : b.live = a.live + 1
  capacity : b.capacity = a.capacity
  room : a.isFull = false
  fits : isRoomFor size = true
  grows : a.free = [] → a.frames.size < b.frames.size

/-- Every slot that waits for reuse is vacant, and waits once. -/
structure Tidy (a : Arena) : Prop where
  nodup : a.free.Nodup
  vacant : ∀ i ∈ a.free, ∃ f, a.frames[i.toNat]? = some f ∧ f.live = false

theorem Balanced.tidy {ledger : List FrameHandle} (balanced : a.Balanced ledger) : a.Tidy :=
  ⟨balanced.free_nodup, fun i member => (balanced.free_iff i).mp member⟩

/-- What taking a slot does. -/
structure TakesSlot (a b : Arena) (i : UInt32) (old : SharedFrame) : Prop where
  there : b.frames[i.toNat]? = some old
  vacant : a.frames[i.toNat]? = some old ∧ old.live = false ∨ i.toNat = a.frames.size ∧ old = {}
  others : ∀ j, i.toNat ≠ j → b.frames[j]? = a.frames[j]?
  tidy : b.Tidy
  taken : i ∉ b.free
  live : b.live = a.live
  capacity : b.capacity = a.capacity
  grows : a.free = [] → a.frames.size < b.frames.size

theorem Tidy.takeSlot (tidy : a.Tidy) (slots : a.takeSlot.1.frames.size ≤ UInt32.size) :
    ∃ old, TakesSlot a a.takeSlot.1 a.takeSlot.2 old := by
  cases free : a.free with
  | cons i rest =>
    obtain ⟨old, there, dead⟩ := tidy.vacant i (by simp [free])
    have nodup := tidy.nodup
    rw [free, List.nodup_cons] at nodup
    simp only [Arena.takeSlot, free]
    refine ⟨old, there, .inl ⟨there, dead⟩, fun _ _ => rfl, ⟨nodup.2, ?_⟩, nodup.1, rfl, rfl,
      by simp [free]⟩
    intro j member
    exact tidy.vacant j (by simp [free, member])
  | nil =>
    simp only [Arena.takeSlot, free, Array.size_push] at slots ⊢
    have place : a.frames.size.toUInt32.toNat = a.frames.size := by
      have below : a.frames.size < UInt32.size := slots
      simpa using Nat.mod_eq_of_lt below
    refine ⟨{}, by simp [place], .inr ⟨place, rfl⟩, ?_, ⟨by simp, by simp⟩,
      by simp, rfl, rfl, by simp⟩
    intro j other
    rw [place] at other
    rw [Array.getElem?_push, if_neg (Ne.symm other)]

theorem TakesSlot.setFrame {i : UInt32} {old : SharedFrame} (takes : TakesSlot a b i old)
    (gen : UInt32) (new : SharedFrame) (j : Nat) :
    (b.setFrame ⟨i, gen⟩ new).frames[j]? = if i.toNat = j then some new else a.frames[j]? := by
  rw [setFrame_getElem? (Array.getElem?_eq_some_iff.mp takes.there).1]
  split
  · rfl
  next other => exact takes.others j other

theorem alloc_makes (tidy : a.Tidy) (made : a.alloc size = .made b h)
    (slots : b.frames.size ≤ UInt32.size) : ∃ old, Makes a size b h old := by
  unfold alloc at made
  split at made
  · cases made
  next room =>
    have room : a.isFull = false := by simpa using room
    dsimp only at made
    split at made
    · cases made
    next fits =>
    have fits : isRoomFor size = true := by simpa using fits
    cases made
    simp only [setFrame, Array.size_setIfInBounds] at slots
    obtain ⟨old, takes⟩ := tidy.takeSlot slots
    simp only [takes.there, Option.getD_some]
    refine ⟨old, takes.vacant, rfl, takes.setFrame _ _, ?_, takes.capacity, room, fits, ?_⟩
    · dsimp only
      rw [takes.live]
    · intro none
      simpa [setFrame] using takes.grows none

theorem FrameHandle.eq_of {h g : FrameHandle} (index : h.index = g.index) (gen : h.gen = g.gen) :
    h = g := by
  cases h
  cases g
  simp_all

/-- Where one slot has a new content, only the handle of that content is affected,
if no other handle of the slot was good. -/
theorem frame?_of_set {new : SharedFrame}
    (set : ∀ j, b.frames[j]? = if h.index.toNat = j then some new else a.frames[j]?)
    (gen : new.gen = h.gen) (alone : ∀ g, h.index = g.index → g ≠ h → a.frame? g = none)
    (g : FrameHandle) :
    b.frame? g = if g = h then (if new.live then some new else none) else a.frame? g := by
  have there : b.frames[h.index.toNat]? = some new := by rw [set, if_pos rfl]
  by_cases slot : h.index = g.index
  · rw [frame?_of_index there slot]
    by_cases here : g = h
    · simp [here, gen]
    · have gens : new.gen ≠ g.gen := fun same => here (FrameHandle.eq_of slot (gen ▸ same)).symm
      simp [here, gens, alone g slot here]
  · have other : g ≠ h := fun here => slot (by rw [here])
    rw [if_neg other]
    apply frame?_congr
    rw [set, if_neg fun same => slot (UInt32.toNat_inj.mp same)]

namespace Makes

variable {old : SharedFrame}

theorem stale (makes : Makes a size b h old) (slot : h.index = g.index) : a.frame? g = none := by
  rcases makes.vacant with ⟨there, dead⟩ | ⟨last, -⟩
  · rw [frame?_of_index there slot, dead]
    simp
  · unfold frame?
    simp [← slot, last]

theorem frame? (makes : Makes a size b h old) (g : FrameHandle) :
    b.frame? g = if g = h then some (blank size h) else a.frame? g := by
  rw [frame?_of_set makes.frames rfl fun g slot _ => makes.stale slot]
  rfl

end Makes

/-- A new frame adds its handle to the ledger. -/
theorem Balanced.made {ledger : List FrameHandle} (balanced : a.Balanced ledger)
    (made : a.alloc size = .made b h) (slots : b.frames.size ≤ UInt32.size) :
    b.Balanced (h :: ledger) := by
  obtain ⟨old, makes⟩ := alloc_makes balanced.tidy made slots
  have vacancy : a.free = [] → a.frames.size < UInt32.size :=
    fun none => Nat.lt_of_lt_of_le (makes.grows none) slots
  rcases balanced.alloc vacancy makes.fits with full | ⟨b', h', made', -, balanced', -⟩
  · rw [made] at full
    cases full
  · rw [made] at made'
    cases made'
    exact balanced'

end Arena
end ScriptEngine
