import ScriptEngine.Arena

/-! The references to shared frames, kept in a ledger.

An arena is balanced with a ledger that lists every reference once when each
frame counts the entries of its handle and is live as long as there is one.
Every operation keeps the balance with the ledger it should have afterwards, as
long as counts and slots can be told apart and fresh frames have room. -/
namespace ScriptEngine

/-- What a frame shows of its number of references; a frame without any is not
there. -/
def counted (n : Nat) : Option Int := if n = 0 then none else some n

theorem counted_eq_none {n : Nat} : counted n = none ↔ n = 0 := by simp [counted]

theorem counted_eq_some {n : Nat} {i : Int} : counted n = some i ↔ 0 < n ∧ i = n := by
  unfold counted
  split <;> simp <;> omega

namespace Arena

/-- An arena counts the references that a ledger lists. -/
structure Balanced (a : Arena) (ledger : List FrameHandle) : Prop where
  slots : a.frames.size ≤ UInt32.size
  free_nodup : a.free.Nodup
  free_iff : ∀ i : UInt32, i ∈ a.free ↔ ∃ f, a.frames[i.toNat]? = some f ∧ f.live = false
  live : a.live = a.frames.countP (·.live)
  refs : ∀ h, (a.refs? h).map Int32.toInt = counted (ledger.count h)

variable {a b : Arena} {h g : FrameHandle} {f f' : SharedFrame} {ledger ledger' : List FrameHandle}

/-! ### Frames -/

theorem frame?_eq_some :
    a.frame? h = some f ↔ a.frames[h.index.toNat]? = some f ∧ f.live = true ∧ f.gen = h.gen := by
  unfold frame?
  constructor
  · intro found
    split at found
    next there =>
      split at found
      next fits => cases found; exact ⟨there, fits⟩
      · cases found
    · cases found
  · rintro ⟨there, fits⟩
    rw [there]
    exact if_pos fits

theorem frame?_congr (same : b.frames[h.index.toNat]? = a.frames[h.index.toNat]?) :
    b.frame? h = a.frame? h := by
  unfold frame?
  rw [same]

/-- At most one handle of a slot addresses a live frame. -/
theorem frame?_of_index (there : a.frames[h.index.toNat]? = some f) (slot : h.index = g.index) :
    a.frame? g = if f.live = true ∧ f.gen = g.gen then some f else none := by
  unfold frame?
  rw [← slot, there]

theorem refs?_eq_none : a.refs? h = none ↔ a.frame? h = none := by simp [refs?]

theorem setFrame_getElem? (inside : h.index.toNat < a.frames.size) (i : Nat) :
    (a.setFrame h f).frames[i]? = if h.index.toNat = i then some f else a.frames[i]? := by
  simp only [setFrame, Array.getElem?_setIfInBounds, if_pos inside]

theorem frame?_setFrame (inside : h.index.toNat < a.frames.size) (g : FrameHandle) :
    (a.setFrame h f).frame? g = if h.index = g.index then
      (if f.live = true ∧ f.gen = g.gen then some f else none) else a.frame? g := by
  split
  next slot => exact frame?_of_index (by simp [setFrame_getElem? inside]) slot
  next other =>
    refine frame?_congr ?_
    rw [setFrame_getElem? inside, if_neg fun toNat => other (UInt32.toNat_inj.mp toNat)]

theorem setFrame_live (there : a.frames[h.index.toNat]? = some f) :
    ((a.setFrame h f').frames.countP (·.live) : Int) =
      a.frames.countP (·.live) - (if f.live then 1 else 0) + (if f'.live then 1 else 0) := by
  obtain ⟨inside, same⟩ := Array.getElem?_eq_some_iff.mp there
  have counted : f.live = true → 0 < a.frames.countP (·.live) := by
    intro live
    exact Array.countP_pos_iff.mpr ⟨f, same ▸ Array.getElem_mem inside, live⟩
  simp only [setFrame, Array.setIfInBounds_def, dif_pos inside, Array.countP_set, same]
  split
  next live =>
    have := counted live
    split <;> omega
  · split <;> simp

theorem toInt_succ {n : Int32} (below : n.toInt < Int32.maxValue.toInt) (zero : 0 ≤ n.toInt) :
    (n + 1).toInt = n.toInt + 1 := by
  have bound : n.toInt < 2147483647 := below
  rw [Int32.toInt_add, Int.bmod_eq_of_le (by simp; omega) (by simp; omega)]
  rfl

theorem toInt_pred {n : Int32} (positive : 0 < n.toInt) : (n - 1).toInt = n.toInt - 1 := by
  have := n.toInt_lt
  rw [Int32.toInt_sub, Int.bmod_eq_of_le (by simp; omega) (by simp; omega)]
  rfl

/-- Elements counted by their places, of which more may be tried. -/
theorem countP_range {α : Type} (p : α → Bool) (xs : List α) (more : Nat) :
    (List.range (xs.length + more)).countP (fun i => (xs[i]?).any p) = xs.countP p := by
  induction xs with
  | nil => simp
  | cons x rest ih =>
    rw [List.length_cons, Nat.add_right_comm, List.range_succ_eq_map, List.countP_cons,
      List.countP_map, List.countP_cons, ← ih]
    rfl

namespace Balanced

/-! ### What the balance says -/

/-- An arena without frames has no references. -/
theorem empty (capacity : Int) : Balanced { capacity } [] where
  slots := Nat.zero_le _
  free_nodup := List.nodup_nil
  free_iff i := by simp
  live := rfl
  refs h := rfl

/-- The order of the ledger does not matter. -/
theorem congr (balanced : Balanced a ledger) (same : ∀ h, ledger'.count h = ledger.count h) :
    Balanced a ledger' where
  slots := balanced.slots
  free_nodup := balanced.free_nodup
  free_iff := balanced.free_iff
  live := balanced.live
  refs h := by rw [balanced.refs, same]

theorem frame?_eq_none (balanced : Balanced a ledger) : a.frame? h = none ↔ h ∉ ledger := by
  rw [← refs?_eq_none, ← Option.map_eq_none_iff (f := Int32.toInt), balanced.refs, counted_eq_none,
    List.count_eq_zero]

theorem exists_frame (balanced : Balanced a ledger) (listed : h ∈ ledger) :
    ∃ f, a.frame? h = some f := by
  cases found : a.frame? h with
  | none => exact absurd listed (balanced.frame?_eq_none.mp found)
  | some f => exact ⟨f, rfl⟩

theorem refs_frame (balanced : Balanced a ledger) (there : a.frame? h = some f) :
    0 < ledger.count h ∧ f.refs.toInt = ledger.count h := by
  have refs := balanced.refs h
  rw [refs?, there] at refs
  exact counted_eq_some.mp refs.symm

/-- No other occupant of the slot of a live frame is referred to. -/
theorem unlisted (balanced : Balanced a ledger) (there : a.frame? h = some f)
    (slot : h.index = g.index) (other : g ≠ h) : ledger.count g = 0 := by
  obtain ⟨found, -, gen⟩ := frame?_eq_some.mp there
  have gens : f.gen ≠ g.gen := fun same =>
    other (by rw [gen] at same; cases g; cases h; simp_all)
  rw [List.count_eq_zero, ← balanced.frame?_eq_none, frame?_of_index found slot]
  simp [gens]

/-- The slots in use are those that the ledger mentions. -/
theorem live_slot (balanced : Balanced a ledger) (i : Nat) :
    (a.frames[i]?).any (·.live) = ledger.any (·.index.toNat = i) := by
  rw [Bool.eq_iff_iff, Option.any_eq_true, List.any_eq_true]
  constructor
  · rintro ⟨f, there, live⟩
    have inside := (Array.getElem?_eq_some_iff.mp there).1
    have place : i.toUInt32.toNat = i := by
      simpa using Nat.mod_eq_of_lt (Nat.lt_of_lt_of_le inside balanced.slots)
    have found : a.frame? ⟨i.toUInt32, f.gen⟩ = some f :=
      frame?_eq_some.mpr ⟨by rw [place, there], live, rfl⟩
    refine ⟨⟨i.toUInt32, f.gen⟩, ?_, by simpa using place⟩
    exact List.count_pos_iff.mp (balanced.refs_frame found).1
  · rintro ⟨h, listed, place⟩
    obtain ⟨f, there⟩ := balanced.exists_frame listed
    obtain ⟨found, live, -⟩ := frame?_eq_some.mp there
    exact ⟨f, by rwa [← of_decide_eq_true place], live⟩

/-- How many frames are live follows from the ledger. -/
theorem live_eq (balanced : Balanced a ledger) (other : Balanced b ledger) : a.live = b.live := by
  have size : a.frames.size + b.frames.size = b.frames.size + a.frames.size := Nat.add_comm ..
  rw [balanced.live, other.live, ← Array.countP_toList, ← Array.countP_toList,
    ← countP_range _ _ b.frames.size, ← countP_range _ b.frames.toList a.frames.size]
  simp only [Array.length_toList, Array.getElem?_toList, size, balanced.live_slot, other.live_slot]

theorem load_ne_stale {slot : Int} (balanced : Balanced a ledger) (listed : h ∈ ledger) :
    a.load h slot ≠ .error .stale := by
  obtain ⟨f, there⟩ := balanced.exists_frame listed
  unfold Arena.load
  rw [there]
  dsimp only
  split
  · simp
  · split <;> simp

theorem store_ne_stale {slot : Int} {v : Value} (balanced : Balanced a ledger) (listed : h ∈ ledger) :
    a.store h slot v ≠ .error .stale := by
  obtain ⟨f, there⟩ := balanced.exists_frame listed
  unfold Arena.store
  rw [there]
  dsimp only
  split <;> simp

/-! ### One frame -/

/-- The references after a change of one frame, said slot by slot. -/
theorem refs_setFrame (kept : ∀ g, (a.refs? g).map Int32.toInt = counted (ledger.count g))
    (inside : h.index.toNat < a.frames.size)
    (here : ∀ g, h.index = g.index → (if f.live = true ∧ f.gen = g.gen then some f.refs.toInt
      else none) = counted (ledger'.count g))
    (others : ∀ g, h.index ≠ g.index → ledger'.count g = ledger.count g) (g : FrameHandle) :
    ((a.setFrame h f).refs? g).map Int32.toInt = counted (ledger'.count g) := by
  rw [refs?, frame?_setFrame inside]
  split
  next slot =>
    rw [← here g slot]
    split <;> rfl
  next other =>
    rw [others g other]
    exact kept g

/-- A live frame may change as long as it stays live and counts what the ledger
is to list. -/
theorem update (balanced : Balanced a ledger) (there : a.frame? h = some f)
    (gen : f'.gen = f.gen) (live : f'.live = true)
    (refs : 0 < ledger'.count h ∧ f'.refs.toInt = ledger'.count h)
    (others : ∀ g, g ≠ h → ledger'.count g = ledger.count g) :
    Balanced (a.setFrame h f') ledger' := by
  obtain ⟨found, alive, same⟩ := frame?_eq_some.mp there
  have inside := (Array.getElem?_eq_some_iff.mp found).1
  refine ⟨?_, balanced.free_nodup, ?_, ?_, ?_⟩
  · simpa [setFrame] using balanced.slots
  · intro i
    rw [show (a.setFrame h f').free = a.free from rfl, balanced.free_iff,
      setFrame_getElem? inside]
    split
    next here =>
      rw [← here, found]
      simp [alive, live]
    · rfl
  · rw [setFrame_live found, alive, live, ← balanced.live]
    simp [setFrame]
  · refine refs_setFrame balanced.refs inside ?_ fun g other => others g fun eq => other (by rw [eq])
    intro g slot
    by_cases here : g = h
    · rw [here, if_pos ⟨live, gen.trans same⟩]
      exact (counted_eq_some.mpr refs).symm
    · have gens : f'.gen ≠ g.gen := fun eq =>
        here (by rw [gen, same] at eq; cases g; cases h; simp_all)
      rw [others g here, balanced.unlisted there slot here]
      simp [gens, counted]

theorem store {slot : Int} {v : Value} (balanced : Balanced a ledger)
    (stored : a.store h slot v = .ok b) : Balanced b ledger := by
  unfold Arena.store at stored
  split at stored
  · cases stored
  next f there =>
    split at stored
    · cases stored
    · cases stored
      have refs := balanced.refs_frame there
      exact balanced.update there rfl (frame?_eq_some.mp there).2.1 refs fun _ _ => rfl

theorem retain?_eq_none (balanced : Balanced a ledger) : a.retain? h = none ↔ h ∉ ledger := by
  rw [← balanced.frame?_eq_none, retain?, Option.map_eq_none_iff]

theorem retain (balanced : Balanced a ledger) (retained : a.retain? h = some b)
    (room : (ledger.count h : Int) < Int32.maxValue.toInt) :
    Balanced b (h :: ledger) ∧ b.frames.size = a.frames.size := by
  rw [retain?, Option.map_eq_some_iff] at retained
  obtain ⟨f, there, rfl⟩ := retained
  obtain ⟨positive, refs⟩ := balanced.refs_frame there
  refine ⟨balanced.update there rfl (frame?_eq_some.mp there).2.1 ⟨by simp, ?_⟩ ?_,
    by simp [setFrame]⟩
  · rw [toInt_succ (by omega) (by omega), refs]
    simp
  · intro g other
    exact List.count_cons_of_ne other.symm

/-- The last reference frees the frame, any other only goes out of the count. -/
theorem release (balanced : Balanced a (h :: ledger)) : Balanced (a.release h).1 ledger := by
  obtain ⟨f, there⟩ := balanced.exists_frame List.mem_cons_self
  obtain ⟨found, alive, same⟩ := frame?_eq_some.mp there
  obtain ⟨inside, -⟩ := Array.getElem?_eq_some_iff.mp found
  obtain ⟨positive, refs⟩ := balanced.refs_frame there
  have others : ∀ g, g ≠ h → ledger.count g = (h :: ledger).count g :=
    fun g other => (List.count_cons_of_ne other.symm).symm
  simp only [List.count_cons_self] at positive refs
  have less : (f.refs - 1).toInt = ledger.count h := by
    rw [toInt_pred (by omega), refs]
    simp
  simp only [Arena.release, there]
  split
  next more =>
    rw [Int32.lt_iff_toInt_lt, less] at more
    exact balanced.update there rfl alive ⟨by simpa using more, less⟩ others
  next last =>
    have none : ledger.count h = 0 := by
      rw [Int32.lt_iff_toInt_lt, less] at last
      exact Nat.eq_zero_of_not_pos (by simpa using last)
    have occupied : h.index ∉ a.free := by
      rw [balanced.free_iff, found]
      simp [alive]
    refine ⟨?_, List.nodup_cons.mpr ⟨occupied, balanced.free_nodup⟩, ?_, ?_, ?_⟩
    · simpa [setFrame] using balanced.slots
    · intro i
      dsimp only
      rw [List.mem_cons, show (a.setFrame h _).free = a.free from rfl, balanced.free_iff,
        setFrame_getElem? inside]
      by_cases here : i = h.index
      · simp [here]
      · rw [if_neg fun toNat => here (UInt32.toNat_inj.mp toNat).symm]
        simp [here]
    · dsimp only
      rw [setFrame_live found, alive, ← balanced.live]
      simp [setFrame]
    · refine refs_setFrame balanced.refs inside ?_
        fun g other => others g fun same => other (by rw [same])
      intro g slot
      by_cases here : g = h
      · simp [here, none, counted]
      · rw [others g here, balanced.unlisted there slot here]
        simp [counted]

/-- The slot for a new frame: it is there and nobody has it. -/
theorem takeSlot (balanced : Balanced a ledger) (room : a.free = [] → a.frames.size < UInt32.size) :
    ∃ b i old, a.takeSlot = (b, i) ∧ b.frames[i.toNat]? = some old ∧ old.live = false ∧
      b.frames.size ≤ a.frames.size + 1 ∧ b.frames.size ≤ UInt32.size ∧ b.free.Nodup ∧
      b.live = b.frames.countP (·.live) ∧
      (∀ j : UInt32, j ∈ b.free ↔ j ≠ i ∧ ∃ f, b.frames[j.toNat]? = some f ∧ f.live = false) ∧
      ∀ h, b.frame? h = a.frame? h := by
  cases free : a.free with
  | cons i rest =>
    obtain ⟨old, there, dead⟩ := (balanced.free_iff i).mp (by simp [free])
    have nodup := balanced.free_nodup
    rw [free, List.nodup_cons] at nodup
    refine ⟨{ a with free := rest }, i, old, by simp [Arena.takeSlot, free], there, dead,
      Nat.le_succ _, balanced.slots, nodup.2, balanced.live, ?_, fun _ => rfl⟩
    intro j
    have listed := balanced.free_iff j
    rw [free, List.mem_cons] at listed
    constructor
    · intro member
      exact ⟨fun same => nodup.1 (same ▸ member), listed.mp (.inr member)⟩
    · rintro ⟨other, there⟩
      exact (listed.mpr there).resolve_left other
  | nil =>
    have room := room free
    have place : a.frames.size.toUInt32.toNat = a.frames.size := by
      simpa using Nat.mod_eq_of_lt room
    refine ⟨{ a with frames := a.frames.push {} }, a.frames.size.toUInt32, {},
      by simp [Arena.takeSlot, free], by simp [place], rfl, by simp, by simp; omega, ?_, ?_, ?_, ?_⟩
    · exact balanced.free_nodup
    · simpa [Array.countP_push] using balanced.live
    · intro j
      have none := balanced.free_iff j
      rw [free] at none
      simp only [free, List.not_mem_nil, false_iff, not_and]
      rintro other ⟨f, there, dead⟩
      rw [Array.getElem?_push] at there
      split at there
      next last => exact other (UInt32.toNat_inj.mp (last.trans place.symm))
      · exact absurd (none.mpr ⟨f, there, dead⟩) List.not_mem_nil
    · intro h
      by_cases last : h.index.toNat = a.frames.size
      · unfold frame?
        simp [last]
      · exact frame?_congr (by simp [Array.getElem?_push, last])

/-- A new frame has one reference, and nobody had its handle. -/
theorem alloc {size : Int} (balanced : Balanced a ledger)
    (slot : a.free = [] → a.frames.size < UInt32.size) (room : isRoomFor size = true) :
    a.alloc size = .full ∨
      ∃ b h, a.alloc size = .made b h ∧ ledger.count h = 0 ∧ Balanced b (h :: ledger) ∧
        b.frames.size ≤ a.frames.size + 1 := by
  obtain ⟨b, i, old, taken, there, dead, grown, slots, nodup, live, free, kept⟩ :=
    balanced.takeSlot slot
  unfold Arena.alloc
  split
  · exact .inl rfl
  · simp only [taken, there, Option.getD_some, room, Bool.not_true, Bool.false_eq_true, if_false]
    have inside : i.toNat < b.frames.size := (Array.getElem?_eq_some_iff.mp there).1
    have vacant : ∀ g : FrameHandle, i = g.index → ledger.count g = 0 := by
      intro g slot
      rw [List.count_eq_zero, ← balanced.frame?_eq_none, ← kept,
        frame?_of_index (h := ⟨i, 0⟩) there slot]
      simp [dead]
    have refs : ∀ g, (b.refs? g).map Int32.toInt = counted (ledger.count g) := by
      intro g
      rw [← balanced.refs, refs?, kept]
      rfl
    refine .inr ⟨_, _, rfl, vacant _ rfl, ⟨?_, nodup, ?_, ?_, ?_⟩, ?_⟩
    · simpa [setFrame] using slots
    · intro j
      rw [show (b.setFrame _ _).free = b.free from rfl, free, setFrame_getElem? inside]
      by_cases here : i = j
      · simp [here]
      · rw [if_neg fun toNat => here (UInt32.toNat_inj.mp toNat)]
        simp [Ne.symm here]
    · dsimp only
      rw [setFrame_live there, dead, live]
      simp
    · refine refs_setFrame refs inside ?_ ?_
      · intro g slot
        dsimp only at slot ⊢
        subst slot
        have none := vacant g rfl
        by_cases gens : old.gen + 1 = g.gen
        · have same : g = ⟨g.index, old.gen + 1⟩ := by rw [gens]
          rw [← same, List.count_cons_self, none]
          simp [gens, counted]
        · have other : (⟨g.index, old.gen + 1⟩ : FrameHandle) ≠ g :=
            fun same => gens (by rw [← same])
          rw [List.count_cons_of_ne other, none]
          simp [gens, counted]
      · intro g other
        exact List.count_cons_of_ne fun same => other (by rw [← same])
    · simpa [setFrame] using grown

/-! ### Chains -/

theorem releaseChain {chain : Chain} (balanced : Balanced a (chain ++ ledger)) :
    Balanced (a.releaseChain chain).1 ledger := by
  induction chain generalizing a with
  | nil => exact balanced
  | cons h rest ih =>
    simp only [Arena.releaseChain]
    exact ih balanced.release

/-- What a failed request took is dropped again. -/
theorem giveBack {α : Type} {taken : Chain} (balanced : Balanced a (taken ++ ledger))
    (error : ArenaError) :
    ∃ b dropped, a.giveBack (α := α) taken error = .failed b dropped error ∧ Balanced b ledger :=
  ⟨_, _, rfl, balanced.releaseChain⟩

end Balanced

/-- The frame that a level shares. -/
def Layer.handle? : Layer → Option FrameHandle
  | .shared h => some h
  | .fresh _ => none

/-- The size of the frame that a level makes. -/
def Layer.size? : Layer → Option Int
  | .shared _ => none
  | .fresh size => some size

/-- What a request may take: references to frames, and fresh frames. -/
structure Demand where
  chain : Chain := []
  fresh : List Int := []

/-- The demand of a chain to build. -/
def Demand.ofLayers (layers : List Layer) : Demand :=
  ⟨layers.filterMap Layer.handle?, layers.filterMap Layer.size?⟩

/-- An arena can meet a demand if the references can be counted, the frames told
apart, and each fresh one has room. -/
structure Meets (a : Arena) (ledger : List FrameHandle) (demand : Demand) : Prop where
  counts : ∀ h, (ledger.count h + demand.chain.count h : Int) < Int32.maxValue.toInt
  slots : a.frames.size + demand.fresh.length ≤ UInt32.size
  room : ∀ size ∈ demand.fresh, isRoomFor size = true

/-- Few references can always be counted. -/
theorem Meets.of_few {demand : Demand}
    (few : (ledger.length + demand.chain.length : Int) < Int32.maxValue.toInt)
    (slots : a.frames.size + demand.fresh.length ≤ UInt32.size)
    (room : ∀ size ∈ demand.fresh, isRoomFor size = true) : Meets a ledger demand := by
  refine ⟨fun h => ?_, slots, room⟩
  have listed := List.count_le_length (a := h) (l := ledger)
  have asked := List.count_le_length (a := h) (l := demand.chain)
  omega

theorem Meets.congr {demand : Demand} (meets : Meets a ledger demand)
    (same : ∀ h, ledger'.count h = ledger.count h) : Meets a ledger' demand where
  counts h := by
    rw [same]
    exact meets.counts h
  slots := meets.slots
  room := meets.room

/-- What became of a request, as the ledger has it. It fails because of a stale
handle only if one was asked for. -/
inductive Booked {α : Type} (ledger : List FrameHandle) (asked : Chain) (gains : α → Chain) :
    Acquired α → Prop
  | made {b : Arena} {result : α} (balanced : Balanced b (gains result ++ ledger)) :
      Booked ledger asked gains (.made b result)
  | failed {b : Arena} {dropped : List (FrameHandle × Release)} {error : ArenaError}
      (balanced : Balanced b ledger) (stale : error = .stale → ∃ h ∈ asked, h ∉ ledger) :
      Booked ledger asked gains (.failed b dropped error)

theorem Booked.mono {α : Type} {asked more : Chain} {gains : α → Chain} {result : Acquired α}
    (booked : Booked ledger asked gains result) (asks : ∀ h ∈ asked, h ∈ more) :
    Booked ledger more gains result := by
  cases booked with
  | made balanced => exact .made balanced
  | failed balanced stale =>
    refine .failed balanced fun same => ?_
    obtain ⟨h, asked, unlisted⟩ := stale same
    exact ⟨h, asks h asked, unlisted⟩

namespace Balanced

theorem booked_stale {α : Type} {taken asked : Chain} {gains : α → Chain}
    (balanced : Balanced a (taken ++ ledger)) (asks : h ∈ asked) (stale : a.retain? h = none) :
    Booked ledger asked gains (a.giveBack taken .stale) := by
  obtain ⟨b, dropped, failed, balanced'⟩ := balanced.giveBack (α := α) .stale
  have unlisted := balanced.retain?_eq_none.mp stale
  rw [failed]
  exact .failed balanced' fun _ => ⟨h, asks, fun listed => unlisted (by simp [listed])⟩

theorem retainFrom (taken : Chain) {chain : Chain} (balanced : Balanced a (taken ++ ledger))
    (counts : ∀ h, (taken.count h + ledger.count h + chain.count h : Int) < Int32.maxValue.toInt) :
    Booked ledger chain (fun _ => taken ++ chain) (a.retainFrom taken chain) := by
  induction chain generalizing a taken with
  | nil =>
    rw [Arena.retainFrom]
    exact .made (by simpa using balanced)
  | cons h rest ih =>
    rw [Arena.retainFrom]
    have room := counts h
    simp only [List.count_cons_self] at room
    split
    next b retained =>
      obtain ⟨balanced', -⟩ := balanced.retain retained (by simp; omega)
      have next := ih (taken ++ [h])
        (balanced'.congr fun g => by simp [List.count_append, List.count_cons]; omega)
        (fun g => by have := counts g; simp [List.count_append, List.count_cons] at this ⊢; omega)
      simp only [List.append_assoc, List.singleton_append] at next
      exact next.mono fun g member => List.mem_cons_of_mem _ member
    next stale => exact balanced.booked_stale List.mem_cons_self stale

theorem overlayFrom (taken : Chain) {layers : List Layer} (balanced : Balanced a (taken ++ ledger))
    (slots : a.frames.size + (layers.filterMap Layer.size?).length ≤ UInt32.size)
    (room : ∀ size ∈ layers.filterMap Layer.size?, isRoomFor size = true)
    (few : ∀ h, ((layers.filterMap Layer.handle?).count h : Int) < Int32.maxValue.toInt)
    (counts : ∀ h, (taken.count h + ledger.count h + (layers.filterMap Layer.handle?).count h : Int)
      ≤ Int32.maxValue.toInt) :
    Booked ledger (layers.filterMap Layer.handle?) id (a.overlayFrom taken layers) := by
  induction layers generalizing a taken with
  | nil =>
    rw [Arena.overlayFrom]
    exact .made balanced
  | cons layer rest ih =>
    cases layer with
    | shared h =>
      simp only [List.filterMap_cons, Layer.size?, Layer.handle?] at slots room few counts ⊢
      rw [Arena.overlayFrom]
      have limit := counts h
      simp only [List.count_cons_self] at limit
      split
      next b retained =>
        obtain ⟨balanced', size⟩ := balanced.retain retained (by simp; omega)
        refine (ih (taken ++ [h]) ?_ (by omega) room ?_ ?_).mono
          fun g member => List.mem_cons_of_mem _ member
        · exact balanced'.congr fun g => by simp [List.count_append, List.count_cons]; omega
        · intro g
          have := few g
          have := (rest.filterMap Layer.handle?).count_le_count_cons (a := g) (b := h)
          omega
        · intro g
          have := counts g
          simp [List.count_append, List.count_cons] at this ⊢
          omega
      next stale => exact balanced.booked_stale List.mem_cons_self stale
    | fresh size =>
      simp only [List.filterMap_cons, Layer.size?, Layer.handle?, List.length_cons,
        List.forall_mem_cons] at slots room few counts ⊢
      rw [Arena.overlayFrom]
      rcases balanced.alloc (fun _ => by omega) room.1 with full | ⟨b, h, made, new, balanced', grown⟩
      · obtain ⟨c, dropped, failed, balanced'⟩ := balanced.giveBack (α := Chain) .full
        simp only [full, failed]
        exact .failed balanced' (by simp)
      · simp only [made]
        refine ih (taken ++ [h]) ?_ (by omega) room.2 few ?_
        · exact balanced'.congr fun g => by simp [List.count_append, List.count_cons]; omega
        · intro g
          have before := counts g
          have later := few g
          by_cases here : h = g
          · subst here
            simp only [List.count_append, List.count_singleton_self] at new ⊢
            omega
          · simp only [List.count_append, List.count_singleton, beq_eq_false_iff_ne.mpr here,
              Bool.false_eq_true, if_false, Nat.add_zero]
            exact before

/-- References to all frames of a chain. -/
theorem retainChain {chain : Chain} (balanced : Balanced a ledger) (meets : Meets a ledger ⟨chain, []⟩) :
    Booked ledger chain (fun _ => chain) (a.retainChain chain) := by
  have counts : ∀ h, (([] : Chain).count h + ledger.count h + chain.count h : Int) <
      Int32.maxValue.toInt := by
    simpa using meets.counts
  exact balanced.retainFrom [] counts

/-- A chain for code that runs under another. -/
theorem overlay {chain : Chain} {sizes : List Int} (balanced : Balanced a ledger)
    (meets : Meets a ledger (.ofLayers (layers chain sizes))) :
    Booked ledger chain id (a.overlay chain sizes) := by
  have shared : ∀ h ∈ (layers chain sizes).filterMap Layer.handle?, h ∈ chain := by
    intro h member
    simp only [layers, List.mem_filterMap, List.mem_map] at member
    obtain ⟨layer, ⟨i, -, rfl⟩, handle⟩ := member
    split at handle
    next there =>
      split at handle
      · cases handle
      · cases handle
        exact List.mem_of_getElem? there
    · cases handle
  refine (balanced.overlayFrom [] meets.slots meets.room ?_ ?_).mono shared
  · intro h
    have := meets.counts h
    simp only [Demand.ofLayers] at this
    omega
  · intro h
    have := meets.counts h
    simp only [Demand.ofLayers] at this
    simp only [List.count_nil]
    omega

end Balanced
end Arena
end ScriptEngine
