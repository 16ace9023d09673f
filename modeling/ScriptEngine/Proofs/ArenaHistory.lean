import ScriptEngine.Proofs.ArenaOperations

/-! The slots of an arena over its whole life. Whatever handles its operations
are given, free slots are exactly those without a live frame, handles are
handed out once, and the handle of a freed frame stays stale when its slot is
used again. Counts, generations and slots are as large as their 32 bits allow. -/
namespace ScriptEngine
namespace Arena

variable {a b : Arena} {h : FrameHandle} {f : SharedFrame} {size capacity : Int}
  {layers : List Layer} {more : Chain}

/-! ### Operations and what they leave -/

/-- The handles among those taken for levels that belong to frames made for them. -/
def issuedBy (layers : List Layer) (handles : Chain) : Chain :=
  (layers.zip handles).filterMap fun
    | (.fresh _, h) => some h
    | (.shared _, _) => none

/-- The handles whose last reference was dropped. -/
def freedBy (outcomes : List (FrameHandle × Release)) : Chain :=
  outcomes.filterMap fun (h, outcome) => if outcome = .freed then some h else none

/-- What an operation leaves: the arena, and in their order the handles it took a
reference for, those of them it handed out first, and those it freed. -/
structure Effect where
  arena : Arena
  taken : Chain := []
  issued : Chain := []
  freed : Chain := []

/-- The effect of building levels; there is none if a frame has no room. -/
def Acquired.effect? {α : Type} (layers : List Layer) (result : α → Chain) :
    Acquired α → Option Effect
  | .made b x =>
    some { arena := b, taken := result x, issued := issuedBy layers (result x) }
  | .failed b dropped _ =>
    let taken := dropped.map Prod.fst
    some { arena := b, taken, issued := issuedBy layers taken, freed := freedBy dropped }
  | .broken _ => none

/-- An operation of an arena. -/
inductive Use where
  | alloc (size : Int)
  | retain (handle : FrameHandle)
  | release (handle : FrameHandle)
  | load (handle : FrameHandle) (slot : Int)
  | store (handle : FrameHandle) (slot : Int) (v : Value)
  | refs (handle : FrameHandle)
  | overlay (chain : Chain) (sizes : List Int)
  | retainChain (chain : Chain)
  | releaseChain (chain : Chain)

/-- The effect of an operation; one that fails leaves what it found. There is
none if a frame has no room. -/
def Use.effect? (a : Arena) : Use → Option Effect
  | .alloc size =>
    match a.alloc size with
    | .made b h => some { arena := b, taken := [h], issued := [h] }
    | .full => some { arena := a }
    | .broken _ => none
  | .retain h =>
    match a.retain? h with
    | some b => some { arena := b, taken := [h] }
    | none => some { arena := a }
  | .release h => some { arena := (a.release h).1, freed := freedBy [(h, (a.release h).2)] }
  | .load .. | .refs _ => some { arena := a }
  | .store h slot v =>
    match a.store h slot v with
    | .ok b => some { arena := b }
    | .error _ => some { arena := a }
  | .overlay chain sizes => (a.overlay chain sizes).effect? (Arena.layers chain sizes) id
  | .retainChain chain => (a.retainChain chain).effect? (chain.map .shared) fun _ => chain
  | .releaseChain chain =>
    some { arena := (a.releaseChain chain).1, freed := freedBy (a.releaseChain chain).2 }

/-- An arena with all handles that were handed out and freed so far. -/
structure Life where
  arena : Arena
  issued : Chain := []
  freed : Chain := []

/-- What the frame of a handle counts, if there is one. -/
def references (a : Arena) (h : FrameHandle) : Int := (a.refs? h).elim 0 Int32.toInt

/-- An effect that the counters of 32 bits have room for: no count reaches half
their range, no slot is handed out as often as there are generations, and slots
have different numbers. -/
structure Life.Admits (l : Life) (e : Effect) : Prop where
  counts : ∀ h, l.arena.references h + e.taken.count h < UInt32.size / 2
  generations : ∀ i : UInt32, (e.issued ++ l.issued).countP (·.index = i) < UInt32.size
  slots : e.arena.frames.size ≤ UInt32.size

/-- An arena after any operations, from its making on. -/
inductive Lives (capacity : Int) : Life → Prop
  | new : Lives capacity ⟨{ capacity }, [], []⟩
  | uses {l : Life} {e : Effect} (lives : Lives capacity l) (use : Use)
      (effect : use.effect? l.arena = some e) (admits : l.Admits e) :
      Lives capacity ⟨e.arena, e.issued ++ l.issued, e.freed ++ l.freed⟩

/-! ### What every operation keeps -/

theorem issuedBy_append {built : List Layer} (same : more.length = built.length)
    (rest : List Layer) : issuedBy (built ++ rest) more = issuedBy built more := by
  have zipped : (built ++ rest).zip (more ++ []) = built.zip more ++ rest.zip [] :=
    List.zip_append same.symm
  rw [List.append_nil, List.zip_nil_right, List.append_nil] at zipped
  rw [issuedBy, issuedBy, zipped]

/-- What holds of an arena throughout its life. Generations count how often a
slot was handed out, so each handle out of a slot is newer than those before. -/
structure Kept (capacity : Int) (a : Arena) (issued freed : Chain) : Prop where
  balanced : ∃ ledger, a.Balanced ledger
  limit : a.capacity = capacity
  bounded : 0 < capacity → a.live ≤ capacity
  generation : ∀ (i : UInt32) f, a.frames[i.toNat]? = some f →
    f.gen.toNat = issued.countP (·.index = i)
  inside : ∀ h ∈ issued, h.index.toNat < a.frames.size
  passed : ∀ h ∈ issued, h.gen.toNat ≤ issued.countP (·.index = h.index)
  once : issued.Nodup
  known : ∀ h ∈ freed, h ∈ issued
  valid : ∀ h, (a.frame? h).isSome ↔ h ∈ issued ∧ h ∉ freed

namespace Kept

variable {issued issued' freed freed' : Chain}

theorem new (capacity : Int) : Kept capacity { capacity } [] [] where
  balanced := ⟨[], .empty capacity⟩
  limit := rfl
  bounded positive := Int.le_of_lt positive
  generation i f there := by simp at there
  inside h member := absurd member List.not_mem_nil
  passed h member := absurd member List.not_mem_nil
  once := List.nodup_nil
  known h member := absurd member List.not_mem_nil
  valid h := by simp [frame?]

/-- The order of what was handed out and freed does not matter. -/
theorem congr (kept : Kept capacity a issued freed) (perm : issued'.Perm issued)
    (same : ∀ h, h ∈ freed' ↔ h ∈ freed) : Kept capacity a issued' freed' where
  balanced := kept.balanced
  limit := kept.limit
  bounded := kept.bounded
  generation i f there := by
    rw [perm.countP_eq]
    exact kept.generation i f there
  inside h member := kept.inside h (perm.mem_iff.mp member)
  passed h member := by
    rw [perm.countP_eq]
    exact kept.passed h (perm.mem_iff.mp member)
  once := perm.nodup_iff.mpr kept.once
  known h member := perm.mem_iff.mpr (kept.known h ((same h).mp member))
  valid h := by
    rw [kept.valid h, perm.mem_iff, same]

/-- An operation that hands out and frees nothing keeps slots, generations and
which frames are live. -/
theorem update (kept : Kept capacity a issued freed) (there : a.frame? h = some f)
    {f' : SharedFrame} (gen : f'.gen = f.gen) (live : f'.live = true)
    (balanced : ∃ ledger, (a.setFrame h f').Balanced ledger) :
    Kept capacity (a.setFrame h f') issued freed := by
  obtain ⟨found, alive, same⟩ := frame?_eq_some.mp there
  have inside := (Array.getElem?_eq_some_iff.mp found).1
  refine ⟨balanced, kept.limit, kept.bounded, ?_, ?_, kept.passed, kept.once, kept.known, ?_⟩
  · intro i g found'
    rw [setFrame_getElem? inside] at found'
    split at found'
    next here =>
      cases found'
      rw [gen]
      exact kept.generation i f (here ▸ found)
    · exact kept.generation i g found'
  · intro g member
    simpa [setFrame] using kept.inside g member
  · intro g
    rw [← kept.valid g, frame?_setFrame inside]
    split
    next slot =>
      rw [frame?_of_index found slot, gen, live, alive]
      simp only [true_and]
      split <;> rfl
    · rfl

theorem store {slot : Int} {v : Value} (kept : Kept capacity a issued freed)
    (stored : a.store h slot v = .ok b) : Kept capacity b issued freed := by
  obtain ⟨ledger, balanced⟩ := kept.balanced
  have balanced' := balanced.store stored
  unfold Arena.store at stored
  split at stored
  · cases stored
  next f there =>
    split at stored
    · cases stored
    · cases stored
      exact kept.update there rfl (frame?_eq_some.mp there).2.1 ⟨ledger, balanced'⟩

theorem references_eq {ledger : List FrameHandle} (balanced : a.Balanced ledger)
    (h : FrameHandle) : a.references h = ledger.count h := by
  have refs := balanced.refs h
  unfold references
  cases found : a.refs? h with
  | none =>
    rw [found] at refs
    rw [counted_eq_none.mp refs.symm]
    rfl
  | some n =>
    rw [found] at refs
    exact (counted_eq_some.mp refs.symm).2

theorem retain (kept : Kept capacity a issued freed) (retained : a.retain? h = some b)
    (room : a.references h + 1 < UInt32.size / 2) :
    Kept capacity b issued freed ∧
      ∀ g, b.references g = a.references g + (if h = g then 1 else 0) := by
  obtain ⟨ledger, balanced⟩ := kept.balanced
  have counts := references_eq balanced
  have max : Int32.maxValue.toInt = UInt32.size / 2 - 1 := by decide
  obtain ⟨balanced', -⟩ := balanced.retain retained (by rw [← counts, max]; omega)
  constructor
  · obtain ⟨f, there, rfl⟩ := Option.map_eq_some_iff.mp retained
    exact kept.update there rfl (frame?_eq_some.mp there).2.1 ⟨_, balanced'⟩
  · intro g
    rw [counts, references_eq balanced', List.count_cons]
    by_cases here : h = g <;> simp [here]

/-- The generation of a new handle is the number of handles of its slot, itself included. -/
theorem gen_made {old : SharedFrame} (kept : Kept capacity a issued freed)
    (makes : Makes a size b h old)
    (generations : (h :: issued).countP (·.index = h.index) < UInt32.size) :
    h.gen.toNat = (h :: issued).countP (·.index = h.index) := by
  have before : old.gen.toNat = issued.countP (·.index = h.index) := by
    rcases makes.vacant with ⟨there, -⟩ | ⟨last, rfl⟩
    · exact kept.generation h.index old there
    · apply Eq.symm
      rw [show (({} : SharedFrame).gen.toNat) = 0 from rfl, List.countP_eq_zero]
      intro g member same
      have inside := kept.inside g member
      rw [of_decide_eq_true same] at inside
      exact absurd last (Nat.ne_of_lt inside)
  have count : (h :: issued).countP (·.index = h.index) = old.gen.toNat + 1 := by
    rw [List.countP_cons, before]
    simp
  rw [count, makes.gen, UInt32.toNat_add]
  exact Nat.mod_eq_of_lt (count ▸ generations)

/-- A frame that is made has a handle that was never handed out, and counts one
reference. -/
theorem alloc (kept : Kept capacity a issued freed) (made : a.alloc size = .made b h)
    (generations : (h :: issued).countP (·.index = h.index) < UInt32.size)
    (slots : b.frames.size ≤ UInt32.size) :
    Kept capacity b (h :: issued) freed ∧
      ∀ g, b.references g = a.references g + (if h = g then 1 else 0) := by
  obtain ⟨ledger, balanced⟩ := kept.balanced
  obtain ⟨old, makes⟩ := alloc_makes balanced.tidy made slots
  have balanced' := balanced.made made slots
  have gen := kept.gen_made makes generations
  have unissued : h ∉ issued := fun member => by
    have passed := kept.passed h member
    rw [gen, List.countP_cons_of_pos (by simp)] at passed
    omega
  refine ⟨⟨⟨_, balanced'⟩, makes.capacity.trans kept.limit, ?bounded, ?generation, ?inside, ?passed,
    List.nodup_cons.mpr ⟨unissued, kept.once⟩,
    fun g member => List.mem_cons_of_mem h (kept.known g member), ?valid⟩, ?counts⟩
  case bounded =>
    intro positive
    have room := makes.room
    have limit := kept.limit
    simp only [isFull, Bool.and_eq_false_iff, decide_eq_false_iff_not] at room limit
    rw [makes.live]
    omega
  case generation =>
    intro i f there
    rw [makes.frames] at there
    split at there
    next here =>
      cases there
      rw [← UInt32.toNat_inj.mp here]
      exact gen
    next other =>
      have elsewhere : h.index ≠ i := fun same => other (by rw [same])
      rw [List.countP_cons_of_neg (by simpa using elsewhere)]
      exact kept.generation i f there
  case inside =>
    intro g member
    have there : ∃ f, b.frames[g.index.toNat]? = some f := by
      rw [makes.frames]
      split
      · exact ⟨_, rfl⟩
      next other =>
        rcases List.mem_cons.mp member with rfl | old
        · exact absurd rfl other
        · exact ⟨_, Array.getElem?_eq_getElem (kept.inside g old)⟩
    obtain ⟨f, there⟩ := there
    exact (Array.getElem?_eq_some_iff.mp there).1
  case passed =>
    intro g member
    rcases List.mem_cons.mp member with rfl | old
    · exact Nat.le_of_eq gen
    · have fewer := (List.sublist_cons_self h issued).countP_le (p := (·.index = g.index))
      exact Nat.le_trans (kept.passed g old) fewer
  case valid =>
    intro g
    rw [makes.frame?]
    split
    next here =>
      subst here
      simpa using fun member => unissued (kept.known g member)
    next other =>
      rw [kept.valid g, List.mem_cons]
      simp [other]
  case counts =>
    intro g
    rw [references_eq balanced, references_eq balanced', List.count_cons]
    by_cases here : h = g <;> simp [here]

/-- The last reference to a frame is dropped. -/
theorem free (kept : Kept capacity a issued freed) (there : a.frame? h = some f)
    {f' : SharedFrame} (frames : b.frames = (a.setFrame h f').frames) (gen : f'.gen = f.gen)
    (dead : f'.live = false) (balanced : ∃ ledger, b.Balanced ledger)
    (same : b.capacity = a.capacity) (fewer : b.live ≤ a.live) :
    Kept capacity b issued (h :: freed) := by
  obtain ⟨found, alive, gen'⟩ := frame?_eq_some.mp there
  have inside := (Array.getElem?_eq_some_iff.mp found).1
  have listed : h ∈ issued := ((kept.valid h).mp (by simp [there])).1
  refine ⟨balanced, same.trans kept.limit, ?_, ?_, ?_, kept.passed, kept.once, ?_, ?_⟩
  · intro positive
    exact Int.le_trans fewer (kept.bounded positive)
  · intro i g found'
    rw [frames, setFrame_getElem? inside] at found'
    split at found'
    next here =>
      cases found'
      rw [gen]
      exact kept.generation i f (here ▸ found)
    · exact kept.generation i g found'
  · intro g member
    simpa [frames, setFrame] using kept.inside g member
  · intro g member
    rcases List.mem_cons.mp member with rfl | old
    · exact listed
    · exact kept.known g old
  · intro g
    have elsewhere := kept.valid g
    have after : b.frame? g = (a.setFrame h f').frame? g := frame?_congr (by rw [frames])
    rw [after, frame?_setFrame inside]
    split
    next slot =>
      rw [dead]
      by_cases here : g = h
      · simp [here]
      · have gens : f.gen ≠ g.gen := fun gens => here (by
          rw [gen'] at gens
          cases g
          cases h
          simp_all)
        rw [frame?_of_index found slot] at elsewhere
        simpa [gens, here] using elsewhere
    next other =>
      have apart : g ≠ h := fun here => other (by rw [here])
      rw [elsewhere]
      simp [apart]

theorem release (kept : Kept capacity a issued freed) (h : FrameHandle) :
    Kept capacity (a.release h).1 issued (freedBy [(h, (a.release h).2)] ++ freed) := by
  cases there : a.frame? h with
  | none =>
    have same : a.release h = (a, .stale) := by simp only [Arena.release, there]
    rw [same]
    exact kept
  | some f =>
    obtain ⟨ledger, balanced⟩ := kept.balanced
    have listed : h ∈ ledger := List.count_pos_iff.mp (balanced.refs_frame there).1
    have balanced' : (a.release h).1.Balanced (ledger.erase h) :=
      (balanced.congr fun g => (List.perm_cons_erase listed).symm.count_eq g).release
    simp only [Arena.release, there] at balanced' ⊢
    split at balanced'
    next more =>
      rw [if_pos more]
      exact kept.update there rfl (frame?_eq_some.mp there).2.1 ⟨_, balanced'⟩
    next last =>
      rw [if_neg last]
      exact kept.free there rfl rfl rfl ⟨_, balanced'⟩ rfl (Int.sub_le_self _ (by decide))

theorem releaseChain (kept : Kept capacity a issued freed) (chain : Chain) :
    Kept capacity (a.releaseChain chain).1 issued (freedBy (a.releaseChain chain).2 ++ freed) := by
  induction chain generalizing a freed with
  | nil => exact kept
  | cons h rest ih =>
    simp only [Arena.releaseChain]
    apply (ih (kept.release h)).congr (List.Perm.refl issued)
    intro g
    rw [show ∀ outcome outcomes, freedBy ((h, outcome) :: outcomes) =
      freedBy [(h, outcome)] ++ freedBy outcomes from
        fun outcome outcomes => List.filterMap_append (l := [(h, outcome)])]
    rw [List.mem_append, List.mem_append, List.mem_append, List.mem_append, or_assoc]
    exact or_left_comm

/-- Levels are built one by one. The invariant of the induction is that a handle
counts what it did before and once for each time it was taken. -/
theorem builds (kept : Kept capacity a issued freed) (builds : Builds a layers b more)
    (counts : ∀ h, a.references h + more.count h < UInt32.size / 2)
    (generations : ∀ i : UInt32, (issuedBy layers more ++ issued).countP (·.index = i) < UInt32.size)
    (slots : b.frames.size ≤ UInt32.size) : Kept capacity b (issuedBy layers more ++ issued) freed := by
  induction builds generalizing issued with
  | done => exact kept
  | @shared a b c h rest more retained later ih =>
    have room := counts h
    rw [List.count_cons_self] at room
    obtain ⟨kept', refs⟩ := kept.retain retained (by omega)
    refine ih kept' ?_ generations slots
    intro g
    have before := counts g
    rw [List.count_cons] at before
    rw [refs]
    by_cases here : h = g
    · simp [here] at before ⊢
      omega
    · simpa [here] using before
  | @fresh a b c h size rest more made later ih =>
    have perm : (issuedBy rest more ++ h :: issued).Perm (h :: (issuedBy rest more ++ issued)) :=
      List.perm_middle
    have few : (h :: issued).countP (·.index = h.index) < UInt32.size := by
      refine Nat.lt_of_le_of_lt (List.Sublist.countP_le ?_) (generations h.index)
      exact (List.sublist_append_right _ issued).cons_cons h
    obtain ⟨kept', refs⟩ := kept.alloc made few (Nat.le_trans later.size_le slots)
    refine (ih kept' ?_ ?_ slots).congr perm.symm fun _ => Iff.rfl
    · intro g
      have before := counts g
      rw [List.count_cons] at before
      rw [refs]
      by_cases here : h = g
      · simp [here] at before ⊢
        omega
      · simpa [here] using before
    · intro i
      rw [perm.countP_eq]
      exact generations i

/-- A request for levels, whether it succeeds or fails. -/
theorem attempt {acquired : Acquired Chain} {e : Effect} (kept : Kept capacity a issued freed)
    (attempt : Attempt a [] layers acquired) (effect : acquired.effect? layers id = some e)
    (admits : Life.Admits ⟨a, issued, freed⟩ e) :
    Kept capacity e.arena (e.issued ++ issued) (e.freed ++ freed) := by
  cases attempt with
  | made builds =>
    cases effect
    exact kept.builds builds admits.counts admits.generations admits.slots
  | @failed b c built rest more dropped error cut builds drops =>
    have handles := releaseChain_fst b more
    have size := size_releaseChain b more
    rw [List.nil_append] at drops
    rw [drops] at handles size
    cases effect
    obtain ⟨counts, generations, slots⟩ := admits
    simp only [handles, cut, issuedBy_append builds.length_eq, size] at counts generations slots ⊢
    have later := (kept.builds builds counts generations slots).releaseChain more
    rwa [drops] at later
  | broken => cases effect

theorem uses {e : Effect} (kept : Kept capacity a issued freed) (use : Use)
    (effect : use.effect? a = some e) (admits : Life.Admits ⟨a, issued, freed⟩ e) :
    Kept capacity e.arena (e.issued ++ issued) (e.freed ++ freed) := by
  cases use with
  | alloc size =>
    simp only [Use.effect?] at effect
    split at effect
    next b h made =>
      cases effect
      exact (kept.alloc made (admits.generations h.index) admits.slots).1
    · cases effect
      exact kept
    · cases effect
  | retain h =>
    simp only [Use.effect?] at effect
    split at effect
    next b retained =>
      cases effect
      have room := admits.counts h
      rw [List.count_singleton_self] at room
      exact (kept.retain retained room).1
    · cases effect
      exact kept
  | release h =>
    cases effect
    exact kept.release h
  | load h slot =>
    cases effect
    exact kept
  | refs h =>
    cases effect
    exact kept
  | store h slot v =>
    simp only [Use.effect?] at effect
    split at effect
    next stored =>
      cases effect
      exact kept.store stored
    · cases effect
      exact kept
  | overlay chain sizes => exact kept.attempt (overlayFrom_attempt a [] _) effect admits
  | retainChain chain =>
    refine kept.attempt (overlayFrom_attempt a [] (chain.map .shared)) ?_ admits
    rw [overlayFrom_shared, ← effect, Use.effect?, Arena.retainChain]
    cases a.retainFrom [] chain <;> rfl
  | releaseChain chain =>
    cases effect
    exact kept.releaseChain chain

end Kept

theorem Lives.kept {l : Life} (lives : Lives capacity l) :
    Kept capacity l.arena l.issued l.freed := by
  induction lives with
  | new => exact .new capacity
  | uses _ use effect admits ih => exact ih.uses use effect admits

/-- A handle that every operation answers as stale, and that none changes anything with. -/
structure Stale (a : Arena) (h : FrameHandle) : Prop where
  load : ∀ slot, a.load h slot = .error .stale
  store : ∀ slot v, a.store h slot v = .error .stale
  retain : a.retain? h = none
  release : a.release h = (a, .stale)
  refs : a.refs? h = none
  still : ∀ slot v, ∀ use ∈ [Use.load h slot, .store h slot v, .retain h, .release h, .refs h],
    use.effect? a = some { arena := a }

theorem Stale.of_frame? (gone : a.frame? h = none) : a.Stale h := by
  have load (slot : Int) : a.load h slot = .error .stale := by simp only [Arena.load, gone]
  have store (slot : Int) (v : Value) : a.store h slot v = .error .stale := by
    simp only [Arena.store, gone]
  have retain : a.retain? h = none := by simp only [Arena.retain?, gone, Option.map_none]
  have release : a.release h = (a, .stale) := by simp only [Arena.release, gone]
  refine ⟨load, store, retain, release, refs?_eq_none.mpr gone, ?_⟩
  intro slot v use member
  simp only [List.mem_cons, List.not_mem_nil, or_false] at member
  rcases member with rfl | rfl | rfl | rfl | rfl
  · rfl
  · simp only [Use.effect?, store]
  · simp only [Use.effect?, retain]
  · simp only [Use.effect?, release]
    rfl
  · rfl

theorem Kept.free_iff {issued freed : Chain} (kept : Kept capacity a issued freed) (i : Nat) :
    i ∈ a.free.map UInt32.toNat ↔ ∃ f, a.frames[i]? = some f ∧ f.live = false := by
  obtain ⟨ledger, balanced⟩ := kept.balanced
  constructor
  · intro member
    obtain ⟨j, free, rfl⟩ := List.mem_map.mp member
    exact (balanced.free_iff j).mp free
  · rintro ⟨f, there, dead⟩
    have inside := (Array.getElem?_eq_some_iff.mp there).1
    have place : i.toUInt32.toNat = i := by
      simpa using Nat.mod_eq_of_lt (Nat.lt_of_lt_of_le inside balanced.slots)
    refine List.mem_map.mpr ⟨i.toUInt32, (balanced.free_iff _).mpr ⟨f, ?_, dead⟩, place⟩
    rwa [place]

theorem Kept.refs_pos {issued freed : Chain} (kept : Kept capacity a issued freed)
    (member : f ∈ a.frames) (live : f.live = true) : 0 < f.refs := by
  obtain ⟨ledger, balanced⟩ := kept.balanced
  obtain ⟨i, inside, rfl⟩ := Array.getElem_of_mem member
  have place : i.toUInt32.toNat = i := by
    simpa using Nat.mod_eq_of_lt (Nat.lt_of_lt_of_le inside balanced.slots)
  have there : a.frame? ⟨i.toUInt32, a.frames[i].gen⟩ = some a.frames[i] :=
    frame?_eq_some.mpr ⟨by rw [place]; exact Array.getElem?_eq_getElem inside, live, rfl⟩
  obtain ⟨positive, refs⟩ := balanced.refs_frame there
  rw [Int32.lt_iff_toInt_lt, refs]
  exact Int.natCast_pos.mpr positive

/-- A frame with room is refused only at the capacity. -/
theorem alloc_eq_full_or_made (a : Arena) (room : isRoomFor size = true) :
    if a.isFull then a.alloc size = .full else ∃ b h, a.alloc size = .made b h := by
  unfold alloc
  split
  · rfl
  · simp only [room]
    exact ⟨_, _, rfl⟩

/-- Whatever is done with an arena, and with whatever handles: the free slots
are those without a live frame, each once; live frames are referred to, and are
as many as are counted, up to the capacity; a frame with room is refused exactly
when a capacity is reached; no handle is handed out twice; and those that are in
use are handed out and not freed, while freed ones stay stale for ever. -/
theorem lifelong_representation {l : Life} (lives : Lives capacity l) :
    l.arena.free.Nodup ∧
    (∀ i, i ∈ l.arena.free.map UInt32.toNat ↔
      ∃ f, l.arena.frames[i]? = some f ∧ f.live = false) ∧
    (∀ f ∈ l.arena.frames, f.live = true → 0 < f.refs) ∧
    l.arena.live = l.arena.frames.countP (·.live) ∧
    (0 < capacity → l.arena.live ≤ capacity) ∧
    (∀ size, isRoomFor size = true →
      if 0 < capacity ∧ l.arena.live = capacity then l.arena.alloc size = .full
      else ∃ b h, l.arena.alloc size = .made b h) ∧
    l.issued.Nodup ∧
    (∀ h, (l.arena.frame? h).isSome ↔ h ∈ l.issued ∧ h ∉ l.freed) ∧
    ∀ h ∈ l.freed, l.arena.Stale h := by
  have kept := lives.kept
  obtain ⟨ledger, balanced⟩ := kept.balanced
  refine ⟨balanced.free_nodup, kept.free_iff, fun f => kept.refs_pos, balanced.live, kept.bounded,
    ?_, kept.once, kept.valid, ?_⟩
  · intro size room
    have reached : l.arena.isFull = true ↔ 0 < capacity ∧ l.arena.live = capacity := by
      simp only [isFull, kept.limit, Bool.and_eq_true, decide_eq_true_eq]
      constructor
      · rintro ⟨positive, below⟩
        exact ⟨positive, Int.le_antisymm (kept.bounded positive) below⟩
      · rintro ⟨positive, same⟩
        exact ⟨positive, Int.le_of_eq same.symm⟩
    have outcome := l.arena.alloc_eq_full_or_made room
    simpa only [reached] using outcome
  · intro h freed
    apply Stale.of_frame?
    rw [← Option.not_isSome_iff_eq_none, kept.valid]
    exact fun both => both.2 freed

/-- Few references and frames are always within the counters. -/
theorem Life.Admits.of_few {l : Life} {e : Effect}
    (refs : ∀ f ∈ l.arena.frames, f.refs.toInt ≤ UInt32.size / 4)
    (taken : e.taken.length < UInt32.size / 4)
    (issued : (e.issued ++ l.issued).length < UInt32.size)
    (slots : e.arena.frames.size ≤ UInt32.size) : l.Admits e := by
  refine ⟨?_, fun i => Nat.lt_of_le_of_lt List.countP_le_length issued, slots⟩
  intro h
  have counted := List.count_le_length (a := h) (l := e.taken)
  have most : l.arena.references h ≤ UInt32.size / 4 := by
    unfold references refs?
    cases there : l.arena.frame? h with
    | none => decide
    | some f => exact refs f (Array.mem_of_getElem? (frame?_eq_some.mp there).1)
  omega

/-- An arena for two frames after a frame was made and freed, a handle that never
was is dropped, and two levels are built, the first in the slot of the freed frame. -/
def reused : Life where
  arena :=
    { frames := #[⟨#[.void], 2, 1, true⟩, ⟨#[.void, .void], 1, 1, true⟩], live := 2, capacity := 2 }
  issued := [⟨0, 2⟩, ⟨1, 1⟩, ⟨0, 1⟩]
  freed := [⟨0, 1⟩]

theorem reused_representation :
    Lives 2 reused ∧ reused.arena.alloc 1 = .full ∧ reused.arena.Stale ⟨0, 1⟩ ∧
      (reused.arena.frame? ⟨0, 2⟩).isSome := by
  have start : Lives 2 ⟨{ capacity := 2 }, [], []⟩ := .new
  have made := start.uses (.alloc 3) rfl (.of_few (by decide) (by decide) (by decide) (by decide))
  have freed := made.uses (.release ⟨0, 1⟩) rfl
    (.of_few (by decide) (by decide) (by decide) (by decide))
  have forged := freed.uses (.release ⟨7, 7⟩) rfl
    (.of_few (by decide) (by decide) (by decide) (by decide))
  have lives : Lives 2 reused := forged.uses (.overlay [] [1, 2]) rfl
    (.of_few (by decide) (by decide) (by decide) (by decide))
  obtain ⟨-, -, -, -, -, full, -, valid, stale⟩ := lifelong_representation lives
  exact ⟨lives, full 1 (by decide), stale _ (by decide), (valid _).mpr (by decide)⟩

/-- A frame without room is left live and uncounted. -/
theorem oversized_uncounted :
    ∃ b, alloc {} 9007199254740992 = .broken b ∧ b.refs? ⟨0, 1⟩ = some 1 ∧
      b.live ≠ b.frames.countP (·.live) :=
  ⟨_, rfl, rfl, by decide⟩

end Arena
end ScriptEngine
