import ScriptEngine.Proofs.ArenaHistory
import ScriptEngine.Proofs.FrameBacking

/-! Requests for chains, as whoever asks sees them. A chain that is laid over
another shares its levels or has new ones, and dropping it leaves no more behind
than a request that fails: nothing. Both rest on one fact, that what was taken level
by level can be dropped in the same order, however often a handle is among it. -/
namespace ScriptEngine
namespace Arena

variable {a b c : Arena} {h g : FrameHandle} {f : SharedFrame} {size : Int}
  {layers rest : List Layer} {chain out more : Chain} {sizes : List Int}
  {ledger : List FrameHandle} {dropped : List (FrameHandle × Release)} {error : ArenaError}

/-! ### Regular arenas -/

/-- What an arena keeps to: free slots are those without a live frame, each once,
live frames are referred to, and all of them are counted. -/
structure Regular (a : Arena) : Prop where
  slots : a.frames.size ≤ UInt32.size
  free_nodup : a.free.Nodup
  free_iff : ∀ i : UInt32, i ∈ a.free ↔ ∃ f, a.frames[i.toNat]? = some f ∧ f.live = false
  live : a.live = a.frames.countP (·.live)
  positive : ∀ f ∈ a.frames, f.live = true → 0 < f.refs

theorem Lives.regular {capacity : Int} {l : Life} (lives : Lives capacity l) : l.arena.Regular := by
  obtain ⟨ledger, balanced⟩ := lives.kept.balanced
  exact ⟨balanced.slots, balanced.free_nodup, balanced.free_iff, balanced.live,
    fun _ => lives.kept.refs_pos⟩

/-- As many references to the occupant of a slot as it counts. -/
def entries (a : Arena) (i : Nat) : List FrameHandle :=
  match a.frames[i]? with
  | some f => if f.live then List.replicate f.refs.toInt.toNat ⟨i.toUInt32, f.gen⟩ else []
  | none => []

theorem count_entries {i : Nat} (inside : i < UInt32.size) (h : FrameHandle) :
    (a.entries i).count h =
      if h.index.toNat = i then (a.frame? h).elim 0 (·.refs.toInt.toNat) else 0 := by
  have place : i.toUInt32.toNat = i := by simpa using Nat.mod_eq_of_lt inside
  by_cases here : h.index.toNat = i
  · subst here
    rw [if_pos rfl, entries, frame?]
    cases a.frames[h.index.toNat]? with
    | none => rfl
    | some f =>
      have same : (⟨h.index.toNat.toUInt32, f.gen⟩ : FrameHandle) = h ↔ f.gen = h.gen := by
        cases h
        simp
      cases live : f.live with
      | false => simp [live]
      | true =>
        simp only [live, if_true, List.count_replicate, beq_iff_eq, same, true_and]
        split <;> rfl
  · rw [if_neg here, List.count_eq_zero, entries]
    intro member
    split at member
    · split at member
      · have same := (List.mem_replicate.mp member).2
        exact here (by rw [same]; exact place)
      · cases member
    · cases member

/-- The references that the frames of an arena count can be listed. -/
theorem Regular.balanced (regular : a.Regular) : ∃ ledger, a.Balanced ledger := by
  have listed (h : FrameHandle) (n : Nat) (inside : n ≤ UInt32.size) :
      ((List.range n).flatMap a.entries).count h =
        if h.index.toNat < n then (a.frame? h).elim 0 (·.refs.toInt.toNat) else 0 := by
    induction n with
    | zero => simp
    | succ n ih =>
      rw [List.range_succ, List.flatMap_append, List.count_append, ih (by omega),
        List.flatMap_singleton, count_entries (by omega)]
      split <;> split <;> split <;> omega
  refine ⟨(List.range a.frames.size).flatMap a.entries, regular.slots, regular.free_nodup,
    regular.free_iff, regular.live, fun h => ?_⟩
  rw [listed h _ regular.slots, refs?]
  cases there : a.frame? h with
  | none => simp [counted]
  | some f =>
    obtain ⟨found, live, -⟩ := frame?_eq_some.mp there
    have inside := (Array.getElem?_eq_some_iff.mp found).1
    have positive := regular.positive f (Array.mem_of_getElem? found) live
    rw [Int32.lt_iff_toInt_lt, Int32.toInt_zero] at positive
    rw [if_pos inside]
    exact (counted_eq_some.mpr ⟨by simp only [Option.elim_some]; omega,
      by simp only [Option.elim_some]; omega⟩).symm

/-! ### Levels that are built -/

theorem Each.live (grows : Each SharedFrame.Grows a b) (there : (a.frame? h).isSome = true) :
    (b.frame? h).isSome = true := by
  obtain ⟨f, there⟩ := Option.isSome_iff_exists.mp there
  obtain ⟨found, live, gen⟩ := frame?_eq_some.mp there
  obtain ⟨k, found', ⟨stays, kept⟩ | ⟨⟨dead, -⟩, -⟩⟩ := grows _ f found
  · rw [frame?_eq_some.mpr ⟨found', kept live, stays.1.trans gen⟩]
    rfl
  · rw [live] at dead
    cases dead

theorem Builds.level (builds : Builds a layers b more) (tidy : a.Tidy)
    (slots : b.frames.size ≤ UInt32.size) {i : Nat} (asked : layers[i]? = some (.fresh size))
    (got : more[i]? = some h) : a.Fresh b size h := by
  obtain ⟨below, same⟩ := List.getElem?_eq_some_iff.mp asked
  obtain ⟨below', same'⟩ := List.getElem?_eq_some_iff.mp got
  have level := (builds.levels tidy slots).get below below'
  rwa [List.get_eq_getElem, List.get_eq_getElem, same, same'] at level

/-- A frame that is there stays as it is while levels are built, and counts each of
them that shares it. -/
theorem Builds.frame?_shared (builds : Builds a layers b more) (tidy : a.Tidy)
    (slots : b.frames.size ≤ UInt32.size) (there : a.frame? h = some f) :
    b.frame? h =
      some { f with refs := f.refs + .ofNat ((layers.filterMap Layer.handle?).count h) } := by
  induction builds generalizing f with
  | done => simpa using there
  | @shared a b c g rest more retained later ih =>
    obtain ⟨k, found, rfl⟩ := Option.map_eq_some_iff.mp retained
    have after := frame?_update (n := { k with refs := k.refs + 1 }) found rfl h
    rw [if_pos (frame?_eq_some.mp found).2.1] at after
    simp only [List.filterMap_cons, Layer.handle?, List.count_cons]
    by_cases here : h = g
    · subst here
      cases found.symm.trans there
      rw [ih (retain_grows tidy retained).2 slots (by rw [after, if_pos rfl])]
      simp only [beq_self_eq_true, if_true, Nat.add_comm _ 1, Int32.ofNat_add, Int32.add_assoc]
      rfl
    · rw [ih (retain_grows tidy retained).2 slots (by rw [after, if_neg here, there])]
      simp [Ne.symm here]
  | @fresh a b c g size rest more made later ih =>
    have fits := Nat.le_trans later.size_le slots
    obtain ⟨old, makes⟩ := alloc_makes tidy made fits
    have other : h ≠ g := by
      rintro rfl
      rw [makes.stale rfl] at there
      cases there
    exact ih (alloc_grows tidy (by rw [made]; rfl) fits).2 slots
      (by rw [makes.frame?, if_neg other, there])

/-- A new level has one reference and nothing in its slots, if what is shared was
there before. -/
theorem Builds.frame?_fresh (builds : Builds a layers b more) (tidy : a.Tidy)
    (slots : b.frames.size ≤ UInt32.size)
    (live : ∀ h ∈ layers.filterMap Layer.handle?, (a.frame? h).isSome = true) {i : Nat}
    (asked : layers[i]? = some (.fresh size)) (got : more[i]? = some h) :
    b.frame? h = some (blank size h) := by
  induction builds generalizing i with
  | done => cases asked
  | @shared a b c g rest more retained later ih =>
    obtain ⟨grows, tidy⟩ := retain_grows tidy retained
    simp only [List.filterMap_cons, Layer.handle?, List.forall_mem_cons] at live
    cases i with
    | zero => cases asked
    | succ i => exact ih tidy slots (fun k member => grows.live (live.2 k member)) asked got
  | @fresh a b c g size rest more made later ih =>
    have fits := Nat.le_trans later.size_le slots
    obtain ⟨grows, tidy'⟩ := alloc_grows tidy (by rw [made]; rfl) fits
    simp only [List.filterMap_cons, Layer.handle?] at live
    cases i with
    | zero =>
      cases asked
      cases got
      obtain ⟨old, makes⟩ := alloc_makes tidy made fits
      have unshared : (rest.filterMap Layer.handle?).count h = 0 := by
        refine List.count_eq_zero.mpr fun member => ?_
        have there := live h member
        rw [makes.stale rfl] at there
        cases there
      rw [later.frame?_shared tidy' slots (by rw [makes.frame?, if_pos rfl]), unshared]
      rfl
    | succ i => exact ih tidy' slots (fun k member => grows.live (live k member)) asked got

theorem Builds.shared_level (builds : Builds a layers b more) {i : Nat}
    (asked : layers[i]? = some (.shared h)) : more[i]? = some h := by
  induction builds generalizing i with
  | done => cases asked
  | shared retained later ih =>
    cases i with
    | zero => cases asked; rfl
    | succ i => exact ih asked
  | fresh made later ih =>
    cases i with
    | zero => cases asked
    | succ i => exact ih asked

theorem Builds.count_shared (builds : Builds a layers b more) (tidy : a.Tidy)
    (slots : b.frames.size ≤ UInt32.size) (there : (a.frame? h).isSome = true) :
    more.count h = (layers.filterMap Layer.handle?).count h := by
  induction builds with
  | done => rfl
  | shared retained later ih =>
    obtain ⟨grows, tidy⟩ := retain_grows tidy retained
    simp only [List.filterMap_cons, Layer.handle?, List.count_cons, ih tidy slots (grows.live there)]
  | @fresh a b c g size rest more made later ih =>
    have fits := Nat.le_trans later.size_le slots
    obtain ⟨grows, tidy'⟩ := alloc_grows tidy (by rw [made]; rfl) fits
    obtain ⟨old, makes⟩ := alloc_makes tidy made fits
    have other : g ≠ h := by
      rintro rfl
      rw [makes.stale rfl] at there
      cases there
    simp only [List.filterMap_cons, Layer.handle?, List.count_cons_of_ne other,
      ih tidy' slots (grows.live there)]

theorem Builds.distinct (builds : Builds a layers b more) (tidy : a.Tidy)
    (slots : b.frames.size ≤ UInt32.size) {i j : Nat} {size size' : Int}
    (first : layers[i]? = some (.fresh size)) (second : layers[j]? = some (.fresh size'))
    (got : more[i]? = some h) (got' : more[j]? = some h) : i = j := by
  induction builds generalizing i j with
  | done => cases first
  | @shared a b c g rest more retained later ih =>
    cases i with
    | zero => cases first
    | succ i =>
      cases j with
      | zero => cases second
      | succ j => exact congrArg _ (ih (retain_grows tidy retained).2 slots first second got got')
  | @fresh a b c g size rest more made later ih =>
    have fits := Nat.le_trans later.size_le slots
    have tidy' := (alloc_grows tidy (by rw [made]; rfl) fits).2
    obtain ⟨old, makes⟩ := alloc_makes tidy made fits
    -- A handle that is given later was stale when the first level had its own.
    have later_ne {k : Nat} {size : Int} (asked : rest[k]? = some (.fresh size)) :
        more[k]? ≠ some g := by
      intro got
      have stale : b.frame? g = none := (later.level tidy' slots asked got).stale
      rw [makes.frame?, if_pos rfl] at stale
      cases stale
    cases i with
    | zero =>
      cases j with
      | zero => rfl
      | succ j =>
        cases got
        exact absurd got' (later_ne second)
    | succ i =>
      cases j with
      | zero =>
        cases got'
        exact absurd got (later_ne first)
      | succ j => exact congrArg _ (ih tidy' slots first second got got')

/-! ### Dropping what was taken -/

theorem Balanced.builds (balanced : a.Balanced ledger) (builds : Builds a layers b more)
    (counts : ∀ h, (ledger.count h + more.count h : Int) < UInt32.size / 2)
    (slots : b.frames.size ≤ UInt32.size) : b.Balanced (more ++ ledger) := by
  have max : Int32.maxValue.toInt = UInt32.size / 2 - 1 := by decide
  induction builds generalizing ledger with
  | done => exact balanced
  | @shared a b c g rest more retained later ih =>
    have room := counts g
    rw [List.count_cons_self] at room
    obtain ⟨balanced, -⟩ := balanced.retain retained (by rw [max]; omega)
    refine (ih balanced (fun k => ?_) slots).congr fun k => ?_
    · have limit := counts k
      simp only [List.count_cons] at limit ⊢
      omega
    · simp only [List.cons_append, List.count_cons, List.count_append]
      omega
  | @fresh a b c g size rest more made later ih =>
    have balanced := balanced.made made (Nat.le_trans later.size_le slots)
    refine (ih balanced (fun k => ?_) slots).congr fun k => ?_
    · have limit := counts k
      simp only [List.count_cons] at limit ⊢
      omega
    · simp only [List.cons_append, List.count_cons, List.count_append]
      omega

/-- Whatever was taken level by level, dropping all of it leaves the frames as they
were. -/
theorem Balanced.restored (balanced : a.Balanced ledger) (builds : Builds a layers b more)
    (counts : ∀ h, a.references h + more.count h < UInt32.size / 2)
    (slots : b.frames.size ≤ UInt32.size) :
    (∀ h, (b.releaseChain more).1.frame? h = a.frame? h) ∧ (b.releaseChain more).1.live = a.live := by
  have full : b.Balanced (more ++ ledger) := by
    refine balanced.builds builds (fun h => ?_) slots
    rw [← Kept.references_eq balanced]
    exact counts h
  have emptied : (b.releaseChain more).1.Balanced ledger := full.releaseChain
  refine ⟨fun h => ?_, emptied.live_eq balanced⟩
  cases there : a.frame? h with
  | none => exact emptied.frame?_eq_none.mpr (balanced.frame?_eq_none.mp there)
  | some f =>
    obtain ⟨positive, refs⟩ := balanced.refs_frame there
    obtain ⟨k, there'⟩ := emptied.exists_frame (List.count_pos_iff.mp positive)
    obtain ⟨found, live, gen⟩ := frame?_eq_some.mp there
    obtain ⟨found', live', gen'⟩ := frame?_eq_some.mp there'
    -- What the frame holds is followed through its slot, what it counts through the ledger.
    have contents : k.slots = f.slots := by
      obtain ⟨m, middle, ⟨stays, -⟩ | ⟨⟨dead, -⟩, -⟩⟩ := builds.grows balanced.tidy slots _ f found
      · obtain ⟨k', last, stays'⟩ := (releaseChain_stays full.tidy more).1 _ m middle
        cases found'.symm.trans last
        obtain ⟨alive, same⟩ := stays'.2 live'
        exact same.trans (stays.2 alive).2
      · rw [live] at dead
        cases dead
    have count : k.refs = f.refs :=
      Int32.toInt_inj.mp ((emptied.refs_frame there').2.trans refs.symm)
    rw [there', Option.some.injEq]
    cases k
    cases f
    simp_all

/-! ### Chains that are laid over others -/

/-- A handle that never was good: its slot has not come to that occupant, and nothing
that was done to get here handed it out. -/
structure Unused (a : Arena) (h : FrameHandle) : Prop where
  unissued : ¬a.Issued h
  history : ∀ capacity issued freed, Lives capacity ⟨a, issued, freed⟩ → h ∉ issued

theorem Kept.issued {capacity : Int} {issued freed : Chain} (kept : Kept capacity a issued freed)
    (member : h ∈ issued) : a.Issued h := by
  have inside := kept.inside h member
  refine ⟨a.frames[h.index.toNat], Array.getElem?_eq_getElem inside, ?_⟩
  rw [UInt32.le_iff_toNat_le, kept.generation h.index _ (Array.getElem?_eq_getElem inside)]
  exact kept.passed h member

theorem Unused.of_unissued (unissued : ¬a.Issued h) : a.Unused h :=
  ⟨unissued, fun _ _ _ lives member => unissued (lives.kept.issued member)⟩

/-- The levels that a chain does not share with the one it is laid over: the innermost
declared one, and those that the other lacks. -/
def IsOwnLevel (chain : Chain) (sizes : List Int) (i : Nat) : Prop :=
  chain.length ≤ i ∨ i + 1 = sizes.length

/-- How many levels share a handle. -/
def sharings (chain : Chain) (sizes : List Int) (h : FrameHandle) : Nat :=
  (List.range chain.length).countP fun i => chain[i]? = some h ∧ i + 1 ≠ sizes.length

/-- What a chain is that was laid over another. -/
structure Overlaid (a b : Arena) (chain : Chain) (sizes : List Int) (out : Chain) : Prop where
  length : out.length = max chain.length sizes.length
  shared : ∀ i h, chain[i]? = some h → i + 1 ≠ sizes.length → out[i]? = some h
  /-- An own level has a handle that never was good, one reference, and void slots. -/
  own : ∀ i h, IsOwnLevel chain sizes i → out[i]? = some h →
    a.Unused h ∧ ∃ size, sizes[i]? = some size ∧ b.frame? h = some (blank size h)
  distinct : ∀ i j h, IsOwnLevel chain sizes i → IsOwnLevel chain sizes j →
    out[i]? = some h → out[j]? = some h → i = j
  /-- The frames that were there hold what they held, and count what they counted and
  one for each level that shares them. -/
  frames : ∀ h f, a.frame? h = some f →
    b.frame? h = some { f with refs := f.refs + .ofNat (sharings chain sizes h) }

theorem layers_shared {i : Nat} (there : chain[i]? = some h) (other : i + 1 ≠ sizes.length) :
    (Arena.layers chain sizes)[i]? = some (.shared h) := by
  have inside := (List.getElem?_eq_some_iff.mp there).1
  have below : i < max chain.length sizes.length := by omega
  simp only [Arena.layers, List.getElem?_map, List.getElem?_range below, Option.map_some, there,
    if_neg other]

theorem layers_own {i : Nat} (own : IsOwnLevel chain sizes i)
    (below : i < max chain.length sizes.length) :
    ∃ size, sizes[i]? = some size ∧ (Arena.layers chain sizes)[i]? = some (.fresh size) := by
  have declared : i < sizes.length := by
    unfold IsOwnLevel at own
    omega
  refine ⟨sizes[i], List.getElem?_eq_getElem declared, ?_⟩
  have size : sizes.getD i 0 = sizes[i] := by
    rw [List.getD_eq_getElem?_getD, List.getElem?_eq_getElem declared, Option.getD_some]
  rw [Arena.layers, List.getElem?_map, List.getElem?_range below, Option.map_some, size]
  rcases own with beyond | last
  · rw [List.getElem?_eq_none beyond]
  · split
    · rw [if_pos last]
    · rfl

theorem count_handles (chain : Chain) (sizes : List Int) (h : FrameHandle) :
    ((Arena.layers chain sizes).filterMap Layer.handle?).count h = sharings chain sizes h := by
  obtain ⟨more, whole⟩ := Nat.exists_eq_add_of_le (Nat.le_max_left chain.length sizes.length)
  let shares (i : Nat) : Bool := chain[i]? = some h ∧ i + 1 ≠ sizes.length
  have beyond : ((List.range more).map (chain.length + ·)).countP shares = 0 := by
    simp [List.countP_eq_zero, shares]
  rw [List.count_filterMap, Arena.layers, List.countP_map]
  calc
    _ = (List.range (max chain.length sizes.length)).countP shares := by
      refine List.countP_congr fun i _ => ?_
      simp only [Function.comp_apply, beq_iff_eq, shares, decide_eq_true_eq]
      cases chain[i]? with
      | none => simp [Layer.handle?]
      | some g =>
        dsimp only
        split <;> simp [Layer.handle?, *]
    _ = (List.range chain.length).countP shares := by
      rw [whole, List.range_add, List.countP_append, beyond, Nat.add_zero]

/-- Two arenas with the same frames under the same handles, and as many of them. -/
structure Undisturbed (a c : Arena) : Prop where
  frames : ∀ h, c.frame? h = a.frame? h
  live : c.live = a.live

/-- A chain that is laid over one of live frames is what it should be, as long as slots
and their occupants can be told apart. If references can be counted too, each frame that
was there counts the levels that share it, and dropping the chain puts all of them back
to where they were. -/
theorem overlaid_chain (regular : a.Regular) (chain : Chain) (sizes : List Int)
    (live : ∀ h ∈ chain, (a.frame? h).isSome = true)
    (made : a.overlay chain sizes = .made b out) (ages : a.Ages b) :
    Overlaid a b chain sizes out ∧
    ((∀ h, a.references h + out.count h < UInt32.size / 2) →
      (∀ h, (a.frame? h).isSome = true →
        b.references h = a.references h + sharings chain sizes h) ∧
      Undisturbed a (b.releaseChain out).1) := by
  obtain ⟨ledger, balanced⟩ := regular.balanced
  have tidy := balanced.tidy
  have slots := ages.slots
  have builds := overlay_builds made
  have length : out.length = max chain.length sizes.length := by
    rw [builds.length_eq, Arena.layers, List.length_map, List.length_range]
  have asked {i : Nat} {h : FrameHandle} (own : IsOwnLevel chain sizes i) (got : out[i]? = some h) :=
    layers_own own (length ▸ (List.getElem?_eq_some_iff.mp got).1)
  constructor
  · constructor
    case length => exact length
    case shared => exact fun i h there other => builds.shared_level (layers_shared there other)
    case own =>
      intro i h own got
      obtain ⟨size, declared, fresh⟩ := asked own got
      refine ⟨.of_unissued ((builds.level tidy slots fresh got).unissued ages), size, declared, ?_⟩
      refine builds.frame?_fresh tidy slots (fun g member => live g ?_) fresh got
      obtain ⟨layer, member, same⟩ := List.mem_filterMap.mp member
      cases layer with
      | shared k => exact Option.some.inj same ▸ shared_mem_layers member
      | fresh => cases same
    case distinct =>
      intro i j h own own' got got'
      obtain ⟨_, -, fresh⟩ := asked own got
      obtain ⟨_, -, fresh'⟩ := asked own' got'
      exact builds.distinct tidy slots fresh fresh' got got'
    case frames =>
      intro h f there
      rw [builds.frame?_shared tidy slots there, count_handles]
  · intro counts
    have restored := balanced.restored builds counts slots
    refine ⟨fun h there => ?_, restored.1, restored.2⟩
    have after : b.Balanced (out ++ ledger) :=
      balanced.builds builds (fun g => Kept.references_eq balanced g ▸ counts g) slots
    rw [Kept.references_eq after, Kept.references_eq balanced, List.count_append,
      builds.count_shared tidy slots there, count_handles]
    omega

/-- An arena for two frames in which the first slot was used before, and the second
holds a frame. -/
def tenanted : Arena where
  frames := #[⟨#[], 1, 0, false⟩, ⟨#[.void], 1, 1, true⟩]
  free := [0]
  live := 1
  capacity := 2

theorem lives_tenanted : Lives 2 ⟨tenanted, [⟨1, 1⟩, ⟨0, 1⟩], [⟨0, 1⟩]⟩ := by
  have start : Lives 2 ⟨{ capacity := 2 }, [], []⟩ := .new
  have made := start.uses (.alloc 2) rfl (.of_few (by decide) (by decide) (by decide) (by decide))
  have again := made.uses (.alloc 1) rfl (.of_few (by decide) (by decide) (by decide) (by decide))
  exact again.uses (.release ⟨0, 1⟩) rfl (.of_few (by decide) (by decide) (by decide) (by decide))

theorem tenanted_counts {taken : Chain} (few : taken.length < UInt32.size / 4) (h : FrameHandle) :
    tenanted.references h + taken.count h < UInt32.size / 2 :=
  (Life.Admits.of_few (l := ⟨tenanted, [], []⟩) (e := { arena := tenanted, taken }) (by decide) few
    (show 0 < UInt32.size by decide) (show 2 ≤ UInt32.size by decide)).counts h

/-- The frame three times over, with its second level replaced. -/
theorem tenanted_overlaid :
    ∃ b, tenanted.overlay [⟨1, 1⟩, ⟨1, 1⟩, ⟨1, 1⟩] [5, 2] = .made b [⟨1, 1⟩, ⟨0, 2⟩, ⟨1, 1⟩] ∧
      Overlaid tenanted b [⟨1, 1⟩, ⟨1, 1⟩, ⟨1, 1⟩] [5, 2] [⟨1, 1⟩, ⟨0, 2⟩, ⟨1, 1⟩] ∧
      b.references ⟨1, 1⟩ = 1 + 2 ∧
      Undisturbed tenanted (b.releaseChain [⟨1, 1⟩, ⟨0, 2⟩, ⟨1, 1⟩]).1 := by
  obtain ⟨overlaid, counted⟩ := overlaid_chain lives_tenanted.regular
    [⟨1, 1⟩, ⟨1, 1⟩, ⟨1, 1⟩] [5, 2] (by decide) rfl (by decide)
  obtain ⟨rises, restored⟩ := counted (tenanted_counts (by decide))
  exact ⟨_, rfl, overlaid, rises ⟨1, 1⟩ rfl, restored⟩

/-! ### Requests that fail -/

theorem overlayFrom_error {taken : Chain}
    (failed : a.overlayFrom taken layers = .failed c dropped error) :
    error = .full ∨ error = .stale := by
  induction layers generalizing a taken with
  | nil => cases failed
  | cons layer rest ih =>
    cases layer with
    | shared h =>
      rw [overlayFrom] at failed
      split at failed
      · exact ih failed
      · cases failed
        exact .inr rfl
    | fresh size =>
      rw [overlayFrom] at failed
      split at failed
      · exact ih failed
      · cases failed
        exact .inl rfl
      · cases failed

theorem retainFrom_error {taken : Chain}
    (failed : a.retainFrom taken chain = .failed c dropped error) : error = .stale := by
  induction chain generalizing a taken with
  | nil => cases failed
  | cons h rest ih =>
    rw [retainFrom] at failed
    split at failed
    · exact ih failed
    · cases failed
      rfl

theorem Balanced.undisturbed (balanced : a.Balanced ledger)
    (failed : a.overlayFrom [] layers = .failed c dropped error)
    (counts : ∀ h, a.references h + (dropped.map Prod.fst).count h < UInt32.size / 2)
    (slots : c.frames.size ≤ UInt32.size) : Undisturbed a c := by
  have attempt := overlayFrom_attempt a [] layers
  rw [failed] at attempt
  cases attempt with
  | @failed b _ built rest more _ _ cut builds drops =>
    rw [List.nil_append] at drops
    have handles := releaseChain_fst b more
    have size := size_releaseChain b more
    rw [drops] at handles size
    rw [handles] at counts
    have restored := balanced.restored builds counts (size ▸ slots)
    rw [drops] at restored
    exact ⟨restored.1, restored.2⟩

/-- A request for a chain that fails, with whatever handles, leaves the arena as it was
found: the same handles are good, and their frames count and hold the same. -/
theorem failed_request_untraced (regular : a.Regular) (chain : Chain) (sizes : List Int)
    (c : Arena) (dropped : List (FrameHandle × Release)) (error : ArenaError)
    (counts : ∀ h, a.references h + (dropped.map Prod.fst).count h < UInt32.size / 2)
    (slots : c.frames.size ≤ UInt32.size) :
    (a.overlay chain sizes = .failed c dropped error →
      (error = .full ∨ error = .stale) ∧ Undisturbed a c) ∧
    (a.retainChain chain = .failed c dropped error → error = .stale ∧ Undisturbed a c) := by
  obtain ⟨ledger, balanced⟩ := regular.balanced
  refine ⟨fun failed => ⟨overlayFrom_error failed, balanced.undisturbed failed counts slots⟩,
    fun failed => ⟨retainFrom_error failed, ?_⟩⟩
  have shared := overlayFrom_shared a [] chain
  rw [show a.retainFrom [] chain = .failed c dropped error from failed] at shared
  exact balanced.undisturbed shared counts slots

/-- The same arena after its first slot was used once more. -/
def vacated : Arena := { tenanted with frames := #[⟨#[], 2, 0, false⟩, ⟨#[.void], 1, 1, true⟩] }

/-- The new frame has the handle that the second level asks for before it is good, and
the third level is refused. So is a third frame, and a reference to a frame that is gone. -/
theorem tenanted_untraced :
    (tenanted.overlay [⟨1, 1⟩, ⟨0, 2⟩, ⟨0, 1⟩] [4] =
        .failed vacated [(⟨0, 2⟩, .kept), (⟨0, 2⟩, .freed)] .stale ∧
      Undisturbed tenanted vacated) ∧
    (tenanted.overlay [⟨1, 1⟩] [1, 2, 3] =
        .failed vacated [(⟨1, 1⟩, .kept), (⟨0, 2⟩, .freed)] .full ∧
      Undisturbed tenanted vacated) ∧
    tenanted.retainChain [⟨1, 1⟩, ⟨1, 1⟩, ⟨0, 1⟩] =
        .failed tenanted [(⟨1, 1⟩, .kept), (⟨1, 1⟩, .kept)] .stale ∧
      Undisturbed tenanted tenanted := by
  have forged := failed_request_untraced lives_tenanted.regular [⟨1, 1⟩, ⟨0, 2⟩, ⟨0, 1⟩] [4] vacated
    [(⟨0, 2⟩, .kept), (⟨0, 2⟩, .freed)] .stale (tenanted_counts (by decide)) (by decide)
  have crowded := failed_request_untraced lives_tenanted.regular [⟨1, 1⟩] [1, 2, 3] vacated
    [(⟨1, 1⟩, .kept), (⟨0, 2⟩, .freed)] .full (tenanted_counts (by decide)) (by decide)
  have gone := failed_request_untraced lives_tenanted.regular [⟨1, 1⟩, ⟨1, 1⟩, ⟨0, 1⟩] [] tenanted
    [(⟨1, 1⟩, .kept), (⟨1, 1⟩, .kept)] .stale (tenanted_counts (by decide)) (by decide)
  exact ⟨⟨rfl, (forged.1 rfl).2⟩, ⟨rfl, (crowded.1 rfl).2⟩, rfl, (gone.2 rfl).2⟩

end Arena
end ScriptEngine
