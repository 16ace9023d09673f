import ScriptEngine.Proofs.FrameEffects
import ScriptEngine.Proofs.Session

/-! Frames that are kept. An arena backs a list of references when it counts at
least these, and perhaps more that nobody accounts for. Whoever drops only
references of their own leaves those of the others backed, so the frames of a
running block stay for as long as it runs. -/
namespace ScriptEngine

namespace Arena

variable {a b : Arena} {h g : FrameHandle} {f f' : SharedFrame} {ledger ledger' : List FrameHandle}

/-- An arena counts at least the references that a ledger lists. -/
structure Backs (a : Arena) (ledger : List FrameHandle) : Prop where
  tidy : a.Tidy
  slots : a.frames.size ≤ UInt32.size
  counts : ∀ h f, a.frame? h = some f → 0 < f.refs.toInt ∧ (ledger.count h : Int) ≤ f.refs.toInt
  listed : ∀ h ∈ ledger, ∃ f, a.frame? h = some f

/-- References that are asked for can be counted, and slots told apart. A frame
that is not there counts as one that is new. -/
structure Bears (a : Arena) (demand : Demand) : Prop where
  counts : ∀ h, ((a.refs? h).elim 1 Int32.toInt + demand.chain.count h : Int) ≤
    Int32.maxValue.toInt
  slots : a.frames.size + demand.fresh.length ≤ UInt32.size

/-- Few references can always be counted. -/
theorem Bears.of_few {demand : Demand} {k : Int} (counts : ∀ f ∈ a.frames.toList, f.refs.toInt ≤ k)
    (one : 1 ≤ k) (few : k + demand.chain.length ≤ Int32.maxValue.toInt)
    (slots : a.frames.size + demand.fresh.length ≤ UInt32.size) : Bears a demand := by
  refine ⟨fun h => ?_, slots⟩
  have asked := List.count_le_length (a := h) (l := demand.chain)
  cases there : a.frame? h with
  | none =>
    rw [refs?_eq_none.mpr there, Option.elim_none]
    omega
  | some f =>
    have found := (frame?_eq_some.mp there).1
    have counted := counts f (Array.mem_toList_iff.mpr (Array.mem_of_getElem? found))
    simp only [refs?, there, Option.map_some, Option.elim_some]
    omega

/-! ### Handles after a change of one frame -/

theorem frame?_alone (there : a.frame? h = some f) (g : FrameHandle) (slot : h.index = g.index)
    (other : g ≠ h) : a.frame? g = none := by
  obtain ⟨found, -, gen⟩ := frame?_eq_some.mp there
  have gens : f.gen ≠ g.gen := fun same => other (FrameHandle.eq_of slot (gen ▸ same)).symm
  rw [frame?_of_index found slot]
  simp [gens]

theorem frame?_update {n : SharedFrame} (there : a.frame? h = some f) (gen : n.gen = f.gen)
    (g : FrameHandle) :
    (a.setFrame h n).frame? g = if g = h then (if n.live then some n else none) else a.frame? g := by
  obtain ⟨found, -, same⟩ := frame?_eq_some.mp there
  exact frame?_of_set (setFrame_getElem? (Array.getElem?_eq_some_iff.mp found).1) (gen.trans same)
    (frame?_alone there) g

theorem TakesSlot.adds {c : Arena} {i : UInt32} {old n : SharedFrame} (takes : TakesSlot a c i old)
    (live : n.live = true) (same : b.frames = (c.setFrame ⟨i, n.gen⟩ n).frames) :
    a.frame? ⟨i, n.gen⟩ = none ∧
      ∀ g, b.frame? g = if g = ⟨i, n.gen⟩ then some n else a.frame? g := by
  have vacant (g : FrameHandle) (slot : i = g.index) : a.frame? g = none := by
    rcases takes.vacant with ⟨there, dead⟩ | ⟨last, -⟩
    · rw [frame?_of_index (h := ⟨i, 0⟩) there slot]
      simp [dead]
    · unfold Arena.frame?
      simp [← slot, last]
  refine ⟨vacant _ rfl, fun g => ?_⟩
  have set := frame?_of_set (b := b) (h := ⟨i, n.gen⟩) (by rw [same]; exact takes.setFrame _ n) rfl
    (fun g slot _ => vacant g slot) g
  rwa [if_pos live] at set

/-- A new frame, whether it has room or not, has a handle that was not good before
and one reference. -/
theorem alloc_adds {size : Int} (tidy : a.Tidy) (taken : (a.alloc size).arena? = some b)
    (slots : b.frames.size ≤ UInt32.size) :
    ∃ h f, (∀ c k, a.alloc size = .made c k → k = h) ∧ a.frame? h = none ∧ f.refs = 1 ∧
      ∀ g, b.frame? g = if g = h then some f else a.frame? g := by
  unfold alloc at taken ⊢
  split at taken
  · cases taken
  next room =>
    rw [if_neg room]
    dsimp only at taken ⊢
    split at taken
    next crowded =>
      cases taken
      simp only [setFrame, Array.size_setIfInBounds] at slots
      obtain ⟨old, takes⟩ := tidy.takeSlot slots
      simp only [takes.there, Option.getD_some, if_pos crowded]
      obtain ⟨stale, adds⟩ := takes.adds
        (n := { old with gen := old.gen + 1, refs := 1, live := true }) rfl rfl
      exact ⟨_, _, by simp, stale, rfl, adds⟩
    next fits =>
      cases taken
      simp only [setFrame, Array.size_setIfInBounds] at slots
      obtain ⟨old, takes⟩ := tidy.takeSlot slots
      simp only [takes.there, Option.getD_some, if_neg fits]
      obtain ⟨stale, adds⟩ := takes.adds
        (n := { slots := Array.replicate size.toNat .void, gen := old.gen + 1, refs := 1, live := true })
        rfl rfl
      refine ⟨_, _, ?_, stale, rfl, adds⟩
      rintro _ _ ⟨⟩
      rfl

/-! ### One frame -/

namespace Backs

theorem empty (capacity : Int) : Backs { capacity } [] where
  tidy := (Balanced.empty capacity).tidy
  slots := Nat.zero_le _
  counts h f there := by simp [frame?] at there
  listed := by simp

/-- Fewer references are backed as well. -/
theorem mono (backs : Backs a ledger) (fewer : ∀ h, ledger'.count h ≤ ledger.count h) :
    Backs a ledger' where
  tidy := backs.tidy
  slots := backs.slots
  counts h f there := by
    have := backs.counts h f there
    have := fewer h
    omega
  listed h member := by
    have := List.count_pos_iff.mpr member
    exact backs.listed h (List.count_pos_iff.mp (Nat.lt_of_lt_of_le this (fewer h)))

theorem drop (backs : Backs a (ledger' ++ ledger)) : Backs a ledger :=
  backs.mono fun h => by simp [List.count_append]

/-- A change of one frame that keeps its occupant, with a count that suffices. -/
theorem update {new : SharedFrame} (backs : Backs a ledger) (there : a.frame? h = some f)
    (gen : new.gen = f.gen) (live : new.live = true)
    (refs : 0 < new.refs.toInt ∧ (ledger'.count h : Int) ≤ new.refs.toInt)
    (others : ∀ g, g ≠ h → ledger'.count g ≤ ledger.count g) : Backs (a.setFrame h new) ledger' := by
  have after := frame?_update there gen
  simp only [live, if_true] at after
  refine ⟨backs.tidy.setFrame there, ?_, fun g k found => ?_, fun g member => ?_⟩
  · simpa [setFrame] using backs.slots
  · rw [after] at found
    split at found
    next here =>
      cases found
      exact here ▸ refs
    next other =>
      have := backs.counts g k found
      have := others g other
      omega
  · rw [after]
    split
    · exact ⟨new, rfl⟩
    next other =>
      have := List.count_pos_iff.mpr member
      exact backs.listed g (List.count_pos_iff.mp (Nat.lt_of_lt_of_le this (others g other)))

theorem store {slot : Int} {v : Value} (backs : Backs a ledger) (stored : a.store h slot v = .ok b) :
    Backs b ledger := by
  obtain ⟨f, there, -, -, rfl⟩ := store_eq stored
  exact backs.update there rfl (frame?_eq_some.mp there).2.1 (backs.counts h f there)
    fun _ _ => Nat.le_refl _

theorem retain (backs : Backs a ledger) (there : a.frame? h = some f)
    (room : f.refs.toInt < Int32.maxValue.toInt) :
    Backs (a.setFrame h { f with refs := f.refs + 1 }) (h :: ledger) := by
  obtain ⟨positive, counted⟩ := backs.counts h f there
  have more := toInt_succ room (Int.le_of_lt positive)
  refine backs.update there rfl (frame?_eq_some.mp there).2.1 ?_ fun g other => ?_
  · simp only [more, List.count_cons_self]
    omega
  · exact Nat.le_of_eq (List.count_cons_of_ne other.symm)

/-- The last reference to go frees the frame, which nobody listed again. -/
theorem release (backs : Backs a (h :: ledger)) : Backs (a.release h).1 ledger := by
  obtain ⟨f, there⟩ := backs.listed h List.mem_cons_self
  obtain ⟨positive, counted⟩ := backs.counts h f there
  have less := toInt_pred positive
  have others (g : FrameHandle) (other : g ≠ h) : ledger.count g ≤ (h :: ledger).count g :=
    List.count_le_count_cons
  have tidy := (release_stays backs.tidy h).2
  rw [List.count_cons_self] at counted
  by_cases more : 0 < f.refs - 1
  · simp only [Arena.release, there, if_pos more]
    rw [Int32.lt_iff_toInt_lt, less] at more
    refine backs.update there rfl (frame?_eq_some.mp there).2.1 ?_ others
    simp only [less]
    exact ⟨more, by omega⟩
  · have after : ∀ g, (a.release h).1.frame? g = if g = h then none else a.frame? g := by
      intro g
      have updated := frame?_update (n := { f with refs := f.refs - 1, live := false, slots := #[] })
        there rfl g
      simp only [Arena.release, there, if_neg more]
      exact updated
    rw [Int32.lt_iff_toInt_lt, less] at more
    refine ⟨tidy, size_release a h ▸ backs.slots, fun g k found => ?_, fun g member => ?_⟩
    · rw [after] at found
      split at found
      · cases found
      next other =>
        have := backs.counts g k found
        have := others g other
        omega
    · have other : g ≠ h := by
        rintro rfl
        have := List.count_pos_iff.mpr member
        have last : f.refs.toInt ≤ 1 := by simpa using more
        omega
      rw [after, if_neg other]
      exact backs.listed g (List.mem_cons_of_mem _ member)

/-- A frame without room is left with a reference that is nobody's. -/
theorem alloc {size : Int} (backs : Backs a ledger) (taken : (a.alloc size).arena? = some b)
    (slots : b.frames.size ≤ UInt32.size) :
    ∃ h, (∀ c k, a.alloc size = .made c k → k = h) ∧ Backs b (h :: ledger) ∧ a.frame? h = none ∧
      ∀ g, b.refs? g = if g = h then some 1 else a.refs? g := by
  obtain ⟨h, f, given, stale, one, after⟩ := alloc_adds backs.tidy taken slots
  have new : ledger.count h = 0 := by
    refine List.count_eq_zero.mpr fun member => ?_
    obtain ⟨f, there⟩ := backs.listed h member
    rw [stale] at there
    cases there
  refine ⟨h, given, ⟨(alloc_grows backs.tidy taken slots).2, slots, fun g k found => ?_,
    fun g member => ?_⟩, stale, fun g => ?_⟩
  · rw [after] at found
    split at found
    next here =>
      cases found
      rw [here, List.count_cons_self, new, one]
      decide
    next other =>
      rw [List.count_cons_of_ne (Ne.symm other)]
      exact backs.counts g k found
  · rw [after]
    split
    · exact ⟨f, rfl⟩
    next other => exact backs.listed g ((List.mem_cons.mp member).resolve_left other)
  · rw [refs?, after]
    split
    · rw [Option.map_some, one]
    · rfl

/-! ### Chains -/

theorem releaseChain {chain : Chain} (backs : Backs a (chain ++ ledger)) :
    Backs (a.releaseChain chain).1 ledger := by
  induction chain generalizing a with
  | nil => exact backs
  | cons h rest ih =>
    simp only [Arena.releaseChain]
    exact ih backs.release

end Backs

/-- What became of a request leaves the references of others backed, and backs
those that were gained. -/
def Acquired.Leaves {α : Type} (ledger : List FrameHandle) (gains : α → Chain) : Acquired α → Prop
  | .made b result => Backs b (gains result ++ ledger)
  | .failed b _ _ | .broken b => Backs b ledger

theorem size_alloc_le {size : Int} (taken : (a.alloc size).arena? = some b) :
    b.frames.size ≤ a.frames.size + 1 := by
  rcases size_alloc_cases taken with same | grown <;> omega

section Bears

variable {rest : List Layer} {size : Int}

theorem Bears.shared (bears : Bears a (.ofLayers (.shared h :: rest))) (there : a.frame? h = some f)
    (positive : 0 < f.refs.toInt) :
    f.refs.toInt < Int32.maxValue.toInt ∧
      Bears (a.setFrame h { f with refs := f.refs + 1 }) (.ofLayers rest) := by
  have asked (g : FrameHandle) : (Demand.ofLayers (.shared h :: rest)).chain.count g =
      (Demand.ofLayers rest).chain.count g + if h = g then 1 else 0 := by
    simp [Demand.ofLayers, Layer.handle?, List.count_cons]
  have room : f.refs.toInt < Int32.maxValue.toInt := by
    have limit := bears.counts h
    simp only [refs?, there, Option.map_some, Option.elim_some, asked, if_true] at limit
    omega
  refine ⟨room, fun g => ?_, ?_⟩
  · have limit := bears.counts g
    have after : (a.setFrame h { f with refs := f.refs + 1 }).frame? g =
        if g = h then some { f with refs := f.refs + 1 } else a.frame? g := by
      rw [frame?_update (n := { f with refs := f.refs + 1 }) there rfl,
        if_pos (frame?_eq_some.mp there).2.1]
    rw [asked] at limit
    rw [refs?, after]
    split
    next here =>
      subst here
      simp only [refs?, there, Option.map_some, Option.elim_some, if_true] at limit ⊢
      rw [toInt_succ room (Int.le_of_lt positive)]
      omega
    next other =>
      simp only [if_neg (Ne.symm other), Nat.add_zero] at limit
      exact limit
  · simpa [setFrame, Demand.ofLayers, List.filterMap_cons, Layer.size?] using bears.slots

theorem Bears.fresh (bears : Bears a (.ofLayers (.fresh size :: rest))) (stale : a.frame? h = none)
    (after : ∀ g, b.refs? g = if g = h then some 1 else a.refs? g)
    (grown : b.frames.size ≤ a.frames.size + 1) : Bears b (.ofLayers rest) := by
  refine ⟨fun g => ?_, ?_⟩
  · have limit := bears.counts g
    rw [after]
    split
    next here =>
      subst here
      rw [refs?_eq_none.mpr stale] at limit
      exact limit
    · exact limit
  · have slots := bears.slots
    simp only [Demand.ofLayers, List.filterMap_cons, Layer.size?, List.length_cons] at slots ⊢
    omega

end Bears

namespace Backs

theorem overlayFrom (taken : Chain) {layers : List Layer} (backs : Backs a (taken ++ ledger))
    (bears : Bears a (.ofLayers layers)) :
    (a.overlayFrom taken layers).Leaves ledger id := by
  induction layers generalizing a taken with
  | nil => exact backs
  | cons layer rest ih =>
    have moved (h : FrameHandle) {c : Arena} (backs : Backs c (h :: (taken ++ ledger))) :
        Backs c (taken ++ [h] ++ ledger) :=
      backs.mono fun g => by simp [List.count_append, List.count_cons]; omega
    cases layer with
    | shared h =>
      rw [Arena.overlayFrom]
      split
      next b retained =>
        obtain ⟨f, there, rfl⟩ := Option.map_eq_some_iff.mp retained
        obtain ⟨room, later⟩ := bears.shared there (backs.counts h f there).1
        exact ih _ (moved h (backs.retain there room)) later
      · exact backs.releaseChain
    | fresh size =>
      have fits {b : Arena} (grown : b.frames.size ≤ a.frames.size + 1) :
          b.frames.size ≤ UInt32.size := by
        have slots := bears.slots
        simp only [Demand.ofLayers, List.filterMap_cons, Layer.size?, List.length_cons] at slots
        omega
      rw [Arena.overlayFrom]
      split
      next b h made =>
        have allocated : (a.alloc size).arena? = some b := by rw [made]; rfl
        have grown := size_alloc_le allocated
        obtain ⟨_, given, backs, stale, after⟩ := backs.alloc allocated (fits grown)
        obtain rfl := given b h made
        exact ih _ (moved h backs) (bears.fresh stale after grown)
      · exact backs.releaseChain
      next b broken =>
        have allocated : (a.alloc size).arena? = some b := by rw [broken]; rfl
        obtain ⟨h, -, backs, -⟩ := backs.alloc allocated (fits (size_alloc_le allocated))
        exact (moved h backs).drop

theorem overlay {chain : Chain} {sizes : List Int} (backs : Backs a ledger)
    (bears : Bears a (.ofLayers (layers chain sizes))) :
    (a.overlay chain sizes).Leaves ledger id :=
  backs.overlayFrom [] bears

/-- References to a chain are taken like levels that are all shared. -/
theorem retainChain {chain : Chain} (backs : Backs a ledger) (bears : Bears a { chain }) :
    (a.retainChain chain).Leaves ledger fun _ => chain := by
  have handles : (chain.map Layer.shared).filterMap Layer.handle? = chain := by
    simp [List.filterMap_map, Function.comp_def, Layer.handle?]
  have sizes : (chain.map Layer.shared).filterMap Layer.size? = [] := by
    simp [List.filterMap_map, Function.comp_def, Layer.size?]
  have leaves : (a.overlayFrom [] (chain.map .shared)).Leaves ledger id :=
    backs.overlayFrom [] (by rwa [Demand.ofLayers, handles, sizes])
  rw [overlayFrom_shared] at leaves
  rw [Arena.retainChain]
  cases taken : a.retainFrom [] chain <;> rw [taken] at leaves <;> exact leaves

end Backs
end Arena

/-! ### Transitions -/

namespace World

variable {w₁ w₂ : World} {ledger : List FrameHandle}

theorem Change.backs (change : Change w₁ w₂) (backs : w₁.arena.Backs ledger) :
    w₂.arena.Backs ledger := by
  cases change with
  | store stored => exact backs.store stored
  | modifyScript target f keeps => rwa [modifyScript_arena]
  | bindName target name slot => rwa [bindName_arena]
  | annotate f p => rwa [(annotate_heap w₁ f p).2.2]
  | create | newFrame | setRegister | raise | report | print | setLock => exact backs

theorem Evolves.backs (evolves : Evolves w₁ w₂) (backs : w₁.arena.Backs ledger) :
    w₂.arena.Backs ledger :=
  evolves.keeps (P := fun w => w.arena.Backs ledger) (fun change => change.backs) backs

end World

/-- The references of running blocks and of the host are backed, and what running
blocks will drop are their own references. -/
structure State.Backed (s : State) (held : Chain) : Prop where
  backs : s.world.arena.Backs (s.overlays ++ held)
  owned : ∀ a ∈ s.running, a.owned = a.overlay

namespace State.Backed

variable {s s' : State} {held : Chain} {w : World} {control : Control} {stack : List Cont}
  {a : Activation}

theorem of_running {running : List Activation} (same : s.running = running)
    (backs : s.world.arena.Backs (running.flatMap Activation.overlay ++ held))
    (owned : ∀ a ∈ running, a.owned = a.overlay) : s.Backed held := by
  subst same
  exact ⟨backs, owned⟩

/-- What is left when a running block has ended. -/
theorem ended (backed : Backed ⟨w, .code a, stack⟩ held) (idle : control.activation? = none) :
    Backed ⟨w.releaseChain a.owned, control, stack⟩ held := by
  refine of_running (by simp only [running, idle]; rfl) ?_
    fun b member => backed.owned b (List.mem_cons_of_mem _ member)
  have backs : w.arena.Backs (a.overlay ++ (waiting stack).flatMap Activation.overlay ++ held) :=
    backed.backs
  rw [backed.owned a List.mem_cons_self]
  rw [List.append_assoc] at backs
  exact backs.releaseChain

end State.Backed

namespace Activation

variable {e : Engine} {w w₁ : World} {a : Activation} {n : Next} {held ledger : Chain}
  {rest : List Cont} {plan : Plan}

theorem Takes.backs {makes : Object → Prop} (takes : a.Takes w makes w₁)
    (backs : w.arena.Backs ledger)
    (bears : ∀ o, makes o → w.arena.Bears { chain := a.chain }) : w₁.arena.Backs ledger := by
  cases takes with
  | nothing => exact backs
  | captured retained made =>
    have leaves := backs.retainChain (bears _ made)
    rw [retained] at leaves
    exact leaves.drop
  | refused refused wanted =>
    have leaves := backs.retainChain (bears _ wanted)
    rw [refused] at leaves
    exact leaves

/-- A transition of a running block drops no references but its own. -/
theorem Runs.backed (runs : a.Runs w plan n) (backed : State.Backed ⟨w, .code a, rest⟩ held)
    (bears : ∀ o, plan.makes o → w.arena.Bears { chain := a.chain }) :
    State.Backed ⟨n.world, n.control, n.push ++ rest⟩ held := by
  have kept {w₁ w₂ : World} (takes : a.Takes w plan.makes w₁) (evolves : World.Evolves w₁ w₂) :
      State.Backed ⟨w₂, .code a, rest⟩ held :=
    ⟨evolves.backs (takes.backs backed.backs bears), backed.owned⟩
  cases runs with
  | goes takes evolves planned =>
    have later := kept takes evolves
    refine ⟨later.backs, fun b member => ?_⟩
    rcases List.mem_cons.mp member with rfl | waits
    · exact backed.owned a List.mem_cons_self
    · exact backed.owned b (List.mem_cons_of_mem _ waits)
  | asks evolves asks planned =>
    have later := kept .nothing evolves
    cases asks <;> exact .of_running rfl later.backs later.owned
  | answers takes evolves => exact (kept takes evolves).ended rfl
  | stops takes evolves planned => exact (kept takes evolves).ended rfl

end Activation

/-- Answering a request starts no block and lets none wait. -/
theorem Calm.running_eq {e : Engine} {w : World} {n : Next} (calm : Calm e w n) (rest : List Cont) :
    State.running ⟨n.world, n.control, n.push ++ rest⟩ = waiting rest := by
  have idle : n.control.activation? = none := by
    cases running : n.control with
    | code a => exact absurd running (calm.idle a)
    | _ => rfl
  rw [State.running, idle, waiting, List.filterMap_append, calm.pushes]
  rfl

theorem Calm.backed {e : Engine} {w : World} {n : Next} {control : Control} {stack rest : List Cont}
    {held : Chain} (calm : Calm e w n) (backed : State.Backed ⟨w, control, stack⟩ held)
    (same : State.running ⟨w, control, stack⟩ = waiting rest) :
    State.Backed ⟨n.world, n.control, n.push ++ rest⟩ held := by
  refine .of_running ((calm.running_eq rest).trans same.symm) ?_ backed.owned
  exact calm.evolves.backs backed.backs

/-- A block that begins to run takes references to the chain that it builds. -/
theorem Enters.backed {e : Engine} {w : World} {block : CodeBlock} {inv : Invocation}
    {completion : Completion} {n : Next} {stack : List Cont} {held : Chain}
    (enters : Enters w block inv completion n)
    (backed : State.Backed ⟨w, .execute (some block) inv completion, stack⟩ held)
    (bears : w.arena.Bears (State.demand e ⟨w, .execute (some block) inv completion, stack⟩)) :
    State.Backed ⟨n.world, n.control, n.push ++ stack⟩ held := by
  obtain ⟨backs, owned⟩ := backed
  have leaves {w₁ : World} {frame : FrameRef} (framed : Framed w block inv w₁ frame)
      (nested : 0 < block.nestLevel) :
      (w₁.arena.overlay inv.shared (block.sharedSizes.map Int64.toInt)).Leaves
        ((waiting stack).flatMap Activation.overlay ++ held) id := by
    rw [framed.arena_eq.1]
    simp only [State.demand, if_pos nested] at bears
    exact Arena.Backs.overlay backs bears
  cases enters with
  | @flat w₁ frame framed flat =>
    have none : (inv.begun block frame inv.shared [] completion).overlay = [] := if_neg flat
    refine ⟨?_, List.forall_mem_cons.mpr ⟨none.symm, owned⟩⟩
    simp only [State.overlays, State.running, Control.activation?, Option.toList_some,
      List.singleton_append, List.flatMap_cons, none, framed.arena_eq.1]
    exact backs
  | @nested w₁ frame arena chain framed nested overlaid =>
    have own : (inv.begun block frame chain chain completion).overlay = chain := if_pos nested
    have leaves := leaves framed nested
    rw [overlaid] at leaves
    refine ⟨?_, List.forall_mem_cons.mpr ⟨own.symm, owned⟩⟩
    simp only [State.overlays, State.running, Control.activation?, Option.toList_some,
      List.singleton_append, List.flatMap_cons, own, List.append_assoc]
    exact leaves
  | refused framed nested refused =>
    have leaves := leaves framed nested
    rw [refused] at leaves
    exact ⟨leaves, owned⟩
  | broken framed nested broken =>
    have leaves := leaves framed nested
    rw [broken] at leaves
    exact ⟨leaves, owned⟩
  | crowded | small => exact ⟨backs, owned⟩

namespace Machine

variable {e : Engine} {s s' : State} {held : Chain}

theorem unwind_backed {w : World} {p : Panic} {top : Cont} {rest : List Cont}
    (backed : State.Backed ⟨w, .panic p, top :: rest⟩ held) :
    State.Backed ⟨unwind w top, .panic p, rest⟩ held := by
  cases top with
  | code a await => exact State.Backed.ended (a := a) ⟨backed.1, backed.2⟩ rfl
  | unlock ref => exact ⟨(World.unlock_evolves w ref).backs backed.backs, backed.owned⟩
  | _ => exact ⟨backed.1, backed.2⟩

/-- Every transition whose demand can be borne leaves the references of running
blocks and of the host backed. -/
theorem Transition.backed (transition : Transition e s s') (backed : s.Backed held)
    (bears : s.world.arena.Bears (s.demand e)) : s'.Backed held := by
  cases transition with
  | rests => exact backed
  | @answers w control stack n plain calm =>
    refine calm.backed backed ?_
    cases control with
    | code a => cases plain
    | _ => rfl
  | @passes w r top rest n other calm =>
    refine calm.backed backed ?_
    rw [State.running, waiting, waiting, List.filterMap_cons, other]
    rfl
  | vacant => exact ⟨backed.1, backed.2⟩
  | begins enters => exact enters.backed backed bears
  | runs runs =>
    refine runs.backed backed fun o makes => ?_
    simp only [State.demand, (Activation.stepPlan_makes makes).2] at bears
    exact bears
  | returns runs => exact runs.backed ⟨backed.1, backed.2⟩ fun o makes => makes.elim
  | unwinds => exact unwind_backed backed

end Machine
end ScriptEngine
