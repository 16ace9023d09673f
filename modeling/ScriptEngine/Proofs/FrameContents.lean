import Mathlib.Data.List.Forall2
import ScriptEngine.Proofs.ArenaOperations

/-! What becomes of the contents of shared frames. Counting references and making
frames leave what live frames hold alone: an occupant stays as it is, is gone, or
follows one that was gone. So a slot holds what was last written to it, for as
long as its frame is there. -/
namespace ScriptEngine

namespace SharedFrame

variable {f g k : SharedFrame}

/-- The occupant of a slot keeps what it holds, or is gone. -/
def Stays (f g : SharedFrame) : Prop :=
  g.gen = f.gen ∧ (g.live = true → f.live = true ∧ g.slots = f.slots)

/-- A vacant slot has got a new occupant. -/
def Renewed (f g : SharedFrame) : Prop := f.live = false ∧ g.gen = f.gen + 1

/-- What taking references and making frames does to a slot. -/
def Grows (f g : SharedFrame) : Prop :=
  f.Stays g ∧ (f.live = true → g.live = true) ∨ f.Renewed g ∧ g.live = true

/-- What any counting does to a slot. -/
def Turns (f g : SharedFrame) : Prop := f.Stays g ∨ f.Renewed g

theorem Stays.refl (f : SharedFrame) : f.Stays f := ⟨rfl, fun live => ⟨live, rfl⟩⟩

theorem Stays.trans (first : f.Stays g) (second : g.Stays k) : f.Stays k := by
  refine ⟨second.1.trans first.1, fun live => ?_⟩
  obtain ⟨live, slots⟩ := second.2 live
  exact ⟨(first.2 live).1, slots.trans (first.2 live).2⟩

theorem Grows.refl (f : SharedFrame) : f.Grows f := .inl ⟨.refl f, id⟩

/-- An occupant that is there is not replaced, so there is at most one new one. -/
theorem Grows.trans (first : f.Grows g) (second : g.Grows k) : f.Grows k := by
  rcases first with ⟨stays, kept⟩ | ⟨⟨vacant, gen⟩, live⟩ <;>
    rcases second with ⟨stays', kept'⟩ | ⟨⟨vacant', gen'⟩, live'⟩
  · exact .inl ⟨stays.trans stays', kept' ∘ kept⟩
  · refine .inr ⟨⟨?_, by rw [gen', stays.1]⟩, live'⟩
    exact Bool.eq_false_iff.mpr fun live => absurd (kept live) (by simp [vacant'])
  · exact .inr ⟨⟨vacant, by rw [stays'.1, gen]⟩, kept' live⟩
  · exact absurd live (by simp [vacant'])

theorem Grows.then (first : f.Grows g) (second : g.Stays k) : f.Turns k := by
  rcases first with ⟨stays, -⟩ | ⟨⟨vacant, gen⟩, -⟩
  · exact .inl (stays.trans second)
  · exact .inr ⟨vacant, by rw [second.1, gen]⟩

end SharedFrame

namespace Arena

open SharedFrame

variable {a b c : Arena} {h g : FrameHandle} {size slot : Int} {v : Value}
  {layers rest : List Layer} {taken more : Chain}

/-- Every slot is still there, with an occupant that is related to the one
before. -/
def Each (R : SharedFrame → SharedFrame → Prop) (a b : Arena) : Prop :=
  ∀ (i : Nat) f, a.frames[i]? = some f → ∃ g, b.frames[i]? = some g ∧ R f g

section Each

variable {R S T : SharedFrame → SharedFrame → Prop}

theorem Each.refl (all : ∀ f, R f f) (a : Arena) : Each R a a := fun _ f there => ⟨f, there, all f⟩

theorem Each.comp (first : Each R a b) (second : Each S b c)
    (both : ∀ {f g k}, R f g → S g k → T f k) : Each T a c := by
  intro i f there
  obtain ⟨g, there, related⟩ := first i f there
  obtain ⟨k, there, related'⟩ := second i g there
  exact ⟨k, there, both related related'⟩

/-- One slot has another occupant, the others are as they were. -/
theorem Each.set {place : Nat} {new : SharedFrame} (all : ∀ f, R f f)
    (set : ∀ j, b.frames[j]? = if place = j then some new else a.frames[j]?)
    (related : ∀ f, a.frames[place]? = some f → R f new) : Each R a b := by
  intro i f there
  rw [set i]
  split
  next here =>
    subst here
    exact ⟨new, rfl, related f there⟩
  · exact ⟨f, there, all f⟩

end Each

/-! ### What each operation does -/

/-- A tidy arena stays so if only live frames are written. -/
theorem Tidy.setFrame {f new : SharedFrame} (tidy : a.Tidy) (there : a.frame? h = some f) :
    (a.setFrame h new).Tidy := by
  obtain ⟨found, alive, -⟩ := frame?_eq_some.mp there
  refine ⟨tidy.nodup, fun i waits => ?_⟩
  obtain ⟨old, vacant, dead⟩ := tidy.vacant i waits
  refine ⟨old, ?_, dead⟩
  rw [setFrame_getElem? (Array.getElem?_eq_some_iff.mp found).1, if_neg, vacant]
  intro here
  rw [here, vacant] at found
  cases found
  simp [dead] at alive

theorem Each.setFrame {f new : SharedFrame} {R : SharedFrame → SharedFrame → Prop}
    (all : ∀ f, R f f) (there : a.frame? h = some f) (related : R f new) :
    Each R a (a.setFrame h new) := by
  have found := (frame?_eq_some.mp there).1
  refine Each.set all (setFrame_getElem? (Array.getElem?_eq_some_iff.mp found).1) ?_
  intro f' found'
  rw [found] at found'
  cases found'
  exact related

theorem retain_grows (tidy : a.Tidy) (retained : a.retain? h = some b) :
    Each Grows a b ∧ b.Tidy := by
  obtain ⟨f, there, rfl⟩ := Option.map_eq_some_iff.mp retained
  exact ⟨.setFrame Grows.refl there (.inl ⟨⟨rfl, fun live => ⟨live, rfl⟩⟩, id⟩), tidy.setFrame there⟩

theorem TakesSlot.fills {i : UInt32} {old n : SharedFrame} (takes : TakesSlot a b i old)
    (gen : n.gen = old.gen + 1) (live : n.live = true) :
    Each Grows a (b.setFrame ⟨i, n.gen⟩ n) ∧ (b.setFrame ⟨i, n.gen⟩ n).Tidy := by
  constructor
  · refine Each.set Grows.refl (takes.setFrame _ _) ?_
    intro f there
    rcases takes.vacant with ⟨found, dead⟩ | ⟨last, -⟩
    · rw [found] at there
      cases there
      exact .inr ⟨⟨dead, gen⟩, live⟩
    · simp [last] at there
  · refine ⟨takes.tidy.nodup, fun j waits => ?_⟩
    obtain ⟨f, there, dead⟩ := takes.tidy.vacant j waits
    have other : i.toNat ≠ j.toNat := fun same => takes.taken (UInt32.toNat_inj.mp same ▸ waits)
    exact ⟨f, by rw [takes.setFrame, if_neg other, ← takes.others _ other, there], dead⟩

theorem alloc_grows (tidy : a.Tidy) (result : (a.alloc size).arena? = some b)
    (slots : b.frames.size ≤ UInt32.size) : Each Grows a b ∧ b.Tidy := by
  unfold alloc at result
  split at result
  · cases result
  · dsimp only at result
    split at result <;> cases result <;>
      simp only [Arena.setFrame, Array.size_setIfInBounds] at slots <;>
      obtain ⟨old, takes⟩ := tidy.takeSlot slots <;>
      simp only [takes.there, Option.getD_some]
    · exact takes.fills rfl rfl
    · let new : SharedFrame :=
        { old with slots := Array.replicate size.toNat .void, gen := old.gen + 1, refs := 1, live := true }
      have filled : Each Grows a _ ∧ Tidy _ := takes.fills (n := new) rfl rfl
      exact ⟨filled.1, filled.2.nodup, filled.2.vacant⟩

theorem release_stays (tidy : a.Tidy) (h : FrameHandle) :
    Each Stays a (a.release h).1 ∧ (a.release h).1.Tidy := by
  unfold release
  split
  · exact ⟨.refl Stays.refl a, tidy⟩
  next f there =>
    dsimp only
    split
    · exact ⟨.setFrame Stays.refl there ⟨rfl, fun live => ⟨live, rfl⟩⟩, tidy.setFrame there⟩
    · obtain ⟨found, alive, -⟩ := frame?_eq_some.mp there
      have inside := (Array.getElem?_eq_some_iff.mp found).1
      have stays : Each Stays a
          (a.setFrame h { f with refs := f.refs - 1, live := false, slots := #[] }) :=
        .setFrame Stays.refl there ⟨rfl, nofun⟩
      refine ⟨stays, List.nodup_cons.mpr ⟨?_, tidy.nodup⟩, ?_⟩
      · intro waits
        obtain ⟨old, vacant, dead⟩ := tidy.vacant h.index waits
        rw [found] at vacant
        cases vacant
        simp [alive] at dead
      · intro i waits
        rcases List.mem_cons.mp waits with here | waits
        · rw [here]
          exact ⟨_, by rw [setFrame_getElem? inside, if_pos rfl], rfl⟩
        · exact (tidy.setFrame there).vacant i waits

theorem releaseChain_stays (tidy : a.Tidy) (chain : Chain) :
    Each Stays a (a.releaseChain chain).1 ∧ (a.releaseChain chain).1.Tidy := by
  induction chain generalizing a with
  | nil => exact ⟨.refl Stays.refl a, tidy⟩
  | cons h rest ih =>
    obtain ⟨first, tidy⟩ := release_stays tidy h
    obtain ⟨second, tidy⟩ := ih tidy
    exact ⟨first.comp second Stays.trans, tidy⟩

/-- The arena after a request for references or frames. -/
def Acquired.arena {α : Type} : Acquired α → Arena
  | .made b _ | .failed b _ _ | .broken b => b

theorem size_overlayFrom (a : Arena) (taken : Chain) (layers : List Layer) :
    a.frames.size ≤ (a.overlayFrom taken layers).arena.frames.size := by
  have dropped (a : Arena) (taken : Chain) (error : ArenaError) :
      a.frames.size ≤ (a.giveBack (α := Chain) taken error).arena.frames.size :=
    Nat.le_of_eq (size_releaseChain a taken).symm
  induction layers generalizing a taken with
  | nil => exact Nat.le_refl _
  | cons layer rest ih =>
    cases layer with
    | shared h =>
      rw [overlayFrom]
      split
      next b retained =>
        rw [← size_retain retained]
        exact ih b _
      · exact dropped a taken .stale
    | fresh size =>
      rw [overlayFrom]
      split
      next b h made => exact Nat.le_trans (size_alloc (by rw [made]; rfl)) (ih b _)
      · exact dropped a taken .full
      next b broken => exact size_alloc (by rw [broken]; rfl)

/-- A request for levels makes frames and takes references, and drops them again
if it fails. -/
theorem overlayFrom_grows (tidy : a.Tidy) (taken : Chain) (layers : List Layer)
    (slots : (a.overlayFrom taken layers).arena.frames.size ≤ UInt32.size) :
    ∃ c, Each Grows a c ∧ Each Stays c (a.overlayFrom taken layers).arena ∧
      (a.overlayFrom taken layers).arena.Tidy := by
  induction layers generalizing a taken with
  | nil => exact ⟨a, .refl Grows.refl a, .refl Stays.refl a, tidy⟩
  | cons layer rest ih =>
    have after {b : Arena} {h : FrameHandle} (grows : Each Grows a b ∧ b.Tidy)
        (slots : (b.overlayFrom (taken ++ [h]) rest).arena.frames.size ≤ UInt32.size) :
        ∃ c, Each Grows a c ∧ Each Stays c (b.overlayFrom (taken ++ [h]) rest).arena ∧
          (b.overlayFrom (taken ++ [h]) rest).arena.Tidy := by
      obtain ⟨c, later, stays, tidy⟩ := ih grows.2 _ slots
      exact ⟨c, grows.1.comp later Grows.trans, stays, tidy⟩
    have dropped (error : ArenaError) :
        ∃ c, Each Grows a c ∧ Each Stays c (a.giveBack (α := Chain) taken error).arena ∧
          (a.giveBack (α := Chain) taken error).arena.Tidy :=
      ⟨a, .refl Grows.refl a, releaseChain_stays tidy taken⟩
    cases layer with
    | shared h =>
      rw [overlayFrom] at slots ⊢
      split at slots
      next b retained => exact after (retain_grows tidy retained) slots
      · exact dropped .stale
    | fresh size =>
      rw [overlayFrom] at slots ⊢
      split at slots
      next b h made =>
        have fits := Nat.le_trans (size_overlayFrom b _ rest) slots
        exact after (alloc_grows tidy (by rw [made]; rfl) fits) slots
      · exact dropped .full
      next b broken =>
        obtain ⟨grows, tidy⟩ := alloc_grows tidy (by rw [broken]; rfl) slots
        exact ⟨b, grows, .refl Stays.refl b, tidy⟩

/-! ### Counting as a whole -/

/-- A request for levels, whatever came of it. -/
def Acquires (a b : Arena) : Prop := ∃ layers, (a.overlayFrom [] layers).arena = b

/-- A request for levels, after which references are dropped. -/
def Drifts (a b : Arena) : Prop := ∃ c chain, a.Acquires c ∧ (c.releaseChain chain).1 = b

theorem Acquires.refl (a : Arena) : a.Acquires a := ⟨[], rfl⟩

theorem Acquires.drifts (acquires : a.Acquires b) (chain : Chain) :
    a.Drifts (b.releaseChain chain).1 := ⟨b, chain, acquires, rfl⟩

theorem Drifts.of_eq (same : b = a) : a.Drifts b := same ▸ (Acquires.refl a).drifts []

theorem Acquires.of_retainChain (a : Arena) (chain : Chain) :
    a.Acquires (a.retainChain chain).arena := by
  refine ⟨chain.map .shared, ?_⟩
  rw [overlayFrom_shared, retainChain]
  cases a.retainFrom [] chain <;> rfl

theorem Acquires.of_alloc (taken : (a.alloc size).arena? = some b) : a.Acquires b := by
  refine ⟨[.fresh size], ?_⟩
  rw [overlayFrom]
  cases made : a.alloc size <;> rw [made] at taken <;> cases taken <;> rfl

theorem Drifts.of_release (a : Arena) (h : FrameHandle) : a.Drifts (a.release h).1 :=
  (Acquires.refl a).drifts [h]

theorem Drifts.turns (tidy : a.Tidy) (drifts : a.Drifts b) (slots : b.frames.size ≤ UInt32.size) :
    Each Turns a b ∧ b.Tidy := by
  obtain ⟨_, chain, ⟨layers, rfl⟩, rfl⟩ := drifts
  rw [size_releaseChain] at slots
  obtain ⟨c, grows, stays, tidy⟩ := overlayFrom_grows tidy [] layers slots
  obtain ⟨dropped, tidy⟩ := releaseChain_stays tidy chain
  exact ⟨grows.comp (stays.comp dropped Stays.trans) Grows.then, tidy⟩

/-! ### What a slot holds -/

/-- Slots and their occupants can be told apart: there are not too many, and the
numbers of occupants do not start over. -/
structure Ages (a b : Arena) : Prop where
  slots : b.frames.size ≤ UInt32.size
  gens : ∀ (i : Nat) f g, a.frames[i]? = some f → b.frames[i]? = some g → f.gen ≤ g.gen

instance (a b : Arena) : Decidable (a.Ages b) :=
  decidable_of_iff (b.frames.size ≤ UInt32.size ∧ ∀ i < a.frames.size,
      (a.frames[i]?).all fun f => (b.frames[i]?).all fun g => decide (f.gen ≤ g.gen)) <| by
    constructor
    · rintro ⟨slots, gens⟩
      refine ⟨slots, fun i f g before after => ?_⟩
      have inside := (Array.getElem?_eq_some_iff.mp before).1
      simpa [before, after] using gens i inside
    · rintro ⟨slots, gens⟩
      refine ⟨slots, fun i _ => ?_⟩
      cases before : a.frames[i]? with
      | none => rfl
      | some f =>
        cases after : b.frames[i]? with
        | none => rfl
        | some g => simpa using gens i f g before after

/-- A handle has been given out: its slot has that occupant or a later one. -/
def Issued (a : Arena) (h : FrameHandle) : Prop :=
  ∃ f, a.frames[h.index.toNat]? = some f ∧ h.gen ≤ f.gen

/-- A slot of a frame has a value, unless the frame is gone for good. -/
structure Holds (a : Arena) (h : FrameHandle) (slot : Int) (v : Value) : Prop where
  inside : 0 ≤ slot
  there : ∃ f, a.frames[h.index.toNat]? = some f ∧
    (h.gen < f.gen ∨ f.gen = h.gen ∧ (f.live = true → f.slots[slot.toNat]? = some v))

theorem Ages.renewed {i : Nat} {f g : SharedFrame} (ages : a.Ages b) (before : a.frames[i]? = some f)
    (after : b.frames[i]? = some g) (next : g.gen = f.gen + 1) : f.gen < g.gen := by
  have le := ages.gens i f g before after
  rw [UInt32.le_iff_toNat_le] at le
  rw [UInt32.lt_iff_toNat_lt]
  rw [next, UInt32.toNat_add, UInt32.toNat_one] at le ⊢
  omega

theorem Issued.turns (issued : a.Issued h) (turns : Each Turns a b) (ages : a.Ages b) :
    b.Issued h := by
  obtain ⟨f, before, passed⟩ := issued
  obtain ⟨g, after, -⟩ := turns _ f before
  exact ⟨g, after, UInt32.le_trans passed (ages.gens _ f g before after)⟩

theorem Holds.turns (holds : a.Holds h slot v) (turns : Each Turns a b) (ages : a.Ages b) :
    b.Holds h slot v := by
  obtain ⟨inside, f, before, passed | ⟨gen, value⟩⟩ := holds
  · obtain ⟨g, after, -⟩ := turns _ f before
    exact ⟨inside, g, after, .inl (UInt32.lt_of_lt_of_le passed (ages.gens _ f g before after))⟩
  · obtain ⟨g, after, ⟨same, kept⟩ | ⟨-, next⟩⟩ := turns _ f before
    · refine ⟨inside, g, after, .inr ⟨same.trans gen, fun live => ?_⟩⟩
      rw [(kept live).2]
      exact value (kept live).1
    · exact ⟨inside, g, after, .inl (gen ▸ ages.renewed before after next)⟩

theorem Holds.load (holds : a.Holds h slot v) : a.load h slot = .ok v ∨ a.frame? h = none := by
  obtain ⟨inside, f, found, occupant⟩ := holds
  cases there : a.frame? h with
  | none => exact .inr rfl
  | some f' =>
    obtain ⟨found', live, gen⟩ := frame?_eq_some.mp there
    rw [found] at found'
    cases found'
    rcases occupant with passed | ⟨-, value⟩
    · exact absurd passed (by rw [gen]; exact UInt32.lt_irrefl _)
    · refine .inl ?_
      rw [Arena.load, there]
      simp only [Int.not_lt.mpr inside, if_false, value live]

theorem Holds.of_load (loaded : a.load h slot = .ok v) : a.Holds h slot v := by
  unfold Arena.load at loaded
  split at loaded
  · cases loaded
  next f there =>
    obtain ⟨found, -, gen⟩ := frame?_eq_some.mp there
    split at loaded
    · cases loaded
    next inside =>
      split at loaded
      next value =>
        cases loaded
        exact ⟨Int.not_lt.mp inside, f, found, .inr ⟨gen, fun _ => value⟩⟩
      · cases loaded

/-- A slot that can be read can be written. -/
theorem store_of_load (loaded : a.load h slot = .ok v) (u : Value) :
    ∃ b, a.store h slot u = .ok b := by
  unfold Arena.load at loaded
  unfold Arena.store
  split at loaded
  · cases loaded
  next f there =>
    split at loaded
    · cases loaded
    next inside =>
      split at loaded
      next value =>
        have below := (Array.getElem?_eq_some_iff.mp value).1
        rw [if_neg (by omega)]
        exact ⟨_, rfl⟩
      · cases loaded

/-- What a write does. -/
theorem store_eq (stored : a.store h slot v = .ok b) :
    ∃ f, a.frame? h = some f ∧ 0 ≤ slot ∧ slot.toNat < f.slots.size ∧
      b = a.setFrame h { f with slots := f.slots.setIfInBounds slot.toNat v } := by
  unfold Arena.store at stored
  split at stored
  · cases stored
  next f there =>
    split at stored
    · cases stored
    next inside =>
      cases stored
      exact ⟨f, there, by omega, by omega, rfl⟩

theorem Tidy.store (tidy : a.Tidy) (stored : a.store h slot v = .ok b) : b.Tidy := by
  obtain ⟨f, there, -, -, rfl⟩ := store_eq stored
  exact tidy.setFrame there

theorem Issued.store (issued : a.Issued g) (stored : a.store h slot v = .ok b) : b.Issued g := by
  obtain ⟨f, there, -, -, rfl⟩ := store_eq stored
  obtain ⟨old, before, passed⟩ := issued
  have same : Each (fun f g => g.gen = f.gen) a
      (a.setFrame h { f with slots := f.slots.setIfInBounds slot.toNat v }) :=
    .setFrame (fun _ => rfl) there rfl
  obtain ⟨new, after, gen⟩ := same _ old before
  exact ⟨new, after, gen ▸ passed⟩

theorem Holds.of_store (stored : a.store h slot v = .ok b) : b.Holds h slot v := by
  obtain ⟨f, there, inside, size, rfl⟩ := store_eq stored
  obtain ⟨found, -, gen⟩ := frame?_eq_some.mp there
  refine ⟨inside, { f with slots := f.slots.setIfInBounds slot.toNat v }, ?_, .inr ⟨gen, ?_⟩⟩
  · rw [setFrame_getElem? (Array.getElem?_eq_some_iff.mp found).1, if_pos rfl]
  · simp [size]

/-- A write changes no other slot of the same frame, and no other frame. -/
theorem Holds.store {u : Value} {place : Int} (holds : a.Holds g place u)
    (stored : a.store h slot v = .ok b) (other : ¬(h = g ∧ slot = place)) : b.Holds g place u := by
  obtain ⟨f, there, inside, -, rfl⟩ := store_eq stored
  obtain ⟨found, live, gen⟩ := frame?_eq_some.mp there
  obtain ⟨inside', old, before, occupant⟩ := holds
  refine ⟨inside', ?_⟩
  rw [setFrame_getElem? (Array.getElem?_eq_some_iff.mp found).1]
  split
  next slots =>
    rw [slots, before] at found
    cases found
    refine ⟨_, rfl, occupant.imp_right fun ⟨same, value⟩ => ⟨same, fun live => ?_⟩⟩
    have here : h = g := by
      have index := UInt32.toNat_inj.mp slots
      have gens := gen.symm.trans same
      cases h; cases g; simp_all
    have away : slot.toNat ≠ place.toNat := fun same => other ⟨here, by omega⟩
    rw [Array.getElem?_setIfInBounds, if_neg away]
    exact value live
  · exact ⟨old, before, occupant⟩

/-! ### New frames -/

/-- A frame that was not there, with void slots. -/
def Fresh (a b : Arena) (size : Int) (h : FrameHandle) : Prop :=
  ∃ g, b.frames[h.index.toNat]? = some g ∧ g.gen = h.gen ∧ g.live = true ∧
    g.slots = Array.replicate size.toNat .void ∧
    ∀ f, a.frames[h.index.toNat]? = some f → f.live = false ∧ g.gen = f.gen + 1

/-- How a level of a chain has come about. -/
def Level (a b : Arena) : Layer → FrameHandle → Prop
  | .shared g, h => h = g
  | .fresh size, h => a.Fresh b size h

theorem Fresh.before (grows : Each Grows a b) (fresh : b.Fresh c size h) : a.Fresh c size h := by
  obtain ⟨g, there, gen, live, slots, vacant⟩ := fresh
  refine ⟨g, there, gen, live, slots, fun f before => ?_⟩
  obtain ⟨k, middle, turned⟩ := grows _ f before
  obtain ⟨dead, next⟩ := vacant k middle
  rcases turned with ⟨stays, kept⟩ | ⟨-, alive⟩
  · refine ⟨Bool.eq_false_iff.mpr fun live => ?_, by rw [next, stays.1]⟩
    simp [kept live] at dead
  · simp [alive] at dead

theorem Fresh.after (fresh : a.Fresh b size h) (grows : Each Grows b c) : a.Fresh c size h := by
  obtain ⟨g, there, gen, live, slots, vacant⟩ := fresh
  obtain ⟨k, later, ⟨stays, kept⟩ | ⟨⟨dead, -⟩, -⟩⟩ := grows _ g there
  · have alive := kept live
    refine ⟨k, later, stays.1.trans gen, alive, (stays.2 alive).2.trans slots, fun f before => ?_⟩
    rw [stays.1]
    exact vacant f before
  · simp [live] at dead

theorem Makes.fresh {old : SharedFrame} (makes : Makes a size b h old) : a.Fresh b size h := by
  refine ⟨blank size h, by rw [makes.frames, if_pos rfl], rfl, rfl, rfl, fun f before => ?_⟩
  rcases makes.vacant with ⟨found, dead⟩ | ⟨last, -⟩
  · rw [found] at before
    cases before
    exact ⟨dead, makes.gen⟩
  · simp [last] at before

theorem Fresh.stale (fresh : a.Fresh b size h) : a.frame? h = none := by
  obtain ⟨g, -, -, -, -, vacant⟩ := fresh
  cases there : a.frame? h with
  | none => rfl
  | some f =>
    obtain ⟨found, live, -⟩ := frame?_eq_some.mp there
    simp [(vacant f found).1] at live

/-- A handle that has been given out is not given out again. -/
theorem Fresh.unissued (fresh : a.Fresh b size h) (ages : a.Ages b) : ¬a.Issued h := by
  rintro ⟨f, before, passed⟩
  obtain ⟨g, after, gen, -, -, vacant⟩ := fresh
  have lt := ages.renewed before after (vacant f before).2
  rw [gen] at lt
  exact UInt32.lt_irrefl _ (UInt32.lt_of_lt_of_le lt passed)

theorem Builds.grows (builds : Builds a layers b more) (tidy : a.Tidy)
    (slots : b.frames.size ≤ UInt32.size) : Each Grows a b := by
  induction builds with
  | done a => exact .refl Grows.refl a
  | shared retained later ih =>
    obtain ⟨first, tidy⟩ := retain_grows tidy retained
    exact first.comp (ih tidy slots) Grows.trans
  | fresh made later ih =>
    obtain ⟨first, tidy⟩ := alloc_grows tidy (by rw [made]; rfl) (Nat.le_trans later.size_le slots)
    exact first.comp (ih tidy slots) Grows.trans

/-- Levels that are built are shared or new, as they were asked for. -/
theorem Builds.levels (builds : Builds a layers b more) (tidy : a.Tidy)
    (slots : b.frames.size ≤ UInt32.size) : List.Forall₂ (Level a b) layers more := by
  induction builds with
  | done => exact .nil
  | shared retained later ih =>
    obtain ⟨grows, tidy⟩ := retain_grows tidy retained
    refine .cons rfl ((ih tidy slots).imp fun layer h level => ?_)
    cases layer with
    | shared => exact level
    | fresh => exact Fresh.before grows level
  | fresh made later ih =>
    have fits := Nat.le_trans later.size_le slots
    obtain ⟨grows, tidy'⟩ := alloc_grows tidy (by rw [made]; rfl) fits
    obtain ⟨old, makes⟩ := alloc_makes tidy made fits
    refine .cons (makes.fresh.after (later.grows tidy' slots))
      ((ih tidy' slots).imp fun layer h level => ?_)
    cases layer with
    | shared => exact level
    | fresh => exact Fresh.before grows level

theorem shared_mem_layers {chain : Chain} {sizes : List Int}
    (member : Layer.shared h ∈ Arena.layers chain sizes) : h ∈ chain := by
  obtain ⟨i, -, level⟩ := List.mem_map.mp member
  split at level
  next found =>
    split at level <;> cases level
    exact List.mem_of_getElem? found
  · cases level

theorem layers_innermost (chain : Chain) {sizes : List Int} (declared : sizes ≠ []) :
    (Arena.layers chain sizes)[sizes.length - 1]? = some (.fresh (sizes.getLast declared)) := by
  have positive := List.length_pos_iff.mpr declared
  have last : sizes.getD (sizes.length - 1) 0 = sizes.getLast declared := by
    rw [List.getLast_eq_getElem, List.getD_eq_getElem?_getD, List.getElem?_eq_getElem (by omega),
      Option.getD_some]
  have below : sizes.length - 1 < max chain.length sizes.length := by omega
  rw [Arena.layers, List.getElem?_map, List.getElem?_range below, Option.map_some, last]
  split
  · rw [if_pos (by omega)]
  · rfl

section Overlay

variable {chain made : Chain} {sizes : List Int}

theorem overlay_builds (overlaid : a.overlay chain sizes = .made b made) :
    Builds a (Arena.layers chain sizes) b made := by
  have attempt := overlayFrom_attempt a [] (Arena.layers chain sizes)
  rw [show a.overlayFrom [] (Arena.layers chain sizes) = .made b made from overlaid] at attempt
  cases attempt with
  | made builds => exact builds

/-- The levels of a chain that is built over another. -/
theorem overlay_levels (tidy : a.Tidy) (overlaid : a.overlay chain sizes = .made b made)
    (slots : b.frames.size ≤ UInt32.size) :
    List.Forall₂ (Level a b) (Arena.layers chain sizes) made :=
  (overlay_builds overlaid).levels tidy slots

theorem overlay_mem (tidy : a.Tidy) (overlaid : a.overlay chain sizes = .made b made)
    (slots : b.frames.size ≤ UInt32.size) (member : h ∈ made) :
    h ∈ chain ∨ ∃ size, a.Fresh b size h := by
  have levels := overlay_levels tidy overlaid slots
  obtain ⟨i, inside, rfl⟩ := List.getElem_of_mem member
  have below : i < (Arena.layers chain sizes).length := levels.length_eq ▸ inside
  have level := levels.get below inside
  have asked := List.getElem_mem below
  simp only [List.get_eq_getElem] at level
  generalize (Arena.layers chain sizes)[i] = layer at level asked
  cases layer with
  | shared g =>
    cases level
    exact .inl (shared_mem_layers asked)
  | fresh size => exact .inr ⟨size, level⟩

theorem overlay_innermost (tidy : a.Tidy) (overlaid : a.overlay chain sizes = .made b made)
    (slots : b.frames.size ≤ UInt32.size) (declared : sizes ≠ []) :
    ∃ h, made[sizes.length - 1]? = some h ∧ a.Fresh b (sizes.getLast declared) h := by
  have levels := overlay_levels tidy overlaid slots
  obtain ⟨below, asked⟩ := List.getElem?_eq_some_iff.mp (layers_innermost chain declared)
  have inside : sizes.length - 1 < made.length := levels.length_eq ▸ below
  have level := levels.get below inside
  simp only [List.get_eq_getElem, asked] at level
  exact ⟨_, List.getElem?_eq_getElem inside, level⟩

end Overlay

end Arena
end ScriptEngine
