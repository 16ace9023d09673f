import ScriptEngine.Proofs.Turns

/-! Classes and superclasses. What an object inherits from was there before it and
never changes, so every walk along classes and superclasses comes to an end by
itself. A search for members goes from an instance to its class and from a class
to its superclass; a test for membership follows superclasses only. The two agree
up to the first superclass that is an instance. -/
namespace ScriptEngine

open World

/-- Two states of one script object: what it inherits from has not changed. -/
structure ScriptObject.Inherits (o o' : ScriptObject) : Prop where
  name : o'.name = o.name
  cls : o'.cls = o.cls
  super : o'.super = o.super

namespace World

variable {w w₁ w₂ w₃ : World} {ref parent : ObjRef} {o o' : ScriptObject}

/-! ### How objects come to inherit -/

/-- What an object inherits from: a superclass that was there before it, or a
class that was there before it and makes it an instance. -/
inductive Born (w : World) (ref : ObjRef) (o : ScriptObject) : Prop
  | own (classless : o.cls = none)
      (before : ∀ parent, o.super = some parent → parent < ref ∧ (w.script? parent).isSome = true)
  | member {cls : ObjRef} {c : ScriptObject} (unnamed : o.name = []) (rootless : o.super = none)
      (classed : o.cls = some cls) (before : cls < ref) (there : w.script? cls = some c)
      (named : c.name ≠ [])

/-- All script objects inherit from what was there before them. -/
def Classed (w : World) : Prop := ∀ ref o, w.script? ref = some o → w.Born ref o

/-- Script objects are never removed and go on to inherit from the same. -/
def Endures (w w' : World) : Prop :=
  ∀ ref o, w.script? ref = some o → ∃ o', w'.script? ref = some o' ∧ o.Inherits o'

theorem Endures.refl (w : World) : Endures w w := fun _ o there => ⟨o, there, rfl, rfl, rfl⟩

theorem Endures.trans (first : Endures w₁ w₂) (second : Endures w₂ w₃) : Endures w₁ w₃ := by
  intro ref o there
  obtain ⟨o', there', kept⟩ := first ref o there
  obtain ⟨o'', there'', kept'⟩ := second ref o' there'
  exact ⟨o'', there'', kept'.name.trans kept.name, kept'.cls.trans kept.cls,
    kept'.super.trans kept.super⟩

theorem Born.endures (born : w₁.Born ref o) (endures : Endures w₁ w₂) (kept : o.Inherits o') :
    w₂.Born ref o' := by
  cases born with
  | own classless before =>
    refine .own (kept.cls.trans classless) fun parent inherited => ?_
    obtain ⟨earlier, present⟩ := before parent (kept.super ▸ inherited)
    obtain ⟨p, there⟩ := Option.isSome_iff_exists.mp present
    obtain ⟨p', there', -⟩ := endures parent p there
    exact ⟨earlier, by rw [there']; rfl⟩
  | member unnamed rootless classed before there named =>
    obtain ⟨c', there', same⟩ := endures _ _ there
    exact .member (kept.name.trans unnamed) (kept.super.trans rootless) (kept.cls.trans classed)
      before there' (same.name ▸ named)

/-- A change after which objects inherit from what was there before them, if they
did. -/
structure Breeds (w w' : World) : Prop where
  endures : Endures w w'
  classed : w.Classed → w'.Classed

namespace Breeds

theorem refl (w : World) : Breeds w w := ⟨.refl w, id⟩

theorem trans (first : Breeds w₁ w₂) (second : Breeds w₂ w₃) : Breeds w₁ w₃ :=
  ⟨first.endures.trans second.endures, second.classed ∘ first.classed⟩

/-- Objects that are new must inherit from what was there. -/
theorem of_new (endures : Endures w₁ w₂)
    (new : ∀ ref o, w₂.script? ref = some o → w₂.Born ref o ∨
      ∃ before, w₁.script? ref = some before ∧ before.Inherits o) : Breeds w₁ w₂ where
  endures := endures
  classed classed ref o there := by
    rcases new ref o there with born | ⟨before, there', kept⟩
    · exact born
    · exact (classed ref before there').endures endures kept

theorem same (heap : w₂.heap = w₁.heap) : Breeds w₁ w₂ := by
  have scripts (ref : ObjRef) : w₂.script? ref = w₁.script? ref := by
    rw [script?, heap, script?]
  refine of_new (fun ref o there => ⟨o, (scripts ref).trans there, rfl, rfl, rfl⟩) ?_
  intro ref o there
  exact .inr ⟨o, (scripts ref).symm.trans there, rfl, rfl, rfl⟩

end Breeds

theorem script?_create_old (o : Object) (old : ref < w.heap.size) :
    (w.create o).1.script? ref = w.script? ref := by
  simp [script?, World.create, Array.getElem?_push, Nat.ne_of_lt old]

theorem heap_of_script? (there : w.script? ref = some o) : w.heap[ref]? = some (.script o) := by
  unfold script? at there
  split at there
  next found => rw [found, Option.some.inj there]
  · cases there

theorem lt_size_of_script? (there : w.script? ref = some o) : ref < w.heap.size :=
  (Array.getElem?_eq_some_iff.mp (heap_of_script? there)).1

theorem create_breeds {made : Object}
    (born : ∀ s, made = .script s → (w.create made).1.Born w.heap.size s) :
    Breeds w (w.create made).1 := by
  refine .of_new (fun ref o there => ⟨o, ?_, rfl, rfl, rfl⟩) fun ref o there => ?_
  · rw [script?_create_old made (lt_size_of_script? there), there]
  · have inside := lt_size_of_script? there
    rw [World.create, Array.size_push] at inside
    rcases Nat.lt_succ_iff_lt_or_eq.mp inside with old | rfl
    · exact .inr ⟨o, (script?_create_old made old).symm.trans there, rfl, rfl, rfl⟩
    · refine .inl (born o ?_)
      simp only [script?, World.create, Array.getElem?_push_size] at there
      split at there
      next found => cases there; exact Option.some.inj found
      · cases there

/-- What is no script object inherits nothing. -/
theorem create_other_breeds {made : Object} (other : ∀ s, made ≠ .script s) :
    Breeds w (w.create made).1 :=
  create_breeds fun s same => absurd same (other s)

theorem script?_setObject (ref : ObjRef) (new : Object) (other : ObjRef) (apart : ref ≠ other) :
    (w.setObject ref new).script? other = w.script? other := by
  simp [script?, setObject, apart]

theorem modifyScript_breeds {f : ScriptObject → ScriptObject}
    (keeps : ∀ o, (f o).name = o.name ∧ (f o).cls = o.cls ∧ (f o).super = o.super) :
    Breeds w (w.modifyScript ref f) := by
  rcases modifyScript_eq w ref f with same | ⟨held, there, same⟩
  · rw [same]
    exact .refl w
  · have inside := (Array.getElem?_eq_some_iff.mp there).1
    have before : w.script? ref = some held := by rw [script?, there]
    have after : (w.setObject ref (.script (f held))).script? ref = some (f held) := by
      simp [script?, setObject, inside]
    have kept : held.Inherits (f held) := ⟨(keeps held).1, (keeps held).2.1, (keeps held).2.2⟩
    rw [same]
    refine .of_new (fun other o found => ?_) fun other o found => ?_
    · by_cases here : ref = other
      · subst here
        cases before.symm.trans found
        exact ⟨f held, after, kept⟩
      · exact ⟨o, (script?_setObject ref _ other here).trans found, rfl, rfl, rfl⟩
    · by_cases here : ref = other
      · subst here
        cases after.symm.trans found
        exact .inr ⟨held, before, kept⟩
      · exact .inr ⟨o, (script?_setObject ref _ other here).symm.trans found, rfl, rfl, rfl⟩

theorem bindName_breeds {name : Text} {slot : BindingSlot} :
    Breeds w (w.bindName ref name slot) := by
  rcases bindName_eq w ref name slot with same | ⟨chain, this, names, there, same⟩
  · rw [same]
    exact .refl w
  · have scripts (other : ObjRef) : (w.setObject ref
        (.binding chain this (names.insert name slot))).script? other = w.script? other := by
      by_cases here : ref = other
      · subst here
        have inside := (Array.getElem?_eq_some_iff.mp there).1
        rw [script?, script?, there]
        simp [setObject, inside]
      · exact script?_setObject ref _ other here
    rw [same]
    exact .of_new (fun other o found => ⟨o, (scripts other).trans found, rfl, rfl, rfl⟩)
      fun other o found => .inr ⟨o, (scripts other).symm.trans found, rfl, rfl, rfl⟩

theorem Act.breeds (act : Act w₁ w₂) : Breeds w₁ w₂ := by
  cases act with
  | create spawns =>
    refine create_breeds fun s same => ?_
    cases spawns with
    | plain _ other => exact absurd same (other s)
    | object => cases same; exact .own rfl nofun
    | member there named =>
      cases same
      have before := lt_size_of_script? there
      exact .member rfl rfl rfl before ((script?_create_old _ before).trans there) named
  | modifyScript ref f keeps => exact modifyScript_breeds keeps
  | bindName => exact bindName_breeds
  | store | raise | report | print | setLock => exact .same rfl

theorem Acts.breeds (acts : Acts w₁ w₂) : Breeds w₁ w₂ :=
  acts.keeps (P := Breeds w₁) (fun act before => before.trans act.breeds) (.refl w₁)

end World

/-! ### What running code does -/

namespace Activation

variable {e : Engine} {w w₁ : World} {a : Activation} {plan : Plan} {dst : Option Nat}
  {taken : Option SignalRef} {n : Next}

theorem Takes.breeds {makes : Object → Prop} (takes : a.Takes w makes w₁)
    (other : ∀ o s, makes o → o ≠ .script s) : Breeds w w₁ := by
  cases takes with
  | nothing => exact .refl w
  | @captured arena o retained made =>
    have counted : Breeds w { w with arena } := .same rfl
    exact counted.trans (create_other_breeds fun s => other o s made)
  | refused => exact .same rfl

theorem Turn.breeds (turn : a.Turn w plan dst taken n)
    (other : ∀ o s, plan.makes o → o ≠ .script s) : Breeds w n.world := by
  cases turn with
  | goes takes acts stores =>
    exact ((takes.breeds other).trans acts.breeds).trans (.same (by cases stores <;> rfl))
  | asks acts => exact acts.breeds
  | returns => exact .same rfl
  | fails f takes acts =>
    exact ((takes.breeds other).trans acts.breeds).trans (.same (annotate_heap ..).1)
  | stops takes acts stores =>
    exact ((takes.breeds other).trans acts.breeds).trans (.same (by cases stores <;> rfl))

/-- Instructions capture their chain with closures and bindings only. -/
theorem stepPlan_makes_unscripted {o : Object} (made : (a.stepPlan e w).makes o) (s : ScriptObject) :
    o ≠ .script s := by
  unfold stepPlan at made
  split at made
  · rcases made with ⟨_, _, _, _, -, rfl⟩ | ⟨_, _, -, rfl⟩ <;> nofun
  · cases made

end Activation

theorem Machine.step_breeds (e : Engine) (s : State) : Breeds s.world (step e s).world := by
  cases whose : s.turn? with
  | some a =>
    obtain ⟨await?, n, turns, stepped⟩ := step_turns e whose
    rw [stepped]
    cases turns with
    | runs turn => exact turn.breeds fun _ s made => Activation.stepPlan_makes_unscripted made s
    | goes turn => exact turn.breeds fun _ _ made => made.elim
  | none =>
    have transition := step_transition e s
    generalize step e s = s' at transition
    cases transition with
    | rests | vacant => exact .refl _
    | answers _ calm | passes _ calm => exact calm.acts.breeds
    | begins enters => exact .same enters.parts.1
    | runs | returns => cases whose
    | @unwinds w p top rest =>
      cases top with
      | unlock ref => exact (unlock_acts w ref).breeds
      | _ => exact .same rfl

/-! ### Walks -/

namespace World

variable {w : World} {ref : ObjRef} {o : ScriptObject} {follow : ScriptObject → Option ObjRef}
  {path : List ObjRef}

/-- The objects that a walk along script objects visits, up to one that has
nothing to go on with. -/
inductive Visits (w : World) (follow : ScriptObject → Option ObjRef) : ObjRef → List ObjRef → Prop
  | last {ref : ObjRef} {o : ScriptObject} (there : w.script? ref = some o)
      (ends : follow o = none) : Visits w follow ref [ref]
  | goes {ref parent : ObjRef} {o : ScriptObject} {path : List ObjRef}
      (there : w.script? ref = some o) (next : follow o = some parent)
      (rest : Visits w follow parent path) : Visits w follow ref (ref :: path)

/-- What a walk goes on with was there before. -/
def Backward (w : World) (follow : ScriptObject → Option ObjRef) : Prop :=
  ∀ ref o parent, w.script? ref = some o → follow o = some parent →
    parent < ref ∧ (w.script? parent).isSome = true

theorem Backward.visits (backward : w.Backward follow) (there : (w.script? ref).isSome = true) :
    ∃ path, w.Visits follow ref path := by
  induction ref using Nat.strongRecOn with
  | ind ref ih =>
    obtain ⟨o, there⟩ := Option.isSome_iff_exists.mp there
    cases next : follow o with
    | none => exact ⟨_, .last there next⟩
    | some parent =>
      obtain ⟨earlier, present⟩ := backward ref o parent there next
      obtain ⟨path, rest⟩ := ih parent earlier present
      exact ⟨_, .goes there next rest⟩

namespace Visits

theorem le (backward : w.Backward follow) (visits : w.Visits follow ref path) :
    ∀ other ∈ path, other ≤ ref := by
  induction visits with
  | last => simp
  | goes there next _ ih =>
    intro other member
    rcases List.mem_cons.mp member with rfl | later
    · exact Nat.le_refl _
    · exact Nat.le_trans (ih other later) (Nat.le_of_lt (backward _ _ _ there next).1)

/-- A walk never comes back. -/
theorem descending (backward : w.Backward follow) (visits : w.Visits follow ref path) :
    path.Pairwise (· > ·) := by
  induction visits with
  | last => exact List.pairwise_singleton ..
  | goes there next rest ih =>
    refine List.pairwise_cons.mpr ⟨fun other member => ?_, ih⟩
    exact Nat.lt_of_le_of_lt (rest.le backward other member) (backward _ _ _ there next).1

theorem length_le (backward : w.Backward follow) (visits : w.Visits follow ref path) :
    path.length ≤ w.heap.size := by
  suffices bound : path.length ≤ ref + 1 by
    cases visits with
    | last there | goes there => exact Nat.le_trans bound (lt_size_of_script? there)
  induction visits with
  | last => simp
  | goes there next _ ih =>
    exact Nat.succ_le_succ (Nat.le_trans ih (backward _ _ _ there next).1)

end Visits

/-- The member that a search finds at an object, if it is to find one there. -/
def admitted (w : World) (name : Text) (flags : Flags) (ref : ObjRef) : Option (Member × ObjRef) :=
  (w.script? ref).bind fun o =>
    ((o.members.find? name).filter (admits flags ·.attr)).map (·, ref)

/-- A search finds the first member that it is to find. -/
theorem lookupFrom_visits {name : Text} {flags : Flags} {fuel : Nat}
    (visits : w.Visits ScriptObject.next ref path) (enough : path.length ≤ fuel) :
    w.lookupFrom name flags fuel ref = path.findSome? (w.admitted name flags) := by
  induction visits generalizing fuel with
  | last there ends =>
    obtain ⟨fuel, rfl⟩ := Nat.exists_eq_succ_of_ne_zero (Nat.ne_of_gt enough)
    simp only [lookupFrom, there, List.findSome?_cons, List.findSome?_nil, admitted,
      Option.bind_some, ends, Option.bind_none]
    cases Option.filter _ _ <;> rfl
  | goes there next rest ih =>
    obtain ⟨fuel, rfl⟩ := Nat.exists_eq_succ_of_ne_zero (Nat.ne_of_gt (Nat.zero_lt_of_lt enough))
    simp only [lookupFrom, there, List.findSome?_cons, admitted, Option.bind_some, next]
    rw [ih (Nat.le_of_succ_le_succ enough)]
    cases Option.filter _ _ <;> rfl

/-- A test for membership goes through the superclasses. -/
theorem descends_visits {target : ObjRef} {fuel : Nat}
    (visits : w.Visits ScriptObject.super ref path) (enough : path.length ≤ fuel) :
    w.descends target fuel (some ref) = decide (target ∈ path) := by
  induction visits generalizing fuel with
  | last there ends =>
    obtain ⟨fuel, rfl⟩ := Nat.exists_eq_succ_of_ne_zero (Nat.ne_of_gt enough)
    -- The fuel may be spent right after the last object.
    cases fuel <;> simp [descends, there, ends, eq_comm]
  | goes there next rest ih =>
    obtain ⟨fuel, rfl⟩ := Nat.exists_eq_succ_of_ne_zero (Nat.ne_of_gt (Nat.zero_lt_of_lt enough))
    simp [descends, there, next, ih (Nat.le_of_succ_le_succ enough), eq_comm]

/-! ### Both walks -/

theorem Classed.backward (classed : w.Classed) : w.Backward ScriptObject.next := by
  intro ref o parent there next
  cases classed ref o there with
  | own classless before => exact before parent (by simpa [ScriptObject.next, classless] using next)
  | member _ _ same before present =>
    simp only [ScriptObject.next, same, Option.orElse_some, Option.some.injEq] at next
    subst next
    exact ⟨before, by rw [present]; rfl⟩

theorem Classed.super_eq_none (classed : w.Classed) (there : w.script? ref = some o)
    (member : o.cls.isSome = true) : o.super = none := by
  cases classed ref o there with
  | own classless => rw [classless] at member; cases member
  | member _ rootless => exact rootless

theorem Classed.backward_super (classed : w.Classed) : w.Backward ScriptObject.super := by
  intro ref o parent there inherited
  refine classed.backward ref o parent there ?_
  cases member : o.cls with
  | none => simpa [ScriptObject.next, member] using inherited
  | some cls =>
    rw [classed.super_eq_none there (by rw [member]; rfl)] at inherited
    cases inherited

/-- Whether an object is an instance of a class. -/
def isInstance (w : World) (ref : ObjRef) : Bool := ((w.script? ref).bind (·.cls)).isSome

/-- The part of a walk up to the first instance. -/
def untilInstance (w : World) : List ObjRef → List ObjRef
  | [] => []
  | ref :: rest => ref :: if w.isInstance ref then [] else w.untilInstance rest

/-- Superclasses are what a search visits, up to the first instance. -/
theorem Visits.superclasses (classed : w.Classed) (visits : w.Visits ScriptObject.next ref path) :
    w.Visits ScriptObject.super ref (w.untilInstance path) := by
  induction visits with
  | @last ref o there ends =>
    have rootless : o.super = none := by
      cases member : o.cls <;> simp_all [ScriptObject.next]
    simpa [untilInstance] using Visits.last there rootless
  | @goes ref parent o path there next rest ih =>
    cases member : o.cls with
    | some cls =>
      have rootless := classed.super_eq_none there (by rw [member]; rfl)
      simpa [untilInstance, isInstance, there, member] using Visits.last there rootless
    | none =>
      have inherited : o.super = some parent := by simpa [ScriptObject.next, member] using next
      simpa [untilInstance, isInstance, there, member] using Visits.goes there inherited ih

/-- No object has an instance for a superclass. -/
def Proper (w : World) : Prop :=
  ∀ ref o parent, w.script? ref = some o → o.super = some parent → w.isInstance parent = false

theorem Proper.untilInstance_eq (proper : w.Proper) (visits : w.Visits ScriptObject.next ref path)
    (start : w.isInstance ref = false) : w.untilInstance path = path := by
  induction visits with
  | last => simp [untilInstance]
  | @goes ref parent o path there next rest ih =>
    have classless : o.cls = none := by simpa [isInstance, there] using start
    have inherited : o.super = some parent := by simpa [ScriptObject.next, classless] using next
    simp [untilInstance, start, ih (proper ref o parent there inherited)]

/-! ### Worlds that grew from nothing -/

/-- How worlds grow: a host makes plain objects and classes, with a superclass
that is there if any, and all other kinds of objects; machines make transitions;
and members, attached data and everything outside the heap may change. -/
inductive Grows : World → World → Prop
  | founds (w : World) (name : Text) {super : Option ObjRef}
      (there : ∀ parent, super = some parent → (w.script? parent).isSome = true) :
      Grows w (w.create (.script { name, super })).1
  | makes (w : World) {o : Object} (other : ∀ s, o ≠ .script s) : Grows w (w.create o).1
  | runs (e : Engine) (s : State) : Grows s.world (Machine.step e s).world
  | changes {w w' : World} (acts : Acts w w') : Grows w w'
  | apart {w w' : World} (heap : w'.heap = w.heap) : Grows w w'

theorem Grows.breeds {w w' : World} (grows : Grows w w') : Breeds w w' := by
  cases grows with
  | founds w name there =>
    refine create_breeds fun s same => ?_
    cases same
    refine .own rfl fun parent inherited => ?_
    obtain ⟨o, present⟩ := Option.isSome_iff_exists.mp (there parent inherited)
    have before := lt_size_of_script? present
    exact ⟨before, by rw [script?_create_old _ before, present]; rfl⟩
  | makes w other => exact create_other_breeds other
  | runs e s => exact Machine.step_breeds e s
  | changes acts => exact acts.breeds
  | apart heap => exact .same heap

theorem breeds_of_grows {w w' : World} (grown : Relation.ReflTransGen Grows w w') :
    Breeds w w' := by
  induction grown with
  | refl => exact .refl w
  | tail _ last ih => exact ih.trans last.breeds

/-- What is known of classes. -/
structure Lineage (e : Engine) (w : World) : Prop where
  /-- Objects inherit from what was there before them. -/
  before : ∀ ref o parent, w.script? ref = some o → o.cls = some parent ∨ o.super = some parent →
    parent < ref ∧ (w.script? parent).isSome = true
  /-- An instance has no name and no superclass, and its class has a name. -/
  instances : ∀ ref o cls, w.script? ref = some o → o.cls = some cls →
    o.name = [] ∧ o.super = none ∧ ∃ c, w.script? cls = some c ∧ c.name ≠ []
  /-- A class is no instance. -/
  classes : ∀ ref o, w.script? ref = some o → o.name ≠ [] → o.cls = none
  /-- A search comes to an end, and visits nothing twice. -/
  ends : ∀ ref, (w.script? ref).isSome = true →
    ∃ path, w.Visits ScriptObject.next ref (ref :: path) ∧ (ref :: path).Pairwise (· > ·)
  /-- It finds the first member that it is to find, from an object or from its
  class, and would find no other if it were let to go further. -/
  search : ∀ ref path name flags, w.Visits ScriptObject.next ref (ref :: path) →
    (∀ fuel, w.heap.size ≤ fuel →
      w.lookupFrom name flags fuel ref = (ref :: path).findSome? (w.admitted name flags)) ∧
    w.lookup ref name flags =
      (if flags.has Flags.classRule && w.isInstance ref then path else ref :: path).findSome?
        (w.admitted name flags)
  /-- A test for membership goes through what a search visits up to the first
  instance, and would find no more if it were let to go further. -/
  descent : ∀ ref path target fuel, w.Visits ScriptObject.next ref path → w.heap.size ≤ fuel →
    w.descends target fuel (some ref) = decide (target ∈ w.untilInstance path)
  /-- What an instance is an instance of. -/
  ofInstance : ∀ ref path target c context r, w.Visits ScriptObject.next ref (ref :: path) →
    w.isInstance ref = true → w.script? target = some c → r.operation = .instanceOf →
    r.name = [] → r.arg 0 = .object target context →
    dispatch e w ref r = .result w (.bool (decide (target ∈ w.untilInstance path)))
  /-- What a class descends from. -/
  ofClass : ∀ ref o path target c context r, w.Visits ScriptObject.next ref (ref :: path) →
    w.script? ref = some o → o.name ≠ [] → w.script? target = some c → r.operation = .instanceOf →
    r.name = [] → r.arg 0 = .object target context →
    dispatch e w ref r = .result w (.bool (decide (target ∈ w.untilInstance (ref :: path))))
  /-- If no superclass is an instance, both go through all that a search visits. -/
  proper : w.Proper → ∀ ref path, w.Visits ScriptObject.next ref (ref :: path) →
    w.untilInstance path = path ∧
      (w.isInstance ref = false → w.untilInstance (ref :: path) = ref :: path)

namespace Classed

theorem named_classless (classed : w.Classed) (there : w.script? ref = some o)
    (named : o.name ≠ []) : o.cls = none := by
  cases classed ref o there with
  | own classless => exact classless
  | member unnamed => exact absurd unnamed named

theorem before (classed : w.Classed) {parent : ObjRef} (there : w.script? ref = some o)
    (inherits : o.cls = some parent ∨ o.super = some parent) :
    parent < ref ∧ (w.script? parent).isSome = true := by
  rcases inherits with member | inherited
  · exact classed.backward ref o parent there (by simp [ScriptObject.next, member])
  · exact classed.backward_super ref o parent there inherited

theorem instances (classed : w.Classed) {cls : ObjRef} (there : w.script? ref = some o)
    (member : o.cls = some cls) :
    o.name = [] ∧ o.super = none ∧ ∃ c, w.script? cls = some c ∧ c.name ≠ [] := by
  cases classed ref o there with
  | own classless => rw [classless] at member; cases member
  | member unnamed rootless same before present named =>
    cases same.symm.trans member
    exact ⟨unnamed, rootless, _, present, named⟩

end Classed

theorem Visits.cons (visits : w.Visits follow ref path) : ∃ rest, path = ref :: rest := by
  cases visits with
  | last | goes => exact ⟨_, rfl⟩

/-- A search goes on from an instance with its class. -/
theorem Visits.instance_class (visits : w.Visits ScriptObject.next ref (ref :: path))
    (member : w.isInstance ref = true) :
    ∃ o cls, w.script? ref = some o ∧ o.cls = some cls ∧ w.Visits ScriptObject.next cls path := by
  cases visits with
  | last there ends => simp_all [isInstance, ScriptObject.next]
  | goes there next rest =>
    obtain ⟨cls, classed⟩ : ∃ cls, _ := Option.isSome_iff_exists.mp member
    simp only [there, Option.bind_some] at classed
    simp only [ScriptObject.next, classed, Option.orElse_some, Option.some.injEq] at next
    exact ⟨_, cls, there, classed, next ▸ rest⟩

theorem lookup_visits (classed : w.Classed) {name : Text} {flags : Flags}
    (visits : w.Visits ScriptObject.next ref (ref :: path)) :
    w.lookup ref name flags =
      (if flags.has Flags.classRule && w.isInstance ref then path else ref :: path).findSome?
        (w.admitted name flags) := by
  have direct : w.lookupFrom name flags w.heap.size ref =
      (ref :: path).findSome? (w.admitted name flags) :=
    lookupFrom_visits visits (visits.length_le classed.backward)
  unfold lookup
  cases flags.has Flags.classRule with
  | false => simpa using direct
  | true =>
    cases member : w.isInstance ref with
    | false =>
      rw [isInstance, Option.isSome_eq_false_iff, Option.isNone_iff_eq_none] at member
      simpa [member] using direct
    | true =>
      obtain ⟨o, cls, there, same, rest⟩ := visits.instance_class member
      simpa [there, same] using lookupFrom_visits rest (rest.length_le classed.backward)

theorem descends_superclasses (classed : w.Classed) {target : ObjRef} {fuel : Nat}
    (visits : w.Visits ScriptObject.next ref path) (enough : w.heap.size ≤ fuel) :
    w.descends target fuel (some ref) = decide (target ∈ w.untilInstance path) := by
  have above := visits.superclasses classed
  exact descends_visits above (Nat.le_trans (above.length_le classed.backward_super) enough)

/-- A script object answers by its class if it has one, and by itself if it is a
class. -/
theorem dispatch_instanceOf (e : Engine) {start target : ObjRef} {c : ScriptObject}
    {context : Option ObjRef} {r : Request} (there : w.script? ref = some o)
    (asked : r.operation = .instanceOf) (unnamed : r.name = [])
    (asks : r.arg 0 = .object target context) (present : w.script? target = some c)
    (starts : o.cls.orElse (fun _ => if o.name = [] then none else some ref) = some start) :
    dispatch e w ref r = .result w (.bool (w.descends target w.heap.size (some start))) := by
  simp only [dispatch, heap_of_script? there, ScriptObject.answer, asked, ScriptObject.instanceOf,
    unnamed, starts, inClass, asks, Value.object?, present]
  simp

/-- Classes are there before what inherits from them and stay what they are. Every
search comes to an end, and a test for membership agrees with it up to the first
instance on its way. -/
theorem class_chains_end (e : Engine) {w w' : World} (grown : Relation.ReflTransGen Grows {} w)
    (later : Relation.ReflTransGen Grows w w') : w.Lineage e ∧ w.Endures w' := by
  have classed : w.Classed := (breeds_of_grows grown).classed fun ref o there => by cases there
  refine ⟨?_, (breeds_of_grows later).endures⟩
  constructor
  case before => exact fun ref o parent there inherits => classed.before there inherits
  case instances => exact fun ref o cls there member => classed.instances there member
  case classes => exact fun ref o there named => classed.named_classless there named
  case ends =>
    intro ref present
    obtain ⟨_, visits⟩ := classed.backward.visits present
    obtain ⟨path, rfl⟩ := visits.cons
    exact ⟨path, visits, visits.descending classed.backward⟩
  case search =>
    intro ref path name flags visits
    have bound := visits.length_le classed.backward
    exact ⟨fun fuel enough => lookupFrom_visits visits (Nat.le_trans bound enough),
      lookup_visits classed visits⟩
  case descent => exact fun ref path target fuel visits => descends_superclasses classed visits
  case ofInstance =>
    intro ref path target c context r visits member present asked unnamed asks
    obtain ⟨o, cls, there, same, rest⟩ := visits.instance_class member
    rw [dispatch_instanceOf e there asked unnamed asks present (by rw [same]; rfl),
      descends_superclasses classed rest (Nat.le_refl _)]
  case ofClass =>
    intro ref o path target c context r visits there named present asked unnamed asks
    have starts : o.cls.orElse (fun _ => if o.name = [] then none else some ref) = some ref := by
      simp [classed.named_classless there named, named]
    rw [dispatch_instanceOf e there asked unnamed asks present starts,
      descends_superclasses classed visits (Nat.le_refl _)]
  case proper =>
    intro proper ref path visits
    refine ⟨?_, proper.untilInstance_eq visits⟩
    cases visits with
    | last => rfl
    | @goes _ parent o _ there next rest =>
      refine proper.untilInstance_eq rest ?_
      cases member : o.cls with
      | none => exact proper ref o parent there (by simpa [ScriptObject.next, member] using next)
      | some cls =>
        obtain ⟨-, -, c, present, named⟩ := classed.instances there member
        simp only [ScriptObject.next, member, Option.orElse_some, Option.some.injEq] at next
        simp [isInstance, ← next, present, classed.named_classless present named]

/-- A class, a subclass of it, and an instance of that. -/
def bred : World where
  heap := #[.script { name := utf8 "C" }, .script { name := utf8 "D", super := some 0 },
    .script { cls := some 1 }]

/-- A class more, with the instance for its superclass. -/
def crossbred : World := (bred.create (.script { name := utf8 "K", super := some 2 })).1

theorem grows_bred : Relation.ReflTransGen Grows {} bred := by
  have founded : Grows {} { heap := #[.script { name := utf8 "C" }] } :=
    .founds {} (utf8 "C") nofun
  have extended : Grows { heap := #[.script { name := utf8 "C" }] }
      { heap := #[.script { name := utf8 "C" }, .script { name := utf8 "D", super := some 0 }] } :=
    .founds _ (utf8 "D") (by rintro _ ⟨⟩; rfl)
  have constructed : Grows _ bred := .runs Machine.plainEngine
    ⟨{ heap := #[.script { name := utf8 "C" }, .script { name := utf8 "D", super := some 0 }] },
      .dispatch 1 { operation := .new }, []⟩
  exact ((Relation.ReflTransGen.single founded).tail extended).tail constructed

theorem grows_crossbred : Grows bred crossbred :=
  .founds bred (utf8 "K") (by rintro _ ⟨⟩; rfl)

theorem visits_bred : bred.Visits ScriptObject.next 2 [2, 1, 0] :=
  .goes rfl rfl (.goes rfl rfl (.last rfl rfl))

/-- A search from a class goes on from an instance that is its superclass to the
class of that, which a test for membership does not. -/
theorem instance_for_superclass :
    Relation.ReflTransGen Grows {} crossbred ∧
    crossbred.Visits ScriptObject.next 3 [3, 2, 1, 0] ∧
    crossbred.className 3 = utf8 "K" ∧ crossbred.className 0 = utf8 "C" ∧
    dispatch Machine.plainEngine crossbred 3
      { operation := .instanceOf, args := [.object 0 none] } = .result crossbred (.bool false) :=
  ⟨grows_bred.tail grows_crossbred,
    .goes rfl rfl (.goes rfl rfl (.goes rfl rfl (.last rfl rfl))), rfl, rfl, rfl⟩

/-- The instance is one of both classes, and stays one of its own. -/
theorem bred_class_chains :
    dispatch Machine.plainEngine bred 2
      { operation := .instanceOf, args := [.object 0 none] } = .result bred (.bool true) ∧
    ∃ o, crossbred.script? 2 = some o ∧ o.cls = some 1 := by
  obtain ⟨lineage, endures⟩ :=
    class_chains_end Machine.plainEngine grows_bred (.single grows_crossbred)
  constructor
  · rw [lineage.ofInstance 2 [1, 0] 0 _ none _ visits_bred rfl rfl rfl rfl rfl]
    rfl
  · obtain ⟨o, there, kept⟩ := endures 2 _ rfl
    exact ⟨o, there, kept.cls⟩

end World
end ScriptEngine
