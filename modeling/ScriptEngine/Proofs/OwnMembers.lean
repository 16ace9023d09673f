import ScriptEngine.Proofs.MemberWrites
import ScriptEngine.Proofs.WorldViews

/-! Who changes the members of objects. A script object changes one of its own when it
is asked directly, to write it or to set its attributes, and grants that. Every other
transition, of blocks, answers, failures and locks, leaves the members of all objects as
they are. -/
namespace ScriptEngine

/-! ### Own members -/

/-- The members of an object; only script objects have any. -/
def Object.members : Object → Table Member
  | .script o => o.members
  | _ => {}

namespace World

/-- The members that the object at a place itself has. -/
def members (w : World) (ref : ObjRef) : Table Member := (w.heap[ref]?).elim {} Object.members

/-- The member of a name that the object at a place itself has. -/
def own? (w : World) (ref : ObjRef) (key : Text) : Option Member := (w.members ref).find? key

variable {w : World} {ref : ObjRef} {key : Text} {m : Member}

theorem own?_eq (w : World) (ref : ObjRef) (key : Text) :
    w.own? ref key = (w.script? ref).bind (·.members.find? key) := by
  simp only [own?, members, script?]
  cases w.heap[ref]? with
  | none => rfl
  | some object => cases object <;> rfl

theorem script?_of_own? (own : w.own? ref key = some m) :
    ∃ o, w.script? ref = some o ∧ o.members.find? key = some m := by
  rw [own?_eq] at own
  exact Option.bind_eq_some_iff.mp own

end World

/-! ### Changes that leave members alone -/

/-- The view that shows the members of objects. -/
def memberView : View (ObjRef → Table Member) :=
  .ofScripts {} Object.members (fun o plain => by cases o <;> first | rfl | cases plain)
    (fun _ => rfl) (fun _ _ same => same)

theorem memberView_ofObjects : memberView.OfObjects := View.ofScripts_ofObjects

namespace World

variable {w w' : World}

theorem members_of_heap (same : w'.heap = w.heap) : w'.members = w.members := shown_of_heap same

variable (w)

theorem create_members {o : Object} (bare : o.members = {}) :
    (w.create o).1.members = w.members := shown_create bare

end World

/-- Objects that are not asked to change a member change none; those of other kinds have
none to change. -/
theorem dispatch_members (e : Engine) (w : World) (ref : ObjRef) (r : Request)
    (other : w.script? ref = none ∨ r.edits? w = none) :
    (dispatch e w ref r).world.members = w.members :=
  (dispatch_spares memberView e w ref r (.inr other) (.inl memberView_ofObjects)).same

theorem resume_members (w : World) (r : Reply) (top : Cont) :
    (Machine.resume w r top).world.members = w.members := by
  cases top with
  | code a await => exact (a.resume_spares memberView_ofObjects w r await).same
  | unlock ref => rfl
  | _ => exact (resume_spares memberView w r rfl rfl).same

theorem Activation.advance_members (e : Engine) (w : World) (a : Activation) :
    (a.advance e w).world.members = w.members := by
  unfold advance
  split
  next action _ =>
    cases taken : action.lock? with
    | none => exact (a.perform_spares memberView_ofObjects w e taken).same
    | some owner =>
      cases action with
      | request target r lock await =>
        subst taken
        rfl
      | _ => cases taken
  · rfl

/-! ### Edits -/

/-- A change of a member that its object grants: whose member, which one, and the
attributes that the request carries. -/
structure Edit where
  ref : ObjRef
  key : Text
  attr : Attribute
deriving DecidableEq, Repr

/-- The change of a member that the next transition makes. -/
def State.edit? (e : Engine) (s : State) : Option Edit :=
  match s.control with
  | .dispatch ref r =>
    match s.world.script? ref, (dispatch e s.world ref r).control with
    | some _, .reply (.done _) => (r.edits? s.world).map fun key => ⟨ref, key, r.flags.attr⟩
    | _, _ => none
  | _ => none

section Edits

open World

variable {e : Engine} {w : World} {ref : ObjRef} {o : ScriptObject} {r : Request} {key : Text}
  {m : Member} {s : State} {attr : Attribute}

/-- A script object gets a member, or another in place of one. -/
theorem World.own?_insert (there : w.script? ref = some o) (m : Member) (other : ObjRef)
    (place : Text) :
    (w.modifyScript ref fun o => { o with members := o.members.insert key m }).own? other place =
      if other = ref ∧ place = key then some m else w.own? other place := by
  simp only [own?_eq, modifyScript, there]
  by_cases here : other = ref
  · subst here
    have after : (w.setObject other (.script { o with members := o.members.insert key m })).script?
        other = some { o with members := o.members.insert key m } := by
      simp [script?, setObject, lt_size_of_script? there]
    rw [after, there]
    by_cases same : place = key
    · subst same
      simp
    · simp [same, Table.find?_insert_of_ne _ _ same]
  · rw [script?_setObject ref _ other (Ne.symm here), if_neg fun both => here both.1]

/-- What a script object does with a request to change a member: it declines and nothing
changes, or it grants it and that member changes. -/
inductive ScriptObject.Edits (w : World) (ref : ObjRef) (r : Request) (key : Text) : Next → Prop
  | declines {n : Next} (same : n.world = w)
      (ungranted : ∀ written, n.control ≠ .reply (.done written)) : Edits w ref r key n
  | grants {w' : World} {m : Member}
      (changed : ∀ other place,
        w'.own? other place = if other = ref ∧ place = key then some m else w.own? other place)
      (attr : m.attr = (w.written ref key r).attr)
      (owned : r.operation = .dsetAttrib → w.own? ref key ≠ none) :
      Edits w ref r key (.done w' none)

namespace ScriptObject

theorem set_edits (there : w.script? ref = some o) (writes : r.operation ≠ .dsetAttrib) :
    Edits w ref r key (set w ref r key r.lastArg) := by
  by_cases named : key = []
  · rw [set, if_pos named]
    exact .declines rfl (by rintro _ ⟨⟩)
  by_cases plain : ∀ found holder, w.lookup ref key r.flags = some (found, holder) →
      found.diverts r = false
  · rcases set_plain named plain with ⟨refusal, -, refused⟩ | written
    · rw [refused]
      exact .declines rfl (by rintro _ ⟨⟩)
    · rw [written]
      exact .grants (w.own?_insert there _) rfl (absurd · writes)
  · -- A property is found, and its setter is asked.
    push Not at plain
    obtain ⟨found, holder, hit, diverts⟩ := plain
    have diverts : found.diverts r = true := by simpa using diverts
    rw [set_guarded named hit (by simp [Member.guards, diverts]), Member.fends, if_pos diverts]
    exact .declines rfl (by rintro _ ⟨⟩)

theorem setAttributes_edits (there : w.script? ref = some o) :
    Edits w ref r r.name (setAttributes w ref r) := by
  cases own : w.own? ref r.name with
  | none =>
    rw [own?_eq] at own
    simp only [setAttributes, own]
    exact .declines rfl (by rintro _ ⟨⟩)
  | some before =>
    have held := own
    rw [own?_eq] at own
    simp only [setAttributes, own]
    generalize reported : (if before.attr.overwrites r.flags.attr = true then _ else w) = w₁
    have heap : w₁.heap = w.heap := by rw [← reported]; split <;> rfl
    have there₁ : w₁.script? ref = some o := by rw [script?, heap]; exact there
    have same : w₁.own? = w.own? := by
      funext other place
      rw [own?, members_of_heap heap, own?]
    refine .grants (m := { before with attr := before.attr.merge r.flags.attr }) ?_ ?_ ?_
    · intro other place
      rw [w₁.own?_insert there₁, same]
    · simp only [written, startsFrom, own, Option.some_or, Option.map_some, Option.getD_some]
    · intro _ lacks
      cases held.symm.trans lacks

theorem dispatch_edits (e : Engine) (there : w.script? ref = some o)
    (edits : r.edits? w = some key) : Edits w ref r key (dispatch e w ref r) := by
  have object := heap_of_script? there
  cases asked : r.operation with
  | dset =>
    obtain rfl : r.name = key := by simpa only [Request.edits?, asked, Option.some.injEq] using edits
    rw [dispatch_writes e there (.inl ⟨asked, rfl⟩)]
    exact set_edits there (by simp [asked])
  | iset =>
    have text : w.textOf (r.arg 0) = some key := by simpa only [Request.edits?, asked] using edits
    rw [dispatch_writes e there (.inr ⟨asked, text⟩)]
    exact set_edits there (by simp [asked])
  | dsetAttrib =>
    obtain rfl : r.name = key := by simpa only [Request.edits?, asked, Option.some.injEq] using edits
    simp only [dispatch, object, answer, asked]
    exact setAttributes_edits there
  | _ => simp only [Request.edits?, asked, reduceCtorEq] at edits

end ScriptObject

/-- Where no object is asked, no member changes. -/
theorem step_members (e : Engine) {s : State} (other : ∀ ref r, s.control ≠ .dispatch ref r) :
    (Machine.step e s).world.members = s.world.members := by
  obtain ⟨w, control, stack⟩ := s
  cases control with
  | reply r =>
    cases stack with
    | nil => rfl
    | cons top rest => exact resume_members w r top
  | panic p =>
    cases stack with
    | nil => rfl
    | cons top rest => cases top <;> rfl
  | operate target r => exact (operate_spares memberView e w target r).same
  | lock ref target r =>
    obtain ⟨_, same⟩ := acquire_world e w ref target r
    have heap := congrArg World.heap same
    exact World.members_of_heap heap
  | dispatch ref r => exact absurd rfl (other ref r)
  | host action => exact (hostStep_spares memberView w action).same
  | code a => exact a.advance_members e w
  | execute block inv completion =>
    cases block with
    | none => rfl
    | some block => exact (enter_spares memberView_ofObjects w block inv completion).same

theorem edit?_dispatch (stack : List Cont) {w' : World} {written : Option Value}
    (there : w.script? ref = some o) (edits : r.edits? w = some key)
    (granted : dispatch e w ref r = .done w' written) :
    State.edit? e ⟨w, .dispatch ref r, stack⟩ = some ⟨ref, key, r.flags.attr⟩ := by
  simp only [State.edit?, there, granted, Next.done, Next.reply, edits, Option.map_some]

/-- A member stays as it is in every transition that is not an edit of it. -/
theorem step_unedited (unedited : ∀ attr, s.edit? e ≠ some ⟨ref, key, attr⟩) :
    (Machine.step e s).world.own? ref key = s.world.own? ref key := by
  have kept {w w' : World} (same : w'.members = w.members) : w'.own? ref key = w.own? ref key := by
    rw [own?, same, own?]
  obtain ⟨w, control, stack⟩ := s
  by_cases asks : ∃ target r, control = .dispatch target r
  · obtain ⟨target, r, rfl⟩ := asks
    have stepped : (Machine.step e ⟨w, .dispatch target r, stack⟩).world =
      (dispatch e w target r).world := rfl
    rw [stepped]
    cases there : w.script? target with
    | none => exact kept (dispatch_members e w target r (.inl there))
    | some o =>
      cases edits : r.edits? w with
      | none => exact kept (dispatch_members e w target r (.inr edits))
      | some place =>
        have served := ScriptObject.dispatch_edits e there edits
        generalize answered : dispatch e w target r = n at served
        cases served with
        | declines same => rw [same]
        | grants changed =>
          have edited := edit?_dispatch stack there edits answered
          have apart : ¬(ref = target ∧ key = place) := by
            rintro ⟨rfl, rfl⟩
            exact unedited _ edited
          exact (changed ref key).trans (if_neg apart)
  · exact kept (step_members e fun target r same => asks ⟨target, r, same⟩)

/-- An edit puts the request's attributes over those of the member that it starts from. -/
theorem step_edited (edited : s.edit? e = some ⟨ref, key, attr⟩) :
    ∃ r m, s.control = .dispatch ref r ∧ r.edits? s.world = some key ∧ r.flags.attr = attr ∧
      (r.operation = .dsetAttrib → s.world.own? ref key ≠ none) ∧
      (Machine.step e s).world.own? ref key = some m ∧
      m.attr = (s.world.written ref key r).attr := by
  obtain ⟨w, control, stack⟩ := s
  cases control with
  | dispatch target r =>
    simp only [State.edit?] at edited
    split at edited
    next o written there granted =>
      obtain ⟨place, edits, same⟩ := Option.map_eq_some_iff.mp edited
      cases same
      have served := ScriptObject.dispatch_edits e there edits
      have stepped : (Machine.step e ⟨w, .dispatch ref r, stack⟩).world =
        (dispatch e w ref r).world := rfl
      rw [stepped]
      generalize dispatch e w ref r = n at served granted
      cases served with
      | declines _ ungranted => exact absurd granted (ungranted written)
      | grants changed attr owned =>
        exact ⟨r, _, rfl, edits, rfl, owned, (changed ref key).trans (if_pos ⟨rfl, rfl⟩), attr⟩
    · cases edited
  | _ => cases edited

end Edits

end ScriptEngine
