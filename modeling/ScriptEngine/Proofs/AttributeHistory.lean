import ScriptEngine.Proofs.OwnMembers

/-! The attributes of a member over its whole life. A member begins with the attributes
of the write that makes it, merged into those of the member that the write finds on the
way from its object along the classes, among those that its flags admit. From then on
every request that its object grants, a write as well as one for attributes, replaces the
axes that it sets. So each axis is as it was set last. -/
namespace ScriptEngine

open World

/-! ### Axes -/

namespace Attribute

/-- What attributes are about. -/
inductive Axis where
  | mutability | overriding | access | visibility | level | sync
deriving DecidableEq, Repr

/-- The code of an attribute on an axis; zero if it does not set it. -/
def code (a : Attribute) : Axis → UInt8
  | .mutability => a.mutability
  | .overriding => a.overriding
  | .access => a.access
  | .visibility => a.visibility
  | .level => a.level
  | .sync => a.sync

theorem merge_code (a b : Attribute) (axis : Axis) :
    (a.merge b).code axis = mergeAxis (a.code axis) (b.code axis) := by
  cases axis <;> rfl

/-- Merging replaces something exactly if both set one axis. -/
theorem overwrites_iff (a b : Attribute) :
    a.overwrites b = true ↔ ∃ axis, a.code axis ≠ 0 ∧ b.code axis ≠ 0 := by
  simp only [overwrites, clashAxis, Bool.or_eq_true, Bool.and_eq_true, decide_eq_true_eq]
  constructor
  · rintro (((((clash | clash) | clash) | clash) | clash) | clash)
    · exact ⟨.mutability, clash⟩
    · exact ⟨.overriding, clash⟩
    · exact ⟨.access, clash⟩
    · exact ⟨.visibility, clash⟩
    · exact ⟨.level, clash⟩
    · exact ⟨.sync, clash⟩
  · rintro ⟨axis, clash⟩
    cases axis <;> simp_all [code]

/-- The last code that an axis was set to. -/
def lastSet (axis : Axis) (past : List Attribute) : Option UInt8 :=
  ((past.map (·.code axis)).filter (· ≠ 0)).getLast?

theorem lastSet_append (axis : Axis) (past : List Attribute) (a : Attribute) (first : UInt8) :
    (lastSet axis (past ++ [a])).getD first =
      mergeAxis ((lastSet axis past).getD first) (a.code axis) := by
  by_cases unset : a.code axis = 0 <;>
    simp [lastSet, mergeAxis, List.filter_append, unset]

end Attribute

/-! ### Lives of members -/

/-- The life of a member up to a state: the attributes that it began with, and those that
were carried by the edits of it since. -/
inductive Life (e : Engine) (ref : ObjRef) (key : Text) :
    State → (birth : Attribute) → (past : List Attribute) → Prop
  /-- A transition makes it. -/
  | made {s : State} {m : Member} (absent : s.world.own? ref key = none)
      (own : (Machine.step e s).world.own? ref key = some m) :
      Life e ref key (Machine.step e s) m.attr []
  /-- The host defines it, in place of any that was there. -/
  | defined {s : State} (there : (s.world.script? ref).isSome) (v : Value) (attr : Attribute) :
      Life e ref key { s with world := s.world.define ref key v attr } attr []
  /-- A transition edits it. -/
  | edited {s : State} {birth attr : Attribute} {past : List Attribute}
      (life : Life e ref key s birth past) (edits : s.edit? e = some ⟨ref, key, attr⟩) :
      Life e ref key (Machine.step e s) birth (past ++ [attr])
  /-- A transition does something else, or declines to edit it. -/
  | runs {s : State} {birth : Attribute} {past : List Attribute}
      (life : Life e ref key s birth past) (unedited : ∀ attr, s.edit? e ≠ some ⟨ref, key, attr⟩) :
      Life e ref key (Machine.step e s) birth past
  /-- The host starts something, or changes the world elsewhere. -/
  | elsewhere {s t : State} {birth : Attribute} {past : List Attribute}
      (life : Life e ref key s birth past) (same : t.world.own? ref key = s.world.own? ref key) :
      Life e ref key t birth past

variable {e : Engine} {ref : ObjRef} {key : Text} {s : State} {birth attr : Attribute}
  {past : List Attribute} {m : Member}

/-- An edit of a member that is there merges into its attributes. -/
theorem edited_attr (edits : s.edit? e = some ⟨ref, key, attr⟩)
    (own : s.world.own? ref key = some m) :
    ∃ m', (Machine.step e s).world.own? ref key = some m' ∧ m'.attr = m.attr.merge attr := by
  obtain ⟨r, m', -, -, rfl, -, own', same⟩ := step_edited edits
  refine ⟨m', own', same.trans ?_⟩
  rw [own?_eq] at own
  simp only [written, startsFrom, own, Option.some_or, Option.map_some, Option.getD_some]

theorem Life.attr_eq (life : Life e ref key s birth past) :
    ∃ m, s.world.own? ref key = some m ∧
      ∀ axis, m.attr.code axis = (Attribute.lastSet axis past).getD (birth.code axis) := by
  induction life with
  | made _ own => exact ⟨_, own, fun _ => rfl⟩
  | defined there v attr =>
    obtain ⟨o, there⟩ := Option.isSome_iff_exists.mp there
    refine ⟨⟨v, attr⟩, ?_, fun _ => rfl⟩
    simp only [define, own?_insert there, and_self, if_true]
  | edited _ edits ih =>
    obtain ⟨m, own, set⟩ := ih
    obtain ⟨m', own', merged⟩ := edited_attr edits own
    refine ⟨m', own', fun axis => ?_⟩
    rw [merged, Attribute.merge_code, set, Attribute.lastSet_append]
  | runs _ unedited ih =>
    obtain ⟨m, own, set⟩ := ih
    exact ⟨m, (step_unedited unedited).trans own, set⟩
  | elsewhere _ same ih =>
    obtain ⟨m, own, set⟩ := ih
    exact ⟨m, same.trans own, set⟩

/-- A member is made by a write to its object, and takes the axes that the write does not
set from the member that the write finds. -/
theorem made_attr (absent : s.world.own? ref key = none)
    (own : (Machine.step e s).world.own? ref key = some m) :
    ∃ r, s.control = .dispatch ref r ∧ r.Writes s.world key ∧
      ∀ axis, m.attr.code axis =
        if r.flags.attr.code axis ≠ 0 then r.flags.attr.code axis
        else ((s.world.lookup ref key r.flags).map (·.1.attr.code axis)).getD 0 := by
  have edited : ∃ attr, s.edit? e = some ⟨ref, key, attr⟩ := by
    by_contra unedited
    have same := step_unedited fun attr edits => unedited ⟨attr, edits⟩
    rw [own, absent] at same
    cases same
  obtain ⟨attr, edits⟩ := edited
  obtain ⟨r, m', asks, names, -, owned, own', same⟩ := step_edited edits
  cases own.symm.trans own'
  have writes : r.Writes s.world key := by
    cases asked : r.operation with
    | dset =>
      simp only [Request.edits?, asked, Option.some.injEq] at names
      exact .inl ⟨asked, names⟩
    | iset =>
      simp only [Request.edits?, asked] at names
      exact .inr ⟨asked, names⟩
    | dsetAttrib => exact absurd absent (owned asked)
    | _ => simp only [Request.edits?, asked, reduceCtorEq] at names
  refine ⟨r, asks, writes, fun axis => ?_⟩
  rw [own?_eq] at absent
  rw [same]
  simp only [written, startsFrom, absent, Option.none_or]
  cases s.world.lookup ref key r.flags with
  | none => by_cases unset : r.flags.attr.code axis = 0 <;> simp [unset]
  | some found =>
    simp only [Option.map_some, Option.getD_some, Attribute.merge_code, Attribute.mergeAxis]
    by_cases unset : r.flags.attr.code axis = 0 <;> simp [unset]

/-- Each axis of a member is as the edits of it set it last, and if none did, as it was
when the member began: as the write that made it set it, else as in the member that this
write found. Nothing but an edit that is granted changes it. Merging reports exactly that it
replaces an axis that was set. -/
theorem axes_last_set (e : Engine) (ref : ObjRef) (key : Text) :
    (∀ s birth past, Life e ref key s birth past → ∃ m, s.world.own? ref key = some m ∧
      ∀ axis, m.attr.code axis = (Attribute.lastSet axis past).getD (birth.code axis)) ∧
    (∀ s m, s.world.own? ref key = none → (Machine.step e s).world.own? ref key = some m →
      ∃ r, s.control = .dispatch ref r ∧ r.Writes s.world key ∧
        ∀ axis, m.attr.code axis =
          if r.flags.attr.code axis ≠ 0 then r.flags.attr.code axis
          else ((s.world.lookup ref key r.flags).map (·.1.attr.code axis)).getD 0) ∧
    (∀ s : State, (∀ attr, s.edit? e ≠ some ⟨ref, key, attr⟩) →
      (Machine.step e s).world.own? ref key = s.world.own? ref key) ∧
    ∀ a b : Attribute,
      a.overwrites b = true ↔ ∃ axis, a.code axis ≠ 0 ∧ b.code axis ≠ 0 :=
  ⟨fun _ _ _ => Life.attr_eq, fun _ _ => made_attr, fun _ => step_unedited,
    Attribute.overwrites_iff⟩

/-- A class with a private member, and an instance. -/
def secretive : World where
  heap := #[
    .script { name := utf8 "C", members := Table.insert {} (utf8 "m") ⟨.int 1, { visibility := 4 }⟩ },
    .script { cls := some 0 }]

/-- The instance is asked to change the member. -/
def secretiveAsked (w : World) (operation : Operation) (attr : Attribute) : State :=
  ⟨w, .dispatch 1 { operation, name := utf8 "m", args := [.int 2], flags := { attr } }, []⟩

/-- A write gives the instance a member of its own, a request for attributes makes it public
and constant, and the next write is declined. -/
theorem secretive_axes :
    let e := Machine.plainEngine
    let written := secretiveAsked secretive .dset { overriding := 2 }
    let opened := secretiveAsked (Machine.step e written).world .dsetAttrib
      { mutability := 2, visibility := 1 }
    let declined := secretiveAsked (Machine.step e opened).world .dset { visibility := 2, sync := 1 }
    ∃ m, (Machine.step e declined).world.own? 1 (utf8 "m") = some m ∧
      m.attr.code .overriding = 2 ∧ m.attr.code .mutability = 2 ∧ m.attr.code .visibility = 1 ∧
      m.attr.code .sync = 0 := by
  intro e written opened declined
  have made : Life e 1 (utf8 "m") (Machine.step e written) { overriding := 2, visibility := 4 } [] :=
    .made (m := ⟨.int 2, _⟩) rfl rfl
  have granted : opened.edit? e = some ⟨1, utf8 "m", { mutability := 2, visibility := 1 }⟩ := rfl
  have refused : declined.edit? e = none := rfl
  have life := ((made.elsewhere (t := opened) rfl).edited granted).elsewhere (t := declined) rfl
  obtain ⟨m, own, set⟩ := (axes_last_set e 1 (utf8 "m")).1 _ _ _ (life.runs (by simp [refused]))
  exact ⟨m, own, set .overriding, set .mutability, set .visibility, set .sync⟩

end ScriptEngine
