import ScriptEngine.Proofs.ClassChains

/-! Writes to members that are not to be overwritten: constants, and properties,
whose setter is asked instead. The object goes by the member that a search finds.
So an own member is safe from every request whose search stops at it, whatever the
flags. A request that passes it over writes to it all the same. -/
namespace ScriptEngine

open World

variable {w : World} {ref holder : ObjRef} {o : ScriptObject} {r : Request} {key : Text}
  {v : Value} {m found : Member}

/-- The key of the member that a request to a script object writes. -/
def Request.Writes (w : World) (r : Request) (key : Text) : Prop :=
  r.operation = .dset ∧ r.name = key ∨ r.operation = .iset ∧ w.textOf (r.arg 0) = some key

/-- A write goes to the setter of a property, unless it takes it for a plain member. -/
def Member.diverts (m : Member) (r : Request) : Bool := m.attr.isProperty && !r.seesFields

/-- A member that a request is not to overwrite. -/
def Member.guards (m : Member) (r : Request) : Bool := m.diverts r || m.attr.isConst

/-- Whether a search passes over an own member: it starts at the class, or is for
other members. -/
def ScriptObject.overlooks (o : ScriptObject) (flags : Flags) (m : Member) : Bool :=
  (flags.has Flags.classRule && o.cls.isSome) || !admits flags m.attr

/-- What becomes of a write to a guarded member. -/
def Member.fends (m : Member) (w : World) (ref : ObjRef) (r : Request) (v : Value) : Next :=
  if m.diverts r then
    .operate w m.value
      { operation := .dset, flags := r.flags, args := [v], this := r.receiver ref,
        wantsResult := false }
      [.propertyWrite]
  else .refused w .memberReadOnly

theorem Member.fends_world : (m.fends w ref r v).world = w := by
  unfold fends
  split <;> rfl

theorem World.lookup_own {flags : Flags} (there : w.script? ref = some o)
    (own : o.members.find? key = some m) (seen : o.overlooks flags m = false) :
    w.lookup ref key flags = some (m, ref) := by
  obtain ⟨fuel, size⟩ : ∃ fuel, w.heap.size = fuel + 1 :=
    Nat.exists_eq_succ_of_ne_zero (Nat.ne_of_gt (Nat.zero_lt_of_lt (lt_size_of_script? there)))
  obtain ⟨here, admitted⟩ : (flags.has Flags.classRule && o.cls.isSome) = false ∧
      admits flags m.attr = true := by
    simpa [ScriptObject.overlooks] using seen
  have start : (if flags.has Flags.classRule then o.cls.getD ref else ref) = ref := by
    cases classed : o.cls <;> simp_all
  have found : (o.members.find? key).filter (admits flags ·.attr) = some m := by
    simp [own, admitted]
  simp only [lookup, there, Option.bind_some, start, size, lookupFrom, found]

namespace ScriptObject

theorem dispatch_writes (e : Engine) (there : w.script? ref = some o) (writes : r.Writes w key) :
    dispatch e w ref r = set w ref r key r.lastArg := by
  have object := heap_of_script? there
  rcases writes with ⟨direct, rfl⟩ | ⟨indexed, text⟩
  · simp only [dispatch, object, answer, direct]
  · simp only [dispatch, object, answer, indexed, withKey, text]

/-- A write goes by the member that the search finds. -/
theorem set_guarded (named : key ≠ []) (hit : w.lookup ref key r.flags = some (found, holder))
    (guards : found.guards r = true) : set w ref r key v = found.fends w ref r v := by
  cases diverts : found.diverts r with
  | true =>
    simp only [Member.diverts] at diverts
    simp [set, named, hit, Option.filter_some, diverts, Member.fends, Member.diverts]
  | false =>
    have const : found.attr.isConst = true := by simpa [Member.guards, diverts] using guards
    simp only [Member.diverts] at diverts
    simp [set, named, hit, Option.filter_some, diverts, const, Member.fends, Member.diverts]

/-- Where the search finds nothing that guards itself, the own member is written. -/
theorem set_own (named : key ≠ []) (there : w.script? ref = some o)
    (own : o.members.find? key = some m)
    (free : ∀ found holder, w.lookup ref key r.flags = some (found, holder) →
      found.guards r = false) :
    set w ref r key v = put w ref key ⟨v, m.attr.merge r.flags.attr⟩ := by
  cases hit : w.lookup ref key r.flags with
  | none => simp [set, named, hit, there, own]
  | some pair =>
    obtain ⟨plain, writable⟩ := Bool.or_eq_false_iff.mp (free pair.1 pair.2 hit)
    simp only [Member.diverts] at plain
    simp [set, named, hit, Option.filter_some, plain, writable, there, own]

theorem fends_ne_put {found : Member} : found.fends w ref r v ≠ put w ref key m := by
  unfold Member.fends
  split <;> simp [put, Next.done, Next.operate, Next.refused, Next.reply]

/-- A write to an own member that guards itself. If the search stops at the member,
the world stays as it is and the member fends the write off. If the search passes it
over, the member is overwritten if and only if no other guarded member is found in its
place; one that is found fends the write off. The empty key is that of no member. -/
theorem own_member_protection (e : Engine) (w : World) (ref : ObjRef) (o : ScriptObject)
    (r : Request) (key : Text) (m : Member) (there : w.script? ref = some o)
    (own : o.members.find? key = some m) (writes : r.Writes w key) (guards : m.guards r = true) :
    (key = [] → dispatch e w ref r = .notFound w) ∧
    (o.overlooks r.flags m = false → (dispatch e w ref r).world = w ∧
      (key ≠ [] → dispatch e w ref r = m.fends w ref r r.lastArg)) ∧
    (o.overlooks r.flags m = true → key ≠ [] →
      (dispatch e w ref r = put w ref key ⟨r.lastArg, m.attr.merge r.flags.attr⟩ ↔
        ∀ found holder, w.lookup ref key r.flags = some (found, holder) →
          found.guards r = false) ∧
      ∀ found holder, w.lookup ref key r.flags = some (found, holder) → found.guards r = true →
        (dispatch e w ref r).world = w ∧ dispatch e w ref r = found.fends w ref r r.lastArg) := by
  have unnamed (empty : key = []) : set w ref r key r.lastArg = .notFound w := by
    rw [set, if_pos empty]
  rw [dispatch_writes e there writes]
  refine ⟨unnamed, fun seen => ?_, fun _ named => ⟨⟨fun written found holder hit => ?_, ?_⟩, ?_⟩⟩
  · have hit := lookup_own there own seen
    refine ⟨?_, fun named => set_guarded named hit guards⟩
    by_cases named : key = []
    · rw [unnamed named]
      rfl
    · rw [set_guarded named hit guards, Member.fends_world]
  · cases guarded : found.guards r with
    | false => rfl
    | true =>
      rw [set_guarded named hit guarded] at written
      exact absurd written fends_ne_put
  · exact set_own named there own
  · intro found holder hit guarded
    rw [set_guarded named hit guarded]
    exact ⟨Member.fends_world, rfl⟩

/-- An object with a constant, and a property that is static. -/
def guarded : ScriptObject :=
  { members := Table.insert (Table.insert {} (utf8 "pi") ⟨.int 1, { mutability := 2 }⟩)
      (utf8 "area") ⟨.int 3, { access := 2, level := 1 }⟩ }

def guardedWorld : World := (World.create {} (.script guarded)).1

/-- A write by name and a write by key, whose searches stop at the members. -/
theorem guarded_protection :
    dispatch Machine.plainEngine guardedWorld 0
        { operation := .dset, name := utf8 "pi", args := [.int 2] } =
      .refused guardedWorld .memberReadOnly ∧
    (dispatch Machine.plainEngine guardedWorld 0
        { operation := .iset, args := [.string (utf8 "area"), .int 2] }).world = guardedWorld :=
  ⟨(own_member_protection Machine.plainEngine guardedWorld 0 guarded
      { operation := .dset, name := utf8 "pi", args := [.int 2] } (utf8 "pi") _ rfl rfl
      (.inl ⟨rfl, rfl⟩) rfl).2.1 rfl |>.2 (by decide),
    (own_member_protection Machine.plainEngine guardedWorld 0 guarded
      { operation := .iset, args := [.string (utf8 "area"), .int 2] } (utf8 "area") _ rfl rfl
      (.inr ⟨rfl, rfl⟩) rfl).2.1 rfl |>.1⟩

/-- A write for final members replaces the constant, and one for members of instances
the property. -/
theorem guarded_overwritten :
    let written (flags : Flags) (name : Text) : Option Member :=
      ((dispatch Machine.plainEngine guardedWorld 0
        { operation := .dset, name, flags, args := [.int 2] }).world.script? 0).bind
          (·.members.find? name)
    written { control := Flags.finalOnly } (utf8 "pi") = some ⟨.int 2, { mutability := 2 }⟩ ∧
      written { control := Flags.instanceOnly } (utf8 "area") =
        some ⟨.int 2, { access := 2, level := 1 }⟩ :=
  ⟨rfl, rfl⟩

end ScriptObject
end ScriptEngine
