import Mathlib.Data.List.Perm.Subperm
import ScriptEngine.Proofs.MemberProtection

/-! What a write to a member changes, and where it can be read back. A write that no
setter takes is refused, or changes one member of one object: it is that object's own
afterwards, and what it hides in a class stays as it is. Reads find it from every object
whose search comes to it without meeting a nearer member of its name. -/
namespace ScriptEngine

open World

variable {w : World} {ref target : ObjRef} {o : ScriptObject} {r : Request} {key : Text}
  {m : Member} {path rest : List ObjRef} {flags : Flags}

/-! ### Searches that come to an object -/

namespace World

/-- A search for a name comes from one object to another, and passes objects on its way
that have no member of that name. -/
inductive Passes (w : World) (key : Text) : ObjRef → List ObjRef → ObjRef → Prop
  | here (ref : ObjRef) : Passes w key ref [] ref
  | on {ref next target : ObjRef} {o : ScriptObject} {path : List ObjRef}
      (there : w.script? ref = some o) (lacks : o.members.find? key = none)
      (goes : o.next = some next) (rest : Passes w key next path target) :
      Passes w key ref (ref :: path) target

namespace Passes

theorem unique (there : w.script? target = some o) (own : o.members.find? key = some m)
    (first : w.Passes key ref path target) (second : w.Passes key ref rest target) :
    path = rest := by
  induction first generalizing rest with
  | here =>
    cases second with
    | here => rfl
    | on same lacks =>
      cases there.symm.trans same
      cases own.symm.trans lacks
  | on passed lacks goes _ ih =>
    cases second with
    | here =>
      cases there.symm.trans passed
      cases own.symm.trans lacks
    | on again _ continues further =>
      cases passed.symm.trans again
      cases goes.symm.trans continues
      rw [ih there further]

theorem from_passed {passed : ObjRef} (passes : w.Passes key ref path target)
    (member : passed ∈ path) :
    ∃ rest, w.Passes key passed rest target ∧ rest.length ≤ path.length := by
  induction passes with
  | here => cases member
  | on there lacks goes further ih =>
    rcases List.mem_cons.mp member with rfl | later
    · exact ⟨_, .on there lacks goes further, Nat.le_refl _⟩
    · obtain ⟨rest, passes, shorter⟩ := ih later
      exact ⟨rest, passes, Nat.le_succ_of_le shorter⟩

theorem nodup (there : w.script? target = some o) (own : o.members.find? key = some m)
    (passes : w.Passes key ref path target) : path.Nodup := by
  induction passes with
  | here => exact List.nodup_nil
  | @on ref _ _ _ path passed lacks goes further ih =>
    refine List.nodup_cons.mpr ⟨fun again => ?_, ih there⟩
    -- If the way came back to the object, it would be shorter than itself from there on.
    obtain ⟨rest, passes, shorter⟩ := further.from_passed again
    have same := unique there own passes (.on passed lacks goes further)
    rw [same, List.length_cons] at shorter
    exact Nat.not_succ_le_self _ shorter

theorem lacking (passes : w.Passes key ref path target) :
    ∀ passed ∈ path, ∃ o, w.script? passed = some o ∧ o.members.find? key = none := by
  induction passes with
  | here => simp
  | on there lacks _ _ ih => exact List.forall_mem_cons.mpr ⟨⟨_, there, lacks⟩, ih⟩

theorem length_lt (there : w.script? target = some o) (own : o.members.find? key = some m)
    (passes : w.Passes key ref path target) : path.length < w.heap.size := by
  have apart : target ∉ path := fun again => by
    obtain ⟨o', there', lacks⟩ := passes.lacking target again
    cases there.symm.trans there'
    cases own.symm.trans lacks
  have distinct : (target :: path).Nodup :=
    List.nodup_cons.mpr ⟨apart, passes.nodup there own⟩
  have inside : target :: path ⊆ List.range w.heap.size := by
    refine List.cons_subset.mpr ⟨List.mem_range.mpr (lt_size_of_script? there), ?_⟩
    intro passed member
    obtain ⟨o', there', -⟩ := passes.lacking passed member
    exact List.mem_range.mpr (lt_size_of_script? there')
  have bound := (List.subperm_of_subset distinct inside).length_le
  rw [List.length_cons, List.length_range] at bound
  exact bound

theorem start (there : w.script? target = some o) (passes : w.Passes key ref path target) :
    ∃ o', w.script? ref = some o' := by
  cases passes with
  | here => exact ⟨o, there⟩
  | on passed => exact ⟨_, passed⟩

theorem lookupFrom_eq (there : w.script? target = some o) (own : o.members.find? key = some m)
    (admitted : admits flags m.attr = true) (passes : w.Passes key ref path target) {fuel : Nat}
    (enough : path.length < fuel) : w.lookupFrom key flags fuel ref = some (m, target) := by
  induction passes generalizing fuel with
  | here =>
    obtain ⟨fuel, rfl⟩ := Nat.exists_eq_succ_of_ne_zero (Nat.ne_of_gt enough)
    simp [lookupFrom, there, own, Option.filter_some, admitted]
  | on passed lacks goes _ ih =>
    obtain ⟨fuel, rfl⟩ := Nat.exists_eq_succ_of_ne_zero (Nat.ne_of_gt (Nat.zero_lt_of_lt enough))
    have found := ih there (Nat.lt_of_succ_lt_succ enough)
    simp [lookupFrom, passed, lacks, goes, found]

/-- A search without control bits finds the member that it comes to. -/
theorem lookup_eq (there : w.script? target = some o) (own : o.members.find? key = some m)
    (free : flags.control = 0) (passes : w.Passes key ref path target) :
    w.lookup ref key flags = some (m, target) := by
  have bare (bits : UInt8) (some : bits ≠ 0) : flags.has bits = false := by
    simp [Flags.has, free, some.symm]
  have admitted : admits flags m.attr = true := by
    simp [admits, bare Flags.instanceOnly (by decide), bare Flags.finalOnly (by decide)]
  rw [lookup, bare Flags.classRule (by decide)]
  exact passes.lookupFrom_eq there own admitted (passes.length_lt there own)

end Passes
end World

/-! ### Writes -/

/-- The member that a write of an object starts from: the object's own, else the one
that the search finds. -/
def World.startsFrom (w : World) (ref : ObjRef) (key : Text) (flags : Flags) : Option Member :=
  ((w.script? ref).bind (·.members.find? key)).or ((w.lookup ref key flags).map Prod.fst)

/-- What a write leaves: the value, with the request's attributes merged into those of
the member it starts from. -/
def World.written (w : World) (ref : ObjRef) (key : Text) (r : Request) : Member where
  value := r.lastArg
  attr := ((w.startsFrom ref key r.flags).map (·.attr.merge r.flags.attr)).getD r.flags.attr

/-- Why a write is refused: the search finds a constant, or the request asks for a
member that is there and there is none. -/
inductive World.Bars (w : World) (ref : ObjRef) (key : Text) (flags : Flags) : Refusal → Prop
  | constant {found : Member} {holder : ObjRef}
      (hit : w.lookup ref key flags = some (found, holder)) (const : found.attr.isConst = true) :
      Bars w ref key flags .memberReadOnly
  | missing (nothing : w.startsFrom ref key flags = none)
      (ensures : flags.has Flags.ensureMember = true) : Bars w ref key flags .memberNotFound

/-- One member of one object was written and nothing else. -/
structure World.Puts (w w' : World) (ref : ObjRef) (o : ScriptObject) (key : Text)
    (m : Member) : Prop where
  /-- The object has the member as its own. -/
  own : ∃ o', w'.script? ref = some o' ∧ o'.members.find? key = some m ∧
    (∀ other, other ≠ key → o'.members.find? other = o.members.find? other) ∧
    o' = { o with members := o'.members }
  others : ∀ other, other ≠ ref → w'.heap[other]? = w.heap[other]?
  rest : w' = { w with heap := w'.heap }

/-- The key of the member that a request to a script object reads. -/
def Request.Reads (w : World) (r : Request) (key : Text) : Prop :=
  r.operation = .dget ∧ r.name = key ∨ r.operation = .iget ∧ w.textOf (r.arg 0) = some key

namespace ScriptObject

theorem dispatch_reads (e : Engine) (there : w.script? ref = some o) (reads : r.Reads w key) :
    dispatch e w ref r = get w ref r key := by
  have object := heap_of_script? there
  rcases reads with ⟨direct, rfl⟩ | ⟨indexed, text⟩
  · simp only [dispatch, object, answer, direct]
  · simp only [dispatch, object, answer, indexed, withKey, text]

theorem put_puts (there : w.script? ref = some o) :
    ∃ w', put w ref key m = .done w' none ∧ w.Puts w' ref o key m := by
  have inside := lt_size_of_script? there
  let o' : ScriptObject := { o with members := o.members.insert key m }
  have own : (w.setObject ref (.script o')).script? ref = some o' := by
    simp [script?, setObject, inside]
  refine ⟨w.setObject ref (.script o'), by simp only [put, modifyScript, there, o'],
    ⟨o', own, Table.find?_insert_self .., fun other apart => ?_, rfl⟩, fun other apart => ?_, rfl⟩
  · exact Table.find?_insert_of_ne _ _ apart
  · exact Array.getElem?_setIfInBounds_ne apart.symm

/-- A write that no setter takes is refused, or puts the member into the object. -/
theorem set_plain (named : key ≠ []) (plain : ∀ found holder,
      w.lookup ref key r.flags = some (found, holder) → found.diverts r = false) :
    (∃ refusal, w.Bars ref key r.flags refusal ∧
      set w ref r key r.lastArg = .refused w refusal) ∨
    set w ref r key r.lastArg = put w ref key (w.written ref key r) := by
  cases hit : w.lookup ref key r.flags with
  | none =>
    cases own : (w.script? ref).bind (·.members.find? key) with
    | some m => exact .inr (by simp [set, named, hit, own, written, startsFrom])
    | none =>
      cases ensures : r.flags.has Flags.ensureMember with
      | true =>
        refine .inl ⟨_, .missing (by simp [startsFrom, own, hit]) ensures, ?_⟩
        simp [set, named, hit, own, ensures, Next.notFound]
      | false => exact .inr (by simp [set, named, hit, own, ensures, written, startsFrom])
  | some pair =>
    obtain ⟨found, holder⟩ := pair
    have direct := plain found holder hit
    simp only [Member.diverts] at direct
    cases const : found.attr.isConst with
    | true =>
      refine .inl ⟨_, .constant hit const, ?_⟩
      simp [set, named, hit, Option.filter_some, direct, const]
    | false =>
      refine .inr ?_
      cases own : (w.script? ref).bind (·.members.find? key) <;>
        simp [set, named, hit, Option.filter_some, direct, const, own, written, startsFrom]

theorem get_plain {holder : ObjRef} (named : key ≠ [])
    (hit : w.lookup ref key r.flags = some (m, holder)) (plain : m.diverts r = false) :
    get w ref r key = .result w (w.boundTo (r.receiver ref) m.value) := by
  simp only [Member.diverts] at plain
  simp [get, named, hit, plain]

/-- A write that no setter takes. If it is refused, nothing changes. Otherwise one member
of the object changes and nothing else, and every read that comes to it and is for plain
members gives the value that was written, bound to the object that was asked. -/
theorem member_write_local (e : Engine) (w : World) (ref : ObjRef) (o : ScriptObject)
    (r : Request) (key : Text) (there : w.script? ref = some o) (writes : r.Writes w key)
    (named : key ≠ []) (plain : ∀ found holder,
      w.lookup ref key r.flags = some (found, holder) → found.diverts r = false) :
    (∃ refusal, w.Bars ref key r.flags refusal ∧ dispatch e w ref r = .refused w refusal) ∨
    ∃ w', dispatch e w ref r = .done w' none ∧ w.Puts w' ref o key (w.written ref key r) ∧
      ∀ reader path q, w'.Passes key reader path ref → q.Reads w' key → q.flags.control = 0 →
        (w.written ref key r).diverts q = false →
        dispatch e w' reader q = .result w' (w'.boundTo (q.receiver reader) r.lastArg) := by
  rw [dispatch_writes e there writes]
  refine (set_plain named plain).imp_right fun set => ?_
  obtain ⟨w', done, puts⟩ : ∃ w', put w ref key (w.written ref key r) = .done w' none ∧
      w.Puts w' ref o key (w.written ref key r) := put_puts there
  refine ⟨w', set.trans done, puts, fun reader path q passes reads free direct => ?_⟩
  obtain ⟨o', after, own, -⟩ := puts.own
  obtain ⟨_, present⟩ := passes.start after
  rw [dispatch_reads e present reads]
  exact get_plain named (passes.lookup_eq after own free) direct

/-- A class with a private function, a subclass of it, an instance of that, and the
function. -/
def heirs : World where
  heap := #[
    .script { name := utf8 "C",
              members := Table.insert {} (utf8 "g") ⟨.object 3 none, { visibility := 4 }⟩ },
    .script { name := utf8 "D", super := some 0 },
    .script { cls := some 1 },
    .nativeFunction (utf8 "f") none none]

/-- The subclass gets a function of its own, private like the one it hides, and the
instance reads it. -/
theorem heirs_write_local :
    ∃ w', dispatch Machine.plainEngine heirs 1
        { operation := .dset, name := utf8 "g", flags := { attr := { overriding := 2 } },
          args := [.object 3 none] } = .done w' none ∧
      heirs.Puts w' 1 { name := utf8 "D", super := some 0 } (utf8 "g")
        ⟨.object 3 none, { overriding := 2, visibility := 4 }⟩ ∧
      dispatch Machine.plainEngine w' 2 { operation := .dget, name := utf8 "g" } =
        .result w' (.object 3 (some 2)) := by
  rcases member_write_local Machine.plainEngine heirs 1 { name := utf8 "D", super := some 0 }
      { operation := .dset, name := utf8 "g", flags := { attr := { overriding := 2 } },
        args := [.object 3 none] } (utf8 "g") rfl (.inl ⟨rfl, rfl⟩) (by decide)
      (by rintro _ _ ⟨⟩; rfl) with ⟨_, bars, _⟩ | ⟨w', done, puts, reads⟩
  · rcases bars with ⟨⟨⟩, ⟨⟩⟩ | ⟨⟨⟩, _⟩
  · cases done
    exact ⟨_, rfl, puts, reads 2 _ { operation := .dget, name := utf8 "g" }
      (.on rfl rfl rfl (.here 1)) (.inl ⟨rfl, rfl⟩) rfl rfl⟩

/-- A write for final members hides the private member and is not private itself. What
is read from an instance is bound to the instance, not to the class that has it. -/
theorem heirs_write_sheds :
    heirs.lookup 2 (utf8 "g") {} = some (⟨.object 3 none, { visibility := 4 }⟩, 0) ∧
    ((dispatch Machine.plainEngine heirs 2
        { operation := .dset, name := utf8 "g", flags := { control := Flags.finalOnly },
          args := [.int 2] }).world.script? 2).bind (·.members.find? (utf8 "g")) =
      some ⟨.int 2, {}⟩ ∧
    dispatch Machine.plainEngine heirs 2 { operation := .dget, name := utf8 "g" } =
      .result heirs (.object 3 (some 2)) :=
  ⟨rfl, rfl, rfl⟩

end ScriptObject
end ScriptEngine
