import ScriptEngine.Proofs.ProxyShadowing
import ScriptEngine.Embedding

/-! Calling a member, and reading it to call what was read. A script object answers the
call by the same read and goes on with the same request, so the two come to one end: to
one result, one failure or one stop in one world, or both to none. What differs is the
name in a refusal: the caller who names the member is told it. -/
namespace ScriptEngine

open World Machine

variable {α : Type} {e : Engine} {w : World} {s t u : State} {ref : ObjRef} {o : ScriptObject}
  {name : Text} {args : List Value} {a b : World × Outcome Value}

/-! ### How a use ends -/

/-- A use of an engine comes to an end, the same with any fuel from some amount on. -/
def Ends (use : Nat → World × Outcome α) (result : World × Outcome α) : Prop :=
  result.2 ≠ .unfinished ∧ ∃ enough, ∀ fuel, enough ≤ fuel → use fuel = result

namespace Ends

variable {use use' : Nat → World × Outcome α} {result : World × Outcome α}

/-- Uses that are the same with much fuel come to the same end. -/
theorem congr (much : Nat) (same : ∀ fuel, much ≤ fuel → use fuel = use' fuel) :
    Ends use result ↔ Ends use' result := by
  constructor
  · rintro ⟨finished, enough, ends⟩
    refine ⟨finished, max much enough, fun fuel more => ?_⟩
    rw [← same fuel (Nat.le_trans (Nat.le_max_left ..) more)]
    exact ends fuel (Nat.le_trans (Nat.le_max_right ..) more)
  · rintro ⟨finished, enough, ends⟩
    refine ⟨finished, max much enough, fun fuel more => ?_⟩
    rw [same fuel (Nat.le_trans (Nat.le_max_left ..) more)]
    exact ends fuel (Nat.le_trans (Nat.le_max_right ..) more)

theorem const_iff {a : World × Outcome α} (finished : a.2 ≠ .unfinished) :
    Ends (fun _ => a) result ↔ result = a := by
  constructor
  · rintro ⟨-, enough, ends⟩
    exact (ends enough (Nat.le_refl enough)).symm
  · rintro rfl
    exact ⟨finished, 0, fun _ _ => rfl⟩

end Ends

/-- What a caller gets who insists on success and asked for `name`. -/
def State.result (s : State) (name : Text) : World × Outcome Value :=
  orVoid (insisted name s.outcome)

namespace State

theorem isFinal_of_result (name : Text) (finished : (s.result name).2 ≠ .unfinished) :
    s.isFinal = true := by
  obtain ⟨w, control, stack⟩ := s
  cases control with
  | reply | panic =>
    cases stack with
    | nil => rfl
    | cons => exact absurd rfl finished
  | _ => exact absurd rfl finished

theorem result_finished (name : Text) (final : s.isFinal = true) :
    (s.result name).2 ≠ .unfinished := by
  rcases cases_of_isFinal final with ⟨w, r, rfl⟩ | ⟨w, p, rfl⟩
  · cases r <;> intro unfinished <;> cases unfinished
  · intro unfinished
    cases unfinished

end State

theorem Machine.Settles.run_eq (settles : Settles e s t) :
    ∃ enough, ∀ fuel, enough ≤ fuel → run e fuel s = t := by
  obtain ⟨n, settles⟩ := settles
  refine ⟨n, fun fuel enough => ?_⟩
  obtain ⟨more, rfl⟩ := Nat.exists_eq_add_of_le enough
  rw [run_add, settles.reached, run_final settles.final]

theorem Machine.Settles.run_iff (n : Nat) : Settles e (run e n s) t ↔ Settles e s t := by
  induction n generalizing s with
  | zero => rw [run]
  | succ n ih => rw [run_step, ih, Settles.step_iff]

theorem ends_iff_settles : Ends (fun fuel => (run e fuel s).result name) a ↔
    ∃ t, Settles e s t ∧ t.result name = a := by
  constructor
  · rintro ⟨finished, enough, reached⟩
    have last := reached enough (Nat.le_refl enough)
    rw [← last] at finished
    exact ⟨_, Settles.of_run (State.isFinal_of_result name finished) rfl, last⟩
  · rintro ⟨t, settles, rfl⟩
    obtain ⟨enough, reached⟩ := settles.run_eq
    refine ⟨State.result_finished name settles.final, enough, fun fuel more => ?_⟩
    simp only [reached fuel more]

/-! ### Up to a name -/

/-- The same end, or the same refusal told to callers who asked for different names. -/
inductive AlikeButNames (first second : Text) : (a b : World × Outcome Value) → Prop
  | same (a : World × Outcome Value) : AlikeButNames first second a a
  | refused (w : World) (r : Refusal) :
      AlikeButNames first second
        ((w.throwRefusal r first).1, .failed (w.throwRefusal r first).2)
        ((w.throwRefusal r second).1, .failed (w.throwRefusal r second).2)

theorem State.result_alike (final : s.isFinal = true) (first second : Text) :
    AlikeButNames first second (s.result first) (s.result second) := by
  rcases cases_of_isFinal final with ⟨w, r, rfl⟩ | ⟨w, p, rfl⟩
  · cases r with
    | done | failed => exact .same _
    | refused r => exact .refused w r
  · exact .same _

/-! ### Reading and calling -/

/-- Reads a member and calls what was read, with the same receiver. -/
def Engine.getThenCall (e : Engine) (fuel : Nat) (w : World) (target : Value) (name : Text)
    (args : List Value) : World × Outcome Value :=
  match e.get fuel w target name with
  | (w, .ok fn) => e.call fuel w fn target args
  | (w, .failed f) => (w, .failed f)
  | (w, .stopped p) => (w, .stopped p)
  | (w, .unfinished) => (w, .unfinished)

namespace State

/-- Where the read of a member starts. -/
def reads (w : World) (target : Value) (name : Text) : State :=
  ⟨w, .operate target { operation := .dget, name }, []⟩

/-- Where the call of a value starts. -/
def calls (w : World) (fn this : Value) (args : List Value) : State :=
  ⟨w, .operate fn { operation := .call, args, this }, []⟩

/-- Where the call of a member starts. -/
def callsMember (w : World) (target : Value) (name : Text) (args : List Value) : State :=
  ⟨w, .operate target { operation := .call, name, args, this := target }, []⟩

end State

section Uses

variable {target fn this : Value} {written : Option Value}

theorem ends_call_iff : Ends (e.call · w fn this args) a ↔
    ∃ t, Settles e (.calls w fn this args) t ∧ t.result [] = a :=
  ends_iff_settles

theorem ends_callMember_iff : Ends (e.callMember · w target name args) a ↔
    ∃ t, Settles e (.callsMember w target name args) t ∧ t.result name = a :=
  ends_iff_settles

/-- There is no end without an end of the read. -/
theorem reads_settle (ends : Ends (e.getThenCall · w target name args) b) :
    ∃ u, Settles e (.reads w target name) u := by
  obtain ⟨finished, enough, reached⟩ := ends
  have last : e.getThenCall enough w target name args = b := reached enough (Nat.le_refl enough)
  have read : e.get enough w target name =
    (run e enough (.reads w target name)).result name := rfl
  have final : (run e enough (.reads w target name)).isFinal = true := by
    apply State.isFinal_of_result name
    intro unfinished
    apply finished
    rw [← last, Engine.getThenCall, read]
    generalize State.result _ name = c at unfinished
    obtain ⟨w₁, outcome⟩ := c
    cases unfinished
    rfl
  exact ⟨_, .of_run final rfl⟩

/-- The call starts where the read ended. -/
theorem ends_getThenCall_read {w₁ : World}
    (read : Settles e (.reads w target name) ⟨w₁, .reply (.done written), []⟩) :
    Ends (e.getThenCall · w target name args) b ↔
      Ends (e.call · w₁ (written.getD .void) target args) b := by
  obtain ⟨enough, reached⟩ := read.run_eq
  apply Ends.congr enough
  intro fuel more
  have got : e.get fuel w target name = (w₁, .ok (written.getD .void)) :=
    congrArg (State.result · name) (reached fuel more)
  simp only [Engine.getThenCall, got]

/-- If nothing was read, that is the end. -/
theorem ends_getThenCall_unread (read : Settles e (.reads w target name) u)
    (unread : ∀ fn, (u.result name).2 ≠ .ok fn) :
    Ends (e.getThenCall · w target name args) b ↔ b = u.result name := by
  obtain ⟨enough, reached⟩ := read.run_eq
  have finished := State.result_finished name read.final
  rw [← Ends.const_iff finished]
  apply Ends.congr enough
  intro fuel more
  have got : e.get fuel w target name = u.result name :=
    congrArg (State.result · name) (reached fuel more)
  simp only [Engine.getThenCall, got]
  generalize u.result name = c at unread finished
  obtain ⟨w₁, outcome⟩ := c
  cases outcome with
  | ok fn => exact absurd rfl (unread fn)
  | failed | stopped => rfl
  | unfinished => exact absurd rfl finished

end Uses

/-! ### Calling a member -/

section Calling

variable {self : Value}

/-- The call of a member of a script object is its read with the call waiting. -/
theorem settles_callsMember (there : w.script? ref = some o) (itself : self = .object ref none) :
    Settles e (.callsMember w self name args) t ↔
      ∃ u, Settles e (.reads w self name) u ∧
        Settles e (u.atop [.callMember { operation := .call, args, this := self }]) t := by
  subst itself
  have object := heap_of_script? there
  generalize waiting : Cont.callMember _ = k
  -- Both ask the object first; the read is then the same, by the same receiver.
  have read : step e (step e (.reads w (.object ref none) name)) =
      step e ⟨w, .dispatch ref { operation := .dget, name }, []⟩ := rfl
  have called : step e (step e (.callsMember w (.object ref none) name args)) =
      step e ⟨w, .dispatch ref { operation := .call, name, args, this := .object ref none }, []⟩ :=
    rfl
  rw [step_dispatch] at read called
  simp only [dispatch, object, ScriptObject.answer] at read called
  have begun : (∃ u, Settles e (.reads w (.object ref none) name) u ∧ Settles e (u.atop [k]) t) ↔
      Settles e ((step e (step e (.reads w (.object ref none) name))).atop [k]) t := by
    rw [Settles.atop_iff]
    simp only [Settles.step_iff]
  rw [begun, ← Settles.step_iff, ← Settles.step_iff, called, read]
  by_cases unnamed : name = []
  · -- Nothing is read under no name, and the call says the same.
    subst waiting
    rw [if_pos unnamed, ScriptObject.get, if_pos unnamed]
    exact Settles.step_iff (s := (State.declined w).atop [.callMember _])
  · rw [if_neg unnamed, ← waiting]
    rfl

/-- What waits for the read goes on with what was read, and passes on anything else. -/
theorem after_read {q : Request} (final : u.isFinal = true) (name : Text) :
    (∃ w₁ written, u = ⟨w₁, .reply (.done written), []⟩ ∧
      step e (u.atop [.callMember q]) = ⟨w₁, .operate (written.getD .void) q, []⟩) ∨
    (∀ fn, (u.result name).2 ≠ .ok fn) ∧
      ∃ v, Settles e (u.atop [.callMember q]) v ∧ v.result name = u.result name := by
  have passes {v : State} (stepped : step e (u.atop [.callMember q]) = v)
      (settled : v.isFinal = true) : Settles e (u.atop [.callMember q]) v :=
    Settles.of_run settled (n := 1) (by rw [run_step, stepped, run])
  rcases State.cases_of_isFinal final with ⟨w₁, reply, rfl⟩ | ⟨w₁, p, rfl⟩
  · cases reply with
    | done written => exact .inl ⟨w₁, written, rfl, rfl⟩
    | failed written f =>
      right
      constructor
      · rintro fn ⟨⟩
      · exact ⟨_, passes rfl rfl, rfl⟩
    | refused r =>
      right
      constructor
      · rintro fn ⟨⟩
      · exact ⟨_, passes rfl rfl, rfl⟩
  · right
    constructor
    · rintro fn ⟨⟩
    · exact ⟨_, passes rfl rfl, rfl⟩

end Calling

/-- A call of a member comes to an end if and only if the read and the call of what was
read do, and the ends are the same but for the name in a refusal. -/
theorem member_call_reads_and_calls (e : Engine) (w : World) (ref : ObjRef) (o : ScriptObject)
    (there : w.script? ref = some o) (name : Text) (args : List Value) :
    (∀ a, Ends (e.callMember · w (.object ref none) name args) a →
      ∃ b, Ends (e.getThenCall · w (.object ref none) name args) b ∧ AlikeButNames name [] a b) ∧
    (∀ b, Ends (e.getThenCall · w (.object ref none) name args) b →
      ∃ a, Ends (e.callMember · w (.object ref none) name args) a ∧ AlikeButNames name [] a b) := by
  constructor
  · intro a ends
    obtain ⟨t, settles, rfl⟩ := ends_callMember_iff.mp ends
    obtain ⟨u, read, rest⟩ := (settles_callsMember there rfl).mp settles
    rcases after_read read.final name with ⟨w₁, written, rfl, stepped⟩ | ⟨unread, v, passed, same⟩
    · rw [← Settles.step_iff, stepped] at rest
      refine ⟨t.result [], ?_, t.result_alike rest.final name []⟩
      rw [ends_getThenCall_read read, ends_call_iff]
      exact ⟨t, rest, rfl⟩
    · cases rest.unique passed
      rw [same]
      exact ⟨_, (ends_getThenCall_unread read unread).mpr rfl, .same _⟩
  · intro b ends
    obtain ⟨u, read⟩ := reads_settle ends
    rcases after_read read.final name with ⟨w₁, written, rfl, stepped⟩ | ⟨unread, v, passed, same⟩
    · rw [ends_getThenCall_read read, ends_call_iff] at ends
      obtain ⟨t, rest, rfl⟩ := ends
      refine ⟨t.result name, ends_callMember_iff.mpr ⟨t, ?_, rfl⟩, t.result_alike rest.final name []⟩
      refine (settles_callsMember there rfl).mpr ⟨_, read, ?_⟩
      rw [← Settles.step_iff, stepped]
      exact rest
    · rw [ends_getThenCall_unread read unread] at ends
      refine ⟨v.result name, ends_callMember_iff.mpr ⟨v, ?_, rfl⟩, ?_⟩
      · exact (settles_callsMember there rfl).mpr ⟨u, read, passed⟩
      · rw [same, ends]
        exact .same _

/-- A class with a property that gives its reader, and an instance. -/
def selfReaders : World where
  heap := #[
    .script { name := utf8 "C",
              members := Table.insert {} (utf8 "m") ⟨.object 2 none, { access := 2 }⟩ },
    .script { cls := some 0 },
    .nativeProperty (utf8 "p") (some .functionBind) none none]

/-- The instance reads itself and cannot be called. One caller is told the name. -/
theorem selfReaders_uncallable :
    Ends (plainEngine.getThenCall · selfReaders (.object 1 none) (utf8 "m") [])
      ((selfReaders.throwRefusal .memberNotFound []).1,
        .failed (selfReaders.throwRefusal .memberNotFound []).2) ∧
      ∃ a, Ends (plainEngine.callMember · selfReaders (.object 1 none) (utf8 "m") []) a ∧
        AlikeButNames (utf8 "m") [] a
          ((selfReaders.throwRefusal .memberNotFound []).1,
            .failed (selfReaders.throwRefusal .memberNotFound []).2) := by
  have ends : Ends (plainEngine.getThenCall · selfReaders (.object 1 none) (utf8 "m") [])
      ((selfReaders.throwRefusal .memberNotFound []).1,
        .failed (selfReaders.throwRefusal .memberNotFound []).2) := by
    have read : Settles plainEngine (.reads selfReaders (.object 1 none) (utf8 "m"))
        ⟨selfReaders, .reply (.done (some (.object 1 none))), []⟩ :=
      .of_run rfl (n := 8) rfl
    rw [ends_getThenCall_read read, ends_call_iff]
    exact ⟨.declined selfReaders, .of_run rfl (n := 2) rfl, rfl⟩
  exact ⟨ends, (member_call_reads_and_calls plainEngine selfReaders 1 { cls := some 0 } rfl
    (utf8 "m") []).2 _ ends⟩

end ScriptEngine
