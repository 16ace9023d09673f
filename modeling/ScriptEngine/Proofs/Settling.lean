import ScriptEngine.Proofs.BlockStep

/-! Runs inside runs. What waits below is neither looked at nor changed until the work
above it has come to an answer, so the work runs as if it were alone, and its answer is
then what the topmost waiting one goes on with. -/
namespace ScriptEngine

/-- A state with more below what waits in it. -/
def State.atop (s : State) (below : List Cont) : State := { s with stack := s.stack ++ below }

namespace State

variable {s : State} {below : List Cont}

@[simp] theorem atop_nil : s.atop [] = s := by
  rw [atop, List.append_nil]

theorem isFinal_atop (unsettled : s.isFinal = false) : (s.atop below).isFinal = false := by
  obtain ⟨w, control, stack⟩ := s
  cases control with
  | reply | panic =>
    cases stack with
    | nil => cases unsettled
    | cons => rfl
  | _ => rfl

theorem cases_of_isFinal (final : s.isFinal = true) :
    (∃ w r, s = ⟨w, .reply r, []⟩) ∨ ∃ w p, s = ⟨w, .panic p, []⟩ := by
  obtain ⟨w, control, stack⟩ := s
  cases control with
  | reply r =>
    cases stack with
    | nil => exact .inl ⟨w, r, rfl⟩
    | cons => cases final
  | panic p =>
    cases stack with
    | nil => exact .inr ⟨w, p, rfl⟩
    | cons => cases final
  | _ => cases final

end State

namespace Machine

variable {e : Engine} {s t u : State} {below : List Cont} {n : Nat}

theorem step_atop (unsettled : s.isFinal = false) :
    step e (s.atop below) = (step e s).atop below := by
  obtain ⟨w, control, stack⟩ := s
  cases control with
  | reply | panic =>
    cases stack with
    | nil => cases unsettled
    | cons => simp [step, State.atop]
  | _ => simp [step, State.atop]

/-- Up to its answer, work runs the same over whatever waits below. -/
theorem run_atop (unsettled : ∀ k < n, (run e k s).isFinal = false) :
    run e n (s.atop below) = (run e n s).atop below := by
  induction n with
  | zero => rfl
  | succ n ih =>
    rw [run_succ, run_succ, ih fun k before => unsettled k (Nat.lt_succ_of_lt before),
      step_atop (unsettled n (Nat.lt_succ_self n))]

/-- The answer that a state comes to, and when. -/
structure SettlesIn (e : Engine) (n : Nat) (s t : State) : Prop where
  reached : run e n s = t
  final : t.isFinal = true
  before : ∀ k < n, (run e k s).isFinal = false

/-- The answer that a state comes to. -/
def Settles (e : Engine) (s t : State) : Prop := ∃ n, SettlesIn e n s t

theorem SettlesIn.zero (final : s.isFinal = true) : SettlesIn e 0 s s :=
  ⟨rfl, final, fun _ before => absurd before (Nat.not_lt_zero _)⟩

theorem SettlesIn.succ (unsettled : s.isFinal = false) (later : SettlesIn e n (step e s) t) :
    SettlesIn e (n + 1) s t where
  reached := by rw [run_step, later.reached]
  final := later.final
  before k less := by
    cases k with
    | zero => exact unsettled
    | succ k => rw [run_step]; exact later.before k (Nat.lt_of_succ_lt_succ less)

namespace Settles

theorem final (settles : Settles e s t) : t.isFinal = true := settles.choose_spec.final

theorem of_run (final : t.isFinal = true) (reached : run e n s = t) : Settles e s t := by
  induction n generalizing s with
  | zero => cases reached; exact ⟨0, .zero final⟩
  | succ n ih =>
    cases settled : s.isFinal with
    | true =>
      rw [run_final settled] at reached
      cases reached
      exact ⟨0, .zero final⟩
    | false =>
      obtain ⟨k, later⟩ := ih (by rwa [run_step] at reached)
      exact ⟨k + 1, later.succ settled⟩

theorem unique (first : Settles e s t) (second : Settles e s u) : t = u := by
  obtain ⟨n, first⟩ := first
  obtain ⟨m, second⟩ := second
  have same : run e (n + m) s = run e (m + n) s := by rw [Nat.add_comm]
  rwa [run_add, run_add, first.reached, second.reached, run_final first.final,
    run_final second.final] at same

theorem step_iff : Settles e (step e s) t ↔ Settles e s t := by
  constructor
  · rintro ⟨n, later⟩
    exact of_run later.final ((run_step e n s).trans later.reached)
  · rintro ⟨n, settles⟩
    refine of_run settles.final (n := n) ?_
    rw [← run_step, run_succ, settles.reached, step_final settles.final]

theorem final_iff (final : s.isFinal = true) : Settles e s t ↔ t = s := by
  have settled : Settles e s s := ⟨0, .zero final⟩
  exact ⟨fun settles => settles.unique settled, fun same => by rwa [same]⟩

/-- Work over a stack comes to an answer by way of its own. -/
theorem atop_iff : Settles e (s.atop below) t ↔ ∃ u, Settles e s u ∧ Settles e (u.atop below) t := by
  constructor
  · rintro ⟨n, settles⟩
    -- The induction is on the whole run, which the work's own is a part of.
    induction n generalizing s with
    | zero =>
      cases settled : s.isFinal with
      | true => exact ⟨s, ⟨0, .zero settled⟩, 0, settles⟩
      | false =>
        have final := settles.final
        rw [← settles.reached, run, State.isFinal_atop settled] at final
        cases final
    | succ n ih =>
      cases settled : s.isFinal with
      | true => exact ⟨s, ⟨0, .zero settled⟩, n + 1, settles⟩
      | false =>
        have later : SettlesIn e n ((step e s).atop below) t := by
          rw [← step_atop settled]
          refine ⟨by rw [← run_step, settles.reached], settles.final, fun k less => ?_⟩
          rw [← run_step]
          exact settles.before (k + 1) (Nat.succ_lt_succ less)
        obtain ⟨u, own, rest⟩ := ih later
        exact ⟨u, step_iff.mp own, rest⟩
  · rintro ⟨u, ⟨n, own⟩, m, rest⟩
    refine of_run rest.final (n := n + m) ?_
    rw [run_add, run_atop own.before, own.reached, rest.reached]

/-- Nothing that waits keeps a stop from the end. -/
theorem of_panic {w : World} {p : Panic} {stack : List Cont}
    (settles : Settles e ⟨w, .panic p, stack⟩ t) : ∃ w', t = ⟨w', .panic p, []⟩ := by
  induction stack generalizing w with
  | nil => exact ⟨w, (final_iff rfl).mp settles⟩
  | cons top rest ih => exact ih (step_iff.mpr settles)

end Settles
end Machine
end ScriptEngine
