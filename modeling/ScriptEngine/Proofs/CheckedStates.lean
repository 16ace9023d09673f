import ScriptEngine.Proofs.Turns

/-! States in which all code has been checked. Closures are made of nested blocks,
which are checked with the blocks that hold them, and source text is compiled to
checked blocks; so a run of checked code comes upon no other. -/
namespace ScriptEngine

open World

/-- The blocks of all closures have been checked. -/
def World.Checked (w : World) : Prop :=
  ∀ (ref : ObjRef) (block : CodeBlock) (frame : Option FrameRef) (chain : Chain),
    w.heap[ref]? = some (.closure (some block) frame chain) → block.validate = .ok ()

/-- The compiler of a host, if there is one, gives checked blocks. -/
def Host.Checks (host : Host) : Prop :=
  ∀ compile source names block, host.compiler = some compile →
    compile source names = .ok (some block) → block.validate = .ok ()

/-- All code of a state has been checked, and what runs keeps to its bounds. -/
structure State.Checked (s : State) : Prop where
  closures : s.world.Checked
  begins : ∀ block inv completion, s.control = .execute (some block) inv completion →
    block.validate = .ok ()
  blocks : ∀ height a await?, s.activationAt height = some (a, await?) → a.Sound s.world await?

theorem State.Checked.running {s : State} (checked : s.Checked) {a : Activation}
    (running : s.control = .code a) : a.Sound s.world none :=
  checked.blocks s.stack.length a none (by simp [activationAt, running])

namespace Machine

variable {e : Engine} {s : State}

theorem step_checked (checks : e.host.Checks) (checked : s.Checked) : (step e s).Checked where
  closures ref block frame chain there := by
    rcases step_closure there with before | ⟨a, running, made⟩
    · exact checked.closures _ _ _ _ before
    · have sound := checked.running running
      have closure : ClosureSound s.world (some block) frame := by
        rcases sound.poised with ended | ⟨i, poised, -⟩
        · exact (Activation.stepPlan_ended ended).1.makes _ frame chain made
        · exact (poised.stepPlan_within sound.valid).makes _ frame chain made
      obtain ⟨sub, ⟨⟩, valid, -⟩ := closure
      exact valid
  begins block inv completion begins := by
    cases execute_entry begins with
    | closure there => exact checked.closures _ _ _ _ there
    | evaluation _ installed compiled => exact checks _ _ _ _ installed compiled
  blocks height a await? there := by
    cases before : s.activationAt height with
    | some own => exact (step_transition e s).sound before (checked.blocks height _ _ before) there
    | none =>
      obtain ⟨block, inv, completion, n, begins, -, enters, running, rfl, stepped⟩ :=
        activationAt_new before there
      have valid := checked.begins block inv completion begins
      rw [stepped]
      cases enters with
      | flat framed | nested framed =>
        cases running
        exact ⟨valid, framed.fits, CodeBlock.zero_mem_starts valid, nofun⟩
      | refused | broken | crowded | small => cases running

theorem run_checked (checks : e.host.Checks) (checked : s.Checked) (n : Nat) :
    (run e n s).Checked := by
  induction n with
  | zero => exact checked
  | succ n ih => rw [run_succ]; exact step_checked checks ih

/-- A checked block that is about to run, with nothing below it. -/
theorem execute_checked {w : World} {block : CodeBlock} {inv : Invocation} {completion : Completion}
    (closures : w.Checked) (valid : block.validate = .ok ()) :
    State.Checked ⟨w, .execute (some block) inv completion, []⟩ where
  closures := closures
  begins _ _ _ same := by cases same; exact valid
  blocks height a await? there := by
    cases height <;> simp [State.activationAt, waitingAt] at there

end Machine
end ScriptEngine
