import ScriptEngine.Proofs.Turns

/-! Who can write to a register frame. Frames are written by the blocks that run
in them, in their turns, and by nothing else. A frame that was made for an
invocation can be had by another block only through a closure that captured it. -/
namespace ScriptEngine

open World

namespace World

variable {w w₁ w₂ : World} {frame : FrameRef}

/-- A closure runs in a frame. -/
def Captured (w : World) (frame : FrameRef) : Prop :=
  ∃ (ref : ObjRef) (block : Option CodeBlock) (chain : Chain),
    w.heap[ref]? = some (.closure block (some frame) chain)

theorem Captured.extends (captured : w₁.Captured frame) (grown : w₁.Extends w₂) :
    w₂.Captured frame := by
  obtain ⟨ref, block, chain, there⟩ := captured
  exact ⟨ref, block, chain,
    captureAt_closure.mp (grown.captureAt _ _ (captureAt_closure.mpr there))⟩

theorem not_captured (uncaptured : w.captures = []) : ¬w.Captured frame := by
  rintro ⟨ref, block, chain, there⟩
  have member : Object.closure block (some frame) chain ∈ w.captures :=
    List.mem_filterMap.mpr ⟨_, Array.mem_toList_iff.mpr (Array.mem_of_getElem? there), rfl⟩
  rw [uncaptured] at member
  cases member

theorem Acts.frames (acts : Acts w₁ w₂) : w₂.frames = w₁.frames := by
  refine acts.keeps (P := fun w => w.frames = w₁.frames) (fun act same => ?_) rfl
  rw [← same]
  cases act with
  | modifyScript ref f keeps =>
    rcases modifyScript_eq _ ref f with same | ⟨o, there, same⟩
    · rw [same]
    · rw [same]; rfl
  | bindName ref name slot =>
    rcases bindName_eq _ ref name slot with same | ⟨chain, this, names, there, same⟩
    · rw [same]
    · rw [same]; rfl
  | create | store | raise | report | print | setLock => rfl

theorem Acts.captured (acts : Acts w₁ w₂) (captured : w₂.Captured frame) :
    w₁.Captured frame := by
  obtain ⟨ref, block, chain, there⟩ := captured
  rw [← captureAt_closure, acts.evolves.captureAt_eq, captureAt_closure] at there
  exact ⟨ref, block, chain, there⟩

/-- Writing a register leaves the others alone, and all other frames. -/
theorem setRegister_other {target : FrameRef} {r other : Nat} {v : Value}
    (apart : target ≠ frame ∨ r ≠ other) :
    ((w.setRegister target r v).registers frame)[other]? = (w.registers frame)[other]? := by
  simp only [registers, setRegister, Array.getElem?_modify]
  split
  next here =>
    subst here
    cases w.frames[target]? with
    | none => rfl
    | some held =>
      rcases apart with apart | apart
      · exact absurd rfl apart
      · simp [apart]
  · rfl

theorem setRegister_registers {target : FrameRef} {r : Nat} {v : Value} (apart : target ≠ frame) :
    (w.setRegister target r v).registers frame = w.registers frame := by
  simp only [registers, setRegister, Array.getElem?_modify, if_neg apart]

end World

namespace Activation

variable {w : World} {a : Activation} {plan : Plan} {dst : Option Nat} {taken : Option SignalRef}
  {n : Next} {frame : FrameRef}

/-- In its turn a block leaves all frames as they are, or writes the register for
its result and does not wait or answer. -/
theorem Turn.frames (turn : a.Turn w plan dst taken n) :
    n.world.frames = w.frames ∨
      ∃ r v, dst = some r ∧ n.world.frames = (w.setRegister a.frame r v).frames ∧
        ((∃ a', n.control = .code a') ∨ ∃ p, n.control = .panic p) := by
  have kept {w₁ w₂ : World} (takes : a.Takes w plan.makes w₁) (acts : Acts w₁ w₂) :
      w₂.frames = w.frames := acts.frames.trans takes.frames
  cases turn with
  | goes takes acts stores =>
    cases stores with
    | nothing => exact .inl (kept takes acts)
    | register v named =>
      refine .inr ⟨_, v, named, ?_, .inl ⟨_, rfl⟩⟩
      simp only [setRegister, kept takes acts]
  | stops takes acts stores =>
    have same := kept takes acts
    cases stores with
    | nothing => exact .inl same
    | register v named =>
      refine .inr ⟨_, v, named, ?_, .inr ⟨_, rfl⟩⟩
      simp only [releaseChain, reportReleases, setRegister, same]
  | asks acts => exact .inl acts.frames
  | returns => exact .inl rfl
  | fails f takes acts => exact .inl ((annotate_heap ..).2.1.trans (kept takes acts))

theorem Turn.registers_other (turn : a.Turn w plan dst taken n) (apart : a.frame ≠ frame) :
    n.world.registers frame = w.registers frame := by
  rcases turn.frames with same | ⟨r, v, -, same, -⟩
  · rw [World.registers, same, World.registers]
  · rw [World.registers, same]
    exact setRegister_registers apart

theorem Turn.registers_own (turn : a.Turn w plan dst taken n) {r : Nat} (other : dst ≠ some r) :
    (n.world.registers a.frame)[r]? = (w.registers a.frame)[r]? := by
  rcases turn.frames with same | ⟨r', v, named, same, -⟩
  · rw [World.registers, same, World.registers]
  · have apart : r' ≠ r := by rintro rfl; exact other named
    rw [World.registers, same]
    exact setRegister_other (.inr apart)

theorem Turn.size_frames (turn : a.Turn w plan dst taken n) :
    n.world.frames.size = w.frames.size := by
  rcases turn.frames with same | ⟨r, v, -, same, -⟩
  · rw [same]
  · simp [same, setRegister]

/-- The closures that an instruction makes run in the frame of its block, if they
share one. -/
theorem stepPlan_own {e : Engine} {block : Option CodeBlock} {chain : Chain}
    (made : (a.stepPlan e w).makes (.closure block (some frame) chain)) : frame = a.frame := by
  unfold stepPlan at made
  split at made
  · rcases made with ⟨_, shares, _, _, -, same⟩ | ⟨_, _, -, same⟩
    · cases shares with
      | true => cases same; rfl
      | false => cases same
    · cases same
  · cases made

end Activation

/-! ### What is not the turn of a block -/

/-- Frames stay as they are but for new ones. -/
structure World.Unwritten (w w' : World) : Prop where
  size : w.frames.size ≤ w'.frames.size
  registers : ∀ frame, frame < w.frames.size → w'.registers frame = w.registers frame

namespace World.Unwritten

variable {w₁ w₂ : World}

theorem same (frames : w₂.frames = w₁.frames) : Unwritten w₁ w₂ where
  size := Nat.le_of_eq (congrArg Array.size frames.symm)
  registers frame _ := by rw [World.registers, frames, World.registers]

theorem added {frames : Array (Array Value)} (added : w₂.frames = w₁.frames ++ frames) :
    Unwritten w₁ w₂ where
  size := by simp [added]
  registers frame old := by
    rw [World.registers, added, Array.getElem?_append_left old, World.registers]

end World.Unwritten

namespace Machine

variable {e : Engine} {s : State} {a b : Activation} {await? later? : Option Await} {n : Next}
  {frame : FrameRef} {height : Nat}

theorem step_unwritten (e : Engine) (idle : s.turn? = none) :
    s.world.Unwritten (step e s).world := by
  rcases step_idle e idle with acts | ⟨_, _, _, _, enters, same⟩ | ⟨_, same⟩
  · exact .same acts.frames
  · obtain ⟨frames, added⟩ := enters.parts.2.2
    exact .added (same ▸ added)
  · exact .same (same ▸ rfl)

theorem step_size_frames (e : Engine) (s : State) :
    s.world.frames.size ≤ (step e s).world.frames.size := by
  cases whose : s.turn? with
  | none => exact (step_unwritten e whose).size
  | some a =>
    obtain ⟨await?, n, turns, stepped⟩ := step_turns e whose
    obtain ⟨plan, dst, taken, turn⟩ := turns.turn
    rw [stepped]
    exact Nat.le_of_eq turn.size_frames.symm

/-- A transition that is not the turn of a block in a frame leaves it alone. -/
theorem step_registers (e : Engine) (old : frame < s.world.frames.size)
    (apart : ∀ a, s.turn? = some a → a.frame ≠ frame) :
    (step e s).world.registers frame = s.world.registers frame := by
  cases whose : s.turn? with
  | none => exact (step_unwritten e whose).registers frame old
  | some a =>
    obtain ⟨await?, n, turns, stepped⟩ := step_turns e whose
    obtain ⟨plan, dst, taken, turn⟩ := turns.turn
    rw [stepped]
    exact turn.registers_other (apart a whose)

/-- A frame is captured in the turn of a block that runs in it. -/
theorem step_captured (captured : (step e s).world.Captured frame) :
    s.world.Captured frame ∨ ∃ a, s.turn? = some a ∧ a.frame = frame := by
  obtain ⟨ref, block, chain, there⟩ := captured
  rcases step_closure there with there | ⟨a, running, made⟩
  · exact .inl ⟨ref, block, chain, there⟩
  · exact .inr ⟨a, by simp [State.turn?, running], (Activation.stepPlan_own made).symm⟩

/-- The frame of a block stays the same for as long as it is on the stack. A block
that is new has a new frame, or the one it is given. -/
theorem step_frame (next : (step e s).activationAt height = some (b, later?)) :
    (∃ a await?, s.activationAt height = some (a, await?) ∧ b.frame = a.frame) ∨
      ∃ block inv completion, s.control = .execute (some block) inv completion ∧
        height = s.stack.length ∧
        (inv.frame = some b.frame ∨
          inv.frame = none ∧ b.frame = s.world.frames.size ∧
            b.frame < (step e s).world.frames.size) := by
  cases before : s.activationAt height with
  | none =>
    obtain ⟨block, inv, completion, n, begins, top, enters, running, -, stepped⟩ :=
      activationAt_new before next
    refine .inr ⟨block, inv, completion, begins, top, ?_⟩
    rw [stepped]
    cases enters with
    | flat framed | nested framed =>
      cases running
      cases framed with
      | supplied given => exact .inl given
      | fresh absent => exact .inr ⟨absent, rfl, by simp [Invocation.begun, World.newFrame]⟩
    | refused | broken | crowded | small => cases running
  | some own =>
    obtain ⟨a, await?⟩ := own
    refine .inl ⟨a, await?, rfl, ?_⟩
    rcases activationAt_step e before with below | ⟨rfl, n, turns, stepped⟩ | ⟨-, -, gone⟩
    · rw [step_activationAt below, before] at next
      cases next
      rfl
    · obtain ⟨plan, dst, taken, turn⟩ := turns.turn
      rw [stepped] at next
      rcases turn.stays next with ⟨-, place, -, rfl⟩ | ⟨await, -, -, rfl⟩ <;> rfl
    · rw [gone] at next
      cases next

end Machine

/-! ### Frames of one's own -/

/-- The frames that closures and blocks run in are there. -/
structure State.FramesExist (s : State) : Prop where
  closures : ∀ frame, s.world.Captured frame → frame < s.world.frames.size
  blocks : ∀ height a await?, s.activationAt height = some (a, await?) →
    a.frame < s.world.frames.size
  begins : ∀ block inv completion frame, s.control = .execute block inv completion →
    inv.frame = some frame → frame < s.world.frames.size

/-- Only the block at a height runs in a frame, and no other is about to. -/
structure State.Sole (s : State) (height : Nat) (frame : FrameRef) : Prop where
  blocks : ∀ other a await?, other ≠ height → s.activationAt other = some (a, await?) →
    a.frame ≠ frame
  begins : ∀ block inv completion, s.control = .execute block inv completion →
    inv.frame ≠ some frame

namespace Machine

variable {e : Engine} {s : State} {a b : Activation} {await? later? : Option Await}
  {frame : FrameRef} {height : Nat}

theorem step_framesExist (exist : s.FramesExist) : (step e s).FramesExist where
  closures frame captured := by
    refine Nat.lt_of_lt_of_le ?_ (step_size_frames e s)
    rcases step_captured captured with captured | ⟨a, whose, rfl⟩
    · exact exist.closures frame captured
    · obtain ⟨await?, n, turns, -⟩ := step_turns e whose
      exact exist.blocks _ a await? turns.activationAt
  blocks height b later? next := by
    rcases step_frame next with ⟨a, await?, before, same⟩ |
      ⟨block, inv, completion, begins, -, given | ⟨-, -, new⟩⟩
    · exact same ▸ Nat.lt_of_lt_of_le (exist.blocks height a await? before) (step_size_frames e s)
    · exact Nat.lt_of_lt_of_le (exist.begins _ inv _ b.frame begins given) (step_size_frames e s)
    · exact new
  begins block inv completion frame begins given := by
    refine Nat.lt_of_lt_of_le ?_ (step_size_frames e s)
    cases execute_entry begins with
    | closure there => exact exist.closures frame ⟨_, _, _, given ▸ there⟩
    | evaluation _ _ _ unframed => rw [unframed] at given; cases given

theorem run_framesExist (exist : s.FramesExist) (n : Nat) : (run e n s).FramesExist := by
  induction n with
  | zero => exact exist
  | succ n ih => rw [run_succ]; exact step_framesExist ih

/-- As long as no closure captured it, a frame stays with one block. -/
theorem step_sole (sole : s.Sole height frame) (old : frame < s.world.frames.size)
    (uncaptured : ¬s.world.Captured frame) : (step e s).Sole height frame where
  blocks other b later? apart next := by
    rcases step_frame next with ⟨a, await?, before, same⟩ |
      ⟨block, inv, completion, begins, -, given | ⟨-, new, -⟩⟩
    · exact same ▸ sole.blocks other a await? apart before
    -- A block that has just begun may have been given a frame, but not this one.
    · rintro rfl
      exact sole.begins _ inv _ begins given
    · rw [new]
      exact Nat.ne_of_gt old
  begins block inv completion begins given := by
    cases execute_entry begins with
    | closure there => exact uncaptured ⟨_, _, _, given ▸ there⟩
    | evaluation _ _ _ unframed => rw [unframed] at given; cases given

/-- What is known of an invocation that was given a frame of its own. -/
structure Owns (s t : State) (a : Activation) (await? : Option Await) : Prop where
  frame : a.frame = s.world.frames.size
  there : a.frame < t.world.frames.size
  waits : ∀ await, await? = some await → await.dst? = none ∨ await.dst? = a.destination?
  sole : ¬t.world.Captured a.frame → t.Sole s.stack.length a.frame

theorem step_uncaptured (e : Engine) (uncaptured : ¬(step e s).world.Captured frame) :
    ¬s.world.Captured frame :=
  fun captured => uncaptured (captured.extends (.transition (step_transition e s)))

theorem Owns.kept {t : State} (owns : Owns s t a await?) :
    a.frame < (step e t).world.frames.size ∧
      (¬(step e t).world.Captured a.frame → (step e t).Sole s.stack.length a.frame) := by
  refine ⟨Nat.lt_of_lt_of_le owns.there (step_size_frames e t), fun uncaptured => ?_⟩
  have before := step_uncaptured e uncaptured
  exact step_sole (owns.sole before) owns.there before

/-- An invocation begins with a frame that nothing else has. -/
theorem owns_begun {block : CodeBlock} {inv : Invocation} {completion : Completion}
    (exist : s.FramesExist) (begins : s.control = .execute (some block) inv completion)
    (unframed : inv.frame = none) (running : (step e s).control = .code a)
    (own : (step e s).activationAt s.stack.length = some (a, none)) :
    Owns s (step e s) a none := by
  rcases step_frame own with ⟨_, _, before, -⟩ |
    ⟨block', inv', completion', begins', -, given | ⟨-, frame, new⟩⟩
  · simp [State.activationAt, begins] at before
  · rw [begins] at begins'
    cases begins'
    rw [unframed] at given
    cases given
  · refine ⟨frame, new, by simp, fun _ => ⟨fun other b later? apart there => ?_, ?_⟩⟩
    · rcases step_frame there with ⟨c, waiting?, before, same⟩ | ⟨_, _, _, -, top, -⟩
      · rw [same, frame]
        exact Nat.ne_of_lt (exist.blocks other c waiting? before)
      · exact absurd top apart
    · intro _ _ _ executes
      rw [running] at executes
      cases executes

/-- What a block waits with after its turn writes the register for its result. -/
theorem Turns.waits {t : State} {next : Next} {a' : Activation} {later? : Option Await}
    (turns : Turns e t a await? next)
    (waits : ∀ await, await? = some await → await.dst? = none ∨ await.dst? = a.destination?)
    (there : State.activationAt ⟨next.world, next.control, next.push ++ t.base⟩ t.base.length =
      some (a', later?)) :
    a'.frame = a.frame ∧
      ∀ await, later? = some await → await.dst? = none ∨ await.dst? = a'.destination? := by
  have result {w : World} {plan : Plan} {dst : Option Nat} {taken : Option SignalRef}
      (turn : a.Turn w plan dst taken next)
      (planned : ∀ await, plan.waits await → await.dst? = none ∨ await.dst? = a.destination?) :
      a'.frame = a.frame ∧
        ∀ await, later? = some await → await.dst? = none ∨ await.dst? = a'.destination? := by
    rcases turn.stays there with ⟨rfl, place, -, rfl⟩ | ⟨await, rfl, awaits, rfl⟩
    · exact ⟨rfl, by simp⟩
    · refine ⟨rfl, ?_⟩
      rintro _ ⟨⟩
      exact planned await awaits
  cases turns with
  | goes turn =>
    refine result turn ?_
    rintro _ ⟨name, args, dst, place, rfl, rfl⟩
    exact waits (.classOf name args dst place) rfl
  | @runs w _ stack _ turn =>
    refine result turn fun await waits => ?_
    cases read : a.action e w with
    | none => rw [Activation.stepPlan, read] at waits; cases waits
    | some action =>
      rw [Activation.stepPlan, read] at waits
      obtain ⟨target, r, lock, rfl⟩ := waits
      exact (Activation.action_effects read).1

theorem Lasts.owns {block : CodeBlock} {inv : Invocation} {completion : Completion}
    (exist : s.FramesExist) (begins : s.control = .execute (some block) inv completion)
    (unframed : inv.frame = none) {n : Nat} (lasts : Lasts e s n)
    (there : (run e n s).activationAt s.stack.length = some (a, await?)) :
    Owns s (run e n s) a await? := by
  refine Lasts.keeps (P := fun n a await? => Owns s (run e n s) a await?) begins ?_ ?_ ?_ lasts there
  · intro a b next same enters running stepped
    have running' : (step e s).control = .code a := by rw [stepped]; exact running
    rw [run_succ, run]
    refine owns_begun exist begins unframed running' ?_
    rw [stepped, running]
    simp [State.activationAt]
  · intro n a await positive below there owns
    rw [run_succ]
    exact ⟨owns.frame, owns.kept.1, owns.waits, owns.kept.2⟩
  · intro n a await? next a' later? positive height turns stepped there owns
    rw [stepped, height] at there
    obtain ⟨same, waits⟩ := turns.waits owns.waits there
    rw [run_succ]
    refine ⟨same ▸ owns.frame, same ▸ owns.kept.1, waits, ?_⟩
    rw [same]
    exact owns.kept.2

/-! ### The course of an instruction -/

/-- The invocation that a state is about to begin waits, after so many transitions,
for as many more. -/
def Waits (e : Engine) (s : State) (n count : Nat) : Prop :=
  ∀ m < count, ((run e (n + m + 1) s).activationAt s.stack.length).any (·.2.isSome) = true

instance (e : Engine) (s : State) (n count : Nat) : Decidable (Waits e s n count) :=
  Nat.decidableBallLT count _

section Course

variable {block : CodeBlock} {inv : Invocation} {completion : Completion} {n count : Nat}

/-- While a block waits for the answer to a request of its own, its frame stays as
it is. -/
theorem step_waiting {await : Await} (sole : s.Sole height a.frame)
    (old : a.frame < s.world.frames.size) (there : s.activationAt height = some (a, await?))
    (next : (step e s).activationAt height = some (b, some await))
    (uncaptured : ¬s.world.Captured a.frame) :
    b = a ∧ (step e s).world.registers a.frame = s.world.registers a.frame ∧
      ¬(step e s).world.Captured a.frame := by
  rcases activationAt_step e there with below | ⟨rfl, n, turns, stepped⟩ | ⟨-, -, gone⟩
  · -- A block that is below the top of the stack has no turn.
    have apart (c : Activation) (whose : s.turn? = some c) : c.frame ≠ a.frame := by
      obtain ⟨later?, n, turns, -⟩ := step_turns e whose
      exact sole.blocks _ c later? (Nat.ne_of_gt below) turns.activationAt
    rw [step_activationAt below, there] at next
    cases next
    refine ⟨rfl, step_registers e old apart, fun captured => ?_⟩
    rcases step_captured captured with captured | ⟨c, whose, same⟩
    · exact uncaptured captured
    · exact apart c whose same
  · obtain ⟨plan, dst, taken, turn⟩ := turns.turn
    rw [stepped] at next ⊢
    rcases turn.stays next with ⟨⟨⟩, -⟩ | ⟨_, -, -, rfl⟩
    cases turn with
    | asks acts =>
      refine ⟨rfl, by rw [World.registers, acts.frames, World.registers], fun captured => ?_⟩
      exact uncaptured (acts.captured captured)
    | goes | returns | fails | stops => cases (State.activationAt_top next).2
  · rw [gone] at next
    cases next

theorem waits_unchanged (exist : s.FramesExist)
    (begins : s.control = .execute (some block) inv completion) (unframed : inv.frame = none)
    (lasts : Lasts e s n) (there : (run e n s).activationAt s.stack.length = some (a, none))
    (uncaptured : ¬(run e n s).world.Captured a.frame) (waits : Waits e s n count) :
    Lasts e s (n + count) ∧
      (∃ await?, (run e (n + count) s).activationAt s.stack.length = some (a, await?)) ∧
      ¬(run e (n + count) s).world.Captured a.frame ∧
      (run e (n + count) s).world.registers a.frame = (run e n s).world.registers a.frame := by
  induction count with
  | zero => exact ⟨lasts, ⟨none, there⟩, uncaptured, rfl⟩
  | succ count ih =>
    obtain ⟨lasted, ⟨await?, before⟩, free, same⟩ := ih fun m less => waits m (Nat.lt_succ_of_lt less)
    obtain ⟨⟨b, later?⟩, next, waiting⟩ :=
      (Option.any_eq_true _ _).mp (waits count (Nat.lt_succ_self _))
    obtain ⟨await, rfl⟩ := Option.isSome_iff_exists.mp waiting
    have owns := lasted.owns exist begins unframed before
    have stepped := run_succ e (n + count) s
    rw [stepped] at next
    obtain ⟨rfl, kept, free'⟩ := step_waiting (owns.sole free) owns.there before next free
    refine ⟨lasted.succ (by rw [stepped, next]; rfl), ⟨some await, ?_⟩, ?_, ?_⟩
    · rw [← Nat.add_assoc, stepped, next]
    · rw [← Nat.add_assoc, stepped]; exact free'
    · rw [← Nat.add_assoc, stepped, kept, same]

/-- A block that goes on has written the register for the result of its
instruction at most. -/
theorem step_completes {t : State} (owns : Owns t s a await?)
    (there : s.activationAt height = some (a, await?))
    (next : (step e s).activationAt height = some (b, none)) {r : Nat}
    (other : a.destination? ≠ some r) :
    b.frame = a.frame ∧
      ((step e s).world.registers a.frame)[r]? = (s.world.registers a.frame)[r]? := by
  rcases activationAt_step e there with below | ⟨rfl, n, turns, stepped⟩ | ⟨-, -, gone⟩
  · rw [step_activationAt below, there] at next
    cases next
    obtain ⟨top, running⟩ := State.activationAt_running there
    rw [State.base, running, top] at below
    exact absurd below (Nat.lt_irrefl _)
  · rw [stepped] at next ⊢
    cases turns with
    | goes turn =>
      rcases turn.stays next with ⟨-, place, -, rfl⟩ | ⟨_, ⟨⟩, -⟩
      refine ⟨rfl, turn.registers_own fun named => ?_⟩
      rcases owns.waits _ rfl with none | same
      · rw [none] at named; cases named
      · exact other (same ▸ named)
    | @runs w _ stack _ turn =>
      rcases turn.stays next with ⟨-, place, -, rfl⟩ | ⟨_, ⟨⟩, -⟩
      refine ⟨rfl, turn.registers_own fun named => ?_⟩
      obtain ⟨action, read, named⟩ := Option.bind_eq_some_iff.mp named
      rcases (Activation.action_effects read).1 with none | same
      · rw [none] at named; cases named
      · exact other (same ▸ named)
  · rw [gone] at next
    cases next

/-- A block that answers has left its frame as it was. -/
theorem step_ends {r : Reply} (there : s.activationAt height = some (a, await?))
    (ended : (step e s).stack.length = height) (answered : (step e s).control = .reply r) :
    (step e s).world.registers frame = s.world.registers frame := by
  rcases activationAt_step e there with below | ⟨rfl, n, turns, stepped⟩ | ⟨-, ⟨p, panics⟩, -⟩
  · obtain ⟨pushed, grown⟩ := step_base e s
    rw [grown, List.length_append] at ended
    omega
  · obtain ⟨plan, dst, taken, turn⟩ := turns.turn
    rw [stepped] at answered ⊢
    rcases turn.frames with same | ⟨_, _, -, -, ⟨_, code⟩ | ⟨_, panic⟩⟩
    · rw [World.registers, same, World.registers]
    · exact absurd (code.symm.trans answered) (by simp)
    · exact absurd (panic.symm.trans answered) (by simp)
  · obtain ⟨w, control, stack⟩ := s
    cases panics
    cases stack <;> cases answered

end Course

theorem run_size_frames (e : Engine) (s : State) {n m : Nat} (le : n ≤ m) :
    (run e n s).world.frames.size ≤ (run e m s).world.frames.size := by
  obtain ⟨k, rfl⟩ := Nat.exists_eq_add_of_le le
  clear le
  induction k with
  | zero => exact Nat.le_refl _
  | succ k ih =>
    rw [← Nat.add_assoc, run_succ]
    exact Nat.le_trans ih (step_size_frames e _)

/-- The frame of the invocation that a state is about to begin is its own. -/
structure Private (e : Engine) (s : State) : Prop where
  /-- As long as no closure captured the frame, no other block runs in it. -/
  apart : ∀ (n : Nat) (a : Activation) (await? : Option Await), Lasts e s n →
    (run e n s).activationAt s.stack.length = some (a, await?) →
    ¬(run e n s).world.Captured a.frame →
    ∀ (height : Nat) (b : Activation) (later? : Option Await), height ≠ s.stack.length →
      (run e n s).activationAt height = some (b, later?) → b.frame ≠ a.frame
  /-- Whatever an instruction sets off, the frame stays as it is until the outcome
  is there. -/
  waiting : ∀ (n count : Nat) (a : Activation), Lasts e s n →
    (run e n s).activationAt s.stack.length = some (a, none) →
    ¬(run e n s).world.Captured a.frame → Waits e s n count →
    (run e (n + count) s).world.registers a.frame = (run e n s).world.registers a.frame
  /-- An instruction that is done has written the register for its result at
  most. -/
  completes : ∀ (n count : Nat) (a b : Activation), Lasts e s n →
    (run e n s).activationAt s.stack.length = some (a, none) →
    ¬(run e n s).world.Captured a.frame → Waits e s n count →
    (run e (n + count + 1) s).activationAt s.stack.length = some (b, none) →
    ∀ r, a.destination? ≠ some r → b.frame = a.frame ∧
      ((run e (n + count + 1) s).world.registers a.frame)[r]? =
        ((run e n s).world.registers a.frame)[r]?
  /-- An instruction that ends the invocation, with a failure or a result, leaves
  the frame as it is. -/
  ends : ∀ (n count : Nat) (a : Activation) (r : Reply), Lasts e s n →
    (run e n s).activationAt s.stack.length = some (a, none) →
    ¬(run e n s).world.Captured a.frame → Waits e s n count →
    (run e (n + count + 1) s).stack.length = s.stack.length →
    (run e (n + count + 1) s).control = .reply r →
    (run e (n + count + 1) s).world.registers a.frame = (run e n s).world.registers a.frame
  /-- A later invocation with a frame of its own, of whatever block, has another
  one. -/
  disjoint : ∀ (n m k : Nat) (a b : Activation) (await? later? : Option Await) (block : CodeBlock)
    (inv : Invocation) (completion : Completion), Lasts e s n →
    (run e n s).activationAt s.stack.length = some (a, await?) → 0 < m →
    (run e m s).control = .execute (some block) inv completion → inv.frame = none →
    Lasts e (run e m s) k →
    (run e (m + k) s).activationAt (run e m s).stack.length = some (b, later?) →
    b.frame ≠ a.frame

/-- Register frames that were made for an invocation are private to it. -/
theorem own_frames_private (e : Engine) (start : State) (exist : start.FramesExist) (moment : Nat)
    (block : CodeBlock) (inv : Invocation) (completion : Completion)
    (begins : (run e moment start).control = .execute (some block) inv completion)
    (unframed : inv.frame = none) : Private e (run e moment start) := by
  have exist := run_framesExist (e := e) exist moment
  generalize run e moment start = s at *
  refine ⟨?_, ?_, ?_, ?_, ?_⟩
  · intro n a await? lasts there uncaptured height b later? other found
    have owns := lasts.owns exist begins unframed there
    exact (owns.sole uncaptured).blocks height b later? other found
  · intro n count a lasts there uncaptured waits
    exact (waits_unchanged exist begins unframed lasts there uncaptured waits).2.2.2
  · intro n count a b lasts there uncaptured waits next r other
    obtain ⟨lasted, ⟨await?, before⟩, -, same⟩ :=
      waits_unchanged exist begins unframed lasts there uncaptured waits
    rw [run_succ] at next ⊢
    obtain ⟨frame, kept⟩ :=
      step_completes (lasted.owns exist begins unframed before) before next other
    exact ⟨frame, by rw [kept, same]⟩
  · intro n count a r lasts there uncaptured waits ended answered
    obtain ⟨-, ⟨await?, before⟩, -, same⟩ :=
      waits_unchanged exist begins unframed lasts there uncaptured waits
    rw [run_succ] at ended answered ⊢
    rw [step_ends before ended answered, same]
  · intro n m k a b await? later? block' inv' completion' lasts there later begins' unframed' lasts'
      found
    have owns := lasts.owns exist begins unframed there
    rw [run_add] at found
    have owns' := lasts'.owns (run_framesExist exist m) begins' unframed' found
    have begun : s.world.frames.size < (run e 1 s).world.frames.size := by
      cases n with
      | zero => simp [run, State.activationAt, begins] at there
      | succ n =>
        obtain ⟨⟨c, waiting?⟩, first⟩ := Option.isSome_iff_exists.mp (lasts 0 (Nat.succ_pos n))
        have owned := (lasts.mono (Nat.succ_le_succ (Nat.zero_le n))).owns exist begins unframed first
        exact owned.frame ▸ owned.there
    have grown := run_size_frames e s later
    rw [owns'.frame, owns.frame]
    exact Nat.ne_of_gt (Nat.lt_of_lt_of_le begun grown)

/-- A block that calls its second register under guard and returns it. -/
def probing : CodeBlock := { code? := some #[27, 0, 1, 0, 0, 33, 1], registers := 2 }

def probes : State := ⟨{}, .execute (some probing) {} .result, []⟩

theorem probes_framesExist : probes.FramesExist where
  closures _ captured := absurd captured (not_captured rfl)
  blocks height a await? there := by
    cases height <;> simp [probes, State.activationAt, waitingAt] at there
  begins _ _ _ _ begins given := by
    cases begins
    cases given

/-- The guarded call writes its own register only, and the return none. -/
theorem probes_private :
    (∀ r, r ≠ 0 → ((run plainEngine 4 probes).world.registers 0)[r]? =
      ((run plainEngine 1 probes).world.registers 0)[r]?) ∧
    (run plainEngine 5 probes).world.registers 0 = (run plainEngine 4 probes).world.registers 0 := by
  have owned := own_frames_private plainEngine probes probes_framesExist 0 probing {} .result rfl rfl
  constructor
  · intro r other
    refine (owned.completes 1 2 _ _ (by decide +kernel) rfl (not_captured rfl) (by decide +kernel)
      rfl r ?_).2
    exact fun same => other (Option.some.inj same).symm
  · exact owned.ends 4 0 _ _ (by decide +kernel) rfl (not_captured rfl) (by decide +kernel) rfl rfl

end Machine
end ScriptEngine
