import Mathlib.Tactic.IntervalCases
import ScriptEngine.Embedding
import ScriptEngine.Proofs.CheckedStates
import ScriptEngine.Proofs.TwinTransitions

/-! What the switches of an engine change. If all code has been checked, showing
registers adds reports and does nothing else, and assertions that hold are not
noticed. A limit on shared frames shows only where it refuses one. -/
namespace ScriptEngine

open World

/-- A report of the diagnostic instruction. -/
def Event.isDump : Event → Bool
  | .dump .. => true
  | _ => false

namespace State

/-- The block that runs stands at an assertion that does not hold. -/
def FailsAssertion (s : State) : Prop :=
  ∃ a v, s.control = .code a ∧ a.opcode? = some .assert ∧ a.register? s.world 1 = some v ∧
    v.toBool = false

/-- An exception of this name is what the block that runs, or a callable, ends with. -/
def Raises (s : State) (name : String) : Prop :=
  ∃ ref error message trace cause, s.control = .reply (.failed none (.signal ref)) ∧
    s.world.signals[ref]? = some (.thrown (.object error none) trace cause) ∧
    s.world.heap[error]? = some (.error (utf8 name) message)

/-- A block that is about to run is refused a shared frame. -/
def Refuses (e : Engine) (s : State) : Prop :=
  ∃ block inv completion, s.control = .execute (some block) inv completion ∧
    (Machine.step e s).control =
      .reply (.failed none (.labelled block.title (.host (.arena .full))))

/-- The same state in twin worlds. -/
structure Twin (keep : Event → Bool) (limit : Int) (s s' : State) : Prop where
  world : s.world.Twin keep limit s'.world
  control : s'.control = s.control
  stack : s'.stack = s.stack
  blind : s.control.Blind ∧ ∀ c ∈ s.stack, c.Blind

end State

/-! ### Instructions -/

namespace Activation

variable {keep : Event → Bool} {limit : Int} {e : Engine} {config : Config} {w w' : World}
  {a : Activation}

/-- A sound block at an instruction stands at one that has been checked. -/
theorem Sound.poised_at {opcode : Opcode} (sound : a.Sound w none)
    (read : a.opcode? = some opcode) : ∃ i, Poised w a i ∧ i.opcode = opcode := by
  rcases sound.poised with ended | ⟨i, poised, -⟩
  · simp [opcode?, ended] at read
  · exact ⟨i, poised, Option.some.inj (poised.ready.opcode?_eq.symm.trans read)⟩

theorem Sound.asserts (sound : a.Sound w none) (read : a.opcode? = some .assert) :
    (∃ v, a.register? w 1 = some v) ∧ ∃ k, a.const? 2 = some k := by
  obtain ⟨i, poised, opcode⟩ := sound.poised_at read
  have laid := poised.ready.laid
  simp only [opcode, Opcode.operands, Laid, OperandKind.width] at laid
  obtain ⟨r, _, -, register, k, _, -, constant, -⟩ := laid
  exact ⟨⟨_, register.2.2.1⟩, _, constant.2.2⟩

/-- Showing registers only adds a report. -/
theorem Sound.dumps (sound : a.Sound w none) (read : a.opcode? = some .dump) :
    ∃ event next, event.isDump = true ∧ ∀ e : Engine,
      a.action e w = some (if e.config.dump then .report event next else .goto next) := by
  obtain ⟨i, poised, opcode⟩ := sound.poised_at read
  have laid := poised.ready.laid
  simp only [opcode, Opcode.operands, Laid, OperandKind.width] at laid
  obtain ⟨rs, _, operands, -, rfl, -⟩ := laid
  refine ⟨.dump a.block.title (a.block.position a.ip).1 (a.block.position a.ip).2 (a.shown w rs),
    a.ip + i.length, rfl, fun e => ?_⟩
  rw [poised.ready.action_eq]
  simp only [effect, opcode, operands]
  split <;> rfl

/-- Instructions that look at no switch mean the same. -/
theorem actionOf_twin (twin : w.Twin keep limit w') {opcode : Opcode} (quiet : opcode ≠ .assert)
    (silent : opcode ≠ .dump) :
    a.actionOf { e with config } w' opcode = a.actionOf e w opcode := by
  cases opcode with
  | assert => exact absurd rfl quiet
  | dump => exact absurd rfl silent
  | sync =>
    simp only [actionOf, funext twin.lockOwner?]
    cases twin
    rfl
  | _ => cases twin; rfl

theorem action_unread_twin (unread : a.opcode? = none) :
    a.action { e with config } w' = a.action e w := by
  unfold opcode? at unread
  unfold action
  split
  · rfl
  next inside =>
    rw [if_neg inside] at unread
    cases first : a.word? 0 with
    | none => rfl
    | some word =>
      rw [first, Option.bind_some] at unread
      simp only [Option.bind_eq_bind, Option.bind_some, unread]

/-- An assertion means the same to engines that both look at assertions, or both
do not. -/
theorem assert_twin (twin : w.Twin keep limit w')
    (same : config.assertions = e.config.assertions) :
    a.actionOf { e with config } w' .assert = a.actionOf e w .assert := by
  cases twin
  simp only [actionOf, same]
  rfl

/-- An assertion that holds is not noticed. -/
theorem assert_holds {v : Value} (read : a.register? w 1 = some v) (holds : v.toBool = true)
    (e : Engine) : a.actionOf e w .assert = some (.goto (a.after 3)) := by
  simp [actionOf, read, holds]

theorem dump_twin (twin : w.Twin keep limit w') (same : config.dump = e.config.dump) :
    a.actionOf { e with config } w' .dump = a.actionOf e w .dump := by
  cases twin
  simp only [actionOf, same]
  rfl

end Activation

theorem World.Twin.refl (w : World) (keep : Event → Bool) : w.Twin keep w.arena.capacity w :=
  .mk rfl

theorem World.Twin.capacity {keep : Event → Bool} {limit : Int} {w w' : World}
    (twin : w.Twin keep limit w') : w'.arena.capacity = limit := by
  cases twin; rfl

theorem World.Twin.dropped {keep : Event → Bool} {limit : Int} {w w' : World} {event : Event}
    (twin : w.Twin keep limit w') (drops : keep event = false) :
    (w.report event).Twin keep limit w' ∧ w.Twin keep limit (w'.report event) := by
  have pushed (log : Array Event) : (log.push event).filter keep = log.filter keep := by
    rw [← Array.append_singleton, Array.filter_append (by simp)]
    simp [drops]
  cases twin with
  | @mk log same =>
    have before : log.filter keep = (w.report event).events.filter keep := by
      rw [World.report, pushed, same]
    have after : (log.push event).filter keep = w.events.filter keep := by rw [pushed, same]
    exact ⟨.mk before, .mk after⟩

/-! ### Transitions -/

namespace Machine

/-- What two engines and two limits have to agree on, for a machine to do the same
under both: whether to look at an assertion that does not hold, whether to report
registers if that counts, and how many shared frames there may be if one is refused.
Code that has not been checked may fail at what only one of them looks at. -/
structure Agrees (keep : Event → Bool) (limit : Int) (e : Engine) (config : Config) (s : State) :
    Prop where
  assertions : config.assertions = e.config.assertions ∨ s.Checked ∧ ¬s.FailsAssertion
  dumps : config.dump = e.config.dump ∨
    s.Checked ∧ ∀ event : Event, event.isDump = true → keep event = false
  limits : limit = s.world.arena.capacity ∨
    Arena.Looser s.world.arena.capacity limit ∧ ¬s.Refuses e

variable {keep : Event → Bool} {limit : Int} {e : Engine} {config : Config} {w w' : World}
  {s s' : State} {a : Activation}

/-- An assertion that does not fail means the same to all engines. -/
theorem assert_unnoticed {stack : List Cont} (twin : w.Twin keep limit w') (sound : a.Sound w none)
    (read : a.opcode? = some .assert) (holds : ¬State.FailsAssertion ⟨w, .code a, stack⟩) :
    a.actionOf { e with config } w' .assert = a.actionOf e w .assert := by
  obtain ⟨⟨v, found⟩, -⟩ := sound.asserts read
  have held : v.toBool = true :=
    (Bool.not_eq_false _).mp fun failed => holds ⟨a, v, rfl, read, found, failed⟩
  have found' : a.register? w' 1 = some v := by
    simpa only [Activation.register?, twin.registers] using found
  rw [Activation.assert_holds found held, Activation.assert_holds found' held]

/-- Reports that do not count make no difference. -/
theorem dump_unnoticed (twin : w.Twin keep limit w') (sound : a.Sound w none)
    (read : a.opcode? = some .dump)
    (drops : ∀ event : Event, event.isDump = true → keep event = false) :
    (a.advance e w).Twin keep limit (a.advance { e with config } w') := by
  obtain ⟨event, next, dumped, shows⟩ := sound.dumps read
  have shows' : a.action { e with config } w' =
      some (if config.dump then .report event next else .goto next) := by
    rw [← shows { e with config }, Activation.action_of_opcode? read,
      Activation.action_of_opcode? read]
    exact Activation.dump_twin (e := { e with config }) twin rfl
  obtain ⟨before, after⟩ := twin.dropped (drops event dumped)
  simp only [Activation.advance, shows, shows']
  cases e.config.dump <;> cases config.dump
  · exact a.goto_twin twin next
  · exact a.goto_twin after next
  · exact a.goto_twin before next
  · exact a.goto_twin (twin.report event) next

theorem code_twin {stack : List Cont} (twin : w.Twin keep limit w')
    (agrees : Agrees keep limit e config ⟨w, .code a, stack⟩) :
    (a.advance e w).Twin keep limit (a.advance { e with config } w') := by
  have performed (same : a.action { e with config } w' = a.action e w) :
      (a.advance e w).Twin keep limit (a.advance { e with config } w') := by
    simp only [Activation.advance, same]
    cases a.action e w with
    | some action => exact a.perform_twin twin e config action
    | none => exact a.stop_twin twin _
  cases read : a.opcode? with
  | none => exact performed (Activation.action_unread_twin read)
  | some opcode =>
    have means (same : a.actionOf { e with config } w' opcode = a.actionOf e w opcode) :
        (a.advance e w).Twin keep limit (a.advance { e with config } w') := by
      refine performed ?_
      rwa [Activation.action_of_opcode? read, Activation.action_of_opcode? read]
    -- All other instructions look at no switch.
    by_cases asserts : opcode = .assert
    · subst asserts
      rcases agrees.assertions with same | ⟨checked, holds⟩
      · exact means (Activation.assert_twin twin same)
      · exact means (assert_unnoticed twin (checked.running rfl) read holds)
    · by_cases dumps : opcode = .dump
      · subst dumps
        rcases agrees.dumps with same | ⟨checked, drops⟩
        · exact means (Activation.dump_twin twin same)
        · exact dump_unnoticed twin (checked.running rfl) read drops
      · exact means (Activation.actionOf_twin twin asserts dumps)

/-- The shared frames of a block are laid over those of its invocation alike. -/
theorem nest_twin {block : CodeBlock} {inv : Invocation} {completion : Completion}
    (frame : FrameRef) (twin : w.Twin keep limit w')
    (limits : limit = w.arena.capacity ∨ Arena.Looser w.arena.capacity limit ∧
      (enter.nest block inv completion w frame).control ≠
        .reply (.failed none (.labelled block.title (.host (.arena .full))))) :
    (enter.nest block inv completion w frame).Twin keep limit
      (enter.nest block inv completion w' frame) := by
  by_cases nested : 0 < block.nestLevel
  · have overlaid : w'.arena.overlay inv.shared (block.sharedSizes.map Int64.toInt) =
        (w.arena.overlay inv.shared (block.sharedSizes.map Int64.toInt)).limited limit := by
      have same : w'.arena = w.arena.limited limit := by cases twin; rfl
      rw [same]
      refine Arena.overlayFrom_limited (limits.imp_right fun ⟨looser, granted⟩ =>
        ⟨looser, fun b dropped refused => granted ?_⟩)
      simp only [enter.nest, nested, if_true, Arena.overlay, refused]
      rfl
    simp only [enter.nest, nested, if_true, overlaid]
    cases w.arena.overlay inv.shared (block.sharedSizes.map Int64.toInt) with
    | made arena chain => exact .leaf (twin.setArena arena) rfl rfl rfl
    | failed arena dropped error =>
      exact .leaf ((twin.setArena arena).reportReleases dropped) rfl rfl rfl
    | broken arena => exact .leaf (twin.setArena arena) rfl rfl rfl
  · simp only [enter.nest, nested, if_false]
    exact .leaf twin rfl rfl rfl

theorem enter_twin {block : CodeBlock} {inv : Invocation} {completion : Completion}
    (twin : w.Twin keep limit w')
    (limits : limit = w.arena.capacity ∨ Arena.Looser w.arena.capacity limit ∧
      (enter w block inv completion).control ≠
        .reply (.failed none (.labelled block.title (.host (.arena .full))))) :
    (enter w block inv completion).Twin keep limit (enter w' block inv completion) := by
  unfold enter at limits ⊢
  cases given : inv.frame with
  | some frame =>
    simp only [given, twin.registers] at limits ⊢
    split
    · exact .leaf twin rfl rfl rfl
    next enough =>
      rw [if_neg enough] at limits
      exact nest_twin frame twin limits
  | none =>
    simp only [given] at limits ⊢
    split
    · exact .leaf twin rfl rfl rfl
    next room =>
      rw [if_neg room] at limits
      rw [twin.newFrame_ref]
      exact nest_twin _ (twin.newFrame _) limits

/-- A transition that is the same leads to the same state. -/
theorem stacked {n m : Next} {rest : List Cont} (twin : n.Twin keep limit m)
    (blind : ∀ c ∈ rest, c.Blind) :
    State.Twin keep limit ⟨n.world, n.control, n.push ++ rest⟩
      ⟨m.world, m.control, m.push ++ rest⟩ := by
  refine ⟨twin.world, twin.control, by rw [twin.push], twin.blind.1, fun c member => ?_⟩
  rcases List.mem_append.mp member with pushed | below
  · exact twin.blind.2 c pushed
  · exact blind c below

theorem step_twin (blind : e.host.Blind) (agrees : Agrees keep limit e config s)
    (twin : s.Twin keep limit s') :
    (step e s).Twin keep limit (step { e with config } s') := by
  obtain ⟨w, _, _⟩ := s
  obtain ⟨w', control, stack⟩ := s'
  obtain ⟨world, rfl, rfl, seen, waiting⟩ := twin
  cases control with
  | operate target r => exact stacked (operate_twin e config world target r) waiting
  | lock ref target r => exact stacked (acquire_twin e config world ref target r) waiting
  | dispatch ref r => exact stacked (dispatch_twin e config world blind ref r) waiting
  | execute block inv completion =>
    cases block with
    | none => exact stacked (.leaf world rfl rfl rfl) waiting
    | some block =>
      refine stacked (enter_twin world (agrees.limits.imp_right ?_)) waiting
      exact fun ⟨looser, granted⟩ =>
        ⟨looser, fun refused => granted ⟨block, inv, completion, rfl, refused⟩⟩
  | code a => exact stacked (code_twin world agrees) waiting
  | host action => exact stacked (hostStep_twin world seen) waiting
  | reply r =>
    cases stack with
    | nil => exact ⟨world, rfl, rfl, seen, waiting⟩
    | cons top rest =>
      obtain ⟨first, others⟩ := List.forall_mem_cons.mp waiting
      exact stacked (resume_twin world r first) others
  | panic p =>
    cases stack with
    | nil => exact ⟨world, rfl, rfl, seen, waiting⟩
    | cons top rest =>
      exact ⟨unwind_twin world top, rfl, rfl, trivial, (List.forall_mem_cons.mp waiting).2⟩

/-- The limit on shared frames stays the same. -/
theorem step_capacity (blind : e.host.Blind)
    (seen : s.control.Blind ∧ ∀ c ∈ s.stack, c.Blind) :
    (step e s).world.arena.capacity = s.world.arena.capacity := by
  have itself : s.Twin (fun _ => true) s.world.arena.capacity s := ⟨.refl _ _, rfl, rfl, seen⟩
  have agrees : Agrees (fun _ => true) s.world.arena.capacity e e.config s :=
    ⟨.inl rfl, .inl rfl, .inl rfl⟩
  exact (step_twin blind agrees itself).world.capacity

theorem run_twin (blind : e.host.Blind) (checks : e.host.Checks) (twin : s.Twin keep limit s')
    (assertions : config.assertions = e.config.assertions ∨
      s.Checked ∧ ∀ n, ¬(run e n s).FailsAssertion)
    (dumps : config.dump = e.config.dump ∨
      s.Checked ∧ ∀ event : Event, event.isDump = true → keep event = false)
    (limits : limit = s.world.arena.capacity ∨
      Arena.Looser s.world.arena.capacity limit ∧ ∀ n, ¬(run e n s).Refuses e) (n : Nat) :
    (run e n s).Twin keep limit (run { e with config } n s') ∧
      (run e n s).world.arena.capacity = s.world.arena.capacity := by
  -- The limits are compared with the capacity that the run has come to, so that it
  -- has not changed is part of what the induction carries.
  induction n with
  | zero => exact ⟨twin, rfl⟩
  | succ n ih =>
    obtain ⟨alike, capacity⟩ := ih
    have agrees : Agrees keep limit e config (run e n s) := by
      refine ⟨assertions.imp_right ?_, dumps.imp_right ?_, ?_⟩
      · exact fun ⟨checked, holds⟩ => ⟨run_checked checks checked n, holds n⟩
      · exact fun ⟨checked, drops⟩ => ⟨run_checked checks checked n, drops⟩
      · rw [capacity]
        exact limits.imp_right fun ⟨looser, granted⟩ => ⟨looser, granted n⟩
    rw [run_succ, run_succ]
    exact ⟨step_twin blind agrees alike, (step_capacity blind alike.blind).trans capacity⟩

/-- An assertion that fails raises its exception, or stops everything because its
message has no string form. -/
theorem step_failing (checked : s.Checked) (asserts : e.config.assertions = true)
    (fails : s.FailsAssertion) :
    (step e s).Raises "AssertionFailedException" ∨ (step e s).control = .panic .invalidAccess := by
  obtain ⟨w, control, stack⟩ := s
  obtain ⟨a, v, rfl, read, found, failed⟩ := fails
  obtain ⟨-, k, constant⟩ := (checked.running rfl).asserts read
  have action : a.action e w = (w.textOf k).bind fun text =>
      some (.throwException "AssertionFailedException" (utf8 "assertion failed: " ++ text)) := by
    rw [Activation.action_of_opcode? read]
    simp [Activation.actionOf, asserts, found, failed, constant]
  cases shown : w.textOf k with
  | none =>
    right
    rw [shown, Option.bind_none] at action
    simp [step, advance, Activation.advance, action, Activation.stop, Next.panic]
  | some text =>
    left
    rw [shown, Option.bind_some] at action
    refine ⟨w.signals.size, w.heap.size, utf8 "assertion failed: " ++ text,
      [a.block.tracePoint a.ip], none, ?_⟩
    simp [step, advance, Activation.advance, action, Activation.perform, Activation.raise,
      Next.failed, Next.reply, throwException, World.create, World.raise, annotate,
      Fault.signal?, releaseChain, reportReleases, Signal.annotated, Array.getElem_modify]

end Machine

/-! ### Executions -/

theorem State.Twin.outcome {keep : Event → Bool} {limit : Int} {s s' : State}
    (twin : s.Twin keep limit s') : Paired keep limit s.outcome s'.outcome := by
  obtain ⟨w, _, _⟩ := s
  obtain ⟨w', control, stack⟩ := s'
  obtain ⟨world, rfl, rfl, -⟩ := twin
  unfold State.outcome
  dsimp only
  split <;> exact .mk world _

theorem insisted_paired {keep : Event → Bool} {limit : Int} {p p' : World × Outcome Reply}
    (paired : Paired keep limit p p') (name : Text) :
    Paired keep limit (insisted name p) (insisted name p') := by
  obtain ⟨twin, outcome⟩ := paired
  cases outcome with
  | ok r =>
    have insists := twin.insist name r
    rename_i w w'
    simp only [insisted]
    generalize w.insist name r = q at insists ⊢
    generalize w'.insist name r = q' at insists ⊢
    obtain ⟨done, written, _ | f⟩ := insists
    · exact .mk done _
    · exact .mk done _
  | failed | stopped | unfinished => exact .mk twin _

theorem orVoid_paired {keep : Event → Bool} {limit : Int} {p p' : World × Outcome (Option Value)}
    (paired : Paired keep limit p p') : Paired keep limit (orVoid p) (orVoid p') := by
  obtain ⟨twin, outcome⟩ := paired
  exact .mk twin _

/-- The same world under another limit on shared frames. -/
def World.limited (w : World) (limit : Int) : World := { w with arena := w.arena.limited limit }

theorem World.Paired.recast {α : Type} {keep : Event → Bool} {limit : Int} {p p' : World × α}
    (paired : Paired keep limit p p') :
    ∃ log, p' = (p.1.recast log limit, p.2) ∧ log.filter keep = p.1.events.filter keep := by
  obtain ⟨⟨same⟩, x⟩ := paired
  exact ⟨_, rfl, same⟩

/-- If all of the log is kept, only the limit differs. -/
theorem World.Paired.limited {α : Type} {limit : Int} {p p' : World × α}
    (paired : Paired (fun _ => true) limit p p') : p' = (p.1.limited limit, p.2) := by
  obtain ⟨log, rfl, same⟩ := paired.recast
  have all (log : Array Event) : (log.filter fun _ => true) = log :=
    Array.filter_eq_self.mpr fun _ _ => rfl
  rw [all, all] at same
  subst same
  rfl

namespace Engine

def withDump (e : Engine) (on : Bool) : Engine := { e with config := { e.config with dump := on } }

def withAssertions (e : Engine) (on : Bool) : Engine :=
  { e with config := { e.config with assertions := on } }

def withCapacity (e : Engine) (limit : Int) : Engine :=
  { e with config := { e.config with capacity := limit } }

/-- An execution of a block at one of its transitions. -/
def executing (e : Engine) (w : World) (block : CodeBlock) (inv : Invocation) (n : Nat) : State :=
  Machine.run e n ⟨w, .execute (some block) inv .result, []⟩

section

variable {limit : Int} (e : Engine) {w w' : World} {block : CodeBlock} (inv : Invocation)
  (valid : block.validate = .ok ()) (checks : e.host.Checks)
include valid checks

theorem execute_twin (keep : Event → Bool) (config : Config) (blind : e.host.Blind)
    (twin : w.Twin keep limit w')
    (assertions : config.assertions = e.config.assertions ∨
      w.Checked ∧ ∀ n, ¬(e.executing w block inv n).FailsAssertion)
    (dumps : config.dump = e.config.dump ∨
      w.Checked ∧ ∀ event : Event, event.isDump = true → keep event = false)
    (limits : limit = w.arena.capacity ∨
      Arena.Looser w.arena.capacity limit ∧ ∀ n, ¬(e.executing w block inv n).Refuses e)
    (fuel : Nat) :
    Paired keep limit (e.execute fuel w (some block) inv)
      (({ e with config } : Engine).execute fuel w' (some block) inv) := by
  have begins : State.Twin keep limit ⟨w, .execute (some block) inv .result, []⟩
      ⟨w', .execute (some block) inv .result, []⟩ := ⟨twin, rfl, rfl, trivial, by simp⟩
  have ran := Machine.run_twin blind checks begins
    (assertions.imp_right fun ⟨closures, holds⟩ => ⟨Machine.execute_checked closures valid, holds⟩)
    (dumps.imp_right fun ⟨closures, drops⟩ => ⟨Machine.execute_checked closures valid, drops⟩)
    limits fuel
  exact orVoid_paired (insisted_paired ran.1.outcome [])

theorem execute_capacity (blind : e.host.Blind) (fuel : Nat) :
    (e.execute fuel w (some block) inv).1.arena.capacity = w.arena.capacity := by
  have itself : Paired (fun _ => true) w.arena.capacity (e.execute fuel w (some block) inv)
      (e.execute fuel w (some block) inv) :=
    execute_twin e inv valid checks _ e.config blind (.refl w _) (.inl rfl) (.inl rfl) (.inl rfl)
      fuel
  generalize e.execute fuel w (some block) inv = p at itself
  cases itself with | mk twin => exact twin.capacity

/-- No assertion fails if none raises its exception and none stops everything. -/
theorem executing_asserts (closures : w.Checked) (asserts : e.config.assertions = true)
    (unraised : ∀ n, ¬(e.executing w block inv n).Raises "AssertionFailedException")
    (unstopped : ∀ n, (e.executing w block inv n).FailsAssertion →
      (e.executing w block inv (n + 1)).control ≠ .panic .invalidAccess) (n : Nat) :
    ¬(e.executing w block inv n).FailsAssertion := by
  intro fails
  have checked : (e.executing w block inv n).Checked :=
    Machine.run_checked checks (Machine.execute_checked closures valid) n
  have next : e.executing w block inv (n + 1) = Machine.step e (e.executing w block inv n) :=
    Machine.run_succ e n _
  rcases Machine.step_failing checked asserts fails with raised | stopped
  · exact unraised (n + 1) (next ▸ raised)
  · exact unstopped n fails (next ▸ stopped)

end

/-- What the execution of a block does not owe to the switches of its engine. The
closures on the heap have to be checked only where a switch decides what is looked at. -/
structure Unswayed (e : Engine) (w : World) (block : CodeBlock) (inv : Invocation) : Prop where
  /-- Only the log differs, and there only the reports of the diagnostic instruction. -/
  dump : w.Checked → ∀ on fuel, ∃ log : Array Event,
    (e.withDump on).execute fuel w (some block) inv =
        ({ (e.execute fuel w (some block) inv).1 with events := log },
          (e.execute fuel w (some block) inv).2) ∧
      log.filter (!·.isDump) = (e.execute fuel w (some block) inv).1.events.filter (!·.isDump)
  assertions : w.Checked →
    (∀ n, ¬((e.withAssertions true).executing w block inv n).Raises "AssertionFailedException") →
    (∀ n, ((e.withAssertions true).executing w block inv n).FailsAssertion →
      ((e.withAssertions true).executing w block inv (n + 1)).control ≠ .panic .invalidAccess) →
    ∀ fuel, (e.withAssertions false).execute fuel w (some block) inv =
      (e.withAssertions true).execute fuel w (some block) inv
  capacity : 0 < w.arena.capacity → (∀ n, ¬(e.executing w block inv n).Refuses e) →
    ∀ limit, w.arena.capacity ≤ limit ∨ limit ≤ 0 →
    ∀ fuel, (e.withCapacity limit).execute fuel (w.limited limit) (some block) inv =
      ((e.execute fuel w (some block) inv).1.limited limit,
        (e.execute fuel w (some block) inv).2)

/-- The switches of an engine do not change what checked code means. -/
theorem switches_keep_meaning {e : Engine} {w : World} {block : CodeBlock} {inv : Invocation}
    (valid : block.validate = .ok ()) (checks : e.host.Checks) (blind : e.host.Blind) :
    e.Unswayed w block inv where
  dump closures on fuel := by
    have paired : Paired (!·.isDump) w.arena.capacity (e.execute fuel w (some block) inv)
        ((e.withDump on).execute fuel w (some block) inv) :=
      execute_twin e inv valid checks _ (e.withDump on).config blind (.refl w _) (.inl rfl)
        (.inr ⟨closures, fun event shown => by rw [shown]; rfl⟩) (.inl rfl) fuel
    obtain ⟨log, eq, same⟩ := paired.recast
    have capacity := execute_capacity (w := w) e inv valid checks blind fuel
    refine ⟨log, ?_, same⟩
    rw [eq, ← capacity]
    rfl
  assertions closures unraised unstopped fuel := by
    have holds := executing_asserts (e.withAssertions true) inv valid checks closures rfl unraised
      unstopped
    have paired : Paired (fun _ => true) w.arena.capacity
        ((e.withAssertions true).execute fuel w (some block) inv)
        ((e.withAssertions false).execute fuel w (some block) inv) :=
      execute_twin (e.withAssertions true) inv valid checks _ (e.withAssertions false).config blind
        (.refl w _) (.inr ⟨closures, holds⟩) (.inl rfl) (.inl rfl) fuel
    have capacity :=
      execute_capacity (w := w) (e.withAssertions true) inv valid checks blind fuel
    rw [paired.limited, ← capacity]
    rfl
  capacity positive granted limit looser fuel := by
    have within : Arena.Looser w.arena.capacity limit := fun bounded => ⟨positive, by omega⟩
    have paired : Paired (fun _ => true) limit (e.execute fuel w (some block) inv)
        ((e.withCapacity limit).execute fuel (w.limited limit) (some block) inv) :=
      execute_twin e inv valid checks _ (e.withCapacity limit).config blind (.mk rfl)
        (.inl rfl) (.inl rfl) (.inr ⟨within, granted⟩) fuel
    exact paired.limited

/-! ### Code that has not been checked, and a block that has -/

theorem plainEngine_checks : Machine.plainEngine.host.Checks := nofun

theorem plainEngine_blind : Machine.plainEngine.host.Blind :=
  ⟨fun _ _ _ _ _ => rfl, fun _ _ _ => trivial⟩

/-- What holds until an execution has ended holds throughout. -/
theorem executing_throughout {e : Engine} {w : World} {block : CodeBlock} {inv : Invocation}
    {P : State → Prop} {k : Nat} (ended : (e.executing w block inv k).isFinal = true)
    (before : ∀ n ≤ k, P (e.executing w block inv n)) (n : Nat) :
    P (e.executing w block inv n) := by
  rcases Nat.le_total n k with le | le
  · exact before n le
  · obtain ⟨m, rfl⟩ := Nat.exists_eq_add_of_le le
    have same : e.executing w block inv (k + m) = e.executing w block inv k := by
      rw [executing, Machine.run_add]
      exact Machine.run_final ended m
    rw [same]
    exact before k (Nat.le_refl k)

theorem not_raises {s : State} {name : String} (unsignalled : s.world.signals = #[]) :
    ¬s.Raises name := by
  rintro ⟨ref, _, _, _, _, -, there, -⟩
  simp [unsignalled] at there

/-- An assertion about a register that its frame does not have. -/
def uncheckedAssertion : CodeBlock where
  code? := some #[74, 5, 0]
  consts := [.string (utf8 "m")]
  registers := 1

/-- Calls what it is given. -/
def callsArgument : CodeBlock where
  code? := some #[15, 0, 0, 23, 0, 0, 0, 0, 33, 0]
  registers := 1

/-- An assertion that fails, with an object for its message. -/
def assertsObject : CodeBlock where
  code? := some #[74, 0, 0, 33, 0]
  consts := [.object 0 none]
  registers := 1

/-- A heap with one closure. -/
def closureWorld (block : Option CodeBlock) : World where
  heap := #[.closure block none []]

/-- Assertions are noticed, though none raises its exception, in a closure whose
block has not been checked, and where the message is a closure that has no block. -/
theorem unraised_assertions_noticed :
    Machine.plainEngine.host.Checks ∧ Machine.plainEngine.host.Blind ∧
    (callsArgument.validate = .ok () ∧
      (∀ n, ¬((Machine.plainEngine.withAssertions true).executing
        (closureWorld (some uncheckedAssertion)) callsArgument
        { args := [.object 0 none] } n).Raises "AssertionFailedException") ∧
      ((Machine.plainEngine.withAssertions true).execute 10
        (closureWorld (some uncheckedAssertion)) (some callsArgument)
        { args := [.object 0 none] }).2 = .stopped .invalidAccess ∧
      ((Machine.plainEngine.withAssertions false).execute 10
        (closureWorld (some uncheckedAssertion)) (some callsArgument)
        { args := [.object 0 none] }).2 = .ok .void) ∧
    (assertsObject.validate = .ok () ∧ (closureWorld none).Checked ∧
      (∀ n, ¬((Machine.plainEngine.withAssertions true).executing (closureWorld none)
        assertsObject {} n).Raises "AssertionFailedException") ∧
      ((Machine.plainEngine.withAssertions true).execute 10 (closureWorld none)
        (some assertsObject) {}).2 = .stopped .invalidAccess ∧
      ((Machine.plainEngine.withAssertions false).execute 10 (closureWorld none)
        (some assertsObject) {}).2 = .ok .void) := by
  refine ⟨plainEngine_checks, plainEngine_blind, ⟨rfl, fun n => not_raises ?_, rfl, rfl⟩, rfl, ?_,
    fun n => not_raises ?_, rfl, rfl⟩
  · exact executing_throughout (P := (·.world.signals = #[])) (k := 8) rfl (by decide +kernel) n
  · intro ref block frame chain there
    cases Array.mem_singleton.mp (Array.mem_of_getElem? there)
  · exact executing_throughout (P := (·.world.signals = #[])) (k := 8) rfl (by decide +kernel) n

/-- An assertion that holds, a report, and a shared frame. -/
def watched : CodeBlock where
  code? := some #[2, 0, 0, 74, 0, 1, 75, 1, 0, 33, 0]
  consts := [.bool true, .string (utf8 "m")]
  registers := 1
  nestLevel := 1
  sharedSizes? := some [1]

/-- Room for one shared frame. -/
def tight : World := { arena := { capacity := 1 } }

theorem watched_unswayed :
    watched.validate = .ok () ∧
    ((Machine.plainEngine.withDump true).execute 10 tight (some watched) {}).2 =
      (Machine.plainEngine.execute 10 tight (some watched) {}).2 ∧
    (∀ fuel, (Machine.plainEngine.withAssertions false).execute fuel tight (some watched) {} =
      (Machine.plainEngine.withAssertions true).execute fuel tight (some watched) {}) ∧
    ∀ fuel, (Machine.plainEngine.withCapacity 0).execute fuel (tight.limited 0) (some watched) {} =
      ((Machine.plainEngine.execute fuel tight (some watched) {}).1.limited 0,
        (Machine.plainEngine.execute fuel tight (some watched) {}).2) := by
  have unswayed : Machine.plainEngine.Unswayed tight watched {} :=
    switches_keep_meaning rfl plainEngine_checks plainEngine_blind
  have closures : tight.Checked := nofun
  refine ⟨rfl, ?_, unswayed.assertions closures (fun n => not_raises ?_) (fun n _ => ?_),
    unswayed.capacity (by decide) ?_ 0 (.inr (Int.le_refl 0))⟩
  · obtain ⟨log, same, -⟩ := unswayed.dump closures true 10
    rw [same]
  · exact executing_throughout (P := (·.world.signals = #[])) (k := 5) rfl (by decide +kernel) n
  · refine executing_throughout (P := (·.control ≠ .panic .invalidAccess)) (k := 5) rfl
      (fun n le => ?_) (n + 1)
    interval_cases n <;> nofun
  · refine executing_throughout (P := (¬·.Refuses Machine.plainEngine)) (k := 5) rfl fun n le => ?_
    rintro ⟨block, inv, completion, control, refused⟩
    interval_cases n
    · cases refused
    all_goals cases control

end Engine
end ScriptEngine
