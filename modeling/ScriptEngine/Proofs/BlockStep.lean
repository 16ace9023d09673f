import ScriptEngine.Proofs.Transition

/-! What one transition of a running block can be. It goes on at another place,
asks and waits, answers, or stops; beyond small changes of the world it takes
references for what it captures, and drops its own when it ends. -/
namespace ScriptEngine

open World

/-- The register that gets what a block waits for. -/
def Await.dst? : Await → Option Nat
  | .assign _ dst _ | .membership dst _ | .classOf _ _ dst _ => dst
  | .mark dst _ => some dst
  | .skip .. => none

/-- The register that an action writes, at once or with an answer. -/
def Action.dst? : Action → Option Nat
  | .assign dst _ _ | .newObject dst _ | .newProxy _ _ dst _ | .newFunction _ _ dst _
  | .newProperty _ _ dst _ | .capture _ _ dst _ | .bind dst _ => dst
  | .markError _ _ dst _ => some dst
  | .settle register _ _ _ => some register
  | .request _ _ _ await => await.dst?
  | _ => none

/-- The thrown value that an action takes out of a marker. -/
def Action.taken? : Action → Option SignalRef
  | .settle _ _ caught _ => caught
  | _ => none

/-- A register is written, if there is one to write. -/
inductive World.Stores (w : World) (frame : FrameRef) (dst : Option Nat) : World → Prop
  | nothing : Stores w frame dst w
  | register {r : Nat} (v : Value) (named : dst = some r) :
      Stores w frame dst (w.setRegister frame r v)

theorem World.Stores.evolves {w w' : World} {frame : FrameRef} {dst : Option Nat}
    (stores : w.Stores frame dst w') : Evolves w w' := by
  cases stores with
  | nothing => exact .refl w
  | register v => exact .change (.setRegister ..)

/-- Something is asked of a value, at once or under a lock. -/
inductive Control.Asks : Control → Prop
  | operate (target : Value) (r : Request) : Asks (.operate target r)
  | lock (ref : ObjRef) (target : Value) (r : Request) : Asks (.lock ref target r)

/-- What a transition of a running block may come to: places to go on at,
answers to wait for, objects to capture its chain with, reasons to stop. -/
structure Plan where
  next : Int → Prop
  waits : Await → Prop
  makes : Object → Prop
  stops : Panic → Prop

namespace Activation

variable {e : Engine} {w w₁ w₂ : World} {a : Activation} {plan : Plan} {place : Int}
  {dst : Option Nat} {taken : Option SignalRef}

/-- A running block takes references to its chain for an object that captures
it. If it cannot have them all, it keeps none. -/
inductive Takes (w : World) (a : Activation) (makes : Object → Prop) : World → Prop
  | nothing : Takes w a makes w
  | captured {arena : Arena} {o : Object} (retained : w.arena.retainChain a.chain = .made arena ())
      (made : makes o) : Takes w a makes ({ w with arena }.create o).1
  | refused {arena : Arena} {dropped : List (FrameHandle × Release)} {error : ArenaError}
      {o : Object} (refused : w.arena.retainChain a.chain = .failed arena dropped error)
      (wanted : makes o) : Takes w a makes ({ w with arena }.reportReleases dropped)

theorem Takes.frames {makes : Object → Prop} (takes : Takes w a makes w₁) :
    w₁.frames = w.frames := by
  cases takes <;> rfl

/-- One transition of a running block. -/
inductive Runs (w : World) (a : Activation) (plan : Plan) : Next → Prop
  | goes {w₁ w₂ : World} {place : Int} {caught : Option SignalRef}
      (takes : Takes w a plan.makes w₁) (evolves : Evolves w₁ w₂) (planned : plan.next place) :
      Runs w a plan ⟨w₂, .code { a with ip := place, caught }, []⟩
  | asks {w₁ : World} {control : Control} {await : Await} (evolves : Evolves w w₁)
      (asks : control.Asks) (planned : plan.waits await) :
      Runs w a plan ⟨w₁, control, [.code a await]⟩
  | answers {w₁ w₂ : World} {r : Reply} (takes : Takes w a plan.makes w₁)
      (evolves : Evolves w₁ w₂) : Runs w a plan ⟨w₂.releaseChain a.owned, .reply r, []⟩
  | stops {w₁ w₂ : World} {p : Panic} (takes : Takes w a plan.makes w₁)
      (evolves : Evolves w₁ w₂) (planned : plan.stops p) :
      Runs w a plan ⟨w₂.releaseChain a.owned, .panic p, []⟩

/-- One transition of a running block in detail: the register that it writes if
it goes on, the thrown value that it takes, and the place that a failure takes
along. -/
inductive Turn (w : World) (a : Activation) (plan : Plan) (dst : Option Nat)
    (taken : Option SignalRef) : Next → Prop
  | goes {w₁ w₂ w₃ : World} {place : Int} (takes : Takes w a plan.makes w₁) (acts : Acts w₁ w₂)
      (stores : w₂.Stores a.frame dst w₃) (planned : plan.next place) :
      Turn w a plan dst taken ⟨w₃, .code { a with ip := place, caught := taken.or a.caught }, []⟩
  | asks {w₁ : World} {control : Control} {await : Await} (acts : Acts w w₁)
      (asks : control.Asks) (planned : plan.waits await) :
      Turn w a plan dst taken ⟨w₁, control, [.code a await]⟩
  | returns (v : Value) :
      Turn w a plan dst taken ⟨w.releaseChain a.owned, .reply (.done (some v)), []⟩
  | fails {w₁ w₂ : World} (f : Fault) (takes : Takes w a plan.makes w₁) (acts : Acts w₁ w₂) :
      Turn w a plan dst taken
        ⟨(w₂.annotate f (a.block.tracePoint a.ip)).releaseChain a.owned, .reply (.failed none f), []⟩
  | stops {w₁ w₂ w₃ : World} {p : Panic} (takes : Takes w a plan.makes w₁) (acts : Acts w₁ w₂)
      (stores : w₂.Stores a.frame dst w₃) (planned : plan.stops p) :
      Turn w a plan dst taken ⟨w₃.releaseChain a.owned, .panic p, []⟩

theorem Turn.runs {n : Next} (turn : Turn w a plan dst taken n) : Runs w a plan n := by
  cases turn with
  | goes takes acts stores planned =>
    exact .goes takes (acts.evolves.trans stores.evolves) planned
  | asks acts asks planned => exact .asks acts.evolves asks planned
  | returns v => exact .answers .nothing (.refl w)
  | fails f takes acts => exact .answers takes (acts.evolves.trans (.change (.annotate ..)))
  | stops takes acts stores planned =>
    exact .stops takes (acts.evolves.trans stores.evolves) planned

/-! ### The parts of a transition -/

theorem goto_turn (takes : Takes w a plan.makes w₁) (acts : Acts w₁ w₂)
    (planned : plan.next place) : Turn w a plan dst none (a.goto w₂ place) :=
  .goes takes acts .nothing planned

theorem assign_turn {v : Value} (takes : Takes w a plan.makes w₁)
    (acts : Acts w₁ w₂) (planned : plan.next place)
    (missing : (∀ r, dst = some r → ¬r < (w.registers a.frame).size) → plan.stops .invalidAccess) :
    Turn w a plan dst none (a.assign w₂ dst v place) := by
  have grown : (w.registers a.frame).size ≤ (w₂.registers a.frame).size := by
    have := acts.evolves.size_registers a.frame
    rwa [World.registers, takes.frames] at this
  cases dst with
  | none => exact .stops takes acts .nothing (missing (by simp))
  | some r =>
    simp only [Activation.assign]
    split
    · exact .goes takes acts (.register v rfl) planned
    next outside =>
      refine .stops takes acts .nothing (missing fun other same => ?_)
      cases same
      omega

theorem raise_turn {f : Fault} (takes : Takes w a plan.makes w₁) (acts : Acts w₁ w₂) :
    Turn w a plan dst taken (a.raise w₂ f) :=
  .fails f takes acts

theorem fail_turn (error : ArenaError) : Turn w a plan dst taken (a.fail w error) :=
  raise_turn .nothing (asThrown_acts w (.host (.arena error)))

theorem mark_turn {result : Value} {fault : Option Fault} {dst : Nat} (acts : Acts w w₁)
    (planned : plan.next place)
    (missing : ¬dst < (w.registers a.frame).size → plan.stops .invalidAccess) :
    Turn w a plan (some dst) none (a.mark w₁ result fault dst place) := by
  have missing' : (∀ r, some dst = some r → ¬r < (w.registers a.frame).size) →
      plan.stops .invalidAccess := fun outside => missing (outside dst rfl)
  cases fault with
  | none =>
    exact assign_turn .nothing (acts.trans (.act (.create _ (.plain rfl nofun)))) planned missing'
  | some f =>
    exact assign_turn .nothing
      ((acts.trans (asThrown_acts w₁ f)).trans (.act (.create _ (.plain rfl nofun)))) planned
      missing'

theorem retainFrom_ne_broken {arena b : Arena} {taken chain : Chain} :
    arena.retainFrom taken chain ≠ .broken b := by
  induction chain generalizing arena taken with
  | nil => simp [Arena.retainFrom]
  | cons h rest ih =>
    simp only [Arena.retainFrom]
    split
    · exact ih
    · simp [Arena.giveBack]

theorem capture_turn {o : Object} {context : Option ObjRef}
    (made : plan.makes o) (planned : plan.next place)
    (missing : (∀ r, dst = some r → ¬r < (w.registers a.frame).size) → plan.stops .invalidAccess) :
    Turn w a plan dst none (a.capture w o context dst place) := by
  unfold Activation.capture
  split
  next retained => exact assign_turn (.captured retained made) (.refl _) planned missing
  next refused => exact raise_turn (.refused refused made) (.refl _)
  next broken => exact absurd broken retainFrom_ne_broken

/-! ### Carrying out an instruction -/

/-- What carrying out an action may come to. -/
def planOf (w : World) (a : Activation) (action : Action) : Plan where
  next place := action.next? = some place
  waits await := ∃ target r lock, action = .request target r lock await
  makes o :=
    (∃ block sharesFrame dst next, action = .capture block sharesFrame dst next ∧
      o = .closure block (if sharesFrame then some a.frame else none) a.chain) ∨
    ∃ dst next, action = .bind dst next ∧ o = .binding a.chain a.this {}
  stops p := (∃ message, action = .panic message ∧ p = .message message) ∨
    p = .invalidAccess ∧ ¬action.Writes (w.registers a.frame).size

theorem perform_turn (e : Engine) (w : World) (a : Activation) (action : Action) :
    Turn w a (planOf w a action) action.dst? action.taken? (a.perform e w action) := by
  have unwritten {dst : Option Nat}
      (outside : ∀ r, dst = some r → ¬r < (w.registers a.frame).size) :
      ¬∃ r, dst = some r ∧ r < (w.registers a.frame).size :=
    fun ⟨r, same, inside⟩ => outside r same inside
  cases action with
  | goto next => exact goto_turn .nothing (.refl w) rfl
  | assign dst v next =>
    exact assign_turn .nothing (.refl w) rfl fun outside => .inr ⟨rfl, unwritten outside⟩
  | newObject dst next =>
    exact assign_turn .nothing (.act (.create w .object)) rfl
      fun outside => .inr ⟨rfl, unwritten outside⟩
  | newProxy first second dst next =>
    exact assign_turn .nothing (.act (.create w (.plain rfl nofun))) rfl
      fun outside => .inr ⟨rfl, unwritten outside⟩
  | newFunction target context dst next =>
    exact assign_turn .nothing (wrapFunction_acts e w target) rfl
      fun outside => .inr ⟨rfl, unwritten outside⟩
  | newProperty getter setter dst next =>
    have created : Acts w (w.create (.scriptProperty getter setter)).1 :=
      .act (.create w (.plain rfl nofun))
    exact assign_turn .nothing (created.trans (wrapProperty_acts e _ (some w.heap.size))) rfl
      fun outside => .inr ⟨rfl, unwritten outside⟩
  | store handle slot v next =>
    simp only [perform]
    split
    next stored => exact goto_turn .nothing (.act (.store w stored)) rfl
    · exact fail_turn _
  | capture block sharesFrame dst next =>
    exact capture_turn (.inl ⟨_, _, _, _, rfl, rfl⟩) rfl
      fun outside => .inr ⟨rfl, unwritten outside⟩
  | bind dst next =>
    exact capture_turn (.inr ⟨_, _, rfl, rfl⟩) rfl fun outside => .inr ⟨rfl, unwritten outside⟩
  | bindName binding name slot next =>
    exact goto_turn .nothing (.act (.bindName w binding name slot)) rfl
  | request target r lock await =>
    cases lock with
    | none => exact .asks (.refl w) (.operate target r) ⟨target, r, _, rfl⟩
    | some lock => exact .asks (.refl w) (.lock lock target r) ⟨target, r, _, rfl⟩
  | markError className message dst next =>
    simp only [perform]
    exact mark_turn (throwException_acts w className message none) rfl
      fun outside => .inr ⟨rfl, outside⟩
  | settle register v caught next =>
    have written : w.Stores a.frame (some register) (w.setRegister a.frame register v) :=
      .register v rfl
    cases next with
    | none => exact .stops .nothing (.refl w) written (.inr ⟨rfl, by simp [Action.Writes]⟩)
    | some place =>
      simp only [perform, Option.orElse_eq_or]
      exact .goes .nothing (.refl w) written rfl
  | «return» v => exact .returns _
  | throwValue v => exact raise_turn .nothing (throwValue_acts w v)
  | throwException className message => exact raise_turn .nothing (throwException_acts ..)
  | exit id target v => exact raise_turn .nothing (.act (.raise w _ rfl))
  | raise fault => exact raise_turn .nothing (.refl w)
  | fail error => exact fail_turn error
  | report event next => exact goto_turn .nothing (.act (.report w event)) rfl
  | panic message => exact .stops .nothing (.refl w) .nothing (.inl ⟨message, rfl, rfl⟩)

/-- What running the next instruction may come to. -/
def stepPlan (e : Engine) (w : World) (a : Activation) : Plan :=
  match a.action e w with
  | some action => planOf w a action
  | none =>
    { next := fun _ => False, waits := fun _ => False, makes := fun _ => False
      stops := (· = .invalidAccess) }

theorem advance_turn (e : Engine) (w : World) (a : Activation) :
    Turn w a (a.stepPlan e w) ((a.action e w).bind Action.dst?) ((a.action e w).bind Action.taken?)
      (a.advance e w) := by
  unfold advance stepPlan
  cases a.action e w with
  | some action => exact perform_turn e w a action
  | none => exact .stops .nothing (.refl w) .nothing rfl

theorem advance_runs (e : Engine) (w : World) (a : Activation) :
    Runs w a (a.stepPlan e w) (a.advance e w) :=
  (advance_turn e w a).runs

/-! ### Going on with an answer -/

/-- What going on with an answer may come to. -/
def answerPlan (w : World) (a : Activation) (await : Await) : Plan where
  next place := place = await.next
  waits later := ∃ name args dst next, await = .classOf name args dst next ∧
    later = .assign [] dst next
  makes _ := False
  stops p := p = .invalidAccess ∧ ¬await.Writes (w.registers a.frame).size

theorem resume_turn (w : World) (a : Activation) (r : Reply) (await : Await) :
    Turn w a (answerPlan w a await) await.dst? none (a.resume w r await) := by
  have unwritten {dst : Option Nat}
      (outside : ∀ r, dst = some r → ¬r < (w.registers a.frame).size) :
      ¬∃ r, dst = some r ∧ r < (w.registers a.frame).size :=
    fun ⟨r, same, inside⟩ => outside r same inside
  cases await with simp only [resume]
  | assign name dst next =>
    have acts := insist_acts w name r
    split <;> rename_i insisted <;> rw [insisted] at acts
    · exact assign_turn .nothing acts rfl fun outside => ⟨rfl, unwritten outside⟩
    · exact raise_turn .nothing acts
  | skip name next =>
    have acts := insist_acts w name r
    split <;> rename_i insisted <;> rw [insisted] at acts
    · exact goto_turn .nothing acts rfl
    · exact raise_turn .nothing acts
  | mark dst next =>
    exact mark_turn (insist_acts w [] r) rfl fun outside => ⟨rfl, outside⟩
  | membership dst next =>
    cases r with
    | done | refused =>
      exact assign_turn .nothing (.refl w) rfl fun outside => ⟨rfl, unwritten outside⟩
    | failed => exact raise_turn .nothing (.refl w)
  | classOf name args dst next =>
    have acts := insist_acts w name r
    split <;> rename_i insisted <;> rw [insisted] at acts
    · exact .asks acts (.operate ..) ⟨name, args, dst, next, rfl, rfl⟩
    · exact raise_turn .nothing acts

theorem resume_runs (w : World) (a : Activation) (r : Reply) (await : Await) :
    Runs w a (answerPlan w a await) (a.resume w r await) :=
  (resume_turn w a r await).runs

end Activation

/-! ### Beginning to run -/

/-- A block that begins to run. -/
def Invocation.begun (inv : Invocation) (block : CodeBlock) (frame : FrameRef)
    (chain owned : Chain) (completion : Completion) : Activation :=
  { block, frame, chain, owned, args := inv.args, blocks := inv.blocks, this := inv.this,
    completion }

/-- The registers that a block gets: those it is given, or fresh ones. -/
inductive Framed (w : World) (block : CodeBlock) (inv : Invocation) : World → FrameRef → Prop
  | supplied {frame : FrameRef} (given : inv.frame = some frame)
      (fits : block.registers.toInt ≤ (w.registers frame).size) : Framed w block inv w frame
  | fresh (absent : inv.frame = none) (room : isRoomFor block.registers.toInt = true) :
      Framed w block inv (w.newFrame (Array.replicate block.registers.toInt.toNat .void)).1
        w.frames.size

/-- How a block begins to run, or fails to. -/
inductive Enters (w : World) (block : CodeBlock) (inv : Invocation) (completion : Completion) :
    Next → Prop
  | flat {w₁ : World} {frame : FrameRef} (framed : Framed w block inv w₁ frame)
      (flat : ¬0 < block.nestLevel) :
      Enters w block inv completion
        ⟨w₁, .code (inv.begun block frame inv.shared [] completion), []⟩
  | nested {w₁ : World} {frame : FrameRef} {arena : Arena} {chain : Chain}
      (framed : Framed w block inv w₁ frame) (nested : 0 < block.nestLevel)
      (overlaid : w₁.arena.overlay inv.shared (block.sharedSizes.map Int64.toInt) =
        .made arena chain) :
      Enters w block inv completion
        ⟨{ w₁ with arena }, .code (inv.begun block frame chain chain completion), []⟩
  | refused {w₁ : World} {frame : FrameRef} {arena : Arena}
      {dropped : List (FrameHandle × Release)} {error : ArenaError}
      (framed : Framed w block inv w₁ frame) (nested : 0 < block.nestLevel)
      (refused : w₁.arena.overlay inv.shared (block.sharedSizes.map Int64.toInt) =
        .failed arena dropped error) :
      Enters w block inv completion
        ⟨{ w₁ with arena }.reportReleases dropped,
          .reply (.failed none (.labelled block.title (.host (.arena error)))), []⟩
  | broken {w₁ : World} {frame : FrameRef} {arena : Arena}
      (framed : Framed w block inv w₁ frame) (nested : 0 < block.nestLevel)
      (broken : w₁.arena.overlay inv.shared (block.sharedSizes.map Int64.toInt) = .broken arena) :
      Enters w block inv completion ⟨{ w₁ with arena }, .panic .invalidAccess, []⟩
  | crowded (absent : inv.frame = none) : Enters w block inv completion ⟨w, .panic .invalidAccess, []⟩
  | small {frame : FrameRef} {message : Text} (given : inv.frame = some frame)
      (small : (w.registers frame).size < block.registers.toInt) :
      Enters w block inv completion ⟨w, .panic (.message message), []⟩

theorem nest_enters {w w₁ : World} {block : CodeBlock} {inv : Invocation} {frame : FrameRef}
    (completion : Completion) (framed : Framed w block inv w₁ frame) :
    Enters w block inv completion (Machine.enter.nest block inv completion w₁ frame) := by
  unfold Machine.enter.nest
  split
  next nested =>
    split
    next overlaid => exact .nested framed nested overlaid
    next refused => exact .refused framed nested refused
    next broken => exact .broken framed nested broken
  next flat => exact .flat framed flat

theorem enter_enters (w : World) (block : CodeBlock) (inv : Invocation) (completion : Completion) :
    Enters w block inv completion (Machine.enter w block inv completion) := by
  unfold Machine.enter
  split
  next frame given =>
    dsimp only
    split
    next small => exact .small given small
    next fits => exact nest_enters completion (.supplied given (by omega))
  next absent =>
    split
    · exact .crowded absent
    next room => exact nest_enters completion (.fresh absent (by simpa using room))

/-! ### Every transition -/

namespace Machine

/-- What a transition can be. -/
inductive Transition (e : Engine) : State → State → Prop
  | rests {s : State} (final : s.isFinal = true) : Transition e s s
  | answers {w : World} {control : Control} {stack : List Cont} {n : Next}
      (plain : control.isPlain = true) (calm : Calm e w n) :
      Transition e ⟨w, control, stack⟩ ⟨n.world, n.control, n.push ++ stack⟩
  | passes {w : World} {r : Reply} {top : Cont} {rest : List Cont} {n : Next}
      (other : top.activation? = none) (calm : Calm e w n) :
      Transition e ⟨w, .reply r, top :: rest⟩ ⟨n.world, n.control, n.push ++ rest⟩
  | vacant {w : World} {inv : Invocation} {completion : Completion} {stack : List Cont} :
      Transition e ⟨w, .execute none inv completion, stack⟩ ⟨w, .panic .invalidAccess, stack⟩
  | begins {w : World} {block : CodeBlock} {inv : Invocation} {completion : Completion}
      {stack : List Cont} {n : Next} (enters : Enters w block inv completion n) :
      Transition e ⟨w, .execute (some block) inv completion, stack⟩
        ⟨n.world, n.control, n.push ++ stack⟩
  | runs {w : World} {a : Activation} {stack : List Cont} {n : Next}
      (runs : a.Runs w (a.stepPlan e w) n) :
      Transition e ⟨w, .code a, stack⟩ ⟨n.world, n.control, n.push ++ stack⟩
  | returns {w : World} {r : Reply} {a : Activation} {await : Await} {rest : List Cont} {n : Next}
      (runs : a.Runs w (a.answerPlan w await) n) :
      Transition e ⟨w, .reply r, .code a await :: rest⟩ ⟨n.world, n.control, n.push ++ rest⟩
  | unwinds {w : World} {p : Panic} {top : Cont} {rest : List Cont} :
      Transition e ⟨w, .panic p, top :: rest⟩ ⟨unwind w top, .panic p, rest⟩

theorem step_transition (e : Engine) (s : State) : Transition e s (step e s) := by
  obtain ⟨w, control, stack⟩ := s
  cases control with
  | reply r =>
    cases stack with
    | nil => exact .rests rfl
    | cons top rest =>
      cases top with
      | code a await => exact .returns (a.resume_runs w r await)
      | _ => exact .passes rfl (resume_calm e w r rfl)
  | panic p =>
    cases stack with
    | nil => exact .rests rfl
    | cons top rest => exact .unwinds
  | operate target r => exact .answers rfl (operate_calm e w target r)
  | lock ref target r => exact .answers rfl (acquire_calm e w ref target r)
  | dispatch ref r => exact .answers rfl (dispatch_calm e w ref r)
  | host action => exact .answers rfl (hostStep_calm e w action)
  | code a => exact .runs (a.advance_runs e w)
  | execute block inv completion =>
    cases block with
    | none => exact .vacant
    | some block => exact .begins (enter_enters w block inv completion)

/-! ### Runs -/

variable {e : Engine} {s : State}

theorem step_final (final : s.isFinal = true) : step e s = s := by
  obtain ⟨w, control, stack⟩ := s
  cases control with
  | reply | panic =>
    cases stack with
    | nil => rfl
    | cons => cases final
  | _ => cases final

theorem run_final (final : s.isFinal = true) (n : Nat) : run e n s = s := by
  cases n with
  | zero => rfl
  | succ n => rw [run, if_pos final]

theorem run_step (e : Engine) (n : Nat) (s : State) : run e (n + 1) s = run e n (step e s) := by
  by_cases final : s.isFinal = true
  · rw [step_final final, run_final final, run_final final]
  · rw [run, if_neg final]

theorem run_add (e : Engine) (n m : Nat) (s : State) : run e (n + m) s = run e m (run e n s) := by
  induction n generalizing s with
  | zero => rw [Nat.zero_add, run]
  | succ n ih => rw [Nat.add_right_comm, run_step, run_step, ih]

theorem run_succ (e : Engine) (n : Nat) (s : State) : run e (n + 1) s = step e (run e n s) := by
  rw [run_add, run_step, run]

end Machine
end ScriptEngine
