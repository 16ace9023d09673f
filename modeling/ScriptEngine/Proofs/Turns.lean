import ScriptEngine.Proofs.CheckedRun

/-! Whose turn it is. A transition belongs to the block that runs or that gets an
answer, or it leaves all blocks alone; in any case only the top of the stack
changes. What a block does in its turn is told by its instruction: which register
it may write, and which thrown value it takes. -/
namespace ScriptEngine

open World

/-! ### What instructions write and take -/

/-- Whether instructions with an opcode have a register for their result. -/
def Opcode.hasResult : Opcode → Bool
  | .nop | .super | .newClass | .newModule | .bindingMap | .write | .jump | .jumpTrue | .jumpFalse
  | .return | .throw | .exitTry | .dset | .iset | .dsetAttrib | .assert | .dump => false
  | _ => true

namespace Activation

variable {e : Engine} {w : World} {a : Activation}

/-- The register for the result of the instruction that a block stands at. For a
branch it is the one that holds the marker. -/
def destination? (a : Activation) : Option Nat :=
  a.opcode?.bind fun opcode => if opcode.hasResult then a.registerNumber? 1 else none

/-- The thrown value that the instruction a block stands at takes out of a
marker: a branch takes one at its second target. -/
def catches? (w : World) (a : Activation) : Option SignalRef :=
  if a.opcode? = some .catchBranch then
    match (a.register? w 1).bind fun v => v.object?.bind (w.heap[·]?), a.word? 3 with
    | some (.marker (some fault) _), some count =>
      if 1 < count.toNat then w.thrownBy? fault else none
    | _, _ => none
  else none

/-- What a branch takes was thrown. -/
theorem catches?_thrown {ref : SignalRef} (catches : a.catches? w = some ref) :
    ∃ v, w.thrown? ref = some v := by
  unfold catches? at catches
  split at catches
  · split at catches
    · split at catches
      · obtain ⟨-, thrown⟩ := Option.filter_eq_some_iff.mp catches
        exact Option.isSome_iff_exists.mp thrown
      · cases catches
    · cases catches
  · cases catches

/-- An action writes a given register only, and takes no thrown value. -/
def Confined (dst : Option Nat) (action? : Option Action) : Prop :=
  ∀ action ∈ action?, (action.dst? = none ∨ action.dst? = dst) ∧ action.taken? = none

namespace Confined

variable {dst : Option Nat}

theorem nothing : Confined dst none := fun _ member => absurd member (Option.not_mem_none _)

theorem action {action : Action} (writes : action.dst? = none ∨ action.dst? = dst)
    (untaken : action.taken? = none) : Confined dst (some action) := by
  rintro _ ⟨⟩
  exact ⟨writes, untaken⟩

theorem bind {α : Type} {x : Option α} {f : α → Option Action}
    (confined : ∀ v, x = some v → Confined dst (f v)) : Confined dst (x.bind f) := by
  intro action found
  obtain ⟨v, read, found⟩ := Option.bind_eq_some_iff.mp found
  exact confined v read action found

theorem level {n : UInt32} {action : Action} (found : a.level n = .error action) :
    Confined dst (some action) := by
  unfold Activation.level at found
  split at found <;> cases found
  exact .action (.inl rfl) rfl

end Confined

/-- Instructions other than branches write the register for their result, if
they have one, and nothing else. -/
theorem actionOf_confined {opcode : Opcode} (other : opcode ≠ .catchBranch) :
    Confined (if opcode.hasResult then a.registerNumber? 1 else none) (a.actionOf e w opcode) := by
  cases opcode with
  | catchBranch => exact absurd rfl other
  | _ =>
    simp only [actionOf, construct, callAction, Option.bind_eq_bind, Option.pure_def,
      Opcode.hasResult, if_true, Bool.false_eq_true, if_false]
    repeat' first
      | with_reducible exact .nothing
      | with_reducible refine .bind fun _ _ => ?_
      | split
      | with_reducible exact Confined.level ‹_›
      | refine Confined.action ?_ rfl
    all_goals first
      | exact .inl rfl
      | exact .inr rfl
      | exact .inr (Eq.symm ‹_›)

/-- A branch writes the register of its marker, and takes out of the marker what
is thrown there. -/
theorem catchBranch_takes {action : Action} (branch : a.opcode? = some .catchBranch)
    (found : a.catchBranch w = some action) :
    (action.dst? = none ∨ action.dst? = a.registerNumber? 1) ∧ action.taken? = a.catches? w := by
  simp only [catchBranch, Option.bind_eq_bind, Option.pure_def, Option.bind_eq_some_iff] at found
  obtain ⟨r, register, id, -, count, counted, targets, -, marker, held, found⟩ := found
  have read : a.register? w 1 = some marker := by
    simpa [register?, registerNumber?, register] using held
  have named : some r.toNat = a.registerNumber? 1 := by rw [registerNumber?, register]; rfl
  have taken {v : Value} {fault : Fault} {place : Option Int}
      (found : (if 1 < count.toNat then some (.settle r.toNat v (w.thrownBy? fault) place)
        else some (.raise fault)) = some action) :
      (action.dst? = none ∨ action.dst? = a.registerNumber? 1) ∧
        action.taken? = if 1 < count.toNat then w.thrownBy? fault else none := by
    by_cases second : 1 < count.toNat
    · rw [if_pos second] at found ⊢
      cases found
      exact ⟨.inr named, rfl⟩
    · rw [if_neg second] at found ⊢
      cases found
      exact ⟨.inl rfl, rfl⟩
  simp only [catches?, branch, if_true, read, counted, Option.bind_some]
  split at found
  next there =>
    cases found
    simp only [there]
    exact ⟨.inr named, rfl⟩
  next fault v there =>
    simp only [there]
    cases signal : w.signal? fault with
    | none =>
      simp only [signal] at found
      exact taken found
    | some signal' =>
      simp only [signal] at found
      cases signal' with
      | thrown => exact taken found
      | exit =>
        have untaken : (if 1 < count.toNat then w.thrownBy? fault else none) = none := by
          rw [thrownBy?_of_exit signal, ite_self]
        dsimp only at found
        split at found <;> cases found
        · exact ⟨.inr named, untaken.symm⟩
        · exact ⟨.inl rfl, untaken.symm⟩
  next unmarked =>
    cases found
    refine ⟨.inl rfl, ?_⟩
    split
    next there _ => exact absurd there (unmarked _ _)
    · rfl

/-- A block without an instruction to carry out returns, or complains. -/
theorem action_unread {action : Action} (unread : a.opcode? = none)
    (found : a.action e w = some action) : action.dst? = none ∧ action.taken? = none := by
  unfold opcode? at unread
  unfold Activation.action at found
  split at found
  · cases found
    exact ⟨rfl, rfl⟩
  next inside =>
    rw [if_neg inside] at unread
    obtain ⟨word, first, found⟩ := Option.bind_eq_some_iff.mp found
    rw [first, Option.bind_some] at unread
    simp only [unread] at found
    cases found
    exact ⟨rfl, rfl⟩

/-- An instruction writes the register for its result and takes what it catches,
and nothing else. -/
theorem action_effects {action : Action} (found : a.action e w = some action) :
    (action.dst? = none ∨ action.dst? = a.destination?) ∧ action.taken? = a.catches? w := by
  cases read : a.opcode? with
  | none =>
    obtain ⟨unwritten, untaken⟩ := action_unread read found
    exact ⟨.inl unwritten, by simp [untaken, catches?, read]⟩
  | some opcode =>
    rw [action_of_opcode? read] at found
    by_cases branch : opcode = .catchBranch
    · subst branch
      simpa only [destination?, read, Option.bind_some, Opcode.hasResult, if_true] using
        catchBranch_takes read found
    · obtain ⟨writes, untaken⟩ := actionOf_confined branch action found
      have elsewhere : a.opcode? ≠ some .catchBranch := by simpa [read] using branch
      exact ⟨by simpa only [destination?, read, Option.bind_some] using writes,
        by rw [untaken, catches?, if_neg elsewhere]⟩

end Activation

/-! ### The block whose turn it is -/

namespace State

/-- The block that makes the next transition: the one that runs, or the one that
gets an answer. -/
def turn? (s : State) : Option Activation :=
  match s.control, s.stack with
  | .code a, _ => some a
  | .reply _, .code a _ :: _ => some a
  | _, _ => none

/-- The part of the stack that the next transition leaves alone. -/
def base (s : State) : List Cont :=
  match s.control with
  | .reply _ | .panic _ => s.stack.tail
  | _ => s.stack

variable {s : State} {a a' : Activation} {await? later? : Option Await} {height : Nat}

theorem activationAt_base (below : height < s.base.length) :
    s.activationAt height = waitingAt s.base height := by
  obtain ⟨w, control, stack⟩ := s
  cases control with
  | reply | panic =>
    cases stack with
    | nil => cases below
    | cons top rest => exact activationAt_below below [top]
  | _ => exact activationAt_below below []

/-- A block that does not wait below has the turn, unless everything stops. -/
theorem turn?_of_activationAt (there : s.activationAt height = some (a, await?))
    (reach : s.base.length ≤ height) :
    height = s.base.length ∧ (s.turn? = some a ∨ ∃ p, s.control = .panic p) := by
  obtain ⟨w, control, stack⟩ := s
  have bound := activationAt_le there
  rcases Nat.lt_or_eq_of_le bound with below | rfl
  · cases control with
    | reply | panic =>
      cases stack with
      | nil => cases below
      | cons top rest =>
        obtain rfl : height = rest.length := by
          have : rest.length ≤ height := reach
          have : height < rest.length + 1 := below
          omega
        rw [activationAt_waiting] at there
        cases top with
        | code => cases there; simp [base, turn?]
        | _ => cases there
    | _ => exact absurd below (Nat.not_lt.mpr reach)
  · obtain ⟨rfl, rfl⟩ := activationAt_top there
    exact ⟨rfl, .inl rfl⟩

/-- A block that no part of the stack holds runs. -/
theorem activationAt_reached {w : World} {control : Control} {stack : List Cont}
    (there : activationAt ⟨w, control, stack⟩ height = some (a, await?))
    (reach : stack.length ≤ height) : control = .code a ∧ height = stack.length ∧ await? = none := by
  obtain rfl : height = stack.length := Nat.le_antisymm (activationAt_le there) reach
  obtain ⟨running, rfl⟩ := activationAt_top there
  exact ⟨running, rfl, rfl⟩

/-- A block above a part of the stack runs, or was put there to wait. -/
theorem activationAt_above {w : World} {control : Control} {pushed rest : List Cont}
    (there : activationAt ⟨w, control, pushed ++ rest⟩ height = some (a, await?))
    (above : rest.length ≤ height) :
    (control = .code a ∧ height = (pushed ++ rest).length ∧ await? = none) ∨
      ∃ await, await? = some await ∧ Cont.code a await ∈ pushed := by
  by_cases top : height = (pushed ++ rest).length
  · subst top
    obtain ⟨running, rfl⟩ := activationAt_top there
    exact .inl ⟨running, rfl, rfl⟩
  · rw [activationAt, if_neg top, waitingAt] at there
    split at there
    next found =>
      cases there
      rw [List.reverse_append, List.getElem?_append_right (by simpa using above)] at found
      exact .inr ⟨_, rfl, List.mem_reverse.mp (List.mem_of_getElem? found)⟩
    · cases there

end State

/-- What answers a request puts no block on the stack. -/
theorem Calm.above {e : Engine} {w w' : World} {n : Next} {rest : List Cont} {height : Nat}
    (calm : Calm e w n) (above : rest.length ≤ height) :
    State.activationAt ⟨w', n.control, n.push ++ rest⟩ height = none := by
  refine Option.eq_none_iff_forall_ne_some.mpr fun ⟨b, later?⟩ there => ?_
  rcases State.activationAt_above there above with ⟨running, -⟩ | ⟨await, -, member⟩
  · exact calm.idle b running
  · have waiting : b ∈ n.push.filterMap Cont.activation? :=
      List.mem_filterMap.mpr ⟨_, member, rfl⟩
    rw [calm.pushes] at waiting
    cases waiting

/-- After its turn a block goes on at another place, waits, or is gone. -/
theorem Activation.Turn.stays {w : World} {a a' : Activation} {plan : Plan} {dst : Option Nat}
    {taken : Option SignalRef} {n : Next} {rest : List Cont} {later? : Option Await}
    (turn : a.Turn w plan dst taken n)
    (there : State.activationAt ⟨n.world, n.control, n.push ++ rest⟩ rest.length =
      some (a', later?)) :
    (later? = none ∧ ∃ place, plan.next place ∧
        a' = { a with ip := place, caught := taken.or a.caught }) ∨
      ∃ await, later? = some await ∧ plan.waits await ∧ a' = a := by
  cases turn with
  | goes takes acts stores planned =>
    obtain ⟨same, rfl⟩ := State.activationAt_top there
    cases same
    exact .inl ⟨rfl, _, planned, rfl⟩
  | asks acts asks planned =>
    rw [List.singleton_append, State.activationAt_waiting] at there
    cases there
    exact .inr ⟨_, rfl, planned, rfl⟩
  | returns | fails | stops => cases (State.activationAt_top there).1

/-- In its turn a block makes no closure but those that are planned. -/
theorem Activation.Turn.closure {w : World} {a : Activation} {plan : Plan} {dst : Option Nat}
    {taken : Option SignalRef} {n : Next} {ref : ObjRef} {block : Option CodeBlock}
    {frame : Option FrameRef} {chain : Chain} (turn : a.Turn w plan dst taken n)
    (there : n.world.heap[ref]? = some (.closure block frame chain)) :
    w.heap[ref]? = some (.closure block frame chain) ∨ plan.makes (.closure block frame chain) := by
  have taken {w₁ w₂ : World} (takes : a.Takes w plan.makes w₁) (acts : Acts w₁ w₂)
      (there : w₂.heap[ref]? = some (.closure block frame chain)) :
      w.heap[ref]? = some (.closure block frame chain) ∨
        plan.makes (.closure block frame chain) := by
    rw [← captureAt_closure, acts.evolves.captureAt_eq, captureAt_closure] at there
    rcases Nat.lt_or_ge ref w.heap.size with old | new
    · left
      cases takes with
      | nothing | refused => exact there
      | captured retained made =>
        simpa [World.create, Array.getElem?_push, Nat.ne_of_lt old] using there
    · exact .inr (takes.closure new there)
  cases turn with
  | goes takes acts stores | stops takes acts stores =>
    cases stores <;> exact taken takes acts there
  | asks acts => exact taken .nothing acts there
  | returns => exact .inl there
  | fails f takes acts =>
    refine taken takes acts ?_
    simpa only [releaseChain, reportReleases, (annotate_heap ..).1] using there

/-- A block that begins to run adds a frame at most; objects and signals stay as they are. -/
theorem Enters.parts {w : World} {block : CodeBlock} {inv : Invocation} {completion : Completion}
    {n : Next} (enters : Enters w block inv completion n) :
    n.world.heap = w.heap ∧ n.world.signals = w.signals ∧
      ∃ added, n.world.frames = w.frames ++ added := by
  cases enters with
  | flat framed | nested framed | refused framed | broken framed =>
    cases framed with
    | supplied => exact ⟨rfl, rfl, #[], Array.append_empty.symm⟩
    | fresh => exact ⟨rfl, rfl, #[_], rfl⟩
  | crowded | small => exact ⟨rfl, rfl, #[], Array.append_empty.symm⟩

namespace Machine

variable {e : Engine} {s : State} {a a' : Activation} {await? later? : Option Await}
  {height : Nat} {n : Next}

theorem step_base (e : Engine) (s : State) : ∃ pushed, (step e s).stack = pushed ++ s.base := by
  obtain ⟨w, control, stack⟩ := s
  cases control with
  | reply | panic =>
    cases stack with
    | nil => exact ⟨[], rfl⟩
    | cons top rest => first | exact ⟨_, rfl⟩ | exact ⟨[], rfl⟩
  | _ => exact ⟨_, rfl⟩

/-- What waits below goes on waiting. -/
theorem step_activationAt (below : height < s.base.length) :
    (step e s).activationAt height = s.activationAt height := by
  obtain ⟨pushed, same⟩ := step_base e s
  rw [State.activationAt_base below]
  have next : State.activationAt ⟨(step e s).world, (step e s).control, pushed ++ s.base⟩ height =
      waitingAt s.base height := State.activationAt_below below pushed
  rwa [← same] at next

/-- The turn of a block: it runs its next instruction, or goes on with an answer. -/
inductive Turns (e : Engine) : State → Activation → Option Await → Next → Prop
  | runs {w : World} {a : Activation} {stack : List Cont} {n : Next}
      (turn : a.Turn w (a.stepPlan e w) ((a.action e w).bind Action.dst?)
        ((a.action e w).bind Action.taken?) n) :
      Turns e ⟨w, .code a, stack⟩ a none n
  | goes {w : World} {r : Reply} {a : Activation} {await : Await} {rest : List Cont} {n : Next}
      (turn : a.Turn w (a.answerPlan w await) await.dst? none n) :
      Turns e ⟨w, .reply r, .code a await :: rest⟩ a (some await) n

theorem step_turns (e : Engine) (turn : s.turn? = some a) :
    ∃ await? n, Turns e s a await? n ∧ step e s = ⟨n.world, n.control, n.push ++ s.base⟩ := by
  obtain ⟨w, control, stack⟩ := s
  cases control with
  | code b =>
    cases turn
    exact ⟨none, _, .runs (a.advance_turn e w), rfl⟩
  | reply r =>
    cases stack with
    | nil => cases turn
    | cons top rest =>
      cases top with
      | code b await =>
        cases turn
        exact ⟨some await, _, .goes (a.resume_turn w r await), rfl⟩
      | _ => cases turn
  | _ => cases turn

theorem Turns.activationAt (turns : Turns e s a await? n) :
    s.activationAt s.base.length = some (a, await?) := by
  cases turns with
  | runs => simp [State.activationAt, State.base]
  | goes => exact State.activationAt_waiting ..

/-- What is done while no block has the turn: a request is answered or a lock given back,
a block begins to run, or references are dropped. -/
theorem step_idle (e : Engine) (idle : s.turn? = none) :
    World.Acts s.world (step e s).world ∨
      (∃ block inv completion n, Enters s.world block inv completion n ∧
        (step e s).world = n.world) ∨
      ∃ chain, (step e s).world = s.world.releaseChain chain := by
  have transition := step_transition e s
  generalize step e s = s' at transition
  cases transition with
  | rests | vacant => exact .inl (.refl _)
  | answers _ calm | passes _ calm => exact .inl calm.acts
  | begins enters => exact .inr (.inl ⟨_, _, _, _, enters, rfl⟩)
  | runs | returns => cases idle
  | @unwinds w p top rest =>
    cases top with
    | unlock ref => exact .inl (World.unlock_acts w ref)
    | code a => exact .inr (.inr ⟨a.owned, rfl⟩)
    | _ => exact .inl (.refl _)

theorem Turns.turn (turns : Turns e s a await? n) :
    ∃ plan dst taken, a.Turn s.world plan dst taken n := by
  cases turns with
  | runs turn | goes turn => exact ⟨_, _, _, turn⟩

/-- What a transition does to a block: it waits below, it has its turn, or it is
dropped because everything stops. -/
theorem activationAt_step (e : Engine) (there : s.activationAt height = some (a, await?)) :
    height < s.base.length ∨
      (height = s.base.length ∧
        ∃ n, Turns e s a await? n ∧ step e s = ⟨n.world, n.control, n.push ++ s.base⟩) ∨
      (height = s.base.length ∧ (∃ p, s.control = .panic p) ∧
        (step e s).activationAt height = none) := by
  rcases Nat.lt_or_ge height s.base.length with below | reach
  · exact .inl below
  · obtain ⟨rfl, turn | ⟨p, panics⟩⟩ := State.turn?_of_activationAt there reach
    · obtain ⟨later?, n, turns, stepped⟩ := step_turns e turn
      obtain ⟨-, rfl⟩ := Prod.mk.inj (Option.some.inj (there.symm.trans turns.activationAt))
      exact .inr (.inl ⟨rfl, n, turns, stepped⟩)
    · obtain ⟨w, control, stack⟩ := s
      cases panics
      refine .inr (.inr ⟨rfl, ⟨p, rfl⟩, ?_⟩)
      cases stack with
      | nil => rfl
      | cons top rest => simp [step, State.activationAt, State.base]

/-- In its turn a block puts nothing above itself. -/
theorem Turns.above (turns : Turns e s a await? n) {w : World} (above : s.base.length < height) :
    State.activationAt ⟨w, n.control, n.push ++ s.base⟩ height = none := by
  refine Option.eq_none_iff_forall_ne_some.mpr fun ⟨b, later?⟩ there => ?_
  obtain ⟨plan, dst, taken, turn⟩ := turns.turn
  cases turn with
  | goes | returns | fails | stops =>
    have reach := State.activationAt_le there
    exact absurd above (Nat.not_lt.mpr reach)
  | @asks w₁ control await acts asks planned =>
    -- The block waits on top of the stack, and what is asked of a value is no block.
    have top : State.activationAt ⟨w, control, [] ++ .code a await :: s.base⟩ height = _ := there
    rcases State.activationAt_above top above with ⟨rfl, -⟩ | ⟨_, -, ⟨⟩⟩
    cases asks

/-- A block that was not there before has just begun to run. -/
theorem activationAt_new (absent : s.activationAt height = none)
    (next : (step e s).activationAt height = some (a, await?)) :
    ∃ block inv completion n, s.control = .execute (some block) inv completion ∧
      height = s.stack.length ∧ Enters s.world block inv completion n ∧ n.control = .code a ∧
      await? = none ∧ step e s = ⟨n.world, n.control, s.stack⟩ := by
  -- A transition leaves alone what waits further down, so the block is at the top.
  have reach : s.base.length ≤ height := by
    refine Nat.not_lt.mp fun below => ?_
    rw [step_activationAt below, absent] at next
    cases next
  cases whose : s.turn? with
  | some b =>
    obtain ⟨later?, n, turns, stepped⟩ := step_turns e whose
    have other : s.base.length ≠ height := by
      rintro rfl
      exact absurd (absent.symm.trans turns.activationAt) (by simp)
    rw [stepped, turns.above (Nat.lt_of_le_of_ne reach other)] at next
    cases next
  | none =>
    obtain ⟨w, control, stack⟩ := s
    cases control with
    | code => cases whose
    | operate target r =>
      exact absurd (next.symm.trans ((operate_calm e w target r).above reach)) (by simp)
    | lock ref target r =>
      exact absurd (next.symm.trans ((acquire_calm e w ref target r).above reach)) (by simp)
    | dispatch ref r =>
      exact absurd (next.symm.trans ((dispatch_calm e w ref r).above reach)) (by simp)
    | host action =>
      exact absurd (next.symm.trans ((hostStep_calm e w action).above reach)) (by simp)
    | panic p =>
      cases stack with
      | nil => cases absent.symm.trans next
      | cons top rest =>
        cases (State.activationAt_reached next reach).1
    | reply r =>
      cases stack with
      | nil => cases absent.symm.trans next
      | cons top rest =>
        cases top with
        | code => cases whose
        | _ => exact absurd (next.symm.trans ((resume_calm e w r rfl).above reach)) (by simp)
    | execute block inv completion =>
      cases block with
      | none =>
        cases (State.activationAt_reached next reach).1
      | some block =>
        have enters := enter_enters w block inv completion
        simp only [step, advance, enters.push, List.nil_append] at next ⊢
        obtain ⟨running, rfl, rfl⟩ := State.activationAt_reached next reach
        exact ⟨block, inv, completion, _, rfl, rfl, enters, running, rfl, rfl⟩

/-- A closure was there before, or the block that runs makes it. -/
theorem step_closure {ref : ObjRef} {block : Option CodeBlock} {frame : Option FrameRef}
    {chain : Chain} (there : (step e s).world.heap[ref]? = some (.closure block frame chain)) :
    s.world.heap[ref]? = some (.closure block frame chain) ∨
      ∃ a, s.control = .code a ∧ (a.stepPlan e s.world).makes (.closure block frame chain) := by
  cases whose : s.turn? with
  | some a =>
    obtain ⟨await?, n, turns, stepped⟩ := step_turns e whose
    rw [stepped] at there
    cases turns with
    | runs turn => exact (turn.closure there).imp_right fun made => ⟨a, rfl, made⟩
    | goes turn => exact .inl ((turn.closure there).resolve_right id)
  | none =>
    have transition := step_transition e s
    generalize step e s = s' at transition there
    left
    cases transition with
    | rests | vacant => exact there
    | answers _ calm | passes _ calm =>
      rwa [← captureAt_closure, calm.evolves.captureAt_eq, captureAt_closure] at there
    | begins enters => rwa [enters.parts.1] at there
    | runs | returns => cases whose
    | @unwinds w p top rest =>
      cases top with
      | unlock ref =>
        rwa [← captureAt_closure, unwind, (unlock_evolves w ref).captureAt_eq,
          captureAt_closure] at there
      | _ => exact there

/-- A block that is about to run is one of a closure, or was compiled and has no
frame. -/
theorem execute_entry {block : Option CodeBlock} {inv : Invocation} {completion : Completion}
    (begins : (step e s).control = .execute block inv completion) :
    Entry e s.world block inv := by
  have transition := step_transition e s
  generalize step e s = s' at transition begins
  cases transition with
  | rests final => rw [State.isFinal, begins] at final; cases final
  | answers _ calm | passes _ calm => exact calm.enters _ _ _ begins
  | begins enters => cases enters <;> cases begins
  | runs runs | returns runs =>
    cases runs with
    | asks _ asks =>
      cases begins
      cases asks
    | _ => cases begins
  | vacant | unwinds => cases begins

/-! ### The life of an invocation -/

/-- The invocation that a state is about to begin is there after each of so many
transitions. -/
def Lasts (e : Engine) (s : State) (n : Nat) : Prop :=
  ∀ m < n, ((run e (m + 1) s).activationAt s.stack.length).isSome = true

instance (e : Engine) (s : State) (n : Nat) : Decidable (Lasts e s n) := Nat.decidableBallLT n _

theorem Lasts.mono {n m : Nat} (lasts : Lasts e s n) (le : m ≤ n) : Lasts e s m :=
  fun k before => lasts k (Nat.lt_of_lt_of_le before le)

theorem Lasts.succ {n : Nat} (lasts : Lasts e s n)
    (present : ((run e (n + 1) s).activationAt s.stack.length).isSome = true) :
    Lasts e s (n + 1) := by
  intro m before
  rcases Nat.lt_succ_iff_lt_or_eq.mp before with earlier | rfl
  · exact lasts m earlier
  · exact present

/-- What holds of an invocation as it begins, and is kept while it waits and by
each of its turns, holds for as long as it lasts. -/
theorem Lasts.keeps {P : Nat → Activation → Option Await → Prop} {block : Option CodeBlock}
    {inv : Invocation} {completion : Completion} (begins : s.control = .execute block inv completion)
    (begun : ∀ {a b next}, block = some b → Enters s.world b inv completion next →
      next.control = .code a → step e s = ⟨next.world, next.control, s.stack⟩ → P 1 a none)
    (waits : ∀ {n a await}, 0 < n → s.stack.length < (run e n s).base.length →
      (run e n s).activationAt s.stack.length = some (a, some await) → P n a (some await) →
      P (n + 1) a (some await))
    (turns : ∀ {n a await? next a' later?}, 0 < n → s.stack.length = (run e n s).base.length →
      Turns e (run e n s) a await? next →
      run e (n + 1) s = ⟨next.world, next.control, next.push ++ (run e n s).base⟩ →
      (run e (n + 1) s).activationAt s.stack.length = some (a', later?) → P n a await? →
      P (n + 1) a' later?)
    {n : Nat} (lasts : Lasts e s n) {a : Activation} {await? : Option Await}
    (there : (run e n s).activationAt s.stack.length = some (a, await?)) : P n a await? := by
  have absent : s.activationAt s.stack.length = none := by simp [State.activationAt, begins]
  induction n generalizing a await? with
  | zero => rw [run, absent] at there; cases there
  | succ n ih =>
    -- The first transition begins the block, each later one is its turn or is made above it.
    cases n with
    | zero =>
      rw [run_succ, run] at there
      obtain ⟨b, inv', completion', next, begins', -, enters, running, rfl, stepped⟩ :=
        activationAt_new absent there
      rw [begins] at begins'
      cases begins'
      exact begun rfl enters running stepped
    | succ n =>
      obtain ⟨⟨b, waiting?⟩, before⟩ :=
        Option.isSome_iff_exists.mp (lasts n (Nat.lt_succ_of_lt (Nat.lt_succ_self n)))
      have held := ih (lasts.mono (Nat.le_succ _)) before
      have stepped := run_succ e (n + 1) s
      rcases activationAt_step e before with below | ⟨height, next, turn, after⟩ | ⟨-, -, gone⟩
      · obtain ⟨await, rfl⟩ : ∃ await, waiting? = some await := by
          cases waiting? with
          | some await => exact ⟨await, rfl⟩
          | none =>
            obtain ⟨top, running⟩ := State.activationAt_running before
            rw [State.base, running] at below
            exact absurd below (by simp [top])
        rw [stepped, step_activationAt below, before] at there
        cases there
        exact waits (Nat.succ_pos n) below before held
      · exact turns (Nat.succ_pos n) height turn (stepped.trans after) there held
      · rw [stepped, gone] at there
        cases there

end Machine
end ScriptEngine
