import ScriptEngine.Proofs.BlockStep

/-! Checked code runs within its bounds. What descends from the run of a checked
block, by calls of the closures that it makes from its nested blocks and of
those that they make in turn, stands at an instruction at all times, goes from
each to a successor, and stops for three reasons only: a register without the
marker that is to be caught, one without the binding that is to be extended, and
a value that is to be written as text and has none. -/
namespace ScriptEngine

open World

/-! ### What all transitions keep -/

/-- What captured a chain stays, and register frames do not shrink. -/
structure World.Extends (w w' : World) : Prop where
  captureAt : ∀ ref o, w.captureAt ref = some o → w'.captureAt ref = some o
  registers : ∀ frame, (w.registers frame).size ≤ (w'.registers frame).size

namespace World.Extends

variable {w w₁ w₂ w₃ : World}

theorem refl (w : World) : w.Extends w := ⟨fun _ _ => id, fun _ => Nat.le_refl _⟩

theorem trans (first : w₁.Extends w₂) (second : w₂.Extends w₃) : w₁.Extends w₃ where
  captureAt ref o there := second.captureAt ref o (first.captureAt ref o there)
  registers frame := Nat.le_trans (first.registers frame) (second.registers frame)

theorem evolves (evolves : Evolves w₁ w₂) : w₁.Extends w₂ where
  captureAt ref _ there := (evolves.captureAt_eq ref).trans there
  registers := evolves.size_registers

/-- Worlds with the same objects and register frames. -/
theorem same (heap : w₂.heap = w₁.heap) (frames : w₂.frames = w₁.frames) : w₁.Extends w₂ where
  captureAt ref o there := by rwa [World.captureAt, heap]
  registers frame := by simp [World.registers, frames]

theorem create (w : World) (o : Object) : w.Extends (w.create o).1 where
  captureAt ref captured there := by
    obtain ⟨held, found, -⟩ := Option.bind_eq_some_iff.mp there
    have old : ref ≠ w.heap.size := Nat.ne_of_lt (Array.getElem?_eq_some_iff.mp found).1
    simpa [World.captureAt, World.create, Array.getElem?_push, old] using there
  registers _ := Nat.le_refl _

theorem takes {a : Activation} {makes : Object → Prop} (takes : a.Takes w makes w₁) :
    w.Extends w₁ := by
  cases takes with
  | nothing => exact .refl w
  | @captured arena o =>
    have retained : w.Extends { w with arena } := same rfl rfl
    exact retained.trans (create _ o)
  | refused => exact same rfl rfl

theorem runs {a : Activation} {plan : Plan} {n : Next} (runs : a.Runs w plan n) :
    w.Extends n.world := by
  cases runs with
  | goes takes evolves => exact (Extends.takes takes).trans (.evolves evolves)
  | asks evolves => exact .evolves evolves
  | answers takes evolves | stops takes evolves =>
    exact ((Extends.takes takes).trans (.evolves evolves)).trans (same rfl rfl)

theorem framed {block : CodeBlock} {inv : Invocation} {frame : FrameRef}
    (framed : Framed w block inv w₁ frame) : w.Extends w₁ := by
  cases framed with
  | supplied => exact .refl w
  | fresh => exact .evolves (.change (.newFrame ..))

theorem enters {block : CodeBlock} {inv : Invocation} {completion : Completion} {n : Next}
    (enters : Enters w block inv completion n) : w.Extends n.world := by
  cases enters with
  | flat framed => exact .framed framed
  | nested framed | refused framed | broken framed =>
    exact (Extends.framed framed).trans (same rfl rfl)
  | crowded | small => exact .refl w

theorem unwind (top : Cont) : w.Extends (Machine.unwind w top) := by
  cases top with
  | code => exact same rfl rfl
  | unlock ref => exact .evolves (unlock_evolves w ref)
  | _ => exact .refl w

theorem transition {e : Engine} {s s' : State} (transition : Machine.Transition e s s') :
    s.world.Extends s'.world := by
  cases transition with
  | rests | vacant => exact .refl _
  | answers _ calm | passes _ calm => exact .evolves calm.evolves
  | begins enters => exact .enters enters
  | runs runs | returns runs => exact .runs runs
  | unwinds => exact .unwind _

end World.Extends

/-! ### Invocations by their height on the stack -/

/-- The block that waits at a height, counted from the bottom, and what for. -/
def waitingAt (stack : List Cont) (height : Nat) : Option (Activation × Option Await) :=
  match stack.reverse[height]? with
  | some (.code a await) => some (a, some await)
  | _ => none

/-- The block that an invocation at a height runs, and what it waits for unless
it is the one that runs now. -/
def State.activationAt (s : State) (height : Nat) : Option (Activation × Option Await) :=
  if height = s.stack.length then
    match s.control with
    | .code a => some (a, none)
    | _ => none
  else waitingAt s.stack height

theorem waitingAt_append {pushed rest : List Cont} {height : Nat} (below : height < rest.length) :
    waitingAt (pushed ++ rest) height = waitingAt rest height := by
  simp [waitingAt, List.getElem?_append_left, below]

theorem waitingAt_top (top : Cont) (rest : List Cont) :
    waitingAt (top :: rest) rest.length =
      match top with
      | .code a await => some (a, some await)
      | _ => none := by
  simp only [waitingAt, List.reverse_cons, ← @List.length_reverse _ rest,
    List.getElem?_concat_length]
  cases top <;> rfl

theorem waitingAt_above {stack : List Cont} {height : Nat} (above : stack.length ≤ height) :
    waitingAt stack height = none := by
  simp [waitingAt, above]

namespace State

variable {w : World} {control : Control} {stack : List Cont} {height : Nat} {a : Activation}
  {await? : Option Await}

theorem activationAt_below (below : height < stack.length) (pushed : List Cont) :
    activationAt ⟨w, control, pushed ++ stack⟩ height = waitingAt stack height := by
  have other : height ≠ (pushed ++ stack).length := by simp; omega
  rw [activationAt, if_neg other, waitingAt_append below]

/-- What is at the height of the stack is the block that runs. -/
theorem activationAt_top (there : activationAt ⟨w, control, stack⟩ stack.length = some (a, await?)) :
    control = .code a ∧ await? = none := by
  simp only [activationAt, if_true] at there
  split at there
  · cases there
    exact ⟨rfl, rfl⟩
  · cases there

/-- What waits on top of the stack. -/
theorem activationAt_waiting (w : World) (control : Control) (top : Cont) (rest : List Cont) :
    activationAt ⟨w, control, top :: rest⟩ rest.length =
      match top with
      | .code a await => some (a, some await)
      | _ => none := by
  rw [← waitingAt_top]
  exact activationAt_below (by simp) []

theorem activationAt_running {s : State} (there : s.activationAt height = some (a, none)) :
    height = s.stack.length ∧ s.control = .code a := by
  obtain ⟨w, control, stack⟩ := s
  by_cases top : height = stack.length
  · subst top
    exact ⟨rfl, (activationAt_top there).1⟩
  · rw [activationAt, if_neg top, waitingAt] at there
    split at there <;> cases there

/-- A block that waits below nothing else. -/
theorem activationAt_answered {s : State} {await : Await}
    (there : s.activationAt height = some (a, some await)) (last : s.stack.length = height + 1) :
    ∃ rest, s.stack = .code a await :: rest := by
  obtain ⟨w, control, stack⟩ := s
  cases stack with
  | nil => cases last
  | cons top rest =>
    obtain rfl : rest.length = height := Nat.succ.inj last
    rw [activationAt_waiting] at there
    cases top with
    | code => cases there; exact ⟨rest, rfl⟩
    | _ => cases there

theorem activationAt_le {s : State} (there : s.activationAt height = some (a, await?)) :
    height ≤ s.stack.length := by
  unfold activationAt at there
  split at there
  · omega
  · by_cases above : s.stack.length ≤ height
    · rw [waitingAt_above above] at there
      cases there
    · omega

end State

/-! ### Bounds that a run keeps to -/

theorem Await.Writes.mono {await : Await} {size larger : Nat} (writes : await.Writes size)
    (grown : size ≤ larger) : await.Writes larger := by
  cases await with
  | assign | membership | classOf =>
    obtain ⟨r, same, inside⟩ := writes
    exact ⟨r, same, Nat.lt_of_lt_of_le inside grown⟩
  | mark => exact Nat.lt_of_lt_of_le writes grown
  | skip => trivial

/-- A block that has been checked, in a frame with all its registers, stands at
an instruction; if it waits for an answer, it will go on at one and has a
register for what it gets. -/
structure Activation.Sound (w : World) (a : Activation) (await? : Option Await) : Prop where
  valid : a.block.validate = .ok ()
  fits : a.block.registers.toInt ≤ (w.registers a.frame).size
  place : a.ip ∈ a.block.starts
  waits : ∀ await, await? = some await →
    await.next ∈ a.block.starts ∧ await.Writes (w.registers a.frame).size

/-- A closure of a checked block fits into the frame that it shares. -/
def ClosureSound (w : World) (block : Option CodeBlock) (frame : Option FrameRef) : Prop :=
  ∃ sub, block = some sub ∧ sub.validate = .ok () ∧
    ∀ f, frame = some f → sub.registers.toInt ≤ (w.registers f).size

theorem ClosureSound.extends {w w' : World} {block : Option CodeBlock}
    {frame : Option FrameRef} (sound : ClosureSound w block frame) (grown : w.Extends w') :
    ClosureSound w' block frame := by
  obtain ⟨sub, same, checked, fits⟩ := sound
  refine ⟨sub, same, checked, fun f given => ?_⟩
  have := fits f given
  have := grown.registers f
  omega

/-- A plan that leads to given places, writes registers that are there, and
makes sound closures only. -/
structure Plan.Within (w : World) (a : Activation) (places : List Int) (plan : Plan) : Prop where
  next : ∀ place, plan.next place → place ∈ places
  waits : ∀ await, plan.waits await →
    await.next ∈ places ∧ await.Writes (w.registers a.frame).size
  makes : ∀ block frame chain, plan.makes (.closure block frame chain) →
    ClosureSound w block frame

namespace Activation

variable {e : Engine} {w w' : World} {a : Activation} {i : Instruction} {await? : Option Await}
  {await : Await} {places : List Int} {plan : Plan} {n : Next}

theorem Sound.extends (sound : a.Sound w await?) (grown : w.Extends w') : a.Sound w' await? where
  valid := sound.valid
  fits := by
    have := sound.fits
    have := grown.registers a.frame
    omega
  place := sound.place
  waits await same :=
    ⟨(sound.waits await same).1, (sound.waits await same).2.mono (grown.registers a.frame)⟩

/-- A sound block has run to its end or stands at a checked instruction, whose
successors are places to stand at again. -/
theorem Sound.poised (sound : a.Sound w await?) :
    a.ip = a.block.code.size ∨
      ∃ i, Poised w a i ∧ ∀ place ∈ i.successors, place ∈ a.block.starts := by
  rcases CodeBlock.instruction_at sound.valid sound.place with ended | ⟨i, place, decoded, admits, behind⟩
  · exact .inl ended
  · exact .inr ⟨i, ⟨place, decoded, admits, sound.fits⟩,
      CodeBlock.successors_mem_starts decoded admits behind⟩

theorem action_ended (ended : a.ip = a.block.code.size) : a.action e w = some (.return .void) := by
  simp [action, ended]

/-- A block that has run to its end only answers. -/
theorem stepPlan_ended (ended : a.ip = a.block.code.size) :
    (a.stepPlan e w).Within w a [] ∧ ∀ p, ¬(a.stepPlan e w).stops p := by
  simp only [stepPlan, action_ended ended, planOf]
  refine ⟨⟨by simp [Action.next?], by simp, ?_⟩, by simp [Action.Writes]⟩
  rintro block frame chain (⟨_, _, _, _, ⟨⟩, _⟩ | ⟨_, _, ⟨⟩, _⟩)

/-- The nested block that a lawful capture takes has been checked. -/
theorem Lawful.closure {block : Option CodeBlock} {sharesFrame : Bool} {dst : Option Nat}
    {next : Int} (lawful : Lawful w a i (.capture block sharesFrame dst next))
    (valid : a.block.validate = .ok ())
    (fits : a.block.registers.toInt ≤ (w.registers a.frame).size) :
    ClosureSound w block (if sharesFrame then some a.frame else none) := by
  obtain ⟨member, shared⟩ := lawful.capture block sharesFrame dst next rfl
  obtain ⟨sub, same, checked⟩ := (CodeBlock.validate_ok.mp valid).2 block member
  refine ⟨sub, same, checked, fun f given => ?_⟩
  cases sharesFrame with
  | false => cases given
  | true =>
    cases given
    have := shared sub same rfl
    omega

theorem Poised.stepPlan_within (poised : Poised w a i) (valid : a.block.validate = .ok ()) :
    (a.stepPlan e w).Within w a i.successors := by
  have accounts := poised.accounts (e := e)
  unfold stepPlan
  rw [poised.ready.action_eq]
  cases effect : a.effect e w i with
  | none => exact ⟨nofun, nofun, nofun⟩
  | some action =>
    rw [effect] at accounts
    refine ⟨accounts.next, ?_, ?_⟩
    · rintro await ⟨target, r, lock, rfl⟩
      exact ⟨accounts.next _ rfl, accounts.writes⟩
    · rintro block frame chain (⟨_, _, _, _, rfl, ⟨⟩⟩ | ⟨_, _, -, binding⟩)
      · exact accounts.closure valid poised.fits
      · cases binding

/-- The reasons for which a checked instruction can stop. -/
theorem Poised.stops (poised : Poised w a i) {p : Panic} (stops : (a.stepPlan e w).stops p) :
    (∃ message, p = .message message ∧ Complains w a i message) ∨
      p = .invalidAccess ∧ ∃ v, WorksOn w a i v ∧ w.textOf v = none := by
  have accounts := poised.accounts (e := e)
  unfold stepPlan at stops
  rw [poised.ready.action_eq] at stops
  cases effect : a.effect e w i with
  | none =>
    rw [effect] at accounts stops
    exact .inr ⟨stops, accounts⟩
  | some action =>
    rw [effect] at accounts stops
    rcases stops with ⟨message, rfl, same⟩ | ⟨-, unwritten⟩
    · exact .inl ⟨message, same, accounts.panic message rfl⟩
    · exact absurd accounts.writes unwritten

theorem Sound.answerPlan_within (sound : a.Sound w (some await)) :
    (a.answerPlan w await).Within w a [await.next] ∧ ∀ p, ¬(a.answerPlan w await).stops p := by
  have writes := (sound.waits await rfl).2
  refine ⟨⟨by simp [answerPlan], ?_, nofun⟩, fun p stops => stops.2 writes⟩
  rintro later ⟨name, args, dst, next, rfl, rfl⟩
  exact ⟨by simp [Await.next], writes⟩

/-- After a transition within bounds the block is gone from its place on the
stack, goes on at one of the places, or will. -/
theorem Runs.within {stack : List Cont} (runs : a.Runs w plan n) (sound : a.Sound w await?)
    (within : plan.Within w a places) (inside : ∀ place ∈ places, place ∈ a.block.starts)
    {a' : Activation} {later? : Option Await}
    (there : State.activationAt ⟨n.world, n.control, n.push ++ stack⟩ stack.length =
      some (a', later?)) :
    a'.block = a.block ∧ a'.Sound n.world later? ∧ (later? = none → a'.ip ∈ places) ∧
      ∀ later, later? = some later → later.next ∈ places := by
  have grown := World.Extends.runs runs
  cases runs with
  | goes takes evolves planned =>
    obtain ⟨same, rfl⟩ := State.activationAt_top there
    cases same
    have member := within.next _ planned
    have kept := sound.extends grown
    exact ⟨rfl, ⟨kept.valid, kept.fits, inside _ member, nofun⟩, fun _ => member, nofun⟩
  | asks evolves asks planned =>
    rw [List.singleton_append, State.activationAt_waiting] at there
    cases there
    obtain ⟨member, writes⟩ := within.waits _ planned
    have kept := sound.extends grown
    refine ⟨rfl, ⟨kept.valid, kept.fits, kept.place, ?_⟩, nofun, ?_⟩
    · rintro _ ⟨⟩
      exact ⟨inside _ member, writes.mono (grown.registers _)⟩
    · rintro _ ⟨⟩
      exact member
  | answers | stops => cases (State.activationAt_top there).1

theorem Runs.panics (runs : a.Runs w plan n) {p : Panic} (panics : n.control = .panic p) :
    plan.stops p := by
  cases runs with
  | goes | answers => cases panics
  | asks _ asks =>
    cases panics
    cases asks
  | stops _ _ planned =>
    cases panics
    exact planned

/-- The only closures that a transition of a block can make are planned. -/
theorem Takes.closure {makes : Object → Prop} (takes : a.Takes w makes w') {ref : ObjRef}
    (new : w.heap.size ≤ ref) {block : Option CodeBlock} {frame : Option FrameRef} {chain : Chain}
    (there : w'.heap[ref]? = some (.closure block frame chain)) :
    makes (.closure block frame chain) := by
  have absent : w.heap[ref]? = none := Array.getElem?_eq_none new
  cases takes with
  | nothing | refused => exact absurd (absent.symm.trans there) (by simp)
  | captured retained made =>
    simp only [World.create, Array.getElem?_push] at there
    split at there
    · cases there
      exact made
    · exact absurd (absent.symm.trans there) (by simp)

theorem Runs.closure (runs : a.Runs w plan n) (within : plan.Within w a places) {ref : ObjRef}
    (new : w.heap.size ≤ ref) {block : Option CodeBlock} {frame : Option FrameRef} {chain : Chain}
    (there : n.world.heap[ref]? = some (.closure block frame chain)) :
    ClosureSound w block frame := by
  have made : ∀ {w₁ w₂ : World}, a.Takes w plan.makes w₁ → Evolves w₁ w₂ →
      w₂.heap[ref]? = some (.closure block frame chain) → ClosureSound w block frame := by
    intro w₁ w₂ takes evolves there
    rw [← captureAt_closure, evolves.captureAt_eq, captureAt_closure] at there
    exact within.makes _ _ _ (takes.closure new there)
  cases runs with
  | goes takes evolves => exact made takes evolves there
  | asks evolves => exact made .nothing evolves there
  | answers takes evolves | stops takes evolves => exact made takes evolves there

end Activation

theorem Enters.push {w : World} {block : CodeBlock} {inv : Invocation} {completion : Completion}
    {n : Next} (enters : Enters w block inv completion n) : n.push = [] := by
  cases enters <;> rfl

theorem Framed.fits {w w₁ : World} {block : CodeBlock} {inv : Invocation} {frame : FrameRef}
    (framed : Framed w block inv w₁ frame) :
    block.registers.toInt ≤ (w₁.registers frame).size := by
  cases framed with
  | supplied given enough => exact enough
  | fresh =>
    simp only [World.registers, World.newFrame, Array.getElem?_push_size, Option.getD_some,
      Array.size_replicate]
    omega

/-- A checked block that begins to run is sound, and its frame is not refused. -/
theorem Enters.sound {w : World} {block : CodeBlock} {inv : Invocation} {completion : Completion}
    {n : Next} (enters : Enters w block inv completion n) (valid : block.validate = .ok ())
    (fits : ∀ frame, inv.frame = some frame → block.registers.toInt ≤ (w.registers frame).size) :
    (∀ a, n.control = .code a → a.Sound n.world none) ∧
      ∀ message, n.control ≠ .panic (.message message) := by
  have start := CodeBlock.zero_mem_starts valid
  cases enters with
  | flat framed | nested framed =>
    refine ⟨?_, by simp⟩
    rintro _ ⟨⟩
    exact ⟨valid, framed.fits, start, by simp⟩
  | refused | broken | crowded => simp
  | small given small =>
    have := fits _ given
    omega

namespace Machine

variable {e : Engine} {s s' : State} {height : Nat} {a a' : Activation}
  {await? later? : Option Await}

/-- What becomes of the block at a height as long as it is on the stack: it waits
on as it did, or it has made a transition of its own. -/
theorem Transition.activationAt_cases (transition : Transition e s s')
    (there : s.activationAt height = some (a, await?))
    (next : s'.activationAt height = some (a', later?)) :
    (a' = a ∧ later? = await?) ∨
      ∃ n stack, stack.length = height ∧ s' = ⟨n.world, n.control, n.push ++ stack⟩ ∧
        (await? = none ∧ a.Runs s.world (a.stepPlan e s.world) n ∨
          ∃ await, await? = some await ∧ a.Runs s.world (a.answerPlan s.world await) n) := by
  have reach := State.activationAt_le there
  -- a block that waits below the part of the stack that changes
  have kept : ∀ {rest : List Cont}, s.activationAt height = waitingAt rest height →
      s'.activationAt height = waitingAt rest height → a' = a ∧ later? = await? := by
    intro rest before after
    rw [before, ← after, next] at there
    cases there
    exact ⟨rfl, rfl⟩
  cases transition with
  | rests =>
    rw [there] at next
    cases next
    exact .inl ⟨rfl, rfl⟩
  | @answers w control stack n plain calm =>
    rcases Nat.lt_or_eq_of_le reach with below | rfl
    · exact .inl (kept (State.activationAt_below below []) (State.activationAt_below below n.push))
    · rw [(State.activationAt_top there).1] at plain
      cases plain
  | @passes w r top rest n other calm =>
    rcases Nat.lt_or_eq_of_le reach with below | rfl
    · rcases Nat.lt_or_eq_of_le (Nat.le_of_lt_succ below) with below | rfl
      · exact .inl (kept (State.activationAt_below below [top])
          (State.activationAt_below below n.push))
      · rw [State.activationAt_waiting] at there
        cases top with
        | code => cases other
        | _ => cases there
    · cases (State.activationAt_top there).1
  | @vacant w inv completion stack =>
    rcases Nat.lt_or_eq_of_le reach with below | rfl
    · exact .inl (kept (State.activationAt_below below []) (State.activationAt_below below []))
    · cases (State.activationAt_top there).1
  | @begins w block inv completion stack n enters =>
    rcases Nat.lt_or_eq_of_le reach with below | rfl
    · exact .inl (kept (State.activationAt_below below []) (State.activationAt_below below n.push))
    · cases (State.activationAt_top there).1
  | @runs w b stack n runs =>
    rcases Nat.lt_or_eq_of_le reach with below | rfl
    · exact .inl (kept (State.activationAt_below below []) (State.activationAt_below below n.push))
    · obtain ⟨⟨⟩, rfl⟩ := State.activationAt_top there
      exact .inr ⟨n, stack, rfl, rfl, .inl ⟨rfl, runs⟩⟩
  | @returns w r b await rest n runs =>
    rcases Nat.lt_or_eq_of_le reach with below | rfl
    · rcases Nat.lt_or_eq_of_le (Nat.le_of_lt_succ below) with below | rfl
      · exact .inl (kept (State.activationAt_below below [.code b await])
          (State.activationAt_below below n.push))
      · rw [State.activationAt_waiting] at there
        cases there
        exact .inr ⟨n, rest, rfl, rfl, .inr ⟨await, rfl, runs⟩⟩
    · cases (State.activationAt_top there).1
  | @unwinds w p top rest =>
    rcases Nat.lt_or_eq_of_le reach with below | rfl
    · rcases Nat.lt_or_eq_of_le (Nat.le_of_lt_succ below) with below | rfl
      · exact .inl (kept (State.activationAt_below below [top]) (State.activationAt_below below []))
      · cases (State.activationAt_top next).1
    · cases (State.activationAt_top there).1

/-- A sound block stays sound as long as it is on the stack. -/
theorem Transition.sound (transition : Transition e s s')
    (there : s.activationAt height = some (a, await?)) (sound : a.Sound s.world await?)
    (next : s'.activationAt height = some (a', later?)) : a'.Sound s'.world later? := by
  have grown := World.Extends.transition transition
  rcases transition.activationAt_cases there next with
    ⟨rfl, rfl⟩ | ⟨n, stack, rfl, rfl, ⟨rfl, runs⟩ | ⟨await, rfl, runs⟩⟩
  · exact sound.extends grown
  · rcases sound.poised with ended | ⟨i, poised, inside⟩
    · exact (runs.within sound (Activation.stepPlan_ended ended).1 nofun next).2.1
    · exact (runs.within sound (poised.stepPlan_within sound.valid) inside next).2.1
  · have inside : ∀ place ∈ [await.next], place ∈ a.block.starts := by
      simpa using (sound.waits await rfl).1
    exact (runs.within sound sound.answerPlan_within.1 inside next).2.1

/-! ### Descent -/

/-- What can descend from a run: an invocation, by its height on the stack, or a
closure. -/
inductive Descendant where
  | invocation (height : Nat)
  | closure (ref : ObjRef)

/-- What descends, after so many transitions, from the block that a state is
about to run: its own invocation, the closures that a descending invocation
makes, and the invocations that begin when one of these is called. -/
inductive Descends (e : Engine) (s : State) : Nat → Descendant → Prop
  | root (begun : ((run e 1 s).activationAt s.stack.length).isSome = true) :
      Descends e s 1 (.invocation s.stack.length)
  | lasts {n height : Nat} (descends : Descends e s n (.invocation height))
      (present : ((run e (n + 1) s).activationAt height).isSome = true) :
      Descends e s (n + 1) (.invocation height)
  | made {n : Nat} {ref : ObjRef}
      (descends : Descends e s n (.invocation (run e n s).stack.length))
      (new : (run e n s).world.heap.size ≤ ref) {block : Option CodeBlock}
      {frame : Option FrameRef} {chain : Chain}
      (there : (run e (n + 1) s).world.heap[ref]? = some (.closure block frame chain)) :
      Descends e s (n + 1) (.closure ref)
  | kept {n : Nat} {ref : ObjRef} (descends : Descends e s n (.closure ref)) :
      Descends e s (n + 1) (.closure ref)
  | called {n : Nat} {ref : ObjRef} {r : Request} (descends : Descends e s n (.closure ref))
      (called : (run e n s).control = .dispatch ref r)
      {block : Option CodeBlock} {inv : Invocation} {completion : Completion}
      (begins : (run e (n + 1) s).control = .execute block inv completion)
      (begun : ((run e (n + 2) s).activationAt (run e n s).stack.length).isSome = true) :
      Descends e s (n + 2) (.invocation (run e n s).stack.length)

/-- A descendant keeps to its bounds. -/
def Descendant.Sound (s : State) : Descendant → Prop
  | .invocation height => ∃ a await?, s.activationAt height = some (a, await?) ∧
      a.Sound s.world await?
  | .closure ref => ∃ block frame chain, s.world.heap[ref]? = some (.closure block frame chain) ∧
      ClosureSound s.world block frame

/-- A block that begins to run in a state takes the place on top of the stack. -/
theorem begun_sound {w : World} {block : CodeBlock} {inv : Invocation} {completion : Completion}
    {stack : List Cont} (valid : block.validate = .ok ())
    (fits : ∀ frame, inv.frame = some frame → block.registers.toInt ≤ (w.registers frame).size)
    (begun : ((step e ⟨w, .execute (some block) inv completion, stack⟩).activationAt
      stack.length).isSome = true) :
    (Descendant.invocation stack.length).Sound
      (step e ⟨w, .execute (some block) inv completion, stack⟩) := by
  have enters := enter_enters w block inv completion
  obtain ⟨⟨a, await?⟩, there⟩ := Option.isSome_iff_exists.mp begun
  refine ⟨a, await?, there, ?_⟩
  simp only [step, advance, enters.push, List.nil_append] at there ⊢
  obtain ⟨control, rfl⟩ := State.activationAt_top there
  exact (enters.sound valid fits).1 a control

/-- What a sound invocation makes is sound. -/
theorem made_sound {ref : ObjRef} {block : Option CodeBlock} {frame : Option FrameRef}
    {chain : Chain} (top : s.activationAt s.stack.length = some (a, await?))
    (sound : a.Sound s.world await?) (new : s.world.heap.size ≤ ref)
    (there : (step e s).world.heap[ref]? = some (.closure block frame chain)) :
    (Descendant.closure ref).Sound (step e s) := by
  have grown := World.Extends.transition (step_transition e s)
  refine ⟨block, frame, chain, there, ClosureSound.extends ?_ grown⟩
  obtain ⟨w, control, stack⟩ := s
  obtain ⟨rfl, rfl⟩ := State.activationAt_top top
  have runs := a.advance_runs e w
  rcases sound.poised with ended | ⟨i, poised, -⟩
  · exact runs.closure (Activation.stepPlan_ended ended).1 new there
  · exact runs.closure (poised.stepPlan_within sound.valid) new there

/-- A closure that is called begins to run its own block in its own frame. -/
theorem closure_begins {ref : ObjRef} {r : Request} {block entered : Option CodeBlock}
    {frame : Option FrameRef} {chain : Chain} {inv : Invocation} {completion : Completion}
    (there : s.world.heap[ref]? = some (.closure block frame chain))
    (called : s.control = .dispatch ref r)
    (begins : (step e s).control = .execute entered inv completion) :
    entered = block ∧ inv.frame = frame ∧
      step e s = ⟨(step e s).world, .execute block inv completion, s.stack⟩ := by
  obtain ⟨w, control, stack⟩ := s
  cases called
  obtain ⟨rfl, rfl, -, unpushed⟩ := dispatch_closure e w there begins
  refine ⟨rfl, rfl, ?_⟩
  simp only [step, advance] at begins ⊢
  rw [begins, unpushed, List.nil_append]

/-- What begins when a sound closure is called is sound. -/
theorem called_sound {ref : ObjRef} {r : Request} {block entered : Option CodeBlock}
    {frame : Option FrameRef} {chain : Chain} {inv : Invocation} {completion : Completion}
    (there : s.world.heap[ref]? = some (.closure block frame chain))
    (sound : ClosureSound s.world block frame) (called : s.control = .dispatch ref r)
    (begins : (step e s).control = .execute entered inv completion)
    (begun : ((step e (step e s)).activationAt s.stack.length).isSome = true) :
    (Descendant.invocation s.stack.length).Sound (step e (step e s)) := by
  obtain ⟨sub, rfl, valid, fits⟩ :=
    sound.extends (World.Extends.transition (step_transition e s))
  obtain ⟨rfl, rfl, next⟩ := closure_begins there called begins
  rw [next] at begun ⊢
  exact begun_sound valid fits begun

theorem Descends.sound {w : World} {block : CodeBlock} {inv : Invocation}
    {completion : Completion} {rest : List Cont} {n : Nat} {d : Descendant}
    (valid : block.validate = .ok ())
    (fits : ∀ frame, inv.frame = some frame → block.registers.toInt ≤ (w.registers frame).size)
    (descends : Descends e ⟨w, .execute (some block) inv completion, rest⟩ n d) :
    d.Sound (run e n ⟨w, .execute (some block) inv completion, rest⟩) := by
  generalize same : (⟨w, .execute (some block) inv completion, rest⟩ : State) = s at descends
  induction descends with
  | root begun =>
    subst same
    rw [run_succ] at begun ⊢
    exact begun_sound valid fits begun
  | @lasts n height _ present ih =>
    obtain ⟨a, await?, there, sound⟩ := ih
    obtain ⟨⟨a', later?⟩, next⟩ := Option.isSome_iff_exists.mp present
    have transition := step_transition e (run e n s)
    rw [← run_succ] at transition
    exact ⟨a', later?, next, transition.sound there sound next⟩
  | @made n ref descends new block frame chain there ih =>
    obtain ⟨a, await?, top, sound⟩ := ih
    rw [run_succ] at there ⊢
    generalize run e n s = s at *
    exact made_sound top sound new there
  | @kept n ref _ ih =>
    obtain ⟨block, frame, chain, there, sound⟩ := ih
    have grown := World.Extends.transition (step_transition e (run e n s))
    rw [← run_succ] at grown
    have still := grown.captureAt _ _ (captureAt_closure.mpr there)
    exact ⟨block, frame, chain, captureAt_closure.mp still, sound.extends grown⟩
  | @called n ref r _ called blk inv' completion' begins begun ih =>
    obtain ⟨block', frame, chain, there, sound⟩ := ih
    rw [run_succ] at begins
    rw [run_succ, run_succ] at begun ⊢
    generalize run e n s = s at *
    exact called_sound there sound called begins begun

/-! ### Running within bounds -/

/-- The block that runs executes a decoded instruction: it reads the words that
decoding lays out, all of what they name is there, control stays with the
instruction's successors, and it stops for no reason but a missing marker,
binding or string form. -/
structure StepsWithin (e : Engine) (s : State) (a : Activation) (i : Instruction) : Prop where
  place : a.ip = i.offset
  decoded : Instruction.decode a.block.code i.offset = .ok i
  layout : a.Laid s.world i.length 1 i.opcode.operands i.operands
  reads : a.action e s.world = a.effect e s.world i
  straight : i.opcode.isBranch = false → i.successors = [a.ip + i.length]
  goes : ∀ a' later?, (step e s).activationAt s.stack.length = some (a', later?) →
    a'.block = a.block ∧ (later?.map Await.next).getD a'.ip ∈ i.successors
  stops : ∀ p, (step e s).control = .panic p →
    (∃ message, p = .message message ∧ a.Complains s.world i message) ∨
      p = .invalidAccess ∧ ∃ v, a.WorksOn s.world i v ∧ s.world.textOf v = none

/-- The block that runs has come to the end of its code, or executes a decoded
instruction. -/
theorem steps_within {w : World} {stack : List Cont} (sound : a.Sound w none) :
    (a.ip = a.block.code.size ∧ a.action e w = some (.return .void)) ∨
      ∃ i, StepsWithin e ⟨w, .code a, stack⟩ a i := by
  rcases sound.poised with ended | ⟨i, poised, inside⟩
  · exact .inl ⟨ended, Activation.action_ended ended⟩
  · have runs := a.advance_runs e w
    refine .inr ⟨i, poised.place, poised.decoded, poised.ready.laid, poised.ready.action_eq, ?_, ?_, ?_⟩
    · intro straight
      rw [Instruction.successors_straight straight, poised.place]
    · intro a' later? there
      obtain ⟨same, -, goes, waits⟩ :=
        runs.within sound (poised.stepPlan_within sound.valid) inside there
      refine ⟨same, ?_⟩
      cases later? with
      | none => exact goes rfl
      | some later => exact waits later rfl
    · exact fun p panics => poised.stops (runs.panics panics)

/-- A block that gets its answer goes on where it meant to. -/
theorem answered_within {w : World} {r : Reply} {await : Await} {rest : List Cont}
    (sound : a.Sound w (some await)) :
    (∀ p, (step e ⟨w, .reply r, .code a await :: rest⟩).control ≠ .panic p) ∧
      ∀ a', (step e ⟨w, .reply r, .code a await :: rest⟩).control = .code a' →
        a'.ip = await.next := by
  have runs := a.resume_runs w r await
  refine ⟨fun p panics => sound.answerPlan_within.2 p (runs.panics panics), fun a' goes => ?_⟩
  change (a.resume w r await).control = .code a' at goes
  generalize a.resume w r await = n at runs goes
  cases runs with
  | goes _ _ planned =>
    cases goes
    exact planned
  | asks _ asks =>
    cases goes
    cases asks
  | answers | stops => cases goes

/-- What keeping to its bounds means for a descendant. An invocation stands at
the start of an instruction or at the end of its code; it executes what decodes
there if it runs, and goes on at another start if it waits for an answer that
comes. A closure has a checked block that fits into the frame it shares, which
is not refused when the closure is called. -/
def Descendant.Within (e : Engine) (s : State) : Descendant → Prop
  | .invocation height => ∃ a await?, s.activationAt height = some (a, await?) ∧
      a.block.validate = .ok () ∧ a.ip ∈ a.block.starts ∧
      match await? with
      | none => (a.ip = a.block.code.size ∧ a.action e s.world = some (.return .void)) ∨
          ∃ i, StepsWithin e s a i
      | some await => await.next ∈ a.block.starts ∧
          ∀ r, s.control = .reply r → s.stack.length = height + 1 →
            (∀ p, (step e s).control ≠ .panic p) ∧
            ∀ a', (step e s).control = .code a' → a'.ip = await.next
  | .closure ref => ∃ sub frame chain, s.world.heap[ref]? = some (.closure (some sub) frame chain) ∧
      sub.validate = .ok () ∧
      (∀ f, frame = some f → sub.registers.toInt ≤ (s.world.registers f).size) ∧
      ∀ r block inv completion, s.control = .dispatch ref r →
        (step e s).control = .execute block inv completion →
        block = some sub ∧ ∀ message, (step e (step e s)).control ≠ .panic (.message message)

theorem invocation_within (sound : (Descendant.invocation height).Sound s) :
    (Descendant.invocation height).Within e s := by
  obtain ⟨a, await?, there, sound⟩ := sound
  refine ⟨a, await?, there, sound.valid, sound.place, ?_⟩
  cases await? with
  | none =>
    obtain ⟨w, control, stack⟩ := s
    obtain ⟨-, rfl⟩ := State.activationAt_running there
    exact steps_within sound
  | some await =>
    refine ⟨(sound.waits await rfl).1, fun r answered last => ?_⟩
    obtain ⟨rest, waits⟩ := State.activationAt_answered there last
    obtain ⟨w, control, stack⟩ := s
    cases answered
    cases waits
    exact answered_within sound

theorem closure_within {ref : ObjRef} (sound : (Descendant.closure ref).Sound s) :
    (Descendant.closure ref).Within e s := by
  obtain ⟨block, frame, chain, there, sub, rfl, valid, fits⟩ := sound
  refine ⟨sub, frame, chain, there, valid, fits, fun r block inv completion called begins => ?_⟩
  obtain ⟨rfl, rfl, next⟩ := closure_begins there called begins
  have grown := World.Extends.transition (step_transition e s)
  have enough : ∀ f, inv.frame = some f →
      sub.registers.toInt ≤ ((step e s).world.registers f).size := by
    intro f given
    have := fits f given
    have := grown.registers f
    omega
  rw [next]
  exact ⟨rfl, ((enter_enters _ sub inv completion).sound valid enough).2⟩

/-- A checked block, the closures it makes and what they make in turn run
within their bounds, however long. -/
theorem checked_run_within_bounds (e : Engine) (w : World) (block : CodeBlock) (inv : Invocation)
    (completion : Completion) (rest : List Cont) (valid : block.validate = .ok ())
    (fits : ∀ frame, inv.frame = some frame → block.registers.toInt ≤ (w.registers frame).size)
    (n : Nat) (d : Descendant)
    (descends : Descends e ⟨w, .execute (some block) inv completion, rest⟩ n d) :
    d.Within e (run e n ⟨w, .execute (some block) inv completion, rest⟩) := by
  have sound := descends.sound valid fits
  cases d with
  | invocation height => exact invocation_within sound
  | closure ref => exact closure_within sound

/-- A block that makes a closure of its nested block, to run in its own frame,
calls it and returns the result. -/
def nestedCall : CodeBlock :=
  { code? := some #[21, 0, 0, 23, 1, 0, 0, 0, 33, 1], registers := 2
    blocks := [some { code? := some #[33, 1], registers := 2 }] }

/-- An engine with nothing to call but what blocks make. -/
def plainEngine : Engine :=
  { config := {}, globals := 0, functionClass := none, propertyClass := none
    host := { callable := fun _ => { run := fun _ _ => .finish none none } } }

/-- The closure is made by the second transition and begins to run with the
sixth. -/
theorem nestedCall_within_bounds :
    nestedCall.validate = .ok () ∧
      (Descendant.invocation 1).Within plainEngine
        (run plainEngine 6 ⟨{}, .execute (some nestedCall) {} .result, []⟩) := by
  have valid : nestedCall.validate = .ok () := rfl
  refine ⟨valid, checked_run_within_bounds plainEngine {} nestedCall {} .result [] valid nofun 6 _ ?_⟩
  have made : Descends plainEngine ⟨{}, .execute (some nestedCall) {} .result, []⟩ 2 (.closure 0) :=
    .made (.root rfl) (Nat.zero_le 0) rfl
  exact .called made.kept.kept rfl rfl rfl

end Machine
end ScriptEngine
