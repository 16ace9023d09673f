import ScriptEngine.Embedding
import ScriptEngine.Proofs.References

/-! Whole sessions of a host with an engine. Whatever the host does, every
reference to a shared frame is counted exactly as long as it is needed, provided
the host drops only references it has and keeps the chains that it runs code
under. -/
namespace ScriptEngine

/-- What a host does with shared frames on its own account. -/
inductive FrameUse where
  | alloc (size : Int)
  | retain (handle : FrameHandle)
  | release (handle : FrameHandle)
  | overlay (chain : Chain) (sizes : List Int)
  | retainChain (chain : Chain)
  | releaseChain (chain : Chain)
  | bind (chain : Chain) (this : Value)

namespace FrameUse

/-- Carries out a use; the answer lists the references that the host has gained. -/
def run (w : World) : FrameUse → World × Outcome Chain
  | .alloc size => ((w.allocFrame size).1, (w.allocFrame size).2.map fun h => [h])
  | .retain h => ((w.retainFrame h).1, (w.retainFrame h).2.map fun _ => [h])
  | .release h => ((w.releaseFrame h).1, (w.releaseFrame h).2.map fun _ => [])
  | .overlay chain sizes => w.overlay chain sizes
  | .retainChain chain => ((w.retainChain chain).1, (w.retainChain chain).2.map fun _ => chain)
  | .releaseChain chain => (w.releaseChain chain, .ok [])
  | .bind chain this => ((w.newBinding chain this).1, (w.newBinding chain this).2.map fun _ => [])

/-- The references that the host gives up. -/
def drops : FrameUse → Chain
  | .release h => [h]
  | .releaseChain chain => chain
  | _ => []

/-- What a use may take. -/
def demand : FrameUse → Arena.Demand
  | .alloc size => { fresh := [size] }
  | .retain h => { chain := [h] }
  | .overlay chain sizes => .ofLayers (Arena.layers chain sizes)
  | .retainChain chain | .bind chain _ => { chain }
  | .release _ | .releaseChain _ => {}

end FrameUse

/-- The references that a host has gained. -/
def Outcome.gains : Outcome Chain → Chain
  | .ok chain => chain
  | _ => []

/-- An engine at work, and the references that its host holds. -/
structure Session where
  machine : State
  held : Chain := []

namespace Session

/-- One step of a session. The host may use shared frames at any time, code may
run only when the last answer is there. -/
inductive Step (e : Engine) : Session → Session → Prop
  | runs {s : State} {held : Chain}
      (meets : s.world.arena.Meets (s.references held) (s.demand e)) :
      Step e ⟨s, held⟩ ⟨Machine.step e s, held⟩
  | operates {s : State} {held : Chain} (rests : s.isFinal = true) (target : Value) (r : Request) :
      Step e ⟨s, held⟩ ⟨⟨s.world, .operate target r, []⟩, held⟩
  | executes {s : State} {held : Chain} (rests : s.isFinal = true) (block : Option CodeBlock)
      (inv : Invocation) (keeps : ∀ h ∈ inv.shared, h ∈ held ++ s.world.captured) :
      Step e ⟨s, held⟩ ⟨⟨s.world, .execute block inv .result, []⟩, held⟩
  | evaluates {s : State} {held : Chain} {ref : ObjRef} {chain : Chain} {this : Value}
      {names : Table BindingSlot} {n : Next} (rests : s.isFinal = true)
      (there : s.world.heap[ref]? = some (.binding chain this names)) (source : Text)
      (next : evaluate e s.world chain this names source = n) :
      Step e ⟨s, held⟩ ⟨⟨n.world, n.control, n.push⟩, held⟩
  | uses {s : State} {held rest : Chain} {w : World} {outcome : Outcome Chain}
      (use : FrameUse) (drops : held.Perm (use.drops ++ rest))
      (keeps : ∀ h ∈ s.borrowed, h ∈ rest ++ s.world.captured)
      (meets : s.world.arena.Meets (s.references held) use.demand)
      (done : use.run s.world = (w, outcome)) :
      Step e ⟨s, held⟩ ⟨{ s with world := w }, outcome.gains ++ rest⟩
  | changes {s : State} {held : Chain} {w : World} (evolves : World.Evolves s.world w) :
      Step e ⟨s, held⟩ ⟨{ s with world := w }, held⟩

/-- The sessions that a host can come to with a new engine. -/
def Reachable (e : Engine) (s : Session) : Prop :=
  ∃ w capacity, w.captured = [] ∧ w.arena = { capacity } ∧
    Relation.ReflTransGen (Step e) ⟨⟨w, .reply (.done none), []⟩, []⟩ s

end Session

/-! ### Uses of shared frames -/

section Uses

variable {w : World} {others : Chain}

theorem arenaOutcome_balanced {α : Type} (w : World) {ledger asked : Chain} {gains : α → Chain}
    {acquired : Arena.Acquired α} (booked : Arena.Booked ledger asked gains acquired) :
    (w.arenaOutcome acquired).1.arena.Balanced
      (((w.arenaOutcome acquired).2.map gains).gains ++ ledger) ∧
      (w.arenaOutcome acquired).1.captured = w.captured := by
  cases booked with
  | made balanced => exact ⟨balanced, rfl⟩
  | failed balanced => exact ⟨balanced, rfl⟩

theorem gains_map_id (outcome : Outcome Chain) : (outcome.map id).gains = outcome.gains := by
  cases outcome <;> rfl

/-- A use of shared frames is booked: what it gains is added, what it drops is
gone. -/
theorem FrameUse.balanced (use : FrameUse)
    (balanced : w.arena.Balanced (use.drops ++ others ++ w.captured))
    (meets : w.arena.Meets (use.drops ++ others ++ w.captured) use.demand) :
    (use.run w).1.arena.Balanced ((use.run w).2.gains ++ others ++ (use.run w).1.captured) ∧
      ∀ h ∈ w.captured, h ∈ (use.run w).1.captured := by
  cases use with
  | alloc size =>
    have slots := meets.slots
    have room := meets.room size
    simp only [demand, List.length_singleton, List.mem_singleton, forall_const] at slots room
    simp only [run, World.allocFrame]
    rcases balanced.alloc (fun _ => slots) room with full | ⟨b, h, made, -, balanced', -⟩
    · rw [full]
      exact ⟨balanced, fun _ member => member⟩
    · rw [made]
      exact ⟨balanced', fun _ member => member⟩
  | retain h =>
    have room : (((others ++ w.captured).count h : Nat) : Int) < Int32.maxValue.toInt := by
      have := meets.counts h
      simp only [demand, drops, List.count_singleton_self] at this
      exact Int.lt_trans (Int.lt_succ _) this
    simp only [run, World.retainFrame]
    cases retained : w.arena.retain? h with
    | none => exact ⟨balanced, fun _ member => member⟩
    | some arena => exact ⟨(balanced.retain retained room).1, fun _ member => member⟩
  | release h =>
    have balanced' : w.arena.Balanced (h :: (others ++ w.captured)) := balanced
    obtain ⟨f, there⟩ := balanced'.exists_frame List.mem_cons_self
    have released := balanced'.release
    simp only [run, World.releaseFrame]
    split
    next stale =>
      simp only [Arena.release, there] at stale
      split at stale <;> cases stale
    next arena outcome _ dropped =>
      rw [dropped] at released
      exact ⟨released, fun _ member => member⟩
  | overlay chain sizes =>
    obtain ⟨balanced', captured⟩ := arenaOutcome_balanced w (balanced.overlay meets)
    rw [gains_map_id] at balanced'
    simp only [run, World.overlay, captured, List.append_assoc]
    exact ⟨balanced', fun _ member => member⟩
  | retainChain chain =>
    obtain ⟨balanced', captured⟩ := arenaOutcome_balanced w (balanced.retainChain meets)
    simp only [run, World.retainChain, captured, List.append_assoc]
    exact ⟨balanced', fun _ member => member⟩
  | releaseChain chain =>
    simp only [drops, List.append_assoc] at balanced
    exact ⟨balanced.releaseChain, fun _ member => member⟩
  | bind chain this =>
    obtain ⟨balanced', captured⟩ := arenaOutcome_balanced w (balanced.retainChain meets)
    simp only [run, World.newBinding, World.retainChain]
    split
    next w' retained =>
      rw [retained] at balanced' captured
      rw [World.create_captured, captured]
      refine ⟨balanced'.congr fun h => ?_, fun h member => List.mem_append_left _ member⟩
      simp only [List.count_append, Object.captured, Outcome.gains, Outcome.map, drops,
        List.count_nil]
      omega
    all_goals
      rename_i refused
      rw [refused] at balanced' captured
      rw [captured]
      exact ⟨balanced', fun _ member => member⟩

end Uses

/-! ### Sessions -/

/-- At rest nothing runs and nothing waits. -/
theorem State.eq_of_isFinal {s : State} (rests : s.isFinal = true) :
    s.control.activation? = none ∧ s.control.borrowed = [] ∧ s.stack = [] := by
  obtain ⟨w, control, stack⟩ := s
  cases control <;> cases stack <;> first | exact ⟨rfl, rfl, rfl⟩ | cases rests

theorem State.overlays_of_isFinal {s : State} (rests : s.isFinal = true) : s.overlays = [] := by
  obtain ⟨idle, -, stack⟩ := State.eq_of_isFinal rests
  simp [State.overlays, State.running, waiting, idle, stack]

namespace Session

variable {e : Engine} {s s' : Session}

/-- Everything that a session refers to is accounted for. -/
def Accounted (s : Session) : Prop := s.machine.Accounted s.held

theorem Step.accounted (step : Step e s s') (accounted : s.Accounted) : s'.Accounted := by
  cases step with
  | runs meets => exact (Machine.step_transition e _).accounted accounted meets
  | @operates s held rests target r =>
    have balanced := accounted.balanced
    simp only [State.references, State.overlays_of_isFinal rests] at balanced
    exact .idle balanced (by simp [waiting]) (by simp [Control.borrowed, waiting]) rfl
  | @executes s held rests block inv keeps =>
    have balanced := accounted.balanced
    simp only [State.references, State.overlays_of_isFinal rests] at balanced
    exact .idle balanced (by simp [waiting]) (by simpa [Control.borrowed, waiting] using keeps) rfl
  | @evaluates s held ref chain this names n rests there source next =>
    obtain ⟨idle, -, stack⟩ := State.eq_of_isFinal rests
    have calm := evaluate_calm e s.world there source
    rw [next] at calm
    have same : waiting [] = waiting s.stack := by rw [stack]
    have later := calm.accounted accounted idle same
    rw [List.append_nil] at later
    exact later
  | @uses s held rest w outcome use drops keeps meets done =>
    have count : ∀ h, held.count h = use.drops.count h + rest.count h := by
      intro h
      rw [drops.count_eq, List.count_append]
    have before : ∀ h, (use.drops ++ (s.overlays ++ rest) ++ s.world.captured).count h =
        (s.references held).count h := by
      intro h
      simp only [State.references, List.count_append, count]
      omega
    obtain ⟨balanced, grown⟩ := use.balanced (accounted.balanced.congr before) (meets.congr before)
    rw [done] at balanced grown
    refine ⟨balanced.congr fun h => ?_, accounted.owned, fun h member => ?_⟩
    · simp only [State.references, List.count_append, State.overlays, State.running]
      omega
    · have kept := keeps h member
      simp only [List.mem_append] at kept ⊢
      exact kept.elim (fun member => .inl (.inr member)) fun member => .inr (grown h member)
  | @changes s held w evolves =>
    refine ⟨?_, accounted.owned, ?_⟩
    · simp only [State.references, evolves.captured_eq]
      exact evolves.balanced accounted.balanced
    · simp only [evolves.captured_eq]
      exact accounted.borrowed

theorem Reachable.accounted (reachable : s.Reachable e) : s.Accounted := by
  obtain ⟨w, capacity, none, fresh, steps⟩ := reachable
  induction steps with
  | refl =>
    refine .idle ?_ (by simp [waiting]) (by simp [Control.borrowed, waiting]) rfl
    rw [none, fresh]
    exact .empty capacity
  | tail _ step ih => exact step.accounted ih

/-- A run keeps the accounts as long as each transition can have what it asks
for. -/
theorem run_accounted {machine : State} {held : Chain} (accounted : machine.Accounted held)
    (fuel : Nat) (meets : ∀ n < fuel, (Machine.run e n machine).world.arena.Meets
      ((Machine.run e n machine).references held) ((Machine.run e n machine).demand e)) :
    (Machine.run e fuel machine).Accounted held := by
  induction fuel with
  | zero => exact accounted
  | succ fuel ih =>
    rw [Machine.run_succ]
    have earlier := ih fun n below => meets n (Nat.lt_succ_of_lt below)
    exact (Machine.step_transition e _).accounted earlier (meets fuel (Nat.lt_succ_self fuel))

end Session

/-- An execution that has come to its end has done so in the machine. -/
theorem Engine.execute_ended {e : Engine} {fuel : Nat} {w w' : World} {block : Option CodeBlock}
    {inv : Invocation} {outcome : Outcome Value}
    (executed : e.execute fuel w block inv = (w', outcome)) (ended : outcome ≠ .unfinished) :
    (Machine.run e fuel ⟨w, .execute block inv .result, []⟩).isFinal = true ∧
      World.Evolves (Machine.run e fuel ⟨w, .execute block inv .result, []⟩).world w' := by
  unfold Engine.execute at executed
  generalize Machine.run e fuel ⟨w, .execute block inv .result, []⟩ = s at executed ⊢
  obtain ⟨w₁, control, stack⟩ := s
  cases stack with
  | cons top rest =>
    cases control <;> cases executed <;> exact absurd rfl ended
  | nil =>
    cases control with
    | reply r =>
      have evolves := World.insist_evolves w₁ [] r
      simp only [State.outcome, insisted] at executed
      split at executed <;> rename_i same <;> rw [same] at evolves <;> cases executed <;>
        exact ⟨rfl, evolves⟩
    | panic p =>
      cases executed
      exact ⟨rfl, .refl w₁⟩
    | _ =>
      cases executed
      exact absurd rfl ended

namespace Session

/-- In every reachable session each frame counts the references of the running
blocks that declare nested levels, of everything that captured a chain, and of
the host, and it is there exactly as long as there is one. No access of running
code finds a frame gone, and an execution after which nothing more is captured
leaves all counts as they were. -/
theorem references_exact (e : Engine) {s : Session} (reachable : s.Reachable e) :
    (∀ h, (s.machine.world.arena.refs? h).map Int32.toInt =
      counted (s.machine.overlays.count h + s.machine.world.captured.count h + s.held.count h)) ∧
    (s.machine.world.arena.Meets (s.machine.references s.held) (s.machine.demand e) →
      s.machine.NeverStale e) ∧
    ∀ block inv fuel w outcome, s.machine.isFinal = true →
      (∀ h ∈ inv.shared, h ∈ s.held ++ s.machine.world.captured) →
      (∀ n < fuel,
        let running := Machine.run e n ⟨s.machine.world, .execute block inv .result, []⟩
        running.world.arena.Meets (running.references s.held) (running.demand e)) →
      e.execute fuel s.machine.world block inv = (w, outcome) → outcome ≠ .unfinished →
      w.captured = s.machine.world.captured →
      (∀ h, w.arena.refs? h = s.machine.world.arena.refs? h) ∧
        w.arena.live = s.machine.world.arena.live := by
  have accounted := reachable.accounted
  refine ⟨fun h => ?_, fun meets => accounted.neverStale meets, ?_⟩
  · rw [accounted.balanced.refs, State.references, List.count_append, List.count_append,
      Nat.add_right_comm]
  · intro block inv fuel w outcome rests keeps meets executed ended same
    obtain ⟨final, evolves⟩ := Engine.execute_ended executed ended
    have started := (Step.executes (e := e) rests block inv keeps).accounted accounted
    have later := run_accounted started fuel meets
    have before := accounted.balanced
    have after := evolves.balanced later.balanced
    rw [State.references, State.overlays_of_isFinal final, ← evolves.captured_eq, same] at after
    rw [State.references, State.overlays_of_isFinal rests] at before
    refine ⟨fun h => ?_, after.live_eq before⟩
    exact Option.map_injective (fun _ _ => Int32.toInt_inj.mp)
      ((after.refs h).trans (before.refs h).symm)

/-- A host that does nothing when it is called. -/
def quietHost : Host := { callable := fun _ => { run := fun _ _ => .finish none none } }

/-- A block that declares two levels and returns a closure over them. -/
def capturing : CodeBlock :=
  { code? := some #[22, 0, 0, 33, 0], registers := 1, nestLevel := 2, sharedSizes? := some [1, 1]
    blocks := [some { code? := some #[] }] }

/-- A new engine with a frame of the host, about to run the block under it. -/
def capturingCall : State :=
  ⟨(FrameUse.run (Engine.start {} quietHost).2 (.alloc 1)).1,
    .execute (some capturing) { shared := [⟨0, 1⟩] } .result, []⟩

/-- While the block waits to return, the frame has a reference from the block,
one from the closure and one from the host. -/
theorem capturing_references :
    let e := (Engine.start {} quietHost).1
    let s : Session := ⟨Machine.run e 2 capturingCall, [⟨0, 1⟩]⟩
    s.Reachable e ∧ (s.machine.world.arena.refs? ⟨0, 1⟩).map Int32.toInt = counted (1 + 1 + 1) := by
  intro e s
  have allocated : Step e ⟨⟨(Engine.start {} quietHost).2, .reply (.done none), []⟩, []⟩
      ⟨⟨capturingCall.world, .reply (.done none), []⟩, [⟨0, 1⟩]⟩ :=
    .uses (.alloc 1) (List.Perm.refl _) (fun _ member => absurd member List.not_mem_nil)
      (.of_few (by decide) (by decide) (by decide)) rfl
  have started : Step e ⟨⟨capturingCall.world, .reply (.done none), []⟩, [⟨0, 1⟩]⟩
      ⟨capturingCall, [⟨0, 1⟩]⟩ := .executes rfl _ _ (by simp)
  have entered : Step e ⟨capturingCall, [⟨0, 1⟩]⟩ ⟨Machine.step e capturingCall, [⟨0, 1⟩]⟩ :=
    .runs (.of_few (by decide +kernel) (by decide +kernel) (by decide +kernel))
  have captured : Step e ⟨Machine.step e capturingCall, [⟨0, 1⟩]⟩ s := by
    have twice : s = ⟨Machine.step e (Machine.step e capturingCall), [⟨0, 1⟩]⟩ := by
      simp only [s, Machine.run_succ]
      rfl
    rw [twice]
    exact .runs (.of_few (by decide +kernel) (by decide +kernel) (by decide +kernel))
  have reachable : s.Reachable e :=
    ⟨_, 0, rfl, rfl, .tail (.tail (.tail (.single allocated) started) entered) captured⟩
  have running : s.machine.overlays.count ⟨0, 1⟩ = 1 := by decide +kernel
  have capture : s.machine.world.captured.count ⟨0, 1⟩ = 1 := by decide +kernel
  have exact := (references_exact e reachable).1 ⟨0, 1⟩
  rw [running, capture] at exact
  exact ⟨reachable, exact⟩

/-- A block that declares a level without room for it. -/
def oversized : CodeBlock := { code? := some #[], nestLevel := 1, sharedSizes? := some [9007199254740992] }

/-- Running it leaves a frame behind that nothing refers to. -/
theorem oversized_leaks :
    let e := (Engine.start {} quietHost).1
    let w := (e.execute 1 (Engine.start {} quietHost).2 (some oversized) {}).1
    oversized.validate = .ok () ∧ w.captured = [] ∧ w.arena.refs? ⟨0, 1⟩ = some 1 :=
  ⟨rfl, rfl, rfl⟩

end Session
end ScriptEngine
