import ScriptEngine.Proofs.Delivery
import ScriptEngine.Proofs.Turns

/-! What traces record: the boundaries of blocks that a signal crossed, each once,
and nothing else. A signal is new without a trace, and gets a point with every
block that ends with it, at the instruction where that block stood. -/
namespace ScriptEngine

open World

/-- What travels with a signal. -/
def Signal.raised : Signal → Raised
  | .thrown v _ _ => .thrown v
  | .exit id target v _ => .exit id target v

theorem Signal.trace_annotated (s : Signal) (p : TracePoint) :
    (s.annotated p).trace = s.trace ++ [p] := by
  cases s <;> simp [annotated, trace]

namespace World

variable {w w₁ w₂ w₃ : World} {ref : SignalRef} {signal : Signal}

/-- The boundaries that a signal has crossed; none while it is not there. -/
def traceOf (w : World) (ref : SignalRef) : List TracePoint :=
  ((w.signals[ref]?).map Signal.trace).getD []

theorem traceOf_eq (there : w.signals[ref]? = some signal) : w.traceOf ref = signal.trace := by
  rw [traceOf, there]
  rfl

/-- Signals stay as they are, and new ones have crossed nothing. -/
structure Quiet (w w' : World) : Prop where
  kept : ∀ (ref : SignalRef) (signal : Signal), w.signals[ref]? = some signal →
    w'.signals[ref]? = some signal
  fresh : ∀ (ref : SignalRef) (signal : Signal), w.signals[ref]? = none →
    w'.signals[ref]? = some signal → signal.trace = []

namespace Quiet

theorem same (signals : w₂.signals = w₁.signals) : Quiet w₁ w₂ where
  kept _ _ there := signals ▸ there
  fresh _ _ absent there := by rw [signals, absent] at there; cases there

theorem refl (w : World) : Quiet w w := same rfl

/-- What has crossed nothing while it was new stays so. -/
theorem trace_eq (quiet : Quiet w₁ w₂) (there : w₂.signals[ref]? = some signal) :
    signal.trace = w₁.traceOf ref := by
  cases before : w₁.signals[ref]? with
  | none => rw [quiet.fresh ref signal before there, traceOf, before]; rfl
  | some old =>
    obtain rfl := Option.some.inj ((quiet.kept ref old before).symm.trans there)
    exact (traceOf_eq before).symm

theorem traceOf_eq (quiet : Quiet w₁ w₂) (ref : SignalRef) : w₂.traceOf ref = w₁.traceOf ref := by
  cases after : w₂.signals[ref]? with
  | some signal => rw [World.traceOf_eq after, quiet.trace_eq after]
  | none =>
    have before : w₁.signals[ref]? = none := by
      refine Option.eq_none_iff_forall_ne_some.mpr fun signal there => ?_
      rw [quiet.kept ref signal there] at after
      cases after
    rw [traceOf, traceOf, after, before]

theorem trans (first : Quiet w₁ w₂) (second : Quiet w₂ w₃) : Quiet w₁ w₃ where
  kept ref signal there := second.kept ref signal (first.kept ref signal there)
  fresh ref signal absent there := by
    rw [second.trace_eq there, first.traceOf_eq, traceOf, absent]
    rfl

theorem act (act : Act w₁ w₂) : Quiet w₁ w₂ := by
  cases act with
  | raise s untraced =>
    have pushed (ref : SignalRef) : (w₁.signals.push s)[ref]? =
        if ref = w₁.signals.size then some s else w₁.signals[ref]? := Array.getElem?_push
    refine ⟨fun ref signal there => ?_, fun ref signal absent there => ?_⟩
    · have inside := (Array.getElem?_eq_some_iff.mp there).1
      exact (pushed ref).trans (by rw [if_neg (Nat.ne_of_lt inside), there])
    · rw [World.raise, pushed, absent] at there
      split at there <;> cases there
      exact untraced
  | modifyScript target f keeps =>
    rcases modifyScript_eq w₁ target f with same | ⟨o, there, same⟩ <;> rw [same] <;>
      exact .same rfl
  | bindName target name slot =>
    rcases bindName_eq w₁ target name slot with same | ⟨chain, this, names, there, same⟩ <;>
      rw [same] <;> exact .same rfl
  | create | store | report | print | setLock => exact .same rfl

theorem acts (acts : Acts w₁ w₂) : Quiet w₁ w₂ :=
  acts.keeps (P := Quiet w₁) (fun act quiet => quiet.trans (.act act)) (.refl w₁)

theorem takes {a : Activation} {makes : Object → Prop} (takes : a.Takes w makes w₁) :
    Quiet w w₁ := by
  cases takes <;> exact .same rfl

theorem stores {frame : FrameRef} {dst : Option Nat} (stores : w.Stores frame dst w₁) :
    Quiet w w₁ := by
  cases stores <;> exact .same rfl

end Quiet

/-- A point is added to the trace of the signal that a failure carries. -/
theorem annotate_trace {f : Fault} {p : TracePoint}
    (there : (w.annotate f p).signals[ref]? = some signal) :
    signal.trace = w.traceOf ref ++ if f.signal? = some ref then [p] else [] := by
  unfold annotate at there
  split at there
  next carried found =>
    rw [found]
    simp only [Array.getElem?_modify] at there
    split at there
    next here =>
      subst here
      obtain ⟨old, before, rfl⟩ := Option.map_eq_some_iff.mp there
      rw [if_pos rfl, Signal.trace_annotated, traceOf_eq before]
    next other =>
      rw [if_neg (fun same => other (Option.some.inj same)), List.append_nil, traceOf_eq there]
  next outside => rw [outside, if_neg (by simp), List.append_nil, traceOf_eq there]

end World

/-! ### Crossing a boundary -/

namespace State

/-- The block that ends with a failure in the next transition, and the failure. -/
def leaves? (e : Engine) (s : State) : Option (Activation × Fault) :=
  match s.turn?, (Machine.step e s).control with
  | some a, .reply (.failed _ f) => some (a, f)
  | _, _ => none

/-- The boundary that a signal crosses in the next transition. -/
def crossing? (e : Engine) (s : State) (ref : SignalRef) : Option TracePoint :=
  (s.leaves? e).bind fun (a, f) =>
    if f.signal? = some ref then some (a.block.tracePoint a.ip) else none

/-- The thrown value that a branch of the block at a height takes in the next
transition. -/
def catchAt? (s : State) (height : Nat) : Option SignalRef :=
  match s.activationAt height with
  | some (a, none) => a.catches? s.world
  | _ => none

end State

namespace Machine

/-- The boundaries that a signal crosses in a run, in their order. -/
def crossings (e : Engine) (s : State) (ref : SignalRef) : Nat → List TracePoint
  | 0 => []
  | n + 1 => crossings e s ref n ++ ((run e n s).crossing? e ref).toList

/-- The thrown value that the invocation which a state is about to begin took
last. -/
def lastCaught (e : Engine) (s : State) : Nat → Option SignalRef
  | 0 => none
  | n + 1 => ((run e n s).catchAt? s.stack.length).or (lastCaught e s n)

variable {e : Engine} {s : State} {a : Activation} {await? : Option Await} {ref : SignalRef}
  {signal : Signal} {n : Next}

/-- A transition that is not the turn of a block adds to no trace. -/
theorem step_quiet (e : Engine) (idle : s.turn? = none) : s.world.Quiet (step e s).world := by
  rcases step_idle e idle with acts | ⟨_, _, _, _, enters, same⟩ | ⟨_, same⟩
  · exact .acts acts
  · exact .same (same ▸ enters.parts.2.1)
  · exact .same (same ▸ rfl)

/-- One transition adds to a trace the boundary that its signal crosses, if it
does, and nothing else. -/
theorem step_trace (there : (step e s).world.signals[ref]? = some signal) :
    signal.trace = s.world.traceOf ref ++ (s.crossing? e ref).toList := by
  cases whose : s.turn? with
  | none =>
    simp only [State.crossing?, State.leaves?, whose, Option.bind_none, Option.toList_none,
      List.append_nil]
    exact (step_quiet e whose).trace_eq there
  | some a =>
    obtain ⟨await?, n, turns, stepped⟩ := step_turns e whose
    obtain ⟨plan, dst, taken, turn⟩ := turns.turn
    simp only [State.crossing?, State.leaves?, whose, stepped] at there ⊢
    have quietly {w' : World} (quiet : s.world.Quiet w') (same : n.world.signals = w'.signals) :
        signal.trace = s.world.traceOf ref ++ (none : Option TracePoint).toList := by
      rw [same] at there
      simpa using quiet.trace_eq there
    cases turn with
    | goes takes acts stores =>
      exact quietly (((Quiet.takes takes).trans (.acts acts)).trans (.stores stores)) rfl
    | asks acts asks => cases asks <;> exact quietly (.acts acts) rfl
    | returns v => exact quietly (.refl _) rfl
    | stops takes acts stores =>
      exact quietly (((Quiet.takes takes).trans (.acts acts)).trans (.stores stores)) rfl
    | fails f takes acts =>
      have quiet := (Quiet.takes takes).trans (.acts acts)
      rw [annotate_trace there, quiet.traceOf_eq]
      simp only [Option.bind_some]
      split <;> rfl

theorem step_keeps (e : Engine) (s : State) (there : s.world.signals[ref]? = some signal) :
    ∃ later, (step e s).world.signals[ref]? = some later ∧ later.bare = signal.bare := by
  cases whose : s.turn? with
  | none => exact ⟨signal, (step_quiet e whose).kept ref signal there, rfl⟩
  | some a =>
    obtain ⟨await?, n, turns, stepped⟩ := step_turns e whose
    obtain ⟨plan, dst, taken, turn⟩ := turns.turn
    rw [stepped]
    cases turn with
    | goes takes acts stores | stops takes acts stores =>
      have quiet := ((Quiet.takes takes).trans (.acts acts)).trans (.stores stores)
      exact ⟨signal, quiet.kept ref signal there, rfl⟩
    | asks acts => exact ⟨signal, (Quiet.acts acts).kept ref signal there, rfl⟩
    | returns v => exact ⟨signal, there, rfl⟩
    | @fails w₁ w₂ f takes acts =>
      have quiet := (Quiet.takes takes).trans (.acts acts)
      exact (World.Change.annotate w₂ f (a.block.tracePoint a.ip)).keeps.signals ref signal
        (quiet.kept ref signal there)

/-- A run adds to a trace the boundaries that its signal crosses, in their order,
and changes nothing else of it. -/
theorem run_trace (e : Engine) (there : s.world.signals[ref]? = some signal) (n : Nat) :
    ∃ later, (run e n s).world.signals[ref]? = some later ∧ later.bare = signal.bare ∧
      later.trace = signal.trace ++ crossings e s ref n := by
  induction n with
  | zero => exact ⟨signal, there, rfl, (List.append_nil _).symm⟩
  | succ n ih =>
    obtain ⟨mid, found, same, traced⟩ := ih
    obtain ⟨later, found', same'⟩ := step_keeps e (run e n s) found
    rw [run_succ]
    refine ⟨later, found', same'.trans same, ?_⟩
    rw [step_trace found', traceOf_eq found, traced, crossings, List.append_assoc]

/-! ### The end of an invocation -/

/-- An invocation runs the block that it was begun with, and remembers the thrown
value that it took last. -/
theorem Lasts.remembers {block : CodeBlock} {inv : Invocation} {completion : Completion}
    (begins : s.control = .execute (some block) inv completion) {n : Nat} (lasts : Lasts e s n)
    (there : (run e n s).activationAt s.stack.length = some (a, await?)) :
    a.block = block ∧ a.caught = lastCaught e s n := by
  refine Lasts.keeps (P := fun n a _ => a.block = block ∧ a.caught = lastCaught e s n) begins
    ?_ ?_ ?_ lasts there
  · intro a b next same enters running stepped
    cases same
    have idle : s.catchAt? s.stack.length = none := by
      simp [State.catchAt?, State.activationAt, begins]
    have uncaught : lastCaught e s 1 = none := by simp [lastCaught, run, idle]
    cases enters with
    | flat | nested => cases running; exact ⟨rfl, uncaught.symm⟩
    | refused | broken | crowded | small => cases running
  · intro n a await positive below there held
    refine ⟨held.1, ?_⟩
    simp only [lastCaught, State.catchAt?, there]
    exact held.2
  · intro n a await? next a' later? positive height turns stepped there held
    have now := turns.activationAt
    rw [← height] at now
    rw [stepped, height] at there
    simp only [lastCaught, State.catchAt?, now]
    generalize run e n s = t at turns there
    cases turns with
    | goes turn =>
      rcases turn.stays there with ⟨rfl, place, -, rfl⟩ | ⟨await, rfl, -, rfl⟩ <;> exact held
    | @runs w _ stack _ turn =>
      cases read : a.action e w with
      | none =>
        rw [read, Activation.stepPlan, read] at turn
        rcases turn.stays there with ⟨-, place, planned, -⟩ | ⟨await, -, planned, -⟩ <;>
          cases planned
      | some action =>
        have caught := (Activation.action_effects read).2
        rw [read, Activation.stepPlan, read] at turn
        rcases turn.stays there with ⟨rfl, place, -, rfl⟩ | ⟨await, rfl, ⟨_, _, _, rfl⟩, rfl⟩
        · exact ⟨held.1, by simp only [Option.bind_some, caught, held.2]⟩
        · exact ⟨held.1, by simp only [← caught, Action.taken?, Option.none_or, held.2]⟩

/-- An invocation that ends with a failure had its turn, or never began. -/
theorem Lasts.ends {block : CodeBlock} {inv : Invocation} {completion : Completion}
    (begins : s.control = .execute (some block) inv completion) {n : Nat} (lasts : Lasts e s n)
    {written : Option Value} {f : Fault}
    (ended : (run e (n + 1) s).stack.length = s.stack.length)
    (failed : (run e (n + 1) s).control = .reply (.failed written f))
    (carried : f.signal? = some ref) :
    ∃ a, (run e n s).leaves? e = some (a, f) ∧ a.block = block := by
  cases n with
  | zero =>
    obtain ⟨w, control, stack⟩ := s
    cases begins
    have enters := enter_enters w block inv completion
    have control : (enter w block inv completion).control = .reply (.failed written f) := failed
    generalize enter w block inv completion = next at enters control
    cases enters with
    | refused => cases control; cases carried
    | flat | nested | broken | crowded | small => cases control
  | succ n =>
    obtain ⟨⟨a, await?⟩, there⟩ :=
      Option.isSome_iff_exists.mp (lasts n (Nat.lt_succ_self n))
    obtain ⟨same, -⟩ := lasts.remembers begins there
    rw [run_succ] at ended failed
    refine ⟨a, ?_, same⟩
    generalize run e (n + 1) s = t at *
    rcases activationAt_step e there with below | ⟨height, next, turns, stepped⟩ |
      ⟨-, ⟨p, panics⟩, -⟩
    · obtain ⟨pushed, grown⟩ := step_base e t
      rw [grown, List.length_append] at ended
      omega
    · have whose : t.turn? = some a := by cases turns <;> rfl
      rw [State.leaves?, whose, failed]
    · obtain ⟨w, control, stack⟩ := t
      cases panics
      cases stack <;> cases failed

/-- What throws a value goes on throwing it. -/
theorem step_thrown (e : Engine) (s : State) {v : Value} (thrown : s.world.thrown? ref = some v) :
    (step e s).world.thrown? ref = some v := by
  obtain ⟨crossed, cause, there⟩ := thrown?_eq_some.mp thrown
  obtain ⟨later, there, same⟩ := step_keeps e s there
  cases later with
  | exit => cases same
  | thrown =>
    cases same
    exact thrown?_eq_some.mpr ⟨_, _, there⟩

/-- What an invocation remembers was thrown. -/
theorem lastCaught_thrown (e : Engine) (s : State) (n : Nat) (last : lastCaught e s n = some ref) :
    ∃ v, (run e n s).world.thrown? ref = some v := by
  induction n with
  | zero => cases last
  | succ n ih =>
    rw [lastCaught, Option.or_eq_some_iff] at last
    obtain ⟨v, thrown⟩ : ∃ v, (run e n s).world.thrown? ref = some v := by
      rcases last with now | ⟨-, before⟩
      · unfold State.catchAt? at now
        split at now
        · exact Activation.catches?_thrown now
        · cases now
      · exact ih before
    exact ⟨v, run_succ e n s ▸ step_thrown e _ thrown⟩

/-- A throw raises what was caught last again, if it throws the same value; otherwise
it raises the value anew. -/
theorem throw_leaves {w : World} {stack : List Cont} {v : Value} (opcode : a.opcode? = some .throw)
    (read : a.register? w 1 = some v) :
    (∃ ref, a.caught = some ref ∧ w.thrown? ref = some v ∧
        State.leaves? e ⟨w, .code a, stack⟩ = some (a, .signal ref)) ∨
      (∀ ref ∈ a.caught, w.thrown? ref ≠ some v) ∧
        State.leaves? e ⟨w, .code a, stack⟩ = some (a, .signal w.signals.size) := by
  have action : a.action e w = a.actionOf e w .throw := Activation.action_of_opcode? opcode
  simp only [Activation.actionOf, read, Option.bind_eq_bind, Option.bind_some] at action
  have anew (other : a.action e w = some (.throwValue v)) :
      State.leaves? e ⟨w, .code a, stack⟩ = some (a, .signal w.signals.size) := by
    simp only [State.leaves?, State.turn?, step, advance, Activation.advance, other]
    rfl
  cases caught : a.caught with
  | none =>
    rw [caught] at action
    exact .inr ⟨by simp, anew action⟩
  | some ref =>
    rw [caught, Option.bind_some] at action
    cases thrown : w.thrown? ref with
    | none =>
      rw [thrown] at action
      refine .inr ⟨?_, anew action⟩
      rintro _ ⟨⟩
      simp [thrown]
    | some u =>
      rw [thrown] at action
      by_cases same : u = v
      · refine .inl ⟨ref, rfl, same ▸ thrown, ?_⟩
        have again := action.trans (if_pos (decide_eq_true same))
        simp only [State.leaves?, State.turn?, step, advance, Activation.advance, again]
        rfl
      · refine .inr ⟨?_, anew (action.trans (if_neg fun equal => same (of_decide_eq_true equal)))⟩
        rintro _ ⟨⟩
        simp [thrown, same]

/-! ### The way through the stack -/

/-- The point that a part of the stack adds to the trace of what passes it: a
block does, at its call or at the branch that raises again, all else does not. -/
def Layer.point? : Layer → Option TracePoint
  | .relay (.code a _) _ => some (a.block.tracePoint a.ip)
  | .relay .. => none
  | .guard g => some (g.caller.block.tracePoint g.branch.offset)

/-- A signal is on its way to the stack with a trace, and nothing was lost since
`w`. -/
def Crossed (w : World) (ref : SignalRef) (trace : List TracePoint) (stack : List Cont)
    (s : State) : Prop :=
  ∃ w' written f signal, s = ⟨w', .reply (.failed written f), stack⟩ ∧ w.Keeps w' ∧
    f.signal? = some ref ∧ w'.signals[ref]? = some signal ∧ signal.trace = trace

variable {w w' : World} {f : Fault} {stack : List Cont} {written : Option Value}
  {trace : List TracePoint}

theorem Crossed.since (kept : w.Keeps w') (crossed : Crossed w' ref trace stack s) :
    Crossed w ref trace stack s := by
  obtain ⟨w₁, written, f, signal, same, keeps, rest⟩ := crossed
  exact ⟨w₁, written, f, signal, same, kept.trans keeps, rest⟩

theorem Crossed.now (carried : f.signal? = some ref) (there : w.signals[ref]? = some signal) :
    Crossed w ref signal.trace stack ⟨w, .reply (.failed written f), stack⟩ :=
  ⟨w, written, f, signal, rfl, .refl w, carried, there, rfl⟩

theorem asThrown_signal (carried : f.signal? = some ref) : w.asThrown f = (w, f) := by
  rw [asThrown, if_pos (by rw [carried]; rfl)]

/-- A block that ends with a failure adds its place to the trace. -/
theorem raise_crosses (a : Activation) (carried : f.signal? = some ref)
    (there : w.signals[ref]? = some signal) :
    Crossed w ref (signal.trace ++ [a.block.tracePoint a.ip]) stack
      ⟨(a.raise w f).world, (a.raise w f).control, stack⟩ := by
  have annotated := (World.Change.annotate w f (a.block.tracePoint a.ip)).keeps
  obtain ⟨later, found, -⟩ := annotated.signals ref signal there
  refine ⟨_, none, f, later, rfl, annotated.trans (releaseChain_keeps _ a.owned), carried, found, ?_⟩
  rw [annotate_trace found, if_pos carried, traceOf_eq there]

theorem hostFault_signal {fault : HostFault} (wraps : fault.Wraps f)
    (carried : f.signal? = some ref) : (w.hostFault fault).2.signal? = some ref := by
  induction fault with
  | passed fault =>
    obtain rfl : fault = f := wraps
    exact carried
  | labelled label inner ih => exact ih wraps
  | text | throw | exit => cases wraps

/-- A callable of the host that passes a failure on adds nothing to its trace. -/
theorem host_crosses {action : HostAction} (passes : action.PassesOn f)
    (carried : f.signal? = some ref) (there : w.signals[ref]? = some signal) :
    Leads e ⟨w, .host action, stack⟩ (Crossed w ref signal.trace stack) := by
  refine (host_passes passes).trans ?_
  rintro s ⟨w', result, fault, acts, wraps, rfl⟩
  have carried' := hostFault_signal (w := w') wraps carried
  rw [asThrown_signal carried']
  refine .here ((Crossed.now carried' ((Quiet.acts acts).kept _ _ there)).since ?_)
  exact acts.evolves.keepsFailures

/-- What waits without a guard adds to a trace only if it is a block. -/
theorem relay_crosses {c : Cont} (relays : c.Relays) (carried : f.signal? = some ref)
    (there : w.signals[ref]? = some signal) :
    Leads e ⟨w, .reply (.failed written f), c :: stack⟩
      (Crossed w ref (signal.trace ++ (Layer.relay c relays).point?.toList) stack) := by
  have unchanged {t : State} (crossed : Crossed w ref signal.trace stack t) :
      Crossed w ref (signal.trace ++ (none : Option TracePoint).toList) stack t := by
    simpa using crossed
  cases c with
  | code a await =>
    cases await with
    | mark => cases relays
    | assign | skip | membership | classOf =>
      exact Leads.step (.here (raise_crosses a carried there))
  | host name resume =>
    have passes : Leads e ⟨w, .host (resume w (written.getD .void) (some f)), stack⟩
        (Crossed w ref signal.trace stack) :=
      host_crosses (relays w (written.getD .void) f) carried there
    exact Leads.step (passes.trans fun t crossed => .here (unchanged crossed))
  | forward keep =>
    have stepped : step e ⟨w, .reply (.failed written f), .forward keep :: stack⟩ =
        ⟨(w.asThrown f).1, .reply (.failed (if keep then written else none) (w.asThrown f).2),
          stack⟩ :=
      rfl
    refine Leads.step (.here (unchanged ?_))
    rw [stepped, asThrown_signal carried]
    exact .now carried there
  | unlock target =>
    have acts := unlock_acts w target
    have held := (Quiet.acts acts).kept ref signal there
    exact Leads.step (.here (unchanged ((Crossed.now carried held).since acts.evolves.keepsFailures)))
  | getter | setter | constructor | propertyRead | propertyWrite | callMember | second =>
    exact Leads.step (.here (unchanged (.now carried there)))

/-- What a branch raises again is what it found in the marker. -/
theorem branch_raises {g : Guard} {v : Value} {f₁ : Fault}
    (found : (g.arrived.value w g.marker).object?.bind (w.heap[·]?) = some (.marker (some f) v))
    (effect : g.arrived.branchEffect w g.marker g.id g.targets = .raise f₁) : f₁ = f := by
  simp only [Activation.branchEffect, found] at effect
  split at effect
  · split at effect <;> cases effect
    rfl
  · split at effect <;> cases effect
    rfl

/-- A branch that raises a failure again adds its place to the trace. -/
theorem guard_crosses {g : Guard} {raised : Raised} (fits : g.Fits w) (carries : w.Carries f raised)
    (passes : g.takes raised = none) (carried : f.signal? = some ref)
    (there : w.signals[ref]? = some signal) :
    Leads e ⟨w, .reply (.failed written f), g.cont :: stack⟩
      (Crossed w ref (signal.trace ++ [g.caller.block.tracePoint g.branch.offset]) stack) := by
  have marked : step e ⟨w, .reply (.failed written f), g.cont :: stack⟩ =
      ⟨g.marked w (.marker (some f) (w.faultValue f)), .code g.arrived, stack⟩ :=
    Guard.step_failed (asThrown_signal carried) fits
  obtain ⟨m, f₁, v, caught, stepped, kept, -, -, effect⟩ := guard_arrives fits carries
  rw [passes] at effect
  obtain rfl : m = g.marked w (.marker (some f) (w.faultValue f)) :=
    congrArg State.world (stepped.symm.trans marked)
  obtain rfl := branch_raises (Guard.marker_found fits _) effect
  refine Leads.step ?_
  rw [stepped]
  refine Leads.step (.here ?_)
  rw [Guard.step_arrived (fits.kept kept), effect]
  exact (raise_crosses (w := g.marked w _) g.arrived carried there).since kept

/-- A failure that carries the same signal carries the same. -/
theorem carries_signal {f' : Fault} {raised : Raised} (carries : w.Carries f raised)
    (carried : f.signal? = some ref) (same : f'.signal? = some ref) : w.Carries f' raised := by
  have equal : w.signal? f' = w.signal? f := by rw [signal?, signal?, carried, same]
  cases carries with
  | exit found => exact .exit (equal.trans found)
  | thrown found => exact .thrown (equal.trans found)
  | plain outside => rw [carried] at outside; cases outside
  | wrapped found shows => exact .wrapped (equal.trans found) shows

/-- On its way through all layers that let it pass a signal gets a point for each
block, the inner ones first. -/
theorem layers_cross {layers : List Layer} {raised : Raised}
    (passes : ∀ l ∈ layers, l.Passes w raised) (carries : w.Carries f raised)
    (carried : f.signal? = some ref) (there : w.signals[ref]? = some signal) :
    Leads e ⟨w, .reply (.failed written f), layers.map Layer.cont ++ stack⟩
      (Crossed w ref (signal.trace ++ layers.filterMap Layer.point?) stack) := by
  induction layers generalizing w f written signal with
  | nil => exact .here (by simpa using Crossed.now carried there)
  | cons l layers ih =>
    obtain ⟨first, others⟩ := List.forall_mem_cons.mp passes
    have through : Leads e ⟨w, .reply (.failed written f), (l :: layers).map Layer.cont ++ stack⟩
        (Crossed w ref (signal.trace ++ l.point?.toList) (layers.map Layer.cont ++ stack)) := by
      cases l with
      | relay c relays => exact relay_crosses relays carried there
      | guard g => exact guard_crosses first.1 carries first.2 carried there
    -- The layers further out see another world, which still has all signals and markers.
    refine through.trans fun t crossed => ?_
    obtain ⟨w₁, written₁, f₁, later, rfl, kept, carried₁, there₁, traced⟩ := crossed
    have rest : Leads e ⟨w₁, .reply (.failed written₁ f₁), layers.map Layer.cont ++ stack⟩
        (Crossed w₁ ref (later.trace ++ layers.filterMap Layer.point?) stack) :=
      ih (fun l member => (others l member).kept kept)
        ((carries_signal carries carried carried₁).kept kept) carried₁ there₁
    refine rest.trans fun t crossed => .here ?_
    have points : (l :: layers).filterMap Layer.point? =
        l.point?.toList ++ layers.filterMap Layer.point? := by
      cases point : l.point? <;> simp [point]
    rw [points, ← List.append_assoc, ← traced]
    exact crossed.since kept

/-- Traces from a state on. -/
structure Traced (e : Engine) (s : State) : Prop where
  /-- A transition adds a point to the trace of the signal that a block ends with,
  and to no other; what is new has crossed nothing before. -/
  transition : ∀ (ref : SignalRef) (signal : Signal),
    (step e s).world.signals[ref]? = some signal →
      signal.trace = s.world.traceOf ref ++ (s.crossing? e ref).toList
  /-- A run adds the boundaries that a signal crosses, in their order. -/
  course : ∀ (ref : SignalRef) (signal : Signal), s.world.signals[ref]? = some signal → ∀ n,
    ∃ later, (run e n s).world.signals[ref]? = some later ∧ later.bare = signal.bare ∧
      later.trace = signal.trace ++ crossings e s ref n
  /-- An invocation that ends with a signal adds one point: its block, and the
  position of the instruction where it stood. -/
  invocation : ∀ (block : CodeBlock) (inv : Invocation) (completion : Completion),
    s.control = .execute (some block) inv completion →
    ∀ (n : Nat) (written : Option Value) (f : Fault) (ref : SignalRef) (signal : Signal),
      Lasts e s n →
      (run e (n + 1) s).stack.length = s.stack.length →
      (run e (n + 1) s).control = .reply (.failed written f) → f.signal? = some ref →
      (run e (n + 1) s).world.signals[ref]? = some signal →
      ∃ a, (run e n s).turn? = some a ∧ a.block = block ∧
        signal.trace = (run e n s).world.traceOf ref ++
          [⟨block.title, block.id, (block.position a.ip).1, (block.position a.ip).2⟩]
  /-- A throw goes on with what its invocation caught last if that is the same
  value, and throws anew otherwise. -/
  throw : ∀ (block : CodeBlock) (inv : Invocation) (completion : Completion),
    s.control = .execute (some block) inv completion →
    ∀ (n : Nat) (a : Activation) (v : Value), Lasts e s n →
      (run e n s).activationAt s.stack.length = some (a, none) →
      a.opcode? = some .throw → a.register? (run e n s).world 1 = some v →
      (∃ ref signal, lastCaught e s n = some ref ∧ (run e n s).world.signals[ref]? = some signal ∧
        signal.value.identical v = true ∧ (run e n s).leaves? e = some (a, .signal ref)) ∨
      (∀ ref ∈ lastCaught e s n, ∀ signal ∈ (run e n s).world.signals[ref]?,
          signal.value.identical v = false) ∧
        (run e n s).leaves? e = some (a, .signal (run e n s).world.signals.size)
  /-- What no branch takes on its way through the stack gets a point for the block
  that it leaves first, and one for each block in its way. -/
  way : ∀ (a : Activation) (f : Fault) (ref : SignalRef) (signal : Signal) (near : List Layer)
      (stack : List Cont), s.leaves? e = some (a, f) → f.signal? = some ref →
    (step e s).world.signals[ref]? = some signal → s.base = near.map Layer.cont ++ stack →
    (∀ l ∈ near, l.Passes (step e s).world signal.raised) →
    Leads e s (Crossed (step e s).world ref
      (s.world.traceOf ref ++ a.block.tracePoint a.ip :: near.filterMap Layer.point?) stack)

theorem crossing?_of_leaves? {f : Fault} (leaves : s.leaves? e = some (a, f))
    (carried : f.signal? = some ref) : s.crossing? e ref = some (a.block.tracePoint a.ip) := by
  simp [State.crossing?, leaves, carried]

theorem turn?_of_leaves? {f : Fault} (leaves : s.leaves? e = some (a, f)) :
    s.turn? = some a := by
  unfold State.leaves? at leaves
  split at leaves
  next whose _ => cases leaves; exact whose
  · cases leaves

/-- A block that ends with a failure leaves what is below it alone. -/
theorem step_leaves {f : Fault} (leaves : s.leaves? e = some (a, f)) :
    step e s = ⟨(step e s).world, .reply (.failed none f), s.base⟩ := by
  have whose := turn?_of_leaves? leaves
  obtain ⟨await?, n, turns, stepped⟩ := step_turns e whose
  obtain ⟨plan, dst, taken, turn⟩ := turns.turn
  simp only [State.leaves?, whose, stepped] at leaves
  rw [stepped]
  cases turn with
  | fails => cases leaves; rfl
  | asks _ asks => cases asks <;> cases leaves
  | goes | returns | stops => cases leaves

/-- Traces record the boundaries of blocks that a signal crosses, and nothing
else. -/
theorem traces_record_crossings (e : Engine) (s : State) : Traced e s where
  transition _ _ there := step_trace there
  course _ _ there n := run_trace e there n
  invocation block inv completion begins n written f ref signal lasts ended failed carried there := by
    obtain ⟨a, leaves, same⟩ := lasts.ends begins ended failed carried
    refine ⟨a, turn?_of_leaves? leaves, same, ?_⟩
    rw [run_succ] at there
    rw [step_trace there, crossing?_of_leaves? leaves carried, same]
    rfl
  throw block inv completion begins n a v lasts there opcode read := by
    obtain ⟨-, caught⟩ := lasts.remembers begins there
    obtain ⟨-, running⟩ := State.activationAt_running there
    have remembered (ref : SignalRef) (last : lastCaught e s n = some ref) :=
      lastCaught_thrown e s n last
    rw [← caught] at remembered ⊢
    generalize run e n s = t at *
    obtain ⟨w, control, stack⟩ := t
    cases running
    rcases throw_leaves opcode read with ⟨ref, held, thrown, leaves⟩ | ⟨other, leaves⟩
    · obtain ⟨crossed, cause, there⟩ := thrown?_eq_some.mp thrown
      exact .inl ⟨ref, _, held, there, decide_eq_true rfl, leaves⟩
    · refine .inr ⟨fun ref held signal found => ?_, leaves⟩
      obtain ⟨u, thrown⟩ := remembered ref held
      obtain ⟨crossed, cause, there⟩ := thrown?_eq_some.mp thrown
      cases there.symm.trans found
      exact decide_eq_false fun same => other ref held (same ▸ thrown)
  way a f ref signal near stack leaves carried there below passes := by
    have carries : (step e s).world.Carries f signal.raised := by
      have found : (step e s).world.signal? f = some signal := by rw [signal?, carried]; exact there
      cases signal with
      | thrown => exact .thrown found
      | exit => exact .exit found
    have traced := step_trace there
    rw [crossing?_of_leaves? leaves carried] at traced
    have next := step_leaves leaves
    rw [below] at next
    have rest : Leads e ⟨(step e s).world, .reply (.failed none f), near.map Layer.cont ++ stack⟩
        (Crossed (step e s).world ref (signal.trace ++ near.filterMap Layer.point?) stack) :=
      layers_cross passes carries carried there
    rw [← next, traced] at rest
    exact Leads.step (by simpa using rest)

/-- A block that catches what its call raises, and throws it again. -/
def rethrowing : CodeBlock :=
  { code? := some #[27, 0, 1, 0, 0, 32, 0, 0, 2, 6, 6, 34, 0], registers := 2, consts := [.int 0] }

def rethrows : State := ⟨{}, .execute (some rethrowing) {} .result, []⟩

/-- What is caught and thrown again leaves its block with one point. An exit goes
through a getter, a branch that raises it again and a wrapped function with a
point for each of the two blocks. -/
theorem rethrown_and_passed :
    (∃ a signal, (run plainEngine 5 rethrows).leaves? plainEngine = some (a, .signal 0) ∧
      (run plainEngine 6 rethrows).world.signals[0]? = some signal ∧
      signal.trace = [⟨rethrowing.title, rethrowing.id, (rethrowing.position a.ip).1,
        (rethrowing.position a.ip).2⟩]) ∧
    ∃ w, Leads plainEngine ⟨threeFrames, .code leaving, [.getter, (guarded 1 1).cont, .forward true]⟩
      (Crossed w 0 [leaving.block.tracePoint 0, (guardedCall 1).tracePoint 5] []) := by
  have lasts : Lasts plainEngine rethrows 5 := by decide +kernel
  have caught : lastCaught plainEngine rethrows 5 = some 0 := by decide +kernel
  have traced := traces_record_crossings plainEngine rethrows
  constructor
  · rcases traced.throw _ _ _ rfl 5 _ _ lasts rfl rfl rfl with
      ⟨ref, _, same, -, -, leaves⟩ | ⟨other, -⟩
    · cases caught.symm.trans same
      obtain ⟨a, whose, -, trace⟩ := traced.invocation _ _ _ rfl 5 _ _ 0 _ lasts rfl rfl rfl rfl
      cases whose.symm.trans (turn?_of_leaves? leaves)
      exact ⟨_, _, leaves, rfl, trace⟩
    · exact absurd (other 0 caught _ rfl) (by decide +kernel)
  · refine ⟨_, (traces_record_crossings plainEngine _).way leaving (.signal 0) 0 _
      [.relay .getter trivial, .guard (guarded 1 1), .relay (.forward true) trivial] [] rfl rfl rfl
      rfl ?_⟩
    simp only [List.forall_mem_cons]
    exact ⟨trivial, ⟨Nat.two_pos, by decide +kernel⟩, trivial, by simp⟩

end Machine
end ScriptEngine
