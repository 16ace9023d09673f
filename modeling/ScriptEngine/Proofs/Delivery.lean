import ScriptEngine.Proofs.CheckedRun
import ScriptEngine.Proofs.Failures

/-! Where failures are delivered. What waits on the stack either passes a failure
on or is a call under guard; a branch behind such a call takes the failures that
are meant for it, and raises all others again as they were. -/
namespace ScriptEngine

/-- A failure that a callable of the host got and reports again, perhaps under
labels. -/
def HostFault.Wraps (f : Fault) : HostFault → Prop
  | .passed fault => fault = f
  | .labelled _ inner => inner.Wraps f
  | _ => False

/-- A callable of the host that ends with the failure it got. -/
def HostAction.PassesOn (f : Fault) : HostAction → Prop
  | .finish _ (some fault) => fault.Wraps f
  | .setData _ _ next | .print _ next => next.PassesOn f
  | _ => False

/-- What waits on the stack without a guard: properties, constructors, wrapped
functions, proxies, locks, blocks that insist on success, and callables of the
host that pass on what they get. -/
def Cont.Relays : Cont → Prop
  | .code _ (.mark ..) => False
  | .host _ resume => ∀ w v f, (resume w v (some f)).PassesOn f
  | _ => True

namespace Machine

variable {e : Engine} {s : State} {P Q : State → Prop}

/-- A state leads to one of a kind. -/
def Leads (e : Engine) (s : State) (P : State → Prop) : Prop := ∃ n, P (run e n s)

namespace Leads

theorem here (holds : P s) : Leads e s P := ⟨0, holds⟩

theorem step (later : Leads e (step e s) P) : Leads e s P := by
  obtain ⟨n, holds⟩ := later
  exact ⟨n + 1, by rwa [run_step]⟩

theorem trans (first : Leads e s P) (second : ∀ s, P s → Leads e s Q) : Leads e s Q := by
  obtain ⟨n, holds⟩ := first
  obtain ⟨m, holds⟩ := second _ holds
  exact ⟨n + m, by rwa [run_add]⟩

end Leads

variable {w w' : World} {f : Fault} {raised : Raised} {stack : List Cont} {written : Option Value}

/-- What was raised is on its way to the stack, and nothing was lost since `w`. -/
def Failing (w : World) (raised : Raised) (stack : List Cont) (s : State) : Prop :=
  ∃ w' written f, s = ⟨w', .reply (.failed written f), stack⟩ ∧ w.Keeps w' ∧ w'.Carries f raised

theorem Failing.since (kept : w.Keeps w') (failing : Failing w' raised stack s) :
    Failing w raised stack s := by
  obtain ⟨w₁, written, f, same, keeps, carries⟩ := failing
  exact ⟨w₁, written, f, same, kept.trans keeps, carries⟩

theorem Failing.now (carries : w.Carries f raised) :
    Failing w raised stack ⟨w, .reply (.failed written f), stack⟩ :=
  ⟨w, written, f, rfl, .refl w, carries⟩

/-- A block that ends with a failure passes it on. -/
theorem raise_failing (a : Activation) (carries : w.Carries f raised) :
    Failing w raised stack ⟨(a.raise w f).world, (a.raise w f).control, stack⟩ := by
  have annotated := (World.Change.annotate w f (a.block.tracePoint a.ip)).keeps
  have kept := annotated.trans (World.releaseChain_keeps _ a.owned)
  exact (Failing.now (carries.kept kept)).since kept

/-- A failure made fit to be caught is still what it was. -/
theorem asThrown_failing (written : Option Value) (carries : w.Carries f raised) :
    Failing w raised stack ⟨(w.asThrown f).1, .reply (.failed written (w.asThrown f).2), stack⟩ := by
  obtain ⟨kept, carries, -⟩ := carries.asThrown
  exact (Failing.now carries).since kept

theorem hostFault_carries {fault : HostFault} (wraps : fault.Wraps f) (carries : w.Carries f raised) :
    w.Carries (w.hostFault fault).2 raised := by
  induction fault with
  | passed fault =>
    obtain rfl : fault = f := wraps
    exact carries
  | labelled label inner ih => exact (ih wraps).labelled label
  | text | throw | exit => cases wraps

/-- A failure that is reported again is not raised anew. -/
theorem hostFault_world {fault : HostFault} (wraps : fault.Wraps f) : (w.hostFault fault).1 = w := by
  induction fault with
  | passed => rfl
  | labelled label inner ih => exact ih wraps
  | text | throw | exit => cases wraps

/-- A callable of the host that ends with the failure it got reports it once it has done
what it does. -/
theorem host_passes {action : HostAction} (passes : action.PassesOn f) :
    Leads e ⟨w, .host action, stack⟩ fun s => ∃ w' result fault, World.Acts w w' ∧
      fault.Wraps f ∧ s = ⟨(w'.asThrown (w'.hostFault fault).2).1,
        .reply (.failed result (w'.asThrown (w'.hostFault fault).2).2), stack⟩ := by
  induction action generalizing w with
  | finish result fault? =>
    cases fault? with
    | none => cases passes
    | some fault =>
      have stepped : step e ⟨w, .host (.finish result (some fault)), stack⟩ =
          ⟨((w.hostFault fault).1.asThrown (w.hostFault fault).2).1,
            .reply (.failed result ((w.hostFault fault).1.asThrown (w.hostFault fault).2).2),
            stack⟩ :=
        rfl
      rw [hostFault_world passes] at stepped
      exact Leads.step (.here ⟨w, result, fault, .refl w, passes, stepped⟩)
  | setData ref data next ih =>
    have act := World.Acts.act (.modifyScript w ref (fun o => { o with hostData := some data })
      fun _ => ⟨rfl, rfl, rfl⟩)
    refine Leads.step ((ih passes).trans ?_)
    rintro s ⟨w', result, fault, acts, rest⟩
    exact .here ⟨w', result, fault, act.trans acts, rest⟩
  | print line next ih =>
    refine Leads.step ((ih passes).trans ?_)
    rintro s ⟨w', result, fault, acts, rest⟩
    exact .here ⟨w', result, fault, (World.Acts.act (.print w line)).trans acts, rest⟩
  | stop | ask => cases passes

theorem host_failing {action : HostAction} (passes : action.PassesOn f)
    (carries : w.Carries f raised) : Leads e ⟨w, .host action, stack⟩ (Failing w raised stack) := by
  refine (host_passes passes).trans ?_
  rintro s ⟨w', result, fault, acts, wraps, rfl⟩
  have kept := acts.evolves.keepsFailures
  exact .here ((asThrown_failing result (hostFault_carries wraps (carries.kept kept))).since kept)

/-- What waits without a guard passes a failure on. -/
theorem relay_failing {c : Cont} (relays : c.Relays) (carries : w.Carries f raised) :
    Leads e ⟨w, .reply (.failed written f), c :: stack⟩ (Failing w raised stack) := by
  cases c with
  | code a await =>
    cases await with
    | mark => cases relays
    | assign | skip | membership | classOf => exact Leads.step (.here (raise_failing a carries))
  | host name resume => exact Leads.step (host_failing (relays w (written.getD .void) f) carries)
  | forward keep => exact Leads.step (.here (asThrown_failing _ carries))
  | unlock ref =>
    have kept := (World.unlock_evolves w ref).keepsFailures
    exact Leads.step (.here ((Failing.now (carries.kept kept)).since kept))
  | getter | setter | constructor | propertyRead | propertyWrite | callMember | second =>
    exact Leads.step (.here (Failing.now carries))

/-! ### Guards -/

/-- A block does what the instruction that it stands at says. -/
theorem step_ready {a : Activation} {i : Instruction} {action : Action} (ready : a.Ready w i)
    (effect : a.effect e w i = some action) :
    step e ⟨w, .code a, stack⟩ =
      let n := a.perform e w action
      ⟨n.world, n.control, n.push ++ stack⟩ := by
  have next := ready.action_eq (e := e)
  rw [effect] at next
  simp only [step, advance, Activation.advance, next]

/-- A call under guard: the block that waits for its outcome, and the branch
that follows the call. -/
structure Guard where
  caller : Activation
  branch : Instruction
  marker : Operand
  id : Operand
  targets : Operand
  decoded : Instruction.decode caller.block.code branch.offset = .ok branch
  opcode : branch.opcode = .catchBranch
  operands : branch.operands = [marker, id, targets]
  named : id.word.toNat < caller.block.consts.length
  nonempty : targets.words ≠ []

namespace Guard

/-- The register that holds the marker, and then what the branch takes. -/
def register (g : Guard) : Nat := g.marker.word.toNat

/-- The identifier of the branch. -/
def identifier (g : Guard) : Int64 := (g.caller.constant g.id).toInteger

/-- The number of targets. -/
def count (g : Guard) : Nat := g.targets.words.length

/-- The waiting block as it stands on the stack. -/
def cont (g : Guard) : Cont := .code g.caller (.mark g.register g.branch.offset)

/-- The place that a target leads to. -/
def target (g : Guard) (n : Nat) : Int :=
  g.branch.offset + displacement (g.targets.words.getD n 0)

/-- The target that takes what was raised. An exit has to be for this branch and
carries its target; all else goes to the second target, if there is one. -/
def takes (g : Guard) : Raised → Option Nat
  | .exit id target _ =>
    if id = g.identifier ∧ 0 ≤ target ∧ target < g.count then some target.toNat else none
  | _ => if 1 < g.count then some 1 else none

/-- The marker's register is there. -/
def Fits (w : World) (g : Guard) : Prop := g.register < (w.registers g.caller.frame).size

theorem Fits.kept {g : Guard} (fits : g.Fits w) (keeps : w.Keeps w') : g.Fits w' :=
  Nat.lt_of_lt_of_le fits (keeps.sizes g.caller.frame)

/-- The block when it has come to the branch. -/
def arrived (g : Guard) : Activation := { g.caller with ip := g.branch.offset }

theorem ready {g : Guard} (fits : g.Fits w) : g.arrived.Ready w g.branch := by
  obtain ⟨_, _, -, -, read, -, -⟩ := Instruction.decode_eq_ok.mp g.decoded
  have kinds := Instruction.decodeOperands_kinds read
  rw [g.opcode, g.operands] at kinds
  obtain ⟨marker, id, targets⟩ : g.marker.kind = .register ∧ g.id.kind = .constant ∧
      g.targets.kind = .displacements := by
    simpa [Opcode.operands] using kinds
  refine ⟨rfl, g.decoded, ?_⟩
  simp only [g.operands, List.forall_mem_cons, Activation.InReach, marker, id, targets]
  exact ⟨fits, g.named, g.nonempty, by simp⟩

/-- A world with a marker in the register of a guard. -/
def marked (g : Guard) (w : World) (o : Object) : World :=
  (w.create o).1.setRegister g.caller.frame g.register (.object w.heap.size none)

/-- A marker that was written is found by the branch. -/
theorem marker_found {g : Guard} (fits : g.Fits w) (o : Object) :
    (g.arrived.value (g.marked w o) g.marker).object?.bind ((g.marked w o).heap[·]?) = some o := by
  have read : ((g.marked w o).registers g.caller.frame)[g.register]? =
      some (.object w.heap.size none) := World.setRegister_self fits _
  have held : g.arrived.value (g.marked w o) g.marker = .object w.heap.size none := by
    rw [Activation.value]
    exact congrArg (Option.getD · .void) read
  rw [held]
  exact Array.getElem?_push_size

theorem marked_keeps (g : Guard) {o : Object} (plain : o.capture? = none) :
    w.Keeps (g.marked w o) :=
  (World.Change.create w o plain).keeps.trans (World.Change.setRegister _ _ _ _).keeps

/-- The branch does what its operands say. -/
theorem step_arrived {g : Guard} (fits : g.Fits w) :
    step e ⟨w, .code g.arrived, stack⟩ =
      let n := g.arrived.perform e w (g.arrived.branchEffect w g.marker g.id g.targets)
      ⟨n.world, n.control, n.push ++ stack⟩ := by
  refine step_ready (ready fits) ?_
  simp only [Activation.effect, g.opcode, g.operands]

/-- An answer is written down in a marker, and the branch follows. -/
theorem assign_marker {g : Guard} (fits : g.Fits w) (o : Object) :
    g.caller.assign (w.create o).1 (some g.register) (.object w.heap.size none) g.branch.offset =
      ⟨g.marked w o, .code g.arrived, []⟩ := by
  rw [Activation.assign]
  exact if_pos fits

theorem step_done {g : Guard} (fits : g.Fits w) :
    step e ⟨w, .reply (.done written), g.cont :: stack⟩ =
      ⟨g.marked w (.marker none (written.getD .void)), .code g.arrived, stack⟩ := by
  have next := assign_marker fits (.marker none (written.getD .void))
  exact congrArg (fun n : Next => (⟨n.world, n.control, n.push ++ stack⟩ : State)) next

theorem step_failed {g : Guard} {w₁ : World} {f₁ : Fault} (fit : w.asThrown f = (w₁, f₁))
    (fits : g.Fits w₁) :
    step e ⟨w, .reply (.failed written f), g.cont :: stack⟩ =
      ⟨g.marked w₁ (.marker (some f₁) (w₁.faultValue f₁)), .code g.arrived, stack⟩ := by
  have next := assign_marker fits (.marker (some f₁) (w₁.faultValue f₁))
  have marks : g.caller.mark w (written.getD .void) (some f) g.register g.branch.offset =
      ⟨g.marked w₁ (.marker (some f₁) (w₁.faultValue f₁)), .code g.arrived, []⟩ := by
    simp only [Activation.mark, fit]
    exact next
  exact congrArg (fun n : Next => (⟨n.world, n.control, n.push ++ stack⟩ : State)) marks

end Guard

/-- The block under a guard goes on at a target, with a value that shows what
happened in the register of the marker. -/
def Resumed (g : Guard) (n : Nat) (shows : World → Value → Prop) (stack : List Cont) (s : State) :
    Prop :=
  ∃ w v caught, s = ⟨w, .code { g.caller with ip := g.target n, caught }, stack⟩ ∧
    (w.registers g.caller.frame)[g.register]? = some v ∧ shows w v

/-- A branch that settles on a target. -/
theorem settle_resumed {g : Guard} (fits : g.Fits w) {n : Nat} {v : Value}
    {caught : Option SignalRef} {shows : World → Value → Prop}
    (effect : g.arrived.branchEffect w g.marker g.id g.targets =
      .settle g.register v caught (some (g.target n)))
    (shown : ∀ w', w.Keeps w' → shows w' v) :
    Leads e ⟨w, .code g.arrived, stack⟩ (Resumed g n shows stack) := by
  refine Leads.step (.here ?_)
  rw [Guard.step_arrived fits, effect]
  have kept := (World.Change.setRegister w g.caller.frame g.register v).keeps
  exact ⟨_, v, _, rfl, World.setRegister_self fits v, shown _ kept⟩

/-- A call that returns goes on at the first target with its result. -/
theorem guard_returns {g : Guard} (fits : g.Fits w) :
    Leads e ⟨w, .reply (.done written), g.cont :: stack⟩
      (Resumed g 0 (fun _ v => v = written.getD .void) stack) := by
  refine Leads.step ?_
  rw [Guard.step_done fits]
  have kept := g.marked_keeps (w := w) (o := .marker none (written.getD .void)) rfl
  have effect : g.arrived.branchEffect (g.marked w (.marker none (written.getD .void))) g.marker g.id
      g.targets = .settle g.register (written.getD .void) none (some (g.target 0)) := by
    rw [Activation.branchEffect, Guard.marker_found fits]
    rfl
  exact settle_resumed (fits.kept kept) effect fun _ _ => rfl

/-- A failure under guard comes to the branch, which settles on the target that
takes it or raises it again. -/
theorem guard_arrives {g : Guard} (fits : g.Fits w) (carries : w.Carries f raised) :
    ∃ m f₁ v caught,
      step e ⟨w, .reply (.failed written f), g.cont :: stack⟩ = ⟨m, .code g.arrived, stack⟩ ∧
      w.Keeps m ∧ m.Carries f₁ raised ∧ m.Shows v raised ∧
      g.arrived.branchEffect m g.marker g.id g.targets =
        match g.takes raised with
        | some n => .settle g.register v caught (some (g.target n))
        | none => .raise f₁ := by
  obtain ⟨kept₁, carries₁, fit⟩ := carries.asThrown
  obtain ⟨⟨w₁, f₁⟩, thrown⟩ : ∃ p, w.asThrown f = p := ⟨_, rfl⟩
  rw [thrown] at kept₁ carries₁ fit
  dsimp only at kept₁ carries₁ fit
  have stepped : step e ⟨w, .reply (.failed written f), g.cont :: stack⟩ = _ :=
    Guard.step_failed thrown (fits.kept kept₁)
  have found := Guard.marker_found (fits.kept kept₁) (.marker (some f₁) (w₁.faultValue f₁))
  have kept₂ : w₁.Keeps (g.marked w₁ (.marker (some f₁) (w₁.faultValue f₁))) := g.marked_keeps rfl
  have carries₂ := carries₁.kept kept₂
  rcases carries₂.signal fit with ⟨id, target, v, crossed, rfl, signal⟩ |
    ⟨v, crossed, cause, signal, shows, other⟩
  · refine ⟨_, f₁, v, none, stepped, kept₁.trans kept₂, carries₂, rfl, ?_⟩
    simp only [Activation.branchEffect, found, signal, Guard.takes]
    by_cases mine : id = g.identifier ∧ 0 ≤ target ∧ target < g.count
    · rw [if_pos mine]
      exact if_pos mine
    · rw [if_neg mine]
      exact if_neg mine
  · have value : w₁.faultValue f₁ = v := by
      have signal₁ : w₁.signal? f₁ = some (.thrown v crossed cause) := signal
      rw [World.faultValue, signal₁]
      rfl
    have takes : g.takes raised = if 1 < g.count then some 1 else none := by
      cases raised with
      | exit => exact absurd rfl (other _ _ _)
      | thrown | outside => rfl
    refine ⟨_, f₁, w₁.faultValue f₁, f₁.signal?, stepped, kept₁.trans kept₂, carries₂,
      value ▸ shows, ?_⟩
    simp only [Activation.branchEffect, found, signal, takes, World.thrownBy?_of_thrown signal]
    by_cases more : 1 < g.count
    · rw [if_pos more]
      exact if_pos more
    · rw [if_neg more]
      exact if_neg more

/-- A branch that does not take a failure raises it again. -/
theorem guard_failing {g : Guard} (fits : g.Fits w) (carries : w.Carries f raised)
    (passes : g.takes raised = none) :
    Leads e ⟨w, .reply (.failed written f), g.cont :: stack⟩ (Failing w raised stack) := by
  obtain ⟨m, f₁, v, caught, stepped, kept, carries₁, -, effect⟩ := guard_arrives fits carries
  rw [passes] at effect
  refine Leads.step ?_
  rw [stepped]
  refine Leads.step (.here ?_)
  rw [Guard.step_arrived (fits.kept kept), effect]
  exact (raise_failing g.arrived carries₁).since kept

/-- A branch that takes a failure goes on with what it shows. -/
theorem guard_resumed {g : Guard} (fits : g.Fits w) (carries : w.Carries f raised) {n : Nat}
    (takes : g.takes raised = some n) :
    Leads e ⟨w, .reply (.failed written f), g.cont :: stack⟩
      (Resumed g n (fun w v => w.Shows v raised) stack) := by
  obtain ⟨m, f₁, v, caught, stepped, kept, -, shows, effect⟩ := guard_arrives fits carries
  rw [takes] at effect
  refine Leads.step ?_
  rw [stepped]
  exact settle_resumed (fits.kept kept) effect fun _ => shows.kept

/-! ### Stacks -/

/-- A part of the stack: something that relays failures, or a call under guard. -/
inductive Layer where
  | relay (c : Cont) (relays : c.Relays)
  | guard (g : Guard)

namespace Layer

def cont : Layer → Cont
  | .relay c _ => c
  | .guard g => g.cont

/-- A layer lets something raised pass. -/
def Passes (w : World) (raised : Raised) : Layer → Prop
  | .relay .. => True
  | .guard g => g.Fits w ∧ g.takes raised = none

theorem Passes.kept {l : Layer} (passes : l.Passes w raised) (keeps : w.Keeps w') :
    l.Passes w' raised := by
  cases l with
  | relay => trivial
  | guard g => exact ⟨passes.1.kept keeps, passes.2⟩

end Layer

/-- A failure goes through all layers that let it pass, and stays what it is. -/
theorem layers_failing {layers : List Layer} (passes : ∀ l ∈ layers, l.Passes w raised)
    (carries : w.Carries f raised) :
    Leads e ⟨w, .reply (.failed written f), layers.map Layer.cont ++ stack⟩
      (Failing w raised stack) := by
  induction layers generalizing w f written with
  | nil => exact .here (.now carries)
  | cons l layers ih =>
    obtain ⟨first, others⟩ := List.forall_mem_cons.mp passes
    have through : Leads e ⟨w, .reply (.failed written f), (l :: layers).map Layer.cont ++ stack⟩
        (Failing w raised (layers.map Layer.cont ++ stack)) := by
      cases l with
      | relay c relays => exact relay_failing relays carries
      | guard g => exact guard_failing first.1 carries first.2
    refine through.trans fun s failing => ?_
    obtain ⟨w₁, written₁, f₁, rfl, kept, carries₁⟩ := failing
    exact (ih (fun l member => (others l member).kept kept) carries₁).trans fun s failing =>
      .here (failing.since kept)

/-- What raises something: an exit, a throw, a callable of the host that ends
with a failure, or any failure that is under way. -/
inductive Raises (w : World) : Control → Raised → Prop
  | exit {a : Activation} {i : Instruction} {r k target : Operand} (ready : a.Ready w i)
      (opcode : i.opcode = .exitTry) (operands : i.operands = [r, k, target]) :
      Raises w (.code a) (.exit (a.constant k).toInteger target.word.toNat (a.value w r))
  | throw {a : Activation} {i : Instruction} {r : Operand} (ready : a.Ready w i)
      (opcode : i.opcode = .throw) (operands : i.operands = [r]) :
      Raises w (.code a) (.thrown (a.value w r))
  | host {result : Option Value} {fault : HostFault} {raised : Raised}
      (carries : (w.hostFault fault).1.Carries (w.hostFault fault).2 raised) :
      Raises w (.host (.finish result (some fault))) raised
  | failed {written : Option Value} {f : Fault} {raised : Raised} (carries : w.Carries f raised) :
      Raises w (.reply (.failed written f)) raised

theorem raise_signal_failing (a : Activation) {s : Signal}
    (carries : (w.raise s).1.Carries (w.raise s).2 raised) :
    Failing w raised stack ⟨(a.raise (w.raise s).1 (w.raise s).2).world,
      (a.raise (w.raise s).1 (w.raise s).2).control, stack⟩ :=
  (raise_failing a carries).since (World.Change.raise w s).keeps

/-- A throw throws a value anew, or raises what was caught again. -/
theorem throw_effect {a : Activation} {i : Instruction} {r : Operand} (opcode : i.opcode = .throw)
    (operands : i.operands = [r]) :
    a.effect e w i = some (.throwValue (a.value w r)) ∨
      ∃ ref crossed cause, a.effect e w i = some (.raise (.signal ref)) ∧
        w.signals[ref]? = some (.thrown (a.value w r) crossed cause) := by
  simp only [Activation.effect, opcode, operands]
  cases held : a.caught with
  | none => exact .inl rfl
  | some ref =>
    rw [Option.bind_some]
    cases thrown : w.thrown? ref with
    | none => exact .inl rfl
    | some v =>
      obtain ⟨crossed, cause, there⟩ := World.thrown?_eq_some.mp thrown
      by_cases same : v = a.value w r
      · exact .inr ⟨ref, crossed, cause, if_pos (decide_eq_true same), same ▸ there⟩
      · exact .inl (if_neg fun equal => same (of_decide_eq_true equal))

theorem raises_failing {control : Control} (raises : Raises w control raised) :
    Leads e ⟨w, control, stack⟩ (Failing w raised stack) := by
  cases raises with
  | @exit a i r k target ready opcode operands =>
    have effect : a.effect e w i =
        some (.exit (a.constant k).toInteger target.word.toNat (a.value w r)) := by
      simp only [Activation.effect, opcode, operands]
    refine Leads.step (.here ?_)
    rw [step_ready ready effect]
    exact raise_signal_failing a (.exit Array.getElem?_push_size)
  | @throw a i r ready opcode operands =>
    refine Leads.step (.here ?_)
    rcases throw_effect (e := e) opcode operands with effect | ⟨ref, crossed, cause, effect, there⟩
    · rw [step_ready ready effect]
      exact raise_signal_failing a (.thrown Array.getElem?_push_size)
    · rw [step_ready ready effect]
      exact raise_failing a (.thrown there)
  | @host result fault _ carries =>
    have kept := (World.hostFault_evolves w fault).keepsFailures
    exact Leads.step (.here ((asThrown_failing result carries).since kept))
  | failed carries => exact .here (.now carries)

/-- A block stands at a call whose outcome is written to the register of the
branch that follows it, perhaps under a lock that its thread can have. -/
inductive Guard.Calls (thread : Thread) (w : World) (g : Guard) :
    Value → List Value → List ObjRef → Prop
  | tryCall {i : Instruction} {dst fn flags args : Operand} (ready : g.caller.Ready w i)
      (opcode : i.opcode = .tryCall) (operands : i.operands = [dst, fn, flags, args])
      (register : dst.word.toNat = g.register) (follows : g.branch.offset = i.offset + i.length) :
      Calls thread w g (g.caller.value w fn) (g.caller.values w args) []
  | sync {i : Instruction} {dst fn lock flags args : Operand} {owner : ObjRef}
      (ready : g.caller.Ready w i) (opcode : i.opcode = .sync)
      (operands : i.operands = [dst, fn, lock, flags, args])
      (register : dst.word.toNat = g.register) (follows : g.branch.offset = i.offset + i.length)
      (owned : (g.caller.value w lock).object?.bind w.lockOwner? = some owner)
      (free : (w.lock? thread owner).isSome = true) :
      Calls thread w g (g.caller.value w fn) (g.caller.values w args) [owner]

/-- A call under guard waits on the stack, below its lock if it has one. -/
theorem calls_guarded {g : Guard} {callee : Value} {args : List Value} {locks : List ObjRef}
    (calls : g.Calls e.thread w callee args locks) :
    ∃ w' flags, run e (locks.length + 1) ⟨w, .code g.caller, stack⟩ =
      ⟨w', .operate callee { operation := .call, flags, args },
        locks.map Cont.unlock ++ g.cont :: stack⟩ := by
  have next {i : Instruction} (ready : g.caller.Ready w i)
      (follows : g.branch.offset = i.offset + i.length) :
      g.caller.ip + i.length = g.branch.offset := by
    rw [ready.place, follows, Int.natCast_add]
  cases calls with
  | @tryCall i dst fn flags args ready opcode operands register follows =>
    have effect : g.caller.effect e w i = some (.request (g.caller.value w fn)
        { operation := .call, flags := .unpack flags.word, args := g.caller.values w args } none
        (.mark g.register g.branch.offset)) := by
      simp only [Activation.effect, opcode, operands, register, next ready follows]
    exact ⟨w, _, step_ready ready effect⟩
  | @sync i dst fn lock flags args owner ready opcode operands register follows owned free =>
    have effect : g.caller.effect e w i = some (.request (g.caller.value w fn)
        { operation := .call, flags := .unpack flags.word, args := g.caller.values w args }
        (some owner) (.mark g.register g.branch.offset)) := by
      simp only [Activation.effect, opcode, operands, register, next ready follows, owned]
    obtain ⟨w', locked⟩ := Option.isSome_iff_exists.mp free
    refine ⟨w', .unpack flags.word, ?_⟩
    rw [List.length_singleton, run_step, step_ready ready effect, run_step]
    simp only [Activation.perform, step, advance, acquire, locked]
    rfl

/-- Locks are given back on the way of an answer. -/
theorem unlocks_returns {g : Guard} (fits : g.Fits w) (locks : List ObjRef) :
    Leads e ⟨w, .reply (.done written), locks.map Cont.unlock ++ g.cont :: stack⟩
      (Resumed g 0 (fun _ v => v = written.getD .void) stack) := by
  induction locks generalizing w with
  | nil => exact guard_returns fits
  | cons ref locks ih =>
    exact Leads.step (ih (fits.kept (World.unlock_evolves w ref).keepsFailures))

/-- Where calls under guard go on. A call that returns goes on at the first
target with its result. Whatever is raised goes, as it is, through everything
that relays failures and through all branches that do not take it, down to the
end of the stack; the first branch that takes it goes on at the target for it,
with what it shows. An exit is taken by a branch with its identifier that has
its target, all else by a branch with a second target. -/
theorem guarded_delivery (e : Engine) (w : World) (stack : List Cont) :
    (∀ (g : Guard) (callee : Value) (args : List Value) (locks : List ObjRef),
      g.Calls e.thread w callee args locks →
      ∃ w' flags, run e (locks.length + 1) ⟨w, .code g.caller, stack⟩ =
        ⟨w', .operate callee { operation := .call, flags, args },
          locks.map Cont.unlock ++ g.cont :: stack⟩) ∧
    (∀ (g : Guard) (locks : List ObjRef) (written : Option Value), g.Fits w →
      Leads e ⟨w, .reply (.done written), locks.map Cont.unlock ++ g.cont :: stack⟩
        (Resumed g 0 (fun _ v => v = written.getD .void) stack)) ∧
    ∀ (control : Control) (raised : Raised) (near : List Layer), Raises w control raised →
      (∀ l ∈ near, l.Passes w raised) →
      Leads e ⟨w, control, near.map Layer.cont ++ stack⟩ (Failing w raised stack) ∧
      ∀ (g : Guard) (n : Nat), g.Fits w → g.takes raised = some n →
        Leads e ⟨w, control, near.map Layer.cont ++ g.cont :: stack⟩
          (Resumed g n (fun w v => w.Shows v raised) stack) := by
  refine ⟨fun _ _ _ _ => calls_guarded, fun g locks written fits => unlocks_returns fits locks, ?_⟩
  intro control raised near raises passes
  have arrives (below : List Cont) :
      Leads e ⟨w, control, near.map Layer.cont ++ below⟩ (Failing w raised below) := by
    refine (raises_failing raises).trans fun s failing => ?_
    obtain ⟨w₁, written, f, rfl, kept, carries⟩ := failing
    exact (layers_failing (fun l member => (passes l member).kept kept) carries).trans
      fun s failing => .here (failing.since kept)
  refine ⟨arrives stack, fun g n fits takes => ?_⟩
  refine (arrives (g.cont :: stack)).trans fun s failing => ?_
  obtain ⟨w₁, written, f, rfl, kept, carries⟩ := failing
  exact guard_resumed (fits.kept kept) carries takes

/-- A block that calls its second register under guard, with three targets. -/
def guardedCall (id : Int64) : CodeBlock :=
  { code? := some #[27, 0, 1, 0, 0, 32, 0, 0, 3, 7, 9, 11, 33, 0, 33, 0, 33, 0], registers := 2
    consts := [.int id] }

/-- The guard of that call, in a frame of its own. -/
def guarded (id : Int64) (frame : FrameRef) : Guard where
  caller :=
    { block := guardedCall id, frame, chain := [], owned := [], args := [], blocks := [], this := .void,
      completion := .result }
  branch := ⟨5, .catchBranch, [⟨.register, 0, []⟩, ⟨.constant, 0, []⟩, ⟨.displacements, 3, [7, 9, 11]⟩], 7⟩
  marker := ⟨.register, 0, []⟩
  id := ⟨.constant, 0, []⟩
  targets := ⟨.displacements, 3, [7, 9, 11]⟩
  decoded := rfl
  opcode := rfl
  operands := rfl
  named := Nat.one_pos
  nonempty := List.cons_ne_nil _ _

/-- A block that leaves for the third target of the branch seven. -/
def leaving : Activation :=
  { block := { code? := some #[35, 0, 0, 2], registers := 1, consts := [.int 7] }, frame := 2
    chain := [], owned := [], args := [], blocks := [], this := .void, completion := .result }

/-- Registers for two callers and the block that leaves. -/
def threeFrames : World := { frames := #[#[.void, .void], #[.void, .void], #[.bool true]] }

theorem guarded_calls : (guarded 7 0).Calls 0 threeFrames .void [] [] :=
  .tryCall (i := ⟨0, .tryCall, [⟨.register, 0, []⟩, ⟨.register, 1, []⟩, ⟨.flags, 0, []⟩,
    ⟨.registers, 0, []⟩], 5⟩) ⟨rfl, rfl, by decide +kernel⟩ rfl rfl rfl rfl

theorem leaving_raises : Raises threeFrames (.code leaving) (.exit 7 2 (.bool true)) :=
  .exit (i := ⟨0, .exitTry, [⟨.register, 0, []⟩, ⟨.constant, 0, []⟩, ⟨.immediate, 2, []⟩], 4⟩)
    ⟨rfl, rfl, by decide +kernel⟩ rfl rfl

/-- A call that returns, and an exit that goes through a getter, a branch for
another exit and a wrapped function to the branch it is for. -/
theorem leaving_delivered :
    (∃ w' flags, run plainEngine 1 ⟨threeFrames, .code (guarded 7 0).caller, []⟩ =
      ⟨w', .operate .void { operation := .call, flags, args := [] }, [(guarded 7 0).cont]⟩) ∧
    Leads plainEngine ⟨threeFrames, .reply (.done (some (.bool true))), [.unlock 0, (guarded 7 0).cont]⟩
      (Resumed (guarded 7 0) 0 (fun _ v => v = .bool true) []) ∧
    Leads plainEngine ⟨threeFrames, .code leaving, [.getter, (guarded 1 1).cont, .forward true]⟩
      (Failing threeFrames (.exit 7 2 (.bool true)) []) ∧
    Leads plainEngine
      ⟨threeFrames, .code leaving, [.getter, (guarded 1 1).cont, .forward true, (guarded 7 0).cont]⟩
      (Resumed (guarded 7 0) 2 (fun w v => w.Shows v (.exit 7 2 (.bool true))) []) := by
  have ⟨calls, returns, raises⟩ := guarded_delivery plainEngine threeFrames []
  have fits : (guarded 7 0).Fits threeFrames ∧ (guarded 1 1).Fits threeFrames := by
    constructor <;> exact Nat.two_pos
  have passes : (guarded 1 1).takes (.exit 7 2 (.bool true)) = none := by decide +kernel
  have takes : (guarded 7 0).takes (.exit 7 2 (.bool true)) = some 2 := by decide +kernel
  have ⟨leaves, resumes⟩ := raises _ _
    [.relay .getter trivial, .guard (guarded 1 1), .relay (.forward true) trivial] leaving_raises
    (by simp only [List.forall_mem_cons]; exact ⟨trivial, ⟨fits.2, passes⟩, trivial, by simp⟩)
  exact ⟨calls _ _ _ _ guarded_calls, returns _ [0] _ fits.1, leaves, resumes _ 2 fits.1 takes⟩

end Machine
end ScriptEngine
