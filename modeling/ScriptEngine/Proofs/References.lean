import ScriptEngine.Proofs.BlockStep
import ScriptEngine.Proofs.Ledger

/-! Who refers to shared frames while code runs: the running blocks that declare
nested levels, the objects that captured a chain, and the host. No transition
loses a reference or takes one too many. -/
namespace ScriptEngine

/-- The chain that an object has captured. -/
def Object.captured : Object → Chain
  | .closure _ _ chain | .binding chain _ _ => chain
  | _ => []

/-- The references of everything that captured a chain. -/
def World.captured (w : World) : Chain := w.heap.toList.flatMap Object.captured

/-- The references of a running block: those of its own chain, if it declares
nested levels. -/
def Activation.overlay (a : Activation) : Chain := if 0 < a.block.nestLevel then a.chain else []

/-- The frames that a running block works with and others keep. -/
def Activation.borrowed (a : Activation) : Chain := if 0 < a.block.nestLevel then [] else a.chain

/-- The block that runs. -/
def Control.activation? : Control → Option Activation
  | .code a => some a
  | _ => none

/-- The frames that are to be there for what is being done, without a reference
of its own. -/
def Control.borrowed : Control → Chain
  | .execute _ inv _ => inv.shared
  | .code a => a.borrowed
  | _ => []

/-- The blocks that wait on a stack. -/
def waiting (stack : List Cont) : List Activation := stack.filterMap Cont.activation?

namespace State

/-- The blocks that run or wait, innermost first. -/
def running (s : State) : List Activation := s.control.activation?.toList ++ waiting s.stack

/-- The references of all running blocks. -/
def overlays (s : State) : Chain := s.running.flatMap Activation.overlay

/-- The frames that running blocks work with and others keep. -/
def borrowed (s : State) : Chain :=
  s.control.borrowed ++ (waiting s.stack).flatMap Activation.borrowed

/-- All references, with those of the host. -/
def references (s : State) (held : Chain) : Chain := s.overlays ++ held ++ s.world.captured

end State

namespace World

variable {w w₁ w₂ : World} {ledger : List FrameHandle}

theorem captured_eq_captures (w : World) : w.captured = w.captures.flatMap Object.captured := by
  unfold captured captures
  induction w.heap.toList with
  | nil => rfl
  | cons o rest ih => cases o <;> simp [List.filterMap_cons, Object.capture?, Object.captured, ih]

theorem create_captured (w : World) (o : Object) :
    (w.create o).1.captured = w.captured ++ o.captured := by
  simp [captured, create]

theorem mem_captured {ref : ObjRef} {o : Object} {h : FrameHandle} (there : w.heap[ref]? = some o)
    (member : h ∈ o.captured) : h ∈ w.captured := by
  refine List.mem_flatMap.mpr ⟨o, ?_, member⟩
  exact Array.mem_toList_iff.mpr (Array.mem_of_getElem? there)

theorem Evolves.captured_eq (evolves : Evolves w₁ w₂) : w₂.captured = w₁.captured := by
  rw [captured_eq_captures, captured_eq_captures, evolves.captures_eq]

theorem Change.balanced (change : Change w₁ w₂) (balanced : w₁.arena.Balanced ledger) :
    w₂.arena.Balanced ledger := by
  cases change with
  | store stored => exact balanced.store stored
  | modifyScript target f keeps =>
    rcases modifyScript_eq w₁ target f with same | ⟨o, there, same⟩ <;> rw [same] <;> exact balanced
  | bindName target name slot =>
    rcases bindName_eq w₁ target name slot with same | ⟨chain, this, names, there, same⟩ <;>
      rw [same] <;> exact balanced
  | annotate f p => rwa [(annotate_heap w₁ f p).2.2]
  | create | newFrame | setRegister | raise | report | print | setLock => exact balanced

theorem Evolves.balanced (evolves : Evolves w₁ w₂) (balanced : w₁.arena.Balanced ledger) :
    w₂.arena.Balanced ledger :=
  evolves.keeps (P := fun w => w.arena.Balanced ledger) (fun change => change.balanced) balanced

end World

/-- Whether an action captures the running chain. -/
def Action.takesChain : Action → Bool
  | .capture .. | .bind .. => true
  | _ => false

/-- What the next instruction of a running block may take. -/
def Activation.demand (e : Engine) (w : World) (a : Activation) : Arena.Demand :=
  if (a.action e w).any Action.takesChain then { chain := a.chain } else {}

/-- What the next transition may take. -/
def State.demand (e : Engine) (s : State) : Arena.Demand :=
  match s.control with
  | .code a => a.demand e s.world
  | .execute (some block) inv _ =>
    if 0 < block.nestLevel then
      .ofLayers (Arena.layers inv.shared (block.sharedSizes.map Int64.toInt))
    else {}
  | _ => {}

/-- Every reference is counted, running blocks hold references to their own
chains, and what they borrow is kept by others. -/
structure State.Accounted (s : State) (held : Chain) : Prop where
  balanced : s.world.arena.Balanced (s.references held)
  owned : ∀ a ∈ s.running, a.owned = a.overlay
  borrowed : ∀ h ∈ s.borrowed, h ∈ held ++ s.world.captured

namespace State.Accounted

variable {w : World} {control : Control} {stack : List Cont} {held : Chain} {a : Activation}

/-- A state in which no block runs, though some may wait. -/
theorem idle
    (balanced : w.arena.Balanced ((waiting stack).flatMap Activation.overlay ++ held ++ w.captured))
    (owned : ∀ a ∈ waiting stack, a.owned = a.overlay)
    (borrowed : ∀ h ∈ control.borrowed ++ (waiting stack).flatMap Activation.borrowed,
      h ∈ held ++ w.captured)
    (none : control.activation? = none) : Accounted ⟨w, control, stack⟩ held := by
  refine ⟨?_, ?_, borrowed⟩
  · simp only [references, overlays, running, none]
    exact balanced
  · intro a member
    simp only [running, none] at member
    exact owned a member

theorem active
    (balanced : w.arena.Balanced
      (a.overlay ++ ((waiting stack).flatMap Activation.overlay ++ held) ++ w.captured))
    (own : a.owned = a.overlay) (owned : ∀ b ∈ waiting stack, b.owned = b.overlay)
    (own' : ∀ h ∈ a.borrowed, h ∈ held ++ w.captured)
    (borrowed : ∀ h ∈ (waiting stack).flatMap Activation.borrowed, h ∈ held ++ w.captured) :
    Accounted ⟨w, .code a, stack⟩ held := by
  refine ⟨?_, ?_, ?_⟩
  · rw [← List.append_assoc] at balanced
    exact balanced
  · intro b member
    rcases List.mem_cons.mp member with rfl | waits
    · exact own
    · exact owned b waits
  · intro h member
    rcases List.mem_append.mp member with mine | waits
    · exact own' h mine
    · exact borrowed h waits

/-- A block that waits counts as one that runs. -/
theorem resumed {r : Reply} {await : Await}
    (accounted : Accounted ⟨w, .reply r, .code a await :: stack⟩ held) :
    Accounted ⟨w, .code a, stack⟩ held :=
  ⟨accounted.balanced, accounted.owned, accounted.borrowed⟩

/-- What is left when a running block has ended. -/
theorem ended (accounted : Accounted ⟨w, .code a, stack⟩ held) (none : control.activation? = none)
    (lends : control.borrowed = []) : Accounted ⟨w.releaseChain a.owned, control, stack⟩ held := by
  refine idle ?_ ?_ ?_ none
  · have balanced : w.arena.Balanced
        (a.overlay ++ (waiting stack).flatMap Activation.overlay ++ held ++ w.captured) :=
      accounted.balanced
    rw [accounted.owned a List.mem_cons_self]
    simp only [List.append_assoc] at balanced ⊢
    exact balanced.releaseChain
  · exact fun b member => accounted.owned b (List.mem_cons_of_mem _ member)
  · rw [lends]
    exact fun h member => accounted.borrowed h (List.mem_append_right _ member)

end State.Accounted

namespace Activation

variable {e : Engine} {w w₁ : World} {a : Activation} {n : Next} {held others : Chain}
  {rest : List Cont}

theorem Takes.balanced {makes : Object → Prop} (takes : a.Takes w makes w₁)
    (balanced : w.arena.Balanced (others ++ w.captured))
    (allowed : ∀ o, makes o → o.captured = a.chain ∧
      w.arena.Meets (others ++ w.captured) { chain := a.chain }) :
    w₁.arena.Balanced (others ++ w₁.captured) ∧ ∀ h ∈ w.captured, h ∈ w₁.captured := by
  cases takes with
  | nothing => exact ⟨balanced, fun _ member => member⟩
  | @captured arena o retained made =>
    obtain ⟨same, meets⟩ := allowed o made
    have booked := balanced.retainChain meets
    rw [retained] at booked
    cases booked with
    | made balanced' =>
      rw [World.create_captured, same]
      refine ⟨balanced'.congr fun h => ?_, fun h member => List.mem_append_left _ member⟩
      simp only [List.count_append, World.captured]
      omega
  | @refused arena dropped error o refused wanted =>
    obtain ⟨-, meets⟩ := allowed o wanted
    have booked := balanced.retainChain meets
    rw [refused] at booked
    cases booked with
    | failed balanced' stale => exact ⟨balanced', fun _ member => member⟩

/-- A transition of a running block leaves everything accounted for. -/
theorem Runs.accounted {plan : Plan} (runs : a.Runs w plan n)
    (accounted : State.Accounted ⟨w, .code a, rest⟩ held)
    (allowed : ∀ o, plan.makes o → o.captured = a.chain ∧
      w.arena.Meets (State.references ⟨w, .code a, rest⟩ held) { chain := a.chain }) :
    State.Accounted ⟨n.world, n.control, n.push ++ rest⟩ held := by
  have kept : ∀ {w₁ w₂}, a.Takes w plan.makes w₁ → World.Evolves w₁ w₂ →
      State.Accounted ⟨w₂, .code a, rest⟩ held := by
    intro w₁ w₂ takes evolves
    obtain ⟨balanced, grown⟩ := takes.balanced accounted.balanced allowed
    refine ⟨?_, accounted.owned, fun h member => ?_⟩
    · rw [State.references, evolves.captured_eq]
      exact evolves.balanced balanced
    · rw [evolves.captured_eq, List.mem_append]
      exact (List.mem_append.mp (accounted.borrowed h member)).imp_right (grown h)
  cases runs with
  | goes takes evolves planned =>
    have later := kept takes evolves
    refine ⟨later.balanced, ?_, later.borrowed⟩
    intro b member
    rcases List.mem_cons.mp member with rfl | waits
    · exact accounted.owned a List.mem_cons_self
    · exact accounted.owned b (List.mem_cons_of_mem _ waits)
  | asks evolves asks planned =>
    have later := kept .nothing evolves
    cases asks <;> exact .idle later.balanced later.owned later.borrowed rfl
  | answers takes evolves => exact (kept takes evolves).ended rfl rfl
  | stops takes evolves planned => exact (kept takes evolves).ended rfl rfl

/-- What a running block may capture its chain with, it has a demand for. -/
theorem stepPlan_makes {o : Object} (makes : (a.stepPlan e w).makes o) :
    o.captured = a.chain ∧ a.demand e w = { chain := a.chain } := by
  unfold stepPlan at makes
  unfold demand
  split at makes
  next action same =>
    rw [same]
    rcases makes with ⟨_, _, _, _, rfl, rfl⟩ | ⟨_, _, rfl, rfl⟩ <;> exact ⟨rfl, if_pos rfl⟩
  · cases makes

end Activation

/-! ### Other transitions -/

/-- A transition that answers requests keeps the accounts. -/
theorem Calm.accounted {e : Engine} {w : World} {n : Next} {control : Control} {stack rest : List Cont}
    {held : Chain} (calm : Calm e w n) (accounted : State.Accounted ⟨w, control, stack⟩ held)
    (idle : control.activation? = none) (same : waiting rest = waiting stack) :
    State.Accounted ⟨n.world, n.control, n.push ++ rest⟩ held := by
  have stays : n.control.activation? = none := by
    cases running : n.control with
    | code a => exact absurd running (calm.idle a)
    | _ => rfl
  have stack : waiting (n.push ++ rest) = waiting stack := by
    rw [waiting, List.filterMap_append, calm.pushes, List.nil_append, ← same]
    rfl
  refine ⟨?_, ?_, ?_⟩
  · have balanced := calm.evolves.balanced accounted.balanced
    simp only [State.references, State.overlays, State.running, idle] at balanced
    simp only [State.references, State.overlays, State.running, stays, stack,
      calm.evolves.captured_eq]
    exact balanced
  · intro a member
    simp only [State.running, stays, stack] at member
    exact accounted.owned a (List.mem_append_right _ member)
  · intro h member
    simp only [State.borrowed, stack, List.mem_append] at member
    rw [calm.evolves.captured_eq]
    rcases member with entered | waits
    · -- Only what is about to run borrows, and it was captured.
      cases running : n.control with
      | execute block inv completion =>
        rw [running] at entered
        cases calm.enters block inv completion running with
        | closure there => exact List.mem_append_right _ (World.mem_captured there entered)
        | evaluation there => exact List.mem_append_right _ (World.mem_captured there entered)
      | code a => exact absurd running (calm.idle a)
      | _ =>
        rw [running] at entered
        cases entered
    · exact accounted.borrowed h (List.mem_append_right _ waits)

theorem Framed.arena_eq {w w₁ : World} {block : CodeBlock} {inv : Invocation} {frame : FrameRef}
    (framed : Framed w block inv w₁ frame) : w₁.arena = w.arena ∧ w₁.captured = w.captured := by
  cases framed <;> exact ⟨rfl, rfl⟩

/-- A block that begins to run takes references to the chain that it builds. -/
theorem Enters.accounted {e : Engine} {w : World} {block : CodeBlock} {inv : Invocation}
    {completion : Completion} {n : Next} {stack : List Cont} {held : Chain}
    (enters : Enters w block inv completion n)
    (accounted : State.Accounted ⟨w, .execute (some block) inv completion, stack⟩ held)
    (meets : w.arena.Meets (State.references ⟨w, .execute (some block) inv completion, stack⟩ held)
      (State.demand e ⟨w, .execute (some block) inv completion, stack⟩)) :
    State.Accounted ⟨n.world, n.control, n.push ++ stack⟩ held := by
  obtain ⟨balanced, owned, borrowed⟩ := accounted
  have waits : ∀ h ∈ (waiting stack).flatMap Activation.borrowed, h ∈ held ++ w.captured :=
    fun h member => borrowed h (List.mem_append_right _ member)
  have booked : ∀ {w₁ frame}, Framed w block inv w₁ frame → 0 < block.nestLevel →
      Arena.Booked (State.references ⟨w, .execute (some block) inv completion, stack⟩ held)
        inv.shared id (w₁.arena.overlay inv.shared (block.sharedSizes.map Int64.toInt)) := by
    intro w₁ frame framed nested
    rw [framed.arena_eq.1]
    simp only [State.demand, if_pos nested] at meets
    exact balanced.overlay meets
  cases enters with
  | @flat w₁ frame framed flat =>
    obtain ⟨arena, captured⟩ := framed.arena_eq
    have lends : (inv.begun block frame inv.shared [] completion).borrowed = inv.shared :=
      if_neg flat
    have none : (inv.begun block frame inv.shared [] completion).overlay = [] := if_neg flat
    refine .active ?_ none.symm owned ?_ ?_
    · rw [none, captured, arena]
      exact balanced
    · rw [lends, captured]
      exact fun h member => borrowed h (List.mem_append_left _ member)
    · rwa [captured]
  | @nested w₁ frame arena chain framed nested overlaid =>
    have booked := booked framed nested
    rw [overlaid] at booked
    have captured : World.captured { w₁ with arena } = w.captured := framed.arena_eq.2
    have own : (inv.begun block frame chain chain completion).overlay = chain := if_pos nested
    have lends : (inv.begun block frame chain chain completion).borrowed = [] := if_pos nested
    cases booked with
    | made balanced' =>
      refine .active ?_ own.symm owned ?_ ?_
      · rw [own, captured, List.append_assoc]
        exact balanced'
      · simp [lends]
      · rwa [captured]
  | @refused w₁ frame arena dropped error framed nested refused =>
    have booked := booked framed nested
    rw [refused] at booked
    have captured : World.captured ({ w₁ with arena }.reportReleases dropped) = w.captured :=
      framed.arena_eq.2
    cases booked with
    | failed balanced' =>
      refine .idle ?_ owned ?_ rfl
      · rw [captured]
        exact balanced'
      · rw [captured]
        exact waits
  | broken framed nested broken =>
    have booked := booked framed nested
    rw [broken] at booked
    cases booked
  | crowded | small => exact .idle balanced owned waits rfl

namespace Machine

variable {e : Engine} {s s' : State} {held : Chain}

theorem unwind_accounted {w : World} {p : Panic} {top : Cont} {rest : List Cont}
    (accounted : State.Accounted ⟨w, .panic p, top :: rest⟩ held) :
    State.Accounted ⟨unwind w top, .panic p, rest⟩ held := by
  cases top with
  | code a await => exact State.Accounted.ended (a := a) ⟨accounted.1, accounted.2, accounted.3⟩ rfl rfl
  | unlock ref =>
    have evolves := World.unlock_evolves w ref
    have balanced := evolves.balanced accounted.balanced
    refine .idle ?_ accounted.owned ?_ rfl
    · rw [unwind, evolves.captured_eq]
      exact balanced
    · rw [unwind, evolves.captured_eq]
      exact accounted.borrowed
  | _ => exact ⟨accounted.1, accounted.2, accounted.3⟩

/-- Every transition whose demand can be met keeps the accounts. -/
theorem Transition.accounted (transition : Transition e s s') (accounted : s.Accounted held)
    (meets : s.world.arena.Meets (s.references held) (s.demand e)) : s'.Accounted held := by
  cases transition with
  | rests => exact accounted
  | @answers w control stack n plain calm =>
    refine calm.accounted accounted ?_ rfl
    cases control with
    | code a => cases plain
    | _ => rfl
  | @passes w r top rest n other calm =>
    refine calm.accounted accounted rfl ?_
    rw [waiting, waiting, List.filterMap_cons, other]
  | vacant =>
    exact .idle accounted.balanced accounted.owned
      (fun h member => accounted.borrowed h (List.mem_append_right _ member)) rfl
  | begins enters => exact enters.accounted accounted meets
  | runs runs =>
    refine runs.accounted accounted fun o makes => ?_
    obtain ⟨same, demand⟩ := Activation.stepPlan_makes makes
    simp only [State.demand, demand] at meets
    exact ⟨same, meets⟩
  | returns runs => exact runs.accounted accounted.resumed fun o makes => makes.elim
  | unwinds => exact unwind_accounted accounted

end Machine

/-! ### Accesses -/

/-- The frames that an action works on are those of a chain. Where it fails
because of a frame, it has read that frame. -/
def Action.Touches (w : World) (chain : Chain) : Action → Prop
  | .store handle _ _ _ => handle ∈ chain
  | .fail error => ∃ handle ∈ chain, ∃ slot, w.arena.load handle slot = .error error
  | _ => True

namespace Activation

variable {e : Engine} {w : World} {a : Activation} {opcode : Opcode} {action : Action}

/-- An action, if there is one, works on frames of the running chain. -/
def Touching (w : World) (a : Activation) (does : Option Action) : Prop :=
  ∀ action, does = some action → action.Touches w a.chain

theorem Touching.bind {α : Type} {found : Option α} {does : α → Option Action}
    (touching : ∀ v, a.Touching w (does v)) : a.Touching w (found >>= does) := by
  cases found with
  | none => intro action same; cases same
  | some v => exact touching v

theorem Touching.pure (touches : action.Touches w a.chain) : a.Touching w (pure action) := by
  rintro _ ⟨⟩
  exact touches

theorem level_mem {word : UInt32} {handle : FrameHandle} (found : a.level word = .ok handle) :
    handle ∈ a.chain := by
  unfold level at found
  split at found
  next there => cases found; exact List.mem_of_getElem? there
  · cases found

theorem level_touches {word : UInt32} (missing : a.level word = .error action) :
    action.Touches w a.chain := by
  unfold level at missing
  split at missing <;> cases missing
  trivial

theorem actionOf_touching : a.Touching w (a.actionOf e w opcode) := by
  cases opcode with
  | read =>
    refine .bind fun word => ?_
    split
    next missing => exact .pure (level_touches missing)
    next handle found =>
      refine .bind fun slot => ?_
      split
      · exact .pure trivial
      next refused => exact .pure ⟨handle, level_mem found, _, refused⟩
  | write =>
    refine .bind fun word => ?_
    split
    next missing => exact .pure (level_touches missing)
    next found => exact .bind fun _ => .bind fun _ => .pure (level_mem found)
  | _ =>
    simp only [actionOf, callAction, catchBranch, construct]
    repeat' first
      | exact Touching.pure trivial
      | refine Touching.bind fun _ => ?_
      | split
      | rintro _ ⟨⟩

theorem action_touches (does : a.action e w = some action) : action.Touches w a.chain := by
  unfold Activation.action at does
  split at does
  · cases does
    trivial
  · revert does
    refine Touching.bind (fun word => ?_) action
    split
    · exact actionOf_touching
    · exact .pure trivial

end Activation

/-- No access that code makes to a shared frame, of its own or through a
binding, is refused because the frame is gone. -/
structure State.NeverStale (e : Engine) (s : State) : Prop where
  reads : ∀ a, s.control = .code a → a.action e s.world ≠ some (.fail .stale)
  writes : ∀ a handle slot v next, s.control = .code a →
    a.action e s.world = some (.store handle slot v next) →
    s.world.arena.store handle slot v ≠ .error .stale
  captures : ∀ a action arena dropped, s.control = .code a →
    a.action e s.world = some action → action.takesChain = true →
    s.world.arena.retainChain a.chain ≠ .failed arena dropped .stale
  calls : ∀ block inv completion arena dropped,
    s.control = .execute (some block) inv completion → 0 < block.nestLevel →
    s.world.arena.overlay inv.shared (block.sharedSizes.map Int64.toInt) ≠
      .failed arena dropped .stale
  bindings : ∀ (ref : ObjRef) chain this names r written,
    s.world.heap[ref]? = some (.binding chain this names) →
    (bindingAnswer e s.world chain this names r).control ≠
      .reply (.failed written (.host (.arena .stale)))

theorem bindingAnswer_ne_stale {e : Engine} {w : World} {chain : Chain} {this : Value}
    {names : Table BindingSlot} {r : Request} {written : Option Value}
    (loads : ∀ {key handle slot}, resolveName chain names key = some (handle, slot) →
      w.arena.load handle slot ≠ .error .stale)
    (stores : ∀ {key handle slot}, resolveName chain names key = some (handle, slot) →
      w.arena.store handle slot r.lastArg ≠ .error .stale) :
    (bindingAnswer e w chain this names r).control ≠
      .reply (.failed written (.host (.arena .stale))) := by
  unfold bindingAnswer withKey
  intro stale
  split at stale
  · split at stale
    · dsimp only at stale
      split at stale
      · cases stale
      next resolved =>
        split at stale
        · cases stale
        next refused =>
          cases stale
          exact loads resolved refused
    · cases stale
  · split at stale
    · dsimp only at stale
      split at stale
      · cases stale
      next resolved =>
        split at stale
        · cases stale
        next refused =>
          cases stale
          exact stores resolved refused
    · cases stale
  · split at stale <;> cases stale
  · split at stale <;> cases stale
  · split at stale
    · split at stale
      · unfold evaluate at stale
        split at stale
        · cases stale
        · split at stale <;> cases stale
      · cases stale
    · cases stale
  · cases stale

namespace State.Accounted

variable {e : Engine} {s : State} {held : Chain}

theorem mem_references_of_captured {h : FrameHandle} (member : h ∈ held ++ s.world.captured) :
    h ∈ s.references held := by
  rw [references, List.append_assoc]
  exact List.mem_append_right _ member

theorem chain_listed {a : Activation} (accounted : s.Accounted held) (running : s.control = .code a)
    {h : FrameHandle} (member : h ∈ a.chain) : h ∈ s.references held := by
  by_cases nested : 0 < a.block.nestLevel
  · have own : h ∈ s.overlays := by
      refine List.mem_flatMap.mpr ⟨a, ?_, by rwa [Activation.overlay, if_pos nested]⟩
      simp [State.running, running, Control.activation?]
    simp [references, own]
  · refine mem_references_of_captured (accounted.borrowed h (List.mem_append_left _ ?_))
    rw [running, Control.borrowed, Activation.borrowed, if_neg nested]
    exact member

theorem neverStale (accounted : s.Accounted held)
    (meets : s.world.arena.Meets (s.references held) (s.demand e)) : s.NeverStale e where
  reads a running does := by
    obtain ⟨handle, member, slot, refused⟩ := Activation.action_touches does
    exact accounted.balanced.load_ne_stale (accounted.chain_listed running member) refused
  writes a handle slot v next running does :=
    accounted.balanced.store_ne_stale
      (accounted.chain_listed running (Activation.action_touches does))
  captures a action arena dropped running does takes refused := by
    have demand : s.demand e = { chain := a.chain } := by
      simp [State.demand, running, Activation.demand, does, takes]
    rw [demand] at meets
    have booked := accounted.balanced.retainChain meets
    rw [refused] at booked
    cases booked with
    | failed _ stale =>
      obtain ⟨h, member, unlisted⟩ := stale rfl
      exact unlisted (accounted.chain_listed running member)
  calls block inv completion arena dropped running nested refused := by
    simp only [State.demand, running, if_pos nested] at meets
    have booked := accounted.balanced.overlay meets
    rw [refused] at booked
    cases booked with
    | failed _ stale =>
      obtain ⟨h, member, unlisted⟩ := stale rfl
      refine unlisted (mem_references_of_captured (accounted.borrowed h ?_))
      rw [State.borrowed, running]
      exact List.mem_append_left _ member
  bindings ref chain this names r written there := by
    have listed : ∀ {key handle slot}, resolveName chain names key = some (handle, slot) →
        handle ∈ s.references held := by
      intro key handle slot resolved
      obtain ⟨place, -, resolved⟩ := Option.bind_eq_some_iff.mp resolved
      split at resolved
      · cases resolved
      · obtain ⟨_, found, ⟨⟩⟩ := Option.bind_eq_some_iff.mp resolved
        refine mem_references_of_captured (List.mem_append_right _ ?_)
        exact World.mem_captured there (List.mem_of_getElem? found)
    exact bindingAnswer_ne_stale
      (fun resolved => accounted.balanced.load_ne_stale (listed resolved))
      (fun resolved => accounted.balanced.store_ne_stale (listed resolved))

end State.Accounted
end ScriptEngine
