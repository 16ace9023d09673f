import ScriptEngine.Proofs.SessionMoves

/-! Who reaches a shared frame. A chain is handed on as it is, by capturing it and
by running under it, or another one is built over it; the frames of the new one
are those of the old, and new ones. -/
namespace ScriptEngine

/-- The chains that have come of a chain by building over it. -/
def family (origin : Chain) : List Footprint → List Chain
  | [] => [origin]
  | last :: past =>
    match last.begets? with
    | some (base, built) =>
      if base ∈ family origin past then built :: family origin past else family origin past
    | none => family origin past

/-- The host brings in no chain with a frame unless it has come of the chain that
the frame was made for. -/
def Lends (h : FrameHandle) (origin : Chain) : List Footprint → Prop
  | [] => True
  | last :: past => Lends h origin past ∧ ∀ chain ∈ last.lends, h ∈ chain → chain ∈ family origin past

instance Lends.decidable (h : FrameHandle) (origin : Chain) :
    (past : List Footprint) → Decidable (Lends h origin past)
  | [] => .isTrue trivial
  | last :: past =>
    have := Lends.decidable h origin past
    inferInstanceAs (Decidable (Lends h origin past ∧
      ∀ chain ∈ last.lends, h ∈ chain → chain ∈ family origin past))

/-! ### Who reaches a frame -/

/-- The chain that code runs under, or is about to. -/
def Control.chains : Control → List Chain
  | .execute _ inv _ => [inv.shared]
  | .code a => [a.chain]
  | _ => []

/-- The chains of everything that captured one. -/
def World.chains (w : World) : List Chain := w.captures.map Object.captured

/-- All chains by which frames are reached: of what runs, of what waits, and of
closures and bindings. -/
def State.chains (s : State) : List Chain :=
  s.control.chains ++ (waiting s.stack).map Activation.chain ++ s.world.chains

namespace World

variable {w w₁ w₂ : World} {chain : Chain}

theorem Evolves.chains_eq (evolves : Evolves w₁ w₂) : w₂.chains = w₁.chains := by
  rw [chains, chains, evolves.captures_eq]

theorem mem_chains {ref : ObjRef} {o : Object} (there : w.heap[ref]? = some o)
    (captured : o.capture?.isSome) : o.captured ∈ w.chains := by
  obtain ⟨capture, same⟩ := Option.isSome_iff_exists.mp captured
  refine List.mem_map.mpr ⟨capture, ?_, ?_⟩
  · exact List.mem_filterMap.mpr ⟨o, Array.mem_toList_iff.mpr (Array.mem_of_getElem? there), same⟩
  · cases o <;> cases same <;> rfl

theorem create_chains {o : Object} (member : chain ∈ (w.create o).1.chains) :
    chain ∈ w.chains ∨ chain = o.captured := by
  simp only [chains, captures, create, Array.toList_push, List.filterMap_append, List.map_append,
    List.mem_append] at member
  refine member.imp_right fun member => ?_
  obtain ⟨capture, found, rfl⟩ := List.mem_map.mp member
  cases o <;> simp_all [Object.capture?, Object.captured]

end World

/-- What a running block captures is its own chain. -/
theorem Activation.Takes.chains {w w₁ : World} {a : Activation} {makes : Object → Prop}
    {chain : Chain} (takes : a.Takes w makes w₁) (own : ∀ o, makes o → o.captured = a.chain)
    (member : chain ∈ w₁.chains) : chain ∈ w.chains ∨ chain = a.chain := by
  cases takes with
  | nothing => exact .inl member
  | @captured arena o retained made =>
    rw [← own o made]
    exact World.create_chains member
  | refused => exact .inl member

theorem Activation.Runs.chains {w : World} {a : Activation} {plan : Plan} {n : Next} {chain : Chain}
    {stack : List Cont} (runs : a.Runs w plan n) (own : ∀ o, plan.makes o → o.captured = a.chain)
    (member : chain ∈ State.chains ⟨n.world, n.control, n.push ++ stack⟩) :
    chain = a.chain ∨ chain ∈ (waiting stack).map Activation.chain ∨ chain ∈ w.chains := by
  have left {w₁ w₂ : World} (takes : a.Takes w plan.makes w₁) (evolves : World.Evolves w₁ w₂)
      (member : chain ∈ w₂.chains) : chain = a.chain ∨ chain ∈ w.chains := by
    rw [evolves.chains_eq] at member
    exact (takes.chains own member).symm
  cases runs with
  | goes takes evolves planned =>
    simp only [State.chains, Control.chains, List.nil_append, List.mem_append,
      List.mem_singleton] at member
    rcases member with (rfl | waits) | captured
    · exact .inl rfl
    · exact .inr (.inl waits)
    · exact (left takes evolves captured).imp_right .inr
  | @asks w₁ control await evolves asks planned =>
    have none : control.chains = [] := by cases asks <;> rfl
    simp only [State.chains, none, waiting, List.singleton_append, List.nil_append, List.mem_append,
      List.filterMap_cons, Cont.activation?, List.map_cons, List.mem_cons] at member
    rcases member with (rfl | waits) | captured
    · exact .inl rfl
    · exact .inr (.inl waits)
    · exact .inr (.inr (evolves.chains_eq ▸ captured))
  | answers takes evolves | stops takes evolves =>
    simp only [State.chains, Control.chains, List.nil_append, List.mem_append] at member
    rcases member with waits | captured
    · exact .inr (.inl waits)
    · exact (left takes evolves captured).imp_right .inr

/-- A transition that answers requests uses chains that were captured. -/
theorem Calm.chains {e : Engine} {w : World} {n : Next} {chain : Chain} {stack : List Cont}
    (calm : Calm e w n) (member : chain ∈ State.chains ⟨n.world, n.control, n.push ++ stack⟩) :
    chain ∈ (waiting stack).map Activation.chain ∨ chain ∈ w.chains := by
  have same : waiting (n.push ++ stack) = waiting stack := by
    rw [waiting, List.filterMap_append, calm.pushes, List.nil_append]
    rfl
  simp only [State.chains, same, calm.evolves.chains_eq, List.mem_append] at member
  rcases member with (entered | waits) | captured
  · refine .inr ?_
    cases running : n.control with
    | execute block inv completion =>
      rw [running, Control.chains, List.mem_singleton] at entered
      rw [entered]
      cases calm.enters block inv completion running with
      | closure there => exact World.mem_chains there rfl
      | evaluation there => exact World.mem_chains there rfl
    | code a => exact absurd running (calm.idle a)
    | _ =>
      rw [running] at entered
      cases entered
  · exact .inl waits
  · exact .inr captured

/-- A block begins to run under the chain it is given, or one built over it. -/
theorem Enters.begets {w : World} {block : CodeBlock} {inv : Invocation} {completion : Completion}
    {n : Next} {a : Activation} (enters : Enters w block inv completion n)
    (runs : n.control = .code a) :
    ¬0 < block.nestLevel ∧ a.chain = inv.shared ∨ 0 < block.nestLevel ∧
      w.arena.overlay inv.shared (block.sharedSizes.map Int64.toInt) = .made n.world.arena a.chain := by
  cases enters with
  | flat framed flat =>
    cases runs
    exact .inl ⟨flat, rfl⟩
  | nested framed nested overlaid =>
    cases runs
    rw [framed.arena_eq.1] at overlaid
    exact .inr ⟨nested, overlaid⟩
  | _ => cases runs

theorem Enters.idle {w : World} {block : CodeBlock} {inv : Invocation}
    {completion : Completion} {n : Next} (enters : Enters w block inv completion n) :
    n.world.chains = w.chains ∧ n.push = [] ∧ ∀ block inv completion,
      n.control ≠ .execute block inv completion := by
  have framed {w₁ : World} {frame : FrameRef} (framed : Framed w block inv w₁ frame) :
      w₁.chains = w.chains := by
    cases framed <;> rfl
  cases enters with
  | flat made | nested made | refused made | broken made =>
    have same := framed made
    refine ⟨same, rfl, ?_⟩
    rintro _ _ _ ⟨⟩
  | crowded | small =>
    refine ⟨rfl, rfl, ?_⟩
    rintro _ _ _ ⟨⟩

namespace Machine

variable {e : Engine} {s s' : State} {chain : Chain}

theorem Transition.chains (transition : Transition e s s') (member : chain ∈ s'.chains) :
    chain ∈ s.chains ∨ ∃ base ∈ s.chains, ∃ block inv completion a,
      s.control = .execute block inv completion ∧ s'.control = .code a ∧ base = inv.shared ∧
        chain = a.chain := by
  have stays {w : World} {control : Control} {stack rest : List Cont}
      (kept : waiting rest = waiting stack)
      (member : chain ∈ (waiting rest).map Activation.chain ∨ chain ∈ w.chains) :
      chain ∈ State.chains ⟨w, control, stack⟩ := by
    rw [kept] at member
    simp only [State.chains, List.mem_append]
    exact member.elim (fun waits => .inl (.inr waits)) .inr
  cases transition with
  | rests => exact .inl member
  | answers plain calm => exact .inl (stays rfl (calm.chains member))
  | passes other calm =>
    exact .inl (stays (by simp [waiting, other]) (calm.chains member))
  | vacant =>
    simp only [State.chains, Control.chains, List.nil_append, List.mem_append] at member
    exact .inl (stays rfl member)
  | @begins w block inv completion stack n enters =>
    obtain ⟨captured, pushed, idle⟩ := enters.idle
    simp only [State.chains, captured, pushed, List.nil_append, List.mem_append] at member
    rcases member with (runs | waits) | captured
    · refine .inr ⟨inv.shared, by simp [State.chains, Control.chains], ?_⟩
      cases control : n.control with
      | code a =>
        rw [control, Control.chains, List.mem_singleton] at runs
        exact ⟨block, inv, completion, a, rfl, rfl, rfl, runs⟩
      | execute block inv completion => exact absurd control (idle block inv completion)
      | _ =>
        rw [control] at runs
        cases runs
    · exact .inl (stays rfl (.inl waits))
    · exact .inl (stays rfl (.inr captured))
  | @runs w a stack n runs =>
    refine .inl ?_
    rcases runs.chains (fun o makes => (Activation.stepPlan_makes makes).1) member with rfl | others
    · simp [State.chains, Control.chains]
    · exact stays rfl others
  | @returns w r a await rest n runs =>
    refine .inl ?_
    have stacked : waiting (.code a await :: rest) = a :: waiting rest := rfl
    simp only [State.chains, stacked, List.map_cons, List.mem_append, List.mem_cons]
    rcases runs.chains (fun _ makes => makes.elim) member with rfl | others
    · exact .inl (.inr (.inl rfl))
    · exact others.elim (fun waits => .inl (.inr (.inr waits))) .inr
  | @unwinds w p top rest =>
    refine .inl ?_
    simp only [State.chains, Control.chains, List.nil_append, List.mem_append] at member
    have kept : (unwind w top).chains = w.chains := by
      cases top with
      | unlock ref => exact (World.unlock_evolves w ref).chains_eq
      | _ => rfl
    have below : ∀ a ∈ waiting rest, a ∈ waiting (top :: rest) := by
      intro a waits
      rw [waiting, List.filterMap_cons]
      split
      · exact waits
      · exact List.mem_cons_of_mem _ waits
    rw [kept] at member
    simp only [State.chains, List.mem_append]
    exact member.elim (fun waits => .inl (.inr (List.map_subset _ below waits))) .inr

theorem step_chains (member : chain ∈ (step e s).chains) :
    chain ∈ s.chains ∨ ∃ base ∈ s.chains, s.begets? e = some (base, chain) := by
  refine ((step_transition e s).chains member).imp_right ?_
  rintro ⟨base, known, block, inv, completion, a, control, runs, rfl, rfl⟩
  exact ⟨inv.shared, known, by rw [State.begets?, control, runs]⟩

theorem step_begets {base : Chain} (begets : s.begets? e = some (base, chain)) :
    chain = base ∨ ∃ sizes, s.world.arena.overlay base sizes = .made (step e s).world.arena chain := by
  unfold State.begets? at begets
  split at begets
  next block inv completion a control runs =>
    cases begets
    obtain ⟨w, _, stack⟩ := s
    cases control
    cases block with
    | none => cases runs
    | some block =>
      rcases (enter_enters w block inv completion).begets runs with ⟨-, same⟩ | ⟨-, overlaid⟩
      · exact .inl same
      · exact .inr ⟨_, overlaid⟩
  · cases begets

end Machine

theorem FrameUse.chains {w : World} {chain : Chain} {use : FrameUse}
    (member : chain ∈ (use.run w).1.chains) :
    chain ∈ w.chains ∨ chain ∈ (use.footprint w).lends := by
  have kept {α : Type} (acquired : Arena.Acquired α) :
      (w.arenaOutcome acquired).1.chains = w.chains := by
    cases acquired <;> rfl
  cases use with
  | alloc size =>
    simp only [run, World.allocFrame] at member
    split at member <;> exact .inl member
  | retain h =>
    simp only [run, World.retainFrame] at member
    split at member <;> exact .inl member
  | release h =>
    simp only [run, World.releaseFrame] at member
    split at member <;> exact .inl member
  | overlay | retainChain => exact .inl (kept _ ▸ member)
  | releaseChain => exact .inl member
  | bind lent this =>
    have same := kept (w.arena.retainChain lent)
    simp only [run, World.newBinding, World.retainChain] at member
    split at member <;> rename_i outcome <;> rw [outcome] at same
    · rcases World.create_chains member with captured | rfl
      · exact .inl (same ▸ captured)
      · exact .inr List.mem_cons_self
    all_goals exact .inl (same ▸ member)

namespace Move

variable {e : Engine} {s s' : State} {shown : Footprint} {h : FrameHandle} {base chain : Chain}

theorem chains (move : Move e s shown s') (member : chain ∈ s'.chains) :
    chain ∈ s.chains ∨ chain ∈ shown.lends ∨
      ∃ base ∈ s.chains, shown.begets? = some (base, chain) := by
  have rests (final : s.isFinal = true) : s.chains = s.world.chains := by
    obtain ⟨w, control, stack⟩ := s
    cases control <;> cases stack <;> first | rfl | cases final
  cases move with
  | runs => exact (Machine.step_chains member).imp_right .inr
  | operates final target r =>
    rw [rests final]
    exact .inl member
  | executes final block inv =>
    rw [rests final]
    rcases List.mem_cons.mp member with rfl | captured
    · exact .inr (.inl List.mem_cons_self)
    · exact .inl captured
  | @evaluates ref _ this names n final there source next =>
    have calm := evaluate_calm e s.world there source
    rw [next] at calm
    have known : chain ∈ (waiting []).map Activation.chain ∨ chain ∈ s.world.chains := by
      apply calm.chains
      rw [List.append_nil]
      exact member
    rw [rests final]
    exact .inl (known.resolve_left List.not_mem_nil)
  | uses use =>
    rcases List.mem_append.mp member with running | captured
    · exact .inl (List.mem_append_left _ running)
    · exact (use.chains captured).imp (List.mem_append_right _) .inl
  | stores target stored => exact .inl member
  | changes evolves same =>
    rw [State.chains, evolves.chains_eq] at member
    exact .inl member

/-- A chain that a move builds has no frames that were given out before, but
those of the chain it is built over. -/
theorem mem_begets (move : Move e s shown s') (ages : s.world.arena.Ages s'.world.arena)
    (tidy : s.world.arena.Tidy) (begets : shown.begets? = some (base, chain))
    (issued : s.world.arena.Issued h) (member : h ∈ chain) : h ∈ base := by
  have built {sizes : List Int}
      (overlaid : s.world.arena.overlay base sizes = .made s'.world.arena chain) : h ∈ base := by
    rcases Arena.overlay_mem tidy overlaid ages.slots member with shared | ⟨size, fresh⟩
    · exact shared
    · exact absurd issued (fresh.unissued ages)
  cases move with
  | runs =>
    rcases Machine.step_begets begets with rfl | ⟨sizes, overlaid⟩
    · exact member
    · exact built overlaid
  | uses use =>
    obtain ⟨sizes, overlaid⟩ := FrameUse.footprint_begets begets
    exact built overlaid
  | _ => cases begets

end Move

theorem Course.issued {e : Engine} {s t : State} {past : List Footprint} {h : FrameHandle}
    (course : Course e s past t) (tidy : s.world.arena.Tidy) (issued : s.world.arena.Issued h) :
    t.world.arena.Issued h := by
  induction course with
  | here => exact issued
  | moves earlier move ages ih => exact move.issued ages (earlier.tidy tidy) ih

/-- A frame that only one chain reaches is reached later by the chains that have
come of that one, and by no other. -/
theorem Course.family {e : Engine} {s t : State} {past : List Footprint} {h : FrameHandle}
    {origin : Chain} (course : Course e s past t) (tidy : s.world.arena.Tidy)
    (issued : s.world.arena.Issued h) (lends : Lends h origin past)
    (alone : ∀ chain ∈ s.chains, h ∈ chain → chain = origin) :
    ∀ chain ∈ t.chains, h ∈ chain → chain ∈ family origin past := by
  induction course with
  | here =>
    intro chain known member
    exact List.mem_singleton.mpr (alone chain known member)
  | @moves past last t t' earlier move ages ih =>
    intro chain known member
    have before := ih lends.1
    have grown : ∀ chain ∈ ScriptEngine.family origin past,
        chain ∈ ScriptEngine.family origin (last :: past) := by
      intro chain known
      rw [ScriptEngine.family]
      split
      · split
        · exact List.mem_cons_of_mem _ known
        · exact known
      · exact known
    rcases move.chains known with known | lent | ⟨base, known, begets⟩
    · exact grown chain (before chain known member)
    · exact grown chain (lends.2 chain lent member)
    · have shared :=
        move.mem_begets ages (earlier.tidy tidy) begets (earlier.issued tidy issued) member
      rw [ScriptEngine.family, begets]
      simp only [if_pos (before base known shared)]
      exact List.mem_cons_self

end ScriptEngine
