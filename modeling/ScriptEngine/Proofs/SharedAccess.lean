import ScriptEngine.Proofs.CheckedRun
import ScriptEngine.Proofs.FrameBacking
import ScriptEngine.Proofs.SessionMoves

/-! Checked code reaches its shared slots. While a checked block runs, the frames
of its chain stay and keep their sizes, whatever is called and whatever the host
does with references of its own; so an access fails only at a level that was
taken over from outside, in a frame that is smaller than declared. -/
namespace ScriptEngine

/-! ### Uses of shared frames -/

theorem arenaOutcome_backs {α : Type} (w : World) {ledger : List FrameHandle} {gains : α → Chain}
    {acquired : Arena.Acquired α} (leaves : acquired.Leaves ledger gains) :
    (w.arenaOutcome acquired).1.arena.Backs
      (((w.arenaOutcome acquired).2.map gains).gains ++ ledger) := by
  cases acquired <;> exact leaves

/-- A use of shared frames backs what the host gains, and drops what it gives up. -/
theorem FrameUse.backs {w : World} {others : Chain} (use : FrameUse)
    (backs : w.arena.Backs (use.drops ++ others)) (bears : w.arena.Bears use.demand) :
    (use.run w).1.arena.Backs ((use.run w).2.gains ++ others) := by
  cases use with
  | alloc size =>
    have fits {arena : Arena} (allocated : (w.arena.alloc size).arena? = some arena) :
        arena.frames.size ≤ UInt32.size :=
      Nat.le_trans (Arena.size_alloc_le allocated) bears.slots
    simp only [run, World.allocFrame]
    cases made : w.arena.alloc size with
    | full => exact backs
    | made arena h =>
      have allocated : (w.arena.alloc size).arena? = some arena := by rw [made]; rfl
      obtain ⟨_, given, later, -⟩ := backs.alloc allocated (fits allocated)
      obtain rfl := given arena h made
      exact later
    | broken arena =>
      have allocated : (w.arena.alloc size).arena? = some arena := by rw [made]; rfl
      obtain ⟨h, -, later, -⟩ := backs.alloc allocated (fits allocated)
      have dropped : arena.Backs ([h] ++ others) := later
      exact dropped.drop
  | retain h =>
    simp only [run, World.retainFrame]
    cases there : w.arena.frame? h with
    | none =>
      simp only [Arena.retain?, there, Option.map_none]
      exact backs
    | some f =>
      have limit := bears.counts h
      simp only [demand, Arena.refs?, there, Option.map_some, Option.elim_some,
        List.count_singleton_self] at limit
      simp only [Arena.retain?, there, Option.map_some]
      exact backs.retain there (by omega)
  | release h =>
    have released := Arena.Backs.release backs
    obtain ⟨f, there⟩ := backs.listed h List.mem_cons_self
    simp only [run, World.releaseFrame]
    split
    next stale =>
      simp only [Arena.release, there] at stale
      split at stale <;> cases stale
    next arena outcome _ dropped =>
      rw [dropped] at released
      exact released
  | overlay chain sizes =>
    have backs := arenaOutcome_backs w (backs.overlay bears)
    rw [gains_map_id] at backs
    exact backs
  | retainChain chain => exact arenaOutcome_backs w (backs.retainChain bears)
  | releaseChain chain => exact Arena.Backs.releaseChain backs
  | bind chain this =>
    have backs := arenaOutcome_backs w (backs.retainChain bears)
    simp only [run, World.newBinding, World.retainChain]
    split <;> rename_i retained <;> rw [retained] at backs
    · exact backs.drop
    all_goals exact backs

/-! ### Sessions -/

namespace Session

/-- One step of a session in which the host gives up only references it has. Code
may run under any chain; references can be counted and slots told apart. -/
inductive Advance (e : Engine) : Session → Session → Prop
  | runs {s : State} {held : Chain} (bears : s.world.arena.Bears (s.demand e)) :
      Advance e ⟨s, held⟩ ⟨Machine.step e s, held⟩
  | operates {s : State} {held : Chain} (rests : s.isFinal = true) (target : Value) (r : Request) :
      Advance e ⟨s, held⟩ ⟨⟨s.world, .operate target r, []⟩, held⟩
  | executes {s : State} {held : Chain} (rests : s.isFinal = true) (block : Option CodeBlock)
      (inv : Invocation) : Advance e ⟨s, held⟩ ⟨⟨s.world, .execute block inv .result, []⟩, held⟩
  | evaluates {s : State} {held : Chain} {ref : ObjRef} {chain : Chain} {this : Value}
      {names : Table BindingSlot} {n : Next} (rests : s.isFinal = true)
      (there : s.world.heap[ref]? = some (.binding chain this names)) (source : Text)
      (next : evaluate e s.world chain this names source = n) :
      Advance e ⟨s, held⟩ ⟨⟨n.world, n.control, n.push⟩, held⟩
  | uses {s : State} {held rest : Chain} {w : World} {outcome : Outcome Chain} (use : FrameUse)
      (drops : held.Perm (use.drops ++ rest)) (bears : s.world.arena.Bears use.demand)
      (done : use.run s.world = (w, outcome)) :
      Advance e ⟨s, held⟩ ⟨{ s with world := w }, outcome.gains ++ rest⟩
  | changes {s : State} {held : Chain} {w : World} (evolves : World.Evolves s.world w) :
      Advance e ⟨s, held⟩ ⟨{ s with world := w }, held⟩

/-- The sessions that a host can come to with a new engine. -/
def Attained (e : Engine) (s : Session) : Prop :=
  ∃ w capacity, w.arena = { capacity } ∧
    Relation.ReflTransGen (Advance e) ⟨⟨w, .reply (.done none), []⟩, []⟩ s

variable {e : Engine} {s t t' : Session}

def Backed (s : Session) : Prop := s.machine.Backed s.held

theorem Advance.backed (advance : Advance e t t') (backed : t.Backed) : t'.Backed := by
  cases advance with
  | runs bears => exact (Machine.step_transition e _).backed backed bears
  | operates rests | executes rests =>
    have backs := backed.backs
    rw [State.overlays_of_isFinal rests] at backs
    exact ⟨backs, by simp [State.running, waiting, Control.activation?]⟩
  | @evaluates s held ref chain this names n rests there source next =>
    have calm := evaluate_calm e s.world there source
    rw [next] at calm
    obtain ⟨idle, -, stack⟩ := State.eq_of_isFinal rests
    have none : s.running = waiting [] := by rw [State.running, idle, stack]; rfl
    have later := calm.backed backed none
    rwa [List.append_nil] at later
  | @uses s held rest w outcome use drops bears done =>
    have before : s.world.arena.Backs (use.drops ++ (s.overlays ++ rest)) := by
      refine backed.backs.mono fun h => ?_
      simp only [List.count_append, drops.count_eq]
      omega
    have backs := use.backs before bears
    rw [done] at backs
    refine ⟨backs.mono fun h => ?_, backed.owned⟩
    simp only [List.count_append, State.overlays, State.running]
    omega
  | changes evolves => exact ⟨evolves.backs backed.backs, backed.owned⟩

theorem Attained.backed (attained : s.Attained e) : s.Backed := by
  obtain ⟨w, capacity, fresh, steps⟩ := attained
  induction steps with
  | refl =>
    refine ⟨?_, by simp [State.running, waiting, Control.activation?]⟩
    rw [fresh]
    exact .empty capacity
  | tail _ step ih => exact step.backed ih

/-- The block that is about to begin in one session is on the stack in another that
comes of it, and has been all the time. -/
inductive During (e : Engine) (s : Session) : Session → Prop
  | begins (bears : s.machine.world.arena.Bears (s.machine.demand e))
      (begun : ((Machine.step e s.machine).activationAt s.machine.stack.length).isSome = true) :
      During e s ⟨Machine.step e s.machine, s.held⟩
  | goes {t t' : Session} (earlier : During e s t) (advance : Advance e t t')
      (stays : (t'.machine.activationAt s.machine.stack.length).isSome = true) : During e s t'

end Session

/-! ### Sizes of frames -/

namespace Arena

variable {a b : Arena} {h g : FrameHandle} {f f' : SharedFrame}

/-- A frame that is there before and after some counting has the same slots. -/
theorem Drifts.slots_eq (tidy : a.Tidy) (drifts : a.Drifts b) (slots : b.frames.size ≤ UInt32.size)
    (before : a.frame? h = some f) (after : b.frame? h = some f') : f'.slots = f.slots := by
  obtain ⟨found, live, -⟩ := frame?_eq_some.mp before
  obtain ⟨found', live', -⟩ := frame?_eq_some.mp after
  obtain ⟨k, there, turned⟩ := (drifts.turns tidy slots).1 _ f found
  obtain rfl := Option.some.inj (found'.symm.trans there)
  rcases turned with stays | renewed
  · exact (stays.2 live').2
  · rw [renewed.1] at live
    cases live

/-- A write leaves all frames there, with the sizes they have. -/
theorem store_size {slot : Int} {v : Value} (stored : a.store h slot v = .ok b)
    (before : a.frame? g = some f) :
    ∃ f', b.frame? g = some f' ∧ f'.slots.size = f.slots.size := by
  obtain ⟨old, there, -, -, rfl⟩ := store_eq stored
  rw [frame?_update (n := { old with slots := old.slots.setIfInBounds slot.toNat v }) there rfl]
  split
  next here =>
    rw [here, there] at before
    cases before
    rw [if_pos (frame?_eq_some.mp there).2.1]
    exact ⟨_, rfl, by simp⟩
  · exact ⟨f, before, rfl⟩

end Arena

theorem World.Evolves.slots_size {w₁ w₂ : World} (evolves : Evolves w₁ w₂) {h : FrameHandle}
    {f : SharedFrame} (before : w₁.arena.frame? h = some f) :
    ∃ f', w₂.arena.frame? h = some f' ∧ f'.slots.size = f.slots.size := by
  refine evolves.keeps
    (P := fun w => ∃ f', w.arena.frame? h = some f' ∧ f'.slots.size = f.slots.size) ?_
    ⟨f, before, rfl⟩
  rintro w w' change ⟨f', there, same⟩
  cases change with
  | store stored =>
    obtain ⟨f'', later, size⟩ := Arena.store_size stored there
    exact ⟨f'', later, size.trans same⟩
  | modifyScript ref f => exact ⟨f', by rwa [modifyScript_arena], same⟩
  | bindName ref name slot => exact ⟨f', by rwa [bindName_arena], same⟩
  | annotate f p => exact ⟨f', by rwa [(annotate_heap w f p).2.2], same⟩
  | create | newFrame | setRegister | raise | report | print | setLock => exact ⟨f', there, same⟩

/-- A frame that is there before and after a step of a session keeps its size. -/
theorem Session.Advance.slots_size {e : Engine} {t t' : Session} (advance : Advance e t t')
    (backed : t.Backed) {h : FrameHandle} {f f' : SharedFrame}
    (before : t.machine.world.arena.frame? h = some f)
    (after : t'.machine.world.arena.frame? h = some f') : f'.slots.size = f.slots.size := by
  have tidy := backed.backs.tidy
  have slots := (advance.backed backed).backs.slots
  cases advance with
  | @runs s held bears =>
    cases written : s.write? e with
    | some target =>
      obtain ⟨k, there, size⟩ := Arena.store_size (Machine.step_writes written) before
      obtain rfl := Option.some.inj (after.symm.trans there)
      exact size
    | none => rw [(Machine.step_drifts written).slots_eq tidy slots before after]
  | operates | executes =>
    obtain rfl := Option.some.inj (after.symm.trans before)
    rfl
  | @evaluates s held ref chain this names n rests there source next =>
    have same : n.world.arena = s.world.arena := next ▸ evaluate_arena ..
    rw [same] at after
    obtain rfl := Option.some.inj (after.symm.trans before)
    rfl
  | @uses s held rest w outcome use drops bears done =>
    have drifts := use.drifts s.world
    rw [done] at drifts
    rw [drifts.slots_eq tidy slots before after]
  | changes evolves =>
    obtain ⟨k, there, size⟩ := evolves.slots_size before
    obtain rfl := Option.some.inj (after.symm.trans there)
    exact size

/-! ### The levels of a running block -/

namespace Arena

variable {a b : Arena} {h : FrameHandle} {chain made : Chain} {sizes : List Int} {level : Nat}
  {size : Int}

theorem layers_level (chain : Chain) (declared : sizes[level]? = some size) :
    (layers chain sizes)[level]? = some (match chain[level]? with
      | some h => if level + 1 = sizes.length then .fresh size else .shared h
      | none => .fresh size) := by
  obtain ⟨inside, -⟩ := List.getElem?_eq_some_iff.mp declared
  have below : level < max chain.length sizes.length := by omega
  have given : sizes.getD level 0 = size := by
    rw [List.getD_eq_getElem?_getD, declared, Option.getD_some]
  rw [layers, List.getElem?_map, List.getElem?_range below, Option.map_some]
  cases chain[level]? <;> simp only [given]

theorem Fresh.size_eq (fresh : a.Fresh b size h) {f : SharedFrame} (there : b.frame? h = some f) :
    f.slots.size = size.toNat := by
  obtain ⟨g, found, -, -, slots, -⟩ := fresh
  obtain rfl := Option.some.inj ((frame?_eq_some.mp there).1.symm.trans found)
  rw [slots, Array.size_replicate]

/-- A declared level is a new frame of the declared size, or is taken over. -/
theorem overlay_level (tidy : a.Tidy) (overlaid : a.overlay chain sizes = .made b made)
    (slots : b.frames.size ≤ UInt32.size) (declared : sizes[level]? = some size) :
    ∃ h, made[level]? = some h ∧
      ((level + 1 < sizes.length ∧ chain[level]? = some h) ∨ a.Fresh b size h) := by
  have levels := overlay_levels tidy overlaid slots
  obtain ⟨below, asked⟩ := List.getElem?_eq_some_iff.mp (layers_level chain declared)
  have inside : level < made.length := levels.length_eq ▸ below
  have came := levels.get below inside
  simp only [List.get_eq_getElem, asked] at came
  refine ⟨_, List.getElem?_eq_getElem inside, ?_⟩
  have declaredInside := (List.getElem?_eq_some_iff.mp declared).1
  split at came
  next g given =>
    split at came
    · exact .inr came
    next outer =>
      cases came
      exact .inl ⟨by omega, given⟩
  · exact .inr came

end Arena

/-- The levels that a block declares are on its chain. Each is taken over from
another chain, which the innermost is not, or has the declared size. -/
def CodeBlock.Levels (block : CodeBlock) (outer chain : Chain) (arena : Arena) : Prop :=
  ∀ level size, block.sharedSizes[level]? = some size → ∃ h, chain[level]? = some h ∧
    ((level + 1 < block.sharedSizes.length ∧ outer[level]? = some h) ∨
      ∀ f, arena.frame? h = some f → f.slots.size = size.toInt.toNat)

/-- A block that runs or waits at a height is checked and has its levels. -/
structure State.Houses (s : State) (height : Nat) (block : CodeBlock) (outer : Chain)
    (a : Activation) (await? : Option Await) : Prop where
  there : s.activationAt height = some (a, await?)
  sound : a.Sound s.world await?
  runs : a.block = block
  levels : block.Levels outer a.chain s.world.arena

theorem State.mem_running {s : State} {height : Nat} {a : Activation} {await? : Option Await}
    (there : s.activationAt height = some (a, await?)) : a ∈ s.running := by
  unfold activationAt at there
  split at there
  · split at there
    next control =>
      cases there
      simp [running, control, Control.activation?]
    · cases there
  · unfold waitingAt at there
    split at there
    next found =>
      cases there
      have member := List.mem_reverse.mp (List.mem_of_getElem? found)
      exact List.mem_append_right _ (List.mem_filterMap.mpr ⟨_, member, rfl⟩)
    · cases there

theorem Activation.Runs.keeps_chain {w : World} {a a' : Activation} {plan : Plan} {n : Next}
    {stack : List Cont} {later? : Option Await} (runs : a.Runs w plan n)
    (there : State.activationAt ⟨n.world, n.control, n.push ++ stack⟩ stack.length =
      some (a', later?)) : a'.block = a.block ∧ a'.chain = a.chain := by
  cases runs with
  | goes =>
    cases (State.activationAt_top there).1
    exact ⟨rfl, rfl⟩
  | asks =>
    rw [List.singleton_append, State.activationAt_waiting] at there
    cases there
    exact ⟨rfl, rfl⟩
  | answers | stops => cases (State.activationAt_top there).1

theorem Machine.Transition.keeps_chain {e : Engine} {s s' : State} {height : Nat} {a a' : Activation}
    {await? later? : Option Await} (transition : Transition e s s')
    (there : s.activationAt height = some (a, await?))
    (next : s'.activationAt height = some (a', later?)) :
    a'.block = a.block ∧ a'.chain = a.chain := by
  rcases transition.activationAt_cases there next with
    ⟨rfl, -⟩ | ⟨n, stack, rfl, rfl, ⟨-, runs⟩ | ⟨await, -, runs⟩⟩
  · exact ⟨rfl, rfl⟩
  · exact runs.keeps_chain next
  · exact runs.keeps_chain next

theorem World.Extends.use (w : World) (use : FrameUse) : w.Extends (use.run w).1 := by
  have retained (chain : Chain) : w.Extends (w.retainChain chain).1 := by
    unfold World.retainChain World.arenaOutcome
    split <;> exact same rfl rfl
  cases use with
  | alloc size =>
    simp only [FrameUse.run, World.allocFrame]
    split <;> exact same rfl rfl
  | retain h =>
    simp only [FrameUse.run, World.retainFrame]
    split <;> exact same rfl rfl
  | release h =>
    simp only [FrameUse.run, World.releaseFrame]
    split <;> exact same rfl rfl
  | overlay chain sizes =>
    simp only [FrameUse.run, World.overlay, World.arenaOutcome]
    split <;> exact same rfl rfl
  | retainChain chain => exact retained chain
  | releaseChain chain => exact same rfl rfl
  | bind chain this =>
    have grown := retained chain
    simp only [FrameUse.run, World.newBinding]
    split <;> rename_i outcome <;> rw [outcome] at grown
    · exact grown.trans (create _ _)
    all_goals exact grown

/-- A checked block that begins to run has its levels. -/
theorem Machine.begins_houses {e : Engine} {w : World} {block : CodeBlock} {inv : Invocation}
    {completion : Completion} {stack : List Cont} {s : State}
    (stepped : Machine.step e ⟨w, .execute (some block) inv completion, stack⟩ = s)
    (tidy : w.arena.Tidy) (slots : s.world.arena.frames.size ≤ UInt32.size)
    (valid : block.validate = .ok ()) (nested : 0 < block.nestLevel)
    (begun : (s.activationAt stack.length).isSome = true) :
    ∃ a await?, s.Houses stack.length block inv.shared a await? := by
  have enters := enter_enters w block inv completion
  obtain ⟨⟨a, await?⟩, there⟩ := Option.isSome_iff_exists.mp begun
  have begins : s =
      ⟨(enter w block inv completion).world, (enter w block inv completion).control, stack⟩ := by
    simp only [step, advance, enters.push, List.nil_append] at stepped
    exact stepped.symm
  generalize enter w block inv completion = n at enters begins
  subst begins
  obtain ⟨control, rfl⟩ := State.activationAt_top there
  cases enters with
  | flat framed flat => exact absurd nested flat
  | @nested w₁ frame arena chain framed _ overlaid =>
    cases control
    have sound : (inv.begun block frame chain chain completion).Sound { w₁ with arena } none :=
      ⟨valid, framed.fits, CodeBlock.zero_mem_starts valid, by simp⟩
    refine ⟨_, none, there, sound, rfl, fun level size declared => ?_⟩
    rw [← framed.arena_eq.1] at tidy
    have given : (block.sharedSizes.map Int64.toInt)[level]? = some size.toInt := by
      rw [List.getElem?_map, declared, Option.map_some]
    obtain ⟨h, found, came⟩ := Arena.overlay_level tidy overlaid slots given
    rw [List.length_map] at came
    exact ⟨h, found, came.imp_right fun fresh f there => fresh.size_eq there⟩
  | refused | broken | crowded | small => cases control

namespace Session

variable {e : Engine} {s t t' : Session} {block : CodeBlock} {inv : Invocation}
  {completion : Completion} {height : Nat} {outer : Chain} {a a' : Activation}
  {await? later? : Option Await}

/-- The frames of a block that runs or waits are there. -/
theorem Backed.frame {s : State} {held : Chain} (backed : s.Backed held)
    (there : s.activationAt height = some (a, await?)) (nested : 0 < a.block.nestLevel)
    {h : FrameHandle} (member : h ∈ a.chain) : ∃ f, s.world.arena.frame? h = some f := by
  refine backed.backs.listed h (List.mem_append_left _ (List.mem_flatMap.mpr ⟨a, ?_, ?_⟩))
  · exact State.mem_running there
  · rwa [Activation.overlay, if_pos nested]

/-- A block that stays on the stack keeps its code and its chain, and stays sound. -/
theorem Advance.stays (advance : Advance e t t')
    (there : t.machine.activationAt height = some (a, await?)) (sound : a.Sound t.machine.world await?)
    (next : t'.machine.activationAt height = some (a', later?)) :
    a'.block = a.block ∧ a'.chain = a.chain ∧ a'.Sound t'.machine.world later? := by
  have same {w : World} (grown : t.machine.world.Extends w)
      (next : State.activationAt { t.machine with world := w } height = some (a', later?)) :
      a'.block = a.block ∧ a'.chain = a.chain ∧ a'.Sound w later? := by
    cases there.symm.trans next
    exact ⟨rfl, rfl, sound.extends grown⟩
  have awake : ¬t.machine.isFinal = true := by
    intro rests
    obtain ⟨idle, -, stack⟩ := State.eq_of_isFinal rests
    have member := State.mem_running there
    simp [State.running, waiting, idle, stack] at member
  cases advance with
  | @runs s held bears =>
    have transition := Machine.step_transition e s
    obtain ⟨code, chain⟩ := transition.keeps_chain there next
    exact ⟨code, chain, transition.sound there sound next⟩
  | operates rests | executes rests | evaluates rests => exact absurd rests awake
  | @uses s held rest w outcome use drops bears done =>
    have grown := World.Extends.use s.world use
    rw [done] at grown
    exact same grown next
  | changes evolves => exact same (.evolves evolves) next

/-- A block that stays on the stack keeps its levels. -/
theorem Advance.houses (advance : Advance e t t') (backed : t.Backed)
    (houses : t.machine.Houses height block outer a await?) (nested : 0 < block.nestLevel)
    (stays : (t'.machine.activationAt height).isSome = true) :
    ∃ a' later?, t'.machine.Houses height block outer a' later? := by
  obtain ⟨⟨a', later?⟩, next⟩ := Option.isSome_iff_exists.mp stays
  obtain ⟨code, chain, sound⟩ := advance.stays houses.there houses.sound next
  refine ⟨a', later?, next, sound, code.trans houses.runs, fun level size declared => ?_⟩
  obtain ⟨h, found, came⟩ := houses.levels level size declared
  refine ⟨h, chain ▸ found, came.imp_right fun sized f' after => ?_⟩
  obtain ⟨f, before⟩ := Backed.frame backed houses.there (houses.runs ▸ nested)
    (List.mem_of_getElem? found)
  rw [advance.slots_size backed before after]
  exact sized f before

theorem During.houses (backed : s.Backed)
    (begins : s.machine.control = .execute (some block) inv completion)
    (valid : block.validate = .ok ()) (nested : 0 < block.nestLevel) (during : s.During e t) :
    t.Backed ∧ ∃ a await?, t.machine.Houses s.machine.stack.length block inv.shared a await? := by
  induction during with
  | begins bears begun =>
    have later := (Machine.step_transition e s.machine).backed backed bears
    obtain ⟨⟨w, control, stack⟩, held⟩ := s
    cases begins
    exact ⟨later, Machine.begins_houses rfl backed.backs.tidy later.backs.slots valid nested begun⟩
  | goes _ advance stays ih =>
    obtain ⟨backed, a, await?, houses⟩ := ih
    exact ⟨advance.backed backed, advance.houses backed houses nested stays⟩

end Session

/-! ### Accesses -/

theorem CodeBlock.checkOperands_shared {b : CodeBlock} {places : List Int} {offset : Nat}
    {level? : Option Nat} {level slot : Operand} {rest : List Operand}
    (checked : b.checkOperands places offset level? (level :: slot :: rest) = .ok ())
    (first : level.kind = .level) (second : slot.kind = .slot) (nested : 0 < b.nestLevel) :
    (level.word.toNat : Int) < b.nestLevel.toInt ∧
      (slot.word.toNat : Int) < (b.sharedSizes.getD level.word.toNat 0).toInt := by
  simp only [checkOperands, except_bind_ok, checkOperand, first, second, if_true] at checked
  obtain ⟨⟨⟩, levelChecked, ⟨⟩, slotChecked, -⟩ := checked
  constructor
  · split at levelChecked
    · cases levelChecked
    next inside => exact Int.not_le.mp fun outside => inside ⟨nested, outside⟩
  · split at slotChecked
    · cases slotChecked
    next inside => exact Int.not_le.mp fun outside => inside ⟨nested, outside⟩

/-- The shared level and the slot that the next instruction reads or writes. -/
def Activation.access? (a : Activation) : Option (Nat × Nat) :=
  match a.opcode? with
  | some .read => do return ((← a.word? 2).toNat, (← a.word? 3).toNat)
  | some .write => do return ((← a.word? 1).toNat, (← a.word? 2).toNat)
  | _ => none

/-- A running block reads or writes a slot and goes on behind the instruction. -/
inductive Activation.Accesses (w : World) (a : Activation) (h : FrameHandle) (slot : Nat) :
    Next → Prop
  | reads {dst : Nat} {v : Value} (opcode : a.opcode? = some .read)
      (target : a.registerNumber? 1 = some dst) (loaded : w.arena.load h slot = .ok v) :
      Accesses w a h slot ⟨w.setRegister a.frame dst v, .code { a with ip := a.after 4 }, []⟩
  | writes {v : Value} {arena : Arena} (opcode : a.opcode? = some .write)
      (source : a.register? w 3 = some v) (stored : w.arena.store h slot v = .ok arena) :
      Accesses w a h slot ⟨{ w with arena }, .code { a with ip := a.after 4 }, []⟩

namespace Arena

variable {a : Arena} {h : FrameHandle} {f : SharedFrame} {slot : Nat}

theorem load_inside (there : a.frame? h = some f) (inside : slot < f.slots.size) :
    ∃ v, a.load h slot = .ok v := by
  refine ⟨f.slots[slot], ?_⟩
  simp [load, there, inside]

theorem load_outside (there : a.frame? h = some f) (outside : f.slots.size ≤ slot) :
    a.load h slot = .error (.slotRange h slot f.slots.size) := by
  simp [load, there, outside]

theorem store_outside (there : a.frame? h = some f) (outside : f.slots.size ≤ slot) (v : Value) :
    a.store h slot v = .error (.slotRange h slot f.slots.size) := by
  simp [store, there, outside]

end Arena

namespace Activation

variable {e : Engine} {w : World} {a : Activation} {h : FrameHandle} {f : SharedFrame}
  {level slot : UInt32}

theorem level_ok (found : a.chain[level.toNat]? = some h) : a.level level = .ok h := by
  rw [Activation.level, found]

/-- Reading a slot of a frame that is there fails only outside the frame. -/
theorem advance_read {dst : Nat} (opcode : a.opcode? = some .read)
    (target : a.registerNumber? 1 = some dst) (bound : dst < (w.registers a.frame).size)
    (first : a.word? 2 = some level) (second : a.word? 3 = some slot)
    (found : a.chain[level.toNat]? = some h) (there : w.arena.frame? h = some f) :
    if slot.toNat < f.slots.size then a.Accesses w h slot.toNat (a.advance e w)
    else a.advance e w = a.fail w (.slotRange h slot.toNat f.slots.size) := by
  rw [advance, action_of_opcode? opcode]
  simp only [actionOf, first, second, level_ok found, Option.bind_eq_bind, Option.bind_some]
  split
  next inside =>
    obtain ⟨v, loaded⟩ := Arena.load_inside there inside
    simp only [loaded, target, Option.pure_def, perform, assign, if_pos bound]
    exact .reads opcode target loaded
  next outside =>
    simp only [Arena.load_outside there (Nat.not_lt.mp outside)]
    rfl

theorem advance_write {v : Value} (opcode : a.opcode? = some .write)
    (source : a.register? w 3 = some v) (first : a.word? 1 = some level)
    (second : a.word? 2 = some slot) (found : a.chain[level.toNat]? = some h)
    (there : w.arena.frame? h = some f) :
    if slot.toNat < f.slots.size then a.Accesses w h slot.toNat (a.advance e w)
    else a.advance e w = a.fail w (.slotRange h slot.toNat f.slots.size) := by
  rw [advance, action_of_opcode? opcode]
  simp only [actionOf, first, second, source, level_ok found, Option.bind_eq_bind, Option.bind_some]
  split
  next inside =>
    obtain ⟨u, loaded⟩ := Arena.load_inside there inside
    obtain ⟨arena, stored⟩ := Arena.store_of_load loaded v
    simp only [Option.pure_def, perform, stored]
    exact .writes opcode source stored
  next outside =>
    simp only [Option.pure_def, perform, Arena.store_outside there (Nat.not_lt.mp outside)]

/-- A checked access is to a slot of a declared level. -/
theorem Poised.access {i : Instruction} (poised : Poised w a i) (valid : a.block.validate = .ok ())
    (nested : 0 < a.block.nestLevel) (accesses : i.opcode = .read ∨ i.opcode = .write) :
    ∃ level slot size, a.access? = some (level, slot) ∧ a.block.sharedSizes[level]? = some size ∧
      (slot : Int) < size.toInt ∧
      ∀ h f, a.chain[level]? = some h → w.arena.frame? h = some f →
        if slot < f.slots.size then a.Accesses w h slot (a.advance e w)
        else a.advance e w = a.fail w (.slotRange h slot f.slots.size) := by
  have ready := poised.ready
  have laid := ready.laid
  have opcode := ready.opcode?_eq
  have admits := poised.admits
  simp only [CodeBlock.Admits, CodeBlock.checkInstruction, except_bind_ok] at admits
  obtain ⟨⟨⟩, checked, -⟩ := admits
  have declared (level : Nat) (inside : (level : Int) < a.block.nestLevel.toInt) :
      a.block.sharedSizes[level]? = some (a.block.sharedSizes.getD level 0) := by
    rw [(CodeBlock.checkOwn_ok (CodeBlock.validate_ok.mp valid).1).2.1] at inside
    rw [List.getD_eq_getElem?_getD, List.getElem?_eq_getElem (by omega), Option.getD_some]
  rcases accesses with reads | writes
  · rw [reads] at laid opcode
    obtain ⟨dst, _, operands, target, level, _, rfl, first, slot, _, rfl, second, rfl, -⟩ := laid
    simp only [Reads, OperandKind.width] at target first second
    obtain ⟨-, word, -, bound⟩ := target
    have register : a.registerNumber? 1 = some dst.word.toNat := by
      rw [registerNumber?, word, Option.map_some]
    rw [operands, CodeBlock.checkOperands, except_bind_ok] at checked
    obtain ⟨⟨⟩, -, checked⟩ := checked
    obtain ⟨inside, fits⟩ := CodeBlock.checkOperands_shared checked first.1 second.1 nested
    refine ⟨level.word.toNat, slot.word.toNat, _, ?_, declared _ inside, fits, fun h f found there =>
      advance_read opcode register bound first.2.1 second.2.1 found there⟩
    simp only [access?, opcode, first.2.1, second.2.1, Option.bind_eq_bind, Option.bind_some,
      Option.pure_def]
  · rw [writes] at laid opcode
    obtain ⟨level, _, operands, first, slot, _, rfl, second, src, _, rfl, source, rfl, -⟩ := laid
    simp only [Reads, OperandKind.width] at first second source
    rw [operands] at checked
    obtain ⟨inside, fits⟩ := CodeBlock.checkOperands_shared checked first.1 second.1 nested
    refine ⟨level.word.toNat, slot.word.toNat, _, ?_, declared _ inside, fits, fun h f found there =>
      advance_write opcode source.2.2.1 first.2.1 second.2.1 found there⟩
    simp only [access?, opcode, first.2.1, second.2.1, Option.bind_eq_bind, Option.bind_some,
      Option.pure_def]

end Activation

/-- While a checked block that declares shared levels runs, every access it makes is
to a frame that is there. It fails only at a level other than the innermost, in a
frame that was taken over from the chain it was started under and is smaller than
declared. -/
theorem shared_access_in_bounds (e : Engine) {s t : Session} {block : CodeBlock} {inv : Invocation}
    {completion : Completion} {a : Activation} (attained : s.Attained e)
    (begins : s.machine.control = .execute (some block) inv completion)
    (valid : block.validate = .ok ()) (nested : 0 < block.nestLevel) (during : s.During e t)
    (running : t.machine.control = .code a)
    (top : t.machine.stack.length = s.machine.stack.length)
    (accesses : a.opcode? = some .read ∨ a.opcode? = some .write) :
    a.block = block ∧ ∃ level slot size h f, a.access? = some (level, slot) ∧
      block.sharedSizes[level]? = some size ∧ (slot : Int) < size.toInt ∧
      a.chain[level]? = some h ∧ t.machine.world.arena.frame? h = some f ∧
      if slot < f.slots.size then a.Accesses t.machine.world h slot (a.advance e t.machine.world)
      else level + 1 < block.nestLevel.toInt ∧ inv.shared[level]? = some h ∧
        (f.slots.size : Int) < size.toInt ∧
        a.advance e t.machine.world = a.fail t.machine.world (.slotRange h slot f.slots.size) := by
  obtain ⟨backed, b, await?, houses⟩ := during.houses attained.backed begins valid nested
  have there : t.machine.activationAt s.machine.stack.length = some (a, none) := by
    rw [← top, State.activationAt, if_pos rfl, running]
  obtain ⟨rfl, rfl⟩ := Prod.mk.inj (Option.some.inj (there.symm.trans houses.there))
  obtain ⟨-, sound, rfl, levels⟩ := houses
  refine ⟨rfl, ?_⟩
  rcases sound.poised with ended | ⟨i, poised, -⟩
  · simp [Activation.opcode?, ended] at accesses
  · simp only [poised.ready.opcode?_eq, Option.some.injEq] at accesses
    obtain ⟨level, slot, size, access, declared, fits, outcome⟩ := poised.access valid nested accesses
    obtain ⟨h, found, came⟩ := levels level size declared
    obtain ⟨f, live⟩ := Session.Backed.frame backed there nested (List.mem_of_getElem? found)
    refine ⟨level, slot, size, h, f, access, declared, fits, found, live, ?_⟩
    have outcome := outcome h f found live
    split at outcome
    · rwa [if_pos ‹_›]
    next outside =>
      rw [if_neg outside]
      have smaller : (f.slots.size : Int) < size.toInt := by omega
      obtain ⟨outer, inherited⟩ := came.resolve_right fun sized => by
        have := sized f live
        omega
      refine ⟨?_, inherited, smaller, outcome⟩
      rw [(CodeBlock.checkOwn_ok (CodeBlock.validate_ok.mp valid).1).2.1]
      omega

/-- A block with two levels that reads a slot of its own, and then the second slot
that it declares for the level around it. -/
def reading : CodeBlock :=
  { code? := some #[19, 0, 1, 0, 19, 0, 0, 1], registers := 1, nestLevel := 2
    sharedSizes? := some [2, 1] }

/-- A new engine with a frame of one slot, about to run the block under it. -/
def readingCall : Session :=
  ⟨⟨(FrameUse.run (Engine.start {} Session.quietHost).2 (.alloc 1)).1,
    .execute (some reading) { shared := [⟨0, 1⟩] } .result, []⟩, [⟨0, 1⟩]⟩

theorem readingCall_attained : readingCall.Attained (Engine.start {} Session.quietHost).1 := by
  have allocated : Session.Advance (Engine.start {} Session.quietHost).1
      ⟨⟨(Engine.start {} Session.quietHost).2, .reply (.done none), []⟩, []⟩
      ⟨⟨readingCall.machine.world, .reply (.done none), []⟩, [⟨0, 1⟩]⟩ :=
    .uses (.alloc 1) (List.Perm.refl _)
      (.of_few (k := 1) (by decide) (by decide) (by decide) (by decide)) rfl
  exact ⟨_, 0, rfl, .tail (.single allocated) (.executes rfl _ _)⟩

theorem readingCall_during :
    readingCall.During (Engine.start {} Session.quietHost).1
        ⟨Machine.run (Engine.start {} Session.quietHost).1 1 readingCall.machine, readingCall.held⟩ ∧
      readingCall.During (Engine.start {} Session.quietHost).1
        ⟨Machine.run (Engine.start {} Session.quietHost).1 2 readingCall.machine, readingCall.held⟩ := by
  have first : readingCall.During (Engine.start {} Session.quietHost).1
      ⟨Machine.run (Engine.start {} Session.quietHost).1 1 readingCall.machine, readingCall.held⟩ :=
    .begins (.of_few (k := 1) (by decide +kernel) (by decide) (by decide +kernel) (by decide +kernel))
      rfl
  refine ⟨first, .goes first ?_ (by decide +kernel)⟩
  rw [Machine.run_succ]
  exact .runs (.of_few (k := 2) (by decide +kernel) (by decide) (by decide +kernel) (by decide +kernel))

theorem Control.activation?_eq_some {control : Control} {a : Activation} :
    control.activation? = some a ↔ control = .code a := by
  cases control <;> simp [Control.activation?]

theorem Activation.opcode?_of_access? {a : Activation} {place : Nat × Nat}
    (access : a.access? = some place) : a.opcode? = some .read ∨ a.opcode? = some .write := by
  rw [Activation.access?] at access
  split at access
  next reads => exact .inl reads
  next writes => exact .inr writes
  next => cases access

/-- The first read finds its slot; the second one fails, since the frame around the
block has fewer slots than the block declares. -/
theorem reading_in_bounds :
    let e := (Engine.start {} Session.quietHost).1
    let first := Machine.run e 1 readingCall.machine
    let second := Machine.run e 2 readingCall.machine
    readingCall.Attained e ∧ readingCall.During e ⟨first, readingCall.held⟩ ∧
      readingCall.During e ⟨second, readingCall.held⟩ ∧
      (∃ a, first.control = .code a ∧ a.access? = some (1, 0) ∧
        a.Accesses first.world ⟨1, 1⟩ 0 (a.advance e first.world)) ∧
      ∃ a, second.control = .code a ∧ a.access? = some (0, 1) ∧
        a.advance e second.world = a.fail second.world (.slotRange ⟨0, 1⟩ 1 1) := by
  intro e first second
  have valid : reading.validate = .ok () := by decide +kernel
  obtain ⟨began, went⟩ := readingCall_during
  refine ⟨readingCall_attained, began, went, ?_, ?_⟩
  · obtain ⟨a, active, access, chain⟩ :
        ∃ a, first.control.activation? = some a ∧ a.access? = some (1, 0) ∧
          a.chain = [⟨0, 1⟩, ⟨1, 1⟩] :=
      ⟨first.control.activation?.get (by decide +kernel), Option.some_get _ |>.symm, by decide +kernel,
        by decide +kernel⟩
    have running := Control.activation?_eq_some.mp active
    obtain ⟨-, _, _, size, h, f, same, declared, -, found, -, outcome⟩ :=
      shared_access_in_bounds e readingCall_attained rfl valid (by decide) began running
        (by decide +kernel) (Activation.opcode?_of_access? access)
    cases access.symm.trans same
    rw [chain] at found
    cases found
    refine ⟨a, running, access, ?_⟩
    split at outcome
    · exact outcome
    · exact absurd outcome.1 (by decide)
  · obtain ⟨a, active, access, chain⟩ :
        ∃ a, second.control.activation? = some a ∧ a.access? = some (0, 1) ∧
          a.chain = [⟨0, 1⟩, ⟨1, 1⟩] :=
      ⟨second.control.activation?.get (by decide +kernel), Option.some_get _ |>.symm, by decide +kernel,
        by decide +kernel⟩
    have running := Control.activation?_eq_some.mp active
    obtain ⟨-, _, _, size, h, f, same, declared, -, found, live, outcome⟩ :=
      shared_access_in_bounds e readingCall_attained rfl valid (by decide) went running
        (by decide +kernel) (Activation.opcode?_of_access? access)
    cases access.symm.trans same
    rw [chain] at found
    cases found
    have short : (second.world.arena.frame? ⟨0, 1⟩).map (·.slots.size) = some 1 := by decide +kernel
    rw [live, Option.map_some, Option.some.injEq] at short
    rw [if_neg (by omega), short] at outcome
    exact ⟨a, running, access, outcome.2.2.2⟩

end ScriptEngine
