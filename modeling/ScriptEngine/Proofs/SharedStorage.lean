import ScriptEngine.Proofs.ChainFamily

/-! One storage for each shared slot. Code reaches a slot by chains of different
length, by bindings and by handles of the host; whatever is done in between, all
of them find what was last written to it. A new frame is reached by the chains
that come of the one it was made for, and by no other. -/
namespace ScriptEngine

/-- Whoever reaches a slot finds a value in it, and writes to it: instructions,
bindings that are asked for a name, and the host. -/
structure State.Shares (e : Engine) (s : State) (held : Chain) (h : FrameHandle) (slot : Int)
    (v : Value) : Prop where
  reads : ∀ a level place, s.control = .code a → a.opcode? = some .read →
    a.word? 2 = some level → a.chain[level.toNat]? = some h →
    a.word? 3 = some place → (place.toNat : Int) = slot →
    a.action e s.world = some (.assign (a.registerNumber? 1) v (a.after 4))
  writes : ∀ a level place u, s.control = .code a → a.opcode? = some .write →
    a.word? 1 = some level → a.chain[level.toNat]? = some h →
    a.word? 2 = some place → (place.toNat : Int) = slot → a.register? s.world 3 = some u →
    s.write? e = some { handle := h, slot, value := u }
  gets : ∀ ref chain this names r key, s.world.heap[ref]? = some (.binding chain this names) →
    r.operation = .iget → s.world.textOf (r.arg 0) = some key →
    resolveName chain names key = some (h, slot) → dispatch e s.world ref r = .result s.world v
  sets : ∀ ref chain this names r key, s.control = .dispatch ref r →
    s.world.heap[ref]? = some (.binding chain this names) →
    r.operation = .iset → s.world.textOf (r.arg 0) = some key →
    resolveName chain names key = some (h, slot) →
    s.write? e = some { handle := h, slot, value := r.lastArg }
  loads : h ∈ s.references held → s.world.loadSlot h slot = .ok v
  stores : h ∈ s.references held → ∀ u, (s.world.storeSlot h slot u).2 = .ok ()

theorem State.write?_of_target {e : Engine} {s : State} {target : Write} {arena : Arena}
    (aimed : s.target? e = some target)
    (stored : s.world.arena.store target.handle target.slot target.value = .ok arena) :
    s.write? e = some target := by
  rw [write?, aimed, Option.filter_some, Arena.write, stored]
  rfl

theorem resolveName_mem {chain : Chain} {names : Table BindingSlot} {key : Text} {h : FrameHandle}
    {slot : Int} (resolved : resolveName chain names key = some (h, slot)) : h ∈ chain := by
  obtain ⟨place, -, resolved⟩ := Option.bind_eq_some_iff.mp resolved
  split at resolved
  · cases resolved
  · obtain ⟨_, found, ⟨⟩⟩ := Option.bind_eq_some_iff.mp resolved
    exact List.mem_of_getElem? found

/-- What a slot holds is found by all who refer to its frame. -/
theorem State.Accounted.shares {e : Engine} {s : State} {held : Chain} {h : FrameHandle}
    {slot : Int} {v : Value} (accounted : s.Accounted held) (holds : s.world.arena.Holds h slot v) :
    s.Shares e held h slot v := by
  have loaded (listed : h ∈ s.references held) : s.world.arena.load h slot = .ok v := by
    refine holds.load.resolve_right fun gone => ?_
    exact accounted.balanced.frame?_eq_none.mp gone listed
  have named {ref : ObjRef} {chain : Chain} {this : Value} {names : Table BindingSlot} {key : Text}
      (there : s.world.heap[ref]? = some (.binding chain this names))
      (resolved : resolveName chain names key = some (h, slot)) : h ∈ s.references held := by
    have captured := World.mem_captured there (resolveName_mem resolved)
    exact mem_references_of_captured (List.mem_append_right _ captured)
  constructor
  · intro a level place running reads first found second same
    have load := loaded (accounted.chain_listed running (List.mem_of_getElem? found))
    rw [← same] at load
    simp only [Activation.action_of_opcode? reads, Activation.actionOf, first, Activation.level,
      found, second, load, Option.bind_eq_bind, Option.bind_some]
    rfl
  · intro a level place u running writes first found second same written
    have load := loaded (accounted.chain_listed running (List.mem_of_getElem? found))
    obtain ⟨arena, stored⟩ := Arena.store_of_load load u
    refine State.write?_of_target ?_ stored
    simp only [State.target?, running, Activation.action_of_opcode? writes, Activation.actionOf,
      first, Activation.level, found, second, written, same, Option.bind_eq_bind, Option.bind_some]
    rfl
  · intro ref chain this names r key there gets text resolved
    have load := loaded (named there resolved)
    simp only [dispatch, there, bindingAnswer, gets, withKey, text, resolved, load]
  · intro ref chain this names r key running there sets text resolved
    obtain ⟨arena, stored⟩ := Arena.store_of_load (loaded (named there resolved)) r.lastArg
    refine State.write?_of_target ?_ stored
    simp only [State.target?, running, World.target?, there, if_pos sets, text, resolved,
      Option.bind_eq_bind, Option.bind_some]
    rfl
  · intro listed
    rw [World.loadSlot, loaded listed]
  · intro listed u
    obtain ⟨arena, stored⟩ := Arena.store_of_load (loaded listed) u
    rw [World.storeSlot, stored]

namespace State.Accounted

variable {e : Engine} {s : State} {held : Chain} {h : FrameHandle} {chain : Chain} {a : Activation}
  {block : CodeBlock} {inv : Invocation} {completion : Completion}

theorem waiting_listed (accounted : s.Accounted held) (waits : a ∈ waiting s.stack)
    (member : h ∈ a.chain) : h ∈ s.references held := by
  by_cases nested : 0 < a.block.nestLevel
  · have own : h ∈ s.overlays := by
      refine List.mem_flatMap.mpr ⟨a, List.mem_append_right _ waits, ?_⟩
      rwa [Activation.overlay, if_pos nested]
    simp [references, own]
  · refine mem_references_of_captured (accounted.borrowed h (List.mem_append_right _ ?_))
    refine List.mem_flatMap.mpr ⟨a, waits, ?_⟩
    rwa [Activation.borrowed, if_neg nested]

/-- What a chain reaches is there. -/
theorem chains_listed (accounted : s.Accounted held) (known : chain ∈ s.chains)
    (member : h ∈ chain) : h ∈ s.references held := by
  simp only [chains, List.mem_append] at known
  rcases known with (runs | waits) | captured
  · cases running : s.control with
    | execute block inv completion =>
      rw [running, Control.chains, List.mem_singleton] at runs
      refine mem_references_of_captured (accounted.borrowed h (List.mem_append_left _ ?_))
      rw [runs] at member
      rwa [running]
    | code a =>
      rw [running, Control.chains, List.mem_singleton] at runs
      exact accounted.chain_listed running (runs ▸ member)
    | _ =>
      rw [running] at runs
      cases runs
  · obtain ⟨a, stacked, rfl⟩ := List.mem_map.mp waits
    exact accounted.waiting_listed stacked member
  · refine mem_references_of_captured (List.mem_append_right _ ?_)
    obtain ⟨o, capture, rfl⟩ := List.mem_map.mp captured
    rw [World.captured_eq_captures]
    exact List.mem_flatMap.mpr ⟨o, capture, member⟩

/-- A block that begins to run gets a new frame for its own innermost level, which
nothing has reached before. -/
theorem innermost (accounted : s.Accounted held)
    (begins : s.control = .execute (some block) inv completion) (nested : 0 < block.nestLevel)
    (declared : block.sharedSizes ≠ []) (runs : (Machine.step e s).control = .code a)
    (slots : (Machine.step e s).world.arena.frames.size ≤ UInt32.size) :
    ∃ h, a.chain[block.sharedSizes.length - 1]? = some h ∧
      s.world.arena.Fresh (Machine.step e s).world.arena
        (block.sharedSizes.getLast declared).toInt h ∧
      h ∉ s.references held ∧ (∀ chain ∈ s.chains, h ∉ chain) ∧
      ∀ chain ∈ (Machine.step e s).chains, h ∈ chain → chain = a.chain := by
  have overlaid : s.world.arena.overlay inv.shared (block.sharedSizes.map Int64.toInt) =
      .made (Machine.step e s).world.arena a.chain := by
    obtain ⟨w, _, stack⟩ := s
    cases begins
    rcases (enter_enters w block inv completion).begets runs with ⟨flat, -⟩ | ⟨-, overlaid⟩
    · exact absurd nested flat
    · exact overlaid
  have tidy := accounted.balanced.tidy
  obtain ⟨h, found, fresh⟩ := Arena.overlay_innermost tidy overlaid slots (by simpa using declared)
  rw [List.length_map] at found
  rw [List.getLast_map] at fresh
  have unlisted : h ∉ s.references held := accounted.balanced.frame?_eq_none.mp fresh.stale
  have apart : ∀ chain ∈ s.chains, h ∉ chain := by
    intro chain known member
    exact unlisted (accounted.chains_listed known member)
  refine ⟨h, found, fresh, unlisted, apart, ?_⟩
  intro chain known member
  rcases Machine.step_chains known with known | ⟨base, -, begets⟩
  · exact absurd member (apart chain known)
  · rw [begets?, begins, runs] at begets
    cases begets
    rfl

end State.Accounted

/-- In every session a shared slot has one storage. The first part says that
sessions are made of moves. Whatever moves lead from a new engine to a state, all
who reach a slot there find what was last written to it, and none finds another
value even if frames are dropped that are still in use. The frame that a block
gets for its own innermost level has void slots, nothing has reached it before,
and the chains that reach it later have come of the chain of that block. -/
theorem one_storage_per_slot (e : Engine) :
    (∀ {s s' : Session}, Session.Step e s s' →
      Relation.ReflTransGen (fun t t' => ∃ shown, Move e t shown t') s.machine s'.machine) ∧
    (∀ {start t : State} {held₀ : Chain} {past : List Footprint} {h : FrameHandle} {slot : Int}
      {v : Value}, Session.Reachable e ⟨start, held₀⟩ → Course e start past t →
      (lastWritten h slot past).or (start.world.arena.load h slot).toOption = some v →
      (t.world.arena.load h slot = .ok v ∨ t.world.arena.frame? h = none) ∧
        ∀ held, Session.Reachable e ⟨t, held⟩ → t.Shares e held h slot v) ∧
    ∀ {s : State} {held : Chain} {block : CodeBlock} {inv : Invocation} {completion : Completion}
      {a : Activation} (declared : block.sharedSizes ≠ []), Session.Reachable e ⟨s, held⟩ →
      s.control = .execute (some block) inv completion → 0 < block.nestLevel →
      (Machine.step e s).control = .code a →
      s.world.arena.Ages (Machine.step e s).world.arena →
      ∃ h f, a.chain[block.sharedSizes.length - 1]? = some h ∧
        (Machine.step e s).world.arena.frame? h = some f ∧
        f.slots = Array.replicate (block.sharedSizes.getLast declared).toInt.toNat .void ∧
        h ∉ s.references held ∧ (∀ chain ∈ s.chains, h ∉ chain) ∧
        ∀ {past : List Footprint} {t : State}, Course e (Machine.step e s) past t →
          Lends h a.chain past → ∀ chain ∈ t.chains, h ∈ chain → chain ∈ family a.chain past := by
  refine ⟨Session.Step.moves, ?_, ?_⟩
  · intro start t held₀ past h slot v reachable course last
    have accounted : start.Accounted held₀ := reachable.accounted
    have holds := course.last_holds accounted.balanced.tidy last
    refine ⟨holds.load, fun held reachable => ?_⟩
    exact State.Accounted.shares reachable.accounted holds
  · intro s held block inv completion a declared reachable begins nested runs ages
    have accounted : s.Accounted held := reachable.accounted
    obtain ⟨h, found, fresh, unlisted, apart, alone⟩ :=
      accounted.innermost begins nested declared runs ages.slots
    obtain ⟨f, there, gen, live, slots, -⟩ := fresh
    have tidy := (Move.runs (e := e) s).tidy ages accounted.balanced.tidy
    refine ⟨h, f, found, Arena.frame?_eq_some.mpr ⟨there, live, gen⟩, slots, unlisted, apart, ?_⟩
    intro past t course lends
    exact course.family tidy ⟨f, there, UInt32.le_of_eq gen.symm⟩ lends alone

/-- A transition takes so little that counting the references and frames shows
that it can have it. -/
def State.Modest (e : Engine) (held : Chain) (s : State) : Prop :=
  ((s.references held).length + (s.demand e).chain.length : Int) < Int32.maxValue.toInt ∧
    s.world.arena.frames.size + (s.demand e).fresh.length ≤ UInt32.size ∧
    ∀ size ∈ (s.demand e).fresh, isRoomFor size = true

instance (e : Engine) (held : Chain) (s : State) : Decidable (s.Modest e held) :=
  inferInstanceAs (Decidable (_ ∧ _ ∧ _))

theorem Session.Reachable.run {e : Engine} {s : State} {held : Chain} {fuel : Nat}
    (reachable : Reachable e ⟨s, held⟩) (modest : ∀ n < fuel, (Machine.run e n s).Modest e held) :
    Reachable e ⟨Machine.run e fuel s, held⟩ := by
  obtain ⟨w, capacity, none, fresh, steps⟩ := reachable
  refine ⟨w, capacity, none, fresh, ?_⟩
  induction fuel with
  | zero => exact steps
  | succ fuel ih =>
    obtain ⟨few, slots, room⟩ := modest fuel (Nat.lt_succ_self fuel)
    rw [Machine.run_succ]
    exact (ih fun n below => modest n (Nat.lt_succ_of_lt below)).tail (.runs (.of_few few slots room))

/-- A block that declares a level and returns a closure that writes to it. -/
def keeping : CodeBlock :=
  { code? := some #[22, 0, 0, 33, 0], registers := 1, nestLevel := 1, sharedSizes? := some [1]
    blocks := [some { code? := some #[2, 0, 0, 20, 0, 0, 0], registers := 1, consts := [.int 7] }] }

/-- A new engine, about to run the block. -/
def keepingCall : State :=
  ⟨(Engine.start {} Session.quietHost).2, .execute (some keeping) {} .result, []⟩

/-- The same engine after the block has returned, about to call the closure. -/
def writingCall : State :=
  ⟨(Machine.run (Engine.start {} Session.quietHost).1 3 keepingCall).world,
    .operate (.object keepingCall.world.heap.size none) { operation := .call }, []⟩

/-- The transitions of the two calls, the last one first, since the block began
to run. -/
def writingTrail (e : Engine) : List Footprint :=
  trail e writingCall 5 ++ {} :: trail e (Machine.step e keepingCall) 2

/-- The closure has written to the frame of the block that made it, which has
returned. -/
theorem writing_found :
    let e := (Engine.start {} Session.quietHost).1
    let t := Machine.run e 5 writingCall
    Session.Reachable e ⟨t, []⟩ ∧ t.world.loadSlot ⟨0, 1⟩ 0 = .ok (.int 7) ∧
      ∀ chain ∈ t.chains, ⟨0, 1⟩ ∈ chain → chain ∈ family [⟨0, 1⟩] (writingTrail e) := by
  intro e t
  obtain ⟨-, storage, innermost⟩ := one_storage_per_slot e
  have begun : Session.Reachable e ⟨keepingCall, []⟩ :=
    ⟨_, 0, rfl, rfl, .single (.executes rfl _ _ (by simp))⟩
  have returned : Session.Reachable e ⟨Machine.run e 3 keepingCall, []⟩ :=
    begun.run (by decide +kernel)
  have called : Session.Reachable e ⟨writingCall, []⟩ := by
    obtain ⟨w, capacity, none, fresh, steps⟩ := returned
    exact ⟨w, capacity, none, fresh, steps.tail (.operates (by decide +kernel) _ _)⟩
  have written : Session.Reachable e ⟨t, []⟩ := called.run (by decide +kernel)
  have entered : keepingCall.world.arena.Ages (Machine.step e keepingCall).world.arena := by
    decide +kernel
  have course {start : State} {past : List Footprint}
      (course : Course e start past (Machine.step e keepingCall)) :
      Course e start (writingTrail e ++ past) t := by
    have rests : Course e start (trail e (Machine.step e keepingCall) 2 ++ past)
        (Machine.run e 2 (Machine.step e keepingCall)) := course.run (by decide +kernel)
    rw [← Machine.run_step] at rests
    have calls : Course e start ({} :: (trail e (Machine.step e keepingCall) 2 ++ past)) writingCall :=
      rests.moves (.operates (by decide +kernel) _ _) (by decide +kernel)
    rw [writingTrail, List.append_assoc]
    exact calls.run (by decide +kernel)
  refine ⟨written, ?_, ?_⟩
  · have whole := course (Course.moves (e := e) .here (.runs keepingCall) entered)
    have last : (lastWritten ⟨0, 1⟩ 0 (writingTrail e ++ [keepingCall.footprint e])).or
        (keepingCall.world.arena.load ⟨0, 1⟩ 0).toOption = some (.int 7) := by decide +kernel
    exact ((storage begun whole last).2 [] written).loads (by decide +kernel)
  · obtain ⟨h, f, found, -, -, -, -, reached⟩ := innermost (by decide) begun rfl (by decide) rfl entered
    cases found
    have later := course .here
    rw [List.append_nil] at later
    exact reached later (by decide +kernel)

end ScriptEngine
