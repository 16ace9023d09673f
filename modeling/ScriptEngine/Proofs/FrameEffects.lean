import ScriptEngine.Proofs.FrameContents
import ScriptEngine.Proofs.References
import ScriptEngine.Proofs.WorldViews

/-! What one transition does to shared frames. It writes at most one slot, the
one that an instruction or a request to a binding leads to; apart from that it
makes frames, and takes and drops references. -/
namespace ScriptEngine

open Arena (Acquires Drifts)

/-- A value that is written to a slot of a shared frame. -/
structure Write where
  handle : FrameHandle
  slot : Int
  value : Value
deriving DecidableEq, Repr

/-- Carries out a write. -/
def Arena.write (a : Arena) (target : Write) : Except ArenaError Arena :=
  a.store target.handle target.slot target.value

/-- The arena after a write, if one is to be carried out and can be. -/
def Arena.written (a : Arena) (target : Option Write) : Arena :=
  match target.map a.write with
  | some (.ok b) => b
  | _ => a

/-- What a request to an object is to write. -/
def World.target? (w : World) (ref : ObjRef) (r : Request) : Option Write :=
  match w.heap[ref]? with
  | some (.binding chain _ names) =>
    if r.operation = .iset then do
      let (handle, slot) ← resolveName chain names (← w.textOf (r.arg 0))
      return { handle, slot, value := r.lastArg }
    else none
  | _ => none

/-- What an instruction is to write. -/
def Action.target? : Action → Option Write
  | .store handle slot value _ => some { handle, slot, value }
  | _ => none

namespace State

/-- What the next transition is to write. -/
def target? (e : Engine) (s : State) : Option Write :=
  match s.control with
  | .code a => (a.action e s.world).bind Action.target?
  | .dispatch ref r => s.world.target? ref r
  | _ => none

/-- What the next transition writes. -/
def write? (e : Engine) (s : State) : Option Write :=
  (s.target? e).filter fun target => (s.world.arena.write target).isOk

end State

/-! ### Changes that leave shared frames alone -/

namespace World

variable (w : World)

@[simp] theorem modifyScript_arena (ref : ObjRef) (f : ScriptObject → ScriptObject) :
    (w.modifyScript ref f).arena = w.arena := by
  rcases modifyScript_eq w ref f with same | ⟨o, -, same⟩ <;> rw [same]
  rfl

@[simp] theorem bindName_arena (ref : ObjRef) (name : Text) (slot : BindingSlot) :
    (w.bindName ref name slot).arena = w.arena := by
  rcases bindName_eq w ref name slot with same | ⟨_, _, _, -, same⟩ <;> rw [same]
  rfl

end World

/-- The view that shows the arena. -/
def arenaView : View Arena where
  read := World.arena
  create _ _ _ := rfl
  modifyScript w ref _ _ := w.modifyScript_arena ref _
  raise _ _ := rfl
  report _ _ := rfl
  print _ _ := rfl

theorem arenaView_ignoresMembers : arenaView.IgnoresMembers := fun w ref _ _ =>
  w.modifyScript_arena ref _

theorem World.asThrown_arena (w : World) (f : Fault) : (w.asThrown f).1.arena = w.arena :=
  arenaView.asThrown w f

section Answers

variable (e : Engine) (w : World)

theorem evaluate_arena (chain : Chain) (this : Value) (names : Table BindingSlot) (source : Text) :
    (evaluate e w chain this names source).world.arena = w.arena :=
  (evaluate_spares arenaView e w chain this names source).same

/-- A binding writes what its name leads to, and otherwise leaves shared frames
alone. -/
theorem bindingAnswer_arena {ref : ObjRef} {chain : Chain} {this : Value}
    {names : Table BindingSlot} (there : w.heap[ref]? = some (.binding chain this names))
    (r : Request) :
    (bindingAnswer e w chain this names r).world.arena = w.arena.written (w.target? ref r) := by
  by_cases writes : r.operation = .iset
  · simp only [bindingAnswer, World.target?, there, writes, if_true, withKey]
    cases w.textOf (r.arg 0) with
    | none => rfl
    | some key =>
      simp only [Option.bind_eq_bind, Option.bind_some]
      cases resolveName chain names key with
      | none => rfl
      | some place =>
        simp only [Option.bind_some, Option.pure_def, Arena.written, Option.map_some, Arena.write]
        cases w.arena.store place.1 place.2 r.lastArg <;> rfl
  · have none : w.target? ref r = none := by simp only [World.target?, there, if_neg writes]
    rw [none]
    exact (bindingAnswer_spares arenaView e w chain this names r (.inr writes)).same

theorem dispatch_arena (ref : ObjRef) (r : Request) :
    (dispatch e w ref r).world.arena = w.arena.written (w.target? ref r) := by
  by_cases bound : ∃ chain this names, w.heap[ref]? = some (.binding chain this names)
  · obtain ⟨chain, this, names, there⟩ := bound
    rw [dispatch, there]
    exact bindingAnswer_arena e w there r
  · have other : ∀ chain this names, w.heap[ref]? ≠ some (.binding chain this names) :=
      fun chain this names there => bound ⟨chain, this, names, there⟩
    have none : w.target? ref r = none := by
      unfold World.target?
      split
      next there => exact absurd there (other _ _ _)
      · rfl
    rw [none]
    refine (dispatch_spares arenaView e w ref r (.inl arenaView_ignoresMembers) (.inr ?_)).same
    exact fun chain this names there => absurd there (other chain this names)

/-- What waits for an answer and is no block leaves shared frames alone. -/
theorem resume_arena (r : Reply) {top : Cont} (idle : top.activation? = none) :
    (Machine.resume w r top).world.arena = w.arena := by
  cases top with
  | unlock ref => rfl
  | _ => exact (resume_spares arenaView w r idle rfl).same

end Answers

/-! ### Running blocks -/

namespace Activation

variable {e : Engine} {w : World} {a : Activation} {start : Arena} {place : Int}

theorem acquires_of_same {w' : World} (same : arenaView.read w' = arenaView.read w) :
    w.arena.Acquires w'.arena := by
  rw [show w'.arena = w.arena from same]
  exact .refl _

theorem stop_drifts (acquires : start.Acquires w.arena) (p : Panic) :
    start.Drifts (a.stop w p).world.arena := acquires.drifts a.owned

theorem goto_drifts (acquires : start.Acquires w.arena) :
    start.Drifts (a.goto w place).world.arena := acquires.drifts []

theorem raise_drifts (acquires : start.Acquires w.arena) (f : Fault) :
    start.Drifts (a.raise w f).world.arena := by
  rw [raise, ← (World.annotate_heap w f (a.block.tracePoint a.ip)).2.2] at *
  exact acquires.drifts a.owned

theorem assign_drifts (acquires : start.Acquires w.arena) (dst : Option Nat) (v : Value) :
    start.Drifts (a.assign w dst v place).world.arena := by
  unfold assign
  split
  · split
    · exact goto_drifts acquires
    · exact stop_drifts acquires _
  · exact stop_drifts acquires _

theorem fail_drifts (acquires : start.Acquires w.arena) (error : ArenaError) :
    start.Drifts (a.fail w error).world.arena := by
  rw [← w.asThrown_arena (.host (.arena error))] at acquires
  exact raise_drifts acquires _

theorem mark_drifts (acquires : start.Acquires w.arena) (result : Value) (fault : Option Fault)
    (dst : Nat) : start.Drifts (a.mark w result fault dst place).world.arena := by
  cases fault with
  | none =>
    apply assign_drifts
    exact acquires
  | some f =>
    rw [← w.asThrown_arena f] at acquires
    apply assign_drifts
    exact acquires

theorem capture_drifts (w : World) (a : Activation) (o : Object) (context : Option ObjRef)
    (dst : Option Nat) (next : Int) : w.arena.Drifts (a.capture w o context dst next).world.arena := by
  have acquires := Acquires.of_retainChain w.arena a.chain
  unfold capture
  split <;> rename_i retained <;> rw [retained] at acquires
  · exact assign_drifts acquires _ _
  · exact raise_drifts acquires _
  · exact stop_drifts acquires _

/-- An instruction that writes no shared slot only counts. -/
theorem perform_drifts (e : Engine) (w : World) (a : Activation) {action : Action}
    (other : action.target? = none) : w.arena.Drifts (a.perform e w action).world.arena := by
  have start := Acquires.refl w.arena
  cases action with
  | store => cases other
  | goto => exact goto_drifts start
  | assign | newObject | newProxy =>
    apply assign_drifts
    exact start
  | newFunction target context dst next =>
    apply assign_drifts
    exact acquires_of_same (arenaView.wrapFunction w e target)
  | newProperty getter setter dst next =>
    apply assign_drifts
    exact acquires_of_same (arenaView.wrapProperty (w.create (.scriptProperty getter setter)).1 e
      (some w.heap.size))
  | capture | bind => exact capture_drifts ..
  | bindName binding name slot next =>
    exact goto_drifts (by rw [w.bindName_arena]; exact start)
  | request target r lock await =>
    cases lock <;> exact .of_eq rfl
  | markError =>
    apply mark_drifts
    exact start
  | settle register v caught next =>
    cases next with
    | none => exact start.drifts a.owned
    | some => exact start.drifts []
  | «return» => exact start.drifts a.owned
  | throwValue | throwException | exit | raise =>
    apply raise_drifts
    exact start
  | fail => exact fail_drifts start _
  | report => exact goto_drifts start
  | panic => exact stop_drifts start _

theorem resume_drifts (w : World) (a : Activation) (r : Reply) (await : Await) :
    w.arena.Drifts (a.resume w r await).world.arena := by
  have start := Acquires.refl w.arena
  have insisted (name : Text) : w.arena.Acquires (w.insist name r).1.arena :=
    acquires_of_same (arenaView.insist w name r)
  cases await with simp only [resume]
  | assign name dst next =>
    have acquires := insisted name
    split <;> rename_i same <;> rw [same] at acquires
    · exact assign_drifts acquires _ _
    · exact raise_drifts acquires _
  | skip name next =>
    have acquires := insisted name
    split <;> rename_i same <;> rw [same] at acquires
    · exact goto_drifts acquires
    · exact raise_drifts acquires _
  | mark dst next => exact mark_drifts (insisted []) _ _ _
  | membership dst next =>
    cases r with
    | done | refused => exact assign_drifts start _ _
    | failed => exact raise_drifts start _
  | classOf name args dst next =>
    have acquires := insisted name
    split <;> rename_i same <;> rw [same] at acquires
    · exact acquires.drifts []
    · exact raise_drifts acquires _

end Activation

/-! ### Every transition -/

theorem Enters.drifts {w : World} {block : CodeBlock} {inv : Invocation} {completion : Completion}
    {n : Next} (enters : Enters w block inv completion n) : w.arena.Drifts n.world.arena := by
  have overlaid {w₁ : World} {frame : FrameRef} (framed : Framed w block inv w₁ frame) :
      w.arena.Drifts (w₁.arena.overlay inv.shared (block.sharedSizes.map Int64.toInt)).arena := by
    rw [framed.arena_eq.1]
    exact Acquires.drifts ⟨_, rfl⟩ []
  cases enters with
  | flat framed => exact .of_eq framed.arena_eq.1
  | nested framed _ same | refused framed _ same | broken framed _ same =>
    have drifts := overlaid framed
    rw [same] at drifts
    exact drifts
  | crowded | small => exact .of_eq rfl

namespace State

variable {e : Engine} {s : State} {target : Write}

theorem write?_eq_some (found : s.write? e = some target) :
    s.target? e = some target ∧ ∃ arena, s.world.arena.write target = .ok arena := by
  obtain ⟨found, accepted⟩ := Option.filter_eq_some_iff.mp found
  refine ⟨found, ?_⟩
  cases stored : s.world.arena.write target with
  | ok arena => exact ⟨arena, rfl⟩
  | error error =>
    rw [stored] at accepted
    cases accepted

theorem write?_eq_none (unwritten : s.write? e = none) (found : s.target? e = some target) :
    ∃ error, s.world.arena.write target = .error error := by
  cases stored : s.world.arena.write target with
  | error error => exact ⟨error, rfl⟩
  | ok arena =>
    rw [write?, found, Option.filter_some, stored] at unwritten
    cases unwritten

end State

namespace Machine

variable {e : Engine} {s : State} {target : Write}

/-- A transition that writes does nothing else to shared frames. -/
theorem step_writes (found : s.write? e = some target) :
    s.world.arena.write target = .ok (step e s).world.arena := by
  obtain ⟨aimed, arena, stored⟩ := State.write?_eq_some found
  rw [stored]
  obtain ⟨w, control, stack⟩ := s
  cases control with
  | dispatch ref r =>
    have same := dispatch_arena e w ref r
    rw [show w.target? ref r = some target from aimed, Arena.written, Option.map_some, stored] at same
    exact congrArg _ same.symm
  | code a =>
    obtain ⟨action, does, aims⟩ := Option.bind_eq_some_iff.mp aimed
    cases action with
    | store handle slot v next =>
      cases aims
      simp only [Arena.write] at stored
      simp only [step, advance, Activation.advance, does, Activation.perform, stored]
      rfl
    | _ => cases aims
  | _ => cases aimed

/-- A transition that does not write only counts. -/
theorem step_drifts (unwritten : s.write? e = none) :
    s.world.arena.Drifts (step e s).world.arena := by
  have refused : ∀ {target}, s.target? e = some target →
      ∃ error, s.world.arena.write target = .error error := State.write?_eq_none unwritten
  obtain ⟨w, control, stack⟩ := s
  cases control with
  | reply r =>
    cases stack with
    | nil => exact .of_eq rfl
    | cons top rest =>
      cases top with
      | code a await => exact a.resume_drifts w r await
      | _ => exact .of_eq (resume_arena w r rfl)
  | panic p =>
    cases stack with
    | nil => exact .of_eq rfl
    | cons top rest =>
      cases top with
      | code a await => exact (Acquires.refl w.arena).drifts a.owned
      | _ => exact .of_eq rfl
  | operate target r => exact .of_eq (operate_spares arenaView e w target r).same
  | lock ref target r =>
    obtain ⟨_, same⟩ := acquire_world e w ref target r
    have arena := congrArg World.arena same
    exact .of_eq arena
  | host action => exact .of_eq (hostStep_spares arenaView w action).same
  | dispatch ref r =>
    refine .of_eq ((dispatch_arena e w ref r).trans ?_)
    cases aimed : w.target? ref r with
    | none => rfl
    | some target =>
      obtain ⟨error, stored⟩ := refused aimed
      rw [Arena.written, Option.map_some, stored]
  | execute block inv completion =>
    cases block with
    | none => exact .of_eq rfl
    | some block => exact (enter_enters w block inv completion).drifts
  | code a =>
    simp only [step, advance, Activation.advance]
    cases does : a.action e w with
    | none => exact (Acquires.refl w.arena).drifts a.owned
    | some action =>
      cases aims : action.target? with
      | none => exact a.perform_drifts e w aims
      | some target =>
        obtain ⟨error, stored⟩ := refused (Option.bind_eq_some_iff.mpr ⟨action, does, aims⟩)
        cases action with
        | store handle slot v next =>
          cases aims
          simp only [Arena.write] at stored
          simp only [Activation.perform, stored]
          exact Activation.fail_drifts (Acquires.refl w.arena) error
        | _ => cases aims

end Machine
end ScriptEngine
