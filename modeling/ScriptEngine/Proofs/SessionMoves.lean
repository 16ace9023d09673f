import ScriptEngine.Proofs.FrameEffects
import ScriptEngine.Proofs.Session

/-! Sessions move by move. Every move of the machine or the host writes at most
one shared slot, so that a slot holds what was last written to it. -/
namespace ScriptEngine

/-- What a move shows of itself: what it writes, the chains that the host brings
in, and the chain it builds, with the one that this is built over. -/
structure Footprint where
  write? : Option Write := none
  lends : List Chain := []
  begets? : Option (Chain × Chain) := none

def FrameUse.footprint (w : World) : FrameUse → Footprint
  | .overlay chain sizes =>
    match (w.overlay chain sizes).2 with
    | .ok built => { begets? := some (chain, built) }
    | _ => {}
  | .bind chain _ => { lends := [chain] }
  | _ => {}

/-- The chain of a block that begins to run, with the one it runs under. -/
def State.begets? (e : Engine) (s : State) : Option (Chain × Chain) :=
  match s.control, (Machine.step e s).control with
  | .execute _ inv _, .code a => some (inv.shared, a.chain)
  | _, _ => none

/-- What the next transition shows of itself. -/
def State.footprint (e : Engine) (s : State) : Footprint :=
  { write? := s.write? e, begets? := s.begets? e }

/-- One move of a session, of the machine or the host. Nothing is asked of the
host: it may use any handles and chains. -/
inductive Move (e : Engine) : State → Footprint → State → Prop
  | runs (s : State) : Move e s (s.footprint e) (Machine.step e s)
  | operates {s : State} (rests : s.isFinal = true) (target : Value) (r : Request) :
      Move e s {} ⟨s.world, .operate target r, []⟩
  | executes {s : State} (rests : s.isFinal = true) (block : Option CodeBlock) (inv : Invocation) :
      Move e s { lends := [inv.shared] } ⟨s.world, .execute block inv .result, []⟩
  | evaluates {s : State} {ref : ObjRef} {chain : Chain} {this : Value} {names : Table BindingSlot}
      {n : Next} (rests : s.isFinal = true)
      (there : s.world.heap[ref]? = some (.binding chain this names)) (source : Text)
      (next : evaluate e s.world chain this names source = n) :
      Move e s {} ⟨n.world, n.control, n.push⟩
  | uses {s : State} (use : FrameUse) :
      Move e s (use.footprint s.world) { s with world := (use.run s.world).1 }
  | stores {s : State} {arena : Arena} (target : Write)
      (stored : s.world.arena.write target = .ok arena) :
      Move e s { write? := some target } { s with world := { s.world with arena } }
  | changes {s : State} {w : World} (evolves : World.Evolves s.world w)
      (same : w.arena = s.world.arena) : Move e s {} { s with world := w }

/-- The moves that lead from one state to another, the last one first, as long
as slots and their occupants can be told apart. -/
inductive Course (e : Engine) (s : State) : List Footprint → State → Prop
  | here : Course e s [] s
  | moves {past : List Footprint} {last : Footprint} {t t' : State} (earlier : Course e s past t)
      (move : Move e t last t') (ages : t.world.arena.Ages t'.world.arena) :
      Course e s (last :: past) t'

/-- What the transitions of a run show of themselves, the last one first. -/
def trail (e : Engine) (s : State) : Nat → List Footprint
  | 0 => []
  | n + 1 => (Machine.run e n s).footprint e :: trail e s n

/-- What was last written to a slot. -/
def lastWritten (h : FrameHandle) (slot : Int) : List Footprint → Option Value
  | [] => none
  | last :: past =>
    match last.write? with
    | some target =>
      if target.handle = h ∧ target.slot = slot then some target.value
      else lastWritten h slot past
    | none => lastWritten h slot past

/-! ### Every session is made of moves -/

theorem World.Change.moves {e : Engine} {s : State} {w : World} (change : Change s.world w) :
    ∃ shown, Move e s shown { s with world := w } := by
  have quiet (same : w.arena = s.world.arena) : ∃ shown, Move e s shown { s with world := w } :=
    ⟨{}, .changes (.change change) same⟩
  cases change with
  | @store handle slot v arena stored => exact ⟨_, .stores { handle, slot, value := v } stored⟩
  | modifyScript ref f => exact quiet (s.world.modifyScript_arena ref f)
  | bindName ref name slot => exact quiet (s.world.bindName_arena ref name slot)
  | annotate f p => exact quiet (World.annotate_heap s.world f p).2.2
  | create | newFrame | setRegister | raise | report | print | setLock => exact quiet rfl

theorem World.Evolves.moves {e : Engine} {s : State} {w : World} (evolves : Evolves s.world w) :
    Relation.ReflTransGen (fun t t' => ∃ shown, Move e t shown t') s { s with world := w } := by
  induction evolves with
  | refl => exact .refl
  | tail _ change ih =>
    exact ih.tail (World.Change.moves (s := { s with world := _ }) change)

/-- A session is made of moves. -/
theorem Session.Step.moves {e : Engine} {s s' : Session} (step : Session.Step e s s') :
    Relation.ReflTransGen (fun t t' => ∃ shown, Move e t shown t') s.machine s'.machine := by
  cases step with
  | @runs s held meets => exact .single ⟨_, .runs s⟩
  | operates rests target r => exact .single ⟨_, .operates rests target r⟩
  | executes rests block inv keeps => exact .single ⟨_, .executes rests block inv⟩
  | evaluates rests there source next => exact .single ⟨_, .evaluates rests there source next⟩
  | @uses s held rest w outcome use drops keeps meets done =>
    have move : Move e s (use.footprint s.world) _ := .uses use
    rw [done] at move
    exact .single ⟨_, move⟩
  | changes evolves => exact evolves.moves

theorem Course.run {e : Engine} {start s : State} {past : List Footprint} {fuel : Nat}
    (course : Course e start past s) (ages : ∀ n < fuel,
      (Machine.run e n s).world.arena.Ages (Machine.run e (n + 1) s).world.arena) :
    Course e start (trail e s fuel ++ past) (Machine.run e fuel s) := by
  induction fuel with
  | zero => exact course
  | succ fuel ih =>
    have last := ages fuel (Nat.lt_succ_self fuel)
    rw [Machine.run_succ] at last ⊢
    exact .moves (ih fun n below => ages n (Nat.lt_succ_of_lt below)) (.runs _) last

/-! ### What a move does to the arena -/

theorem arenaOutcome_arena {α : Type} (w : World) (acquired : Arena.Acquired α) :
    (w.arenaOutcome acquired).1.arena = acquired.arena := by
  cases acquired <;> rfl

namespace FrameUse

variable {w : World}

theorem drifts (w : World) (use : FrameUse) : w.arena.Drifts (use.run w).1.arena := by
  have retained (chain : Chain) : w.arena.Drifts (w.retainChain chain).1.arena := by
    rw [World.retainChain, arenaOutcome_arena]
    exact (Arena.Acquires.of_retainChain w.arena chain).drifts []
  cases use with
  | alloc size =>
    simp only [run, World.allocFrame]
    cases made : w.arena.alloc size with
    | full => exact .of_eq rfl
    | made | broken => exact (Arena.Acquires.of_alloc (by rw [made]; rfl)).drifts []
  | retain h =>
    have one : w.arena.Drifts (w.retainChain [h]).1.arena := retained [h]
    simp only [World.retainChain, Arena.retainChain, Arena.retainFrom] at one
    simp only [run, World.retainFrame]
    cases kept : w.arena.retain? h with
    | none => exact .of_eq rfl
    | some arena =>
      rw [kept] at one
      exact one
  | release h =>
    simp only [run, World.releaseFrame]
    split
    · exact .of_eq rfl
    next arena _ _ dropped =>
      have drifts := Arena.Drifts.of_release w.arena h
      rw [dropped] at drifts
      exact drifts
  | overlay chain sizes =>
    simp only [run, World.overlay, arenaOutcome_arena]
    exact Arena.Acquires.drifts ⟨_, rfl⟩ []
  | retainChain chain => exact retained chain
  | releaseChain chain => exact (Arena.Acquires.refl w.arena).drifts chain
  | bind chain this =>
    have drifts := retained chain
    simp only [run, World.newBinding]
    split <;> rename_i same <;> rw [same] at drifts <;> exact drifts

theorem footprint_write? (use : FrameUse) : (use.footprint w).write? = none := by
  cases use with
  | overlay chain sizes =>
    simp only [footprint]
    split <;> rfl
  | _ => rfl

theorem footprint_begets {use : FrameUse} {base built : Chain}
    (begets : (use.footprint w).begets? = some (base, built)) :
    ∃ sizes, w.arena.overlay base sizes = .made (use.run w).1.arena built := by
  cases use with
  | overlay chain sizes =>
    simp only [footprint, World.overlay] at begets
    simp only [run, World.overlay]
    cases overlaid : w.arena.overlay chain sizes with
    | made arena result =>
      rw [overlaid] at begets
      cases begets
      exact ⟨sizes, overlaid⟩
    | failed | broken =>
      rw [overlaid] at begets
      cases begets
  | _ => cases begets

end FrameUse

namespace Move

variable {e : Engine} {s s' : State} {shown : Footprint} {target : Write} {h : FrameHandle}
  {slot : Int} {v : Value} {base built chain : Chain}

theorem writes (move : Move e s shown s') (found : shown.write? = some target) :
    s.world.arena.write target = .ok s'.world.arena := by
  cases move with
  | runs => exact Machine.step_writes found
  | stores other stored =>
    cases found
    exact stored
  | uses use =>
    rw [use.footprint_write?] at found
    cases found
  | _ => cases found

theorem drifts (move : Move e s shown s') (unwritten : shown.write? = none) :
    s.world.arena.Drifts s'.world.arena := by
  cases move with
  | runs => exact Machine.step_drifts unwritten
  | stores => cases unwritten
  | uses use => exact use.drifts s.world
  | evaluates _ _ source next => exact .of_eq (next ▸ evaluate_arena ..)
  | changes evolves same => exact .of_eq same
  | operates | executes => exact .of_eq rfl

theorem tidy (move : Move e s shown s') (ages : s.world.arena.Ages s'.world.arena)
    (tidy : s.world.arena.Tidy) : s'.world.arena.Tidy := by
  cases found : shown.write? with
  | some target => exact tidy.store (move.writes found)
  | none => exact ((move.drifts found).turns tidy ages.slots).2

theorem issued (move : Move e s shown s') (ages : s.world.arena.Ages s'.world.arena)
    (tidy : s.world.arena.Tidy) (issued : s.world.arena.Issued h) : s'.world.arena.Issued h := by
  cases found : shown.write? with
  | some target => exact issued.store (move.writes found)
  | none => exact issued.turns ((move.drifts found).turns tidy ages.slots).1 ages

/-- A move that does not write a slot leaves what it holds. -/
theorem holds (move : Move e s shown s') (ages : s.world.arena.Ages s'.world.arena)
    (tidy : s.world.arena.Tidy) (holds : s.world.arena.Holds h slot v)
    (other : ∀ target, shown.write? = some target → ¬(target.handle = h ∧ target.slot = slot)) :
    s'.world.arena.Holds h slot v := by
  cases found : shown.write? with
  | some target => exact holds.store (move.writes found) (other target found)
  | none => exact holds.turns ((move.drifts found).turns tidy ages.slots).1 ages

end Move

/-! ### What slots hold -/

namespace Course

variable {e : Engine} {s t : State} {past : List Footprint} {h : FrameHandle} {slot : Int}
  {v : Value}

theorem tidy (course : Course e s past t) (tidy : s.world.arena.Tidy) : t.world.arena.Tidy := by
  induction course with
  | here => exact tidy
  | moves _ move ages ih => exact move.tidy ages ih

/-- A slot holds what was last written to it, or what it held at first. -/
theorem holds (course : Course e s past t) (tidy : s.world.arena.Tidy)
    (start : lastWritten h slot past = none → s.world.arena.Holds h slot v) :
    t.world.arena.Holds h slot ((lastWritten h slot past).getD v) := by
  induction course with
  | here => exact start rfl
  | @moves past last t t' earlier move ages ih =>
    rw [lastWritten] at start ⊢
    cases found : last.write? with
    | none =>
      simp only [found] at start ⊢
      exact move.holds ages (earlier.tidy tidy) (ih start) (by simp [found])
    | some target =>
      simp only [found] at start ⊢
      split
      next same =>
        obtain ⟨rfl, rfl⟩ := same
        exact .of_store (move.writes found)
      next other =>
        rw [if_neg other] at start
        refine move.holds ages (earlier.tidy tidy) (ih start) fun written same => ?_
        rw [found] at same
        cases same
        exact other

theorem last_holds (course : Course e s past t) (tidy : s.world.arena.Tidy)
    (last : (lastWritten h slot past).or (s.world.arena.load h slot).toOption = some v) :
    t.world.arena.Holds h slot v := by
  cases written : lastWritten h slot past with
  | some u =>
    rw [written, Option.some_or] at last
    cases last
    have start : lastWritten h slot past = none → s.world.arena.Holds h slot v := by simp [written]
    have holds := course.holds tidy start
    rwa [written, Option.getD_some] at holds
  | none =>
    have start : s.world.arena.load h slot = .ok v := by
      rw [written, Option.none_or] at last
      cases loaded : s.world.arena.load h slot with
      | ok u =>
        rw [loaded] at last
        cases last
        rfl
      | error =>
        rw [loaded] at last
        cases last
    have holds := course.holds tidy fun _ => .of_load start
    rwa [written, Option.getD_none] at holds

end Course

end ScriptEngine
