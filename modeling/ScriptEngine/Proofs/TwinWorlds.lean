import ScriptEngine.Machine

/-! Worlds that differ in their log, and in the limit on their shared frames.
Nothing that an engine does looks at the log, and the limit shows only where a
frame is refused: so what is done to such worlds leaves them alike. -/
namespace ScriptEngine

/-! ### Shared frames under another limit -/

namespace Arena

variable {a b : Arena} {h : FrameHandle} {taken chain : Chain} {limit : Int}

/-- The same frames under another limit. -/
def limited (a : Arena) (limit : Int) : Arena := { a with capacity := limit }

/-- What became of a request under another limit. -/
def Acquired.limited {α : Type} (limit : Int) : Acquired α → Acquired α
  | .made arena result => .made (arena.limited limit) result
  | .failed arena dropped error => .failed (arena.limited limit) dropped error
  | .broken arena => .broken (arena.limited limit)

theorem release_limited (a : Arena) (limit : Int) (h : FrameHandle) :
    (a.limited limit).release h = ((a.release h).1.limited limit, (a.release h).2) := by
  have same : (a.limited limit).frame? h = a.frame? h := rfl
  simp only [release, same]
  cases a.frame? h with
  | none => rfl
  | some f =>
    dsimp only
    split <;> rfl

theorem releaseChain_limited (a : Arena) (limit : Int) (chain : Chain) :
    (a.limited limit).releaseChain chain =
      ((a.releaseChain chain).1.limited limit, (a.releaseChain chain).2) := by
  induction chain generalizing a with
  | nil => rfl
  | cons h rest ih => simp only [releaseChain, release_limited, ih]

theorem giveBack_limited {α : Type} (a : Arena) (limit : Int) (taken : Chain) (error : ArenaError) :
    ((a.limited limit).giveBack taken error : Acquired α) =
      (a.giveBack taken error).limited limit := by
  simp only [giveBack, releaseChain_limited]
  rfl

theorem retain?_limited (a : Arena) (limit : Int) (h : FrameHandle) :
    (a.limited limit).retain? h = (a.retain? h).map (·.limited limit) := by
  have same : (a.limited limit).frame? h = a.frame? h := rfl
  simp only [retain?, same]
  cases a.frame? h <;> rfl

theorem store_limited (a : Arena) (limit : Int) (h : FrameHandle) (slot : Int) (v : Value) :
    (a.limited limit).store h slot v = (a.store h slot v).map (·.limited limit) := by
  have same : (a.limited limit).frame? h = a.frame? h := rfl
  simp only [store, same]
  cases a.frame? h with
  | none => rfl
  | some f =>
    dsimp only
    split <;> rfl

theorem retainFrom_limited (a : Arena) (limit : Int) (taken chain : Chain) :
    (a.limited limit).retainFrom taken chain = (a.retainFrom taken chain).limited limit := by
  induction chain generalizing a taken with
  | nil => rfl
  | cons h rest ih =>
    simp only [retainFrom, retain?_limited]
    cases a.retain? h with
    | none => exact giveBack_limited ..
    | some b => exact ih b (taken ++ [h])

/-- A limit that refuses nothing that another one grants. -/
def Looser (own limit : Int) : Prop := 0 < limit → 0 < own ∧ own ≤ limit

theorem isFull_limited (looser : Looser a.capacity limit) (granted : a.isFull = false) :
    (a.limited limit).isFull = false := by
  by_cases bounded : 0 < limit
  · obtain ⟨positive, within⟩ := looser bounded
    simp only [isFull, positive, decide_true, Bool.true_and, decide_eq_false_iff_not] at granted
    have room : ¬limit ≤ a.live := by omega
    simp [isFull, limited, room]
  · simp [isFull, limited, bounded]

theorem alloc_limited {size : Int} (same : (a.limited limit).isFull = a.isFull) :
    (a.limited limit).alloc size =
      match a.alloc size with
      | .full => .full
      | .made b h => .made (b.limited limit) h
      | .broken b => .broken (b.limited limit) := by
  have slot : (a.limited limit).takeSlot = (a.takeSlot.1.limited limit, a.takeSlot.2) := by
    simp only [takeSlot, limited]
    cases a.free <;> rfl
  simp only [alloc, same, slot]
  cases a.isFull with
  | true => rfl
  | false => cases isRoomFor size <;> rfl

theorem alloc_capacity {size : Int} (made : a.alloc size = .made b h) : b.capacity = a.capacity := by
  have slot : a.takeSlot.1.capacity = a.capacity := by
    unfold takeSlot
    split <;> rfl
  simp only [alloc] at made
  split at made
  · cases made
  · split at made <;> cases made
    exact slot

theorem retain?_capacity (retained : a.retain? h = some b) : b.capacity = a.capacity := by
  obtain ⟨f, -, rfl⟩ := Option.map_eq_some_iff.mp retained
  rfl

/-- A chain is built alike under the same limit, and under a looser one if nothing
is refused. -/
theorem overlayFrom_limited {layers : List Layer}
    (agrees : limit = a.capacity ∨ Looser a.capacity limit ∧
      ∀ b dropped, a.overlayFrom taken layers ≠ .failed b dropped .full) :
    (a.limited limit).overlayFrom taken layers = (a.overlayFrom taken layers).limited limit := by
  induction layers generalizing a taken with
  | nil => rfl
  | cons layer rest ih =>
    cases layer with
    | shared h =>
      simp only [overlayFrom, retain?_limited] at agrees ⊢
      cases retained : a.retain? h with
      | none => exact giveBack_limited ..
      | some b =>
        simp only [retained, ← retain?_capacity retained] at agrees
        exact ih agrees
    | fresh size =>
      -- A frame that is refused here makes the whole chain fail with the same error.
      have same : (a.limited limit).isFull = a.isFull := by
        rcases agrees with rfl | ⟨looser, granted⟩
        · rfl
        · have free : a.isFull = false := by
            refine Bool.eq_false_iff.mpr fun full => ?_
            have refused : a.overlayFrom taken (.fresh size :: rest) = a.giveBack taken .full := by
              simp only [overlayFrom, alloc, full, if_true]
            exact granted _ _ refused
          rw [free, isFull_limited looser free]
      simp only [overlayFrom, alloc_limited same] at agrees ⊢
      cases made : a.alloc size with
      | full => exact giveBack_limited ..
      | made b h =>
        simp only [made, ← alloc_capacity made] at agrees
        exact ih agrees
      | broken b => rfl

end Arena

/-! ### Worlds with another log and another limit -/

namespace World

/-- The same world with another log and another limit on shared frames. -/
def recast (w : World) (log : Array Event) (limit : Int) : World :=
  { w with events := log, arena := w.arena.limited limit }

/-- A world with another limit and another log, in which the reports that are kept
are the same. -/
inductive Twin (keep : Event → Bool) (limit : Int) (w : World) : World → Prop
  | mk {log : Array Event} (same : log.filter keep = w.events.filter keep) :
      Twin keep limit w (w.recast log limit)

/-- What is done to twin worlds with the same result. -/
inductive Paired {α : Type} (keep : Event → Bool) (limit : Int) : World × α → World × α → Prop
  | mk {w w' : World} (twin : w.Twin keep limit w') (x : α) : Paired keep limit (w, x) (w', x)

theorem Paired.of {α : Type} {keep : Event → Bool} {limit : Int} {p p' : World × α}
    (twin : p.1.Twin keep limit p'.1) (same : p'.2 = p.2) : Paired keep limit p p' := by
  obtain ⟨w, x⟩ := p
  obtain ⟨w', x'⟩ := p'
  cases same
  exact .mk twin x

namespace Twin

variable {keep : Event → Bool} {limit : Int} {w w' : World}

/-! What is read of a world. -/

section Reads

variable (twin : w.Twin keep limit w')
include twin

theorem heap : w'.heap = w.heap := by cases twin; rfl
theorem registers (frame : FrameRef) : w'.registers frame = w.registers frame := by cases twin; rfl
theorem script? (ref : ObjRef) : w'.script? ref = w.script? ref := by cases twin; rfl
theorem lockKind? (ref : ObjRef) : w'.lockKind? ref = w.lockKind? ref := by cases twin; rfl
theorem locks (ref : ObjRef) : w'.locks ref = w.locks ref := by cases twin; rfl
theorem textOf (v : Value) : w'.textOf v = w.textOf v := by cases twin; rfl
theorem boundTo (receiver v : Value) : w'.boundTo receiver v = w.boundTo receiver v := by
  cases twin; rfl

theorem lookup (ref : ObjRef) (name : Text) (flags : Flags) :
    w'.lookup ref name flags = w.lookup ref name flags := by
  have searches (fuel : Nat) (ref : ObjRef) :
      w'.lookupFrom name flags fuel ref = w.lookupFrom name flags fuel ref := by
    induction fuel generalizing ref with
    | zero => rfl
    | succ fuel ih => simp only [lookupFrom, twin.script?, funext ih]
  simp only [World.lookup, twin.script?, twin.heap, searches]

theorem inClass (cls : Option ObjRef) (v : Value) : w'.inClass cls v = w.inClass cls v := by
  have descends (target : ObjRef) (fuel : Nat) (cls : Option ObjRef) :
      w'.descends target fuel cls = w.descends target fuel cls := by
    induction fuel generalizing cls with
    | zero => rfl
    | succ fuel ih => cases cls <;> simp only [World.descends, twin.script?, ih]
  simp only [World.inClass, twin.script?, twin.heap, descends]

theorem faultText (f : Fault) : w'.faultText f = w.faultText f := by
  induction f with
  | signal => cases twin; rfl
  | host => rfl
  | labelled label inner ih => simp only [World.faultText, ih]

theorem faultValue (f : Fault) : w'.faultValue f = w.faultValue f := by cases twin; rfl
theorem load (h : FrameHandle) (slot : Int) : w'.arena.load h slot = w.arena.load h slot := by
  cases twin; rfl

theorem lockOwner? (ref : ObjRef) : w'.lockOwner? ref = w.lockOwner? ref := by
  have owners (fuel : Nat) (ref : ObjRef) : w'.lockOwnerFrom fuel ref = w.lockOwnerFrom fuel ref := by
    induction fuel generalizing ref with
    | zero => rfl
    | succ fuel ih => simp only [lockOwnerFrom, twin.lockKind?, twin.heap, ih]
  simp only [World.lockOwner?, twin.heap, owners]

theorem store (h : FrameHandle) (slot : Int) (v : Value) :
    w'.arena.store h slot v = (w.arena.store h slot v).map (·.limited limit) := by
  cases twin
  exact Arena.store_limited ..

theorem retainChain (chain : Chain) :
    w'.arena.retainChain chain = (w.arena.retainChain chain).limited limit := by
  cases twin
  exact Arena.retainFrom_limited ..

end Reads

/-! What is done to a world. -/

section Changes

variable (twin : w.Twin keep limit w')
include twin

theorem create (o : Object) : (w.create o).1.Twin keep limit (w'.create o).1 := by
  cases twin with | mk same => exact .mk same

theorem create_ref (o : Object) : (w'.create o).2 = (w.create o).2 := by cases twin; rfl

theorem setObject (ref : ObjRef) (o : Object) :
    (w.setObject ref o).Twin keep limit (w'.setObject ref o) := by
  cases twin with | mk same => exact .mk same

theorem modifyScript (ref : ObjRef) (f : ScriptObject → ScriptObject) :
    (w.modifyScript ref f).Twin keep limit (w'.modifyScript ref f) := by
  simp only [World.modifyScript, twin.script?]
  cases w.script? ref with
  | none => exact twin
  | some o => exact twin.setObject ref _

theorem setLock (ref : ObjRef) (m : Mutex) :
    (w.setLock ref m).Twin keep limit (w'.setLock ref m) := by
  cases twin with | mk same => exact .mk same

theorem unlock (ref : ObjRef) : (w.unlock ref).Twin keep limit (w'.unlock ref) := by
  rw [World.unlock, World.unlock, twin.locks]
  exact twin.setLock ..

theorem bindName (ref : ObjRef) (name : Text) (slot : BindingSlot) :
    (w.bindName ref name slot).Twin keep limit (w'.bindName ref name slot) := by
  simp only [World.bindName, twin.heap]
  split
  · exact twin.setObject ref _
  · exact twin

theorem newFrame (registers : Array Value) :
    (w.newFrame registers).1.Twin keep limit (w'.newFrame registers).1 := by
  cases twin with | mk same => exact .mk same

theorem newFrame_ref (registers : Array Value) :
    (w'.newFrame registers).2 = (w.newFrame registers).2 := by cases twin; rfl

theorem setRegister (frame : FrameRef) (index : Nat) (v : Value) :
    (w.setRegister frame index v).Twin keep limit (w'.setRegister frame index v) := by
  cases twin with | mk same => exact .mk same

theorem setArena (arena : Arena) :
    Twin keep limit { w with arena } { w' with arena := arena.limited limit } := by
  cases twin with | mk same => exact .mk same

theorem print (line : Text) :
    Twin keep limit { w with output := w.output.push line }
      { w' with output := w'.output.push line } := by
  cases twin with | mk same => exact .mk same

theorem report (event : Event) : (w.report event).Twin keep limit (w'.report event) := by
  cases twin with
  | @mk log same =>
    have pushed (log : Array Event) :
        (log.push event).filter keep = log.filter keep ++ #[event].filter keep := by
      rw [← Array.append_singleton, Array.filter_append (by simp)]
    have kept : (log.push event).filter keep = (w.report event).events.filter keep := by
      rw [World.report, pushed, pushed, same]
    exact .mk kept

theorem reportReleases (outcomes : List (FrameHandle × Release)) :
    (w.reportReleases outcomes).Twin keep limit (w'.reportReleases outcomes) := by
  cases twin with
  | @mk log same =>
    have kept : (log ++ (outcomes.flatMap Event.ofRelease).toArray).filter keep =
        (w.reportReleases outcomes).events.filter keep := by
      simp [World.reportReleases, Array.filter_append, same]
    exact .mk kept

theorem releaseChain (chain : Chain) :
    (w.releaseChain chain).Twin keep limit (w'.releaseChain chain) := by
  have limited : w'.arena.releaseChain chain =
      ((w.arena.releaseChain chain).1.limited limit, (w.arena.releaseChain chain).2) := by
    cases twin
    exact Arena.releaseChain_limited ..
  simp only [World.releaseChain, limited]
  exact (twin.setArena _).reportReleases _

theorem annotate (f : Fault) (p : TracePoint) :
    (w.annotate f p).Twin keep limit (w'.annotate f p) := by
  cases twin with
  | mk same =>
    unfold World.annotate
    split <;> exact .mk same

theorem raise (s : Signal) : Paired keep limit (w.raise s) (w'.raise s) := by
  cases twin with | mk same => exact .of (.mk same) rfl

theorem throwException (className : String) (message : Text) (cause : Option Fault) :
    Paired keep limit (w.throwException className message cause)
      (w'.throwException className message cause) := by
  cases twin with | mk same => exact .of (.mk same) rfl

theorem asThrown (f : Fault) : Paired keep limit (w.asThrown f) (w'.asThrown f) := by
  simp only [World.asThrown, twin.faultText]
  split
  · exact .mk twin f
  · exact twin.throwException ..

theorem insist (name : Text) (r : Reply) :
    Paired keep limit (w.insist name r) (w'.insist name r) := by
  cases r with
  | done written => exact .mk twin _
  | failed written fault => exact .mk twin _
  | refused refusal => cases twin with | mk same => exact .of (.mk same) rfl

theorem hostFault (f : HostFault) : Paired keep limit (w.hostFault f) (w'.hostFault f) := by
  induction f with
  | text | passed => exact .mk twin _
  | throw | exit => exact twin.raise _
  | labelled label inner ih =>
    simp only [World.hostFault]
    generalize w.hostFault inner = p at ih ⊢
    generalize w'.hostFault inner = p' at ih ⊢
    cases ih with | mk twin f => exact .mk twin _

theorem wrapFunction (e : Engine) (config : Config) (target : Option ObjRef) :
    Paired keep limit (e.wrapFunction w target) ({ e with config }.wrapFunction w' target) := by
  simp only [Engine.wrapFunction]
  split
  · exact .mk twin _
  · cases twin with | mk same => exact .of (.mk same) rfl

theorem wrapProperty (e : Engine) (config : Config) (target : Option ObjRef) :
    Paired keep limit (e.wrapProperty w target) ({ e with config }.wrapProperty w' target) := by
  simp only [Engine.wrapProperty]
  split
  · exact .mk twin _
  · cases twin with | mk same => exact .of (.mk same) rfl

end Changes
end Twin
end World
end ScriptEngine
