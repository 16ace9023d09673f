import Mathlib.Logic.Relation
import ScriptEngine.Machine

/-! What code can do to a world apart from counting references and capturing
chains. Every other change is one of a few; whatever all of these keep is kept
by everything that is made of them. -/
namespace ScriptEngine

/-- An object that captured a chain, as far as it never changes: names that a
binding gets later are left out. -/
def Object.capture? : Object → Option Object
  | .closure block frame chain => some (.closure block frame chain)
  | .binding chain this _ => some (.binding chain this {})
  | _ => none

namespace World

/-- One change of a world. Shared frames are written, never counted, and
nothing new refers to a chain. -/
inductive Change : World → World → Prop
  | create (w : World) (o : Object) (plain : o.capture? = none) : Change w (w.create o).1
  | modifyScript (w : World) (ref : ObjRef) (f : ScriptObject → ScriptObject)
      (keeps : ∀ o, (f o).name = o.name ∧ (f o).cls = o.cls ∧ (f o).super = o.super) :
      Change w (w.modifyScript ref f)
  | bindName (w : World) (ref : ObjRef) (name : Text) (slot : BindingSlot) :
      Change w (w.bindName ref name slot)
  | setLock (w : World) (ref : ObjRef) (m : Mutex) : Change w (w.setLock ref m)
  | newFrame (w : World) (registers : Array Value) : Change w (w.newFrame registers).1
  | setRegister (w : World) (frame : FrameRef) (index : Nat) (v : Value) :
      Change w (w.setRegister frame index v)
  | store (w : World) {handle : FrameHandle} {slot : Int} {v : Value} {arena : Arena}
      (stored : w.arena.store handle slot v = .ok arena) : Change w { w with arena }
  | raise (w : World) (s : Signal) : Change w (w.raise s).1
  | annotate (w : World) (f : Fault) (p : TracePoint) : Change w (w.annotate f p)
  | report (w : World) (event : Event) : Change w (w.report event)
  | print (w : World) (line : Text) : Change w { w with output := w.output.push line }

/-- Any number of changes. -/
def Evolves : World → World → Prop := Relation.ReflTransGen Change

variable {w w₁ w₂ w₃ : World}

namespace Evolves

theorem refl (w : World) : Evolves w w := Relation.ReflTransGen.refl

theorem trans (first : Evolves w₁ w₂) (second : Evolves w₂ w₃) : Evolves w₁ w₃ :=
  Relation.ReflTransGen.trans first second

theorem change (change : Change w₁ w₂) : Evolves w₁ w₂ := Relation.ReflTransGen.single change

/-- What every change keeps is kept. -/
theorem keeps {P : World → Prop} (step : ∀ {w₁ w₂}, Change w₁ w₂ → P w₁ → P w₂)
    (evolves : Evolves w₁ w₂) (start : P w₁) : P w₂ := by
  induction evolves with
  | refl => exact start
  | tail _ last ih => exact step last ih

end Evolves

/-! ### What answers do -/

/-- An object that an answer may make: nothing that captured a chain, no class,
and an instance only of a class that is there. -/
inductive Spawns (w : World) : Object → Prop
  | plain {o : Object} (uncaptured : o.capture? = none) (other : ∀ s, o ≠ .script s) : Spawns w o
  | object : Spawns w (.script {})
  | member {cls : ObjRef} {o : ScriptObject} (there : w.script? cls = some o) (named : o.name ≠ []) :
      Spawns w (.script { cls := some cls })

theorem Spawns.capture? {o : Object} (spawns : w.Spawns o) : o.capture? = none := by
  cases spawns with
  | plain uncaptured => exact uncaptured
  | object | member => rfl

/-- One change that an answer makes. Registers stay as they are, and what is
raised has crossed nothing yet. -/
inductive Act : World → World → Prop
  | create (w : World) {o : Object} (spawns : w.Spawns o) : Act w (w.create o).1
  | modifyScript (w : World) (ref : ObjRef) (f : ScriptObject → ScriptObject)
      (keeps : ∀ o, (f o).name = o.name ∧ (f o).cls = o.cls ∧ (f o).super = o.super) :
      Act w (w.modifyScript ref f)
  | bindName (w : World) (ref : ObjRef) (name : Text) (slot : BindingSlot) :
      Act w (w.bindName ref name slot)
  | setLock (w : World) (ref : ObjRef) (m : Mutex) : Act w (w.setLock ref m)
  | store (w : World) {handle : FrameHandle} {slot : Int} {v : Value} {arena : Arena}
      (stored : w.arena.store handle slot v = .ok arena) : Act w { w with arena }
  | raise (w : World) (s : Signal) (untraced : s.trace = []) : Act w (w.raise s).1
  | report (w : World) (event : Event) : Act w (w.report event)
  | print (w : World) (line : Text) : Act w { w with output := w.output.push line }

theorem Act.change (act : Act w₁ w₂) : Change w₁ w₂ := by
  cases act with
  | create spawns => exact .create w₁ _ spawns.capture?
  | modifyScript ref f keeps => exact .modifyScript w₁ ref f keeps
  | bindName ref name slot => exact .bindName w₁ ref name slot
  | setLock ref m => exact .setLock w₁ ref m
  | store stored => exact .store w₁ stored
  | raise s => exact .raise w₁ s
  | report event => exact .report w₁ event
  | print line => exact .print w₁ line

/-- Any number of changes that answers make. -/
def Acts : World → World → Prop := Relation.ReflTransGen Act

namespace Acts

theorem refl (w : World) : Acts w w := Relation.ReflTransGen.refl

theorem trans (first : Acts w₁ w₂) (second : Acts w₂ w₃) : Acts w₁ w₃ :=
  Relation.ReflTransGen.trans first second

theorem act (act : Act w₁ w₂) : Acts w₁ w₂ := Relation.ReflTransGen.single act

theorem evolves (acts : Acts w₁ w₂) : Evolves w₁ w₂ :=
  Relation.ReflTransGen.mono (fun _ _ => Act.change) _ _ acts

/-- What every such change keeps is kept. -/
theorem keeps {P : World → Prop} (step : ∀ {w₁ w₂}, Act w₁ w₂ → P w₁ → P w₂)
    (acts : Acts w₁ w₂) (start : P w₁) : P w₂ := by
  induction acts with
  | refl => exact start
  | tail _ last ih => exact step last ih

end Acts

theorem throwValue_acts (w : World) (v : Value) : Acts w (w.throwValue v).1 :=
  .act (.raise w _ rfl)

theorem throwException_acts (w : World) (className : String) (message : Text)
    (cause : Option Fault) : Acts w (w.throwException className message cause).1 :=
  (Acts.act (.create w (o := .error (utf8 className) message) (.plain rfl nofun))).trans
    (.act (.raise _ _ rfl))

theorem asThrown_acts (w : World) (f : Fault) : Acts w (w.asThrown f).1 := by
  unfold asThrown
  split
  · exact .refl w
  · exact throwException_acts ..

theorem insist_acts (w : World) (name : Text) (r : Reply) : Acts w (w.insist name r).1 := by
  cases r with
  | done | failed => exact .refl w
  | refused => exact throwException_acts ..

theorem hostFault_acts (w : World) (f : HostFault) : Acts w (w.hostFault f).1 := by
  induction f with
  | text | passed => exact .refl w
  | throw v => exact throwValue_acts w v
  | exit => exact .act (.raise w _ rfl)
  | labelled label inner ih => exact ih

/-- Taking a lock changes that lock. -/
theorem lock?_eq_some {thread : Thread} {ref : ObjRef} (locked : w.lock? thread ref = some w₁) :
    ∃ kind m, w.lockKind? ref = some kind ∧ (w.locks ref).take? kind thread = some m ∧
      w₁ = w.setLock ref m := by
  obtain ⟨kind, owned, locked⟩ := Option.bind_eq_some_iff.mp locked
  obtain ⟨m, taken, same⟩ := Option.bind_eq_some_iff.mp locked
  exact ⟨kind, m, owned, taken, (Option.some.inj same).symm⟩

theorem lock?_acts {thread : Thread} {ref : ObjRef} (locked : w.lock? thread ref = some w₁) :
    Acts w w₁ := by
  obtain ⟨kind, m, -, -, rfl⟩ := lock?_eq_some locked
  exact .act (.setLock w ref m)

theorem unlock_acts (w : World) (ref : ObjRef) : Acts w (w.unlock ref) := .act (.setLock w ref _)

theorem wrapFunction_acts (e : Engine) (w : World) (target : Option ObjRef) :
    Acts w (e.wrapFunction w target).1 := by
  unfold Engine.wrapFunction
  split
  · exact .refl w
  · exact .act (.create w (.plain rfl nofun))

theorem wrapProperty_acts (e : Engine) (w : World) (target : Option ObjRef) :
    Acts w (e.wrapProperty w target).1 := by
  unfold Engine.wrapProperty
  split
  · exact .refl w
  · exact .act (.create w (.plain rfl nofun))

theorem asThrown_evolves (w : World) (f : Fault) : Evolves w (w.asThrown f).1 :=
  (asThrown_acts w f).evolves

theorem insist_evolves (w : World) (name : Text) (r : Reply) : Evolves w (w.insist name r).1 :=
  (insist_acts w name r).evolves

theorem hostFault_evolves (w : World) (f : HostFault) : Evolves w (w.hostFault f).1 :=
  (hostFault_acts w f).evolves

theorem unlock_evolves (w : World) (ref : ObjRef) : Evolves w (w.unlock ref) :=
  (unlock_acts w ref).evolves

/-! ### What changes keep -/

/-- The object at a place, if it captured a chain. -/
def captureAt (w : World) (ref : ObjRef) : Option Object := (w.heap[ref]?).bind Object.capture?

theorem captureAt_closure {ref : ObjRef} {block : Option CodeBlock} {frame : Option FrameRef}
    {chain : Chain} : w.captureAt ref = some (.closure block frame chain) ↔
      w.heap[ref]? = some (.closure block frame chain) := by
  unfold captureAt
  cases w.heap[ref]? with
  | none => simp
  | some o => cases o <;> simp [Object.capture?]

/-- All objects that captured a chain, in the order of their making. -/
def captures (w : World) : List Object := w.heap.toList.filterMap Object.capture?

theorem setObject_captureAt {ref : ObjRef} {old new : Object} (there : w.heap[ref]? = some old)
    (same : new.capture? = old.capture?) (other : ObjRef) :
    (w.setObject ref new).captureAt other = w.captureAt other := by
  simp only [captureAt, setObject, Array.getElem?_setIfInBounds]
  split
  next here =>
    subst here
    have inside := (Array.getElem?_eq_some_iff.mp there).1
    rw [if_pos inside, there, Option.bind_some, Option.bind_some, same]
  · rfl

theorem captures_eq_range {n : Nat} (enough : w.heap.size ≤ n) :
    w.captures = (List.range n).filterMap w.captureAt := by
  have listed (objects : List Object) (n : Nat) (enough : objects.length ≤ n) :
      objects.filterMap Object.capture? =
        (List.range n).filterMap fun ref => objects[ref]?.bind Object.capture? := by
    induction objects generalizing n with
    | nil => simp
    | cons o rest ih =>
      cases n with
      | zero => cases enough
      | succ n =>
        rw [List.range_succ_eq_map, List.filterMap_cons, List.filterMap_cons, List.filterMap_map,
          ih n (Nat.le_of_succ_le_succ enough)]
        rfl
  have all := listed w.heap.toList n enough
  simp only [Array.getElem?_toList] at all
  exact all

/-- Worlds with the same captures at every place have the same ones in all. -/
theorem captures_of_captureAt (same : ∀ ref, w₂.captureAt ref = w₁.captureAt ref) :
    w₂.captures = w₁.captures := by
  have first := captures_eq_range (Nat.le_max_left w₁.heap.size w₂.heap.size)
  have second := captures_eq_range (Nat.le_max_right w₁.heap.size w₂.heap.size)
  rw [first, second, funext same]

theorem modifyScript_eq (w : World) (ref : ObjRef) (f : ScriptObject → ScriptObject) :
    w.modifyScript ref f = w ∨ ∃ o, w.heap[ref]? = some (.script o) ∧
      w.modifyScript ref f = w.setObject ref (.script (f o)) := by
  unfold modifyScript script?
  split
  next o found =>
    split at found
    next there => cases found; exact .inr ⟨o, there, rfl⟩
    · cases found
  · exact .inl rfl

theorem bindName_eq (w : World) (ref : ObjRef) (name : Text) (slot : BindingSlot) :
    w.bindName ref name slot = w ∨ ∃ chain this names,
      w.heap[ref]? = some (.binding chain this names) ∧
      w.bindName ref name slot = w.setObject ref (.binding chain this (names.insert name slot)) := by
  unfold bindName
  split
  next chain this names there => exact .inr ⟨chain, this, names, there, rfl⟩
  · exact .inl rfl

theorem setRegister_self {frame : FrameRef} {r : Nat} (inside : r < (w.registers frame).size)
    (v : Value) : ((w.setRegister frame r v).registers frame)[r]? = some v := by
  simp only [registers, setRegister, Array.getElem?_modify] at inside ⊢
  cases there : w.frames[frame]? with
  | none => simp [there] at inside
  | some registers =>
    rw [there, Option.getD_some] at inside
    simp [inside]

theorem annotate_heap (w : World) (f : Fault) (p : TracePoint) :
    (w.annotate f p).heap = w.heap ∧ (w.annotate f p).frames = w.frames ∧
      (w.annotate f p).arena = w.arena := by
  unfold annotate
  split <;> exact ⟨rfl, rfl, rfl⟩

theorem annotate_locks (w : World) (f : Fault) (p : TracePoint) : (w.annotate f p).locks = w.locks := by
  unfold annotate
  split <;> rfl

theorem thrown?_eq_some {w : World} {ref : SignalRef} {v : Value} :
    w.thrown? ref = some v ↔ ∃ crossed cause, w.signals[ref]? = some (.thrown v crossed cause) := by
  unfold thrown?
  split
  next there => simp [there]
  next other =>
    refine iff_of_false (by simp) ?_
    rintro ⟨crossed, cause, there⟩
    exact other _ _ _ there

/-- Of what is carried by a signal, values are thrown. -/
theorem thrownBy?_of_thrown {w : World} {f : Fault} {v : Value} {crossed : List TracePoint}
    {cause : Option Fault} (found : w.signal? f = some (.thrown v crossed cause)) :
    w.thrownBy? f = f.signal? := by
  obtain ⟨ref, signal, there⟩ := Option.bind_eq_some_iff.mp found
  rw [thrownBy?, signal, Option.filter_some, thrown?, there]
  rfl

theorem thrownBy?_of_exit {w : World} {f : Fault} {id : Int64} {target : Int} {v : Value}
    {crossed : List TracePoint} (found : w.signal? f = some (.exit id target v crossed)) :
    w.thrownBy? f = none := by
  obtain ⟨ref, signal, there⟩ := Option.bind_eq_some_iff.mp found
  rw [thrownBy?, signal, Option.filter_some, thrown?, there]
  rfl

theorem Change.captureAt_eq (change : Change w₁ w₂) (ref : ObjRef) :
    w₂.captureAt ref = w₁.captureAt ref := by
  cases change with
  | create o plain =>
    simp only [captureAt, World.create, Array.getElem?_push]
    split
    next last => simp [last, plain]
    · rfl
  | modifyScript target f keeps =>
    rcases modifyScript_eq w₁ target f with same | ⟨o, there, same⟩
    · rw [same]
    · rw [same]
      exact setObject_captureAt there (by rfl) ref
  | bindName target name slot =>
    rcases bindName_eq w₁ target name slot with same | ⟨chain, this, names, there, same⟩
    · rw [same]
    · rw [same]
      exact setObject_captureAt there (by rfl) ref
  | annotate f p => rw [captureAt, (annotate_heap w₁ f p).1, captureAt]
  | setLock | newFrame | setRegister | store | raise | report | print => rfl

theorem Change.size_registers (change : Change w₁ w₂) (frame : FrameRef) :
    (w₁.registers frame).size ≤ (w₂.registers frame).size := by
  cases change with
  | newFrame registers =>
    simp only [World.registers, World.newFrame, Array.getElem?_push]
    split
    next last => simp [last]
    · exact Nat.le_refl _
  | setRegister target index v =>
    simp only [World.registers, World.setRegister, Array.getElem?_modify]
    split
    next here => subst here; cases w₁.frames[target]? <;> simp
    · exact Nat.le_refl _
  | modifyScript target f keeps =>
    rcases modifyScript_eq w₁ target f with same | ⟨o, there, same⟩ <;>
      simp [same, setObject, registers]
  | bindName target name slot =>
    rcases bindName_eq w₁ target name slot with same | ⟨chain, this, names, there, same⟩ <;>
      simp [same, setObject, registers]
  | annotate f p => simp [registers, (annotate_heap w₁ f p).2.1]
  | create | setLock | store | raise | report | print => exact Nat.le_refl _

namespace Evolves

theorem captureAt_eq (evolves : Evolves w₁ w₂) (ref : ObjRef) :
    w₂.captureAt ref = w₁.captureAt ref :=
  evolves.keeps (P := fun w => w.captureAt ref = w₁.captureAt ref)
    (fun change same => (change.captureAt_eq ref).trans same) rfl

theorem captures_eq (evolves : Evolves w₁ w₂) : w₂.captures = w₁.captures :=
  captures_of_captureAt evolves.captureAt_eq

theorem size_registers (evolves : Evolves w₁ w₂) (frame : FrameRef) :
    (w₁.registers frame).size ≤ (w₂.registers frame).size :=
  evolves.keeps (P := fun w => (w₁.registers frame).size ≤ (w.registers frame).size)
    (fun change below => Nat.le_trans below (change.size_registers frame)) (Nat.le_refl _)

end Evolves

end World
end ScriptEngine
