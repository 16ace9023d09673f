import ScriptEngine.Proofs.CheckedStep
import ScriptEngine.Proofs.WorldChange

/-! What one transition can be. Transitions that answer requests change the
world by small changes and run no block; the others begin, carry on or end the
run of one block. -/
namespace ScriptEngine

/-- The block that waits for an answer. -/
def Cont.activation? : Cont → Option Activation
  | .code a _ => some a
  | _ => none

/-- Whether what is being done has nothing to do with blocks. -/
def Control.isPlain : Control → Bool
  | .execute .. | .code _ => false
  | _ => true

open World

/-- How blocks come to run: as closures, or as source text evaluated where a
binding was made. -/
inductive Entry (e : Engine) (w : World) : Option CodeBlock → Invocation → Prop
  | closure {ref : ObjRef} {block : Option CodeBlock} {inv : Invocation}
      (there : w.heap[ref]? = some (.closure block inv.frame inv.shared)) : Entry e w block inv
  | evaluation {ref : ObjRef} {this : Value} {names : Table BindingSlot} {source : Text}
      {compile : Compiler} {block : Option CodeBlock} {inv : Invocation}
      (there : w.heap[ref]? = some (.binding inv.shared this names))
      (installed : e.host.compiler = some compile) (compiled : compile source names = .ok block)
      (unframed : inv.frame = none) : Entry e w block inv

/-- A transition that neither runs a block nor lets one wait, and begins one
only by an entry. -/
structure Calm (e : Engine) (w : World) (n : Next) : Prop where
  acts : Acts w n.world
  idle : ∀ a, n.control ≠ .code a
  enters : ∀ block inv completion, n.control = .execute block inv completion → Entry e w block inv
  pushes : n.push.filterMap Cont.activation? = []

namespace Calm

variable {e : Engine} {w : World}

theorem evolves {n : Next} (calm : Calm e w n) : Evolves w n.world := calm.acts.evolves

theorem plain {n : Next} (acts : Acts w n.world) (plain : n.control.isPlain = true)
    (pushes : n.push.filterMap Cont.activation? = []) : Calm e w n where
  acts := acts
  idle a same := by rw [same] at plain; cases plain
  enters _ _ _ same := by rw [same] at plain; cases plain
  pushes := pushes

/-- A transition that leaves the world as it is and pushes nothing. -/
theorem still {control : Control} (plain : control.isPlain = true) :
    Calm e w { world := w, control } := .plain (.refl w) plain rfl

theorem throws (className : String) (message : Text) : Calm e w (.throws w className message) :=
  .plain (throwException_acts ..) rfl rfl

/-- What comes after changes is calm if it is calm from there, and enters
nothing. -/
theorem after {w' : World} {n : Next} (acts : Acts w w') (calm : Calm e w' n)
    (plain : n.control.isPlain = true) : Calm e w n :=
  .plain (acts.trans calm.acts) plain calm.pushes

end Calm

section Answers

variable (e : Engine) (w : World)

theorem withKey_calm {r : Request} {next : Text → Next} (calm : ∀ key, Calm e w (next key)) :
    Calm e w (withKey w r next) := by
  unfold withKey
  split
  · exact calm _
  · exact .still rfl

namespace ScriptObject

theorem get_calm (ref : ObjRef) (r : Request) (name : Text) : Calm e w (get w ref r name) := by
  unfold get
  split
  · exact .still rfl
  · split
    · exact .still rfl
    · split
      · exact .plain (.refl w) rfl rfl
      · exact .still rfl

theorem put_calm (ref : ObjRef) (name : Text) (m : Member) : Calm e w (put w ref name m) :=
  .plain (.act (.modifyScript w ref _ fun _ => ⟨rfl, rfl, rfl⟩)) rfl rfl

theorem set_calm (ref : ObjRef) (r : Request) (name : Text) (v : Value) :
    Calm e w (set w ref r name v) := by
  unfold set
  split
  · exact .still rfl
  · dsimp only
    split
    · exact .plain (.refl w) rfl rfl
    · split
      · exact .still rfl
      · split
        · exact put_calm ..
        · exact put_calm ..
        · split
          · exact .still rfl
          · exact put_calm ..

theorem setAttributes_calm (ref : ObjRef) (r : Request) : Calm e w (setAttributes w ref r) := by
  unfold setAttributes
  split
  · exact .still rfl
  · dsimp only
    split
    · exact .after (.act (.report w _)) (put_calm ..) rfl
    · exact put_calm ..

theorem construct_calm {ref : ObjRef} {o : ScriptObject} (there : w.script? ref = some o)
    (r : Request) : Calm e w (construct w ref o r) := by
  unfold construct
  split
  · split
    · exact .still rfl
    · exact .still rfl
  · split
    · exact .still rfl
    next named =>
      dsimp only
      split
      · exact .plain (.act (.create w (.member there named))) rfl rfl
      · exact .plain (.act (.create w (.member there named))) rfl rfl

theorem instanceOf_calm (ref : ObjRef) (o : ScriptObject) (r : Request) :
    Calm e w (instanceOf w ref o r) := by
  unfold instanceOf
  split
  · split
    · exact .still rfl
    · exact .still rfl
  · exact .still rfl

theorem answer_calm {ref : ObjRef} {o : ScriptObject} (there : w.script? ref = some o)
    (r : Request) : Calm e w (answer w ref o r) := by
  unfold answer
  split
  · split
    · exact .still rfl
    · have calm := get_calm e w ref { operation := .dget, flags := r.flags, this := r.this } r.name
      exact ⟨calm.acts, calm.idle, calm.enters, by
        simp [Next.before, calm.pushes, Cont.activation?]⟩
  · exact construct_calm e w there r
  · exact get_calm ..
  · exact set_calm ..
  · exact withKey_calm e w (get_calm e w ref r)
  · exact withKey_calm e w fun key => set_calm e w ref r key r.lastArg
  · exact setAttributes_calm ..
  · exact instanceOf_calm ..
  · exact .still rfl

end ScriptObject

theorem invoke_calm (c : CallInfo) (native : Native) : Calm e w (native.invoke e w c) := by
  cases native with
  | functionCall | propertyGet | propertySet => exact .plain (.refl w) rfl rfl
  | functionBind => exact .still rfl
  | host key =>
    simp only [Native.invoke]
    split
    · exact .still rfl
    · exact .throws ..

theorem nativeFunctionAnswer_calm (code : Option Native) (cls : Option ObjRef) (r : Request) :
    Calm e w (nativeFunctionAnswer e w code cls r) := by
  unfold nativeFunctionAnswer
  split
  · exact invoke_calm ..
  · exact invoke_calm ..
  · exact .still rfl

theorem nativePropertyAnswer_calm (getter setter : Option Native) (cls : Option ObjRef)
    (r : Request) : Calm e w (nativePropertyAnswer e w getter setter cls r) := by
  unfold nativePropertyAnswer
  dsimp only
  split
  · split
    · exact invoke_calm ..
    · exact .still rfl
  · split
    · exact invoke_calm ..
    · exact .still rfl
  · exact .still rfl

theorem wrapperAnswer_still (self : ObjRef) (cls target : Option ObjRef) (direct : List Operation)
    (r : Request) : ∃ control, control.isPlain = true ∧
      wrapperAnswer w self cls target direct r = { world := w, control } := by
  unfold wrapperAnswer
  split
  · split
    · split <;> exact ⟨_, rfl, rfl⟩
    · split <;> exact ⟨_, rfl, rfl⟩
  · split
    · exact ⟨_, rfl, rfl⟩
    · split <;> exact ⟨_, rfl, rfl⟩

theorem wrapperAnswer_calm (self : ObjRef) (cls target : Option ObjRef) (direct : List Operation)
    (r : Request) : Calm e w (wrapperAnswer w self cls target direct r) := by
  obtain ⟨control, plain, same⟩ := wrapperAnswer_still w self cls target direct r
  exact same ▸ .still plain

theorem scriptPropertyAnswer_calm (getter setter : Value) (r : Request) :
    Calm e w (scriptPropertyAnswer w getter setter r) := by
  unfold scriptPropertyAnswer
  split
  · split
    · exact .still rfl
    · exact .plain (.refl w) rfl rfl
  · split
    · exact .still rfl
    · exact .plain (.refl w) rfl rfl
  · exact .still rfl

theorem errorAnswer_calm (className message : Text) (r : Request) :
    Calm e w (errorAnswer w className message r) := by
  unfold errorAnswer
  dsimp only
  split
  · split
    · exact .still rfl
    · split <;> exact .still rfl
  · split <;> exact .still rfl
  · split <;> exact .still rfl
  · exact .still rfl

theorem closureAnswer_calm {self : ObjRef} {block : Option CodeBlock} {frame : Option FrameRef}
    {chain : Chain} (there : w.heap[self]? = some (.closure block frame chain)) (r : Request) :
    Calm e w (closureAnswer e w self block frame chain r) := by
  unfold closureAnswer
  split
  · refine ⟨.refl w, nofun, ?_, rfl⟩
    rintro _ _ _ ⟨⟩
    exact .closure there
  · refine ⟨.act (.create w .object), nofun, ?_, rfl⟩
    rintro _ _ _ ⟨⟩
    exact .closure there
  · exact wrapperAnswer_calm ..

theorem evaluate_calm {ref : ObjRef} {chain : Chain} {this : Value} {names : Table BindingSlot}
    (there : w.heap[ref]? = some (.binding chain this names)) (source : Text) :
    Calm e w (evaluate e w chain this names source) := by
  unfold evaluate
  split
  · exact .throws ..
  next installed =>
    split
    next message _ => exact .plain (asThrown_acts w (.host (.text message))) rfl rfl
    next compiled =>
      refine ⟨.refl w, nofun, ?_, rfl⟩
      rintro _ _ _ ⟨⟩
      exact .evaluation there installed compiled rfl

theorem bindingAnswer_calm {ref : ObjRef} {chain : Chain} {this : Value}
    {names : Table BindingSlot} (there : w.heap[ref]? = some (.binding chain this names))
    (r : Request) : Calm e w (bindingAnswer e w chain this names r) := by
  unfold bindingAnswer
  split
  · refine withKey_calm e w fun key => ?_
    split
    · exact .still rfl
    · split <;> exact .still rfl
  · refine withKey_calm e w fun key => ?_
    split
    · exact .still rfl
    · split
      next stored => exact .plain (.act (.store w stored)) rfl rfl
      · exact .still rfl
  · split <;> exact .still rfl
  · split <;> exact .still rfl
  · split
    · exact withKey_calm e w (evaluate_calm e w there)
    · exact .still rfl
  · exact .still rfl

theorem dispatch_calm (ref : ObjRef) (r : Request) : Calm e w (dispatch e w ref r) := by
  unfold dispatch
  split
  · exact .still rfl
  next there => exact ScriptObject.answer_calm e w (by rw [script?, there]) r
  next there => exact closureAnswer_calm e w there r
  · exact nativeFunctionAnswer_calm ..
  · exact nativePropertyAnswer_calm ..
  · exact wrapperAnswer_calm ..
  · exact wrapperAnswer_calm ..
  · exact scriptPropertyAnswer_calm ..
  next there => exact bindingAnswer_calm e w there r
  · exact .plain (.refl w) rfl rfl
  · exact errorAnswer_calm ..
  all_goals exact .still rfl

theorem operate_calm (target : Value) (r : Request) : Calm e w (operate e w target r) := by
  unfold operate
  split
  · exact .still rfl
  · exact .still rfl
  · split <;> exact .still rfl

/-- A closure that begins to run does so with its own block, frame and chain. -/
theorem dispatch_closure {ref : ObjRef} {block entered : Option CodeBlock}
    {frame : Option FrameRef} {chain : Chain} {r : Request} {inv : Invocation}
    {completion : Completion} (there : w.heap[ref]? = some (.closure block frame chain))
    (begins : (dispatch e w ref r).control = .execute entered inv completion) :
    entered = block ∧ inv.frame = frame ∧ inv.shared = chain ∧ (dispatch e w ref r).push = [] := by
  simp only [dispatch, there, closureAnswer] at begins ⊢
  split at begins
  · cases begins
    exact ⟨rfl, rfl, rfl, rfl⟩
  · cases begins
    exact ⟨rfl, rfl, rfl, rfl⟩
  · obtain ⟨control, plain, same⟩ := wrapperAnswer_still w ref e.functionClass none [] r
    rw [same] at begins
    subst begins
    cases plain

/-- A lock is taken, or it is waited for. -/
theorem acquire_calm (ref : ObjRef) (target : Value) (r : Request) :
    Calm e w (Machine.acquire e w ref target r) := by
  unfold Machine.acquire
  split
  next locked => exact .plain (lock?_acts locked) rfl rfl
  · exact .still rfl

theorem hostStep_calm (action : HostAction) : Calm e w (Machine.hostStep w action) := by
  cases action with
  | finish result fault =>
    cases fault with
    | none => exact .still rfl
    | some fault =>
      exact .plain ((hostFault_acts w fault).trans
        (asThrown_acts (w.hostFault fault).1 (w.hostFault fault).2)) rfl rfl
  | stop => exact .still rfl
  | ask => exact .plain (.refl w) rfl rfl
  | setData ref data next =>
    exact .plain (.act (.modifyScript w ref _ fun _ => ⟨rfl, rfl, rfl⟩)) rfl rfl
  | print line next => exact .plain (.act (.print w line)) rfl rfl

theorem insisting_calm (r : Reply) (result : Option Value → Option Value) :
    Calm e w (Machine.insisting w r result) := by
  have acts := insist_acts w [] r
  unfold Machine.insisting
  split
  next insisted =>
    rw [insisted] at acts
    exact .plain acts rfl rfl
  next insisted =>
    rw [insisted] at acts
    exact .plain acts rfl rfl

/-- What waits for an answer and is no block goes on calmly. -/
theorem resume_calm (r : Reply) {top : Cont} (other : top.activation? = none) :
    Calm e w (Machine.resume w r top) := by
  cases top with
  | code a await => cases other
  | host name resume => exact .plain (insist_acts w name r) rfl rfl
  | getter | setter | constructor => exact insisting_calm ..
  | forward keep =>
    have acts := insist_acts w [] r
    simp only [Machine.resume]
    split
    next insisted =>
      rw [insisted] at acts
      exact .plain acts rfl rfl
    next w' _ f insisted =>
      rw [insisted] at acts
      exact .plain (acts.trans (asThrown_acts w' f)) rfl rfl
  | propertyRead | propertyWrite | callMember => cases r <;> exact .still rfl
  | second ref request =>
    simp only [Machine.resume]
    split <;> exact .still rfl
  | unlock ref => exact .plain (unlock_acts w ref) rfl rfl

end Answers
end ScriptEngine
