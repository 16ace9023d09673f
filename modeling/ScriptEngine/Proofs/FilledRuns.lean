import ScriptEngine.Proofs.FilledBlocks

/-! Runs of filled blocks. Every transition of a machine whose blocks are filled
is a transition of the machine without, filled: so a run never tells absent sizes
from none. -/
namespace ScriptEngine

/-! ### Filled states -/

def Control.filled : Control → Control
  | .execute block inv completion => .execute (block.map CodeBlock.filled) inv completion
  | .code a => .code a.filled
  | control => control

def Cont.filled : Cont → Cont
  | .code a await => .code a.filled await
  | cont => cont

def Next.filled (n : Next) : Next := ⟨n.world.filled, n.control.filled, n.push.map Cont.filled⟩

def State.filled (s : State) : State := ⟨s.world.filled, s.control.filled, s.stack.map Cont.filled⟩

/-- Whether a callable of the host goes on by asking something of a value. -/
def HostAction.callsBack : HostAction → Bool
  | .finish .. | .stop _ => false
  | .ask .. => true
  | .setData _ _ next | .print _ next => next.callsBack

/-- No callable of the host is about to ask something of a value. -/
def Control.isQuiet : Control → Bool
  | .host action => !action.callsBack
  | _ => true

/-- No callable of the host waits for an answer. -/
def Cont.isQuiet : Cont → Bool
  | .host .. => false
  | _ => true

def Next.isQuiet (n : Next) : Bool := n.control.isQuiet && n.push.all Cont.isQuiet

def State.isQuiet (s : State) : Bool := s.control.isQuiet && s.stack.all Cont.isQuiet

/-- A transition of a filled machine that is the other one, filled. -/
structure Mirrors (m n : Next) : Prop where
  same : m = n.filled
  quiet : n.isQuiet = true

theorem Mirrors.ite {p q : Prop} [Decidable p] [Decidable q] {m m' n n' : Next} (iff : p ↔ q)
    (yes : Mirrors m n) (no : Mirrors m' n') :
    Mirrors (if p then m else m') (if q then n else n') := by
  by_cases holds : q
  · rwa [if_pos holds, if_pos (iff.mpr holds)]
  · rwa [if_neg holds, if_neg (mt iff.mp holds)]

/-- A host that asks nothing back, compiles nothing, and sees no difference
between worlds once they are filled. -/
structure Host.Unseeing (host : Host) : Prop where
  compiler : host.compiler = none
  same : ∀ key w c, (host.callable key).run w.filled c = (host.callable key).run w c
  quiet : ∀ key w c, ((host.callable key).run w c).callsBack = false

/-! ### Running blocks -/

namespace Activation

variable (e : Engine) (w : World) (a : Activation)

theorem goto_mirrors (next : Int) : Mirrors (a.filled.goto w.filled next) (a.goto w next) :=
  ⟨rfl, rfl⟩

theorem stop_mirrors (p : Panic) : Mirrors (a.filled.stop w.filled p) (a.stop w p) := ⟨rfl, rfl⟩

theorem assign_mirrors (dst : Option Nat) (v : Value) (next : Int) :
    Mirrors (a.filled.assign w.filled dst v next) (a.assign w dst v next) := by
  cases dst with
  | none => exact stop_mirrors w a _
  | some r => exact .ite Iff.rfl (goto_mirrors (w.setRegister a.frame r v) a next) (stop_mirrors w a _)

theorem finish_mirrors (v : Value) : Mirrors (a.filled.finish w.filled v) (a.finish w v) :=
  ⟨rfl, rfl⟩

theorem raise_mirrors (f : Fault) : Mirrors (a.filled.raise w.filled f) (a.raise w f) := by
  have annotated : w.filled.annotate f (a.filled.block.tracePoint a.filled.ip) =
      (w.annotate f (a.block.tracePoint a.ip)).filled := by
    rw [World.annotate_filled, filled, CodeBlock.filled_tracePoint]
  rw [raise, annotated]
  exact ⟨rfl, rfl⟩

theorem fail_mirrors (error : ArenaError) :
    Mirrors (a.filled.fail w.filled error) (a.fail w error) := by
  rw [fail, World.asThrown_filled]
  exact raise_mirrors ..

theorem mark_mirrors (result : Value) (fault : Option Fault) (dst : Nat) (next : Int) :
    Mirrors (a.filled.mark w.filled result fault dst next) (a.mark w result fault dst next) := by
  cases fault with
  | none =>
    rw [mark, World.create_plain w (.marker none result) rfl]
    exact assign_mirrors ..
  | some f =>
    simp only [mark, World.asThrown_filled, World.faultValue_filled]
    rw [World.create_plain _ (.marker _ _) rfl]
    exact assign_mirrors ..

theorem capture_mirrors (o : Object) (context : Option ObjRef) (dst : Option Nat) (next : Int) :
    Mirrors (a.filled.capture w.filled o.filled context dst next) (a.capture w o context dst next) := by
  simp only [capture, World.filled_arena, filled_chain]
  split
  next arena _ _ =>
    change Mirrors (a.filled.assign ({ w with arena }.filled.create o.filled).1 dst
      (.object ({ w with arena }.filled.create o.filled).2 context) next) _
    rw [World.create_filled]
    exact assign_mirrors ..
  next arena dropped error _ => exact raise_mirrors ({ w with arena }.reportReleases dropped) a _
  next arena _ => exact stop_mirrors { w with arena } a _

theorem perform_mirrors (action : Action) :
    Mirrors (a.filled.perform e w.filled action.filled) (a.perform e w action) := by
  cases action with
  | goto next => exact goto_mirrors ..
  | assign dst v next => exact assign_mirrors ..
  | newObject dst next =>
    simp only [perform, Action.filled, World.create_plain w (.script {}) rfl]
    exact assign_mirrors ..
  | newProxy first second dst next =>
    simp only [perform, Action.filled, World.create_plain w (.proxy first second) rfl]
    exact assign_mirrors ..
  | newFunction target context dst next =>
    simp only [perform, Action.filled, World.wrapFunction_filled]
    exact assign_mirrors ..
  | newProperty getter setter dst next =>
    simp only [perform, Action.filled, World.create_plain w (.scriptProperty getter setter) rfl,
      World.wrapProperty_filled]
    exact assign_mirrors ..
  | store handle slot v next =>
    simp only [perform, Action.filled, World.filled_arena]
    split
    next arena _ => exact goto_mirrors { w with arena } a next
    · exact fail_mirrors ..
  | capture block sharesFrame dst next =>
    exact capture_mirrors w a
      (.closure block (if sharesFrame then some a.frame else none) a.chain) a.this.object? dst next
  | bind dst next => exact capture_mirrors w a (.binding a.chain a.this {}) none dst next
  | bindName binding name slot next =>
    simp only [perform, Action.filled, World.bindName_filled]
    exact goto_mirrors ..
  | request target r lock await =>
    cases lock <;> exact ⟨rfl, rfl⟩
  | markError className message dst next =>
    simp only [perform, Action.filled, World.throwException_filled]
    exact mark_mirrors ..
  | settle register v caught next =>
    cases next with
    | none => exact ⟨rfl, rfl⟩
    | some place => exact ⟨rfl, rfl⟩
  | «return» v => exact finish_mirrors ..
  | throwValue v => exact raise_mirrors (w.throwValue v).1 a _
  | throwException className message =>
    simp only [perform, Action.filled, World.throwException_filled]
    exact raise_mirrors ..
  | exit id target v => exact raise_mirrors (w.raise (.exit id target v [])).1 a _
  | raise fault => exact raise_mirrors ..
  | fail error => exact fail_mirrors ..
  | report event next => exact goto_mirrors (w.report event) a next
  | panic message => exact stop_mirrors ..

theorem advance_mirrors : Mirrors (a.filled.advance e w.filled) (a.advance e w) := by
  simp only [advance, action_filled]
  cases a.action e w with
  | none => exact stop_mirrors ..
  | some action => exact perform_mirrors ..

theorem resume_mirrors (r : Reply) (await : Await) :
    Mirrors (a.filled.resume w.filled r await) (a.resume w r await) := by
  cases await with
  | assign name dst next =>
    simp only [resume, World.insist_filled]
    obtain ⟨w', written, _ | f⟩ := w.insist name r
    · exact assign_mirrors ..
    · exact raise_mirrors ..
  | skip name next =>
    simp only [resume, World.insist_filled]
    obtain ⟨w', written, _ | f⟩ := w.insist name r
    · exact goto_mirrors ..
    · exact raise_mirrors ..
  | mark dst next =>
    simp only [resume, World.insist_filled]
    exact mark_mirrors ..
  | membership dst next =>
    cases r with
    | done written => exact assign_mirrors ..
    | failed written f => exact raise_mirrors ..
    | refused refusal => exact assign_mirrors ..
  | classOf name args dst next =>
    simp only [resume, World.insist_filled]
    obtain ⟨w', written, _ | f⟩ := w.insist name r
    · exact ⟨rfl, rfl⟩
    · exact raise_mirrors ..

end Activation

/-! ### Answers -/

section Answers

variable (e : Engine) (w : World)

@[simp] theorem boundTo_filled (receiver v : Value) :
    w.filled.boundTo receiver v = w.boundTo receiver v := by
  cases v with
  | object ref context =>
    cases context with
    | none =>
      simp only [World.boundTo, World.filled_getElem?]
      cases w.heap[ref]? with
      | none => rfl
      | some o => cases o <;> rfl
    | some context => rfl
  | _ => rfl

theorem withKey_mirrors {r : Request} {next next' : Text → Next}
    (each : ∀ key, Mirrors (next' key) (next key)) :
    Mirrors (withKey w.filled r next') (withKey w r next) := by
  simp only [withKey, World.textOf_filled]
  cases w.textOf (r.arg 0) with
  | none => exact ⟨rfl, rfl⟩
  | some key => exact each key

theorem throws_mirrors (className : String) (message : Text) :
    Mirrors (.throws w.filled className message) (.throws w className message) := by
  simp only [Next.throws, World.throwException_filled]
  exact ⟨rfl, rfl⟩

namespace ScriptObject

theorem get_mirrors (ref : ObjRef) (r : Request) (name : Text) :
    Mirrors (get w.filled ref r name) (get w ref r name) := by
  simp only [get, World.lookup_filled, boundTo_filled]
  refine .ite Iff.rfl ⟨rfl, rfl⟩ ?_
  obtain _ | ⟨m, holder⟩ := w.lookup ref name r.flags
  · exact ⟨rfl, rfl⟩
  · exact .ite Iff.rfl ⟨rfl, rfl⟩ ⟨rfl, rfl⟩

theorem put_mirrors (ref : ObjRef) (name : Text) (m : Member) :
    Mirrors (put w.filled ref name m) (put w ref name m) := by
  simp only [put, World.modifyScript_filled]
  exact ⟨rfl, rfl⟩

theorem set_mirrors (ref : ObjRef) (r : Request) (name : Text) (v : Value) :
    Mirrors (set w.filled ref r name v) (set w ref r name v) := by
  simp only [set, World.lookup_filled, World.script?_filled]
  refine .ite Iff.rfl ⟨rfl, rfl⟩ ?_
  generalize w.lookup ref name r.flags = found
  generalize found.filter _ = property
  obtain _ | ⟨m, holder⟩ := property
  · refine .ite Iff.rfl ⟨rfl, rfl⟩ ?_
    obtain _ | own := (w.script? ref).bind (·.members.find? name)
    · obtain _ | ⟨m, holder⟩ := found
      · exact .ite Iff.rfl ⟨rfl, rfl⟩ (put_mirrors ..)
      · exact put_mirrors ..
    · exact put_mirrors ..
  · exact ⟨rfl, rfl⟩

theorem setAttributes_mirrors (ref : ObjRef) (r : Request) :
    Mirrors (setAttributes w.filled ref r) (setAttributes w ref r) := by
  simp only [setAttributes, World.script?_filled]
  obtain _ | m := (w.script? ref).bind (·.members.find? r.name)
  · exact ⟨rfl, rfl⟩
  · dsimp only
    split
    · exact put_mirrors (w.report _) ..
    · exact put_mirrors ..

theorem construct_mirrors (ref : ObjRef) (o : ScriptObject) (r : Request) :
    Mirrors (construct w.filled ref o r) (construct w ref o r) := by
  simp only [construct, World.lookup_filled, World.create_plain w (.script { cls := some ref }) rfl]
  refine .ite Iff.rfl ?_ (.ite Iff.rfl ⟨rfl, rfl⟩ ?_)
  · obtain _ | ⟨m, holder⟩ := w.lookup ref r.name r.flags <;> exact ⟨rfl, rfl⟩
  · generalize (w.lookup ref o.name {}).filter _ = constructor
    obtain _ | ⟨m, holder⟩ := constructor <;> exact ⟨rfl, rfl⟩

theorem instanceOf_mirrors (ref : ObjRef) (o : ScriptObject) (r : Request) :
    Mirrors (instanceOf w.filled ref o r) (instanceOf w ref o r) := by
  simp only [instanceOf, World.lookup_filled, World.inClass_filled]
  refine .ite Iff.rfl ?_ ⟨rfl, rfl⟩
  obtain _ | ⟨m, holder⟩ := w.lookup ref r.name r.flags <;> exact ⟨rfl, rfl⟩

theorem answer_mirrors (ref : ObjRef) (o : ScriptObject) (r : Request) :
    Mirrors (answer w.filled ref o r) (answer w ref o r) := by
  unfold answer
  split
  · refine .ite Iff.rfl ⟨rfl, rfl⟩ ?_
    have mirrors := get_mirrors w ref { operation := .dget, flags := r.flags, this := r.this } r.name
    refine ⟨?_, ?_⟩
    · rw [mirrors.same]
      simp [Next.before, Next.filled, Cont.filled]
    · have quiet := mirrors.quiet
      simp only [Next.isQuiet, Next.before, Bool.and_eq_true, List.all_append] at quiet ⊢
      exact ⟨quiet.1, quiet.2, rfl⟩
  · exact construct_mirrors ..
  · exact get_mirrors ..
  · exact set_mirrors ..
  · exact withKey_mirrors w (get_mirrors w ref r)
  · exact withKey_mirrors w fun key => set_mirrors w ref r key r.lastArg
  · exact setAttributes_mirrors ..
  · exact instanceOf_mirrors ..
  · exact ⟨rfl, rfl⟩

end ScriptObject

theorem invoke_mirrors (unseeing : e.host.Unseeing) (c : CallInfo) (native : Native) :
    Mirrors (native.invoke e w.filled c) (native.invoke e w c) := by
  cases native with
  | functionCall | functionBind | propertyGet | propertySet => exact ⟨rfl, rfl⟩
  | host key =>
    have accepts : (e.host.callable key).receiver.accepts w.filled c.this =
        (e.host.callable key).receiver.accepts w c.this := by
      simp only [Receiver.accepts, World.filled_object?, Option.any_map,
        Object.typeName_filled, Object.hostData?_filled]
    simp only [Native.invoke, accepts, unseeing.same]
    refine .ite Iff.rfl ⟨rfl, ?_⟩ (throws_mirrors ..)
    simp [Next.isQuiet, Control.isQuiet, unseeing.quiet]

theorem nativeFunctionAnswer_mirrors (unseeing : e.host.Unseeing) (code : Option Native)
    (cls : Option ObjRef) (r : Request) :
    Mirrors (nativeFunctionAnswer e w.filled code cls r) (nativeFunctionAnswer e w code cls r) := by
  unfold nativeFunctionAnswer
  split
  · exact invoke_mirrors e w unseeing ..
  · exact invoke_mirrors e w unseeing ..
  · exact ⟨rfl, rfl⟩

theorem nativePropertyAnswer_mirrors (unseeing : e.host.Unseeing) (getter setter : Option Native)
    (cls : Option ObjRef) (r : Request) :
    Mirrors (nativePropertyAnswer e w.filled getter setter cls r)
      (nativePropertyAnswer e w getter setter cls r) := by
  unfold nativePropertyAnswer
  dsimp only
  split
  · cases getter with
    | none => exact ⟨rfl, rfl⟩
    | some native => exact invoke_mirrors e w unseeing ..
  · cases setter with
    | none => exact ⟨rfl, rfl⟩
    | some native => exact invoke_mirrors e w unseeing ..
  · exact ⟨rfl, rfl⟩

theorem wrapperAnswer_mirrors (self : ObjRef) (cls target : Option ObjRef) (direct : List Operation)
    (r : Request) :
    Mirrors (wrapperAnswer w.filled self cls target direct r)
      (wrapperAnswer w self cls target direct r) := by
  simp only [wrapperAnswer, World.inClass_filled]
  refine .ite Iff.rfl (.ite Iff.rfl ?_ (.ite Iff.rfl ⟨rfl, rfl⟩ ⟨rfl, rfl⟩)) ?_
  · cases target <;> exact ⟨rfl, rfl⟩
  · cases cls with
    | none => exact ⟨rfl, rfl⟩
    | some c =>
      cases r.operation <;> exact ⟨rfl, rfl⟩

theorem closureAnswer_mirrors (self : ObjRef) (block : Option CodeBlock) (frame : Option FrameRef)
    (chain : Chain) (r : Request) :
    Mirrors (closureAnswer e w.filled self (block.map CodeBlock.filled) frame chain r)
      (closureAnswer e w self block frame chain r) := by
  simp only [closureAnswer, World.create_plain w (.script {}) rfl]
  split
  · exact ⟨rfl, rfl⟩
  · exact ⟨rfl, rfl⟩
  · exact wrapperAnswer_mirrors ..

theorem scriptPropertyAnswer_mirrors (getter setter : Value) (r : Request) :
    Mirrors (scriptPropertyAnswer w.filled getter setter r)
      (scriptPropertyAnswer w getter setter r) := by
  unfold scriptPropertyAnswer
  split
  · cases getter <;> exact ⟨rfl, rfl⟩
  · cases setter <;> exact ⟨rfl, rfl⟩
  · exact ⟨rfl, rfl⟩

theorem bindingAnswer_mirrors (unseeing : e.host.Unseeing) (chain : Chain) (this : Value)
    (names : Table BindingSlot) (r : Request) :
    Mirrors (bindingAnswer e w.filled chain this names r) (bindingAnswer e w chain this names r) := by
  unfold bindingAnswer
  split
  · refine withKey_mirrors w fun key => ?_
    obtain _ | ⟨handle, slot⟩ := resolveName chain names key
    · exact ⟨rfl, rfl⟩
    · simp only [World.filled_arena]
      cases w.arena.load handle slot <;> exact ⟨rfl, rfl⟩
  · refine withKey_mirrors w fun key => ?_
    obtain _ | ⟨handle, slot⟩ := resolveName chain names key
    · exact ⟨rfl, rfl⟩
    · simp only [World.filled_arena]
      cases w.arena.store handle slot r.lastArg <;> exact ⟨rfl, rfl⟩
  · exact .ite Iff.rfl ⟨rfl, rfl⟩ ⟨rfl, rfl⟩
  · exact .ite Iff.rfl ⟨rfl, rfl⟩ ⟨rfl, rfl⟩
  · refine .ite Iff.rfl (withKey_mirrors w fun source => ?_) ⟨rfl, rfl⟩
    simp only [evaluate, unseeing.compiler]
    exact throws_mirrors ..
  · exact ⟨rfl, rfl⟩

theorem errorAnswer_mirrors (className message : Text) (r : Request) :
    Mirrors (errorAnswer w.filled className message r) (errorAnswer w className message r) := by
  unfold errorAnswer
  dsimp only
  split
  · exact .ite Iff.rfl ⟨rfl, rfl⟩ (.ite Iff.rfl ⟨rfl, rfl⟩ ⟨rfl, rfl⟩)
  · exact .ite Iff.rfl ⟨rfl, rfl⟩ ⟨rfl, rfl⟩
  · exact .ite Iff.rfl ⟨rfl, rfl⟩ ⟨rfl, rfl⟩
  · exact ⟨rfl, rfl⟩

theorem dispatch_mirrors (unseeing : e.host.Unseeing) (ref : ObjRef) (r : Request) :
    Mirrors (dispatch e w.filled ref r) (dispatch e w ref r) := by
  simp only [dispatch, World.filled_getElem?]
  cases w.heap[ref]? with
  | none => exact ⟨rfl, rfl⟩
  | some o =>
    cases o with
    | script o => exact ScriptObject.answer_mirrors ..
    | closure block frame chain => exact closureAnswer_mirrors ..
    | nativeFunction name code cls => exact nativeFunctionAnswer_mirrors e w unseeing ..
    | nativeProperty name getter setter cls => exact nativePropertyAnswer_mirrors e w unseeing ..
    | function cls target | property cls target => exact wrapperAnswer_mirrors ..
    | scriptProperty getter setter => exact scriptPropertyAnswer_mirrors ..
    | binding chain this names => exact bindingAnswer_mirrors e w unseeing ..
    | error className message => exact errorAnswer_mirrors ..
    | proxy | marker | host => exact ⟨rfl, rfl⟩

theorem operate_mirrors (target : Value) (r : Request) :
    Mirrors (operate e w.filled target r) (operate e w target r) := by
  unfold operate
  split
  · exact ⟨rfl, rfl⟩
  · exact ⟨rfl, rfl⟩
  · split <;> exact ⟨rfl, rfl⟩

end Answers

/-! ### Transitions -/

namespace Machine

variable (e : Engine) (w : World)

theorem enter_mirrors (block : CodeBlock) (inv : Invocation) (completion : Completion) :
    Mirrors (enter w.filled block.filled inv completion) (enter w block inv completion) := by
  have nest_mirrors (w : World) (frame : FrameRef) :
      Mirrors (enter.nest block.filled inv completion w.filled frame)
        (enter.nest block inv completion w frame) := by
    simp only [enter.nest, CodeBlock.filled_nestLevel, CodeBlock.filled_sharedSizes,
      CodeBlock.filled_title, World.filled_arena]
    refine .ite Iff.rfl ?_ ⟨rfl, rfl⟩
    cases w.arena.overlay inv.shared (block.sharedSizes.map Int64.toInt) <;> exact ⟨rfl, rfl⟩
  simp only [enter, CodeBlock.filled_registers, CodeBlock.filled_title, World.filled_registers]
  cases inv.frame with
  | some frame => exact .ite Iff.rfl ⟨rfl, rfl⟩ (nest_mirrors w frame)
  | none => exact .ite Iff.rfl ⟨rfl, rfl⟩ (nest_mirrors (w.newFrame _).1 _)

theorem hostStep_mirrors {action : HostAction} (quiet : action.callsBack = false) :
    Mirrors (hostStep w.filled action) (hostStep w action) := by
  cases action with
  | finish result fault =>
    cases fault with
    | none => exact ⟨rfl, rfl⟩
    | some fault =>
      simp only [hostStep, World.hostFault_filled, World.asThrown_filled]
      exact ⟨rfl, rfl⟩
  | stop reason => exact ⟨rfl, rfl⟩
  | ask => cases quiet
  | setData ref data next =>
    simp only [hostStep, World.modifyScript_filled]
    exact ⟨rfl, by simpa [Next.isQuiet, Control.isQuiet, HostAction.callsBack] using quiet⟩
  | print line next =>
    exact ⟨rfl, by simpa [hostStep, Next.isQuiet, Control.isQuiet, HostAction.callsBack] using quiet⟩

theorem insisting_mirrors (r : Reply) (result : Option Value → Option Value) :
    Mirrors (insisting w.filled r result) (insisting w r result) := by
  simp only [insisting, World.insist_filled]
  obtain ⟨w', written, _ | f⟩ := w.insist [] r <;> exact ⟨rfl, rfl⟩

theorem resume_mirrors (r : Reply) {top : Cont} (quiet : top.isQuiet = true) :
    Mirrors (resume w.filled r top.filled) (resume w r top) := by
  cases top with
  | code a await => exact Activation.resume_mirrors ..
  | host => cases quiet
  | getter | setter | constructor => exact insisting_mirrors ..
  | forward keep =>
    simp only [resume, Cont.filled, World.insist_filled]
    obtain ⟨w', written, _ | f⟩ := w.insist [] r
    · exact ⟨rfl, rfl⟩
    · simp only [World.asThrown_filled]
      exact ⟨rfl, rfl⟩
  | propertyRead | propertyWrite | callMember => cases r <;> exact ⟨rfl, rfl⟩
  | second ref request =>
    simp only [resume, Cont.filled]
    split <;> exact ⟨rfl, rfl⟩
  | unlock ref => exact ⟨rfl, rfl⟩

theorem unwind_filled (top : Cont) : unwind w.filled top.filled = (unwind w top).filled := by
  cases top <;> rfl

theorem acquire_mirrors (ref : ObjRef) (target : Value) (r : Request) :
    Mirrors (acquire e w.filled ref target r) (acquire e w ref target r) := by
  simp only [acquire, World.lock?_filled]
  cases w.lock? e.thread ref <;> exact ⟨rfl, rfl⟩

theorem advance_mirrors (unseeing : e.host.Unseeing) {control : Control}
    (quiet : control.isQuiet = true) :
    Mirrors (advance e w.filled control.filled) (advance e w control) := by
  cases control with
  | operate target r => exact operate_mirrors ..
  | lock ref target r => exact acquire_mirrors ..
  | dispatch ref r => exact dispatch_mirrors e w unseeing ref r
  | execute block inv completion =>
    cases block with
    | none => exact ⟨rfl, rfl⟩
    | some block => exact enter_mirrors ..
  | code a => exact Activation.advance_mirrors ..
  | host action => exact hostStep_mirrors w (by simpa [Control.isQuiet] using quiet)
  | reply r | panic p => exact ⟨rfl, rfl⟩

/-- One transition. -/
theorem step_filled (unseeing : e.host.Unseeing) {s : State} (quiet : s.isQuiet = true) :
    step e s.filled = (step e s).filled ∧ (step e s).isQuiet = true := by
  obtain ⟨w, control, stack⟩ := s
  simp only [State.isQuiet, Bool.and_eq_true] at quiet
  obtain ⟨calm, rest⟩ := quiet
  have joined {m n : Next} {stack : List Cont} (mirrors : Mirrors m n)
      (rest : stack.all Cont.isQuiet = true) :
      (⟨m.world, m.control, m.push ++ stack.map Cont.filled⟩ : State) =
          State.filled ⟨n.world, n.control, n.push ++ stack⟩ ∧
        State.isQuiet ⟨n.world, n.control, n.push ++ stack⟩ = true := by
    have quiet := mirrors.quiet
    simp only [Next.isQuiet, Bool.and_eq_true] at quiet
    refine ⟨?_, ?_⟩
    · rw [mirrors.same, State.filled, List.map_append]
      rfl
    · simp only [State.isQuiet, List.all_append, Bool.and_eq_true]
      exact ⟨quiet.1, quiet.2, rest⟩
  cases control with
  | reply r =>
    cases stack with
    | nil => exact ⟨rfl, rfl⟩
    | cons top stack =>
      simp only [List.all_cons, Bool.and_eq_true] at rest
      exact joined (resume_mirrors w r rest.1) rest.2
  | panic p =>
    cases stack with
    | nil => exact ⟨rfl, rfl⟩
    | cons top stack =>
      simp only [List.all_cons, Bool.and_eq_true] at rest
      refine ⟨?_, rest.2⟩
      simp only [State.filled, List.map_cons, Control.filled, step, unwind_filled]
  | _ => exact joined (advance_mirrors e w unseeing calm) rest

/-- A whole run. -/
theorem run_filled (unseeing : e.host.Unseeing) (fuel : Nat) {s : State} (quiet : s.isQuiet = true) :
    run e fuel s.filled = (run e fuel s).filled := by
  induction fuel generalizing s with
  | zero => rfl
  | succ fuel ih =>
    have final : s.filled.isFinal = s.isFinal := by
      obtain ⟨w, control, stack⟩ := s
      cases control <;> cases stack <;> rfl
    obtain ⟨same, quiet⟩ := step_filled e unseeing quiet
    simp only [run, final, same]
    split
    · rfl
    · exact ih quiet

end Machine
end ScriptEngine
