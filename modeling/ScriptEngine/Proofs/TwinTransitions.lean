import ScriptEngine.Proofs.TwinWorlds

/-! Transitions of machines whose worlds differ in their log and their limit, and
whose engines differ in their switches. Apart from the two instructions that
look at a switch, and from frames that one of them refuses, they do the same. -/
namespace ScriptEngine

open World

/-! ### Hosts that see neither log nor limit -/

/-- Whatever a callable of the host asks, it goes on alike in worlds that differ
in their log and their limit. -/
def HostAction.Blind : HostAction → Prop
  | .finish .. | .stop _ => True
  | .ask _ _ resume =>
    (∀ w log limit v f, resume (World.recast w log limit) v f = resume w v f) ∧
      ∀ w v f, (resume w v f).Blind
  | .setData _ _ next | .print _ next => next.Blind

/-- A host whose callables do the same in worlds that differ in their log and their
limit. -/
structure Host.Blind (host : Host) : Prop where
  same : ∀ key w log limit c,
    (host.callable key).run (World.recast w log limit) c = (host.callable key).run w c
  blind : ∀ key w c, ((host.callable key).run w c).Blind

def Control.Blind : Control → Prop
  | .host action => action.Blind
  | _ => True

def Cont.Blind : Cont → Prop
  | .host _ resume => (∀ w log limit v f, resume (World.recast w log limit) v f = resume w v f) ∧
      ∀ w v f, (resume w v f).Blind
  | _ => True

/-- Whether a callable of the host runs or is put on the stack. -/
def Next.callsHost (n : Next) : Bool :=
  (match n.control with | .host _ => true | _ => false) ||
    n.push.any fun | .host .. => true | _ => false

/-- The same transition in twin worlds. -/
structure Next.Twin (keep : Event → Bool) (limit : Int) (n m : Next) : Prop where
  world : n.world.Twin keep limit m.world
  control : m.control = n.control
  push : m.push = n.push
  blind : n.control.Blind ∧ ∀ c ∈ n.push, c.Blind

namespace Next.Twin

variable {keep : Event → Bool} {limit : Int} {n n' m m' : Next}

theorem leaf (world : n.world.Twin keep limit m.world) (control : m.control = n.control)
    (push : m.push = n.push) (apart : n.callsHost = false) : Twin keep limit n m := by
  obtain ⟨running, waiting⟩ := Bool.or_eq_false_iff.mp apart
  refine ⟨world, control, push, ?_, fun c member => ?_⟩
  · cases ran : n.control with
    | host => rw [ran] at running; cases running
    | _ => trivial
  · have other := List.any_eq_false.mp waiting c member
    cases c with
    | host => exact absurd rfl other
    | _ => trivial

theorem ite {p : Prop} [Decidable p] (yes : Twin keep limit n m) (no : Twin keep limit n' m') :
    Twin keep limit (if p then n else n') (if p then m else m') := by
  by_cases holds : p
  · rwa [if_pos holds, if_pos holds]
  · rwa [if_neg holds, if_neg holds]

end Next.Twin

/-! ### Running blocks -/

namespace Activation

variable {keep : Event → Bool} {limit : Int} {w w' : World} (a : Activation)
  (twin : w.Twin keep limit w')
include twin

theorem goto_twin (next : Int) : (a.goto w next).Twin keep limit (a.goto w' next) :=
  .leaf twin rfl rfl rfl

theorem stop_twin (p : Panic) : (a.stop w p).Twin keep limit (a.stop w' p) :=
  .leaf (twin.releaseChain _) rfl rfl rfl

theorem assign_twin (dst : Option Nat) (v : Value) (next : Int) :
    (a.assign w dst v next).Twin keep limit (a.assign w' dst v next) := by
  cases dst with
  | none => exact stop_twin a twin _
  | some r =>
    simp only [assign, twin.registers]
    exact .ite (goto_twin a (twin.setRegister ..) next) (stop_twin a twin _)

theorem finish_twin (v : Value) : (a.finish w v).Twin keep limit (a.finish w' v) :=
  .leaf (twin.releaseChain _) rfl rfl rfl

theorem raise_twin (f : Fault) : (a.raise w f).Twin keep limit (a.raise w' f) :=
  .leaf ((twin.annotate ..).releaseChain _) rfl rfl rfl

omit twin in
/-- A failure that comes with its world. -/
theorem raise_paired {p p' : World × Fault} (paired : Paired keep limit p p') :
    (a.raise p.1 p.2).Twin keep limit (a.raise p'.1 p'.2) := by
  cases paired with | mk twin f => exact raise_twin a twin f

theorem fail_twin (error : ArenaError) : (a.fail w error).Twin keep limit (a.fail w' error) :=
  raise_paired a (twin.asThrown (.host (.arena error)))

theorem mark_twin (result : Value) (fault : Option Fault) (dst : Nat) (next : Int) :
    (a.mark w result fault dst next).Twin keep limit (a.mark w' result fault dst next) := by
  cases fault with
  | none =>
    simp only [mark, twin.create_ref]
    exact assign_twin a (twin.create _) ..
  | some f =>
    have paired := twin.asThrown f
    simp only [mark]
    generalize w.asThrown f = p at paired ⊢
    generalize w'.asThrown f = p' at paired ⊢
    cases paired with
    | mk thrown f =>
      simp only [thrown.faultValue, thrown.create_ref]
      exact assign_twin a (thrown.create _) ..

theorem capture_twin (o : Object) (context : Option ObjRef) (dst : Option Nat) (next : Int) :
    (a.capture w o context dst next).Twin keep limit (a.capture w' o context dst next) := by
  simp only [capture, twin.retainChain]
  cases w.arena.retainChain a.chain with
  | made arena result =>
    have retained := twin.setArena arena
    simp only [Arena.Acquired.limited, retained.create_ref]
    exact assign_twin a (retained.create o) ..
  | failed arena dropped error =>
    exact raise_twin a ((twin.setArena arena).reportReleases dropped) _
  | broken arena => exact stop_twin a (twin.setArena arena) _

theorem perform_twin (e : Engine) (config : Config) (action : Action) :
    (a.perform e w action).Twin keep limit (a.perform { e with config } w' action) := by
  cases action with
  | goto next => exact goto_twin a twin next
  | assign dst v next => exact assign_twin a twin dst v next
  | newObject dst next =>
    simp only [perform, twin.create_ref]
    exact assign_twin a (twin.create _) ..
  | newProxy first second dst next =>
    simp only [perform, twin.create_ref]
    exact assign_twin a (twin.create _) ..
  | newFunction target context dst next =>
    have paired := twin.wrapFunction e config target
    simp only [perform]
    generalize e.wrapFunction w target = p at paired ⊢
    generalize Engine.wrapFunction _ w' target = p' at paired ⊢
    cases paired with | mk wrapped v => exact assign_twin a wrapped ..
  | newProperty getter setter dst next =>
    have paired := (twin.create (.scriptProperty getter setter)).wrapProperty e config
      (some (w.create (.scriptProperty getter setter)).2)
    simp only [perform, twin.create_ref]
    generalize e.wrapProperty _ _ = p at paired ⊢
    generalize Engine.wrapProperty { e with config } _ _ = p' at paired ⊢
    cases paired with | mk wrapped v => exact assign_twin a wrapped ..
  | store handle slot v next =>
    simp only [perform, twin.store]
    cases w.arena.store handle slot v with
    | ok arena => exact goto_twin a (twin.setArena arena) next
    | error error => exact fail_twin a twin error
  | capture block sharesFrame dst next => exact capture_twin a twin ..
  | bind dst next => exact capture_twin a twin ..
  | bindName binding name slot next => exact goto_twin a (twin.bindName ..) next
  | request target r lock await =>
    cases lock <;> exact .leaf twin rfl rfl rfl
  | markError className message dst next =>
    have paired := twin.throwException className message none
    simp only [perform]
    generalize w.throwException className message none = p at paired ⊢
    generalize w'.throwException className message none = p' at paired ⊢
    cases paired with | mk thrown f => exact mark_twin a thrown ..
  | settle register v caught next =>
    cases next with
    | none => exact stop_twin { a with caught := _ } (twin.setRegister ..) _
    | some place => exact goto_twin { a with caught := _ } (twin.setRegister ..) place
  | «return» v => exact finish_twin a twin v
  | throwValue v => exact raise_paired a (twin.raise _)
  | throwException className message => exact raise_paired a (twin.throwException ..)
  | exit id target v => exact raise_paired a (twin.raise _)
  | raise fault => exact raise_twin a twin fault
  | fail error => exact fail_twin a twin error
  | report event next => exact goto_twin a (twin.report event) next
  | panic message => exact stop_twin a twin _

theorem resume_twin (r : Reply) (await : Await) :
    (a.resume w r await).Twin keep limit (a.resume w' r await) := by
  cases await with
  | assign name dst next =>
    have paired := twin.insist name r
    simp only [resume]
    generalize w.insist name r = p at paired ⊢
    generalize w'.insist name r = p' at paired ⊢
    obtain ⟨insisted, written, _ | f⟩ := paired
    · exact assign_twin a insisted ..
    · exact raise_twin a insisted f
  | skip name next =>
    have paired := twin.insist name r
    simp only [resume]
    generalize w.insist name r = p at paired ⊢
    generalize w'.insist name r = p' at paired ⊢
    obtain ⟨insisted, written, _ | f⟩ := paired
    · exact goto_twin a insisted next
    · exact raise_twin a insisted f
  | mark dst next =>
    have paired := twin.insist [] r
    simp only [resume]
    generalize w.insist [] r = p at paired ⊢
    generalize w'.insist [] r = p' at paired ⊢
    obtain ⟨insisted, written, fault⟩ := paired
    exact mark_twin a insisted ..
  | membership dst next =>
    cases r with
    | done written => exact assign_twin a twin ..
    | failed written f => exact raise_twin a twin f
    | refused refusal => exact assign_twin a twin ..
  | classOf name args dst next =>
    have paired := twin.insist name r
    simp only [resume]
    generalize w.insist name r = p at paired ⊢
    generalize w'.insist name r = p' at paired ⊢
    obtain ⟨insisted, written, _ | f⟩ := paired
    · exact .leaf insisted rfl rfl rfl
    · exact raise_twin a insisted f

end Activation

/-! ### Answers -/

section Answers

variable {keep : Event → Bool} {limit : Int} {w w' : World} (e : Engine) (config : Config)
  (twin : w.Twin keep limit w')
include twin

theorem withKey_twin {r : Request} {next next' : Text → Next}
    (each : ∀ key, (next key).Twin keep limit (next' key)) :
    (withKey w r next).Twin keep limit (withKey w' r next') := by
  simp only [withKey, twin.textOf]
  cases w.textOf (r.arg 0) with
  | none => exact .leaf twin rfl rfl rfl
  | some key => exact each key

theorem throws_twin (className : String) (message : Text) :
    Next.Twin keep limit (.throws w className message) (.throws w' className message) := by
  have paired := twin.throwException className message none
  simp only [Next.throws]
  generalize w.throwException className message none = p at paired ⊢
  generalize w'.throwException className message none = p' at paired ⊢
  cases paired with | mk thrown f => exact .leaf thrown rfl rfl rfl

namespace ScriptObject

theorem get_twin (ref : ObjRef) (r : Request) (name : Text) :
    (get w ref r name).Twin keep limit (get w' ref r name) := by
  simp only [get, twin.lookup, twin.boundTo]
  refine .ite (.leaf twin rfl rfl rfl) ?_
  obtain _ | ⟨m, holder⟩ := w.lookup ref name r.flags
  · exact .leaf twin rfl rfl rfl
  · exact .ite (.leaf twin rfl rfl rfl) (.leaf twin rfl rfl rfl)

theorem put_twin (ref : ObjRef) (name : Text) (m : Member) :
    (put w ref name m).Twin keep limit (put w' ref name m) :=
  .leaf (twin.modifyScript ..) rfl rfl rfl

theorem set_twin (ref : ObjRef) (r : Request) (name : Text) (v : Value) :
    (set w ref r name v).Twin keep limit (set w' ref r name v) := by
  simp only [set, twin.lookup, twin.script?]
  refine .ite (.leaf twin rfl rfl rfl) ?_
  generalize w.lookup ref name r.flags = found
  generalize found.filter _ = property
  obtain _ | ⟨m, holder⟩ := property
  · refine .ite (.leaf twin rfl rfl rfl) ?_
    obtain _ | own := (w.script? ref).bind (·.members.find? name)
    · obtain _ | ⟨m, holder⟩ := found
      · exact .ite (.leaf twin rfl rfl rfl) (put_twin twin ..)
      · exact put_twin twin ..
    · exact put_twin twin ..
  · exact .leaf twin rfl rfl rfl

theorem setAttributes_twin (ref : ObjRef) (r : Request) :
    (setAttributes w ref r).Twin keep limit (setAttributes w' ref r) := by
  simp only [setAttributes, twin.script?]
  obtain _ | m := (w.script? ref).bind (·.members.find? r.name)
  · exact .leaf twin rfl rfl rfl
  · dsimp only
    split
    · exact put_twin (twin.report _) ..
    · exact put_twin twin ..

theorem construct_twin (ref : ObjRef) (o : ScriptObject) (r : Request) :
    (construct w ref o r).Twin keep limit (construct w' ref o r) := by
  simp only [construct, twin.lookup, twin.create_ref]
  refine .ite ?_ (.ite (.leaf twin rfl rfl rfl) ?_)
  · obtain _ | ⟨m, holder⟩ := w.lookup ref r.name r.flags <;> exact .leaf twin rfl rfl rfl
  · generalize (w.lookup ref o.name {}).filter _ = constructor
    obtain _ | ⟨m, holder⟩ := constructor <;> exact .leaf (twin.create _) rfl rfl rfl

theorem instanceOf_twin (ref : ObjRef) (o : ScriptObject) (r : Request) :
    (instanceOf w ref o r).Twin keep limit (instanceOf w' ref o r) := by
  simp only [instanceOf, twin.lookup, twin.inClass]
  refine .ite ?_ (.leaf twin rfl rfl rfl)
  obtain _ | ⟨m, holder⟩ := w.lookup ref r.name r.flags <;> exact .leaf twin rfl rfl rfl

theorem answer_twin (ref : ObjRef) (o : ScriptObject) (r : Request) :
    (answer w ref o r).Twin keep limit (answer w' ref o r) := by
  unfold answer
  split
  · refine .ite (.leaf twin rfl rfl rfl) ?_
    have read := get_twin twin ref { operation := .dget, flags := r.flags, this := r.this } r.name
    refine ⟨read.world, read.control, ?_, read.blind.1, fun c member => ?_⟩
    · simp only [Next.before, read.push]
    · rcases List.mem_append.mp member with inner | last
      · exact read.blind.2 c inner
      · cases List.mem_singleton.mp last
        trivial
  · exact construct_twin twin ..
  · exact get_twin twin ..
  · exact set_twin twin ..
  · exact withKey_twin twin (get_twin twin ref r)
  · exact withKey_twin twin fun key => set_twin twin ref r key r.lastArg
  · exact setAttributes_twin twin ..
  · exact instanceOf_twin twin ..
  · exact .leaf twin rfl rfl rfl

end ScriptObject

theorem invoke_twin (blind : e.host.Blind) (c : CallInfo) (native : Native) :
    (native.invoke e w c).Twin keep limit (native.invoke { e with config } w' c) := by
  cases native with
  | functionCall | functionBind | propertyGet | propertySet => exact .leaf twin rfl rfl rfl
  | host key =>
    have accepts : (e.host.callable key).receiver.accepts w' c.this =
        (e.host.callable key).receiver.accepts w c.this := by
      simp only [Receiver.accepts, twin.heap]
    simp only [Native.invoke, accepts]
    refine .ite ⟨twin, ?_, rfl, blind.blind key w c, by simp⟩ (throws_twin twin ..)
    cases twin
    simp only [blind.same]

theorem nativeFunctionAnswer_twin (blind : e.host.Blind) (code : Option Native)
    (cls : Option ObjRef) (r : Request) :
    (nativeFunctionAnswer e w code cls r).Twin keep limit
      (nativeFunctionAnswer { e with config } w' code cls r) := by
  unfold nativeFunctionAnswer
  split
  · exact invoke_twin e config twin blind ..
  · exact invoke_twin e config twin blind ..
  · exact .leaf twin rfl rfl rfl

theorem nativePropertyAnswer_twin (blind : e.host.Blind) (getter setter : Option Native)
    (cls : Option ObjRef) (r : Request) :
    (nativePropertyAnswer e w getter setter cls r).Twin keep limit
      (nativePropertyAnswer { e with config } w' getter setter cls r) := by
  unfold nativePropertyAnswer
  dsimp only
  split
  · cases getter with
    | none => exact .leaf twin rfl rfl rfl
    | some native => exact invoke_twin e config twin blind ..
  · cases setter with
    | none => exact .leaf twin rfl rfl rfl
    | some native => exact invoke_twin e config twin blind ..
  · exact .leaf twin rfl rfl rfl

theorem wrapperAnswer_twin (self : ObjRef) (cls target : Option ObjRef) (direct : List Operation)
    (r : Request) :
    (wrapperAnswer w self cls target direct r).Twin keep limit
      (wrapperAnswer w' self cls target direct r) := by
  simp only [wrapperAnswer, twin.inClass]
  refine .ite (.ite ?_ (.ite (.leaf twin rfl rfl rfl) (.leaf twin rfl rfl rfl))) ?_
  · cases target <;> exact .leaf twin rfl rfl rfl
  · cases cls with
    | none => exact .leaf twin rfl rfl rfl
    | some c => cases r.operation <;> exact .leaf twin rfl rfl rfl

theorem closureAnswer_twin (self : ObjRef) (block : Option CodeBlock) (frame : Option FrameRef)
    (chain : Chain) (r : Request) :
    (closureAnswer e w self block frame chain r).Twin keep limit
      (closureAnswer { e with config } w' self block frame chain r) := by
  simp only [closureAnswer, twin.create_ref]
  split
  · exact .leaf twin rfl rfl rfl
  · exact .leaf (twin.create _) rfl rfl rfl
  · exact wrapperAnswer_twin twin ..

theorem scriptPropertyAnswer_twin (getter setter : Value) (r : Request) :
    (scriptPropertyAnswer w getter setter r).Twin keep limit
      (scriptPropertyAnswer w' getter setter r) := by
  unfold scriptPropertyAnswer
  split
  · cases getter <;> exact .leaf twin rfl rfl rfl
  · cases setter <;> exact .leaf twin rfl rfl rfl
  · exact .leaf twin rfl rfl rfl

theorem evaluate_twin (chain : Chain) (this : Value) (names : Table BindingSlot) (source : Text) :
    (evaluate e w chain this names source).Twin keep limit
      (evaluate { e with config } w' chain this names source) := by
  simp only [evaluate]
  cases e.host.compiler with
  | none => exact throws_twin twin ..
  | some compile =>
    dsimp only
    cases compile source names with
    | error message =>
      have paired := twin.asThrown (.host (.text message))
      dsimp only
      generalize w.asThrown (.host (.text message)) = p at paired ⊢
      generalize w'.asThrown (.host (.text message)) = p' at paired ⊢
      cases paired with | mk thrown f => exact .leaf thrown rfl rfl rfl
    | ok block => exact .leaf twin rfl rfl rfl

theorem bindingAnswer_twin (chain : Chain) (this : Value) (names : Table BindingSlot)
    (r : Request) :
    (bindingAnswer e w chain this names r).Twin keep limit
      (bindingAnswer { e with config } w' chain this names r) := by
  unfold bindingAnswer
  split
  · refine withKey_twin twin fun key => ?_
    obtain _ | ⟨handle, slot⟩ := resolveName chain names key
    · exact .leaf twin rfl rfl rfl
    · simp only [twin.load]
      cases w.arena.load handle slot <;> exact .leaf twin rfl rfl rfl
  · refine withKey_twin twin fun key => ?_
    obtain _ | ⟨handle, slot⟩ := resolveName chain names key
    · exact .leaf twin rfl rfl rfl
    · simp only [twin.store]
      cases w.arena.store handle slot r.lastArg with
      | ok arena => exact .leaf (twin.setArena arena) rfl rfl rfl
      | error error => exact .leaf twin rfl rfl rfl
  · exact .ite (.leaf twin rfl rfl rfl) (.leaf twin rfl rfl rfl)
  · exact .ite (.leaf twin rfl rfl rfl) (.leaf twin rfl rfl rfl)
  · exact .ite (withKey_twin twin (evaluate_twin e config twin chain this names))
      (.leaf twin rfl rfl rfl)
  · exact .leaf twin rfl rfl rfl

theorem errorAnswer_twin (className message : Text) (r : Request) :
    (errorAnswer w className message r).Twin keep limit (errorAnswer w' className message r) := by
  unfold errorAnswer
  dsimp only
  split
  · exact .ite (.leaf twin rfl rfl rfl) (.ite (.leaf twin rfl rfl rfl) (.leaf twin rfl rfl rfl))
  · exact .ite (.leaf twin rfl rfl rfl) (.leaf twin rfl rfl rfl)
  · exact .ite (.leaf twin rfl rfl rfl) (.leaf twin rfl rfl rfl)
  · exact .leaf twin rfl rfl rfl

theorem dispatch_twin (blind : e.host.Blind) (ref : ObjRef) (r : Request) :
    (dispatch e w ref r).Twin keep limit (dispatch { e with config } w' ref r) := by
  simp only [dispatch, twin.heap]
  cases w.heap[ref]? with
  | none => exact .leaf twin rfl rfl rfl
  | some o =>
    cases o with
    | script o => exact ScriptObject.answer_twin twin ..
    | closure block frame chain => exact closureAnswer_twin e config twin ..
    | nativeFunction name code cls => exact nativeFunctionAnswer_twin e config twin blind ..
    | nativeProperty name getter setter cls => exact nativePropertyAnswer_twin e config twin blind ..
    | function cls target | property cls target => exact wrapperAnswer_twin twin ..
    | scriptProperty getter setter => exact scriptPropertyAnswer_twin twin ..
    | binding chain this names => exact bindingAnswer_twin e config twin ..
    | error className message => exact errorAnswer_twin twin ..
    | proxy | marker | host => exact .leaf twin rfl rfl rfl

theorem operate_twin (target : Value) (r : Request) :
    (operate e w target r).Twin keep limit (operate { e with config } w' target r) := by
  unfold operate
  split
  · exact .leaf twin rfl rfl rfl
  · exact .leaf twin rfl rfl rfl
  · dsimp only
    split <;> exact .leaf twin rfl rfl rfl

/-! ### Transitions -/

namespace Machine

theorem acquire_twin (ref : ObjRef) (target : Value) (r : Request) :
    (acquire e w ref target r).Twin keep limit (acquire { e with config } w' ref target r) := by
  simp only [acquire, World.lock?, twin.lockKind?, twin.locks, Option.bind_eq_bind, Option.pure_def]
  cases w.lockKind? ref with
  | none => exact .leaf twin rfl rfl rfl
  | some kind =>
    rw [Option.bind_some, Option.bind_some]
    cases (w.locks ref).take? kind e.thread with
    | none => exact .leaf twin rfl rfl rfl
    | some m => exact .leaf (twin.setLock ref m) rfl rfl rfl

theorem hostStep_twin {action : HostAction} (blind : action.Blind) :
    (hostStep w action).Twin keep limit (hostStep w' action) := by
  cases action with
  | finish result fault =>
    cases fault with
    | none => exact .leaf twin rfl rfl rfl
    | some fault =>
      have paired := twin.hostFault fault
      simp only [hostStep]
      generalize w.hostFault fault = p at paired ⊢
      generalize w'.hostFault fault = p' at paired ⊢
      cases paired with
      | @mk u u' failed f =>
        have paired := failed.asThrown f
        generalize u.asThrown f = p at paired ⊢
        generalize u'.asThrown f = p' at paired ⊢
        cases paired with | mk thrown f => exact .leaf thrown rfl rfl rfl
  | stop reason => exact .leaf twin rfl rfl rfl
  | ask target r resume =>
    refine ⟨twin, rfl, rfl, trivial, fun c member => ?_⟩
    cases List.mem_singleton.mp member
    exact blind
  | setData ref data next => exact ⟨twin.modifyScript .., rfl, rfl, blind, by simp [hostStep]⟩
  | print line next => exact ⟨twin.print line, rfl, rfl, blind, by simp [hostStep]⟩

theorem insisting_twin (r : Reply) (result : Option Value → Option Value) :
    (insisting w r result).Twin keep limit (insisting w' r result) := by
  have paired := twin.insist [] r
  simp only [insisting]
  generalize w.insist [] r = p at paired ⊢
  generalize w'.insist [] r = p' at paired ⊢
  obtain ⟨insisted, written, _ | f⟩ := paired <;> exact .leaf insisted rfl rfl rfl

theorem resume_twin (r : Reply) {top : Cont} (blind : top.Blind) :
    (resume w r top).Twin keep limit (resume w' r top) := by
  cases top with
  | code a await => exact Activation.resume_twin a twin r await
  | host name next =>
    have paired := twin.insist name r
    simp only [resume]
    generalize w.insist name r = p at paired ⊢
    generalize w'.insist name r = p' at paired ⊢
    obtain ⟨insisted, written, fault⟩ := paired
    refine ⟨insisted, ?_, rfl, blind.2 _ _ _, by simp⟩
    cases insisted
    simp only [blind.1]
  | getter | setter | constructor => exact insisting_twin twin ..
  | forward keeps =>
    have paired := twin.insist [] r
    simp only [resume]
    generalize w.insist [] r = p at paired ⊢
    generalize w'.insist [] r = p' at paired ⊢
    obtain ⟨insisted, written, _ | f⟩ := paired
    · exact .leaf insisted rfl rfl rfl
    · rename_i u u'
      have paired := insisted.asThrown f
      dsimp only
      generalize u.asThrown f = p at paired ⊢
      generalize u'.asThrown f = p' at paired ⊢
      cases paired with | mk thrown f => exact .leaf thrown rfl rfl rfl
  | propertyRead | propertyWrite | callMember => cases r <;> exact .leaf twin rfl rfl rfl
  | second ref request =>
    simp only [resume]
    split <;> exact .leaf twin rfl rfl rfl
  | unlock ref => exact .leaf (twin.unlock ref) rfl rfl rfl

theorem unwind_twin (top : Cont) : (unwind w top).Twin keep limit (unwind w' top) := by
  cases top with
  | code a await => exact twin.releaseChain _
  | unlock ref => exact twin.unlock ref
  | _ => exact twin

end Machine
end Answers
end ScriptEngine
