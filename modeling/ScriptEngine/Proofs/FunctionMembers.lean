import ScriptEngine.Proofs.MemberCalls
import ScriptEngine.Proofs.OwnMembers

/-! The two members of the function class. Calling a function through `call` and calling
what `bind` gives both choose the receiver, whatever context the function had and whatever
receiver the second call is given. Both come to the target of the function by the same
request, and the target runs once. It makes one difference: `call` is native code, and what
fails outside scripts leaves it as an exception. -/
namespace ScriptEngine

open World Machine

variable {e : Engine} {w : World} {cls fn receiver : ObjRef} {object : Object}
  {context : Option ObjRef} {name : Text} {native : Native} {this : Value} {args : List Value}
  {r q : Request} {stack : List Cont} {u : State}

/-! ### The function class -/

/-- A class has a native as a method of its own. -/
def World.HasMethod (w : World) (cls : ObjRef) (name : Text) (native : Native) : Prop :=
  ∃ m fn title holder, w.own? cls name = some m ∧ m.value = .object fn none ∧
    m.attr.isProperty = false ∧ w.heap[fn]? = some (.nativeFunction title (some native) holder)

/-- The function class of an engine, with its two members as they were made. -/
structure World.FunctionClass (e : Engine) (w : World) (cls : ObjRef) : Prop where
  registered : e.functionClass = some cls
  call : w.HasMethod cls (utf8 "call") .functionCall
  bind : w.HasMethod cls (utf8 "bind") .functionBind

namespace World.HasMethod

variable {ref : ObjRef} {key : Text}

theorem script (has : w.HasMethod cls name native) : ∃ o, w.script? cls = some o := by
  obtain ⟨m, fn, title, holder, own, -⟩ := has
  obtain ⟨o, there, -⟩ := script?_of_own? own
  exact ⟨o, there⟩

theorem create (has : w.HasMethod cls name native) {o : Object} (bare : o.members = {}) :
    (w.create o).1.HasMethod cls name native := by
  obtain ⟨m, fn, title, holder, own, value, plain, found⟩ := has
  refine ⟨m, fn, title, holder, ?_, value, plain, ?_⟩
  · rwa [own?, w.create_members bare]
  · have inside := (Array.getElem?_eq_some_iff.mp found).1
    simp only [World.create, Array.getElem?_push, if_neg (Nat.ne_of_lt inside), found]

theorem define (has : w.HasMethod cls name native) (apart : ¬(cls = ref ∧ name = key)) (v : Value)
    (attr : Attribute) : (w.define ref key v attr).HasMethod cls name native := by
  obtain ⟨m, fn, title, holder, own, value, plain, found⟩ := has
  refine ⟨m, fn, title, holder, ?_, value, plain, ?_⟩
  · cases there : w.script? ref with
    | none => rwa [World.define, modifyScript, there]
    | some o => rwa [World.define, own?_insert there, if_neg apart]
  · rcases modifyScript_eq w ref _ with same | ⟨o, there, same⟩
    · rw [World.define, same, found]
    · have other : ref ≠ fn := by
        rintro rfl
        cases there.symm.trans found
      rw [World.define, same, setObject, Array.getElem?_setIfInBounds_ne other, found]

theorem bindMethod (has : w.HasMethod cls name native) (raw : e.isRaw = true)
    (apart : ¬(cls = ref ∧ name = key)) (code : Option Native) :
    (e.bindMethod w ref key code).HasMethod cls name native := by
  simp only [Engine.bindMethod, raw, if_true]
  exact (has.create rfl).define apart _ _

theorem of_bindMethod {o : ScriptObject} (there : w.script? cls = some o) (raw : e.isRaw = true) :
    (e.bindMethod w cls name (some native)).HasMethod cls name native := by
  have inside := lt_size_of_script? there
  have kept : (w.create (.nativeFunction name (some native) (some cls))).1.script? cls = some o := by
    rw [script?_create_old _ inside, there]
  simp only [Engine.bindMethod, raw, if_true]
  refine ⟨⟨.object w.heap.size none, {}⟩, w.heap.size, name, some cls, ?_, rfl, rfl, ?_⟩
  · rw [World.define, own?_insert kept, if_pos ⟨rfl, rfl⟩]
    rfl
  · simp only [World.define, modifyScript, kept]
    simp [setObject, World.create, Nat.ne_of_lt inside]

end World.HasMethod

/-- A new engine has it so: all that is bound and defined later is elsewhere. -/
theorem start_functionClass (config : Config) (host : Host) :
    FunctionClass (Engine.start config host).1 (Engine.start config host).2 1 := by
  simp only [Engine.start, Engine.bindConstant]
  generalize begun : World.create _ (.script { name := utf8 "Property" }) = made
  have there : made.1.script? 1 = some { name := utf8 "Function" } := by
    rw [← begun]
    rfl
  have second : made.2 = 2 := by
    rw [← begun]
    rfl
  generalize bare : Engine.mk config _ none none _ host _ = raw
  have isRaw : raw.isRaw = true := by
    rw [← bare]
    rfl
  have kept {w : World} {name : Text} {native : Native} (has : w.HasMethod 1 name native) :
      (((raw.bindMethod (raw.bindMethod w made.2 (utf8 "get") (some .propertyGet)) made.2
        (utf8 "set") (some .propertySet)).define 0 (utf8 "Function") (.object 1 none)
        { mutability := 2 }).define 0 (utf8 "Property") (.object made.2 none)
        { mutability := 2 }).HasMethod 1 name native := by
    have apart (key : Text) : ¬(1 = made.2 ∧ name = key) := by simp [second]
    refine .define (.define ?_ (by simp) ..) (by simp) ..
    exact .bindMethod (has.bindMethod isRaw (apart _) _) isRaw (apart _) _
  have call : (raw.bindMethod made.1 1 (utf8 "call") (some .functionCall)).HasMethod 1
      (utf8 "call") .functionCall := .of_bindMethod there isRaw
  obtain ⟨o, still⟩ := call.script
  exact ⟨rfl, kept (call.bindMethod isRaw (fun both => absurd both.2 (by decide)) _),
    kept (.of_bindMethod still isRaw)⟩

/-! ### Functions -/

namespace Object

/-- A closure, or a callable presented as an instance of a class. -/
def IsFunction (cls : ObjRef) : Object → Prop
  | .closure .. => True
  | .function (some c) _ => c = cls
  | _ => False

/-- What the call of a function goes on with: the block of a closure, or the callable that
is presented. -/
def target (q : Request) : Object → Control
  | .closure block frame chain =>
    .execute block { args := q.args, blocks := q.blocks, this := q.this, frame, shared := chain }
      .result
  | .function _ (some ref) => .dispatch ref q
  | _ => .panic .invalidAccess

end Object

/-- A function leaves its members to the class, and drops any other receiver. -/
theorem step_member (members : FunctionClass e w cls) (there : w.heap[fn]? = some object)
    (callable : object.IsFunction cls) (named : r.name ≠ []) (asked : r.operation = .call) :
    step e ⟨w, .dispatch fn r, stack⟩ =
      ⟨w, .dispatch cls { r with this := .object fn none }, stack⟩ := by
  obtain ⟨registered, -, -⟩ := members
  cases object with
  | closure block frame chain =>
    obtain ⟨c, rest, spelled⟩ := List.exists_cons_of_ne_nil named
    simp only [step, advance, dispatch, there, closureAnswer, spelled, wrapperAnswer, registered,
      asked, reduceCtorEq, if_false, Next.dispatch, List.nil_append]
  | function c target =>
    cases c with
    | none => cases callable
    | some c =>
      cases callable
      simp only [step, advance, dispatch, there, wrapperAnswer, if_neg named, asked, Next.dispatch,
        List.nil_append]
  | _ => cases callable

/-- A function that is called itself goes on with its target. -/
theorem step_function (there : w.heap[fn]? = some object) (callable : object.IsFunction cls)
    (unnamed : q.name = []) (asked : q.operation = .call) :
    step e ⟨w, .dispatch fn q, stack⟩ = ⟨w, object.target q, stack⟩ := by
  cases object with
  | closure block frame chain =>
    simp only [step, advance, dispatch, there, closureAnswer, unnamed, asked, Object.target,
      List.nil_append]
  | function c target =>
    have direct : q.operation ∈ [Operation.call, .new] := by simp [asked]
    cases target <;>
      simp [step, advance, dispatch, there, wrapperAnswer, unnamed, direct, Object.target,
        Next.dispatch, Next.panic]
  | _ => cases callable

/-! ### Methods -/

/-- What a native sees of a call with a receiver. -/
def CallInfo.ofCall (fn : ObjRef) (args : List Value) (holder : Option ObjRef) : CallInfo :=
  { wantsResult := true, flags := {}, args, blocks := [], this := .object fn none, cls := holder }

/-- A method is read, bound to the receiver that it is called with, and invoked. -/
theorem run_method (e : Engine) (fn : ObjRef) (args : List Value) (stack : List Cont)
    (has : w.HasMethod cls name native) (named : name ≠ []) :
    ∃ holder, run e 4 ⟨w, .dispatch cls
        { operation := .call, name, args, this := .object fn none }, stack⟩ =
      ⟨(native.invoke e w (.ofCall fn args holder)).world,
        (native.invoke e w (.ofCall fn args holder)).control,
        (native.invoke e w (.ofCall fn args holder)).push ++ stack⟩ := by
  obtain ⟨⟨_, attr⟩, code, title, holder, own, rfl, plain, found⟩ := has
  obtain ⟨o, there, own⟩ := script?_of_own? own
  have hit : w.lookup cls name {} = some (⟨.object code none, attr⟩, cls) :=
    lookup_own there own rfl
  have bound : w.boundTo (.object fn none) (.object code none) = .object code (some fn) := by
    simp [boundTo, found, Object.isBindable, Value.object?]
  have read : step e ⟨w, .dispatch cls { operation := .call, name, args, this := .object fn none },
      stack⟩ = ⟨w, .reply (.done (some (.object code (some fn)))),
        .callMember { operation := .call, args, this := .object fn none } :: stack⟩ := by
    simp [step, advance, dispatch, heap_of_script? there, ScriptObject.answer, named,
      ScriptObject.get, hit, plain, Request.receiver, bound, Next.result, Next.reply,
      Next.before]
  have invoked : step e ⟨w, .dispatch code { operation := .call, args, this := .object fn none },
      stack⟩ = ⟨(native.invoke e w (.ofCall fn args holder)).world,
        (native.invoke e w (.ofCall fn args holder)).control,
        (native.invoke e w (.ofCall fn args holder)).push ++ stack⟩ := by
    simp only [step, advance, dispatch, found, nativeFunctionAnswer, CallInfo.ofCall]
  refine ⟨holder, ?_⟩
  -- In between the call goes on with what was read, and that passes the context on.
  rw [run_step, read, run_step, run_step, run_step, run]
  exact invoked

/-! ### The way to the target -/

/-- The call of a function by a receiver. -/
def Request.callBy (receiver : ObjRef) (args : List Value) : Request :=
  { operation := .call, args, this := .object receiver none }

section Ways

variable (members : FunctionClass e w cls) (there : w.heap[fn]? = some object)
  (callable : object.IsFunction cls)
include members there callable

/-- A member of a function is called with the function as receiver, without its context. -/
theorem run_functionMember (context : Option ObjRef) (args : List Value)
    (has : w.HasMethod cls name native) (named : name ≠ []) :
    ∃ holder, run e 6 (.callsMember w (.object fn context) name args) =
      ⟨(native.invoke e w (.ofCall fn args holder)).world,
        (native.invoke e w (.ofCall fn args holder)).control,
        (native.invoke e w (.ofCall fn args holder)).push⟩ := by
  obtain ⟨holder, invoked⟩ := run_method e fn args [] has named
  refine ⟨holder, ?_⟩
  have asked : ∃ this, step e (.callsMember w (.object fn context) name args) =
      ⟨w, .dispatch fn { operation := .call, name, args, this }, []⟩ := by
    cases context <;> exact ⟨_, rfl⟩
  obtain ⟨this, asked⟩ := asked
  rw [run_step, asked, run_step, step_member members there callable named rfl, invoked,
    List.append_nil]

theorem run_call : run e 8 (.callsMember w (.object fn context) (utf8 "call")
      (.object receiver none :: args)) =
    ⟨w, object.target (.callBy receiver args), [.forward true]⟩ := by
  obtain ⟨holder, invoked⟩ := run_functionMember members there callable context
    (.object receiver none :: args) members.call (by decide)
  rw [run_add e 6 2, invoked, run_step, run_step, run]
  exact step_function there callable rfl rfl

theorem run_bind : run e 6 (.callsMember w (.object fn context) (utf8 "bind")
      [.object receiver none]) =
    ⟨w, .reply (.done (some (.object fn (some receiver)))), []⟩ := by
  obtain ⟨holder, invoked⟩ := run_functionMember members there callable context
    [.object receiver none] members.bind (by decide)
  exact invoked

omit members in
theorem run_bound : run e 2 (.calls w (.object fn (some receiver)) this args) =
    ⟨w, object.target (.callBy receiver args), []⟩ := by
  rw [run_step, run_step, run]
  exact step_function there callable rfl rfl

end Ways

/-! ### What native code makes of failures -/

/-- The same end, unless it is a failure outside scripts: that becomes an exception of the
engine, with the failure's text and with the failure as its cause. -/
inductive Rethrown : (a b : World × Outcome Value) → Prop
  | same {a : World × Outcome Value} (scripted : ∀ f, a.2 = .failed f → f.signal? ≠ none) :
      Rethrown a a
  | wrapped (w : World) (f : Fault) (foreign : f.signal? = none) :
      Rethrown (w, .failed f)
        ((w.throwException "NativeException" (w.faultText f) (some f)).1,
          .failed (w.throwException "NativeException" (w.faultText f) (some f)).2)

theorem asThrown_rethrown (w : World) (f : Fault) :
    Rethrown (w, .failed f) ((w.asThrown f).1, .failed (w.asThrown f).2) := by
  unfold asThrown
  cases signal : f.signal? with
  | some ref =>
    apply Rethrown.same
    rintro _ ⟨⟩
    simp [signal]
  | none => exact .wrapped w f signal

/-- What waits for the answer of the target passes it on in one transition. -/
theorem forward_rethrown (e : Engine) (final : u.isFinal = true) (name : Text) :
    (step e (u.atop [.forward true])).isFinal = true ∧
      Rethrown (u.result []) ((step e (u.atop [.forward true])).result name) := by
  rcases State.cases_of_isFinal final with ⟨w, reply, rfl⟩ | ⟨w, p, rfl⟩
  · cases reply with
    | done written => exact ⟨rfl, .same (by rintro _ ⟨⟩)⟩
    | failed written f => exact ⟨rfl, asThrown_rethrown w f⟩
    | refused r => exact ⟨rfl, .same (by rintro _ ⟨⟩; simp [Fault.signal?])⟩
  · exact ⟨rfl, .same (by rintro _ ⟨⟩)⟩

/-- So its answer is that of the target, passed on. -/
theorem settles_forward {s v : State} : Settles e (s.atop [.forward true]) v ↔
    ∃ t, Settles e s t ∧ v = step e (t.atop [.forward true]) := by
  rw [Settles.atop_iff]
  apply exists_congr
  intro t
  apply and_congr_right
  intro settles
  have passed := (forward_rethrown e settles.final []).1
  rw [← Settles.step_iff, Settles.final_iff passed]

/-- Calling a function through `call` and calling what `bind` gives. The first comes to the
target of the function after eight transitions and needs one more when that has answered,
the second comes to it after two; the receiver is the same, and so are the arguments. One
comes to an end if and only if the other does, and the ends are the same but for failures
outside scripts. -/
theorem call_bind_agree (e : Engine) (w : World) (cls fn receiver : ObjRef) (object : Object)
    (context : Option ObjRef) (this : Value) (args : List Value)
    (members : FunctionClass e w cls) (there : w.heap[fn]? = some object)
    (callable : object.IsFunction cls) :
    let direct := State.callsMember w (.object fn context) (utf8 "call")
      (.object receiver none :: args)
    let bound := State.calls w (.object fn (some receiver)) this args
    let target : State := ⟨w, object.target (.callBy receiver args), []⟩
    Ends (e.callMember · w (.object fn context) (utf8 "bind") [.object receiver none])
      (w, .ok (.object fn (some receiver))) ∧
    run e 8 direct = target.atop [.forward true] ∧ run e 2 bound = target ∧
    (∀ n u, SettlesIn e n target u →
      run e (n + 2) bound = u ∧ (run e (n + 9) direct).isFinal = true) ∧
    (∀ a, Ends (e.call · w (.object fn (some receiver)) this args) a →
      ∃ b, Ends (e.callMember · w (.object fn context) (utf8 "call")
        (.object receiver none :: args)) b ∧ Rethrown a b) ∧
    (∀ b, Ends (e.callMember · w (.object fn context) (utf8 "call")
        (.object receiver none :: args)) b →
      ∃ a, Ends (e.call · w (.object fn (some receiver)) this args) a ∧ Rethrown a b) := by
  intro direct bound target
  have called : run e 8 direct = target.atop [.forward true] := run_call members there callable
  have reached : run e 2 bound = target := run_bound there callable
  refine ⟨?_, called, reached, ?_, ?_, ?_⟩
  · exact ends_callMember_iff.mpr ⟨_, .of_run rfl (run_bind members there callable), rfl⟩
  · intro n u settles
    constructor
    · rw [Nat.add_comm, run_add, reached, settles.reached]
    · have split : n + 9 = 8 + (n + 1) := by omega
      rw [split, run_add, called, run_succ, run_atop settles.before, settles.reached]
      exact (forward_rethrown e settles.final []).1
  · intro a ends
    obtain ⟨t, settles, rfl⟩ := ends_call_iff.mp ends
    have own : Settles e target t := reached ▸ (Settles.run_iff 2).mpr settles
    refine ⟨_, ends_callMember_iff.mpr ⟨_, ?_, rfl⟩, (forward_rethrown e own.final _).2⟩
    rw [← Settles.run_iff 8, called]
    exact settles_forward.mpr ⟨t, own, rfl⟩
  · intro b ends
    obtain ⟨v, settles, rfl⟩ := ends_callMember_iff.mp ends
    rw [← Settles.run_iff 8, called, settles_forward] at settles
    obtain ⟨t, own, rfl⟩ := settles
    refine ⟨_, ends_call_iff.mpr ⟨t, ?_, rfl⟩, (forward_rethrown e own.final _).2⟩
    rw [← Settles.run_iff 2, reached]
    exact own

/-- A closure that was just made in a new engine, with the globals as its context, and the
property class as the receiver that is chosen. -/
theorem new_closure_call_bind :
    let e := (Engine.start {} plainEngine.host).1
    let started := (Engine.start {} plainEngine.host).2
    let w := (started.create (.closure (some { code? := some #[] }) none [])).1
    let fn := started.heap.size
    FunctionClass e w 1 ∧
    Ends (e.callMember · w (.object fn (some 0)) (utf8 "bind") [.object 2 none])
      (w, .ok (.object fn (some 2))) ∧
    run e 8 (.callsMember w (.object fn (some 0)) (utf8 "call") [.object 2 none, .int 1]) =
      ⟨w, .execute (some { code? := some #[] }) { args := [.int 1], this := .object 2 none } .result,
        [.forward true]⟩ := by
  intro e started w fn
  have first : FunctionClass e started 1 := start_functionClass {} plainEngine.host
  have members : FunctionClass e w 1 :=
    ⟨first.registered, first.call.create rfl, first.bind.create rfl⟩
  have there : w.heap[fn]? = some (.closure (some { code? := some #[] }) none []) :=
    Array.getElem?_push_size
  obtain ⟨bound, called, -⟩ := call_bind_agree e w 1 fn 2 _ (some 0) .void [.int 1] members there
    trivial
  exact ⟨members, bound, called⟩

end ScriptEngine
