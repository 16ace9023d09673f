import ScriptEngine.Proofs.BlockStep

/-! What is read off a world and stays the same while code runs. Answers make new objects,
raise failures and report. A view of the world that shows none of this is changed by an
answer only where a script object is asked to change a member, or a binding to write a
slot. Where it shows objects and locks alone, a running block does not change it either. -/
namespace ScriptEngine

/-! ### Locks and members -/

/-- The lock that is given back when something has been answered. -/
def Cont.lock? : Cont → Option ObjRef
  | .unlock ref => some ref
  | _ => none

/-- Whether a lock is to be taken next. -/
def Control.isLocking : Control → Bool
  | .lock .. => true
  | _ => false

/-- Whether a transition neither asks for a lock nor leaves one to be given back. -/
def Next.isLockless (n : Next) : Bool := !n.control.isLocking && n.push.all (·.lock?.isNone)

/-- The lock that is held while the request of an action is answered. -/
def Action.lock? : Action → Option ObjRef
  | .request _ _ lock _ => lock
  | _ => none

/-- The key of the member that a request to a script object is to change. -/
def Request.edits? (w : World) (r : Request) : Option Text :=
  match r.operation with
  | .dset | .dsetAttrib => some r.name
  | .iset => w.textOf (r.arg 0)
  | _ => none

/-! ### Views -/

/-- Whether an object is a script object. -/
def Object.isScript : Object → Bool
  | .script _ => true
  | _ => false

/-- Objects as they are made while code runs: script objects without members, and objects
of all other kinds. -/
inductive Object.New : Object → Prop
  | script (cls : Option ObjRef) : New (.script { cls })
  | other {o : Object} (other : o.isScript = false) : New o

/-- Something that is read off a world and shows neither new objects nor failures, events
and output. Of script objects it may show the members. -/
structure View (α : Type) where
  read : World → α
  create : ∀ (w : World) {o : Object}, o.New → read (w.create o).1 = read w
  modifyScript : ∀ (w : World) (ref : ObjRef) {f : ScriptObject → ScriptObject},
    (∀ o, (f o).members = o.members) → read (w.modifyScript ref f) = read w
  raise : ∀ (w : World) (s : Signal), read (w.raise s).1 = read w
  report : ∀ (w : World) (event : Event), read (w.report event) = read w
  print : ∀ (w : World) (line : Text), read { w with output := w.output.push line } = read w

namespace View

variable {α : Type} (v : View α)

/-- A view that does not show members. -/
def IgnoresMembers : Prop :=
  ∀ (w : World) (ref : ObjRef) (key : Text) (m : Member),
    v.read (w.modifyScript ref fun o => { o with members := o.members.insert key m }) = v.read w

/-- A view of objects and their locks that does not show the names of bindings. -/
structure OfObjects : Prop where
  heap : ∀ {w w' : World}, w'.heap = w.heap → w'.locks = w.locks → v.read w' = v.read w
  bindName : ∀ (w : World) (ref : ObjRef) (name : Text) (slot : BindingSlot),
    v.read (w.bindName ref name slot) = v.read w

/-- A transition that a view does not show and that asks for no lock. -/
structure Spares (w : World) (n : Next) : Prop where
  same : v.read n.world = v.read w
  lockless : n.isLockless = true

variable {v} {w w' : World} {n : Next}

/-- A transition that leaves the world as it is and pushes nothing. -/
theorem Spares.still {control : Control} (lockless : control.isLocking = false) :
    v.Spares w { world := w, control } := ⟨rfl, by simp [Next.isLockless, lockless]⟩

/-- A transition after a change that a view does not show. -/
theorem Spares.after (spares : v.Spares w' n) (same : v.read w' = v.read w) : v.Spares w n :=
  ⟨spares.same.trans same, spares.lockless⟩

variable (v) (w)

theorem throwException (className : String) (message : Text) (cause : Option Fault) :
    v.read (w.throwException className message cause).1 = v.read w :=
  (v.raise _ _).trans (v.create w (o := .error (utf8 className) message) (.other rfl))

theorem asThrown (f : Fault) : v.read (w.asThrown f).1 = v.read w := by
  unfold World.asThrown
  split
  · rfl
  · exact v.throwException ..

theorem insist (name : Text) (r : Reply) : v.read (w.insist name r).1 = v.read w := by
  cases r with
  | done | failed => rfl
  | refused => exact v.throwException ..

theorem hostFault (f : HostFault) : v.read (w.hostFault f).1 = v.read w := by
  induction f with
  | text | passed => rfl
  | throw | exit => exact v.raise ..
  | labelled label inner ih => exact ih

theorem wrapFunction (e : Engine) (target : Option ObjRef) :
    v.read (e.wrapFunction w target).1 = v.read w := by
  unfold Engine.wrapFunction
  split
  · rfl
  · exact v.create w (.other rfl)

theorem wrapProperty (e : Engine) (target : Option ObjRef) :
    v.read (e.wrapProperty w target).1 = v.read w := by
  unfold Engine.wrapProperty
  split
  · rfl
  · exact v.create w (.other rfl)

end View

/-! ### Answers -/

section Answers

open View

variable {α : Type} (v : View α) (e : Engine) (w : World)

theorem withKey_spares {r : Request} {next : Text → Next}
    (spares : ∀ key, v.Spares w (next key)) : v.Spares w (withKey w r next) := by
  unfold withKey
  split
  · exact spares _
  · exact .still rfl

namespace ScriptObject

theorem get_spares (ref : ObjRef) (r : Request) (name : Text) :
    v.Spares w (get w ref r name) := by
  unfold get
  repeat' split
  all_goals exact ⟨rfl, rfl⟩

section Members

variable {v} (ignores : v.IgnoresMembers)
include ignores

theorem put_spares (ref : ObjRef) (name : Text) (m : Member) : v.Spares w (put w ref name m) :=
  ⟨ignores w ref name m, rfl⟩

theorem set_spares (ref : ObjRef) (r : Request) (name : Text) (x : Value) :
    v.Spares w (set w ref r name x) := by
  unfold set
  dsimp only
  repeat' split
  all_goals first | exact ⟨rfl, rfl⟩ | exact put_spares w ignores ..

theorem setAttributes_spares (ref : ObjRef) (r : Request) :
    v.Spares w (setAttributes w ref r) := by
  unfold setAttributes
  split
  · exact .still rfl
  · dsimp only
    split
    · exact (put_spares _ ignores ..).after (v.report ..)
    · exact put_spares w ignores ..

end Members

theorem construct_spares (ref : ObjRef) (o : ScriptObject) (r : Request) :
    v.Spares w (construct w ref o r) := by
  have created : v.read (w.create (.script { cls := some ref })).1 = v.read w :=
    v.create w (.script (some ref))
  unfold construct
  dsimp only
  repeat' split
  all_goals first | exact ⟨rfl, rfl⟩ | exact ⟨created, rfl⟩

/-- The answer of a script object shows only where members are shown and one is to be
changed. -/
theorem answer_spares (ref : ObjRef) (o : ScriptObject) {r : Request}
    (unedited : v.IgnoresMembers ∨ r.edits? w = none) : v.Spares w (answer w ref o r) := by
  have gets := get_spares v w ref
  cases asked : r.operation with simp only [answer, asked]
  | call =>
    split
    · exact .still rfl
    · have read := gets { operation := .dget, flags := r.flags, this := r.this } r.name
      exact ⟨read.same, by simpa [Next.isLockless, Next.before, Cont.lock?] using read.lockless⟩
  | new => exact construct_spares ..
  | dget => exact gets ..
  | iget => exact withKey_spares v w (gets r)
  | dset =>
    rcases unedited with ignores | other
    · exact set_spares w ignores ..
    · simp only [Request.edits?, asked, reduceCtorEq] at other
  | iset =>
    rcases unedited with ignores | other
    · exact withKey_spares v w fun key => set_spares w ignores ref r key r.lastArg
    · simp only [Request.edits?, asked] at other
      simp only [withKey, other]
      exact .still rfl
  | dsetAttrib =>
    rcases unedited with ignores | other
    · exact setAttributes_spares w ignores ..
    · simp only [Request.edits?, asked, reduceCtorEq] at other
  | instanceOf =>
    unfold instanceOf
    repeat' split
    all_goals exact .still rfl
  | other => exact .still rfl

end ScriptObject

theorem invoke_spares (c : CallInfo) (native : Native) : v.Spares w (native.invoke e w c) := by
  cases native with
  | host key =>
    simp only [Native.invoke]
    split
    · exact .still rfl
    · exact ⟨v.throwException .., rfl⟩
  | _ => exact ⟨rfl, rfl⟩

theorem wrapperAnswer_spares (self : ObjRef) (cls target : Option ObjRef)
    (direct : List Operation) (r : Request) :
    v.Spares w (wrapperAnswer w self cls target direct r) := by
  unfold wrapperAnswer
  repeat' split
  all_goals exact .still rfl

theorem evaluate_spares (chain : Chain) (this : Value) (names : Table BindingSlot)
    (source : Text) : v.Spares w (evaluate e w chain this names source) := by
  unfold evaluate
  split
  · exact ⟨v.throwException .., rfl⟩
  · split
    next message _ => exact ⟨v.asThrown w (.host (.text message)), rfl⟩
    · exact .still rfl

/-- The answer of a binding shows only where slots are shown and one is to be written. -/
theorem bindingAnswer_spares (chain : Chain) (this : Value) (names : Table BindingSlot)
    (r : Request) (unwritten : v.OfObjects ∨ r.operation ≠ .iset) :
    v.Spares w (bindingAnswer e w chain this names r) := by
  cases asked : r.operation with simp only [bindingAnswer, asked]
  | iget =>
    refine withKey_spares v w fun key => ?_
    repeat' split
    all_goals exact .still rfl
  | iset =>
    have objects : v.OfObjects := unwritten.resolve_right (absurd asked ·)
    refine withKey_spares v w fun key => ?_
    repeat' split
    all_goals first | exact .still rfl | exact ⟨objects.heap rfl rfl, rfl⟩
  | dget | dset => split <;> exact .still rfl
  | call =>
    split
    · exact withKey_spares v w (evaluate_spares v e w chain this names)
    · exact .still rfl
  | _ => exact .still rfl

/-- No answer shows, unless a script object is asked to change a member or a binding to
write a slot, and this is what is shown. -/
theorem dispatch_spares (ref : ObjRef) (r : Request)
    (unedited : v.IgnoresMembers ∨ w.script? ref = none ∨ r.edits? w = none)
    (unwritten : v.OfObjects ∨
      ∀ chain this names, w.heap[ref]? = some (.binding chain this names) → r.operation ≠ .iset) :
    v.Spares w (dispatch e w ref r) := by
  cases there : w.heap[ref]? with
  | none => simp only [dispatch, there]; exact .still rfl
  | some object =>
    cases object with simp only [dispatch, there]
    | script o =>
      have asked : v.IgnoresMembers ∨ r.edits? w = none := by
        simpa only [World.script?, there, reduceCtorEq, false_or] using unedited
      exact ScriptObject.answer_spares v w ref o asked
    | closure =>
      unfold closureAnswer
      split
      · exact .still rfl
      · exact ⟨v.create w (.script none), rfl⟩
      · exact wrapperAnswer_spares ..
    | nativeFunction =>
      unfold nativeFunctionAnswer
      split
      · exact invoke_spares ..
      · exact invoke_spares ..
      · exact .still rfl
    | nativeProperty =>
      unfold nativePropertyAnswer
      dsimp only
      repeat' split
      all_goals first | exact .still rfl | exact invoke_spares ..
    | function | property => exact wrapperAnswer_spares ..
    | scriptProperty =>
      unfold scriptPropertyAnswer
      repeat' split
      all_goals exact ⟨rfl, rfl⟩
    | binding chain this names =>
      exact bindingAnswer_spares v e w chain this names r (unwritten.imp_right (· _ _ _ there))
    | error =>
      unfold errorAnswer
      dsimp only
      repeat' split
      all_goals exact .still rfl
    | host | marker => exact .still rfl
    | proxy => exact ⟨rfl, rfl⟩

theorem operate_spares (target : Value) (r : Request) : v.Spares w (operate e w target r) := by
  unfold operate
  repeat' split
  all_goals exact .still rfl

/-- Taking a lock, or waiting for it, changes locks only. -/
theorem acquire_world (ref : ObjRef) (target : Value) (r : Request) :
    ∃ locks, (Machine.acquire e w ref target r).world = { w with locks } := by
  unfold Machine.acquire
  split
  next locked =>
    obtain ⟨_, _, -, -, rfl⟩ := World.lock?_eq_some locked
    exact ⟨_, rfl⟩
  · exact ⟨w.locks, rfl⟩

theorem hostStep_spares (action : HostAction) : v.Spares w (Machine.hostStep w action) := by
  cases action with
  | finish result fault =>
    cases fault with
    | none => exact .still rfl
    | some fault => exact ⟨(v.asThrown _ _).trans (v.hostFault w fault), rfl⟩
  | setData ref data next => exact ⟨v.modifyScript w ref fun _ => rfl, rfl⟩
  | print line next => exact ⟨v.print w line, rfl⟩
  | stop | ask => exact ⟨rfl, rfl⟩

theorem insisting_spares (r : Reply) (result : Option Value → Option Value) :
    v.Spares w (Machine.insisting w r result) := by
  have same := v.insist w [] r
  unfold Machine.insisting
  split <;> rename_i insisted <;> rw [insisted] at same <;> exact ⟨same, rfl⟩

/-- What waits for an answer without being a block goes on unseen, unless it gives a lock
back. -/
theorem resume_spares (r : Reply) {top : Cont} (idle : top.activation? = none)
    (other : top.lock? = none) : v.Spares w (Machine.resume w r top) := by
  cases top with
  | code a await => cases idle
  | host name resume => exact ⟨v.insist w name r, rfl⟩
  | getter | setter | constructor => exact insisting_spares ..
  | forward keep =>
    have same := v.insist w [] r
    simp only [Machine.resume]
    split <;> rename_i insisted <;> rw [insisted] at same
    · exact ⟨same, rfl⟩
    · exact ⟨(v.asThrown _ _).trans same, rfl⟩
  | propertyRead | propertyWrite | callMember => cases r <;> exact .still rfl
  | second ref request =>
    simp only [Machine.resume]
    split <;> exact .still rfl
  | unlock ref => cases other

end Answers

/-! ### Running blocks -/

section Blocks

variable {α : Type} {v : View α} (objects : v.OfObjects) (w : World)
include objects

theorem enter_spares (block : CodeBlock) (inv : Invocation) (completion : Completion) :
    v.Spares w (Machine.enter w block inv completion) := by
  have entered := enter_enters w block inv completion
  generalize Machine.enter w block inv completion = n at entered
  cases entered with
  | flat framed | nested framed | refused framed | broken framed =>
    cases framed <;> exact ⟨objects.heap rfl rfl, rfl⟩
  | crowded | small => exact ⟨objects.heap rfl rfl, rfl⟩

namespace Activation

variable (a : Activation)

theorem stop_spares (p : Panic) : v.Spares w (a.stop w p) := ⟨objects.heap rfl rfl, rfl⟩

theorem goto_spares (place : Int) : v.Spares w (a.goto w place) := ⟨objects.heap rfl rfl, rfl⟩

theorem assign_spares (dst : Option Nat) (x : Value) (next : Int) :
    v.Spares w (a.assign w dst x next) := by
  unfold assign
  repeat' split
  all_goals exact ⟨objects.heap rfl rfl, rfl⟩

theorem raise_spares (f : Fault) : v.Spares w (a.raise w f) :=
  ⟨objects.heap (w.annotate_heap f _).1 (w.annotate_locks f _), rfl⟩

theorem fail_spares (error : ArenaError) : v.Spares w (a.fail w error) :=
  (raise_spares objects _ a _).after (v.asThrown w (.host (.arena error)))

theorem mark_spares (result : Value) (fault : Option Fault) (dst : Nat) (next : Int) :
    v.Spares w (a.mark w result fault dst next) := by
  cases fault with simp only [mark]
  | none => exact (assign_spares objects ..).after (v.create w (.other rfl))
  | some f =>
    exact (assign_spares objects ..).after ((v.create _ (.other rfl)).trans (v.asThrown w f))

theorem capture_spares {o : Object} (fresh : o.New) (context : Option ObjRef)
    (dst : Option Nat) (next : Int) : v.Spares w (a.capture w o context dst next) := by
  unfold capture
  split
  next arena _ _ =>
    have created : v.read (({ w with arena } : World).create o).1 = v.read w :=
      (v.create _ fresh).trans (objects.heap rfl rfl)
    exact (assign_spares objects ..).after created
  · exact (raise_spares objects ..).after (objects.heap rfl rfl)
  · exact ⟨objects.heap rfl rfl, rfl⟩

/-- Carrying out what an instruction does is not shown, and asks for a lock only where the
instruction does. -/
theorem perform_spares (e : Engine) {action : Action} (lockless : action.lock? = none) :
    v.Spares w (a.perform e w action) := by
  cases action with
  | goto => exact goto_spares objects ..
  | assign => exact assign_spares objects ..
  | newObject dst next =>
    exact (assign_spares objects ..).after (v.create w (.script none))
  | newProxy => exact (assign_spares objects ..).after (v.create w (.other rfl))
  | newFunction target context dst next =>
    exact (assign_spares objects ..).after (v.wrapFunction w e target)
  | newProperty getter setter dst next =>
    refine (assign_spares objects ..).after ?_
    exact (v.wrapProperty _ e _).trans (v.create w (.other rfl))
  | store handle slot x next =>
    simp only [perform]
    split
    · exact ⟨objects.heap rfl rfl, rfl⟩
    · exact fail_spares objects ..
  | capture | bind => exact capture_spares objects w a (.other rfl) ..
  | bindName binding name slot next => exact ⟨objects.bindName w binding name slot, rfl⟩
  | request target r lock await =>
    subst lockless
    exact ⟨rfl, rfl⟩
  | markError className message dst next =>
    simp only [perform]
    exact (mark_spares objects ..).after (v.throwException w className message none)
  | settle register x caught next => cases next <;> exact ⟨objects.heap rfl rfl, rfl⟩
  | throwValue | exit => exact (raise_spares objects ..).after (v.raise w _)
  | throwException className message =>
    exact (raise_spares objects ..).after (v.throwException w className message none)
  | raise fault => exact raise_spares objects ..
  | fail error => exact fail_spares objects ..
  | «return» | report | panic => exact ⟨objects.heap rfl rfl, rfl⟩

theorem resume_spares (r : Reply) (await : Await) : v.Spares w (a.resume w r await) := by
  -- What is made of an answer that was insisted on, for every form of waiting that does.
  have insisted {name : Text} {w' : World} {written : Option Value} {fault : Option Fault}
      (outcome : w.insist name r = (w', written, fault)) : v.read w' = v.read w := by
    have same := v.insist w name r
    rwa [outcome] at same
  cases await with simp only [resume]
  | assign name dst next =>
    split
    next outcome => exact (assign_spares objects ..).after (insisted outcome)
    next outcome => exact (raise_spares objects ..).after (insisted outcome)
  | skip name next =>
    split
    next outcome => exact (goto_spares objects ..).after (insisted outcome)
    next outcome => exact (raise_spares objects ..).after (insisted outcome)
  | mark dst next => exact (mark_spares objects ..).after (v.insist w [] r)
  | membership dst next =>
    cases r with
    | done | refused => exact assign_spares objects ..
    | failed => exact raise_spares objects ..
  | classOf name args dst next =>
    split
    next outcome => exact ⟨insisted outcome, rfl⟩
    next outcome => exact (raise_spares objects ..).after (insisted outcome)

end Activation
end Blocks

/-! ### Views of each object -/

namespace World

variable {α : Type} {absent : α} {read : Object → α} {w w' : World} {ref : ObjRef}

/-- What is read off the object at a place. -/
def shown (w : World) (absent : α) (read : Object → α) (ref : ObjRef) : α :=
  (w.heap[ref]?).elim absent read

theorem shown_of_heap (same : w'.heap = w.heap) : w'.shown absent read = w.shown absent read := by
  funext ref
  rw [shown, same, shown]

theorem shown_create {o : Object} (bare : read o = absent) :
    (w.create o).1.shown absent read = w.shown absent read := by
  funext ref
  simp only [shown, create, Array.getElem?_push]
  split
  next last => simp [last, bare]
  · rfl

theorem shown_setObject {old new : Object} (there : w.heap[ref]? = some old) (other : ObjRef) :
    (w.setObject ref new).shown absent read other =
      if ref = other then read new else w.shown absent read other := by
  simp only [shown, setObject, Array.getElem?_setIfInBounds]
  split
  · rw [if_pos (Array.getElem?_eq_some_iff.mp there).1]
    rfl
  · rfl

theorem shown_setObject_same {old new : Object} (there : w.heap[ref]? = some old)
    (same : read new = read old) :
    (w.setObject ref new).shown absent read = w.shown absent read := by
  funext other
  rw [shown_setObject there]
  split
  next here =>
    subst here
    rw [same, shown, there]
    rfl
  · rfl

theorem shown_modifyScript {f : ScriptObject → ScriptObject}
    (keeps : ∀ o, read (.script (f o)) = read (.script o)) :
    (w.modifyScript ref f).shown absent read = w.shown absent read := by
  rcases modifyScript_eq w ref f with same | ⟨o, there, same⟩
  · rw [same]
  · rw [same]
    exact shown_setObject_same there (keeps o)

theorem shown_bindName {name : Text} {slot : BindingSlot}
    (other : ∀ o : Object, o.isScript = false → read o = absent) :
    (w.bindName ref name slot).shown absent read = w.shown absent read := by
  rcases bindName_eq w ref name slot with same | ⟨_, _, _, there, same⟩
  · rw [same]
  · rw [same]
    exact shown_setObject_same there ((other _ rfl).trans (other _ rfl).symm)

end World

namespace View

variable {α : Type} {absent : α} {read : Object → α}

/-- The view of something that only script objects have: new ones have none of it, and it
is made up of their members. -/
def ofScripts (absent : α) (read : Object → α)
    (other : ∀ o : Object, o.isScript = false → read o = absent)
    (fresh : ∀ cls, read (.script { cls }) = absent)
    (keeps : ∀ o o' : ScriptObject, o'.members = o.members →
      read (.script o') = read (.script o)) : View (ObjRef → α) where
  read w := w.shown absent read
  create w o isNew := by
    cases isNew with
    | script cls => exact World.shown_create (fresh cls)
    | other plain => exact World.shown_create (other o plain)
  modifyScript w ref f same := World.shown_modifyScript fun o => keeps o (f o) (same o)
  raise _ _ := World.shown_of_heap rfl
  report _ _ := World.shown_of_heap rfl
  print _ _ := World.shown_of_heap rfl

theorem ofScripts_ofObjects {other : ∀ o : Object, o.isScript = false → read o = absent}
    {fresh : ∀ cls, read (.script { cls }) = absent}
    {keeps : ∀ o o' : ScriptObject, o'.members = o.members →
      read (.script o') = read (.script o)} :
    (ofScripts absent read other fresh keeps).OfObjects :=
  ⟨fun same _ => World.shown_of_heap same, fun _ _ _ _ => World.shown_bindName other⟩

end View
end ScriptEngine
