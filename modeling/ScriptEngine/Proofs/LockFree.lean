import ScriptEngine.Proofs.WorldViews

/-! What is done to locks. One instruction asks for a lock, for the time of a call;
every other transition, whatever it asks, makes or answers, leaves all locks as
they are and asks for none. -/
namespace ScriptEngine

/-! ### Locks of one thread -/

namespace Mutex

variable {thread : Thread} {depth : Nat} {kind : LockKind} {m : Mutex}

/-- A lock that a thread holds so often. -/
def heldBy (thread : Thread) : (depth : Nat) → Mutex
  | 0 => {}
  | depth + 1 => { holder := some thread, depth := depth + 1 }

@[simp] theorem heldBy_depth : (heldBy thread depth).depth = depth := by cases depth <;> rfl

theorem take?_free : (heldBy thread 0).take? kind thread = some (heldBy thread 1) := rfl

/-- A thread may take a lock again that is made for it. -/
theorem take?_reentrant :
    (heldBy thread depth).take? .reentrant thread = some (heldBy thread (depth + 1)) := by
  cases depth <;> simp [heldBy, take?]

/-- With any other lock it would have to wait for itself. -/
theorem take?_plain : (heldBy thread (depth + 1)).take? .plain thread = none := by
  simp [heldBy, take?]

theorem take?_heldBy (taken : (heldBy thread depth).take? kind thread = some m) :
    m = heldBy thread (depth + 1) := by
  cases kind with
  | reentrant => exact Option.some.inj (taken.symm.trans take?_reentrant)
  | plain =>
    cases depth with
    | zero => exact Option.some.inj (taken.symm.trans take?_free)
    | succ depth => cases taken.symm.trans take?_plain

theorem release_heldBy : (heldBy thread (depth + 1)).release = heldBy thread depth := by
  cases depth <;> simp [heldBy, release]

end Mutex

/-! ### Changes that leave locks alone -/

namespace World

variable (w : World) {ref owner : ObjRef}

theorem modifyScript_locks (ref : ObjRef) (f : ScriptObject → ScriptObject) :
    (w.modifyScript ref f).locks = w.locks := by
  rcases modifyScript_eq w ref f with same | ⟨o, -, same⟩ <;> rw [same]
  rfl

theorem bindName_locks (ref : ObjRef) (name : Text) (slot : BindingSlot) :
    (w.bindName ref name slot).locks = w.locks := by
  rcases bindName_eq w ref name slot with same | ⟨_, _, _, -, same⟩ <;> rw [same]
  rfl

variable {w}

/-- The object whose lock stands for another one has a lock of its own. -/
theorem lockOwner?_lockKind? (owned : w.lockOwner? ref = some owner) :
    ∃ kind, w.lockKind? owner = some kind := by
  unfold lockOwner? at owned
  generalize w.heap.size = fuel at owned
  induction fuel generalizing ref with
  | zero => cases owned
  | succ fuel ih =>
    rw [lockOwnerFrom] at owned
    split at owned
    · split at owned <;> exact ih owned
    · split at owned
      next locked =>
        cases owned
        exact Option.isSome_iff_exists.mp locked
      · cases owned

end World

/-- The view that shows all locks. -/
def lockView : View (ObjRef → Mutex) where
  read := World.locks
  create _ _ _ := rfl
  modifyScript w ref f _ := w.modifyScript_locks ref f
  raise _ _ := rfl
  report _ _ := rfl
  print _ _ := rfl

theorem lockView_ofObjects : lockView.OfObjects := ⟨fun _ same => same, World.bindName_locks⟩

theorem lockView_ignoresMembers : lockView.IgnoresMembers := fun w ref _ _ =>
  w.modifyScript_locks ref _

/-! ### Transitions that leave locks alone -/

/-- A transition that leaves all locks as they are, asks for none and leaves none to be
given back. -/
structure LockFree (w : World) (n : Next) : Prop where
  locks : n.world.locks = w.locks
  asks : n.control.isLocking = false
  pushes : n.push.filterMap Cont.lock? = []

namespace LockFree

variable {w : World} {n : Next}

theorem of_spares (spares : lockView.Spares w n) : LockFree w n := by
  have lockless := spares.lockless
  simp only [Next.isLockless, Bool.and_eq_true, Bool.not_eq_true', List.all_eq_true,
    Option.isNone_iff_eq_none] at lockless
  exact ⟨spares.same, lockless.1, List.filterMap_eq_nil_iff.mpr lockless.2⟩

/-- A transition that leaves the world as it is and pushes nothing. -/
theorem still {control : Control} (asks : control.isLocking = false) :
    LockFree w { world := w, control } := ⟨rfl, asks, rfl⟩

end LockFree

theorem dispatch_lockFree (e : Engine) (w : World) (ref : ObjRef) (r : Request) :
    LockFree w (dispatch e w ref r) :=
  .of_spares (dispatch_spares lockView e w ref r (.inl lockView_ignoresMembers)
    (.inl lockView_ofObjects))

theorem resume_lockFree (w : World) (r : Reply) {top : Cont} (other : top.lock? = none) :
    LockFree w (Machine.resume w r top) := by
  cases top with
  | code a await => exact .of_spares (a.resume_spares lockView_ofObjects w r await)
  | _ => exact .of_spares (resume_spares lockView w r rfl other)

/-! ### Running blocks -/

namespace Activation

variable {e : Engine} {w : World} {a : Activation}

/-- What an instruction does takes no lock. -/
def Lockless (action? : Option Action) : Prop := ∀ action ∈ action?, action.lock? = none

theorem Lockless.nothing : Lockless none := fun _ member => absurd member (Option.not_mem_none _)

theorem Lockless.action {action : Action} (lockless : action.lock? = none) :
    Lockless (some action) := by
  rintro _ ⟨⟩
  exact lockless

theorem Lockless.bind {α : Type} {x : Option α} {f : α → Option Action}
    (lockless : ∀ v, Lockless (f v)) : Lockless (x.bind f) := by
  intro action found
  obtain ⟨v, -, found⟩ := Option.bind_eq_some_iff.mp found
  exact lockless v action found

theorem level_lockless {n : UInt32} {action : Action} (found : a.level n = .error action) :
    action.lock? = none := by
  unfold level at found
  split at found <;> cases found
  rfl

/-- Only one instruction takes locks. -/
theorem actionOf_lockless {opcode : Opcode} (other : opcode ≠ .sync) :
    Lockless (a.actionOf e w opcode) := by
  cases opcode with
  | sync => exact absurd rfl other
  | _ =>
    simp only [actionOf, construct, catchBranch, callAction, Option.bind_eq_bind, Option.pure_def]
    repeat' first
      | with_reducible apply Lockless.action
      | with_reducible refine .bind fun _ => ?_
      | split
    all_goals first
      | exact Lockless.nothing
      | exact level_lockless ‹_›
      | rfl

variable (a w)

/-- Carrying out what an instruction does asks for a lock only where the instruction
does. -/
theorem perform_lockFree (e : Engine) {action : Action} (lockless : action.lock? = none) :
    LockFree w (a.perform e w action) :=
  .of_spares (perform_spares lockView_ofObjects w a e lockless)

theorem stop_lockFree (p : Panic) : LockFree w (a.stop w p) :=
  .of_spares (stop_spares lockView_ofObjects w a p)

end Activation
end ScriptEngine
