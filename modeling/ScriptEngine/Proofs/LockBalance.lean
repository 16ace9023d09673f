import ScriptEngine.Proofs.CheckedRun
import ScriptEngine.Proofs.LockFree

/-! Every lock is held as often as synchronised calls on its object are under
way. A stack holds one entry for each lock that is to be given back, right above
the call it was taken for; transitions keep the count, and a call that ends, in
whatever way, leaves the locks as it found them. A thread that holds a lock never
waits for it if the lock is made to be taken again; if not, it waits for ever. -/
namespace ScriptEngine

/-! ### Synchronised calls -/

/-- A synchronised call: the register for its marker, the callee, the value to
synchronise on, flags and arguments, and the place to go on at. -/
structure SyncCall where
  dst : Nat
  fn : Value
  lock : Value
  flags : Flags
  args : List Value
  next : Int

/-- What is asked of the callee. -/
def SyncCall.request (c : SyncCall) : Request :=
  { operation := .call, flags := c.flags, args := c.args }

/-- The object whose lock is held meanwhile, directly or behind proxies. -/
def SyncCall.owner? (c : SyncCall) (w : World) : Option ObjRef := c.lock.object?.bind w.lockOwner?

/-- What a synchronised call does. -/
def SyncCall.action (c : SyncCall) (w : World) : Action :=
  match c.owner? w with
  | some owner => .request c.fn c.request (some owner) (.mark c.dst c.next)
  | none =>
    .markError "IllegalArgumentException" (utf8 c.lock.kind.name ++ utf8 " has no lock") c.dst c.next

namespace Activation

variable {e : Engine} {w : World} {a : Activation}

/-- The operands of a synchronised call, if they are there. -/
def syncCall? (w : World) (a : Activation) : Option SyncCall := do
  let dst ← a.registerNumber? 1
  let fn ← a.register? w 2
  let lock ← a.register? w 3
  let flags ← a.flags? 4
  let (args, n) ← a.list? w 5
  return { dst, fn, lock, flags, args, next := a.after (5 + n) }

theorem action_sync (sync : a.opcode? = some .sync) :
    a.action e w = (a.syncCall? w).map (·.action w) := by
  rw [action_of_opcode? sync]
  simp only [actionOf, syncCall?, Option.bind_eq_bind, Option.pure_def, Option.map_bind,
    Function.comp_def, Option.map_some]
  refine Option.bind_congr fun dst _ => Option.bind_congr fun fn _ => Option.bind_congr fun lock _ =>
    Option.bind_congr fun flags _ => Option.bind_congr fun args _ => ?_
  simp only [SyncCall.action, SyncCall.owner?]
  cases lock.object?.bind w.lockOwner? <;> rfl

theorem action_lockless (other : a.opcode? ≠ some .sync) : Lockless (a.action e w) := by
  unfold action opcode? at *
  split
  · exact .action rfl
  next inside =>
    rw [if_neg inside] at other
    cases first : a.word? 0 with
    | none => exact .nothing
    | some word =>
      simp only [first, Option.bind_some, Option.bind_eq_bind] at other ⊢
      split
      next opcode found => exact actionOf_lockless fun same => other (by rw [found, same])
      · exact .action rfl

/-- A block calls under the lock of an object: so its operands said when it asked for
the lock, directly or behind proxies. -/
def Syncs (a : Activation) (c : SyncCall) (owner : ObjRef) : Prop :=
  a.opcode? = some .sync ∧ ∃ w, a.syncCall? w = some c ∧ c.owner? w = some owner

end Activation

/-! ### What a transition does to locks -/

/-- An answer, or a stop: what a call ends with. -/
def Control.isAnswer : Control → Bool
  | .reply _ | .panic _ => true
  | _ => false

/-- A transition leaves locks alone, or asks for one for a synchronised call, takes it
or waits for it, or gives it back as the call ends. It looks at the top of the stack
only. -/
inductive Locking (thread : Thread) : State → State → Prop
  | stays {w : World} {control : Control} {stack : List Cont} {n : Next} (free : LockFree w n) :
      Locking thread ⟨w, control, stack⟩ ⟨n.world, n.control, n.push ++ stack⟩
  | pops {w : World} {control : Control} {top : Cont} {rest : List Cont} {n : Next}
      (other : top.lock? = none) (free : LockFree w n) :
      Locking thread ⟨w, control, top :: rest⟩ ⟨n.world, n.control, n.push ++ rest⟩
  | asks {w : World} {a : Activation} {stack : List Cont} {c : SyncCall} {owner : ObjRef}
      (syncs : a.Syncs c owner) :
      Locking thread ⟨w, .code a, stack⟩
        ⟨w, .lock owner c.fn c.request, .code a (.mark c.dst c.next) :: stack⟩
  | takes {w : World} {owner : ObjRef} {target : Value} {r : Request} {stack : List Cont}
      {kind : LockKind} {m : Mutex} (taken : (w.locks owner).take? kind thread = some m) :
      Locking thread ⟨w, .lock owner target r, stack⟩
        ⟨w.setLock owner m, .operate target r, .unlock owner :: stack⟩
  | waits {w : World} {owner : ObjRef} {target : Value} {r : Request} {stack : List Cont} :
      Locking thread ⟨w, .lock owner target r, stack⟩ ⟨w, .lock owner target r, stack⟩
  | unlocks {w : World} {control : Control} {owner : ObjRef} {rest : List Cont}
      (ended : control.isAnswer = true) :
      Locking thread ⟨w, control, .unlock owner :: rest⟩ ⟨w.unlock owner, control, rest⟩

namespace Machine

variable {e : Engine} {w : World} {a : Activation} {c : SyncCall} {owner : ObjRef}
  {stack : List Cont}

theorem step_sync (sync : a.opcode? = some .sync) (called : a.syncCall? w = some c) :
    step e ⟨w, .code a, stack⟩ =
      let n := a.perform e w (c.action w)
      ⟨n.world, n.control, n.push ++ stack⟩ := by
  have action : a.action e w = some (c.action w) := by rw [a.action_sync sync, called]; rfl
  simp only [step, advance, Activation.advance, action]

/-- A synchronised call on an object with a lock asks for the lock. -/
theorem step_sync_asks (sync : a.opcode? = some .sync) (called : a.syncCall? w = some c)
    (owned : c.owner? w = some owner) :
    step e ⟨w, .code a, stack⟩ =
      ⟨w, .lock owner c.fn c.request, .code a (.mark c.dst c.next) :: stack⟩ := by
  simp only [step_sync sync called, SyncCall.action, owned]
  rfl

/-- A lock that can be had is taken, and the call goes on. -/
theorem step_lock_takes {target : Value} {r : Request} {w' : World}
    (locked : w.lock? e.thread owner = some w') :
    step e ⟨w, .lock owner target r, stack⟩ = ⟨w', .operate target r, .unlock owner :: stack⟩ := by
  simp only [step, advance, acquire, locked]
  rfl

/-- A thread that has to wait for a lock does nothing else. -/
theorem step_lock_waits {target : Value} {r : Request} (busy : w.lock? e.thread owner = none) :
    step e ⟨w, .lock owner target r, stack⟩ = ⟨w, .lock owner target r, stack⟩ := by
  simp only [step, advance, acquire, busy]
  rfl

theorem step_locking (e : Engine) (s : State) : Locking e.thread s (step e s) := by
  obtain ⟨w, control, stack⟩ := s
  cases control with
  | reply r =>
    cases stack with
    | nil => exact .stays (n := ⟨w, .reply r, []⟩) (.still rfl)
    | cons top rest =>
      cases held : top.lock? with
      | none => exact .pops held (resume_lockFree w r held)
      | some owner =>
        cases top <;> cases held
        exact .unlocks rfl
  | panic p =>
    cases stack with
    | nil => exact .stays (n := ⟨w, .panic p, []⟩) (.still rfl)
    | cons top rest =>
      cases top with
      | unlock owner => exact .unlocks rfl
      | code a await =>
        exact .pops (n := ⟨w.releaseChain a.owned, .panic p, []⟩) rfl ⟨rfl, rfl, rfl⟩
      | _ => exact .pops (n := ⟨w, .panic p, []⟩) rfl (.still rfl)
  | operate target r => exact .stays (.of_spares (operate_spares lockView e w target r))
  | lock owner target r =>
    cases locked : w.lock? e.thread owner with
    | none =>
      rw [step_lock_waits locked]
      exact .waits
    | some w' =>
      obtain ⟨kind, m, -, taken, rfl⟩ := World.lock?_eq_some locked
      rw [step_lock_takes locked]
      exact .takes taken
  | dispatch ref r => exact .stays (dispatch_lockFree e w ref r)
  | host action => exact .stays (.of_spares (hostStep_spares lockView w action))
  | execute block inv completion =>
    cases block with
    | none => exact .stays (n := .panic w .invalidAccess) (.still rfl)
    | some block => exact .stays (.of_spares (enter_spares lockView_ofObjects w block inv completion))
  | code a =>
    by_cases sync : a.opcode? = some .sync
    · cases called : a.syncCall? w with
      | none =>
        have action : a.action e w = none := by rw [a.action_sync sync, called]; rfl
        simp only [step, advance, Activation.advance, action]
        exact .stays (a.stop_lockFree w .invalidAccess)
      | some c =>
        cases owned : c.owner? w with
        | some owner =>
          rw [step_sync_asks sync called owned]
          exact .asks ⟨sync, w, called, owned⟩
        | none =>
          rw [step_sync sync called]
          exact .stays (a.perform_lockFree w e (by simp [SyncCall.action, owned, Action.lock?]))
    · have lockless := a.action_lockless (e := e) (w := w) sync
      simp only [step, advance, Activation.advance]
      cases action : a.action e w with
      | none => exact .stays (a.stop_lockFree w .invalidAccess)
      | some action => exact .stays (a.perform_lockFree w e (lockless _ ‹_›))

end Machine

/-! ### Balance -/

/-- The objects whose locks are to be given back, one for each synchronised call
under way, the innermost first. -/
def syncOwners (stack : List Cont) : List ObjRef := stack.filterMap Cont.lock?

/-- Every lock that is to be given back is that of a synchronised call, which
waits right below. -/
inductive Attended : List Cont → Prop
  | empty : Attended []
  | call {owner : ObjRef} {a : Activation} {c : SyncCall} {rest : List Cont}
      (syncs : a.Syncs c owner) (below : Attended rest) :
      Attended (.unlock owner :: .code a (.mark c.dst c.next) :: rest)
  | other {c : Cont} {rest : List Cont} (other : c.lock? = none) (below : Attended rest) :
      Attended (c :: rest)

theorem Attended.tail {c : Cont} {rest : List Cont} (attended : Attended (c :: rest)) :
    Attended rest := by
  cases attended with
  | call _ below => exact .other rfl below
  | other _ below => exact below

theorem Attended.push {push rest : List Cont} (free : syncOwners push = [])
    (attended : Attended rest) : Attended (push ++ rest) := by
  induction push with
  | nil => exact attended
  | cons c push ih =>
    obtain ⟨other, free⟩ : c.lock? = none ∧ syncOwners push = [] := by
      cases held : c.lock? <;> simp [syncOwners, held] at free ⊢
      exact free
    exact .other other (ih free)

/-- Every lock is held as often as synchronised calls under way hold it, and by the one
thread that there is. A lock that is asked for is asked for by such a call. -/
structure State.LocksBalance (thread : Thread) (s : State) : Prop where
  attended : Attended s.stack
  asking : ∀ owner target r, s.control = .lock owner target r → Attended (.unlock owner :: s.stack)
  locks : ∀ ref, s.world.locks ref = .heldBy thread ((syncOwners s.stack).count ref)

theorem State.LocksBalance.depth {thread : Thread} {s : State} (balance : s.LocksBalance thread)
    (ref : ObjRef) : (s.world.locks ref).depth = (syncOwners s.stack).count ref := by
  rw [balance.locks, Mutex.heldBy_depth]

theorem syncOwners_append (above below : List Cont) :
    syncOwners (above ++ below) = syncOwners above ++ syncOwners below := List.filterMap_append

theorem syncOwners_unlock (owner : ObjRef) (rest : List Cont) :
    syncOwners (.unlock owner :: rest) = owner :: syncOwners rest := rfl

theorem syncOwners_other {c : Cont} (other : c.lock? = none) (rest : List Cont) :
    syncOwners (c :: rest) = syncOwners rest := List.filterMap_cons_none other

theorem LockFree.asking {w : World} {n : Next} (free : LockFree w n) {owner : ObjRef}
    {target : Value} {r : Request} : n.control ≠ .lock owner target r := by
  intro locking
  have asks := free.asks
  rw [locking] at asks
  cases asks

theorem Locking.balance {thread : Thread} {s s' : State} (locking : Locking thread s s')
    (balance : s.LocksBalance thread) : s'.LocksBalance thread := by
  obtain ⟨attended, asking, locks⟩ := balance
  cases locking with
  | stays free =>
    refine ⟨attended.push free.pushes, fun _ _ _ asks => absurd asks free.asking, fun ref => ?_⟩
    rw [free.locks, syncOwners_append, syncOwners, free.pushes]
    exact locks ref
  | pops other free =>
    refine ⟨attended.tail.push free.pushes, fun _ _ _ asks => absurd asks free.asking, fun ref => ?_⟩
    rw [free.locks, syncOwners_append, syncOwners, free.pushes]
    simpa only [syncOwners_other other, List.nil_append] using locks ref
  | asks syncs =>
    refine ⟨.other rfl attended, ?_, locks⟩
    rintro _ _ _ ⟨⟩
    exact .call syncs attended
  | @takes w owner target r stack kind m taken =>
    refine ⟨asking _ _ _ rfl, by rintro _ _ _ ⟨⟩, fun ref => ?_⟩
    simp only [World.setLock, syncOwners_unlock, List.count_cons, beq_iff_eq]
    by_cases here : owner = ref
    · subst here
      have before : w.locks owner = _ := locks owner
      rw [if_pos rfl, if_pos rfl]
      rw [before] at taken
      exact Mutex.take?_heldBy taken
    · rw [if_neg here, if_neg here]
      exact locks ref
  | waits => exact ⟨attended, asking, locks⟩
  | @unlocks w control owner rest ended =>
    refine ⟨attended.tail, fun _ _ _ asks => ?_, fun ref => ?_⟩
    · cases asks
      cases ended
    · have before : w.locks ref = _ := locks ref
      simp only [syncOwners_unlock, List.count_cons, beq_iff_eq] at before
      simp only [World.unlock, World.setLock]
      by_cases here : owner = ref
      · subst here
        rw [if_pos rfl, before, if_pos rfl]
        exact Mutex.release_heldBy
      · rw [if_neg here, before, if_neg here, Nat.add_zero]

/-! ### Executions in one thread -/

theorem State.stack_of_isFinal {s : State} (rests : s.isFinal = true) : s.stack = [] := by
  obtain ⟨w, control, stack⟩ := s
  cases control <;> cases stack <;> first | rfl | cases rests

/-- One step of an execution in a single thread whose host takes no lock: a
transition, something that the host begins when nothing runs, or a change that it
makes to the world. Prototypes may be registered in between, so that transitions
need not be of one engine. -/
inductive Solo (thread : Thread) : State → State → Prop
  | runs (e : Engine) (s : State) (own : e.thread = thread) : Solo thread s (Machine.step e s)
  | begins {s : State} (rests : s.isFinal = true) (control : Control)
      (lockless : control.isLocking = false) : Solo thread s ⟨s.world, control, []⟩
  | changes {s : State} {w : World} (unlocked : w.locks = s.world.locks) :
      Solo thread s { s with world := w }

/-- The states of executions that begin with all locks free. -/
def State.Unaided (thread : Thread) (s : State) : Prop :=
  ∃ w : World, (∀ ref, w.locks ref = {}) ∧
    Relation.ReflTransGen (Solo thread) ⟨w, .reply (.done none), []⟩ s

/-- The executions from a state on while what waits there goes on waiting. -/
def State.Outlasts (thread : Thread) (s t : State) : Prop :=
  Relation.ReflTransGen (fun t t' => Solo thread t t' ∧ s.stack.length ≤ t'.stack.length) s t

section Executions

variable {thread : Thread} {s s' t : State}

theorem Solo.balance (solo : Solo thread s s') (balance : s.LocksBalance thread) :
    s'.LocksBalance thread := by
  cases solo with
  | runs e _ own =>
    subst own
    exact (Machine.step_locking e s).balance balance
  | begins rests control lockless =>
    have locks := balance.locks
    rw [State.stack_of_isFinal rests] at locks
    refine ⟨.empty, ?_, locks⟩
    rintro owner target r rfl
    cases lockless
  | changes unlocked => exact ⟨balance.attended, balance.asking, unlocked ▸ balance.locks⟩

/-- A synchronised call goes on, whatever is done above it, until there is an
answer for it. -/
theorem Solo.above_lock (solo : Solo thread s s') {above rest : List Cont} {owner : ObjRef}
    (stacked : s.stack = above ++ .unlock owner :: rest) :
    (∃ above', s'.stack = above' ++ .unlock owner :: rest) ∨
      above = [] ∧ s'.stack = rest ∧ s'.control = s.control ∧ s.control.isAnswer = true := by
  cases solo with
  | changes => exact .inl ⟨above, stacked⟩
  | begins rests =>
    rw [State.stack_of_isFinal rests] at stacked
    simp at stacked
  | runs e =>
    have locking := Machine.step_locking e s
    generalize Machine.step e s = s' at locking ⊢
    cases locking with
    | @stays w control stack n =>
      subst stacked
      exact .inl ⟨n.push ++ above, (List.append_assoc ..).symm⟩
    | @pops w control top rest n other =>
      cases above with
      | nil =>
        cases stacked
        cases other
      | cons c above =>
        cases stacked
        exact .inl ⟨n.push ++ above, (List.append_assoc ..).symm⟩
    | @asks w a stack c =>
      subst stacked
      exact .inl ⟨.code a (.mark c.dst c.next) :: above, rfl⟩
    | @takes w owner =>
      subst stacked
      exact .inl ⟨.unlock owner :: above, rfl⟩
    | waits => exact .inl ⟨above, stacked⟩
    | unlocks ended =>
      cases above with
      | nil =>
        cases stacked
        exact .inr ⟨rfl, rfl, rfl, ended⟩
      | cons c above =>
        cases stacked
        exact .inl ⟨above, rfl⟩

theorem State.Unaided.balance (unaided : s.Unaided thread) : s.LocksBalance thread := by
  obtain ⟨w, free, solo⟩ := unaided
  induction solo with
  | refl => exact ⟨.empty, by rintro _ _ _ ⟨⟩, free⟩
  | tail _ last ih => exact last.balance ih

theorem State.Outlasts.above_lock (outlasts : s.Outlasts thread t) {rest : List Cont}
    {owner : ObjRef} (stacked : s.stack = .unlock owner :: rest) :
    ∃ above, t.stack = above ++ .unlock owner :: rest := by
  induction outlasts with
  | refl => exact ⟨[], stacked⟩
  | tail _ last ih =>
    obtain ⟨above, held⟩ := ih
    obtain ⟨solo, waits⟩ := last
    rcases solo.above_lock held with goesOn | ⟨-, popped, -⟩
    · exact goesOn
    · rw [stacked, popped] at waits
      exact absurd waits (by simp)

theorem State.Outlasts.balance (outlasts : s.Outlasts thread t) (balance : s.LocksBalance thread) :
    t.LocksBalance thread := by
  induction outlasts with
  | refl => exact balance
  | tail _ last ih => exact last.1.balance ih

end Executions

/-! ### Synchronised calls from their beginning to their end -/

/-- A synchronised call that gets its lock: the callee is asked right after the lock,
without a wait. While the call lasts the lock is held once more than before, apart from
synchronised calls that are begun meanwhile; once there is an answer for it, whichever,
all locks are as they were. -/
structure State.Synchronizes (e : Engine) (s : State) (a : Activation) (c : SyncCall)
    (owner : ObjRef) : Prop where
  asks : (Machine.run e 2 s).control = .operate c.fn c.request
  holds : (Machine.run e 2 s).world.locks owner =
    { holder := some e.thread, depth := (s.world.locks owner).depth + 1 }
  during : ∀ t, (Machine.run e 2 s).Outlasts e.thread t →
    ∃ above, t.stack = above ++ .unlock owner :: .code a (.mark c.dst c.next) :: s.stack ∧
      ∀ ref, (t.world.locks ref).depth =
        (s.world.locks ref).depth + (if owner = ref then 1 else 0) + (syncOwners above).count ref
  after : ∀ t t', (Machine.run e 2 s).Outlasts e.thread t → Solo e.thread t t' →
    t'.stack.length < (Machine.run e 2 s).stack.length →
    t'.stack = .code a (.mark c.dst c.next) :: s.stack ∧ t'.control = t.control ∧
      t.control.isAnswer = true ∧ ∀ ref, t'.world.locks ref = s.world.locks ref

/-- A synchronised call whose lock the thread cannot have, for it holds the lock itself:
nothing is asked, and there is no end to the wait. -/
def State.WaitsForEver (e : Engine) (s : State) (a : Activation) (c : SyncCall)
    (owner : ObjRef) : Prop :=
  ∀ n, Machine.run e (n + 1) s =
    ⟨s.world, .lock owner c.fn c.request, .code a (.mark c.dst c.next) :: s.stack⟩

/-- A synchronised call on a value without a lock. No lock is touched, nothing is
asked, and the marker is that of an exception, if there is a register for it. -/
structure State.RefusesSync (e : Engine) (s : State) (a : Activation) (c : SyncCall) : Prop where
  locks : (Machine.step e s).world.locks = s.world.locks
  waits : (Machine.step e s).stack = s.stack
  marks : c.dst < (s.world.registers a.frame).size →
    (Machine.step e s).control = .code { a with ip := c.next } ∧
      ∃ marker fault exception message,
        ((Machine.step e s).world.registers a.frame)[c.dst]? = some (.object marker none) ∧
        (Machine.step e s).world.heap[marker]? =
          some (.marker (some fault) (.object exception none)) ∧
        (Machine.step e s).world.heap[exception]? =
          some (.error (utf8 "IllegalArgumentException") message)
  stops : (s.world.registers a.frame).size ≤ c.dst →
    (Machine.step e s).control = .panic .invalidAccess

/-- The synchronised call that a state is about to make, and the block that makes
it. -/
def State.syncCall? (s : State) : Option (Activation × SyncCall) :=
  match s.control with
  | .code a => if a.opcode? = some .sync then (a.syncCall? s.world).map (a, ·) else none
  | _ => none

section Calls

variable {e : Engine} {s : State} {a : Activation} {c : SyncCall} {owner : ObjRef}

theorem State.syncCall?_eq_some (calls : s.syncCall? = some (a, c)) :
    s.control = .code a ∧ a.opcode? = some .sync ∧ a.syncCall? s.world = some c := by
  unfold syncCall? at calls
  split at calls
  next b runs =>
    split at calls
    next sync =>
      obtain ⟨_, called, ⟨⟩⟩ := Option.map_eq_some_iff.mp calls
      exact ⟨runs, sync, called⟩
    · cases calls
  · cases calls

namespace State.LocksBalance

/-- A stack says how often every lock is held. -/
theorem depth_above {thread : Thread} {t : State} {above : List Cont} {await : Await}
    (balance : s.LocksBalance thread) (later : t.LocksBalance thread)
    (stacked : t.stack = above ++ .unlock owner :: .code a await :: s.stack) (ref : ObjRef) :
    (t.world.locks ref).depth =
      (s.world.locks ref).depth + (if owner = ref then 1 else 0) + (syncOwners above).count ref := by
  rw [later.depth, balance.depth, stacked, syncOwners_append, syncOwners_unlock,
    syncOwners_other rfl, List.count_append, List.count_cons]
  simp only [beq_iff_eq]
  omega

/-- A lock can be had that may be taken again, or that no call holds. -/
theorem lock?_isSome {thread : Thread} (balance : s.LocksBalance thread) {kind : LockKind}
    (owned : s.world.lockKind? owner = some kind)
    (free : kind = .reentrant ∨ owner ∉ syncOwners s.stack) :
    ∃ w, s.world.lock? thread owner = some w := by
  have taken : ∃ m, (s.world.locks owner).take? kind thread = some m := by
    rw [balance.locks]
    rcases free with rfl | unheld
    · exact ⟨_, Mutex.take?_reentrant⟩
    · rw [List.count_eq_zero_of_not_mem unheld]
      exact ⟨_, Mutex.take?_free⟩
  obtain ⟨m, taken⟩ := taken
  refine ⟨s.world.setLock owner m, ?_⟩
  simp only [World.lock?, owned, taken, Option.bind_eq_bind, Option.bind_some, Option.pure_def]

theorem synchronizes (balance : s.LocksBalance e.thread) (calls : s.syncCall? = some (a, c))
    (owned : c.owner? s.world = some owner) {kind : LockKind}
    (locked : s.world.lockKind? owner = some kind)
    (free : kind = .reentrant ∨ owner ∉ syncOwners s.stack) : s.Synchronizes e a c owner := by
  obtain ⟨w', had⟩ := balance.lock?_isSome locked free
  obtain ⟨w, _, stack⟩ := s
  obtain ⟨rfl, sync, called⟩ := State.syncCall?_eq_some calls
  have begun : Machine.run e 2 ⟨w, .code a, stack⟩ = ⟨w', .operate c.fn c.request,
      .unlock owner :: .code a (.mark c.dst c.next) :: stack⟩ := by
    rw [Machine.run_step, Machine.step_sync_asks sync called owned, Machine.run_step,
      Machine.step_lock_takes had]
    rfl
  have started : (Machine.run e 2 ⟨w, .code a, stack⟩).LocksBalance e.thread := by
    rw [Machine.run_succ, Machine.run_succ]
    exact (Machine.step_locking e _).balance ((Machine.step_locking e _).balance balance)
  have stacked : (Machine.run e 2 ⟨w, .code a, stack⟩).stack =
      .unlock owner :: .code a (.mark c.dst c.next) :: stack := by rw [begun]
  refine ⟨by rw [begun], ?_, fun t outlasts => ?_, fun t t' outlasts solo ends => ?_⟩
  · rw [started.locks, balance.depth, stacked, syncOwners_unlock, List.count_cons_self]
    rfl
  · obtain ⟨above, held⟩ := outlasts.above_lock stacked
    exact ⟨above, held, balance.depth_above (outlasts.balance started) held⟩
  · obtain ⟨above, held⟩ := outlasts.above_lock stacked
    have ended := solo.balance (outlasts.balance started)
    rcases solo.above_lock held with ⟨above', goesOn⟩ | ⟨rfl, popped, same, answer⟩
    · rw [goesOn, stacked] at ends
      simp only [List.length_append, List.length_cons] at ends
      omega
    refine ⟨popped, same, answer, fun ref => ?_⟩
    rw [ended.locks, popped, syncOwners_other rfl]
    exact (balance.locks ref).symm

theorem waitsForEver (balance : s.LocksBalance e.thread) (calls : s.syncCall? = some (a, c))
    (owned : c.owner? s.world = some owner) (plain : s.world.lockKind? owner = some .plain)
    (nested : owner ∈ syncOwners s.stack) : s.WaitsForEver e a c owner := by
  have busy : s.world.lock? e.thread owner = none := by
    obtain ⟨depth, held⟩ := Nat.exists_eq_add_one_of_ne_zero
      (Nat.ne_of_gt (List.count_pos_iff.mpr nested))
    simp only [World.lock?, plain, balance.locks, held, Mutex.take?_plain, Option.bind_eq_bind,
      Option.bind_some, Option.bind_none]
  obtain ⟨w, _, stack⟩ := s
  obtain ⟨rfl, sync, called⟩ := State.syncCall?_eq_some calls
  intro n
  induction n with
  | zero => exact Machine.step_sync_asks sync called owned
  | succ n ih =>
    rw [Machine.run_succ, ih]
    exact Machine.step_lock_waits busy

end State.LocksBalance

theorem Activation.mark_push (w : World) (result : Value) (fault : Option Fault) (dst : Nat)
    (next : Int) : (a.mark w result fault dst next).push = [] := by
  cases fault <;> simp only [mark, assign] <;> split <;> rfl

/-- The marker of a call that an exception kept from happening. -/
theorem Activation.perform_markError {w : World} {dst : Nat} (className : String) (message : Text)
    (next : Int) (inside : dst < (w.registers a.frame).size) :
    ∃ marked : World, ∃ fault,
      a.perform e w (.markError className message dst next) =
        a.goto (marked.setRegister a.frame dst (.object (w.heap.size + 1) none)) next ∧
      dst < (marked.registers a.frame).size ∧
      marked.heap[w.heap.size + 1]? = some (.marker (some fault) (.object w.heap.size none)) ∧
      marked.heap[w.heap.size]? = some (.error (utf8 className) message) := by
  let raised := w.throwException className message
  have value : raised.1.faultValue raised.2 = .object w.heap.size none := by
    simp [raised, World.throwException, World.raise, World.faultValue, World.signal?, Fault.signal?,
      World.create, Signal.value]
  have size : raised.1.heap.size = w.heap.size + 1 := Array.size_push _
  refine ⟨(raised.1.create (.marker (some raised.2) (.object w.heap.size none))).1, raised.2,
    ?_, inside, ?_, ?_⟩
  · rw [← value, ← size]
    exact if_pos inside
  · rw [← size]
    exact Array.getElem?_push_size
  · have before : w.heap.size ≠ raised.1.heap.size := by omega
    exact (Array.getElem?_push.trans (if_neg before)).trans Array.getElem?_push_size

/-- Without a register for the marker nothing is marked. -/
theorem Activation.perform_markError_stops {w : World} {dst : Nat} (className : String)
    (message : Text) (next : Int) (outside : (w.registers a.frame).size ≤ dst) :
    (a.perform e w (.markError className message dst next)).control = .panic .invalidAccess := by
  have absent : ¬dst < (w.registers a.frame).size := Nat.not_lt.mpr outside
  have stops : ∀ (w' : World) v, w'.registers a.frame = w.registers a.frame →
      (a.assign w' (some dst) v next).control = .panic .invalidAccess := by
    intro w' v same
    rw [assign, same, if_neg absent]
    rfl
  exact stops _ _ rfl

theorem State.refusesSync (calls : s.syncCall? = some (a, c)) (lockless : c.owner? s.world = none) :
    s.RefusesSync e a c := by
  obtain ⟨w, _, stack⟩ := s
  obtain ⟨rfl, sync, called⟩ := State.syncCall?_eq_some calls
  have begun : Machine.step e ⟨w, .code a, stack⟩ = _ := Machine.step_sync sync called
  have action : c.action w = .markError "IllegalArgumentException"
      (utf8 c.lock.kind.name ++ utf8 " has no lock") c.dst c.next := by
    simp only [SyncCall.action, lockless]
  have free : LockFree w (a.perform e w (c.action w)) := a.perform_lockFree w e (by rw [action]; rfl)
  refine ⟨?_, ?_, fun inside => ?_, fun outside => ?_⟩
  · rw [begun]
    exact free.locks
  · rw [begun, action]
    exact congrArg (· ++ stack) (a.mark_push ..)
  · obtain ⟨marked, fault, performed, inside, marker, exception⟩ :=
      a.perform_markError (e := e) "IllegalArgumentException"
        (utf8 c.lock.kind.name ++ utf8 " has no lock") c.next inside
    rw [begun, action, performed]
    exact ⟨rfl, _, fault, _, _, World.setRegister_self inside _, marker, exception⟩
  · rw [begun, action]
    exact a.perform_markError_stops _ _ _ outside

end Calls

/-- Locks in every execution of a single thread whose host takes none. At every
moment a lock is held as often as synchronised calls on it are under way, and so
not at all when nothing runs. A synchronised call on an object with a lock, or on
a proxy for one, never waits if the lock may be taken again, as that of every
script object may, or if the call is not within another one on the object; it
holds the lock until it ends, in whatever way. Within another call on an object
whose lock may not be taken again it waits for ever. On any other value it
touches no lock and gives the marker of an exception, if there is a register for
it. -/
theorem locks_held_by_calls {thread : Thread} {s : State} (unaided : s.Unaided thread) :
    s.LocksBalance thread ∧ (s.isFinal = true → ∀ ref, s.world.locks ref = {}) ∧
    ∀ (e : Engine) (a : Activation) (c : SyncCall), e.thread = thread →
      s.syncCall? = some (a, c) →
      match c.owner? s.world with
      | some owner => ∃ kind, s.world.lockKind? owner = some kind ∧
          (∀ o, s.world.heap[owner]? = some (.script o) → kind = .reentrant) ∧
          (kind = .reentrant ∨ owner ∉ syncOwners s.stack → s.Synchronizes e a c owner) ∧
          (kind = .plain ∧ owner ∈ syncOwners s.stack → s.WaitsForEver e a c owner)
      | none => s.RefusesSync e a c := by
  have balance := unaided.balance
  refine ⟨balance, fun rests ref => ?_, fun e a c own calls => ?_⟩
  · rw [balance.locks, State.stack_of_isFinal rests]
    rfl
  · subst own
    split
    next owner owned =>
      obtain ⟨_, -, stands⟩ := Option.bind_eq_some_iff.mp owned
      obtain ⟨kind, locked⟩ := World.lockOwner?_lockKind? stands
      refine ⟨kind, locked, fun o script => ?_, balance.synchronizes calls owned locked, ?_⟩
      · rw [World.lockKind?, script] at locked
        exact (Option.some.inj locked).symm
      · rintro ⟨rfl, nested⟩
        exact balance.waitsForEver calls owned locked nested
    next lockless => exact State.refusesSync calls lockless

/-- A block that synchronises on a new object and calls a closure in the context
of the object; the closure synchronises on a proxy for it. The block then
synchronises on the closure, which has no lock. -/
def nestedSync : CodeBlock :=
  { code? := some
      #[7, 0, 22, 1, 0, 68, 1, 1, 0, 28, 2, 1, 0, 0, 0, 28, 2, 1, 1, 0, 0, 33, 2], registers := 3
    blocks := [some
      { code? := some #[4, 0, 22, 1, 0, 28, 2, 1, 0, 0, 0, 33, 2], registers := 3
        blocks := [some { code? := some #[33, 0], registers := 1 }] }] }

/-- The block after so many transitions. -/
def nestedSyncRun (n : Nat) : State :=
  Machine.run Machine.plainEngine n ⟨{}, .execute (some nestedSync) {} .result, []⟩

theorem run_unaided {w : World} (free : ∀ ref, w.locks ref = {}) (block : CodeBlock)
    (inv : Invocation) (n : Nat) :
    (Machine.run Machine.plainEngine n ⟨w, .execute (some block) inv .result, []⟩).Unaided 0 := by
  refine ⟨w, free, ?_⟩
  induction n with
  | zero => exact .single (.begins rfl _ rfl)
  | succ n ih =>
    rw [Machine.run_succ]
    exact ih.tail (.runs _ _ rfl)

theorem nestedSyncRun_unaided (n : Nat) : (nestedSyncRun n).Unaided 0 :=
  run_unaided (fun _ => rfl) nestedSync {} n

/-- The lock is held twice in the innermost call, which the outer one did not keep
waiting, and not at all in the end. -/
theorem nestedSync_locks :
    ((nestedSyncRun 16).world.locks 0).depth = 2 ∧
    (0 ∈ syncOwners (nestedSyncRun 11).stack ∧ ∃ a c, (nestedSyncRun 11).syncCall? = some (a, c) ∧
      (nestedSyncRun 11).Synchronizes Machine.plainEngine a c 0) ∧
    (∃ a c, (nestedSyncRun 22).syncCall? = some (a, c) ∧
      (nestedSyncRun 22).RefusesSync Machine.plainEngine a c) ∧
    ∀ ref, (nestedSyncRun 24).world.locks ref = {} := by
  refine ⟨?_, ⟨by decide +kernel, ?_⟩, ?_, ?_⟩
  · rw [(locks_held_by_calls (nestedSyncRun_unaided 16)).1.depth]
    decide +kernel
  · have proxied : (nestedSyncRun 11).syncCall?.map
        (fun call => call.2.owner? (nestedSyncRun 11).world) = some (some 0) := by decide +kernel
    have script : (nestedSyncRun 11).world.lockKind? 0 = some .reentrant := by decide +kernel
    obtain ⟨⟨a, c⟩, calls, owned⟩ := Option.map_eq_some_iff.mp proxied
    have holds := (locks_held_by_calls (nestedSyncRun_unaided 11)).2.2 Machine.plainEngine a c rfl calls
    rw [owned] at holds
    obtain ⟨kind, locked, -, goesOn, -⟩ := holds
    cases script.symm.trans locked
    exact ⟨a, c, calls, goesOn (.inl rfl)⟩
  · have closure : (nestedSyncRun 22).syncCall?.map
        (fun call => call.2.owner? (nestedSyncRun 22).world) = some none := by decide +kernel
    obtain ⟨⟨a, c⟩, calls, lockless⟩ := Option.map_eq_some_iff.mp closure
    have refused :=
      (locks_held_by_calls (nestedSyncRun_unaided 22)).2.2 Machine.plainEngine a c rfl calls
    rw [lockless] at refused
    exact ⟨a, c, calls, refused⟩
  · exact (locks_held_by_calls (nestedSyncRun_unaided 24)).2.1 (by decide +kernel)

/-- An object of the host with a lock that may not be taken again. -/
def latch : Object :=
  .host { typeName := "latch", answer := fun _ => .refused .memberNotFound, locker := some (some .plain) }

/-- A block that synchronises on its receiver and calls a closure in the context of the
receiver; the closure synchronises on it again. -/
def relocking : CodeBlock :=
  { code? := some #[3, 0, 22, 1, 0, 68, 1, 1, 0, 28, 2, 1, 0, 0, 0, 33, 2], registers := 3
    blocks := [some
      { code? := some #[3, 0, 22, 1, 0, 28, 2, 1, 0, 0, 0, 33, 2], registers := 3
        blocks := [some { code? := some #[33, 0], registers := 1 }] }] }

/-- The block on that object after so many transitions. -/
def relockingRun (n : Nat) : State :=
  Machine.run Machine.plainEngine n
    ⟨{ heap := #[latch] }, .execute (some relocking) { this := .object 0 none } .result, []⟩

/-- A block that synchronises on nothing and has no register for the marker. -/
def unmarkedSync : CodeBlock := { code? := some #[28, 2, 0, 1, 0, 0], registers := 2 }

def unmarkedSyncRun (n : Nat) : State :=
  Machine.run Machine.plainEngine n ⟨{}, .execute (some unmarkedSync) {} .result, []⟩

/-- The inner of two synchronised calls on one object can wait for ever, and a
synchronised call on a value without a lock can stop instead of giving a marker. -/
theorem relocking_waits :
    ((relockingRun 11).Unaided 0 ∧ 0 ∈ syncOwners (relockingRun 11).stack ∧
      ∃ a c, (relockingRun 11).syncCall? = some (a, c) ∧ c.owner? (relockingRun 11).world = some 0 ∧
        (relockingRun 11).WaitsForEver Machine.plainEngine a c 0) ∧
    (unmarkedSyncRun 1).Unaided 0 ∧
      ∃ a c, (unmarkedSyncRun 1).syncCall? = some (a, c) ∧ c.owner? (unmarkedSyncRun 1).world = none ∧
        (unmarkedSyncRun 2).control = .panic .invalidAccess := by
  have unaided : (relockingRun 11).Unaided 0 := run_unaided (fun _ => rfl) relocking _ 11
  have nested : 0 ∈ syncOwners (relockingRun 11).stack := by decide +kernel
  have plain : (relockingRun 11).world.lockKind? 0 = some .plain := by decide +kernel
  have inner : (relockingRun 11).syncCall?.map
      (fun call => call.2.owner? (relockingRun 11).world) = some (some 0) := by decide +kernel
  have unlocked : (unmarkedSyncRun 1).syncCall?.map
      (fun call => call.2.owner? (unmarkedSyncRun 1).world) = some none := by decide +kernel
  obtain ⟨⟨a, c⟩, calls, owned⟩ := Option.map_eq_some_iff.mp inner
  obtain ⟨⟨b, d⟩, asks, lockless⟩ := Option.map_eq_some_iff.mp unlocked
  exact ⟨⟨unaided, nested, a, c, calls, owned, unaided.balance.waitsForEver calls owned plain nested⟩,
    run_unaided (fun _ => rfl) unmarkedSync {} 1, b, d, asks, lockless, rfl⟩

end ScriptEngine
