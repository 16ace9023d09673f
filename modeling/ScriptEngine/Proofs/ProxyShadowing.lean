import ScriptEngine.Proofs.MemberWrites
import ScriptEngine.Proofs.Settling

/-! Two objects that look like one. A proxy asks its first object and turns to the
second if that declines, which means: if the outcome is that a member is not found,
whatever it was that was not found. A script object that finds the member can still
decline: the attributes it is to set are not its own, or the value of the member is asked
and declines in turn. In all other cases the proxy behaves as its first object does. -/
namespace ScriptEngine

open World Machine

variable {e : Engine} {w w' : World} {ref holder : ObjRef} {o : ScriptObject} {r q : Request}
  {key : Text} {m : Member} {stack : List Cont} {t u : State} {c : Cont}

/-! ### Requests for members -/

/-- The key of the member that a request to a script object is about. -/
def Request.Names (w : World) (r : Request) (key : Text) : Prop :=
  match r.operation with
  | .iget | .iset => w.textOf (r.arg 0) = some key
  | .other _ => False
  | _ => r.name = key

/-- The read that a call of a member begins with. -/
def Request.reading (r : Request) : Request :=
  { operation := .dget, name := r.name, flags := r.flags, this := r.this }

/-- The call of what was read. -/
def Request.calling (r : Request) (ref : ObjRef) : Request :=
  { r with name := [], this := r.receiver ref }

/-- What the value of a member is asked, if the object that was asked for the member
leaves the answer to it. -/
def Member.consults (m : Member) (ref : ObjRef) (r : Request) : Option Request :=
  match r.operation with
  | .dget | .iget =>
    if m.diverts r then some { operation := .dget, flags := r.flags, this := r.receiver ref }
    else none
  | .dset | .iset =>
    if m.diverts r then
      some { operation := .dset, flags := r.flags, args := [r.lastArg], this := r.receiver ref,
             wantsResult := false }
    else none
  | .new => some { r with name := [], this := .void }
  | .instanceOf =>
    some { operation := .instanceOf, args := r.args, wantsResult := r.wantsResult }
  | .call | .dsetAttrib | .other _ => none

/-- What waits for the answer of the value. -/
def Request.awaits (r : Request) : List Cont :=
  match r.operation with
  | .dget | .iget => [.propertyRead]
  | .dset | .iset => [.propertyWrite]
  | _ => []

/-- The outcome that a member is not found. -/
def State.declined (w : World) : State := ⟨w, .reply (.refused .memberNotFound), []⟩

/-- What a script object does with a request for a member that it finds. -/
inductive ScriptObject.Serves (e : Engine) (w : World) (ref : ObjRef) (o : ScriptObject)
    (r : Request) (key : Text) (m : Member) : Next → Prop
  | asks {q : Request} (consults : m.consults ref r = some q) :
      Serves e w ref o r key m (.operate w m.value q r.awaits)
  | calls (asked : r.operation = .call) :
      Serves e w ref o r key m ((dispatch e w ref r.reading).before (.callMember (r.calling ref)))
  | unowned (asked : r.operation = .dsetAttrib) (lacks : o.members.find? key = none) :
      Serves e w ref o r key m (.notFound w)
  | answers {w' : World} {reply : Reply} (itself : m.consults ref r = none)
      (uncalled : r.operation ≠ .call)
      (owned : r.operation = .dsetAttrib → o.members.find? key ≠ none)
      (found : reply ≠ .refused .memberNotFound)
      (others : ∀ other, other ≠ ref → w'.heap[other]? = w.heap[other]?) :
      Serves e w ref o r key m (.reply w' reply)

namespace ScriptObject

theorem get_serves (reads : r.Reads w key) (named : key ≠ [])
    (hit : w.lookup ref key r.flags = some (m, holder)) :
    Serves e w ref o r key m (get w ref r key) := by
  obtain ⟨consults, awaits, uncalled, unset⟩ : m.consults ref r = (if m.diverts r then
      some { operation := .dget, flags := r.flags, this := r.receiver ref } else none) ∧
      r.awaits = [.propertyRead] ∧ r.operation ≠ .call ∧ r.operation ≠ .dsetAttrib := by
    rcases reads with ⟨asked, -⟩ | ⟨asked, -⟩ <;> simp [Member.consults, Request.awaits, asked]
  cases diverts : m.diverts r with
  | true =>
    rw [if_pos diverts] at consults
    have asks : Serves e w ref o r key m _ := .asks consults
    simp only [Member.diverts] at diverts
    simpa [get, named, hit, diverts, awaits] using asks
  | false =>
    rw [get_plain named hit diverts]
    have itself : m.consults ref r = none := by rw [consults, diverts]; rfl
    exact .answers itself uncalled (absurd · unset) (by simp) fun _ _ => rfl

theorem set_serves (there : w.script? ref = some o) (writes : r.Writes w key) (named : key ≠ [])
    (hit : w.lookup ref key r.flags = some (m, holder)) :
    Serves e w ref o r key m (set w ref r key r.lastArg) := by
  obtain ⟨consults, awaits, uncalled, unset⟩ : m.consults ref r = (if m.diverts r then
      some { operation := .dset, flags := r.flags, args := [r.lastArg], this := r.receiver ref,
             wantsResult := false } else none) ∧
      r.awaits = [.propertyWrite] ∧ r.operation ≠ .call ∧ r.operation ≠ .dsetAttrib := by
    rcases writes with ⟨asked, -⟩ | ⟨asked, -⟩ <;> simp [Member.consults, Request.awaits, asked]
  cases diverts : m.diverts r with
  | true =>
    rw [if_pos diverts] at consults
    have asks : Serves e w ref o r key m _ := .asks consults
    rw [set_guarded named hit (by simp [Member.guards, diverts]), Member.fends, if_pos diverts]
    rwa [awaits] at asks
  | false =>
    have itself : m.consults ref r = none := by rw [consults, diverts]; rfl
    have plain : ∀ found holder, w.lookup ref key r.flags = some (found, holder) →
        found.diverts r = false := by
      intro found holder again
      cases hit.symm.trans again
      exact diverts
    rcases set_plain named plain with ⟨_, bars, refused⟩ | written
    · rw [refused]
      -- A member was found, so nothing is missing.
      cases bars with
      | constant => exact .answers itself uncalled (absurd · unset) (by simp) fun _ _ => rfl
      | missing nothing => simp [startsFrom, hit] at nothing
    · obtain ⟨w', done, puts⟩ : ∃ w', put w ref key (w.written ref key r) = .done w' none ∧
          w.Puts w' ref o key (w.written ref key r) := put_puts there
      rw [written, done]
      exact .answers itself uncalled (absurd · unset) (by simp) puts.others

theorem setAttributes_serves (there : w.script? ref = some o) (asked : r.operation = .dsetAttrib) :
    Serves e w ref o r r.name m (setAttributes w ref r) := by
  cases own : o.members.find? r.name with
  | none =>
    simp only [setAttributes, there, Option.bind_some, own]
    exact .unowned asked own
  | some before =>
    simp only [setAttributes, there, Option.bind_some, own]
    generalize reported : (if before.attr.overwrites r.flags.attr = true then _ else w) = w₁
    have heap : w₁.heap = w.heap := by rw [← reported]; split <;> rfl
    have there₁ : w₁.script? ref = some o := by rw [script?, heap]; exact there
    obtain ⟨w', done, puts⟩ := put_puts there₁
    rw [done]
    have itself : m.consults ref r = none := by simp only [Member.consults, asked]
    refine .answers itself (by simp [asked]) (by simp [own]) (by simp) fun other apart => ?_
    rw [puts.others other apart, heap]

theorem dispatch_serves (there : w.script? ref = some o) (names : r.Names w key)
    (named : key ≠ []) (hit : w.lookup ref key r.flags = some (m, holder)) :
    Serves e w ref o r key m (dispatch e w ref r) := by
  have object := heap_of_script? there
  cases asked : r.operation with
  | dget =>
    have reads : r.Reads w key := .inl ⟨asked, by simpa only [Request.Names, asked] using names⟩
    rw [dispatch_reads e there reads]
    exact get_serves reads named hit
  | iget =>
    have reads : r.Reads w key := .inr ⟨asked, by simpa only [Request.Names, asked] using names⟩
    rw [dispatch_reads e there reads]
    exact get_serves reads named hit
  | dset =>
    have writes : r.Writes w key := .inl ⟨asked, by simpa only [Request.Names, asked] using names⟩
    rw [dispatch_writes e there writes]
    exact set_serves there writes named hit
  | iset =>
    have writes : r.Writes w key := .inr ⟨asked, by simpa only [Request.Names, asked] using names⟩
    rw [dispatch_writes e there writes]
    exact set_serves there writes named hit
  | other => simp only [Request.Names, asked] at names
  | call =>
    obtain rfl : r.name = key := by simpa only [Request.Names, asked] using names
    have read := dispatch_reads e there (.inl ⟨rfl, rfl⟩ : r.reading.Reads w r.name)
    have calls : Serves e w ref o r r.name m _ := .calls asked
    -- The read of a call has no name of its own; `get` does not look at it.
    have unnamed : get w ref r.reading r.name =
        get w ref { operation := .dget, flags := r.flags, this := r.this } r.name := rfl
    rw [read, unnamed] at calls
    simp only [dispatch, object, answer, asked, if_neg named]
    simpa only [Request.calling, asked] using calls
  | new =>
    obtain rfl : r.name = key := by simpa only [Request.Names, asked] using names
    have asks : Serves e w ref o r r.name m _ := .asks (q := { r with name := [], this := .void })
      (by simp only [Member.consults, asked])
    simpa only [dispatch, object, answer, asked, construct, if_pos named, hit, Request.awaits]
      using asks
  | instanceOf =>
    obtain rfl : r.name = key := by simpa only [Request.Names, asked] using names
    have asks : Serves e w ref o r r.name m _ :=
      .asks (q := { operation := .instanceOf, args := r.args, wantsResult := r.wantsResult })
        (by simp only [Member.consults, asked])
    simpa only [dispatch, object, answer, asked, instanceOf, if_pos named, hit, Request.awaits]
      using asks
  | dsetAttrib =>
    obtain rfl : r.name = key := by simpa only [Request.Names, asked] using names
    simpa only [dispatch, object, answer, asked] using setAttributes_serves there asked

end ScriptObject

/-! ### Declining -/

/-- How a script object can decline a request for a member that it finds, and the world
that it leaves: the attributes to set are those of a member that is not its own; the value
that is asked for the answer declines; or a call finds nothing to read, or nothing to call. -/
inductive ScriptObject.Declines (e : Engine) (w : World) (ref : ObjRef) (o : ScriptObject)
    (r : Request) (key : Text) (m : Member) : World → Prop
  | unowned (asked : r.operation = .dsetAttrib) (lacks : o.members.find? key = none) :
      Declines e w ref o r key m w
  | value {q : Request} {w' : World} (consults : m.consults ref r = some q)
      (answer : Settles e ⟨w, .operate m.value q, []⟩ (.declined w')) :
      Declines e w ref o r key m w'
  | unread {w' : World} (asked : r.operation = .call)
      (read : Settles e ⟨w, .dispatch ref r.reading, []⟩ (.declined w')) :
      Declines e w ref o r key m w'
  | uncalled {w₁ w' : World} {written : Option Value} (asked : r.operation = .call)
      (read : Settles e ⟨w, .dispatch ref r.reading, []⟩ ⟨w₁, .reply (.done written), []⟩)
      (answer : Settles e ⟨w₁, .operate (written.getD .void) (r.calling ref), []⟩ (.declined w')) :
      Declines e w ref o r key m w'

namespace Machine

theorem step_dispatch : step e ⟨w, .dispatch ref r, []⟩ =
    ⟨(dispatch e w ref r).world, (dispatch e w ref r).control, (dispatch e w ref r).push⟩ := by
  simp only [step, advance, List.append_nil]

theorem step_dispatch_atop : (step e ⟨w, .dispatch ref r, []⟩).atop stack =
    ⟨(dispatch e w ref r).world, (dispatch e w ref r).control,
      (dispatch e w ref r).push ++ stack⟩ := by
  rw [step_dispatch, State.atop]

/-- What waits declines if and only if what it waits for does. -/
def Transmits (c : Cont) : Prop :=
  ∀ w reply, ∃ reply', resume w reply c = .reply w reply' ∧
    (reply' = .refused .memberNotFound ↔ reply = .refused .memberNotFound)

theorem propertyRead_transmits : Transmits .propertyRead := by
  intro w reply
  cases reply <;> exact ⟨_, rfl, by simp⟩

theorem propertyWrite_transmits : Transmits .propertyWrite := by
  intro w reply
  cases reply <;> exact ⟨_, rfl, by simp⟩

theorem not_declined_of_panic {p : Panic} : ¬ Settles e ⟨w, .panic p, stack⟩ (.declined w') := by
  intro settles
  obtain ⟨_, stopped⟩ := settles.of_panic
  cases stopped

theorem Transmits.settles_iff (transmits : Transmits c) (final : u.isFinal = true) :
    Settles e (u.atop [c]) (.declined w') ↔ u = .declined w' := by
  rcases State.cases_of_isFinal final with ⟨w₁, reply, rfl⟩ | ⟨w₁, p, rfl⟩
  · obtain ⟨reply', resumes, same⟩ := transmits w₁ reply
    have stepped : step e ((⟨w₁, .reply reply, []⟩ : State).atop [c]) = ⟨w₁, .reply reply', []⟩ := by
      simp [step, State.atop, resumes, Next.reply]
    rw [← Settles.step_iff, stepped, Settles.final_iff rfl]
    simp only [State.declined, State.mk.injEq, Control.reply.injEq, and_true]
    rw [eq_comm, eq_comm (b := reply'), same]
  · exact ⟨fun settles => absurd settles not_declined_of_panic, by rintro ⟨⟩⟩

theorem settles_awaits (final : u.isFinal = true) :
    Settles e (u.atop r.awaits) (.declined w') ↔ u = .declined w' := by
  unfold Request.awaits
  split
  case h_5 => rw [State.atop_nil, Settles.final_iff final, eq_comm]
  all_goals first
    | exact propertyRead_transmits.settles_iff final
    | exact propertyWrite_transmits.settles_iff final

/-- A call of a member declines if there is nothing to read, or nothing to call. -/
theorem settles_callMember (final : u.isFinal = true) :
    Settles e (u.atop [.callMember q]) (.declined w') ↔ u = .declined w' ∨
      ∃ w₁ written, u = ⟨w₁, .reply (.done written), []⟩ ∧
        Settles e ⟨w₁, .operate (written.getD .void) q, []⟩ (.declined w') := by
  rcases State.cases_of_isFinal final with ⟨w₁, reply, rfl⟩ | ⟨w₁, p, rfl⟩
  · rw [← Settles.step_iff]
    cases reply with
    | done written =>
      refine ⟨fun settles => .inr ⟨w₁, written, rfl, settles⟩, ?_⟩
      rintro (⟨⟨⟩⟩ | ⟨_, _, ⟨⟩, answer⟩)
      exact answer
    | failed written f =>
      refine ⟨fun settles => ?_, by rintro (⟨⟨⟩⟩ | ⟨_, _, ⟨⟩, _⟩)⟩
      cases (Settles.final_iff rfl).mp settles
    | refused refusal =>
      refine ⟨fun settles => .inl ((Settles.final_iff rfl).mp settles).symm, ?_⟩
      rintro (same | ⟨_, _, ⟨⟩, _⟩)
      rw [same]
      exact (Settles.final_iff rfl).mpr rfl
  · exact ⟨fun settles => absurd settles not_declined_of_panic, by
      rintro (⟨⟨⟩⟩ | ⟨_, _, ⟨⟩, _⟩)⟩

end Machine

namespace ScriptObject

/-- A script object that finds the member declines in these cases and in no other. -/
theorem settles_declined (there : w.script? ref = some o) (names : r.Names w key)
    (named : key ≠ []) (hit : w.lookup ref key r.flags = some (m, holder)) :
    Settles e ⟨w, .dispatch ref r, []⟩ (.declined w') ↔ Declines e w ref o r key m w' := by
  have serves : Serves e w ref o r key m (dispatch e w ref r) :=
    dispatch_serves there names named hit
  rw [← Settles.step_iff, step_dispatch]
  -- Each way of serving the request leaves one way to decline it.
  generalize dispatch e w ref r = n at serves
  cases serves with
  | @asks q consults =>
    have passed : (⟨w, .operate m.value q, r.awaits⟩ : State) =
      State.atop ⟨w, .operate m.value q, []⟩ r.awaits := rfl
    simp only [Next.operate]
    rw [passed, Settles.atop_iff]
    constructor
    · rintro ⟨u, own, rest⟩
      rw [(settles_awaits own.final).mp rest] at own
      exact .value consults own
    · intro declines
      cases declines with
      | unowned asked => simp [Member.consults, asked] at consults
      | value again answer =>
        cases consults.symm.trans again
        exact ⟨_, answer, (settles_awaits answer.final).mpr rfl⟩
      | unread asked | uncalled asked => simp [Member.consults, asked] at consults
  | calls asked =>
    simp only [Next.before]
    rw [← step_dispatch_atop, Settles.atop_iff]
    simp only [Settles.step_iff]
    constructor
    · rintro ⟨u, read, rest⟩
      rcases (settles_callMember read.final).mp rest with rfl | ⟨w₁, written, rfl, answer⟩
      · exact .unread asked read
      · exact .uncalled asked read answer
    · intro declines
      cases declines with
      | unowned again => cases asked.symm.trans again
      | value consults => simp [Member.consults, asked] at consults
      | unread _ read => exact ⟨_, read, (settles_callMember read.final).mpr (.inl rfl)⟩
      | uncalled _ read answer =>
        exact ⟨_, read, (settles_callMember read.final).mpr (.inr ⟨_, _, rfl, answer⟩)⟩
  | unowned asked lacks =>
    rw [Settles.final_iff rfl]
    constructor
    · rintro ⟨⟩
      exact .unowned asked lacks
    · intro declines
      cases declines with
      | unowned => rfl
      | value consults => simp [Member.consults, asked] at consults
      | unread called | uncalled called => cases asked.symm.trans called
  | answers itself uncalled owned found =>
    rw [Settles.final_iff rfl]
    constructor
    · rintro ⟨⟩
      exact absurd rfl found
    · intro declines
      cases declines with
      | unowned asked lacks => exact absurd lacks (owned asked)
      | value consults => cases itself.symm.trans consults
      | unread called | uncalled called => exact absurd called uncalled

theorem settles_itself (there : w.script? ref = some o) (names : r.Names w key)
    (named : key ≠ []) (hit : w.lookup ref key r.flags = some (m, holder))
    (itself : m.consults ref r = none) (uncalled : r.operation ≠ .call) :
    ∃ w' reply, SettlesIn e 1 ⟨w, .dispatch ref r, []⟩ ⟨w', .reply reply, []⟩ ∧
      ∀ other, other ≠ ref → w'.heap[other]? = w.heap[other]? := by
  have serves : Serves e w ref o r key m (dispatch e w ref r) :=
    dispatch_serves there names named hit
  have settled {w' : World} {reply : Reply} (answer : dispatch e w ref r = .reply w' reply) :
      SettlesIn e 1 ⟨w, .dispatch ref r, []⟩ ⟨w', .reply reply, []⟩ := by
    have stepped : step e ⟨w, .dispatch ref r, []⟩ = ⟨w', .reply reply, []⟩ := by
      rw [step_dispatch, answer, Next.reply]
    exact .succ rfl (by rw [stepped]; exact .zero rfl)
  generalize dispatch e w ref r = n at serves settled
  cases serves with
  | asks consults => cases itself.symm.trans consults
  | calls asked => exact absurd asked uncalled
  | unowned => exact ⟨w, _, settled rfl, fun _ _ => rfl⟩
  | answers _ _ _ _ others => exact ⟨_, _, settled rfl, others⟩

end ScriptObject

/-! ### Proxies -/

namespace Machine

variable {p first second : ObjRef} {n : Nat}

theorem step_proxy (proxy : w.heap[p]? = some (.proxy first second)) :
    step e ⟨w, .dispatch p r, stack⟩ =
      State.atop ⟨w, .dispatch first r, []⟩ (.second second r :: stack) := by
  simp [step, advance, dispatch, proxy, Next.dispatch, State.atop]

theorem run_proxy (proxy : w.heap[p]? = some (.proxy first second))
    (unsettled : ∀ k < n, (run e k ⟨w, .dispatch first r, []⟩).isFinal = false) :
    run e (n + 1) ⟨w, .dispatch p r, stack⟩ =
      (run e n ⟨w, .dispatch first r, []⟩).atop (.second second r :: stack) := by
  rw [run_step, step_proxy proxy, run_atop unsettled]

theorem run_proxy_settled (proxy : w.heap[p]? = some (.proxy first second))
    (settles : SettlesIn e n ⟨w, .dispatch first r, []⟩ t) :
    run e (n + 2) ⟨w, .dispatch p r, stack⟩ = step e (t.atop (.second second r :: stack)) := by
  rw [run_succ, run_proxy proxy settles.before, settles.reached]

/-- An answer goes past the second object. -/
theorem step_second (final : t.isFinal = true) (found : ∀ w', t ≠ .declined w') :
    step e (t.atop (.second ref r :: stack)) = t.atop stack := by
  rcases State.cases_of_isFinal final with ⟨w, reply, rfl⟩ | ⟨w, p, rfl⟩
  · cases reply with
    | done | failed => rfl
    | refused refusal =>
      cases refusal with
      | memberNotFound => exact absurd rfl (found w)
      | _ => rfl
  · rfl

end Machine

/-- A proxy whose first object is a script object that finds the member. The first object
works as it would alone while the second waits. Unless it declines, its outcome is the
proxy's, whatever that is, and the second is never asked. It declines in the cases listed
and in no other, and then the second is asked in the world that it left. What it answers
by itself changes no object but itself. -/
theorem proxy_first_shadows (e : Engine) (w : World) (p first second : ObjRef)
    (o : ScriptObject) (r : Request) (key : Text) (m : Member) (holder : ObjRef)
    (stack : List Cont) (proxy : w.heap[p]? = some (.proxy first second))
    (there : w.script? first = some o) (names : r.Names w key) (named : key ≠ [])
    (hit : w.lookup first key r.flags = some (m, holder)) :
    let own : State := ⟨w, .dispatch first r, []⟩
    let proxied : State := ⟨w, .dispatch p r, stack⟩
    (∀ n, (∀ k < n, (run e k own).isFinal = false) →
      run e (n + 1) proxied = (run e n own).atop (.second second r :: stack)) ∧
    (∀ n t, SettlesIn e n own t → (∀ w', ¬ o.Declines e w first r key m w') →
      run e (n + 2) proxied = t.atop stack) ∧
    (∀ w', Settles e own (.declined w') ↔ o.Declines e w first r key m w') ∧
    (∀ n w', SettlesIn e n own (.declined w') →
      run e (n + 2) proxied = ⟨w', .dispatch second r, stack⟩) ∧
    (m.consults first r = none → r.operation ≠ .call →
      ∃ w' reply, SettlesIn e 1 own ⟨w', .reply reply, []⟩ ∧
        ∀ other, other ≠ first → w'.heap[other]? = w.heap[other]?) := by
  have declining (w' : World) :
      Settles e ⟨w, .dispatch first r, []⟩ (.declined w') ↔ o.Declines e w first r key m w' :=
    ScriptObject.settles_declined there names named hit
  refine ⟨fun n => run_proxy proxy, fun n t settles shadows => ?_, declining,
    fun n w' settles => ?_, fun itself uncalled => ?_⟩
  · rw [run_proxy_settled proxy settles]
    refine step_second settles.final ?_
    rintro w' rfl
    exact shadows w' ((declining w').mp ⟨n, settles⟩)
  · rw [run_proxy_settled proxy settles]
    rfl
  · exact ScriptObject.settles_itself there names named hit itself uncalled

/-- A class with a member, an instance of it, an object with a member of that name, and a
proxy for the two. -/
def mirrored : World where
  heap := #[
    .script { name := utf8 "C", members := Table.insert {} (utf8 "m") ⟨.int 1, {}⟩ },
    .script { cls := some 0 },
    .script { members := Table.insert {} (utf8 "m") ⟨.int 2, {}⟩ },
    .proxy 1 2]

/-- A write through the proxy gives the instance a member of its own. -/
theorem mirrored_shadows :
    ∃ w', run plainEngine 3 ⟨mirrored, .dispatch 3
        { operation := .dset, name := utf8 "m", args := [.int 5] }, []⟩ =
      ⟨w', .reply (.done none), []⟩ ∧ w'.heap[2]? = mirrored.heap[2]? := by
  obtain ⟨-, shadows, -, -, itself⟩ := proxy_first_shadows plainEngine mirrored 3 1 2
    { cls := some 0 } { operation := .dset, name := utf8 "m", args := [.int 5] } (utf8 "m")
    ⟨.int 1, {}⟩ 0 [] rfl rfl rfl (by decide) rfl
  obtain ⟨w', reply, settles, others⟩ := itself rfl (by decide)
  have same := settles.reached
  cases same
  refine ⟨_, shadows 1 _ settles ?_, others 2 (by decide)⟩
  rintro _ (⟨⟨⟩⟩ | ⟨⟨⟩⟩ | ⟨⟨⟩⟩ | ⟨⟨⟩⟩)

/-- The instance finds the member and declines to set attributes that are not its own, so
those of the other object are set. -/
theorem mirrored_unshadowed :
    let r : Request :=
      { operation := .dsetAttrib, name := utf8 "m", flags := { attr := { mutability := 2 } } }
    let reached := run plainEngine 4 ⟨mirrored, .dispatch 3 r, []⟩
    mirrored.lookup 1 (utf8 "m") r.flags = some (⟨.int 1, {}⟩, 0) ∧
    run plainEngine 1 ⟨mirrored, .dispatch 1 r, []⟩ = .declined mirrored ∧
    reached.control = .reply (.done none) ∧
    (reached.world.script? 2).bind (·.members.find? (utf8 "m")) =
      some ⟨.int 2, { mutability := 2 }⟩ :=
  ⟨rfl, rfl, rfl, rfl⟩

end ScriptEngine
