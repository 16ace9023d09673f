import ScriptEngine.Machine.Action

/-! Carrying out what an instruction does. -/
namespace ScriptEngine
namespace Activation

/-- Goes on at another place. -/
def goto (a : Activation) (w : World) (next : Int) : Next :=
  { world := w, control := .code { a with ip := next } }

/-- Stops everything; the references that the running block holds are dropped. -/
def stop (a : Activation) (w : World) (p : Panic) : Next := .panic (w.releaseChain a.owned) p

/-- Writes a register and goes on. -/
def assign (a : Activation) (w : World) (dst : Option Nat) (v : Value) (next : Int) : Next :=
  match dst with
  | some r =>
    if r < (w.registers a.frame).size then a.goto (w.setRegister a.frame r v) next
    else a.stop w .invalidAccess
  | none => a.stop w .invalidAccess

/-- Ends the running block with a result. -/
def finish (a : Activation) (w : World) (v : Value) : Next :=
  let answer := match a.completion with
    | .result => v
    | .constructed self => self
  .result (w.releaseChain a.owned) answer

/-- Ends the running block with a failure, which takes the place along in its
trace. -/
def raise (a : Activation) (w : World) (f : Fault) : Next :=
  .failed ((w.annotate f (a.block.tracePoint a.ip)).releaseChain a.owned) f

/-- Ends the running block because of a shared frame. -/
def fail (a : Activation) (w : World) (error : ArenaError) : Next :=
  let (w, f) := w.asThrown (.host (.arena error))
  a.raise w f

/-- Writes a marker for the outcome of a guarded call. -/
def mark (a : Activation) (w : World) (result : Value) (fault : Option Fault) (dst : Nat)
    (next : Int) : Next :=
  match fault with
  | none =>
    let (w, ref) := w.create (.marker none result)
    a.assign w (some dst) (.object ref none) next
  | some f =>
    let (w, f) := w.asThrown f
    let (w, ref) := w.create (.marker (some f) (w.faultValue f))
    a.assign w (some dst) (.object ref none) next

/-- Makes something that refers to the running chain, once references to its
frames are taken. -/
def capture (a : Activation) (w : World) (o : Object) (context : Option ObjRef) (dst : Option Nat)
    (next : Int) : Next :=
  match w.arena.retainChain a.chain with
  | .made arena _ =>
    let (w, ref) := { w with arena }.create o
    a.assign w dst (.object ref context) next
  | .failed arena dropped error =>
    a.raise ({ w with arena }.reportReleases dropped) (.host (.arena error))
  | .broken arena => a.stop { w with arena } .invalidAccess

/-- Carries out an action. -/
def perform (e : Engine) (a : Activation) (w : World) : Action → Next
  | .goto next => a.goto w next
  | .assign dst v next => a.assign w dst v next
  | .newObject dst next =>
    let (w, ref) := w.create (.script {})
    a.assign w dst (.object ref none) next
  | .newProxy first second dst next =>
    let (w, ref) := w.create (.proxy first second)
    a.assign w dst (.object ref none) next
  | .newFunction target context dst next =>
    let (w, v) := e.wrapFunction w target
    a.assign w dst (v.withContext context) next
  | .newProperty getter setter dst next =>
    let (w, ref) := w.create (.scriptProperty getter setter)
    let (w, v) := e.wrapProperty w (some ref)
    a.assign w dst v next
  | .store handle slot v next =>
    match w.arena.store handle slot v with
    | .ok arena => a.goto { w with arena } next
    | .error error => a.fail w error
  | .capture block sharesFrame dst next =>
    a.capture w (.closure block (if sharesFrame then some a.frame else none) a.chain)
      a.this.object? dst next
  | .bind dst next => a.capture w (.binding a.chain a.this {}) none dst next
  | .bindName binding name slot next => a.goto (w.bindName binding name slot) next
  | .request target r none await =>
    .operate w target r [.code a await]
  | .request target r (some lock) await =>
    { world := w, control := .lock lock target r, push := [.code a await] }
  | .markError className message dst next =>
    let (w, f) := w.throwException className message
    a.mark w .void (some f) dst next
  | .settle register v caught next =>
    let w := w.setRegister a.frame register v
    let a := { a with caught := caught.orElse fun _ => a.caught }
    match next with
    | some place => a.goto w place
    | none => a.stop w .invalidAccess
  | .return v => a.finish w v
  | .throwValue v =>
    let (w, f) := w.throwValue v
    a.raise w f
  | .throwException className message =>
    let (w, f) := w.throwException className message
    a.raise w f
  | .exit id target v =>
    let (w, f) := w.raise (.exit id target v [])
    a.raise w f
  | .raise fault => a.raise w fault
  | .fail error => a.fail w error
  | .report event next => a.goto (w.report event) next
  | .panic message => a.stop w (.message message)

/-- Runs one instruction. -/
def advance (e : Engine) (w : World) (a : Activation) : Next :=
  match a.action e w with
  | some action => a.perform e w action
  | none => a.stop w .invalidAccess

/-- Goes on with the answer to a request that the running block made. -/
def resume (a : Activation) (w : World) (r : Reply) : Await → Next
  | .assign name dst next =>
    match w.insist name r with
    | (w, written, none) => a.assign w dst (written.getD .void) next
    | (w, _, some f) => a.raise w f
  | .skip name next =>
    match w.insist name r with
    | (w, _, none) => a.goto w next
    | (w, _, some f) => a.raise w f
  | .mark dst next =>
    let (w, written, fault) := w.insist [] r
    a.mark w (written.getD .void) fault dst next
  | .membership dst next =>
    match r with
    | .done written => a.assign w dst (written.getD (.bool false)) next
    | .failed _ f => a.raise w f
    | .refused _ => a.assign w dst (.bool false) next
  | .classOf name args dst next =>
    match w.insist name r with
    | (w, written, none) =>
      .operate w (written.getD .void) { operation := .new, args } [.code a (.assign [] dst next)]
    | (w, _, some f) => a.raise w f

end Activation
end ScriptEngine
