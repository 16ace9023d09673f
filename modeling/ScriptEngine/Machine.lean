import ScriptEngine.Machine.Dispatch
import ScriptEngine.Machine.Perform

/-! The machine that runs code. -/
namespace ScriptEngine
namespace Machine

/-- Begins to run a block. It gets registers if it is not given any, and a chain
of shared frames if it declares nested levels. -/
def enter (w : World) (block : CodeBlock) (inv : Invocation) (completion : Completion) : Next :=
  match inv.frame with
  | some frame =>
    let size := (w.registers frame).size
    if (size : Int) < block.registers.toInt then
      .panic w <| .message <|
        utf8 "vm: " ++ block.title ++ utf8 ": supplied frame has " ++ Text.ofNat size ++
          utf8 " registers, need " ++ Text.ofInt block.registers.toInt
    else nest w frame
  | none =>
    if !isRoomFor block.registers.toInt then .panic w .invalidAccess
    else
      let (w, frame) := w.newFrame (Array.replicate block.registers.toInt.toNat .void)
      nest w frame
where
  /-- Prepares the shared frames. -/
  nest (w : World) (frame : FrameRef) : Next :=
    let start (w : World) (chain owned : Chain) : Next :=
      { world := w
        control := .code
          { block, frame, chain, owned, args := inv.args, blocks := inv.blocks, this := inv.this,
            completion } }
    if 0 < block.nestLevel then
      match w.arena.overlay inv.shared (block.sharedSizes.map Int64.toInt) with
      | .made arena chain => start { w with arena } chain chain
      | .failed arena dropped error =>
        .failed ({ w with arena }.reportReleases dropped)
          (.labelled block.title (.host (.arena error)))
      | .broken arena => .panic { w with arena } .invalidAccess
    else start w inv.shared []

/-- Takes a lock and asks a value. A thread that has to wait for the lock stays where
it is. -/
def acquire (e : Engine) (w : World) (ref : ObjRef) (target : Value) (r : Request) : Next :=
  match w.lock? e.thread ref with
  | some w => .operate w target r [.unlock ref]
  | none => { world := w, control := .lock ref target r }

/-- Carries on with a callable of the host. A failure of the host becomes one
that scripts can catch. -/
def hostStep (w : World) : HostAction → Next
  | .finish result none => .done w result
  | .finish result (some fault) =>
    let (w, f) := w.hostFault fault
    let (w, f) := w.asThrown f
    .reply w (.failed result f)
  | .stop reason => .panic w reason
  | .ask target r resume => .operate w target r [.host r.name resume]
  | .setData ref data next =>
    { world := w.modifyScript ref fun o => { o with hostData := some data }, control := .host next }
  | .print line next => { world := { w with output := w.output.push line }, control := .host next }

/-- Insists on success and keeps or drops the result. -/
def insisting (w : World) (r : Reply) (result : Option Value → Option Value) : Next :=
  match w.insist [] r with
  | (w, written, none) => .done w (result written)
  | (w, _, some f) => .failed w f

/-- Goes on with an answer. -/
def resume (w : World) (r : Reply) : Cont → Next
  | .code a await => a.resume w r await
  | .host name resume =>
    let (w, written, fault) := w.insist name r
    { world := w, control := .host (resume w (written.getD .void) fault) }
  | .getter => insisting w r fun written => some (written.getD .void)
  | .setter => insisting w r fun _ => none
  | .constructor self => insisting w r fun _ => some self
  | .forward keep =>
    match w.insist [] r with
    | (w, written, none) => .done w (if keep then written else none)
    | (w, written, some f) =>
      let (w, f) := w.asThrown f
      .reply w (.failed (if keep then written else none) f)
  | .propertyRead =>
    match r with
    | .done written => .result w (written.getD .void)
    | .failed _ f => .failed w f
    | .refused refusal => .refused w refusal
  | .propertyWrite =>
    match r with
    | .done _ => .done w none
    | .failed _ f => .failed w f
    | .refused refusal => .refused w refusal
  | .callMember request =>
    match r with
    | .done written => .operate w (written.getD .void) request
    | .failed _ f => .failed w f
    | .refused refusal => .refused w refusal
  | .second ref request =>
    match r with
    | .refused .memberNotFound => .dispatch w ref request
    | _ => .reply w r
  | .unlock ref => .reply (w.unlock ref) r

/-- What is put right when everything stops: locks are given back, and the
references of running blocks are dropped. -/
def unwind (w : World) : Cont → World
  | .code a _ => w.releaseChain a.owned
  | .unlock ref => w.unlock ref
  | _ => w

/-- Does the next thing, when nothing is answered yet. -/
def advance (e : Engine) (w : World) : Control → Next
  | .operate target r => operate e w target r
  | .lock ref target r => acquire e w ref target r
  | .dispatch ref r => dispatch e w ref r
  | .execute none _ _ => .panic w .invalidAccess
  | .execute (some block) inv completion => enter w block inv completion
  | .code a => a.advance e w
  | .host action => hostStep w action
  | .reply r => .reply w r
  | .panic p => .panic w p

/-- One transition. A state with the last answer stays as it is. -/
def step (e : Engine) : State → State
  | ⟨w, .reply r, []⟩ => ⟨w, .reply r, []⟩
  | ⟨w, .panic p, []⟩ => ⟨w, .panic p, []⟩
  | ⟨w, .reply r, top :: rest⟩ =>
    let n := resume w r top
    ⟨n.world, n.control, n.push ++ rest⟩
  | ⟨w, .panic p, top :: rest⟩ => ⟨unwind w top, .panic p, rest⟩
  | ⟨w, control, stack⟩ =>
    let n := advance e w control
    ⟨n.world, n.control, n.push ++ stack⟩

/-- Runs for at most `fuel` transitions, up to the last answer. -/
def run (e : Engine) : (fuel : Nat) → State → State
  | 0, s => s
  | fuel + 1, s => if s.isFinal then s else run e fuel (step e s)

end Machine
end ScriptEngine
