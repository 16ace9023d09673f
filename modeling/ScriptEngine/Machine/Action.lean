import ScriptEngine.Machine.Operands
import ScriptEngine.Value.Operators

/-! What an instruction does. Reading an instruction gives an action and changes
nothing; carrying the action out is another matter. -/
namespace ScriptEngine

/-- The effect of an instruction. A missing register shows only when it is to be
written, after all else. -/
inductive Action where
  | goto (next : Int)
  | assign (dst : Option Nat) (v : Value) (next : Int)
  | newObject (dst : Option Nat) (next : Int)
  | newProxy (first second : ObjRef) (dst : Option Nat) (next : Int)
  | newFunction (target context : Option ObjRef) (dst : Option Nat) (next : Int)
  | newProperty (getter setter : Value) (dst : Option Nat) (next : Int)
  /-- Writes a shared slot. -/
  | store (handle : FrameHandle) (slot : Int) (v : Value) (next : Int)
  /-- Makes a closure of a nested block. -/
  | capture (block : Option CodeBlock) (sharesFrame : Bool) (dst : Option Nat) (next : Int)
  /-- Makes a binding of the running chain. -/
  | bind (dst : Option Nat) (next : Int)
  | bindName (binding : ObjRef) (name : Text) (slot : BindingSlot) (next : Int)
  /-- Asks a value, holding a lock meanwhile if one is given. -/
  | request (target : Value) (r : Request) (lock : Option ObjRef) (await : Await)
  /-- Writes a marker of a call that an exception kept from happening. -/
  | markError (className : String) (message : Text) (dst : Nat) (next : Int)
  /-- Takes the outcome out of a marker, then goes on if there is a place to. -/
  | settle (register : Nat) (v : Value) (caught : Option SignalRef) (next : Option Int)
  | return (v : Value)
  | throwValue (v : Value)
  | throwException (className : String) (message : Text)
  | exit (id : Int64) (target : Int) (v : Value)
  /-- Fails with a failure that is there already. -/
  | raise (fault : Fault)
  /-- Fails because of a shared frame. -/
  | fail (error : ArenaError)
  | report (event : Event) (next : Int)
  | panic (message : Text)

/-- A two-operand operator on values. Only the remainder, the quotient and the
sum can fail. -/
def BinaryOp.apply (face : ObjRef → Face) :
    BinaryOp → Value → Value → Except Value.OperatorError Value
  | .logOr, x, y => .ok (x.logOr y)
  | .logAnd, x, y => .ok (x.logAnd y)
  | .bitOr, x, y => .ok (x.bitOr y)
  | .bitXor, x, y => .ok (x.bitXor y)
  | .bitAnd, x, y => .ok (x.bitAnd y)
  | .notEqual, x, y => .ok (.bool !(x.equal y))
  | .equal, x, y => .ok (.bool (x.equal y))
  | .strictNotEqual, x, y => .ok (.bool !(x.strictEqual y))
  | .strictEqual, x, y => .ok (.bool (x.strictEqual y))
  | .less, x, y => .ok (.bool (x.less y))
  | .greater, x, y => .ok (.bool (x.greater y))
  | .lessOrEqual, x, y => .ok (.bool (x.lessOrEqual y))
  | .greaterOrEqual, x, y => .ok (.bool (x.greaterOrEqual y))
  | .shiftRightZero, x, y => .ok (x.shiftRightZero y)
  | .shiftLeft, x, y => .ok (x.shiftLeft y)
  | .shiftRight, x, y => .ok (x.shiftRight y)
  | .remainder, x, y => x.remainder y
  | .quotient, x, y => x.quotient y
  | .div, x, y => .ok (x.div y)
  | .mul, x, y => .ok (x.mul y)
  | .add, x, y => x.add face y
  | .sub, x, y => .ok (x.sub y)

/-- A one-operand operator on a value. Only an object may lack the string form
that two of them need. -/
def UnaryOp.apply (face : ObjRef → Face) : UnaryOp → Value → Option Value
  | .logNot, x => some x.logNot
  | .bitNot, x => some x.bitNot
  | .plus, x => some x.plus
  | .minus, x => some x.negate
  | .toString, x => (x.toText face).map .string
  | .toBoolean, x => some (.bool x.toBool)
  | .toReal, x => some (.real x.toReal)
  | .toInteger, x => some (.int x.toInteger)
  | .toOctet, x => (x.toOctets face).map .octet

namespace Activation

/-- The frame at a shared level, or the exception for a level that is not
there. -/
def level (a : Activation) (level : UInt32) : Except Action FrameHandle :=
  match a.chain[level.toNat]? with
  | some h => .ok h
  | none =>
    .error <| .throwException "IllegalArgumentException" <|
      utf8 "shared level " ++ Text.ofNat level.toNat ++ utf8 " out of range (chain depth " ++
        Text.ofNat a.chain.length ++ utf8 ")"

/-- The start of messages about malformed code. -/
def complaint (a : Activation) : Text := utf8 "vm: " ++ a.block.title ++ utf8 ": "

def placeText (a : Activation) : Text := Text.ofInt a.ip

/-- A construction through a global class. -/
def construct (e : Engine) (a : Activation) (className : String) (args : List Value) (length : Nat) :
    Action :=
  let name := utf8 className
  .request (.object e.globals none) { operation := .dget, name } none
    (.classOf name args (a.registerNumber? 1) (a.after length))

/-- Takes the outcome of a guarded call out of its marker. Without a failure the
first target follows. An exit leads to the target it carries if the identifier
is right and there is such a target; other thrown values lead to the second
target if there is one. What leads nowhere is raised again. -/
def catchBranch (w : World) (a : Activation) : Option Action := do
  let r := (← a.word? 1).toNat
  let id := (← a.const? 2).toInteger
  let count := (← a.word? 3).toNat
  let targets ← a.words? 4 count
  let place (i : Nat) : Option Int := targets[i]?.map fun d => a.ip + displacement d
  let marker ← (w.registers a.frame)[r]?
  match marker.object?.bind (w.heap[·]?) with
  | some (.marker none v) => return .settle r v none (place 0)
  | some (.marker (some fault) v) =>
    match w.signal? fault with
    | some (.exit exitId target payload _) =>
      if exitId = id ∧ 0 ≤ target ∧ target < count then
        return .settle r payload none (place target.toNat)
      else return .raise fault
    | _ =>
      if 1 < count then return .settle r v (w.thrownBy? fault) (place 1)
      else return .raise fault
  | _ =>
    return .panic <| a.complaint ++ utf8 "CATCH_BRANCH at " ++ a.placeText ++
      utf8 " without a try-marker in r" ++ Text.ofNat r

/-- The registers that a diagnostic instruction shows. -/
def dumpText (w : World) (a : Activation) (registers : List UInt32) : Option Text := do
  let shown ← registers.mapM fun r => do
    let v ← (w.registers a.frame)[r.toNat]?
    return utf8 "r" ++ Text.ofNat r.toNat ++ utf8 "=" ++ w.describe v
  return Text.joined (utf8 ", ") shown

/-- The plain calls: result register, callee, flags, arguments. -/
def callAction (w : World) (a : Activation) (operation : Operation) (await : Nat → Int → Await) :
    Option Action := do
  let dst ← a.registerNumber? 1
  let fn ← a.register? w 2
  let flags ← a.flags? 3
  let (args, n) ← a.list? w 4
  return .request fn { operation, flags, args } none (await dst (a.after (4 + n)))

/-- What the instruction with a given opcode does; nothing if it reaches for
words, registers, constants, blocks or string forms that are not there. -/
def actionOf (e : Engine) (w : World) (a : Activation) : Opcode → Option Action
  | .nop => return .goto (a.after 1)
  | .assign => return .assign (a.registerNumber? 1) (← a.register? w 2) (a.after 3)
  | .const => return .assign (a.registerNumber? 1) (← a.const? 2) (a.after 3)
  | .this => return .assign (a.registerNumber? 1) a.this (a.after 2)
  | .thisProxy =>
    match a.this.object? with
    | some first => return .newProxy first e.globals (a.registerNumber? 1) (a.after 2)
    | none => return .assign (a.registerNumber? 1) (.object e.globals none) (a.after 2)
  | .global => return .assign (a.registerNumber? 1) (.object e.globals none) (a.after 2)
  | .super => return .throwException "UnsupportedException" (utf8 "super is not supported")
  | .newObject => return .newObject (a.registerNumber? 1) (a.after 2)
  | .newArray => return a.construct e "Array" [] 2
  | .newDict => return a.construct e "Dictionary" [] 2
  | .newRegExp => return a.construct e "RegExp" [← a.register? w 2, ← a.register? w 3] 4
  | .newFunction => do
    let source ← a.register? w 2
    match source with
    | .object ref context => return .newFunction (some ref) context (a.registerNumber? 1) (a.after 3)
    | _ =>
      return .throwException "IllegalArgumentException"
        (utf8 "cannot make a function from " ++ utf8 source.kind.name)
  | .newProperty =>
    return .newProperty (← a.register? w 2) (← a.register? w 3) (a.registerNumber? 1) (a.after 4)
  | .newClass =>
    return .throwException "UnsupportedException"
      (utf8 "class construction (" ++ (← w.textOf (← a.const? 2)) ++ utf8 ") is not supported")
  | .newModule =>
    return .throwException "UnsupportedException"
      (utf8 "module construction (" ++ (← w.textOf (← a.const? 2)) ++ utf8 ") is not supported")
  | .param =>
    return .assign (a.registerNumber? 1) (a.args.getD (← a.word? 2).toNat .void) (a.after 3)
  | .blockParam =>
    return .assign (a.registerNumber? 1) (a.blocks.getD (← a.word? 2).toNat .void) (a.after 3)
  | .newBinding => return .bind (a.registerNumber? 1) (a.after 2)
  | .bindingMap => do
    let target ← a.register? w 1
    match target.object?, target.object?.bind (w.heap[·]?) with
    | some ref, some (.binding ..) =>
      let name ← w.textOf (← a.const? 2)
      return .bindName ref name ⟨(← a.word? 3).toNat, (← a.word? 4).toNat⟩ (a.after 5)
    | _, _ =>
      return .panic <| a.complaint ++ utf8 "BINDING_MAP at " ++ a.placeText ++
        utf8 " on a non-binding register"
  | .read => do
    match a.level (← a.word? 2) with
    | .error exception => return exception
    | .ok handle =>
      match w.arena.load handle (← a.word? 3).toNat with
      | .ok v => return .assign (a.registerNumber? 1) v (a.after 4)
      | .error error => return .fail error
  | .write => do
    match a.level (← a.word? 1) with
    | .error exception => return exception
    | .ok handle =>
      return .store handle (← a.word? 2).toNat (← a.register? w 3) (a.after 4)
  | .setFrame => do
    return .capture (← a.block.blocks[(← a.word? 2).toNat]?) true (a.registerNumber? 1) (a.after 3)
  | .setShare => do
    return .capture (← a.block.blocks[(← a.word? 2).toNat]?) false (a.registerNumber? 1) (a.after 3)
  | .call => a.callAction w .call (.assign [] ∘ some)
  | .new => a.callAction w .new (.assign [] ∘ some)
  | .tryCall => a.callAction w .call .mark
  | .callMember => do
    let dst ← a.registerNumber? 1
    let receiver ← a.register? w 2
    let name ← w.textOf (← a.const? 3)
    let flags ← a.flags? 4
    let (args, n) ← a.list? w 5
    return .request receiver { operation := .call, name, flags, args, this := receiver } none
      (.assign name (some dst) (a.after (5 + n)))
  | .callBlock => do
    let dst ← a.registerNumber? 1
    let fn ← a.register? w 2
    let flags ← a.flags? 3
    let (args, n) ← a.list? w 4
    let (blocks, m) ← a.list? w (4 + n)
    return .request fn { operation := .call, flags, args, blocks } none
      (.assign [] (some dst) (a.after (4 + n + m)))
  | .sync => do
    let dst ← a.registerNumber? 1
    let fn ← a.register? w 2
    let lock ← a.register? w 3
    let flags ← a.flags? 4
    let (args, n) ← a.list? w 5
    match lock.object?.bind w.lockOwner? with
    | some owner =>
      return .request fn { operation := .call, flags, args } (some owner)
        (.mark dst (a.after (5 + n)))
    | none =>
      return .markError "IllegalArgumentException" (utf8 lock.kind.name ++ utf8 " has no lock") dst
        (a.after (5 + n))
  | .jump => return .goto (← a.target? 1)
  | .jumpTrue => do
    if (← a.register? w 1).toBool then return .goto (← a.target? 2) else return .goto (a.after 3)
  | .jumpFalse => do
    if (← a.register? w 1).toBool then return .goto (a.after 3) else return .goto (← a.target? 2)
  | .catchBranch => a.catchBranch w
  | .return => return .return (← a.register? w 1)
  | .throw => do
    let v ← a.register? w 1
    match a.caught, a.caught.bind w.thrown? with
    | some ref, some value =>
      if value.identical v then return .raise (.signal ref) else return .throwValue v
    | _, _ => return .throwValue v
  | .exitTry =>
    return .exit (← a.const? 2).toInteger (← a.word? 3).toNat (← a.register? w 1)
  | .unary op => do
    return .assign (a.registerNumber? 1) (← op.apply w.face (← a.register? w 2)) (a.after 3)
  | .binary op => do
    match op.apply w.face (← a.register? w 2) (← a.register? w 3) with
    | .ok v => return .assign (a.registerNumber? 1) v (a.after 4)
    | .error .divisionByZero =>
      return .throwException "DivideByZeroException" Value.OperatorError.divisionByZero.message
    | .error .textless => none
  | .instanceOf => do
    let v ← a.register? w 2
    let cls ← a.register? w 3
    match v with
    | .object .. =>
      return .request v { operation := .instanceOf, args := [cls] } none
        (.membership (a.registerNumber? 1) (a.after 4))
    | _ => return .assign (a.registerNumber? 1) (.bool false) (a.after 4)
  | .inContextOf => do
    let v ← a.register? w 2
    return .assign (a.registerNumber? 1) (v.withContext (← a.register? w 3).object?) (a.after 4)
  | .dget => do
    let target ← a.register? w 2
    let name ← w.textOf (← a.const? 3)
    return .request target { operation := .dget, name, flags := ← a.flags? 4 } none
      (.assign name (a.registerNumber? 1) (a.after 5))
  | .dset => do
    let target ← a.register? w 1
    let name ← w.textOf (← a.const? 2)
    let v ← a.register? w 3
    return .request target
      { operation := .dset, name, flags := ← a.flags? 4, args := [v], wantsResult := false } none
      (.skip name (a.after 5))
  | .iget => do
    let target ← a.register? w 2
    let key ← a.register? w 3
    return .request target { operation := .iget, flags := ← a.flags? 4, args := [key] } none
      (.assign [] (a.registerNumber? 1) (a.after 5))
  | .iset => do
    let target ← a.register? w 1
    let key ← a.register? w 2
    let v ← a.register? w 3
    return .request target
      { operation := .iset, flags := ← a.flags? 4, args := [key, v], wantsResult := false } none
      (.skip [] (a.after 5))
  | .dsetAttrib => do
    let target ← a.register? w 1
    let name ← w.textOf (← a.const? 2)
    return .request target
      { operation := .dsetAttrib, name, flags := ← a.flags? 3, wantsResult := false } none
      (.skip name (a.after 4))
  | .assert => do
    if e.config.assertions then
      if (← a.register? w 1).toBool then return .goto (a.after 3)
      else
        return .throwException "AssertionFailedException"
          (utf8 "assertion failed: " ++ (← w.textOf (← a.const? 2)))
    else return .goto (a.after 3)
  | .dump => do
    let count := (← a.word? 1).toNat
    if e.config.dump then
      let shown ← a.dumpText w (← a.words? 2 count)
      let (line, column) := a.block.position a.ip
      return .report (.dump a.block.title line column shown) (a.after (2 + count))
    else return .goto (a.after (2 + count))

/-- What the next instruction does. Code that has run to its end returns void. -/
def action (e : Engine) (w : World) (a : Activation) : Option Action :=
  if a.block.code.size ≤ a.ip then some (.return .void)
  else do
    let word ← a.word? 0
    match Opcode.ofCode? word.toNat with
    | some opcode => a.actionOf e w opcode
    | none =>
      return .panic <| a.complaint ++ utf8 "unknown opcode " ++ Text.ofNat word.toNat ++
        utf8 " at " ++ a.placeText

end Activation
end ScriptEngine
