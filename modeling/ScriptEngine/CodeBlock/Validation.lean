import ScriptEngine.CodeBlock

/-! Checking a block before it runs: every index its code uses is within the
block's own bounds, every jump lands on an instruction, and the same holds of
all nested blocks. -/
namespace ScriptEngine

/-- What is wrong with an instruction. -/
inductive InstructionFault where
  | register (index : UInt32) (size : Int64)
  | constant (index : UInt32) (size : Nat)
  | block (index : UInt32) (count : Nat)
  | target (place : Int)
  | noTargets
  | level (index : UInt32) (nestLevel : Int64)
  | slot (index : UInt32) (level : Nat) (size : Int64)
  | frame (title : Text) (needed available : Int64)
deriving DecidableEq, Repr

/-- The wording of an instruction fault. -/
def InstructionFault.message : InstructionFault → Text
  | .register index size =>
    utf8 "register " ++ Text.ofNat index.toNat ++ utf8 " out of range (frame size " ++
      Text.ofInt size.toInt ++ utf8 ")"
  | .constant index size =>
    utf8 "constant " ++ Text.ofNat index.toNat ++ utf8 " out of range (pool size " ++
      Text.ofNat size ++ utf8 ")"
  | .block index count =>
    utf8 "block " ++ Text.ofNat index.toNat ++ utf8 " out of range (" ++ Text.ofNat count ++
      utf8 " nested blocks)"
  | .target place =>
    utf8 "jump target " ++ Text.ofInt place ++ utf8 " is not an instruction boundary"
  | .noTargets => utf8 "empty target list"
  | .level index nestLevel =>
    utf8 "shared level " ++ Text.ofNat index.toNat ++ utf8 " out of range (nest level " ++
      Text.ofInt nestLevel.toInt ++ utf8 ")"
  | .slot index depth size =>
    utf8 "shared slot " ++ Text.ofNat index.toNat ++ utf8 " out of range (level " ++
      Text.ofNat depth ++ utf8 " size " ++ Text.ofInt size.toInt ++ utf8 ")"
  | .frame title needed available =>
    utf8 "block " ++ title ++ utf8 " needs " ++ Text.ofInt needed.toInt ++ utf8 " registers, frame has " ++
      Text.ofInt available.toInt

/-- What is wrong with a block. -/
inductive BlockFault where
  | frameSize (size : Int64)
  | nestLevel (level : Int64) (count : Nat)
  | undecodable (error : DecodeError)
  | instruction (opcode : Opcode) (offset : Nat) (fault : InstructionFault)
  | vacant (index : Nat)
deriving DecidableEq, Repr

/-- A fault and the block that has it. -/
structure BlockError where
  title : Text
  fault : BlockFault
deriving DecidableEq, Repr

/-- The wording of a block fault. -/
def BlockFault.message : BlockFault → Text
  | .frameSize size => utf8 "negative frame size " ++ Text.ofInt size.toInt
  | .nestLevel level count =>
    utf8 "nest level " ++ Text.ofInt level.toInt ++ utf8 " but " ++ Text.ofNat count ++
      utf8 " shared sizes"
  | .undecodable error => error.message
  | .instruction opcode offset fault =>
    utf8 opcode.name ++ utf8 " at " ++ Text.ofNat offset ++ utf8 ": " ++ fault.message
  | .vacant index => utf8 "nested block " ++ Text.ofNat index ++ utf8 " is nil"

/-- The wording of a block error. -/
def BlockError.message (e : BlockError) : Text := e.title ++ utf8 ": " ++ e.fault.message

namespace CodeBlock

/-- A register index lies in the frame. -/
def checkRegister (b : CodeBlock) (w : UInt32) : Except InstructionFault Unit :=
  if (w.toNat : Int) < b.registers.toInt then .ok () else .error (.register w b.registers)

/-- A displacement from `offset` lands on a boundary. -/
def checkTarget (starts : List Int) (offset : Nat) (w : UInt32) : Except InstructionFault Unit :=
  let place := (offset : Int) + displacement w
  if place ∈ starts then .ok () else .error (.target place)

/-- Checks an operand. The level operand before a slot says which size bounds
the slot; a block without nesting runs against a chain that is known only then. -/
def checkOperand (b : CodeBlock) (starts : List Int) (offset : Nat) (level? : Option Nat)
    (o : Operand) : Except InstructionFault Unit :=
  match o.kind with
  | .register => b.checkRegister o.word
  | .registers => o.words.forM b.checkRegister
  | .constant =>
    if o.word.toNat < b.consts.length then .ok () else .error (.constant o.word b.consts.length)
  | .block =>
    if o.word.toNat < b.blocks.length then .ok () else .error (.block o.word b.blocks.length)
  | .displacement => checkTarget starts offset o.word
  | .displacements =>
    if o.words = [] then .error .noTargets else o.words.forM (checkTarget starts offset)
  | .level =>
    if b.nestLevel > 0 ∧ b.nestLevel.toInt ≤ (o.word.toNat : Int) then .error (.level o.word b.nestLevel)
    else .ok ()
  | .slot =>
    match level? with
    | some level =>
      let size := b.sharedSizes.getD level 0
      if b.nestLevel > 0 ∧ size.toInt ≤ (o.word.toNat : Int) then .error (.slot o.word level size)
      else .ok ()
    | none => .ok ()
  | .flags | .immediate => .ok ()

/-- Checks operands from left to right. -/
def checkOperands (b : CodeBlock) (starts : List Int) (offset : Nat) :
    Option Nat → List Operand → Except InstructionFault Unit
  | _, [] => .ok ()
  | level?, o :: rest => do
    b.checkOperand starts offset level? o
    b.checkOperands starts offset (if o.kind = .level then some o.word.toNat else level?) rest

/-- A closure that runs in this block's own frame must fit into it. -/
def checkFrame (b : CodeBlock) (i : Instruction) : Except InstructionFault Unit :=
  match i.opcode, i.operands with
  | .setFrame, [_, o] =>
    match b.blocks[o.word.toNat]? with
    | some (some sub) =>
      if b.registers < sub.registers then .error (.frame sub.title sub.registers b.registers)
      else .ok ()
    | _ => .ok ()
  | _, _ => .ok ()

/-- Checks an instruction. -/
def checkInstruction (b : CodeBlock) (starts : List Int) (i : Instruction) :
    Except InstructionFault Unit := do
  b.checkOperands starts i.offset none i.operands
  b.checkFrame i

/-- Checks instructions in order; the first fault is reported. -/
def checkInstructions (b : CodeBlock) (starts : List Int) :
    List Instruction → Except BlockFault Unit
  | [] => .ok ()
  | i :: rest =>
    match b.checkInstruction starts i with
    | .ok _ => b.checkInstructions starts rest
    | .error fault => .error (.instruction i.opcode i.offset fault)

/-- The places where an instruction starts, and the end of the code. -/
def boundaries (b : CodeBlock) (instructions : List Instruction) : List Int :=
  instructions.map (fun i => (i.offset : Int)) ++ [(b.code.size : Int)]

/-- Checks a block apart from its nested blocks. -/
def checkOwn (b : CodeBlock) : Except BlockFault Unit :=
  if b.registers < 0 then .error (.frameSize b.registers)
  else if b.nestLevel.toInt ≠ b.sharedSizes.length then
    .error (.nestLevel b.nestLevel b.sharedSizes.length)
  else
    match Instruction.sequence b.code with
    | (_, some e) => .error (.undecodable e)
    | (instructions, none) => b.checkInstructions (b.boundaries instructions) instructions

mutual

/-- Checks a block and all blocks nested in it. -/
def validate : CodeBlock → Except BlockError Unit
  | ⟨data, blocks⟩ =>
    match checkOwn ⟨data, blocks⟩ with
    | .error fault => .error ⟨data.title, fault⟩
    | .ok _ => validateNested data.title 0 blocks

/-- Checks nested blocks in order, the first of which has the given index. -/
def validateNested (title : Text) (index : Nat) : List (Option CodeBlock) → Except BlockError Unit
  | [] => .ok ()
  | sub :: rest =>
    match validatePlace title index sub with
    | .error e => .error e
    | .ok _ => validateNested title (index + 1) rest

/-- Checks one place for a nested block. -/
def validatePlace (title : Text) (index : Nat) : Option CodeBlock → Except BlockError Unit
  | none => .error ⟨title, .vacant index⟩
  | some sub => validate sub

end

end CodeBlock
end ScriptEngine
