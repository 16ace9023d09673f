import ScriptEngine.Proofs.WellFormed

/-! What the check of a block reads. The same check is written once more with reads
that fail where there is nothing to read, and with rounds that may run out. It
gives the same answer as the check of every block, so no read ever fails and the
rounds are always enough, whatever words the code holds. -/
namespace ScriptEngine

namespace Instruction

variable {code : Array UInt32} {kinds : List OperandKind} {pos offset fuel : Nat}

/-- The words of a range, which must lie within the code. -/
def slice? (code : Array UInt32) (start stop : Nat) : Option (List UInt32) :=
  if start ≤ stop ∧ stop ≤ code.size then some (code.extract start stop).toList else none

/-- Decodes operands; nothing if a word is read that is not there. -/
def decodeOperands? (code : Array UInt32) :
    List OperandKind → (pos : Nat) → Option (Except Shortage (List Operand × Nat))
  | [], pos => some (.ok ([], pos))
  | kind :: kinds, pos =>
    if code.size ≤ pos then some (.error .operand)
    else
      code[pos]?.bind fun word =>
        if kind.isList then
          let stop := pos + 1 + word.toNat
          if code.size < stop then some (.error .list)
          else
            (slice? code (pos + 1) stop).bind fun words =>
              (decodeOperands? code kinds stop).map fun later =>
                later.map fun (rest, last) => (⟨kind, word, words⟩ :: rest, last)
        else
          (decodeOperands? code kinds (pos + 1)).map fun later =>
            later.map fun (rest, last) => (⟨kind, word, []⟩ :: rest, last)

/-- Decodes an instruction; nothing if a word is read that is not there. -/
def decode? (code : Array UInt32) (offset : Nat) : Option (Except DecodeError Instruction) :=
  if code.size ≤ offset then some (.error (.outside offset code.size))
  else
    code[offset]?.bind fun word =>
      match Opcode.ofCode? word.toNat with
      | none => some (.error (.unknownOpcode word offset))
      | some opcode =>
        (decodeOperands? code opcode.operands (offset + 1)).map fun
          | .ok (operands, last) => .ok ⟨offset, opcode, operands, last - offset⟩
          | .error .operand => .error (.truncated opcode offset)
          | .error .list => .error (.truncatedList opcode offset)

/-- Decodes a code in a number of rounds; nothing if they run out. -/
def sequenceFrom? (code : Array UInt32) :
    (fuel pos : Nat) → Option (List Instruction × Option DecodeError)
  | 0, pos => if pos < code.size then none else some ([], none)
  | fuel + 1, pos =>
    if pos < code.size then
      (decode? code pos).bind fun
        | .ok i => (sequenceFrom? code fuel (pos + i.length)).map fun (rest, e) => (i :: rest, e)
        | .error e => some ([], some e)
    else some ([], none)

theorem decodeOperands?_eq :
    decodeOperands? code kinds pos = some (decodeOperands code kinds pos) := by
  induction kinds generalizing pos with
  | nil => rfl
  | cons kind kinds ih =>
    by_cases inside : pos < code.size
    · have found : code[pos]? = some code[pos] := Array.getElem?_eq_getElem inside
      simp only [decodeOperands?, decodeOperands, found, if_neg (Nat.not_le.mpr inside),
        Option.bind_some, ih, Option.map_some]
      split
      · split
        next short => rw [if_neg (Nat.not_le.mpr short)]
        next long =>
          have fits : pos + 1 + code[pos].toNat ≤ code.size := Nat.le_of_not_lt long
          rw [slice?, if_pos ⟨Nat.le_add_right _ _, fits⟩, if_pos fits]
          cases decodeOperands code kinds (pos + 1 + code[pos].toNat) <;> rfl
      · cases decodeOperands code kinds (pos + 1) <;> rfl
    · have outside : code.size ≤ pos := Nat.le_of_not_lt inside
      simp [decodeOperands?, decodeOperands, outside]

theorem decode?_eq : decode? code offset = some (decode code offset) := by
  by_cases inside : offset < code.size
  · have found : code[offset]? = some code[offset] := Array.getElem?_eq_getElem inside
    simp only [decode?, decode, found, if_neg (Nat.not_le.mpr inside), Option.bind_some,
      decodeOperands?_eq, Option.map_some]
    cases Opcode.ofCode? code[offset].toNat <;> rfl
  · have outside : code.size ≤ offset := Nat.le_of_not_lt inside
    simp [decode?, decode, outside]

/-- Each round takes a word at least. -/
theorem sequenceFrom?_eq (enough : code.size ≤ pos + fuel) :
    sequenceFrom? code fuel pos = some (sequenceFrom code fuel pos) := by
  induction fuel generalizing pos with
  | zero => simp [sequenceFrom?, sequenceFrom, show ¬pos < code.size by omega]
  | succ fuel ih =>
    rw [sequenceFrom?, sequenceFrom, decode?_eq]
    split
    · cases decoded : decode code pos with
      | error e => rfl
      | ok i =>
        have bounds := decode_bounds decoded
        have fewer : code.size ≤ pos + i.length + fuel := by omega
        simp only [Option.bind_some, ih fewer, Option.map_some]
    · rfl

theorem sequence?_eq : sequenceFrom? code code.size 0 = some (sequence code) :=
  sequenceFrom?_eq (Nat.le_of_eq (Nat.zero_add _).symm)

end Instruction

namespace CodeBlock

variable {b : CodeBlock} {places : List Int} {offset : Nat} {level? : Option Nat}
  {i : Instruction} {operands : List Operand} {instructions : List Instruction}

/-- Checks an operand; nothing if a size is read that is not there. -/
def checkOperand? (b : CodeBlock) (places : List Int) (offset : Nat) (level? : Option Nat)
    (o : Operand) : Option (Except InstructionFault Unit) :=
  match o.kind, level? with
  | .slot, some level =>
    if 0 < b.nestLevel then
      (b.sharedSizes[level]?).map fun size =>
        if size.toInt ≤ (o.word.toNat : Int) then .error (.slot o.word level size) else .ok ()
    else some (.ok ())
  | _, _ => some (b.checkOperand places offset level? o)

def checkOperands? (b : CodeBlock) (places : List Int) (offset : Nat) :
    Option Nat → List Operand → Option (Except InstructionFault Unit)
  | _, [] => some (.ok ())
  | level?, o :: rest =>
    (b.checkOperand? places offset level? o).bind fun
      | .ok _ =>
        b.checkOperands? places offset (if o.kind = .level then some o.word.toNat else level?) rest
      | .error fault => some (.error fault)

/-- Checks the frame of a closure; nothing if an operand or a nested block is read
that is not there. -/
def checkFrame? (b : CodeBlock) (i : Instruction) : Option (Except InstructionFault Unit) :=
  if i.opcode = .setFrame then
    (i.operands[1]?).bind fun o =>
      (b.blocks[o.word.toNat]?).map fun
        | some sub =>
          if b.registers < sub.registers then .error (.frame sub.title sub.registers b.registers)
          else .ok ()
        | none => .ok ()
  else some (.ok ())

def checkInstruction? (b : CodeBlock) (places : List Int) (i : Instruction) :
    Option (Except InstructionFault Unit) :=
  (b.checkOperands? places i.offset none i.operands).bind fun
    | .ok _ => b.checkFrame? i
    | .error fault => some (.error fault)

def checkInstructions? (b : CodeBlock) (places : List Int) :
    List Instruction → Option (Except BlockFault Unit)
  | [] => some (.ok ())
  | i :: rest =>
    (b.checkInstruction? places i).bind fun
      | .ok _ => b.checkInstructions? places rest
      | .error fault => some (.error (.instruction i.opcode i.offset fault))

/-- Checks a block apart from its nested blocks; nothing if a read fails or there
are more instructions than words. -/
def checkOwn? (b : CodeBlock) : Option (Except BlockFault Unit) :=
  if b.registers < 0 then some (.error (.frameSize b.registers))
  else if b.nestLevel.toInt ≠ b.sharedSizes.length then
    some (.error (.nestLevel b.nestLevel b.sharedSizes.length))
  else
    (Instruction.sequenceFrom? b.code b.code.size 0).bind fun
      | (_, some e) => some (.error (.undecodable e))
      | (instructions, none) => b.checkInstructions? (b.boundaries instructions) instructions

mutual

/-- Checks a block and all blocks nested in it; nothing if a read fails or there are
more instructions than words. -/
def validate? : CodeBlock → Option (Except BlockError Unit)
  | ⟨data, blocks⟩ =>
    (checkOwn? ⟨data, blocks⟩).bind fun
      | .error fault => some (.error ⟨data.title, fault⟩)
      | .ok _ => validateNested? data.title 0 blocks

def validateNested? (title : Text) (index : Nat) :
    List (Option CodeBlock) → Option (Except BlockError Unit)
  | [] => some (.ok ())
  | sub :: rest =>
    (validatePlace? title index sub).bind fun
      | .error e => some (.error e)
      | .ok _ => validateNested? title (index + 1) rest

def validatePlace? (title : Text) (index : Nat) :
    Option CodeBlock → Option (Except BlockError Unit)
  | none => some (.error ⟨title, .vacant index⟩)
  | some sub => validate? sub

end

theorem checkOperand?_eq (o : Operand)
    (bounded : 0 < b.nestLevel → ∀ level, level? = some level → level < b.sharedSizes.length) :
    b.checkOperand? places offset level? o = some (b.checkOperand places offset level? o) := by
  unfold checkOperand?
  split
  next level slot =>
    simp only [checkOperand, slot]
    by_cases nested : 0 < b.nestLevel
    · have inside := bounded nested level rfl
      simp [nested, inside]
    · simp [nested]
  · rfl

/-- A level is below the number of sizes once it has passed its own check, and only
then a slot is read. -/
theorem checkOperands?_eq (nesting : b.nestLevel.toInt = b.sharedSizes.length)
    (bounded : 0 < b.nestLevel → ∀ level, level? = some level → level < b.sharedSizes.length) :
    b.checkOperands? places offset level? operands =
      some (b.checkOperands places offset level? operands) := by
  induction operands generalizing level? with
  | nil => rfl
  | cons o rest ih =>
    rw [checkOperands?, checkOperand?_eq o bounded, checkOperands]
    cases checked : b.checkOperand places offset level? o with
    | error fault => rfl
    | ok =>
      refine ih fun nested level same => ?_
      split at same
      next kind =>
        cases same
        rw [checkOperand_congr (by simp [kind]) level? none] at checked
        obtain ⟨-, -, -, -, -, -, inside⟩ := checkOperand_ok_iff.mp checked
        have below := inside kind nested
        omega
      · exact bounded nested level same

/-- The operands of a closure that shares its maker's frame are checked before the
block that it is made of is read. -/
theorem checkFrame?_eq (regular : i.Regular)
    (checked : b.checkOperands places i.offset none i.operands = .ok ()) :
    b.checkFrame? i = some (b.checkFrame i) := by
  unfold checkFrame?
  split
  next makes =>
    have kinds := regular.kinds
    simp only [makes, Opcode.operands] at kinds
    obtain ⟨dst, others, same, -, kinds⟩ := List.map_eq_cons_iff.mp kinds
    obtain ⟨o, others, rfl, isBlock, kinds⟩ := List.map_eq_cons_iff.mp kinds
    obtain rfl := List.map_eq_nil_iff.mp kinds
    obtain ⟨each, -⟩ := (checkOperands_ok_iff regular.kinds).mp checked
    have passed := each o (by simp [same]) (by simp [isBlock])
    have inside : o.word.toNat < b.blocks.length :=
      (checkOperand_ok_iff.mp passed).2.2.2.1 isBlock
    have there : b.blocks[o.word.toNat]? = some (b.blocks[o.word.toNat]) :=
      List.getElem?_eq_getElem inside
    simp only [checkFrame, makes, same, there, List.getElem?_cons_succ, List.getElem?_cons_zero,
      Option.bind_some, Option.map_some]
    split <;> simp_all
  next other =>
    unfold checkFrame
    split
    · contradiction
    · rfl

theorem checkInstruction?_eq (regular : i.Regular)
    (nesting : b.nestLevel.toInt = b.sharedSizes.length) :
    b.checkInstruction? places i = some (b.checkInstruction places i) := by
  rw [checkInstruction?, checkOperands?_eq nesting (by simp), checkInstruction]
  cases checked : b.checkOperands places i.offset none i.operands with
  | error fault => rfl
  | ok => exact checkFrame?_eq regular checked

theorem checkInstructions?_eq (regular : ∀ i ∈ instructions, i.Regular)
    (nesting : b.nestLevel.toInt = b.sharedSizes.length) :
    b.checkInstructions? places instructions = some (b.checkInstructions places instructions) := by
  induction instructions with
  | nil => rfl
  | cons i rest ih =>
    obtain ⟨here, later⟩ := List.forall_mem_cons.mp regular
    rw [checkInstructions?, checkInstruction?_eq here nesting, checkInstructions]
    cases b.checkInstruction places i with
    | error fault => rfl
    | ok => exact ih later

theorem checkOwn?_eq : b.checkOwn? = some b.checkOwn := by
  rw [checkOwn?, checkOwn]
  split
  · rfl
  · split
    · rfl
    next nesting =>
      rw [Instruction.sequence?_eq, Option.bind_some]
      cases read : Instruction.sequence b.code with
      | mk instructions fault =>
        cases fault with
        | some e => rfl
        | none =>
          have spells := Instruction.sequence_eq_iff.mp read
          exact checkInstructions?_eq spells.regular (Decidable.not_not.mp nesting)

theorem validateNested?_eq {blocks : List (Option CodeBlock)} {title : Text} {index : Nat}
    (each : ∀ sub, some sub ∈ blocks → sub.validate? = some sub.validate) :
    validateNested? title index blocks = some (validateNested title index blocks) := by
  induction blocks generalizing index with
  | nil => rfl
  | cons place rest ih =>
    have here : validatePlace? title index place = some (validatePlace title index place) := by
      cases place with
      | none => rfl
      | some sub => exact each sub (List.mem_cons_self ..)
    rw [validateNested?, here, validateNested]
    cases validatePlace title index place with
    | error e => rfl
    | ok => exact ih fun sub member => each sub (List.mem_cons_of_mem _ member)

theorem validate?_eq (b : CodeBlock) : b.validate? = some b.validate := by
  induction b using nested_induction with
  | step b ih =>
    obtain ⟨data, blocks⟩ := b
    rw [validate?, checkOwn?_eq, validate]
    cases checkOwn ⟨data, blocks⟩ with
    | error fault => rfl
    | ok => exact validateNested?_eq ih

/-- The check of a block always comes to an end without reading outside of it, and it
accepts exactly the well-formed blocks, whose code is written in one way only. -/
theorem validation_exact (b : CodeBlock) :
    b.validate? = some b.validate ∧ (b.validate = .ok () ↔ WellFormed b) ∧
      ∀ instructions others, Instruction.Spells b.code instructions →
        Instruction.Spells b.code others → instructions = others :=
  ⟨validate?_eq b, validate_ok_iff_wellFormed b, fun _ _ one other => other.unique one⟩

/-- A block of one level that makes a closure to run in its own frame, writes it to
the level and begins anew. -/
def rewriting : CodeBlock :=
  { code? := some #[21, 0, 0, 20, 0, 0, 0, 29, displacementWord (-7)], registers := 1
    nestLevel := 1, sharedSizes? := some [1]
    blocks := [some { code? := some #[33, 0], registers := 1 }] }

/-- It is well formed, but not so if the closure needs more registers. -/
theorem rewriting_validation :
    WellFormed rewriting ∧
      ¬WellFormed { rewriting with blocks := [some { code? := some #[33, 1], registers := 2 }] } :=
  ⟨(validation_exact rewriting).2.1.mp rfl, fun wellFormed => nomatch
    (validation_exact _).2.1.mpr wellFormed⟩

end CodeBlock
end ScriptEngine
