import ScriptEngine.Proofs.Decoding

/-! What a successful check says about a block: every place that control can
reach is the start of an instruction or the end of the code, and every operand
of such an instruction is within the block's own bounds. -/
namespace ScriptEngine

theorem except_bind_ok {ε α β : Type} {x : Except ε α} {next : α → Except ε β} {result : β} :
    (x >>= next) = .ok result ↔ ∃ a, x = .ok a ∧ next a = .ok result := by
  cases x <;> simp [bind, Except.bind]

theorem except_bind_pure_ok {ε α β : Type} {x : Except ε α} {f : α → β} {result : β} :
    (x >>= fun a => pure (f a)) = .ok result ↔ ∃ a, x = .ok a ∧ result = f a := by
  cases x <;> simp [bind, Except.bind, pure, Except.pure, eq_comm]

theorem forM_ok {ε α : Type} {check : α → Except ε Unit} {items : List α} :
    items.forM check = .ok () ↔ ∀ x ∈ items, check x = .ok () := by
  induction items with
  | nil => simp [List.forM_nil, pure, Except.pure]
  | cons x rest ih =>
    change (check x >>= fun _ => rest.forM check) = .ok () ↔ _
    rw [except_bind_ok, List.forall_mem_cons, ← ih]
    exact ⟨fun ⟨⟨⟩, here, tail⟩ => ⟨here, tail⟩, fun ⟨here, tail⟩ => ⟨(), here, tail⟩⟩

/-- The places that an instruction can hand control to: the targets it names,
or else the place behind it. -/
def Instruction.successors (i : Instruction) : List Int :=
  match i.opcode, i.operands with
  | .jump, [d] => [i.offset + displacement d.word]
  | .jumpTrue, [_, d] | .jumpFalse, [_, d] =>
    [i.offset + displacement d.word, i.offset + i.length]
  | .catchBranch, [_, _, targets] => targets.words.map fun d => i.offset + displacement d
  | _, _ => [i.offset + i.length]

namespace CodeBlock

variable {b sub : CodeBlock} {places : List Int} {offset : Nat} {i : Instruction} {o : Operand}
  {place : Int}

/-- The places where an instruction starts when the code is decoded from its
first word on, and the end of the code. -/
def starts (b : CodeBlock) : List Int := b.boundaries (Instruction.sequence b.code).1

theorem checkTarget_ok {word : UInt32} :
    checkTarget places offset word = .ok () ↔ (offset : Int) + displacement word ∈ places := by
  simp only [checkTarget]
  split <;> simp_all

theorem checkRegister_ok {word : UInt32} :
    b.checkRegister word = .ok () ↔ (word.toNat : Int) < b.registers.toInt := by
  unfold checkRegister
  split <;> simp_all

/-- Each operand passes its check, under some level that stands before it. -/
theorem checkOperands_member {level? : Option Nat} {operands : List Operand}
    (checked : b.checkOperands places offset level? operands = .ok ()) (member : o ∈ operands) :
    ∃ level?, b.checkOperand places offset level? o = .ok () := by
  induction operands generalizing level? with
  | nil => simp at member
  | cons first rest ih =>
    simp only [checkOperands, except_bind_ok] at checked
    obtain ⟨⟨⟩, here, tail⟩ := checked
    rcases List.mem_cons.mp member with rfl | member
    · exact ⟨level?, here⟩
    · exact ih tail member

/-- An instruction whose operands have all been checked. -/
def Admits (b : CodeBlock) (i : Instruction) : Prop := b.checkInstruction b.starts i = .ok ()

namespace Admits

theorem operand (admits : b.Admits i) (member : o ∈ i.operands) :
    ∃ level?, b.checkOperand b.starts i.offset level? o = .ok () := by
  simp only [Admits, checkInstruction, except_bind_ok] at admits
  obtain ⟨⟨⟩, checked, -⟩ := admits
  exact checkOperands_member checked member

theorem register (admits : b.Admits i) (member : o ∈ i.operands) (kind : o.kind = .register) :
    (o.word.toNat : Int) < b.registers.toInt := by
  obtain ⟨_, checked⟩ := admits.operand member
  exact checkRegister_ok.mp (by simpa only [checkOperand, kind] using checked)

theorem registers (admits : b.Admits i) (member : o ∈ i.operands) (kind : o.kind = .registers) :
    ∀ word ∈ o.words, (word.toNat : Int) < b.registers.toInt := by
  obtain ⟨_, checked⟩ := admits.operand member
  simp only [checkOperand, kind] at checked
  exact fun word present => checkRegister_ok.mp (forM_ok.mp checked word present)

theorem constant (admits : b.Admits i) (member : o ∈ i.operands) (kind : o.kind = .constant) :
    o.word.toNat < b.consts.length := by
  obtain ⟨_, checked⟩ := admits.operand member
  simp only [checkOperand, kind] at checked
  split at checked
  · assumption
  · contradiction

theorem block (admits : b.Admits i) (member : o ∈ i.operands) (kind : o.kind = .block) :
    o.word.toNat < b.blocks.length := by
  obtain ⟨_, checked⟩ := admits.operand member
  simp only [checkOperand, kind] at checked
  split at checked
  · assumption
  · contradiction

theorem displacement (admits : b.Admits i) (member : o ∈ i.operands)
    (kind : o.kind = .displacement) :
    (i.offset : Int) + ScriptEngine.displacement o.word ∈ b.starts := by
  obtain ⟨_, checked⟩ := admits.operand member
  exact checkTarget_ok.mp (by simpa only [checkOperand, kind] using checked)

theorem displacements (admits : b.Admits i) (member : o ∈ i.operands)
    (kind : o.kind = .displacements) :
    o.words ≠ [] ∧ ∀ d ∈ o.words, (i.offset : Int) + ScriptEngine.displacement d ∈ b.starts := by
  obtain ⟨_, checked⟩ := admits.operand member
  simp only [checkOperand, kind] at checked
  split at checked
  · contradiction
  next some =>
    exact ⟨some, fun d present => checkTarget_ok.mp (forM_ok.mp checked d present)⟩

/-- A block that runs in the frame of its maker needs no more registers. -/
theorem frame {dst index : Operand} (admits : b.Admits i) (opcode : i.opcode = .setFrame)
    (operands : i.operands = [dst, index])
    (present : b.blocks[index.word.toNat]? = some (some sub)) :
    sub.registers.toInt ≤ b.registers.toInt := by
  simp only [Admits, checkInstruction, except_bind_ok] at admits
  obtain ⟨⟨⟩, -, checked⟩ := admits
  simp only [checkFrame, opcode, operands, present] at checked
  split at checked
  · contradiction
  next fits => exact Int64.le_iff_toInt_le.mp (Int64.not_lt.mp fits)

end Admits

theorem checkInstructions_member {instructions : List Instruction}
    (checked : b.checkInstructions places instructions = .ok ()) (member : i ∈ instructions) :
    b.checkInstruction places i = .ok () := by
  induction instructions with
  | nil => simp at member
  | cons first rest ih =>
    unfold checkInstructions at checked
    split at checked
    next passed =>
      rcases List.mem_cons.mp member with rfl | member
      · exact passed
      · exact ih checked member
    · contradiction

/-- What the check of a block apart from nested blocks establishes. -/
theorem checkOwn_ok (checked : b.checkOwn = .ok ()) :
    0 ≤ b.registers.toInt ∧ b.nestLevel.toInt = b.sharedSizes.length ∧
      ∃ instructions, Instruction.sequence b.code = (instructions, none) ∧
        ∀ i ∈ instructions, b.Admits i := by
  unfold checkOwn at checked
  split at checked
  · contradiction
  next size =>
    split at checked
    · contradiction
    next level =>
      split at checked
      · contradiction
      next instructions sequence =>
        refine ⟨Int64.le_iff_toInt_le.mp (Int64.not_lt.mp size), Decidable.not_not.mp level,
          instructions, sequence, ?_⟩
        intro i member
        simp only [Admits, CodeBlock.starts, sequence]
        exact checkInstructions_member checked member

/-- What the check of an enclosing block reads of a nested block. -/
def summary (b : CodeBlock) : Text × Int64 := (b.title, b.registers)

theorem checkFrame_congr {c : CodeBlock} (registers : c.registers = b.registers)
    (blocks : c.blocks.map (Option.map summary) = b.blocks.map (Option.map summary))
    (i : Instruction) : c.checkFrame i = b.checkFrame i := by
  have place (n : Nat) :
      c.blocks[n]?.map (Option.map summary) = b.blocks[n]?.map (Option.map summary) := by
    rw [← List.getElem?_map, ← List.getElem?_map, blocks]
  unfold checkFrame
  split
  next o _ _ =>
    specialize place o.word.toNat
    generalize c.blocks[o.word.toNat]? = p, b.blocks[o.word.toNat]? = q at place ⊢
    rcases p with _ | _ | sub <;> rcases q with _ | _ | sub' <;>
      simp only [Option.map_some, Option.map_none, Option.some.injEq, reduceCtorEq, summary,
        Prod.mk.injEq] at place
    · rfl
    · rfl
    · simp only [place, registers]
  · rfl

/-- The check of a block apart from nested blocks reads no identity and no
constants, and of nested blocks only titles and frame sizes. -/
theorem checkOwn_congr {c : CodeBlock} (code : c.code = b.code) (registers : c.registers = b.registers)
    (nestLevel : c.nestLevel = b.nestLevel) (sizes : c.sharedSizes = b.sharedSizes)
    (consts : c.consts.length = b.consts.length)
    (blocks : c.blocks.map (Option.map summary) = b.blocks.map (Option.map summary)) :
    c.checkOwn = b.checkOwn := by
  have count : c.blocks.length = b.blocks.length := by
    simpa using congrArg List.length blocks
  have operand (places : List Int) (offset : Nat) (level? : Option Nat) (o : Operand) :
      c.checkOperand places offset level? o = b.checkOperand places offset level? o := by
    unfold checkOperand checkRegister
    rw [registers, nestLevel, sizes, consts, count]
  have operands (places : List Int) (offset : Nat) (level? : Option Nat) (os : List Operand) :
      c.checkOperands places offset level? os = b.checkOperands places offset level? os := by
    induction os generalizing level? with
    | nil => rfl
    | cons o os ih => simp only [checkOperands, operand, ih]
  have instructions (places : List Int) (is : List Instruction) :
      c.checkInstructions places is = b.checkInstructions places is := by
    induction is with
    | nil => rfl
    | cons i is ih =>
      simp only [checkInstructions, checkInstruction, operands, checkFrame_congr registers blocks, ih]
  unfold checkOwn boundaries
  rw [registers, nestLevel, sizes, code]
  simp only [instructions]

theorem validateNested_ok {title : Text} {index : Nat} {blocks : List (Option CodeBlock)} :
    validateNested title index blocks = .ok () ↔
      ∀ place ∈ blocks, ∃ sub, place = some sub ∧ sub.validate = .ok () := by
  induction blocks generalizing index with
  | nil => simp [validateNested]
  | cons place rest ih =>
    cases place with
    | none => simp [validateNested, validatePlace]
    | some sub =>
      simp only [validateNested, validatePlace, List.forall_mem_cons, Option.some.injEq,
        exists_eq_left']
      cases sub.validate with
      | error => simp
      | ok => simp [ih]

theorem validate_ok :
    b.validate = .ok () ↔ b.checkOwn = .ok () ∧
      ∀ place ∈ b.blocks, ∃ sub, place = some sub ∧ sub.validate = .ok () := by
  obtain ⟨data, blocks⟩ := b
  rw [validate]
  cases checkOwn ⟨data, blocks⟩ with
  | error fault => simp
  | ok _ => simp [validateNested_ok]

theorem zero_mem_starts (valid : b.validate = .ok ()) : 0 ∈ b.starts := by
  obtain ⟨-, -, instructions, sequence, -⟩ := checkOwn_ok (validate_ok.mp valid).1
  simp only [CodeBlock.starts, boundaries, sequence, List.mem_append, List.mem_map,
    List.mem_singleton]
  rcases (Instruction.sequence_tiles sequence).starts with same | ⟨i, member, same⟩
  · exact .inr (by omega)
  · exact .inl ⟨i, member, by omega⟩

/-- At a place where control may be, either the code ends or an instruction
that has been checked decodes, and where it hands control to is such a place
again. -/
theorem instruction_at (valid : b.validate = .ok ()) (there : place ∈ b.starts) :
    place = b.code.size ∨ ∃ i, place = i.offset ∧ Instruction.decode b.code i.offset = .ok i ∧
      b.Admits i ∧ (i.offset : Int) + i.length ∈ b.starts := by
  obtain ⟨-, -, instructions, sequence, admits⟩ := checkOwn_ok (validate_ok.mp valid).1
  have tiles := Instruction.sequence_tiles sequence
  have starts : ∀ p : Int, p ∈ b.starts ↔
      (∃ i ∈ instructions, (i.offset : Int) = p) ∨ p = b.code.size := by
    simp [CodeBlock.starts, boundaries, sequence]
  rcases (starts place).mp there with ⟨i, member, rfl⟩ | same
  · refine .inr ⟨i, rfl, tiles.decode_member member, admits i member, (starts _).mpr ?_⟩
    rcases tiles.follows member with same | ⟨j, next, same⟩
    · exact .inr (by omega)
    · exact .inl ⟨j, next, by omega⟩
  · exact .inl same

/-- All places that a checked instruction can hand control to are starts. -/
theorem successors_mem_starts (decoded : Instruction.decode b.code i.offset = .ok i)
    (admits : b.Admits i) (behind : (i.offset : Int) + i.length ∈ b.starts) :
    ∀ place ∈ i.successors, place ∈ b.starts := by
  obtain ⟨_, _, -, -, read, -, -⟩ := Instruction.decode_eq_ok.mp decoded
  have kinds := Instruction.decodeOperands_kinds read
  have conditional : ∀ r d, i.operands = [r, d] → i.opcode.operands = [.register, .displacement] →
      ∀ place ∈ [(i.offset : Int) + displacement d.word, i.offset + i.length], place ∈ b.starts := by
    intro r d operands layout place member
    simp only [List.mem_cons, List.not_mem_nil, or_false] at member
    rcases member with rfl | rfl
    · exact admits.displacement (by simp [operands]) (by simp_all)
    · exact behind
  intro place member
  unfold Instruction.successors at member
  split at member
  next d opcode operands =>
    obtain rfl := List.mem_singleton.mp member
    exact admits.displacement (by simp [operands]) (by simp_all [Opcode.operands])
  next r d opcode operands => exact conditional r d operands (by simp [opcode, Opcode.operands]) _ member
  next r d opcode operands => exact conditional r d operands (by simp [opcode, Opcode.operands]) _ member
  next r k targets opcode operands =>
    obtain ⟨d, present, rfl⟩ := List.mem_map.mp member
    exact (admits.displacements (by simp [operands]) (by simp_all [Opcode.operands])).2 d present
  next =>
    obtain rfl := List.mem_singleton.mp member
    exact behind

end CodeBlock
end ScriptEngine
