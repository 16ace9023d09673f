import ScriptEngine.Proofs.InstructionWords
import ScriptEngine.Proofs.ValidBlock

/-! Well-formed blocks. What a block has to be is said without the check: its code
is written as instructions of the operand table, whose operands stay within what
the block declares. The check accepts exactly these blocks. -/
namespace ScriptEngine

/-- Levels and slots stand in the operand table as pairs, one of them at most. -/
theorem Opcode.level_then_slot (op : Opcode) :
    (∀ kind ∈ op.operands, kind ≠ .level ∧ kind ≠ .slot) ∨
      ∃ before after, op.operands = before ++ .level :: .slot :: after ∧
        (∀ kind ∈ before, kind ≠ .level ∧ kind ≠ .slot) ∧
        ∀ kind ∈ after, kind ≠ .level ∧ kind ≠ .slot := by
  cases op with
  | bindingMap => exact .inr ⟨[.register, .constant], [], rfl, by decide, by decide⟩
  | read => exact .inr ⟨[.register], [], rfl, by decide, by decide⟩
  | write => exact .inr ⟨[], [.register], rfl, by decide, by decide⟩
  | _ => exact .inl (by simp [operands])

namespace CodeBlock

variable {b : CodeBlock} {places : List Int} {offset : Nat} {level? : Option Nat}
  {i : Instruction} {o : Operand} {operands before rest : List Operand}
  {instructions : List Instruction}

/-- A place is the start of an instruction or the end of the code. -/
def Boundary (b : CodeBlock) (instructions : List Instruction) (place : Int) : Prop :=
  (∃ i ∈ instructions, (i.offset : Int) = place) ∨ place = b.code.size

/-- An instruction among others keeps within the bounds that a block declares. A
block without levels of its own says nothing about levels and slots. -/
structure Within (b : CodeBlock) (instructions : List Instruction) (i : Instruction) : Prop where
  register : ∀ o ∈ i.operands, o.kind = .register → (o.word.toNat : Int) < b.registers.toInt
  registers : ∀ o ∈ i.operands, o.kind = .registers →
    ∀ word ∈ o.words, (word.toNat : Int) < b.registers.toInt
  constant : ∀ o ∈ i.operands, o.kind = .constant → o.word.toNat < b.consts.length
  block : ∀ o ∈ i.operands, o.kind = .block → o.word.toNat < b.blocks.length
  target : ∀ o ∈ i.operands, o.kind = .displacement →
    b.Boundary instructions (i.offset + displacement o.word)
  targets : ∀ o ∈ i.operands, o.kind = .displacements →
    o.words ≠ [] ∧ ∀ d ∈ o.words, b.Boundary instructions (i.offset + displacement d)
  level : 0 < b.nestLevel → ∀ o ∈ i.operands, o.kind = .level →
    o.word.toNat < b.sharedSizes.length
  slot : 0 < b.nestLevel → ∀ l ∈ i.operands, ∀ s ∈ i.operands, l.kind = .level → s.kind = .slot →
    ∃ size, b.sharedSizes[l.word.toNat]? = some size ∧ (s.word.toNat : Int) < size.toInt
  frame : i.opcode = .setFrame → ∀ o ∈ i.operands, o.kind = .block →
    ∀ sub, b.blocks[o.word.toNat]? = some (some sub) → sub.registers.toInt ≤ b.registers.toInt

/-- What a block has to be. -/
inductive WellFormed : CodeBlock → Prop
  | block {b : CodeBlock} (registers : 0 ≤ b.registers.toInt)
      (nesting : b.nestLevel.toInt = b.sharedSizes.length) (instructions : List Instruction)
      (spells : Instruction.Spells b.code instructions)
      (within : ∀ i ∈ instructions, b.Within instructions i)
      (filled : none ∉ b.blocks) (nested : ∀ sub, some sub ∈ b.blocks → WellFormed sub) :
      WellFormed b

/-! ### Operands -/

theorem checkOperand_congr (other : o.kind ≠ .slot) (level? level'? : Option Nat) :
    b.checkOperand places offset level? o = b.checkOperand places offset level'? o := by
  unfold checkOperand
  split <;> first | rfl | contradiction

theorem check_then_ok {ε β : Type} {x : Except ε Unit} {next : Except ε β} {result : β} :
    (x >>= fun _ => next) = .ok result ↔ x = .ok () ∧ next = .ok result := by
  rw [except_bind_ok]
  constructor
  · rintro ⟨⟨⟩, here, later⟩
    exact ⟨here, later⟩
  · intro both
    exact ⟨(), both⟩

theorem checkOperands_cons :
    b.checkOperands places offset level? (o :: rest) = .ok () ↔
      b.checkOperand places offset level? o = .ok () ∧
        b.checkOperands places offset (if o.kind = .level then some o.word.toNat else level?) rest =
          .ok () := by
  rw [checkOperands, check_then_ok]

/-- Operands that are no levels leave the level as it is. -/
theorem checkOperands_append (others : ∀ o ∈ before, o.kind ≠ .level ∧ o.kind ≠ .slot) :
    b.checkOperands places offset level? (before ++ rest) = .ok () ↔
      (∀ o ∈ before, b.checkOperand places offset none o = .ok ()) ∧
        b.checkOperands places offset level? rest = .ok () := by
  induction before with
  | nil => simp
  | cons o before ih =>
    obtain ⟨here, later⟩ := List.forall_mem_cons.mp others
    rw [List.cons_append, checkOperands_cons, if_neg here.1, ih later, List.forall_mem_cons,
      checkOperand_congr here.2 level? none, and_assoc]

/-- The operands of an instruction are checked one by one, and a slot against the
level of the same instruction. -/
theorem checkOperands_ok_iff {op : Opcode} (kinds : operands.map (·.kind) = op.operands) :
    b.checkOperands places offset none operands = .ok () ↔
      (∀ o ∈ operands, o.kind ≠ .slot → b.checkOperand places offset none o = .ok ()) ∧
        ∀ l ∈ operands, ∀ s ∈ operands, l.kind = .level → s.kind = .slot →
          b.checkOperand places offset (some l.word.toNat) s = .ok () := by
  rcases op.level_then_slot with plain | ⟨before, after, layout, front, back⟩
  · have others : ∀ o ∈ operands, o.kind ≠ .level ∧ o.kind ≠ .slot :=
      fun o member => plain _ (kinds ▸ List.mem_map_of_mem member)
    rw [← List.append_nil operands, checkOperands_append others, List.append_nil]
    constructor
    · rintro ⟨each, -⟩
      exact ⟨fun o member _ => each o member,
        fun l member _ _ level => absurd level (others l member).1⟩
    · rintro ⟨each, -⟩
      exact ⟨fun o member => each o member (others o member).2, rfl⟩
  · rw [layout] at kinds
    obtain ⟨first, others, rfl, rfl, pair⟩ := List.map_eq_append_iff.mp kinds
    obtain ⟨l, others, rfl, isLevel, pair⟩ := List.map_eq_cons_iff.mp pair
    obtain ⟨s, last, rfl, isSlot, rfl⟩ := List.map_eq_cons_iff.mp pair
    rw [List.forall_mem_map] at front back
    have cases : ∀ o ∈ first ++ l :: s :: last, o = l ∨ o = s ∨
        (o ∈ first ∨ o ∈ last) ∧ o.kind ≠ .level ∧ o.kind ≠ .slot := by
      intro o member
      simp only [List.mem_append, List.mem_cons] at member
      rcases member with member | rfl | rfl | member
      · exact .inr (.inr ⟨.inl member, front o member⟩)
      · exact .inl rfl
      · exact .inr (.inl rfl)
      · exact .inr (.inr ⟨.inr member, back o member⟩)
    rw [checkOperands_append front, checkOperands_cons, checkOperands_cons, if_pos isLevel,
      if_neg (by simp [isSlot]), ← List.append_nil last, checkOperands_append back,
      List.append_nil]
    constructor
    · rintro ⟨before, level, slot, after, -⟩
      refine ⟨fun o member other => ?_, fun l' isMember s' isMember' isLevel' isSlot' => ?_⟩
      · rcases cases o member with rfl | rfl | ⟨member | member, -⟩
        · exact level
        · exact absurd isSlot other
        · exact before o member
        · exact after o member
      · obtain rfl : l' = l := by
          rcases cases l' isMember with same | rfl | ⟨-, other, -⟩
          · exact same
          · cases isSlot.symm.trans isLevel'
          · exact absurd isLevel' other
        obtain rfl : s' = s := by
          rcases cases s' isMember' with rfl | same | ⟨-, -, other⟩
          · cases isLevel.symm.trans isSlot'
          · exact same
          · exact absurd isSlot' other
        exact slot
    · rintro ⟨each, slots⟩
      refine ⟨fun o member => each o (by simp [member]) (front o member).2,
        each l (by simp) (by simp [isLevel]),
        slots l (by simp) s (by simp) isLevel isSlot,
        fun o member => each o (by simp [member]) (back o member).2, rfl⟩

/-- What the check of an operand without a level amounts to. -/
theorem checkOperand_ok_iff :
    b.checkOperand places offset none o = .ok () ↔
      (o.kind = .register → (o.word.toNat : Int) < b.registers.toInt) ∧
      (o.kind = .registers → ∀ word ∈ o.words, (word.toNat : Int) < b.registers.toInt) ∧
      (o.kind = .constant → o.word.toNat < b.consts.length) ∧
      (o.kind = .block → o.word.toNat < b.blocks.length) ∧
      (o.kind = .displacement → (offset : Int) + displacement o.word ∈ places) ∧
      (o.kind = .displacements →
        o.words ≠ [] ∧ ∀ d ∈ o.words, (offset : Int) + displacement d ∈ places) ∧
      (o.kind = .level → 0 < b.nestLevel → (o.word.toNat : Int) < b.nestLevel.toInt) := by
  unfold checkOperand
  cases kind : o.kind <;>
    simp only [reduceCtorEq, false_implies, true_implies, and_true, true_and, checkRegister_ok,
      checkTarget_ok, forM_ok]
  case constant => split <;> simp_all
  case block => split <;> simp_all
  case displacements =>
    split
    next none => simp [none]
    next some => simp only [forM_ok, checkTarget_ok, some, ne_eq, not_false_eq_true, true_and]
  case level => split <;> simp_all

/-- A slot is checked against the size of its level. -/
theorem checkOperand_slot_ok_iff {level : Nat} (slot : o.kind = .slot) :
    b.checkOperand places offset (some level) o = .ok () ↔
      (0 < b.nestLevel → (o.word.toNat : Int) < (b.sharedSizes.getD level 0).toInt) := by
  simp only [checkOperand, slot]
  split <;> simp_all

/-- A closure that runs in the frame of its maker is checked against that. -/
theorem checkFrame_ok_iff (regular : i.Regular) :
    b.checkFrame i = .ok () ↔ (i.opcode = .setFrame → ∀ o ∈ i.operands, o.kind = .block →
      ∀ sub, b.blocks[o.word.toNat]? = some (some sub) →
        sub.registers.toInt ≤ b.registers.toInt) := by
  by_cases makes : i.opcode = .setFrame
  · have kinds := regular.kinds
    simp only [makes, Opcode.operands] at kinds
    obtain ⟨dst, others, same, isRegister, kinds⟩ := List.map_eq_cons_iff.mp kinds
    obtain ⟨o, others, rfl, isBlock, kinds⟩ := List.map_eq_cons_iff.mp kinds
    obtain rfl := List.map_eq_nil_iff.mp kinds
    simp only [checkFrame, makes, same, true_implies, List.forall_mem_cons, isRegister, isBlock,
      reduceCtorEq, false_implies, true_and, List.not_mem_nil, implies_true, and_true]
    split
    next sub there =>
      simp only [there, Option.some.injEq, forall_eq']
      rw [← Int64.le_iff_toInt_le, ← Int64.not_lt]
      split <;> simp_all
    next absent =>
      simp only [true_iff]
      exact fun sub there => absurd there (absent sub)
  · unfold checkFrame
    split
    · contradiction
    · simp [makes]

theorem mem_boundaries {place : Int} :
    place ∈ b.boundaries instructions ↔ b.Boundary instructions place := by
  simp [boundaries, Boundary]

/-- An instruction passes the check if it keeps within the bounds. -/
theorem checkInstruction_ok_iff (regular : i.Regular)
    (nesting : b.nestLevel.toInt = b.sharedSizes.length) :
    b.checkInstruction (b.boundaries instructions) i = .ok () ↔ b.Within instructions i := by
  have parts : b.checkInstruction (b.boundaries instructions) i = .ok () ↔
      b.checkOperands (b.boundaries instructions) i.offset none i.operands = .ok () ∧
        b.checkFrame i = .ok () := by
    rw [checkInstruction, check_then_ok]
  rw [parts, checkOperands_ok_iff regular.kinds, checkFrame_ok_iff regular]
  simp only [checkOperand_ok_iff, mem_boundaries]
  constructor
  · rintro ⟨⟨each, slots⟩, frame⟩
    have plain (o : Operand) (member : o ∈ i.operands) {kind : OperandKind} (same : o.kind = kind)
        (other : kind ≠ .slot) := each o member (same ▸ other)
    have level (nested : 0 < b.nestLevel) (o : Operand) (member : o ∈ i.operands)
        (kind : o.kind = .level) : o.word.toNat < b.sharedSizes.length := by
      obtain ⟨-, -, -, -, -, -, inside⟩ := plain o member kind (by simp)
      have below := inside kind nested
      omega
    refine ⟨?_, ?_, ?_, ?_, ?_, ?_, level, ?_, frame⟩
    · exact fun o member kind => (plain o member kind (by simp)).1 kind
    · exact fun o member kind => (plain o member kind (by simp)).2.1 kind
    · exact fun o member kind => (plain o member kind (by simp)).2.2.1 kind
    · exact fun o member kind => (plain o member kind (by simp)).2.2.2.1 kind
    · exact fun o member kind => (plain o member kind (by simp)).2.2.2.2.1 kind
    · exact fun o member kind => (plain o member kind (by simp)).2.2.2.2.2.1 kind
    · intro nested l inL s inS isLevel isSlot
      refine ⟨b.sharedSizes.getD l.word.toNat 0, by simp [level nested l inL isLevel], ?_⟩
      exact (checkOperand_slot_ok_iff isSlot).mp (slots l inL s inS isLevel isSlot) nested
  · intro within
    refine ⟨⟨fun o member _ => ?_, fun l inL s inS isLevel isSlot => ?_⟩, within.frame⟩
    · refine ⟨within.register o member, within.registers o member, within.constant o member,
        within.block o member, within.target o member, within.targets o member, ?_⟩
      intro kind nested
      have inside := within.level nested o member kind
      omega
    · refine (checkOperand_slot_ok_iff isSlot).mpr fun nested => ?_
      obtain ⟨size, there, below⟩ := within.slot nested l inL s inS isLevel isSlot
      simpa [List.getD_eq_getElem?_getD, there] using below

theorem checkInstructions_ok_iff :
    b.checkInstructions places instructions = .ok () ↔
      ∀ i ∈ instructions, b.checkInstruction places i = .ok () := by
  refine ⟨fun checked i => checkInstructions_member checked, fun each => ?_⟩
  induction instructions with
  | nil => rfl
  | cons i rest ih =>
    obtain ⟨here, later⟩ := List.forall_mem_cons.mp each
    rw [checkInstructions, here]
    exact ih later

/-- A block apart from its nested blocks passes the check if its code is written as
instructions that keep within the bounds. -/
theorem checkOwn_ok_iff :
    b.checkOwn = .ok () ↔ 0 ≤ b.registers.toInt ∧ b.nestLevel.toInt = b.sharedSizes.length ∧
      ∃ instructions, Instruction.Spells b.code instructions ∧
        ∀ i ∈ instructions, b.Within instructions i := by
  have size : ¬b.registers < 0 ↔ 0 ≤ b.registers.toInt := by
    rw [Int64.not_lt, Int64.le_iff_toInt_le]
    rfl
  unfold checkOwn
  rw [← size]
  split
  next negative => simp [negative]
  next fits =>
    split
    next other => simp [other]
    next level =>
      have nesting : b.nestLevel.toInt = b.sharedSizes.length := Decidable.not_not.mp level
      have each {instructions : List Instruction}
          (spells : Instruction.Spells b.code instructions) :
          b.checkInstructions (b.boundaries instructions) instructions = .ok () ↔
            ∀ i ∈ instructions, b.Within instructions i := by
        rw [checkInstructions_ok_iff]
        exact forall₂_congr fun i member =>
          checkInstruction_ok_iff (spells.regular i member) nesting
      split
      next instructions e broken =>
        simp only [reduceCtorEq, false_iff, not_and]
        rintro - - ⟨others, spells, -⟩
        cases broken.symm.trans (Instruction.sequence_eq_iff.mpr spells)
      next instructions read =>
        have spells := Instruction.sequence_eq_iff.mp read
        rw [each spells]
        constructor
        · exact fun within => ⟨fits, nesting, instructions, spells, within⟩
        · rintro ⟨-, -, others, again, within⟩
          obtain rfl := spells.unique again
          exact within

/-! ### Whole blocks -/

/-- What holds of a block if it holds of those nested in it holds of all blocks. -/
theorem nested_induction {P : CodeBlock → Prop}
    (step : ∀ b : CodeBlock, (∀ sub, some sub ∈ b.blocks → P sub) → P b) (b : CodeBlock) : P b :=
  step b fun sub _ => nested_induction step sub
termination_by sizeOf b
decreasing_by
  next member =>
    have smaller := List.sizeOf_lt_of_mem member
    cases b
    simp only [Option.some.sizeOf_spec, CodeBlock.mk.sizeOf_spec] at smaller ⊢
    omega

theorem validate_ok_iff_wellFormed (b : CodeBlock) : b.validate = .ok () ↔ WellFormed b := by
  induction b using nested_induction with
  | step b ih =>
    rw [validate_ok, checkOwn_ok_iff]
    constructor
    · rintro ⟨⟨registers, nesting, instructions, spells, within⟩, nested⟩
      refine .block registers nesting instructions spells within (fun vacant => ?_)
        fun sub member => ?_
      · obtain ⟨sub, same, -⟩ := nested none vacant
        cases same
      · obtain ⟨sub, same, valid⟩ := nested (some sub) member
        cases same
        exact (ih sub member).mp valid
    · intro wellFormed
      cases wellFormed with
      | block registers nesting instructions spells within filled nested =>
        refine ⟨⟨registers, nesting, instructions, spells, within⟩, fun place member => ?_⟩
        cases place with
        | none => exact absurd member filled
        | some sub => exact ⟨sub, rfl, (ih sub member).mpr (nested sub member)⟩

end CodeBlock
end ScriptEngine
