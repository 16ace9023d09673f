import ScriptEngine.CodeBlock.Validation

/-! Where decoding finds instructions. Operands lie one after the other behind
their opcode, and the instructions of a code tile it from the first word on. -/
namespace ScriptEngine.Instruction

variable {code : Array UInt32} {kind : OperandKind} {kinds : List OperandKind}
  {operands : List Operand} {pos last offset : Nat} {i : Instruction}

theorem decodeOperands_nil :
    decodeOperands code [] pos = .ok (operands, last) ↔ operands = [] ∧ last = pos := by
  simp [decodeOperands, eq_comm]

theorem decodeOperands_plain (plain : kind.isList = false) :
    decodeOperands code (kind :: kinds) pos = .ok (operands, last) ↔
      ∃ word rest, code[pos]? = some word ∧ operands = ⟨kind, word, []⟩ :: rest ∧
        decodeOperands code kinds (pos + 1) = .ok (rest, last) := by
  cases found : code[pos]? with
  | none => simp [decodeOperands, found]
  | some word =>
    simp only [decodeOperands, found, plain]
    cases decodeOperands code kinds (pos + 1) with
    | error => simp
    | ok result =>
      obtain ⟨rest, stop⟩ := result
      grind

theorem decodeOperands_list (list : kind.isList = true) :
    decodeOperands code (kind :: kinds) pos = .ok (operands, last) ↔
      ∃ word rest, code[pos]? = some word ∧ pos + 1 + word.toNat ≤ code.size ∧
        operands = ⟨kind, word, (code.extract (pos + 1) (pos + 1 + word.toNat)).toList⟩ :: rest ∧
        decodeOperands code kinds (pos + 1 + word.toNat) = .ok (rest, last) := by
  cases found : code[pos]? with
  | none => simp [decodeOperands, found]
  | some word =>
    simp only [decodeOperands, found, list, if_true]
    by_cases fits : pos + 1 + word.toNat ≤ code.size
    · simp only [fits, if_true]
      cases tail : decodeOperands code kinds (pos + 1 + word.toNat) with
      | error => simp +contextual [tail]
      | ok result =>
        obtain ⟨rest, stop⟩ := result
        constructor
        · intro same
          cases same
          exact ⟨word, rest, rfl, fits, rfl, tail⟩
        · rintro ⟨_, _, same, -, rfl, read⟩
          cases same
          cases tail.symm.trans read
          rfl
    · simp [fits]

/-- Operands end within the code, and behind the place where they start. -/
theorem decodeOperands_bounds (start : pos ≤ code.size)
    (decoded : decodeOperands code kinds pos = .ok (operands, last)) :
    pos ≤ last ∧ last ≤ code.size := by
  induction kinds generalizing pos operands with
  | nil =>
    obtain ⟨-, rfl⟩ := decodeOperands_nil.mp decoded
    exact ⟨Nat.le_refl _, start⟩
  | cons kind kinds ih =>
    cases form : kind.isList with
    | false =>
      obtain ⟨word, rest, found, -, tail⟩ := (decodeOperands_plain form).mp decoded
      have inside := (Array.getElem?_eq_some_iff.mp found).1
      have bounds := ih inside tail
      omega
    | true =>
      obtain ⟨word, rest, -, fits, -, tail⟩ := (decodeOperands_list form).mp decoded
      have bounds := ih fits tail
      omega

theorem decodeOperands_kinds (decoded : decodeOperands code kinds pos = .ok (operands, last)) :
    operands.map (·.kind) = kinds := by
  induction kinds generalizing pos operands with
  | nil => simp [(decodeOperands_nil.mp decoded).1]
  | cons kind kinds ih =>
    cases form : kind.isList with
    | false =>
      obtain ⟨word, rest, -, rfl, tail⟩ := (decodeOperands_plain form).mp decoded
      simp [ih tail]
    | true =>
      obtain ⟨word, rest, -, -, rfl, tail⟩ := (decodeOperands_list form).mp decoded
      simp [ih tail]

/-- What decoding an instruction amounts to. -/
theorem decode_eq_ok : decode code offset = .ok i ↔
    ∃ word last, code[offset]? = some word ∧ Opcode.ofCode? word.toNat = some i.opcode ∧
      decodeOperands code i.opcode.operands (offset + 1) = .ok (i.operands, last) ∧
      i.offset = offset ∧ i.length = last - offset := by
  unfold decode
  constructor
  · intro decoded
    split at decoded
    · contradiction
    next word found =>
      split at decoded
      · contradiction
      next opcode known =>
        split at decoded
        next operands last read =>
          cases decoded
          exact ⟨word, last, found, known, read, rfl, rfl⟩
        · contradiction
        · contradiction
  · rintro ⟨word, last, found, known, read, rfl, span⟩
    simp only [found, known, read]
    cases i
    simp_all

theorem decode_offset (decoded : decode code offset = .ok i) : i.offset = offset := by
  obtain ⟨-, -, -, -, -, same, -⟩ := decode_eq_ok.mp decoded
  exact same

/-- An instruction takes a word at least and ends within the code. -/
theorem decode_bounds (decoded : decode code offset = .ok i) :
    0 < i.length ∧ offset + i.length ≤ code.size := by
  obtain ⟨word, last, found, -, read, -, span⟩ := decode_eq_ok.mp decoded
  have inside := (Array.getElem?_eq_some_iff.mp found).1
  have bounds := decodeOperands_bounds inside read
  omega

theorem decode_inside (decoded : decode code offset = .ok i) : offset < code.size := by
  have bounds := decode_bounds decoded
  omega

/-- Instructions that tile a code from a position to its end. -/
inductive Tiles (code : Array UInt32) : Nat → List Instruction → Prop where
  | done : Tiles code code.size []
  | next {pos : Nat} {i : Instruction} {rest : List Instruction} :
      decode code pos = .ok i → Tiles code (pos + i.length) rest → Tiles code pos (i :: rest)

theorem sequenceFrom_tiles {fuel : Nat} {instructions : List Instruction}
    (enough : code.size ≤ pos + fuel) (start : pos ≤ code.size)
    (read : sequenceFrom code fuel pos = (instructions, none)) : Tiles code pos instructions := by
  induction fuel generalizing pos instructions with
  | zero =>
    obtain rfl : pos = code.size := by omega
    cases read
    exact .done
  | succ fuel ih =>
    unfold sequenceFrom at read
    split at read
    next inside =>
      split at read
      next i decoded =>
        have bounds := decode_bounds decoded
        cases tail : sequenceFrom code fuel (pos + i.length) with
        | mk rest error =>
          simp only [tail, Prod.mk.injEq] at read
          obtain ⟨rfl, rfl⟩ := read
          exact .next decoded (ih (by omega) bounds.2 tail)
      · simp at read
    next outside =>
      cases read
      obtain rfl : pos = code.size := by omega
      exact .done

theorem sequence_tiles {instructions : List Instruction}
    (read : sequence code = (instructions, none)) : Tiles code 0 instructions :=
  sequenceFrom_tiles (by omega) (Nat.zero_le _) read

namespace Tiles

variable {instructions : List Instruction}

/-- Each instruction is the one that decodes at its own place. -/
theorem decode_member (tiles : Tiles code pos instructions) (member : i ∈ instructions) :
    decode code i.offset = .ok i := by
  induction tiles with
  | done => simp at member
  | next decoded _ ih =>
    rcases List.mem_cons.mp member with rfl | member
    · rw [decode_offset decoded]
      exact decoded
    · exact ih member

/-- The first instruction starts where the tiles do, unless the code is at its end. -/
theorem starts (tiles : Tiles code pos instructions) :
    pos = code.size ∨ ∃ i ∈ instructions, i.offset = pos := by
  cases tiles with
  | done => exact .inl rfl
  | next decoded _ => exact .inr ⟨_, List.mem_cons_self, decode_offset decoded⟩

/-- Behind each instruction another one starts, or the code ends. -/
theorem follows (tiles : Tiles code pos instructions) (member : i ∈ instructions) :
    i.offset + i.length = code.size ∨ ∃ j ∈ instructions, j.offset = i.offset + i.length := by
  induction tiles with
  | done => simp at member
  | next decoded rest ih =>
    rcases List.mem_cons.mp member with rfl | member
    · rw [decode_offset decoded]
      rcases rest.starts with same | ⟨j, present, same⟩
      · exact .inl same
      · exact .inr ⟨j, List.mem_cons_of_mem _ present, same⟩
    · rcases ih member with same | ⟨j, present, same⟩
      · exact .inl same
      · exact .inr ⟨j, List.mem_cons_of_mem _ present, same⟩

end Tiles
end ScriptEngine.Instruction
