import Mathlib.Algebra.Order.Ring.Nat
import ScriptEngine.Attribute
import ScriptEngine.Proofs.Decoding

/-! The words of instructions. An instruction is written as the number of its
opcode and then its operands in the order of the operand table. Decoding a code
from its first word on finds a list of instructions exactly when the code is what
they are written as, one behind the other. -/
namespace ScriptEngine

/-! ### Words of single operands -/

/-- A displacement that a signed word has room for is read back. -/
theorem displacement_displacementWord {d : Int} (low : -2 ^ 31 ≤ d) (high : d < 2 ^ 31) :
    displacement (displacementWord d) = d := by
  rw [displacement, displacementWord, Int32.toInt32_toUInt32]
  exact Int32.toInt_ofInt_of_le low high

/-- The axes of an attribute stay within the bits that they get in a word. -/
structure Attribute.Fits (a : Attribute) : Prop where
  mutability : a.mutability < 4
  overriding : a.overriding < 4
  access : a.access < 4
  visibility : a.visibility < 8
  level : a.level < 2
  sync : a.sync < 2

/-- Bits that are set beside others. -/
theorem or_shifted (width : Nat) {low high : Nat} (below : low < 2 ^ width) :
    low ||| high * 2 ^ width = low + high * 2 ^ width := by
  rw [← Nat.shiftLeft_eq, Nat.or_comm, ← Nat.shiftLeft_add_eq_or_of_lt below, Nat.add_comm]

theorem toNat_shifted {x : UInt8} {shift : UInt32} (small : shift.toNat ≤ 24) :
    (x.toUInt32 <<< shift).toNat = x.toNat * 2 ^ shift.toNat := by
  have below : x.toNat * 2 ^ shift.toNat < 2 ^ 32 := by
    calc x.toNat * 2 ^ shift.toNat < 2 ^ 8 * 2 ^ shift.toNat :=
          Nat.mul_lt_mul_of_pos_right x.toNat_lt (Nat.two_pow_pos _)
      _ = 2 ^ (8 + shift.toNat) := (Nat.pow_add ..).symm
      _ ≤ 2 ^ 32 := Nat.pow_le_pow_right (by decide) (by omega)
  rw [UInt32.toNat_shiftLeft, Nat.mod_eq_of_lt (a := shift.toNat) (by omega), Nat.shiftLeft_eq,
    UInt8.toNat_toUInt32, Nat.mod_eq_of_lt below]

theorem toNat_field (w : UInt32) {shift mask : UInt32} (width : Nat) (small : shift.toNat < 32)
    (narrow : width ≤ 8) (bits : mask.toNat = 2 ^ width - 1) :
    (w >>> shift &&& mask).toUInt8.toNat = w.toNat / 2 ^ shift.toNat % 2 ^ width := by
  have below : w.toNat / 2 ^ shift.toNat % 2 ^ width < 2 ^ 8 :=
    Nat.lt_of_lt_of_le (Nat.mod_lt _ (Nat.two_pow_pos _)) (Nat.pow_le_pow_right (by decide) narrow)
  rw [UInt32.toNat_toUInt8, UInt32.toNat_and, UInt32.toNat_shiftRight, bits,
    Nat.and_two_pow_sub_one_eq_mod, Nat.shiftRight_eq_div_pow, Nat.mod_eq_of_lt small,
    Nat.mod_eq_of_lt below]

theorem Flags.toNat_pack {f : Flags} (fits : f.attr.Fits) :
    f.pack.toNat = f.attr.mutability.toNat + f.attr.overriding.toNat * 2 ^ 2 +
      f.attr.access.toNat * 2 ^ 4 + f.attr.visibility.toNat * 2 ^ 6 + f.attr.level.toNat * 2 ^ 9 +
      f.attr.sync.toNat * 2 ^ 10 + f.control.toNat * 2 ^ 16 := by
  obtain ⟨m, o, a, v, l, s⟩ := fits
  simp only [UInt8.lt_iff_toNat_lt, UInt8.reduceToNat] at m o a v l s
  simp only [pack, Attribute.pack, UInt32.toNat_or, UInt8.toNat_toUInt32, toNat_shifted,
    UInt32.reduceToNat, Nat.reduceLeDiff]
  rw [or_shifted 2 (by omega), or_shifted 4 (by omega), or_shifted 6 (by omega),
    or_shifted 9 (by omega), or_shifted 10 (by omega), or_shifted 16 (by omega)]

theorem Flags.unpack_pack {f : Flags} (fits : f.attr.Fits) : unpack f.pack = f := by
  have word := toNat_pack fits
  obtain ⟨⟨mutability, overriding, access, visibility, level, sync⟩, control⟩ := f
  have above := control.toNat_lt
  obtain ⟨m, o, a, v, l, s⟩ := fits
  simp only [UInt8.lt_iff_toNat_lt, UInt8.reduceToNat] at m o a v l s word
  generalize pack _ = w at word
  have first : w &&& (3 : UInt32) = w >>> (0 : UInt32) &&& (3 : UInt32) := by
    rw [UInt32.shiftRight_zero]
  simp only [unpack, Attribute.unpack, first, Flags.mk.injEq, Attribute.mk.injEq,
    ← UInt8.toNat_inj]
  rw [toNat_field w 2 (by decide) (by decide) (by decide),
    toNat_field w 2 (by decide) (by decide) (by decide),
    toNat_field w 2 (by decide) (by decide) (by decide),
    toNat_field w 3 (by decide) (by decide) (by decide),
    toNat_field w 1 (by decide) (by decide) (by decide),
    toNat_field w 1 (by decide) (by decide) (by decide),
    toNat_field w 8 (by decide) (by decide) (by decide)]
  simp only [UInt32.reduceToNat]
  omega

/-! ### The instruction set -/

namespace Opcode

theorem all_nodup : all.Nodup := by decide +kernel

theorem mem_all (op : Opcode) : op ∈ all := by
  cases op with
  | unary op => cases op <;> decide
  | binary op => cases op <;> decide
  | _ => decide

theorem code_lt (op : Opcode) : op.code < UInt32.size := by
  have below : op.code < all.length := List.idxOf_lt_length_of_mem (mem_all op)
  exact Nat.lt_trans below (by decide)

theorem ofCode?_eq_some {n : Nat} {op : Opcode} : ofCode? n = some op ↔ n = op.code := by
  unfold ofCode? code
  constructor
  · intro found
    obtain ⟨inside, rfl⟩ := List.getElem?_eq_some_iff.mp found
    exact (all_nodup.idxOf_getElem n inside).symm
  · rintro rfl
    exact List.getElem?_eq_some_iff.mpr
      ⟨List.idxOf_lt_length_of_mem (mem_all op), List.getElem_idxOf _⟩

/-- A word stands for an opcode if it is its number. -/
theorem ofCode?_word {word : UInt32} {op : Opcode} :
    ofCode? word.toNat = some op ↔ word = op.code.toUInt32 := by
  rw [ofCode?_eq_some, ← UInt32.toNat_inj]
  have same : op.code.toUInt32.toNat = op.code := by simpa using Nat.mod_eq_of_lt op.code_lt
  rw [same]

end Opcode

namespace Operand

/-- The words of an operand: a list has its length in front. -/
def encoded (o : Operand) : List UInt32 := o.word :: o.words

/-- Whether an operand has the words that its kind asks for. -/
def Counts (o : Operand) : Prop := o.words.length = if o.kind.isList then o.word.toNat else 0

end Operand

namespace Instruction

variable {code : Array UInt32} {kinds : List OperandKind} {operands : List Operand}
  {pos last offset fuel : Nat} {i : Instruction} {instructions : List Instruction}

/-- The words of an instruction. -/
def encoded (i : Instruction) : List UInt32 :=
  i.opcode.code.toUInt32 :: i.operands.flatMap Operand.encoded

/-- An instruction that follows the operand table. -/
structure Regular (i : Instruction) : Prop where
  kinds : i.operands.map (·.kind) = i.opcode.operands
  counts : ∀ o ∈ i.operands, o.Counts
  length : i.length = i.encoded.length

/-- Instructions each of which starts where the one before it ends. -/
def InRow : Nat → List Instruction → Prop
  | _, [] => True
  | pos, i :: rest => i.offset = pos ∧ InRow (pos + i.length) rest

/-- A code is written as some instructions. -/
structure Spells (code : Array UInt32) (instructions : List Instruction) : Prop where
  words : code.toList = instructions.flatMap encoded
  regular : ∀ i ∈ instructions, i.Regular
  row : InRow 0 instructions

/-! ### One instruction -/

theorem cons_prefix_drop {word : UInt32} {rest : List UInt32} :
    word :: rest <+: code.toList.drop pos ↔
      code[pos]? = some word ∧ rest <+: code.toList.drop (pos + 1) := by
  by_cases inside : pos < code.size
  · rw [List.drop_eq_getElem_cons (by simpa using inside), List.cons_prefix_cons]
    simp [inside, eq_comm]
  · have outside : code.size ≤ pos := Nat.le_of_not_lt inside
    have nothing : code.toList.drop pos = [] := List.drop_eq_nil_of_le (by simpa using outside)
    simp [nothing, outside]

theorem append_prefix_drop {front rest : List UInt32} :
    front ++ rest <+: code.toList.drop pos ↔
      front <+: code.toList.drop pos ∧ rest <+: code.toList.drop (pos + front.length) := by
  constructor
  · rintro ⟨more, same⟩
    rw [List.append_assoc] at same
    refine ⟨⟨rest ++ more, same⟩, more, ?_⟩
    rw [← List.drop_drop, ← same, List.drop_left]
  · rintro ⟨⟨more, same⟩, tail⟩
    rw [← List.drop_drop, ← same, List.drop_left] at tail
    rw [← same]
    exact (List.prefix_append_right_inj front).mpr tail

/-- A list operand takes the words behind its length. -/
theorem extract_written {count : Nat} {words : List UInt32} (start : pos ≤ code.size) :
    (pos + count ≤ code.size ∧ words = (code.extract pos (pos + count)).toList) ↔
      words.length = count ∧ words <+: code.toList.drop pos := by
  have taken : (code.extract pos (pos + count)).toList = (code.toList.drop pos).take count := by
    simp
  rw [taken]
  constructor
  · rintro ⟨fits, rfl⟩
    exact ⟨by simp; omega, List.take_prefix _ _⟩
  · rintro ⟨rfl, prefixed⟩
    refine ⟨?_, List.prefix_iff_eq_take.mp prefixed⟩
    have bound := prefixed.length_le
    simp only [List.length_drop, Array.length_toList] at bound
    omega

/-- An operand is decoded if it is written there, and the others behind it. -/
theorem decodeOperands_cons {kind : OperandKind} :
    decodeOperands code (kind :: kinds) pos = .ok (operands, last) ↔
      ∃ o rest, operands = o :: rest ∧ o.kind = kind ∧ o.Counts ∧
        o.encoded <+: code.toList.drop pos ∧
        decodeOperands code kinds (pos + o.encoded.length) = .ok (rest, last) := by
  cases form : kind.isList with
  | false =>
    rw [decodeOperands_plain form]
    constructor
    · rintro ⟨word, rest, found, rfl, tail⟩
      exact ⟨_, rest, rfl, rfl, by simp [Operand.Counts, form],
        cons_prefix_drop.mpr ⟨found, List.nil_prefix⟩, tail⟩
    · rintro ⟨⟨kind, word, words⟩, rest, rfl, rfl, counts, written, tail⟩
      obtain rfl : words = [] := by simpa [Operand.Counts, form] using counts
      exact ⟨word, rest, (cons_prefix_drop.mp written).1, rfl, tail⟩
  | true =>
    have behind (word : UInt32) {words : List UInt32} (count : words.length = word.toNat) :
        pos + (Operand.encoded ⟨kind, word, words⟩).length = pos + 1 + word.toNat := by
      rw [Operand.encoded, List.length_cons, count]
      omega
    rw [decodeOperands_list form]
    constructor
    · rintro ⟨word, rest, found, fits, rfl, tail⟩
      have inside := (Array.getElem?_eq_some_iff.mp found).1
      obtain ⟨count, written⟩ := (extract_written inside).mp ⟨fits, rfl⟩
      refine ⟨_, rest, rfl, rfl, by rw [Operand.Counts, if_pos form]; exact count,
        cons_prefix_drop.mpr ⟨found, written⟩, ?_⟩
      rwa [behind word count]
    · rintro ⟨⟨kind, word, words⟩, rest, rfl, rfl, counts, written, tail⟩
      obtain ⟨found, listed⟩ := cons_prefix_drop.mp written
      have count : words.length = word.toNat := by simpa [Operand.Counts, form] using counts
      have inside := (Array.getElem?_eq_some_iff.mp found).1
      rw [behind word count] at tail
      obtain ⟨fits, rfl⟩ := (extract_written inside).mpr ⟨count, listed⟩
      exact ⟨word, rest, found, fits, rfl, tail⟩

/-- The operands that are decoded are those that are written there. -/
theorem decodeOperands_ok_iff :
    decodeOperands code kinds pos = .ok (operands, last) ↔
      operands.map (·.kind) = kinds ∧ (∀ o ∈ operands, o.Counts) ∧
        operands.flatMap Operand.encoded <+: code.toList.drop pos ∧
        last = pos + (operands.flatMap Operand.encoded).length := by
  induction kinds generalizing pos operands with
  | nil =>
    rw [decodeOperands_nil, List.map_eq_nil_iff]
    constructor
    · rintro ⟨rfl, rfl⟩
      simp
    · rintro ⟨rfl, -, -, rfl⟩
      simp
  | cons kind kinds ih =>
    rw [decodeOperands_cons]
    constructor
    · rintro ⟨o, rest, rfl, rfl, counts, written, tail⟩
      obtain ⟨rfl, later, behind, rfl⟩ := ih.mp tail
      refine ⟨rfl, List.forall_mem_cons.mpr ⟨counts, later⟩, ?_, ?_⟩
      · exact append_prefix_drop.mpr ⟨written, behind⟩
      · rw [List.flatMap_cons, List.length_append, Nat.add_assoc]
    · rintro ⟨same, counts, written, rfl⟩
      obtain ⟨o, rest, rfl, rfl, rfl⟩ := List.map_eq_cons_iff.mp same
      obtain ⟨here, later⟩ := List.forall_mem_cons.mp counts
      obtain ⟨front, behind⟩ := append_prefix_drop.mp written
      refine ⟨o, rest, rfl, rfl, here, front, ih.mpr ⟨rfl, later, behind, ?_⟩⟩
      rw [List.flatMap_cons, List.length_append, Nat.add_assoc]

/-- The instruction that is decoded at a place is the one that is written there. -/
theorem decode_ok_iff :
    decode code offset = .ok i ↔
      i.Regular ∧ i.offset = offset ∧ i.encoded <+: code.toList.drop offset := by
  rw [decode_eq_ok]
  constructor
  · rintro ⟨word, last, found, known, read, same, span⟩
    obtain rfl := Opcode.ofCode?_word.mp known
    obtain ⟨kinds, counts, written, rfl⟩ := decodeOperands_ok_iff.mp read
    refine ⟨⟨kinds, counts, ?_⟩, same, cons_prefix_drop.mpr ⟨found, written⟩⟩
    rw [span, encoded, List.length_cons]
    omega
  · rintro ⟨regular, same, written⟩
    obtain ⟨found, written⟩ := cons_prefix_drop.mp written
    refine ⟨_, _, found, Opcode.ofCode?_word.mpr rfl,
      decodeOperands_ok_iff.mpr ⟨regular.kinds, regular.counts, written, rfl⟩, same, ?_⟩
    rw [regular.length, encoded, List.length_cons]
    omega

/-! ### Whole codes -/

/-- Instructions tile the rest of a code if it is written as them. -/
theorem tiles_iff :
    Tiles code pos instructions ↔ pos ≤ code.size ∧ (∀ i ∈ instructions, i.Regular) ∧
      InRow pos instructions ∧ code.toList.drop pos = instructions.flatMap encoded := by
  induction instructions generalizing pos with
  | nil =>
    constructor
    · intro tiles
      cases tiles
      simp [InRow]
    · rintro ⟨start, -, -, none⟩
      obtain rfl : pos = code.size := by simp at none; omega
      exact .done
  | cons i rest ih =>
    constructor
    · intro tiles
      cases tiles with
      | next decoded tail =>
        obtain ⟨regular, same, more, written⟩ := decode_ok_iff.mp decoded
        obtain ⟨-, later, row, behind⟩ := ih.mp tail
        refine ⟨Nat.le_of_lt (decode_inside decoded), List.forall_mem_cons.mpr ⟨regular, later⟩,
          ⟨same, row⟩, ?_⟩
        rw [← List.drop_drop, ← written, regular.length, List.drop_left] at behind
        rw [← written, behind, List.flatMap_cons]
    · rintro ⟨start, regular, ⟨same, row⟩, written⟩
      obtain ⟨here, later⟩ := List.forall_mem_cons.mp regular
      have decoded : decode code pos = .ok i :=
        decode_ok_iff.mpr ⟨here, same, by rw [written]; exact List.prefix_append _ _⟩
      refine .next decoded (ih.mpr ⟨(decode_bounds decoded).2, later, row, ?_⟩)
      rw [← List.drop_drop, written, here.length, List.flatMap_cons, List.drop_left]

theorem Tiles.sequenceFrom_eq (tiles : Tiles code pos instructions)
    (enough : code.size ≤ pos + fuel) : sequenceFrom code fuel pos = (instructions, none) := by
  induction tiles generalizing fuel with
  | done => cases fuel <;> simp [sequenceFrom]
  | @next pos i rest decoded _ ih =>
    have bounds := decode_bounds decoded
    obtain ⟨fuel, rfl⟩ : ∃ more, fuel = more + 1 := ⟨fuel - 1, by omega⟩
    rw [sequenceFrom, if_pos (decode_inside decoded), decoded]
    dsimp only
    rw [ih (by omega)]

/-- Decoding from the first word on finds exactly the instructions that a code is
written as. -/
theorem sequence_eq_iff : sequence code = (instructions, none) ↔ Spells code instructions := by
  constructor
  · intro read
    obtain ⟨-, regular, row, words⟩ := tiles_iff.mp (sequence_tiles read)
    exact ⟨words, regular, row⟩
  · intro spells
    have tiles : Tiles code 0 instructions :=
      tiles_iff.mpr ⟨Nat.zero_le _, spells.regular, spells.row, spells.words⟩
    exact tiles.sequenceFrom_eq (by omega)

/-- A code is written as one list of instructions at most. -/
theorem Spells.unique {others : List Instruction} (spells : Spells code instructions)
    (again : Spells code others) : others = instructions := by
  have same := (sequence_eq_iff.mpr again).symm.trans (sequence_eq_iff.mpr spells)
  exact congrArg Prod.fst same

end Instruction
end ScriptEngine
