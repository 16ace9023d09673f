import Mathlib.Data.List.Forall2
import ScriptEngine.Proofs.Assembly

/-! What a builder writes is what is decoded. Each instruction that a builder was
asked for has its cells in the code, one behind the other, through all steps that
follow. Once every label is marked, the words in these cells are the instructions
again, with the operands as they were given. -/
namespace ScriptEngine
namespace Builder

variable {b : Builder} {marked : Nat → Option Nat} {before : List Cell} {step : Step}
  {opcode : Opcode} {operands : List Given} {consts : List Value} {g : Given} {w : Written}
  {written : List Written} {a : Assembly} {label offset pos : Nat}

/-! ### What is asked for, and what is written -/

namespace Given

def kind : Given → OperandKind
  | .word k _ | .list k _ => k
  | .flags _ => .flags
  | .name .. => .constant
  | .target _ => .displacement
  | .targets _ => .displacements

/-- The labels that an operand refers to. -/
def labels : Given → List Nat
  | .target l => [l]
  | .targets ls => ls
  | _ => []

/-- The cells of an operand in an instruction. -/
def cells (offset : Nat) : Given → List Cell
  | .word _ x => [.fixed x]
  | .list _ xs => .fixed xs.length.toUInt32 :: xs.map .fixed
  | .flags f => [.fixed f.pack]
  | .name _ index => [.fixed index.toUInt32]
  | .target l => [.target l offset]
  | .targets ls => .fixed ls.length.toUInt32 :: ls.map (.target · offset)

/-- An operand that its kind and its words tell. -/
def Sound (consts : List Value) : Given → Prop
  | .word k _ => k.isList = false
  | .list k _ => k.isList = true
  | .flags f => f.attr.Fits
  | .name text index => consts[index]? = some (.string text)
  | .target _ | .targets _ => True

/-- A word leads from an instruction to the place where a label was marked. -/
def Reaches (marked : Nat → Option Nat) (offset l : Nat) (x : UInt32) : Prop :=
  ∃ position, marked l = some position ∧ (offset : Int) + displacement x = position

/-- A decoded operand is the one that was given. -/
def Renders (block : CodeBlock) (marked : Nat → Option Nat) (offset : Nat) :
    Given → Operand → Prop
  | .word k x, o => o = ⟨k, x, []⟩
  | .list k xs, o => o.kind = k ∧ o.word.toNat = xs.length ∧ o.words = xs
  | .flags f, o => o.kind = .flags ∧ Flags.unpack o.word = f ∧ o.words = []
  | .name text index, o =>
    o = ⟨.constant, index.toUInt32, []⟩ ∧ block.consts[index]? = some (.string text)
  | .target l, o => o.kind = .displacement ∧ Reaches marked offset l o.word ∧ o.words = []
  | .targets ls, o =>
    o.kind = .displacements ∧ o.word.toNat = ls.length ∧
      List.Forall₂ (Reaches marked offset) ls o.words

/-- The operand in the cells of one that was given. -/
def operand (marked : Nat → Option Nat) (offset : Nat) : Given → Operand
  | .word k x => ⟨k, x, []⟩
  | .list k xs => ⟨k, xs.length.toUInt32, xs⟩
  | .flags f => ⟨.flags, f.pack, []⟩
  | .name _ index => ⟨.constant, index.toUInt32, []⟩
  | .target l => ⟨.displacement, Cell.word marked (.target l offset), []⟩
  | .targets ls =>
    ⟨.displacements, ls.length.toUInt32, ls.map fun l => Cell.word marked (.target l offset)⟩

theorem kind_operand : (g.operand marked offset).kind = g.kind := by cases g <;> rfl

theorem encoded_operand :
    (g.operand marked offset).encoded = (g.cells offset).map (Cell.word marked) := by
  cases g with
  | list kind words => rw [cells, List.map_cons, Cell.map_word_fixed]; rfl
  | targets labels => rw [cells, List.map_cons, List.map_map]; rfl
  | _ => rfl

theorem length_toUInt32 {α : Type} {items : List α} (few : items.length < UInt32.size) :
    items.length.toUInt32.toNat = items.length := by
  simpa using Nat.mod_eq_of_lt few

theorem counts_operand (sound : g.Sound consts) (few : (g.cells offset).length ≤ UInt32.size) :
    (g.operand marked offset).Counts := by
  cases g with
  | word kind word => simp_all [operand, Operand.Counts, Sound]
  | list kind words =>
    simp only [cells, List.length_cons, List.length_map] at few
    simp only [Sound] at sound
    simp only [operand, Operand.Counts, sound, if_true]
    exact (length_toUInt32 few).symm
  | targets labels =>
    simp only [cells, List.length_cons, List.length_map] at few
    simp only [operand, Operand.Counts, List.length_map]
    exact (length_toUInt32 few).symm
  | flags | name | target => rfl

theorem target_mem_cells {instruction : Nat} :
    Cell.target label instruction ∈ g.cells offset ↔ label ∈ g.labels ∧ instruction = offset := by
  cases g <;> simp [cells, labels, eq_comm]

theorem ofOperand_kind {o : Operand} : (ofOperand o).kind = o.kind := by
  unfold ofOperand
  split <;> rfl

theorem ofOperand_sound {o : Operand} : (ofOperand o).Sound consts := by
  unfold ofOperand
  split
  next list => exact list
  next plain => simpa [Sound] using plain

theorem cells_ofOperand {o : Operand} (counts : o.Counts) :
    (ofOperand o).cells offset = o.encoded.map .fixed := by
  unfold Operand.Counts at counts
  unfold ofOperand
  split
  next list =>
    rw [if_pos list] at counts
    have word : o.words.length.toUInt32 = o.word := by
      rw [counts]
      simp
    rw [cells, word]
    rfl
  next plain =>
    rw [if_neg plain, List.length_eq_zero_iff] at counts
    simp [cells, Operand.encoded, counts]

end Given

namespace Written

/-- The cells of an instruction. -/
def cells (w : Written) : List Cell :=
  .fixed w.opcode.code.toUInt32 :: w.operands.flatMap (Given.cells w.offset)

/-- Instructions each of which was said to be where the one before it ends. -/
def InRow : Nat → List Written → Prop
  | _, [] => True
  | pos, w :: rest => w.offset = pos ∧ InRow (pos + w.cells.length) rest

/-- A decoded instruction is the one that was asked for. -/
structure Renders (block : CodeBlock) (marked : Nat → Option Nat) (w : Written)
    (i : Instruction) : Prop where
  offset : i.offset = w.offset
  opcode : i.opcode = w.opcode
  operands : List.Forall₂ (Given.Renders block marked w.offset) w.operands i.operands

/-- The instruction in the cells of one that was asked for. -/
def instruction (marked : Nat → Option Nat) (w : Written) : Instruction :=
  ⟨w.offset, w.opcode, w.operands.map (Given.operand marked w.offset), w.cells.length⟩

theorem inRow_concat :
    InRow pos (written ++ [w]) ↔
      InRow pos written ∧ w.offset = pos + (written.flatMap cells).length := by
  induction written generalizing pos with
  | nil => simp [InRow]
  | cons first rest ih =>
    simp only [List.cons_append, InRow, ih, List.flatMap_cons, List.length_append, and_assoc,
      Nat.add_assoc]

theorem encoded_instruction :
    (w.instruction marked).encoded = w.cells.map (Cell.word marked) := by
  rw [Instruction.encoded, instruction, cells, List.map_cons, List.flatMap_map, List.map_flatMap]
  simp only [Given.encoded_operand]
  rfl

theorem target_mem_cells {instruction : Nat} :
    Cell.target label instruction ∈ w.cells ↔
      instruction = w.offset ∧ ∃ g ∈ w.operands, label ∈ g.labels := by
  simp only [cells, List.mem_cons, reduceCtorEq, false_or, List.mem_flatMap, Given.target_mem_cells]
  constructor
  · rintro ⟨g, member, refers, rfl⟩
    exact ⟨rfl, g, member, refers⟩
  · rintro ⟨rfl, g, member, refers⟩
    exact ⟨g, member, refers, rfl⟩

end Written

/-! ### One step -/

theorem Holds.takePosition (holds : Holds b marked before) :
    Holds b.takePosition marked before := by
  unfold Builder.takePosition
  split
  · exact holds
  · exact holds.congr rfl rfl

theorem Holds.emit (holds : Holds b marked before) (opcode : UInt32) (words : List UInt32) :
    Holds (b.emit opcode words).1 marked (before ++ (opcode :: words).map .fixed) :=
  holds.takePosition.append _

theorem size_labels_emit {opcode : UInt32} {words : List UInt32} :
    (b.emit opcode words).1.labels.size = b.labels.size := by
  unfold Builder.emit Builder.takePosition
  split <;> rfl

theorem Holds.const (holds : Holds b marked before) (v : Value) :
    Holds (b.const v).1 marked before := by
  unfold Builder.const
  dsimp only
  split
  · exact holds
  · exact holds.congr rfl rfl

/-- An instruction of known words is written behind the others. -/
theorem Holds.emits {words : List UInt32} (holds : Holds b marked before)
    (same : Written.cells ⟨offset, opcode, operands⟩ = (opcode.code.toUInt32 :: words).map .fixed) :
    Holds (b.emit opcode.code.toUInt32 words).1 marked
      (before ++ Written.cells ⟨offset, opcode, operands⟩) := by
  rw [same]
  exact holds.emit _ _

/-- An instruction with a label at its end. -/
theorem Holds.jumps (holds : Holds b marked before) (opcode : Opcode) (words : List UInt32)
    (there : label < b.labels.size) :
    Holds ((b.emit opcode.code.toUInt32 words).1.appendTarget b.length label) marked
      (before ++ ((opcode.code.toUInt32 :: words).map .fixed ++ [.target label b.length])) := by
  have written := (holds.emit opcode.code.toUInt32 words).appendTarget b.length
    (by rwa [size_labels_emit])
  rwa [List.append_assoc] at written

/-- An instruction that is asked for is written behind the others, at the offset that
is answered. -/
theorem Step.emits (holds : Holds b marked before) (proper : step.Proper b)
    (writes : step.writes? b = some (opcode, operands)) :
    (step.run b).2 = some before.length ∧
      Holds (step.run b).1 marked (before ++ Written.cells ⟨before.length, opcode, operands⟩) := by
  rw [← holds.length_eq]
  cases step <;> simp only [Step.writes?, Option.some.injEq, Prod.mk.injEq, reduceCtorEq] at writes
  all_goals obtain ⟨rfl, rfl⟩ := writes
  case emit operands =>
    refine ⟨rfl, holds.emits ?_⟩
    rw [Written.cells, List.flatMap_map, List.map_cons, List.map_flatMap]
    refine congrArg _ (List.flatMap_congr fun o member => ?_)
    exact Given.cells_ofOperand (proper.2 o member)
  case emitCallMember dst object name flags args =>
    have named := holds.const (.string name)
    have words : (Step.emitCallMember dst object name flags args).run b =
        ((b.const (.string name)).1.emit Opcode.callMember.code.toUInt32
          ([dst, object, (b.const (.string name)).2.toUInt32, flags.pack] ++ counted args)).map id
          some := rfl
    rw [words]
    refine ⟨congrArg some (named.length_eq.trans holds.length_eq.symm), named.emits ?_⟩
    simp [Written.cells, Given.cells, counted]
  case emitJump => exact ⟨rfl, holds.jumps .jump [] proper⟩
  case emitJumpIf opcode register label => exact ⟨rfl, holds.jumps opcode [register] proper.2⟩
  case emitCatchBranch register exits labels =>
    have written := (holds.emit Opcode.catchBranch.code.toUInt32
      [register, exits, labels.length.toUInt32]).appendTargets b.length (by rwa [size_labels_emit])
    have same : Written.cells ⟨b.length, .catchBranch,
        [.word .register register, .word .constant exits, .targets labels]⟩ =
        [Opcode.catchBranch.code.toUInt32, register, exits, labels.length.toUInt32].map .fixed ++
          labels.map (.target · b.length) := by
      simp [Written.cells, Given.cells]
    rw [same, ← List.append_assoc]
    exact ⟨rfl, written⟩
  all_goals exact ⟨rfl, holds.emits (by simp [Written.cells, Given.cells, counted])⟩

/-- A step that asks for no instruction leaves the cells alone. -/
theorem Step.silent (holds : Holds b marked before) (silent : step.writes? b = none)
    (unmarking : ∀ l, step ≠ .mark l) : Holds (step.run b).1 marked before := by
  cases step with
  | source | registers | nest | nested | atPosition => exact holds.congr rfl rfl
  | const v => exact holds.const v
  | newLabel => exact holds.newLabel
  | mark l => exact absurd rfl (unmarking l)
  | _ => cases silent

/-! ### Constants -/

theorem consts_emit {opcode : UInt32} {words : List UInt32} :
    (b.emit opcode words).1.block.consts = b.block.consts := by
  unfold Builder.emit Builder.takePosition
  split <;> rfl

theorem consts_appendTarget : (b.appendTarget offset label).block.consts = b.block.consts := by
  unfold Builder.appendTarget
  split <;> rfl

theorem consts_appendTargets {labels : List Nat} :
    (b.appendTargets offset labels).block.consts = b.block.consts := by
  induction labels generalizing b with
  | nil => rfl
  | cons label rest ih => exact ih.trans consts_appendTarget

theorem const_extends (b : Builder) (v : Value) :
    ∃ more, (b.const v).1.block.consts = b.block.consts ++ more := by
  unfold Builder.const
  dsimp only
  split
  · exact ⟨[], (List.append_nil _).symm⟩
  · exact ⟨[v], rfl⟩

/-- The index of a constant leads to it. -/
theorem getElem?_const (b : Builder) (v : Value) :
    (b.const v).1.block.consts[(b.const v).2]? = some v := by
  unfold Builder.const
  dsimp only
  split
  next i present =>
    split at present
    · cases present
    · obtain ⟨inside, identical, -⟩ := List.findIdx?_eq_some_iff_getElem.mp present
      rw [List.getElem?_eq_getElem inside, of_decide_eq_true identical]
  · simp

/-- Constants are only added. -/
theorem Step.extends_consts (step : Step) (b : Builder) :
    ∃ more, (step.run b).1.block.consts = b.block.consts ++ more := by
  have same {b' : Builder} (kept : b'.block.consts = b.block.consts) :
      ∃ more, b'.block.consts = b.block.consts ++ more := ⟨[], by rw [kept, List.append_nil]⟩
  cases step with
  | const v => exact b.const_extends v
  | emitCallMember dst object name flags args =>
    obtain ⟨more, added⟩ := b.const_extends (.string name)
    exact ⟨more, consts_emit.trans added⟩
  | mark label =>
    refine same ?_
    simp only [Step.run, mark?]
    split <;> rfl
  | emitJump | emitJumpIf => exact same (consts_appendTarget.trans consts_emit)
  | emitCatchBranch => exact same (consts_appendTargets.trans consts_emit)
  | emit | emitCall | emitCallBlock | emitSync | emitDump => exact same consts_emit
  | _ => exact same rfl

theorem Given.Sound.extend {more : List Value} (sound : g.Sound consts) :
    g.Sound (consts ++ more) := by
  cases g with
  | name text index =>
    have inside := (List.getElem?_eq_some_iff.mp sound).1
    exact (List.getElem?_append_left inside).trans sound
  | _ => exact sound

/-- The operands of a proper step are those of its opcode. -/
theorem Step.sound (proper : step.Proper b) (writes : step.writes? b = some (opcode, operands)) :
    operands.map Given.kind = opcode.operands ∧
      ∀ g ∈ operands, g.Sound (step.run b).1.block.consts := by
  cases step <;> simp only [Step.writes?, Option.some.injEq, Prod.mk.injEq, reduceCtorEq] at writes
  all_goals obtain ⟨rfl, rfl⟩ := writes
  case emit operands =>
    refine ⟨?_, List.forall_mem_map.mpr fun o _ => Given.ofOperand_sound⟩
    rw [← proper.1, List.map_map]
    exact List.map_congr_left fun o _ => Given.ofOperand_kind
  case emitCall opcode _ _ _ _ =>
    obtain ⟨called, fits⟩ := proper
    refine ⟨?_, by simp [Given.Sound, OperandKind.isList, fits]⟩
    simp only [List.mem_cons, List.not_mem_nil, or_false] at called
    rcases called with rfl | rfl | rfl <;> rfl
  case emitCallMember dst object name flags args =>
    have fits : flags.attr.Fits := proper
    have named : (Step.emitCallMember dst object name flags args |>.run b).1.block.consts =
        (b.const (.string name)).1.block.consts := consts_emit
    rw [named]
    refine ⟨rfl, ?_⟩
    simp [Given.Sound, OperandKind.isList, fits, getElem?_const]
  case emitCallBlock flags _ _ | emitSync flags _ =>
    have fits : flags.attr.Fits := proper
    exact ⟨rfl, by simp [Given.Sound, OperandKind.isList, fits]⟩
  case emitJumpIf opcode _ _ =>
    refine ⟨?_, by simp [Given.Sound, OperandKind.isList]⟩
    have tested := proper.1
    simp only [List.mem_cons, List.not_mem_nil, or_false] at tested
    rcases tested with rfl | rfl <;> rfl
  all_goals exact ⟨rfl, by simp [Given.Sound, OperandKind.isList]⟩

/-! ### All steps -/

namespace Assembly

/-- The code holds the cells of all that was asked for, in a row. -/
structure Faithful (a : Assembly) : Prop where
  holds : Holds a.builder a.marked (a.written.flatMap Written.cells)
  row : Written.InRow 0 a.written
  kinds : ∀ w ∈ a.written, w.operands.map Given.kind = w.opcode.operands
  sound : ∀ w ∈ a.written, ∀ g ∈ w.operands, g.Sound a.builder.block.consts

theorem Faithful.start (name : Text) : (start name).Faithful :=
  ⟨.start name, trivial, nofun, nofun⟩

/-- A mark fills in cells and adds none. -/
theorem Faithful.holds_mark (faithful : a.Faithful) (label : Nat) :
    Holds (a.after (.mark label)).builder (a.after (.mark label)).marked
      (a.written.flatMap Written.cells) := by
  cases marks : a.builder.mark? label with
  | none =>
    simp only [Assembly.after, Step.run, marks, Option.getD_none]
    exact faithful.holds
  | some b =>
    simp only [Assembly.after, Step.run, marks, Option.getD_some]
    exact faithful.holds.mark marks

theorem Faithful.after (faithful : a.Faithful) (proper : step.Proper a.builder) :
    (a.after step).Faithful := by
  have kept : ∀ w ∈ a.written, ∀ g ∈ w.operands, g.Sound (step.run a.builder).1.block.consts := by
    obtain ⟨more, added⟩ := step.extends_consts a.builder
    rw [added]
    exact fun w member g given => (faithful.sound w member g given).extend
  cases writes : step.writes? a.builder with
  | none =>
    have same : (a.after step).written = a.written := by
      simp only [Assembly.after, writes]
      cases (step.run a.builder).2 <;> rfl
    refine ⟨?_, same ▸ faithful.row, same ▸ faithful.kinds, same ▸ kept⟩
    rw [same]
    cases step with
    | mark label => exact faithful.holds_mark label
    | _ => exact Step.silent faithful.holds writes nofun
  | some asked =>
    obtain ⟨opcode, operands⟩ := asked
    obtain ⟨answered, holds⟩ := Step.emits faithful.holds proper writes
    obtain ⟨kinds, sound⟩ := Step.sound proper writes
    have marked : (a.after step).marked = a.marked := by
      cases step <;> first | rfl | cases writes
    have written : (a.after step).written = a.written ++
        [⟨(a.written.flatMap Written.cells).length, opcode, operands⟩] := by
      simp only [Assembly.after, writes, answered]
    constructor
    · rw [marked, written, List.flatMap_append, List.flatMap_singleton]
      exact holds
    · rw [written, Written.inRow_concat, Nat.zero_add]
      exact ⟨faithful.row, rfl⟩
    · rw [written, List.forall_mem_append, List.forall_mem_singleton]
      exact ⟨faithful.kinds, kinds⟩
    · rw [written, List.forall_mem_append, List.forall_mem_singleton]
      exact ⟨kept, sound⟩

theorem Faithful.run {steps : List Step} (faithful : a.Faithful) (follows : a.Follows steps) :
    (a.run steps).Faithful := by
  induction steps generalizing a with
  | nil => exact faithful
  | cons step rest ih => exact ih (faithful.after follows.1) follows.2

end Assembly

/-! ### Decoding -/

theorem length_le_flatMap {α β : Type} {f : α → List β} {items : List α} {x : α}
    (member : x ∈ items) : (f x).length ≤ (items.flatMap f).length := by
  obtain ⟨front, rest, rfl⟩ := List.append_of_mem member
  simp only [List.flatMap_append, List.flatMap_cons, List.length_append]
  omega

theorem Written.InRow.within (row : InRow pos written) (member : w ∈ written) :
    w.offset ≤ pos + (written.flatMap Written.cells).length := by
  induction written generalizing pos with
  | nil => simp at member
  | cons first rest ih =>
    obtain ⟨here, later⟩ := row
    rw [List.flatMap_cons, List.length_append]
    rcases List.mem_cons.mp member with rfl | member
    · omega
    · have bound := ih later member
      omega

theorem Written.InRow.instructions (row : InRow pos written) :
    Instruction.InRow pos (written.map (Written.instruction marked)) := by
  induction written generalizing pos with
  | nil => trivial
  | cons first rest ih => exact ⟨row.1, ih row.2⟩

/-- The word for a marked label leads to it, if the code is short enough. -/
theorem Given.reaches {position : Nat} (placed : marked label = some position)
    (near : position < 2 ^ 31) (here : offset < 2 ^ 31) :
    Reaches marked offset label (Cell.word marked (.target label offset)) := by
  refine ⟨position, placed, ?_⟩
  rw [Cell.word, placed, displacement_displacementWord (by omega) (by omega)]
  omega

theorem Given.renders {block : CodeBlock} (sound : g.Sound block.consts)
    (few : (g.cells offset).length ≤ UInt32.size)
    (reaches : ∀ l ∈ g.labels, Reaches marked offset l (Cell.word marked (.target l offset))) :
    g.Renders block marked offset (g.operand marked offset) := by
  cases g with
  | word => rfl
  | name => exact ⟨rfl, sound⟩
  | list k xs =>
    simp only [cells, List.length_cons, List.length_map] at few
    exact ⟨rfl, length_toUInt32 few, rfl⟩
  | flags f => exact ⟨rfl, Flags.unpack_pack sound, rfl⟩
  | target l => exact ⟨rfl, reaches l (List.mem_singleton.mpr rfl), rfl⟩
  | targets ls =>
    simp only [cells, List.length_cons, List.length_map] at few
    refine ⟨rfl, length_toUInt32 few, List.forall₂_map_right_iff.mpr (List.forall₂_same.mpr ?_)⟩
    exact reaches

namespace Assembly

theorem Faithful.few_cells (faithful : a.Faithful) (short : a.builder.length < 2 ^ 31)
    (member : w ∈ a.written) (given : g ∈ w.operands) :
    (g.cells w.offset).length ≤ UInt32.size := by
  have whole : w.cells.length ≤ (a.written.flatMap Written.cells).length := length_le_flatMap member
  have part : (g.cells w.offset).length ≤ (w.operands.flatMap (Given.cells w.offset)).length :=
    length_le_flatMap given
  rw [faithful.holds.length_eq] at short
  rw [Written.cells, List.length_cons] at whole
  have size : UInt32.size = 2 ^ 32 := rfl
  omega

theorem Faithful.spells (faithful : a.Faithful) (short : a.builder.length < 2 ^ 31) :
    Instruction.Spells a.builder.block.code (a.written.map (Written.instruction a.marked)) where
  words := by
    rw [faithful.holds.code, List.map_flatMap, List.flatMap_map]
    simp only [Written.encoded_instruction]
  regular := by
    refine List.forall_mem_map.mpr fun w member =>
      ⟨?_, List.forall_mem_map.mpr fun g given => ?_, ?_⟩
    · rw [Written.instruction, List.map_map]
      exact (List.map_congr_left fun g _ => Given.kind_operand).trans (faithful.kinds w member)
    · exact Given.counts_operand (faithful.sound w member g given)
        (faithful.few_cells short member given)
    · rw [Written.encoded_instruction, List.length_map]
      rfl
  row := faithful.row.instructions

theorem Faithful.renders (faithful : a.Faithful) (short : a.builder.length < 2 ^ 31)
    (placed : ∀ w ∈ a.written, ∀ g ∈ w.operands, ∀ l ∈ g.labels, a.marked l ≠ none)
    (member : w ∈ a.written) :
    w.Renders a.builder.block a.marked (w.instruction a.marked) := by
  refine ⟨rfl, rfl, List.forall₂_map_right_iff.mpr (List.forall₂_same.mpr fun g given => ?_)⟩
  refine Given.renders (faithful.sound w member g given) (faithful.few_cells short member given) ?_
  intro l refers
  obtain ⟨position, marked⟩ := Option.ne_none_iff_exists'.mp (placed w member g given l refers)
  have inside := faithful.holds.inside l position marked
  have within := faithful.row.within member
  rw [faithful.holds.length_eq] at short
  exact Given.reaches marked (by omega) (by omega)

/-- A builder waits for the labels that it was asked for and that are not marked. -/
theorem Faithful.awaits (faithful : a.Faithful) :
    a.builder.labels.any isAwaited = true ↔
      ∃ w ∈ a.written, ∃ g ∈ w.operands, ∃ l ∈ g.labels, a.marked l = none := by
  rw [faithful.holds.any_isAwaited]
  simp only [List.mem_flatMap, Written.target_mem_cells]
  constructor
  · rintro ⟨l, -, ⟨w, member, -, g, given, refers⟩, unmarked⟩
    exact ⟨w, member, g, given, l, refers, unmarked⟩
  · rintro ⟨w, member, g, given, l, refers, unmarked⟩
    exact ⟨l, w.offset, ⟨w, member, rfl, g, given, refers⟩, unmarked⟩

/-- Whatever proper steps are taken, as long as the code is short enough: a finished
block decodes to the instructions that were asked for, in their order and at the
offsets that were answered, with the operands that were given, and label operands
lead to the places where their labels were marked. The block cannot be finished for
want of a label exactly when a label was referred to and never marked. -/
theorem assembled_code_decodes (name : Text) (steps : List Step)
    (follows : (start name).Follows steps)
    (short : ((start name).run steps).builder.length < 2 ^ 31) :
    let a := (start name).run steps
    (∀ block, a.builder.build = .ok block →
      ∃ instructions, Instruction.sequence block.code = (instructions, none) ∧
        List.Forall₂ (Written.Renders block a.marked) a.written instructions) ∧
    ((∃ w ∈ a.written, ∃ g ∈ w.operands, ∃ l ∈ g.labels, a.marked l = none) ↔
      a.builder.build = .error (.unplacedLabel a.builder.block.title)) := by
  intro a
  have faithful : a.Faithful := (Faithful.start name).run follows
  rw [← faithful.awaits]
  cases awaited : a.builder.labels.any isAwaited with
  | true => simp [Builder.build, awaited]
  | false =>
    have placed : ∀ w ∈ a.written, ∀ g ∈ w.operands, ∀ l ∈ g.labels, a.marked l ≠ none := by
      intro w member g given l refers unmarked
      have waits := faithful.awaits.mpr ⟨w, member, g, given, l, refers, unmarked⟩
      rw [awaited] at waits
      cases waits
    simp only [Builder.build, awaited, Bool.false_eq_true, if_false]
    split
    next checked =>
      refine ⟨fun block built => ?_, by simp⟩
      cases built
      refine ⟨_, Instruction.sequence_eq_iff.mpr (faithful.spells short), ?_⟩
      exact List.forall₂_map_right_iff.mpr
        (List.forall₂_same.mpr fun w member => faithful.renders short placed member)
    · exact ⟨nofun, by simp⟩

/-- A loop that calls a member until it answers false, with a jump back to its start, a
jump forward, and a branch to labels of which one is marked already. -/
def looping : List Step :=
  [.registers 2, .newLabel, .newLabel, .newLabel, .mark 0, .atPosition 3 1,
    .emitCallMember 0 1 (utf8 "next") { attr := { access := 1, visibility := 4 }, control := 9 }
      [0, 1],
    .emitJumpIf .jumpFalse 0 1, .emitJump 0, .mark 1, .emitCatchBranch 0 0 [0, 2], .mark 2,
    .emit .return [⟨.register, 0, []⟩]]

theorem looping_decodes :
    ∃ block, ((start (utf8 "loop")).run looping).builder.build = .ok block ∧
      ∃ instructions, Instruction.sequence block.code = (instructions, none) ∧
        List.Forall₂ (Written.Renders block ((start (utf8 "loop")).run looping).marked)
          ((start (utf8 "loop")).run looping).written instructions := by
  have fits : ({ access := 1, visibility := 4 } : Attribute).Fits :=
    ⟨by decide, by decide, by decide, by decide, by decide, by decide⟩
  have follows : (start (utf8 "loop")).Follows looping :=
    ⟨trivial, trivial, trivial, trivial, trivial, trivial, fits, ⟨by decide, by decide +kernel⟩,
      show 0 < _ by decide +kernel, trivial, show ∀ l ∈ [0, 2], l < _ by decide +kernel, trivial,
      ⟨rfl, by simp [Operand.Counts, OperandKind.isList]⟩, trivial⟩
  have short : ((start (utf8 "loop")).run looping).builder.length < 2 ^ 31 := by decide +kernel
  have built : ((start (utf8 "loop")).run looping).builder.build.toOption.isSome = true := by
    decide +kernel
  cases result : ((start (utf8 "loop")).run looping).builder.build with
  | error => rw [result] at built; cases built
  | ok block => exact ⟨block, rfl, (assembled_code_decodes _ looping follows short).1 block result⟩

end Assembly
end Builder
end ScriptEngine
