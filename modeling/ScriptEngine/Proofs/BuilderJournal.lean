import ScriptEngine.Proofs.AssembledCode

/-! The journal of a builder: the source positions that were set, the instructions that
were written and the constants that were asked for, in their order, with the numbers that
were answered. Steps may be of any form, an instruction with an unknown opcode or with
missing operands included. Every step that writes is an instruction with labels behind it;
all other steps leave the code as long as it was. -/
namespace ScriptEngine
namespace Builder

/-- A step in assembling a block in which the number of the opcode may be any word. -/
inductive RawStep where
  | step (step : Step)
  | emit (opcode : UInt32) (operands : List UInt32)
  | emitCall (opcode dst fn : UInt32) (flags : Flags) (args : List UInt32)
  | emitJumpIf (opcode register : UInt32) (label : Nat)

/-- What a builder was asked for: to set a source position, to write an instruction, which
starts at the offset that was answered, or to have a constant, which has the index that
was answered. -/
inductive Entry where
  | position (line column : Int64)
  | instruction (offset : Nat)
  | constant (v : Value) (index : Nat)
deriving DecidableEq, Repr

namespace RawStep

/-- Takes a step; gives the number that is answered, if there is one. -/
def run (b : Builder) : RawStep → Builder × Option Nat
  | .step s => s.run b
  | .emit opcode operands => (b.emit opcode operands).map id some
  | .emitCall opcode dst fn flags args => (b.emitCall opcode dst fn flags args).map id some
  | .emitJumpIf opcode register label => (b.emitJumpIf opcode register label).map id some

/-- Whether a step writes an instruction. -/
def writes (b : Builder) : RawStep → Bool
  | .step s => (s.writes? b).isSome
  | .emit .. | .emitCall .. | .emitJumpIf .. => true

/-- The source position that a step sets. -/
def position? : RawStep → Option (Int64 × Int64)
  | .step (.atPosition line column) => some (line, column)
  | _ => none

/-- The constant that a step asks for. -/
def constant? : RawStep → Option Value
  | .step (.const v) => some v
  | .step (.emitCallMember _ _ name _ _) => some (.string name)
  | _ => none

/-- What a step adds to the journal. A member call asks for its name before it is
written. -/
def entries (b : Builder) (s : RawStep) : List Entry :=
  (s.position?.map fun (line, column) => .position line column).toList ++
    (s.constant?.map fun v => .constant v (b.const v).2).toList ++
    if s.writes b then ((s.run b).2.map .instruction).toList else []

/-- The builder that has the constant that a step asks for. -/
def pooled (b : Builder) (s : RawStep) : Builder := s.constant?.elim b fun v => (b.const v).1

end RawStep

/-- The builder after some steps. -/
def after (b : Builder) (steps : List RawStep) : Builder := steps.foldl (fun b s => (s.run b).1) b

/-- The journal of some steps. -/
def journal : Builder → List RawStep → List Entry
  | _, [] => []
  | b, s :: rest => s.entries b ++ (s.run b).1.journal rest

variable {b b' : Builder} {s : RawStep} {steps : List RawStep} {offset label : Nat}

theorem after_cons : b.after (s :: steps) = (s.run b).1.after steps := rfl

theorem after_append {more : List RawStep} :
    b.after (steps ++ more) = (b.after steps).after more := List.foldl_append

theorem journal_append {more : List RawStep} :
    b.journal (steps ++ more) = b.journal steps ++ (b.after steps).journal more := by
  induction steps generalizing b with
  | nil => rfl
  | cons s rest ih => rw [List.cons_append, journal, journal, ih, after_cons, List.append_assoc]

/-! ### Parts of a builder -/

/-- Two builders have the same constants and source positions. -/
structure Keeps (b b' : Builder) : Prop where
  consts : b'.block.consts = b.block.consts
  sourceMap : b'.block.sourceMap = b.block.sourceMap
  pending : b'.pending = b.pending

theorem Keeps.trans {b'' : Builder} (first : Keeps b b') (second : Keeps b' b'') : Keeps b b'' :=
  ⟨second.consts.trans first.consts, second.sourceMap.trans first.sourceMap,
    second.pending.trans first.pending⟩

theorem keeps_appendTarget : Keeps b (b.appendTarget offset label) := by
  unfold appendTarget
  split <;> exact ⟨rfl, rfl, rfl⟩

theorem keeps_appendTargets {labels : List Nat} : Keeps b (b.appendTargets offset labels) := by
  induction labels generalizing b with
  | nil => exact ⟨rfl, rfl, rfl⟩
  | cons label rest ih => exact keeps_appendTarget.trans ih

theorem length_append (b : Builder) (words : List UInt32) :
    (b.append words).length = b.length + words.length := by
  simp [append, length, BlockData.code]

theorem length_appendTarget : (b.appendTarget offset label).length = b.length + 1 := by
  unfold appendTarget
  split <;> exact length_append b [_]

theorem length_appendTargets {labels : List Nat} :
    (b.appendTargets offset labels).length = b.length + labels.length := by
  induction labels generalizing b with
  | nil => rfl
  | cons label rest ih =>
    have tail : (b.appendTargets offset (label :: rest)).length =
        (b.appendTarget offset label).length + rest.length := ih
    rw [tail, length_appendTarget, List.length_cons]
    omega

theorem length_takePosition : b.takePosition.length = b.length := by
  unfold takePosition
  split <;> rfl

theorem length_emit (opcode : UInt32) (words : List UInt32) :
    (b.emit opcode words).1.length = b.length + words.length + 1 := by
  rw [emit, length_append, length_takePosition, List.length_cons, Nat.add_assoc]

theorem pending_takePosition : b.takePosition.pending = none := by
  unfold takePosition
  split
  next none => exact none
  · rfl

/-- Placing a label changes words of the code and nothing else beside the labels. -/
theorem keeps_mark (marks : b.mark? label = some b') : Keeps b b' ∧ b'.length = b.length := by
  unfold mark? at marks
  split at marks
  · cases marks
    refine ⟨⟨rfl, rfl, rfl⟩, ?_⟩
    cases same : b.block.code? <;> simp [length, BlockData.code, same, size_patch]
  · cases marks

/-- Asking for a constant changes nothing but the pool. -/
theorem const_rest (b : Builder) (v : Value) :
    (b.const v).1.length = b.length ∧ (b.const v).1.block.sourceMap = b.block.sourceMap ∧
      (b.const v).1.pending = b.pending := by
  unfold Builder.const
  dsimp only
  split <;> exact ⟨rfl, rfl, rfl⟩

namespace RawStep

theorem pooled_rest (b : Builder) (s : RawStep) :
    (s.pooled b).length = b.length ∧ (s.pooled b).block.sourceMap = b.block.sourceMap ∧
      (s.pooled b).pending = b.pending := by
  unfold pooled
  cases s.constant? with
  | none => exact ⟨rfl, rfl, rfl⟩
  | some v => exact const_rest b v

/-! ### One step -/

/-- A step that writes puts an opcode and some words behind the code, then words for some
labels, and answers where it began. -/
theorem run_writes (written : s.writes b = true) :
    ∃ opcode words labels, s.run b =
      (((s.pooled b).emit opcode words).1.appendTargets b.length labels, some b.length) := by
  cases s with
  | emit opcode operands => exact ⟨opcode, operands, [], rfl⟩
  | emitCall opcode dst fn flags args => exact ⟨opcode, _, [], rfl⟩
  | emitJumpIf opcode register label => exact ⟨opcode, [register], [label], rfl⟩
  | step s =>
    cases s with
    | emitJump label => exact ⟨_, [], [label], rfl⟩
    | emitJumpIf opcode register label => exact ⟨_, [register], [label], rfl⟩
    | emitCatchBranch register exits labels => exact ⟨_, _, labels, rfl⟩
    | emitCallMember dst object name flags args =>
      have same : (b.const (.string name)).1.length = b.length := (const_rest b _).1
      exact ⟨_, _, [], congrArg (Prod.mk _) (congrArg some same)⟩
    | emit | emitCall | emitCallBlock | emitSync | emitDump => exact ⟨_, _, [], rfl⟩
    | _ => cases written

/-- Any other step leaves the code as long as it is; it may set the position for the next
instruction. -/
theorem run_silent (silent : s.writes b = false) :
    (s.run b).1.length = b.length ∧ (s.run b).1.block.sourceMap = b.block.sourceMap ∧
      (s.run b).1.pending = s.position?.or b.pending ∧
      (s.run b).1.block.consts = (s.pooled b).block.consts := by
  cases s with
  | emit | emitCall | emitJumpIf => cases silent
  | step s =>
    cases s with
    | source | registers | nest | nested | atPosition | newLabel => exact ⟨rfl, rfl, rfl, rfl⟩
    | const v =>
      obtain ⟨length, sourceMap, pending⟩ := const_rest b v
      exact ⟨length, sourceMap, pending, rfl⟩
    | mark label =>
      cases marks : b.mark? label with
      | none => simp [run, Step.run, marks, position?, pooled, constant?]
      | some b' =>
        obtain ⟨keeps, length⟩ := keeps_mark marks
        have same : (RawStep.step (.mark label)).run b = (b', none) := by
          simp [run, Step.run, marks]
        rw [same]
        exact ⟨length, keeps.sourceMap, keeps.pending, keeps.consts⟩
    | _ => cases silent

theorem length_run_writes (written : s.writes b = true) :
    (s.run b).2 = some b.length ∧ b.length < (s.run b).1.length := by
  obtain ⟨opcode, words, labels, same⟩ := run_writes written
  have start := (pooled_rest b s).1
  rw [same]
  refine ⟨rfl, ?_⟩
  rw [length_appendTargets, length_emit, start]
  omega

/-- A step takes the pool to what it has with the constant that is asked for. -/
theorem consts_run (s : RawStep) (b : Builder) :
    (s.run b).1.block.consts = (s.pooled b).block.consts := by
  cases written : s.writes b with
  | false => exact (run_silent written).2.2.2
  | true =>
    obtain ⟨opcode, words, labels, same⟩ := run_writes written
    rw [same]
    exact keeps_appendTargets.consts.trans consts_emit

end RawStep
end Builder
end ScriptEngine
