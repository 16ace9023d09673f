import ScriptEngine.Proofs.InstructionWords
import ScriptEngine.Proofs.LabelResolution

/-! Assembling a block step by step. Beside the builder a record is kept of what it
was asked for: the instructions with the operands as they were given and the offsets
that were answered, and the places at which labels were marked. -/
namespace ScriptEngine
namespace Builder

/-- A step in assembling a block. -/
inductive Step where
  | source (name : Text)
  | registers (count : Int64)
  | nest (sizes : List Int64)
  | const (v : Value)
  | nested (sub : Option CodeBlock)
  | atPosition (line column : Int64)
  | emit (opcode : Opcode) (operands : List Operand)
  | emitCall (opcode : Opcode) (dst fn : UInt32) (flags : Flags) (args : List UInt32)
  | emitCallMember (dst object : UInt32) (name : Text) (flags : Flags) (args : List UInt32)
  | emitCallBlock (dst fn : UInt32) (flags : Flags) (args blocks : List UInt32)
  | emitSync (dst fn lock : UInt32) (flags : Flags) (args : List UInt32)
  | emitDump (regs : List UInt32)
  | newLabel
  | mark (label : Nat)
  | emitJump (label : Nat)
  | emitJumpIf (opcode : Opcode) (register : UInt32) (label : Nat)
  | emitCatchBranch (register exits : UInt32) (labels : List Nat)

/-- An operand as it was asked for. The name of a member comes with the index of its
constant. -/
inductive Given where
  | word (kind : OperandKind) (word : UInt32)
  | list (kind : OperandKind) (words : List UInt32)
  | flags (flags : Flags)
  | name (text : Text) (index : Nat)
  | target (label : Nat)
  | targets (labels : List Nat)
deriving DecidableEq, Repr

/-- An operand that was given by its words. -/
def Given.ofOperand (o : Operand) : Given :=
  if o.kind.isList then .list o.kind o.words else .word o.kind o.word

/-- An instruction as it was asked for, and the offset that was answered. -/
structure Written where
  offset : Nat
  opcode : Opcode
  operands : List Given
deriving DecidableEq, Repr

namespace Step

/-- Takes a step; gives the number that is answered, if there is one. A label that is
placed already stays where it is. -/
def run (b : Builder) : Step → Builder × Option Nat
  | .source name => (b.source name, none)
  | .registers count => (b.registers count, none)
  | .nest sizes => (b.nest sizes, none)
  | .const v => (b.const v).map id some
  | .nested sub => (b.nested sub).map id some
  | .atPosition line column => (b.atPosition line column, none)
  | .emit opcode operands =>
    (b.emit opcode.code.toUInt32 (operands.flatMap Operand.encoded)).map id some
  | .emitCall opcode dst fn flags args =>
    (b.emitCall opcode.code.toUInt32 dst fn flags args).map id some
  | .emitCallMember dst object name flags args =>
    (b.emitCallMember dst object name flags args).map id some
  | .emitCallBlock dst fn flags args blocks =>
    (b.emitCallBlock dst fn flags args blocks).map id some
  | .emitSync dst fn lock flags args => (b.emitSync dst fn lock flags args).map id some
  | .emitDump regs => (b.emitDump regs).map id some
  | .newLabel => b.newLabel.map id some
  | .mark label => ((b.mark? label).getD b, none)
  | .emitJump label => (b.emitJump label).map id some
  | .emitJumpIf opcode register label =>
    (b.emitJumpIf opcode.code.toUInt32 register label).map id some
  | .emitCatchBranch register exits labels => (b.emitCatchBranch register exits labels).map id some

/-- The instruction that a step asks for. -/
def writes? (b : Builder) : Step → Option (Opcode × List Given)
  | .emit opcode operands => some (opcode, operands.map .ofOperand)
  | .emitCall opcode dst fn flags args =>
    some (opcode, [.word .register dst, .word .register fn, .flags flags, .list .registers args])
  | .emitCallMember dst object name flags args =>
    some (.callMember, [.word .register dst, .word .register object,
      .name name (b.const (.string name)).2, .flags flags, .list .registers args])
  | .emitCallBlock dst fn flags args blocks =>
    some (.callBlock, [.word .register dst, .word .register fn, .flags flags,
      .list .registers args, .list .registers blocks])
  | .emitSync dst fn lock flags args =>
    some (.sync, [.word .register dst, .word .register fn, .word .register lock, .flags flags,
      .list .registers args])
  | .emitDump regs => some (.dump, [.list .registers regs])
  | .emitJump label => some (.jump, [.target label])
  | .emitJumpIf opcode register label => some (opcode, [.word .register register, .target label])
  | .emitCatchBranch register exits labels =>
    some (.catchBranch, [.word .register register, .word .constant exits, .targets labels])
  | _ => none

/-- A step as it is meant: words are given as the operand table asks for, operations
are of the form that they are for, flags fit into a word, and labels exist. -/
def Proper (b : Builder) : Step → Prop
  | .emit opcode operands =>
    operands.map (·.kind) = opcode.operands ∧ ∀ o ∈ operands, o.Counts
  | .emitCall opcode _ _ flags _ => opcode ∈ [.call, .new, .tryCall] ∧ flags.attr.Fits
  | .emitCallMember _ _ _ flags _ | .emitCallBlock _ _ flags _ _ | .emitSync _ _ _ flags _ =>
    flags.attr.Fits
  | .emitJump label => label < b.labels.size
  | .emitJumpIf opcode _ label => opcode ∈ [.jumpTrue, .jumpFalse] ∧ label < b.labels.size
  | .emitCatchBranch _ _ labels => ∀ label ∈ labels, label < b.labels.size
  | _ => True

end Step

/-- A builder, what it was asked to write, and the length that the code had when a
label was marked. -/
structure Assembly where
  builder : Builder
  written : List Written := []
  marked : Nat → Option Nat := fun _ => none

namespace Assembly

def start (name : Text) : Assembly := { builder := .start name }

/-- Takes a step and records it. -/
def after (a : Assembly) (step : Step) : Assembly where
  builder := (step.run a.builder).1
  written :=
    match (step.run a.builder).2, step.writes? a.builder with
    | some offset, some (opcode, operands) => a.written ++ [⟨offset, opcode, operands⟩]
    | _, _ => a.written
  marked :=
    match step with
    | .mark label =>
      if (a.builder.mark? label).isSome then
        fun other => if other = label then some a.builder.length else a.marked other
      else a.marked
    | _ => a.marked

/-- Takes steps one after the other. -/
def run (a : Assembly) (steps : List Step) : Assembly := steps.foldl after a

/-- Every step is proper when it is taken. -/
def Follows : Assembly → List Step → Prop
  | _, [] => True
  | a, step :: rest => step.Proper a.builder ∧ (a.after step).Follows rest

end Assembly
end Builder
end ScriptEngine
