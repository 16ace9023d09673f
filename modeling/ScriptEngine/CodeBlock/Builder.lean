import ScriptEngine.Attribute
import ScriptEngine.CodeBlock.Validation

/-! Assembling a block instruction by instruction, with labels for jump targets
that may be used before they are placed. -/
namespace ScriptEngine

/-- A word that awaits a label, and the start of the instruction it is in. -/
structure LabelUse where
  word : Nat
  instruction : Nat
deriving DecidableEq, Repr

/-- A jump target: where it was placed, or the words that wait for it. -/
inductive Label where
  | waiting (uses : List LabelUse)
  | placed (position : Nat)
deriving DecidableEq, Repr

/-- A block under construction. -/
structure Builder where
  block : CodeBlock
  labels : Array Label := #[]
  /-- The source position for the next instruction. -/
  pending : Option (Int64 × Int64) := none

/-- Why a block could not be finished. -/
inductive BuildError where
  | unplacedLabel (title : Text)
  | invalid (error : BlockError)

/-- The wording of a build error. -/
def BuildError.message : BuildError → Text
  | .unplacedLabel title => title ++ utf8 ": unresolved label"
  | .invalid error => error.message

namespace Builder

def start (name : Text) : Builder := { block := { name := name } }

def source (b : Builder) (name : Text) : Builder := { b with block.source := name }

def registers (b : Builder) (count : Int64) : Builder := { b with block.registers := count }

/-- Declares the shared variables, one size per depth. -/
def nest (b : Builder) (sizes : List Int64) : Builder :=
  { b with
    block.nestLevel := Int64.ofNat sizes.length
    block.sharedSizes? := if sizes = [] then none else some sizes }

/-- Adds a constant, unless an identical one that is no object is there
already; gives its index. -/
def const (b : Builder) (v : Value) : Builder × Nat :=
  let present := if v.kind = .object then none else b.block.consts.findIdx? (·.identical v)
  match present with
  | some i => (b, i)
  | none => ({ b with block.consts := b.block.consts ++ [v] }, b.block.consts.length)

/-- Adds a nested block; gives its index. -/
def nested (b : Builder) (sub : Option CodeBlock) : Builder × Nat :=
  ({ b with block.blocks := b.block.blocks ++ [sub] }, b.block.blocks.length)

/-- Sets the source position of the next instruction. -/
def atPosition (b : Builder) (line column : Int64) : Builder := { b with pending := some (line, column) }

def length (b : Builder) : Nat := b.block.code.size

/-- Records the pending source position at the current offset. -/
def takePosition (b : Builder) : Builder :=
  match b.pending with
  | none => b
  | some (line, column) =>
    { b with
      block.sourceMap := b.block.sourceMap ++ [⟨Int64.ofNat b.length, line, column⟩]
      pending := none }

/-- Appends words. -/
def append (b : Builder) (words : List UInt32) : Builder :=
  { b with block.code? := some (b.block.code ++ words.toArray) }

/-- Appends an instruction; gives its offset. -/
def emit (b : Builder) (opcode : UInt32) (operands : List UInt32) : Builder × Nat :=
  (b.takePosition.append (opcode :: operands), b.length)

/-- A list operand: its length, then its words. -/
def counted (words : List UInt32) : List UInt32 := words.length.toUInt32 :: words

def emitCall (b : Builder) (opcode dst fn : UInt32) (flags : Flags) (args : List UInt32) :
    Builder × Nat :=
  b.emit opcode ([dst, fn, flags.pack] ++ counted args)

/-- Appends a member call; the name becomes a constant. -/
def emitCallMember (b : Builder) (dst object : UInt32) (name : Text) (flags : Flags)
    (args : List UInt32) : Builder × Nat :=
  let (b, k) := b.const (.string name)
  b.emit Opcode.callMember.code.toUInt32 ([dst, object, k.toUInt32, flags.pack] ++ counted args)

def emitCallBlock (b : Builder) (dst fn : UInt32) (flags : Flags) (args blocks : List UInt32) :
    Builder × Nat :=
  b.emit Opcode.callBlock.code.toUInt32 ([dst, fn, flags.pack] ++ counted args ++ counted blocks)

def emitSync (b : Builder) (dst fn lock : UInt32) (flags : Flags) (args : List UInt32) :
    Builder × Nat :=
  b.emit Opcode.sync.code.toUInt32 ([dst, fn, lock, flags.pack] ++ counted args)

def emitDump (b : Builder) (regs : List UInt32) : Builder × Nat :=
  b.emit Opcode.dump.code.toUInt32 (counted regs)

/-- Adds an unplaced label; gives its number. -/
def newLabel (b : Builder) : Builder × Nat :=
  ({ b with labels := b.labels.push (.waiting []) }, b.labels.size)

/-- Stores the displacement to `position` in every waiting word. -/
def patch (code : Array UInt32) (position : Nat) : List LabelUse → Array UInt32
  | [] => code
  | use :: rest =>
    patch (code.setIfInBounds use.word (displacementWord ((position : Int) - use.instruction)))
      position rest

/-- Places a label at the current offset; nothing if it is placed already. -/
def mark? (b : Builder) (label : Nat) : Option Builder :=
  match b.labels[label]? with
  | some (.waiting uses) =>
    some { b with
      block.code? := b.block.code?.map (patch · b.length uses)
      labels := b.labels.setIfInBounds label (.placed b.length) }
  | _ => none

/-- Appends the word for a label in the instruction at `offset`. -/
def appendTarget (b : Builder) (offset label : Nat) : Builder :=
  match b.labels[label]? with
  | some (.placed position) => b.append [displacementWord ((position : Int) - offset)]
  | some (.waiting uses) =>
    { b.append [0] with
      labels := b.labels.setIfInBounds label (.waiting (uses ++ [⟨b.length, offset⟩])) }
  | none => b.append [0]

/-- Appends words for several labels. -/
def appendTargets (b : Builder) (offset : Nat) (labels : List Nat) : Builder :=
  labels.foldl (fun b label => b.appendTarget offset label) b

/-- Appends a jump to a label. -/
def emitJump (b : Builder) (label : Nat) : Builder × Nat :=
  let (b, offset) := b.emit Opcode.jump.code.toUInt32 []
  (b.appendTarget offset label, offset)

/-- Appends a conditional jump that tests a register. -/
def emitJumpIf (b : Builder) (opcode register : UInt32) (label : Nat) : Builder × Nat :=
  let (b, offset) := b.emit opcode [register]
  (b.appendTarget offset label, offset)

/-- Appends a branch on a call marker: the first target is for no error, the
second for thrown values, further ones for exits. -/
def emitCatchBranch (b : Builder) (register const : UInt32) (labels : List Nat) : Builder × Nat :=
  let (b, offset) :=
    b.emit Opcode.catchBranch.code.toUInt32 [register, const, labels.length.toUInt32]
  (b.appendTargets offset labels, offset)

/-- Whether words wait for a label. -/
def isAwaited : Label → Bool
  | .waiting uses => !uses.isEmpty
  | .placed _ => false

/-- The finished block, when no label is awaited and the block is valid. -/
def build (b : Builder) : Except BuildError CodeBlock :=
  if b.labels.any isAwaited then .error (.unplacedLabel b.block.title)
  else
    match b.block.validate with
    | .ok _ => .ok b.block
    | .error e => .error (.invalid e)

end Builder
end ScriptEngine
