import ScriptEngine.Machine.State

/-! How a running block reads its instructions. Words are read one at a time,
where an instruction needs them; nothing is read in advance, so that a
malformed instruction has the effects of the part before the fault. -/
namespace ScriptEngine

/-- The size of storage that follows a size too small. Sizes double at first;
then they grow by a quarter and some, up to a size that storage comes in. From
32 KiB on these are whole pages of 2048 words. -/
def nextStorageSize (size : Nat) : Nat :=
  if size < 512 then 2 * size
  else
    let wanted := size + (size + 768) / 4
    match [864, 1344, 2048, 3072, 4096, 5440, 7168].find? (wanted ≤ ·) with
    | some size => size
    | none => (wanted + 2047) / 2048 * 2048

/-- The number of words that code of a given length takes in storage, which
grows from two until the code fits. Words after the code are zero. -/
def storageSize (length : Nat) : Nat := go length 2
where
  go : (fuel size : Nat) → Nat
    | 0, size => size
    | fuel + 1, size => if length ≤ size then size else go fuel (nextStorageSize size)

namespace Activation

/-- The word at an offset from the instruction's start. -/
def word? (a : Activation) (k : Nat) : Option UInt32 :=
  if a.ip < 0 then none else a.block.code[a.ip.toNat + k]?

/-- The register that a word names. -/
def registerNumber? (a : Activation) (k : Nat) : Option Nat := (a.word? k).map (·.toNat)

/-- The value in the register that a word names. -/
def register? (a : Activation) (w : World) (k : Nat) : Option Value := do
  (w.registers a.frame)[← a.registerNumber? k]?

/-- The constant that a word names. -/
def const? (a : Activation) (k : Nat) : Option Value := do
  a.block.consts[(← a.word? k).toNat]?

/-- A run of words. It may reach beyond the code into its storage. -/
def words? (a : Activation) (k count : Nat) : Option (List UInt32) :=
  let start := a.ip.toNat + k
  let code := a.block.code
  if start + count ≤ storageSize code.size then
    some ((List.range count).map fun i => (code[start + i]?).getD 0)
  else none

/-- The values of a counted list of registers, and the words it takes. -/
def list? (a : Activation) (w : World) (k : Nat) : Option (List Value × Nat) := do
  let count := (← a.word? k).toNat
  if count = 0 then return ([], 1)
  let registers := w.registers a.frame
  let values ← (← a.words? (k + 1) count).mapM fun r => registers[r.toNat]?
  return (values, count + 1)

/-- The flags in a word. -/
def flags? (a : Activation) (k : Nat) : Option Flags := (a.word? k).map Flags.unpack

/-- The place a displacement in a word leads to. -/
def target? (a : Activation) (k : Nat) : Option Int :=
  (a.word? k).map fun d => a.ip + displacement d

/-- The offset `n` words after the instruction's start. -/
def after (a : Activation) (n : Nat) : Int := a.ip + n

end Activation
end ScriptEngine
