import ScriptEngine.Opcode

/-! Decoding one instruction out of a sequence of words. -/
namespace ScriptEngine

/-- A word read as a signed displacement. -/
def displacement (w : UInt32) : Int := w.toInt32.toInt

/-- The word that stores a displacement, modulo its width. -/
def displacementWord (d : Int) : UInt32 := (Int32.ofInt d).toUInt32

/-- A decoded operand. The word of a list is its length. -/
structure Operand where
  kind : OperandKind
  word : UInt32
  words : List UInt32 := []
deriving DecidableEq, Repr

/-- A decoded instruction: where it starts, and how many words it takes. -/
structure Instruction where
  offset : Nat
  opcode : Opcode
  operands : List Operand
  length : Nat
deriving DecidableEq, Repr

/-- Why there is no instruction at a place. -/
inductive DecodeError where
  | outside (offset : Int) (size : Nat)
  | unknownOpcode (word : UInt32) (offset : Nat)
  | truncated (opcode : Opcode) (offset : Nat)
  | truncatedList (opcode : Opcode) (offset : Nat)
deriving DecidableEq, Repr

/-- The wording of a decoding error. -/
def DecodeError.message : DecodeError → Text
  | .outside offset size =>
    utf8 "offset " ++ Text.ofInt offset ++ utf8 " outside code (length " ++ Text.ofNat size ++
      utf8 ")"
  | .unknownOpcode word offset =>
    utf8 "unknown opcode " ++ Text.ofNat word.toNat ++ utf8 " at " ++ Text.ofNat offset
  | .truncated opcode offset =>
    utf8 opcode.name ++ utf8 " at " ++ Text.ofNat offset ++ utf8 ": truncated"
  | .truncatedList opcode offset =>
    utf8 opcode.name ++ utf8 " at " ++ Text.ofNat offset ++ utf8 ": truncated operand list"

namespace Instruction

/-- Operand words run out in a list or elsewhere. -/
inductive Shortage where
  | operand
  | list

/-- Reads operands of the given kinds from position `pos` on; gives them and
the position after them. -/
def decodeOperands (code : Array UInt32) :
    List OperandKind → (pos : Nat) → Except Shortage (List Operand × Nat)
  | [], pos => .ok ([], pos)
  | kind :: kinds, pos =>
    match code[pos]? with
    | none => .error .operand
    | some word =>
      if kind.isList then
        let stop := pos + 1 + word.toNat
        if stop ≤ code.size then
          match decodeOperands code kinds stop with
          | .ok (rest, last) => .ok (⟨kind, word, (code.extract (pos + 1) stop).toList⟩ :: rest, last)
          | .error e => .error e
        else .error .list
      else
        match decodeOperands code kinds (pos + 1) with
        | .ok (rest, last) => .ok (⟨kind, word, []⟩ :: rest, last)
        | .error e => .error e

/-- The instruction that starts at `offset`. -/
def decode (code : Array UInt32) (offset : Nat) : Except DecodeError Instruction :=
  match code[offset]? with
  | none => .error (.outside offset code.size)
  | some word =>
    match Opcode.ofCode? word.toNat with
    | none => .error (.unknownOpcode word offset)
    | some opcode =>
      match decodeOperands code opcode.operands (offset + 1) with
      | .ok (operands, last) => .ok ⟨offset, opcode, operands, last - offset⟩
      | .error .operand => .error (.truncated opcode offset)
      | .error .list => .error (.truncatedList opcode offset)

/-- The instruction at a place that may lie before the code. -/
def decodeAt (code : Array UInt32) (place : Int) : Except DecodeError Instruction :=
  if place < 0 then .error (.outside place code.size) else decode code place.toNat

/-- Instructions from `pos` to the end of the code, and the error that cut the
sequence short, if one did. -/
def sequenceFrom (code : Array UInt32) : (fuel pos : Nat) → List Instruction × Option DecodeError
  | 0, _ => ([], none)
  | fuel + 1, pos =>
    if pos < code.size then
      match decode code pos with
      | .ok instruction =>
        let (rest, error) := sequenceFrom code fuel (pos + instruction.length)
        (instruction :: rest, error)
      | .error e => ([], some e)
    else ([], none)

/-- All instructions of a code; each takes a word at least. -/
def sequence (code : Array UInt32) : List Instruction × Option DecodeError :=
  sequenceFrom code code.size 0

end Instruction
end ScriptEngine
