import ScriptEngine.Attribute
import ScriptEngine.CodeBlock

/-! Listings of code: one line for a block, one for each of its instructions,
then the same for nested blocks, further indented. -/
namespace ScriptEngine

/-- An integer with its sign, also when positive. -/
def Text.ofIntSigned (i : Int) : Text := if i < 0 then Text.ofInt i else 0x2b :: Text.ofInt i

/-- A code position, four digits wide at least. -/
def positionText (i : Int) : Text := Text.ofIntPadded 4 i

/-- Flags in a listing: the attribute in words and the control bits. -/
def Flags.listing (f : Flags) : Text :=
  utf8 "flags(" ++ f.attr.text ++ utf8 "|0x" ++ Text.ofNatBase 16 f.control.toNat ++ utf8 ")"

/-- A nested block as an operand shows it. -/
def placeTitle : Option CodeBlock → Text
  | some sub => sub.title
  | none => utf8 "<nil>"

/-- An index with a letter, and in parentheses what stands there, if known. -/
def indexListing (letter : UInt8) (index : UInt32) (known : Option Text) : Text :=
  letter :: Text.ofNat index.toNat ++
    match known with
    | some t => utf8 " (" ++ t ++ utf8 ")"
    | none => []

/-- The targets of a branch, numbered. -/
def targetsListing (offset : Nat) : Nat → List UInt32 → List Text
  | _, [] => []
  | i, w :: ws =>
    (Text.ofNat i ++ utf8 ":" ++ positionText (offset + displacement w)) ::
      targetsListing offset (i + 1) ws

/-- An operand in a listing of the given block, if that is known. -/
def Operand.listing (face : ObjRef → Face) (b? : Option CodeBlock) (offset : Nat) (o : Operand) :
    Text :=
  match o.kind with
  | .register => indexListing 0x72 o.word none
  | .constant =>
    indexListing 0x6b o.word ((b?.bind (·.consts[o.word.toNat]?)).map (·.describe face))
  | .block => indexListing 0x62 o.word ((b?.bind (·.blocks[o.word.toNat]?)).map placeTitle)
  | .displacement =>
    Text.ofIntSigned (displacement o.word) ++ utf8 " (-> " ++
      positionText (offset + displacement o.word) ++ utf8 ")"
  | .flags => if o.word = 0 then utf8 "-" else (Flags.unpack o.word).listing
  | .level => indexListing 0x4c o.word none
  | .slot => indexListing 0x53 o.word none
  | .registers =>
    utf8 "[" ++ Text.joined [0x20] (o.words.map fun w => indexListing 0x72 w none) ++ utf8 "]"
  | .displacements =>
    utf8 "\x7b" ++ Text.joined [0x20] (targetsListing offset 0 o.words) ++ utf8 "\x7d"
  | .immediate => Text.ofNat o.word.toNat

/-- A text without trailing copies of a byte. -/
def Text.dropTrailing (b : UInt8) (t : Text) : Text := (t.reverse.dropWhile (· == b)).reverse

/-- An instruction as one line. -/
def Instruction.listing (face : ObjRef → Face) (b? : Option CodeBlock) (i : Instruction) : Text :=
  let operands := i.operands.map fun o => 0x20 :: o.listing face b? i.offset
  Text.dropTrailing 0x20
    (positionText i.offset ++ utf8 "  " ++ Text.padRight 12 (utf8 i.opcode.name) ++
      Text.joined (utf8 ",") operands)

namespace CodeBlock

/-- The first line of a block's listing. -/
def headLine (b : CodeBlock) : Text :=
  utf8 "block " ++ b.title ++ utf8 " " ++ b.id.text ++ utf8 " regs=" ++ Text.ofInt b.registers.toInt ++
    (if b.nestLevel > 0 then
      utf8 " shared=[" ++ Text.joined [0x20] (b.sharedSizes.map (Text.ofInt ·.toInt)) ++ utf8 "]"
    else []) ++
    (if b.source = [] then [] else utf8 " source=" ++ b.source)

/-- The line of an instruction, with its source position if it has one. -/
def instructionLine (face : ObjRef → Face) (b : CodeBlock) (i : Instruction) : Text :=
  let (line, column) := b.position i.offset
  utf8 "  " ++ i.listing face (some b) ++
    (if line > 0 then utf8 "  ; " ++ Text.ofInt line.toInt ++ utf8 ":" ++ Text.ofInt column.toInt else [])

/-- The lines of a block without its nested blocks. A place that does not
decode ends them with its error. -/
def ownLines (face : ObjRef → Face) (b : CodeBlock) : List Text :=
  let (instructions, error) := Instruction.sequence b.code
  b.headLine :: instructions.map (b.instructionLine face) ++
    (error.map fun e => utf8 "  !! " ++ e.message).toList

mutual

/-- The lines of a block, each after `indent`. -/
def lines (face : ObjRef → Face) (indent : Text) : CodeBlock → List Text
  | ⟨data, blocks⟩ =>
    (ownLines face ⟨data, blocks⟩).map (indent ++ ·) ++
      nestedLines face (indent ++ utf8 "  ") blocks

/-- The lines of nested blocks. -/
def nestedLines (face : ObjRef → Face) (indent : Text) : List (Option CodeBlock) → List Text
  | [] => []
  | sub :: rest => placeLines face indent sub ++ nestedLines face indent rest

/-- The lines of one place for a nested block; a vacant one has none. -/
def placeLines (face : ObjRef → Face) (indent : Text) : Option CodeBlock → List Text
  | none => []
  | some sub => lines face indent sub

end

/-- The whole listing. -/
def listing (face : ObjRef → Face) (b : CodeBlock) : Text :=
  Text.dropTrailing 0x0a (Text.joined [0x0a] (b.lines face []))

end CodeBlock
end ScriptEngine
