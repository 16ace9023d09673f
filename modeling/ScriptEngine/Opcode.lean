import ScriptEngine.Text

/-! The instruction set: opcodes, their names and the operands they take. -/
namespace ScriptEngine

/-- Operators with one operand. -/
inductive UnaryOp where
  | logNot | bitNot | plus | minus | toString | toBoolean | toReal | toInteger | toOctet
deriving DecidableEq, Repr

/-- Operators with two operands that are computed from the values alone. -/
inductive BinaryOp where
  | logOr | logAnd | bitOr | bitXor | bitAnd
  | notEqual | equal | strictNotEqual | strictEqual
  | less | greater | lessOrEqual | greaterOrEqual
  | shiftRightZero | shiftLeft | shiftRight
  | remainder | div | quotient | mul | add | sub
deriving DecidableEq, Repr

/-- The opcodes. -/
inductive Opcode where
  | nop | assign | const
  | this | thisProxy | global | super
  | newObject | newArray | newDict | newRegExp | newFunction | newProperty | newClass | newModule
  | param | blockParam
  | newBinding | bindingMap
  | read | write
  | setFrame | setShare
  | call | callMember | new | callBlock | tryCall | sync
  | jump | jumpTrue | jumpFalse | catchBranch | return | throw | exitTry
  | unary (op : UnaryOp)
  | binary (op : BinaryOp)
  | instanceOf | inContextOf
  | dget | dset | iget | iset | dsetAttrib
  | assert | dump
deriving DecidableEq, Repr

/-- What an operand word means. The last two are counted lists. -/
inductive OperandKind where
  | register | constant | block | displacement | flags | immediate | level | slot
  | registers | displacements
deriving DecidableEq, Repr

namespace OperandKind

/-- The number of an operand kind. -/
def code : OperandKind → Nat
  | .register => 0
  | .constant => 1
  | .block => 2
  | .displacement => 3
  | .flags => 4
  | .immediate => 5
  | .level => 6
  | .slot => 7
  | .registers => 8
  | .displacements => 9

/-- Whether an operand is a count followed by that many words. -/
def isList (k : OperandKind) : Bool := k = .registers || k = .displacements

end OperandKind

namespace Opcode

/-- All opcodes; an opcode's number is its place. -/
def all : List Opcode :=
  [.nop, .assign, .const, .this, .thisProxy, .global, .super,
    .newObject, .newArray, .newDict, .newRegExp, .newFunction, .newProperty, .newClass, .newModule,
    .param, .blockParam, .newBinding, .bindingMap, .read, .write, .setFrame, .setShare,
    .call, .callMember, .new, .callBlock, .tryCall, .sync,
    .jump, .jumpTrue, .jumpFalse, .catchBranch, .return, .throw, .exitTry,
    .unary .logNot, .unary .bitNot, .unary .plus, .unary .minus, .unary .toString,
    .unary .toBoolean, .unary .toReal, .unary .toInteger, .unary .toOctet,
    .binary .logOr, .binary .logAnd, .binary .bitOr, .binary .bitXor, .binary .bitAnd,
    .binary .notEqual, .binary .equal, .binary .strictNotEqual, .binary .strictEqual,
    .binary .less, .binary .greater, .binary .lessOrEqual, .binary .greaterOrEqual,
    .binary .shiftRightZero, .binary .shiftLeft, .binary .shiftRight,
    .binary .remainder, .binary .div, .binary .quotient, .binary .mul, .binary .add, .binary .sub,
    .instanceOf, .inContextOf, .dget, .dset, .iget, .iset, .dsetAttrib, .assert, .dump]

/-- The number of an opcode. -/
def code (op : Opcode) : Nat := all.idxOf op

/-- The opcode with a number. -/
def ofCode? (n : Nat) : Option Opcode := all[n]?

/-- The name of a one-operand operator. -/
def unaryName : UnaryOp → String
  | .logNot => "LNOT"
  | .bitNot => "BNOT"
  | .plus => "PLUS"
  | .minus => "MINUS"
  | .toString => "TO_STRING"
  | .toBoolean => "TO_BOOLEAN"
  | .toReal => "TO_REAL"
  | .toInteger => "TO_INTEGER"
  | .toOctet => "TO_OCTET"

/-- The name of a two-operand operator. -/
def binaryName : BinaryOp → String
  | .logOr => "LOR"
  | .logAnd => "LAND"
  | .bitOr => "BOR"
  | .bitXor => "BXOR"
  | .bitAnd => "BAND"
  | .notEqual => "NE"
  | .equal => "EQ"
  | .strictNotEqual => "DNE"
  | .strictEqual => "DEQ"
  | .less => "LT"
  | .greater => "GT"
  | .lessOrEqual => "LE"
  | .greaterOrEqual => "GE"
  | .shiftRightZero => "USHR"
  | .shiftLeft => "SHL"
  | .shiftRight => "SHR"
  | .remainder => "MOD"
  | .div => "DIV"
  | .quotient => "IDIV"
  | .mul => "MUL"
  | .add => "ADD"
  | .sub => "SUB"

/-- The name of an opcode. -/
def name : Opcode → String
  | .nop => "NOP"
  | .assign => "ASSIGN"
  | .const => "CONST"
  | .this => "THIS"
  | .thisProxy => "THIS_PROXY"
  | .global => "GLOBAL"
  | .super => "SUPER"
  | .newObject => "NEW_OBJECT"
  | .newArray => "NEW_ARRAY"
  | .newDict => "NEW_DICT"
  | .newRegExp => "NEW_REGEXP"
  | .newFunction => "NEW_FUNCTION"
  | .newProperty => "NEW_PROPERTY"
  | .newClass => "NEW_CLASS"
  | .newModule => "NEW_MODULE"
  | .param => "PARAM"
  | .blockParam => "BLOCK_PARAM"
  | .newBinding => "NEW_BINDING"
  | .bindingMap => "BINDING_MAP"
  | .read => "READ"
  | .write => "WRITE"
  | .setFrame => "SET_FRAME"
  | .setShare => "SET_SHARE"
  | .call => "CALL"
  | .callMember => "CALL_MEMBER"
  | .new => "NEW"
  | .callBlock => "CALL_BLOCK"
  | .tryCall => "TRY_CALL"
  | .sync => "SYNC"
  | .jump => "JUMP"
  | .jumpTrue => "JUMP_TRUE"
  | .jumpFalse => "JUMP_FALSE"
  | .catchBranch => "CATCH_BRANCH"
  | .return => "RETURN"
  | .throw => "THROW"
  | .exitTry => "EXIT_TRY"
  | .unary op => unaryName op
  | .binary op => binaryName op
  | .instanceOf => "INSTANCEOF"
  | .inContextOf => "INCONTEXTOF"
  | .dget => "DGET"
  | .dset => "DSET"
  | .iget => "IGET"
  | .iset => "ISET"
  | .dsetAttrib => "DSET_ATTRIB"
  | .assert => "ASSERT"
  | .dump => "DUMP"

/-- The operands an opcode takes, in order. -/
def operands : Opcode → List OperandKind
  | .nop => []
  | .assign | .newFunction | .unary _ => [.register, .register]
  | .const | .newModule | .assert => [.register, .constant]
  | .this | .thisProxy | .global | .super | .newObject | .newArray | .newDict
  | .newBinding | .return | .throw => [.register]
  | .newRegExp | .newProperty | .binary _ | .instanceOf | .inContextOf =>
    [.register, .register, .register]
  | .newClass => [.register, .constant, .register]
  | .param | .blockParam => [.register, .immediate]
  | .bindingMap => [.register, .constant, .level, .slot]
  | .read => [.register, .level, .slot]
  | .write => [.level, .slot, .register]
  | .setFrame | .setShare => [.register, .block]
  | .call | .new | .tryCall => [.register, .register, .flags, .registers]
  | .callMember => [.register, .register, .constant, .flags, .registers]
  | .callBlock => [.register, .register, .flags, .registers, .registers]
  | .sync => [.register, .register, .register, .flags, .registers]
  | .jump => [.displacement]
  | .jumpTrue | .jumpFalse => [.register, .displacement]
  | .catchBranch => [.register, .constant, .displacements]
  | .exitTry => [.register, .constant, .immediate]
  | .dget => [.register, .register, .constant, .flags]
  | .dset => [.register, .constant, .register, .flags]
  | .iget | .iset => [.register, .register, .register, .flags]
  | .dsetAttrib => [.register, .constant, .flags]
  | .dump => [.registers]

/-- The name for a number that may have no opcode; the number is then given in
upper-case hexadecimal with two digits at least. -/
def nameOfCode (n : Nat) : Text :=
  match ofCode? n with
  | some op => utf8 op.name
  | none =>
    let digits := (Nat.toDigits 16 n).map Char.toUpper
    utf8 "UNKNOWN_" ++ List.replicate (2 - digits.length) 0x30 ++ digits.map (·.toNat.toUInt8)

end Opcode
end ScriptEngine
