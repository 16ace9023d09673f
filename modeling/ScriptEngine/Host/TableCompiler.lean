import ScriptEngine.Host

/-! The smallest compiler: it knows some sources, and compiles a name that is
bound to a read of its variable. -/
namespace ScriptEngine

/-- The block that reads a captured variable. -/
def readBlock (place : BindingSlot) : CodeBlock :=
  { name := utf8 "eval"
    code? := some #[Opcode.read.code.toUInt32, 0, displacementWord place.level,
      displacementWord place.slot, Opcode.return.code.toUInt32, 0]
    registers := 1 }

/-- Compiles the sources of a table, and names. -/
def tableCompiler (table : Table CodeBlock) : Compiler := fun source names =>
  match table.find? source, names.find? source with
  | some block, _ => .ok (some block)
  | none, some place => .ok (some (readBlock place))
  | none, none => .error (utf8 "undefined: " ++ source)

end ScriptEngine
