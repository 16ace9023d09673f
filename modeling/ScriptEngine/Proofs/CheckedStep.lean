import ScriptEngine.Proofs.InstructionEffect

/-! Where a checked instruction leads. Its effect hands control to a successor
only, writes registers that are there, and makes closures of blocks that have
been checked. It has none only where a string form is missing, and complains
about nothing but a register without a marker or a binding. -/
namespace ScriptEngine

/-- Whether instructions with an opcode name the places they lead to. -/
def Opcode.isBranch : Opcode → Bool
  | .jump | .jumpTrue | .jumpFalse | .catchBranch => true
  | _ => false

/-- Other instructions lead to the place behind them. -/
theorem Instruction.successors_straight {i : Instruction} (straight : i.opcode.isBranch = false) :
    i.successors = [(i.offset : Int) + i.length] := by
  unfold successors
  split <;> simp_all [Opcode.isBranch]

/-- Where a running block goes on once it has its answer. -/
def Await.next : Await → Int
  | .assign _ _ next | .skip _ next | .mark _ next | .membership _ next | .classOf _ _ _ next => next

/-- The register that an answer goes to is one of so many. -/
def Await.Writes (size : Nat) : Await → Prop
  | .assign _ dst _ | .membership dst _ | .classOf _ _ dst _ => ∃ r, dst = some r ∧ r < size
  | .mark dst _ => dst < size
  | .skip .. => True

namespace Action

/-- Where a running block goes on after an action, if it does. -/
def next? : Action → Option Int
  | .goto next | .assign _ _ next | .newObject _ next | .newProxy _ _ _ next
  | .newFunction _ _ _ next | .newProperty _ _ _ next | .store _ _ _ next | .capture _ _ _ next
  | .bind _ next | .bindName _ _ _ next | .markError _ _ _ next | .report _ next => some next
  | .request _ _ _ await => some await.next
  | .settle _ _ _ next => next
  | .return _ | .throwValue _ | .throwException .. | .exit .. | .raise _ | .fail _ | .panic _ => none

/-- Whether an action makes a closure. -/
def isCapture : Action → Bool
  | .capture .. => true
  | _ => false

/-- Whether an action is a complaint. -/
def isPanic : Action → Bool
  | .panic _ => true
  | _ => false

/-- The register that an action writes is one of so many, and a branch has a
place to go to. -/
def Writes (size : Nat) : Action → Prop
  | .assign dst _ _ | .newObject dst _ | .newProxy _ _ dst _ | .newFunction _ _ dst _
  | .newProperty _ _ dst _ | .capture _ _ dst _ | .bind dst _ => ∃ r, dst = some r ∧ r < size
  | .markError _ _ dst _ => dst < size
  | .request _ _ _ await => await.Writes size
  | .settle _ _ _ next => next.isSome
  | _ => True

end Action

namespace Activation

variable {e : Engine} {w : World} {a : Activation} {i : Instruction}

/-- An instruction works on the value of one of its registers or constants. -/
inductive WorksOn (w : World) (a : Activation) (i : Instruction) : Value → Prop
  | register {o : Operand} (member : o ∈ i.operands) (kind : o.kind = .register) :
      WorksOn w a i (a.value w o)
  | constant {o : Operand} (member : o ∈ i.operands) (kind : o.kind = .constant) :
      WorksOn w a i (a.constant o)

/-- The complaints that instructions make about what their first register holds. -/
inductive Complains (w : World) (a : Activation) (i : Instruction) : Text → Prop
  | unmarked {r : Operand} (opcode : i.opcode = .catchBranch) (first : i.operands.head? = some r)
      (unmarked : ∀ raised v, (a.value w r).object?.bind (w.heap[·]?) ≠ some (.marker raised v)) :
      Complains w a i (a.complaint ++ utf8 "CATCH_BRANCH at " ++ a.placeText ++
        utf8 " without a try-marker in r" ++ Text.ofNat r.word.toNat)
  | unbound {r : Operand} (opcode : i.opcode = .bindingMap) (first : i.operands.head? = some r)
      (unbound : ∀ chain this names,
        (a.value w r).object?.bind (w.heap[·]?) ≠ some (.binding chain this names)) :
      Complains w a i (a.complaint ++ utf8 "BINDING_MAP at " ++ a.placeText ++
        utf8 " on a non-binding register")

/-- What the effect of a checked instruction is bound to. -/
structure Lawful (w : World) (a : Activation) (i : Instruction) (action : Action) : Prop where
  next : ∀ place, action.next? = some place → place ∈ i.successors
  writes : action.Writes (w.registers a.frame).size
  panic : ∀ message, action = .panic message → Complains w a i message
  capture : ∀ block sharesFrame dst next, action = .capture block sharesFrame dst next →
    block ∈ a.block.blocks ∧ ∀ sub, block = some sub → sharesFrame = true →
      sub.registers.toInt ≤ a.block.registers.toInt

theorem toOctets_eq_none {face : ObjRef → Face} {v : Value} (textless : v.toOctets face = none) :
    v.toText face = none := by
  cases v <;> simp_all [Value.toOctets]

theorem unary_textless {face : ObjRef → Face} {op : UnaryOp} {v : Value}
    (none : op.apply face v = none) : v.toText face = Option.none := by
  cases op <;> simp [UnaryOp.apply] at none
  · exact none
  · exact toOctets_eq_none none

theorem concat_textless {s t : Option Text} (textless : Value.concat s t = .error .textless) :
    s = none ∨ t = none := by
  cases s <;> cases t <;> simp_all [Value.concat]

theorem add_textless {face : ObjRef → Face} {x y : Value}
    (textless : x.add face y = .error .textless) : x.toText face = none ∨ y.toText face = none := by
  unfold Value.add at textless
  split at textless
  · exact .inr ((concat_textless textless).resolve_left (by simp))
  · exact .inl ((concat_textless textless).resolve_right (by simp))
  · cases textless
  · cases textless

theorem binary_textless {face : ObjRef → Face} {op : BinaryOp} {x y : Value}
    (textless : op.apply face x y = .error .textless) :
    x.toText face = none ∨ y.toText face = none := by
  have division : ∀ f, (if y.toInteger = 0 then Except.error Value.OperatorError.divisionByZero
      else .ok f) ≠ (.error .textless : Except _ Value) := by
    intro f
    split <;> simp
  cases op with simp only [BinaryOp.apply] at textless
  | remainder | quotient => exact absurd textless (division _)
  | add => exact add_textless textless
  | _ => cases textless

/-- An effect that hands control to a successor. -/
theorem Lawful.leads {action : Action} {place : Int} (next : action.next? = some place)
    (successor : place ∈ i.successors) (writes : action.Writes (w.registers a.frame).size)
    (other : action.isCapture = false) : Lawful w a i action where
  next := by simpa [next] using successor
  writes := writes
  panic _ same := by subst same; cases next
  capture _ _ _ _ same := by subst same; cases other

/-- An effect that goes on behind the instruction. -/
theorem Lawful.advances {action : Action} (poised : Poised w a i)
    (straight : i.opcode.isBranch = false) (next : action.next? = some (a.ip + i.length))
    (writes : action.Writes (w.registers a.frame).size) (other : action.isCapture = false) :
    Lawful w a i action :=
  .leads next (by simp [Instruction.successors_straight straight, poised.place]) writes other

/-- An effect that ends the block without a complaint. -/
theorem Lawful.ends {action : Action} (next : action.next? = none)
    (writes : action.Writes (w.registers a.frame).size)
    (calm : action.isPanic = false) : Lawful w a i action where
  next := by simp [next]
  writes := writes
  panic _ same := by subst same; cases calm
  capture _ _ _ _ same := by subst same; cases next

/-- What is said of the effect of a checked instruction: it is lawful; if it is
missing, a value has no string form. -/
def Accounts (w : World) (a : Activation) (i : Instruction) : Option Action → Prop
  | some action => Lawful w a i action
  | none => ∃ v, WorksOn w a i v ∧ w.textOf v = none

/-- An effect that needs a string form. -/
theorem Accounts.named {v : Value} {f : Text → Action} (works : WorksOn w a i v)
    (lawful : ∀ name, Lawful w a i (f name)) :
    Accounts w a i ((w.textOf v).bind fun name => some (f name)) := by
  cases text : w.textOf v with
  | none => exact ⟨v, works, text⟩
  | some name => exact lawful name

/-- An effect that is a complaint. -/
theorem Lawful.complains {message : Text} (complains : Complains w a i message) :
    Lawful w a i (.panic message) where
  next := by simp [Action.next?]
  writes := trivial
  panic other same := by cases same; exact complains
  capture _ _ _ _ same := by cases same

theorem level_lawful {level : UInt32} {exception : Action}
    (missing : a.level level = .error exception) : Lawful w a i exception := by
  unfold Activation.level at missing
  split at missing
  · cases missing
  · cases missing
    exact .ends rfl trivial rfl

theorem capture_lawful {dst b : Operand} {sharesFrame : Bool} (poised : Poised w a i)
    (straight : i.opcode.isBranch = false) (shares : sharesFrame = true → i.opcode = .setFrame)
    (operands : i.operands = [dst, b]) (result : dst.kind = .register) (kind : b.kind = .block) :
    Lawful w a i (.capture (a.nested b) sharesFrame dst.word.toNat (a.ip + i.length)) := by
  have present := poised.ready.block (o := b) (by simp [operands]) kind
  refine ⟨?_, ⟨_, rfl, poised.ready.bound (by simp [operands]) result⟩, by simp, ?_⟩
  · simp [Action.next?, Instruction.successors_straight straight, poised.place]
  · rintro block _ _ _ ⟨⟩
    refine ⟨List.mem_of_getElem? present, fun sub same shared => ?_⟩
    exact poised.admits.frame (shares shared) operands (same ▸ present)

theorem branchEffect_lawful {r k targets : Operand} (poised : Poised w a i)
    (opcode : i.opcode = .catchBranch) (operands : i.operands = [r, k, targets])
    (nonempty : targets.words ≠ []) : Lawful w a i (a.branchEffect w r k targets) := by
  have settles : ∀ {register : Nat} {v : Value} {caught : Option SignalRef} {n : Nat},
      n < targets.words.length →
      Lawful w a i (.settle register v caught (some (a.branch targets n))) := by
    intro register v caught n inside
    refine .leads rfl ?_ rfl rfl
    have member : targets.words[n] ∈ targets.words := List.getElem_mem inside
    simp only [Instruction.successors, opcode, operands, List.mem_map]
    exact ⟨_, member, by simp [branch, poised.place, List.getElem?_eq_getElem inside]⟩
  unfold branchEffect
  split
  · exact settles (List.length_pos_iff.mpr nonempty)
  · split
    · split
      · exact settles (by omega)
      · exact .ends rfl trivial rfl
    · split
      · exact settles (by assumption)
      · exact .ends rfl trivial rfl
  next normal failed =>
    refine .complains (.unmarked opcode (by simp [operands]) fun raised v marked => ?_)
    cases raised with
    | none => exact normal v marked
    | some fault => exact failed fault v marked

/-- The effect of every instruction is accounted for. -/
theorem Poised.accounts (poised : Poised w a i) : Accounts w a i (a.effect e w i) := by
  have laid := poised.ready.laid
  have straight {opcode : Opcode} (same : i.opcode = opcode) (plain : opcode.isBranch = false) :
      i.opcode.isBranch = false := same ▸ plain
  unfold effect
  cases opcode : i.opcode with
    simp only [opcode, Opcode.operands, Laid, OperandKind.width] at laid
  | nop =>
    obtain ⟨operands, -⟩ := laid
    simp only [operands]
    exact .advances poised (straight opcode rfl) rfl trivial rfl
  | this | global | newObject | newBinding | newArray | newDict =>
    obtain ⟨r, _, operands, register, rfl, -⟩ := laid
    simp only [operands]
    exact .advances poised (straight opcode rfl) rfl ⟨_, rfl, register.2.2.2⟩ rfl
  | super | «return» =>
    obtain ⟨r, _, operands, register, rfl, -⟩ := laid
    simp only [operands]
    exact .ends rfl trivial rfl
  | thisProxy =>
    obtain ⟨r, _, operands, register, rfl, -⟩ := laid
    simp only [operands]
    cases a.this.object? <;>
      exact .advances poised (straight opcode rfl) rfl ⟨_, rfl, register.2.2.2⟩ rfl
  | throw =>
    obtain ⟨r, _, operands, register, rfl, -⟩ := laid
    simp only [operands]
    split
    · split <;> exact .ends rfl trivial rfl
    · exact .ends rfl trivial rfl
  | assign | const | param | blockParam =>
    obtain ⟨dst, _, operands, result, src, _, rfl, source, rfl, -⟩ := laid
    simp only [operands]
    exact .advances poised (straight opcode rfl) rfl ⟨_, rfl, result.2.2.2⟩ rfl
  | newFunction =>
    obtain ⟨dst, _, operands, result, src, _, rfl, source, rfl, -⟩ := laid
    simp only [operands]
    split
    · exact .advances poised (straight opcode rfl) rfl ⟨_, rfl, result.2.2.2⟩ rfl
    · exact .ends rfl trivial rfl
  | unary op =>
    obtain ⟨dst, _, operands, result, src, _, rfl, source, rfl, -⟩ := laid
    simp only [operands]
    cases outcome : op.apply w.face (a.value w src) with
    | some v => exact .advances poised (straight opcode rfl) rfl ⟨_, rfl, result.2.2.2⟩ rfl
    | none => exact ⟨_, .register (by simp [operands]) source.1, unary_textless outcome⟩
  | newModule =>
    obtain ⟨dst, _, operands, -, k, _, rfl, constant, rfl, -⟩ := laid
    simp only [operands]
    exact .named (.constant (by simp [operands]) constant.1) fun _ => .ends rfl trivial rfl
  | newClass =>
    obtain ⟨dst, _, operands, -, k, _, rfl, constant, _, _, rfl, -, rfl, -⟩ := laid
    simp only [operands]
    exact .named (.constant (by simp [operands]) constant.1) fun _ => .ends rfl trivial rfl
  | assert =>
    obtain ⟨r, _, operands, register, k, _, rfl, constant, rfl, -⟩ := laid
    simp only [operands]
    split
    · split
      · exact .advances poised (straight opcode rfl) rfl trivial rfl
      · exact .named (.constant (by simp [operands]) constant.1) fun _ => .ends rfl trivial rfl
    · exact .advances poised (straight opcode rfl) rfl trivial rfl
  | newRegExp | newProperty | inContextOf =>
    obtain ⟨dst, _, operands, result, x, _, rfl, first, y, _, rfl, second, rfl, -⟩ := laid
    simp only [operands]
    exact .advances poised (straight opcode rfl) rfl ⟨_, rfl, result.2.2.2⟩ rfl
  | binary op =>
    obtain ⟨dst, _, operands, result, x, _, rfl, first, y, _, rfl, second, rfl, -⟩ := laid
    simp only [operands]
    split
    · exact .advances poised (straight opcode rfl) rfl ⟨_, rfl, result.2.2.2⟩ rfl
    · exact .ends rfl trivial rfl
    next textless =>
      rcases binary_textless textless with left | right
      · exact ⟨_, .register (by simp [operands]) first.1, left⟩
      · exact ⟨_, .register (by simp [operands]) second.1, right⟩
  | instanceOf =>
    obtain ⟨dst, _, operands, result, x, _, rfl, first, y, _, rfl, second, rfl, -⟩ := laid
    simp only [operands]
    split <;> exact .advances poised (straight opcode rfl) rfl ⟨_, rfl, result.2.2.2⟩ rfl
  | bindingMap =>
    obtain ⟨r, _, operands, register, k, _, rfl, constant, l, _, rfl, -, n, _, rfl, -, rfl, -⟩ :=
      laid
    simp only [operands]
    split
    · exact .named (.constant (by simp [operands]) constant.1) fun _ =>
        .advances poised (straight opcode rfl) rfl trivial rfl
    next unbound =>
      refine .complains (.unbound (r := r) opcode (by simp [operands])
        fun chain this names bound => ?_)
      obtain ⟨ref, held, -⟩ := Option.bind_eq_some_iff.mp bound
      exact unbound ref chain this names held bound
  | read =>
    obtain ⟨dst, _, operands, result, l, _, rfl, -, n, _, rfl, -, rfl, -⟩ := laid
    simp only [operands]
    split
    next missing => exact level_lawful missing
    · split
      · exact .advances poised (straight opcode rfl) rfl ⟨_, rfl, result.2.2.2⟩ rfl
      · exact .ends rfl trivial rfl
  | write =>
    obtain ⟨l, _, operands, -, n, _, rfl, -, src, _, rfl, -, rfl, -⟩ := laid
    simp only [operands]
    split
    next missing => exact level_lawful missing
    · exact .advances poised (straight opcode rfl) rfl trivial rfl
  | setFrame | setShare =>
    obtain ⟨dst, _, operands, result, b, _, rfl, block, rfl, -⟩ := laid
    simp only [operands]
    exact capture_lawful poised (straight opcode rfl) (by simp [opcode]) operands result.1 block.1
  | call | new =>
    obtain ⟨dst, _, operands, result, fn, _, rfl, -, f, _, rfl, -, xs, _, rfl, -, rfl, -⟩ := laid
    simp only [operands]
    exact .advances poised (straight opcode rfl) rfl ⟨_, rfl, result.2.2.2⟩ rfl
  | tryCall =>
    obtain ⟨dst, _, operands, result, fn, _, rfl, -, f, _, rfl, -, xs, _, rfl, -, rfl, -⟩ := laid
    simp only [operands]
    exact .advances poised (straight opcode rfl) rfl result.2.2.2 rfl
  | callMember =>
    obtain ⟨dst, _, operands, result, r, _, rfl, -, k, _, rfl, constant, f, _, rfl, -, xs, _, rfl,
      -, rfl, -⟩ := laid
    simp only [operands]
    exact .named (.constant (by simp [operands]) constant.1) fun _ =>
      .advances poised (straight opcode rfl) rfl ⟨_, rfl, result.2.2.2⟩ rfl
  | callBlock =>
    obtain ⟨dst, _, operands, result, fn, _, rfl, -, f, _, rfl, -, xs, _, rfl, -, ys, _, rfl, -,
      rfl, -⟩ := laid
    simp only [operands]
    exact .advances poised (straight opcode rfl) rfl ⟨_, rfl, result.2.2.2⟩ rfl
  | sync =>
    obtain ⟨dst, _, operands, result, fn, _, rfl, -, l, _, rfl, -, f, _, rfl, -, xs, _, rfl, -,
      rfl, -⟩ := laid
    simp only [operands]
    split <;> exact .advances poised (straight opcode rfl) rfl result.2.2.2 rfl
  | jump =>
    obtain ⟨d, _, operands, -, rfl, -⟩ := laid
    simp only [operands]
    exact .leads rfl (by simp [Instruction.successors, opcode, operands, poised.place]) trivial rfl
  | jumpTrue | jumpFalse =>
    obtain ⟨r, _, operands, -, d, _, rfl, -, rfl, -⟩ := laid
    simp only [operands]
    split <;>
      exact .leads rfl (by simp [Instruction.successors, opcode, operands, poised.place]) trivial rfl
  | catchBranch =>
    obtain ⟨r, _, operands, -, k, _, rfl, -, ds, _, rfl, targets, rfl, -⟩ := laid
    simp only [operands]
    exact branchEffect_lawful poised opcode operands
      (poised.admits.displacements (by simp [operands]) targets.1).1
  | exitTry =>
    obtain ⟨r, _, operands, -, k, _, rfl, -, n, _, rfl, -, rfl, -⟩ := laid
    simp only [operands]
    exact .ends rfl trivial rfl
  | dget =>
    obtain ⟨dst, _, operands, result, r, _, rfl, -, k, _, rfl, constant, f, _, rfl, -, rfl, -⟩ :=
      laid
    simp only [operands]
    exact .named (.constant (by simp [operands]) constant.1) fun _ =>
      .advances poised (straight opcode rfl) rfl ⟨_, rfl, result.2.2.2⟩ rfl
  | dset =>
    obtain ⟨r, _, operands, -, k, _, rfl, constant, src, _, rfl, -, f, _, rfl, -, rfl, -⟩ := laid
    simp only [operands]
    exact .named (.constant (by simp [operands]) constant.1) fun _ =>
      .advances poised (straight opcode rfl) rfl trivial rfl
  | iget =>
    obtain ⟨dst, _, operands, result, y, _, rfl, -, z, _, rfl, -, f, _, rfl, -, rfl, -⟩ := laid
    simp only [operands]
    exact .advances poised (straight opcode rfl) rfl ⟨_, rfl, result.2.2.2⟩ rfl
  | iset =>
    obtain ⟨x, _, operands, -, y, _, rfl, -, z, _, rfl, -, f, _, rfl, -, rfl, -⟩ := laid
    simp only [operands]
    exact .advances poised (straight opcode rfl) rfl trivial rfl
  | dsetAttrib =>
    obtain ⟨r, _, operands, -, k, _, rfl, constant, f, _, rfl, -, rfl, -⟩ := laid
    simp only [operands]
    exact .named (.constant (by simp [operands]) constant.1) fun _ =>
      .advances poised (straight opcode rfl) rfl trivial rfl
  | dump =>
    obtain ⟨rs, _, operands, -, rfl, -⟩ := laid
    simp only [operands]
    split <;> exact .advances poised (straight opcode rfl) rfl trivial rfl

end Activation
end ScriptEngine
