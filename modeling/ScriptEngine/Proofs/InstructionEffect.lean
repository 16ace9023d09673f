import ScriptEngine.Machine
import ScriptEngine.Proofs.ValidBlock

/-! What an instruction does, said of its decoded operands. A running block
reads its code word by word at positions of its own; where an instruction
decodes and what it names is there, it reads the very words that decoding
assigns to the operands. On checked code that is always so. -/
namespace ScriptEngine

namespace Activation

/-- The value in the register that an operand names. -/
def value (a : Activation) (w : World) (o : Operand) : Value :=
  ((w.registers a.frame)[o.word.toNat]?).getD .void

/-- The values in the registers that a list names. -/
def values (a : Activation) (w : World) (o : Operand) : List Value :=
  o.words.map fun r => ((w.registers a.frame)[r.toNat]?).getD .void

/-- The constant that an operand names. -/
def constant (a : Activation) (o : Operand) : Value :=
  (a.block.consts[o.word.toNat]?).getD .void

/-- The nested block that an operand names. -/
def nested (a : Activation) (o : Operand) : Option CodeBlock :=
  (a.block.blocks[o.word.toNat]?).getD none

/-- The place that one of the targets of an instruction leads to. -/
def branch (a : Activation) (targets : Operand) (n : Nat) : Int :=
  a.ip + displacement (targets.words.getD n 0)

/-- The effect of a branch on the outcome of a guarded call. -/
def branchEffect (w : World) (a : Activation) (r k targets : Operand) : Action :=
  match (a.value w r).object?.bind (w.heap[·]?) with
  | some (.marker none v) => .settle r.word.toNat v none (some (a.branch targets 0))
  | some (.marker (some fault) v) =>
    match w.signal? fault with
    | some (.exit id target payload _) =>
      if id = (a.constant k).toInteger ∧ 0 ≤ target ∧ target < targets.words.length then
        .settle r.word.toNat payload none (some (a.branch targets target.toNat))
      else .raise fault
    | _ =>
      if 1 < targets.words.length then
        .settle r.word.toNat v (w.thrownBy? fault) (some (a.branch targets 1))
      else .raise fault
  | _ =>
    .panic <| a.complaint ++ utf8 "CATCH_BRANCH at " ++ a.placeText ++
      utf8 " without a try-marker in r" ++ Text.ofNat r.word.toNat

/-- The registers that a diagnostic instruction shows. -/
def shown (w : World) (a : Activation) (rs : Operand) : Text :=
  Text.joined (utf8 ", ") <| rs.words.map fun r =>
    utf8 "r" ++ Text.ofNat r.toNat ++ utf8 "=" ++
      w.describe (((w.registers a.frame)[r.toNat]?).getD .void)

/-- The effect of a decoded instruction. There is none only where a string form
is missing, or the operands are not those of the opcode. -/
def effect (e : Engine) (w : World) (a : Activation) (i : Instruction) : Option Action :=
  let next : Int := a.ip + i.length
  let index (o : Operand) : Nat := o.word.toNat
  let call (operation : Operation) (fn f args : Operand) (await : Await) : Action :=
    .request (a.value w fn) { operation, flags := .unpack f.word, args := a.values w args } none await
  match i.opcode, i.operands with
  | .nop, [] => some (.goto next)
  | .assign, [dst, src] => some (.assign (index dst) (a.value w src) next)
  | .const, [dst, k] => some (.assign (index dst) (a.constant k) next)
  | .this, [dst] => some (.assign (index dst) a.this next)
  | .thisProxy, [dst] =>
    match a.this.object? with
    | some first => some (.newProxy first e.globals (index dst) next)
    | none => some (.assign (index dst) (.object e.globals none) next)
  | .global, [dst] => some (.assign (index dst) (.object e.globals none) next)
  | .super, [_] => some (.throwException "UnsupportedException" (utf8 "super is not supported"))
  | .newObject, [dst] => some (.newObject (index dst) next)
  | .newArray, [dst] => some (construct dst "Array" [] next)
  | .newDict, [dst] => some (construct dst "Dictionary" [] next)
  | .newRegExp, [dst, pattern, f] =>
    some (construct dst "RegExp" [a.value w pattern, a.value w f] next)
  | .newFunction, [dst, src] =>
    match a.value w src with
    | .object ref context => some (.newFunction (some ref) context (index dst) next)
    | _ =>
      some (.throwException "IllegalArgumentException"
        (utf8 "cannot make a function from " ++ utf8 (a.value w src).kind.name))
  | .newProperty, [dst, getter, setter] =>
    some (.newProperty (a.value w getter) (a.value w setter) (index dst) next)
  | .newClass, [_, k, _] => do
    return .throwException "UnsupportedException"
      (utf8 "class construction (" ++ (← w.textOf (a.constant k)) ++ utf8 ") is not supported")
  | .newModule, [_, k] => do
    return .throwException "UnsupportedException"
      (utf8 "module construction (" ++ (← w.textOf (a.constant k)) ++ utf8 ") is not supported")
  | .param, [dst, n] => some (.assign (index dst) (a.args.getD (index n) .void) next)
  | .blockParam, [dst, n] => some (.assign (index dst) (a.blocks.getD (index n) .void) next)
  | .newBinding, [dst] => some (.bind (index dst) next)
  | .bindingMap, [r, k, level, slot] =>
    match (a.value w r).object?, (a.value w r).object?.bind (w.heap[·]?) with
    | some ref, some (.binding ..) => do
      return .bindName ref (← w.textOf (a.constant k)) ⟨index level, index slot⟩ next
    | _, _ =>
      some <| .panic <| a.complaint ++ utf8 "BINDING_MAP at " ++ a.placeText ++
        utf8 " on a non-binding register"
  | .read, [dst, level, slot] =>
    match a.level level.word with
    | .error exception => some exception
    | .ok handle =>
      match w.arena.load handle (index slot) with
      | .ok v => some (.assign (index dst) v next)
      | .error error => some (.fail error)
  | .write, [level, slot, src] =>
    match a.level level.word with
    | .error exception => some exception
    | .ok handle => some (.store handle (index slot) (a.value w src) next)
  | .setFrame, [dst, b] => some (.capture (a.nested b) true (index dst) next)
  | .setShare, [dst, b] => some (.capture (a.nested b) false (index dst) next)
  | .call, [dst, fn, f, args] => some (call .call fn f args (.assign [] (index dst) next))
  | .new, [dst, fn, f, args] => some (call .new fn f args (.assign [] (index dst) next))
  | .tryCall, [dst, fn, f, args] => some (call .call fn f args (.mark (index dst) next))
  | .callMember, [dst, r, k, f, args] => do
    let name ← w.textOf (a.constant k)
    return .request (a.value w r)
      { operation := .call, name, flags := .unpack f.word, args := a.values w args,
        this := a.value w r } none
      (.assign name (index dst) next)
  | .callBlock, [dst, fn, f, args, blocks] =>
    some (.request (a.value w fn)
      { operation := .call, flags := .unpack f.word, args := a.values w args,
        blocks := a.values w blocks } none
      (.assign [] (index dst) next))
  | .sync, [dst, fn, lock, f, args] =>
    match (a.value w lock).object?.bind w.lockOwner? with
    | some owner =>
      some (.request (a.value w fn)
        { operation := .call, flags := .unpack f.word, args := a.values w args } (some owner)
        (.mark (index dst) next))
    | none =>
      some (.markError "IllegalArgumentException"
        (utf8 (a.value w lock).kind.name ++ utf8 " has no lock") (index dst) next)
  | .jump, [d] => some (.goto (a.ip + displacement d.word))
  | .jumpTrue, [r, d] =>
    if (a.value w r).toBool then some (.goto (a.ip + displacement d.word)) else some (.goto next)
  | .jumpFalse, [r, d] =>
    if (a.value w r).toBool then some (.goto next) else some (.goto (a.ip + displacement d.word))
  | .catchBranch, [r, k, targets] => some (a.branchEffect w r k targets)
  | .return, [r] => some (.return (a.value w r))
  | .throw, [r] =>
    match a.caught, a.caught.bind w.thrown? with
    | some ref, some value =>
      if value.identical (a.value w r) then some (.raise (.signal ref))
      else some (.throwValue (a.value w r))
    | _, _ => some (.throwValue (a.value w r))
  | .exitTry, [r, k, target] =>
    some (.exit (a.constant k).toInteger (index target) (a.value w r))
  | .unary op, [dst, src] => do
    return .assign (index dst) (← op.apply w.face (a.value w src)) next
  | .binary op, [dst, x, y] =>
    match op.apply w.face (a.value w x) (a.value w y) with
    | .ok v => some (.assign (index dst) v next)
    | .error .divisionByZero =>
      some (.throwException "DivideByZeroException" Value.OperatorError.divisionByZero.message)
    | .error .textless => none
  | .instanceOf, [dst, x, cls] =>
    match a.value w x with
    | .object .. =>
      some (.request (a.value w x) { operation := .instanceOf, args := [a.value w cls] } none
        (.membership (index dst) next))
    | _ => some (.assign (index dst) (.bool false) next)
  | .inContextOf, [dst, x, context] =>
    some (.assign (index dst) ((a.value w x).withContext (a.value w context).object?) next)
  | .dget, [dst, r, k, f] => do
    let name ← w.textOf (a.constant k)
    return .request (a.value w r) { operation := .dget, name, flags := .unpack f.word } none
      (.assign name (index dst) next)
  | .dset, [r, k, src, f] => do
    let name ← w.textOf (a.constant k)
    return .request (a.value w r)
      { operation := .dset, name, flags := .unpack f.word, args := [a.value w src],
        wantsResult := false } none
      (.skip name next)
  | .iget, [dst, r, key, f] =>
    some (.request (a.value w r)
      { operation := .iget, flags := .unpack f.word, args := [a.value w key] } none
      (.assign [] (index dst) next))
  | .iset, [r, key, src, f] =>
    some (.request (a.value w r)
      { operation := .iset, flags := .unpack f.word, args := [a.value w key, a.value w src],
        wantsResult := false } none
      (.skip [] next))
  | .dsetAttrib, [r, k, f] => do
    let name ← w.textOf (a.constant k)
    return .request (a.value w r)
      { operation := .dsetAttrib, name, flags := .unpack f.word, wantsResult := false } none
      (.skip name next)
  | .assert, [r, k] =>
    if e.config.assertions then
      if (a.value w r).toBool then some (.goto next)
      else do
        return .throwException "AssertionFailedException"
          (utf8 "assertion failed: " ++ (← w.textOf (a.constant k)))
    else some (.goto next)
  | .dump, [rs] =>
    if e.config.dump then
      let (line, column) := a.block.position a.ip
      some (.report (.dump a.block.title line column (a.shown w rs)) next)
    else some (.goto next)
  | _, _ => none
where
  /-- A construction through a global class. -/
  construct (dst : Operand) (className : String) (args : List Value) (next : Int) : Action :=
    let name := utf8 className
    .request (.object e.globals none) { operation := .dget, name } none
      (.classOf name args dst.word.toNat next)

end Activation

theorem mapM_eq_map {α β : Type} {f : α → Option β} {g : α → β} {items : List α}
    (found : ∀ x ∈ items, f x = some (g x)) : items.mapM f = some (items.map g) := by
  induction items with
  | nil => rfl
  | cons x rest ih =>
    simp [found x List.mem_cons_self, ih fun y member => found y (List.mem_cons_of_mem _ member)]

/-! ### Where operands lie -/

/-- The words that an operand of a kind takes, given those of its list. -/
def OperandKind.width (words : List UInt32) : OperandKind → Nat
  | .registers | .displacements => words.length + 1
  | _ => 1

theorem OperandKind.width_plain {kind : OperandKind} {words : List UInt32}
    (form : kind.isList = false) : kind.width words = 1 := by
  cases kind <;> simp_all [isList, width]

theorem OperandKind.width_list {kind : OperandKind} {words : List UInt32}
    (form : kind.isList = true) : kind.width words = words.length + 1 := by
  cases kind <;> simp_all [isList, width]

/-- The words that an operand takes. -/
def Operand.width (o : Operand) : Nat := o.kind.width o.words

/-- The words that operands take together. -/
def Operand.extent : List Operand → Nat
  | [] => 0
  | o :: rest => o.width + Operand.extent rest

/-- Operands with their distances from the start of the instruction, the first
of them at `k`. -/
def Operand.placed (k : Nat) : List Operand → List (Nat × Operand)
  | [] => []
  | o :: rest => (k, o) :: Operand.placed (k + o.width) rest

/-- The words of an operand lie in the code from a place on. -/
structure Operand.LiesAt (code : Array UInt32) (place : Nat) (o : Operand) : Prop where
  word : code[place]? = some o.word
  count : o.kind.isList = true → o.word.toNat = o.words.length
  words : o.kind.isList = true → ∀ n (_ : n < o.words.length), code[place + 1 + n]? = some o.words[n]

theorem Operand.listed_liesAt {code : Array UInt32} {pos : Nat} {kind : OperandKind} {word : UInt32}
    (found : code[pos]? = some word) (fits : pos + 1 + word.toNat ≤ code.size) :
    Operand.LiesAt code pos
      ⟨kind, word, (code.extract (pos + 1) (pos + 1 + word.toNat)).toList⟩ := by
  refine ⟨found, fun _ => ?_, fun _ n inside => ?_⟩
  · simp only [Array.length_toList, Array.size_extract]
    omega
  · have bound : pos + 1 + n < code.size := by
      simp only [Array.length_toList, Array.size_extract] at inside
      omega
    simp [Array.getElem?_eq_getElem bound]

/-- Decoding finds each operand behind the one before it. -/
theorem Instruction.decodeOperands_placed {code : Array UInt32} {kinds : List OperandKind}
    {operands : List Operand} {start k last : Nat}
    (decoded : decodeOperands code kinds (start + k) = .ok (operands, last)) :
    (∀ p ∈ Operand.placed k operands, Operand.LiesAt code (start + p.1) p.2) ∧
      last = start + k + Operand.extent operands := by
  induction kinds generalizing k operands with
  | nil =>
    obtain ⟨rfl, rfl⟩ := decodeOperands_nil.mp decoded
    simp [Operand.placed, Operand.extent]
  | cons kind kinds ih =>
    cases form : kind.isList with
    | false =>
      obtain ⟨word, rest, found, rfl, tail⟩ := (decodeOperands_plain form).mp decoded
      obtain ⟨placed, stop⟩ := ih (k := k + 1) tail
      simp only [Operand.placed, Operand.width, OperandKind.width_plain form,
        List.forall_mem_cons, Operand.extent]
      exact ⟨⟨⟨found, by simp [form], by simp [form]⟩, placed⟩,
        stop.trans (by omega)⟩
    | true =>
      obtain ⟨word, rest, found, fits, rfl, tail⟩ := (decodeOperands_list form).mp decoded
      have lies := @Operand.listed_liesAt code _ kind word found fits
      have count := lies.count form
      rw [show start + k + 1 + word.toNat = start + (k + (word.toNat + 1)) by omega] at tail
      obtain ⟨placed, stop⟩ := ih tail
      simp only [Operand.placed, Operand.width, OperandKind.width_list form,
        List.forall_mem_cons, Operand.extent, ← count]
      exact ⟨⟨lies, placed⟩, stop.trans (by omega)⟩

/-! ### Storage -/

theorem le_nextStorageSize (size : Nat) (some : 0 < size) : size + 1 ≤ nextStorageSize size := by
  unfold nextStorageSize
  split
  · omega
  · dsimp only
    split
    next found =>
      have enough := List.find?_some found
      simp only [decide_eq_true_eq] at enough
      omega
    · omega

theorem le_storageSize_go (length fuel size : Nat) (some : 0 < size) (reach : length ≤ size + fuel) :
    length ≤ storageSize.go length fuel size := by
  induction fuel generalizing size with
  | zero => exact reach
  | succ fuel ih =>
    unfold storageSize.go
    split
    · assumption
    · have grows := le_nextStorageSize size some
      exact ih _ (by omega) (by omega)

theorem le_storageSize (length : Nat) : length ≤ storageSize length :=
  le_storageSize_go length length 2 (by omega) (by omega)

/-! ### Reading instructions -/

namespace Activation

/-- What an operand names is there: registers in the frame, constants and nested
blocks in the block, and at least one target. -/
def InReach (w : World) (a : Activation) (o : Operand) : Prop :=
  match o.kind with
  | .register => o.word.toNat < (w.registers a.frame).size
  | .registers => ∀ r ∈ o.words, r.toNat < (w.registers a.frame).size
  | .constant => o.word.toNat < a.block.consts.length
  | .block => o.word.toNat < a.block.blocks.length
  | .displacements => o.words ≠ []
  | _ => True

instance (w : World) (a : Activation) (o : Operand) : Decidable (a.InReach w o) :=
  match o with
  | ⟨.register, word, _⟩ => inferInstanceAs (Decidable (word.toNat < _))
  -- Through the list: words are finite in number too, and far too many to go through.
  | ⟨.registers, _, words⟩ => List.decidableBAll (fun r : UInt32 => r.toNat < (w.registers a.frame).size) words
  | ⟨.constant, word, _⟩ => inferInstanceAs (Decidable (word.toNat < _))
  | ⟨.block, word, _⟩ => inferInstanceAs (Decidable (word.toNat < _))
  | ⟨.displacements, _, words⟩ => inferInstanceAs (Decidable (words ≠ []))
  | ⟨.displacement, _, _⟩ | ⟨.flags, _, _⟩ | ⟨.immediate, _, _⟩ | ⟨.level, _, _⟩ | ⟨.slot, _, _⟩ =>
    inferInstanceAs (Decidable True)

/-- A block stands at an instruction that decodes, and all that the instruction
names is there. -/
structure Ready (w : World) (a : Activation) (i : Instruction) : Prop where
  place : a.ip = i.offset
  decoded : Instruction.decode a.block.code i.offset = .ok i
  reach : ∀ o ∈ i.operands, a.InReach w o

variable {e : Engine} {w : World} {a : Activation} {i : Instruction} {o : Operand} {k : Nat}

namespace Ready

theorem word (ready : Ready w a i) : a.word? k = a.block.code[i.offset + k]? := by
  have offset : ¬(i.offset : Int) < 0 := by omega
  simp [word?, ready.place, offset]

theorem layout (ready : Ready w a i) : i.operands.map (·.kind) = i.opcode.operands := by
  obtain ⟨_, _, -, -, read, -, -⟩ := Instruction.decode_eq_ok.mp ready.decoded
  exact Instruction.decodeOperands_kinds read

theorem bound (ready : Ready w a i) (member : o ∈ i.operands) (kind : o.kind = .register) :
    o.word.toNat < (w.registers a.frame).size := by
  simpa only [InReach, kind] using ready.reach o member

theorem register (ready : Ready w a i) (member : o ∈ i.operands) (kind : o.kind = .register) :
    (w.registers a.frame)[o.word.toNat]? = some (a.value w o) := by
  simp [value, Array.getElem?_eq_getElem (ready.bound member kind)]

theorem inside (ready : Ready w a i) (member : o ∈ i.operands) (kind : o.kind = .registers) :
    ∀ r ∈ o.words, r.toNat < (w.registers a.frame).size := by
  simpa only [InReach, kind] using ready.reach o member

theorem listed (ready : Ready w a i) (member : o ∈ i.operands) (kind : o.kind = .registers) :
    o.words.mapM (fun r => (w.registers a.frame)[r.toNat]?) = some (a.values w o) :=
  mapM_eq_map fun r present => by
    simp [Array.getElem?_eq_getElem (ready.inside member kind r present)]

theorem const (ready : Ready w a i) (member : o ∈ i.operands) (kind : o.kind = .constant) :
    a.block.consts[o.word.toNat]? = some (a.constant o) := by
  have bound : o.word.toNat < a.block.consts.length := by
    simpa only [InReach, kind] using ready.reach o member
  simp [constant, List.getElem?_eq_getElem bound]

theorem block (ready : Ready w a i) (member : o ∈ i.operands) (kind : o.kind = .block) :
    a.block.blocks[o.word.toNat]? = some (a.nested o) := by
  have bound : o.word.toNat < a.block.blocks.length := by
    simpa only [InReach, kind] using ready.reach o member
  simp [nested, List.getElem?_eq_getElem bound]

/-- The words of a list are read as decoding gives them, never from beyond the code. -/
theorem words (ready : Ready w a i) (lies : Operand.LiesAt a.block.code (i.offset + k) o)
    (list : o.kind.isList = true) : a.words? (k + 1) o.word.toNat = some o.words := by
  have reads := lies.words list
  have count := lies.count list
  have inside : i.offset + (k + 1) + o.words.length ≤ storageSize a.block.code.size := by
    have stored := le_storageSize a.block.code.size
    have here := (Array.getElem?_eq_some_iff.mp lies.word).1
    by_cases empty : o.words.length = 0
    · omega
    · have last := (Array.getElem?_eq_some_iff.mp (reads (o.words.length - 1) (by omega))).1
      omega
  simp only [words?, ready.place, Int.toNat_natCast, count, inside, if_true, Option.some.injEq]
  apply List.ext_getElem
  · simp
  · intro n _ bound
    have read := reads n bound
    rw [show i.offset + k + 1 + n = i.offset + (k + 1) + n by omega] at read
    simp [read]

theorem list (ready : Ready w a i) (lies : Operand.LiesAt a.block.code (i.offset + k) o)
    (member : o ∈ i.operands) (kind : o.kind = .registers) :
    a.list? w k = some (a.values w o, o.width) := by
  have isList : o.kind.isList = true := by simp [kind, OperandKind.isList]
  have count := lies.count isList
  have words := ready.words lies isList
  have values := ready.listed member kind
  simp only [list?, ready.word, lies.word, Option.bind_eq_bind, Option.bind_some, words, values,
    Operand.width, OperandKind.width_list isList]
  split
  next none =>
    have empty : o.words = [] := List.eq_nil_of_length_eq_zero (by omega)
    simp [Activation.values, empty]
  · simp [count]

end Ready

/-- Reading at a distance from the start of the instruction gives an operand of a
kind. -/
def Reads (w : World) (a : Activation) (k : Nat) (kind : OperandKind) (o : Operand) : Prop :=
  o.kind = kind ∧ a.word? k = some o.word ∧
    match kind with
    | .register => a.register? w k = some (a.value w o) ∧
        o.word.toNat < (w.registers a.frame).size
    | .registers => a.list? w k = some (a.values w o, o.words.length + 1) ∧
        a.words? (k + 1) o.word.toNat = some o.words ∧ o.word.toNat = o.words.length
    | .displacements => a.words? (k + 1) o.word.toNat = some o.words ∧
        o.word.toNat = o.words.length
    | .constant => a.const? k = some (a.constant o)
    | .block => a.block.blocks[o.word.toNat]? = some (a.nested o)
    | _ => True

/-- Operands of given kinds are read one after the other, the first at `k`, and
end at `last`. -/
def Laid (w : World) (a : Activation) (last : Nat) :
    (k : Nat) → List OperandKind → List Operand → Prop
  | k, [], operands => operands = [] ∧ last = k
  | k, kind :: kinds, operands => ∃ o rest, operands = o :: rest ∧ Reads w a k kind o ∧
      Laid w a last (k + kind.width o.words) kinds rest

namespace Ready

theorem reads (ready : Ready w a i) (lies : Operand.LiesAt a.block.code (i.offset + k) o)
    (member : o ∈ i.operands) : Reads w a k o.kind o := by
  have word : a.word? k = some o.word := by rw [ready.word, lies.word]
  refine ⟨rfl, word, ?_⟩
  split
  next kind =>
    exact ⟨by simp [register?, registerNumber?, word, ready.register member kind],
      ready.bound member kind⟩
  next kind =>
    have isList : o.kind.isList = true := by simp [kind, OperandKind.isList]
    have list := ready.list lies member kind
    simp only [Operand.width, OperandKind.width_list isList] at list
    exact ⟨list, ready.words lies isList, lies.count isList⟩
  next kind =>
    have isList : o.kind.isList = true := by simp [kind, OperandKind.isList]
    exact ⟨ready.words lies isList, lies.count isList⟩
  next kind => simp [const?, word, ready.const member kind]
  next kind => exact ready.block member kind
  · trivial

theorem laid_of_placed (ready : Ready w a i) {operands : List Operand} {last : Nat}
    (members : ∀ o ∈ operands, o ∈ i.operands)
    (placed : ∀ p ∈ Operand.placed k operands, Operand.LiesAt a.block.code (i.offset + p.1) p.2)
    (stop : last = k + Operand.extent operands) :
    Laid w a last k (operands.map (·.kind)) operands := by
  induction operands generalizing k with
  | nil => simpa [Laid, Operand.extent] using stop
  | cons o rest ih =>
    simp only [Operand.placed, List.forall_mem_cons] at placed
    simp only [Operand.extent] at stop
    refine ⟨o, rest, rfl, ready.reads placed.1 (members o List.mem_cons_self), ?_⟩
    exact ih (fun o present => members o (List.mem_cons_of_mem _ present)) placed.2
      (by simp only [stop, Operand.width, Nat.add_assoc])

/-- An instruction is read as decoding lays it out. -/
theorem laid (ready : Ready w a i) : Laid w a i.length 1 i.opcode.operands i.operands := by
  obtain ⟨_, last, -, -, read, -, span⟩ := Instruction.decode_eq_ok.mp ready.decoded
  obtain ⟨placed, stop⟩ := Instruction.decodeOperands_placed read
  rw [← ready.layout]
  exact ready.laid_of_placed (fun _ => id) placed (by omega)

end Ready

/-- A branch finds its marker register, its identifier and the target it takes. -/
theorem catchBranch_eq_branchEffect {r k targets : Operand}
    (readMarker : Reads w a 1 .register r) (readId : Reads w a 2 .constant k)
    (readTargets : Reads w a 3 .displacements targets) (nonempty : targets.words ≠ []) :
    a.catchBranch w = some (a.branchEffect w r k targets) := by
  have first : 0 < targets.words.length := List.length_pos_iff.mpr nonempty
  have place : ∀ n, n < targets.words.length →
      targets.words[n]?.map (fun d => a.ip + displacement d) = some (a.branch targets n) := by
    intro n inside
    simp [branch, List.getElem?_eq_getElem inside]
  have marker : (w.registers a.frame)[r.word.toNat]? = some (a.value w r) := by
    simpa [register?, registerNumber?, readMarker.2.1] using readMarker.2.2.1
  obtain ⟨-, readCount, words, count⟩ := readTargets
  rw [count] at words
  simp only [catchBranch, branchEffect, readMarker.2.1, readId.2.2, readCount, count, words, marker,
    Option.bind_eq_bind, Option.bind_some, Option.pure_def]
  cases (a.value w r).object?.bind (w.heap[·]?) with
  | none => rfl
  | some held =>
    cases held with
    | marker raised v =>
      cases raised with
      | none => simp only [place 0 first]
      | some fault =>
        -- only an exit can take another target than the second
        have thrown : (if 1 < targets.words.length then
              some (.settle r.word.toNat v (w.thrownBy? fault)
                (targets.words[1]?.map fun d => a.ip + displacement d))
            else some (.raise fault)) =
            some (if 1 < targets.words.length then
              Action.settle r.word.toNat v (w.thrownBy? fault) (some (a.branch targets 1))
            else .raise fault) := by
          split
          next another => rw [place 1 another]
          · rfl
        dsimp only
        cases w.signal? fault with
        | none => exact thrown
        | some signal =>
          cases signal with
          | thrown => exact thrown
          | exit id target payload =>
            dsimp only
            split
            next here => rw [place target.toNat (by omega)]
            · rfl
    | _ => rfl

theorem dumpText_eq_shown {rs : Operand}
    (present : ∀ r ∈ rs.words, r.toNat < (w.registers a.frame).size) :
    a.dumpText w rs.words = some (a.shown w rs) := by
  have shownOf := @mapM_eq_map _ _ (fun r : UInt32 => do
      let v ← (w.registers a.frame)[r.toNat]?
      return utf8 "r" ++ Text.ofNat r.toNat ++ utf8 "=" ++ w.describe v)
      (fun r => utf8 "r" ++ Text.ofNat r.toNat ++ utf8 "=" ++
        w.describe (((w.registers a.frame)[r.toNat]?).getD .void))
      rs.words fun r member => by simp [Array.getElem?_eq_getElem (present r member)]
  simp only [dumpText, shownOf]
  rfl

/-- What an instruction does is what its decoded operands say. -/
theorem Ready.actionOf_eq (ready : Ready w a i) : a.actionOf e w i.opcode = a.effect e w i := by
  have laid := ready.laid
  unfold effect
  -- the layout of each opcode gives its operands by name, each with what reading it gives
  cases opcode : i.opcode with
    simp only [opcode, Opcode.operands, Laid, OperandKind.width] at laid
  | nop =>
    obtain ⟨operands, span⟩ := laid
    simp [actionOf, operands, after, span]
  | this | global | super | newObject | newBinding | «return» =>
    obtain ⟨r, _, operands, register, rfl, span⟩ := laid
    simp only [Reads] at register
    simp [actionOf, operands, registerNumber?, register, after, span]
  | thisProxy =>
    obtain ⟨r, _, operands, register, rfl, span⟩ := laid
    simp only [Reads] at register
    cases this : a.this.object? <;>
      simp [actionOf, operands, registerNumber?, register, after, span, this]
  | throw =>
    obtain ⟨r, _, operands, register, rfl, -⟩ := laid
    simp only [Reads] at register
    simp only [actionOf, operands, register]
    rfl
  | newArray | newDict =>
    obtain ⟨dst, _, operands, result, rfl, span⟩ := laid
    simp only [Reads] at result
    simp [actionOf, construct, effect.construct, operands, registerNumber?, result, after, span]
  | assign | unary =>
    obtain ⟨dst, _, operands, result, src, _, rfl, source, rfl, span⟩ := laid
    simp only [Reads] at result source
    simp [actionOf, operands, registerNumber?, result, source, after, span]
  | newFunction =>
    obtain ⟨dst, _, operands, result, src, _, rfl, source, rfl, span⟩ := laid
    simp only [Reads] at result source
    simp only [actionOf, operands, registerNumber?, result, source, after, span]
    rfl
  | const | newModule | assert =>
    obtain ⟨r, _, operands, register, k, _, rfl, constant, rfl, span⟩ := laid
    simp only [Reads] at register constant
    simp [actionOf, operands, registerNumber?, register, constant, after, span]
  | newRegExp =>
    obtain ⟨dst, _, operands, result, x, _, rfl, first, y, _, rfl, second, rfl, span⟩ := laid
    simp only [Reads] at result first second
    simp [actionOf, construct, effect.construct, operands, registerNumber?, result, first, second,
      after, span]
  | newProperty | inContextOf =>
    obtain ⟨dst, _, operands, result, x, _, rfl, first, y, _, rfl, second, rfl, span⟩ := laid
    simp only [Reads] at result first second
    simp [actionOf, operands, registerNumber?, result, first, second, after, span]
  | binary | instanceOf =>
    obtain ⟨dst, _, operands, result, x, _, rfl, first, y, _, rfl, second, rfl, span⟩ := laid
    simp only [Reads] at result first second
    simp only [actionOf, operands, registerNumber?, result, first, second, after, span]
    rfl
  | newClass =>
    obtain ⟨dst, _, operands, -, k, _, rfl, constant, _, _, rfl, -, rfl, -⟩ := laid
    simp only [Reads] at constant
    simp [actionOf, operands, constant]
  | param | blockParam =>
    obtain ⟨dst, _, operands, result, n, _, rfl, index, rfl, span⟩ := laid
    simp only [Reads] at result index
    simp [actionOf, operands, registerNumber?, result, index, after, span]
  | bindingMap =>
    obtain ⟨r, _, operands, register, k, _, rfl, constant, l, _, rfl, level, n, _, rfl, slot, rfl,
      span⟩ := laid
    simp only [Reads] at register constant level slot
    simp only [actionOf, operands, register, constant, level, slot, after, span]
    rfl
  | read =>
    obtain ⟨dst, _, operands, result, l, _, rfl, level, n, _, rfl, slot, rfl, span⟩ := laid
    simp only [Reads] at result level slot
    simp only [actionOf, operands, registerNumber?, result, level, slot, after, span]
    rfl
  | write =>
    obtain ⟨l, _, operands, level, n, _, rfl, slot, src, _, rfl, source, rfl, span⟩ := laid
    simp only [Reads] at level slot source
    simp only [actionOf, operands, level, slot, source, after, span]
    rfl
  | setFrame | setShare =>
    obtain ⟨dst, _, operands, result, b, _, rfl, block, rfl, span⟩ := laid
    simp only [Reads] at result block
    simp [actionOf, operands, registerNumber?, result, block, after, span]
  | call | new | tryCall =>
    obtain ⟨dst, _, operands, result, fn, _, rfl, callee, f, _, rfl, flags, xs, _, rfl, args, rfl,
      span⟩ := laid
    simp only [Reads] at result callee flags args
    simp [actionOf, callAction, operands, registerNumber?, flags?, result, callee, flags, args,
      after, span]
  | callMember =>
    obtain ⟨dst, _, operands, result, r, _, rfl, receiver, k, _, rfl, constant, f, _, rfl, flags,
      xs, _, rfl, args, rfl, span⟩ := laid
    simp only [Reads] at result receiver constant flags args
    simp [actionOf, operands, registerNumber?, flags?, result, receiver, constant, flags, args,
      after, span]
  | callBlock =>
    obtain ⟨dst, _, operands, result, fn, _, rfl, callee, f, _, rfl, flags, xs, _, rfl, args,
      ys, _, rfl, blocks, rfl, span⟩ := laid
    simp only [Reads] at result callee flags args blocks
    simp [actionOf, operands, registerNumber?, flags?, result, callee, flags, args, blocks, after,
      span]
  | sync =>
    obtain ⟨dst, _, operands, result, fn, _, rfl, callee, l, _, rfl, lock, f, _, rfl, flags,
      xs, _, rfl, args, rfl, span⟩ := laid
    simp only [Reads] at result callee lock flags args
    simp only [actionOf, operands, registerNumber?, flags?, result, callee, lock, flags, args,
      after, span]
    rfl
  | jump =>
    obtain ⟨d, _, operands, place, rfl, -⟩ := laid
    simp only [Reads] at place
    simp [actionOf, operands, target?, place]
  | jumpTrue | jumpFalse =>
    obtain ⟨r, _, operands, register, d, _, rfl, place, rfl, span⟩ := laid
    simp only [Reads] at register place
    simp [actionOf, operands, target?, register, place, after, span]
  | catchBranch =>
    obtain ⟨r, _, operands, register, k, _, rfl, constant, ds, _, rfl, targets, rfl, -⟩ := laid
    have nonempty : ds.words ≠ [] := by
      simpa only [InReach, targets.1] using ready.reach ds (by simp [operands])
    simp [actionOf, operands, catchBranch_eq_branchEffect register constant targets nonempty]
  | exitTry =>
    obtain ⟨r, _, operands, register, k, _, rfl, constant, n, _, rfl, index, rfl, -⟩ := laid
    simp only [Reads] at register constant index
    simp [actionOf, operands, register, constant, index]
  | dget =>
    obtain ⟨dst, _, operands, result, r, _, rfl, receiver, k, _, rfl, constant, f, _, rfl, flags,
      rfl, span⟩ := laid
    simp only [Reads] at result receiver constant flags
    simp [actionOf, operands, registerNumber?, flags?, result, receiver, constant, flags, after,
      span]
  | dset =>
    obtain ⟨r, _, operands, receiver, k, _, rfl, constant, src, _, rfl, source, f, _, rfl, flags,
      rfl, span⟩ := laid
    simp only [Reads] at receiver constant source flags
    simp [actionOf, operands, flags?, receiver, constant, source, flags, after, span]
  | iget | iset =>
    obtain ⟨x, _, operands, first, y, _, rfl, second, z, _, rfl, third, f, _, rfl, flags, rfl,
      span⟩ := laid
    simp only [Reads] at first second third flags
    simp [actionOf, operands, registerNumber?, flags?, first, second, third, flags, after, span]
  | dsetAttrib =>
    obtain ⟨r, _, operands, receiver, k, _, rfl, constant, f, _, rfl, flags, rfl, span⟩ := laid
    simp only [Reads] at receiver constant flags
    simp [actionOf, operands, flags?, receiver, constant, flags, after, span]
  | dump =>
    obtain ⟨rs, _, operands, registers, rfl, span⟩ := laid
    obtain ⟨kind, count, -, words, length⟩ := registers
    have shown := dumpText_eq_shown (ready.inside (by simp [operands]) kind)
    rw [length] at words
    have behind : i.length = 2 + rs.words.length := by omega
    simp [actionOf, operands, count, words, length, shown, after, behind]

/-- The instruction that a running block is about to carry out. -/
def opcode? (a : Activation) : Option Opcode :=
  if a.block.code.size ≤ a.ip then none
  else (a.word? 0).bind fun word => Opcode.ofCode? word.toNat

theorem action_of_opcode? {opcode : Opcode} (found : a.opcode? = some opcode) :
    a.action e w = a.actionOf e w opcode := by
  unfold opcode? at found
  split at found
  · cases found
  next inside =>
    obtain ⟨word, start, same⟩ := Option.bind_eq_some_iff.mp found
    rw [action, if_neg inside, start]
    simp only [Option.bind_eq_bind, Option.bind_some, same]

theorem Ready.opcode?_eq (ready : Ready w a i) : a.opcode? = some i.opcode := by
  obtain ⟨word, _, found, opcode, -⟩ := Instruction.decode_eq_ok.mp ready.decoded
  have inside : ¬((a.block.code.size : Int) ≤ a.ip) := by
    have := (Array.getElem?_eq_some_iff.mp found).1
    have := ready.place
    omega
  have first : a.word? 0 = some word := by simpa using (ready.word (k := 0)).trans found
  simp [opcode?, inside, first, opcode]

theorem Ready.action_eq (ready : Ready w a i) : a.action e w = a.effect e w i := by
  rw [action_of_opcode? ready.opcode?_eq, ready.actionOf_eq]

/-- A block stands at an instruction that has been checked, in a frame with all
its registers. -/
structure Poised (w : World) (a : Activation) (i : Instruction) : Prop where
  place : a.ip = i.offset
  decoded : Instruction.decode a.block.code i.offset = .ok i
  admits : a.block.Admits i
  fits : a.block.registers.toInt ≤ (w.registers a.frame).size

/-- All that a checked instruction names is there. -/
theorem Poised.ready (poised : Poised w a i) : Ready w a i := by
  refine ⟨poised.place, poised.decoded, fun o member => ?_⟩
  have fits := poised.fits
  unfold InReach
  split
  next kind =>
    have bound := poised.admits.register member kind
    omega
  next kind =>
    intro r present
    have bound := poised.admits.registers member kind r present
    omega
  next kind => exact poised.admits.constant member kind
  next kind => exact poised.admits.block member kind
  next kind => exact (poised.admits.displacements member kind).1
  · trivial

end Activation
end ScriptEngine
