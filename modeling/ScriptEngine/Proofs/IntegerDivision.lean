import Mathlib.Data.Int.ModEq
import ScriptEngine.Proofs.Delivery
import ScriptEngine.Proofs.NumberOrder

/-! Integer division of values. Both operands are converted first; a divisor without a whole
part is an error, whatever kind of value it is. Otherwise quotient and remainder go toward
zero and wrap around 64 bits, and an instruction stores one of them or raises. -/
namespace ScriptEngine

/-- A real without a whole part: not a number, infinite, or smaller than one. -/
def Binary64.Wholeless (x : Binary64) : Prop := x.isFinite = false ∨ x.units < unitsPerOne

instance (x : Binary64) : Decidable x.Wholeless := inferInstanceAs (Decidable (_ ∨ _))

/-- The whole part of a number, of any size; zero for reals that are not finite. -/
def Number.whole : Number → Int
  | .int n => n.toInt
  | .real x => if x.isFinite then x.truncate else 0

theorem Binary64.truncate_eq_zero {x : Binary64} : x.truncate = 0 ↔ x.units < unitsPerOne := by
  rw [truncate, ← Nat.div_eq_zero_iff_lt unitsPerOne_pos]
  split <;> omega

namespace Value

variable {v : Value}

/-- The conversion of a value to an integer is defined: its whole part fits in 64 bits. -/
def HasInteger (v : Value) : Prop := -2 ^ 63 ≤ v.toNumber.whole ∧ v.toNumber.whole < 2 ^ 63

instance : Decidable v.HasInteger := inferInstanceAs (Decidable (_ ∧ _))

/-- Values that divide like zero: void, octets and objects, strings that are no numeral, and
whatever else has no whole part. -/
def Vanishes : Value → Prop
  | .void | .octet _ | .object .. => True
  | .bool b => b = false
  | .int n => n = 0
  | .real x => x.Wholeless
  | .string t =>
    match Numeral.int64? t.trimmed, Numeral.real? t.trimmed with
    | some n, _ => n = 0
    | none, some x => x.Wholeless
    | none, none => True

theorem toInteger_eq_whole (defined : v.HasInteger) : v.toInteger.toInt = v.toNumber.whole := by
  obtain ⟨low, high⟩ := defined
  rw [toInteger]
  cases number : v.toNumber with
  | int n => rfl
  | real x =>
    rw [number] at low high
    simp only [Number.toInteger, Number.whole] at low high ⊢
    split at low
    next finite =>
      rw [if_pos finite] at high
      rw [if_pos finite, if_pos finite]
      exact Int64.toInt_ofInt_of_le low high
    next infinite => rw [if_neg infinite, if_neg infinite, Int64.toInt_zero]

theorem whole_real (x : Binary64) : (Number.real x).whole = 0 ↔ x.Wholeless := by
  rw [Number.whole, Binary64.Wholeless, ← Binary64.truncate_eq_zero]
  cases x.isFinite <;> simp

theorem whole_int (n : Int64) : (Number.int n).whole = 0 ↔ n = 0 := by
  rw [Number.whole, ← Int64.toInt_zero, Int64.toInt_inj]

/-- Nothing is read out of an empty text. -/
theorem numerals_nil : Numeral.int64? [] = none ∧ Numeral.real? [] = none := by decide

theorem whole_eq_zero (v : Value) : v.toNumber.whole = 0 ↔ v.Vanishes := by
  cases v with
  | void | octet | object => exact iff_of_true rfl trivial
  | bool b => cases b <;> simp [toNumber, Vanishes, whole_int]
  | int n => exact whole_int n
  | real x => exact whole_real x
  | string t =>
    simp only [toNumber, Number.ofText, Vanishes]
    by_cases blank : t.trimmed = []
    · simp only [blank, numerals_nil, if_true]
      exact iff_of_true rfl trivial
    · rw [if_neg blank]
      cases Numeral.int64? t.trimmed with
      | some n => exact whole_int n
      | none =>
        cases Numeral.real? t.trimmed with
        | some x => exact whole_real x
        | none => exact iff_of_true rfl trivial

/-! ### Quotient and remainder -/

/-- A dividend split by a divisor into quotient and remainder, toward zero and modulo 2 ^ 64.
One quotient does not fit, that of the least integer by minus one. -/
structure Splits (x d q r : Int64) : Prop where
  law : x.toInt ≡ q.toInt * d.toInt + r.toInt [ZMOD 2 ^ 64]
  small : r.toInt.natAbs < d.toInt.natAbs
  sign : r = 0 ∨ r.toInt.sign = x.toInt.sign
  toward : ¬(x = Int64.minValue ∧ d = -1) → q.toInt = x.toInt.tdiv d.toInt
  wraps : x = Int64.minValue → d = -1 → q = Int64.minValue ∧ r = 0

theorem splits_div_mod {x d : Int64} (nonzero : d ≠ 0) : Splits x d (x / d) (x % d) := by
  have divisor : d.toInt ≠ 0 := fun zero => nonzero (Int64.toInt_inj.mp zero)
  refine ⟨?_, ?_, ?_, ?_, ?_⟩
  · -- The wrapped quotient differs from the exact one by a multiple of 2 ^ 64.
    have wrapped : (x / d).toInt ≡ x.toInt.tdiv d.toInt [ZMOD 2 ^ 64] := by
      rw [Int64.toInt_div]
      exact Int.bmod_emod
    calc x.toInt
      _ = x.toInt.tdiv d.toInt * d.toInt + x.toInt.tmod d.toInt := (Int.tdiv_mul_add_tmod _ _).symm
      _ ≡ (x / d).toInt * d.toInt + (x % d).toInt [ZMOD 2 ^ 64] := by
        rw [Int64.toInt_mod]
        exact (wrapped.symm.mul_right _).add_right _
  · rw [Int64.toInt_mod, Int.natAbs_tmod]
    exact Nat.mod_lt _ (Int.natAbs_pos.mpr divisor)
  · rw [Int64.toInt_mod, Int.sign_tmod]
    by_cases divides : d.toInt ∣ x.toInt
    · left
      apply Int64.toInt_inj.mp
      rw [Int64.toInt_mod]
      exact Int.tmod_eq_zero_of_dvd divides
    · exact .inr (if_neg divides)
  · intro fits
    by_cases least : x = Int64.minValue
    · exact Int64.toInt_div_of_ne_right x d fun minusOne => fits ⟨least, minusOne⟩
    · exact Int64.toInt_div_of_ne_left x d least
  · rintro rfl rfl
    exact ⟨Int64.minValue_div_neg_one, by decide⟩

theorem quotient_eq_error (a b : Value) :
    a.quotient b = .error .divisionByZero ↔ b.toInteger = 0 := by
  rw [quotient]
  split <;> simp_all

theorem remainder_eq_error (a b : Value) :
    a.remainder b = .error .divisionByZero ↔ b.toInteger = 0 := by
  rw [remainder]
  split <;> simp_all

theorem quotient_remainder_eq_ok {a b : Value} (nonzero : b.toInteger ≠ 0) :
    a.quotient b = .ok (.int (a.toInteger / b.toInteger)) ∧
      a.remainder b = .ok (.int (a.toInteger % b.toInteger)) := by
  rw [quotient, remainder, if_neg nonzero, if_neg nonzero]
  exact ⟨rfl, rfl⟩

end Value

/-! ### Division instructions -/

namespace Machine

variable {e : Engine} {w : World} {a : Activation} {i : Instruction} {stack : List Cont}

/-- What an instruction at which a block stands does with the result of a division: the block
goes on with it in a register, or fails with an exception and all registers as they were. -/
def Delivers (e : Engine) (w : World) (a : Activation) (stack : List Cont) (dst : Nat) :
    Except Value.OperatorError Value → Prop
  | .ok v => ∃ w', step e ⟨w, .code a, stack⟩ = ⟨w', .code { a with ip := a.ip + 4 }, stack⟩ ∧
      w' = w.setRegister a.frame dst v ∧ (w'.registers a.frame)[dst]? = some v
  | .error _ => ∃ w' f ref, step e ⟨w, .code a, stack⟩ = ⟨w', .reply (.failed none f), stack⟩ ∧
      w'.Carries f (.thrown (.object ref none)) ∧
      w'.heap[ref]? = some (.error (utf8 "DivideByZeroException") (utf8 "division by zero")) ∧
      w'.frames = w.frames

/-- An exception of the engine that a running block raises: it is on its way, and no register
was written. -/
theorem throwException_raises (a : Activation) (w : World) (className : String) (message : Text) :
    ∃ w' f ref,
      a.raise (w.throwException className message).1 (w.throwException className message).2 =
        ⟨w', .reply (.failed none f), []⟩ ∧ w'.Carries f (.thrown (.object ref none)) ∧
      w'.heap[ref]? = some (.error (utf8 className) message) ∧ w'.frames = w.frames := by
  let thrown := w.throwException className message
  let annotated := thrown.1.annotate thrown.2 (a.block.tracePoint a.ip)
  obtain ⟨heap, frames, -⟩ := World.annotate_heap thrown.1 thrown.2 (a.block.tracePoint a.ip)
  have found : thrown.1.signal? thrown.2 = some (.thrown (.object w.heap.size none) [] none) :=
    Array.getElem?_push_size
  have carries : thrown.1.Carries thrown.2 (.thrown (.object w.heap.size none)) := .thrown found
  have kept := (World.Change.annotate thrown.1 thrown.2 (a.block.tracePoint a.ip)).keeps.trans
    (World.releaseChain_keeps annotated a.owned)
  refine ⟨annotated.releaseChain a.owned, thrown.2, w.heap.size, rfl, carries.kept kept, ?_, frames⟩
  have there : annotated.heap[w.heap.size]? = some (.error (utf8 className) message) := by
    rw [heap]
    exact Array.getElem?_push_size
  exact kept.errors _ _ _ (heap ▸ there)

theorem step_division {op : BinaryOp} {dst left right : Operand} (ready : a.Ready w i)
    (opcode : i.opcode = .binary op) (operands : i.operands = [dst, left, right])
    (division : op = .quotient ∨ op = .remainder) :
    Delivers e w a stack dst.word.toNat
      (op.apply w.face (a.value w left) (a.value w right)) := by
  have laid := ready.laid
  have length : i.length = 4 := by
    simp only [opcode, Opcode.operands, Activation.Laid, OperandKind.width] at laid
    obtain ⟨_, _, -, -, _, _, -, -, _, _, -, -, -, span⟩ := laid
    exact span
  have register : dst.kind = .register := by
    have kinds := ready.layout
    rw [operands, opcode] at kinds
    exact (List.cons.inj kinds).1
  have bound := ready.bound (operands ▸ List.mem_cons_self) register
  cases result : op.apply w.face (a.value w left) (a.value w right) with
  | ok v =>
    have effect : a.effect e w i = some (.assign dst.word.toNat v (a.ip + i.length)) := by
      simp only [Activation.effect, opcode, operands, result]
    refine ⟨_, ?_, rfl, World.setRegister_self bound v⟩
    rw [step_ready ready effect]
    simp only [Activation.perform, Activation.assign, if_pos bound, Activation.goto, length]
    rfl
  | error error =>
    -- The two operators know one error only.
    obtain rfl : error = .divisionByZero := by
      rcases division with rfl | rfl <;>
        simp only [BinaryOp.apply, Value.quotient, Value.remainder] at result <;>
        split at result <;> cases result
      · rfl
      · rfl
    have effect : a.effect e w i = some (.throwException "DivideByZeroException"
        Value.OperatorError.divisionByZero.message) := by
      simp only [Activation.effect, opcode, operands, result]
    obtain ⟨w', f, ref, raised, carries, there, frames⟩ := throwException_raises a w
      "DivideByZeroException" Value.OperatorError.divisionByZero.message
    refine ⟨w', f, ref, ?_, carries, there, frames⟩
    rw [step_ready ready effect]
    simp only [Activation.perform, raised]
    rfl

end Machine

/-- Integer division of values whose integers are defined. The conversion gives the whole
part. Quotient and remainder fail exactly for a divisor that is zero once converted, which is
one without a whole part; for any other they split the dividend. A division instruction on
registers with these values delivers the result. -/
theorem Value.integer_division (a b : Value) (first : a.HasInteger) (second : b.HasInteger) :
    (a.toInteger.toInt = a.toNumber.whole ∧ b.toInteger.toInt = b.toNumber.whole) ∧
    (a.quotient b = .error .divisionByZero ↔ b.toInteger = 0) ∧
    (a.remainder b = .error .divisionByZero ↔ b.toInteger = 0) ∧
    (b.toInteger = 0 ↔ b.Vanishes) ∧
    (b.toInteger ≠ 0 → ∃ q r, a.quotient b = .ok (.int q) ∧ a.remainder b = .ok (.int r) ∧
      Splits a.toInteger b.toInteger q r) ∧
    ∀ (e : Engine) (w : World) (code : Activation) (i : Instruction) (stack : List Cont)
      (dst left right : Operand), code.Ready w i → i.operands = [dst, left, right] →
      code.value w left = a → code.value w right = b →
      (i.opcode = .binary .quotient →
        Machine.Delivers e w code stack dst.word.toNat (a.quotient b)) ∧
      (i.opcode = .binary .remainder →
        Machine.Delivers e w code stack dst.word.toNat (a.remainder b)) := by
  refine ⟨⟨toInteger_eq_whole first, toInteger_eq_whole second⟩, quotient_eq_error a b,
    remainder_eq_error a b, ?_, ?_, ?_⟩
  · rw [← whole_eq_zero, ← toInteger_eq_whole second, ← Int64.toInt_zero, Int64.toInt_inj]
  · intro nonzero
    obtain ⟨quotient, remainder⟩ := quotient_remainder_eq_ok (a := a) nonzero
    exact ⟨_, _, quotient, remainder, splits_div_mod nonzero⟩
  · rintro e w code i stack dst left right ready operands rfl rfl
    exact ⟨fun opcode => Machine.step_division ready opcode operands (.inl rfl),
      fun opcode => Machine.step_division ready opcode operands (.inr rfl)⟩

/-- A block that divides its second register by its third, by one of the two instructions. -/
def Machine.dividing (opcode : UInt32) : Activation :=
  { block := { code? := some #[opcode, 0, 1, 2], registers := 3 }, frame := 0, chain := []
    owned := [], args := [], blocks := [], this := .void, completion := .result }

/-- The least integer divided by a string that reads as minus one, and by one that is no
numeral. -/
theorem Value.integer_division_least :
    let least : Value := .int Int64.minValue
    let minusOne : Value := .string (utf8 " -1 ")
    let word : Value := .string (utf8 "two")
    let registers (divisor : Value) : World := { frames := #[#[.void, least, divisor]] }
    (least.HasInteger ∧ minusOne.HasInteger ∧ word.HasInteger) ∧
      (least.quotient minusOne = .ok least ∧ least.remainder minusOne = .ok (.int 0)) ∧
      (word.Vanishes ∧ least.quotient word = .error .divisionByZero) ∧
      Machine.Delivers Machine.plainEngine (registers minusOne) (Machine.dividing 63) [] 0
        (.ok least) ∧
      Machine.Delivers Machine.plainEngine (registers word) (Machine.dividing 61) [] 0
        (.error .divisionByZero) := by
  intro least minusOne word registers
  have defined : least.HasInteger ∧ minusOne.HasInteger ∧ word.HasInteger := by decide +kernel
  have nonzero : minusOne.toInteger = -1 := by decide +kernel
  have zero : word.toInteger = 0 := by decide +kernel
  obtain ⟨-, -, -, -, splits, delivers⟩ :=
    integer_division least minusOne defined.1 defined.2.1
  obtain ⟨-, fails, fails', vanishes, -, raises⟩ :=
    integer_division least word defined.1 defined.2.2
  obtain ⟨q, r, quotient, remainder, split⟩ := splits (by rw [nonzero]; decide)
  obtain ⟨rfl, rfl⟩ := split.wraps rfl nonzero
  refine ⟨defined, ⟨quotient, remainder⟩, ⟨vanishes.mp zero, fails.mpr zero⟩, ?_, ?_⟩
  · have stored := (delivers Machine.plainEngine (registers minusOne) (Machine.dividing 63)
      ⟨0, .binary .quotient, [⟨.register, 0, []⟩, ⟨.register, 1, []⟩, ⟨.register, 2, []⟩], 4⟩ []
      _ _ _ ⟨rfl, rfl, by decide +kernel⟩ rfl rfl rfl).1 rfl
    rwa [quotient] at stored
  · have raised := (raises Machine.plainEngine (registers word) (Machine.dividing 61)
      ⟨0, .binary .remainder, [⟨.register, 0, []⟩, ⟨.register, 1, []⟩, ⟨.register, 2, []⟩], 4⟩ []
      _ _ _ ⟨rfl, rfl, by decide +kernel⟩ rfl rfl rfl).2 rfl
    rwa [fails'.mpr zero] at raised

end ScriptEngine
