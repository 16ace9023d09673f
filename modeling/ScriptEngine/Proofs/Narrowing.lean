import Mathlib.Algebra.Order.Ring.Nat
import ScriptEngine.Binary64.Narrow

/-! Numbers in narrower formats. What is written narrowly reads back as the same
number, sign of zero included.

All binary formats lay out their sizes in the same way: the lowest binade and
the one above count single steps, every further one doubles the step. `expand`
gives the steps that a magnitude field stands for, `compress` the field for a
number of steps; where no bit is lost they undo one another. -/
namespace ScriptEngine.Binary64

/-- The number of steps that a magnitude field stands for. -/
def expand (bits field : Nat) : Nat :=
  if field >>> bits = 0 then field
  else (1 <<< bits + field % 1 <<< bits) <<< (field >>> bits - 1)

/-- How many low bits of a number of steps do not fit beside the leading ones. -/
def excess (bits steps : Nat) : Nat :=
  if steps < 1 <<< (bits + 1) then 0 else steps.log2 - bits

/-- The magnitude field for a number of steps, low bits that do not fit dropped. -/
def compress (bits steps : Nat) : Nat :=
  excess bits steps <<< bits + steps >>> excess bits steps

section Fields

variable {bits field steps : Nat}

theorem expand_eq : expand bits field =
    if field / 2 ^ bits = 0 then field
    else (2 ^ bits + field % 2 ^ bits) * 2 ^ (field / 2 ^ bits - 1) := by
  simp only [expand, Nat.shiftRight_eq_div_pow, Nat.shiftLeft_eq, Nat.one_mul]

theorem compress_eq (bits steps : Nat) : compress bits steps =
    excess bits steps * 2 ^ bits + steps / 2 ^ excess bits steps := by
  simp only [compress, Nat.shiftRight_eq_div_pow, Nat.shiftLeft_eq]

theorem excess_eq_zero (small : steps < 2 ^ (bits + 1)) : excess bits steps = 0 := by
  simp [excess, Nat.shiftLeft_eq, small]

/-- Apart from the excess, `bits + 1` bits remain. -/
theorem excess_eq {k rest : Nat} (low : 2 ^ bits ≤ rest) (high : rest < 2 ^ (bits + 1))
    (positive : 0 < k) : excess bits (rest * 2 ^ k) = k := by
  have least : 2 ^ (bits + k) ≤ rest * 2 ^ k := by
    rw [Nat.pow_add]
    exact Nat.mul_le_mul_right _ low
  have most : rest * 2 ^ k < 2 ^ (bits + k + 1) := by
    rw [Nat.add_right_comm, Nat.pow_add]
    exact Nat.mul_lt_mul_of_pos_right high (Nat.two_pow_pos k)
  have large : ¬rest * 2 ^ k < 2 ^ (bits + 1) := by
    have := Nat.pow_le_pow_right (n := 2) (by decide) (show bits + 1 ≤ bits + k by omega)
    omega
  have log : (rest * 2 ^ k).log2 = bits + k :=
    (Nat.log2_eq_iff (by have := Nat.two_pow_pos (bits + k); omega)).mpr ⟨least, most⟩
  simp [excess, Nat.shiftLeft_eq, large, log]

/-- The leading bits of a number that is too large for a field. -/
theorem leading_bits (large : 2 ^ (bits + 1) ≤ steps) :
    0 < excess bits steps ∧ 2 ^ bits ≤ steps / 2 ^ excess bits steps ∧
      steps / 2 ^ excess bits steps < 2 ^ (bits + 1) := by
  have nonzero : steps ≠ 0 := by have := Nat.two_pow_pos (bits + 1); omega
  have log : bits + 1 ≤ steps.log2 := (Nat.le_log2 nonzero).mpr large
  have same : excess bits steps = steps.log2 - bits := by
    simp [excess, Nat.shiftLeft_eq, Nat.not_lt.mpr large]
  have upper := Nat.lt_log2_self (n := steps)
  have lower := Nat.log2_self_le nonzero
  rw [same]
  refine ⟨by omega, ?_, ?_⟩
  · rw [Nat.le_div_iff_mul_le (Nat.two_pow_pos _), ← Nat.pow_add]
    rwa [show bits + (steps.log2 - bits) = steps.log2 by omega]
  · rw [Nat.div_lt_iff_lt_mul (Nat.two_pow_pos _), ← Nat.pow_add]
    rwa [show bits + 1 + (steps.log2 - bits) = steps.log2 + 1 by omega]

theorem expand_small (small : field < 2 ^ bits) : expand bits field = field := by
  rw [expand_eq, if_pos (Nat.div_eq_of_lt small)]

/-- A field above the lowest binade: the binade, then the leading bits. -/
theorem expand_binade {k rest : Nat} (low : 2 ^ bits ≤ rest) (high : rest < 2 ^ (bits + 1)) :
    expand bits (k * 2 ^ bits + rest) = rest * 2 ^ k := by
  have positive := Nat.two_pow_pos bits
  have one : rest / 2 ^ bits = 1 := by
    rw [Nat.pow_succ] at high
    exact Nat.div_eq_of_lt_le (by omega) (by omega)
  have binade : (k * 2 ^ bits + rest) / 2 ^ bits = k + 1 := by
    rw [Nat.add_comm, Nat.add_mul_div_right _ _ positive, one, Nat.add_comm]
  have fraction : (k * 2 ^ bits + rest) % 2 ^ bits = rest % 2 ^ bits := by
    rw [Nat.add_comm, Nat.add_mul_mod_self_right]
  have whole : 2 ^ bits + rest % 2 ^ bits = rest := by
    have := Nat.div_add_mod rest (2 ^ bits)
    rwa [one, Nat.mul_one] at this
  rw [expand_eq, binade, fraction, whole, if_neg (Nat.succ_ne_zero k), Nat.add_sub_cancel]

theorem expand_compress (whole : steps % 2 ^ excess bits steps = 0) :
    expand bits (compress bits steps) = steps := by
  rw [compress_eq]
  by_cases small : steps < 2 ^ (bits + 1)
  · rw [excess_eq_zero small, Nat.zero_mul, Nat.pow_zero, Nat.div_one, Nat.zero_add]
    by_cases lowest : steps < 2 ^ bits
    · exact expand_small lowest
    · have second := expand_binade (k := 0) (Nat.not_lt.mp lowest) small
      simpa using second
  · obtain ⟨-, low, high⟩ := leading_bits (Nat.not_lt.mp small)
    rw [expand_binade low high]
    exact Nat.div_mul_cancel (Nat.dvd_of_mod_eq_zero whole)

theorem compress_expand (bits field : Nat) :
    compress bits (expand bits field) = field ∧
      expand bits field % 2 ^ excess bits (expand bits field) = 0 := by
  have positive := Nat.two_pow_pos bits
  by_cases lowest : field < 2 ^ bits
  · have small : field < 2 ^ (bits + 1) := by rw [Nat.pow_succ]; omega
    rw [expand_small lowest, compress_eq, excess_eq_zero small]
    simp [Nat.mod_one]
  · -- Split the field into its binade and the leading bits that it stands for.
    obtain ⟨k, rest, low, high, rfl⟩ : ∃ k rest, 2 ^ bits ≤ rest ∧ rest < 2 ^ (bits + 1) ∧
        field = k * 2 ^ bits + rest := by
      refine ⟨field / 2 ^ bits - 1, 2 ^ bits + field % 2 ^ bits, by omega, ?_, ?_⟩
      · have := Nat.mod_lt field positive
        rw [Nat.pow_succ]
        omega
      · have split := Nat.div_add_mod field (2 ^ bits)
        have above : 0 < field / 2 ^ bits := Nat.div_pos (Nat.not_lt.mp lowest) positive
        obtain ⟨k, same⟩ := Nat.exists_eq_succ_of_ne_zero (Nat.ne_of_gt above)
        rw [same, Nat.mul_succ] at split
        rw [same, Nat.succ_sub_one, Nat.mul_comm k]
        omega
    rw [expand_binade low high, compress_eq]
    rcases Nat.eq_zero_or_pos k with rfl | positive
    · rw [Nat.pow_zero, Nat.mul_one, excess_eq_zero high]
      simp [Nat.mod_one]
    · rw [excess_eq low high positive, Nat.mul_div_cancel _ (Nat.two_pow_pos k),
        Nat.mul_mod_left]
      exact ⟨rfl, rfl⟩

end Fields

/-! ### Numbers of 64 bits -/

section Numbers

variable {x : Binary64} {w : Nat}

theorem ofMagnitude_magnitude (x : Binary64) : ofMagnitude x.isNegative x.magnitude = x := by
  have bound : x.word < 18446744073709551616 := x.bits.toNat_lt
  have word : (if x.isNegative = true then 1 <<< 63 + x.magnitude else x.magnitude) = x.word := by
    have sign : (1 <<< 63 : Nat) = 9223372036854775808 := rfl
    simp only [isNegative, magnitude, sign, decide_eq_true_eq]
    split <;> omega
  rw [ofMagnitude, word]
  exact congrArg Binary64.mk UInt64.ofNat_toNat

theorem divideNearest_of_mod {num den : Nat} (positive : 0 < den) (whole : num % den = 0) :
    divideNearest num den = num / den := by
  simp [divideNearest, whole, positive]

/-- A size in units rounds to the number that has it. -/
theorem roundMagnitude_expand {field : Nat} (finite : field < infiniteMagnitude) :
    roundMagnitude (expand 52 field) 1 = field := by
  obtain ⟨same, whole⟩ := compress_expand 52 field
  generalize expand 52 field = steps at same whole
  have shifted : divideNearest steps (1 <<< excess 52 steps) = steps >>> excess 52 steps := by
    rw [Nat.one_shiftLeft, Nat.shiftRight_eq_div_pow]
    exact divideNearest_of_mod (Nat.two_pow_pos _) whole
  have shift : (if steps / 1 < 1 <<< 53 then 0 else (steps / 1).log2 - 52) = excess 52 steps := by
    rw [Nat.div_one]
    rfl
  unfold roundMagnitude
  simp only [shift, shifted]
  rw [← compress, same]
  exact Nat.min_eq_left (Nat.le_of_lt finite)

theorem round_units (finite : x.magnitude < infiniteMagnitude) :
    round x.isNegative x.units 1 = x := by
  have same : x.units = expand 52 x.magnitude := rfl
  rw [round, same, roundMagnitude_expand finite, ofMagnitude_magnitude]

namespace Format

variable {f : Format} {units field : Nat}

theorem infinite_lt_signBit (f : Format) : f.infinite < f.signBit := by
  rw [signBit, Nat.one_shiftLeft]
  exact Nat.lt_add_of_pos_right (Nat.two_pow_pos _)

theorem magnitude?_eq (f : Format) (units : Nat) : f.magnitude? units =
    if units % 1 <<< f.stepExponent = 0 ∧
        units / 1 <<< f.stepExponent %
          1 <<< excess f.fractionBits (units / 1 <<< f.stepExponent) = 0 ∧
        compress f.fractionBits (units / 1 <<< f.stepExponent) < f.infinite then
      some (compress f.fractionBits (units / 1 <<< f.stepExponent))
    else none := rfl

/-- A size that a format has is that of its field. -/
theorem expand_of_magnitude? (found : f.magnitude? units = some field) :
    field < f.infinite ∧ expand f.fractionBits field <<< f.stepExponent = units := by
  rw [magnitude?_eq] at found
  split at found
  next fits =>
    cases found
    obtain ⟨step, whole, finite⟩ := fits
    refine ⟨finite, ?_⟩
    rw [Nat.one_shiftLeft] at step whole ⊢
    rw [Nat.one_shiftLeft] at whole
    rw [expand_compress whole, Nat.shiftLeft_eq]
    exact Nat.div_mul_cancel (Nat.dvd_of_mod_eq_zero step)
  · cases found

/-- A field with its sign. -/
def signed (f : Format) (negative : Bool) (field : Nat) : Nat :=
  if negative then f.signBit + field else field

theorem signed_spec (negative : Bool) (small : field < f.signBit) :
    decide (f.signBit ≤ f.signed negative field) = negative ∧
      f.signed negative field % f.signBit = field ∧ f.signed negative field < 2 * f.signBit := by
  cases negative with
  | true =>
    refine ⟨by simp [signed], ?_, ?_⟩
    · simp [signed, Nat.mod_eq_of_lt small]
    · simp only [signed, if_true]
      omega
  | false =>
    refine ⟨by simp [signed, small], ?_, ?_⟩
    · simp [signed, Nat.mod_eq_of_lt small]
    · simp only [signed, Bool.false_eq_true, if_false]
      omega

theorem narrow?_eq (f : Format) (x : Binary64) : f.narrow? x =
    (if x.isInfinite = true then some f.infinite else f.magnitude? x.units).map
      (f.signed x.isNegative) := by
  unfold narrow?
  cases x.isInfinite with
  | true => rfl
  | false => cases f.magnitude? x.units <;> rfl

/-- What fits into a narrower format reads back. -/
theorem widen_narrow (number : x.isNaN = false) (narrow : f.narrow? x = some w) :
    f.widen w = x ∧ w < 2 * f.signBit := by
  have below := f.infinite_lt_signBit
  have atMost : x.magnitude ≤ infiniteMagnitude := by simpa [isNaN] using number
  rw [narrow?_eq, Option.map_eq_some_iff] at narrow
  obtain ⟨field, found, rfl⟩ := narrow
  by_cases infinite : x.magnitude = infiniteMagnitude
  · rw [if_pos (by simp [isInfinite, infinite])] at found
    cases found
    obtain ⟨sign, rest, bound⟩ := signed_spec x.isNegative below
    refine ⟨?_, bound⟩
    simp only [widen, sign, rest, Nat.lt_irrefl, if_false, if_true]
    rw [infinity, ← infinite, ofMagnitude_magnitude]
  · rw [if_neg (by simp [isInfinite, infinite])] at found
    obtain ⟨finite, size⟩ := expand_of_magnitude? found
    obtain ⟨sign, rest, bound⟩ := signed_spec x.isNegative (Nat.lt_trans finite below)
    refine ⟨?_, bound⟩
    simp only [widen, sign, rest, Nat.not_lt.mpr (Nat.le_of_lt finite), Nat.ne_of_lt finite, if_false]
    rw [← expand, size]
    exact round_units (by omega)

end Format
end Numbers
end ScriptEngine.Binary64
