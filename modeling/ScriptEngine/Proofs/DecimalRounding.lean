import ScriptEngine.Binary64.Shortest
import ScriptEngine.Numeral.Real
import ScriptEngine.Proofs.DecimalText
import ScriptEngine.Proofs.NumberOrder

/-! Decimals and the numbers nearest to them. Rounding depends on the fraction alone and not on
how it is written, so trailing zeros of a decimal do not matter. The decimal chosen for a number
rounds back to it, and so does the decimal that its digits and their position spell. A decimal
that rounds to a finite number other than zero is of moderate size: the reader's bounds on the
position of the first digit never turn it away. -/
namespace ScriptEngine

namespace Binary64

variable {num den c m n : Nat} {negative : Bool}

/-! ### Rounding fractions -/

theorem divideNearest_scale (positive : 0 < c) :
    divideNearest (num * c) (den * c) = divideNearest num den := by
  have less (a b : Nat) : a * c < b * c ↔ a < b := Nat.mul_lt_mul_right positive
  simp only [divideNearest, Nat.mul_div_mul_right _ _ positive, Nat.mul_mod_mul_right,
    ← Nat.mul_assoc, less]

theorem roundMagnitude_scale (positive : 0 < c) :
    roundMagnitude (num * c) (den * c) = roundMagnitude num den := by
  simp only [roundMagnitude, Nat.mul_div_mul_right _ _ positive, Nat.shiftLeft_eq,
    Nat.mul_right_comm den c, divideNearest_scale positive]

theorem round_scale (positive : 0 < c) :
    round negative (num * c) (den * c) = round negative num den :=
  congrArg (ofMagnitude negative) (roundMagnitude_scale positive)

theorem magnitude_round (negative : Bool) (num den : Nat) :
    (round negative num den).magnitude = roundMagnitude num den :=
  (fields_of_le negative (Nat.min_le_right _ _)).2

/-- Less than half a unit rounds to zero. -/
theorem roundMagnitude_underflow (small : 2 * num < den) : roundMagnitude num den = 0 := by
  have whole : num / den = 0 := Nat.div_eq_of_lt (by omega)
  have rest : num % den = num := Nat.mod_eq_of_lt (by omega)
  simp [roundMagnitude, divideNearest, whole, rest, small]

/-- A size beyond the last binade rounds to infinity. -/
theorem roundMagnitude_overflow {k : Nat} (beyond : 2098 ≤ k) (positive : 0 < den)
    (large : 2 ^ k * den ≤ num) : roundMagnitude num den = infiniteMagnitude := by
  have whole : 2 ^ k ≤ num / den := (Nat.le_div_iff_mul_le positive).mpr large
  have wide : 2 ^ (52 + 1) ≤ num / den :=
    Nat.le_trans (Nat.pow_le_pow_right (by decide) (by omega)) whole
  have nonzero : num / den ≠ 0 := Nat.ne_of_gt (Nat.lt_of_lt_of_le (Nat.two_pow_pos k) whole)
  have log : k ≤ (num / den).log2 := (Nat.le_log2 nonzero).mpr whole
  have shift : 2046 ≤ excess 52 (num / den) := by
    rw [excess, if_neg (by rw [Nat.one_shiftLeft]; omega)]
    omega
  have leading := (leading_bits wide).2.1
  have nearest := (divideNearest_bounds num (den <<< excess 52 (num / den))).1
  rw [Nat.shiftLeft_eq, ← Nat.div_div_eq_div_mul] at nearest
  have infinite : infiniteMagnitude = 2047 * 2 ^ 52 := rfl
  apply Nat.min_eq_right
  change _ ≤ excess 52 (num / den) <<< 52 + divideNearest num (den <<< excess 52 (num / den))
  rw [infinite, Nat.shiftLeft_eq, Nat.shiftLeft_eq]
  omega

/-! ### Decimals as fractions -/

theorem ofDecimal_sub (negative : Bool) (n a b : Nat) :
    ofDecimal negative n ((a : Int) - b) = round negative (n * 10 ^ a * unitsPerOne) (10 ^ b) := by
  have power (k : Nat) : 0 < 10 ^ k := Nat.pow_pos (by decide)
  rcases Nat.lt_or_ge a b with less | le
  · obtain ⟨k, rfl⟩ := Nat.exists_eq_add_of_lt less
    have exponent : (a : Int) - (a + k + 1 : Nat) = -(k + 1 : Nat) := by omega
    have denominator : Nat.pow 10 (k + 1) * 10 ^ a = 10 ^ (a + k + 1) := by
      rw [Nat.add_assoc, Nat.add_comm a]
      exact (Nat.pow_add 10 (k + 1) a).symm
    rw [ofDecimal, exponent, if_neg (by omega), Int.natAbs_neg, Int.natAbs_natCast,
      ← round_scale (power a), Nat.mul_right_comm, denominator]
  · obtain ⟨k, rfl⟩ := Nat.exists_eq_add_of_le le
    have exponent : ((b + k : Nat) : Int) - b = k := by omega
    have numerator : n * Nat.pow 10 k * 10 ^ b = n * 10 ^ (b + k) := by
      rw [Nat.mul_assoc, Nat.add_comm b]
      exact congrArg _ (Nat.pow_add 10 k b).symm
    rw [ofDecimal, exponent, if_pos (Int.natCast_nonneg k), Int.toNat_natCast,
      ← round_scale (power b), Nat.one_mul, Nat.mul_right_comm, numerator]

theorem exponent_split (e : Int) : ∃ a b : Nat, e = (a : Int) - b :=
  ⟨e.toNat, (-e).toNat, by omega⟩

/-- Trailing zeros of the digits belong to the exponent as well. -/
theorem ofDecimal_shift (negative : Bool) (n k : Nat) (e : Int) :
    ofDecimal negative (n * 10 ^ k) e = ofDecimal negative n (e + k) := by
  obtain ⟨a, b, rfl⟩ := exponent_split e
  have moved : (a : Int) - b + k = (a + k : Nat) - b := by omega
  rw [moved, ofDecimal_sub, ofDecimal_sub, Nat.pow_add, Nat.mul_assoc n, Nat.mul_comm (10 ^ k)]

/-- The sign of a decimal goes to the number, its size decides the magnitude. -/
theorem ofDecimal_of_readsAs {d : Decimal} (reads : d.readsAs m = true) (negative : Bool) :
    ofDecimal negative d.digits d.exponent = ofMagnitude negative m := by
  obtain ⟨a, b, split⟩ := exponent_split d.exponent
  simp only [Decimal.readsAs, split, ofDecimal_sub, magnitude_round, decide_eq_true_eq] at reads
  rw [split, ofDecimal_sub, round, reads]

/-! ### The chosen decimal reads back -/

theorem gridNeighbour?_readsAs {units : Nat} {e : Int} {d : Decimal}
    (found : gridNeighbour? units m e = some d) : d.readsAs m = true := by
  simp only [gridNeighbour?] at found
  split at found
  next below above =>
    -- The nearer of the two is one of the two.
    obtain ⟨low, high⟩ := divideNearest_bounds (gridFraction units e).1 (gridFraction units e).2
    rcases Nat.lt_or_eq_of_le low with less | same
    · have next := Nat.le_antisymm high less
      rw [next] at found
      exact Option.some.inj found ▸ above
    · rw [← same] at found
      exact Option.some.inj found ▸ below
  next below _ => exact Option.some.inj found ▸ below
  next _ above => exact Option.some.inj found ▸ above
  · cases found

theorem firstGrid_readsAs {units fuel count : Nat} {leading : Int} {d : Decimal}
    (found : firstGrid units m leading fuel count = some d) : d.readsAs m = true := by
  induction fuel generalizing count with
  | zero => cases found
  | succ fuel ih =>
    rw [firstGrid] at found
    split at found
    next here => exact Option.some.inj found ▸ gridNeighbour?_readsAs here
    · exact ih found

theorem exactDecimal_readsAs {x : Binary64} (finite : x.magnitude < infiniteMagnitude) :
    (exactDecimal x.units).readsAs x.magnitude = true := by
  have steps := unitsPerOne.eq_1
  rw [exactDecimal]
  -- Any number of places would do; the power itself is never computed.
  generalize places : (1074 : Nat) = k at steps ⊢
  have exponent : (-1074 : Int) = (0 : Nat) - (k : Int) := by omega
  have powers : Nat.pow 5 k * unitsPerOne = 10 ^ k := by
    rw [steps, Nat.one_shiftLeft]
    exact (Nat.mul_pow 5 2 k).symm
  have scaled : roundMagnitude (x.units * 10 ^ k) (1 * 10 ^ k) = roundMagnitude x.units 1 :=
    roundMagnitude_scale (Nat.pow_pos (by decide))
  rw [Nat.one_mul] at scaled
  rw [Decimal.readsAs, decide_eq_true_eq, exponent, ofDecimal_sub, magnitude_round, Nat.pow_zero,
    Nat.mul_one, Nat.mul_assoc, powers, scaled]
  exact roundMagnitude_expand finite

theorem shortest_readsAs {x : Binary64} (finite : x.magnitude < infiniteMagnitude) :
    (shortest x).readsAs x.magnitude = true := by
  rw [shortest]
  split
  next found => exact firstGrid_readsAs found
  · exact exactDecimal_readsAs finite

/-! ### The size of a decimal that reads back -/

theorem length_toDigits_bounds (positive : 0 < n) :
    10 ^ ((Nat.toDigits 10 n).length - 1) ≤ n ∧ n < 10 ^ (Nat.toDigits 10 n).length := by
  have some := Nat.length_toDigits_pos (b := 10) (n := n)
  have fits {k : Nat} (nonzero : 0 < k) : (Nat.toDigits 10 n).length ≤ k ↔ n < 10 ^ k :=
    Nat.length_toDigits_le_iff (by decide) nonzero
  refine ⟨Nat.not_lt.mp fun less => ?_, (fits some).mp (Nat.le_refl _)⟩
  rcases Nat.eq_zero_or_pos ((Nat.toDigits 10 n).length - 1) with one | more
  · rw [one] at less
    omega
  · have fewer := (fits more).mpr less
    omega

/-- Half a unit is `10 ^ -331` at least. -/
theorem unitsPerOne_le : ∃ k ≤ 331, 2 * unitsPerOne ≤ 10 ^ k :=
  ⟨331, Nat.le_refl _, by decide +kernel⟩

/-- A size of `10 ^ 310` lies beyond the last binade. -/
theorem le_unitsPerOne : ∃ j k, j ≤ 310 ∧ 2098 ≤ k ∧ 2 ^ k ≤ 10 ^ j * unitsPerOne :=
  ⟨310, 2098, Nat.le_refl _, Nat.le_refl _, by decide +kernel⟩

/-- A decimal that rounds neither to zero nor to infinity has its first digit within the bounds
that the reader sets. -/
theorem readsAs_bounds {d : Decimal} (reads : d.readsAs m = true) (nonzero : 0 < m)
    (finite : m < infiniteMagnitude) :
    0 < d.digits ∧ -330 ≤ d.exponent + (Nat.toDigits 10 d.digits).length ∧
      d.exponent + (Nat.toDigits 10 d.digits).length ≤ 310 := by
  obtain ⟨n, e⟩ := d
  obtain ⟨a, b, rfl⟩ := exponent_split e
  simp only [Decimal.readsAs, ofDecimal_sub, magnitude_round, decide_eq_true_eq] at reads
  dsimp only
  have power (k : Nat) : 0 < 10 ^ k := Nat.pow_pos (by decide)
  have positive : 0 < n := by
    apply Nat.pos_of_ne_zero
    rintro rfl
    rw [Nat.zero_mul, Nat.zero_mul, roundMagnitude_underflow (power b)] at reads
    omega
  obtain ⟨least, most⟩ := length_toDigits_bounds positive
  have some := Nat.length_toDigits_pos (b := 10) (n := n)
  generalize (Nat.toDigits 10 n).length = length at least most some ⊢
  refine ⟨positive, Int.not_lt.mp fun low => ?_, Int.not_lt.mp fun high => ?_⟩
  · obtain ⟨k, bounded, half⟩ := unitsPerOne_le
    have small : 2 * (n * 10 ^ a * unitsPerOne) < 10 ^ b :=
      calc 2 * (n * 10 ^ a * unitsPerOne)
        _ = n * (10 ^ a * (2 * unitsPerOne)) := by ring
        _ < 10 ^ length * (10 ^ a * (2 * unitsPerOne)) :=
          Nat.mul_lt_mul_of_pos_right most
            (Nat.mul_pos (power a) (Nat.mul_pos Nat.two_pos unitsPerOne_pos))
        _ ≤ 10 ^ length * (10 ^ a * 10 ^ k) :=
          Nat.mul_le_mul_left _ (Nat.mul_le_mul_left _ half)
        _ = 10 ^ (length + (a + k)) := by rw [Nat.pow_add, Nat.pow_add]
        _ ≤ 10 ^ b := Nat.pow_le_pow_right (by decide) (by omega)
    rw [roundMagnitude_underflow small] at reads
    omega
  · obtain ⟨j, k, bounded, beyond, full⟩ := le_unitsPerOne
    have large : 2 ^ k * 10 ^ b ≤ n * 10 ^ a * unitsPerOne :=
      calc 2 ^ k * 10 ^ b
        _ ≤ 10 ^ j * unitsPerOne * 10 ^ b := Nat.mul_le_mul_right _ full
        _ = 10 ^ (j + b) * unitsPerOne := by rw [Nat.pow_add]; ring
        _ ≤ 10 ^ (length - 1 + a) * unitsPerOne :=
          Nat.mul_le_mul_right _ (Nat.pow_le_pow_right (by decide) (by omega))
        _ ≤ n * 10 ^ a * unitsPerOne := by
          rw [Nat.pow_add]
          exact Nat.mul_le_mul_right _ (Nat.mul_le_mul_right _ least)
    rw [roundMagnitude_overflow beyond (power b) large] at reads
    omega

theorem finiteDecimal?_of_readsAs {d : Decimal} (reads : d.readsAs m = true) (nonzero : 0 < m)
    (finite : m < infiniteMagnitude) (negative : Bool) :
    Numeral.finiteDecimal? negative d.digits d.exponent = some (ofMagnitude negative m) := by
  obtain ⟨positive, low, high⟩ := readsAs_bounds reads nonzero finite
  have size := (fields_of_le negative (Nat.le_of_lt finite)).2
  have isFinite : (ofMagnitude negative m).isFinite = true := by
    simpa only [Binary64.isFinite, size, decide_eq_true_eq] using finite
  rw [Numeral.finiteDecimal?, if_neg (by omega), if_neg (by omega),
    ofDecimal_of_readsAs reads negative, if_pos isFinite]

/-! ### Digits and their position -/

/-- The decimal that digits spell at their position. -/
def Digits.decimal (d : Digits) : Decimal :=
  ⟨Numeral.numberOf d.digits, d.leading + 1 - d.digits.length⟩

/-- What is dropped from the end of the digits are zeros. -/
theorem trailing_zeros (ds : List Nat) :
    ∃ k, ds = (ds.reverse.dropWhile (· == 0)).reverse ++ List.replicate k 0 := by
  have split := List.takeWhile_append_dropWhile (p := (· == 0)) (l := ds.reverse)
  have zeros : ds.reverse.takeWhile (· == 0) =
      List.replicate (ds.reverse.takeWhile (· == 0)).length 0 := by
    apply List.eq_replicate_iff.mpr
    refine ⟨rfl, fun d member => ?_⟩
    exact beq_iff_eq.mp (List.all_eq_true.mp List.all_takeWhile d member)
  refine ⟨(ds.reverse.takeWhile (· == 0)).length, ?_⟩
  rw [zeros] at split
  rw [← List.reverse_replicate, ← List.reverse_append, split, List.reverse_reverse]

/-- Digits in normal form that spell a number of the given magnitude. -/
structure Digits.Spells (d : Digits) (m : Nat) : Prop where
  digits : Numeral.AreDigits d.digits
  first : ∃ c ds, d.digits = c :: ds ∧ 0 < c
  reads : d.decimal.readsAs m = true
  low : -331 ≤ d.leading
  high : d.leading ≤ 309

theorem length_toDigits_numberOf {ds : List Nat} (digits : Numeral.AreDigits ds)
    (first : ∃ c rest, ds = c :: rest ∧ 0 < c) :
    (Nat.toDigits 10 (Numeral.numberOf ds)).length = ds.length := by
  obtain ⟨c, rest, rfl, nonzero⟩ := first
  have upper := Numeral.numberOf_lt digits
  have lower : 10 ^ rest.length ≤ Numeral.numberOf (c :: rest) := by
    rw [Numeral.numberOf_cons]
    exact Nat.le_add_right_of_le (Nat.le_mul_of_pos_left _ nonzero)
  have positive : 0 < Numeral.numberOf (c :: rest) :=
    Nat.lt_of_lt_of_le (Nat.pow_pos (by decide)) lower
  obtain ⟨least, most⟩ := length_toDigits_bounds positive
  have less := (Nat.pow_lt_pow_iff_right (by decide)).mp (Nat.lt_of_le_of_lt least upper)
  have more := (Nat.pow_lt_pow_iff_right (by decide)).mp (Nat.lt_of_le_of_lt lower most)
  rw [List.length_cons] at less ⊢
  omega

theorem toDigits_split (d : Decimal) :
    ∃ k, Numeral.digitsOf d.digits = d.toDigits.digits ++ List.replicate k 0 :=
  trailing_zeros (Numeral.digitsOf d.digits)

theorem toDigits_first {d : Decimal} (positive : 0 < d.digits) :
    ∃ c ds, d.toDigits.digits = c :: ds ∧ 0 < c := by
  obtain ⟨k, split⟩ := toDigits_split d
  obtain ⟨c, ds, form, head⟩ := Numeral.digitsOf_head positive
  rw [form] at split
  cases shape : d.toDigits.digits with
  | nil =>
    rw [shape, List.nil_append] at split
    have zero := List.eq_of_mem_replicate (split ▸ List.mem_cons_self)
    omega
  | cons c' ds' =>
    rw [shape, List.cons_append] at split
    exact ⟨c', ds', rfl, (List.cons.inj split).1 ▸ head⟩

/-- Taking a decimal apart into digits does not change what it reads as. -/
theorem toDigits_readsAs (d : Decimal) (m : Nat) : d.toDigits.decimal.readsAs m = d.readsAs m := by
  obtain ⟨k, split⟩ := toDigits_split d
  have leading : d.toDigits.leading = d.exponent + (Numeral.digitsOf d.digits).length - 1 := rfl
  have number : d.toDigits.decimal.digits * 10 ^ k = d.digits := by
    have whole := Numeral.numberOf_digitsOf d.digits
    rwa [split, Numeral.numberOf_append, Numeral.numberOf_zeros, List.length_replicate] at whole
  have exponent : d.toDigits.decimal.exponent = d.exponent + k := by
    have length := congrArg List.length split
    rw [List.length_append, List.length_replicate] at length
    simp only [Digits.decimal, leading]
    omega
  rw [Decimal.readsAs, Decimal.readsAs, exponent, ← ofDecimal_shift, number]

/-- The digits of a decimal spell what it reads as. -/
theorem toDigits_spells {d : Decimal} (reads : d.readsAs m = true) (nonzero : 0 < m)
    (finite : m < infiniteMagnitude) : d.toDigits.Spells m := by
  have first := toDigits_first (readsAs_bounds reads nonzero finite).1
  have digits : Numeral.AreDigits d.toDigits.digits := by
    obtain ⟨k, split⟩ := toDigits_split d
    intro c member
    apply Numeral.areDigits_digitsOf d.digits c
    rw [split]
    exact List.mem_append_left _ member
  rw [← toDigits_readsAs] at reads
  obtain ⟨-, low, high⟩ := readsAs_bounds reads nonzero finite
  simp only [Digits.decimal, length_toDigits_numberOf digits first] at low high
  exact ⟨digits, first, reads, by omega, by omega⟩

end Binary64
end ScriptEngine
