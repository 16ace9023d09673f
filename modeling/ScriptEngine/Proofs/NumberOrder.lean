import ScriptEngine.Proofs.Narrowing
import ScriptEngine.Value.Operators

/-! How numbers compare. Two integers compare exactly, an integer and a real as reals.
Rounding an integer to a real keeps the order, and it keeps integers apart below
2 ^ 53; from there on several fall together. So a real can equal two different
integers, and comparison is transitive except across such a real. -/
namespace ScriptEngine

namespace Binary64

variable {a b den : Nat}

/-! ### Rounding keeps the order -/

theorem divideNearest_bounds (num den : Nat) :
    num / den ≤ divideNearest num den ∧ divideNearest num den ≤ num / den + 1 := by
  simp only [divideNearest]
  split_ifs <;> constructor <;> omega

theorem divideNearest_mono (le : a ≤ b) : divideNearest a den ≤ divideNearest b den := by
  have quotients : a / den ≤ b / den := Nat.div_le_div_right le
  rcases Nat.lt_or_eq_of_le quotients with less | same
  · calc divideNearest a den
      _ ≤ a / den + 1 := (divideNearest_bounds a den).2
      _ ≤ b / den := less
      _ ≤ divideNearest b den := (divideNearest_bounds b den).1
  · -- Within one step the remainders decide, and they are in the same order.
    have remainders : a % den ≤ b % den := by
      have splitA := Nat.div_add_mod a den
      have splitB := Nat.div_add_mod b den
      rw [same] at splitA
      omega
    simp only [divideNearest, same]
    split_ifs <;> omega

theorem excess_mono (bits : Nat) (le : a ≤ b) : excess bits a ≤ excess bits b := by
  simp only [excess, Nat.one_shiftLeft]
  split_ifs with smallA smallB smallB
  · exact Nat.le_refl 0
  · exact Nat.zero_le _
  · exact absurd (Nat.lt_of_le_of_lt le smallB) smallA
  · have positive := Nat.two_pow_pos (bits + 1)
    have logs : a.log2 ≤ b.log2 := by
      apply (Nat.le_log2 (by omega)).mpr
      exact Nat.le_trans (Nat.log2_self_le (by omega)) le
    exact Nat.sub_le_sub_right logs bits

/-- The magnitude field nearest to a size in units, if nothing overflowed. -/
def nearestField (steps : Nat) : Nat :=
  excess 52 steps * 2 ^ 52 + divideNearest steps (2 ^ excess 52 steps)

theorem roundMagnitude_one (steps : Nat) :
    roundMagnitude steps 1 = min (nearestField steps) infiniteMagnitude := by
  have shift : (if steps / 1 < 1 <<< 53 then 0 else (steps / 1).log2 - 52) = excess 52 steps := by
    rw [Nat.div_one]
    rfl
  unfold roundMagnitude
  simp only [shift]
  rw [Nat.one_shiftLeft, Nat.shiftLeft_eq, nearestField]

theorem quotient_lt (steps : Nat) : steps / 2 ^ excess 52 steps < 2 ^ 53 := by
  by_cases small : steps < 2 ^ 53
  · exact Nat.lt_of_le_of_lt (Nat.div_le_self _ _) small
  · exact (leading_bits (Nat.not_lt.mp small)).2.2

theorem nearestField_mono (le : a ≤ b) : nearestField a ≤ nearestField b := by
  rcases Nat.lt_or_eq_of_le (excess_mono 52 le) with less | same
  · -- The larger size lies in a higher binade; rounding up reaches the next one at most.
    have large : 2 ^ 53 ≤ b := by
      apply Nat.not_lt.mp
      intro small
      have none : excess 52 b = 0 := excess_eq_zero small
      omega
    have top := (divideNearest_bounds a (2 ^ excess 52 a)).2
    have bottom := (divideNearest_bounds b (2 ^ excess 52 b)).1
    have below := quotient_lt a
    have above := (leading_bits large).2.1
    unfold nearestField
    omega
  · unfold nearestField
    rw [same]
    exact Nat.add_le_add_left (divideNearest_mono le) _

theorem roundMagnitude_mono (le : a ≤ b) : roundMagnitude a 1 ≤ roundMagnitude b 1 := by
  rw [roundMagnitude_one, roundMagnitude_one]
  have fields := nearestField_mono le
  omega

/-! ### Small integers are exact -/

/-- A size of few leading bits loses nothing by rounding. -/
theorem expand_roundMagnitude {n u : Nat} (small : n < 2 ^ 53) (bounded : u ≤ 1127) :
    expand 52 (roundMagnitude (n * 2 ^ u) 1) = n * 2 ^ u := by
  generalize sized : n * 2 ^ u = steps
  have dropped : excess 52 steps ≤ u := by
    by_cases fits : steps < 2 ^ 53
    · have none : excess 52 steps = 0 := excess_eq_zero fits
      omega
    · have bound : steps < 2 ^ (53 + u) := by
        rw [← sized, Nat.pow_add]
        exact Nat.mul_lt_mul_of_pos_right small (Nat.two_pow_pos u)
      have nonzero : steps ≠ 0 := by
        have := Nat.two_pow_pos 53
        omega
      have log := (Nat.log2_lt nonzero).mpr bound
      simp only [excess, Nat.one_shiftLeft, if_neg fits]
      omega
  have whole : steps % 2 ^ excess 52 steps = 0 := by
    apply Nat.mod_eq_zero_of_dvd
    rw [← sized]
    exact Nat.dvd_mul_left_of_dvd (Nat.pow_dvd_pow 2 (sized ▸ dropped)) n
  have finite : compress 52 steps < infiniteMagnitude := by
    have leading := quotient_lt steps
    have infinite : infiniteMagnitude = 2047 * 2 ^ 52 := rfl
    rw [compress_eq, infinite]
    omega
  have same : expand 52 (compress 52 steps) = steps := expand_compress whole
  have rounded := roundMagnitude_expand finite
  rw [same] at rounded
  rw [rounded, same]

theorem roundMagnitude_lt {u : Nat} (less : a < b) (small : a < 2 ^ 53) (bounded : u ≤ 1074) :
    roundMagnitude (a * 2 ^ u) 1 < roundMagnitude (b * 2 ^ u) 1 := by
  have next : expand 52 (roundMagnitude ((a + 1) * 2 ^ u) 1) = (a + 1) * 2 ^ u := by
    rcases Nat.lt_or_eq_of_le (Nat.succ_le_of_lt small) with inside | edge
    · exact expand_roundMagnitude inside (by omega)
    · -- The first number with one bit too many is a power of two.
      have power : (a + 1) * 2 ^ u = 1 * 2 ^ (53 + u) := by
        rw [show a + 1 = 2 ^ 53 from edge, Nat.one_mul, Nat.pow_add]
      rw [power]
      exact expand_roundMagnitude (by decide) (by omega)
  have here := expand_roundMagnitude small (show u ≤ 1127 by omega)
  have apart : roundMagnitude (a * 2 ^ u) 1 ≠ roundMagnitude ((a + 1) * 2 ^ u) 1 := by
    intro same
    rw [same, next, Nat.succ_mul] at here
    have := Nat.two_pow_pos u
    omega
  calc roundMagnitude (a * 2 ^ u) 1
    _ < roundMagnitude ((a + 1) * 2 ^ u) 1 :=
      Nat.lt_of_le_of_ne (roundMagnitude_mono (Nat.mul_le_mul_right _ (Nat.le_succ a))) apart
    _ ≤ roundMagnitude (b * 2 ^ u) 1 := roundMagnitude_mono (Nat.mul_le_mul_right _ less)

/-! ### Integers among the reals -/

theorem fields_ofMagnitude {m : Nat} (negative : Bool) (small : m < 2 ^ 63) :
    (ofMagnitude negative m).isNegative = negative ∧ (ofMagnitude negative m).magnitude = m := by
  have sign : (1 <<< 63 : Nat) = 2 ^ 63 := rfl
  have word : (ofMagnitude negative m).word = if negative then 2 ^ 63 + m else m := by
    have size : UInt64.size = 2 ^ 64 := rfl
    simp only [ofMagnitude, Binary64.word, sign]
    apply UInt64.toNat_ofNat_of_lt'
    rw [size]
    split <;> omega
  simp only [isNegative, magnitude, word, sign]
  cases negative with
  | true =>
    simp only [if_true, Nat.le_add_right, decide_true, Nat.add_mod_left, true_and]
    exact Nat.mod_eq_of_lt small
  | false =>
    simp only [Bool.false_eq_true, if_false, decide_eq_false_iff_not]
    exact ⟨Nat.not_le.mpr small, Nat.mod_eq_of_lt small⟩

/-- Up to infinity a magnitude stays clear of the sign. -/
theorem fields_of_le {m : Nat} (negative : Bool) (le : m ≤ infiniteMagnitude) :
    (ofMagnitude negative m).isNegative = negative ∧ (ofMagnitude negative m).magnitude = m := by
  have infinite : infiniteMagnitude < 2 ^ 63 := by decide
  exact fields_ofMagnitude negative (Nat.lt_of_le_of_lt le infinite)

/-- The magnitude of an integer as a real, by its size. -/
def wholeMagnitude (n : Nat) : Nat := roundMagnitude (n * unitsPerOne) 1

theorem unitsPerOne_power : ∃ u ≤ 1074, unitsPerOne = 2 ^ u := by
  -- For any exponent, so that the power itself is never computed.
  have power (n : Nat) : ∃ u ≤ n, 1 <<< n = 2 ^ u := ⟨n, Nat.le_refl n, Nat.one_shiftLeft n⟩
  exact power 1074

theorem unitsPerOne_pos : 0 < unitsPerOne := by
  obtain ⟨u, -, power⟩ := unitsPerOne_power
  exact power ▸ Nat.two_pow_pos u

theorem wholeMagnitude_mono (le : a ≤ b) : wholeMagnitude a ≤ wholeMagnitude b :=
  roundMagnitude_mono (Nat.mul_le_mul_right _ le)

theorem wholeMagnitude_lt (less : a < b) (small : a < 2 ^ 53) :
    wholeMagnitude a < wholeMagnitude b := by
  obtain ⟨u, bounded, power⟩ := unitsPerOne_power
  rw [wholeMagnitude, wholeMagnitude, power]
  exact roundMagnitude_lt less small bounded

/-- Sizes that fall together have more than 53 bits. -/
theorem large_of_wholeMagnitude_eq (less : a < b) (same : wholeMagnitude a = wholeMagnitude b) :
    2 ^ 53 ≤ a := by
  apply Nat.not_lt.mp
  intro small
  exact Nat.ne_of_lt (wholeMagnitude_lt less small) same

theorem fields_ofInt (i : Int) :
    (ofInt i).isNegative = decide (i < 0) ∧ (ofInt i).magnitude = wholeMagnitude i.natAbs ∧
      (ofInt i).isNaN = false := by
  have bound : wholeMagnitude i.natAbs ≤ infiniteMagnitude := by
    rw [wholeMagnitude, roundMagnitude_one]
    exact Nat.min_le_right _ _
  obtain ⟨sign, size⟩ := fields_of_le (decide (i < 0)) bound
  refine ⟨sign, size, ?_⟩
  have same : (ofInt i).magnitude = wholeMagnitude i.natAbs := size
  simp only [isNaN, same, decide_eq_false_iff_not]
  exact Nat.not_lt.mpr bound

theorem rank_ofInt (i : Int) : (ofInt i).rank =
    if i < 0 then -(wholeMagnitude i.natAbs : Int) else wholeMagnitude i.natAbs := by
  obtain ⟨sign, size, -⟩ := fields_ofInt i
  simp only [rank, sign, size, decide_eq_true_eq]

theorem rank_ofInt_mono {i j : Int} (le : i ≤ j) : (ofInt i).rank ≤ (ofInt j).rank := by
  rw [rank_ofInt, rank_ofInt]
  split_ifs with negative negative'
  · have sizes : wholeMagnitude j.natAbs ≤ wholeMagnitude i.natAbs :=
      wholeMagnitude_mono (by omega)
    omega
  · omega
  · omega
  · have sizes : wholeMagnitude i.natAbs ≤ wholeMagnitude j.natAbs :=
      wholeMagnitude_mono (by omega)
    omega

/-- So only integers of more than 53 bits fall together, and with one of their own sign. -/
theorem large_of_rank_eq {i j : Int} (less : i < j) (same : (ofInt i).rank = (ofInt j).rank) :
    2 ^ 53 ≤ i.natAbs ∧ 2 ^ 53 ≤ j.natAbs := by
  rw [rank_ofInt, rank_ofInt] at same
  split_ifs at same with negative negative'
  · have large : 2 ^ 53 ≤ j.natAbs := large_of_wholeMagnitude_eq (b := i.natAbs) (by omega) (by omega)
    omega
  · have positive := wholeMagnitude_lt (show 0 < i.natAbs by omega) (by decide)
    omega
  · omega
  · have large : 2 ^ 53 ≤ i.natAbs := large_of_wholeMagnitude_eq (b := j.natAbs) (by omega) (by omega)
    omega

end Binary64

namespace Value

variable {a b c : Value}

/-! ### Numbers as values -/

/-- An integer, or a real that is a number. -/
def IsNumber : Value → Prop
  | .int _ => True
  | .real x => x.isNaN = false
  | _ => False

/-- What two numbers are compared by. -/
def compared : Value → Value → Int × Int
  | .int x, .int y => (x.toInt, y.toInt)
  | a, b => (a.toReal.rank, b.toReal.rank)

/-- Two integers, the first larger, that equal the same real. -/
def Collapse (a b c : Value) : Prop :=
  ∃ x y z, a = .int x ∧ b = .real y ∧ c = .int z ∧ z.toInt < x.toInt ∧
    a.toReal.rank = y.rank ∧ y.rank = c.toReal.rank

theorem isNaN_toReal (number : a.IsNumber) : a.toReal.isNaN = false := by
  cases a with
  | int x => exact (Binary64.fields_ofInt x.toInt).2.2
  | real x => exact number
  | _ => cases number

theorem order?_numbers (first : a.IsNumber) (second : b.IsNumber) :
    order? a b = some (compare (compared a b).1 (compared a b).2) := by
  have reals : a.toReal.order? b.toReal = some (compare a.toReal.rank b.toReal.rank) := by
    simp [Binary64.order?, isNaN_toReal first, isNaN_toReal second]
  cases a with
  | int x =>
    cases b with
    | int y => rfl
    | real y => exact reals
    | _ => cases second
  | real x =>
    cases b with
    | int | real => exact reals
    | _ => cases second
  | _ => cases first

theorem compared_comm (a b : Value) : compared b a = ((compared a b).2, (compared a b).1) := by
  cases a <;> cases b <;> rfl

theorem equal_numbers (first : a.IsNumber) (second : b.IsNumber) :
    equal a b = (order? a b == some .eq) := by
  cases a with
  | int x | real x =>
    cases b with
    | int | real => rfl
    | _ => cases second
  | _ => cases first

theorem lessOrEqual_iff (first : a.IsNumber) (second : b.IsNumber) :
    lessOrEqual a b = true ↔ (compared a b).1 ≤ (compared a b).2 := by
  simp only [lessOrEqual, order?_numbers first second, Bool.or_eq_true, beq_iff_eq,
    Option.some.injEq, Int.compare_eq_lt, Int.compare_eq_eq]
  omega

theorem less_iff (first : a.IsNumber) (second : b.IsNumber) :
    less a b = true ↔ (compared a b).1 < (compared a b).2 := by
  simp only [less, order?_numbers first second, beq_iff_eq, Option.some.injEq, Int.compare_eq_lt]

theorem equal_iff (first : a.IsNumber) (second : b.IsNumber) :
    equal a b = true ↔ (compared a b).1 = (compared a b).2 := by
  simp only [equal_numbers first second, order?_numbers first second, beq_iff_eq,
    Option.some.injEq, Int.compare_eq_eq]

/-- Whatever two numbers are compared by, their ranks are in the same order. -/
theorem rank_le (first : a.IsNumber) (second : b.IsNumber)
    (le : (compared a b).1 ≤ (compared a b).2) : a.toReal.rank ≤ b.toReal.rank := by
  cases a with
  | int x =>
    cases b with
    | int y => exact Binary64.rank_ofInt_mono le
    | real y => exact le
    | _ => cases second
  | real x => cases b <;> exact le
  | _ => cases first

/-- Numbers that are not both integers are compared by their ranks. -/
theorem compared_of_rank (mixed : ∀ x z, a = .int x → c ≠ .int z) :
    compared a c = (a.toReal.rank, c.toReal.rank) := by
  cases a with
  | int x =>
    cases c with
    | int z => exact absurd rfl (mixed x z rfl)
    | _ => rfl
  | _ => rfl

/-- Comparison goes through a number in the middle, unless it is a real that two integers
fall together in. -/
theorem compared_trans (first : a.IsNumber) (second : b.IsNumber) (third : c.IsNumber)
    (left : (compared a b).1 ≤ (compared a b).2) (right : (compared b c).1 ≤ (compared b c).2) :
    (compared a c).1 ≤ (compared a c).2 ↔ ¬ Collapse a b c := by
  have ranks : a.toReal.rank ≤ c.toReal.rank :=
    Int.le_trans (rank_le first second left) (rank_le second third right)
  constructor
  · rintro le ⟨x, y, z, rfl, rfl, rfl, less, -, -⟩
    exact absurd le (Int.not_le.mpr less)
  · intro apart
    by_cases whole : ∃ x z, a = .int x ∧ c = .int z
    · obtain ⟨x, z, rfl, rfl⟩ := whole
      cases b with
      | int y => exact Int.le_trans left right
      | real y =>
        have above : x.toInt ≤ z.toInt := by
          apply Int.not_lt.mp
          intro less
          have back : (Binary64.ofInt z.toInt).rank ≤ (Binary64.ofInt x.toInt).rank :=
            Binary64.rank_ofInt_mono (Int.le_of_lt less)
          -- The ranks go up and down again, so all three are the same.
          refine apart ⟨x, y, z, rfl, rfl, rfl, less, ?_, ?_⟩
          · exact Int.le_antisymm left (Int.le_trans right back)
          · exact Int.le_antisymm right (Int.le_trans back left)
        exact above
      | _ => cases second
    · rw [compared_of_rank fun x z same same' => whole ⟨x, z, same, same'⟩]
      exact ranks

theorem Collapse.large (collapse : Collapse a b c) :
    ∃ x z : Int64, a = .int x ∧ c = .int z ∧ 2 ^ 53 ≤ x.toInt.natAbs ∧
      2 ^ 53 ≤ z.toInt.natAbs := by
  obtain ⟨x, y, z, rfl, rfl, rfl, less, left, right⟩ := collapse
  have same : (Binary64.ofInt z.toInt).rank = (Binary64.ofInt x.toInt).rank :=
    (left.trans right).symm
  obtain ⟨largeZ, largeX⟩ := Binary64.large_of_rank_eq less same
  exact ⟨x, z, rfl, rfl, largeX, largeZ⟩

/-- Numbers of both kinds, compared in any mixture. Comparison is total, the strict order
is its complement and equality its symmetric part. It is transitive, and equality with it,
except where two integers equal the real between them; those have more than 53 bits. -/
theorem numbers_ordered (a b c : Value) (first : a.IsNumber) (second : b.IsNumber)
    (third : c.IsNumber) :
    (lessOrEqual a b = true ∨ lessOrEqual b a = true) ∧
    (less a b = true ↔ ¬ lessOrEqual b a = true) ∧
    (lessOrEqual a b = true ∧ lessOrEqual b a = true ↔ equal a b = true) ∧
    (lessOrEqual a b = true → lessOrEqual b c = true →
      (lessOrEqual a c = true ↔ ¬ Collapse a b c)) ∧
    (equal a b = true → equal b c = true →
      (equal a c = true ↔ ¬ Collapse a b c ∧ ¬ Collapse c b a)) ∧
    (Collapse a b c → ∃ x z : Int64, a = .int x ∧ c = .int z ∧
      2 ^ 53 ≤ x.toInt.natAbs ∧ 2 ^ 53 ≤ z.toInt.natAbs) := by
  have swapped := compared_comm a b
  rw [lessOrEqual_iff first second, lessOrEqual_iff second first, less_iff first second,
    equal_iff first second, lessOrEqual_iff second third, lessOrEqual_iff first third,
    equal_iff second third, equal_iff first third, swapped]
  refine ⟨by omega, by omega, by omega, compared_trans first second third, ?_, Collapse.large⟩
  intro left right
  have forth := compared_trans first second third (Int.le_of_eq left) (Int.le_of_eq right)
  have back := compared_trans third second first
    (by rw [compared_comm b c]; exact Int.le_of_eq right.symm)
    (by rw [swapped]; exact Int.le_of_eq left.symm)
  rw [compared_comm a c] at back
  rw [← forth, ← back]
  constructor
  · intro same
    exact ⟨Int.le_of_eq same, Int.le_of_eq same.symm⟩
  · rintro ⟨up, down⟩
    exact Int.le_antisymm up down

/-- Two integers of 54 bits that equal one real: comparison goes through it upwards, and
equality does not. -/
theorem numbers_ordered_wide :
    let x : Value := .int 9007199254740992
    let y : Value := .real ⟨0x4340000000000000⟩
    let z : Value := .int 9007199254740993
    lessOrEqual x y = true ∧ lessOrEqual y z = true ∧ ¬ Collapse x y z ∧
      ¬ (¬ Collapse x y z ∧ ¬ Collapse z y x) := by
  intro x y z
  obtain ⟨-, -, -, through, alike, -⟩ := numbers_ordered x y z trivial
    (show Binary64.isNaN _ = false by decide) trivial
  have left : lessOrEqual x y = true := by decide +kernel
  have right : lessOrEqual y z = true := by decide +kernel
  refine ⟨left, right, (through left right).mp (by decide +kernel), fun apart => ?_⟩
  have same : equal x z = true := (alike (by decide +kernel) (by decide +kernel)).mpr apart
  exact absurd same (by decide +kernel)

/-- The first integer of 54 bits that no real equals exactly stands above the integer
before it and equals the same real. -/
theorem wide_integers_collapse :
    let x : Value := .int 9007199254740993
    let y : Value := .real ⟨0x4340000000000000⟩
    let z : Value := .int 9007199254740992
    (lessOrEqual x y = true ∧ lessOrEqual y z = true ∧ lessOrEqual x z = false) ∧
      equal x y = true ∧ equal y z = true ∧ equal x z = false := by
  decide +kernel

end Value
end ScriptEngine
