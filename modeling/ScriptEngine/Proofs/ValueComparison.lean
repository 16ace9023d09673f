import ScriptEngine.Proofs.NumberOrder

/-! How the equalities and the comparisons of values fit together. Identity is the finest
of three equalities and loose equality the coarsest; only a not-a-number real is identical
to itself and equal to nothing. All comparisons are read off one order, which is the same
seen from either side. Two values lack it exactly when they are compared as numbers and one
of them is none. -/
namespace ScriptEngine

variable {n m : Number}

/-! ### The order from the other side -/

theorem map_swap_eq (o : Option Ordering) :
    (o.map Ordering.swap == some Ordering.eq) = (o == some Ordering.eq) := by
  cases o with
  | none => rfl
  | some o => cases o <;> rfl

theorem map_swap_gt (o : Option Ordering) :
    (o.map Ordering.swap == some Ordering.gt) = (o == some Ordering.lt) := by
  cases o with
  | none => rfl
  | some o => cases o <;> rfl

theorem Text.order_swap (s t : Text) : t.order s = (s.order t).swap := by
  induction s generalizing t with
  | nil => cases t <;> rfl
  | cons a s ih =>
    cases t with
    | nil => rfl
    | cons b t =>
      simp only [Text.order]
      split_ifs with below above above
      · exact absurd below (UInt8.not_lt.mpr (UInt8.le_of_lt above))
      · rfl
      · rfl
      · exact ih t

theorem Binary64.order?_swap (x y : Binary64) : y.order? x = (x.order? y).map .swap := by
  simp only [Binary64.order?, Bool.or_comm y.isNaN]
  split
  · rfl
  · rw [Option.map_some, Int.compare_swap]

theorem Number.order?_swap (n m : Number) : m.order? n = (n.order? m).map .swap := by
  cases n with
  | int x =>
    cases m with
    | int y => exact congrArg some (Int.compare_swap _ _).symm
    | real y => exact Binary64.order?_swap _ _
  | real x => cases m <;> exact Binary64.order?_swap _ _

theorem Number.order?_eq_none :
    n.order? m = none ↔ n.toReal.isNaN = true ∨ m.toReal.isNaN = true := by
  have reals : n.toReal.order? m.toReal = none ↔
      n.toReal.isNaN = true ∨ m.toReal.isNaN = true := by
    simp only [Binary64.order?]
    cases n.toReal.isNaN <;> cases m.toReal.isNaN <;> simp
  cases n with
  | int x =>
    cases m with
    | int y =>
      -- Integers are numbers after rounding too.
      simp [Number.order?, Number.toReal, (Binary64.fields_ofInt _).2.2]
    | real y => exact reals
  | real x => cases m <;> exact reals

namespace Value

variable {a b : Value}

/-- A real that is not a number. -/
def IsNaN : Value → Prop
  | .real x => x.isNaN = true
  | _ => False

instance : Decidable (IsNaN a) :=
  match a with
  | .real x => inferInstanceAs (Decidable (x.isNaN = true))
  | .void | .bool _ | .int _ | .string _ | .octet _ | .object _ _ =>
    inferInstanceAs (Decidable False)

/-- Two values that are not both strings, one of which converts to not-a-number. -/
def Unordered (a b : Value) : Prop :=
  ¬(a.kind = .string ∧ b.kind = .string) ∧ (a.toReal.isNaN = true ∨ b.toReal.isNaN = true)

instance : Decidable (Unordered a b) := inferInstanceAs (Decidable (_ ∧ _))

theorem order?_strings (strings : a.kind = .string ∧ b.kind = .string) :
    ∃ s t, a = .string s ∧ b = .string t ∧ order? a b = some (Text.order s t) := by
  cases a with
  | string s =>
    cases b with
    | string t => exact ⟨s, t, rfl, rfl, rfl⟩
    | _ => cases strings.2
  | _ => cases strings.1

theorem order?_mixed (mixed : ¬(a.kind = .string ∧ b.kind = .string)) :
    order? a b = a.toNumber.order? b.toNumber := by
  cases a with
  | string s =>
    cases b with
    | string t => exact absurd ⟨rfl, rfl⟩ mixed
    | _ => rfl
  | _ => rfl

theorem order?_swap (a b : Value) : order? b a = (order? a b).map .swap := by
  by_cases strings : a.kind = .string ∧ b.kind = .string
  · obtain ⟨s, t, rfl, rfl, -⟩ := order?_strings strings
    exact congrArg some (Text.order_swap s t)
  · rw [order?_mixed strings, order?_mixed fun both => strings both.symm]
    exact Number.order?_swap _ _

theorem order?_eq_none : order? a b = none ↔ Unordered a b := by
  by_cases strings : a.kind = .string ∧ b.kind = .string
  · obtain ⟨s, t, rfl, rfl, ordered⟩ := order?_strings strings
    simp [ordered, Unordered, strings]
  · rw [order?_mixed strings, Number.order?_eq_none, Unordered]
    exact (and_iff_right strings).symm

/-! ### Three equalities -/

theorem identical_comm (a b : Value) : identical a b = identical b a :=
  decide_eq_decide.mpr eq_comm

theorem strictEqual_comm (a b : Value) : strictEqual a b = strictEqual b a := by
  cases a with
  | real x =>
    cases b with
    | real y =>
      simp only [strictEqual, Binary64.equal]
      rw [Binary64.order?_swap x y, map_swap_eq]
    | _ => exact identical_comm _ _
  | object x c =>
    cases b with
    | object y d => exact decide_eq_decide.mpr eq_comm
    | _ => exact identical_comm _ _
  | _ => cases b <;> exact identical_comm _ _

theorem equal_comm (a b : Value) : equal a b = equal b a := by
  have numbers : (a.toNumber.order? b.toNumber == some .eq) =
      (b.toNumber.order? a.toNumber == some .eq) := by
    rw [Number.order?_swap a.toNumber, map_swap_eq]
  cases a with
  | object x c => cases b <;> first | rfl | exact decide_eq_decide.mpr eq_comm
  | octet s => cases b <;> first | rfl | exact decide_eq_decide.mpr eq_comm
  | string s => cases b <;> first | rfl | exact numbers | exact decide_eq_decide.mpr eq_comm
  | void | bool | int | real => cases b <;> first | rfl | exact numbers

theorem equal_self (number : ¬a.IsNaN) : equal a a = true := by
  cases a with
  | void => rfl
  | bool x => simp [equal, toNumber, Number.order?]
  | int x => simp [equal, toNumber, Number.order?]
  | real x => simp_all [equal, toNumber, Number.order?, Number.toReal, Binary64.order?, IsNaN]
  | string s => exact decide_eq_true rfl
  | octet s => exact decide_eq_true rfl
  | object x c => exact decide_eq_true rfl

/-- An identical value is strictly equal, a not-a-number apart. -/
theorem strictEqual_of_identical (same : identical a b = true) :
    strictEqual a b = true ↔ ¬a.IsNaN := by
  obtain rfl : a = b := of_decide_eq_true same
  cases a with
  | real x => simp [strictEqual, Binary64.equal, Binary64.order?, IsNaN]
  | _ => simp [strictEqual, IsNaN]

theorem equal_of_strictEqual (same : strictEqual a b = true) : equal a b = true := by
  cases a with
  | real x =>
    cases b with
    | real y => exact same
    | _ => cases same
  | object x c =>
    cases b with
    | object y d => exact same
    | _ => cases same
  | _ =>
    obtain rfl : _ = b := of_decide_eq_true same
    exact equal_self id

/-! ### Four comparisons -/

theorem less_eq_greater (a b : Value) : less a b = greater b a := by
  rw [less, greater, order?_swap a b, map_swap_gt]

theorem lessOrEqual_eq_greaterOrEqual (a b : Value) : lessOrEqual a b = greaterOrEqual b a := by
  rw [lessOrEqual, greaterOrEqual, order?_swap a b, map_swap_gt, map_swap_eq]

/-- Values of all kinds, in any mixture. Identity implies strict equality except for a
not-a-number, strict equality implies loose equality, and all three are symmetric. A
comparison is its mirror image from the other side. No comparison holds of two values without an
order; of all others, one is less, greater, or both at most and at least the other. -/
theorem comparisons_coherent (a b : Value) :
    (identical a b = true → (strictEqual a b = true ↔ ¬a.IsNaN)) ∧
    (strictEqual a b = true → equal a b = true) ∧
    (identical a b = identical b a ∧ strictEqual a b = strictEqual b a ∧ equal a b = equal b a) ∧
    (less a b = greater b a ∧ lessOrEqual a b = greaterOrEqual b a) ∧
    (Unordered a b → less a b = false ∧ greater a b = false ∧
      lessOrEqual a b = false ∧ greaterOrEqual a b = false) ∧
    (¬Unordered a b →
      (less a b = true ∧ greater a b = false ∧ (lessOrEqual a b && greaterOrEqual a b) = false) ∨
      (less a b = false ∧ greater a b = true ∧ (lessOrEqual a b && greaterOrEqual a b) = false) ∨
      (less a b = false ∧ greater a b = false ∧
        (lessOrEqual a b && greaterOrEqual a b) = true)) := by
  refine ⟨strictEqual_of_identical, equal_of_strictEqual,
    ⟨identical_comm a b, strictEqual_comm a b, equal_comm a b⟩,
    ⟨less_eq_greater a b, lessOrEqual_eq_greaterOrEqual a b⟩, ?_, ?_⟩
  · intro unordered
    simp [less, greater, lessOrEqual, greaterOrEqual, order?_eq_none.mpr unordered]
  · intro ordered
    obtain ⟨o, found⟩ := Option.ne_none_iff_exists'.mp (mt order?_eq_none.mp ordered)
    cases o <;> simp [less, greater, lessOrEqual, greaterOrEqual, found]

/-- The two zeros are strictly equal and not identical, a not-a-number is identical to itself
and not equal, and a string that reads as a number is compared as one beside an integer. -/
theorem comparisons_coherent_mixed :
    let zero : Value := .real ⟨0⟩
    let negativeZero : Value := .real ⟨0x8000000000000000⟩
    let nan : Value := .real Binary64.nan
    let word : Value := .string (utf8 "NaN")
    let sixteen : Value := .string (utf8 " 0x10 ")
    (identical zero zero = true ∧ strictEqual zero zero = true) ∧
      (identical nan nan = true ∧ ¬strictEqual nan nan = true) ∧
      (strictEqual zero negativeZero = true ∧ equal zero negativeZero = true) ∧
      (Unordered word (.int 1) ∧ less word (.int 1) = false ∧ greater word (.int 1) = false) ∧
      ¬Unordered sixteen (.int 16) ∧ lessOrEqual sixteen (.int 16) = true := by
  intro zero negativeZero nan word sixteen
  have same : identical zero zero = true := by decide
  have notNumber : identical nan nan = true := by decide
  have zeros : strictEqual zero negativeZero = true := by decide
  have unordered : Unordered word (.int 1) := by decide +kernel
  have ordered : ¬Unordered sixteen (.int 16) := by decide +kernel
  obtain ⟨-, -, -, -, none, -⟩ := comparisons_coherent word (.int 1)
  refine ⟨⟨same, ((comparisons_coherent zero zero).1 same).mpr (by decide)⟩,
    ⟨notNumber, fun equal => ((comparisons_coherent nan nan).1 notNumber).mp equal (by decide)⟩,
    ⟨zeros, (comparisons_coherent zero negativeZero).2.1 zeros⟩,
    ⟨unordered, (none unordered).1, (none unordered).2.1⟩, ordered, ?_⟩
  obtain ⟨-, -, -, -, -, one⟩ := comparisons_coherent sixteen (.int 16)
  have different : less sixteen (.int 16) = false := by decide +kernel
  have different' : greater sixteen (.int 16) = false := by decide +kernel
  rcases one ordered with ⟨less, -, -⟩ | ⟨-, greater, -⟩ | ⟨-, -, both⟩
  · exact absurd less (by rw [different]; decide)
  · exact absurd greater (by rw [different']; decide)
  · exact (Bool.and_eq_true_iff.mp both).1

end Value
end ScriptEngine
