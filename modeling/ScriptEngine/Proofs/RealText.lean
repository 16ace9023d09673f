import ScriptEngine.Proofs.DecimalRounding

/-! Reals as text. Every layout of the printed digits, around a point or before an exponent, is
read as the decimal that the digits spell; a point or an exponent keeps the text from being read
as an integer. So a real comes back from its text as the same number. -/
namespace ScriptEngine

namespace Numeral

open Binary64 (digitText)

variable {ds whole fraction : List Nat} {body rest : Text} {negative : Bool}

/-! ### Reading digits, a point and an exponent -/

/-- A significand after more digits. -/
def Significand.take (s : Significand) (ds : List Nat) : Significand :=
  { s with
    digits := s.digits * 10 ^ ds.length + numberOf ds
    anyDigit := s.anyDigit || !ds.isEmpty
    places := if s.point then s.places + ds.length else s.places }

theorem Significand.take_push (s : Significand) (d : Nat) (ds : List Nat) :
    (s.push 10 d).take ds = s.take (d :: ds) := by
  simp only [take, push, numberOf_cons, List.length_cons, List.isEmpty_cons, Nat.pow_succ,
    Bool.true_or, Bool.not_false, Bool.or_true]
  congr 1
  · ring
  · split <;> omega

theorem read_digitText (digits : AreDigits ds) (s : Significand) (rest : Text) :
    Significand.read 10 s (digitText ds ++ rest) = Significand.read 10 (s.take ds) rest := by
  induction ds generalizing s with
  | nil => simp [digitText, Significand.take, numberOf]
  | cons d ds ih =>
    have byte := digitByte (digits d List.mem_cons_self)
    have value : (d + 48).toUInt8.toNat - 48 = d := by rw [byte.size]; omega
    rw [digitText, List.map_cons, List.cons_append, Significand.read, if_neg byte.separator,
      if_neg byte.point, if_pos byte.isDigit, value, ← Significand.take_push]
    exact ih (fun d member => digits d (List.mem_cons_of_mem _ member)) _

/-- Digits with a point before the fraction, if there is one. -/
def pointed (whole fraction : List Nat) : Text :=
  digitText whole ++ if fraction = [] then [] else 0x2e :: digitText fraction

theorem read_pointed (first : AreDigits whole) (second : AreDigits fraction) (nonempty : whole ≠ [])
    (rest : Text) :
    Significand.read 10 {} (pointed whole fraction ++ rest) =
      Significand.read 10 ⟨numberOf (whole ++ fraction), true, !fraction.isEmpty, fraction.length⟩
        rest := by
  have some : whole.isEmpty = false := by simpa using nonempty
  rw [pointed, List.append_assoc, read_digitText first]
  by_cases none : fraction = []
  · subst none
    simp [Significand.take, some]
  · have more : fraction.isEmpty = false := by simpa using none
    rw [if_neg none, List.cons_append, Significand.read, if_neg (by decide), if_pos rfl]
    simp only [Significand.take, Bool.false_eq_true, if_false]
    rw [read_digitText second, numberOf_append]
    simp [Significand.take, some, more]

theorem decimal?_pointed (first : AreDigits whole) (second : AreDigits fraction)
    (nonempty : whole ≠ []) (negative : Bool) :
    decimal? negative (pointed whole fraction) =
      finiteDecimal? negative (numberOf (whole ++ fraction)) (-(fraction.length : Int)) := by
  have read := read_pointed first second nonempty []
  rw [List.append_nil] at read
  simp [decimal?, read, Significand.read]

/-- Digits of an exponent below ten thousand are all taken up. -/
theorem exponentDigits_digitText (digits : AreDigits ds) (value : Nat)
    (small : value * 10 ^ ds.length + numberOf ds < 10000) :
    exponentDigits value (digitText ds) = (value * 10 ^ ds.length + numberOf ds, []) := by
  induction ds generalizing value with
  | nil => simp [digitText, exponentDigits, numberOf]
  | cons d ds ih =>
    have byte := digitByte (digits d List.mem_cons_self)
    have digit : (d + 48).toUInt8.toNat - 48 = d := by rw [byte.size]; omega
    have next : value * 10 ^ (d :: ds).length + numberOf (d :: ds) =
        (value * 10 + d) * 10 ^ ds.length + numberOf ds := by
      rw [numberOf_cons, List.length_cons, Nat.pow_succ]
      ring
    have below : value < 10000 := by
      have power : 0 < 10 ^ (d :: ds).length := Nat.pow_pos (by decide)
      have grown := Nat.le_mul_of_pos_right value power
      omega
    rw [next] at small ⊢
    rw [digitText, List.map_cons, exponentDigits, if_neg byte.separator, if_pos byte.isDigit,
      if_pos below, digit]
    exact ih (fun d member => digits d (List.mem_cons_of_mem _ member)) _ small

/-- An exponent with its letter and sign, zeros before its digits. -/
def exponentText (padding : Nat) (e : Int) : Text :=
  0x65 :: (if e < 0 then 0x2d else 0x2b) :: (List.replicate padding 0x30 ++ Text.ofNat e.natAbs)

theorem exponent?_text (padding : Nat) {e : Int} (small : e.natAbs < 10000) :
    exponent? ((if e < 0 then 0x2d else 0x2b) ::
      (List.replicate padding 0x30 ++ Text.ofNat e.natAbs)) = some (e, []) := by
  have digits := (areDigits_zeros padding).append (areDigits_digitsOf e.natAbs)
  have number : numberOf (List.replicate padding 0 ++ digitsOf e.natAbs) = e.natAbs := by
    rw [numberOf_append, numberOf_zeros, Nat.zero_mul, Nat.zero_add, numberOf_digitsOf]
  have read := exponentDigits_digitText digits 0 (by rw [number]; omega)
  rw [number, Nat.zero_mul, Nat.zero_add] at read
  rw [ofNat_eq, ← digitText_zeros, ← digitText_append]
  obtain ⟨d, ds, form⟩ : ∃ d ds, List.replicate padding 0 ++ digitsOf e.natAbs = d :: ds := by
    apply List.exists_cons_of_ne_nil
    simp [digitsOf_ne_nil]
  rw [form] at digits read ⊢
  have byte := digitByte (digits d List.mem_cons_self)
  have marked : unsigned ((if e < 0 then 0x2d else 0x2b) :: digitText (d :: ds)) =
      digitText (d :: ds) := by
    split <;> rfl
  rw [exponent?, marked]
  simp only [digitText, List.map_cons] at read ⊢
  simp only [byte.isDigit, if_true, read, List.head?_cons]
  by_cases minus : e < 0
  · have size : -(e.natAbs : Int) = e := by omega
    simp only [if_pos minus, if_true, size]
  · have size : (e.natAbs : Int) = e := by omega
    have plus : (0x2b : UInt8) ≠ 0x2d := by decide
    simp only [if_neg minus, Option.some.injEq, plus, if_false, size]

theorem decimal?_exponent (first : AreDigits whole) (second : AreDigits fraction)
    (nonempty : whole ≠ []) (negative : Bool) (padding : Nat) {e : Int} (small : e.natAbs < 10000) :
    decimal? negative (pointed whole fraction ++ exponentText padding e) =
      finiteDecimal? negative (numberOf (whole ++ fraction)) (e - fraction.length) := by
  have read := read_pointed first second nonempty (exponentText padding e)
  have stop (s : Significand) : Significand.read 10 s (exponentText padding e) =
      (s, exponentText padding e) := rfl
  rw [stop] at read
  have letter : lower 0x65 = 0x65 := rfl
  simp only [decimal?, read]
  simp [exponentText, letter, exponent?_text padding small]

/-! ### Decimal texts -/

/-- The bytes that decimals are written with. -/
def decimalBytes : List UInt8 :=
  [0x30, 0x31, 0x32, 0x33, 0x34, 0x35, 0x36, 0x37, 0x38, 0x39, 0x2e, 0x65, 0x2b, 0x2d]

/-- What holds of each of the bytes, by running through them. -/
theorem forall_decimalBytes {p : UInt8 → Prop} [DecidablePred p]
    (all : decimalBytes.all (fun c => p c) = true) : ∀ c ∈ decimalBytes, p c :=
  fun c member => of_decide_eq_true (List.all_eq_true.mp all c member)

theorem decimalBytes_lower : ∀ c ∈ decimalBytes, lower c = c := forall_decimalBytes (by decide)

theorem decimalBytes_plain : ∀ c ∈ decimalBytes, c < 0x80 ∧ isBlank c.toNat = false :=
  forall_decimalBytes (by decide)

/-- A text that may be an unsigned decimal. -/
structure IsDecimal (body : Text) : Prop where
  bytes : ∀ c ∈ body, c ∈ decimalBytes
  nonempty : body ≠ []
  first : ∀ c, body.head? = some c → ¬(c = 0x2b ∨ c = 0x2d)

theorem IsDecimal.bytes_signed (decimal : IsDecimal body) (negative : Bool) :
    ∀ c ∈ signed negative body, c ∈ decimalBytes :=
  forall_signed negative (by decide) decimal.bytes

theorem map_lower {t : Text} (bytes : ∀ c ∈ t, c ∈ decimalBytes) : t.map lower = t := by
  rw [List.map_congr_left fun c member => decimalBytes_lower c (bytes c member), List.map_id']

/-- A decimal is none of the words for numbers: these begin with other letters. -/
theorem word?_signed (decimal : IsDecimal body) (negative : Bool) :
    word? (signed negative body) = none := by
  have apart {t name : Text} {c : UInt8} (bytes : ∀ c ∈ t, c ∈ decimalBytes) (member : c ∈ name)
      (other : c ∉ decimalBytes) : t ≠ name := by
    rintro rfl
    exact other (bytes c member)
  have infinity : ¬(body = utf8 "inf" ∨ body = utf8 "infinity") := by
    rintro (same | same)
    · exact apart (c := 0x69) decimal.bytes (by decide) (by decide) same
    · exact apart (c := 0x69) decimal.bytes (by decide) (by decide) same
  have nan : signed negative body ≠ utf8 "nan" :=
    apart (c := 0x6e) (decimal.bytes_signed negative) (by decide) (by decide)
  simp only [word?, unsigned_signed negative decimal.first, map_lower decimal.bytes,
    map_lower (decimal.bytes_signed negative), if_neg infinity, if_neg nan]

theorem real?_signed (decimal : IsDecimal body) (negative : Bool) :
    real? (signed negative body) = decimal? negative body := by
  have grouped : (signed negative body).contains 0x5f = false := by
    rw [← Bool.not_eq_true, List.contains_iff_mem]
    intro member
    exact absurd (decimal.bytes_signed negative _ member) (by decide)
  have minus : decide ((signed negative body).head? = some 0x2d) = negative := by
    rw [Bool.eq_iff_iff, decide_eq_true_eq]
    exact head?_signed negative decimal.first
  simp only [real?, word?_signed decimal negative, grouped, Bool.false_and, Bool.false_eq_true,
    if_false, minus, unsigned_signed negative decimal.first]
  split
  next c d rest =>
    have letter : lower c ≠ 0x78 := by
      have member := decimal.bytes c (List.mem_cons_of_mem _ List.mem_cons_self)
      rw [decimalBytes_lower c member]
      rintro rfl
      exact absurd member (by decide)
    rw [if_neg letter]
  · rfl

/-! ### A point or an exponent is no part of an integer -/

theorem digitsValue?_eq_none {base value : Nat} {t : Text} {c : UInt8} (member : c ∈ t)
    (mark : c = 0x2e ∨ c = 0x65) (small : base ≤ 14) : digitsValue? base value t = none := by
  induction t generalizing value with
  | nil => cases member
  | cons b t ih =>
    rw [digitsValue?]
    rcases List.mem_cons.mp member with rfl | member
    · rcases mark with rfl | rfl
      · rfl
      · have letter : digitValue? 0x65 = some 14 := rfl
        simp [letter, Nat.not_lt.mpr small]
    · split_ifs with separator
      · exact ih member
      · split
        · split
          · exact ih member
          · rfl
        · rfl

/-- No base letter is found, so the mark stays among the digits. -/
theorem splitBase_decimal (bytes : ∀ c ∈ body, c ∈ decimalBytes) {c : UInt8} (member : c ∈ body)
    (mark : c = 0x2e ∨ c = 0x65) : (splitBase body).1 ≤ 14 ∧ c ∈ (splitBase body).2 := by
  have behind {t : Text} (member : c ∈ 0x30 :: t) : c ∈ t := by
    rcases List.mem_cons.mp member with rfl | member
    · exact absurd mark (by decide)
    · exact member
  have letters : ∀ b ∈ decimalBytes, lower b ≠ 0x62 ∧ lower b ≠ 0x6f ∧ lower b ≠ 0x78 :=
    forall_decimalBytes (by decide)
  unfold splitBase
  split
  next b d rest =>
    obtain ⟨binary, octal, hexadecimal⟩ :=
      letters b (bytes b (List.mem_cons_of_mem _ List.mem_cons_self))
    rw [if_neg binary, if_neg octal, if_neg hexadecimal]
    exact ⟨(by decide : 8 ≤ 14), behind member⟩
  next rest _ => exact ⟨(by decide : 8 ≤ 14), behind member⟩
  · exact ⟨(by decide : 10 ≤ 14), member⟩

theorem int64?_signed_eq_none (decimal : IsDecimal body) (negative : Bool) {c : UInt8}
    (member : c ∈ body) (mark : c = 0x2e ∨ c = 0x65) : int64? (signed negative body) = none := by
  obtain ⟨small, kept⟩ := splitBase_decimal decimal.bytes member mark
  have natural : natural? body = none := by
    rw [natural?, if_neg decimal.nonempty]
    exact digitsValue?_eq_none kept mark small
  simp [int64?, integer?, unsigned_signed negative decimal.first, natural]

theorem ofText_decimal (decimal : IsDecimal body) {c : UInt8} (member : c ∈ body)
    (mark : c = 0x2e ∨ c = 0x65) {x : Binary64} (read : decimal? negative body = some x) :
    Number.ofText (signed negative body) = .real x := by
  have plain : (signed negative body).IsPlain := fun c member =>
    decimalBytes_plain c (decimal.bytes_signed negative c member)
  have nonempty := signed_ne_nil negative decimal.nonempty
  rw [Number.ofText, Text.trimmed_plain plain nonempty, if_neg nonempty,
    int64?_signed_eq_none decimal negative member mark, real?_signed decimal negative, read]

theorem mem_decimalBytes (digits : AreDigits ds) : ∀ c ∈ digitText ds, c ∈ decimalBytes := by
  have each : ∀ d < 10, (d + 48).toUInt8 ∈ decimalBytes := by decide
  intro c member
  obtain ⟨d, present, rfl⟩ := List.mem_map.mp member
  exact each d (digits d present)

theorem isDecimal_pointed (first : AreDigits whole) (second : AreDigits fraction)
    (nonempty : whole ≠ []) : IsDecimal (pointed whole fraction) := by
  obtain ⟨d, ds, rfl⟩ := List.exists_cons_of_ne_nil nonempty
  refine ⟨?_, List.cons_ne_nil _ _, ?_⟩
  · intro c member
    rcases List.mem_append.mp member with member | member
    · exact mem_decimalBytes first c member
    · split at member
      · cases member
      · rcases List.mem_cons.mp member with rfl | member
        · decide
        · exact mem_decimalBytes second c member
  · rintro c ⟨⟩
    exact (digitByte (first d List.mem_cons_self)).sign

theorem IsDecimal.append_exponent (decimal : IsDecimal body) (padding : Nat) (e : Int) :
    IsDecimal (body ++ exponentText padding e) := by
  obtain ⟨c, rest, rfl⟩ := List.exists_cons_of_ne_nil decimal.nonempty
  refine ⟨?_, List.cons_ne_nil _ _, decimal.first⟩
  intro c member
  rcases List.mem_append.mp member with member | member
  · exact decimal.bytes c member
  rcases List.mem_cons.mp member with rfl | member
  · decide
  rcases List.mem_cons.mp member with rfl | member
  · split <;> decide
  rcases List.mem_append.mp member with zero | member
  · rw [List.eq_of_mem_replicate zero]
    decide
  · rw [ofNat_eq] at member
    exact mem_decimalBytes (areDigits_digitsOf _) c member

end Numeral

namespace Binary64

open Numeral (pointed exponentText signed numberOf AreDigits)

variable {d : Digits} {m : Nat} {negative : Bool}

/-! ### The layouts of printed digits -/

theorem positional_below (nonempty : d.digits ≠ []) (below : d.leading < 0) :
    positional d = pointed [0] (List.replicate (d.leading.natAbs - 1) 0 ++ d.digits) := by
  have some : List.replicate (d.leading.natAbs - 1) 0 ++ d.digits ≠ [] := by simp [nonempty]
  rw [positional, if_pos below, pointed, if_neg some, Numeral.digitText_append,
    Numeral.digitText_zeros, List.append_assoc]
  rfl

theorem positional_above (above : ¬d.leading < 0) :
    positional d = pointed (d.digits.take (d.leading.toNat + 1) ++
        List.replicate (d.leading.toNat + 1 - d.digits.length) 0)
      (d.digits.drop (d.leading.toNat + 1)) := by
  rw [positional, if_neg above, pointed, Numeral.digitText_append, Numeral.digitText_zeros]
  dsimp only
  cases d.digits.drop (d.leading.toNat + 1) <;> rfl

theorem exponentForm_eq (layout : Layout) (d : Digits) :
    layout.exponentForm d = pointed (d.digits.take 1) (d.digits.drop 1) ++
      exponentText (layout.exponentWidth - (Text.ofNat d.leading.natAbs).length) d.leading := by
  rw [Layout.exponentForm, pointed, exponentText]
  cases d.digits.drop 1 <;> simp

/-! ### Printed digits read back -/

theorem Digits.Spells.nonempty (spells : d.Spells m) : d.digits ≠ [] := by
  obtain ⟨c, ds, form, -⟩ := spells.first
  exact form ▸ List.cons_ne_nil c ds

/-- What a finite number may be read as from a text: itself where there is a point or an
exponent, otherwise the integer of the same value. -/
def ReadsBack (x : Binary64) (t : Text) : Prop :=
  if 0x2e ∈ t ∨ 0x65 ∈ t then Number.ofText t = .real x
  else ∃ i : Int64, Number.ofText t = .int i ∧ x.signedUnits = i.toInt * unitsPerOne

theorem ReadsBack.of_decimal {x : Binary64} {body : Text} (decimal : Numeral.IsDecimal body)
    {c : UInt8} (member : c ∈ body) (mark : c = 0x2e ∨ c = 0x65)
    (read : Numeral.decimal? negative body = some x) : x.ReadsBack (signed negative body) := by
  have present : c ∈ signed negative body := by
    cases negative with
    | true => exact List.mem_cons_of_mem _ member
    | false => exact member
  rw [ReadsBack, if_pos]
  · exact Numeral.ofText_decimal decimal member mark read
  · rcases mark with rfl | rfl
    · exact .inl present
    · exact .inr present

/-- Digits alone are read as an integer, `-0` as zero. -/
theorem ReadsBack.of_digits {x : Binary64} {ds : List Nat} {n : Nat} (digits : AreDigits ds)
    (nonempty : ds ≠ []) (natural : Numeral.natural? (digitText ds) = some n) (small : n < 2 ^ 63)
    (size : x.units = n * unitsPerOne) : x.ReadsBack (signed x.isNegative (digitText ds)) := by
  have unmarked : ∀ c ∈ signed x.isNegative (digitText ds), ¬(c = 0x2e ∨ c = 0x65) := by
    refine Numeral.forall_signed _ (by decide) fun c member => ?_
    obtain ⟨d, byte⟩ := Numeral.mem_digitText digits member
    rintro (rfl | rfl)
    · exact absurd byte.isDigit (by decide)
    · exact absurd byte.isDigit (by decide)
  have plain : (signed x.isNegative (digitText ds)).IsPlain :=
    Numeral.forall_signed _ (by decide) (Numeral.digitText_plain digits)
  have some := Numeral.signed_ne_nil x.isNegative (Numeral.digitText_ne_nil nonempty)
  have read := Numeral.integer?_signed x.isNegative natural
    (fun _ => Numeral.digitText_first digits) (Numeral.digitText_separators digits)
  generalize value : (if x.isNegative = true then -(n : Int) else n) = i at read
  have fits : (Int64.ofInt i).toInt = i := by
    apply Int64.toInt_ofInt_of_le <;> split at value <;> omega
  rw [← fits] at read
  have integral : ¬(0x2e ∈ signed x.isNegative (digitText ds) ∨
      0x65 ∈ signed x.isNegative (digitText ds)) := by
    rintro (point | letter)
    · exact unmarked _ point (.inl rfl)
    · exact unmarked _ letter (.inr rfl)
  rw [ReadsBack, if_neg integral]
  refine ⟨Int64.ofInt i, ?_, ?_⟩
  · rw [Number.ofText, Text.trimmed_plain plain some, if_neg some, Numeral.int64?_of_integer? read]
  · rw [fits, signedUnits, size, ← value]
    split <;> push_cast <;> ring

/-- Digits around a point that form the same number, with as many places as the position of the
digits asks for. -/
theorem readsBack_pointed (spells : d.Spells m) (nonzero : 0 < m) (finite : m < infiniteMagnitude)
    {whole fraction : List Nat} (first : AreDigits whole) (second : AreDigits fraction)
    (nonempty : whole ≠ []) (some : fraction ≠ [])
    (number : numberOf (whole ++ fraction) = numberOf d.digits)
    (places : (fraction.length : Int) = d.digits.length - (d.leading + 1)) :
    (ofMagnitude negative m).ReadsBack (signed negative (pointed whole fraction)) := by
  have point : 0x2e ∈ pointed whole fraction := by simp [pointed, some]
  have exponent : -(fraction.length : Int) = d.decimal.exponent := by
    simp only [Digits.decimal]
    omega
  have read : Numeral.decimal? negative (pointed whole fraction) =
      .some (ofMagnitude negative m) := by
    rw [Numeral.decimal?_pointed first second nonempty, number, exponent]
    exact finiteDecimal?_of_readsAs spells.reads nonzero finite negative
  exact .of_decimal (Numeral.isDecimal_pointed first second nonempty) point (.inl rfl) read

theorem readsBack_exponentForm (spells : d.Spells m) (nonzero : 0 < m)
    (finite : m < infiniteMagnitude) (layout : Layout) (negative : Bool) :
    (ofMagnitude negative m).ReadsBack (signed negative (layout.exponentForm d)) := by
  have first : AreDigits (d.digits.take 1) := fun c member =>
    spells.digits c (List.mem_of_mem_take member)
  have second : AreDigits (d.digits.drop 1) := fun c member =>
    spells.digits c (List.mem_of_mem_drop member)
  have nonempty : d.digits.take 1 ≠ [] := by simpa using spells.nonempty
  have small : d.leading.natAbs < 10000 := by
    have := spells.low
    have := spells.high
    omega
  have exponent : d.leading - (d.digits.drop 1).length = d.decimal.exponent := by
    have := List.length_pos_of_ne_nil spells.nonempty
    simp only [Digits.decimal, List.length_drop]
    omega
  rw [exponentForm_eq]
  refine .of_decimal ((Numeral.isDecimal_pointed first second nonempty).append_exponent _ _)
    (List.mem_append_right _ List.mem_cons_self) (.inr rfl) ?_
  rw [Numeral.decimal?_exponent first second nonempty _ _ small, List.take_append_drop, exponent]
  exact finiteDecimal?_of_readsAs spells.reads nonzero finite negative

/-- A small whole number loses nothing by rounding. -/
theorem units_of_readsAs {n : Nat} {e : Decimal} (reads : e.readsAs m = true)
    (finite : m < infiniteMagnitude) {k : Nat} (exponent : e.exponent = k)
    (number : n = e.digits * 10 ^ k) (small : n < 2 ^ 53) (negative : Bool) :
    (ofMagnitude negative m).units = n * unitsPerOne := by
  have split : e.exponent = (k : Int) - (0 : Nat) := by omega
  rw [Decimal.readsAs, decide_eq_true_eq, split, ofDecimal_sub, magnitude_round, Nat.pow_zero,
    ← number] at reads
  change expand 52 (ofMagnitude negative m).magnitude = _
  rw [(fields_of_le negative (Nat.le_of_lt finite)).2, ← reads]
  obtain ⟨u, bounded, power⟩ := unitsPerOne_power
  rw [power]
  exact expand_roundMagnitude small (by omega)

/-- Digits that reach the units, with zeros where they stop before, form an integer. -/
theorem readsBack_whole (spells : d.Spells m) (finite : m < infiniteMagnitude) {k : Nat}
    (units : (d.digits.length + k : Nat) = d.leading + 1) (small : d.leading < 6) :
    (ofMagnitude negative m).ReadsBack
      (signed negative (digitText (d.digits ++ List.replicate k 0))) := by
  have digits := spells.digits.append (Numeral.areDigits_zeros k)
  have number : numberOf (d.digits ++ List.replicate k 0) = numberOf d.digits * 10 ^ k := by
    rw [Numeral.numberOf_append, Numeral.numberOf_zeros, List.length_replicate, Nat.add_zero]
  have bound : numberOf (d.digits ++ List.replicate k 0) < 10 ^ 6 := by
    apply Nat.lt_of_lt_of_le (Numeral.numberOf_lt digits)
    rw [List.length_append, List.length_replicate]
    exact Nat.pow_le_pow_right (by decide) (by omega)
  have exponent : d.decimal.exponent = k := by
    simp only [Digits.decimal]
    omega
  have size := units_of_readsAs spells.reads finite exponent number
    (Nat.lt_trans bound (by decide)) negative
  have natural : Numeral.natural? (digitText (d.digits ++ List.replicate k 0)) =
      some (numberOf (d.digits ++ List.replicate k 0)) := by
    obtain ⟨c, ds, form, positive⟩ := spells.first
    rw [form] at digits ⊢
    exact Numeral.natural?_digitText digits positive
  have sign := (fields_of_le negative (Nat.le_of_lt finite)).1
  have back := ReadsBack.of_digits digits (by simp [spells.nonempty]) natural
    (Nat.lt_trans bound (by decide)) size
  rwa [sign] at back

theorem readsBack_positional (spells : d.Spells m) (nonzero : 0 < m)
    (finite : m < infiniteMagnitude) (small : d.leading < 6) (negative : Bool) :
    (ofMagnitude negative m).ReadsBack (signed negative (positional d)) := by
  by_cases below : d.leading < 0
  · rw [positional_below spells.nonempty below]
    apply readsBack_pointed spells nonzero finite (Numeral.areDigits_zeros 1)
      ((Numeral.areDigits_zeros _).append spells.digits) (List.cons_ne_nil _ _)
    · simp [spells.nonempty]
    · rw [Numeral.numberOf_append, Numeral.numberOf_append, Numeral.numberOf_zeros,
        Numeral.numberOf_zeros]
      omega
    · rw [List.length_append, List.length_replicate]
      omega
  · rw [positional_above below]
    rcases Nat.lt_or_ge (d.leading.toNat + 1) d.digits.length with inside | short
    · -- There is a fraction, so no zeros are needed before the point.
      have none : d.leading.toNat + 1 - d.digits.length = 0 := by omega
      rw [none, List.replicate_zero, List.append_nil]
      apply readsBack_pointed spells nonzero finite
      · exact fun c member => spells.digits c (List.mem_of_mem_take member)
      · exact fun c member => spells.digits c (List.mem_of_mem_drop member)
      · simp [spells.nonempty]
      · simpa using inside
      · rw [List.take_append_drop]
      · rw [List.length_drop]
        omega
    · rw [List.take_of_length_le short, List.drop_of_length_le short, pointed, if_pos rfl,
        List.append_nil]
      exact readsBack_whole spells finite (by omega) small

/-- A finite number reads back from its text. -/
theorem readsBack_print {x : Binary64} (finite : x.magnitude < infiniteMagnitude) :
    x.ReadsBack (scriptLayout.print x) := by
  have number : x.isNaN = false ∧ x.isInfinite = false := by
    simp only [isNaN, isInfinite, decide_eq_false_iff_not]
    omega
  have printed : scriptLayout.print x = signed x.isNegative
      (if x.isZero then digitText [0] else scriptLayout.printDigits (shortest x).toDigits) := by
    rw [Layout.print, number.1, number.2, signed]
    cases x.isNegative <;> rfl
  rw [printed]
  by_cases zero : x.magnitude = 0
  · have size : x.units = 0 * unitsPerOne := by
      change expand 52 x.magnitude = _
      rw [zero, Nat.zero_mul]
      rfl
    rw [if_pos (by simpa [isZero] using zero)]
    exact .of_digits (Numeral.areDigits_zeros 1) (List.cons_ne_nil _ _) rfl (by decide) size
  · have nonzero := Nat.pos_of_ne_zero zero
    have spells := toDigits_spells (shortest_readsAs finite) nonzero finite
    rw [if_neg (by simpa [isZero] using zero), Layout.printDigits]
    split_ifs with positional
    · have back := readsBack_positional spells nonzero finite positional.2 x.isNegative
      rwa [ofMagnitude_magnitude] at back
    · have back := readsBack_exponentForm spells nonzero finite scriptLayout x.isNegative
      rwa [ofMagnitude_magnitude] at back

end Binary64

namespace Value

open Binary64 (scriptLayout unitsPerOne infiniteMagnitude)

variable {x : Binary64}

/-! ### Reals through their string form -/

theorem plus_print_nan (nan : x.isNaN = true) :
    plus (.string (scriptLayout.print x)) = .real Binary64.nan := by
  have read : Number.ofText scriptLayout.notANumber = .real Binary64.nan := by decide
  rw [plus, toNumber, Binary64.Layout.print, if_pos nan, read, Number.toValue]

theorem plus_print_infinity (negative : Bool) :
    plus (.string (scriptLayout.print (.infinity negative))) = .real (.infinity negative) := by
  cases negative <;> decide

theorem plus_print_zero (negative : Bool) :
    plus (.string (scriptLayout.print (.ofMagnitude negative 0))) = .int 0 := by
  cases negative <;> decide

theorem plus_print_infinite (infinite : x.isInfinite = true) :
    plus (.string (scriptLayout.print x)) = .real x := by
  have size : x.magnitude = infiniteMagnitude := of_decide_eq_true infinite
  have same : Binary64.infinity x.isNegative = x := by
    rw [Binary64.infinity, ← size, Binary64.ofMagnitude_magnitude]
  rw [← same]
  exact plus_print_infinity x.isNegative

theorem plus_print_finite (finite : x.magnitude < infiniteMagnitude) :
    if 0x2e ∈ scriptLayout.print x ∨ 0x65 ∈ scriptLayout.print x then
      plus (.string (scriptLayout.print x)) = .real x
    else ∃ i : Int64, plus (.string (scriptLayout.print x)) = .int i ∧
      x.signedUnits = i.toInt * unitsPerOne := by
  have back := Binary64.readsBack_print finite
  rw [Binary64.ReadsBack] at back
  split_ifs at back ⊢
  · rw [plus, toNumber, back, Number.toValue]
  · obtain ⟨i, read, value⟩ := back
    exact ⟨i, by rw [plus, toNumber, read, Number.toValue], value⟩

/-- An integer equals the finite real of the same value. -/
theorem equal_of_signedUnits {i : Int64} (finite : x.magnitude < infiniteMagnitude)
    (value : x.signedUnits = i.toInt * unitsPerOne) : equal (.int i) (.real x) = true := by
  have number : IsNumber (.real x) := by
    simp only [IsNumber, Binary64.isNaN, decide_eq_false_iff_not]
    omega
  have size : x.units = i.toInt.natAbs * unitsPerOne := by
    have sizes := congrArg Int.natAbs value
    rw [Int.natAbs_mul, Int.natAbs_natCast] at sizes
    rw [← sizes, Binary64.signedUnits]
    split <;> simp
  have magnitude : Binary64.wholeMagnitude i.toInt.natAbs = x.magnitude := by
    rw [Binary64.wholeMagnitude, ← size]
    exact Binary64.roundMagnitude_expand finite
  have zero : i.toInt = 0 → x.magnitude = 0 := by
    intro zero
    rw [← magnitude, zero, Binary64.wholeMagnitude, Int.natAbs_zero, Nat.zero_mul]
    exact Binary64.roundMagnitude_underflow (by decide)
  have sign : if x.isNegative then i.toInt ≤ 0 else 0 ≤ i.toInt := by
    have positive : (0 : Int) < unitsPerOne := Int.natCast_pos.mpr Binary64.unitsPerOne_pos
    rw [Binary64.signedUnits] at value
    split_ifs at value ⊢
    · exact Int.le_of_mul_le_mul_right (by omega : i.toInt * unitsPerOne ≤ 0 * unitsPerOne) positive
    · exact Int.le_of_mul_le_mul_right (by omega : 0 * unitsPerOne ≤ i.toInt * unitsPerOne) positive
  apply (equal_iff (a := .int i) trivial number).mpr
  change (Binary64.ofInt i.toInt).rank = x.rank
  rw [Binary64.rank_ofInt, magnitude, Binary64.rank]
  split_ifs at sign ⊢ <;> omega

theorem equal_plus_print (number : x.isNaN = false) :
    equal (plus (.string (scriptLayout.print x))) (.real x) = true := by
  have self : equal (.real x) (.real x) = true :=
    (equal_iff (a := .real x) (b := .real x) number number).mpr rfl
  rcases Nat.lt_or_ge x.magnitude infiniteMagnitude with finite | large
  · have back := plus_print_finite finite
    split_ifs at back
    · rw [back, self]
    · obtain ⟨i, read, value⟩ := back
      rw [read, equal_of_signedUnits finite value]
  · have infinite : x.isInfinite = true := by
      simp only [Binary64.isNaN, Binary64.isInfinite, decide_eq_false_iff_not,
        decide_eq_true_eq] at number ⊢
      omega
    rw [plus_print_infinite infinite, self]

/-- A real reads back from its string form: not-a-number as not-a-number and any other real as a
number that equals it. An infinity comes back as itself and either zero as the integer zero. Any
finite real comes back with the same bits where the text has a point or an exponent, and as the
integer of the same value where it has none. -/
theorem real_text_reads_back (face : ObjRef → Face) (x : Binary64) :
    ∃ t, (Value.real x).toText face = some t ∧
      (x.isNaN = true → ∃ y, plus (.string t) = .real y ∧ y.isNaN = true) ∧
      (x.isNaN = false → equal (plus (.string t)) (.real x) = true) ∧
      (x.isInfinite = true → plus (.string t) = .real x) ∧
      (x.isZero = true → plus (.string t) = .int 0) ∧
      (x.isFinite = true →
        if 0x2e ∈ t ∨ 0x65 ∈ t then plus (.string t) = .real x
        else ∃ i : Int64, plus (.string t) = .int i ∧
          x.signedUnits = i.toInt * unitsPerOne) := by
  refine ⟨scriptLayout.print x, rfl, ?_, equal_plus_print, plus_print_infinite, ?_, ?_⟩
  · intro nan
    exact ⟨Binary64.nan, plus_print_nan nan, by decide⟩
  · intro zero
    have size : x.magnitude = 0 := of_decide_eq_true zero
    rw [← x.ofMagnitude_magnitude, size]
    exact plus_print_zero x.isNegative
  · intro finite
    exact plus_print_finite (of_decide_eq_true finite)

/-- The least positive real is written with an exponent and keeps its bits; the negative zero
comes back as an integer. -/
theorem least_real_reads_back :
    let face : ObjRef → Face := fun _ => ⟨"", none⟩
    let least : Binary64 := ⟨1⟩
    let negativeZero : Binary64 := ⟨0x8000000000000000⟩
    (least.isFinite = true ∧ ∃ t, (Value.real least).toText face = some t ∧ t = utf8 "5e-324" ∧
      plus (.string t) = .real least) ∧
    (negativeZero.isZero = true ∧ ∃ t, (Value.real negativeZero).toText face = some t ∧
      plus (.string t) = .int 0) := by
  intro face least negativeZero
  have finite : least.isFinite = true := by decide
  have zero : negativeZero.isZero = true := by decide
  obtain ⟨t, printed, -, -, -, -, back⟩ := real_text_reads_back face least
  have text : t = utf8 "5e-324" := by
    rw [← Option.some.inj printed]
    decide +kernel
  have marked : 0x2e ∈ t ∨ 0x65 ∈ t := by
    rw [text]
    decide
  have read := back finite
  rw [if_pos marked] at read
  obtain ⟨t', printed', -, -, -, integral, -⟩ := real_text_reads_back face negativeZero
  exact ⟨⟨finite, t, printed, text, read⟩, zero, t', printed', integral zero⟩

end Value
end ScriptEngine
