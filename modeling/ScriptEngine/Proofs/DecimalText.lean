import ScriptEngine.Proofs.Reencoding
import ScriptEngine.Value.Operators

/-! Decimal texts and how they are read. Printing gives the digits of a number with the most
significant one first; every reader of digits takes them up in that order, so it gets the
number back. White space around a numeral is trimmed, whichever characters it is made of. -/
namespace ScriptEngine

/-! ### White space around a text -/

namespace Text

theorem glyphs_append {t : Text} (formed : ∀ byte, .stray byte ∉ glyphs t) (more : Text) :
    glyphs (t ++ more) = glyphs t ++ glyphs more :=
  glyphsFrom_append (Nat.zero_le _) formed more

/-- A white-space character is read as itself. There are twenty-five of them. -/
theorem glyphs_blank {code : Nat} (blank : isBlank code = true) :
    glyphs (ofCode code) = [.char code] := by
  have listed : code ∈ [9, 10, 11, 12, 13, 0x20, 0x85, 0xa0, 0x1680, 0x2000, 0x2001, 0x2002, 0x2003,
      0x2004, 0x2005, 0x2006, 0x2007, 0x2008, 0x2009, 0x200a, 0x2028, 0x2029, 0x202f, 0x205f,
      0x3000] := by
    simp only [isBlank, Bool.or_eq_true, Bool.and_eq_true, decide_eq_true_eq, beq_iff_eq] at blank
    simp only [List.mem_cons, List.not_mem_nil, or_false]
    omega
  have each : ∀ code ∈ [9, 10, 11, 12, 13, 0x20, 0x85, 0xa0, 0x1680, 0x2000, 0x2001, 0x2002, 0x2003,
      0x2004, 0x2005, 0x2006, 0x2007, 0x2008, 0x2009, 0x200a, 0x2028, 0x2029, 0x202f, 0x205f,
      0x3000], glyphs (ofCode code) = [.char code] := by decide
  exact each code listed

theorem glyphs_blanks {chars : List Char} (blank : ∀ c ∈ chars, isBlank c.toNat = true) :
    glyphs (chars.flatMap String.utf8EncodeChar) = chars.map fun c => .char c.toNat := by
  induction chars with
  | nil => rfl
  | cons c chars ih =>
    have first : glyphs (String.utf8EncodeChar c) = [.char c.toNat] := by
      have same := glyphs_blank (blank c List.mem_cons_self)
      rwa [ofCode, Char.ofNat_toNat] at same
    rw [List.flatMap_cons, glyphs_append (by simp [first]), first,
      ih fun c member => blank c (List.mem_cons_of_mem _ member)]
    rfl

/-- A text of single bytes, none of them white space. -/
def IsPlain (t : Text) : Prop := ∀ b ∈ t, b < 0x80 ∧ isBlank b.toNat = false

theorem glyphs_plain {t : Text} (plain : t.IsPlain) : glyphs t = t.map fun b => .char b.toNat := by
  induction t with
  | nil => rfl
  | cons b t ih =>
    rw [glyphs, glyphsFrom, if_pos (plain b List.mem_cons_self).1, List.map_cons]
    exact congrArg _ (ih fun b member => plain b (List.mem_cons_of_mem _ member))

theorem bytes_plain {t : Text} (plain : t.IsPlain) :
    (t.map fun b => Glyph.char b.toNat).flatMap Glyph.bytes = t := by
  have each : ∀ n < 128, ofCode n = [n.toUInt8] := by decide
  induction t with
  | nil => rfl
  | cons b t ih =>
    have small : b.toNat < 128 := UInt8.lt_iff_toNat_lt.mp (plain b List.mem_cons_self).1
    rw [List.map_cons, List.flatMap_cons, Glyph.bytes, each _ small,
      ih fun b member => plain b (List.mem_cons_of_mem _ member)]
    simp

/-- What is dropped from an end is the white space there. -/
theorem dropWhile_blank {blank body rest : List Glyph} (all : ∀ g ∈ blank, g.isBlank = true)
    (none : ∀ g ∈ body, g.isBlank = false) (nonempty : body ≠ []) :
    (blank ++ (body ++ rest)).dropWhile Glyph.isBlank = body ++ rest := by
  rw [List.dropWhile_append_of_pos all]
  cases body with
  | nil => exact absurd rfl nonempty
  | cons g body => simp [none g List.mem_cons_self]

/-- White space around a plain text is trimmed, and nothing else. -/
theorem trimmed_padded {t : Text} {before after : String} (plain : t.IsPlain) (nonempty : t ≠ [])
    (left : ∀ c ∈ before.toList, isBlank c.toNat = true)
    (right : ∀ c ∈ after.toList, isBlank c.toNat = true) :
    trimmed (utf8 before ++ t ++ utf8 after) = t := by
  have blanks {s : String} (blank : ∀ c ∈ s.toList, isBlank c.toNat = true) :
      ∀ g ∈ glyphs (utf8 s), g.isBlank = true := by
    rw [utf8, glyphs_blanks blank]
    simpa [Glyph.isBlank] using blank
  have formed {s : String} (blank : ∀ c ∈ s.toList, isBlank c.toNat = true) :
      ∀ byte, .stray byte ∉ glyphs (utf8 s) := by
    intro byte member
    cases blanks blank _ member
  have inside : ∀ g ∈ glyphs t, g.isBlank = false := by
    rw [glyphs_plain plain]
    simpa [Glyph.isBlank] using fun b member => (plain b member).2
  have some : glyphs t ≠ [] := by simpa [glyphs_plain plain] using nonempty
  have split : glyphs (utf8 before ++ t ++ utf8 after) =
      glyphs (utf8 before) ++ (glyphs t ++ glyphs (utf8 after)) := by
    rw [List.append_assoc, glyphs_append (formed left), glyphs_append]
    intro byte member
    simp [glyphs_plain plain] at member
  -- From the other end the white space behind comes first.
  have back : (glyphs t ++ glyphs (utf8 after)).reverse.dropWhile Glyph.isBlank =
      (glyphs t).reverse := by
    have dropped : ((glyphs (utf8 after)).reverse ++ ((glyphs t).reverse ++ [])).dropWhile
        Glyph.isBlank = (glyphs t).reverse ++ [] :=
      dropWhile_blank (by simpa using blanks right) (by simpa using inside) (by simpa using some)
    rwa [List.append_nil, ← List.reverse_append] at dropped
  rw [trimmed, split, dropWhile_blank (blanks left) inside some, back, List.reverse_reverse,
    glyphs_plain plain, bytes_plain plain]

theorem trimmed_plain {t : Text} (plain : t.IsPlain) (nonempty : t ≠ []) : trimmed t = t := by
  have same : trimmed (utf8 "" ++ t ++ utf8 "") = t :=
    trimmed_padded plain nonempty (by simp) (by simp)
  rwa [show utf8 "" = [] from rfl, List.append_nil, List.nil_append] at same

end Text

/-! ### Digits -/

namespace Numeral

open Binary64 (digitText)

variable {d n : Nat} {ds : List Nat} {rest : Text}

/-- The number that decimal digits form, the most significant first. -/
def numberOf (ds : List Nat) : Nat := ds.foldl (fun value d => value * 10 + d) 0

/-- The decimal digits of a number, the most significant first. -/
def digitsOf (n : Nat) : List Nat := (Nat.toDigits 10 n).map fun c => c.toNat - 48

/-- All are decimal digits. -/
def AreDigits (ds : List Nat) : Prop := ∀ d ∈ ds, d < 10

theorem AreDigits.append {more : List Nat} (first : AreDigits ds) (second : AreDigits more) :
    AreDigits (ds ++ more) := by
  intro d member
  rcases List.mem_append.mp member with member | member
  · exact first d member
  · exact second d member

theorem areDigits_zeros (k : Nat) : AreDigits (List.replicate k 0) := by
  intro d zero
  rw [List.eq_of_mem_replicate zero]
  decide

theorem foldl_digits (value : Nat) (ds : List Nat) :
    ds.foldl (fun value d => value * 10 + d) value = value * 10 ^ ds.length + numberOf ds := by
  induction ds generalizing value with
  | nil => simp [numberOf]
  | cons d ds ih =>
    have first : numberOf (d :: ds) = d * 10 ^ ds.length + numberOf ds := by
      rw [numberOf, List.foldl_cons, ih, Nat.zero_mul, Nat.zero_add]
    rw [List.foldl_cons, ih, first, List.length_cons, Nat.pow_succ]
    ring

theorem numberOf_cons (d : Nat) (ds : List Nat) :
    numberOf (d :: ds) = d * 10 ^ ds.length + numberOf ds := by
  rw [numberOf, List.foldl_cons, foldl_digits, Nat.zero_mul, Nat.zero_add]

theorem numberOf_append (ds more : List Nat) :
    numberOf (ds ++ more) = numberOf ds * 10 ^ more.length + numberOf more := by
  rw [numberOf, List.foldl_append, foldl_digits]
  rfl

theorem numberOf_zeros (k : Nat) : numberOf (List.replicate k 0) = 0 := by
  induction k with
  | zero => rfl
  | succ k ih => rw [List.replicate_succ, numberOf_cons, ih, Nat.zero_mul]

theorem numberOf_lt (digits : AreDigits ds) : numberOf ds < 10 ^ ds.length := by
  induction ds with
  | nil => exact Nat.one_pos
  | cons d ds ih =>
    have small := digits d List.mem_cons_self
    have others := ih fun d member => digits d (List.mem_cons_of_mem _ member)
    rw [numberOf_cons, List.length_cons, Nat.pow_succ]
    calc d * 10 ^ ds.length + numberOf ds
      _ < d * 10 ^ ds.length + 10 ^ ds.length := Nat.add_lt_add_left others _
      _ = (d + 1) * 10 ^ ds.length := (Nat.succ_mul _ _).symm
      _ ≤ 10 * 10 ^ ds.length := Nat.mul_le_mul_right _ small
      _ = 10 ^ ds.length * 10 := Nat.mul_comm _ _

theorem areDigits_digitsOf (n : Nat) : AreDigits (digitsOf n) := by
  intro d member
  obtain ⟨c, present, rfl⟩ := List.mem_map.mp member
  have digit := Nat.isDigit_of_mem_toDigits (by decide) (by decide) present
  have upper : c.toNat ≤ 57 := by
    simp only [Char.isDigit, Bool.and_eq_true, decide_eq_true_eq] at digit
    exact UInt32.le_iff_toNat_le.mp digit.2
  omega

theorem numberOf_digitsOf (n : Nat) : numberOf (digitsOf n) = n := by
  have read := Nat.ofDigitChars_ten_toDigits (n := n)
  rw [Nat.ofDigitChars_eq_foldl] at read
  rw [numberOf, digitsOf, List.foldl_map]
  simpa only [Nat.mul_comm, show '0'.toNat = 48 from rfl] using read

theorem length_digitsOf (n : Nat) : (digitsOf n).length = (Nat.toDigits 10 n).length :=
  List.length_map _

theorem digitsOf_ne_nil (n : Nat) : digitsOf n ≠ [] := by
  apply List.ne_nil_of_length_pos
  rw [length_digitsOf]
  exact Nat.length_toDigits_pos

/-- The first digit of a positive number is not zero, or fewer digits would do. -/
theorem digitsOf_head (positive : 0 < n) : ∃ d ds, digitsOf n = d :: ds ∧ 0 < d := by
  have digits := areDigits_digitsOf n
  have same := numberOf_digitsOf n
  have length := length_digitsOf n
  cases form : digitsOf n with
  | nil => exact absurd form (digitsOf_ne_nil n)
  | cons d ds =>
    refine ⟨d, ds, rfl, Nat.pos_of_ne_zero ?_⟩
    rintro rfl
    rw [form] at digits same length
    rw [numberOf_cons, Nat.zero_mul, Nat.zero_add] at same
    have bound := numberOf_lt fun d member => digits d (List.mem_cons_of_mem _ member)
    rw [same] at bound
    have some : 0 < ds.length := by
      apply Nat.pos_of_ne_zero
      intro none
      rw [none] at bound
      omega
    have fewer := (Nat.length_toDigits_le_iff (by decide) some).mpr bound
    rw [← length, List.length_cons] at fewer
    omega

/-! ### Digits in a text -/

/-- What readers of numerals see in the byte of a digit. -/
structure DigitByte (d : Nat) (c : UInt8) : Prop where
  isDigit : isDigit c = true
  value : digitValue? c = some d
  size : c.toNat = d + 48
  separator : c ≠ 0x5f
  point : c ≠ 0x2e
  sign : ¬(c = 0x2b ∨ c = 0x2d)
  plain : c < 0x80 ∧ isBlank c.toNat = false

theorem digitByte (small : d < 10) : DigitByte d (d + 48).toUInt8 := by
  have each : ∀ d < 10, isDigit (d + 48).toUInt8 = true ∧ digitValue? (d + 48).toUInt8 = some d ∧
      (d + 48).toUInt8.toNat = d + 48 ∧ (d + 48).toUInt8 ≠ 0x5f ∧ (d + 48).toUInt8 ≠ 0x2e ∧
      ¬((d + 48).toUInt8 = 0x2b ∨ (d + 48).toUInt8 = 0x2d) ∧
      ((d + 48).toUInt8 < 0x80 ∧ isBlank (d + 48).toUInt8.toNat = false) := by decide
  obtain ⟨digit, value, size, separator, point, sign, plain⟩ := each d small
  exact ⟨digit, value, size, separator, point, sign, plain⟩

theorem digitText_append (ds more : List Nat) :
    digitText (ds ++ more) = digitText ds ++ digitText more := List.map_append

theorem digitText_zeros (k : Nat) : digitText (List.replicate k 0) = List.replicate k 0x30 :=
  List.map_replicate

theorem digitText_ne_nil (nonempty : ds ≠ []) : digitText ds ≠ [] :=
  mt List.map_eq_nil_iff.mp nonempty

theorem mem_digitText (digits : AreDigits ds) {c : UInt8} (member : c ∈ digitText ds) :
    ∃ d, DigitByte d c := by
  obtain ⟨d, present, rfl⟩ := List.mem_map.mp member
  exact ⟨d, digitByte (digits d present)⟩

theorem digitText_plain (digits : AreDigits ds) : Text.IsPlain (digitText ds) := by
  intro c member
  obtain ⟨d, byte⟩ := mem_digitText digits member
  exact byte.plain

theorem ofNat_eq (n : Nat) : Text.ofNat n = digitText (digitsOf n) := by
  rw [Text.ofNat, Text.ofNatBase, digitText, digitsOf, List.map_map]
  apply List.map_congr_left
  intro c present
  have digit := Nat.isDigit_of_mem_toDigits (by decide) (by decide) present
  have lower : 48 ≤ c.toNat := by
    simp only [Char.isDigit, Bool.and_eq_true, decide_eq_true_eq] at digit
    exact UInt32.le_iff_toNat_le.mp digit.1
  simp only [Function.comp_apply, Nat.sub_add_cancel lower]

/-- Decimal digits are taken up one after the other. -/
theorem digitsValue?_digitText (digits : AreDigits ds) (value : Nat) :
    digitsValue? 10 value (digitText ds) = some (value * 10 ^ ds.length + numberOf ds) := by
  rw [← foldl_digits]
  induction ds generalizing value with
  | nil => rfl
  | cons d ds ih =>
    have small := digits d List.mem_cons_self
    have byte := digitByte small
    have others := ih (fun d member => digits d (List.mem_cons_of_mem _ member)) (value * 10 + d)
    rw [digitText, List.map_cons, digitsValue?, if_neg byte.separator, byte.value]
    simp only [if_pos small]
    exact others

/-- A first digit that is not zero leaves the base at ten. -/
theorem splitBase_digitText (digits : AreDigits (d :: ds)) (positive : 0 < d) :
    splitBase (digitText (d :: ds)) = (10, digitText (d :: ds)) := by
  have byte := digitByte (digits d List.mem_cons_self)
  have nonzero : (d + 48).toUInt8 ≠ 0x30 := by
    intro same
    have size := byte.size
    rw [same] at size
    change 48 = d + 48 at size
    omega
  rw [digitText, List.map_cons]
  unfold splitBase
  split
  next same => exact absurd (List.cons.inj same).1 nonzero
  next same => exact absurd (List.cons.inj same).1 nonzero
  · rfl

theorem natural?_digitText (digits : AreDigits (d :: ds)) (positive : 0 < d) :
    natural? (digitText (d :: ds)) = some (numberOf (d :: ds)) := by
  have read := digitsValue?_digitText digits 0
  rw [Nat.zero_mul, Nat.zero_add] at read
  rw [natural?, if_neg (by simp [digitText]), splitBase_digitText digits positive]
  exact read

theorem natural?_ofNat (n : Nat) : natural? (Text.ofNat n) = some n := by
  rcases Nat.eq_zero_or_pos n with rfl | positive
  · decide
  · obtain ⟨d, ds, form, nonzero⟩ := digitsOf_head positive
    have digits := areDigits_digitsOf n
    have same := numberOf_digitsOf n
    rw [form] at digits same
    rw [ofNat_eq, form, natural?_digitText digits nonzero, same]

/-- A text with its sign. -/
def signed (negative : Bool) (t : Text) : Text := if negative then 0x2d :: t else t

theorem forall_signed {t : Text} {p : UInt8 → Prop} (negative : Bool) (minus : p 0x2d)
    (each : ∀ c ∈ t, p c) : ∀ c ∈ signed negative t, p c := by
  cases negative with
  | true => exact List.forall_mem_cons.mpr ⟨minus, each⟩
  | false => exact each

theorem signed_ne_nil {t : Text} (negative : Bool) (nonempty : t ≠ []) :
    signed negative t ≠ [] := by
  cases negative with
  | true => exact List.cons_ne_nil _ _
  | false => exact nonempty

theorem unsigned_signed {t : Text} (negative : Bool)
    (first : ∀ c, t.head? = some c → ¬(c = 0x2b ∨ c = 0x2d)) :
    unsigned (signed negative t) = t := by
  cases negative with
  | true => rfl
  | false =>
    cases t with
    | nil => rfl
    | cons c t => exact if_neg (first c rfl)

theorem head?_signed {t : Text} (negative : Bool)
    (first : ∀ c, t.head? = some c → ¬(c = 0x2b ∨ c = 0x2d)) :
    (signed negative t).head? = some 0x2d ↔ negative = true := by
  cases negative with
  | true => exact iff_of_true rfl rfl
  | false =>
    refine iff_of_false (fun minus => ?_) Bool.false_ne_true
    exact first _ minus (.inr rfl)

/-- A numeral without separators that reads as a natural number, with its sign. -/
theorem integer?_signed {t : Text} (negative : Bool) (read : natural? t = some n)
    (first : ∀ c, t.head? = some c → ¬(c = 0x2b ∨ c = 0x2d)) (separators : (0x5f : UInt8) ∉ t) :
    integer? (signed negative t) = some (if negative then -(n : Int) else n) := by
  have none : (signed negative t).contains 0x5f = false := by
    cases negative <;> simpa [signed] using separators
  have minus := head?_signed negative first
  simp only [integer?, unsigned_signed negative first, read, none, Option.bind_eq_bind,
    Option.bind_some, Bool.false_and, Bool.false_eq_true, if_false, minus]
  cases negative <;> rfl

theorem digitText_first (digits : AreDigits ds) {c : UInt8}
    (first : (digitText ds).head? = some c) : ¬(c = 0x2b ∨ c = 0x2d) := by
  obtain ⟨d, byte⟩ := mem_digitText digits (List.mem_of_head? first)
  exact byte.sign

theorem digitText_separators (digits : AreDigits ds) : (0x5f : UInt8) ∉ digitText ds := by
  intro member
  obtain ⟨d, byte⟩ := mem_digitText digits member
  exact byte.separator rfl

theorem ofInt_eq (i : Int) : Text.ofInt i = signed (i < 0) (digitText (digitsOf i.natAbs)) := by
  rw [Text.ofInt, ofNat_eq, signed]
  simp only [decide_eq_true_eq]

theorem integer?_ofInt (i : Int) : integer? (Text.ofInt i) = some i := by
  have digits := areDigits_digitsOf i.natAbs
  have read := natural?_ofNat i.natAbs
  rw [ofNat_eq] at read
  rw [ofInt_eq, integer?_signed _ read (fun _ => digitText_first digits)
    (digitText_separators digits)]
  simp only [decide_eq_true_eq, Option.some.injEq]
  split <;> omega

theorem int64?_of_integer? {t : Text} {i : Int64} (read : integer? t = some i.toInt) :
    int64? t = some i := by
  have inside : Int64.minValue.toInt ≤ i.toInt ∧ i.toInt ≤ Int64.maxValue.toInt :=
    ⟨i.minValue_le_toInt, i.toInt_le⟩
  simp only [int64?, read, Option.bind_eq_bind, Option.bind_some, if_pos inside, Int64.ofInt_toInt,
    Option.pure_def]

theorem ofInt_plain (i : Int) : (Text.ofInt i).IsPlain ∧ Text.ofInt i ≠ [] := by
  have digits := areDigits_digitsOf i.natAbs
  have nonempty := digitText_ne_nil (digitsOf_ne_nil i.natAbs)
  rw [ofInt_eq]
  exact ⟨forall_signed _ (by decide) (digitText_plain digits), signed_ne_nil _ nonempty⟩

end Numeral

/-! ### Integers through their string form -/

namespace Value

/-- The text of an integer, with any white space around it, converts to that integer: as a
number, to an integer, and in loose equality. -/
theorem integer_text_reads_back (face : ObjRef → Face) (i : Int64) (before after : String)
    (left : ∀ c ∈ before.toList, isBlank c.toNat = true)
    (right : ∀ c ∈ after.toList, isBlank c.toNat = true) :
    ∃ t, (Value.int i).toText face = some t ∧
      plus (.string (utf8 before ++ t ++ utf8 after)) = .int i ∧
      toInteger (.string (utf8 before ++ t ++ utf8 after)) = i ∧
      equal (.string (utf8 before ++ t ++ utf8 after)) (.int i) = true := by
  obtain ⟨plain, nonempty⟩ := Numeral.ofInt_plain i.toInt
  have number : Number.ofText (utf8 before ++ Text.ofInt i.toInt ++ utf8 after) = .int i := by
    have read := Numeral.int64?_of_integer? (Numeral.integer?_ofInt i.toInt)
    rw [Number.ofText, Text.trimmed_padded plain nonempty left right, if_neg nonempty, read]
  refine ⟨Text.ofInt i.toInt, rfl, ?_, ?_, ?_⟩
  · rw [plus, toNumber, number, Number.toValue]
  · rw [toInteger, toNumber, number, Number.toInteger]
  · simp only [equal, toNumber, number, Number.order?]
    simp

/-- The least integer between a tabulator, a no-break space and an ideographic space. -/
theorem least_integer_reads_back :
    let before := "\t\u00a0"
    let after := "\u3000\n"
    (∀ c ∈ before.toList, isBlank c.toNat = true) ∧ (∀ c ∈ after.toList, isBlank c.toNat = true) ∧
      ∃ t, (Value.int Int64.minValue).toText (fun _ => ⟨"", none⟩) = some t ∧
        plus (.string (utf8 before ++ t ++ utf8 after)) = .int Int64.minValue := by
  intro before after
  have left : ∀ c ∈ before.toList, isBlank c.toNat = true := List.all_eq_true.mp (by decide)
  have right : ∀ c ∈ after.toList, isBlank c.toNat = true := List.all_eq_true.mp (by decide)
  obtain ⟨t, printed, read, -⟩ :=
    integer_text_reads_back (fun _ => ⟨"", none⟩) Int64.minValue before after left right
  exact ⟨left, right, t, printed, read⟩

end Value
end ScriptEngine
