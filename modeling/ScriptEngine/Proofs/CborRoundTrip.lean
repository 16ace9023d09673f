import Mathlib.Tactic.Ring
import ScriptEngine.Cbor.Reader
import ScriptEngine.Proofs.Narrowing

/-! Data items read back from their canonical encoding, as long as they nest no
deeper and have no more elements than reading admits. -/
namespace ScriptEngine

/-- A number with the pattern that all not-a-numbers are written with. -/
def Binary64.quieted (x : Binary64) : Binary64 := if x.isNaN then ⟨0x7ff8000000000000⟩ else x

namespace Cbor

mutual

/-- An item with all not-a-numbers made the same. -/
def quieted : Cbor → Cbor
  | .array items => .array (quietedItems items)
  | .map entries => .map (quietedEntries entries)
  | .tag number content => .tag number (quieted content)
  | .real x => .real x.quieted
  | item => item

def quietedItems : List Cbor → List Cbor
  | [] => []
  | item :: rest => quieted item :: quietedItems rest

def quietedEntries : List (Cbor × Cbor) → List (Cbor × Cbor)
  | [] => []
  | entry :: rest => quietedEntry entry :: quietedEntries rest

def quietedEntry : Cbor × Cbor → Cbor × Cbor
  | (key, value) => (quieted key, quieted value)

end

mutual

/-- Whether an item is within the limits of reading: containers nest at most so
many levels and have a limited number of elements, and strings have a length of
64 bits. -/
def fits (levels : Nat) : Cbor → Bool
  | .bytes b => b.length < UInt64.size
  | .text chunks => chunks.flatten.length < UInt64.size
  | .array items => 0 < levels && items.length ≤ maxElements && fitsItems (levels - 1) items
  | .map entries => 0 < levels && entries.length ≤ maxElements && fitsEntries (levels - 1) entries
  | .tag _ content => fits levels content
  | _ => true

def fitsItems (levels : Nat) : List Cbor → Bool
  | [] => true
  | item :: rest => fits levels item && fitsItems levels rest

def fitsEntries (levels : Nat) : List (Cbor × Cbor) → Bool
  | [] => true
  | entry :: rest => fitsEntry levels entry && fitsEntries levels rest

def fitsEntry (levels : Nat) : Cbor × Cbor → Bool
  | (key, value) => fits levels key && fits levels value

end

/-- Items without tags and chunks, with numbers of 64 bits and short simple
values. -/
inductive Plain : Cbor → Prop
  | unsigned {n : Nat} (small : n < UInt64.size) : Plain (.unsigned n)
  | negative {n : Nat} (small : n < UInt64.size) : Plain (.negative n)
  | bytes (b : Text) : Plain (.bytes b)
  | text (t : Text) : Plain (.text [t])
  | array {items : List Cbor} (plain : ∀ item ∈ items, Plain item) : Plain (.array items)
  | map {entries : List (Cbor × Cbor)} (keys : ∀ entry ∈ entries, Plain entry.1)
      (values : ∀ entry ∈ entries, Plain entry.2) : Plain (.map entries)
  | simple {code : Nat} (small : code < 24) : Plain (.simple code)
  | real (x : Binary64) : Plain (.real x)

theorem quietedItems_eq_map (items : List Cbor) : quietedItems items = items.map quieted := by
  induction items with
  | nil => rfl
  | cons item rest ih => rw [quietedItems, ih, List.map_cons]

theorem quietedEntries_eq_map (entries : List (Cbor × Cbor)) :
    quietedEntries entries = entries.map quietedEntry := by
  induction entries with
  | nil => rfl
  | cons entry rest ih => rw [quietedEntries, ih, List.map_cons]

theorem fitsItems_iff {levels : Nat} {items : List Cbor} :
    fitsItems levels items = true ↔ ∀ item ∈ items, fits levels item = true := by
  induction items with
  | nil => simp [fitsItems]
  | cons item rest ih => simp [fitsItems, ih]

theorem fitsEntries_iff {levels : Nat} {entries : List (Cbor × Cbor)} :
    fitsEntries levels entries = true ↔
      ∀ entry ∈ entries, fits levels entry.1 = true ∧ fits levels entry.2 = true := by
  induction entries with
  | nil => simp [fitsEntries]
  | cons entry rest ih =>
    obtain ⟨key, value⟩ := entry
    simp [fitsEntries, fitsEntry, ih]

/-! ### Heads -/

variable {major n : Nat} {rest : Text}

theorem length_bigEndian (count n : Nat) : (bigEndian count n).length = count := by
  induction count with
  | zero => rfl
  | succ count ih => rw [bigEndian, List.length_cons, ih]

theorem foldl_bigEndian (count n start : Nat) :
    (bigEndian count n).foldl (fun n b => n * 256 + b.toNat) start =
      start * 256 ^ count + n % 256 ^ count := by
  induction count generalizing start with
  | zero => simp [bigEndian, Nat.mod_one]
  | succ count ih =>
    have digit : (n >>> (8 * count)).toUInt8.toNat = n / 256 ^ count % 256 := by
      rw [Nat.shiftRight_eq_div_pow, Nat.pow_mul]
      rfl
    rw [bigEndian, List.foldl_cons, ih, digit, Nat.pow_succ, Nat.mod_mul]
    ring

theorem ofBigEndian_bigEndian {count : Nat} (small : n < 256 ^ count) :
    ofBigEndian (bigEndian count n) = n := by
  rw [ofBigEndian, foldl_bigEndian, Nat.zero_mul, Nat.zero_add, Nat.mod_eq_of_lt small]

theorem takeBytes_append (taken rest : Text) :
    takeBytes taken.length (taken ++ rest) = some (taken, rest) := by
  simp [takeBytes]

theorem lead_fields {info : Nat} (kind : major < 8) (low : info < 32) :
    (major * 32 + info).toUInt8.toNat / 32 = major ∧
      (major * 32 + info).toUInt8.toNat % 32 = info := by
  have same : (major * 32 + info).toUInt8.toNat = major * 32 + info :=
    Nat.mod_eq_of_lt (by omega)
  omega

/-- A head whose argument follows the lead byte. -/
theorem readHead_wide {info width : Nat} (kind : major < 8) (low : 24 ≤ info) (high : info < 31)
    (other : ¬(major = 7 ∧ info = 24)) (wide : argumentWidth? info = some width)
    (small : n < 256 ^ width) (rest : Text) :
    readHead ((major * 32 + info).toUInt8 :: (bigEndian width n ++ rest)) =
      some (⟨major, info, some n⟩, rest) := by
  obtain ⟨same, same'⟩ := lead_fields kind (Nat.lt_trans high (by decide))
  have taken := takeBytes_append (bigEndian width n) rest
  rw [length_bigEndian] at taken
  simp only [readHead, same, same', Nat.not_lt.mpr low, if_false, Nat.ne_of_lt high, wide,
    Option.bind_eq_bind, Option.bind_some, taken, ofBigEndian_bigEndian small]
  rw [if_neg (by omega)]

/-- A head begins with its major type. -/
theorem head_lead (major n : Nat) :
    ∃ info tail, info < 32 ∧ head major n = (major * 32 + info).toUInt8 :: tail := by
  unfold head
  dsimp only
  split
  next tiny => exact ⟨n, [], by omega, rfl⟩
  · split
    · exact ⟨24, _, by decide, rfl⟩
    · split
      · exact ⟨25, _, by decide, rfl⟩
      · split
        · exact ⟨26, _, by decide, rfl⟩
        · exact ⟨27, _, by decide, rfl⟩

/-- A head reads back; a small argument is in the lead byte itself. -/
theorem readHead_head (kind : major < 7 ∨ major = 7 ∧ n < 24) (small : n < UInt64.size)
    (rest : Text) :
    ∃ info, readHead (head major n ++ rest) = some (⟨major, info, some n⟩, rest) ∧
      (n < 24 → info = n) := by
  have eight : major < 8 := by omega
  unfold head
  by_cases tiny : n < 24
  · obtain ⟨same, same'⟩ := lead_fields eight (Nat.lt_trans tiny (by decide))
    refine ⟨n, ?_, fun _ => rfl⟩
    simp only [if_pos tiny, List.singleton_append, readHead, same, same']
  · rw [if_neg tiny]
    have other : ∀ info, ¬(major = 7 ∧ info = 24) := by omega
    split
    next byte =>
      exact ⟨24, readHead_wide eight (by decide) (by decide) (other 24) rfl byte rest,
        fun less => absurd less tiny⟩
    · split
      next short =>
        exact ⟨25, readHead_wide eight (by decide) (by decide) (other 25) rfl short rest,
          fun less => absurd less tiny⟩
      · split
        next word =>
          exact ⟨26, readHead_wide eight (by decide) (by decide) (other 26) rfl word rest,
            fun less => absurd less tiny⟩
        · exact ⟨27, readHead_wide eight (by decide) (by decide) (other 27) rfl small rest,
            fun less => absurd less tiny⟩

theorem readTags_lead {lead : UInt8} (other : lead.toNat / 32 ≠ 6) (fuel : Nat) (rest : Text) :
    readTags (fuel + 1) (lead :: rest) = some ([], lead :: rest) := by
  simp only [readTags, if_neg other]

/-- An item that is no tag has none in front of it. -/
theorem readTags_head (kind : major < 8 ∧ major ≠ 6) (fuel : Nat) (rest : Text) :
    readTags (fuel + 1) (head major n ++ rest) = some ([], head major n ++ rest) := by
  obtain ⟨info, tail, low, same⟩ := head_lead major n
  rw [same, List.cons_append]
  refine readTags_lead ?_ fuel (tail ++ rest)
  rw [(lead_fields kind.1 low).1]
  exact kind.2

/-! ### Items -/

/-- An item that is no tag is its head and what follows. -/
theorem readItem_untagged {t : Text} {h : Head} (fuel levels : Nat)
    (tagless : readTags (levels + 2) t = some ([], t)) (found : readHead t = some (h, rest)) :
    readItem (fuel + 1) levels t = readBody (readItem fuel (levels - 1)) levels h rest := by
  rw [readItem]
  simp only [tagless, found, Option.bind_eq_bind, Option.bind_some, List.length_nil, Nat.zero_sub,
    Nat.not_lt_zero, if_false, Nat.sub_zero, List.foldr_nil]
  cases readBody (readItem fuel (levels - 1)) levels h rest <;> rfl

/-- Reading an item that starts with a canonical head. -/
theorem readItem_head (kind : major < 6 ∨ major = 7 ∧ n < 24) (small : n < UInt64.size)
    (fuel levels : Nat) (rest : Text) :
    ∃ info, (n < 24 → info = n) ∧ readItem (fuel + 1) levels (head major n ++ rest) =
      readBody (readItem fuel (levels - 1)) levels ⟨major, info, some n⟩ rest := by
  have short : major < 7 ∨ major = 7 ∧ n < 24 := by omega
  obtain ⟨info, found, same⟩ := readHead_head short small rest
  have typed : major < 8 ∧ major ≠ 6 := by omega
  exact ⟨info, same, readItem_untagged fuel levels (readTags_head typed (levels + 1) rest) found⟩

theorem readString_definite (major : Nat) (t rest : Text) :
    readString major (some t.length) (t ++ rest) = some ([t], rest) := by
  rw [readString, takeBytes_append]
  rfl

/-- Items that each read back do so one after the other. -/
theorem readCounted_encodeItems {item : Text → Option (Cbor × Text)} {items : List Cbor}
    (each : ∀ x ∈ items, ∀ rest, item (encode x ++ rest) = some (x.quieted, rest)) (rest : Text) :
    readCounted item items.length (encodeItems items ++ rest) =
      some (items.map quieted, rest) := by
  induction items with
  | nil => rfl
  | cons x items ih =>
    have first := each x List.mem_cons_self (encodeItems items ++ rest)
    have others := ih fun y member => each y (List.mem_cons_of_mem x member)
    simp only [List.length_cons, readCounted, encodeItems, List.append_assoc, first, others,
      Option.bind_eq_bind, Option.bind_some]
    rfl

/-- Keys and values as one list. -/
def interleaved (entries : List (Cbor × Cbor)) : List Cbor :=
  entries.flatMap fun entry => [entry.1, entry.2]

theorem encodeItems_interleaved (entries : List (Cbor × Cbor)) :
    encodeItems (interleaved entries) = encodeEntries entries := by
  induction entries with
  | nil => rfl
  | cons entry entries ih =>
    obtain ⟨key, value⟩ := entry
    rw [encodeEntries, encodeEntry, ← ih, List.append_assoc]
    rfl

theorem length_interleaved (entries : List (Cbor × Cbor)) :
    (interleaved entries).length = 2 * entries.length := by
  induction entries with
  | nil => rfl
  | cons entry entries ih =>
    rw [interleaved, List.flatMap_cons, List.length_append, ← interleaved, ih, List.length_cons]
    simp only [List.length_cons, List.length_nil]
    omega

theorem pairUp_interleaved (entries : List (Cbor × Cbor)) :
    pairUp ((interleaved entries).map quieted) = some (quietedEntries entries) := by
  induction entries with
  | nil => rfl
  | cons entry entries ih =>
    obtain ⟨key, value⟩ := entry
    rw [interleaved, List.flatMap_cons, List.map_append, ← interleaved]
    simp only [List.map_cons, List.map_nil, List.cons_append, List.nil_append, pairUp, ih,
      quietedEntries, quietedEntry, Option.map_some]

/-- A number behind its lead byte. -/
theorem readItem_wide (info : Nat) {width : Nat} (wide : argumentWidth? info = some width)
    (real : 24 < info ∧ info < 31) (small : n < 256 ^ width) (fuel levels : Nat) (rest : Text) :
    readItem (fuel + 1) levels ((7 * 32 + info).toUInt8 :: (bigEndian width n ++ rest)) =
      some (ofPrimitive info n, rest) := by
  obtain ⟨real, below⟩ := real
  have seven : 7 < 8 := by decide
  have other : (7 * 32 + info).toUInt8.toNat / 32 ≠ 6 := by
    rw [(lead_fields seven (Nat.lt_trans below (by decide))).1]
    decide
  have found := readHead_wide seven (Nat.le_of_lt real) below (by omega) wide small rest
  exact readItem_untagged fuel levels (readTags_lead other (levels + 1) _) found

/-- A real reads back whatever format it was written in. -/
theorem readItem_encodeReal (x : Binary64) (fuel levels : Nat) (rest : Text) :
    readItem (fuel + 1) levels (encodeReal x ++ rest) = some (.real x.quieted, rest) := by
  have half (w : Nat) (small : w < 2 * Binary64.half.signBit) :
      readItem (fuel + 1) levels (0xf9 :: bigEndian 2 w ++ rest) =
        some (.real (Binary64.half.widen w), rest) :=
    readItem_wide 25 rfl (by decide) small fuel levels rest
  cases number : x.isNaN with
  | true =>
    rw [encodeReal, number, Binary64.quieted, number]
    have quiet : Binary64.half.widen 0x7e00 = ⟨0x7ff8000000000000⟩ := by decide +kernel
    rw [if_pos rfl, if_pos rfl, ← quiet]
    exact half 0x7e00 (by decide)
  | false =>
    rw [encodeReal, number, Binary64.quieted, number]
    simp only [Bool.false_eq_true, if_false]
    split
    next w narrow =>
      obtain ⟨same, small⟩ := Binary64.Format.widen_narrow number narrow
      rw [half w small, same]
    · split
      next w narrow =>
        obtain ⟨same, small⟩ := Binary64.Format.widen_narrow number narrow
        rw [← same]
        exact readItem_wide 26 rfl (by decide) small fuel levels rest
      · have read := readItem_wide 27 rfl (by decide) x.bits.toNat_lt fuel levels rest
        rw [ofPrimitive, UInt64.ofNat_toNat] at read
        exact read

theorem ofPrimitive_short {code : Nat} (small : code < 24) : ofPrimitive code code = .simple code := by
  unfold ofPrimitive
  split <;> first | rfl | omega

/-- The content of a container whose items read back. -/
theorem readContent_encodeItems {item : Text → Option (Cbor × Text)} {items : List Cbor}
    {perElement count : Nat} (counted : items.length = perElement * count)
    (few : count ≤ maxElements)
    (each : ∀ x ∈ items, ∀ rest, item (encode x ++ rest) = some (x.quieted, rest)) (rest : Text) :
    readContent item perElement (some count) (encodeItems items ++ rest) =
      some (items.map quieted, rest) := by
  rw [readContent, if_pos few, ← counted]
  exact readCounted_encodeItems each rest

/-- An item within the limits reads back, whatever stands behind it. -/
theorem readItem_encode {item : Cbor} (plain : Plain item) {fuel levels : Nat}
    (within : fits levels item = true) (enough : levels ≤ fuel) (rest : Text) :
    readItem (fuel + 1) levels (encode item ++ rest) = some (item.quieted, rest) := by
  have limit : maxElements < UInt64.size := by decide
  induction plain generalizing fuel levels rest with
  | unsigned small =>
    obtain ⟨info, -, read⟩ := readItem_head (.inl (by decide : 0 < 6)) small fuel levels rest
    rw [encode, read]
    rfl
  | negative small =>
    obtain ⟨info, -, read⟩ := readItem_head (.inl (by decide : 1 < 6)) small fuel levels rest
    rw [encode, read]
    rfl
  | bytes b =>
    have small : b.length < UInt64.size := by simpa [fits] using within
    obtain ⟨info, -, read⟩ := readItem_head (.inl (by decide : 2 < 6)) small fuel levels (b ++ rest)
    rw [encode, List.append_assoc, read]
    simp only [readBody, readString_definite, Option.map_some, List.flatten_singleton, quieted]
  | text t =>
    have small : t.length < UInt64.size := by simpa [fits] using within
    obtain ⟨info, -, read⟩ := readItem_head (.inl (by decide : 3 < 6)) small fuel levels (t ++ rest)
    rw [encode, List.flatten_singleton, List.append_assoc, read]
    simp only [readBody, readString_definite, Option.map_some, quieted]
  | simple small =>
    obtain ⟨info, same, read⟩ := readItem_head (.inr ⟨rfl, small⟩)
      (Nat.lt_trans small (by decide)) fuel levels rest
    rw [encode, read, same small]
    simp only [readBody, Option.map_some, quieted, ofPrimitive_short small]
  | real x =>
    rw [encode, quieted]
    exact readItem_encodeReal x fuel levels rest
  | @array items plain ih =>
    simp only [fits, Bool.and_eq_true, decide_eq_true_eq, fitsItems_iff] at within
    obtain ⟨⟨deep, few⟩, each⟩ := within
    obtain ⟨fuel, rfl⟩ := Nat.exists_eq_add_one_of_ne_zero (by omega : fuel ≠ 0)
    obtain ⟨info, -, read⟩ := readItem_head (.inl (by decide : 4 < 6))
      (Nat.lt_of_le_of_lt few limit) (fuel + 1) levels (encodeItems items ++ rest)
    have shallower : levels - 1 ≤ fuel := by omega
    have content := readContent_encodeItems (Nat.one_mul _).symm few
      (fun x member => ih x member (each x member) shallower) rest
    rw [encode, List.append_assoc, read]
    simp only [readBody, Nat.ne_of_gt deep, if_false, content, Option.map_some, quieted,
      quietedItems_eq_map]
  | @map entries keys values ihKeys ihValues =>
    simp only [fits, Bool.and_eq_true, decide_eq_true_eq, fitsEntries_iff] at within
    obtain ⟨⟨deep, few⟩, each⟩ := within
    obtain ⟨fuel, rfl⟩ := Nat.exists_eq_add_one_of_ne_zero (by omega : fuel ≠ 0)
    obtain ⟨info, -, read⟩ := readItem_head (.inl (by decide : 5 < 6))
      (Nat.lt_of_le_of_lt few limit) (fuel + 1) levels (encodeEntries entries ++ rest)
    have shallower : levels - 1 ≤ fuel := by omega
    have parts (x : Cbor) (member : x ∈ interleaved entries) (rest : Text) :
        readItem (fuel + 1) (levels - 1) (encode x ++ rest) = some (x.quieted, rest) := by
      obtain ⟨entry, present, which⟩ := List.mem_flatMap.mp member
      obtain ⟨key, value⟩ := each entry present
      obtain rfl | rfl : x = entry.1 ∨ x = entry.2 := by simpa using which
      · exact ihKeys entry present key shallower rest
      · exact ihValues entry present value shallower rest
    have content := readContent_encodeItems (length_interleaved entries) few parts rest
    rw [encodeItems_interleaved] at content
    rw [encode, List.append_assoc, read]
    simp only [readBody, Nat.ne_of_gt deep, if_false, content, Option.bind_some,
      pairUp_interleaved, Option.map_some, quieted]

/-- An item within the limits is what its encoding decodes to. -/
theorem decode?_encode {item : Cbor} (plain : Plain item)
    (within : fits maxLevels item = true) : decode? (encode item) = some item.quieted := by
  have read := readItem_encode plain within (Nat.le_refl maxLevels) []
  rw [List.append_nil] at read
  rw [decode?, read]

end Cbor
end ScriptEngine
