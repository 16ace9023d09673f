import ScriptEngine.Proofs.CborRoundTrip

/-! Canonical encodings tell items apart. Two items are written alike exactly
when they are the same up to the bits of a not-a-number, and the encoding of one
is never the beginning of the encoding of another. Unlike reading back, this
needs no limits: numbers and lengths only have to fit the 64 bits of a head. -/
namespace ScriptEngine.Cbor

/-- Items whose strings have a length of 64 bits, and whose arrays and maps have
fewer elements than some limit. -/
inductive Sized (limit : Nat) : Cbor → Prop
  | unsigned (n : Nat) : Sized limit (.unsigned n)
  | negative (n : Nat) : Sized limit (.negative n)
  | bytes {b : Text} (short : b.length < UInt64.size) : Sized limit (.bytes b)
  | text {chunks : List Text} (short : chunks.flatten.length < UInt64.size) :
      Sized limit (.text chunks)
  | array {items : List Cbor} (few : items.length < limit)
      (each : ∀ item ∈ items, Sized limit item) : Sized limit (.array items)
  | map {entries : List (Cbor × Cbor)} (few : entries.length < limit)
      (keys : ∀ entry ∈ entries, Sized limit entry.1)
      (values : ∀ entry ∈ entries, Sized limit entry.2) : Sized limit (.map entries)
  | tag (number : Nat) {content : Cbor} (sized : Sized limit content) :
      Sized limit (.tag number content)
  | simple (code : Nat) : Sized limit (.simple code)
  | real (x : Binary64) : Sized limit (.real x)

/-! ### One encoding for the same item -/

theorem encodeReal_quieted (x : Binary64) : encodeReal x.quieted = encodeReal x := by
  unfold Binary64.quieted
  cases number : x.isNaN with
  | true =>
    have quiet : Binary64.isNaN ⟨0x7ff8000000000000⟩ = true := by decide
    rw [if_pos rfl, encodeReal, encodeReal, number, quiet, if_pos rfl, if_pos rfl]
  | false => rw [if_neg Bool.false_ne_true]

mutual

theorem encode_quieted : (item : Cbor) → encode item.quieted = encode item
  | .unsigned _ | .negative _ | .bytes _ | .text _ | .simple _ => rfl
  | .array items => by
    rw [quieted, encode, encode, encodeItems_quieted items, quietedItems_eq_map, List.length_map]
  | .map entries => by
    rw [quieted, encode, encode, encodeEntries_quieted entries, quietedEntries_eq_map,
      List.length_map]
  | .tag number content => by rw [quieted, encode, encode, encode_quieted content]
  | .real x => by rw [quieted, encode, encode, encodeReal_quieted]

theorem encodeItems_quieted : (items : List Cbor) →
    encodeItems (quietedItems items) = encodeItems items
  | [] => rfl
  | item :: rest => by
    rw [quietedItems, encodeItems, encodeItems, encode_quieted item, encodeItems_quieted rest]

theorem encodeEntries_quieted : (entries : List (Cbor × Cbor)) →
    encodeEntries (quietedEntries entries) = encodeEntries entries
  | [] => rfl
  | (key, value) :: rest => by
    rw [quietedEntries, quietedEntry, encodeEntries, encodeEntry, encodeEntries, encodeEntry,
      encode_quieted key, encode_quieted value, encodeEntries_quieted rest]

end

/-! ### One item for the same encoding -/

variable {x y : Cbor} {r s : Text}

/-- The major type that an item is written with. -/
def major : Cbor → Nat
  | .unsigned _ => 0
  | .negative _ => 1
  | .bytes _ => 2
  | .text _ => 3
  | .array _ => 4
  | .map _ => 5
  | .tag .. => 6
  | .simple _ | .real _ => 7

/-- A head is over where its argument is. -/
theorem head_append_inj {m m' n n' : Nat} (kind : m < 7 ∨ m = 7 ∧ n < 24)
    (kind' : m' < 7 ∨ m' = 7 ∧ n' < 24) (small : n < UInt64.size) (small' : n' < UInt64.size)
    (same : head m n ++ r = head m' n' ++ s) : n = n' ∧ r = s := by
  obtain ⟨info, read, -⟩ := readHead_head kind small r
  obtain ⟨info', read', -⟩ := readHead_head kind' small' s
  rw [same, read'] at read
  obtain ⟨heads, rfl⟩ := Prod.mk.inj (Option.some.inj read)
  exact ⟨(Option.some.inj (Head.mk.inj heads).2.2).symm, rfl⟩

theorem encodeReal_lead (x : Binary64) :
    ∃ info tail, info < 32 ∧ encodeReal x = (7 * 32 + info).toUInt8 :: tail := by
  unfold encodeReal
  split
  · exact ⟨25, _, by decide, rfl⟩
  · split
    · exact ⟨25, _, by decide, rfl⟩
    · split
      · exact ⟨26, _, by decide, rfl⟩
      · exact ⟨27, _, by decide, rfl⟩

/-- An encoding begins with the major type of its item. -/
theorem encode_lead (x : Cbor) :
    ∃ lead tail, encode x = lead :: tail ∧ lead.toNat / 32 = x.major := by
  have headed (m n : Nat) (kind : m < 8) (t : Text) :
      ∃ lead tail, head m n ++ t = lead :: tail ∧ lead.toNat / 32 = m := by
    obtain ⟨info, tail, low, same⟩ := head_lead m n
    exact ⟨_, tail ++ t, by rw [same, List.cons_append], (lead_fields kind low).1⟩
  have alone (m n : Nat) (kind : m < 8) := List.append_nil (head m n) ▸ headed m n kind []
  cases x with
  | unsigned n => exact alone 0 n (by decide)
  | negative n => exact alone 1 n (by decide)
  | bytes b => exact headed 2 _ (by decide) _
  | text chunks => exact headed 3 _ (by decide) _
  | array items => exact headed 4 _ (by decide) _
  | map entries => exact headed 5 _ (by decide) _
  | tag number content => exact headed 6 _ (by decide) _
  | simple code => exact alone 7 code (by decide)
  | real x =>
    obtain ⟨info, tail, low, same⟩ := encodeReal_lead x
    exact ⟨_, tail, same, (lead_fields (by decide) low).1⟩

theorem major_eq (same : encode x ++ r = encode y ++ s) : x.major = y.major := by
  obtain ⟨lead, tail, first, kind⟩ := encode_lead x
  obtain ⟨lead', tail', first', kind'⟩ := encode_lead y
  rw [first, first', List.cons_append, List.cons_append] at same
  rw [← kind, ← kind', (List.cons.inj same).1]

theorem Sized.flat {limit : Nat} (sized : Sized limit x) (plain : Plain x) (array : x.major ≠ 4)
    (map : x.major ≠ 5) : fits 0 x = true := by
  cases plain with
  | array => exact absurd rfl array
  | map => exact absurd rfl map
  | bytes b =>
    cases sized with
    | bytes short => exact decide_eq_true short
  | text t =>
    cases sized with
    | text short => exact decide_eq_true short
  | unsigned | negative | simple | real => rfl

/-- Items without others inside are told apart by reading them back. -/
theorem flat_append_inj (plain : Plain x) (plain' : Plain y) (sized : Sized UInt64.size x)
    (sized' : Sized UInt64.size y) (flat : x.major ≠ 4 ∧ x.major ≠ 5)
    (same : encode x ++ r = encode y ++ s) : x.quieted = y.quieted ∧ r = s := by
  have kinds := major_eq same
  have within := sized.flat plain flat.1 flat.2
  have within' := sized'.flat plain' (kinds ▸ flat.1) (kinds ▸ flat.2)
  have read := readItem_encode plain within (Nat.le_refl 0) r
  rw [same, readItem_encode plain' within' (Nat.le_refl 0) s] at read
  obtain ⟨items, rests⟩ := Prod.mk.inj (Option.some.inj read)
  exact ⟨items.symm, rests.symm⟩

theorem encodeItems_append_inj {xs ys : List Cbor} (length : xs.length = ys.length)
    (each : ∀ x ∈ xs, ∀ y ∈ ys, ∀ r s, encode x ++ r = encode y ++ s →
      x.quieted = y.quieted ∧ r = s)
    (same : encodeItems xs ++ r = encodeItems ys ++ s) :
    xs.map quieted = ys.map quieted ∧ r = s := by
  induction xs generalizing ys with
  | nil =>
    obtain rfl := List.length_eq_zero_iff.mp length.symm
    exact ⟨rfl, same⟩
  | cons x xs ih =>
    obtain ⟨y, ys, rfl⟩ := List.exists_cons_of_length_eq_add_one length.symm
    rw [encodeItems, encodeItems, List.append_assoc, List.append_assoc] at same
    obtain ⟨first, later⟩ := each x List.mem_cons_self y List.mem_cons_self _ _ same
    obtain ⟨others, rest⟩ := ih (Nat.succ.inj length)
      (fun x member y member' => each x (List.mem_cons_of_mem _ member) y
        (List.mem_cons_of_mem _ member')) later
    exact ⟨by rw [List.map_cons, List.map_cons, first, others], rest⟩

/-- The items of two containers with equally many elements are told apart. -/
theorem container_append_inj {m n n' : Nat} {xs ys : List Cbor} (kind : m < 7)
    (small : n < UInt64.size) (small' : n' < UInt64.size)
    (lengths : n = n' → xs.length = ys.length)
    (each : ∀ x ∈ xs, ∀ y ∈ ys, ∀ r s, encode x ++ r = encode y ++ s →
      x.quieted = y.quieted ∧ r = s)
    (same : (head m n ++ encodeItems xs) ++ r = (head m n' ++ encodeItems ys) ++ s) :
    xs.map quieted = ys.map quieted ∧ r = s := by
  rw [List.append_assoc, List.append_assoc] at same
  obtain ⟨counts, content⟩ := head_append_inj (.inl kind) (.inl kind) small small' same
  exact encodeItems_append_inj (lengths counts) each content

theorem forall_mem_interleaved {p : Cbor → Prop} {entries : List (Cbor × Cbor)} :
    (∀ x ∈ interleaved entries, p x) ↔ ∀ entry ∈ entries, p entry.1 ∧ p entry.2 := by
  induction entries with
  | nil => simp [interleaved]
  | cons entry rest ih =>
    rw [interleaved, List.flatMap_cons, List.forall_mem_append, ← interleaved, ih,
      List.forall_mem_cons]
    simp

theorem Sized.items {limit : Nat} {items : List Cbor} (sized : Sized limit (.array items)) :
    items.length < limit ∧ ∀ x ∈ items, Sized limit x := by
  cases sized with
  | array few each => exact ⟨few, each⟩

theorem Sized.entries {limit : Nat} {entries : List (Cbor × Cbor)}
    (sized : Sized limit (.map entries)) :
    entries.length < limit ∧ ∀ x ∈ interleaved entries, Sized limit x := by
  cases sized with
  | map few keys values =>
    exact ⟨few, forall_mem_interleaved.mpr fun entry present =>
      ⟨keys entry present, values entry present⟩⟩

/-- An encoding tells which item it is of, and where it ends. -/
theorem encode_append_inj (plain : Plain x) (plain' : Plain y) (sized : Sized UInt64.size x)
    (sized' : Sized UInt64.size y) (same : encode x ++ r = encode y ++ s) :
    x.quieted = y.quieted ∧ r = s := by
  induction plain generalizing y r s with
  | unsigned small =>
    exact flat_append_inj (.unsigned small) plain' sized sized' (by simp [major]) same
  | negative small =>
    exact flat_append_inj (.negative small) plain' sized sized' (by simp [major]) same
  | bytes b => exact flat_append_inj (.bytes b) plain' sized sized' (by simp [major]) same
  | text t => exact flat_append_inj (.text t) plain' sized sized' (by simp [major]) same
  | simple small => exact flat_append_inj (.simple small) plain' sized sized' (by simp [major]) same
  | real z => exact flat_append_inj (.real z) plain' sized sized' (by simp [major]) same
  | @array items plain ih =>
    have kinds := major_eq same
    cases plain' with
    | unsigned | negative | bytes | text | map | simple | real => simp [major] at kinds
    | @array items' plain' =>
      obtain ⟨few, each⟩ := sized.items
      obtain ⟨few', each'⟩ := sized'.items
      rw [encode, encode] at same
      obtain ⟨content, rests⟩ := container_append_inj (by decide) few few' id
        (fun x member y member' _ _ same =>
          ih x member (plain' y member') (each x member) (each' y member') same) same
      rw [quieted, quieted, quietedItems_eq_map, quietedItems_eq_map, content]
      exact ⟨rfl, rests⟩
  | @map entries keys values ihKeys ihValues =>
    have kinds := major_eq same
    cases plain' with
    | unsigned | negative | bytes | text | array | simple | real => simp [major] at kinds
    | @map entries' keys' values' =>
      obtain ⟨few, each⟩ := sized.entries
      obtain ⟨few', each'⟩ := sized'.entries
      rw [encode, encode, ← encodeItems_interleaved, ← encodeItems_interleaved] at same
      have lengths (counts : entries.length = entries'.length) :
          (interleaved entries).length = (interleaved entries').length := by
        rw [length_interleaved, length_interleaved, counts]
      have plain' : ∀ y ∈ interleaved entries', Plain y := forall_mem_interleaved.mpr
        fun entry present => ⟨keys' entry present, values' entry present⟩
      have parts : ∀ x ∈ interleaved entries, ∀ y ∈ interleaved entries', ∀ r s,
          encode x ++ r = encode y ++ s → x.quieted = y.quieted ∧ r = s := by
        refine forall_mem_interleaved.mpr fun entry present => ?_
        obtain ⟨key, value⟩ := forall_mem_interleaved.mp each entry present
        constructor
        · intro y member r s same
          exact ihKeys entry present (plain' y member) key (each' y member) same
        · intro y member r s same
          exact ihValues entry present (plain' y member) value (each' y member) same
      obtain ⟨content, rests⟩ := container_append_inj (by decide) few few' lengths parts same
      have paired := pairUp_interleaved entries
      rw [content, pairUp_interleaved entries'] at paired
      rw [quieted, quieted, Option.some.inj paired]
      exact ⟨rfl, rests⟩

theorem encode_length_pos (x : Cbor) : 0 < (encode x).length := by
  obtain ⟨lead, tail, same, -⟩ := encode_lead x
  rw [same]
  exact Nat.zero_lt_succ _

theorem length_le_encodeItems (items : List Cbor) : items.length ≤ (encodeItems items).length := by
  induction items with
  | nil => exact Nat.le_refl 0
  | cons x items ih =>
    have := encode_length_pos x
    rw [encodeItems, List.length_append, List.length_cons]
    omega

theorem length_encode_le {items : List Cbor} (member : x ∈ items) :
    (encode x).length ≤ (encodeItems items).length := by
  induction items with
  | nil => exact absurd member List.not_mem_nil
  | cons y items ih =>
    rw [encodeItems, List.length_append]
    rcases List.mem_cons.mp member with rfl | later
    · exact Nat.le_add_right _ _
    · exact Nat.le_trans (ih later) (Nat.le_add_left _ _)

/-- What is written in few bytes has short strings and few elements. -/
theorem Sized.of_length {limit : Nat} (small : limit ≤ UInt64.size) (plain : Plain x)
    (short : (encode x).length < limit) : Sized limit x := by
  induction plain with
  | unsigned => exact .unsigned _
  | negative => exact .negative _
  | simple => exact .simple _
  | real => exact .real _
  | bytes b =>
    rw [encode, List.length_append] at short
    exact .bytes (by omega)
  | text t =>
    rw [encode, List.length_append] at short
    exact .text (by omega)
  | @array items plain ih =>
    rw [encode, List.length_append] at short
    have few := length_le_encodeItems items
    refine .array (by omega) fun x member => ih x member ?_
    have := length_encode_le member
    omega
  | @map entries keys values ihKeys ihValues =>
    rw [encode, ← encodeItems_interleaved, List.length_append] at short
    have few := length_le_encodeItems (interleaved entries)
    rw [length_interleaved] at few
    have parts : ∀ x ∈ interleaved entries, (encode x).length < limit := by
      intro x member
      have := length_encode_le member
      omega
    rw [forall_mem_interleaved] at parts
    refine .map (by omega) ?_ ?_
    · intro entry member
      exact ihKeys entry member (parts entry member).1
    · intro entry member
      exact ihValues entry member (parts entry member).2

/-- Items are written alike exactly if they differ in not-a-numbers only, as long
as what is written has a length of 64 bits. -/
theorem encode_eq_iff (plain : Plain x) (plain' : Plain y)
    (short : (encode x).length < UInt64.size) : encode x = encode y ↔ x.quieted = y.quieted := by
  constructor
  · intro same
    have sized : Sized UInt64.size x := .of_length (Nat.le_refl _) plain short
    have sized' : Sized UInt64.size y := .of_length (Nat.le_refl _) plain' (same ▸ short)
    exact (encode_append_inj plain plain' sized sized' (congrArg (· ++ []) same)).1
  · intro same
    rw [← encode_quieted x, same, encode_quieted]

end ScriptEngine.Cbor
