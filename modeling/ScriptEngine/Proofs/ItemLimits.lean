import ScriptEngine.Proofs.CanonicalForm

/-! The limits of reading. Whatever form an item is read from, its strings and
containers are no larger than reading admits, so that its encoding is read back
exactly if its containers do not nest too deep. -/
namespace ScriptEngine.Cbor

/-! ### What is read is within the limits -/

/-- How many elements what is read has less than. -/
abbrev elementLimit : Nat := maxElements + 1

variable {t rest : Text} {x : Cbor} {items : List Cbor}

theorem takeBytes_some {count : Nat} {taken : Text} (read : takeBytes count t = some (taken, rest)) :
    taken.length + rest.length = t.length := by
  unfold takeBytes at read
  dsimp only at read
  split at read
  next =>
    obtain ⟨rfl, rfl⟩ := Prod.mk.inj (Option.some.inj read)
    rw [← List.length_append, List.take_append_drop]
  · cases read

theorem readHead_length {h : Head} (read : readHead t = some (h, rest)) : rest.length ≤ t.length := by
  cases t with
  | nil => cases read
  | cons lead t =>
    simp only [readHead] at read
    split at read
    · obtain ⟨-, rfl⟩ := Prod.mk.inj (Option.some.inj read)
      exact Nat.le_succ _
    · split at read
      · split at read
        · cases read
        · obtain ⟨-, rfl⟩ := Prod.mk.inj (Option.some.inj read)
          exact Nat.le_succ _
      · simp only [Option.bind_eq_bind, Option.bind_eq_some_iff] at read
        obtain ⟨width, -, ⟨digits, after⟩, taken, read⟩ := read
        have := takeBytes_some taken
        dsimp only at read
        split at read
        · cases read
        · obtain ⟨-, rfl⟩ := Prod.mk.inj (Option.some.inj read)
          rw [List.length_cons]
          omega

theorem readChunks_length {major fuel : Nat} {chunks : List Text}
    (read : readChunks major fuel t = some (chunks, rest)) :
    chunks.flatten.length + rest.length ≤ t.length := by
  induction fuel generalizing t chunks with
  | zero => cases read
  | succ fuel ih =>
    unfold readChunks at read
    split at read
    · obtain ⟨rfl, rfl⟩ := Prod.mk.inj (Option.some.inj read)
      simp
    · simp only [Option.bind_eq_bind, Option.bind_eq_some_iff] at read
      obtain ⟨⟨h, after⟩, head, length, -, read⟩ := read
      have := readHead_length head
      by_cases other : h.major ≠ major
      · rw [if_pos other] at read
        cases read
      · rw [if_neg other] at read
        simp only [Option.bind_eq_some_iff] at read
        obtain ⟨⟨chunk, after'⟩, taken, ⟨others, last⟩, more, read⟩ := read
        obtain ⟨rfl, rfl⟩ := Prod.mk.inj (Option.some.inj read)
        have := takeBytes_some taken
        have : others.flatten.length + last.length ≤ after'.length := ih more
        simp only [List.flatten_cons, List.length_append]
        omega

theorem readString_length {major : Nat} {argument : Option Nat} {chunks : List Text}
    (read : readString major argument t = some (chunks, rest)) :
    chunks.flatten.length + rest.length ≤ t.length := by
  unfold readString at read
  split at read
  · obtain ⟨⟨chunk, after⟩, taken, same⟩ := Option.map_eq_some_iff.mp read
    obtain ⟨rfl, rfl⟩ := Prod.mk.inj same
    rw [List.flatten_singleton]
    exact Nat.le_of_eq (takeBytes_some taken)
  · exact readChunks_length read

theorem readTags_length {fuel : Nat} {tags : List Nat}
    (read : readTags fuel t = some (tags, rest)) : rest.length ≤ t.length := by
  induction fuel generalizing t tags with
  | zero => cases read
  | succ fuel ih =>
    unfold readTags at read
    split at read
    · obtain ⟨-, rfl⟩ := Prod.mk.inj (Option.some.inj read)
      exact Nat.le_refl _
    · split at read
      · simp only [Option.bind_eq_bind, Option.bind_eq_some_iff] at read
        obtain ⟨⟨h, after⟩, head, number, -, ⟨numbers, last⟩, more, read⟩ := read
        obtain ⟨-, rfl⟩ := Prod.mk.inj (Option.some.inj read)
        exact Nat.le_trans (ih more) (readHead_length head)
      · obtain ⟨-, rfl⟩ := Prod.mk.inj (Option.some.inj read)
        exact Nat.le_refl _

/-- A reader of items that keeps the limits and does not read more than there is. -/
def Bounded (item : Text → Option (Cbor × Text)) : Prop :=
  ∀ t x rest, t.length < UInt64.size → item t = some (x, rest) →
    Sized elementLimit x ∧ rest.length ≤ t.length

variable {item : Text → Option (Cbor × Text)}

theorem Bounded.readCounted (bounded : Bounded item) {count : Nat} (short : t.length < UInt64.size)
    (read : readCounted item count t = some (items, rest)) :
    items.length = count ∧ (∀ x ∈ items, Sized elementLimit x) ∧ rest.length ≤ t.length := by
  induction count generalizing t items with
  | zero =>
    obtain ⟨rfl, rfl⟩ := Prod.mk.inj (Option.some.inj read)
    exact ⟨rfl, by simp, Nat.le_refl _⟩
  | succ count ih =>
    simp only [Cbor.readCounted, Option.bind_eq_bind, Option.bind_eq_some_iff] at read
    obtain ⟨⟨x, after⟩, first, ⟨xs, last⟩, more, read⟩ := read
    obtain ⟨rfl, rfl⟩ := Prod.mk.inj (Option.some.inj read)
    obtain ⟨sized, less⟩ := bounded _ _ _ short first
    obtain ⟨length, others, less'⟩ := ih (Nat.lt_of_le_of_lt less short) more
    exact ⟨by rw [List.length_cons, length], List.forall_mem_cons.mpr ⟨sized, others⟩,
      Nat.le_trans less' less⟩

theorem Bounded.readToBreak (bounded : Bounded item) {fuel : Nat} (short : t.length < UInt64.size)
    (read : readToBreak item fuel t = some (items, rest)) :
    (∀ x ∈ items, Sized elementLimit x) ∧ rest.length ≤ t.length := by
  induction fuel generalizing t items with
  | zero => cases read
  | succ fuel ih =>
    unfold Cbor.readToBreak at read
    split at read
    · obtain ⟨rfl, rfl⟩ := Prod.mk.inj (Option.some.inj read)
      exact ⟨by simp, Nat.le_succ _⟩
    · simp only [Option.bind_eq_bind, Option.bind_eq_some_iff] at read
      obtain ⟨⟨x, after⟩, first, ⟨xs, last⟩, more, read⟩ := read
      obtain ⟨rfl, rfl⟩ := Prod.mk.inj (Option.some.inj read)
      obtain ⟨sized, less⟩ := bounded _ _ _ short first
      obtain ⟨others, less'⟩ := ih (Nat.lt_of_le_of_lt less short) more
      exact ⟨List.forall_mem_cons.mpr ⟨sized, others⟩, Nat.le_trans less' less⟩

theorem Bounded.readContent (bounded : Bounded item) {perElement : Nat} {argument : Option Nat}
    (positive : 0 < perElement) (short : t.length < UInt64.size)
    (read : readContent item perElement argument t = some (items, rest)) :
    items.length / perElement < elementLimit ∧ (∀ x ∈ items, Sized elementLimit x) ∧
      rest.length ≤ t.length := by
  unfold Cbor.readContent at read
  split at read
  · split at read
    next few =>
      obtain ⟨length, each, less⟩ := bounded.readCounted short read
      rw [length, Nat.mul_div_cancel_left _ positive]
      exact ⟨Nat.lt_succ_of_le few, each, less⟩
    · cases read
  · simp only [Option.bind_eq_bind, Option.bind_eq_some_iff] at read
    obtain ⟨⟨xs, last⟩, content, read⟩ := read
    split at read
    next few =>
      obtain ⟨rfl, rfl⟩ := Prod.mk.inj (Option.some.inj read)
      obtain ⟨each, less⟩ := bounded.readToBreak short content
      exact ⟨Nat.lt_succ_of_le few, each, less⟩
    · cases read

theorem pairUp_some {entries : List (Cbor × Cbor)} (paired : pairUp items = some entries) :
    items = interleaved entries := by
  induction items using pairUp.induct generalizing entries with
  | case1 =>
    obtain rfl := Option.some.inj paired
    rfl
  | case2 => cases paired
  | case3 k v rest ih =>
    obtain ⟨others, more, rfl⟩ := Option.map_eq_some_iff.mp paired
    rw [ih more]
    rfl

theorem Bounded.readBody (bounded : Bounded item) {levels : Nat} {h : Head}
    (short : t.length < UInt64.size) (read : readBody item levels h t = some (x, rest)) :
    Sized elementLimit x ∧ rest.length ≤ t.length := by
  unfold Cbor.readBody at read
  split at read
  · obtain ⟨n, -, same⟩ := Option.map_eq_some_iff.mp read
    obtain ⟨rfl, rfl⟩ := Prod.mk.inj same
    exact ⟨.unsigned n, Nat.le_refl _⟩
  · obtain ⟨n, -, same⟩ := Option.map_eq_some_iff.mp read
    obtain ⟨rfl, rfl⟩ := Prod.mk.inj same
    exact ⟨.negative n, Nat.le_refl _⟩
  · obtain ⟨⟨chunks, after⟩, string, same⟩ := Option.map_eq_some_iff.mp read
    obtain ⟨rfl, rfl⟩ := Prod.mk.inj same
    have := readString_length string
    exact ⟨.bytes (by omega), by omega⟩
  · obtain ⟨⟨chunks, after⟩, string, same⟩ := Option.map_eq_some_iff.mp read
    obtain ⟨rfl, rfl⟩ := Prod.mk.inj same
    have := readString_length string
    exact ⟨.text (by omega), by omega⟩
  · split at read
    · cases read
    · obtain ⟨⟨items, after⟩, content, same⟩ := Option.map_eq_some_iff.mp read
      obtain ⟨rfl, rfl⟩ := Prod.mk.inj same
      obtain ⟨few, each, less⟩ := bounded.readContent Nat.one_pos short content
      rw [Nat.div_one] at few
      exact ⟨.array few each, less⟩
  · split at read
    · cases read
    · obtain ⟨⟨items, after⟩, content, read⟩ := Option.bind_eq_some_iff.mp read
      obtain ⟨entries, paired, same⟩ := Option.map_eq_some_iff.mp read
      obtain ⟨rfl, rfl⟩ := Prod.mk.inj same
      obtain ⟨few, each, less⟩ := bounded.readContent Nat.two_pos short content
      obtain rfl := pairUp_some paired
      rw [length_interleaved, Nat.mul_div_cancel_left _ Nat.two_pos] at few
      rw [forall_mem_interleaved] at each
      exact ⟨.map few (fun entry member => (each entry member).1)
        fun entry member => (each entry member).2, less⟩
  · obtain ⟨n, -, same⟩ := Option.map_eq_some_iff.mp read
    obtain ⟨rfl, rfl⟩ := Prod.mk.inj same
    refine ⟨?_, Nat.le_refl _⟩
    unfold ofPrimitive
    split
    · exact .real _
    · exact .real _
    · exact .real _
    · exact .simple _

theorem Sized.tags {limit : Nat} (sized : Sized limit x) (tags : List Nat) :
    Sized limit (tags.foldr .tag x) := by
  induction tags with
  | nil => exact sized
  | cons number tags ih => exact .tag number ih

/-- Whatever is read is within the limits. -/
theorem bounded_readItem (fuel levels : Nat) : Bounded (readItem fuel levels) := by
  induction fuel generalizing levels with
  | zero =>
    intro t x rest short read
    cases read
  | succ fuel ih =>
    intro t x rest short read
    simp only [readItem, Option.bind_eq_bind, Option.bind_eq_some_iff] at read
    obtain ⟨⟨tags, after⟩, tagged, read⟩ := read
    split at read
    · cases read
    · simp only [Option.bind_eq_some_iff] at read
      obtain ⟨⟨h, after'⟩, head, ⟨content, last⟩, body, read⟩ := read
      obtain ⟨rfl, rfl⟩ := Prod.mk.inj (Option.some.inj read)
      have first := readTags_length tagged
      have second := readHead_length head
      have shorter : after'.length ≤ t.length := Nat.le_trans second first
      obtain ⟨sized, less⟩ := (ih _).readBody (Nat.lt_of_le_of_lt shorter short) body
      exact ⟨sized.tags tags, Nat.le_trans less shorter⟩

theorem sized_of_decode? (short : t.length < UInt64.size) (decoded : decode? t = some x) :
    Sized elementLimit x := by
  unfold decode? at decoded
  split at decoded
  next item read =>
    obtain rfl := Option.some.inj decoded
    exact (bounded_readItem _ _ _ _ _ short read).1
  · cases decoded

/-! ### What is written is read back if it nests within the limits -/

mutual

/-- How many containers nest in an item. -/
def depth : Cbor → Nat
  | .array items => depthItems items + 1
  | .map entries => depthEntries entries + 1
  | .tag _ content => depth content
  | _ => 0

def depthItems : List Cbor → Nat
  | [] => 0
  | item :: rest => max (depth item) (depthItems rest)

def depthEntries : List (Cbor × Cbor) → Nat
  | [] => 0
  | entry :: rest => max (depthEntry entry) (depthEntries rest)

def depthEntry : Cbor × Cbor → Nat
  | (key, value) => max (depth key) (depth value)

end

theorem depthItems_le {levels : Nat} : depthItems items ≤ levels ↔ ∀ x ∈ items, x.depth ≤ levels := by
  induction items with
  | nil => simp [depthItems]
  | cons x items ih => simp [depthItems, ih]

theorem depthEntries_le {entries : List (Cbor × Cbor)} {levels : Nat} :
    depthEntries entries ≤ levels ↔ ∀ x ∈ interleaved entries, x.depth ≤ levels := by
  induction entries with
  | nil => simp [depthEntries, interleaved]
  | cons entry entries ih =>
    obtain ⟨key, value⟩ := entry
    rw [depthEntries, depthEntry, Nat.max_le, Nat.max_le, ih, and_assoc]
    simp only [interleaved, List.flatMap_cons, List.cons_append, List.nil_append,
      List.forall_mem_cons]

/-- A container is one level deeper than what it holds. -/
theorem container_fits {levels inner count : Nat} (few : count < elementLimit)
    (deepest : ∀ levels, inner ≤ levels ↔ ∀ x ∈ items, x.depth ≤ levels)
    (each : ∀ x ∈ items, fits (levels - 1) x = true ↔ x.depth ≤ levels - 1) :
    ((0 < levels ∧ count ≤ maxElements) ∧ ∀ x ∈ items, fits (levels - 1) x = true) ↔
      inner + 1 ≤ levels := by
  constructor
  · rintro ⟨⟨positive, -⟩, fits⟩
    have := (deepest (levels - 1)).mpr fun x member => (each x member).mp (fits x member)
    omega
  · intro within
    refine ⟨⟨by omega, Nat.le_of_lt_succ few⟩, fun x member => (each x member).mpr ?_⟩
    exact (deepest (levels - 1)).mp (by omega) x member

/-- Within the limits of size, only the depth matters. -/
theorem fits_iff {levels : Nat} (plain : Plain x) (sized : Sized elementLimit x) :
    fits levels x = true ↔ x.depth ≤ levels := by
  induction plain generalizing levels with
  | unsigned | negative | simple | real => simp [fits, depth]
  | bytes b =>
    cases sized with
    | bytes short => simp [fits, depth, short]
  | text t =>
    cases sized with
    | text short => simp only [fits, depth, short, decide_true, Nat.zero_le]
  | @array items plain ih =>
    obtain ⟨few, each⟩ := sized.items
    rw [fits, depth, Bool.and_eq_true, Bool.and_eq_true, decide_eq_true_eq, decide_eq_true_eq,
      fitsItems_iff]
    exact container_fits few (fun _ => depthItems_le) fun x member => ih x member (each x member)
  | @map entries keys values ihKeys ihValues =>
    obtain ⟨few, each⟩ := sized.entries
    have parts : ∀ x ∈ interleaved entries,
        (fits (levels - 1) x = true ↔ x.depth ≤ levels - 1) := by
      refine forall_mem_interleaved.mpr fun entry present => ?_
      obtain ⟨key, value⟩ := forall_mem_interleaved.mp each entry present
      exact ⟨ihKeys entry present key, ihValues entry present value⟩
    rw [fits, depth, Bool.and_eq_true, Bool.and_eq_true, decide_eq_true_eq, decide_eq_true_eq,
      fitsEntries_iff, ← forall_mem_interleaved (p := fun x => fits (levels - 1) x = true)]
    exact container_fits few (fun _ => depthEntries_le) parts

/-- Items that each are read back or refused are refused if one is. -/
theorem readCounted_none {items : List Cbor}
    (each : ∀ x ∈ items, (∀ rest, item (encode x ++ rest) = some (x.quieted, rest)) ∨
      ∀ rest, item (encode x ++ rest) = none)
    (refused : ∃ x ∈ items, ∀ rest, item (encode x ++ rest) = none) (rest : Text) :
    readCounted item items.length (encodeItems items ++ rest) = none := by
  induction items with
  | nil =>
    obtain ⟨x, member, -⟩ := refused
    exact absurd member List.not_mem_nil
  | cons x items ih =>
    rw [List.length_cons, readCounted, encodeItems, List.append_assoc]
    rcases each x List.mem_cons_self with first | first
    · have later : ∃ y ∈ items, ∀ rest, item (encode y ++ rest) = none := by
        obtain ⟨y, member, none⟩ := refused
        rcases List.mem_cons.mp member with rfl | member
        · exact absurd ((first []).symm.trans (none [])) (by simp)
        · exact ⟨y, member, none⟩
      have others := ih (fun y member => each y (List.mem_cons_of_mem _ member)) later
      simp only [first, Option.bind_eq_bind, Option.bind_some, others, Option.bind_none]
    · simp only [first, Option.bind_eq_bind, Option.bind_none]

/-- A container is refused for an item that is too deep for it. -/
theorem readContent_deep {levels fuel perElement count : Nat}
    (counted : items.length = perElement * count) (few : count < elementLimit)
    (plain : ∀ x ∈ items, Plain x) (sized : ∀ x ∈ items, Sized elementLimit x)
    (refuses : ∀ x ∈ items, levels < x.depth → ∀ rest,
      readItem (fuel + 1) levels (encode x ++ rest) = none)
    (deep : ¬∀ x ∈ items, x.depth ≤ levels) (enough : levels ≤ fuel) (rest : Text) :
    readContent (readItem (fuel + 1) levels) perElement (some count) (encodeItems items ++ rest) =
      none := by
  rw [readContent, if_pos (Nat.le_of_lt_succ few), ← counted]
  simp only [not_forall, Nat.not_le] at deep
  obtain ⟨x, member, deep⟩ := deep
  refine readCounted_none ?_ ⟨x, member, refuses x member deep⟩ rest
  intro y member
  by_cases shallow : y.depth ≤ levels
  · have within := (fits_iff (plain y member) (sized y member)).mpr shallow
    exact .inl (readItem_encode (plain y member) within enough)
  · exact .inr (refuses y member (Nat.lt_of_not_le shallow))

theorem readItem_encode_deep (plain : Plain x) (sized : Sized elementLimit x) {fuel levels : Nat}
    (deep : levels < x.depth) (enough : levels ≤ fuel) (rest : Text) :
    readItem (fuel + 1) levels (encode x ++ rest) = none := by
  have limit : elementLimit < UInt64.size := by decide
  induction plain generalizing fuel levels rest with
  | unsigned | negative | bytes | text | simple | real => exact absurd deep (Nat.not_lt_zero _)
  | @array items plain ih =>
    obtain ⟨few, each⟩ := sized.items
    obtain ⟨info, -, read⟩ := readItem_head (.inl (by decide : 4 < 6)) (Nat.lt_trans few limit)
      fuel levels (encodeItems items ++ rest)
    rw [encode, List.append_assoc, read]
    simp only [readBody]
    split
    next => rfl
    next positive =>
      obtain ⟨fuel, rfl⟩ := Nat.exists_eq_add_one_of_ne_zero (by omega : fuel ≠ 0)
      have shallower : levels - 1 ≤ fuel := by omega
      have exceeds : ¬∀ x ∈ items, x.depth ≤ levels - 1 := by
        rw [← depthItems_le]
        rw [depth] at deep
        omega
      rw [readContent_deep (Nat.one_mul _).symm few plain each
        (fun x member deep => ih x member (each x member) deep shallower) exceeds shallower,
        Option.map_none]
  | @map entries keys values ihKeys ihValues =>
    obtain ⟨few, each⟩ := sized.entries
    obtain ⟨info, -, read⟩ := readItem_head (.inl (by decide : 5 < 6)) (Nat.lt_trans few limit)
      fuel levels (encodeEntries entries ++ rest)
    rw [encode, List.append_assoc, read, ← encodeItems_interleaved]
    simp only [readBody]
    split
    next => rfl
    next positive =>
      obtain ⟨fuel, rfl⟩ := Nat.exists_eq_add_one_of_ne_zero (by omega : fuel ≠ 0)
      have shallower : levels - 1 ≤ fuel := by omega
      have exceeds : ¬∀ x ∈ interleaved entries, x.depth ≤ levels - 1 := by
        rw [← depthEntries_le]
        rw [depth] at deep
        omega
      have plain : ∀ x ∈ interleaved entries, Plain x := forall_mem_interleaved.mpr
        fun entry present => ⟨keys entry present, values entry present⟩
      have refuses : ∀ x ∈ interleaved entries, levels - 1 < x.depth → ∀ rest,
          readItem (fuel + 1) (levels - 1) (encode x ++ rest) = none := by
        refine forall_mem_interleaved.mpr fun entry present => ?_
        obtain ⟨key, value⟩ := forall_mem_interleaved.mp each entry present
        constructor
        · intro deep rest
          exact ihKeys entry present key deep shallower rest
        · intro deep rest
          exact ihValues entry present value deep shallower rest
      rw [readContent_deep (length_interleaved entries) few plain each refuses exceeds shallower,
        Option.bind_none]

/-- What is within the limits of size is read back exactly if it is not too deep. -/
theorem decode?_encode_sized (plain : Plain x) (sized : Sized elementLimit x) :
    decode? (encode x) = if x.depth ≤ maxLevels then some x.quieted else none := by
  split
  next shallow => exact decode?_encode plain ((fits_iff plain sized).mpr shallow)
  next deep =>
    have refused := readItem_encode_deep plain sized (Nat.lt_of_not_le deep)
      (Nat.le_refl maxLevels) []
    rw [List.append_nil] at refused
    rw [decode?, refused]

end ScriptEngine.Cbor
