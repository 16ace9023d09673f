import ScriptEngine.Proofs.CanonicalForm
import ScriptEngine.Proofs.WireRoundTrip

/-! What the hash of a block depends on. The bytes that are hashed are the same
for two blocks exactly if the blocks have the same content at every depth, apart
from identities and the bits of a not-a-number. -/
namespace ScriptEngine

theorem Binary64.quieted_eq_iff {x y : Binary64} :
    x.quieted = y.quieted ↔ x = y ∨ x.isNaN = true ∧ y.isNaN = true := by
  have quiet : Binary64.isNaN ⟨0x7ff8000000000000⟩ = true := by decide
  unfold quieted
  cases left : x.isNaN <;> cases right : y.isNaN <;>
    simp only [Bool.false_eq_true, if_false, if_true, and_true, and_false, or_false, or_true,
      and_self]
  · constructor
    · rintro rfl
      exact absurd (left.symm.trans quiet) (by decide)
    · rintro rfl
      exact absurd (left.symm.trans right) (by decide)
  · constructor
    · rintro rfl
      exact absurd (right.symm.trans quiet) (by decide)
    · rintro rfl
      exact absurd (right.symm.trans left) (by decide)

/-- A value with the pattern that all not-a-numbers are written with. -/
def Value.quieted : Value → Value
  | .real x => .real x.quieted
  | v => v

namespace Wire

/-! ### Records with the same fields -/

namespace Field

variable {f g : Field} {fields fields' : List Field}

/-- Fields that leave the same in a record. -/
structure Agree (f g : Field) : Prop where
  absent : f.absent = g.absent
  value : f.absent = false → f.value = g.value

theorem key_mem {key : Nat} {value : Cbor}
    (member : entry key value ∈ fields.flatMap entries) : key ∈ fields.map Field.key := by
  obtain ⟨f, present, member⟩ := List.mem_flatMap.mp member
  unfold entries entryUnless at member
  split at member
  · exact absurd member List.not_mem_nil
  · have same := List.mem_singleton.mp member
    rw [Cbor.unsigned.inj (Prod.mk.inj same).1]
    exact List.mem_map_of_mem present

/-- A field that is left out is not made up for by the later ones. -/
theorem not_absent (later : ∀ key ∈ fields.map Field.key, f.key < key) (same : f.key = g.key)
    (absent : f.absent = true) (present : g.absent = false) {tail : List (Cbor × Cbor)} :
    f.entries ++ fields.flatMap entries ≠ g.entries ++ tail := by
  intro entries
  have found : entry g.key g.value ∈ fields.flatMap Field.entries := by
    rw [Field.entries, absent] at entries
    change fields.flatMap Field.entries = _ at entries
    rw [entries, Field.entries, present]
    exact List.mem_cons_self
  exact absurd (later _ (key_mem found)) (Nat.not_lt_of_ge (Nat.le_of_eq same.symm))

/-- Records with the same keys are equal field by field. -/
theorem agree_of_flatMap (keys : fields.map key = fields'.map key)
    (ascending : (fields.map key).Pairwise (· < ·))
    (same : fields.flatMap entries = fields'.flatMap entries) :
    List.Forall₂ Agree fields fields' := by
  induction fields generalizing fields' with
  | nil =>
    obtain rfl := List.map_eq_nil_iff.mp keys.symm
    exact .nil
  | cons f fields ih =>
    obtain ⟨g, fields', rfl, key, keys⟩ := List.map_eq_cons_iff.mp keys.symm
    obtain ⟨later, ascending⟩ := List.pairwise_cons.mp ascending
    have later' : ∀ key ∈ fields'.map Field.key, g.key < key := by
      rw [key, keys]
      exact later
    rw [List.flatMap_cons, List.flatMap_cons] at same
    cases left : f.absent with
    | true =>
      cases right : g.absent with
      | true =>
        rw [entries, entries, left, right] at same
        refine .cons ⟨left.trans right.symm, fun present => ?_⟩ (ih keys.symm ascending same)
        exact absurd (left.symm.trans present) (by decide)
      | false => exact absurd same (not_absent later key.symm left right)
    | false =>
      cases right : g.absent with
      | true => exact absurd same.symm (not_absent later' key right left)
      | false =>
        rw [entries, entries, left, right] at same
        obtain ⟨first, others⟩ := List.cons.inj same
        exact .cons ⟨left.trans right.symm, fun _ => (Prod.mk.inj first).2⟩
          (ih keys.symm ascending others)

/-- Lists that are left out when empty. -/
theorem Agree.elim {α : Type} {xs ys : List α} {key : Nat} {v w : Cbor} {goal : Prop}
    (agree : Agree ⟨xs.isEmpty, key, v⟩ ⟨ys.isEmpty, key, w⟩)
    (empty : xs = [] → ys = [] → goal) (equal : v = w → goal) : goal := by
  cases here : xs.isEmpty with
  | true =>
    have there := agree.absent
    rw [here] at there
    exact empty (List.isEmpty_iff.mp here) (List.isEmpty_iff.mp there.symm)
  | false => exact equal (agree.value here)

end Field

theorem toCbor_quieted (c : ConstRecord) : c.quieted.toCbor = c.toCbor.quieted := by
  rw [c.quieted.toCbor_eq, c.toCbor_eq, Field.quieted_flatMap]
  simp only [ConstRecord.fields, ConstRecord.quieted, List.map_cons, List.map_nil, Field.quieted,
    quieted_ofInt, Cbor.quieted]
  rfl

theorem locToCbor_quieted (l : SourceLoc) : (locToCbor l).quieted = locToCbor l := by
  change (Cbor.map ((locFields l).flatMap Field.entries)).quieted = _
  rw [Field.quieted_flatMap]
  simp only [locFields, List.map_cons, List.map_nil, Field.quieted, quieted_ofInt]
  rfl

theorem codeToCbor_quieted (code? : Option (Array UInt32)) :
    (codeToCbor code?).quieted = codeToCbor code? := by
  cases code? with
  | none => rfl
  | some code =>
    rw [codeToCbor, Cbor.quieted, Cbor.quietedItems_eq_map, List.map_map]
    rfl

/-- What is read back from an item is known by it. -/
theorem eq_of_reads {α : Type} {read : Cbor → Option α} {item item' : Cbor} {a a' : α}
    (reads : read item = some a) (reads' : read item' = some a') (same : item = item') : a = a' := by
  rw [same, reads'] at reads
  exact (Option.some.inj reads).symm

theorem map_eq_of_reads {α β : Type} {read : Cbor → Option α} {write : β → Cbor} {result : β → α}
    (reads : ∀ x, read (write x).quieted = some (result x)) {xs ys : List β}
    (same : (Cbor.array (xs.map write)).quieted = (Cbor.array (ys.map write)).quieted) :
    xs.map result = ys.map result := by
  have list (zs : List β) := readList_quieted zs fun z _ => reads z
  exact Option.some.inj (eq_of_reads (list xs) (list ys) same)

namespace BlockRecord

theorem received_sizes (sizes : List Int64) :
    (if sizes.isEmpty then none else some sizes).getD [] = sizes := by
  cases sizes <;> rfl

mutual

/-- What is read back is written as what it was read from, up to not-a-numbers. -/
theorem toCbor_received : (r : BlockRecord) → r.received.toCbor = r.toCbor.quieted
  | ⟨f, blocks⟩ => by
    rw [toCbor_eq, toCbor_eq, Field.quieted_flatMap, received]
    refine congrArg (fun fields => Cbor.map (List.flatMap Field.entries fields)) ?_
    simp only [fields, List.map_cons, List.map_nil, Field.quieted, Cbor.quieted, List.map_map,
      Cbor.quietedItems_eq_map, codeToCbor_quieted, quieted_ofInt, received_sizes,
      List.isEmpty_map, receivedAll_eq_map, Function.comp_def, toCbor_quieted, locToCbor_quieted,
      toCbor_receivedAll blocks]

theorem toCbor_receivedAll : (rs : List BlockRecord) →
    rs.map (fun r => r.received.toCbor) = rs.map fun r => r.toCbor.quieted
  | [] => rfl
  | r :: rest => by rw [List.map_cons, List.map_cons, toCbor_received r, toCbor_receivedAll rest]

end

theorem keys_quieted (r : BlockRecord) :
    (r.fields.map Field.quieted).map Field.key = List.range' 1 10 := by
  obtain ⟨f, blocks⟩ := r
  rfl

/-- Records with the same item have the same fields, up to what reading does not
keep, and nested records with the same items. -/
theorem received_fields {f f' : BlockFields} {blocks blocks' : List BlockRecord}
    (same : (toCbor ⟨f, blocks⟩).quieted = (toCbor ⟨f', blocks'⟩).quieted) :
    received ⟨f, []⟩ = received ⟨f', []⟩ ∧
      (blocks.map fun r => r.toCbor.quieted) = blocks'.map fun r => r.toCbor.quieted := by
  rw [toCbor_eq, toCbor_eq, Field.quieted_flatMap, Field.quieted_flatMap] at same
  have ascending : (((fields ⟨f, blocks⟩).map Field.quieted).map Field.key).Pairwise (· < ·) := by
    rw [keys_quieted]
    exact List.pairwise_lt_range'
  have agree := Field.agree_of_flatMap ((keys_quieted _).trans (keys_quieted _).symm) ascending
    (Cbor.map.inj same)
  simp only [fields, List.map_cons, List.map_nil, Field.quieted, List.forall₂_cons,
    List.forall₂_nil_left_iff, and_true] at agree
  obtain ⟨version, id, name, source, code, consts, registers, sizes, nested, map⟩ := agree
  have version' : f.version = f'.version := eq_of_reads
    (readByte_unsigned 0 f.version) (readByte_unsigned 0 f'.version) (version.value rfl)
  have id' : f.id = f'.id := eq_of_reads
    (readId_bytes .zero f.id) (readId_bytes .zero f'.id) (id.value rfl)
  have name' : f.name = f'.name := by
    refine name.elim (fun none none' => none.trans none'.symm) ?_
    intro same
    exact (List.cons.inj (Cbor.text.inj same)).1
  have source' : f.source = f'.source := by
    refine source.elim (fun none none' => none.trans none'.symm) ?_
    intro same
    exact (List.cons.inj (Cbor.text.inj same)).1
  have code' : f.code?.map Array.toList = f'.code?.map Array.toList := eq_of_reads
    (readList_code f.code?) (readList_code f'.code?) (code.value rfl)
  have code'' : f.code? = f'.code? := Option.map_injective (fun _ _ => Array.toList_inj.mp) code'
  have consts' : f.consts.map ConstRecord.quieted = f'.consts.map ConstRecord.quieted := by
    refine consts.elim (fun none none' => by rw [none, none']) ?_
    exact map_eq_of_reads readRecord_const
  have registers' : f.registers = f'.registers := eq_of_reads
    (readInt64_quieted 0 f.registers) (readInt64_quieted 0 f'.registers) (registers.value rfl)
  have sizes' : f.sharedSizes?.getD [] = f'.sharedSizes?.getD [] := by
    refine sizes.elim (fun none none' => none.trans none'.symm) ?_
    intro same
    have numbers := map_eq_of_reads (fun n => readInt64_quieted 0 n) same
    rwa [List.map_id', List.map_id'] at numbers
  have map' : f.sourceMap = f'.sourceMap := by
    refine map.elim (fun none none' => none.trans none'.symm) ?_
    intro same
    have positions := map_eq_of_reads readRecord_loc same
    rwa [List.map_id', List.map_id'] at positions
  constructor
  · simp only [received, version', id', name', source', code'', consts', registers', sizes', map']
  · refine nested.elim (fun none none' => by rw [none, none']) ?_
    intro same
    simp only [Cbor.quieted, Cbor.quietedItems_eq_map, List.map_map] at same
    exact Cbor.array.inj same

mutual

/-- A record is known by its item, up to what reading does not keep. -/
theorem received_inj : (r r' : BlockRecord) → r.toCbor.quieted = r'.toCbor.quieted →
    r.received = r'.received
  | ⟨f, blocks⟩, ⟨f', blocks'⟩, same => by
    obtain ⟨own, nested⟩ := received_fields same
    rw [received, received] at own ⊢
    rw [(BlockRecord.mk.inj own).1, receivedAll_eq_map, receivedAll_eq_map,
      receivedAll_inj blocks blocks' nested]

theorem receivedAll_inj : (rs rs' : List BlockRecord) →
    (rs.map fun r => r.toCbor.quieted) = (rs'.map fun r => r.toCbor.quieted) →
    rs.map received = rs'.map received
  | [], [], _ => rfl
  | r :: rest, r' :: rest', same => by
    obtain ⟨first, others⟩ := List.cons.inj same
    rw [List.map_cons, List.map_cons, received_inj r r' first, receivedAll_inj rest rest' others]

end

theorem received_eq_iff {r r' : BlockRecord} :
    r.received = r'.received ↔ r.toCbor.quieted = r'.toCbor.quieted := by
  constructor
  · intro same
    rw [← toCbor_received, same, toCbor_received]
  · exact received_inj r r'

mutual

theorem received_anonymous : (r : BlockRecord) → r.anonymous.received = r.received.anonymous
  | ⟨f, blocks⟩ => by
    rw [anonymous, received, received, anonymous, received_anonymousAll blocks]

theorem received_anonymousAll : (rs : List BlockRecord) →
    receivedAll (anonymousAll rs) = anonymousAll (receivedAll rs)
  | [] => rfl
  | r :: rest => by
    rw [anonymousAll, receivedAll, receivedAll, anonymousAll, received_anonymous r,
      received_anonymousAll rest]

end

end BlockRecord

/-! ### Blocks with the same content -/

/-- Blocks without objects among their constants and without vacant places, at
every depth. -/
inductive Whole : CodeBlock → Prop
  | block {data : BlockData} {blocks : List (Option CodeBlock)}
      (consts : ∀ v ∈ data.consts, v.kind ≠ .object) (filled : none ∉ blocks)
      (nested : ∀ sub, some sub ∈ blocks → Whole sub) : Whole ⟨data, blocks⟩

/-- Blocks with the same content, whatever their identities: names, code, which
may be absent, registers, sizes and source map are equal, constants stand for
each other one by one, and nested blocks have the same content. -/
inductive SameContent : CodeBlock → CodeBlock → Prop
  | block {d e : BlockData} {blocks blocks' : List (Option CodeBlock)}
      (name : d.name = e.name) (source : d.source = e.source) (code : d.code? = e.code?)
      (registers : d.registers = e.registers) (sizes : d.sharedSizes = e.sharedSizes)
      (sourceMap : d.sourceMap = e.sourceMap)
      (consts : List.Forall₂ SameConstant d.consts e.consts)
      (nested : List.Forall₂ (Option.Rel SameContent) blocks blocks') :
      SameContent ⟨d, blocks⟩ ⟨e, blocks'⟩

/-- The bytes that the hash of a block is the digest of. -/
def hashed (b : CodeBlock) : Except Error Text := do
  let record ← BlockRecord.ofBlock b
  return record.anonymous.toCbor.encode

theorem hash_eq (b : CodeBlock) : hash b = (hashed b).map Sha256.digest := by
  unfold hash hashed
  cases BlockRecord.ofBlock b <;> rfl

theorem sameConstant_iff {v w : Value} : SameConstant v w ↔ v.quieted = w.quieted := by
  constructor
  · rintro (same | ⟨x, y, rfl, rfl, left, right⟩)
    · rw [of_decide_eq_true same]
    · exact congrArg Value.real (Binary64.quieted_eq_iff.mpr (.inr ⟨left, right⟩))
  · intro same
    cases v with
    | real x =>
      cases w with
      | real y =>
        rcases Binary64.quieted_eq_iff.mp (Value.real.inj same) with rfl | ⟨left, right⟩
        · exact sameConstant_refl _
        · exact .inr ⟨x, y, rfl, rfl, left, right⟩
      | void | bool | int | string | octet | object => cases same
    | void | bool | int | string | octet | object =>
      cases w with
      | real y => cases same
      | void | bool | int | string | octet | object => exact .inl (decide_eq_true same)

/-- A constant is known by its record, up to not-a-numbers. -/
theorem ofValue?_quieted {v : Value} {c : ConstRecord} (written : ConstRecord.ofValue? v = some c) :
    ConstRecord.ofValue? v.quieted = some c.quieted ∧ c.quieted.toValue? = some v.quieted := by
  cases v with
  | bool b =>
    obtain rfl := Option.some.inj written
    cases b <;> exact ⟨rfl, rfl⟩
  | object ref context => cases written
  | void | int | real | string | octet =>
    obtain rfl := Option.some.inj written
    exact ⟨rfl, rfl⟩

theorem constRecord_eq_iff {v w : Value} {c d : ConstRecord}
    (written : ConstRecord.ofValue? v = some c) (written' : ConstRecord.ofValue? w = some d) :
    c.quieted = d.quieted ↔ SameConstant v w := by
  obtain ⟨back, forth⟩ := ofValue?_quieted written
  obtain ⟨back', forth'⟩ := ofValue?_quieted written'
  rw [sameConstant_iff]
  constructor
  · intro same
    rw [same, forth'] at forth
    exact (Option.some.inj forth).symm
  · intro same
    rw [same, back'] at back
    exact (Option.some.inj back).symm

theorem constRecords_cons_ok {title : Text} {i : Nat} {v : Value} {consts : List Value}
    {cs : List ConstRecord} : constRecords title i (v :: consts) = .ok cs ↔
      ∃ c rest, ConstRecord.ofValue? v = some c ∧ constRecords title (i + 1) consts = .ok rest ∧
        cs = c :: rest := by
  rw [constRecords]
  cases ConstRecord.ofValue? v with
  | none => simp
  | some c => simp only [except_bind_pure_ok, Option.some.injEq, exists_and_left, exists_eq_left']

theorem constRecords_eq_iff {consts consts' : List Value} {cs cs' : List ConstRecord}
    {title title' : Text} {i j : Nat} (written : constRecords title i consts = .ok cs)
    (written' : constRecords title' j consts' = .ok cs') :
    cs.map ConstRecord.quieted = cs'.map ConstRecord.quieted ↔
      List.Forall₂ SameConstant consts consts' := by
  induction consts generalizing consts' cs cs' i j with
  | nil =>
    obtain rfl := Except.ok.inj written
    cases consts' with
    | nil =>
      obtain rfl := Except.ok.inj written'
      simp
    | cons v consts' =>
      obtain ⟨c, rest, -, -, rfl⟩ := constRecords_cons_ok.mp written'
      simp
  | cons v consts ih =>
    obtain ⟨c, rest, first, others, rfl⟩ := constRecords_cons_ok.mp written
    cases consts' with
    | nil =>
      obtain rfl := Except.ok.inj written'
      simp
    | cons w consts' =>
      obtain ⟨d, rest', first', others', rfl⟩ := constRecords_cons_ok.mp written'
      rw [List.map_cons, List.map_cons, List.cons.injEq, constRecord_eq_iff first first',
        ih others others', List.forall₂_cons]

namespace BlockRecord

theorem ofBlock_ok {data : BlockData} {blocks : List (Option CodeBlock)} {r : BlockRecord} :
    ofBlock ⟨data, blocks⟩ = .ok r ↔
      ∃ cs rs, constRecords data.title 0 data.consts = .ok cs ∧ ofPlaces blocks = .ok rs ∧
        r = { version, id := data.id, name := data.name, source := data.source
              code? := data.code?, consts := cs, registers := data.registers
              sharedSizes? := data.sharedSizes?, sourceMap := data.sourceMap, blocks := rs } := by
  rw [ofBlock, except_bind_ok]
  simp only [except_bind_pure_ok, exists_and_left]

theorem ofPlaces_cons_ok {place : Option CodeBlock} {blocks : List (Option CodeBlock)}
    {rs : List BlockRecord} : ofPlaces (place :: blocks) = .ok rs ↔
      ∃ r rest, ofPlace place = .ok r ∧ ofPlaces blocks = .ok rest ∧ rs = r :: rest := by
  rw [ofPlaces, except_bind_ok]
  simp only [except_bind_pure_ok, exists_and_left]

theorem sizes_eq_iff {sizes sizes' : List Int64} :
    (if sizes.isEmpty then none else some sizes) =
      (if sizes'.isEmpty then none else some sizes') ↔ sizes = sizes' := by
  constructor
  · intro same
    rw [← received_sizes sizes, same, received_sizes]
  · intro same
    rw [same]

mutual

/-- Records without identities are the same exactly if the blocks have the same
content. -/
theorem content_eq_iff : (b b' : CodeBlock) → {r r' : BlockRecord} → ofBlock b = .ok r →
    ofBlock b' = .ok r' → (r.anonymous.received = r'.anonymous.received ↔ SameContent b b')
  | ⟨d, blocks⟩, ⟨e, blocks'⟩, r, r', written, written' => by
    obtain ⟨cs, rs, consts, places, rfl⟩ := ofBlock_ok.mp written
    obtain ⟨cs', rs', consts', places', rfl⟩ := ofBlock_ok.mp written'
    have constants := constRecords_eq_iff consts consts'
    have nested := contents_eq_iff blocks blocks' places places'
    simp only [anonymous, received, BlockRecord.mk.injEq, BlockFields.mk.injEq, constants, nested,
      sizes_eq_iff, true_and]
    constructor
    · rintro ⟨⟨name, source, code, constants, registers, sizes, map⟩, inner⟩
      exact .block name source code registers sizes map constants inner
    · intro same
      cases same with
      | block name source code registers sizes map constants inner =>
        exact ⟨⟨name, source, code, constants, registers, sizes, map⟩, inner⟩

theorem contents_eq_iff : (blocks blocks' : List (Option CodeBlock)) →
    {rs rs' : List BlockRecord} → ofPlaces blocks = .ok rs → ofPlaces blocks' = .ok rs' →
    (receivedAll (anonymousAll rs) = receivedAll (anonymousAll rs') ↔
      List.Forall₂ (Option.Rel SameContent) blocks blocks')
  | [], [], rs, rs', written, written' => by
    obtain rfl := Except.ok.inj written
    obtain rfl := Except.ok.inj written'
    simp
  | [], place :: blocks', rs, rs', written, written' => by
    obtain rfl := Except.ok.inj written
    obtain ⟨r', rest', -, -, rfl⟩ := ofPlaces_cons_ok.mp written'
    simp [anonymousAll, receivedAll]
  | place :: blocks, [], rs, rs', written, written' => by
    obtain ⟨r, rest, -, -, rfl⟩ := ofPlaces_cons_ok.mp written
    obtain rfl := Except.ok.inj written'
    simp [anonymousAll, receivedAll]
  | place :: blocks, place' :: blocks', rs, rs', written, written' => by
    obtain ⟨r, rest, first, others, rfl⟩ := ofPlaces_cons_ok.mp written
    obtain ⟨r', rest', first', others', rfl⟩ := ofPlaces_cons_ok.mp written'
    rw [anonymousAll, anonymousAll, receivedAll, receivedAll, List.cons.injEq,
      place_eq_iff place place' first first', contents_eq_iff blocks blocks' others others',
      List.forall₂_cons]

theorem place_eq_iff : (place place' : Option CodeBlock) → {r r' : BlockRecord} →
    ofPlace place = .ok r → ofPlace place' = .ok r' →
    (r.anonymous.received = r'.anonymous.received ↔ Option.Rel SameContent place place')
  | none, _, _, _, written, _ => by cases written
  | some _, none, _, _, _, written' => by cases written'
  | some b, some b', r, r', written, written' => by
    rw [content_eq_iff b b' written written']
    exact ⟨.some, fun | .some same => same⟩

end

end BlockRecord

theorem Whole.places {blocks : List (Option CodeBlock)}
    (each : ∀ place ∈ blocks, ∃ r, BlockRecord.ofPlace place = .ok r) :
    ∃ rs, BlockRecord.ofPlaces blocks = .ok rs := by
  induction blocks with
  | nil => exact ⟨[], rfl⟩
  | cons place blocks ih =>
    obtain ⟨r, first⟩ := each place List.mem_cons_self
    obtain ⟨rest, others⟩ := ih fun place member => each place (List.mem_cons_of_mem _ member)
    exact ⟨r :: rest, BlockRecord.ofPlaces_cons_ok.mpr ⟨r, rest, first, others, rfl⟩⟩

theorem Whole.written {b : CodeBlock} (whole : Whole b) : ∃ r, BlockRecord.ofBlock b = .ok r := by
  induction whole with
  | @block data blocks consts filled nested ih =>
    obtain ⟨cs, -, written, -⟩ := constRecords_constValues consts data.title data.name 0 0
    have each (place : Option CodeBlock) (member : place ∈ blocks) :
        ∃ r, BlockRecord.ofPlace place = .ok r := by
      cases place with
      | none => exact absurd member filled
      | some sub => exact ih sub member
    obtain ⟨rs, places⟩ := places each
    exact ⟨_, BlockRecord.ofBlock_ok.mpr ⟨cs, rs, written, places, rfl⟩⟩

theorem hashed_of_written {b : CodeBlock} {r : BlockRecord}
    (written : BlockRecord.ofBlock b = .ok r) :
    hashed b = .ok r.anonymous.toCbor.encode ∧
      hash b = .ok (Sha256.digest r.anonymous.toCbor.encode) := by
  rw [hash_eq, hashed, written]
  exact ⟨rfl, rfl⟩

/-- Whole blocks have a hash. What is hashed is the same exactly if the blocks have
the same content, as long as its length has 64 bits. -/
theorem hashed_eq_iff_sameContent {b b' : CodeBlock} (whole : Whole b) (whole' : Whole b') :
    ∃ t t', hashed b = .ok t ∧ hashed b' = .ok t' ∧
      hash b = .ok (Sha256.digest t) ∧ hash b' = .ok (Sha256.digest t') ∧
      (t.length < UInt64.size → (t = t' ↔ SameContent b b')) := by
  obtain ⟨r, written⟩ := whole.written
  obtain ⟨r', written'⟩ := whole'.written
  obtain ⟨bytes, digest⟩ := hashed_of_written written
  obtain ⟨bytes', digest'⟩ := hashed_of_written written'
  refine ⟨_, _, bytes, bytes', digest, digest', ?_⟩
  intro short
  calc r.anonymous.toCbor.encode = r'.anonymous.toCbor.encode
    _ ↔ r.anonymous.toCbor.quieted = r'.anonymous.toCbor.quieted :=
        Cbor.encode_eq_iff (BlockRecord.plain_toCbor _) (BlockRecord.plain_toCbor _) short
    _ ↔ r.anonymous.received = r'.anonymous.received := BlockRecord.received_eq_iff.symm
    _ ↔ SameContent b b' := BlockRecord.content_eq_iff b b' written written'

/-- The assorted block with other identities at two depths, another
not-a-number, and no sizes instead of an empty list. -/
def relabelled : CodeBlock :=
  { assorted with
    id := .ofBytes (utf8 "other")
    consts := [.void, .bool true, .int Int64.minValue, .real ⟨0x7ff8000000000007⟩,
      .real ⟨0x8000000000000000⟩, .real ⟨1⟩, .string [], .octet [0, 255]]
    blocks := [some { id := .ofBytes [1], code? := some #[], blocks := [some {}] }] }

/-- Identities at any depth leave what is hashed as it is; absent code does not. -/
theorem relabelled_hashed :
    Whole assorted ∧ Whole relabelled ∧ (∃ t, hashed assorted = .ok t ∧ hashed relabelled = .ok t) ∧
      ∃ t t', hashed {} = .ok t ∧ hashed { code? := some #[] } = .ok t' ∧ t ≠ t' := by
  have empty : Whole {} := .block (by decide) (by simp) (by simp)
  have coded (id : BlockId) (sizes? : Option (List Int64)) :
      Whole { id, code? := some #[], sharedSizes? := sizes?, blocks := [some {}] } :=
    .block (by simp) (by simp) (by simpa using empty)
  have whole : Whole assorted :=
    .block (by decide) (by simp) (by simpa using coded .zero (some []))
  have whole' : Whole relabelled :=
    .block (by decide) (by simp) (by simpa using coded (.ofBytes [1]) none)
  have wordless : Whole { code? := some #[] } := .block (by simp) (by simp) (by simp)
  refine ⟨whole, whole', ?_, ?_⟩
  · have short : (hashed assorted).toOption.any (·.length < UInt64.size) := by decide +kernel
    have numbers : SameConstant (.real ⟨0xfff0000000000001⟩) (.real ⟨0x7ff8000000000007⟩) :=
      .inr ⟨_, _, rfl, rfl, by decide, by decide⟩
    have same (v : Value) := sameConstant_refl v
    have content : SameContent assorted relabelled := by
      refine .block rfl rfl rfl rfl rfl rfl ?_ ?_
      · exact .cons (same _) (.cons (same _) (.cons (same _) (.cons numbers (.cons (same _)
          (.cons (same _) (.cons (same _) (.cons (same _) .nil)))))))
      · refine .cons (.some (.block rfl rfl rfl rfl rfl rfl .nil ?_)) .nil
        exact .cons (.some (.block rfl rfl rfl rfl rfl rfl .nil .nil)) .nil
    obtain ⟨t, t', bytes, bytes', -, -, equal⟩ := hashed_eq_iff_sameContent whole whole'
    rw [bytes] at short
    obtain rfl := (equal (of_decide_eq_true short)).mpr content
    exact ⟨t, bytes, bytes'⟩
  · have short : (hashed {}).toOption.any (·.length < UInt64.size) := by decide +kernel
    obtain ⟨t, t', bytes, bytes', -, -, equal⟩ := hashed_eq_iff_sameContent empty wordless
    rw [bytes] at short
    refine ⟨t, t', bytes, bytes', fun same => ?_⟩
    cases (equal (of_decide_eq_true short)).mp same with
    | block name source code => cases code

end Wire
end ScriptEngine
