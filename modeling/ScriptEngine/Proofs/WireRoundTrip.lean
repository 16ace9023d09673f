import Mathlib.Data.List.Forall2
import ScriptEngine.Proofs.CborRoundTrip
import ScriptEngine.Proofs.ValidBlock
import ScriptEngine.Wire.Reader

/-! Encoded blocks read back. Every field of a record is read from what it was
written as, records are read field by field and block by block, and the block
that comes out is the one that went in, except that a not-a-number may change
its bits. -/
namespace ScriptEngine.Wire

/-! ### Fields -/

theorem readInt_ofInt {least most before i : Int} (lower : least ≤ i) (upper : i ≤ most) :
    readInt least most before (Cbor.ofInt i) = some i := by
  unfold Cbor.ofInt
  split
  next sign =>
    have same : (i.toNat : Int) = i := Int.toNat_of_nonneg sign
    simp only [readInt, plain, Option.bind_eq_bind, Option.bind_some, same]
    rw [if_pos ⟨lower, upper⟩]
  next sign =>
    have same : -1 - ((-1 - i).toNat : Int) = i := by omega
    simp only [readInt, plain, Option.bind_eq_bind, Option.bind_some, same]
    rw [if_pos ⟨lower, upper⟩]

theorem readInt_unsigned {least most before : Int} {n : Nat} (lower : least ≤ n)
    (upper : (n : Int) ≤ most) : readInt least most before (.unsigned n) = some (n : Int) := by
  simp only [readInt, plain, Option.bind_eq_bind, Option.bind_some]
  rw [if_pos ⟨lower, upper⟩]

theorem readInt64_ofInt (before n : Int64) :
    readInt64 before (Cbor.ofInt n.toInt) = some n := by
  have lower : Int64.minValue.toInt ≤ n.toInt := Int64.minValue_le_toInt n
  have upper : n.toInt ≤ Int64.maxValue.toInt := Int64.toInt_le n
  rw [readInt64, readInt_ofInt lower upper, Option.map_some, Int64.ofInt_toInt]

theorem readByte_unsigned (before b : UInt8) : readByte before (.unsigned b.toNat) = some b := by
  have upper : (b.toNat : Int) ≤ 255 := by have := b.toNat_lt; omega
  rw [readByte, readInt_unsigned (Int.natCast_nonneg _) upper, Option.map_some, Int.toNat_natCast]
  exact congrArg some UInt8.ofNat_toNat

theorem readWord_unsigned (before w : UInt32) :
    readWord before (.unsigned w.toNat) = some w := by
  have upper : (w.toNat : Int) ≤ UInt32.size - 1 := by
    have := w.toNat_lt
    simp only [UInt32.size]
    omega
  rw [readWord, readInt_unsigned (Int.natCast_nonneg _) upper, Option.map_some, Int.toNat_natCast]
  exact congrArg some UInt32.ofNat_toNat

theorem readText_text (before : Text) {t : Text} (valid : t.isUtf8 = true) :
    readText before (.text [t]) = some t := by
  simp [readText, plain, valid]

theorem readId_bytes (before id : BlockId) : readId before (.bytes id.toList) = some id := by
  have same : BlockId.ofBytes id.toList = id := by
    ext i low
    simp [BlockId.ofBytes, List.getD]
  simp only [readId, plain, Option.bind_eq_bind, Option.bind_some, same]

theorem readAll_map {α β : Type} {read : Cbor → Option α} {write : β → Cbor} {result : β → α}
    {items : List β} (each : ∀ x ∈ items, read (write x) = some (result x)) :
    readAll read (items.map write) = some (items.map result) := by
  induction items with
  | nil => rfl
  | cons x items ih =>
    have first := each x List.mem_cons_self
    have others := ih fun y member => each y (List.mem_cons_of_mem x member)
    simp only [List.map_cons, readAll, first, others, Option.bind_eq_bind, Option.bind_some]
    rfl

theorem readList_quieted {α β : Type} {read : Cbor → Option α} {write : β → Cbor} {result : β → α}
    (items : List β) (each : ∀ x ∈ items, read (write x).quieted = some (result x)) :
    readList read (Cbor.array (items.map write)).quieted = some (some (items.map result)) := by
  have every : readAll read (items.map (Cbor.quieted ∘ write)) = some (items.map result) :=
    readAll_map each
  rw [Cbor.quieted, Cbor.quietedItems_eq_map, List.map_map]
  simp only [readList, plain, Option.bind_eq_bind, Option.bind_some, every, Option.map_some]

/-! ### Records -/

/-- A field of a record, which may be left out. -/
structure Field where
  absent : Bool
  key : Nat
  value : Cbor

namespace Field

variable {α : Type} {set : Int → Cbor → α → Option α} {f : Field} {fields : List Field} {a b c : α}

def entries (f : Field) : List (Cbor × Cbor) := entryUnless f.absent f.key f.value

/-- What a field does to a record that it is read into. -/
def load (set : Int → Cbor → α → Option α) (a : α) (f : Field) : Option α :=
  if f.absent then some a else set f.key f.value a

theorem load_present (present : f.absent = false) (done : set f.key f.value a = some b) :
    f.load set a = some b := by
  rw [load, present]
  exact done

/-- A field that is left out because it would change nothing. -/
theorem load_unless (same : f.absent = true → b = a) (done : set f.key f.value a = some b) :
    f.load set a = some b := by
  unfold load
  split
  next absent => rw [same absent]
  · exact done

theorem foldlM_cons (first : f.load set a = some b) (others : fields.foldlM (load set) b = some c) :
    (f :: fields).foldlM (load set) a = some c := by
  rw [List.foldlM_cons, first]
  exact others

theorem keyMeaning_unsigned {key : Nat} (small : key < 1 <<< 63) :
    keyMeaning (.unsigned key) = .field key := by
  have same : (Int64.ofNat key).toInt = key := Int64.toInt_ofNat_of_lt small
  rw [keyMeaning, same]

/-- Entries with ascending keys are read one after the other. -/
theorem readEntries_flatMap {count : Nat} (few : count < 1 <<< 63) {seen : List Int}
    (ascending : (fields.map key).Pairwise (· < ·))
    (known : ∀ f ∈ fields, 1 ≤ f.key ∧ f.key ≤ count)
    (fresh : ∀ f ∈ fields, ∀ m ∈ seen, m < f.key) :
    readEntries set (fun n => 1 ≤ n && n ≤ count) seen (fields.flatMap entries) a =
      fields.foldlM (load set) a := by
  induction fields generalizing seen a with
  | nil => rfl
  | cons f fields ih =>
    obtain ⟨first, ascending⟩ := List.pairwise_cons.mp ascending
    have later (g : Field) (member : g ∈ fields) := List.mem_cons_of_mem f member
    have known' := fun g member => known g (later g member)
    rw [List.flatMap_cons, List.foldlM_cons, load, entries, entryUnless]
    cases f.absent with
    | true => exact ih ascending known' fun g member => fresh g (later g member)
    | false =>
      obtain ⟨low, high⟩ := known f List.mem_cons_self
      have unseen : (f.key : Int) ∉ seen := fun member =>
        absurd (fresh f List.mem_cons_self _ member) (Int.lt_irrefl _)
      have within : (decide ((1 : Int) ≤ f.key) && decide ((f.key : Int) ≤ count) &&
          !seen.contains (f.key : Int)) = true := by
        simp [unseen]
        omega
      simp only [Bool.false_eq_true, if_false, List.singleton_append, entry, readEntries,
        keyMeaning_unsigned (Nat.lt_of_le_of_lt high few), within, if_true]
      cases set f.key f.value a with
      | none => rfl
      | some b =>
        refine ih ascending known' ?_
        intro g member m old
        rcases List.mem_cons.mp old with rfl | old
        · exact Int.ofNat_lt.mpr (first g.key (List.mem_map_of_mem member))
        · exact fresh g (later g member) m old

/-- A field with all not-a-numbers made the same. -/
def quieted (f : Field) : Field := { f with value := f.value.quieted }

theorem quieted_flatMap (fields : List Field) :
    (Cbor.map (fields.flatMap entries)).quieted = .map ((fields.map quieted).flatMap entries) := by
  rw [Cbor.quieted, Cbor.quietedEntries_eq_map]
  refine congrArg Cbor.map ?_
  induction fields with
  | nil => rfl
  | cons f fields ih =>
    rw [List.flatMap_cons, List.map_append, ih, List.map_cons, List.flatMap_cons]
    refine congrArg (· ++ _) ?_
    unfold entries entryUnless quieted
    cases f.absent <;> rfl

/-- A record with the fields from one on, which load one after the other. -/
theorem readRecord_flatMap {count : Nat} (few : count < 1 <<< 63)
    (keys : fields.map key = List.range' 1 count)
    (loaded : (fields.map quieted).foldlM (load set) a = some b) :
    readRecord set count a (Cbor.map (fields.flatMap entries)).quieted = some b := by
  have keys' : (fields.map quieted).map key = List.range' 1 count := by
    rw [List.map_map]
    exact keys
  have ascending : ((fields.map quieted).map key).Pairwise (· < ·) := by
    rw [keys']
    exact List.pairwise_lt_range'
  have known : ∀ f ∈ fields.map quieted, 1 ≤ f.key ∧ f.key ≤ count := by
    intro f member
    have listed : f.key ∈ List.range' 1 count := keys' ▸ List.mem_map_of_mem member
    have := List.mem_range'_1.mp listed
    omega
  have fresh : ∀ f ∈ fields.map quieted, ∀ m ∈ ([] : List Int), m < f.key := fun _ _ _ member =>
    absurd member List.not_mem_nil
  rw [quieted_flatMap, ← loaded, ← readEntries_flatMap few ascending known fresh]
  rfl

theorem plain_flatMap (small : ∀ f ∈ fields, f.key < UInt64.size)
    (plain : ∀ f ∈ fields, f.value.Plain) : (Cbor.map (fields.flatMap entries)).Plain := by
  have each (entry : Cbor × Cbor) (member : entry ∈ fields.flatMap entries) :
      entry.1.Plain ∧ entry.2.Plain := by
    obtain ⟨f, present, member⟩ := List.mem_flatMap.mp member
    unfold entries entryUnless at member
    split at member
    · exact absurd member List.not_mem_nil
    · obtain rfl := List.mem_singleton.mp member
      exact ⟨.unsigned (small f present), plain f present⟩
  exact .map (fun entry member => (each entry member).1) fun entry member => (each entry member).2

/-- Limits that a record keeps are kept by the fields that it has. -/
theorem fits_value {levels : Nat} (within : (Cbor.map (fields.flatMap entries)).fits levels = true)
    (member : f ∈ fields) (present : f.absent = false) :
    0 < levels ∧ f.value.fits (levels - 1) = true := by
  simp only [Cbor.fits, Bool.and_eq_true, decide_eq_true_eq, Cbor.fitsEntries_iff] at within
  obtain ⟨⟨deep, -⟩, each⟩ := within
  have there : entry f.key f.value ∈ fields.flatMap entries := by
    refine List.mem_flatMap.mpr ⟨f, member, ?_⟩
    rw [entries, entryUnless, present]
    exact List.mem_singleton.mpr rfl
  exact ⟨deep, (each _ there).2⟩

end Field

theorem quieted_ofInt (i : Int) : (Cbor.ofInt i).quieted = Cbor.ofInt i := by
  unfold Cbor.ofInt
  split <;> rfl

theorem plain_ofInt (n : Int64) : (Cbor.ofInt n.toInt).Plain := by
  have lower := n.le_toInt
  have upper := n.toInt_lt
  unfold Cbor.ofInt
  split
  · exact .unsigned (by simp only [UInt64.size]; omega)
  · exact .negative (by simp only [UInt64.size]; omega)

/-- The fields of a constant as they are written. -/
def ConstRecord.fields (c : ConstRecord) : List Field :=
  [⟨false, 1, .unsigned c.kind.toNat⟩, ⟨c.int = 0, 2, Cbor.ofInt c.int.toInt⟩,
    ⟨false, 3, .real c.real⟩, ⟨c.bytes.isEmpty, 4, .bytes c.bytes⟩]

theorem ConstRecord.toCbor_eq (c : ConstRecord) :
    c.toCbor = .map (c.fields.flatMap Field.entries) := by
  simp [ConstRecord.toCbor, ConstRecord.fields, Field.entries, entryUnless]

/-- A constant with all not-a-numbers made the same. -/
def ConstRecord.quieted (c : ConstRecord) : ConstRecord := { c with real := c.real.quieted }

theorem readInt64_quieted (before n : Int64) :
    readInt64 before (Cbor.ofInt n.toInt).quieted = some n := by
  rw [quieted_ofInt, readInt64_ofInt]

theorem readRecord_const (c : ConstRecord) :
    readRecord setConst 4 {} c.toCbor.quieted = some c.quieted := by
  rw [c.toCbor_eq]
  refine Field.readRecord_flatMap (by decide) rfl ?_
  refine Field.foldlM_cons (b := { kind := c.kind }) (Field.load_present rfl ?_) ?_
  · exact congrArg (Option.map _) (readByte_unsigned 0 c.kind)
  refine Field.foldlM_cons (b := { kind := c.kind, int := c.int }) (Field.load_unless ?_ ?_) ?_
  · intro absent
    rw [show c.int = 0 from of_decide_eq_true absent]
  · exact congrArg (Option.map _) (readInt64_quieted 0 c.int)
  refine Field.foldlM_cons (Field.load_present rfl rfl) ?_
  refine Field.foldlM_cons (b := c.quieted) (Field.load_unless ?_ rfl) rfl
  intro absent
  have none : c.bytes = [] := List.isEmpty_iff.mp absent
  rw [ConstRecord.quieted, none]

theorem plain_const (c : ConstRecord) : c.toCbor.Plain := by
  rw [c.toCbor_eq]
  refine Field.plain_flatMap ?_ ?_
  · simp only [ConstRecord.fields, List.forall_mem_cons]
    decide
  · have small : c.kind.toNat < UInt64.size := Nat.lt_trans c.kind.toNat_lt (by decide)
    simp only [ConstRecord.fields, List.forall_mem_cons]
    exact ⟨.unsigned small, plain_ofInt c.int, .real c.real, .bytes c.bytes, by simp⟩

/-- The fields of a source position as they are written. -/
def locFields (l : SourceLoc) : List Field :=
  [⟨false, 1, Cbor.ofInt l.offset.toInt⟩, ⟨false, 2, Cbor.ofInt l.line.toInt⟩,
    ⟨false, 3, Cbor.ofInt l.column.toInt⟩]

theorem readRecord_loc (l : SourceLoc) :
    readRecord setLoc 3 ⟨0, 0, 0⟩ (locToCbor l).quieted = some l := by
  change readRecord setLoc 3 _ (Cbor.map ((locFields l).flatMap Field.entries)).quieted = _
  refine Field.readRecord_flatMap (by decide) rfl ?_
  refine Field.foldlM_cons (Field.load_present rfl
    (congrArg (Option.map _) (readInt64_quieted 0 l.offset))) ?_
  refine Field.foldlM_cons (Field.load_present rfl
    (congrArg (Option.map _) (readInt64_quieted 0 l.line))) ?_
  exact Field.foldlM_cons (Field.load_present rfl
    (congrArg (Option.map _) (readInt64_quieted 0 l.column))) rfl

theorem plain_loc (l : SourceLoc) : (locToCbor l).Plain := by
  change (Cbor.map ((locFields l).flatMap Field.entries)).Plain
  refine Field.plain_flatMap ?_ ?_
  · simp only [locFields, List.forall_mem_cons]
    decide
  · simp only [locFields, List.forall_mem_cons]
    exact ⟨plain_ofInt l.offset, plain_ofInt l.line, plain_ofInt l.column, by simp⟩

/-! ### Blocks -/

theorem readList_code (code? : Option (Array UInt32)) :
    readList (readWord 0) (codeToCbor code?).quieted = some (code?.map Array.toList) := by
  cases code? with
  | none => rfl
  | some code => exact (readList_quieted code.toList fun w _ => readWord_unsigned 0 w).trans (by simp)

theorem plain_code (code? : Option (Array UInt32)) : (codeToCbor code?).Plain := by
  cases code? with
  | none => exact .simple (by decide)
  | some code =>
    refine .array fun item member => ?_
    obtain ⟨w, -, rfl⟩ := List.mem_map.mp member
    exact .unsigned (Nat.lt_trans w.toNat_lt (by decide))

theorem plain_array {α : Type} {write : α → Cbor} {items : List α}
    (each : ∀ x ∈ items, (write x).Plain) : (Cbor.array (items.map write)).Plain := by
  refine .array fun item member => ?_
  obtain ⟨x, present, rfl⟩ := List.mem_map.mp member
  exact each x present

namespace BlockRecord

/-- The fields of a record as they are written. -/
def fields : BlockRecord → List Field
  | ⟨f, blocks⟩ =>
    [⟨false, 1, .unsigned f.version.toNat⟩, ⟨false, 2, .bytes f.id.toList⟩,
      ⟨f.name.isEmpty, 3, .text [f.name]⟩, ⟨f.source.isEmpty, 4, .text [f.source]⟩,
      ⟨false, 5, codeToCbor f.code?⟩,
      ⟨f.consts.isEmpty, 6, .array (f.consts.map ConstRecord.toCbor)⟩,
      ⟨false, 7, Cbor.ofInt f.registers.toInt⟩,
      ⟨(f.sharedSizes?.getD []).isEmpty, 8,
        .array ((f.sharedSizes?.getD []).map fun n => Cbor.ofInt n.toInt)⟩,
      ⟨blocks.isEmpty, 9, .array (blocks.map toCbor)⟩,
      ⟨f.sourceMap.isEmpty, 10, .array (f.sourceMap.map locToCbor)⟩]

theorem toCbors_eq_map (rs : List BlockRecord) : toCbors rs = rs.map toCbor := by
  induction rs with
  | nil => rfl
  | cons r rest ih => rw [toCbors, ih, List.map_cons]

theorem toCbor_eq (r : BlockRecord) : r.toCbor = .map (r.fields.flatMap Field.entries) := by
  obtain ⟨f, blocks⟩ := r
  simp [toCbor, fields, Field.entries, entryUnless, toCbors_eq_map]

mutual

/-- The record that is read back: not-a-numbers have become the same, and no
sizes at all count as absent. -/
def received : BlockRecord → BlockRecord
  | ⟨f, blocks⟩ =>
    ⟨{ f with
        consts := f.consts.map ConstRecord.quieted
        sharedSizes? :=
          let sizes := f.sharedSizes?.getD []
          if sizes.isEmpty then none else some sizes },
      receivedAll blocks⟩

def receivedAll : List BlockRecord → List BlockRecord
  | [] => []
  | r :: rest => received r :: receivedAll rest

end

theorem receivedAll_eq_map (rs : List BlockRecord) : receivedAll rs = rs.map received := by
  induction rs with
  | nil => rfl
  | cons r rest ih => rw [receivedAll, ih, List.map_cons]

/-- Records of the current version whose names are well-formed text. -/
inductive Legible : BlockRecord → Prop
  | record {f : BlockFields} {blocks : List BlockRecord} (current : f.version = version)
      (name : f.name.isUtf8 = true) (source : f.source.isUtf8 = true)
      (nested : ∀ r ∈ blocks, Legible r) : Legible ⟨f, blocks⟩

/-- Nested records keep limits that are lower by two containers. -/
theorem fits_nested {f : BlockFields} {blocks : List BlockRecord} {levels : Nat}
    (within : (toCbor ⟨f, blocks⟩).fits levels = true) {r : BlockRecord} (member : r ∈ blocks) :
    1 < levels ∧ r.toCbor.fits (levels - 2) = true := by
  rw [toCbor_eq] at within
  have present : blocks.isEmpty = false :=
    List.isEmpty_eq_false_iff.mpr (List.ne_nil_of_mem member)
  obtain ⟨-, held⟩ := Field.fits_value within
    (f := ⟨blocks.isEmpty, 9, .array (blocks.map toCbor)⟩) (by simp [fields]) present
  simp only [Cbor.fits, Bool.and_eq_true, decide_eq_true_eq, Cbor.fitsItems_iff] at held
  exact ⟨by omega, held.2 _ (List.mem_map_of_mem member)⟩

/-- Sizes that are not there stay absent. -/
theorem load_sizes {nested : Cbor → Option BlockRecord} {a : BlockRecord} (sizes : List Int64)
    (unset : a.sharedSizes? = none) :
    Field.load (setBlock nested) a
        (Field.quieted ⟨sizes.isEmpty, 8, .array (sizes.map fun n => Cbor.ofInt n.toInt)⟩) =
      some { a with sharedSizes? := if sizes.isEmpty then none else some sizes } := by
  cases empty : sizes.isEmpty with
  | true =>
    obtain ⟨⟨_, _, _, _, _, _, _, sizes?, _⟩, _⟩ := a
    obtain rfl : sizes? = none := unset
    rfl
  | false =>
    have read := readList_quieted sizes fun n _ => readInt64_quieted 0 n
    rw [List.map_id'] at read
    exact congrArg (Option.map fun sizes? => ({ a with sharedSizes? := sizes? } : BlockRecord)) read

/-- The fields of a record set, one after the other, what they were written
from, if nested records read back. -/
theorem foldlM_fields {f : BlockFields} {blocks : List BlockRecord} {sub : Cbor → Option BlockRecord}
    (name : f.name.isUtf8 = true) (source : f.source.isUtf8 = true)
    (inner : ∀ r ∈ blocks, sub r.toCbor.quieted = some r.received) :
    ((fields ⟨f, blocks⟩).map Field.quieted).foldlM (Field.load (setBlock sub)) {} =
      some (received ⟨f, blocks⟩) := by
  have setVersion (a : BlockRecord) :
      setBlock sub 1 (Cbor.unsigned f.version.toNat).quieted a =
        some { a with version := f.version } :=
    congrArg (Option.map fun n => ({ a with version := n } : BlockRecord))
      (readByte_unsigned a.version f.version)
  have setId (a : BlockRecord) :
      setBlock sub 2 (Cbor.bytes f.id.toList).quieted a = some { a with id := f.id } :=
    congrArg (Option.map fun id => ({ a with id } : BlockRecord)) (readId_bytes a.id f.id)
  have setName (a : BlockRecord) :
      setBlock sub 3 (Cbor.text [f.name]).quieted a = some { a with name := f.name } :=
    congrArg (Option.map fun t => ({ a with name := t } : BlockRecord)) (readText_text a.name name)
  have setSource (a : BlockRecord) :
      setBlock sub 4 (Cbor.text [f.source]).quieted a = some { a with source := f.source } :=
    congrArg (Option.map fun t => ({ a with source := t } : BlockRecord))
      (readText_text a.source source)
  have setCode (a : BlockRecord) :
      setBlock sub 5 (codeToCbor f.code?).quieted a = some { a with code? := f.code? } := by
    have read := congrArg (Option.map fun words? : Option (List UInt32) =>
      ({ a with code? := words?.map List.toArray } : BlockRecord)) (readList_code f.code?)
    have same : (f.code?.map Array.toList).map List.toArray = f.code? := by cases f.code? <;> rfl
    rw [Option.map_some, same] at read
    exact read
  have setConsts (a : BlockRecord) :
      setBlock sub 6 (Cbor.array (f.consts.map ConstRecord.toCbor)).quieted a =
        some { a with consts := f.consts.map ConstRecord.quieted } :=
    congrArg (Option.map fun consts? : Option (List ConstRecord) =>
      ({ a with consts := consts?.getD [] } : BlockRecord))
      (readList_quieted f.consts fun c _ => readRecord_const c)
  have setRegisters (a : BlockRecord) :
      setBlock sub 7 (Cbor.ofInt f.registers.toInt).quieted a =
        some { a with registers := f.registers } :=
    congrArg (Option.map fun n => ({ a with registers := n } : BlockRecord))
      (readInt64_quieted a.registers f.registers)
  have setBlocks (a : BlockRecord) :
      setBlock sub 9 (Cbor.array (blocks.map toCbor)).quieted a =
        some { a with blocks := blocks.map received } :=
    congrArg (Option.map fun blocks? : Option (List BlockRecord) =>
      ({ a with blocks := blocks?.getD [] } : BlockRecord)) (readList_quieted blocks inner)
  have setMap (a : BlockRecord) :
      setBlock sub 10 (Cbor.array (f.sourceMap.map locToCbor)).quieted a =
        some { a with sourceMap := f.sourceMap } := by
    have read := congrArg (Option.map fun map? : Option (List SourceLoc) =>
      ({ a with sourceMap := map?.getD [] } : BlockRecord))
      (readList_quieted f.sourceMap fun l _ => readRecord_loc l)
    rw [List.map_id'] at read
    exact read
  -- Each step names the record so far; a field that was left out has its default.
  have step := @Field.foldlM_cons BlockRecord (setBlock sub)
  rw [received, receivedAll_eq_map]
  refine step (b := { version := f.version }) (Field.load_present rfl (setVersion _)) ?_
  refine step (b := { version := f.version, id := f.id }) (Field.load_present rfl (setId _)) ?_
  refine step (b := { version := f.version, id := f.id, name := f.name })
    (Field.load_unless (fun absent => ?_) (setName _)) ?_
  · rw [show f.name = [] from List.isEmpty_iff.mp absent]
  refine step (b := { version := f.version, id := f.id, name := f.name, source := f.source })
    (Field.load_unless (fun absent => ?_) (setSource _)) ?_
  · rw [show f.source = [] from List.isEmpty_iff.mp absent]
  refine step (b := ⟨{ f with
    consts := [], registers := 0, sharedSizes? := none, sourceMap := [] }, []⟩)
    (Field.load_present rfl (setCode _)) ?_
  refine step (b := ⟨{ f with
    consts := f.consts.map ConstRecord.quieted, registers := 0, sharedSizes? := none
    sourceMap := [] }, []⟩) (Field.load_unless (fun absent => ?_) (setConsts _)) ?_
  · rw [show f.consts = [] from List.isEmpty_iff.mp absent]
    rfl
  refine step (b := ⟨{ f with
    consts := f.consts.map ConstRecord.quieted, sharedSizes? := none, sourceMap := [] }, []⟩)
    (Field.load_present rfl (setRegisters _)) ?_
  refine step (load_sizes (f.sharedSizes?.getD []) rfl) ?_
  refine step (b := ⟨{ f with
    consts := f.consts.map ConstRecord.quieted, sourceMap := []
    sharedSizes? :=
      if (f.sharedSizes?.getD []).isEmpty then none else some (f.sharedSizes?.getD []) },
    blocks.map received⟩) (Field.load_unless (fun absent => ?_) (setBlocks _)) ?_
  · rw [show blocks = [] from List.isEmpty_iff.mp absent]
    rfl
  refine step (Field.load_unless (fun absent => ?_) (setMap _)) rfl
  rw [show f.sourceMap = [] from List.isEmpty_iff.mp absent]

theorem readBlock_toCbor {r : BlockRecord} (legible : r.Legible) {fuel levels : Nat}
    (within : r.toCbor.fits levels = true) (enough : levels < fuel) :
    readBlock fuel r.toCbor.quieted = some r.received := by
  induction legible generalizing fuel levels with
  | @record f blocks current name source nested ih =>
    obtain ⟨fuel, rfl⟩ := Nat.exists_eq_add_one_of_ne_zero (Nat.ne_zero_of_lt enough)
    have inner (r : BlockRecord) (member : r ∈ blocks) :
        readBlock fuel r.toCbor.quieted = some r.received := by
      obtain ⟨deep, held⟩ := fits_nested within member
      exact ih r member held (by omega)
    rw [readBlock, toCbor_eq]
    exact Field.readRecord_flatMap (by decide) rfl (foldlM_fields name source inner)

mutual

theorem plain_toCbor : (r : BlockRecord) → r.toCbor.Plain
  | ⟨f, blocks⟩ => by
    have small : f.version.toNat < UInt64.size := Nat.lt_trans f.version.toNat_lt (by decide)
    rw [toCbor_eq]
    refine Field.plain_flatMap ?_ ?_
    · simp only [fields, List.forall_mem_cons]
      decide
    · simp only [fields, List.forall_mem_cons]
      exact ⟨.unsigned small, .bytes _, .text _, .text _, plain_code _,
        plain_array fun c _ => plain_const c, plain_ofInt _, plain_array fun n _ => plain_ofInt n,
        plain_array (plain_toCbors blocks), plain_array fun l _ => plain_loc l, by simp⟩

theorem plain_toCbors : (rs : List BlockRecord) → ∀ r ∈ rs, r.toCbor.Plain
  | [] => by simp
  | r :: rest => List.forall_mem_cons.mpr ⟨plain_toCbor r, plain_toCbors rest⟩

end

/-- The bytes of a record within the limits of reading are read back. -/
theorem decode?_encode_toCbor {r : BlockRecord} (legible : r.Legible)
    (within : r.toCbor.fits Cbor.maxLevels = true) :
    (Cbor.decode? r.toCbor.encode).bind (readBlock (Cbor.maxLevels + 1)) = some r.received := by
  rw [Cbor.decode?_encode (plain_toCbor r) within, Option.bind_some]
  exact readBlock_toCbor legible within (Nat.lt_succ_self _)

end BlockRecord

/-- Blocks that have an encoded form: no constant is an object and all names
are well-formed text, at every depth. -/
inductive Portable : CodeBlock → Prop
  | block {data : BlockData} {blocks : List (Option CodeBlock)}
      (consts : ∀ v ∈ data.consts, v.kind ≠ .object) (name : data.name.isUtf8 = true)
      (source : data.source.isUtf8 = true) (nested : ∀ sub, some sub ∈ blocks → Portable sub) :
      Portable ⟨data, blocks⟩

/-- Constants that stand for each other: identical, or both not a number. -/
def SameConstant (v w : Value) : Prop :=
  v.identical w = true ∨ ∃ x y, v = .real x ∧ w = .real y ∧ x.isNaN = true ∧ y.isNaN = true

/-- Blocks that stand for each other: equal in all fields, with constants that
stand for each other, and so are the nested blocks. Sizes that are absent equal
no sizes, while absent code differs from no code. -/
inductive Alike : CodeBlock → CodeBlock → Prop
  | block {d e : BlockData} {blocks blocks' : List (Option CodeBlock)}
      (id : e.id = d.id) (name : e.name = d.name) (source : e.source = d.source)
      (code : e.code? = d.code?) (registers : e.registers = d.registers)
      (nestLevel : e.nestLevel = d.nestLevel) (sizes : e.sharedSizes = d.sharedSizes)
      (sourceMap : e.sourceMap = d.sourceMap)
      (consts : List.Forall₂ SameConstant d.consts e.consts)
      (nested : List.Forall₂ (Option.Rel Alike) blocks blocks') :
      Alike ⟨d, blocks⟩ ⟨e, blocks'⟩

theorem sameConstant_refl (v : Value) : SameConstant v v := .inl (decide_eq_true rfl)

theorem sameConstant_quieted (x : Binary64) : SameConstant (.real x) (.real x.quieted) := by
  unfold Binary64.quieted
  cases number : x.isNaN with
  | true => exact .inr ⟨x, _, rfl, rfl, number, by rw [if_pos rfl]; decide⟩
  | false => exact sameConstant_refl _

/-- A constant that is no object is written and read back. -/
theorem ofValue?_toValue? {v : Value} (plain : v.kind ≠ .object) :
    ∃ c w, ConstRecord.ofValue? v = some c ∧ c.quieted.toValue? = some w ∧ SameConstant v w := by
  cases v with
  | void => exact ⟨_, _, rfl, rfl, sameConstant_refl _⟩
  | bool b =>
    refine ⟨_, .bool b, rfl, ?_, sameConstant_refl _⟩
    cases b <;> rfl
  | int n => exact ⟨_, _, rfl, rfl, sameConstant_refl _⟩
  | real x => exact ⟨_, _, rfl, rfl, sameConstant_quieted x⟩
  | string t => exact ⟨_, _, rfl, rfl, sameConstant_refl _⟩
  | octet t => exact ⟨_, _, rfl, rfl, sameConstant_refl _⟩
  | object ref context => exact absurd rfl plain

theorem constRecords_constValues {consts : List Value} (plain : ∀ v ∈ consts, v.kind ≠ .object)
    (title name : Text) (i j : Nat) :
    ∃ cs values, constRecords title i consts = .ok cs ∧
      constValues name j (cs.map ConstRecord.quieted) = .ok values ∧
      List.Forall₂ SameConstant consts values := by
  induction consts generalizing i j with
  | nil => exact ⟨[], [], rfl, rfl, .nil⟩
  | cons v consts ih =>
    obtain ⟨c, w, written, read, same⟩ := ofValue?_toValue? (plain v List.mem_cons_self)
    obtain ⟨cs, values, written', read', others⟩ :=
      ih (fun v member => plain v (List.mem_cons_of_mem _ member)) (i + 1) (j + 1)
    refine ⟨c :: cs, w :: values, ?_, ?_, .cons same others⟩
    · simp only [constRecords, written, written', bind, Except.bind, pure, Except.pure]
    · simp only [List.map_cons, constValues, read, read', bind, Except.bind, pure, Except.pure]

/-- A block, its record, and the block that comes back. -/
structure Carried (b : CodeBlock) (r : BlockRecord) (b' : CodeBlock) : Prop where
  written : BlockRecord.ofBlock b = .ok r
  legible : r.Legible
  read : r.received.toBlock = .ok b'
  valid : b'.validate = .ok ()
  alike : Alike b b'

theorem carried_nested {blocks : List (Option CodeBlock)}
    (each : ∀ place ∈ blocks, ∃ sub r sub', place = some sub ∧ Carried sub r sub') :
    ∃ rs blocks', BlockRecord.ofPlaces blocks = .ok rs ∧ (∀ r ∈ rs, r.Legible) ∧
      BlockRecord.toBlocks (rs.map BlockRecord.received) = .ok blocks' ∧
      (∀ place ∈ blocks', ∃ sub, place = some sub ∧ sub.validate = .ok ()) ∧
      List.Forall₂ (Option.Rel Alike) blocks blocks' := by
  induction blocks with
  | nil => exact ⟨[], [], rfl, by simp, rfl, by simp, .nil⟩
  | cons place blocks ih =>
    obtain ⟨sub, r, sub', rfl, carried⟩ := each place List.mem_cons_self
    obtain ⟨rs, blocks', written, legible, read, valid, alike⟩ :=
      ih fun place member => each place (List.mem_cons_of_mem _ member)
    refine ⟨r :: rs, some sub' :: blocks', ?_, ?_, ?_, ?_, .cons (.some carried.alike) alike⟩
    · simp only [BlockRecord.ofPlaces, BlockRecord.ofPlace, carried.written, written, bind,
        Except.bind, pure, Except.pure]
    · exact List.forall_mem_cons.mpr ⟨carried.legible, legible⟩
    · simp only [List.map_cons, BlockRecord.toBlocks, carried.read, read, bind, Except.bind, pure,
        Except.pure]
    · exact List.forall_mem_cons.mpr ⟨⟨sub', rfl, carried.valid⟩, valid⟩

theorem Alike.summary {b b' : CodeBlock} (alike : Alike b b') : b'.summary = b.summary := by
  cases alike with
  | block id name source code registers =>
    simp only [CodeBlock.summary, BlockData.title, name, registers]

theorem Alike.summaries {blocks blocks' : List (Option CodeBlock)}
    (alike : List.Forall₂ (Option.Rel Alike) blocks blocks') :
    blocks'.map (Option.map CodeBlock.summary) = blocks.map (Option.map CodeBlock.summary) := by
  induction alike with
  | nil => rfl
  | cons first _ ih =>
    rw [List.map_cons, List.map_cons, ih]
    cases first with
    | none => rfl
    | some alike => rw [Option.map_some, Option.map_some, alike.summary]

/-- A checked block that has an encoded form is carried over. -/
theorem carried {b : CodeBlock} (portable : Portable b) (valid : b.validate = .ok ()) :
    ∃ r b', Carried b r b' := by
  induction portable with
  | @block data blocks consts name source nested ih =>
    obtain ⟨own, inner⟩ := CodeBlock.validate_ok.mp valid
    have each (place : Option CodeBlock) (member : place ∈ blocks) :
        ∃ sub r sub', place = some sub ∧ Carried sub r sub' := by
      obtain ⟨sub, rfl, checked⟩ := inner place member
      obtain ⟨r, sub', carried⟩ := ih sub member checked
      exact ⟨sub, r, sub', rfl, carried⟩
    obtain ⟨rs, blocks', written, legible, read, valid', alike⟩ := carried_nested each
    obtain ⟨cs, values, constsWritten, constsRead, same⟩ :=
      constRecords_constValues consts data.title data.name 0 0
    have sizes : (if data.sharedSizes.isEmpty then none else some data.sharedSizes).getD [] =
        data.sharedSizes := by
      cases data.sharedSizes <;> rfl
    have level : Int64.ofNat ((if data.sharedSizes.isEmpty then none
        else some data.sharedSizes).getD []).length = data.nestLevel := by
      rw [sizes, ← Int64.ofInt_toInt data.nestLevel, (CodeBlock.checkOwn_ok own).2.1]
      exact (Int64.ofInt_eq_ofNat).symm
    have encoded : BlockRecord.ofBlock ⟨data, blocks⟩ = .ok {
        version, id := data.id, name := data.name, source := data.source, code? := data.code?
        consts := cs, registers := data.registers, sharedSizes? := data.sharedSizes?
        sourceMap := data.sourceMap, blocks := rs } := by
      simp only [BlockRecord.ofBlock, constsWritten, written, bind, Except.bind, pure, Except.pure]
    refine ⟨_, ⟨{ data with
      consts := values
      sharedSizes? := if data.sharedSizes.isEmpty then none else some data.sharedSizes }, blocks'⟩,
      encoded, .record rfl name source legible, ?_, ?_, ?_⟩
    · simp only [BlockRecord.received, BlockRecord.receivedAll_eq_map, BlockRecord.toBlock, read,
        constsRead, bind, Except.bind, pure, Except.pure]
      rw [if_neg (not_not_intro rfl), ← level]
      rfl
    · refine CodeBlock.validate_ok.mpr ⟨?_, valid'⟩
      rw [← own]
      exact CodeBlock.checkOwn_congr rfl rfl rfl sizes same.length_eq.symm (Alike.summaries alike)
    · exact .block rfl rfl rfl rfl rfl rfl sizes rfl same alike

/-- Whether the encoded form of a block, if it has one, is within the limits of
reading. -/
def withinLimits (b : CodeBlock) : Bool :=
  match BlockRecord.ofBlock b with
  | .ok r => r.toCbor.fits Cbor.maxLevels
  | .error _ => true

/-- A checked block that has an encoded form within the limits of reading is
encoded, and its bytes decode to a block that stands for it. -/
theorem decode_encode_alike {b : CodeBlock} (valid : b.validate = .ok ()) (portable : Portable b)
    (within : withinLimits b = true) :
    ∃ t b', encode b = .ok t ∧ decode t = .ok b' ∧ Alike b b' := by
  obtain ⟨r, b', carried⟩ := carried portable valid
  rw [withinLimits, carried.written] at within
  refine ⟨r.toCbor.encode, b', ?_, ?_, carried.alike⟩
  · rw [encode, carried.written]
    rfl
  · rw [decode, BlockRecord.decode?_encode_toCbor carried.legible within]
    simp only [carried.read, bind, Except.bind, carried.valid]
    rfl

/-- A block with nested blocks and constants of every kind that has an encoded
form, among them a not-a-number with a payload, the negative zero, the smallest
number and the least integer. -/
def assorted : CodeBlock :=
  { name := utf8 "main", source := utf8 "naïve", code? := some #[33, 1], registers := 2
    consts := [.void, .bool true, .int Int64.minValue, .real ⟨0xfff0000000000001⟩,
      .real ⟨0x8000000000000000⟩, .real ⟨1⟩, .string [], .octet [0, 255]]
    nestLevel := 1, sharedSizes? := some [3], sourceMap := [⟨0, 1, 7⟩]
    blocks := [some { code? := some #[], sharedSizes? := some [], blocks := [some {}] }] }

theorem assorted_decode_encode :
    assorted.validate = .ok () ∧ Portable assorted ∧ withinLimits assorted = true ∧
      ∃ t b', encode assorted = .ok t ∧ decode t = .ok b' ∧ Alike assorted b' := by
  have valid : assorted.validate = .ok () := rfl
  have within : withinLimits assorted = true := by decide +kernel
  have innermost : Portable {} := .block (by decide) (by decide) (by decide) (by simp)
  have inner : Portable { code? := some #[], sharedSizes? := some [], blocks := [some {}] } :=
    .block (by decide) (by decide) (by decide) (by simpa using innermost)
  have portable : Portable assorted :=
    .block (by decide) (by decide +kernel) (by decide +kernel) (by simpa using inner)
  exact ⟨valid, portable, within, decode_encode_alike valid portable within⟩

end ScriptEngine.Wire
