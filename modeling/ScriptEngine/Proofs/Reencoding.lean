import ScriptEngine.Proofs.ContentHash
import ScriptEngine.Proofs.ItemLimits

/-! Blocks that are decoded, encoded and decoded again. Reading accepts many
forms of a record; whichever it was, the block has an encoded form, and that
form decodes to a block that stands for it and is encoded and hashed the same,
unless it nests deeper than reading admits. -/
namespace ScriptEngine

namespace Text

/-- A character that is complete is the same with more text behind it. -/
theorem multibyte?_append {t : Text} {code length : Nat} (found : multibyte? t = some (code, length))
    (more : Text) : multibyte? (t ++ more) = some (code, length) ∧ length ≤ t.length := by
  match t with
  | [] | [_] => cases found
  | a :: b :: rest =>
    simp only [multibyte?, List.cons_append] at found ⊢
    cases two : pair? a b with
    | some code' =>
      rw [two] at found
      obtain ⟨rfl, rfl⟩ := Prod.mk.inj (Option.some.inj found)
      simp
    | none =>
      rw [two] at found
      match rest with
      | [] => cases found
      | c :: rest =>
        simp only [List.cons_append] at found ⊢
        cases three : triple? a b c with
        | some code' =>
          rw [three] at found
          obtain ⟨rfl, rfl⟩ := Prod.mk.inj (Option.some.inj found)
          simp
        | none =>
          rw [three] at found
          match rest with
          | [] => cases found
          | d :: rest =>
            obtain ⟨code', four, same⟩ := Option.map_eq_some_iff.mp found
            obtain ⟨rfl, rfl⟩ := Prod.mk.inj same
            simp [four]

/-- Text that is well formed after some bytes stays so with more behind it. -/
theorem glyphsFrom_append {skip : Nat} {t : Text} (inside : skip ≤ t.length)
    (formed : ∀ byte, .stray byte ∉ glyphsFrom skip t) (more : Text) :
    glyphsFrom skip (t ++ more) = glyphsFrom skip t ++ glyphs more := by
  induction t generalizing skip with
  | nil =>
    obtain rfl := Nat.eq_zero_of_le_zero inside
    rfl
  | cons b t ih =>
    cases skip with
    | succ skip => exact ih (Nat.le_of_succ_le_succ inside) formed
    | zero =>
      rw [List.cons_append, glyphsFrom, glyphsFrom]
      rw [glyphsFrom] at formed
      split
      next ascii =>
        rw [if_pos ascii] at formed
        rw [ih (Nat.zero_le _) fun byte member => formed byte (List.mem_cons_of_mem _ member)]
        rfl
      next wide =>
        rw [if_neg wide] at formed
        cases found : multibyte? (b :: t) with
        | none =>
          rw [found] at formed
          exact absurd List.mem_cons_self (formed b)
        | some pair =>
          obtain ⟨code, length⟩ := pair
          obtain ⟨found', within⟩ := multibyte?_append found more
          rw [found] at formed
          rw [List.cons_append] at found'
          rw [found']
          simp only
          have inside : length - 1 ≤ t.length := by
            rw [List.length_cons] at within
            omega
          rw [ih inside fun byte member => formed byte (List.mem_cons_of_mem _ member)]
          rfl

theorem isUtf8_iff {t : Text} : t.isUtf8 = true ↔ ∀ byte, .stray byte ∉ glyphs t := by
  rw [isUtf8, List.all_eq_true]
  constructor
  · intro all byte member
    exact absurd (all _ member) Bool.false_ne_true
  · intro none glyph member
    cases glyph with
    | char => rfl
    | stray byte => exact absurd member (none byte)

theorem isUtf8_flatten {chunks : List Text} (each : chunks.all isUtf8 = true) :
    isUtf8 chunks.flatten = true := by
  induction chunks with
  | nil => rfl
  | cons chunk chunks ih =>
    obtain ⟨first, others⟩ := Bool.and_eq_true_iff.mp each
    have formed := isUtf8_iff.mp first
    have formed' := isUtf8_iff.mp (ih others)
    rw [List.flatten_cons, isUtf8_iff, glyphs, glyphsFrom_append (Nat.zero_le _) formed]
    intro byte member
    rcases List.mem_append.mp member with member | member
    · exact formed byte member
    · exact formed' byte member

end Text

namespace Wire

/-! ### Records that were read -/

open Cbor (Sized elementLimit)

variable {α : Type} {x : Cbor}

/-- What remains of an item that was within the limits of reading. -/
def Plain.Sized : Plain → Prop
  | .item y => Cbor.Sized elementLimit y
  | .big _ b => b.length < UInt64.size

theorem plain_sized (sized : Sized elementLimit x) {rest : Plain} (found : plain x = some rest) :
    rest.Sized := by
  induction sized generalizing rest with
  | @tag number content sized ih =>
    unfold plain at found
    split at found
    · exact ih found
    · split at found
      · cases found
      · split at found
        · obtain rfl := Option.some.inj found
          cases sized with
          | bytes short => exact short
        · obtain rfl := Option.some.inj found
          cases sized with
          | bytes short => exact short
        · exact ih found
  | unsigned n => exact Option.some.inj found ▸ .unsigned n
  | negative n => exact Option.some.inj found ▸ .negative n
  | bytes short => exact Option.some.inj found ▸ .bytes short
  | text short => exact Option.some.inj found ▸ .text short
  | array few each => exact Option.some.inj found ▸ .array few each
  | map few keys values => exact Option.some.inj found ▸ .map few keys values
  | simple code => exact Option.some.inj found ▸ .simple code
  | real r => exact Option.some.inj found ▸ .real r

theorem readAll_some {read : Cbor → Option α} {items : List Cbor} {values : List α}
    (found : readAll read items = some values) :
    values.length = items.length ∧ ∀ a ∈ values, ∃ y ∈ items, read y = some a := by
  induction items generalizing values with
  | nil =>
    obtain rfl := Option.some.inj found
    simp
  | cons y items ih =>
    simp only [readAll, Option.bind_eq_bind, Option.bind_eq_some_iff] at found
    obtain ⟨a, first, others, more, same⟩ := found
    obtain rfl := Option.some.inj same
    obtain ⟨length, each⟩ := ih more
    refine ⟨congrArg (· + 1) length, List.forall_mem_cons.mpr ⟨⟨y, List.mem_cons_self, first⟩, ?_⟩⟩
    intro b member
    obtain ⟨z, there, reads⟩ := each b member
    exact ⟨z, List.mem_cons_of_mem _ there, reads⟩

/-- A list has as many elements as reading admits, each read from an item of its
own. -/
theorem readList_sized {read : Cbor → Option α} (sized : Sized elementLimit x)
    {values? : Option (List α)} (found : readList read x = some values?) {values : List α}
    (present : values? = some values) :
    values.length < elementLimit ∧ ∀ a ∈ values, ∃ y, Sized elementLimit y ∧ read y = some a := by
  simp only [readList, Option.bind_eq_bind, Option.bind_eq_some_iff] at found
  obtain ⟨rest, untagged, found⟩ := found
  have within := plain_sized sized untagged
  split at found
  · obtain ⟨others, all, same⟩ := Option.map_eq_some_iff.mp found
    obtain rfl := Option.some.inj (same.trans present)
    obtain ⟨few, each⟩ := Cbor.Sized.items within
    obtain ⟨length, reads⟩ := readAll_some all
    refine ⟨length ▸ few, fun a member => ?_⟩
    obtain ⟨y, there, read⟩ := reads a member
    exact ⟨y, each y there, read⟩
  · split at found
    · exact absurd ((Option.some.inj found).trans present) (by simp)
    · cases found
  · cases found

theorem readBytes_sized (sized : Sized elementLimit x) {b : Text} (found : readBytes x = some b) :
    b.length < UInt64.size := by
  simp only [readBytes, Option.bind_eq_bind, Option.bind_eq_some_iff] at found
  obtain ⟨rest, untagged, found⟩ := found
  have within := plain_sized sized untagged
  split at found
  · obtain rfl := Option.some.inj found
    cases within with
    | bytes short => exact short
  · obtain ⟨few, -⟩ := Cbor.Sized.items within
    rw [(readAll_some found).1]
    exact Nat.lt_trans few (by decide)
  · split at found
    · obtain rfl := Option.some.inj found
      decide
    · cases found
  · obtain rfl := Option.some.inj found
    exact within

theorem readText_sized (sized : Sized elementLimit x) {before t : Text}
    (start : before.isUtf8 = true ∧ before.length < UInt64.size)
    (found : readText before x = some t) : t.isUtf8 = true ∧ t.length < UInt64.size := by
  simp only [readText, Option.bind_eq_bind, Option.bind_eq_some_iff] at found
  obtain ⟨rest, untagged, found⟩ := found
  have within := plain_sized sized untagged
  split at found
  · split at found
    next formed =>
      obtain rfl := Option.some.inj found
      cases within with
      | text short => exact ⟨Text.isUtf8_flatten formed, short⟩
    · cases found
  · split at found
    · exact Option.some.inj found ▸ start
    · cases found
  · cases found

/-- What every field keeps is kept by reading the entries of a record. -/
theorem readEntries_keeps {set : Int → Cbor → α → Option α} {P : α → Prop}
    (step : ∀ n y a b, Sized elementLimit y → set n y a = some b → P a → P b)
    {known : Int → Bool} {seen : List Int} {entries : List (Cbor × Cbor)} {before after : α}
    (each : ∀ entry ∈ entries, Sized elementLimit entry.2) (start : P before)
    (found : readEntries set known seen entries before = some after) : P after := by
  induction entries generalizing seen before with
  | nil => exact Option.some.inj found ▸ start
  | cons entry entries ih =>
    obtain ⟨key, value⟩ := entry
    obtain ⟨first, others⟩ := List.forall_mem_cons.mp each
    unfold readEntries at found
    split at found
    · cases found
    · exact ih others start found
    · split at found
      · split at found
        next b done => exact ih others (step _ _ _ _ first done start) found
        · cases found
      · exact ih others start found

theorem readRecord_keeps {set : Int → Cbor → α → Option α} {P : α → Prop}
    (step : ∀ n y a b, Sized elementLimit y → set n y a = some b → P a → P b) {count : Nat}
    {before after : α} (sized : Sized elementLimit x) (start : P before)
    (found : readRecord set count before x = some after) : P after := by
  simp only [readRecord, Option.bind_eq_bind, Option.bind_eq_some_iff] at found
  obtain ⟨rest, untagged, found⟩ := found
  have within := plain_sized sized untagged
  split at found
  · cases within with
    | map few keys values => exact readEntries_keeps step values start found
  · split at found
    · exact Option.some.inj found ▸ start
    · cases found
  · cases found

theorem readConst_sized (sized : Sized elementLimit x) {c : ConstRecord}
    (found : readRecord setConst 4 {} x = some c) : c.bytes.length < UInt64.size := by
  refine readRecord_keeps (P := fun c => c.bytes.length < UInt64.size) ?_ sized (by decide) found
  intro n y a b sized set start
  unfold setConst at set
  split at set
  · obtain ⟨kind, -, rfl⟩ := Option.map_eq_some_iff.mp set
    exact start
  · obtain ⟨int, -, rfl⟩ := Option.map_eq_some_iff.mp set
    exact start
  · obtain ⟨real, -, rfl⟩ := Option.map_eq_some_iff.mp set
    exact start
  · obtain ⟨bytes, read, rfl⟩ := Option.map_eq_some_iff.mp set
    exact readBytes_sized sized read
  · exact Option.some.inj set ▸ start

/-- Fields whose names are well-formed text and that are no larger than what
reading admits. -/
structure BlockFields.Moderate (f : BlockFields) : Prop where
  name : f.name.isUtf8 = true ∧ f.name.length < UInt64.size
  source : f.source.isUtf8 = true ∧ f.source.length < UInt64.size
  code : ∀ code, f.code? = some code → code.size < elementLimit
  consts : f.consts.length < elementLimit
  strings : ∀ c ∈ f.consts, c.bytes.length < UInt64.size
  sizes : (f.sharedSizes?.getD []).length < elementLimit
  sourceMap : f.sourceMap.length < elementLimit

namespace BlockRecord

inductive Moderate : BlockRecord → Prop
  | record {f : BlockFields} {blocks : List BlockRecord} (own : f.Moderate)
      (few : blocks.length < elementLimit) (nested : ∀ r ∈ blocks, Moderate r) : Moderate ⟨f, blocks⟩

theorem moderate_empty : Moderate {} :=
  .record ⟨by decide, by decide, by simp, by decide, by simp, by decide, by decide⟩ (by decide)
    (by simp)

/-- Every field keeps a record moderate, if nested records are. -/
theorem Moderate.setBlock {nested : Cbor → Option BlockRecord}
    (inner : ∀ y r, Sized elementLimit y → nested y = some r → Moderate r) (n : Int) (x : Cbor)
    (a b : BlockRecord) (sized : Sized elementLimit x) (set : setBlock nested n x a = some b)
    (start : Moderate a) : Moderate b := by
  cases start with
  | @record f blocks own few held =>
    unfold Wire.setBlock at set
    split at set
    · obtain ⟨version, -, rfl⟩ := Option.map_eq_some_iff.mp set
      exact .record { own with } few held
    · obtain ⟨id, -, rfl⟩ := Option.map_eq_some_iff.mp set
      exact .record { own with } few held
    · obtain ⟨name, read, rfl⟩ := Option.map_eq_some_iff.mp set
      exact .record { own with name := readText_sized sized own.name read } few held
    · obtain ⟨source, read, rfl⟩ := Option.map_eq_some_iff.mp set
      exact .record { own with source := readText_sized sized own.source read } few held
    · obtain ⟨words?, read, rfl⟩ := Option.map_eq_some_iff.mp set
      refine .record { own with code := ?_ } few held
      intro code present
      obtain ⟨words, there, rfl⟩ := Option.map_eq_some_iff.mp present
      exact (readList_sized sized read there).1
    · obtain ⟨consts?, read, rfl⟩ := Option.map_eq_some_iff.mp set
      cases consts? with
      | none => exact .record { own with consts := Nat.succ_pos _, strings := by simp } few held
      | some consts =>
        obtain ⟨small, each⟩ := readList_sized sized read rfl
        refine .record { own with consts := small, strings := ?_ } few held
        intro c member
        obtain ⟨y, sized, read⟩ := each c member
        exact readConst_sized sized read
    · obtain ⟨registers, -, rfl⟩ := Option.map_eq_some_iff.mp set
      exact .record { own with } few held
    · obtain ⟨sizes?, read, rfl⟩ := Option.map_eq_some_iff.mp set
      cases sizes? with
      | none => exact .record { own with sizes := Nat.succ_pos _ } few held
      | some sizes => exact .record { own with sizes := (readList_sized sized read rfl).1 } few held
    · obtain ⟨blocks?, read, rfl⟩ := Option.map_eq_some_iff.mp set
      cases blocks? with
      | none => exact .record { own with } (by decide) (by simp)
      | some blocks =>
        obtain ⟨small, each⟩ := readList_sized sized read rfl
        refine .record { own with } small ?_
        intro r member
        obtain ⟨y, sized, read⟩ := each r member
        exact inner y r sized read
    · obtain ⟨map?, read, rfl⟩ := Option.map_eq_some_iff.mp set
      cases map? with
      | none => exact .record { own with sourceMap := Nat.succ_pos _ } few held
      | some map => exact .record { own with sourceMap := (readList_sized sized read rfl).1 } few held
    · exact Option.some.inj set ▸ .record own few held

/-- Records that are read from items within the limits are moderate. -/
theorem moderate_readBlock {fuel : Nat} {r : BlockRecord} (sized : Sized elementLimit x)
    (found : readBlock fuel x = some r) : Moderate r := by
  induction fuel generalizing x r with
  | zero => cases found
  | succ fuel ih =>
    exact readRecord_keeps (Moderate.setBlock fun y r sized => ih sized) sized moderate_empty found

/-! ### Blocks that were decoded -/

theorem toBlock_ok {f : BlockFields} {blocks : List BlockRecord} {b : CodeBlock} :
    toBlock ⟨f, blocks⟩ = .ok b ↔ f.version = version ∧
      ∃ consts subs, constValues f.name 0 f.consts = .ok consts ∧ toBlocks blocks = .ok subs ∧
        b = { id := f.id, name := f.name, source := f.source, code? := f.code?, consts
              registers := f.registers
              nestLevel := Int64.ofNat (f.sharedSizes?.getD []).length
              sharedSizes? := f.sharedSizes?, sourceMap := f.sourceMap, blocks := subs } := by
  rw [toBlock]
  by_cases current : f.version = version
  · rw [if_neg (not_not_intro current), except_bind_ok]
    simp only [except_bind_pure_ok, current, true_and, exists_and_left]
  · rw [if_pos current]
    simp [current]

theorem toBlocks_cons_ok {r : BlockRecord} {rest : List BlockRecord}
    {blocks : List (Option CodeBlock)} : toBlocks (r :: rest) = .ok blocks ↔
      ∃ sub subs, r.toBlock = .ok sub ∧ toBlocks rest = .ok subs ∧ blocks = some sub :: subs := by
  rw [toBlocks, except_bind_ok]
  simp only [except_bind_pure_ok, exists_and_left]

end BlockRecord

theorem constValues_cons_ok {name : Text} {i : Nat} {c : ConstRecord} {cs : List ConstRecord}
    {values : List Value} : constValues name i (c :: cs) = .ok values ↔
      ∃ v rest, c.toValue? = some v ∧ constValues name (i + 1) cs = .ok rest ∧
        values = v :: rest := by
  rw [constValues]
  cases c.toValue? with
  | none => simp
  | some v => simp only [except_bind_pure_ok, Option.some.injEq, exists_and_left, exists_eq_left']

/-- A constant that was read is written with the bytes that it was read with, or
with none if its kind has none. -/
theorem toValue?_ofValue? {c : ConstRecord} {v : Value} (read : c.toValue? = some v) :
    v.kind ≠ .object ∧ ∃ d, ConstRecord.ofValue? v = some d ∧ (d.bytes = [] ∨ d.bytes = c.bytes) := by
  unfold ConstRecord.toValue? at read
  split at read
  · obtain rfl := Option.some.inj read
    exact ⟨by decide, _, rfl, .inl rfl⟩
  · obtain rfl := Option.some.inj read
    exact ⟨by simp [Value.kind], _, rfl, .inl rfl⟩
  · obtain rfl := Option.some.inj read
    exact ⟨by simp [Value.kind], _, rfl, .inl rfl⟩
  · obtain rfl := Option.some.inj read
    exact ⟨by simp [Value.kind], _, rfl, .inl rfl⟩
  · obtain rfl := Option.some.inj read
    exact ⟨by simp [Value.kind], _, rfl, .inr rfl⟩
  · obtain rfl := Option.some.inj read
    exact ⟨by simp [Value.kind], _, rfl, .inr rfl⟩
  · cases read

theorem constValues_constRecords {name title : Text} {i : Nat} {cs : List ConstRecord}
    {values : List Value} (read : constValues name i cs = .ok values)
    (short : ∀ c ∈ cs, c.bytes.length < UInt64.size) (j : Nat) :
    (∀ v ∈ values, v.kind ≠ .object) ∧ ∃ ds, constRecords title j values = .ok ds ∧
      ds.length = cs.length ∧ ∀ d ∈ ds, d.bytes.length < UInt64.size := by
  induction cs generalizing values i j with
  | nil =>
    obtain rfl := Except.ok.inj read
    exact ⟨by simp, [], rfl, rfl, by simp⟩
  | cons c cs ih =>
    obtain ⟨v, rest, first, others, rfl⟩ := constValues_cons_ok.mp read
    obtain ⟨bytes, short⟩ := List.forall_mem_cons.mp short
    obtain ⟨plain, d, written, same⟩ := toValue?_ofValue? first
    obtain ⟨plains, ds, written', length, shorts⟩ := ih others short (j + 1)
    refine ⟨List.forall_mem_cons.mpr ⟨plain, plains⟩, d :: ds,
      constRecords_cons_ok.mpr ⟨d, ds, written, written', rfl⟩, congrArg (· + 1) length,
      List.forall_mem_cons.mpr ⟨?_, shorts⟩⟩
    rcases same with same | same
    · rw [same]
      decide
    · rwa [same]

namespace BlockRecord

theorem Moderate.places {blocks : List BlockRecord} {subs : List (Option CodeBlock)}
    (each : ∀ r ∈ blocks, ∀ {b}, r.toBlock = .ok b →
      Portable b ∧ ∃ r', ofBlock b = .ok r' ∧ Moderate r')
    (read : toBlocks blocks = .ok subs) :
    (∀ sub, some sub ∈ subs → Portable sub) ∧
      ∃ rs, ofPlaces subs = .ok rs ∧ rs.length = blocks.length ∧ ∀ r ∈ rs, Moderate r := by
  induction blocks generalizing subs with
  | nil =>
    obtain rfl := Except.ok.inj read
    exact ⟨by simp, [], rfl, rfl, by simp⟩
  | cons r blocks ih =>
    obtain ⟨sub, subs, first, others, rfl⟩ := toBlocks_cons_ok.mp read
    obtain ⟨here, later⟩ := List.forall_mem_cons.mp each
    obtain ⟨portable, r', written, moderate⟩ := here first
    obtain ⟨portables, rs, written', length, moderates⟩ := ih later others
    refine ⟨?_, r' :: rs, ofPlaces_cons_ok.mpr ⟨r', rs, written, written', rfl⟩,
      congrArg (· + 1) length, List.forall_mem_cons.mpr ⟨moderate, moderates⟩⟩
    intro sub' member
    rcases List.mem_cons.mp member with same | member
    · exact Option.some.inj same ▸ portable
    · exact portables sub' member

/-- A block whose record was moderate has an encoded form with a moderate record. -/
theorem Moderate.written {r : BlockRecord} (moderate : Moderate r) {b : CodeBlock}
    (read : r.toBlock = .ok b) : Portable b ∧ ∃ r', ofBlock b = .ok r' ∧ Moderate r' := by
  induction moderate generalizing b with
  | @record f blocks own few nested ih =>
    obtain ⟨-, consts, subs, values, inner, rfl⟩ := toBlock_ok.mp read
    obtain ⟨plain, cs, written, length, short⟩ := constValues_constRecords values own.strings 0
    obtain ⟨portables, rs, places, count, moderates⟩ := Moderate.places ih inner
    refine ⟨.block plain own.name.1 own.source.1 portables, _,
      ofBlock_ok.mpr ⟨cs, rs, written, places, rfl⟩, .record ?_ (count ▸ few) moderates⟩
    exact ⟨own.name, own.source, own.code, length ▸ own.consts, short, own.sizes, own.sourceMap⟩

end BlockRecord

/-! ### Moderate records are within the limits of size -/

theorem Field.sized_flatMap {fields : List Field} (few : fields.length < elementLimit)
    (each : ∀ f ∈ fields, Sized elementLimit f.value) :
    Sized elementLimit (.map (fields.flatMap Field.entries)) := by
  have count : (fields.flatMap Field.entries).length ≤ fields.length := by
    clear few each
    induction fields with
    | nil => exact Nat.le_refl 0
    | cons f fields ih =>
      rw [List.flatMap_cons, List.length_append, List.length_cons, Field.entries, entryUnless]
      split
      · exact Nat.le_succ_of_le (by simpa using ih)
      · rw [List.length_singleton]
        omega
  refine .map (Nat.lt_of_le_of_lt count few) ?_ ?_
  · intro entry member
    obtain ⟨f, -, member⟩ := List.mem_flatMap.mp member
    unfold Field.entries entryUnless at member
    split at member
    · exact absurd member List.not_mem_nil
    · obtain rfl := List.mem_singleton.mp member
      exact .unsigned _
  · intro entry member
    obtain ⟨f, present, member⟩ := List.mem_flatMap.mp member
    unfold Field.entries entryUnless at member
    split at member
    · exact absurd member List.not_mem_nil
    · obtain rfl := List.mem_singleton.mp member
      exact each f present

theorem sized_ofInt (i : Int) : Sized elementLimit (Cbor.ofInt i) := by
  unfold Cbor.ofInt
  split
  · exact .unsigned _
  · exact .negative _

theorem sized_array {write : α → Cbor} {items : List α} (few : items.length < elementLimit)
    (each : ∀ a ∈ items, Sized elementLimit (write a)) :
    Sized elementLimit (.array (items.map write)) := by
  refine .array (by rwa [List.length_map]) ?_
  intro item member
  obtain ⟨a, present, rfl⟩ := List.mem_map.mp member
  exact each a present

theorem sized_const {c : ConstRecord} (short : c.bytes.length < UInt64.size) :
    Sized elementLimit c.toCbor := by
  rw [c.toCbor_eq]
  refine Field.sized_flatMap (show 4 < elementLimit by decide) ?_
  simp only [ConstRecord.fields, List.forall_mem_cons]
  exact ⟨.unsigned _, sized_ofInt _, .real _, .bytes short, by simp⟩

theorem sized_loc (l : SourceLoc) : Sized elementLimit (locToCbor l) := by
  change Sized elementLimit (.map ((locFields l).flatMap Field.entries))
  refine Field.sized_flatMap (show 3 < elementLimit by decide) ?_
  simp only [locFields, List.forall_mem_cons]
  exact ⟨sized_ofInt _, sized_ofInt _, sized_ofInt _, by simp⟩

theorem sized_code {code? : Option (Array UInt32)}
    (few : ∀ code, code? = some code → code.size < elementLimit) :
    Sized elementLimit (codeToCbor code?) := by
  cases code? with
  | none => exact .simple _
  | some code => exact sized_array (few code rfl) fun w _ => .unsigned _

namespace BlockRecord

theorem Moderate.sized {r : BlockRecord} (moderate : Moderate r) : Sized elementLimit r.toCbor := by
  induction moderate with
  | @record f blocks own few nested ih =>
    have short : f.id.toList.length < UInt64.size := by
      rw [Vector.length_toList]
      decide
    have text {t : Text} (short : t.length < UInt64.size) : Sized elementLimit (.text [t]) :=
      .text (by simpa using short)
    rw [toCbor_eq]
    refine Field.sized_flatMap (show 10 < elementLimit by decide) ?_
    simp only [fields, List.forall_mem_cons]
    exact ⟨.unsigned _, .bytes short, text own.name.2, text own.source.2, sized_code own.code,
      sized_array own.consts fun c member => sized_const (own.strings c member), sized_ofInt _,
      sized_array own.sizes fun n _ => sized_ofInt _, sized_array few ih,
      sized_array own.sourceMap fun l _ => sized_loc l, by simp⟩

end BlockRecord

/-! ### The block that comes back -/

theorem constRecords_received {title title' name : Text} {i j k : Nat} {consts values : List Value}
    {cs : List ConstRecord} (written : constRecords title i consts = .ok cs)
    (read : constValues name j (cs.map ConstRecord.quieted) = .ok values) :
    constRecords title' k values = .ok (cs.map ConstRecord.quieted) := by
  induction consts generalizing values cs i j k with
  | nil =>
    obtain rfl := Except.ok.inj written
    obtain rfl := Except.ok.inj read
    rfl
  | cons v consts ih =>
    obtain ⟨c, rest, first, others, rfl⟩ := constRecords_cons_ok.mp written
    obtain ⟨w, values, here, later, rfl⟩ := constValues_cons_ok.mp read
    obtain ⟨back, forth⟩ := ofValue?_quieted first
    obtain rfl := Option.some.inj (here.symm.trans forth)
    exact constRecords_cons_ok.mpr ⟨c.quieted, _, back, ih others later, rfl⟩

namespace BlockRecord

mutual

/-- What is read back has the record that was read. -/
theorem ofBlock_received : (b : CodeBlock) → {r : BlockRecord} → {b' : CodeBlock} →
    ofBlock b = .ok r → r.received.toBlock = .ok b' → ofBlock b' = .ok r.received
  | ⟨data, blocks⟩, r, b', written, read => by
    obtain ⟨cs, rs, consts, places, rfl⟩ := ofBlock_ok.mp written
    rw [received] at read
    obtain ⟨-, values, subs, constants, nested, rfl⟩ := toBlock_ok.mp read
    refine ofBlock_ok.mpr ⟨_, _, constRecords_received consts constants,
      ofPlaces_received blocks places nested, ?_⟩
    rfl

theorem ofPlaces_received : (blocks : List (Option CodeBlock)) → {rs : List BlockRecord} →
    {blocks' : List (Option CodeBlock)} → ofPlaces blocks = .ok rs →
    toBlocks (receivedAll rs) = .ok blocks' → ofPlaces blocks' = .ok (receivedAll rs)
  | [], rs, blocks', written, read => by
    obtain rfl := Except.ok.inj written
    obtain rfl := Except.ok.inj read
    rfl
  | place :: blocks, rs, blocks', written, read => by
    obtain ⟨r, rest, first, others, rfl⟩ := ofPlaces_cons_ok.mp written
    obtain ⟨sub, subs, here, later, rfl⟩ := toBlocks_cons_ok.mp read
    exact ofPlaces_cons_ok.mpr ⟨r.received, receivedAll rest, ofPlace_received place first here,
      ofPlaces_received blocks others later, rfl⟩

theorem ofPlace_received : (place : Option CodeBlock) → {r : BlockRecord} → {b' : CodeBlock} →
    ofPlace place = .ok r → r.received.toBlock = .ok b' → ofPlace (some b') = .ok r.received
  | none, _, _, written, _ => by cases written
  | some b, _, _, written, read => ofBlock_received b written read

end

end BlockRecord

theorem encode_of_written {b : CodeBlock} {r : BlockRecord}
    (written : BlockRecord.ofBlock b = .ok r) : encode b = .ok r.toCbor.encode := by
  rw [encode, written]
  rfl

/-- How deep containers nest in the encoded form of a block, if it has one. -/
def nesting (b : CodeBlock) : Nat :=
  match BlockRecord.ofBlock b with
  | .ok r => r.toCbor.depth
  | .error _ => 0

theorem decode_ok {t : Text} {b : CodeBlock} (decoded : decode t = .ok b) :
    ∃ x r, Cbor.decode? t = some x ∧ readBlock (Cbor.maxLevels + 1) x = some r ∧
      r.toBlock = .ok b ∧ b.validate = .ok () := by
  unfold decode at decoded
  split at decoded
  · cases decoded
  next r read =>
    obtain ⟨x, item, read⟩ := Option.bind_eq_some_iff.mp read
    obtain ⟨b', block, decoded⟩ := except_bind_ok.mp decoded
    split at decoded
    next checked =>
      obtain rfl := Except.ok.inj decoded
      exact ⟨x, r, item, read, block, checked⟩
    · cases decoded

/-- A block that was decoded is checked and has an encoded form of moderate size. -/
theorem decoded_written {t : Text} {b : CodeBlock} (short : t.length < UInt64.size)
    (decoded : decode t = .ok b) :
    b.validate = .ok () ∧ Portable b ∧ ∃ r, BlockRecord.ofBlock b = .ok r ∧ r.Moderate := by
  obtain ⟨x, r, item, read, block, valid⟩ := decode_ok decoded
  have moderate := BlockRecord.moderate_readBlock (Cbor.sized_of_decode? short item) read
  obtain ⟨portable, written⟩ := moderate.written block
  exact ⟨valid, portable, written⟩

/-- An encoded form within the limits of reading decodes to a block with the same
record, up to not-a-numbers. -/
theorem decode_within {b : CodeBlock} {r : BlockRecord} (valid : b.validate = .ok ())
    (portable : Portable b) (written : BlockRecord.ofBlock b = .ok r)
    (within : r.toCbor.fits Cbor.maxLevels = true) :
    ∃ b', decode r.toCbor.encode = .ok b' ∧ Alike b b' ∧ BlockRecord.ofBlock b' = .ok r.received := by
  obtain ⟨r', b', carried⟩ := carried portable valid
  obtain rfl := Except.ok.inj (written.symm.trans carried.written)
  refine ⟨b', ?_, carried.alike, BlockRecord.ofBlock_received b written carried.read⟩
  rw [decode, BlockRecord.decode?_encode_toCbor carried.legible within]
  simp only [carried.read, bind, Except.bind, carried.valid]
  rfl

theorem decode_shallow {b : CodeBlock} {r : BlockRecord} (valid : b.validate = .ok ())
    (portable : Portable b) (written : BlockRecord.ofBlock b = .ok r) (moderate : r.Moderate)
    (shallow : r.toCbor.depth ≤ Cbor.maxLevels) :
    ∃ b', decode r.toCbor.encode = .ok b' ∧ Alike b b' ∧ BlockRecord.ofBlock b' = .ok r.received :=
  decode_within valid portable written
    ((Cbor.fits_iff (BlockRecord.plain_toCbor r) moderate.sized).mpr shallow)

theorem decode_deep {r : BlockRecord} (moderate : r.Moderate)
    (deep : ¬r.toCbor.depth ≤ Cbor.maxLevels) : decode r.toCbor.encode = .error .malformed := by
  rw [decode, Cbor.decode?_encode_sized (BlockRecord.plain_toCbor r) moderate.sized, if_neg deep]
  rfl

/-- Whatever form a block was decoded from, it is checked, it is encoded and hashed,
and what it is encoded as decodes to a block that stands for it and is encoded
and hashed the same, if it does not nest too deep to be decoded at all. -/
theorem decoded_reencodes {t : Text} {b : CodeBlock} (short : t.length < UInt64.size)
    (decoded : decode t = .ok b) :
    b.validate = .ok () ∧ ∃ t' digest, encode b = .ok t' ∧ hash b = .ok digest ∧
      if nesting b ≤ Cbor.maxLevels then
        ∃ b', decode t' = .ok b' ∧ Alike b b' ∧ encode b' = .ok t' ∧ hash b' = .ok digest
      else decode t' = .error .malformed := by
  obtain ⟨valid, portable, r, written, moderate⟩ := decoded_written short decoded
  refine ⟨valid, _, _, encode_of_written written, (hashed_of_written written).2, ?_⟩
  simp only [nesting, written]
  split
  next shallow =>
    obtain ⟨b', again, alike, rewritten⟩ := decode_shallow valid portable written moderate shallow
    refine ⟨b', again, alike, ?_, ?_⟩
    · rw [encode_of_written rewritten, BlockRecord.toCbor_received, Cbor.encode_quieted]
    · rw [(hashed_of_written rewritten).2, ← BlockRecord.received_anonymous,
        BlockRecord.toCbor_received, Cbor.encode_quieted]
  next deep => exact decode_deep moderate deep

/-- A block with the name `ma`, no code words and one constant, as a map of no
definite length: numbers are longer than needed, a key is text, one is unknown
and one comes twice, the name is in two chunks, a number is tagged, and the
constant, which is not a number, has bytes that do not matter. -/
def sprawling : Text :=
  [0xbf, 0x18, 1, 1, 5, 0x9f, 0xff, 0x18, 99, 0xf6, 0x61, 0x37, 0xd9, 0xd9, 0xf7, 0, 1, 5,
    3, 0x7f, 0x61, 0x6d, 0x61, 0x61, 0xff, 6, 0x81, 0xa3, 1, 3, 3, 0xfa, 0x7f, 0xc0, 0, 1, 4, 0x41, 7,
    0xff]

theorem exists_ok_of_any {ε α : Type} {P : α → Bool} {result : Except ε α}
    (holds : result.toOption.any P = true) : ∃ b, result = .ok b ∧ P b = true := by
  cases result with
  | error e => cases holds
  | ok b => exact ⟨b, rfl, holds⟩

theorem sprawling_reencodes :
    sprawling.length < UInt64.size ∧ ∃ b t' b', decode sprawling = .ok b ∧ encode b = .ok t' ∧
      decode t' = .ok b' ∧ Alike b b' ∧ encode b' = .ok t' ∧ hash b' = hash b := by
  have short : sprawling.length < UInt64.size := by decide
  have checked : (decode sprawling).toOption.any (nesting · ≤ Cbor.maxLevels) = true := by
    decide +kernel
  obtain ⟨b, decoded, shallow⟩ := exists_ok_of_any checked
  obtain ⟨-, t', digest, encoded, hashes, stable⟩ := decoded_reencodes short decoded
  rw [if_pos (of_decide_eq_true shallow)] at stable
  obtain ⟨b', again, alike, encodes, hashes'⟩ := stable
  exact ⟨short, b, t', b', decoded, encoded, again, alike, encodes, hashes'.trans hashes.symm⟩

/-- Blocks inside one another; the innermost has one constant, given as null, for
which an encoded form has a map. -/
def tower : Nat → Text
  | 0 => [0xa2, 1, 1, 6, 0x81, 0xf6]
  | n + 1 => [0xa2, 1, 1, 9, 0x81] ++ tower n

/-- A tower that is decoded and encoded, but too deep to be decoded again. -/
theorem tower_not_reread :
    ∃ b t', decode (tower 15) = .ok b ∧ encode b = .ok t' ∧ decode t' = .error .malformed := by
  have short : (tower 15).length < UInt64.size := by decide
  have checked : (decode (tower 15)).toOption.any (Cbor.maxLevels < nesting ·) = true := by
    decide +kernel
  obtain ⟨b, decoded, deep⟩ := exists_ok_of_any checked
  obtain ⟨-, -, r, written, moderate⟩ := decoded_written short decoded
  simp only [nesting, written, decide_eq_true_eq] at deep
  exact ⟨b, _, decoded, encode_of_written written, decode_deep moderate (Nat.not_le_of_gt deep)⟩

end Wire
end ScriptEngine
