import ScriptEngine.Proofs.BuilderJournal
import ScriptEngine.Proofs.Reencoding

/-! Source positions of a built block. Its source map has an entry for each instruction
that was written behind a position, in the order of the code, so that halving finds the
last entry that is not beyond an offset. This entry is the last position of the journal
that an instruction follows which starts at the offset or before it. -/
namespace ScriptEngine

/-! ### Halving -/

namespace BlockData

variable {map : List SourceLoc} {offset : Int} {low high fuel i j : Nat}

/-- The first entry beyond an offset is neither before `low` nor behind `high`. -/
structure Bracket (map : List SourceLoc) (offset : Int) (low high : Nat) : Prop where
  order : low ≤ high
  inside : high ≤ map.length
  reached : ∀ i loc, i < low → map[i]? = some loc → loc.offset.toInt ≤ offset
  beyond : ∀ i loc, high ≤ i → map[i]? = some loc → offset < loc.offset.toInt

theorem offset_le_of_sorted (sorted : map.Pairwise fun a b => a.offset < b.offset)
    {first second : SourceLoc} (order : i ≤ j) (here : map[i]? = some first)
    (there : map[j]? = some second) : first.offset.toInt ≤ second.offset.toInt := by
  rcases Nat.lt_or_eq_of_le order with before | rfl
  · obtain ⟨inside, rfl⟩ := List.getElem?_eq_some_iff.mp here
    obtain ⟨inside', rfl⟩ := List.getElem?_eq_some_iff.mp there
    have less := List.pairwise_iff_getElem.mp sorted i j inside inside' before
    exact Int.le_of_lt (Int64.lt_iff_toInt_lt.mp less)
  · cases here.symm.trans there
    exact Int.le_refl _

/-- Each turn of the halving keeps the bracket, until it is closed. -/
theorem bracket_firstBeyond (sorted : map.Pairwise fun a b => a.offset < b.offset)
    (bracket : Bracket map offset low high) (enough : high - low < fuel) :
    Bracket map offset (firstBeyond map offset fuel low high)
      (firstBeyond map offset fuel low high) := by
  fun_induction firstBeyond map offset fuel low high with
  | case1 => omega
  | case2 fuel low high wide middle loc found large ih =>
    have half : middle = (low + high) / 2 := rfl
    have bound := bracket.inside
    refine ih ⟨by omega, by omega, bracket.reached, ?_⟩ (by omega)
    intro i other behind there
    exact Int.lt_of_lt_of_le large (offset_le_of_sorted sorted behind found there)
  | case3 fuel low high wide middle loc found small ih =>
    have half : middle = (low + high) / 2 := rfl
    refine ih ⟨by omega, bracket.inside, ?_, bracket.beyond⟩ (by omega)
    intro i other before there
    exact Int.le_trans (offset_le_of_sorted sorted (Nat.le_of_lt_succ before) there found)
      (Int.not_lt.mp small)
  | case4 fuel low high wide middle outside =>
    have half : middle = (low + high) / 2 := rfl
    have bound := bracket.inside
    have missing := List.getElem?_eq_none_iff.mp outside
    omega
  | case5 fuel low high closed =>
    have same : high = low := Nat.le_antisymm (Nat.not_lt.mp closed) bracket.order
    exact same ▸ bracket

theorem Bracket.filter_eq_take (bracket : Bracket map offset i i) :
    map.filter (·.offset.toInt ≤ offset) = map.take i := by
  have front : (map.take i).filter (·.offset.toInt ≤ offset) = map.take i := by
    apply List.filter_eq_self.mpr
    intro loc member
    apply decide_eq_true
    obtain ⟨k, there⟩ := List.mem_iff_getElem?.mp member
    rw [List.getElem?_take] at there
    split at there
    next before => exact bracket.reached k loc before there
    · cases there
  have back : (map.drop i).filter (·.offset.toInt ≤ offset) = [] := by
    apply List.filter_eq_nil_iff.mpr
    intro loc member small
    obtain ⟨k, there⟩ := List.mem_iff_getElem?.mp member
    rw [List.getElem?_drop] at there
    have large := bracket.beyond (i + k) loc (Nat.le_add_right i k) there
    exact Int.not_lt.mpr (of_decide_eq_true small) large
  calc map.filter (·.offset.toInt ≤ offset)
      = (map.take i ++ map.drop i).filter (·.offset.toInt ≤ offset) := by rw [List.take_append_drop]
    _ = map.take i := by rw [List.filter_append, front, back, List.append_nil]

/-- The position of the last entry of a map that is not beyond an offset. -/
def lastReached (map : List SourceLoc) (offset : Int) : Option (Int64 × Int64) :=
  (map.filter (·.offset.toInt ≤ offset)).getLast?.map fun loc => (loc.line, loc.column)

theorem lastReached_cons {loc : SourceLoc} :
    lastReached (loc :: map) offset = (lastReached map offset).or
      (if loc.offset.toInt ≤ offset then some (loc.line, loc.column) else none) := by
  unfold lastReached
  by_cases reached : loc.offset.toInt ≤ offset
  · rw [List.filter_cons, if_pos (decide_eq_true reached), if_pos reached, List.getLast?_cons]
    cases (map.filter (·.offset.toInt ≤ offset)).getLast? <;> rfl
  · rw [List.filter_cons, if_neg (by simpa using reached), if_neg reached, Option.or_none]

/-- In a sorted map, the position of an offset is the last one that is not beyond it. -/
theorem position_eq_last (b : BlockData)
    (sorted : b.sourceMap.Pairwise fun a b => a.offset < b.offset) (offset : Int) :
    b.position offset = (lastReached b.sourceMap offset).getD (0, 0) := by
  have whole : Bracket b.sourceMap offset 0 b.sourceMap.length := by
    refine ⟨Nat.zero_le _, Nat.le_refl _, ?_, ?_⟩
    · intro i loc before
      exact absurd before (Nat.not_lt_zero i)
    · intro i loc behind there
      rw [List.getElem?_eq_none behind] at there
      cases there
  have enough : b.sourceMap.length - 0 < b.sourceMap.length + 1 := by omega
  have closed := bracket_firstBeyond sorted whole enough
  rw [lastReached, closed.filter_eq_take, List.getLast?_take]
  unfold position
  dsimp only
  split
  next none => rw [none]; rfl
  next i found =>
    have inside : i < b.sourceMap.length := by
      have bound := closed.inside
      omega
    rw [found, if_neg (Nat.succ_ne_zero i), Nat.succ_sub_one,
      List.getElem?_eq_getElem inside]
    rfl

end BlockData

/-! ### Journals -/

namespace Builder

/-- An instruction of a journal starts at an offset or before it. -/
def StartsBy (offset : Int) (entries : List Entry) : Prop :=
  ∃ start : Nat, .instruction start ∈ entries ∧ (start : Int) ≤ offset

/-- A position is the last one of a journal that an instruction follows which starts at an
offset or before it. -/
def Governs (entries : List Entry) (offset : Int) (line column : Int64) : Prop :=
  ∃ before behind, entries = before ++ .position line column :: behind ∧ StartsBy offset behind ∧
    ∀ between line' column' rest, behind = between ++ .position line' column' :: rest →
      ¬StartsBy offset rest

/-- No position of a journal has such an instruction behind it. -/
def Ungoverned (entries : List Entry) (offset : Int) : Prop :=
  ∀ before line column behind, entries = before ++ .position line column :: behind →
    ¬StartsBy offset behind

namespace Entry

/-- Where the instructions of a journal start. -/
def starts : List Entry → List Nat := List.filterMap fun
  | .instruction offset => some offset
  | _ => none

/-- The source map that a journal makes, when a position may be pending before it. -/
def located : Option (Int64 × Int64) → List Entry → List SourceLoc
  | _, [] => []
  | _, .position line column :: rest => located (some (line, column)) rest
  | pending, .instruction offset :: rest =>
    (pending.map fun (line, column) => ⟨Int64.ofNat offset, line, column⟩).toList ++ located none rest
  | pending, .constant _ _ :: rest => located pending rest

/-- The position that is pending after a journal. -/
def awaiting : Option (Int64 × Int64) → List Entry → Option (Int64 × Int64)
  | pending, [] => pending
  | _, .position line column :: rest => awaiting (some (line, column)) rest
  | _, .instruction _ :: rest => awaiting none rest
  | pending, .constant _ _ :: rest => awaiting pending rest

end Entry

open BlockData Entry

variable {b : Builder} {s : RawStep} {steps : List RawStep} {pending : Option (Int64 × Int64)}
  {entries more : List Entry} {offset : Int} {line column : Int64}

theorem mem_starts {start : Nat} : start ∈ starts entries ↔ .instruction start ∈ entries := by
  simp only [starts, List.mem_filterMap]
  constructor
  · rintro ⟨entry, member, same⟩
    cases entry <;> cases same
    exact member
  · intro member
    exact ⟨_, member, rfl⟩

theorem located_append :
    located pending (entries ++ more) = located pending entries ++
      located (awaiting pending entries) more := by
  induction entries generalizing pending with
  | nil => rfl
  | cons entry rest ih =>
    cases entry with
    | position | constant => exact ih
    | instruction start =>
      rw [List.cons_append, located, located, ih, List.append_assoc]
      rfl

/-! ### The map of a builder -/

theorem position?_of_writes (written : s.writes b = true) : s.position? = none := by
  cases s with
  | emit | emitCall | emitJumpIf => rfl
  | step s =>
    cases s with
    | atPosition => cases written
    | _ => rfl

/-- An instruction takes the position that is pending. -/
theorem sourceMap_takePosition :
    b.takePosition.block.sourceMap =
      b.block.sourceMap ++ located b.pending [.instruction b.length] := by
  unfold takePosition
  split
  next none => simp [none, located]
  next some => simp [some, located]

/-- A step adds to the source map what it adds to the journal. -/
theorem sourceMap_run (s : RawStep) (b : Builder) :
    (s.run b).1.block.sourceMap = b.block.sourceMap ++ located b.pending (s.entries b) ∧
      (s.run b).1.pending = awaiting b.pending (s.entries b) := by
  cases written : s.writes b with
  | false =>
    obtain ⟨-, sourceMap, pending, -⟩ := RawStep.run_silent written
    rw [sourceMap, pending, RawStep.entries, written]
    cases s.position? <;> cases s.constant? <;> simp [located, awaiting]
  | true =>
    obtain ⟨opcode, words, labels, same⟩ := RawStep.run_writes written
    obtain ⟨length, sourceMap, pending⟩ := RawStep.pooled_rest b s
    have kept : Keeps ((s.pooled b).emit opcode words).1
        (((s.pooled b).emit opcode words).1.appendTargets b.length labels) := keeps_appendTargets
    have map : (s.run b).1.block.sourceMap = (s.pooled b).takePosition.block.sourceMap := by
      rw [same]
      exact kept.sourceMap
    have taken : (s.run b).1.pending = none := by
      rw [same]
      exact kept.pending.trans pending_takePosition
    rw [map, taken, sourceMap_takePosition, length, sourceMap, pending, RawStep.entries,
      position?_of_writes written, written, (RawStep.length_run_writes written).1]
    cases s.constant? <;> simp [located, awaiting]

theorem sourceMap_after (b : Builder) (steps : List RawStep) :
    (b.after steps).block.sourceMap = b.block.sourceMap ++ located b.pending (b.journal steps) := by
  induction steps generalizing b with
  | nil => exact (List.append_nil _).symm
  | cons s rest ih =>
    obtain ⟨sourceMap, pending⟩ := sourceMap_run s b
    rw [after_cons, ih, sourceMap, pending, journal, located_append, List.append_assoc]

/-- Instructions start one behind the other, from the end of the code that there was. -/
theorem starts_journal (b : Builder) (steps : List RawStep) :
    b.length ≤ (b.after steps).length ∧ (starts (b.journal steps)).Pairwise (· < ·) ∧
      ∀ start ∈ starts (b.journal steps), b.length ≤ start ∧ start < (b.after steps).length := by
  induction steps generalizing b with
  | nil => exact ⟨Nat.le_refl _, .nil, by simp [journal, starts]⟩
  | cons s rest ih =>
    obtain ⟨longer, increasing, within⟩ := ih (s.run b).1
    rw [after_cons, journal, starts, List.filterMap_append]
    cases written : s.writes b with
    | false =>
      have none : starts (s.entries b) = [] := by
        rw [RawStep.entries, written]
        cases s.position? <;> cases s.constant? <;> rfl
      have length := (RawStep.run_silent written).1
      rw [length] at longer within
      rw [← starts, none, List.nil_append]
      exact ⟨longer, increasing, within⟩
    | true =>
      obtain ⟨answer, more⟩ := RawStep.length_run_writes written
      have one : starts (s.entries b) = [b.length] := by
        rw [RawStep.entries, written, answer, position?_of_writes written]
        cases s.constant? <;> rfl
      rw [← starts, one, List.singleton_append, List.pairwise_cons, List.forall_mem_cons]
      refine ⟨by omega, ⟨?_, increasing⟩, ⟨Nat.le_refl _, by omega⟩, ?_⟩
      all_goals
        intro start member
        have bound := within start member
        omega

/-- Entries of the map are at instructions of the journal, in their order. -/
theorem offsets_located :
    ((located pending entries).map (·.offset)).Sublist ((starts entries).map Int64.ofNat) := by
  induction entries generalizing pending with
  | nil => exact .slnil
  | cons entry rest ih =>
    cases entry with
    | position | constant => exact ih
    | instruction start =>
      cases pending with
      | none => exact ih.cons _
      | some => exact ih.cons_cons _

theorem sorted_located (increasing : (starts entries).Pairwise (· < ·))
    (small : ∀ start ∈ starts entries, start < 2 ^ 63) :
    (located pending entries).Pairwise fun a b => a.offset < b.offset := by
  apply List.pairwise_map.mp
  apply List.Pairwise.sublist offsets_located
  apply List.pairwise_map.mpr
  refine increasing.imp_of_mem ?_
  intro start other first second less
  rw [Int64.lt_iff_toInt_lt, Int64.toInt_ofNat_of_lt (small start first),
    Int64.toInt_ofNat_of_lt (small other second)]
  exact Int.ofNat_lt.mpr less

theorem offset_located (small : ∀ start ∈ starts entries, start < 2 ^ 63) {loc : SourceLoc}
    (member : loc ∈ located pending entries) :
    ∃ start : Nat, .instruction start ∈ entries ∧ loc.offset.toInt = start := by
  have offset := offsets_located.subset (List.mem_map_of_mem member)
  obtain ⟨start, there, same⟩ := List.mem_map.mp offset
  exact ⟨start, mem_starts.mp there, same ▸ Int64.toInt_ofNat_of_lt (small start there)⟩

/-! ### The position of an offset -/

instance : Decidable (StartsBy offset entries) :=
  decidable_of_iff (∃ start ∈ starts entries, (start : Int) ≤ offset) <| by
    simp only [StartsBy, mem_starts]

/-- The last position that an instruction follows which starts at an offset or before it. -/
def governing (offset : Int) : List Entry → Option (Int64 × Int64)
  | [] => none
  | .position line column :: rest =>
    (governing offset rest).or (if StartsBy offset rest then some (line, column) else none)
  | _ :: rest => governing offset rest

theorem startsBy_cons {entry : Entry} :
    StartsBy offset (entry :: entries) ↔
      (∃ start : Nat, entry = .instruction start ∧ (start : Int) ≤ offset) ∨ StartsBy offset entries := by
  simp only [StartsBy, List.mem_cons, or_and_right, exists_or, eq_comm]

theorem governing_eq_none (none : governing offset entries = none) : Ungoverned entries offset := by
  induction entries with
  | nil =>
    intro before line column behind same
    simp at same
  | cons entry rest ih =>
    intro before line column behind same
    cases before with
    | nil =>
      cases same
      rw [governing, Option.or_eq_none_iff] at none
      intro startsBy
      rw [if_pos startsBy] at none
      cases none.2
    | cons first before =>
      cases same
      refine ih ?_ before line column behind rfl
      cases entry with
      | position => exact (Option.or_eq_none_iff.mp none).1
      | instruction | constant => exact none

theorem governing_eq_some (found : governing offset entries = some (line, column)) :
    Governs entries offset line column := by
  have further {entry : Entry} {rest : List Entry} (governs : Governs rest offset line column) :
      Governs (entry :: rest) offset line column := by
    obtain ⟨before, behind, same, startsBy, last⟩ := governs
    exact ⟨entry :: before, behind, congrArg (List.cons entry) same, startsBy, last⟩
  induction entries with
  | nil => cases found
  | cons entry rest ih =>
    cases entry with
    | instruction | constant => exact further (ih found)
    | position line' column' =>
      rw [governing] at found
      cases later : governing offset rest with
      | some position =>
        rw [later, Option.some_or] at found
        exact further (ih (later.trans found))
      | none =>
        rw [later, Option.none_or] at found
        split at found
        next startsBy =>
          cases found
          exact ⟨[], rest, rfl, startsBy, governing_eq_none later⟩
        · cases found

/-- Of two positions with no instruction between them, the later one counts. -/
theorem governing_superseded {line' column' : Int64} :
    governing offset (.position line' column' :: .position line column :: entries) =
      governing offset (.position line column :: entries) := by
  have same : StartsBy offset (.position line column :: entries) ↔ StartsBy offset entries := by
    simp [startsBy_cons]
  rw [governing]
  by_cases startsBy : StartsBy offset entries
  · rw [governing, if_pos startsBy]
    cases governing offset entries <;> rfl
  · rw [if_neg (same.not.mpr startsBy), Option.or_none]

/-- The map that a journal makes gives the position that governs an offset, if its
instructions start one behind the other. A pending position is as good as one that was
set first. -/
theorem lastReached_located (increasing : (starts entries).Pairwise (· < ·))
    (small : ∀ start ∈ starts entries, start < 2 ^ 63) :
    lastReached (located pending entries) offset =
      governing offset ((pending.map fun (line, column) => .position line column).toList ++ entries) := by
  induction entries generalizing pending with
  | nil => cases pending <;> simp [located, lastReached, governing, StartsBy]
  | cons entry rest ih =>
    cases entry with
    | position line column =>
      rw [located, ih increasing small]
      cases pending with
      | none => rfl
      | some position => exact governing_superseded.symm
    | constant v index =>
      rw [located, ih increasing small]
      cases pending with
      | none => rfl
      | some position => simp [governing, startsBy_cons]
    | instruction start =>
      obtain ⟨first, increasing⟩ := List.pairwise_cons.mp increasing
      obtain ⟨fits, small⟩ := List.forall_mem_cons.mp small
      have later : lastReached (located none rest) offset = governing offset rest :=
        ih increasing small
      cases pending with
      | none => exact later
      | some position =>
        have here : (Int64.ofNat start).toInt = start := Int64.toInt_ofNat_of_lt fits
        have map : located (some position) (.instruction start :: rest) =
            ⟨Int64.ofNat start, position.1, position.2⟩ :: located none rest := rfl
        rw [map, lastReached_cons, later, here]
        by_cases reached : (start : Int) ≤ offset
        · simp [governing, startsBy_cons, reached]
        · have late : ¬StartsBy offset rest := by
            rintro ⟨other, member, below⟩
            have behind := first other (mem_starts.mpr member)
            omega
          simp [governing, startsBy_cons, reached, late]

end Builder

/-! ### Encoded blocks -/

/-- The block that is nested in another, place by place. -/
def CodeBlock.inner? : CodeBlock → List Nat → Option CodeBlock
  | b, [] => some b
  | b, place :: rest => b.blocks[place]?.join.bind (·.inner? rest)

namespace Wire

theorem Alike.nested {blocks blocks' : List (Option CodeBlock)} (place : Nat)
    (alike : List.Forall₂ (Option.Rel Alike) blocks blocks') :
    Option.Rel Alike blocks[place]?.join blocks'[place]?.join := by
  induction alike generalizing place with
  | nil => exact .none
  | cons first _ ih =>
    cases place with
    | zero => exact first
    | succ place => exact ih place

/-- Blocks that stand for each other have the same positions at every depth. -/
theorem Alike.position {b b' : CodeBlock} (alike : Alike b b') (places : List Nat) (offset : Int) :
    (b'.inner? places).map (·.position offset) = (b.inner? places).map (·.position offset) := by
  induction places generalizing b b' with
  | nil =>
    cases alike with
    | block id name source code registers nestLevel sizes sourceMap consts nested =>
      simp only [CodeBlock.inner?, Option.map_some, BlockData.position, sourceMap]
  | cons place rest ih =>
    cases alike with
    | @block d e blocks blocks' id name source code registers nestLevel sizes sourceMap consts nested =>
      have related := Alike.nested place nested
      simp only [CodeBlock.inner?]
      generalize blocks[place]?.join = sub, blocks'[place]?.join = sub' at related
      cases related with
      | none => rfl
      | some alike => exact ih alike

end Wire

/-! ### Built blocks -/

namespace Builder

theorem block_of_build {b : Builder} {block : CodeBlock} (built : b.build = .ok block) :
    block = b.block := by
  unfold build at built
  split at built
  · cases built
  · split at built
    · exact (Except.ok.inj built).symm
    · cases built

/-- The source map of a block follows a journal. -/
structure Follows (block : BlockData) (entries : List Entry) : Prop where
  sorted : block.sourceMap.Pairwise fun a b => a.offset < b.offset
  placed : ∀ loc ∈ block.sourceMap, ∃ start : Nat,
    .instruction start ∈ entries ∧ loc.offset.toInt = start
  position : ∀ offset,
    (∃ line column, Governs entries offset line column ∧ block.position offset = (line, column)) ∨
      Ungoverned entries offset ∧ block.position offset = (0, 0)

theorem follows_journal (name : Text) (steps : List RawStep)
    (short : ((Builder.start name).after steps).length < 2 ^ 63) :
    Follows ((Builder.start name).after steps).block.toBlockData
      ((Builder.start name).journal steps) := by
  have map : ((Builder.start name).after steps).block.sourceMap =
      Entry.located none ((Builder.start name).journal steps) := sourceMap_after _ steps
  obtain ⟨-, increasing, within⟩ := starts_journal (Builder.start name) steps
  have small : ∀ start ∈ Entry.starts ((Builder.start name).journal steps), start < 2 ^ 63 :=
    fun start member => Nat.lt_trans (within start member).2 short
  have sorted : ((Builder.start name).after steps).block.sourceMap.Pairwise
      fun a b => a.offset < b.offset := map ▸ sorted_located increasing small
  have position (offset : Int) : ((Builder.start name).after steps).block.position offset =
      (governing offset ((Builder.start name).journal steps)).getD (0, 0) := by
    rw [BlockData.position_eq_last _ sorted, map, lastReached_located increasing small]
    rfl
  refine ⟨sorted, ?_, ?_⟩
  · intro loc member
    exact offset_located small (map ▸ member)
  · intro offset
    rw [position]
    cases found : governing offset ((Builder.start name).journal steps) with
    | none => exact .inr ⟨governing_eq_none found, rfl⟩
    | some position => exact .inl ⟨_, _, governing_eq_some found, rfl⟩

/-- Whatever steps a block was built by, as long as its offsets have room in 64 bits: the
entries of its source map are at instructions that were written, one behind the other, and
the position of any offset is the last one that was set before an instruction at the offset
or before it was written, or zeros if there is none. A block that has an encoded form which
can be read keeps its positions in it, and so do the blocks nested in it. -/
theorem positions_follow_steps (name : Text) (steps : List RawStep) {block : CodeBlock}
    (short : ((Builder.start name).after steps).length < 2 ^ 63)
    (built : ((Builder.start name).after steps).build = .ok block) :
    Follows block.toBlockData ((Builder.start name).journal steps) ∧
      ∀ b : CodeBlock, b.validate = .ok () → Wire.Portable b → Wire.withinLimits b = true →
        ∃ t b', Wire.encode b = .ok t ∧ Wire.decode t = .ok b' ∧
          ∀ places offset, (b'.inner? places).map (·.position offset) =
            (b.inner? places).map (·.position offset) := by
  constructor
  · rw [block_of_build built]
    exact follows_journal name steps short
  · intro b valid portable within
    obtain ⟨r, _, carried⟩ := Wire.carried portable valid
    rw [Wire.withinLimits, carried.written] at within
    obtain ⟨b', decoded, alike, -⟩ := Wire.decode_within valid portable carried.written within
    exact ⟨_, b', Wire.encode_of_written carried.written, decoded, alike.position⟩

/-- Two positions before one instruction, an instruction without a position, one whose
missing operand is the unknown opcode of the next, and a position behind the last one. -/
def scattered : List RawStep :=
  [.step (.registers 1), .step (.emit .nop []), .step (.atPosition 1 1), .step (.emit .nop []),
    .step (.emit .nop []), .step (.atPosition 2 5), .step (.const (.int 7)),
    .step (.atPosition 4 2), .emit Opcode.param.code.toUInt32 [0], .step (.atPosition 7 7),
    .emit 4000000000 [], .step (.emit .return [⟨.register, 0, []⟩]), .step (.atPosition 9 9)]

theorem scattered_positions :
    ∃ block : CodeBlock, ((Builder.start []).after scattered).build = .ok block ∧
      Follows block.toBlockData ((Builder.start []).journal scattered) ∧
      [-1, 0, 1, 2, 3, 4, 5, 6, 100].map block.position =
        [(0, 0), (0, 0), (1, 1), (1, 1), (4, 2), (4, 2), (7, 7), (7, 7), (7, 7)] ∧
      ∃ t b', Wire.encode block = .ok t ∧ Wire.decode t = .ok b' ∧
        ∀ places offset, (b'.inner? places).map (·.position offset) =
          (block.inner? places).map (·.position offset) := by
  have short : ((Builder.start []).after scattered).length < 2 ^ 63 := by decide +kernel
  have valid : ((Builder.start []).after scattered).block.validate = .ok () := by rfl
  have built : ((Builder.start []).after scattered).build =
      .ok ((Builder.start []).after scattered).block := by
    have placed : ((Builder.start []).after scattered).labels.any isAwaited = false := by
      decide +kernel
    rw [build, placed, valid]
    rfl
  have within : Wire.withinLimits ((Builder.start []).after scattered).block = true := by
    decide +kernel
  have portable : Wire.Portable ((Builder.start []).after scattered).block :=
    .block (by decide +kernel) (by decide +kernel) (by decide +kernel) (by rintro sub ⟨⟩)
  obtain ⟨follows, kept⟩ := positions_follow_steps [] scattered short built
  exact ⟨_, built, follows, by decide +kernel, kept _ valid portable within⟩

end Builder
end ScriptEngine
