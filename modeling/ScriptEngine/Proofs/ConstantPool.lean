import ScriptEngine.Proofs.BuilderJournal

/-! The pool of constants of a block under construction. A value that is no object is
entered once, so that identical values share an index and different ones never do; an index
that was answered leads to its value through all steps that follow, and so does the word
for it in the code of a member call. -/
namespace ScriptEngine
namespace Builder

variable {b : Builder} {s : RawStep} {steps : List RawStep} {pool : List Value} {v w : Value}
  {entries : List Entry} {marked : Nat → Option Nat} {cells : List Cell} {i j : Nat}

/-! ### The pool -/

/-- No two constants that are no objects are identical. -/
def Distinct (pool : List Value) : Prop :=
  ∀ (i j : Nat) (u v : Value), pool[i]? = some u → pool[j]? = some v → u.kind ≠ .object →
    v.kind ≠ .object → u.identical v = true → i = j

/-- A value that a pool has no entry for: an object, or one that no value which is no object
is identical to. -/
def Fresh (pool : List Value) (v : Value) : Prop :=
  v.kind = .object ∨ ∀ c ∈ pool, c.kind ≠ .object → c.identical v = false

instance : Decidable (Fresh pool v) := inferInstanceAs (Decidable (_ ∨ _))

theorem identical_iff : v.identical w = true ↔ v = w := decide_eq_true_iff

/-- A constant that is asked for is entered behind the others or found among them. -/
theorem const_cases (b : Builder) (v : Value) :
    Fresh b.block.consts v ∧
        b.const v = ({ b with block.consts := b.block.consts ++ [v] }, b.block.consts.length) ∨
      ¬Fresh b.block.consts v ∧ ∃ i, b.const v = (b, i) ∧ b.block.consts[i]? = some v := by
  by_cases object : v.kind = .object
  · exact .inl ⟨.inl object, by simp [Builder.const, object]⟩
  · cases found : b.block.consts.findIdx? (·.identical v) with
    | none =>
      refine .inl ⟨.inr ?_, by simp [Builder.const, object, found]⟩
      intro c member _
      exact List.findIdx?_eq_none_iff.mp found c member
    | some i =>
      obtain ⟨inside, identical, -⟩ := List.findIdx?_eq_some_iff_getElem.mp found
      have there : b.block.consts[i]? = some v := by
        rw [List.getElem?_eq_getElem inside, identical_iff.mp identical]
      refine .inr ⟨?_, i, by simp [Builder.const, object, found], there⟩
      rintro (object' | absent)
      · exact object object'
      · have other := absent v (List.mem_of_getElem? there) object
        rw [identical_iff.mpr rfl] at other
        cases other

theorem Distinct.concat (distinct : Distinct pool) (fresh : Fresh pool v) :
    Distinct (pool ++ [v]) := by
  -- a new value that is no object has nothing identical in the pool
  have apart {k : Nat} {u : Value} (there : pool[k]? = some u) (plain : u.kind ≠ .object)
      (plain' : v.kind ≠ .object) : u.identical v = false :=
    (fresh.resolve_left plain') u (List.mem_of_getElem? there) plain
  intro i j u w here there plain plain' identical
  rw [List.getElem?_append] at here there
  split at here <;> split at there
  · exact distinct i j u w here there plain plain' identical
  next =>
    obtain rfl := List.mem_singleton.mp (List.mem_of_getElem? there)
    rw [apart here plain plain'] at identical
    cases identical
  next =>
    obtain rfl := List.mem_singleton.mp (List.mem_of_getElem? here)
    obtain rfl := identical_iff.mp identical
    have other := apart there plain' plain
    rw [identical] at other
    cases other
  next before before' =>
    have first := (List.getElem?_eq_some_iff.mp here).1
    have second := (List.getElem?_eq_some_iff.mp there).1
    rw [List.length_singleton] at first second
    omega

/-- A pool is distinct, and the indices of a journal lead to the values that were asked for. -/
structure Pooled (pool : List Value) (entries : List Entry) : Prop where
  distinct : Distinct pool
  leads : ∀ v i, .constant v i ∈ entries → pool[i]? = some v

theorem Pooled.const (pooled : Pooled b.block.consts entries) (v : Value) :
    Pooled (b.const v).1.block.consts (entries ++ [.constant v (b.const v).2]) := by
  constructor
  · rcases b.const_cases v with ⟨fresh, same⟩ | ⟨-, i, same, -⟩
    · rw [same]
      exact pooled.distinct.concat fresh
    · rw [same]
      exact pooled.distinct
  · intro u i member
    obtain ⟨more, extended⟩ := b.const_extends v
    rcases List.mem_append.mp member with old | new
    · have there := pooled.leads u i old
      rw [extended, List.getElem?_append_left (List.getElem?_eq_some_iff.mp there).1, there]
    · cases List.mem_singleton.mp new
      exact b.getElem?_const v

/-- The constants of a journal are those that a step asks for. -/
theorem mem_entries {index : Nat} :
    .constant v index ∈ s.entries b ↔ s.constant? = some v ∧ (b.const v).2 = index := by
  simp [RawStep.entries]

theorem asked_mem_journal {earlier later : List RawStep} (asked : s.constant? = some v) :
    .constant v ((b.after earlier).const v).2 ∈ b.journal (earlier ++ s :: later) := by
  rw [journal_append, journal]
  exact List.mem_append_right _ (List.mem_append_left _ (mem_entries.mpr ⟨asked, rfl⟩))

theorem Pooled.run (pooled : Pooled b.block.consts entries) (s : RawStep) :
    Pooled (s.run b).1.block.consts (entries ++ s.entries b) := by
  rw [RawStep.consts_run, RawStep.pooled]
  cases asked : s.constant? with
  | none =>
    refine ⟨pooled.distinct, ?_⟩
    intro v i member
    rcases List.mem_append.mp member with old | new
    · exact pooled.leads v i old
    · rw [mem_entries, asked] at new
      cases new.1
  | some v =>
    obtain ⟨distinct, leads⟩ := pooled.const v
    refine ⟨distinct, ?_⟩
    intro u i member
    apply leads
    rcases List.mem_append.mp member with old | new
    · exact List.mem_append_left _ old
    · obtain ⟨same, rfl⟩ := mem_entries.mp new
      cases asked.symm.trans same
      exact List.mem_append_right _ List.mem_cons_self

theorem Pooled.after (pooled : Pooled b.block.consts entries) (steps : List RawStep) :
    Pooled (b.after steps).block.consts (entries ++ b.journal steps) := by
  induction steps generalizing b entries with
  | nil =>
    rw [journal, List.append_nil]
    exact pooled
  | cons s rest ih =>
    rw [journal, ← List.append_assoc]
    exact ih (pooled.run s)

theorem pooled_journal (name : Text) (steps : List RawStep) :
    Pooled ((Builder.start name).after steps).block.consts ((Builder.start name).journal steps) := by
  have empty : Pooled (Builder.start name).block.consts [] := by
    constructor
    · intro i j u v here
      simp [Builder.start] at here
    · simp
  exact empty.after steps

/-- Values that are no objects have the same index exactly when they are identical. -/
theorem Pooled.shares (pooled : Pooled pool entries) (first : .constant v i ∈ entries)
    (second : .constant w j ∈ entries) (plain : v.kind ≠ .object) (plain' : w.kind ≠ .object) :
    i = j ↔ v.identical w = true := by
  have here := pooled.leads v i first
  have there := pooled.leads w j second
  constructor
  · rintro rfl
    exact identical_iff.mpr (Option.some.inj (here.symm.trans there))
  · exact pooled.distinct i j v w here there plain plain'

theorem consts_run_eq (s : RawStep) (b : Builder) :
    (s.run b).1.block.consts =
      match s.constant? with
      | some v => if Fresh b.block.consts v then b.block.consts ++ [v] else b.block.consts
      | none => b.block.consts := by
  rw [RawStep.consts_run, RawStep.pooled]
  cases s.constant? with
  | none => rfl
  | some v =>
    rcases b.const_cases v with ⟨fresh, same⟩ | ⟨stale, i, same, -⟩
    · simp only [Option.elim_some, same, if_pos fresh]
    · simp only [Option.elim_some, same, if_neg stale]

/-! ### The code -/

theorem Holds.extend_target (holds : Holds b marked cells) (offset label : Nat) :
    ∃ cell, Holds (b.appendTarget offset label) marked (cells ++ [cell]) := by
  by_cases there : label < b.labels.size
  · exact ⟨_, holds.appendTarget offset there⟩
  · have none : b.labels[label]? = none := Array.getElem?_eq_none (Nat.not_lt.mp there)
    refine ⟨.fixed 0, ?_⟩
    simp only [Builder.appendTarget, none]
    exact holds.append [0]

theorem Holds.extend_targets (holds : Holds b marked cells) (offset : Nat) (labels : List Nat) :
    ∃ more, Holds (b.appendTargets offset labels) marked (cells ++ more) := by
  induction labels generalizing b cells with
  | nil => exact ⟨[], by simpa [Builder.appendTargets] using holds⟩
  | cons label rest ih =>
    obtain ⟨cell, here⟩ := holds.extend_target offset label
    obtain ⟨more, later⟩ := ih here
    exact ⟨cell :: more, by simpa [Builder.appendTargets] using later⟩

/-- A step keeps the cells that there are. -/
theorem Holds.run (holds : Holds b marked cells) (s : RawStep) :
    ∃ marked' more, Holds (s.run b).1 marked' (cells ++ more) := by
  have same {b' : Builder} {marked' : Nat → Option Nat} (held : Holds b' marked' cells) :
      ∃ marked' more, Holds b' marked' (cells ++ more) := ⟨marked', [], by simpa using held⟩
  cases written : s.writes b with
  | true =>
    obtain ⟨opcode, words, labels, equal⟩ := RawStep.run_writes written
    have named : Holds (s.pooled b) marked cells := by
      unfold RawStep.pooled
      cases s.constant? with
      | none => exact holds
      | some v => exact holds.const v
    obtain ⟨more, later⟩ := (named.emit opcode words).extend_targets b.length labels
    rw [equal]
    exact ⟨marked, _, by rwa [List.append_assoc] at later⟩
  | false =>
    cases s with
    | emit | emitCall | emitJumpIf => cases written
    | step s =>
      have silent : s.writes? b = none := by simpa [RawStep.writes] using written
      cases s with
      | mark label =>
        cases marks : b.mark? label with
        | none => exact same (by simpa [RawStep.run, Step.run, marks] using holds)
        | some b' => exact same (by simpa [RawStep.run, Step.run, marks] using holds.mark marks)
      | _ => exact same (Step.silent holds silent (by simp))

theorem Holds.after (holds : Holds b marked cells) (steps : List RawStep) :
    ∃ marked' more, Holds (b.after steps) marked' (cells ++ more) := by
  induction steps generalizing b marked cells with
  | nil => exact ⟨marked, [], by simpa [Builder.after] using holds⟩
  | cons s rest ih =>
    obtain ⟨marked', more, here⟩ := holds.run s
    obtain ⟨marked'', more', later⟩ := ih here
    exact ⟨marked'', more ++ more', by rwa [List.append_assoc] at later⟩

theorem Holds.code_fixed (holds : Holds b marked cells) {word : UInt32}
    (cell : cells[i]? = some (.fixed word)) : b.block.code[i]? = some word := by
  rw [← Array.getElem?_toList, holds.code, List.getElem?_map, cell]
  rfl

/-- The fourth word of a member call is the index of its name, and stays so. -/
theorem code_member_call (name : Text) (earlier later : List RawStep) (dst object : UInt32)
    (text : Text) (flags : Flags) (args : List UInt32) :
    ((Builder.start name).after
        (earlier ++ .step (.emitCallMember dst object text flags args) :: later)).block.code[
          ((Builder.start name).after earlier).length + 3]? =
      some (((Builder.start name).after earlier).const (.string text)).2.toUInt32 := by
  obtain ⟨marked, cells, holds⟩ := (Holds.start name).after earlier
  rw [List.nil_append] at holds
  rw [after_append, after_cons]
  generalize (Builder.start name).after earlier = b at holds
  have called := (holds.const (.string text)).emit Opcode.callMember.code.toUInt32
    ([dst, object, (b.const (.string text)).2.toUInt32, flags.pack] ++ counted args)
  obtain ⟨marked', more, last⟩ := called.after later
  refine last.code_fixed ?_
  rw [holds.length_eq, List.append_assoc, List.getElem?_append_right (Nat.le_add_right _ _)]
  simp

/-- Whatever steps are taken: no two constants that are no objects are identical; an index
that was answered, to the caller or to a member call, leads to a constant identical to the
one that was asked for, and a word has room for it while there are at most 2^32 constants;
values that are no objects share an index exactly when they are identical. The next step
adds the constant that it asks for if this is an object or nothing identical is there, and
changes nothing else of the pool. The word for its name in the code of a member call is the
index that was answered. -/
theorem constants_shared (name : Text) (steps : List RawStep) :
    let b := (Builder.start name).after steps
    let pool := b.block.consts
    let entries := (Builder.start name).journal steps
    Distinct pool ∧
      (∀ v i, .constant v i ∈ entries →
        (∃ c, pool[i]? = some c ∧ c.identical v = true) ∧
          (pool.length ≤ 2 ^ 32 → i.toUInt32.toNat = i)) ∧
      (∀ v i w j, .constant v i ∈ entries → .constant w j ∈ entries → v.kind ≠ .object →
        w.kind ≠ .object → (i = j ↔ v.identical w = true)) ∧
      (∀ s : RawStep, (s.run b).1.block.consts =
        match s.constant? with
        | some v => if Fresh pool v then pool ++ [v] else pool
        | none => pool) ∧
      ∀ earlier dst object text flags args later,
        steps = earlier ++ .step (.emitCallMember dst object text flags args) :: later →
          ∃ index, .constant (.string text) index ∈ entries ∧
            b.block.code[((Builder.start name).after earlier).length + 3]? =
              some index.toUInt32 := by
  intro b pool entries
  have pooled : Pooled pool entries := pooled_journal name steps
  refine ⟨pooled.distinct, ?_, ?_, ?_, ?_⟩
  · intro v i member
    have there := pooled.leads v i member
    refine ⟨⟨v, there, identical_iff.mpr rfl⟩, ?_⟩
    intro few
    have inside := (List.getElem?_eq_some_iff.mp there).1
    exact Nat.mod_eq_of_lt (Nat.lt_of_lt_of_le inside few)
  · intro v i w j first second
    exact pooled.shares first second
  · intro s
    exact consts_run_eq s b
  · intro earlier dst object text flags args later same
    subst same
    exact ⟨_, asked_mem_journal rfl, code_member_call name earlier later dst object text flags args⟩

example : (Builder.start []).journal
    ([.int 1, .real ⟨0x3ff0000000000000⟩, .real ⟨0⟩, .real ⟨0x8000000000000000⟩, .string [97],
      .octet [97], .real ⟨0x7ff8000000000000⟩, .real ⟨0x7ff8000000000001⟩, .int 1, .object 0 none,
      .object 0 none, .string [97]].map fun v => .step (.const v)) =
    [.constant (.int 1) 0, .constant (.real ⟨0x3ff0000000000000⟩) 1, .constant (.real ⟨0⟩) 2,
      .constant (.real ⟨0x8000000000000000⟩) 3, .constant (.string [97]) 4,
      .constant (.octet [97]) 5, .constant (.real ⟨0x7ff8000000000000⟩) 6,
      .constant (.real ⟨0x7ff8000000000001⟩) 7, .constant (.int 1) 0, .constant (.object 0 none) 8,
      .constant (.object 0 none) 9, .constant (.string [97]) 4] := by
  decide

end Builder
end ScriptEngine
