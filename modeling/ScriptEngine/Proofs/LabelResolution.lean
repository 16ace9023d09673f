import ScriptEngine.CodeBlock.Builder

/-! Labels of a block under construction. Every word of its code is known at once
or stands for the way from an instruction to a label. The words that wait for a
label are exactly those that stand for it, so marking the label fills in these and
no others, and words written later are right from the start. -/
namespace ScriptEngine

namespace Builder

/-- A word of the code: known, or the way from an instruction to a label. -/
inductive Cell where
  | fixed (word : UInt32)
  | target (label instruction : Nat)
deriving DecidableEq, Repr

/-- The word in a cell, when some labels are marked; zero if its label is not. -/
def Cell.word (marked : Nat → Option Nat) : Cell → UInt32
  | .fixed word => word
  | .target label instruction =>
    match marked label with
    | some position => displacementWord ((position : Int) - instruction)
    | none => 0

/-- A builder has some cells for its code, and its labels know theirs. -/
structure Holds (b : Builder) (marked : Nat → Option Nat) (cells : List Cell) : Prop where
  code : b.block.code.toList = cells.map (Cell.word marked)
  placed : ∀ label position : Nat,
    b.labels[label]? = some (.placed position) ↔ marked label = some position
  inside : ∀ label position, marked label = some position → position ≤ cells.length
  uses : ∀ (label : Nat) (uses : List LabelUse), b.labels[label]? = some (.waiting uses) →
    ∀ use, use ∈ uses ↔ cells[use.word]? = some (.target label use.instruction)
  known : ∀ label instruction, Cell.target label instruction ∈ cells → label < b.labels.size

variable {b b' : Builder} {marked : Nat → Option Nat} {cells : List Cell} {words : List UInt32}
  {label offset position instruction i : Nat} {uses : List LabelUse} {code : Array UInt32}

theorem Cell.map_word_fixed : (words.map Cell.fixed).map (Cell.word marked) = words := by
  rw [List.map_map]
  exact List.map_id words

theorem Cell.getElem?_concat {cell other : Cell} :
    (cells ++ [cell])[i]? = some other ↔
      cells[i]? = some other ∨ i = cells.length ∧ cell = other := by
  rcases Nat.lt_trichotomy i cells.length with before | here | behind
  · simp [List.getElem?_append_left before, Nat.ne_of_lt before]
  · simp [here]
  · rw [List.getElem?_eq_none (Nat.le_of_lt behind),
      List.getElem?_eq_none (by rw [List.length_append]; exact behind)]
    simp [Nat.ne_of_gt behind]

theorem code_append (b : Builder) (words : List UInt32) :
    (b.append words).block.code.toList = b.block.code.toList ++ words := by
  simp [append, BlockData.code]

/-! ### Filling in a label -/

theorem size_patch : (patch code position uses).size = code.size := by
  induction uses generalizing code with
  | nil => rfl
  | cons use rest ih => rw [patch, ih, Array.size_setIfInBounds]

theorem patch_empty : patch #[] position uses = #[] :=
  Array.eq_empty_of_size_eq_zero (by rw [size_patch, Array.size_empty])

theorem patch_of_not_waiting (other : ∀ use ∈ uses, use.word ≠ i) :
    (patch code position uses)[i]? = code[i]? := by
  induction uses generalizing code with
  | nil => rfl
  | cons use rest ih =>
    obtain ⟨here, later⟩ := List.forall_mem_cons.mp other
    rw [patch, ih later, Array.getElem?_setIfInBounds, if_neg here]

/-- A word that waits for a label gets the way from the one instruction it waits in. -/
theorem patch_of_waiting (waits : ∃ use ∈ uses, use.word = i)
    (only : ∀ use ∈ uses, use.word = i → use.instruction = instruction) (inside : i < code.size) :
    (patch code position uses)[i]? = some (displacementWord ((position : Int) - instruction)) := by
  induction uses generalizing code with
  | nil => simp at waits
  | cons use rest ih =>
    obtain ⟨here, later⟩ := List.forall_mem_cons.mp only
    rw [patch]
    by_cases again : ∃ use ∈ rest, use.word = i
    · exact ih again later (by simpa using inside)
    · have place : use.word = i := by
        obtain ⟨one, member, same⟩ := waits
        rcases List.mem_cons.mp member with rfl | member
        · exact same
        · exact absurd ⟨one, member, same⟩ again
      rw [patch_of_not_waiting fun other member same => again ⟨other, member, same⟩, place,
        Array.getElem?_setIfInBounds, if_pos rfl, if_pos inside, here place]

namespace Holds

theorem start (name : Text) : Holds (Builder.start name) (fun _ => none) [] where
  code := rfl
  placed := by simp [Builder.start]
  inside := by simp
  uses := by simp [Builder.start]
  known := by simp

theorem length_eq (holds : Holds b marked cells) : b.length = cells.length := by
  rw [Builder.length, ← Array.length_toList, holds.code, List.length_map]

/-- Only the code and the labels matter. -/
theorem congr (holds : Holds b marked cells) (code : b'.block.code = b.block.code)
    (labels : b'.labels = b.labels) : Holds b' marked cells where
  code := code ▸ holds.code
  placed := labels ▸ holds.placed
  inside := holds.inside
  uses := labels ▸ holds.uses
  known := labels ▸ holds.known

theorem inside_append (holds : Holds b marked cells) (more : List Cell) (label position : Nat)
    (same : marked label = some position) : position ≤ (cells ++ more).length := by
  have bound := holds.inside label position same
  rw [List.length_append]
  omega

theorem append (holds : Holds b marked cells) (words : List UInt32) :
    Holds (b.append words) marked (cells ++ words.map .fixed) where
  code := by
    rw [code_append, holds.code, List.map_append, Cell.map_word_fixed]
  placed := holds.placed
  inside := holds.inside_append _
  uses label uses waiting use := by
    rw [holds.uses label uses waiting use, List.getElem?_append]
    split
    · rfl
    next beyond => simp [List.getElem?_eq_none (Nat.le_of_not_lt beyond)]
  known label instruction member := holds.known label instruction (by simpa using member)

theorem word_of_placed (holds : Holds b marked cells)
    (placed : b.labels[label]? = some (.placed position)) (offset : Nat) :
    Cell.word marked (.target label offset) = displacementWord ((position : Int) - offset) := by
  rw [Cell.word, (holds.placed label position).mp placed]

theorem marked_of_waiting (holds : Holds b marked cells)
    (waiting : b.labels[label]? = some (.waiting uses)) : marked label = none := by
  cases same : marked label with
  | none => rfl
  | some position => cases ((holds.placed label position).mpr same).symm.trans waiting

theorem known_concat (holds : Holds b marked cells) (there : label < b.labels.size) (offset : Nat)
    (other instruction : Nat)
    (member : Cell.target other instruction ∈ cells ++ [.target label offset]) :
    other < b.labels.size := by
  rcases List.mem_append.mp member with old | new
  · exact holds.known other instruction old
  · cases List.mem_singleton.mp new
    exact there

/-- The way to a label that is placed is written at once. -/
theorem appendTarget_placed (holds : Holds b marked cells) (offset : Nat)
    (there : label < b.labels.size) (found : b.labels[label]? = some (.placed position)) :
    Holds (b.appendTarget offset label) marked (cells ++ [.target label offset]) := by
  simp only [Builder.appendTarget, found]
  refine ⟨?_, holds.placed, holds.inside_append _, fun other uses waiting use => ?_,
    holds.known_concat there offset⟩
  · rw [code_append, holds.code, List.map_append, List.map_singleton, holds.word_of_placed found]
  · have apart : label ≠ other := by
      rintro rfl
      cases found.symm.trans waiting
    rw [holds.uses other uses waiting use, Cell.getElem?_concat]
    simp [apart]

/-- A label that waits gets to know one more cell. -/
theorem appendTarget_waiting (holds : Holds b marked cells) (offset : Nat)
    (there : label < b.labels.size) (found : b.labels[label]? = some (.waiting uses)) :
    Holds (b.appendTarget offset label) marked (cells ++ [.target label offset]) := by
  have unmarked := holds.marked_of_waiting found
  simp only [Builder.appendTarget, found]
  refine ⟨?_, fun other position => ?_, holds.inside_append _,
    fun other uses' waiting use => ?_, ?_⟩
  · rw [code_append, holds.code, List.map_append, List.map_singleton, Cell.word, unmarked]
  · rw [Array.getElem?_setIfInBounds]
    split
    next same =>
      subst same
      simp [unmarked]
    · exact holds.placed other position
  · rw [Array.getElem?_setIfInBounds] at waiting
    rw [Cell.getElem?_concat]
    split at waiting
    next same =>
      subst same
      simp only [Option.some.injEq, Label.waiting.injEq] at waiting
      rw [← waiting, List.mem_append, List.mem_singleton, holds.uses label uses found use,
        ← holds.length_eq]
      cases use
      simp [eq_comm]
    next apart =>
      rw [holds.uses other uses' waiting use]
      simp [apart]
  · rw [Array.size_setIfInBounds]
    exact holds.known_concat there offset

theorem appendTarget (holds : Holds b marked cells) (offset : Nat) (there : label < b.labels.size) :
    Holds (b.appendTarget offset label) marked (cells ++ [.target label offset]) := by
  cases found : b.labels[label]? with
  | none => exact absurd (Array.getElem?_eq_none_iff.mp found) (Nat.not_le.mpr there)
  | some state =>
    cases state with
    | placed position => exact holds.appendTarget_placed offset there found
    | waiting uses => exact holds.appendTarget_waiting offset there found

theorem size_labels_appendTarget : (b.appendTarget offset label).labels.size = b.labels.size := by
  unfold Builder.appendTarget
  split <;> simp [Builder.append]

theorem appendTargets {labels : List Nat} (holds : Holds b marked cells) (offset : Nat)
    (there : ∀ label ∈ labels, label < b.labels.size) :
    Holds (b.appendTargets offset labels) marked (cells ++ labels.map (.target · offset)) := by
  induction labels generalizing b cells with
  | nil => simpa [Builder.appendTargets] using holds
  | cons label rest ih =>
    obtain ⟨here, later⟩ := List.forall_mem_cons.mp there
    have tail := ih (holds.appendTarget offset here) (by rwa [size_labels_appendTarget])
    rwa [List.append_assoc] at tail

theorem newLabel (holds : Holds b marked cells) : Holds b.newLabel.1 marked cells where
  code := holds.code
  placed label position := by
    rw [← holds.placed label position, Builder.newLabel, Array.getElem?_push]
    split
    next last => simp [last]
    · rfl
  inside := holds.inside
  uses label uses waiting use := by
    rw [Builder.newLabel, Array.getElem?_push] at waiting
    split at waiting
    next last =>
      cases waiting
      simp only [List.not_mem_nil, false_iff]
      intro there
      have known := holds.known label use.instruction (List.mem_of_getElem? there)
      omega
    · exact holds.uses label uses waiting use
  known label instruction member := by
    have known := holds.known label instruction member
    rw [Builder.newLabel, Array.size_push]
    omega

/-- Marking a label fills in the cells that stand for it. -/
theorem patched (holds : Holds b marked cells) (waiting : b.labels[label]? = some (.waiting uses))
    (position : Nat) :
    (patch b.block.code position uses).toList =
      cells.map (Cell.word fun other => if other = label then some position else marked other) := by
  have waits := holds.uses label uses waiting
  refine List.ext_getElem? fun i => ?_
  have before : b.block.code[i]? = cells[i]?.map (Cell.word marked) := by
    rw [← Array.getElem?_toList, holds.code, List.getElem?_map]
  rw [Array.getElem?_toList, List.getElem?_map]
  -- A cell that does not stand for the label keeps its word.
  have kept (other : ∀ instruction, cells[i]? ≠ some (.target label instruction)) :
      (patch b.block.code position uses)[i]? = cells[i]?.map (Cell.word marked) := by
    rw [← before]
    exact patch_of_not_waiting fun use member same =>
      other use.instruction (same ▸ (waits use).mp member)
  cases cell : cells[i]? with
  | none => rw [kept (by simp [cell]), cell]; rfl
  | some c =>
    cases c with
    | fixed word => rw [kept (by simp [cell]), cell]; rfl
    | target other instruction =>
      by_cases here : other = label
      · subst here
        have inside : i < b.block.code.size := by
          rw [cell] at before
          exact (Array.getElem?_eq_some_iff.mp before).1
        have only : ∀ use ∈ uses, use.word = i → use.instruction = instruction := by
          intro use member same
          have again := (waits use).mp member
          rw [same, cell] at again
          cases again
          rfl
        rw [patch_of_waiting ⟨⟨i, instruction⟩, (waits _).mpr cell, rfl⟩ only inside]
        simp [Cell.word]
      · rw [kept (by simp [cell, here]), cell]
        simp [Cell.word, here]

theorem mark (holds : Holds b marked cells) (marks : b.mark? label = some b') :
    Holds b' (fun other => if other = label then some b.length else marked other) cells := by
  unfold mark? at marks
  split at marks
  next uses waiting =>
    cases marks
    have there : label < b.labels.size := (Array.getElem?_eq_some_iff.mp waiting).1
    refine ⟨?_, fun other position => ?_, fun other position same => ?_,
      fun other uses' found use => ?_, by simpa using holds.known⟩
    · rw [← holds.patched waiting]
      cases same : b.block.code? <;> simp [BlockData.code, same, patch_empty]
    · rw [Array.getElem?_setIfInBounds]
      split
      next same =>
        subst same
        simp
      next apart =>
        rw [if_neg (Ne.symm apart)]
        exact holds.placed other position
    · split at same
      · cases same
        exact Nat.le_of_eq holds.length_eq
      · exact holds.inside other position same
    · rw [Array.getElem?_setIfInBounds] at found
      split at found
      · simp at found
      · exact holds.uses other uses' found use
  · cases marks

/-- A builder waits for the labels that stand in its code and are not marked. -/
theorem any_isAwaited (holds : Holds b marked cells) :
    b.labels.any isAwaited = true ↔
      ∃ label instruction, Cell.target label instruction ∈ cells ∧ marked label = none := by
  rw [Array.any_eq_true]
  constructor
  · rintro ⟨label, inside, awaited⟩
    have found : b.labels[label]? = some b.labels[label] := Array.getElem?_eq_getElem inside
    cases state : b.labels[label] with
    | placed position =>
      rw [state] at awaited
      cases awaited
    | waiting uses =>
      rw [state] at awaited found
      obtain ⟨use, member⟩ := List.exists_mem_of_ne_nil uses (by simpa [isAwaited] using awaited)
      have cell := (holds.uses label uses found use).mp member
      exact ⟨label, use.instruction, List.mem_of_getElem? cell, holds.marked_of_waiting found⟩
  · rintro ⟨label, instruction, member, unmarked⟩
    have inside := holds.known label instruction member
    have found : b.labels[label]? = some b.labels[label] := Array.getElem?_eq_getElem inside
    refine ⟨label, inside, ?_⟩
    cases state : b.labels[label] with
    | placed position =>
      rw [state, holds.placed, unmarked] at found
      cases found
    | waiting uses =>
      rw [state] at found
      obtain ⟨word, cell⟩ := List.mem_iff_getElem?.mp member
      have use := (holds.uses label uses found ⟨word, instruction⟩).mpr cell
      simpa [isAwaited] using List.ne_nil_of_mem use

end Holds
end Builder
end ScriptEngine
