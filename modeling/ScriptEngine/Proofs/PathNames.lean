import ScriptEngine.Proofs.TreeGrowth

/-! Paths from the root. Every part of a path leads from a directory to another: a name into
it, `..` out of it, except from the root, and an empty part or `.` nowhere. A clean path from
the root consists of the names on the way that is left, and the directories around it have
these names less some at the end. -/
namespace ScriptEngine.Path

variable {p dir part name : Text} {ps names done : List Text}

/-- A name on a clean way from the root. -/
structure Plain (name : Text) : Prop where
  nonempty : name ≠ []
  notHere : name ≠ here
  notUp : name ≠ up
  whole : slash ∉ name

/-- Where a part of a path leads from the directory at the end of some names. -/
def follow (names : List Text) (part : Text) : List Text :=
  if part = [] ∨ part = here then names
  else if part = up then names.dropLast
  else names ++ [part]

/-- The names on the way to the end of a path that starts at the end of some others. -/
def namesFrom (names : List Text) (p : Text) : List Text := (parts p).foldl follow names

/-! ### Parts -/

theorem whole_of_mem_parts (member : part ∈ parts p) : slash ∉ part := by
  induction p generalizing part with
  | nil =>
    cases List.mem_singleton.mp member
    simp
  | cons c rest ih =>
    have some := FileTree.parts_ne_nil rest
    simp only [parts, Text.split] at ih some member
    split at member
    · rcases List.mem_cons.mp member with rfl | later
      · simp
      · exact ih later
    next other =>
      cases front : Text.split slash rest with
      | nil => exact absurd front some
      | cons first others =>
        rw [front] at member ih
        rcases List.mem_cons.mp member with rfl | later
        · have rest := ih List.mem_cons_self
          simpa [Ne.symm other] using rest
        · exact ih (List.mem_cons_of_mem _ later)

theorem parts_of_whole (whole : slash ∉ p) : parts p = [p] := by
  induction p with
  | nil => rfl
  | cons c rest ih =>
    obtain ⟨other, whole⟩ := not_or.mp (List.mem_cons.not.mp whole)
    have tail := ih whole
    rw [parts] at tail
    rw [parts, Text.split, if_neg (Ne.symm other), tail]

theorem namesFrom_append_slash :
    namesFrom names (dir ++ slash :: p) = namesFrom (namesFrom names dir) p := by
  rw [namesFrom, FileTree.parts_append_slash, List.foldl_append]
  rfl

theorem namesFrom_nil : namesFrom names [] = names := by simp [namesFrom, parts, Text.split, follow]

/-! ### Ways -/

theorem plain_concat (plain : ∀ name ∈ names, Plain name) (last : Plain name) :
    ∀ other ∈ names ++ [name], Plain other :=
  List.forall_mem_append.mpr ⟨plain, List.forall_mem_singleton.mpr last⟩

theorem follow_plain (plain : Plain name) : follow names name = names ++ [name] := by
  rw [follow, if_neg (not_or.mpr ⟨plain.nonempty, plain.notHere⟩), if_neg plain.notUp]

theorem plain_follow (plain : ∀ name ∈ names, Plain name) (whole : slash ∉ part) :
    ∀ name ∈ follow names part, Plain name := by
  unfold follow
  split
  · exact plain
  next moves =>
    split
    · exact fun name member => plain name ((List.dropLast_sublist names).subset member)
    next notUp =>
      obtain ⟨nonempty, notHere⟩ := not_or.mp moves
      exact plain_concat plain ⟨nonempty, notHere, notUp, whole⟩

theorem plain_foldl (plain : ∀ name ∈ names, Plain name) (whole : ∀ part ∈ ps, slash ∉ part) :
    ∀ name ∈ ps.foldl follow names, Plain name := by
  induction ps generalizing names with
  | nil => exact plain
  | cons part rest ih =>
    obtain ⟨here, later⟩ := List.forall_mem_cons.mp whole
    exact ih (plain_follow plain here) later

theorem plain_namesFrom (plain : ∀ name ∈ names, Plain name) :
    ∀ name ∈ namesFrom names p, Plain name :=
  plain_foldl plain fun _ => whole_of_mem_parts

theorem foldl_follow_plain (plain : ∀ name ∈ ps, Plain name) :
    ps.foldl follow names = names ++ ps := by
  induction ps generalizing names with
  | nil => exact (List.append_nil _).symm
  | cons name rest ih =>
    obtain ⟨here, later⟩ := List.forall_mem_cons.mp plain
    rw [List.foldl_cons, follow_plain here, ih later, List.append_assoc]
    rfl

/-- From the root, parts are resolved by following them. -/
theorem resolveParts_rooted (clear : up ∉ done) :
    resolveParts true done ps = ps.foldl follow done.reverse := by
  induction ps generalizing done with
  | nil => rfl
  | cons part rest ih =>
    rw [resolveParts.eq_def, List.foldl_cons, follow]
    dsimp only
    split
    · exact ih clear
    · split
      · cases done with
        | nil => exact ih clear
        | cons last before =>
          obtain ⟨other, clear⟩ := not_or.mp (List.mem_cons.not.mp clear)
          simp only [if_neg (Ne.symm other), List.reverse_cons, List.dropLast_concat]
          exact ih clear
      next other =>
        rw [← List.reverse_cons]
        exact ih (not_or.mpr ⟨Ne.symm other, clear⟩ ∘ List.mem_cons.mp)

/-! ### Clean paths -/

theorem isAbsolute_ofParts : isAbsolute (ofParts true names) = true := rfl

theorem clean_rooted (rooted : isAbsolute p = true) : clean p = ofParts true (namesFrom [] p) := by
  have resolved : clean p = ofParts (isAbsolute p) (resolveParts (isAbsolute p) [] (parts p)) := rfl
  rw [resolved, rooted, resolveParts_rooted (by simp)]
  rfl

theorem joined_cons_cons (first second : Text) (rest : List Text) :
    Text.joined [slash] (first :: second :: rest) =
      first ++ slash :: Text.joined [slash] (second :: rest) := by
  simp [Text.joined]

theorem parts_joined (some : names ≠ []) (plain : ∀ name ∈ names, Plain name) :
    parts (Text.joined [slash] names) = names := by
  induction names with
  | nil => exact absurd rfl some
  | cons first rest ih =>
    obtain ⟨here, later⟩ := List.forall_mem_cons.mp plain
    cases rest with
    | nil => exact parts_of_whole here.whole
    | cons second rest =>
      rw [joined_cons_cons, FileTree.parts_append_slash, parts_of_whole here.whole, ih (by simp) later]
      rfl

/-- A path that was put together from names leads along them. -/
theorem namesFrom_ofParts (plain : ∀ name ∈ names, Plain name) :
    namesFrom [] (ofParts true names) = names := by
  have root : ofParts true names = [] ++ slash :: Text.joined [slash] names := rfl
  rw [root, namesFrom_append_slash, namesFrom_nil]
  by_cases none : names = []
  · rw [none]
    exact namesFrom_nil
  · rw [namesFrom, parts_joined none plain, foldl_follow_plain plain, List.nil_append]

theorem clean_ofParts (plain : ∀ name ∈ names, Plain name) :
    clean (ofParts true names) = ofParts true names := by
  rw [clean_rooted isAbsolute_ofParts, namesFrom_ofParts plain]

theorem isAbsolute_append (rooted : isAbsolute dir = true) : isAbsolute (dir ++ p) = true := by
  cases dir with
  | nil => cases rooted
  | cons => exact rooted

theorem join_rooted (rooted : isAbsolute dir = true) :
    join dir p = ofParts true (namesFrom (namesFrom [] dir) p) := by
  have some : dir ≠ [] := by
    rintro rfl
    cases rooted
  unfold join
  rw [if_neg fun none => some none.1, if_neg some]
  split
  next none => rw [clean_rooted rooted, none, namesFrom_nil]
  · rw [clean_rooted (isAbsolute_append rooted), namesFrom_append_slash]

/-- A path as seen from the root leads where it leads from the working directory. -/
theorem absolute_eq {workingDirectory : Text} (rooted : isAbsolute workingDirectory = true) :
    absolute workingDirectory p =
      ofParts true (namesFrom (if isAbsolute p then [] else namesFrom [] workingDirectory) p) := by
  unfold absolute
  split
  next absolute => exact clean_rooted absolute
  · exact join_rooted rooted

theorem absolute_ofParts {workingDirectory : Text} (plain : ∀ name ∈ names, Plain name) :
    absolute workingDirectory (ofParts true names) = ofParts true names := by
  rw [absolute, if_pos isAbsolute_ofParts, clean_ofParts plain]

/-! ### Directories around a path -/

theorem uptoSlash_append (whole : slash ∉ name) :
    uptoSlash (p ++ slash :: name) = p ++ [slash] := by
  have skipped : ∀ c ∈ name.reverse, (c != slash) = true := by
    intro c member
    rw [bne_iff_ne]
    rintro rfl
    exact whole (List.mem_reverse.mp member)
  rw [uptoSlash, List.reverse_append, List.reverse_cons, List.append_assoc,
    List.dropWhile_append_of_pos skipped]
  simp

theorem directory_append (plain : Plain name) (rooted : isAbsolute (p ++ [slash]) = true) :
    directory (p ++ slash :: name) = ofParts true (namesFrom [] p) := by
  rw [directory, uptoSlash_append plain.whole, clean_rooted rooted, namesFrom_append_slash,
    namesFrom_nil]

theorem directory_root : directory (ofParts true []) = ofParts true [] := by decide

theorem ofParts_concat (first : Text) (rest : List Text) :
    ofParts true (first :: rest ++ [name]) = ofParts true (first :: rest) ++ slash :: name := by
  have joined : Text.joined [slash] (first :: rest ++ [name]) =
      Text.joined [slash] (first :: rest) ++ slash :: name := by
    induction rest generalizing first with
    | nil => exact joined_cons_cons first name []
    | cons second rest ih =>
      have tail := ih second
      rw [List.cons_append] at tail ⊢
      rw [List.cons_append, joined_cons_cons, joined_cons_cons, tail, List.append_assoc,
        List.cons_append]
  exact congrArg (List.cons slash) joined

/-- The directory that a path lies in has its names less the last one. -/
theorem directory_ofParts (plain : ∀ name ∈ names, Plain name) (last : Plain name) :
    directory (ofParts true (names ++ [name])) = ofParts true names := by
  cases names with
  | nil => exact directory_append (p := []) last (by decide)
  | cons first rest =>
    rw [ofParts_concat, directory_append last (isAbsolute_append isAbsolute_ofParts),
      namesFrom_ofParts plain]

theorem ancestors_ofParts (plain : ∀ name ∈ names, Plain name) :
    ancestors (ofParts true names) =
      (List.range (names.length + 1)).reverse.map fun n => ofParts true (names.take n) := by
  have same : resolveParts true [] (parts (ofParts true names)) = names := by
    rw [resolveParts_rooted (by simp)]
    exact namesFrom_ofParts plain
  rw [ancestors, isAbsolute_ofParts, same]

end ScriptEngine.Path
