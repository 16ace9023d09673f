import Mathlib.Data.List.Induction
import ScriptEngine.Proofs.PathNames

/-! The search for the settings of a project. It goes up from a directory, one directory at a
time, until there is a file of settings or the root is reached. The directories on its way
have the names of the first one less some at the end, so it ends, and where it finds a file
there is none further in. The paths that the settings give are seen from the directory that
was found. -/
namespace ScriptEngine.Manifest

open FileTree (files)

variable {t : FileTree} {dir d path : Text} {names : List Text} {found : Option Text} {m : Manifest}

/-- There is something under the name of the file of settings in a directory. -/
def Configured (t : FileTree) (dir : Text) : Prop :=
  ∃ node, t.lookup (Path.join dir fileName) = .ok node

theorem configured_iff :
    (t.lookup (Path.join dir fileName)).toOption.isSome = true ↔ Configured t dir := by
  unfold Configured
  cases t.lookup (Path.join dir fileName) <;> simp [Except.toOption]

instance : Decidable (Configured t dir) := decidable_of_iff _ configured_iff

/-- The search upwards from a directory and what it ends with: a directory that has a file of
settings, or nothing at the root, which lies in itself. -/
inductive Search (t : FileTree) : Text → Option Text → Prop
  | here {dir : Text} (there : Configured t dir) : Search t dir (some dir)
  | root {dir : Text} (missing : ¬Configured t dir) (top : Path.directory dir = dir) :
      Search t dir none
  | up {dir : Text} {found : Option Text} (missing : ¬Configured t dir)
      (below : Path.directory dir ≠ dir) (around : Search t (Path.directory dir) found) :
      Search t dir found

/-- What was found is the innermost directory with a file of settings, of those on the way
along some names from the root; nothing if none has one. -/
def Nearest (t : FileTree) (names : List Text) : Option Text → Prop
  | none => ∀ n ≤ names.length, ¬Configured t (Path.ofParts true (names.take n))
  | some d => ∃ n ≤ names.length, d = Path.ofParts true (names.take n) ∧ Configured t d ∧
      ∀ k, n < k → k ≤ names.length → ¬Configured t (Path.ofParts true (names.take k))

/-! ### The way up -/

theorem directory_ne {name : Text} (plain : ∀ name ∈ names, Path.Plain name)
    (last : Path.Plain name) :
    Path.directory (Path.ofParts true (names ++ [name])) ≠ Path.ofParts true (names ++ [name]) := by
  rw [Path.directory_ofParts plain last]
  intro same
  have shorter := congrArg (Path.namesFrom []) same
  rw [Path.namesFrom_ofParts plain, Path.namesFrom_ofParts (Path.plain_concat plain last)] at shorter
  simp at shorter

theorem ancestors_concat {name : Text} (plain : ∀ name ∈ names, Path.Plain name)
    (last : Path.Plain name) :
    Path.ancestors (Path.ofParts true (names ++ [name])) =
      Path.ofParts true (names ++ [name]) :: Path.ancestors (Path.ofParts true names) := by
  rw [Path.ancestors_ofParts (Path.plain_concat plain last), Path.ancestors_ofParts plain,
    List.length_append, List.length_singleton, List.range_succ, List.reverse_append,
    List.reverse_singleton, List.singleton_append, List.map_cons]
  congr 1
  · rw [List.take_of_length_le (by simp)]
  · refine List.map_congr_left fun n member => ?_
    have short : n ≤ names.length := by simpa [Nat.lt_succ_iff] using member
    rw [List.take_append_of_le_length short]

/-- Going through the directories around a path is the search upwards. -/
theorem search_ancestors (plain : ∀ name ∈ names, Path.Plain name) :
    Search t (Path.ofParts true names)
      ((Path.ancestors (Path.ofParts true names)).find? (Configured t ·)) := by
  induction names using List.reverseRecOn with
  | nil =>
    have root : Path.ancestors (Path.ofParts true []) = [Path.ofParts true []] :=
      Path.ancestors_ofParts (by simp)
    rw [root, List.find?_singleton]
    by_cases there : Configured t (Path.ofParts true [])
    · simpa [there] using Search.here there
    · simpa [there] using Search.root there Path.directory_root
  | append_singleton names name ih =>
    obtain ⟨plain, last⟩ := List.forall_mem_append.mp plain
    have last := List.forall_mem_singleton.mp last
    rw [ancestors_concat plain last, List.find?_cons]
    by_cases there : Configured t (Path.ofParts true (names ++ [name]))
    · simpa [there] using Search.here there
    · simp only [there, decide_false]
      refine .up there (directory_ne plain last) ?_
      rw [Path.directory_ofParts plain last]
      exact ih plain

/-- The search finds the innermost directory. -/
theorem Search.nearest (plain : ∀ name ∈ names, Path.Plain name)
    (search : Search t (Path.ofParts true names) found) : Nearest t names found := by
  induction names using List.reverseRecOn generalizing found with
  | nil =>
    cases search with
    | here there => exact ⟨0, Nat.le_refl 0, rfl, there, fun k more few => by simp at few; omega⟩
    | root missing top => exact fun n few => by simpa using missing
    | up missing below around => exact absurd Path.directory_root below
  | append_singleton names name ih =>
    obtain ⟨plain, last⟩ := List.forall_mem_append.mp plain
    have last := List.forall_mem_singleton.mp last
    have whole : (names ++ [name]).take (names.length + 1) = names ++ [name] :=
      List.take_of_length_le (by simp)
    have length : (names ++ [name]).length = names.length + 1 := by simp
    have outer {n : Nat} (few : n ≤ names.length) : (names ++ [name]).take n = names.take n :=
      List.take_append_of_le_length few
    cases search with
    | here there =>
      refine ⟨names.length + 1, Nat.le_of_eq length.symm, by rw [whole], there, ?_⟩
      intro k more few
      omega
    | root missing top => exact absurd top (directory_ne plain last)
    | up missing below around =>
      rw [Path.directory_ofParts plain last] at around
      have nearest := ih plain around
      cases found with
      | none =>
        intro n few
        rcases Nat.lt_or_eq_of_le (length ▸ few) with less | rfl
        · rw [outer (Nat.le_of_lt_succ less)]
          exact nearest n (Nat.le_of_lt_succ less)
        · rwa [whole]
      | some d =>
        obtain ⟨n, few, same, there, further⟩ := nearest
        refine ⟨n, by omega, by rw [outer few, same], there, fun k more few => ?_⟩
        rcases Nat.lt_or_eq_of_le (length ▸ few) with less | rfl
        · rw [outer (Nat.le_of_lt_succ less)]
          exact further k more (Nat.le_of_lt_succ less)
        · rwa [whole]

theorem run_firstWith (dirs : List Text) :
    t.run (firstWith files dirs) = (dirs.find? (Configured t ·), t) := by
  induction dirs with
  | nil => rfl
  | cons dir rest ih =>
    have there : t.run (files.isThere (Path.join dir fileName)) =
        ((t.lookup (Path.join dir fileName)).toOption.isSome, t) := rfl
    rw [firstWith, FileTree.run_bind, there, List.find?_cons]
    by_cases configured : Configured t dir
    · simp [configured, configured_iff.mpr configured]
    · have missing := Bool.eq_false_iff.mpr (configured_iff.not.mpr configured)
      simp [configured, missing, ih]

/-! ### Settings -/

/-- A path of settings, seen from their directory. -/
def seenFrom (d path : Text) : Text :=
  if Path.isAbsolute path then path else Path.clean (d ++ Path.slash :: path)

/-- Settings that were read in a directory, with their paths seen from it. -/
structure Resolved (t : FileTree) (d : Text) (m : Manifest) : Prop where
  read : ∃ content settings, t.read (Path.join d fileName) = .ok content ∧
    (Toml.read? content).bind ofEntries? = some settings ∧
    m.cachePath = (if settings.cachePath = [] then defaultCachePath else settings.cachePath) ∧
    m.logFile = settings.logFile ∧ m.entry = settings.entry
  cache : m.cacheFile = seenFrom d m.cachePath ∧ Path.isAbsolute m.cacheFile = true
  log : if m.logFile = [] then m.logPath = []
    else m.logPath = seenFrom d m.logFile ∧ Path.isAbsolute m.logPath = true
  entry : if m.entry = [] then m.entryPath = []
    else m.entryPath = seenFrom d m.entry ∧ Path.isAbsolute m.entryPath = true

theorem resolve_eq (here : m.dir = d) (rooted : Path.isAbsolute d = true) (some : path ≠ []) :
    m.resolve path = seenFrom d path ∧ Path.isAbsolute (m.resolve path) = true := by
  have full : d ≠ [] := by
    rintro rfl
    cases rooted
  unfold resolve seenFrom
  rw [here]
  by_cases absolute : Path.isAbsolute path = true
  · rw [if_pos (.inl absolute), if_pos absolute]
    exact ⟨rfl, absolute⟩
  · have joined : Path.join d path = Path.clean (d ++ Path.slash :: path) := by
      rw [Path.join, if_neg fun none => full none.1, if_neg full, if_neg some]
    rw [if_neg (not_or.mpr ⟨absolute, full⟩), if_neg absolute, joined,
      Path.clean_rooted (Path.isAbsolute_append rooted)]
    exact ⟨rfl, Path.isAbsolute_ofParts⟩

/-- Reading settings leaves the tree alone. -/
theorem run_load (t : FileTree) (dir : Text) :
    t.run (load files dir) = ((t.run (load files dir)).1, t) := by
  refine Prod.ext rfl ?_
  simp only [load, FileTree.run_bind, FileTree.run_read]
  split
  · rfl
  · split
    · rfl
    · split <;> rfl

theorem load_ok (loaded : (t.run (load files dir)).1 = .ok m) :
    ∃ content settings, t.read (Path.join dir fileName) = .ok content ∧
      (Toml.read? content).bind ofEntries? = some settings ∧
      m = { settings with
        dir := Path.absolute (Path.ofParts true t.workingDirectory) dir }.withDefaults := by
  simp only [load, FileTree.run_bind, FileTree.run_read] at loaded
  split at loaded
  · cases loaded
  next content read =>
    split at loaded
    · cases loaded
    next settings parsed =>
      split at loaded
      · cases loaded
      · exact ⟨content, settings, read, parsed, (Except.ok.inj loaded).symm⟩

/-- The settings that are read in a directory along plain names. -/
theorem resolved_of_load (plain : ∀ name ∈ names, Path.Plain name)
    (loaded : (t.run (load files (Path.ofParts true names))).1 = .ok m) :
    Resolved t (Path.ofParts true names) m := by
  obtain ⟨content, settings, read, parsed, rfl⟩ := load_ok loaded
  rw [Path.absolute_ofParts plain]
  generalize full : ({ settings with dir := Path.ofParts true names } : Manifest) = s
  have cachePath : s.withDefaults.cachePath =
      if settings.cachePath = [] then defaultCachePath else settings.cachePath := by
    subst full
    unfold withDefaults
    split <;> rfl
  have rest : s.withDefaults.dir = Path.ofParts true names ∧
      s.withDefaults.logFile = settings.logFile ∧ s.withDefaults.entry = settings.entry := by
    subst full
    unfold withDefaults
    split <;> exact ⟨rfl, rfl, rfl⟩
  obtain ⟨dir, logFile, entry⟩ := rest
  have some : s.withDefaults.cachePath ≠ [] := by
    rw [cachePath]
    split
    · decide
    · assumption
  have resolved {path : Text} (some : path ≠ []) := resolve_eq dir Path.isAbsolute_ofParts some
  refine ⟨⟨content, settings, read, parsed, cachePath, logFile, entry⟩, resolved some, ?_, ?_⟩
  · split
    next none => rw [logPath, if_pos none]
    next given =>
      rw [logPath, if_neg given]
      exact resolved given
  · split
    next none => rw [entryPath, if_pos none]
    next given =>
      rw [entryPath, if_neg given]
      exact resolved given

/-- What comes of a search: nothing, or what is read in the directory that was found, an error
included. -/
def outcome (t : FileTree) : Option Text → Except ManifestError (Option Manifest)
  | none => .ok none
  | some d => (t.run (load files d)).1.map some

theorem run_findAndLoad (t : FileTree) (start : Text) :
    t.run (findAndLoad files start) =
      (outcome t ((Path.ancestors (Path.absolute (Path.ofParts true t.workingDirectory)
        start)).find? (Configured t ·)), t) := by
  rw [findAndLoad, FileTree.run_bind, FileTree.run_workingDirectory, FileTree.run_bind, run_firstWith]
  generalize List.find? _ _ = found
  cases found with
  | none => rfl
  | some d =>
    dsimp only
    rw [FileTree.run_bind, run_load, outcome]
    cases (t.run (load files d)).1 <;> rfl

theorem Nearest.resolved (plain : ∀ name ∈ names, Path.Plain name) (nearest : Nearest t names found)
    (loaded : outcome t found = .ok (some m)) : ∃ d, found = some d ∧ Resolved t d m := by
  cases found with
  | none => cases loaded
  | some d =>
    obtain ⟨n, -, rfl, -⟩ := nearest
    have outer : ∀ name ∈ names.take n, Path.Plain name :=
      fun name member => plain name (List.mem_of_mem_take member)
    refine ⟨_, rfl, resolved_of_load outer ?_⟩
    cases result : (t.run (load files (Path.ofParts true (names.take n)))).1 with
    | error => simp [outcome, result, Except.map] at loaded
    | ok settings => simpa [outcome, result, Except.map] using loaded

/-- Whatever tree and whatever directory to start from: that directory, seen from the root, is
a clean path, and the search upwards from it ends with the innermost of the directories around
it that has a file of settings, or with nothing if there is none. What is read there is the
outcome, and the paths that the settings give are seen from there: they are absolute, or empty
where none is given. -/
theorem nearest_settings (t : FileTree) (start : Text) :
    let workingDirectory := Path.ofParts true t.workingDirectory
    let origin := Path.absolute workingDirectory start
    let names := Path.namesFrom
      (if Path.isAbsolute start then [] else Path.namesFrom [] workingDirectory) start
    origin = Path.ofParts true names ∧ (∀ name ∈ names, Path.Plain name) ∧
      ∃ found, Search t origin found ∧ Nearest t names found ∧
        t.run (findAndLoad files start) = (outcome t found, t) ∧
        ∀ m, outcome t found = .ok (some m) → ∃ d, found = some d ∧ Resolved t d m := by
  intro workingDirectory origin names
  have same : origin = Path.ofParts true names := Path.absolute_eq Path.isAbsolute_ofParts
  have plain : ∀ name ∈ names, Path.Plain name := by
    refine Path.plain_namesFrom ?_
    split
    · simp
    · exact Path.plain_namesFrom (by simp)
  have run : t.run (findAndLoad files start) =
      (outcome t ((Path.ancestors origin).find? (Configured t ·)), t) := run_findAndLoad t start
  rw [same] at run
  have search : Search t (Path.ofParts true names) _ := search_ancestors plain
  have nearest := search.nearest plain
  exact ⟨same, plain, _, same ▸ search, nearest, run, fun m => nearest.resolved plain⟩

/-- Settings at the root, and a file in the directory `a` that is none. -/
def nestedTree : FileTree where
  entries := [([fileName], .file (utf8 "[run]\nentry = \"x/../y\"\n")),
    ([utf8 "a", fileName], .file (utf8 "[")), ([utf8 "a", utf8 "b", utf8 "c"], .file [])]
  workingDirectory := [utf8 "a"]

example : (nestedTree.run (findAndLoad files (utf8 "b//../b/."))).1 =
    .error (.malformed (utf8 "/a/kiri.toml")) := by decide +kernel

example : (nestedTree.run (findAndLoad files (utf8 "../d"))).1.toOption.join.map
    (fun m => (m.cacheFile, m.logPath, m.entryPath)) =
    some (utf8 "/.kiri/cache.db", [], utf8 "/y") := by decide +kernel

end ScriptEngine.Manifest
