import Mathlib.Data.List.TakeWhile
import ScriptEngine.CommandLine
import ScriptEngine.FileTree

/-! What programs do to a tree of files. Looking for settings changes nothing;
making directories, opening a log and opening a block store add to the tree and
leave what was there, except that a blank file may become an empty store. -/
namespace ScriptEngine

namespace FileTree

/-- What a use of files gives, and the tree that it leaves. -/
def run {α : Type} (t : FileTree) (use : StateM FileTree α) : α × FileTree := use t

section Uses

variable {α β : Type} {t : FileTree}

@[simp] theorem run_pure (a : α) : t.run (pure a) = (a, t) := rfl

@[simp] theorem run_bind (use : StateM FileTree α) (next : α → StateM FileTree β) :
    t.run (use >>= next) = (t.run use).2.run (next (t.run use).1) := rfl

@[simp] theorem run_read (path : Text) : t.run (files.read path) = (t.read path, t) := rfl

@[simp] theorem run_makeDirectories (dir : Text) :
    t.run (files.makeDirectories dir) = t.makeDirectories dir := rfl

@[simp] theorem run_openStore (path : Text) : t.run (files.openStore path) = t.openStore path := rfl

@[simp] theorem run_workingDirectory :
    t.run files.workingDirectory = (Path.ofParts true t.workingDirectory, t) := rfl

@[simp] theorem run_now : t.run files.now = (0, t) := rfl

end Uses

variable {t u v : FileTree} {place other : Place} {node new : FileNode}

/-! ### Nodes -/

theorem find?_put (apart : other ≠ place) :
    (t.put place new).entries.find? (·.1 = other) = t.entries.find? (·.1 = other) := by
  simp only [put, List.find?_cons, List.find?_filter, decide_eq_false apart.symm]
  congr 1
  funext entry
  grind

theorem node?_put : (t.put place new).node? place = some new := by
  simp [node?, put]

theorem node?_put_of_ne (apart : other ≠ place) (there : t.node? other = some node) :
    (t.put place new).node? other = some node := by
  simp only [node?, find?_put apart] at there ⊢
  split at there
  · exact there
  · split at there
    next way =>
      cases there
      refine if_pos (way.imp_right (Or.imp_right fun below => ?_))
      -- the entry that lies below stays, or the new one is in its place
      obtain ⟨entry, member, lies⟩ := List.any_eq_true.mp below
      refine List.any_eq_true.mpr ?_
      by_cases same : entry.1 = place
      · exact ⟨(place, new), List.mem_cons_self, same ▸ lies⟩
      · exact ⟨entry, List.mem_cons_of_mem _ (by simpa [same] using member), lies⟩
    · cases there

theorem node?_of_put {s : BlockStore} (apart : other ≠ place)
    (there : (t.put place new).node? other = some (.store s)) : t.node? other = some (.store s) := by
  simp only [node?, find?_put apart] at there ⊢
  split at there
  · exact there
  · split at there <;> cases there

/-! ### Ways -/

/-- Where a part of a path leads from a directory. -/
def next? (place : Place) (part : Text) : Option Place :=
  if part = [] ∨ part = Path.here then some place
  else if part = Path.up then some place.dropLast
  else if maxName < part.length then none
  else some (place ++ [part])

theorem walk_cons (way : t.node? place = some .directory) (part : Text) (rest : List Text) :
    t.walk place (part :: rest) =
      (next? place part).elim (.error .nameTooLong) (t.walk · rest) := by
  rw [walk, way, next?]
  dsimp only
  split
  · rfl
  · split
    · rfl
    · split <;> rfl

theorem walk_cons_ok {part : Text} {rest : List Text} {last : Place} :
    t.walk place (part :: rest) = .ok last ↔
      t.node? place = some .directory ∧
        ∃ next, next? place part = some next ∧ t.walk next rest = .ok last := by
  constructor
  · intro found
    have way : t.node? place = some .directory := by
      rw [walk] at found
      split at found
      · cases found
      · assumption
      · cases found
    rw [walk_cons way] at found
    cases leads : next? place part with
    | none => rw [leads] at found; cases found
    | some next => exact ⟨way, next, rfl, by rwa [leads] at found⟩
  · rintro ⟨way, next, leads, found⟩
    rw [walk_cons way, leads]
    exact found

/-- Where a way leads does not depend on the tree. -/
theorem walk_unique {parts : List Text} {p q : Place} (found : t.walk place parts = .ok p)
    (found' : u.walk place parts = .ok q) : p = q := by
  induction parts generalizing place with
  | nil => exact Except.ok.inj (found.symm.trans found')
  | cons part rest ih =>
    obtain ⟨-, next, leads, found⟩ := walk_cons_ok.mp found
    obtain ⟨-, next', leads', found'⟩ := walk_cons_ok.mp found'
    obtain rfl := Option.some.inj (leads.symm.trans leads')
    exact ih found found'

/-- A way with a slash at its end leads to a directory. -/
theorem walk_slash {parts : List Text} {last : Place} (found : t.walk place parts = .ok last)
    (slash : parts.getLast? = some []) : t.node? last = some .directory := by
  induction parts generalizing place with
  | nil => cases slash
  | cons part rest ih =>
    obtain ⟨way, next, leads, found⟩ := walk_cons_ok.mp found
    cases rest with
    | nil =>
      cases slash
      cases leads
      cases found
      exact way
    | cons => exact ih found slash

theorem place?_ok {path : Text} :
    t.place? path = .ok place ↔
      ∃ first, t.start path = .ok first ∧ t.walk first (Path.parts path) = .ok place := by
  unfold place?
  cases t.start path <;> simp [bind, Except.bind]

theorem place?_unique {path : Text} {p q : Place} (found : t.place? path = .ok p)
    (found' : u.place? path = .ok q) (same : u.workingDirectory = t.workingDirectory) : p = q := by
  obtain ⟨first, start, found⟩ := place?_ok.mp found
  obtain ⟨first', start', found'⟩ := place?_ok.mp found'
  rw [FileTree.start, same] at start'
  obtain rfl := Except.ok.inj (start.symm.trans start')
  exact walk_unique found found'

/-- A way that leads somewhere still does so while the directories stay. -/
theorem walk_of_directories
    (stay : ∀ place, t.node? place = some .directory → u.node? place = some .directory)
    {parts : List Text} {last : Place} (found : t.walk place parts = .ok last) :
    u.walk place parts = .ok last := by
  induction parts generalizing place with
  | nil => exact found
  | cons part rest ih =>
    obtain ⟨way, next, leads, found⟩ := walk_cons_ok.mp found
    exact walk_cons_ok.mpr ⟨stay place way, next, leads, ih found⟩

theorem place?_of_directories (same : u.workingDirectory = t.workingDirectory)
    (stay : ∀ place, t.node? place = some .directory → u.node? place = some .directory)
    {path : Text} (found : t.place? path = .ok place) : u.place? path = .ok place := by
  obtain ⟨first, start, found⟩ := place?_ok.mp found
  refine place?_ok.mpr ⟨first, ?_, walk_of_directories stay found⟩
  rwa [FileTree.start, same]

theorem place?_put {path : Text} (plain : t.node? place ≠ some .directory)
    (found : t.place? path = .ok other) : (t.put place new).place? path = .ok other := by
  have same : (t.put place new).workingDirectory = t.workingDirectory := rfl
  refine place?_of_directories same (fun way directory => node?_put_of_ne ?_ directory) found
  exact fun same => plain (same ▸ directory)

theorem read_ok {path data : Text} :
    t.read path = .ok data ↔ ∃ place, t.place? path = .ok place ∧
      (t.node? place = some (.file data) ∨ ∃ s, t.node? place = some (.store s) ∧ data = s.toFile) := by
  unfold FileTree.read lookup
  cases found : t.place? path with
  | error trouble => simp [bind, Except.bind]
  | ok place =>
    cases there : t.node? place with
    | none => simp [there, bind, Except.bind]
    | some node => cases node <;> simp [there, bind, Except.bind, eq_comm]

theorem parts_ne_nil (path : Text) : Path.parts path ≠ [] := by
  unfold Path.parts Text.split
  split
  · simp
  · split
    · simp
    · split <;> simp

theorem parts_append_slash (dir path : Text) :
    Path.parts (dir ++ Path.slash :: path) = Path.parts dir ++ Path.parts path := by
  induction dir with
  | nil => rfl
  | cons c rest ih =>
    have some := parts_ne_nil rest
    simp only [Path.parts] at ih some ⊢
    rw [List.cons_append, Text.split, Text.split, ih]
    split
    · rfl
    · cases parts : Text.split Path.slash rest with
      | nil => exact absurd parts some
      | cons => rfl

/-- What is no directory can be written where it is found. -/
theorem target?_of_place? {path : Text} (found : t.place? path = .ok place)
    (other : t.node? place ≠ some .directory) : t.target? path = .ok place := by
  obtain ⟨first, start, found⟩ := place?_ok.mp found
  have open_ended : (Path.parts path).getLast? ≠ some [] := fun slash => other (walk_slash found slash)
  simp only [target?, start, bind, Except.bind]
  split
  next last before _ => rw [if_neg fun slash => open_ended slash.1, found]
  next blank =>
    obtain ⟨part, last⟩ := Option.ne_none_iff_exists'.mp
      (mt List.getLast?_eq_none_iff.mp (parts_ne_nil path))
    have member : part ∈ (Path.parts path).reverse := List.mem_reverse.mpr (List.mem_of_getLast? last)
    have empty := List.dropWhile_eq_nil_iff.mp blank part member
    rw [of_decide_eq_true empty] at last
    exact absurd last open_ended

theorem place?_of_target? {path : Text} (found : t.target? path = .ok place) :
    t.place? path = .ok place := by
  unfold target? at found
  cases start : t.start path with
  | error trouble => simp [start, bind, Except.bind] at found
  | ok first =>
    refine place?_ok.mpr ⟨first, start, ?_⟩
    simp only [start, bind, Except.bind] at found
    split at found
    · split at found
      · split at found <;> cases found
      · exact found
    · cases found

/-! ### Trees that are added to -/

/-- The blocks in the store at a place. -/
def blocksAt (t : FileTree) (place : Place) : List StoredBlock :=
  match t.node? place with
  | some (.store s) => s.blocks
  | _ => []

/-- A tree that was added to: what was there still is, except that a blank file
may have become an empty store. -/
structure Settles (t u : FileTree) : Prop where
  workingDirectory : u.workingDirectory = t.workingDirectory
  keeps : ∀ place node, t.node? place = some node → u.node? place = some node ∨
    (∃ content, node = .file content ∧ content.length ≤ 1) ∧ u.node? place = some (.store {})
  stores : ∀ place s, u.node? place = some (.store s) → t.node? place = some (.store s) ∨ s = {}

namespace Settles

theorem refl (t : FileTree) : Settles t t := ⟨rfl, fun _ _ => .inl, fun _ _ => .inl⟩

theorem trans (first : Settles t u) (second : Settles u v) : Settles t v where
  workingDirectory := second.workingDirectory.trans first.workingDirectory
  keeps place node there := by
    rcases first.keeps place node there with kept | ⟨blank, turned⟩
    · exact second.keeps place node kept
    · refine .inr ⟨blank, ?_⟩
      rcases second.keeps place _ turned with kept | ⟨⟨content, same, -⟩, -⟩
      · exact kept
      · cases same
  stores place s there := by
    rcases second.stores place s there with before | empty
    · exact first.stores place s before
    · exact .inr empty

/-- Something is put where nothing was. -/
theorem put (vacant : t.node? place = none) (plain : ∀ s, new ≠ .store s) :
    Settles t (t.put place new) where
  workingDirectory := rfl
  keeps other node there := by
    refine .inl (node?_put_of_ne (fun same => ?_) there)
    rw [same, vacant] at there
    cases there
  stores other s there := by
    by_cases same : other = place
    · rw [same, node?_put] at there
      exact absurd (Option.some.inj there) (plain s)
    · exact .inl (node?_of_put same there)

/-- A blank file becomes an empty store. -/
theorem turn {content : Text} (there : t.node? place = some (.file content))
    (blank : content.length ≤ 1) : Settles t (t.put place (.store {})) where
  workingDirectory := rfl
  keeps other node before := by
    by_cases same : other = place
    · subst same
      cases there.symm.trans before
      exact .inr ⟨⟨content, rfl, blank⟩, node?_put⟩
    · exact .inl (node?_put_of_ne same before)
  stores other s after := by
    by_cases same : other = place
    · rw [same, node?_put] at after
      cases after
      exact .inr rfl
    · exact .inl (node?_of_put same after)

theorem store (settles : Settles t u) {s : BlockStore} (there : t.node? place = some (.store s)) :
    u.node? place = some (.store s) := by
  rcases settles.keeps place _ there with kept | ⟨⟨content, same, -⟩, -⟩
  · exact kept
  · cases same

theorem directory (settles : Settles t u) (there : t.node? place = some .directory) :
    u.node? place = some .directory := by
  rcases settles.keeps place _ there with kept | ⟨⟨content, same, -⟩, -⟩
  · exact kept
  · cases same

/-- Stored blocks stay as they are. -/
theorem blocksAt_eq (settles : Settles t u) (place : Place) : u.blocksAt place = t.blocksAt place := by
  unfold blocksAt
  split
  next s after =>
    rcases settles.stores place s after with before | rfl
    · rw [before]
    · split
      next before =>
        cases after.symm.trans (settles.store before)
        rfl
      · rfl
  next other =>
    split
    next s before => exact absurd (settles.store before) (other s)
    · rfl

theorem place? (settles : Settles t u) {path : Text} (found : t.place? path = .ok place) :
    u.place? path = .ok place :=
  place?_of_directories settles.workingDirectory (fun _ => settles.directory) found

/-- What can be read stays, except that a blank file may read as an empty store. -/
theorem read (settles : Settles t u) {path data : Text} (before : t.read path = .ok data) :
    u.read path = .ok data ∨ data.length ≤ 1 ∧ u.read path = .ok (BlockStore.toFile {}) := by
  obtain ⟨place, found, there⟩ := read_ok.mp before
  have found := settles.place? found
  rcases there with there | ⟨s, there, rfl⟩
  · rcases settles.keeps place _ there with kept | ⟨⟨content, same, blank⟩, turned⟩
    · exact .inl (read_ok.mpr ⟨place, found, .inl kept⟩)
    · cases same
      exact .inr ⟨blank, read_ok.mpr ⟨place, found, .inr ⟨_, turned, rfl⟩⟩⟩
  · exact .inl (read_ok.mpr ⟨place, found, .inr ⟨s, settles.store there, rfl⟩⟩)

end Settles

/-! ### Directories and files -/

theorem walk_append {parts more : List Text} {last : Place} (found : t.walk place parts = .ok last) :
    t.walk place (parts ++ more) = t.walk last more := by
  induction parts generalizing place with
  | nil =>
    cases found
    rfl
  | cons part rest ih =>
    obtain ⟨way, next, leads, found⟩ := walk_cons_ok.mp found
    rw [List.cons_append, walk_cons way, leads]
    exact ih found

theorem start_slash {path : Text} {first : Place} (start : t.start path = .ok first) :
    t.start (path ++ [Path.slash]) = .ok first ∨
      t.start (path ++ [Path.slash]) = .error .nameTooLong := by
  obtain _ | ⟨c, rest⟩ := path
  · cases start
  · have same : (c :: (rest ++ [Path.slash])).contains 0 = (c :: rest).contains 0 := by
      simp [Path.slash]
    simp only [FileTree.start, List.cons_append, same, reduceCtorEq, if_false] at start ⊢
    split at start
    · cases start
    next plain =>
      rw [if_neg plain]
      split at start
      · cases start
      · by_cases long : maxPath < (c :: (rest ++ [Path.slash])).length
        · exact .inr (if_pos long)
        · exact .inl ((if_neg long).trans start)

/-- Where a path leads there is nothing if nothing is found there, be it with a
slash at its end. -/
theorem vacant_of_notFound {path : Text} (found : t.place? path = .ok place)
    (missing : t.lookup path = .error .notFound ∨ t.lookup (path ++ [Path.slash]) = .error .notFound) :
    t.node? place = none := by
  rcases missing with missing | missing
  · simp only [lookup, found, bind, Except.bind] at missing
    split at missing
    · cases missing
    · assumption
  · obtain ⟨first, start, found⟩ := place?_ok.mp found
    rcases start_slash start with start | start
    · have parts : Path.parts (path ++ [Path.slash]) = Path.parts path ++ [[]] :=
        parts_append_slash path []
      simp only [lookup, FileTree.place?, start, parts, walk_append found, bind, Except.bind] at missing
      cases there : t.node? place with
      | none => rfl
      | some node => cases node <;> simp [walk, there] at missing
    · simp [lookup, FileTree.place?, start, bind, Except.bind] at missing

/-- A directory is made only where nothing is. -/
theorem makeAll_settles (t : FileTree) (dirs : List Text) : Settles t (t.makeAll dirs).2 := by
  induction dirs generalizing t with
  | nil => exact .refl t
  | cons dir rest ih =>
    rw [makeAll]
    dsimp only
    split
    · exact ih t
    · exact .refl t
    next missing =>
      split
      next place found =>
        refine .trans (.put (vacant_of_notFound found ?_) (by simp)) (ih _)
        split at missing
        · exact .inl missing
        · exact .inr missing
      · exact .refl t
    · exact .refl t
    · exact .refl t

theorem writeNode_ok {path : Text} (written : t.writeNode path new = .ok u) :
    ∃ place, t.target? path = .ok place ∧ t.node? place ≠ some .directory ∧ u = t.put place new := by
  unfold writeNode at written
  split at written
  · cases written
  next place found =>
    split at written
    · cases written
    next plain =>
      cases written
      exact ⟨place, found, plain, rfl⟩

/-- Writing a file where none was found adds it. -/
theorem write_settles {path : Text} {e : FileError} (missing : t.read path = .error e)
    (trouble : e.trouble = .notFound) (content : Text) :
    Settles t (t.run (files.write path content)).2 := by
  have notFound : t.lookup path = .error .notFound := by
    unfold FileTree.read at missing
    split at missing <;> cases missing
    · cases trouble
    next failed => exact trouble ▸ failed
  change Settles t (attempt (·.writeNode path (.file content)) t).2
  rw [attempt]
  split
  next written =>
    obtain ⟨place, found, -, rfl⟩ := writeNode_ok written
    exact .put (vacant_of_notFound (place?_of_target? found) (.inl notFound)) (by simp)
  · exact .refl t

/-- Opening a store adds at most an empty file. -/
theorem openStore_settles (t : FileTree) (path : Text) : Settles t (t.openStore path).2 := by
  unfold openStore
  split
  · exact .refl t
  · split
    · exact .refl t
    · split
      · exact .refl t
      · exact .refl t
      · exact .refl t
      next vacant => exact .put vacant (by simp)

/-- The file of a store is found where it was opened. It holds that store, or it
is blank. -/
theorem openStore_found {path : Text} {f : StoreFile} (opened : t.openStore path = (some f, u)) :
    ∃ place, u.place? path = .ok place ∧
      ((∃ s, f.content = .blocks s ∧ u.node? place = some (.store s)) ∨ f.content = .foreign ∨
        f.content = .blank ∧ ∃ content, u.node? place = some (.file content) ∧ content.length ≤ 1) := by
  have settles := openStore_settles t path
  rw [opened] at settles
  unfold openStore at opened
  split at opened
  · cases opened
  next place found =>
    refine ⟨place, settles.place? found, ?_⟩
    split at opened
    · cases opened
    · split at opened
      next s there =>
        cases opened
        exact .inl ⟨s, rfl, there⟩
      next content there =>
        cases opened
        by_cases blank : content.length ≤ 1
        · exact .inr (.inr ⟨by rw [if_pos blank]; rfl, content, there, blank⟩)
        · exact .inr (.inl (by rw [if_neg blank]; rfl))
      · cases opened
      · cases opened
        exact .inr (.inr ⟨rfl, [], node?_put, by simp⟩)

end FileTree

/-! ### Opening a block store -/

namespace CommandLine

open FileTree

variable {t u : FileTree}

/-- A store is put back where it was opened. -/
theorem save_found {c : Connection} {file : Text} {place : Place} (kept : c.file? = some file)
    (found : t.place? file = .ok place) (plain : t.node? place ≠ some .directory) (s : BlockStore) :
    t.run (save files c s) = (.ok (), t.put place (.store s)) := by
  have written : t.writeNode file (.store s) = .ok (t.put place (.store s)) := by
    rw [writeNode, target?_of_place? found plain]
    dsimp only
    split
    next directory => exact absurd directory plain
    · rfl
  have saved : t.run (files.saveStore file s) = (.ok (), t.put place (.store s)) := by
    change attempt (·.writeNode file (.store s)) t = _
    rw [attempt, written]
  rw [save, kept]
  dsimp only
  rw [run_bind, saved]
  rfl

/-- What opening a store leaves: a tree that was added to, with the store at the
place that its file leads to if it is kept in one. -/
structure Opened (t : FileTree) (file : Text) (result : Except CacheTrouble Connection × FileTree) :
    Prop where
  settles : Settles t result.2
  kept : ∀ c f, result.1 = .ok c → c.file? = some f → f = file ∧
    ∃ place, result.2.place? file = .ok place ∧ result.2.node? place = some (.store c.store)

namespace Opened

variable {file : Text}

theorem failed (settles : Settles t u) (trouble : CacheTrouble) : Opened t file (.error trouble, u) :=
  ⟨settles, nofun⟩

theorem memory (settles : Settles t u) {c : Connection} (none : c.file? = none) :
    Opened t file (.ok c, u) := by
  refine ⟨settles, fun c' f same kept => ?_⟩
  cases same
  rw [none] at kept
  cases kept

end Opened

theorem connect_opened (t : FileTree) (file : Text) (ps : List Parameter) (access : StoreAccess) :
    Opened t file (t.run (connect files file ps access)) := by
  cases access with
  | memory =>
    simp only [connect, reach, run_bind, run_pure]
    split
    · exact .failed (.refl t) _
    · split
      · exact .failed (.refl t) _
      · split
        · exact .failed (.refl t) _
        · split <;> exact .memory (.refl t) rfl
  | file =>
    simp only [connect, reach, run_bind, run_openStore]
    rcases opened : t.openStore file with ⟨_ | f, u⟩
    · have settles := openStore_settles t file
      rw [opened] at settles
      exact .failed settles _
    · have settles := openStore_settles t file
      rw [opened] at settles
      obtain ⟨place, found, content⟩ := openStore_found opened
      dsimp only
      split
      · exact .failed settles _
      · split
        · exact .failed settles _
        next settings _ store began =>
          rcases content with ⟨s, content, there⟩ | content | ⟨content, text, there, short⟩
          · simp only [Settings.begin, content] at began
            cases began
            simp only [content, reduceCtorEq, if_false]
            refine ⟨settles, fun c f same kept => ?_⟩
            cases same
            cases kept
            exact ⟨rfl, place, found, there⟩
          · simp only [Settings.begin, content] at began
            cases began
          · have empty : store = {} := by
              simp only [Settings.begin, content] at began
              split at began
              · cases began
              · split at began <;> cases began
                rfl
            subst empty
            simp only [content, if_true]
            rw [run_bind, save_found rfl found (by simp [there])]
            refine ⟨settles.trans (.turn there short), fun c f same kept => ?_⟩
            cases same
            cases kept
            exact ⟨rfl, place, (Settles.turn there short).place? found, node?_put⟩

/-- Opening a store, with the directories that it lies in. -/
theorem openStore_opened (t : FileTree) (path : Text) :
    Opened t (StorePath.ofText path).file (t.run (openStore files path)) := by
  have settles := makeAll_settles t (Path.ancestors (Path.directory path)).reverse
  simp only [openStore, run_bind, run_makeDirectories, makeDirectories]
  split
  · exact .failed settles _
  · split
    · exact .failed settles _
    next ps _ =>
      split
      · exact .failed settles _
      next access _ =>
        have opened := connect_opened (t.makeAll (Path.ancestors (Path.directory path)).reverse).2
          (StorePath.ofText path).file ps access
        exact ⟨settles.trans opened.settles, opened.kept⟩

theorem openStore_result (t : FileTree) (path : Text) :
    ∃ result u, t.run (openStore files path) = (result, u) ∧
      Opened t (StorePath.ofText path).file (result, u) :=
  ⟨_, _, rfl, openStore_opened t path⟩

/-- Opening the log adds at most an empty file. -/
theorem openLog_settles (t : FileTree) (settings : Manifest) (verbosity : Int64) :
    Settles t (t.run (openLog files settings verbosity)).2 := by
  unfold openLog
  dsimp only
  split
  · exact .refl t
  · simp only [run_bind, run_read]
    split
    · exact .refl t
    next missing =>
      exact write_settles missing rfl []
    · exact .refl t

end CommandLine
end ScriptEngine
