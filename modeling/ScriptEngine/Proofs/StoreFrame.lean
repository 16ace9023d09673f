import ScriptEngine.Proofs.StoreHistory
import ScriptEngine.Proofs.TreeGrowth

/-! Stored blocks between commands. Whatever a command does, the block that the
store at a place has under a hash stays there, unless the command puts a block
with that hash, removes the hash, or writes a file over the store. -/
namespace ScriptEngine.CommandLine

open FileTree

/-- An open store at a place has a block under its hash. -/
def Stored (t : FileTree) (place : Place) (entry : StoredBlock) : Prop :=
  ∃ s, t.node? place = some (.store s) ∧ s.isOpen = true ∧ s.find? entry.hash = some entry

/-- What is stored under a hash at a place stays there. -/
structure Spares (place : Place) (hash : Text) (t u : FileTree) : Prop where
  workingDirectory : u.workingDirectory = t.workingDirectory
  stored : ∀ entry, entry.hash = hash → Stored t place entry → Stored u place entry

variable {t u v : FileTree} {place : Place} {hash : Text}

namespace Spares

theorem refl (t : FileTree) : Spares place hash t t := ⟨rfl, fun _ _ => id⟩

theorem trans (first : Spares place hash t u) (second : Spares place hash u v) :
    Spares place hash t v :=
  ⟨second.workingDirectory.trans first.workingDirectory,
    fun entry same stored => second.stored entry same (first.stored entry same stored)⟩

theorem settles (settles : Settles t u) : Spares place hash t u :=
  ⟨settles.workingDirectory, fun _ _ ⟨s, there, held⟩ => ⟨s, settles.store there, held⟩⟩

theorem put {other : Place} {node : FileNode} (apart : place ≠ other) :
    Spares place hash t (t.put other node) :=
  ⟨rfl, fun _ _ ⟨s, there, held⟩ => ⟨s, node?_put_of_ne apart there, held⟩⟩

end Spares

/-! ### Uses of an open store -/

variable {c : Connection} {file : Text}

/-- A store is put back with what it has under a hash. -/
theorem save_spares (opened : Opened t file (.ok c, u)) {s : BlockStore}
    (isOpen : s.isOpen = c.store.isOpen) (same : s.find? hash = c.store.find? hash) :
    Spares place hash u (u.run (save files c s)).2 := by
  cases kept : c.file? with
  | none =>
    rw [save, kept]
    exact .refl u
  | some f =>
    obtain ⟨rfl, home, found, there⟩ := opened.kept c f rfl kept
    rw [save_found kept found (by rw [there]; simp)]
    by_cases apart : place = home
    · subst apart
      refine ⟨rfl, ?_⟩
      rintro entry named ⟨before, here, held⟩
      refine ⟨s, node?_put, ?_⟩
      dsimp only at there
      cases there.symm.trans here
      subst named
      rwa [isOpen, same]
    · exact .put apart

theorem keep_spares (opened : Opened t file (.ok c, u)) {data : Text}
    (other : ∀ b digest, Wire.decode data = .ok b → Wire.hash b = .ok digest →
      Text.hex digest ≠ hash) :
    Spares place hash u (u.run (keep files c data)).2 := by
  simp only [keep, run_bind, run_now]
  split
  · exact .refl u
  next s block stored loaded =>
    obtain ⟨decoded, put⟩ := BlockStore.load_ok loaded
    obtain ⟨-, r, written, rfl, rfl⟩ := BlockStore.put_ok put
    split
    · exact .refl u
    · refine save_spares opened rfl ?_
      rw [BlockStore.find?_insert, if_neg]
      exact other block _ decoded (Wire.hashed_of_written written).2

theorem remove_spares (opened : Opened t file (.ok c, u)) {removed : Text} (other : removed ≠ hash) :
    Spares place hash u (u.run (remove files c removed)).2 := by
  unfold remove
  split
  · exact .refl u
  · exact .refl u
  · exact .refl u
  next s deleted _ =>
    obtain rfl := BlockStore.delete_ok deleted
    refine save_spares opened rfl ?_
    rw [BlockStore.find?_erase, if_neg other]

theorem write_spares {path content : Text} (apart : t.target? path ≠ .ok place) :
    Spares place hash t (t.run (files.write path content)).2 := by
  change Spares place hash t (attempt (·.writeNode path (.file content)) t).2
  rw [attempt]
  split
  next written =>
    obtain ⟨other, found, -, rfl⟩ := writeNode_ok written
    exact .put fun same => apart (same ▸ found)
  · exact .refl t

/-! ### Commands -/

/-- What a command puts into the store, if it gets so far: the file that it runs
while the store is in use, or the file that it is told to put. -/
def content? (settings : Manifest) (useCache : Bool) (t : FileTree) : List Text → Option Text
  | [] => none
  | name :: args =>
    if name = utf8 "run" then
      if useCache then (t.read (args.head?.getD settings.entryPath)).toOption else none
    else if name = utf8 "cache" then
      match args with
      | sub :: file :: _ =>
        if sub = utf8 "put" then ((t.run (openStore files settings.cacheFile)).2.read file).toOption
        else none
      | _ => none
    else none

/-- A command does nothing to what the store at a place has under a hash: it puts
no block with that hash, does not remove it and writes nothing over the store. -/
structure Sparing (settings : Manifest) (useCache : Bool) (words : List Text) (t : FileTree)
    (place : Place) (hash : Text) : Prop where
  puts : ∀ data b digest, content? settings useCache t words = some data →
    Wire.decode data = .ok b → Wire.hash b = .ok digest → Text.hex digest ≠ hash
  removes : ∀ more, words ≠ utf8 "cache" :: utf8 "rm" :: hash :: more
  writes : ∀ stored out more, words = utf8 "cache" :: utf8 "get" :: stored :: out :: more →
    (t.run (openStore files settings.cacheFile)).2.target? out ≠ .ok place

theorem storeCommand_spares {settings : Manifest} {useCache : Bool} {name : Text} {args : List Text}
    (sparing : Sparing settings useCache (utf8 "cache" :: name :: args) t place hash)
    (opened : t.run (openStore files settings.cacheFile) = (.ok c, u)) :
    Spares place hash u (u.run (storeCommand files c name args)).2 := by
  have opening := openStore_opened t settings.cacheFile
  rw [opened] at opening
  unfold storeCommand
  split
  next isPut =>
    split
    · exact .refl u
    next file more =>
      simp only [run_bind, run_read]
      split
      · exact .refl u
      next data read =>
        refine keep_spares opening fun b digest => sparing.puts data b digest ?_
        have other : utf8 "cache" ≠ utf8 "run" := by decide
        simp only [content?, if_neg other, isPut, if_true, opened, read]
        rfl
  · split
    next isGet =>
      split
      next stored out more =>
        split
        · exact .refl u
        · have apart := sparing.writes stored out more (by rw [isGet])
          rw [opened] at apart
          simp only [run_bind]
          split <;> exact write_spares apart
      · exact .refl u
    · split
      · split <;> exact .refl u
      · split
        next isRm =>
          split
          · exact .refl u
          next removed more =>
            exact remove_spares opening fun same => sparing.removes more (by rw [isRm, same])
        · exact .refl u

theorem loadBlock_spares {settings : Manifest} {useCache : Bool} {argument : Text}
    (other : useCache = true → ∀ data b digest, t.read argument = .ok data →
      Wire.decode data = .ok b → Wire.hash b = .ok digest → Text.hex digest ≠ hash) :
    Spares place hash t (t.run (loadBlock files settings argument useCache)).2 := by
  obtain ⟨result, u, opened, opening⟩ := openStore_result t settings.cacheFile
  have settled : Spares place hash t u := .settles opening.settles
  simp only [loadBlock, run_bind, run_read]
  split
  · split
    · exact .refl t
    · simp only [run_bind, opened]
      split
      · exact settled
      · split <;> exact settled
  next data read =>
    split
    next uses =>
      simp only [run_bind, opened]
      cases result with
      | error trouble => exact settled
      | ok c => exact settled.trans (keep_spares opening fun b digest => other uses data b digest read)
    · split <;> exact .refl t

theorem cache_spares {settings : Manifest} {useCache : Bool} {args : List Text}
    (sparing : Sparing settings useCache (utf8 "cache" :: args) t place hash) :
    Spares place hash t (t.run (cache files settings args)).2 := by
  unfold cache
  split
  · exact .refl t
  next name args =>
    obtain ⟨result, u, opened, opening⟩ := openStore_result t settings.cacheFile
    have settled : Spares place hash t u := .settles opening.settles
    simp only [run_bind, opened]
    cases result with
    | error trouble => exact settled
    | ok c =>
      have spares := storeCommand_spares sparing opened
      simp only [run_bind]
      split <;> exact settled.trans spares

theorem command_spares {settings : Manifest} {useCache : Bool} {words : List Text}
    (sparing : Sparing settings useCache words t place hash) (fuel : Nat) (env : Environment) :
    Spares place hash t (t.run (command files fuel env settings useCache words)).2 := by
  cases words with
  | nil => exact .refl t
  | cons name args =>
    rw [command]
    split
    next isRun =>
      have loaded : Spares place hash t
          (t.run (loadBlock files settings (args.head?.getD settings.entryPath) useCache)).2 := by
        refine loadBlock_spares fun uses data b digest read => sparing.puts data b digest ?_
        simp only [content?, isRun, uses, if_true, read]
        rfl
      unfold run
      dsimp only
      split
      · exact .refl t
      · simp only [run_bind]
        split <;> exact loaded
    · split
      · unfold list
        split
        · exact .refl t
        next argument more =>
          have loaded : Spares place hash t (t.run (loadBlock files settings argument false)).2 :=
            loadBlock_spares (by simp)
          simp only [run_bind]
          split <;> exact loaded
      · split
        next isCache => exact cache_spares (isCache ▸ sparing)
        · exact .refl t

/-! ### Command lines -/

theorem firstWith_still (t : FileTree) (dirs : List Text) :
    (t.run (Manifest.firstWith files dirs)).2 = t := by
  induction dirs with
  | nil => rfl
  | cons dir rest ih =>
    simp only [Manifest.firstWith, run_bind]
    split
    · rfl
    · exact ih

theorem load_still (t : FileTree) (dir : Text) : (t.run (Manifest.load files dir)).2 = t := by
  simp only [Manifest.load, run_bind, run_read]
  split
  · rfl
  · split
    · rfl
    · split <;> rfl

/-- Looking for settings changes nothing. -/
theorem findAndLoad_still (t : FileTree) (start : Text) :
    (t.run (Manifest.findAndLoad files start)).2 = t := by
  simp only [Manifest.findAndLoad, run_bind, run_workingDirectory]
  split
  · exact firstWith_still t _
  next dir _ =>
    rw [firstWith_still]
    simp only [run_bind]
    split <;> exact load_still t dir

/-- What a command line comes to: its options and its words, the settings under
which it is done, and the tree once the log is open. -/
structure Begins (args : List Text) (t : FileTree) (o : Options) (words : List Text)
    (settings : Manifest) (u : FileTree) : Prop where
  parsed : Options.parse {} args = .ok o words
  found : ∃ found, (t.run (Manifest.findAndLoad files o.config)).1 = .ok found ∧
    settings = found.getD Manifest.standard
  logged : t.run (openLog files settings
    (if 0 ≤ o.verbosity then o.verbosity else settings.verbosity)) = (.ok (), u)

theorem Begins.perform {args words : List Text} {o : Options} {settings : Manifest}
    (begins : Begins args t o words settings u) (fuel : Nat) (env : Environment) :
    t.run (perform files fuel env args) =
      u.run (command files fuel env settings (settings.cacheEnabled && !o.noCache) words) := by
  obtain ⟨found, loaded, rfl⟩ := begins.found
  have still := findAndLoad_still t o.config
  simp only [CommandLine.perform, begins.parsed, run_bind, loaded, still, begins.logged]

/-- A command line is done, or the tree is at most added to. -/
theorem perform_cases (t : FileTree) (fuel : Nat) (env : Environment) (args : List Text) :
    (∃ o words settings u, Begins args t o words settings u) ∨
      Settles t (t.run (perform files fuel env args)).2 := by
  cases parsed : Options.parse {} args with
  | help | wrong =>
    rw [perform, parsed]
    exact .inr (.refl t)
  | ok o words =>
    have still := findAndLoad_still t o.config
    simp only [perform, parsed, run_bind, still]
    cases loaded : (t.run (Manifest.findAndLoad files o.config)).1 with
    | error e => exact .inr (.refl t)
    | ok found =>
      have settles := openLog_settles t (found.getD .standard)
        (if 0 ≤ o.verbosity then o.verbosity else (found.getD .standard).verbosity)
      simp only [run_bind]
      rcases logged : t.run (openLog files (found.getD .standard)
        (if 0 ≤ o.verbosity then o.verbosity else (found.getD .standard).verbosity)) with ⟨_ | ⟨⟩, u⟩
      · rw [logged] at settles
        exact .inr settles
      · exact .inl ⟨o, words, _, u, parsed, ⟨found, loaded, rfl⟩, logged⟩

/-- What may happen between two uses of a store: others change files, but not the
store, and command lines are done, but none that touches what the store has under
a hash. -/
inductive Later (place : Place) (hash : Text) : FileTree → FileTree → Prop
  | refl (t : FileTree) : Later place hash t t
  | change {t u v : FileTree} (earlier : Later place hash t u)
      (workingDirectory : v.workingDirectory = u.workingDirectory)
      (untouched : v.node? place = u.node? place) : Later place hash t v
  | command {t u : FileTree} (earlier : Later place hash t u) (fuel : Nat) (env : Environment)
      (args : List Text)
      (sparing : ∀ o words settings v, Begins args u o words settings v →
        Sparing settings (settings.cacheEnabled && !o.noCache) words v place hash) :
      Later place hash t (u.run (perform files fuel env args)).2

theorem Begins.settles {args words : List Text} {o : Options} {settings : Manifest}
    (begins : Begins args t o words settings u) : Settles t u := by
  have settles := openLog_settles t settings
    (if 0 ≤ o.verbosity then o.verbosity else settings.verbosity)
  rwa [begins.logged] at settles

theorem Later.spares (later : Later place hash t u) : Spares place hash t u := by
  induction later with
  | refl => exact .refl _
  | change earlier workingDirectory untouched ih =>
    exact ih.trans ⟨workingDirectory, fun _ _ ⟨s, there, held⟩ => ⟨s, untouched ▸ there, held⟩⟩
  | @command u earlier fuel env args sparing ih =>
    refine ih.trans ?_
    rcases perform_cases u fuel env args with ⟨o, words, settings, v, begins⟩ | settles
    · rw [begins.perform]
      exact .trans (.settles begins.settles)
        (command_spares (sparing o words settings v begins) fuel env)
    · exact .settles settles

end ScriptEngine.CommandLine
