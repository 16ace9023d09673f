import ScriptEngine.Proofs.StoreFrame
import ScriptEngine.Proofs.StoredRuns

/-! The store of blocks does not show in what commands report. A block that is run
from a file is run the same whether it goes through the store or not; a block that
was put into the store is run and listed under its hash as from its file; and a
file that is no block leaves the store as it was. -/
namespace ScriptEngine.CommandLine

open FileTree

variable {t u v : FileTree} {settings : Manifest} {c : Connection} {file data : Text}
  {b : CodeBlock} {r : Wire.BlockRecord}

/-! ### Keeping blocks -/

theorem save_ok (opened : Opened t file (.ok c, u)) (s : BlockStore) :
    (u.run (save files c s)).1 = .ok () := by
  cases kept : c.file? with
  | none =>
    rw [save, kept]
    rfl
  | some f =>
    obtain ⟨rfl, place, found, there⟩ := opened.kept c f rfl kept
    rw [save_found kept found (by rw [there]; simp)]

theorem keep_undecoded {e : Wire.Error} (wrong : Wire.decode data = .error e) :
    u.run (keep files c data) = (.error (.store (.wire e)), u) := by
  simp only [keep, run_bind, run_now, BlockStore.load_undecoded wrong]
  rfl

theorem keep_decoded (opened : Opened t file (.ok c, u)) (changes : c.refusal? = none)
    (isOpen : c.store.isOpen = true) (decoded : Wire.decode data = .ok b)
    (written : Wire.BlockRecord.ofBlock b = .ok r) :
    u.run (keep files c data) = (.ok (b, (BlockStore.entryOf 0 b r).hash),
      (u.run (save files c (c.store.insert (BlockStore.entryOf 0 b r)))).2) := by
  simp only [keep, run_bind, run_now, BlockStore.load_decoded isOpen decoded written, changes]
  rw [save_ok opened]
  rfl

/-! ### Loading blocks -/

theorem loadBlock_plain {argument : Text} (read : t.read argument = .ok data) :
    t.run (loadBlock files settings argument false) =
      ((Wire.decode data).mapError Failure.wire, t) := by
  simp only [loadBlock, run_bind, run_read, read, Bool.false_eq_true, if_false]
  cases Wire.decode data <;> rfl

/-- The store of some settings works: it opens, and it can be changed. -/
structure Works (settings : Manifest) (t : FileTree) (c : Connection) : Prop where
  opens : (t.run (openStore files settings.cacheFile)).1 = .ok c
  changes : c.refusal? = none
  isOpen : c.store.isOpen = true

theorem Works.opened (works : Works settings t c) :
    ∃ v, t.run (openStore files settings.cacheFile) = (.ok c, v) ∧
      Opened t (StorePath.ofText settings.cacheFile).file (.ok c, v) := by
  obtain ⟨result, v, opens, opened⟩ := openStore_result t settings.cacheFile
  have ok := works.opens
  rw [opens] at ok
  cases ok
  exact ⟨v, opens, opened⟩

/-- A block of a file is loaded the same through the store. -/
theorem loadBlock_works (works : Works settings t c) {argument : Text}
    (short : ∀ data, t.read argument = .ok data → data.length < UInt64.size) (useCache : Bool) :
    ((t.run (loadBlock files settings argument useCache)).1).mapError Failure.message =
      ((t.run (loadBlock files settings argument false)).1).mapError Failure.message := by
  cases useCache with
  | false => rfl
  | true =>
    cases read : t.read argument with
    | error e => simp only [loadBlock, run_bind, run_read, read]
    | ok data =>
      obtain ⟨v, opens, opened⟩ := works.opened
      rw [loadBlock_plain read]
      simp only [loadBlock, run_bind, run_read, read, opens, if_true]
      cases decoded : Wire.decode data with
      | error e =>
        rw [keep_undecoded decoded]
        rfl
      | ok b =>
        obtain ⟨-, -, r, written, -⟩ := Wire.decoded_written (short data read) decoded
        rw [keep_decoded opened works.changes works.isOpen decoded written]
        rfl

/-- A block is found under its hash in a store that is kept in a file. -/
theorem loadBlock_stored (works : Works settings t c) (kept : c.file? ≠ none) {place : Place}
    {entry : StoredBlock} (found : u.place? (StorePath.ofText settings.cacheFile).file = .ok place)
    (same : t.workingDirectory = u.workingDirectory) (stored : Stored t place entry)
    (holds : BlockStore.Holds b entry) {e : FileError} (missing : t.read entry.hash = .error e)
    (trouble : e.trouble = .notFound) (useCache : Bool) :
    if Wire.withinLimits b then
      ∃ b', (t.run (loadBlock files settings entry.hash useCache)).1 = .ok b' ∧ Wire.Alike b b'
    else (t.run (loadBlock files settings entry.hash useCache)).1 =
      .error (.store (.wire .malformed)) := by
  obtain ⟨v, opens, opened⟩ := works.opened
  obtain ⟨f, kept⟩ := Option.ne_none_iff_exists'.mp kept
  obtain ⟨rfl, place', found', there⟩ := opened.kept c f rfl kept
  -- the store that was opened is the one at the place
  obtain rfl := place?_unique found found' (opened.settles.workingDirectory.trans same)
  obtain ⟨s, before, isOpen, entered⟩ := stored
  cases there.symm.trans (opened.settles.store before)
  have got := BlockStore.get_found isOpen entered holds
  simp only [loadBlock, run_bind, run_read, missing, trouble, ne_eq, not_true, if_false, opens]
  split at got
  next within =>
    obtain ⟨b', got, alike⟩ := got
    rw [if_pos within, got]
    exact ⟨b', rfl, alike⟩
  next beyond =>
    rw [if_neg beyond, got]
    rfl

/-! ### Files that are no blocks -/

/-- A blank file is no block. -/
theorem decode_blank (blank : data.length ≤ 1) : Wire.decode data ≠ .ok b := by
  have none : (Wire.decode data).toOption = none := by
    obtain _ | ⟨c, _ | ⟨_, _⟩⟩ := data
    · decide +kernel
    · have checked : ∀ n < UInt8.size, (Wire.decode [UInt8.ofNat n]).toOption = none := by
        decide +kernel
      have decoded := checked c.toNat c.toNat_lt
      rwa [UInt8.ofNat_toNat] at decoded
    · simp at blank
  intro decoded
  rw [decoded] at none
  cases none

/-- The file of an empty store is no block. -/
theorem decode_toFile : Wire.decode (BlockStore.toFile {}) = .error .malformed := rfl

/-- A file that is no block is not loaded, and stored blocks stay as they are. -/
theorem loadBlock_undecoded {argument : Text} {e : Wire.Error} (read : t.read argument = .ok data)
    (wrong : Wire.decode data = .error e) (useCache : Bool) :
    ∃ failure u, t.run (loadBlock files settings argument useCache) = (.error failure, u) ∧
      Settles t u := by
  cases useCache with
  | false =>
    rw [loadBlock_plain read, wrong]
    exact ⟨_, t, rfl, .refl t⟩
  | true =>
    obtain ⟨trouble | c, u, opens, opened⟩ := openStore_result t settings.cacheFile <;>
      simp only [loadBlock, run_bind, run_read, read, if_true, opens]
    · exact ⟨_, u, rfl, opened.settles⟩
    · rw [keep_undecoded wrong]
      exact ⟨_, u, rfl, opened.settles⟩

/-- Putting a file that is no block fails, and stored blocks stay as they are. -/
theorem put_undecoded {e : Wire.Error} (read : t.read file = .ok data)
    (wrong : Wire.decode data = .error e) (more : List Text) :
    ∃ message u, t.run (cache files settings (utf8 "put" :: file :: more)) = (failing message, u) ∧
      Settles t u := by
  obtain ⟨trouble | c, u, opens, opened⟩ := openStore_result t settings.cacheFile <;>
    simp only [cache, run_bind, opens]
  · exact ⟨_, u, rfl, opened.settles⟩
  · obtain ⟨data', read', e', wrong'⟩ : ∃ data', u.read file = .ok data' ∧
        ∃ e, Wire.decode data' = .error e := by
      rcases opened.settles.read read with read | ⟨-, read⟩
      · exact ⟨data, read, e, wrong⟩
      · exact ⟨_, read, _, decode_toFile⟩
    simp only [storeCommand, if_true, run_bind, run_read, read', keep_undecoded wrong']
    exact ⟨_, u, rfl, opened.settles⟩

/-! ### Putting blocks -/

/-- A block is put under its hash into a store that is kept in a file. -/
theorem put_decoded (works : Works settings t c) (kept : c.file? ≠ none)
    (read : t.read file = .ok data) (decoded : Wire.decode data = .ok b)
    (written : Wire.BlockRecord.ofBlock b = .ok r) (more : List Text) :
    ∃ u place, t.run (cache files settings (utf8 "put" :: file :: more)) =
        ({ output := line (BlockStore.entryOf 0 b r).hash }, u) ∧
      u.place? (StorePath.ofText settings.cacheFile).file = .ok place ∧
      Stored u place (BlockStore.entryOf 0 b r) := by
  obtain ⟨v, opens, opened⟩ := works.opened
  obtain ⟨f, kept⟩ := Option.ne_none_iff_exists'.mp kept
  obtain ⟨rfl, place, found, there⟩ := opened.kept c f rfl kept
  have plain : v.node? place ≠ some .directory := by
    dsimp only at there
    simp [there]
  have read' : v.read file = .ok data := by
    rcases opened.settles.read read with read | ⟨blank, -⟩
    · exact read
    · exact absurd decoded (decode_blank blank)
  have saved := save_found kept found plain (c.store.insert (BlockStore.entryOf 0 b r))
  simp only [cache, storeCommand, if_true, run_bind, opens, run_read, read',
    keep_decoded opened works.changes works.isOpen decoded written, saved]
  refine ⟨_, place, rfl, place?_put plain found, _, node?_put, works.isOpen, ?_⟩
  rw [BlockStore.find?_insert, if_pos rfl]

/-! ### Reports -/

/-- What a command reports of a block that it loads: how it runs, or else its
listing. -/
def shown (fuel : Nat) (env : Environment) (settings : Manifest) (name : Text) :
    Except Failure CodeBlock → Report
  | .ok b =>
    if name = utf8 "run" then runBlock fuel settings.config env b
    else { output := line (b.listing ({} : World).face) }
  | .error e => failing ((if name = utf8 "run" then [] else utf8 "dis: ") ++ e.message)

theorem shown_congr {fuel : Nat} {env : Environment} {name : Text}
    {result result' : Except Failure CodeBlock}
    (same : result.mapError Failure.message = result'.mapError Failure.message) :
    shown fuel env settings name result = shown fuel env settings name result' := by
  rcases result with e | b <;> rcases result' with e' | b'
  · have message : e.message = e'.message := Except.error.inj same
    rw [shown, shown, message]
  · cases same
  · cases same
  · cases same
    rfl

theorem shown_alike (numeric : Wire.Numeric b) {b' : CodeBlock} (alike : Wire.Alike b b') (fuel : Nat)
    (env : Environment) (settings : Manifest) (name : Text) :
    shown fuel env settings name (.ok b') = shown fuel env settings name (.ok b) := by
  simp only [shown, runBlock_alike numeric alike, listing_alike numeric alike]

theorem run_shows {fuel : Nat} {env : Environment} {useCache : Bool} {args : List Text}
    (some : args.head?.getD settings.entryPath ≠ []) :
    t.run (run files fuel env settings useCache args) =
      (t.run (loadBlock files settings (args.head?.getD settings.entryPath) useCache)).map
        (shown fuel env settings (utf8 "run")) id := by
  simp only [run, if_neg some, run_bind]
  rcases t.run (loadBlock files settings (args.head?.getD settings.entryPath) useCache)
    with ⟨_ | _, u⟩ <;> rfl

theorem list_shows (fuel : Nat) (env : Environment) (argument : Text) (more : List Text) :
    t.run (list files settings (argument :: more)) =
      (t.run (loadBlock files settings argument false)).map
        (shown fuel env settings (utf8 "dis")) id := by
  have other : utf8 "dis" ≠ utf8 "run" := by decide
  simp only [list, run_bind]
  rcases t.run (loadBlock files settings argument false) with ⟨_ | _, u⟩ <;>
    simp [shown, if_neg other]

theorem command_shows {fuel : Nat} {env : Environment} {useCache : Bool} {name argument : Text}
    (known : name = utf8 "run" ∨ name = utf8 "dis") (some : argument ≠ []) (more : List Text) :
    t.run (command files fuel env settings useCache (name :: argument :: more)) =
      (t.run (loadBlock files settings argument (useCache && name = utf8 "run"))).map
        (shown fuel env settings name) id := by
  have other : utf8 "dis" ≠ utf8 "run" := by decide
  rcases known with rfl | rfl
  · rw [command, if_pos rfl, run_shows (by exact some)]
    simp
  · rw [command, if_neg other, if_pos rfl, list_shows fuel env]
    simp [other]

/-! ### Transparency -/

theorem ne_nil_of_read (read : t.read file = .ok data) : file ≠ [] := by
  rintro rfl
  cases read

theorem hex_digest_ne_nil (t : Text) : Text.hex (Sha256.digest t) ≠ [] := by
  simp [Text.hex, Sha256.digest, Sha256.State.bytes, Text.hexByte, Cbor.bigEndian]

theorem command_cache (fuel : Nat) (env : Environment) (settings : Manifest) (useCache : Bool)
    (args : List Text) :
    command files fuel env settings useCache (utf8 "cache" :: args) = cache files settings args := by
  have other : utf8 "cache" ≠ utf8 "run" ∧ utf8 "cache" ≠ utf8 "dis" := by decide
  rw [command, if_neg other.1, if_neg other.2, if_pos rfl]

/-- Whether the store is bypassed matters only once the command is done. -/
theorem Begins.bypass {args args' words words' : List Text} {o : Options} {noCache : Bool}
    (begins : Begins args t o words settings u)
    (parsed : Options.parse {} args' = .ok { o with noCache } words') :
    Begins args' t { o with noCache } words' settings u :=
  ⟨parsed, begins.found, begins.logged⟩

/-- A block is run the same with the store and without it. -/
theorem run_bypassed {args : List Text} (works : Works settings t c)
    (short : ∀ data, t.read (args.head?.getD settings.entryPath) = .ok data →
      data.length < UInt64.size)
    (fuel : Nat) (env : Environment) (useCache : Bool) :
    (t.run (run files fuel env settings useCache args)).1 =
      (t.run (run files fuel env settings false args)).1 := by
  by_cases none : args.head?.getD settings.entryPath = []
  · simp only [run, if_pos none]
  · rw [run_shows none, run_shows none]
    exact shown_congr (loadBlock_works works short useCache)

/-- A block that a file holds and that was put into a store is run and listed
under its hash, where no file has that name, as it is from the file. If its encoded
form is beyond the limits of reading, its hash is known and the form is refused. -/
def Recalls (path hash file data : Text) (b : CodeBlock) (t : FileTree) : Prop :=
  ∀ (fuel : Nat) (env : Environment) (byHash byFile more more' : List Text) (name : Text)
    (o : Options) (noCache : Bool) (settings : Manifest) (u : FileTree) (c : Connection)
    (e : FileError),
    name = utf8 "run" ∨ name = utf8 "dis" →
    Begins byHash t o (name :: hash :: more) settings u →
    Options.parse {} byFile = .ok { o with noCache } (name :: file :: more') →
    settings.cacheFile = path → Works settings u c → c.file? ≠ none →
    u.read file = .ok data → u.read hash = .error e → e.trouble = .notFound →
    (t.run (perform files fuel env byFile)).1 = shown fuel env settings name (.ok b) ∧
    (t.run (perform files fuel env byHash)).1 =
      if Wire.withinLimits b then (t.run (perform files fuel env byFile)).1
      else shown fuel env settings name (.error (.store (.wire .malformed)))

theorem recalls_stored {path : Text} {place : Place} {entry : StoredBlock}
    (found : u.place? (StorePath.ofText path).file = .ok place)
    (same : t.workingDirectory = u.workingDirectory) (stored : Stored t place entry)
    (holds : BlockStore.Holds b entry) (some : entry.hash ≠ []) (short : data.length < UInt64.size)
    (decoded : Wire.decode data = .ok b) (numeric : Wire.Numeric b) :
    Recalls path entry.hash file data b t := by
  intro fuel env byHash byFile more more' name o noCache settings v c e known begins parsed shared works
    kept read missing trouble
  subst shared
  have settles := begins.settles
  have fromFile : (t.run (perform files fuel env byFile)).1 = shown fuel env settings name (.ok b) := by
    have small (data' : Text) (read' : v.read file = .ok data') : data'.length < UInt64.size := by
      cases read.symm.trans read'
      exact short
    have loaded := loadBlock_works works small
      (settings.cacheEnabled && !noCache && decide (name = utf8 "run"))
    rw [loadBlock_plain read, decoded] at loaded
    rw [(begins.bypass parsed).perform, command_shows known (ne_nil_of_read read)]
    exact shown_congr loaded
  refine ⟨fromFile, ?_⟩
  rw [fromFile, begins.perform, command_shows known some]
  have stored := (Spares.settles settles).stored entry rfl stored
  have loaded := loadBlock_stored works kept found (settles.workingDirectory.trans same) stored holds
    missing trouble (settings.cacheEnabled && !o.noCache && decide (name = utf8 "run"))
  split at loaded
  next within =>
    obtain ⟨b', loaded, alike⟩ := loaded
    rw [if_pos within, Prod.map_fst, loaded, shown_alike numeric alike]
  next beyond => rw [if_neg beyond, Prod.map_fst, loaded]

/-- Commands that load a file: running it, or putting it into the store. -/
inductive Loads (settings : Manifest) (file : Text) : List Text → Prop
  | run {args : List Text} (named : args.head?.getD settings.entryPath = file) :
      Loads settings file (utf8 "run" :: args)
  | put (more : List Text) : Loads settings file (utf8 "cache" :: utf8 "put" :: file :: more)

theorem Loads.undecoded {words : List Text} (loads : Loads settings file words) {e : Wire.Error}
    (read : t.read file = .ok data) (wrong : Wire.decode data = .error e) (fuel : Nat)
    (env : Environment) (useCache : Bool) :
    ∃ message u, t.run (command files fuel env settings useCache words) = (failing message, u) ∧
      Settles t u := by
  cases loads with
  | run named =>
    subst named
    obtain ⟨failure, u, loaded, settles⟩ := loadBlock_undecoded read wrong useCache
    rw [command, if_pos rfl, run_shows (ne_nil_of_read read), loaded]
    exact ⟨_, u, rfl, settles⟩
  | put more =>
    rw [command_cache]
    exact put_undecoded read wrong more

/-- The store does not show in what command lines report. -/
structure Transparent (fuel : Nat) (env : Environment) : Prop where
  /-- With a store that works a block is run as without it, whatever is in the store. -/
  bypassed : ∀ {args bypass words : List Text} {t u : FileTree} {o : Options} {settings : Manifest}
    {c : Connection}, Begins args t o (utf8 "run" :: words) settings u →
    Options.parse {} bypass = .ok { o with noCache := true } (utf8 "run" :: words) →
    Works settings u c →
    (∀ data, u.read (words.head?.getD settings.entryPath) = .ok data → data.length < UInt64.size) →
    (t.run (perform files fuel env args)).1 = (t.run (perform files fuel env bypass)).1
  /-- A block without a constant that is not a number can be put into a store that
  works. Its hash is printed and recalls the block from then on, as long as nothing
  touches what the store has under it. -/
  stored : ∀ {args more : List Text} {t u : FileTree} {o : Options} {settings : Manifest}
    {c : Connection} {file data : Text} {b : CodeBlock},
    Begins args t o (utf8 "cache" :: utf8 "put" :: file :: more) settings u →
    Works settings u c → c.file? ≠ none → u.read file = .ok data → data.length < UInt64.size →
    Wire.decode data = .ok b → Wire.Numeric b →
    ∃ hash place t', t.run (perform files fuel env args) = ({ output := line hash }, t') ∧
      (Wire.hash b).map Text.hex = .ok hash ∧
      t'.place? (StorePath.ofText settings.cacheFile).file = .ok place ∧
      ∀ v, Later place hash t' v → Recalls settings.cacheFile hash file data b v
  /-- A file that is no block is neither run nor put, and all stores keep their blocks. -/
  refused : ∀ {args words : List Text} {t u : FileTree} {o : Options} {settings : Manifest}
    {file data : Text} {e : Wire.Error}, Begins args t o words settings u →
    Loads settings file words → u.read file = .ok data → Wire.decode data = .error e →
    ∃ message t', t.run (perform files fuel env args) = (failing message, t') ∧
      ∀ place, t'.blocksAt place = t.blocksAt place

theorem store_transparent (fuel : Nat) (env : Environment) : Transparent fuel env where
  bypassed begins parsed works short := by
    rw [begins.perform, (begins.bypass parsed).perform, command, if_pos rfl, command, if_pos rfl,
      run_bypassed works short, Bool.not_true, Bool.and_false]
  stored begins works kept read short decoded numeric := by
    obtain ⟨valid, portable, r, written, moderate⟩ := Wire.decoded_written short decoded
    have holds : BlockStore.Holds _ (BlockStore.entryOf 0 _ r) :=
      BlockStore.holds_entryOf valid portable written (.inr moderate)
    obtain ⟨t', place, put, found, stored⟩ := put_decoded works kept read decoded written _
    refine ⟨_, place, t', ?_, holds.key, found, fun v later => ?_⟩
    · rw [begins.perform, command_cache, put]
    · have spares := later.spares
      exact recalls_stored found spares.workingDirectory (spares.stored _ rfl stored) holds
        (hex_digest_ne_nil _) short decoded numeric
  refused begins loads read wrong := by
    obtain ⟨message, t', ran, settles⟩ := loads.undecoded read wrong fuel env _
    refine ⟨message, t', ?_, (begins.settles.trans settles).blocksAt_eq⟩
    rw [begins.perform, ran]

/-! ### A shelf -/

/-- A block that returns a text. -/
def greeting : CodeBlock :=
  { code? := some #[2, 0, 0, 33, 0], consts := [.string (utf8 "hi")], registers := 1 }

/-- The encoded form of the block. -/
def greetingData : Text := (Wire.encode greeting).toOption.getD []

/-- Settings that turn the store on, a block, a tower, and a file that is no block. -/
def shelf : FileTree where
  entries := [([Manifest.fileName], .file (utf8 "[cache]\nenabled = true\n")),
    ([utf8 "block"], .file greetingData), ([utf8 "tower"], .file (Wire.tower 15)),
    ([utf8 "other"], .file [0xff])]

def shelfSettings : Manifest := { Manifest.standard with cacheEnabled := true, dir := utf8 "/" }

/-- The shelf once the block of a file was put into the store, and what was printed. -/
def shelved (file : Text) : Report × FileTree :=
  shelf.run (perform files 9 [] [utf8 "cache", utf8 "put", file])

/-- Whether there is no file of a name. -/
def lacks (t : FileTree) (file : Text) : Bool :=
  match t.read file with
  | .ok _ => false
  | .error e => e.trouble = .notFound

/-- Whether a tree has the settings of the shelf, its block and a store that works. -/
def ready (t : FileTree) : Bool :=
  (t.run (Manifest.findAndLoad files (utf8 "."))).1.toOption = some (some shelfSettings) &&
  (t.read (utf8 "block")).toOption = some greetingData &&
  (t.run (openStore files shelfSettings.cacheFile)).1.toOption.any fun c =>
    c.refusal? = none && c.store.isOpen && c.file?.isSome

theorem eq_ok_of_toOption {ε α : Type} {result : Except ε α} {a : α}
    (found : result.toOption = some a) : result = .ok a := by
  cases result with
  | error e => cases found
  | ok a' => exact congrArg _ (Option.some.inj found)

theorem of_ready (checked : ready t = true) :
    (∀ words, Options.parse {} words = .ok {} words → Begins words t {} words shelfSettings t) ∧
      t.read (utf8 "block") = .ok greetingData ∧ ∃ c, Works shelfSettings t c ∧ c.file? ≠ none := by
  simp only [ready, Bool.and_eq_true, decide_eq_true_eq] at checked
  obtain ⟨⟨found, read⟩, store⟩ := checked
  obtain ⟨c, opens, sound⟩ := Wire.exists_ok_of_any store
  simp only [Bool.and_eq_true, decide_eq_true_eq] at sound
  exact ⟨fun words plain => ⟨plain, ⟨_, eq_ok_of_toOption found, rfl⟩, rfl⟩, eq_ok_of_toOption read,
    c, ⟨opens, sound.1.1, sound.1.2⟩, Option.isSome_iff_ne_none.mp sound.2⟩

theorem missing_of_lacks (checked : lacks t file = true) :
    ∃ e, t.read file = .error e ∧ e.trouble = .notFound := by
  unfold lacks at checked
  split at checked
  · cases checked
  next e missing => exact ⟨e, missing, of_decide_eq_true checked⟩

theorem decode_greeting :
    ∃ b, Wire.decode greetingData = .ok b ∧ Wire.Numeric b ∧ Wire.withinLimits b = true := by
  have checked : (Wire.decode greetingData).toOption.any
      (fun b => b.consts = [.string (utf8 "hi")] && b.blocks.isEmpty && Wire.withinLimits b) = true := by
    decide +kernel
  obtain ⟨⟨data, blocks⟩, decoded, sound⟩ := Wire.exists_ok_of_any checked
  simp only [Bool.and_eq_true, decide_eq_true_eq] at sound
  obtain ⟨⟨consts, empty⟩, within⟩ := sound
  obtain rfl := List.isEmpty_iff.mp empty
  refine ⟨_, decoded, .block (fun x real => ?_) nofun, within⟩
  rw [show data.consts = _ from consts] at real
  simp at real

/-- The block on the shelf is run without the store, and recalled from it; the file
that is no block is refused. -/
theorem shelf_transparent :
    (shelf.run (perform files 9 [] [utf8 "-no-cache", utf8 "run", utf8 "block"])).1 =
      { output := line (utf8 "hi") } ∧
    (∃ hash t', shelved (utf8 "block") = ({ output := line hash }, t') ∧
      ∀ name, name = utf8 "run" ∨ name = utf8 "dis" →
        (t'.run (perform files 9 [] [name, hash])).1 =
          (t'.run (perform files 9 [] [name, utf8 "block"])).1) ∧
    ∃ message t', shelved (utf8 "other") = (failing message, t') ∧
      ∀ place, t'.blocksAt place = shelf.blocksAt place := by
  have transparent := store_transparent 9 []
  have checked : ready shelf = true := by decide +kernel
  obtain ⟨begins, read, c, works, kept⟩ := of_ready checked
  have short : greetingData.length < UInt64.size := by decide +kernel
  obtain ⟨b, decoded, numeric, within⟩ := decode_greeting
  refine ⟨?_, ?_, ?_⟩
  · have plain : Options.parse {} [utf8 "run", utf8 "block"] = .ok {} [utf8 "run", utf8 "block"] := rfl
    have bypass : Options.parse {} [utf8 "-no-cache", utf8 "run", utf8 "block"] =
        .ok { noCache := true } [utf8 "run", utf8 "block"] := by decide +kernel
    have small (data : Text) (read' : shelf.read (utf8 "block") = .ok data) :
        data.length < UInt64.size := by
      cases read.symm.trans read'
      exact short
    rw [← transparent.bypassed (begins _ plain) bypass works small]
    decide +kernel
  · have plain : Options.parse {} [utf8 "cache", utf8 "put", utf8 "block"] =
        .ok {} [utf8 "cache", utf8 "put", utf8 "block"] := rfl
    obtain ⟨hash, place, t', put, -, -, recalls⟩ :=
      transparent.stored (begins _ plain) works kept read short decoded numeric
    refine ⟨hash, t', put, fun name known => ?_⟩
    have ran : shelved (utf8 "block") = ({ output := line hash }, t') := put
    have checked : ready (shelved (utf8 "block")).2 = true ∧
        lacks (shelved (utf8 "block")).2 (shelved (utf8 "block")).1.output.dropLast = true := by
      decide +kernel
    have same : (line hash).dropLast = hash := by simp [line]
    rw [ran] at checked
    obtain ⟨begins, read, c, works, kept⟩ := of_ready checked.1
    obtain ⟨e, missing, trouble⟩ := missing_of_lacks checked.2
    have plain (argument : Text) : Options.parse {} [name, argument] = .ok {} [name, argument] := by
      rcases known with rfl | rfl <;> rfl
    have recalled := recalls t' (.refl t') 9 [] _ _ [] [] name {} false shelfSettings t' c e known
      (begins _ (plain hash)) (plain (utf8 "block")) rfl works kept read (same ▸ missing) trouble
    rw [recalled.2, if_pos within]
  · have plain : Options.parse {} [utf8 "cache", utf8 "put", utf8 "other"] =
        .ok {} [utf8 "cache", utf8 "put", utf8 "other"] := rfl
    have read : (shelf.read (utf8 "other")).toOption = some [0xff] := by decide +kernel
    exact transparent.refused (begins _ plain) (.put []) (eq_ok_of_toOption read) rfl

/-- A tower is put into the store and runs from its file, but its hash recalls
nothing that can be read. -/
theorem tower_recall_refused :
    ∃ hash t', shelved (utf8 "tower") = ({ output := line hash }, t') ∧ lacks t' hash = true ∧
      (t'.run (perform files 9 [] [utf8 "run", utf8 "tower"])).1 = {} ∧
      (t'.run (perform files 9 [] [utf8 "run", hash])).1 =
        failing (Failure.store (.wire .malformed)).message := by
  refine ⟨(shelved (utf8 "tower")).1.output.dropLast, (shelved (utf8 "tower")).2, ?_⟩
  decide +kernel

end ScriptEngine.CommandLine
