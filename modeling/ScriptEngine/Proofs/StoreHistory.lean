import Mathlib.Data.List.Nodup
import ScriptEngine.BlockStore
import ScriptEngine.Proofs.Reencoding

/-! A store as a map from hashes to blocks. A history of requests to a store that
was empty at first tells which block was last stored under each hash; the store
holds the encoded forms of exactly those blocks, and gives them back. -/
namespace ScriptEngine.BlockStore

/-! ### Requests and their history -/

/-- A request to a store. -/
inductive Request where
  | put (now : Int) (block : CodeBlock)
  | load (now : Int) (data : Text)
  | get (hash : Text)
  | raw (hash : Text)
  | list
  | delete (hash : Text)

/-- What a store answers. -/
inductive Answer where
  | stored (hash : Text)
  | loaded (block : CodeBlock) (hash : Text)
  | block (block : CodeBlock)
  | data (data : Text)
  | entries (entries : List StoredBlock)
  | deleted
  | failed (error : StoreError)

/-- The store after a request, and its answer. -/
def respond (s : BlockStore) : Request → BlockStore × Answer
  | .put now block =>
    match s.put now block with
    | .ok (s', hash) => (s', .stored hash)
    | .error e => (s, .failed e)
  | .load now data =>
    match s.load now data with
    | .ok (s', block, hash) => (s', .loaded block hash)
    | .error e => (s, .failed e)
  | .get hash =>
    match s.get hash with
    | .ok block => (s, .block block)
    | .error e => (s, .failed e)
  | .raw hash =>
    match s.raw hash with
    | .ok data => (s, .data data)
    | .error e => (s, .failed e)
  | .list =>
    match s.list with
    | .ok entries => (s, .entries entries)
    | .error e => (s, .failed e)
  | .delete hash =>
    match s.delete hash with
    | .ok s' => (s', .deleted)
    | .error e => (s, .failed e)

/-- A request with its answer. -/
abbrev Exchange := Request × Answer

/-- Stores that start empty, with the exchanges so far, the latest first. -/
inductive History : List Exchange → BlockStore → Prop
  | start : History [] {}
  | next {past : List Exchange} {s : BlockStore} (request : Request) (before : History past s) :
      History ((request, (s.respond request).2) :: past) (s.respond request).1

/-- The block that an exchange stored, and its hash. -/
def Exchange.stored? : Exchange → Option (CodeBlock × Text)
  | (.put _ block, .stored hash) => some (block, hash)
  | (.load _ _, .loaded block hash) => some (block, hash)
  | _ => none

/-- The hash that an exchange was to delete. -/
def Exchange.deleted? : Exchange → Option Text
  | (.delete hash, _) => some hash
  | _ => none

/-- The block last stored under a hash, unless the hash was deleted since. -/
def lastStored (hash : Text) : List Exchange → Option CodeBlock
  | [] => none
  | x :: past =>
    match Exchange.stored? x with
    | some (block, stored) => if stored = hash then some block else lastStored hash past
    | none => if Exchange.deleted? x = some hash then none else lastStored hash past

/-- The hash whose entry an exchange may have changed. -/
def Exchange.hash? (x : Exchange) : Option Text :=
  match Exchange.stored? x with
  | some (_, hash) => some hash
  | none => Exchange.deleted? x

/-- Blocks that are put are checked and have an encoded form within the limits of
reading; what is loaded has a length of 64 bits. -/
def Exchange.Fit : Exchange → Prop
  | (.put _ block, .stored _) =>
    block.validate = .ok () ∧ Wire.Portable block ∧ Wire.withinLimits block = true
  | (.load _ data, _) => data.length < UInt64.size
  | _ => True

/-! ### Entries -/

/-- An entry that holds a block: its encoded form under the hash of its content.
The form decodes to a block that stands for it and has the same hash, unless it
is beyond the limits of reading. -/
structure Holds (block : CodeBlock) (entry : StoredBlock) : Prop where
  name : entry.name = block.name
  data : Wire.encode block = .ok entry.data
  key : (Wire.hash block).map Text.hex = .ok entry.hash
  decoded :
    if Wire.withinLimits block then
      ∃ b', Wire.decode entry.data = .ok b' ∧ Wire.Alike block b' ∧
        (Wire.hash b').map Text.hex = .ok entry.hash
    else Wire.decode entry.data = .error .malformed

/-- The entry for a block with the given record. -/
def entryOf (now : Int) (block : CodeBlock) (r : Wire.BlockRecord) : StoredBlock where
  hash := Text.hex (Sha256.digest r.anonymous.toCbor.encode)
  name := block.name
  data := r.toCbor.encode
  stored := now

variable {s s' : BlockStore} {now : Int} {block : CodeBlock} {r : Wire.BlockRecord} {hash : Text}

open Wire in
theorem holds_entryOf (valid : block.validate = .ok ()) (portable : Portable block)
    (written : BlockRecord.ofBlock block = .ok r)
    (readable : withinLimits block = true ∨ r.Moderate) : Holds block (entryOf now block r) where
  name := rfl
  data := encode_of_written written
  key := by
    rw [(hashed_of_written written).2]
    rfl
  decoded := by
    split
    next within =>
      rw [withinLimits, written] at within
      obtain ⟨b', decoded, alike, rewritten⟩ := decode_within valid portable written within
      refine ⟨b', decoded, alike, ?_⟩
      rw [(hashed_of_written rewritten).2, ← BlockRecord.received_anonymous,
        BlockRecord.toCbor_received, Cbor.encode_quieted]
      rfl
    next beyond =>
      have moderate := readable.resolve_left beyond
      rw [withinLimits, written] at beyond
      exact decode_deep moderate
        fun shallow => beyond ((Cbor.fits_iff (BlockRecord.plain_toCbor r) moderate.sized).mpr shallow)

/-! ### Single requests -/

theorem find?_erase (s : BlockStore) (erased hash : Text) :
    (s.erase erased).find? hash = if erased = hash then none else s.find? hash := by
  simp only [find?, erase, List.find?_filter]
  split
  next same => simp [same]
  next other =>
    congr 1
    funext entry
    grind

theorem find?_insert (s : BlockStore) (entry : StoredBlock) (hash : Text) :
    (s.insert entry).find? hash = if entry.hash = hash then some entry else s.find? hash := by
  have others := find?_erase s entry.hash hash
  simp only [find?, insert, List.find?_cons] at others ⊢
  split <;> simp_all

theorem find?_hash {entry : StoredBlock} (found : s.find? hash = some entry) : entry.hash = hash := by
  rw [find?] at found
  simpa using List.find?_some found

theorem find?_of_mem (unique : (s.blocks.map (·.hash)).Nodup) {entry : StoredBlock}
    (member : entry ∈ s.blocks) : s.find? entry.hash = some entry := by
  have found : (s.find? entry.hash).isSome := by
    rw [find?, List.find?_isSome]
    exact ⟨entry, member, decide_eq_true rfl⟩
  obtain ⟨other, found⟩ := Option.isSome_iff_exists.mp found
  rw [found, List.inj_on_of_nodup_map unique (List.mem_of_find?_eq_some found) member
    (find?_hash found)]

theorem erase_unique (unique : (s.blocks.map (·.hash)).Nodup) (erased : Text) :
    ((s.erase erased).blocks.map (·.hash)).Nodup :=
  unique.sublist (List.filter_sublist.map _)

theorem insert_unique (unique : (s.blocks.map (·.hash)).Nodup) (entry : StoredBlock) :
    ((s.insert entry).blocks.map (·.hash)).Nodup := by
  refine List.nodup_cons.mpr ⟨?_, erase_unique unique _⟩
  simp [erase]

theorem put_written (isOpen : s.isOpen = true) (written : Wire.BlockRecord.ofBlock block = .ok r)
    (now : Int) :
    s.put now block = .ok (s.insert (entryOf now block r), (entryOf now block r).hash) := by
  simp only [put, Wire.encode_of_written written, (Wire.hashed_of_written written).2, isOpen, if_true]
  rfl

theorem put_unwritten {e : Wire.Error} (unwritten : Wire.BlockRecord.ofBlock block = .error e)
    (now : Int) : s.put now block = .error (.wire e) := by
  have encoded : Wire.encode block = .error e := by
    rw [Wire.encode, unwritten]
    rfl
  rw [put, encoded]

theorem put_ok (done : s.put now block = .ok (s', hash)) :
    s.isOpen = true ∧ ∃ r, Wire.BlockRecord.ofBlock block = .ok r ∧
      s' = s.insert (entryOf now block r) ∧ hash = (entryOf now block r).hash := by
  cases written : Wire.BlockRecord.ofBlock block with
  | error e => cases (put_unwritten written now).symm.trans done
  | ok r =>
    cases isOpen : s.isOpen with
    | true =>
      obtain ⟨rfl, rfl⟩ := Prod.mk.inj (Except.ok.inj ((put_written isOpen written now).symm.trans done))
      exact ⟨rfl, r, rfl, rfl, rfl⟩
    | false =>
      simp [put, Wire.encode_of_written written, (Wire.hashed_of_written written).2, isOpen] at done

theorem load_ok {data : Text} (done : s.load now data = .ok (s', block, hash)) :
    Wire.decode data = .ok block ∧ s.put now block = .ok (s', hash) := by
  obtain ⟨b, decoded, rest⟩ := except_bind_ok.mp done
  obtain ⟨⟨s'', h⟩, stored, rest⟩ := except_bind_ok.mp rest
  cases rest
  refine ⟨?_, stored⟩
  unfold decode at decoded
  split at decoded <;> cases decoded
  assumption

theorem load_undecoded {data : Text} {e : Wire.Error} (wrong : Wire.decode data = .error e)
    (now : Int) : s.load now data = .error (.wire e) := by
  rw [load, decode, wrong]
  rfl

theorem load_decoded {data : Text} (isOpen : s.isOpen = true) (decoded : Wire.decode data = .ok block)
    (written : Wire.BlockRecord.ofBlock block = .ok r) (now : Int) :
    s.load now data = .ok (s.insert (entryOf now block r), block, (entryOf now block r).hash) := by
  rw [load, decode, decoded]
  simp only [bind, Except.bind, put_written isOpen written]
  rfl

theorem delete_found (isOpen : s.isOpen = true) {entry : StoredBlock}
    (found : s.find? hash = some entry) : s.delete hash = .ok (s.erase hash) := by
  simp only [delete, isOpen, if_true, found]

theorem delete_missing (isOpen : s.isOpen = true) (missing : s.find? hash = none) :
    s.delete hash = .error .notFound := by
  simp only [delete, isOpen, if_true, missing]

theorem delete_ok (done : s.delete hash = .ok s') : s' = s.erase hash := by
  unfold delete at done
  split at done
  · split at done <;> cases done
    rfl
  · cases done

theorem raw_found (isOpen : s.isOpen = true) {entry : StoredBlock}
    (found : s.find? hash = some entry) : s.raw hash = .ok entry.data := by
  simp only [raw, isOpen, if_true, found]

theorem raw_missing (isOpen : s.isOpen = true) (missing : s.find? hash = none) :
    s.raw hash = .error .notFound := by
  simp only [raw, isOpen, if_true, missing]

/-! ### What a store holds -/

/-- The store holds the blocks last stored, and nothing else. -/
structure Reflects (past : List Exchange) (s : BlockStore) : Prop where
  isOpen : s.isOpen = true
  unique : (s.blocks.map (·.hash)).Nodup
  held : ∀ hash, Option.Rel Holds (lastStored hash past) (s.find? hash)

variable {past : List Exchange}

/-- Storing a block replaces what its hash stood for. -/
theorem Reflects.put (reflects : Reflects past s) {x : Exchange}
    (stores : x.stored? = some (block, hash)) (done : s.put now block = .ok (s', hash))
    (holds : ∀ r, Wire.BlockRecord.ofBlock block = .ok r → Holds block (entryOf now block r)) :
    Reflects (x :: past) s' := by
  obtain ⟨-, r, written, rfl, rfl⟩ := put_ok done
  refine ⟨reflects.isOpen, insert_unique reflects.unique _, fun hash => ?_⟩
  simp only [lastStored, stores, find?_insert]
  split
  · exact .some (holds r written)
  · exact reflects.held hash

/-- An exchange that neither stored nor deleted a block leaves the last ones. -/
theorem Reflects.keep (reflects : Reflects past s) {x : Exchange} (stores : x.stored? = none)
    (deletes : x.deleted? = none) : Reflects (x :: past) s := by
  refine ⟨reflects.isOpen, reflects.unique, fun hash => ?_⟩
  simpa only [lastStored, stores, deletes, reduceCtorEq, if_false] using reflects.held hash

/-- Whether there was an entry to delete or not, there is none afterwards. -/
theorem Reflects.delete (reflects : Reflects past s) (hash : Text) :
    Reflects ((.delete hash, (s.respond (.delete hash)).2) :: past) (s.respond (.delete hash)).1 := by
  have deleted (answer : Answer) {t : BlockStore} (isOpen : t.isOpen = true)
      (unique : (t.blocks.map (·.hash)).Nodup)
      (found : ∀ other, t.find? other = if hash = other then none else s.find? other) :
      Reflects ((.delete hash, answer) :: past) t := by
    refine ⟨isOpen, unique, fun other => ?_⟩
    simp only [lastStored, Exchange.stored?, Exchange.deleted?, Option.some.injEq, found]
    split
    · exact .none
    · exact reflects.held other
  cases found : s.find? hash with
  | some entry =>
    simp only [BlockStore.respond, delete_found reflects.isOpen found]
    exact deleted _ reflects.isOpen (erase_unique reflects.unique hash) (find?_erase s hash)
  | none =>
    simp only [BlockStore.respond, delete_missing reflects.isOpen found]
    refine deleted _ reflects.isOpen reflects.unique fun other => ?_
    split
    next same => rw [← same, found]
    · rfl

/-- Every request keeps the store and the blocks last stored in step. -/
theorem Reflects.respond (reflects : Reflects past s) (request : Request)
    (fit : Exchange.Fit (request, (s.respond request).2)) :
    Reflects ((request, (s.respond request).2) :: past) (s.respond request).1 := by
  cases request with
  | put now block =>
    cases done : s.put now block with
    | error e =>
      simp only [BlockStore.respond, done]
      exact reflects.keep rfl rfl
    | ok result =>
      simp only [BlockStore.respond, done] at fit ⊢
      obtain ⟨valid, portable, within⟩ := fit
      exact reflects.put rfl done fun r written => holds_entryOf valid portable written (.inl within)
  | load now data =>
    cases done : s.load now data with
    | error e =>
      simp only [BlockStore.respond, done]
      exact reflects.keep rfl rfl
    | ok result =>
      simp only [BlockStore.respond, done] at fit ⊢
      obtain ⟨decoded, stored⟩ := load_ok done
      obtain ⟨valid, portable, r, written, moderate⟩ := Wire.decoded_written fit decoded
      refine reflects.put rfl stored fun r' written' => ?_
      obtain rfl := Except.ok.inj (written.symm.trans written')
      exact holds_entryOf valid portable written (.inr moderate)
  | get hash | raw hash | list =>
    simp only [BlockStore.respond]
    split <;> exact reflects.keep rfl rfl
  | delete hash => exact reflects.delete hash

theorem History.reflects (history : History past s) (fit : ∀ x ∈ past, Exchange.Fit x) :
    Reflects past s := by
  induction history with
  | start => exact ⟨rfl, .nil, fun _ => .none⟩
  | next request before ih =>
    obtain ⟨here, earlier⟩ := List.forall_mem_cons.mp fit
    exact (ih earlier).respond request here

/-- A store that is a faithful map of the blocks last stored. -/
structure Faithful (past : List Exchange) (s : BlockStore) : Prop where
  /-- No two entries share a hash. -/
  unique : (s.blocks.map (·.hash)).Nodup
  /-- Every entry holds the block last stored under its hash. -/
  entries : ∀ entry ∈ s.blocks, ∃ block, lastStored entry.hash past = some block ∧ Holds block entry
  /-- What can be had is what was last stored, as it was encoded then. -/
  raw : ∀ hash, match lastStored hash past with
    | some block => ∃ data, Wire.encode block = .ok data ∧ s.raw hash = .ok data
    | none => s.raw hash = .error .notFound
  /-- It is decoded to a block that stands for it, if reading admits its form. -/
  get : ∀ hash, match lastStored hash past with
    | some block =>
      if Wire.withinLimits block then ∃ b', s.get hash = .ok b' ∧ Wire.Alike block b'
      else s.get hash = .error (.wire .malformed)
    | none => s.get hash = .error .notFound
  delete : ∀ hash, match lastStored hash past with
    | some _ => ∃ s', s.delete hash = .ok s'
    | none => s.delete hash = .error .notFound
  list : ∃ entries, s.list = .ok entries ∧ entries.Perm s.blocks
  /-- Whatever has an encoded form can be put, under the hash of its content. -/
  put : ∀ now block, match Wire.encode block with
    | .ok _ => ∃ s' hash, s.put now block = .ok (s', hash) ∧
        (Wire.hash block).map Text.hex = .ok hash
    | .error e => s.put now block = .error (.wire e)
  /-- Whatever can be decoded can be loaded. -/
  load : ∀ now data, data.length < UInt64.size → match Wire.decode data with
    | .ok block => ∃ s' hash, s.load now data = .ok (s', block, hash) ∧
        (Wire.hash block).map Text.hex = .ok hash
    | .error e => s.load now data = .error (.wire e)
  /-- A request leaves the entries under all hashes but its own. -/
  others : ∀ request hash, Exchange.hash? (request, (s.respond request).2) ≠ some hash →
    (s.respond request).1.find? hash = s.find? hash
  /-- A request that fails leaves the store. -/
  unchanged : ∀ request e, (s.respond request).2 = .failed e → (s.respond request).1 = s

theorem Reflects.put_done (reflects : Reflects past s) (now : Int) (block : CodeBlock) :
    match Wire.encode block with
    | .ok _ => ∃ s' hash, s.put now block = .ok (s', hash) ∧
        (Wire.hash block).map Text.hex = .ok hash
    | .error e => s.put now block = .error (.wire e) := by
  cases written : Wire.BlockRecord.ofBlock block with
  | error e =>
    have encoded : Wire.encode block = .error e := by
      rw [Wire.encode, written]
      rfl
    simp only [encoded]
    exact put_unwritten written now
  | ok r =>
    simp only [Wire.encode_of_written written]
    refine ⟨_, _, put_written reflects.isOpen written now, ?_⟩
    rw [(Wire.hashed_of_written written).2]
    rfl

theorem Reflects.load_done (reflects : Reflects past s) (now : Int) {data : Text}
    (short : data.length < UInt64.size) :
    match Wire.decode data with
    | .ok block => ∃ s' hash, s.load now data = .ok (s', block, hash) ∧
        (Wire.hash block).map Text.hex = .ok hash
    | .error e => s.load now data = .error (.wire e) := by
  cases decoded : Wire.decode data with
  | error e => exact load_undecoded decoded now
  | ok block =>
    obtain ⟨-, -, r, written, -⟩ := Wire.decoded_written short decoded
    refine ⟨_, _, load_decoded reflects.isOpen decoded written now, ?_⟩
    rw [(Wire.hashed_of_written written).2]
    rfl

/-- A request leaves the entries under all hashes but its own. -/
theorem find?_respond (s : BlockStore) (request : Request)
    (other : Exchange.hash? (request, (s.respond request).2) ≠ some hash) :
    (s.respond request).1.find? hash = s.find? hash := by
  have inserted {now : Int} {block : CodeBlock} {s' : BlockStore} {stored : Text}
      (done : s.put now block = .ok (s', stored)) (other : some stored ≠ some hash) :
      s'.find? hash = s.find? hash := by
    obtain ⟨-, r, -, rfl, rfl⟩ := put_ok done
    rw [find?_insert, if_neg fun same => other (congrArg some same)]
  cases request with
  | put now block =>
    simp only [respond] at other ⊢
    split at other
    next done => exact inserted done other
    · rfl
  | load now data =>
    simp only [respond] at other ⊢
    split at other
    next done => exact inserted (load_ok done).2 other
    · rfl
  | get hash | raw hash | list =>
    simp only [respond]
    split <;> rfl
  | delete hash' =>
    simp only [respond] at other ⊢
    split at other
    next done =>
      rw [delete_ok done, find?_erase, if_neg fun same => other (congrArg some same)]
    · rfl

theorem respond_failed {request : Request} {e : StoreError}
    (failed : (s.respond request).2 = .failed e) : (s.respond request).1 = s := by
  cases request <;> simp only [respond] at failed ⊢ <;> split at failed <;> first | rfl | cases failed

theorem Reflects.found_or_missing (reflects : Reflects past s) (hash : Text) :
    (∃ block entry, lastStored hash past = some block ∧ s.find? hash = some entry ∧
      Holds block entry) ∨ lastStored hash past = none ∧ s.find? hash = none := by
  have held := reflects.held hash
  generalize lastStored hash past = block? at held
  generalize s.find? hash = entry? at held
  cases held with
  | some holds => exact .inl ⟨_, _, rfl, rfl, holds⟩
  | none => exact .inr ⟨rfl, rfl⟩

theorem get_found (isOpen : s.isOpen = true) {entry : StoredBlock}
    (found : s.find? hash = some entry) (holds : Holds block entry) :
    if Wire.withinLimits block then ∃ b', s.get hash = .ok b' ∧ Wire.Alike block b'
    else s.get hash = .error (.wire .malformed) := by
  have decoded := holds.decoded
  simp only [get, raw_found isOpen found, bind, Except.bind, decode]
  split at decoded
  next within =>
    obtain ⟨b', decoded, alike, -⟩ := decoded
    rw [if_pos within, decoded]
    exact ⟨b', rfl, alike⟩
  next beyond => rw [if_neg beyond, decoded]

/-- A store that was empty at first is a faithful map of what was stored in it. -/
theorem history_faithful (history : History past s) (fit : ∀ x ∈ past, Exchange.Fit x) :
    Faithful past s := by
  have reflects := history.reflects fit
  have isOpen := reflects.isOpen
  refine ⟨reflects.unique, ?_, ?_, ?_, ?_, ?_, reflects.put_done,
    fun now _ short => reflects.load_done now short, fun request _ => find?_respond s request,
    fun _ _ => respond_failed⟩
  · intro entry member
    have found := find?_of_mem reflects.unique member
    obtain ⟨block, entry', last, found', holds⟩ | ⟨-, missing⟩ :=
      reflects.found_or_missing entry.hash
    · obtain rfl := Option.some.inj (found.symm.trans found')
      exact ⟨block, last, holds⟩
    · cases found.symm.trans missing
  · intro hash
    obtain ⟨block, entry, last, found, holds⟩ | ⟨last, missing⟩ := reflects.found_or_missing hash
    · simp only [last]
      exact ⟨_, holds.data, raw_found isOpen found⟩
    · simp only [last]
      exact raw_missing isOpen missing
  · intro hash
    obtain ⟨block, entry, last, found, holds⟩ | ⟨last, missing⟩ := reflects.found_or_missing hash
    · simp only [last]
      exact get_found isOpen found holds
    · simp only [last, get, raw_missing isOpen missing]
      rfl
  · intro hash
    obtain ⟨block, entry, last, found, holds⟩ | ⟨last, missing⟩ := reflects.found_or_missing hash
    · simp only [last]
      exact ⟨_, delete_found isOpen found⟩
    · simp only [last]
      exact delete_missing isOpen missing
  · exact ⟨_, if_pos isOpen, List.mergeSort_perm _ _⟩

/-- A block with a constant that is not a number and a nested block, under a given
identity. -/
def marked (id : BlockId) : CodeBlock :=
  { id, name := utf8 "main", consts := [.real ⟨0xfff0000000000001⟩], blocks := [some { id }] }

theorem marked_portable (id : BlockId) : Wire.Portable (marked id) := by
  have name : (utf8 "main").isUtf8 = true := by decide +kernel
  have inner : Wire.Portable { id } := .block (by simp) rfl rfl (by simp)
  exact .block (by simp [Value.kind]) name rfl (by simpa using inner)

theorem History.put (history : History past s) (isOpen : s.isOpen = true)
    (written : Wire.BlockRecord.ofBlock block = .ok r) (now : Int) :
    History ((.put now block, .stored (entryOf now block r).hash) :: past)
      (s.insert (entryOf now block r)) := by
  have next := history.next (.put now block)
  simpa only [respond, put_written isOpen written] using next

theorem History.fail (history : History past s) (request : Request) {e : StoreError}
    (failed : s.respond request = (s, .failed e)) : History ((request, .failed e) :: past) s := by
  have next := history.next request
  rwa [failed] at next

/-- An unknown hash is deleted, an object is put and something is loaded that is no
block; then a block is put, and put again under another identity. -/
def markedTwice (hash : Text) : List Exchange :=
  [(.put 4 (marked (.ofBytes [2])), .stored hash), (.put 3 (marked (.ofBytes [1])), .stored hash),
    (.load 2 [0xff], .failed (.wire .malformed)),
    (.put 1 { consts := [.object 0 none] },
      .failed (.wire (.unencodable (utf8 "(anonymous)") 0 .object))),
    (.delete [1], .failed .notFound)]

theorem markedTwice_history : ∃ hash s, History (markedTwice hash) s ∧ s.blocks.length = 1 := by
  obtain ⟨r, written⟩ : ∃ r, Wire.BlockRecord.ofBlock (marked (.ofBytes [1])) = .ok r := ⟨_, rfl⟩
  obtain ⟨r', written'⟩ : ∃ r, Wire.BlockRecord.ofBlock (marked (.ofBytes [2])) = .ok r := ⟨_, rfl⟩
  have same : (entryOf 4 (marked (.ofBytes [2])) r').hash =
      (entryOf 3 (marked (.ofBytes [1])) r).hash := by
    have hashes : Wire.hash (marked (.ofBytes [2])) = Wire.hash (marked (.ofBytes [1])) := rfl
    rw [(Wire.hashed_of_written written).2, (Wire.hashed_of_written written').2] at hashes
    exact congrArg Text.hex (Except.ok.inj hashes)
  have refused := ((History.start.fail (.delete [1]) rfl).fail
    (.put 1 { consts := [.object 0 none] }) rfl).fail (.load 2 [0xff]) rfl
  have history := (refused.put rfl written 3).put rfl written' 4
  rw [same] at history
  refine ⟨_, _, history, ?_⟩
  simp [insert, erase, same]

theorem markedTwice_fit (hash : Text) : ∀ x ∈ markedTwice hash, Exchange.Fit x := by
  have within : Wire.withinLimits (marked (.ofBytes [1])) = true ∧
      Wire.withinLimits (marked (.ofBytes [2])) = true := by decide +kernel
  simp only [markedTwice, List.forall_mem_cons, List.not_mem_nil, false_imp_iff, implies_true, and_true]
  have small : ([0xff] : Text).length < UInt64.size := by decide
  exact ⟨⟨rfl, marked_portable _, within.2⟩, ⟨rfl, marked_portable _, within.1⟩, small, trivial,
    trivial⟩

theorem markedTwice_faithful :
    ∃ hash s, History (markedTwice hash) s ∧ (∀ x ∈ markedTwice hash, Exchange.Fit x) ∧
      s.blocks.length = 1 ∧ ∃ b', s.get hash = .ok b' ∧ Wire.Alike (marked (.ofBytes [2])) b' := by
  obtain ⟨hash, s, history, single⟩ := markedTwice_history
  have fit := markedTwice_fit hash
  have got := (history_faithful history fit).get hash
  have within : Wire.withinLimits (marked (.ofBytes [2])) = true := by decide +kernel
  simp only [markedTwice, lastStored, Exchange.stored?, if_true, within] at got
  exact ⟨hash, s, history, fit, single, got⟩

/-- A tower is loaded, but too deep to be got again. -/
theorem tower_loaded_unreadable :
    ∃ s block hash, load {} 0 (Wire.tower 15) = .ok (s, block, hash) ∧
      s.get hash = .error (.wire .malformed) := by
  have short : (Wire.tower 15).length < UInt64.size := by decide
  have checked : (Wire.decode (Wire.tower 15)).toOption.any (Wire.withinLimits · == false) = true := by
    decide +kernel
  obtain ⟨block, decoded, beyond⟩ := Wire.exists_ok_of_any checked
  obtain ⟨valid, portable, r, written, moderate⟩ := Wire.decoded_written short decoded
  refine ⟨_, block, _, load_decoded rfl decoded written 0, ?_⟩
  have found := find?_insert {} (entryOf 0 block r) (entryOf 0 block r).hash
  rw [if_pos rfl] at found
  have got := get_found rfl found (holds_entryOf valid portable written (.inr moderate))
  rwa [if_neg (by simpa using beyond)] at got

end ScriptEngine.BlockStore
