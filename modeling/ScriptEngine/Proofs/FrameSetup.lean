import ScriptEngine.CodeBlock.Builder
import ScriptEngine.Proofs.ArenaHistory
import ScriptEngine.Proofs.Reencoding

/-! The shared frames that a block gets when it begins to run. An arena without a
capacity gives every accepted block its levels and counts them, as long as each new
level has room. The check of a block says nothing about how large its levels are;
one of a negative size leaves a frame that is not counted. -/
namespace ScriptEngine

namespace Arena

variable {a b : Arena} {h : FrameHandle} {f new old : SharedFrame} {size : Int}
  {known taken chain : Chain} {layers : List Layer} {sizes : List Int} {n : Nat}

/-- Slots that wait for reuse are vacant, and the live frames are counted. -/
structure Sound (a : Arena) : Prop extends a.Tidy where
  live : a.live = a.frames.countP (·.live)

theorem Balanced.sound {ledger : List FrameHandle} (balanced : a.Balanced ledger) : a.Sound :=
  ⟨balanced.tidy, balanced.live⟩

/-! ### One level -/

theorem size_takeSlot (a : Arena) : a.takeSlot.1.frames.size ≤ a.frames.size + 1 := by
  unfold takeSlot
  split <;> simp

theorem countP_takeSlot (a : Arena) :
    a.takeSlot.1.frames.countP (·.live) = a.frames.countP (·.live) := by
  unfold takeSlot
  split <;> simp

theorem TakesSlot.dead {i : UInt32} (takes : TakesSlot a b i old) : old.live = false := by
  rcases takes.vacant with ⟨-, dead⟩ | ⟨-, rfl⟩
  · exact dead
  · rfl

/-- A taken slot may be filled: the other free slots stay vacant, and no handle that
is in use goes stale. -/
theorem TakesSlot.fill {i gen : UInt32} (takes : TakesSlot a b i old) :
    (b.setFrame ⟨i, gen⟩ new).Tidy ∧
      ∀ g, (a.frame? g).isSome = true → ((b.setFrame ⟨i, gen⟩ new).frame? g).isSome = true := by
  refine ⟨⟨takes.tidy.nodup, fun j free => ?_⟩, fun g used => ?_⟩
  · have other : i.toNat ≠ j.toNat := fun same => takes.taken (UInt32.toNat_inj.mp same ▸ free)
    rw [takes.setFrame, if_neg other, ← takes.others _ other]
    exact takes.tidy.vacant j free
  · obtain ⟨f, used⟩ := Option.isSome_iff_exists.mp used
    obtain ⟨there, live, -⟩ := frame?_eq_some.mp used
    have other : i.toNat ≠ g.index.toNat := by
      intro same
      rcases takes.vacant with ⟨vacant, dead⟩ | ⟨last, -⟩
      · rw [same, there] at vacant
        cases vacant
        rw [live] at dead
        cases dead
      · have inside := (Array.getElem?_eq_some_iff.mp there).1
        omega
    have same : (b.setFrame ⟨i, gen⟩ new).frame? g = a.frame? g :=
      frame?_congr (by rw [takes.setFrame, if_neg other])
    rw [same, used]
    rfl

/-- An arena that can take new levels: there is no capacity to exceed, some frames
are known to be live, and there are numbers for so many more slots. -/
structure Ready (a : Arena) (known : Chain) (more : Nat) : Prop where
  sound : a.Sound
  unlimited : a.capacity ≤ 0
  live : ∀ h ∈ known, (a.frame? h).isSome = true
  slots : a.frames.size + more ≤ UInt32.size

namespace Ready

theorem retain (ready : a.Ready known n) (member : h ∈ known) :
    ∃ b, a.retain? h = some b ∧ b.Ready known n := by
  obtain ⟨f, found⟩ := Option.isSome_iff_exists.mp (ready.live h member)
  obtain ⟨there, live, gen⟩ := frame?_eq_some.mp found
  have inside := (Array.getElem?_eq_some_iff.mp there).1
  refine ⟨a.setFrame h { f with refs := f.refs + 1 }, by rw [retain?, found, Option.map_some],
    ⟨⟨ready.sound.nodup, ?_⟩, ?_⟩, ready.unlimited, ?_, ?_⟩
  · intro i free
    obtain ⟨vacant, same, dead⟩ := ready.sound.vacant i free
    have other : h.index.toNat ≠ i.toNat := by
      intro here
      rw [← here, there] at same
      cases same
      rw [live] at dead
      cases dead
    exact ⟨vacant, by rw [setFrame_getElem? inside, if_neg other, same], dead⟩
  · rw [setFrame_live there, live, ← ready.sound.live]
    simp [setFrame]
  · intro g known
    have before := ready.live g known
    rw [frame?_setFrame inside]
    split
    next slot =>
      rw [frame?_of_index there slot] at before
      simpa using before
    · exact before
  · simpa [setFrame] using ready.slots

/-- A frame without room has taken its slot all the same. -/
theorem alloc (ready : a.Ready known (n + 1)) (size : Int) :
    if isRoomFor size = true then
      ∃ b h, a.alloc size = .made b h ∧ b.Ready (h :: known) n
    else
      ∃ b, a.alloc size = .broken b ∧ (b.frames.countP (·.live) : Int) = b.live + 1 := by
  have unlimited := ready.unlimited
  have grown := a.size_takeSlot
  have slots := ready.slots
  have vacancy : a.isFull = false := by
    simp only [isFull, Bool.and_eq_false_iff, decide_eq_false_iff_not]
    omega
  obtain ⟨old, takes⟩ := ready.sound.toTidy.takeSlot (by omega)
  have counted (gen : UInt32) {new : SharedFrame} (live : new.live = true) :
      ((a.takeSlot.1.setFrame ⟨a.takeSlot.2, gen⟩ new).frames.countP (·.live) : Int) =
        a.takeSlot.1.live + 1 := by
    rw [setFrame_live takes.there, takes.dead, live, countP_takeSlot, ← ready.sound.live,
      takes.live]
    simp
  cases room : isRoomFor size with
  | false =>
    simp only [Arena.alloc, vacancy, takes.there, room]
    exact ⟨_, rfl, counted _ rfl⟩
  | true =>
    simp only [Arena.alloc, vacancy, takes.there, room]
    refine ⟨_, _, rfl, ⟨⟨takes.tidy.nodup, takes.fill.1.vacant⟩, (counted _ rfl).symm⟩, ?_, ?_, ?_⟩
    · exact takes.capacity ▸ unlimited
    · refine List.forall_mem_cons.mpr ⟨?_, fun g member => takes.fill.2 g (ready.live g member)⟩
      exact Option.isSome_iff_exists.mpr
        ⟨_, frame?_eq_some.mpr ⟨by rw [takes.setFrame, if_pos rfl], rfl, rfl⟩⟩
    · simp only [setFrame, Array.size_setIfInBounds]
      omega

end Ready

/-! ### All levels -/

/-- What becomes of levels that are laid after others: all are there and counted, or
one that has no room is there and not counted. -/
inductive Laid (taken : Chain) (layers : List Layer) : Acquired Chain → Prop
  | made {b : Arena} {more : Chain}
      (fit : ∀ size ∈ layers.filterMap Layer.size?, isRoomFor size = true)
      (length : more.length = layers.length) (ready : b.Ready (taken ++ more) 0) :
      Laid taken layers (.made b (taken ++ more))
  | broken {b : Arena} {size : Int} (fresh : size ∈ layers.filterMap Layer.size?)
      (tight : isRoomFor size = false)
      (uncounted : (b.frames.countP (·.live) : Int) = b.live + 1) : Laid taken layers (.broken b)

theorem Laid.cons {layer : Layer} {acquired : Acquired Chain}
    (fits : ∀ size, layer.size? = some size → isRoomFor size = true)
    (laid : Laid (taken ++ [h]) layers acquired) : Laid taken (layer :: layers) acquired := by
  have others : ∀ size ∈ (layer :: layers).filterMap Layer.size?,
      layer.size? = some size ∨ size ∈ layers.filterMap Layer.size? := by
    simp only [List.mem_filterMap, List.mem_cons]
    rintro size ⟨other, rfl | member, same⟩
    · exact .inl same
    · exact .inr ⟨other, member, same⟩
  cases laid with
  | @made b more fit length ready =>
    have whole : Laid taken (layer :: layers) (.made b (taken ++ h :: more)) := by
      refine .made (fun size member => ?_) (by simp [length]) (by rwa [List.append_cons])
      exact (others size member).elim (fits size) (fit size)
    rwa [List.append_cons] at whole
  | broken fresh tight uncounted =>
    refine .broken ?_ tight uncounted
    obtain ⟨other, member, same⟩ := List.mem_filterMap.mp fresh
    exact List.mem_filterMap.mpr ⟨other, List.mem_cons_of_mem _ member, same⟩

/-- Levels are laid one after the other. The invariant of the induction is that all
handles taken so far and all that are still to be shared are live. -/
theorem Ready.overlayFrom (ready : a.Ready known (layers.filterMap Layer.size?).length)
    (shared : ∀ h ∈ layers.filterMap Layer.handle?, h ∈ known) (held : ∀ h ∈ taken, h ∈ known) :
    Laid taken layers (a.overlayFrom taken layers) := by
  induction layers generalizing a known taken with
  | nil =>
    have none : Laid taken [] (.made a (taken ++ [])) := by
      refine .made (by simp) rfl ⟨ready.sound, ready.unlimited, ?_, ready.slots⟩
      exact fun h member => ready.live h (held h (by simpa using member))
    rwa [List.append_nil] at none
  | cons layer rest ih =>
    cases layer with
    | shared h =>
      simp only [List.filterMap_cons, Layer.size?, Layer.handle?, List.forall_mem_cons]
        at ready shared
      obtain ⟨b, retained, ready⟩ := ready.retain shared.1
      rw [Arena.overlayFrom, retained]
      refine (ih ready shared.2 fun g member => ?_).cons (by simp [Layer.size?])
      rcases List.mem_append.mp member with before | here
      · exact held g before
      · exact List.mem_singleton.mp here ▸ shared.1
    | fresh size =>
      simp only [List.filterMap_cons, Layer.size?, Layer.handle?, List.length_cons] at ready shared
      have allocated := ready.alloc size
      rw [Arena.overlayFrom]
      split at allocated
      next room =>
        obtain ⟨b, h, made, ready⟩ := allocated
        rw [made]
        refine (ih ready (fun g member => List.mem_cons_of_mem _ (shared g member)) ?_).cons ?_
        · intro g member
          rcases List.mem_append.mp member with before | here
          · exact List.mem_cons_of_mem _ (held g before)
          · exact List.mem_singleton.mp here ▸ List.mem_cons_self
        · rintro _ ⟨⟩
          exact room
      next tight =>
        obtain ⟨b, broken, uncounted⟩ := allocated
        rw [broken]
        exact .broken (List.mem_cons_self ..) (Bool.eq_false_iff.mpr tight) uncounted

/-- The levels of a chain share its handles, and new ones have declared sizes. -/
theorem mem_layers {layer : Layer} (member : layer ∈ Arena.layers chain sizes) :
    (∃ h ∈ chain, layer = .shared h) ∨ ∃ size ∈ sizes, layer = .fresh size := by
  obtain ⟨i, inside, rfl⟩ := List.mem_map.mp member
  rw [List.mem_range] at inside
  have declared (below : i < sizes.length) : sizes.getD i 0 ∈ sizes := by
    rw [List.getD_eq_getElem?_getD, List.getElem?_eq_getElem below]
    exact List.getElem_mem below
  split
  next h there =>
    split
    next last => exact .inr ⟨_, declared (by omega), rfl⟩
    · exact .inl ⟨h, List.mem_of_getElem? there, rfl⟩
  next beyond =>
    have short := List.getElem?_eq_none_iff.mp beyond
    exact .inr ⟨_, declared (by omega), rfl⟩

theorem Ready.overlay
    (ready : a.Ready chain ((Arena.layers chain sizes).filterMap Layer.size?).length) :
    Laid [] (Arena.layers chain sizes) (a.overlay chain sizes) := by
  refine ready.overlayFrom (fun h member => ?_) (by simp)
  obtain ⟨layer, member, same⟩ := List.mem_filterMap.mp member
  rcases mem_layers member with ⟨g, inside, rfl⟩ | ⟨declared, -, rfl⟩
  · exact Option.some.inj same ▸ inside
  · cases same

end Arena

namespace CodeBlock

/-- The blocks that are found to be valid: by a check, when they are built, when they
are decoded, or inside of such a block. -/
inductive Accepted : CodeBlock → Prop
  | checked {b : CodeBlock} (valid : b.validate = .ok ()) : Accepted b
  | built {b : CodeBlock} {builder : Builder} (built : builder.build = .ok b) : Accepted b
  | decoded {b : CodeBlock} {t : Text} (decoded : Wire.decode t = .ok b) : Accepted b
  | nested {b outer : CodeBlock} (accepted : Accepted outer) (member : some b ∈ outer.blocks) :
      Accepted b

theorem Accepted.valid {b : CodeBlock} (accepted : b.Accepted) : b.validate = .ok () := by
  induction accepted with
  | checked valid => exact valid
  | built built =>
    unfold Builder.build at built
    split at built
    · cases built
    · split at built
      next checked =>
        cases built
        exact checked
      · cases built
  | decoded decoded =>
    obtain ⟨-, -, -, -, -, valid⟩ := Wire.decode_ok decoded
    exact valid
  | nested _ member valid =>
    obtain ⟨sub, same, valid⟩ := (validate_ok.mp valid).2 _ member
    cases same
    exact valid

/-- The sizes of the levels that are new when a block begins to run under a chain. -/
def newSizes (b : CodeBlock) (chain : Chain) : List Int :=
  (Arena.layers chain (b.sharedSizes.map Int64.toInt)).filterMap Arena.Layer.size?

theorem mem_newSizes {b : CodeBlock} {chain : Chain} {size : Int}
    (member : size ∈ b.newSizes chain) : ∃ declared ∈ b.sharedSizes, declared.toInt = size := by
  obtain ⟨layer, member, same⟩ := List.mem_filterMap.mp member
  rcases Arena.mem_layers member with ⟨h, -, rfl⟩ | ⟨declared, inside, rfl⟩
  · cases same
  · exact List.mem_map.mp (Option.some.inj same ▸ inside)

/-- An accepted block that begins to run under live frames, in an arena without a
capacity, gets a frame for each of its levels and each that was there, and the arena
still counts its live frames. This is so if and only if each of the new levels, whose
sizes are among the declared ones, has room; else one live frame is not counted. -/
theorem accepted_block_levels (b : CodeBlock) (accepted : b.Accepted) (a : Arena) (chain : Chain)
    (sound : a.Sound) (unlimited : a.capacity ≤ 0)
    (live : ∀ h ∈ chain, (a.frame? h).isSome = true)
    (slots : a.frames.size + (b.newSizes chain).length ≤ UInt32.size) :
    (if ∀ size ∈ b.newSizes chain, isRoomFor size = true then
      ∃ a' chain', a.overlay chain (b.sharedSizes.map Int64.toInt) = .made a' chain' ∧ a'.Sound ∧
        (chain'.length : Int) = max (chain.length : Int) b.nestLevel.toInt ∧
        ∀ h ∈ chain', (a'.frame? h).isSome = true
    else
      ∃ a', a.overlay chain (b.sharedSizes.map Int64.toInt) = .broken a' ∧
        (a'.frames.countP (·.live) : Int) = a'.live + 1) ∧
    ∀ size ∈ b.newSizes chain, ∃ declared ∈ b.sharedSizes, declared.toInt = size := by
  refine ⟨?_, fun _ => mem_newSizes⟩
  have nesting : b.nestLevel.toInt = b.sharedSizes.length :=
    (checkOwn_ok (validate_ok.mp accepted.valid).1).2.1
  have laid := Arena.Ready.overlay ⟨sound, unlimited, live, slots⟩
  generalize a.overlay chain (b.sharedSizes.map Int64.toInt) = acquired at laid
  unfold newSizes
  cases laid with
  | made fit length ready =>
    rw [if_pos fit]
    refine ⟨_, _, rfl, ready.sound, ?_, ready.live⟩
    simp only [Arena.layers, List.length_map, List.length_range] at length
    rw [List.nil_append, length, nesting]
    omega
  | broken fresh tight uncounted =>
    rw [if_neg fun fit => by rw [fit _ fresh] at tight; cases tight]
    exact ⟨_, rfl, uncounted⟩

/-- A block of three levels. -/
def layered : CodeBlock := { code? := some #[], nestLevel := 3, sharedSizes? := some [9, 0, 2] }

/-- An arena after its first frame was made. -/
def inhabited : Arena := { frames := #[⟨#[.void], 1, 1, true⟩], live := 1 }

/-- Under that frame the block gets two new levels. -/
theorem layered_levels :
    layered.newSizes [⟨0, 1⟩] = [0, 2] ∧
      ∃ a chain, inhabited.overlay [⟨0, 1⟩] [9, 0, 2] = .made a chain ∧ a.Sound ∧
        (chain.length : Int) = 3 ∧ ∀ h ∈ chain, (a.frame? h).isSome = true := by
  have start : Arena.Lives 0 ⟨{ capacity := 0 }, [], []⟩ := .new
  have lives : Arena.Lives 0 ⟨inhabited, [⟨0, 1⟩], []⟩ :=
    start.uses (.alloc 1) rfl (.of_few (by decide) (by decide) (by decide) (by decide))
  obtain ⟨ledger, balanced⟩ := lives.kept.balanced
  have levels := (accepted_block_levels layered (.checked rfl) inhabited [⟨0, 1⟩] balanced.sound
    (by decide) (by decide) (by decide)).1
  rw [if_pos (by decide)] at levels
  exact ⟨rfl, levels⟩

/-- A level of a negative size is accepted each time, and leaves a live frame that is
not counted. -/
theorem negative_level_uncounted :
    ({ code? := some #[], nestLevel := 1, sharedSizes? := some [-1] } : CodeBlock).validate =
      .ok () ∧
    (((Builder.start []).nest [-1]).build.toOption.any (·.sharedSizes = [-1]) = true) ∧
    ((Wire.decode [0xa2, 1, 1, 8, 0x81, 0x20]).toOption.any (·.sharedSizes = [-1]) = true) ∧
    ∃ a, Arena.overlay {} [] [-1] = .broken a ∧ a.live ≠ a.frames.countP (·.live) :=
  ⟨rfl, by decide +kernel, by decide +kernel, _, rfl, by decide⟩

end CodeBlock
end ScriptEngine
