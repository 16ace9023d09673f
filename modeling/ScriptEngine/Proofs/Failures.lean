import ScriptEngine.Proofs.WorldChange

/-! What a failure amounts to, and that it amounts to the same while it travels:
the boundaries it crosses only add to its trace, labels only add to its text,
and a failure outside scripts becomes an exception once and for all. -/
namespace ScriptEngine

/-- What is under way when something failed: an exit for a branch, a thrown
value, or a failure outside scripts with a text. -/
inductive Raised where
  | exit (id : Int64) (target : Int) (v : Value)
  | thrown (v : Value)
  | outside (text : Text)

/-- A signal without its trace. -/
def Signal.bare : Signal → Signal
  | .thrown v _ cause => .thrown v [] cause
  | .exit id target v _ => .exit id target v []

theorem Signal.bare_annotated (s : Signal) (p : TracePoint) : (s.annotated p).bare = s.bare := by
  cases s <;> rfl

namespace World

variable {w w₁ w₂ w₃ : World}

/-- Nothing that a failure or a waiting block relies on is lost: frames keep
their registers, signals all but their trace, and exceptions their text. -/
structure Keeps (w₁ w₂ : World) : Prop where
  sizes : ∀ frame, (w₁.registers frame).size ≤ (w₂.registers frame).size
  signals : ∀ (ref : SignalRef) (s : Signal), w₁.signals[ref]? = some s →
    ∃ s', w₂.signals[ref]? = some s' ∧ s'.bare = s.bare
  errors : ∀ (ref : ObjRef) (className message : Text),
    w₁.heap[ref]? = some (.error className message) →
      w₂.heap[ref]? = some (.error className message)

namespace Keeps

theorem refl (w : World) : Keeps w w :=
  ⟨fun _ => Nat.le_refl _, fun _ s there => ⟨s, there, rfl⟩, fun _ _ _ there => there⟩

theorem trans (first : Keeps w₁ w₂) (second : Keeps w₂ w₃) : Keeps w₁ w₃ := by
  refine ⟨fun frame => Nat.le_trans (first.sizes frame) (second.sizes frame), ?_, ?_⟩
  · intro ref s there
    obtain ⟨s', there', same⟩ := first.signals ref s there
    obtain ⟨s'', there'', same'⟩ := second.signals ref s' there'
    exact ⟨s'', there'', same'.trans same⟩
  · intro ref className message there
    exact second.errors ref _ _ (first.errors ref _ _ there)

/-- Only signals and objects matter beside the frames. -/
theorem of_eq (sizes : ∀ frame, (w₁.registers frame).size ≤ (w₂.registers frame).size)
    (signals : w₂.signals = w₁.signals) (heap : w₂.heap = w₁.heap) : Keeps w₁ w₂ :=
  ⟨sizes, fun _ s there => ⟨s, signals ▸ there, rfl⟩, fun _ _ _ there => heap ▸ there⟩

end Keeps

theorem setObject_error {ref : ObjRef} {old new : Object} (there : w.heap[ref]? = some old)
    (other : ∀ className message, old ≠ .error className message) {place : ObjRef}
    {className message : Text} (found : w.heap[place]? = some (.error className message)) :
    (w.setObject ref new).heap[place]? = some (.error className message) := by
  have apart : ref ≠ place := by
    rintro rfl
    exact other _ _ (Option.some.inj (there.symm.trans found))
  simp only [setObject, Array.getElem?_setIfInBounds, if_neg apart, found]

theorem Change.keeps (change : Change w₁ w₂) : Keeps w₁ w₂ := by
  have sizes := change.size_registers
  cases change with
  | create o plain =>
    refine ⟨sizes, fun _ s there => ⟨s, there, rfl⟩, fun ref className message there => ?_⟩
    have inside := (Array.getElem?_eq_some_iff.mp there).1
    simp only [World.create, Array.getElem?_push, Nat.ne_of_lt inside, if_false, there]
  | modifyScript target f keeps =>
    rcases modifyScript_eq w₁ target f with same | ⟨o, there, same⟩
    · rw [same]
      exact .refl w₁
    · rw [same] at sizes ⊢
      exact ⟨sizes, fun _ s there => ⟨s, there, rfl⟩, fun _ _ _ found =>
        setObject_error there (by simp) found⟩
  | bindName target name slot =>
    rcases bindName_eq w₁ target name slot with same | ⟨chain, this, names, there, same⟩
    · rw [same]
      exact .refl w₁
    · rw [same] at sizes ⊢
      exact ⟨sizes, fun _ s there => ⟨s, there, rfl⟩, fun _ _ _ found =>
        setObject_error there (by simp) found⟩
  | raise s =>
    refine ⟨sizes, fun ref s there => ⟨s, ?_, rfl⟩, fun _ _ _ there => there⟩
    have inside := (Array.getElem?_eq_some_iff.mp there).1
    simp only [World.raise, Array.getElem?_push, Nat.ne_of_lt inside, if_false, there]
  | annotate f p =>
    have heap := (annotate_heap w₁ f p).1
    refine ⟨sizes, fun ref s there => ?_, fun _ _ _ found => heap ▸ found⟩
    unfold World.annotate
    split
    next target _ =>
      simp only [Array.getElem?_modify, there, Option.map_some]
      split
      · exact ⟨_, rfl, s.bare_annotated p⟩
      · exact ⟨s, rfl, rfl⟩
    · exact ⟨s, there, rfl⟩
  | setLock | newFrame | setRegister | store | report | print => exact .of_eq sizes rfl rfl

theorem Evolves.keepsFailures (evolves : Evolves w₁ w₂) : Keeps w₁ w₂ :=
  evolves.keeps (P := fun w => Keeps w₁ w) (fun change kept => kept.trans change.keeps) (.refl w₁)

theorem releaseChain_keeps (w : World) (chain : Chain) : Keeps w (w.releaseChain chain) :=
  .of_eq (fun _ => Nat.le_refl _) rfl rfl

/-- A value is what scripts see of something raised. A failure outside scripts
is seen as an exception that ends with its text. -/
def Shows (w : World) (v : Value) : Raised → Prop
  | .exit _ _ payload => v = payload
  | .thrown thrown => v = thrown
  | .outside text => ∃ ref message, v = .object ref none ∧
      w.heap[ref]? = some (.error (utf8 "NativeException") message) ∧ text <:+ message

theorem Shows.kept {v : Value} {raised : Raised} (shows : w₁.Shows v raised)
    (keeps : Keeps w₁ w₂) : w₂.Shows v raised := by
  cases raised with
  | exit | thrown => exact shows
  | outside text =>
    obtain ⟨ref, message, rfl, there, ends⟩ := shows
    exact ⟨ref, message, rfl, keeps.errors _ _ _ there, ends⟩

/-- A failure carries what was raised. -/
inductive Carries (w : World) (f : Fault) : Raised → Prop
  | exit {id : Int64} {target : Int} {v : Value} {crossed : List TracePoint}
      (found : w.signal? f = some (.exit id target v crossed)) : Carries w f (.exit id target v)
  | thrown {v : Value} {crossed : List TracePoint} {cause : Option Fault}
      (found : w.signal? f = some (.thrown v crossed cause)) : Carries w f (.thrown v)
  /-- A failure outside scripts that no script has seen yet. -/
  | plain {text : Text} (outside : f.signal? = none) (ends : text <:+ w.faultText f) :
      Carries w f (.outside text)
  /-- A failure outside scripts that has become an exception. -/
  | wrapped {text : Text} {v : Value} {crossed : List TracePoint} {cause : Option Fault}
      (found : w.signal? f = some (.thrown v crossed cause)) (shows : w.Shows v (.outside text)) :
      Carries w f (.outside text)

theorem signal?_kept {f : Fault} {s : Signal} (found : w₁.signal? f = some s) (keeps : Keeps w₁ w₂) :
    ∃ s', w₂.signal? f = some s' ∧ s'.bare = s.bare := by
  obtain ⟨ref, carried, there⟩ := Option.bind_eq_some_iff.mp found
  obtain ⟨s', there', same⟩ := keeps.signals ref s there
  exact ⟨s', Option.bind_eq_some_iff.mpr ⟨ref, carried, there'⟩, same⟩

theorem signal?_thrown_kept {f : Fault} {v : Value} {crossed : List TracePoint}
    {cause : Option Fault} (found : w₁.signal? f = some (.thrown v crossed cause))
    (keeps : Keeps w₁ w₂) : ∃ crossed, w₂.signal? f = some (.thrown v crossed cause) := by
  obtain ⟨s, found', same⟩ := signal?_kept found keeps
  cases s with
  | exit => cases same
  | thrown v' crossed' cause' =>
    cases same
    exact ⟨crossed', found'⟩

/-- The text of a failure outside scripts is its own. -/
theorem faultText_outside {f : Fault} (outside : f.signal? = none) (w₁ w₂ : World) :
    w₁.faultText f = w₂.faultText f := by
  induction f with
  | signal => cases outside
  | host => rfl
  | labelled label inner ih => rw [faultText, faultText, ih outside]

namespace Carries

variable {f : Fault} {raised : Raised}

theorem kept (carries : Carries w₁ f raised) (keeps : Keeps w₁ w₂) : Carries w₂ f raised := by
  cases carries with
  | exit found =>
    obtain ⟨s, found', same⟩ := signal?_kept found keeps
    cases s with
    | thrown => cases same
    | exit id target v crossed =>
      cases same
      exact .exit found'
  | thrown found =>
    obtain ⟨crossed, found'⟩ := signal?_thrown_kept found keeps
    exact .thrown found'
  | plain outside ends => exact .plain outside (faultText_outside outside w₁ w₂ ▸ ends)
  | wrapped found shows =>
    obtain ⟨crossed, found'⟩ := signal?_thrown_kept found keeps
    exact .wrapped found' (shows.kept keeps)

theorem labelled (carries : Carries w f raised) (label : Text) :
    Carries w (.labelled label f) raised := by
  cases carries with
  | exit found => exact .exit found
  | thrown found => exact .thrown found
  | plain outside ends =>
    refine .plain outside (ends.trans ?_)
    rw [faultText]
    exact List.suffix_append _ _
  | wrapped found shows => exact .wrapped found shows

/-- Made fit to be caught, a failure carries what it did. -/
theorem asThrown (carries : Carries w f raised) :
    Keeps w (w.asThrown f).1 ∧ Carries (w.asThrown f).1 (w.asThrown f).2 raised ∧
      (w.asThrown f).2.signal?.isSome = true := by
  refine ⟨(asThrown_evolves w f).keepsFailures, ?_⟩
  cases signal : f.signal? with
  | some ref =>
    have same : w.asThrown f = (w, f) := by simp [World.asThrown, signal]
    rw [same]
    exact ⟨carries, by rw [signal, Option.isSome_some]⟩
  | none =>
    have same : w.asThrown f = w.throwException "NativeException" (w.faultText f) (some f) := by
      simp [World.asThrown, signal]
    rw [same]
    refine ⟨?_, rfl⟩
    cases carries with
    | exit found | thrown found | wrapped found => simp [signal?, signal] at found
    | plain outside ends =>
      have found : (w.throwException "NativeException" (w.faultText f) (some f)).1.signal?
          (.signal w.signals.size) = some (.thrown (.object w.heap.size none) [] (some f)) :=
        Array.getElem?_push_size
      exact .wrapped found ⟨w.heap.size, w.faultText f, rfl, Array.getElem?_push_size, ends⟩

/-- What a failure that is fit to be caught carries is in its signal. -/
theorem signal (carries : Carries w f raised) (fit : f.signal?.isSome = true) :
    (∃ id target v crossed, raised = .exit id target v ∧
      w.signal? f = some (.exit id target v crossed)) ∨
    ∃ v crossed cause, w.signal? f = some (.thrown v crossed cause) ∧ w.Shows v raised ∧
      ∀ id target payload, raised ≠ .exit id target payload := by
  cases carries with
  | exit found => exact .inl ⟨_, _, _, _, rfl, found⟩
  | thrown found => exact .inr ⟨_, _, _, found, rfl, by simp⟩
  | plain outside => simp [outside] at fit
  | wrapped found shows => exact .inr ⟨_, _, _, found, shows, by simp⟩

end Carries

end World
end ScriptEngine
