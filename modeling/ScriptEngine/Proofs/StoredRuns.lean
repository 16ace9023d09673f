import ScriptEngine.CommandLine
import ScriptEngine.Proofs.FilledRuns
import ScriptEngine.Proofs.WireRoundTrip

/-! Blocks that stand for each other, as an encoded block and the one it is read
back as do, run alike and are listed alike. -/
namespace ScriptEngine

/-! ### New engines -/

namespace World

variable {w : World}

/-! In the world of a new engine there are no blocks, so that it is filled. -/

theorem create_kept {o : Object} (kept : w.filled = w) (plain : o.filled = o) :
    (w.create o).1.filled = (w.create o).1 := by
  have created := congrArg Prod.fst (create_plain w o plain)
  rw [kept] at created
  exact created.symm

theorem define_kept (kept : w.filled = w) (ref : ObjRef) (name : Text) (v : Value)
    (attr : Attribute) : (w.define ref name v attr).filled = w.define ref name v attr := by
  rw [define, ← modifyScript_filled, kept]

theorem wrapFunction_kept (kept : w.filled = w) (e : Engine) (target : Option ObjRef) :
    (e.wrapFunction w target).1.filled = (e.wrapFunction w target).1 := by
  have wrapped := congrArg Prod.fst (wrapFunction_filled w e target)
  rw [kept] at wrapped
  exact wrapped.symm

theorem bindMethod_kept (kept : w.filled = w) (e : Engine) (cls : ObjRef) (name : Text)
    (code : Option Native) (attr : Attribute) :
    (e.bindMethod w cls name code attr).filled = e.bindMethod w cls name code attr := by
  have created : (w.create (.nativeFunction name code (some cls))).1.filled = _ := create_kept kept rfl
  unfold Engine.bindMethod
  dsimp only
  split
  · exact define_kept created ..
  · exact define_kept (wrapFunction_kept created ..) ..

end World

open World

theorem Engine.start_filled (config : Config) (host : Host) :
    (Engine.start config host).2.filled = (Engine.start config host).2 := by
  have empty : ({ arena := { capacity := config.capacity } } : World).filled =
      { arena := { capacity := config.capacity } } := by simp [World.filled]
  simp only [Engine.start, bindConstant]
  refine define_kept (define_kept ?_ ..) ..
  refine bindMethod_kept (bindMethod_kept (bindMethod_kept (bindMethod_kept ?_ ..) ..) ..) ..
  exact create_kept (create_kept (create_kept empty rfl) rfl) rfl

namespace CommandLine

theorem callable_unseeing (env : Environment) : Host.Unseeing { callable := callable env } where
  compiler := rfl
  same key w c := by simp only [callable, World.textOf_filled, funext (World.textOf_filled w)]
  quiet key w c := by
    simp only [callable]
    split
    · split <;> rfl
    · split <;> rfl

theorem startEngine_filled (config : Config) (env : Environment) :
    (startEngine config env).2.filled = (startEngine config env).2 := by
  have started := Engine.start_filled config { callable := callable env }
  simp only [startEngine, Engine.setGlobal]
  refine define_kept (wrapFunction_kept (create_kept ?_ rfl) ..) ..
  exact define_kept (wrapFunction_kept (create_kept started rfl) ..) ..

end CommandLine

/-! ### Filled runs of an engine -/

theorem State.outcome_filled (s : State) :
    s.filled.outcome = (s.outcome.1.filled, s.outcome.2) := by
  obtain ⟨w, control, stack⟩ := s
  cases control <;> cases stack <;> rfl

theorem insisted_filled (name : Text) (result : World × Outcome Reply) :
    insisted name (result.1.filled, result.2) =
      ((insisted name result).1.filled, (insisted name result).2) := by
  obtain ⟨w, outcome⟩ := result
  cases outcome with
  | ok r =>
    simp only [insisted, World.insist_filled]
    obtain ⟨w', written, _ | f⟩ := w.insist name r <;> rfl
  | _ => rfl

namespace Engine

variable (e : Engine) (w : World)

theorem execute_filled (unseeing : e.host.Unseeing) (fuel : Nat) (block : CodeBlock)
    (inv : Invocation) :
    e.execute fuel w.filled (some block.filled) inv =
      ((e.execute fuel w (some block) inv).1.filled, (e.execute fuel w (some block) inv).2) := by
  have ran := Machine.run_filled e unseeing fuel
    (s := ⟨w, .execute (some block) inv .result, []⟩) rfl
  have outcome := State.outcome_filled (Machine.run e fuel ⟨w, .execute (some block) inv .result, []⟩)
  rw [← ran] at outcome
  exact congrArg orVoid ((congrArg (insisted []) outcome).trans (insisted_filled [] _))

theorem uncaught_filled (f : Fault) : uncaught w.filled f = uncaught w f := by
  cases f with
  | signal ref =>
    simp only [uncaught, World.filled_signals, World.signalText_filled]
  | host | labelled => simp only [uncaught, World.faultText_filled]

theorem run_filled (unseeing : e.host.Unseeing) (fuel : Nat) (block : CodeBlock)
    (args : List Value) :
    e.run fuel w.filled (some block.filled) args =
      ((e.run fuel w (some block) args).1.filled, (e.run fuel w (some block) args).2) := by
  simp only [run, execute_filled e w unseeing, uncaught_filled]
  split <;> rfl

end Engine

namespace CommandLine

theorem faultMessage_filled (w : World) (f : Fault) : faultMessage w.filled f = faultMessage w f := by
  simp only [faultMessage, World.signal?_filled, World.signalText_filled, World.faultText_filled]

theorem runBlock_filled (fuel : Nat) (config : Config) (env : Environment) (block : CodeBlock) :
    runBlock fuel config env block.filled = runBlock fuel config env block := by
  have unseeing : (startEngine config env).1.host.Unseeing := callable_unseeing env
  have ran := Engine.run_filled (startEngine config env).1 (startEngine config env).2 unseeing fuel
    block []
  rw [startEngine_filled] at ran
  simp only [runBlock, ran, faultMessage_filled, World.textOf_filled]
  rfl

end CommandLine

/-! ### Listings -/

namespace CodeBlock

variable (face : ObjRef → Face)

theorem headLine_filled (b : CodeBlock) : b.filled.headLine = b.headLine := by
  rw [filled_eq]
  rfl

theorem instructionLine_filled (b : CodeBlock) (i : Instruction) :
    b.filled.instructionLine face i = b.instructionLine face i := by
  have operand (o : Operand) :
      o.listing face (some b.filled) i.offset = o.listing face (some b) i.offset := by
    have titles : placeTitle ∘ Option.map filled = placeTitle := by
      funext place
      cases place <;> simp [placeTitle]
    simp only [Operand.listing, Option.bind_some, filled_consts, filled_blocks, List.getElem?_map,
      Option.map_map, titles]
  simp only [instructionLine, Instruction.listing, filled_position, operand]

theorem ownLines_filled (b : CodeBlock) : b.filled.ownLines face = b.ownLines face := by
  simp only [ownLines, filled_code, headLine_filled, funext (instructionLine_filled face b)]

mutual

theorem lines_filled (indent : Text) : (b : CodeBlock) → lines face indent b.filled = lines face indent b
  | ⟨data, blocks⟩ => by
    have own := ownLines_filled face ⟨data, blocks⟩
    rw [filled] at own ⊢
    rw [lines, own, nestedLines_filled, lines]

theorem nestedLines_filled (indent : Text) : (blocks : List (Option CodeBlock)) →
    nestedLines face indent (filledPlaces blocks) = nestedLines face indent blocks
  | [] => rfl
  | place :: rest => by
    rw [filledPlaces, nestedLines, placeLines_filled, nestedLines_filled, nestedLines]

theorem placeLines_filled (indent : Text) : (place : Option CodeBlock) →
    placeLines face indent (filledPlace place) = placeLines face indent place
  | none => rfl
  | some sub => by rw [filledPlace, placeLines, lines_filled, placeLines]

end

theorem listing_filled (b : CodeBlock) : b.filled.listing face = b.listing face := by
  rw [listing, lines_filled, listing]

end CodeBlock

/-! ### Blocks that stand for each other -/

namespace Wire

/-- Blocks without a constant that is not a number, at any depth. -/
inductive Numeric : CodeBlock → Prop
  | block {data : BlockData} {blocks : List (Option CodeBlock)}
      (consts : ∀ x, Value.real x ∈ data.consts → x.isNaN = false)
      (nested : ∀ sub, some sub ∈ blocks → Numeric sub) : Numeric ⟨data, blocks⟩

theorem sameConstants_eq {consts consts' : List Value}
    (numbers : ∀ x, Value.real x ∈ consts → x.isNaN = false)
    (same : List.Forall₂ SameConstant consts consts') : consts' = consts := by
  induction same with
  | nil => rfl
  | cons first _ ih =>
    rw [ih fun x member => numbers x (List.mem_cons_of_mem _ member)]
    rcases first with identical | ⟨x, y, rfl, rfl, none, -⟩
    · rw [of_decide_eq_true identical]
    · rw [numbers x List.mem_cons_self] at none
      cases none

/-- Blocks that stand for each other are the same once they are filled. -/
theorem Alike.filled_eq {b b' : CodeBlock} (numeric : Numeric b) (alike : Alike b b') :
    b'.filled = b.filled := by
  induction numeric generalizing b' with
  | @block data blocks numbers nested ih =>
    cases alike with
    | @block _ e _ blocks' id name source code registers nestLevel sizes sourceMap consts places =>
      have filled : blocks'.map (Option.map CodeBlock.filled) =
          blocks.map (Option.map CodeBlock.filled) := by
        clear nested
        induction places with
        | nil => rfl
        | cons first _ rest =>
          rw [List.map_cons, List.map_cons,
            rest fun sub member => ih sub (List.mem_cons_of_mem _ member)]
          cases first with
          | none => rfl
          | some alike => rw [Option.map_some, Option.map_some, ih _ List.mem_cons_self alike]
      rw [CodeBlock.filled_eq, CodeBlock.filled_eq, filled, sizes, id, name, source, code, registers,
        nestLevel, sourceMap, sameConstants_eq numbers consts]

end Wire

namespace CommandLine

variable {b b' : CodeBlock}

theorem runBlock_alike (numeric : Wire.Numeric b) (alike : Wire.Alike b b') (fuel : Nat)
    (config : Config) (env : Environment) :
    runBlock fuel config env b' = runBlock fuel config env b := by
  rw [← runBlock_filled, alike.filled_eq numeric, runBlock_filled]

theorem listing_alike (numeric : Wire.Numeric b) (alike : Wire.Alike b b') (face : ObjRef → Face) :
    b'.listing face = b.listing face := by
  rw [← CodeBlock.listing_filled, alike.filled_eq numeric, CodeBlock.listing_filled]

end CommandLine
end ScriptEngine
