import ScriptEngine.Machine

/-! Blocks in which absent sizes of shared frames are written out as none. An
engine whose blocks are filled in this way is as good as the original one: what
it shows of objects, which members it finds, how it fails and what it makes of an
instruction are the same. -/
namespace ScriptEngine

/-! ### Filled blocks -/

mutual

/-- A block whose sizes are there, at every depth. -/
def CodeBlock.filled : CodeBlock → CodeBlock
  | ⟨data, blocks⟩ => ⟨{ data with sharedSizes? := some data.sharedSizes }, filledPlaces blocks⟩

/-- Places for nested blocks, each with its block filled. -/
def CodeBlock.filledPlaces : List (Option CodeBlock) → List (Option CodeBlock)
  | [] => []
  | place :: rest => filledPlace place :: filledPlaces rest

/-- A place with its block filled; a vacant one stays so. -/
def CodeBlock.filledPlace : Option CodeBlock → Option CodeBlock
  | none => none
  | some sub => some sub.filled

end

namespace CodeBlock

theorem filledPlace_eq_map (place : Option CodeBlock) : filledPlace place = place.map filled := by
  cases place <;> rfl

theorem filledPlaces_eq_map (blocks : List (Option CodeBlock)) :
    filledPlaces blocks = blocks.map (Option.map filled) := by
  induction blocks with
  | nil => rfl
  | cons place blocks ih => rw [filledPlaces, filledPlace_eq_map, ih, List.map_cons]

variable (b : CodeBlock)

theorem filled_eq : b.filled =
    { b with sharedSizes? := some b.sharedSizes, blocks := b.blocks.map (Option.map filled) } := by
  cases b
  rw [filled, filledPlaces_eq_map]

@[simp] theorem filled_code : b.filled.code = b.code := by rw [filled_eq]; rfl
@[simp] theorem filled_consts : b.filled.consts = b.consts := by rw [filled_eq]
@[simp] theorem filled_registers : b.filled.registers = b.registers := by rw [filled_eq]
@[simp] theorem filled_nestLevel : b.filled.nestLevel = b.nestLevel := by rw [filled_eq]
@[simp] theorem filled_sharedSizes : b.filled.sharedSizes = b.sharedSizes := by rw [filled_eq]; rfl
@[simp] theorem filled_title : b.filled.title = b.title := by rw [filled_eq]; rfl
@[simp] theorem filled_blocks : b.filled.blocks = b.blocks.map (Option.map filled) := by
  rw [filled_eq]
@[simp] theorem filled_position (offset : Int) : b.filled.position offset = b.position offset := by
  rw [filled_eq]; rfl
@[simp] theorem filled_tracePoint (offset : Int) :
    b.filled.tracePoint offset = b.tracePoint offset := by rw [filled_eq]; rfl

end CodeBlock

/-! ### Filled worlds -/

/-- An object with its block filled; only closures have one. -/
def Object.filled : Object → Object
  | .closure block frame chain => .closure (block.map CodeBlock.filled) frame chain
  | o => o

namespace Object

variable (o : Object)

@[simp] theorem typeName_filled : o.filled.typeName = o.typeName := by cases o <;> rfl
@[simp] theorem hostData?_filled : o.filled.hostData? = o.hostData? := by cases o <;> rfl
@[simp] theorem lockKind?_filled : o.filled.lockKind? = o.lockKind? := by cases o <;> rfl
@[simp] theorem isSynchronizer_filled : o.filled.isSynchronizer = o.isSynchronizer := by
  cases o <;> rfl

end Object

/-- A world in which all blocks are filled. -/
def World.filled (w : World) : World := { w with heap := w.heap.map Object.filled }

namespace World

variable (w : World)

@[simp] theorem filled_getElem? (ref : ObjRef) :
    w.filled.heap[ref]? = (w.heap[ref]?).map Object.filled := by simp [filled]

/-- The object that a value refers to. -/
theorem filled_object? (v : Value) :
    v.object?.bind (w.filled.heap[·]?) = (v.object?.bind (w.heap[·]?)).map Object.filled := by
  cases v.object? <;> simp

@[simp] theorem filled_size : w.filled.heap.size = w.heap.size := by simp [filled]

@[simp] theorem filled_arena : w.filled.arena = w.arena := rfl
@[simp] theorem filled_signals : w.filled.signals = w.signals := rfl
@[simp] theorem filled_registers (frame : FrameRef) :
    w.filled.registers frame = w.registers frame := rfl

@[simp] theorem script?_filled (ref : ObjRef) : w.filled.script? ref = w.script? ref := by
  rw [script?, script?, filled_getElem?]
  cases w.heap[ref]? with
  | none => rfl
  | some o => cases o <;> rfl

/-! What is read from a world. -/

@[simp] theorem objectText_filled (o : Object) : w.filled.objectText o.filled = w.objectText o := by
  cases o with
  | closure block => simp [Object.filled, objectText, Function.comp_def]
  | script o => simp only [Object.filled, objectText, scriptText, className, script?_filled]
  | _ => rfl

@[simp] theorem face_filled : w.filled.face = w.face := by
  funext ref
  rw [face, face, filled_getElem?]
  cases w.heap[ref]? with
  | none => rfl
  | some o =>
    simp only [Option.map_some, objectText_filled]
    cases o <;> rfl

@[simp] theorem textOf_filled (v : Value) : w.filled.textOf v = w.textOf v := by
  rw [textOf, face_filled, textOf]

@[simp] theorem describe_filled (v : Value) : w.filled.describe v = w.describe v := by
  rw [describe, face_filled, describe]

@[simp] theorem lookup_filled (ref : ObjRef) (name : Text) (flags : Flags) :
    w.filled.lookup ref name flags = w.lookup ref name flags := by
  have from_filled (fuel : Nat) (ref : ObjRef) :
      w.filled.lookupFrom name flags fuel ref = w.lookupFrom name flags fuel ref := by
    induction fuel generalizing ref with
    | zero => rfl
    | succ fuel ih => simp only [lookupFrom, script?_filled, funext ih]
  simp only [lookup, script?_filled, filled_size, from_filled]

@[simp] theorem inClass_filled (cls : Option ObjRef) (v : Value) :
    w.filled.inClass cls v = w.inClass cls v := by
  have descends_filled (target : ObjRef) (fuel : Nat) (cls : Option ObjRef) :
      w.filled.descends target fuel cls = w.descends target fuel cls := by
    induction fuel generalizing cls with
    | zero => rfl
    | succ fuel ih => cases cls <;> simp only [descends, script?_filled, ih]
  simp only [inClass, script?_filled, filled_size, descends_filled]

@[simp] theorem lockKind?_filled (ref : ObjRef) : w.filled.lockKind? ref = w.lockKind? ref := by
  rw [lockKind?, lockKind?, filled_getElem?]
  cases w.heap[ref]? <;> simp

@[simp] theorem lockOwner?_filled : w.filled.lockOwner? = w.lockOwner? := by
  have asked (ref : ObjRef) : (w.filled.heap[ref]?).any Object.isSynchronizer =
      (w.heap[ref]?).any Object.isSynchronizer := by
    rw [filled_getElem?]
    cases w.heap[ref]? <;> simp
  have from_filled (fuel : Nat) (ref : ObjRef) :
      w.filled.lockOwnerFrom fuel ref = w.lockOwnerFrom fuel ref := by
    induction fuel generalizing ref with
    | zero => rfl
    | succ fuel ih =>
      simp only [lockOwnerFrom, lockKind?_filled, asked, ih]
      rw [filled_getElem?]
      cases w.heap[ref]? with
      | none => rfl
      | some o => cases o <;> rfl
  funext ref
  rw [lockOwner?, filled_size, from_filled, lockOwner?]

@[simp] theorem signalText_filled (s : Signal) : w.filled.signalText s = w.signalText s := by
  cases s with
  | thrown v =>
    simp only [signalText, describe_filled]
    rw [filled_object?]
    cases v.object?.bind (w.heap[·]?) with
    | none => rfl
    | some o => cases o <;> rfl
  | exit => rfl

@[simp] theorem faultText_filled (f : Fault) : w.filled.faultText f = w.faultText f := by
  induction f with
  | signal ref => simp only [faultText, filled_signals, funext (signalText_filled w)]
  | host => rfl
  | labelled label inner ih => simp only [faultText, ih]

@[simp] theorem signal?_filled (f : Fault) : w.filled.signal? f = w.signal? f := rfl
@[simp] theorem thrown?_filled : w.filled.thrown? = w.thrown? := rfl

@[simp] theorem faultValue_filled (f : Fault) : w.filled.faultValue f = w.faultValue f := rfl

/-! What a world becomes. -/

theorem setObject_filled (ref : ObjRef) (o : Object) :
    w.filled.setObject ref o.filled = (w.setObject ref o).filled := by
  simp [setObject, filled]

theorem create_filled (o : Object) :
    w.filled.create o.filled = ((w.create o).1.filled, (w.create o).2) := by
  simp [create, filled]

/-- Making an object without a block. -/
theorem create_plain (o : Object) (plain : o.filled = o) :
    w.filled.create o = ((w.create o).1.filled, (w.create o).2) := by
  rw [← create_filled, plain]

theorem modifyScript_filled (ref : ObjRef) (f : ScriptObject → ScriptObject) :
    w.filled.modifyScript ref f = (w.modifyScript ref f).filled := by
  simp only [modifyScript, script?_filled]
  split
  next o _ => exact setObject_filled w ref (.script (f o))
  · rfl

theorem lock?_filled (thread : Thread) (ref : ObjRef) :
    w.filled.lock? thread ref = (w.lock? thread ref).map World.filled := by
  simp only [lock?, lockKind?_filled, Option.bind_eq_bind, Option.pure_def, Option.map_bind,
    Function.comp_def, Option.map_some]
  rfl

theorem bindName_filled (ref : ObjRef) (name : Text) (slot : BindingSlot) :
    w.filled.bindName ref name slot = (w.bindName ref name slot).filled := by
  simp only [bindName, filled_getElem?]
  cases w.heap[ref]? with
  | none => rfl
  | some o =>
    cases o with
    | binding chain this names =>
      exact setObject_filled w ref (.binding chain this (names.insert name slot))
    | _ => rfl

theorem annotate_filled (f : Fault) (p : TracePoint) :
    w.filled.annotate f p = (w.annotate f p).filled := by
  unfold annotate
  split <;> rfl

theorem throwException_filled (className : String) (message : Text) (cause : Option Fault) :
    w.filled.throwException className message cause =
      ((w.throwException className message cause).1.filled,
        (w.throwException className message cause).2) := by
  rw [throwException, create_plain w (.error (utf8 className) message) rfl]
  rfl

theorem asThrown_filled (f : Fault) :
    w.filled.asThrown f = ((w.asThrown f).1.filled, (w.asThrown f).2) := by
  simp only [asThrown, faultText_filled, throwException_filled]
  split <;> rfl

theorem insist_filled (name : Text) (r : Reply) :
    w.filled.insist name r = ((w.insist name r).1.filled, (w.insist name r).2) := by
  cases r with
  | done | failed => rfl
  | refused => simp only [insist, throwRefusal, throwException_filled]

theorem hostFault_filled (f : HostFault) :
    w.filled.hostFault f = ((w.hostFault f).1.filled, (w.hostFault f).2) := by
  induction f with
  | labelled label inner ih => simp only [hostFault, ih]
  | _ => rfl

theorem wrapFunction_filled (e : Engine) (target : Option ObjRef) :
    e.wrapFunction w.filled target =
      ((e.wrapFunction w target).1.filled, (e.wrapFunction w target).2) := by
  unfold Engine.wrapFunction
  split
  · rfl
  next c _ => rw [create_plain w (.function (some c) target) rfl]

theorem wrapProperty_filled (e : Engine) (target : Option ObjRef) :
    e.wrapProperty w.filled target =
      ((e.wrapProperty w target).1.filled, (e.wrapProperty w target).2) := by
  unfold Engine.wrapProperty
  split
  · rfl
  next c _ => rw [create_plain w (.property (some c) target) rfl]

end World
/-! ### Instructions -/

/-- A running block, filled. -/
def Activation.filled (a : Activation) : Activation := { a with block := a.block.filled }

/-- Whether an instruction captures a nested block. -/
def Opcode.captures : Opcode → Bool
  | .setFrame | .setShare => true
  | _ => false

/-- An action with the block that it captures filled. -/
def Action.filled : Action → Action
  | .capture block sharesFrame dst next =>
    .capture (block.map CodeBlock.filled) sharesFrame dst next
  | action => action

namespace Activation

variable (e : Engine) (w : World) (a : Activation)

@[simp] theorem filled_frame : a.filled.frame = a.frame := rfl
@[simp] theorem filled_chain : a.filled.chain = a.chain := rfl
@[simp] theorem filled_this : a.filled.this = a.this := rfl
@[simp] theorem filled_args : a.filled.args = a.args := rfl
@[simp] theorem filled_blocks : a.filled.blocks = a.blocks := rfl
@[simp] theorem filled_caught : a.filled.caught = a.caught := rfl
@[simp] theorem filled_after (n : Nat) : a.filled.after n = a.after n := rfl
@[simp] theorem filled_level (level : UInt32) : a.filled.level level = a.level level := rfl

@[simp] theorem word?_filled (k : Nat) : a.filled.word? k = a.word? k := by
  simp only [word?, filled, CodeBlock.filled_code]

@[simp] theorem registerNumber?_filled (k : Nat) : a.filled.registerNumber? k = a.registerNumber? k := by
  simp only [registerNumber?, word?_filled]

@[simp] theorem register?_filled (k : Nat) : a.filled.register? w.filled k = a.register? w k := by
  simp only [register?, registerNumber?_filled]
  rfl

@[simp] theorem const?_filled (k : Nat) : a.filled.const? k = a.const? k := by
  simp only [const?, word?_filled]
  simp only [filled, CodeBlock.filled_consts]

@[simp] theorem words?_filled (k count : Nat) : a.filled.words? k count = a.words? k count := by
  simp only [words?, filled, CodeBlock.filled_code]

@[simp] theorem list?_filled (k : Nat) : a.filled.list? w.filled k = a.list? w k := by
  simp only [list?, word?_filled, words?_filled]
  rfl

@[simp] theorem flags?_filled (k : Nat) : a.filled.flags? k = a.flags? k := by
  simp only [flags?, word?_filled]

@[simp] theorem target?_filled (k : Nat) : a.filled.target? k = a.target? k := by
  simp only [target?, word?_filled]
  rfl

@[simp] theorem complaint_filled : a.filled.complaint = a.complaint := by
  simp only [complaint, filled, CodeBlock.filled_title]

@[simp] theorem construct_filled (className : String) (args : List Value) (length : Nat) :
    a.filled.construct e className args length = a.construct e className args length := by
  simp only [construct, registerNumber?_filled, filled_after]

@[simp] theorem callAction_filled (operation : Operation) (await : Nat → Int → Await) :
    a.filled.callAction w.filled operation await = a.callAction w operation await := by
  simp only [callAction, registerNumber?_filled, register?_filled, flags?_filled, list?_filled,
    filled_after]

@[simp] theorem dumpText_filled (registers : List UInt32) :
    a.filled.dumpText w.filled registers = a.dumpText w registers := by
  simp only [dumpText, World.describe_filled]
  rfl

theorem catchBranch_filled : a.filled.catchBranch w.filled = a.catchBranch w := by
  simp only [catchBranch, word?_filled, const?_filled, words?_filled, complaint_filled]
  refine bind_congr fun r => bind_congr fun id => bind_congr fun count => bind_congr fun targets =>
    bind_congr fun marker => ?_
  rw [World.filled_object?]
  cases marker.object?.bind (w.heap[·]?) with
  | none => rfl
  | some o => cases o <;> rfl

/-- What does not capture a block is read from the filled one as it is. -/
theorem actionOf_filled_of_plain {op : Opcode} (plain : op.captures = false) :
    a.filled.actionOf e w.filled op = a.actionOf e w op := by
  cases op with
  | setFrame | setShare => cases plain
  | bindingMap =>
    simp only [actionOf, register?_filled, const?_filled, word?_filled, complaint_filled,
      World.textOf_filled, filled_after]
    refine bind_congr fun target => ?_
    cases target.object? with
    | none => rfl
    | some ref =>
      simp only [Option.bind_some, World.filled_getElem?]
      cases w.heap[ref]? with
      | none => rfl
      | some o => cases o <;> rfl
  | catchBranch => exact catchBranch_filled w a
  | dump =>
    simp only [actionOf, word?_filled, words?_filled, dumpText_filled, filled_after]
    simp only [filled, CodeBlock.filled_position, CodeBlock.filled_title]
  | _ =>
    simp only [actionOf, registerNumber?_filled, register?_filled, const?_filled, word?_filled,
      flags?_filled, list?_filled, target?_filled, construct_filled, callAction_filled, filled_after,
      filled_this, filled_args, filled_blocks, filled_caught, filled_level, World.textOf_filled,
      World.face_filled, World.lockOwner?_filled, World.filled_arena, World.thrown?_filled]

theorem bind_plain {α : Type} {x : Option α} {next : α → Option Action}
    (each : ∀ v, (next v).map Action.filled = next v) :
    (x >>= next).map Action.filled = x >>= next := by
  cases x with
  | none => rfl
  | some v => exact each v

theorem level_plain {level : UInt32} {exception : Action} (none : a.level level = .error exception) :
    exception.filled = exception := by
  unfold Activation.level at none
  split at none <;> cases none
  rfl

/-- Other instructions capture no block. -/
theorem actionOf_plain {op : Opcode} (plain : op.captures = false) :
    (a.actionOf e w op).map Action.filled = a.actionOf e w op := by
  cases op with
  | setFrame | setShare => cases plain
  | read | write =>
    refine bind_plain fun level => ?_
    split
    next none => exact congrArg some (level_plain a none)
    · repeat' first | rfl | refine bind_plain fun _ => ?_ | split
  | _ =>
    simp only [actionOf, callAction, catchBranch]
    repeat' first | rfl | refine bind_plain fun _ => ?_ | split

theorem actionOf_filled (op : Opcode) :
    a.filled.actionOf e w.filled op = (a.actionOf e w op).map Action.filled := by
  cases captures : op.captures with
  | false => rw [actionOf_filled_of_plain e w a captures, actionOf_plain e w a captures]
  | true =>
    have nested (i : Nat) :
        a.filled.block.blocks[i]? = (a.block.blocks[i]?).map (Option.map CodeBlock.filled) := by
      rw [filled, CodeBlock.filled_blocks, List.getElem?_map]
    cases op with
    | setFrame | setShare =>
      simp only [actionOf, word?_filled, registerNumber?_filled, filled_after, nested]
      cases a.word? 2 with
      | none => rfl
      | some i =>
        simp only [Option.bind_eq_bind, Option.bind_some]
        cases a.block.blocks[i.toNat]? <;> rfl
    | _ => cases captures

theorem action_filled : a.filled.action e w.filled = (a.action e w).map Action.filled := by
  have ended : a.filled.block.code.size ≤ a.filled.ip ↔ a.block.code.size ≤ a.ip := by
    rw [filled, CodeBlock.filled_code]
  simp only [action, word?_filled, actionOf_filled, complaint_filled, ended]
  split
  · rfl
  · cases a.word? 0 with
    | none => rfl
    | some word =>
      simp only [Option.bind_eq_bind, Option.bind_some]
      split <;> rfl

end Activation
end ScriptEngine
