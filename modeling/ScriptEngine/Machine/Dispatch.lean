import ScriptEngine.Machine.State

/-! How each kind of object answers requests. -/
namespace ScriptEngine

/-! ### Script objects -/

/-- The receiver of a request that reached a script object: the one it names,
else the object itself. -/
def Request.receiver (r : Request) (ref : ObjRef) : Value :=
  match r.this with
  | .void => .object ref none
  | v => v

/-- Whether a request reads and writes properties as plain members. -/
def Request.seesFields (r : Request) : Bool := r.flags.attr.access = 1

/-- A callable without a context of its own, bound to a receiver. -/
def World.boundTo (w : World) (receiver : Value) : Value → Value
  | .object fn none =>
    let bindable := ((w.heap[fn]?).map Object.isBindable).getD false
    .object fn (if bindable then receiver.object? else none)
  | v => v

/-- Goes on with the string form of the first argument of a request. -/
def withKey (w : World) (r : Request) (next : Text → Next) : Next :=
  match w.textOf (r.arg 0) with
  | some key => next key
  | none => .panic w .invalidAccess

namespace ScriptObject

/-- Reads a member. -/
def get (w : World) (ref : ObjRef) (r : Request) (name : Text) : Next :=
  if name = [] then .notFound w
  else
    match w.lookup ref name r.flags with
    | none => .notFound w
    | some (m, _) =>
      if m.attr.isProperty && !r.seesFields then
        .operate w m.value { operation := .dget, flags := r.flags, this := r.receiver ref }
          [.propertyRead]
      else .result w (w.boundTo (r.receiver ref) m.value)

/-- Writes a member of an object itself. -/
def put (w : World) (ref : ObjRef) (name : Text) (m : Member) : Next :=
  .done (w.modifyScript ref fun o => { o with members := o.members.insert name m }) none

/-- Writes a member. An own member takes the value and merges the attributes. A
new one that hides an inherited member starts from the attributes of that. -/
def set (w : World) (ref : ObjRef) (r : Request) (name : Text) (v : Value) : Next :=
  if name = [] then .notFound w
  else
    let found := w.lookup ref name r.flags
    match found.filter fun (m, _) => m.attr.isProperty && !r.seesFields with
    | some (m, _) =>
      .operate w m.value
        { operation := .dset, flags := r.flags, args := [v], this := r.receiver ref,
          wantsResult := false }
        [.propertyWrite]
    | none =>
      if found.any fun (m, _) => m.attr.isConst then .refused w .memberReadOnly
      else
        match (w.script? ref).bind (·.members.find? name), found with
        | some own, _ => put w ref name ⟨v, own.attr.merge r.flags.attr⟩
        | none, some (m, _) => put w ref name ⟨v, m.attr.merge r.flags.attr⟩
        | none, none =>
          if r.flags.has Flags.ensureMember then .notFound w
          else put w ref name ⟨v, r.flags.attr⟩

/-- Merges attributes into an own member. -/
def setAttributes (w : World) (ref : ObjRef) (r : Request) : Next :=
  match (w.script? ref).bind (·.members.find? r.name) with
  | none => .notFound w
  | some m =>
    let merged := m.attr.merge r.flags.attr
    let w :=
      if m.attr.overwrites r.flags.attr then w.report (.attributesOverwritten r.name merged) else w
    put w ref r.name { m with attr := merged }

/-- Constructs an instance of a class, or through a member. The member named
like the class, if it is the class's own, is the constructor. -/
def construct (w : World) (ref : ObjRef) (o : ScriptObject) (r : Request) : Next :=
  if r.name ≠ [] then
    match w.lookup ref r.name r.flags with
    | none => .notFound w
    | some (m, _) => .operate w m.value { r with name := [], this := .void }
  else if o.name = [] then .notFound w
  else
    let constructor := (w.lookup ref o.name {}).filter fun (_, holder) => holder = ref
    let (w, inst) := w.create (.script { cls := some ref })
    let self := Value.object inst none
    match constructor with
    | some (m, _) =>
      .operate w m.value
        { operation := .call, args := r.args, blocks := r.blocks, this := self,
          wantsResult := false }
        [.constructor self]
    | none => .result w self

/-- Answers whether an object, or a member of it, is an instance of a class. -/
def instanceOf (w : World) (ref : ObjRef) (o : ScriptObject) (r : Request) : Next :=
  if r.name ≠ [] then
    match w.lookup ref r.name r.flags with
    | none => .notFound w
    | some (m, _) =>
      .operate w m.value
        { operation := .instanceOf, args := r.args, wantsResult := r.wantsResult }
  else
    let start := o.cls.orElse fun _ => if o.name = [] then none else some ref
    .result w (.bool (w.inClass start (r.arg 0)))

/-- How a script object answers. -/
def answer (w : World) (ref : ObjRef) (o : ScriptObject) (r : Request) : Next :=
  match r.operation with
  | .call =>
    if r.name = [] then .notFound w
    else
      (get w ref { operation := .dget, flags := r.flags, this := r.this } r.name).before
        (.callMember { r with name := [], this := r.receiver ref })
  | .new => construct w ref o r
  | .dget => get w ref r r.name
  | .dset => set w ref r r.name r.lastArg
  | .iget => withKey w r (get w ref r)
  | .iset => withKey w r (set w ref r · r.lastArg)
  | .dsetAttrib => setAttributes w ref r
  | .instanceOf => instanceOf w ref o r
  | .other _ => .notFound w

end ScriptObject

/-! ### Natives -/

/-- Calls native code. -/
def Native.invoke (e : Engine) (w : World) (c : CallInfo) : Native → Next
  | .functionCall =>
    .operate w (.ofObject c.this.object?)
      { operation := .call, args := c.args.drop 1, blocks := c.blocks, this := c.arg 0,
        wantsResult := c.wantsResult }
      [.forward true]
  | .functionBind =>
    .result w ((Value.ofObject c.this.object?).withContext (c.arg 0).object?)
  | .propertyGet =>
    .operate w (.ofObject c.this.object?)
      { operation := .dget, this := c.arg 0, wantsResult := c.wantsResult } [.forward true]
  | .propertySet =>
    .operate w (.ofObject c.this.object?)
      { operation := .dset, args := [c.arg 1], this := c.arg 0, wantsResult := false }
      [.forward false]
  | .host key =>
    let callable := e.host.callable key
    if callable.receiver.accepts w c.this then
      { world := w, control := .host (callable.run w c) }
    else
      .throws w "IllegalArgumentException" <|
        utf8 "this (" ++ utf8 c.this.kind.name ++ utf8 ") is not a " ++
          utf8 callable.receiver.typeName

/-- How a native function answers: it is called or constructed with. -/
def nativeFunctionAnswer (e : Engine) (w : World) (code : Option Native) (cls : Option ObjRef)
    (r : Request) : Next :=
  match r.name, r.operation, code with
  | [], .call, some native | [], .new, some native =>
    native.invoke e w
      { wantsResult := r.wantsResult, flags := r.flags, args := r.args, blocks := r.blocks,
        this := r.this, cls }
  | _, _, _ => .notFound w

/-- How a native property answers: reading calls the getter without arguments,
writing the setter with the value. -/
def nativePropertyAnswer (e : Engine) (w : World) (getter setter : Option Native)
    (cls : Option ObjRef) (r : Request) : Next :=
  let info (args : List Value) : CallInfo :=
    { wantsResult := r.wantsResult, flags := r.flags, args, blocks := [], this := r.this, cls }
  match r.name, r.operation with
  | [], .dget =>
    match getter with
    | some native => native.invoke e w (info [])
    | none => .refused w .propertyNotReadable
  | [], .dset =>
    match setter with
    | some native => native.invoke e w (info [r.lastArg])
    | none => .refused w .propertyNotWritable
  | _, _ => .notFound w

/-! ### Wrappers and closures -/

/-- How an object answers that is presented as an instance of a class: some
operations on itself go to a target, named members to the class. -/
def wrapperAnswer (w : World) (self : ObjRef) (cls : Option ObjRef) (target : Option ObjRef)
    (direct : List Operation) (r : Request) : Next :=
  if r.name = [] then
    if r.operation ∈ direct then
      match target with
      | some ref => .dispatch w ref r
      | none => .panic w .invalidAccess
    else if r.operation = .instanceOf then .result w (.bool (w.inClass cls (r.arg 0)))
    else .notFound w
  else
    match cls with
    | none => .notFound w
    | some c =>
      match r.operation with
      | .dset | .iset | .dsetAttrib => .refused w .memberReadOnly
      | _ => .dispatch w c { r with this := .object self none }

/-- How a closure answers. Constructing through it runs it on a new object. -/
def closureAnswer (e : Engine) (w : World) (self : ObjRef) (block : Option CodeBlock)
    (frame : Option FrameRef) (chain : Chain) (r : Request) : Next :=
  match r.name, r.operation with
  | [], .call =>
    let inv := { args := r.args, blocks := r.blocks, this := r.this, frame, shared := chain }
    { world := w, control := .execute block inv .result }
  | [], .new =>
    let (w, inst) := w.create (.script {})
    let this := Value.object inst none
    let inv := { args := r.args, blocks := r.blocks, this, frame, shared := chain }
    { world := w, control := .execute block inv (.constructed this) }
  | _, _ => wrapperAnswer w self e.functionClass none [] r

/-- How a property made of script functions answers. -/
def scriptPropertyAnswer (w : World) (getter setter : Value) (r : Request) : Next :=
  match r.name, r.operation with
  | [], .dget =>
    match getter with
    | .void => .refused w .propertyNotReadable
    | fn => .operate w fn { operation := .call, this := r.this } [.getter]
  | [], .dset =>
    match setter with
    | .void => .refused w .propertyNotWritable
    | fn => .operate w fn { operation := .call, args := [r.lastArg], this := r.this } [.setter]
  | _, _ => .notFound w

/-! ### Bindings -/

/-- Compiles a source text and runs it where a binding was made. -/
def evaluate (e : Engine) (w : World) (chain : Chain) (this : Value) (names : Table BindingSlot)
    (source : Text) : Next :=
  match e.host.compiler with
  | none => .throws w "UnsupportedException" (utf8 "eval: no compiler is installed")
  | some compile =>
    match compile source names with
    | .error message =>
      let (w, f) := w.asThrown (.host (.text message))
      .failed w f
    | .ok block => { world := w, control := .execute block { this, shared := chain } .result }

/-- Where a name of a binding leads, if its level is there. -/
def resolveName (chain : Chain) (names : Table BindingSlot) (name : Text) :
    Option (FrameHandle × Int) := do
  let place ← names.find? name
  if place.level < 0 then none
  else return (← chain[place.level.toNat]?, place.slot)

/-- How a binding answers: captured variables by index, the captured receiver,
and evaluation of source text. -/
def bindingAnswer (e : Engine) (w : World) (chain : Chain) (this : Value)
    (names : Table BindingSlot) (r : Request) : Next :=
  match r.operation with
  | .iget =>
    withKey w r fun key =>
      match resolveName chain names key with
      | none => .notFound w
      | some (handle, slot) =>
        match w.arena.load handle slot with
        | .ok v => .result w v
        | .error error => .failed w (.host (.arena error))
  | .iset =>
    withKey w r fun key =>
      match resolveName chain names key with
      | none => .notFound w
      | some (handle, slot) =>
        match w.arena.store handle slot r.lastArg with
        | .ok arena => .done { w with arena } none
        | .error error => .failed w (.host (.arena error))
  | .dget => if r.name = utf8 "this" then .result w this else .notFound w
  | .dset => if r.name = utf8 "this" then .refused w .memberReadOnly else .notFound w
  | .call =>
    if r.name = utf8 "eval" then withKey w r (evaluate e w chain this names)
    else .notFound w
  | _ => .notFound w

/-! ### Exceptions -/

/-- How an exception answers. -/
def errorAnswer (w : World) (className message : Text) (r : Request) : Next :=
  let isField := r.name = utf8 "name" ∨ r.name = utf8 "message"
  match r.operation with
  | .dget =>
    if r.name = utf8 "name" then .result w (.string className)
    else if r.name = utf8 "message" then .result w (.string message)
    else .notFound w
  | .dset => if isField then .refused w .memberReadOnly else .notFound w
  | .call =>
    if r.name = utf8 "toString" then .result w (.string (className ++ utf8 ": " ++ message))
    else .notFound w
  | _ => .notFound w

/-! ### All objects -/

/-- How an object answers a request. -/
def dispatch (e : Engine) (w : World) (ref : ObjRef) (r : Request) : Next :=
  match w.heap[ref]? with
  | none => .panic w .invalidAccess
  | some (.script o) => o.answer w ref r
  | some (.closure block frame chain) => closureAnswer e w ref block frame chain r
  | some (.nativeFunction _ code cls) => nativeFunctionAnswer e w code cls r
  | some (.nativeProperty _ getter setter cls) => nativePropertyAnswer e w getter setter cls r
  | some (.function cls target) => wrapperAnswer w ref cls target [.call, .new] r
  | some (.property cls target) => wrapperAnswer w ref cls target [.dget, .dset] r
  | some (.scriptProperty getter setter) => scriptPropertyAnswer w getter setter r
  | some (.binding chain this names) => bindingAnswer e w chain this names r
  | some (.proxy first second) => .dispatch w first r [.second second r]
  | some (.error className message) => errorAnswer w className message r
  | some (.marker ..) => .notFound w
  | some (.host o) => .reply w (o.answer r)

/-- How a value answers a request. An object's context becomes the receiver;
another value answers through the prototype of its kind, as receiver if there
is none yet. -/
def operate (e : Engine) (w : World) (target : Value) (r : Request) : Next :=
  match target with
  | .object ref none => .dispatch w ref r
  | .object ref (some context) => .dispatch w ref { r with this := .object context none }
  | v =>
    match e.prototypes v.kind with
    | none => .notFound w
    | some ref =>
      .dispatch w ref (match r.this with
        | .void => { r with this := v }
        | _ => r)

end ScriptEngine
