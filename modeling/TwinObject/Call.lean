/-
Calls between the two sides.  A native virtual call on an instance of a dynamic
class reaches the override that its class chain gives for the slot; a dynamic
call reaches dynamic methods, virtual slots and native methods in this order.
-/
import TwinObject.Construct

namespace TwinObject

namespace World

/-- The override of a slot.  It is looked up on first use and remembered. -/
def lookupOverride (c : DynamicClass) (index : Nat) (slot : Slot) : Act (Option Method) := fun w =>
  match (w.classes[c.id]?).bind (·.overrides[index]?) with
  | none => (none, w)
  | some (some known) => (known, w)
  | some none =>
      let found := c.override? slot
      (found, { w with classes := w.classes.modify c.id fun s =>
        { s with overrides := s.overrides.set index (some found) } })

end World

/-- The error of a call that reaches a pure slot. -/
def Call.pureCall (slot : Slot) : Run Failure NativeValue :=
  Run.raise (.abstractMethod slot.declaredIn slot.key.text)

/-- The dispatcher that remembers the overrides it found. -/
def Dispatcher.memo : Dispatcher where
  override := World.lookupOverride
  noSlot kind index := Run.raise (.noSuchMethod kind.name ("slot " ++ toString index))
  bare := Call.pureCall

namespace Call

variable (h : Host)

/-- Run the native body of a slot, if it has one. -/
def runDefault (slot : Slot) (bare : Run Failure NativeValue) (t : TwinId)
    (args : List NativeValue) : Run Failure NativeValue :=
  match slot.body with
  | some body => h.native { this := some t, args } body
  | none => bare

/-- Run an override on dynamic counterparts of the arguments, under its
class's lock, and convert its result to the slot's return type. -/
def runOverride (c : DynamicClass) (slot : Slot) (m : Method) (t : TwinId)
    (args : List NativeValue) : Run Failure NativeValue :=
  Run.locked c.interp do
    Run.modify (·.count c.interp fun n => { n with dispatches := n.dispatches + 1 })
    Run.modify (·.retain (.dynamic t))
    let dynArgs ← Run.act (args.mapM Crossing.lendToDynamic)
    Run.holding (dynArgs.flatMap DynValue.handles ++ [.dynamic t]) do
      match ← Run.outcome (h.dynamic .slot t dynArgs m.body) with
      | .ok v =>
          let strict ← Run.reads fun w => (w.interp c.interp).options.strictVoid
          let context := "return value of '" ++ c.name ++ "::" ++ slot.key.name ++ "'"
          Run.ofExcept (← Run.act (Crossing.returnToNative context strict v slot.ret))
      | .error e =>
          Run.modify (·.count c.interp fun n => { n with propagated := n.propagated + 1 })
          Run.raise e.capture

/-- The override that was found runs, else the native body. -/
def runFound (c : DynamicClass) (slot : Slot) (t : TwinId) (args : List NativeValue) :
    Option Method → Run Failure NativeValue
  | some m => runOverride h c slot m t args
  | none => runDefault h slot (h.dispatcher.bare slot) t args

/-- A call through one slot of a dynamic class. -/
def dispatch (c : DynamicClass) (index : Nat) (slot : Slot) (t : TwinId) (args : List NativeValue) :
    Run Failure NativeValue := do
  let found ← Run.act (h.dispatcher.override c index slot)
  runFound h c slot t args found

/-- Call a slot of an instance's virtual table. -/
def callSlot (t : TwinId) (index : Nat) (args : List NativeValue) : Run Failure NativeValue := do
  let kind ← Run.reads fun w => (w.twin t).kind
  match kind.vtable.get? index with
  | none => h.dispatcher.noSlot kind index
  | some slot =>
      match kind with
      | .dynamic c => dispatch h c index slot t args
      | .native _ => runDefault h slot (h.dispatcher.bare slot) t args

/-- Run `m` with the arguments of a selection, which are let go afterwards. -/
def withArgs {α : Type} (args : List NativeValue) (m : Run Failure α) : Run Failure α :=
  Run.holding (args.flatMap NativeValue.handles) m

/-- Virtual call from native code; a const view reaches const slots only. -/
def callVirtual (constOnly : Bool) (t : TwinId) (name : String) (args : List NativeValue) :
    Run Failure NativeValue := do
  let kind ← Run.reads fun w => (w.twin t).kind
  let s ← Run.ofExcept
    (← Run.act (kind.vtable.resolve (Crossing.fromNative args) kind.name name constOnly))
  withArgs s.args (callSlot h t s.index s.args)

/-- Call of the native body that a class itself has for a name, past any
override. -/
def callBaseWith (conv : Conversion Act) (t : TwinId) (c : NativeClass) (name : String) :
    Run Failure NativeValue := do
  let kind ← Run.reads fun w => (w.twin t).kind
  if !kind.isA c.name then
    Run.raise (.typeMismatch ("base call '" ++ c.name ++ "::" ++ name ++ "'") c.name kind.name)
  else
    let s ← Run.ofExcept (← Run.act (c.vtable.resolve conv c.name name false))
    withArgs s.args do
      match c.vtable.get? s.index with
      | some slot => runDefault h slot (pureCall slot) t s.args
      | none => Run.raise (.noSuchMethod c.name name)

/-- Base-qualified call from native code. -/
def callBaseNative (t : TwinId) (c : NativeClass) (name : String) (args : List NativeValue) :
    Run Failure NativeValue :=
  callBaseWith h (Crossing.fromNative args) t c name

/-- Base-qualified call from dynamic code. -/
def callBaseDynamic (t : TwinId) (c : NativeClass) (name : String) (args : List DynValue) :
    Run Failure DynValue := do
  let context := "argument of '" ++ c.name ++ "::" ++ name ++ "'"
  let r ← Run.retaining [.native t] (callBaseWith h (Crossing.fromDynamic context args) t c name)
  Run.act (Crossing.toDynamic r)

/-- The first overload that the arguments fit. -/
def pickOverload (convert : List NativeType → Fit → Act (Option (List NativeValue)))
    (overloads : List MethodDecl) : List Fit → Act (Option (MethodDecl × List NativeValue))
  | [] => return none
  | fit :: fits => do
      match ← attempt fit overloads with
      | some found => return some found
      | none => pickOverload convert overloads fits
where
  attempt (fit : Fit) : List MethodDecl → Act (Option (MethodDecl × List NativeValue))
    | [] => return none
    | d :: ds => do
        match ← convert d.params fit with
        | some args => return some (d, args)
        | none => attempt fit ds

/-- Non-virtual method call from native code. -/
def callMethodNative (t : TwinId) (name : String) (args : List NativeValue) :
    Run Failure NativeValue := do
  let kind ← Run.reads fun w => (w.twin t).kind
  let missing : Run Failure NativeValue := Run.raise (.noSuchMethod kind.name name)
  match kind.layout.findMethod? name with
  | none => missing
  | some (_, overloads) =>
      match ← Run.act (pickOverload (Crossing.coerceArgs args) overloads Fit.order) with
      | none => missing
      | some (d, converted) =>
          withArgs converted (h.native { this := some t, args := converted } d.body)

/-- Run a native body on behalf of dynamic code: without the interpreter's
lock if the gate is open. -/
def gated (i : InterpId) (g : Gate) (m : Run Failure NativeValue) : Run Failure NativeValue := do
  if (← Run.reads (·.releases g)) then
    Run.modify (·.count i fun n => { n with gated := n.gated + 1 })
    Run.unlocked (·.handles.map .handle) i do
      Run.modify (World.passGate i)
      m
  else m

/-- Dynamic call of a name for which the class has no dynamic method.  Native
code gets a handle of its own to the instance. -/
def callNativeMethod (t : TwinId) (name : String) (args : List DynValue) :
    Run Failure DynValue := Run.retaining [.native t] do
  let twin ← Run.reads (·.twin t)
  let context := "argument of '" ++ name ++ "'"
  if twin.kind.vtable.hasMethod name then
    let s ← Run.ofExcept
      (← Run.act
        (twin.kind.vtable.resolve (Crossing.fromDynamic context args) twin.name name false))
    withArgs s.args do
      let r ← callSlot h t s.index s.args
      Run.act (Crossing.toDynamic r)
  else
    match twin.layout.findMethod? name with
    | none => Run.raise (.noSuchAttribute twin.name name)
    | some (declaring, overloads) =>
        let visible := overloads.filter fun d => d.access.visible twin.kind.fromDerived
        match ← Run.act (pickOverload (Crossing.argsToNative context args) visible Fit.order) with
        | none => Run.raise (.noSuchMethod twin.name name)
        | some (d, converted) =>
            withArgs converted do
              let r ← gated twin.interp (.method declaring name)
                (h.native { this := some t, args := converted } d.body)
              Run.act (Crossing.toDynamic r)

/-- Method call from dynamic code. -/
def callMethod (t : TwinId) (name : String) (args : List DynValue) : Run Thrown DynValue := do
  let twin ← Run.reads (·.twin t)
  let own? := match twin.kind with
    | .dynamic c => (c.findMethod? name).map (c, ·)
    | .native _ => none
  match own? with
  | some (c, m) =>
      match m.arityError? c.name args.length with
      | some e => Run.raise e
      | none =>
          Run.locked twin.interp (h.dynamic .method t args m.body)
  | none => Run.mapError Failure.raise (callNativeMethod h t name args)

/-- Call of a free function from native code. -/
def invoke (f : NativeFunction) (args : List NativeValue) : Run Failure NativeValue := do
  match ← Run.act (Crossing.coerceArgs args f.params .widening) with
  | some converted => withArgs converted (h.native { args := converted } f.body)
  | none =>
      let census ← Run.reads World.census
      Run.raise (.typeMismatch ("call to '" ++ f.name ++ "'") (signatureText f.params)
        ("(" ++ ", ".intercalate (args.map (·.typeName census)) ++ ")"))

/-- Call of a free function from dynamic code. -/
def callFunction (i : InterpId) (f : NativeFunction) (args : List DynValue) :
    Run Thrown DynValue := do
  if args.length ≠ f.params.length then
    Run.raise (.typeError (f.name ++ "() takes " ++ toString f.params.length ++ " arguments but "
      ++ toString args.length ++ " were given"))
  else Run.mapError Failure.raise do
    let context := "argument of '" ++ f.name ++ "'"
    let converted ← Run.ofExcept
      (← Run.act (Crossing.convertAll (Crossing.toNative context) [] (args.zip f.params)))
    withArgs converted do
      let r ← gated i f.gate (invoke h f converted)
      Run.act (Crossing.toDynamic r)

end Call

end TwinObject
