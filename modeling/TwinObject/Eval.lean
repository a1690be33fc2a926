/-
Evaluation of bodies.  Operands are evaluated from left to right and belong to
the operation until it is done; the value of an expression belongs to whoever
asked for it.  Calls that code makes are run by a host, and `Host.nested` is
the host whose bodies are evaluated here, to a bounded depth.
-/
import TwinObject.Call
import TwinObject.Container

namespace TwinObject

/-- An error of dynamic code that is not well formed. -/
def scriptError {α : Type} (message : String) : Run Thrown α :=
  Run.raise ⟨"ScriptError", message⟩

/-- The same for native code. -/
def nativeScriptError {α : Type} (message : String) : Run Failure α :=
  Run.raise (.native "ScriptError" message)

namespace Question

/-- The answer about an instance. -/
def answer (w : World) (t : TwinId) : Question → Bool ⊕ String
  | className => .inr (w.className t)
  | owner => .inr (w.twin t).owner.text
  | dynamicOwns => .inl ((w.twin t).owner = .dynamic)
  | isA name => .inl (w.isA t name)
  | initialized => .inl (w.twin t).isInitialized
  | moved => .inl (w.twin t).moved

end Question

/-- The value of an operator on plain dynamic values: strings are joined,
integers added with wrap-around, and floats added. -/
def BinaryOp.onDyn (op : BinaryOp) (a b : DynValue) : Option DynValue :=
  match op with
  | .eq => some (.bool (a.same b))
  | .add =>
      match a, b with
      | .str x, .str y => some (.str (x ++ y))
      | _, _ =>
          match a.asInt?, b.asInt? with
          | some x, some y => some (.int (x + y))
          | _, _ =>
              match a.asFloat?, b.asFloat? with
              | some x, some y => some (.float (x + y))
              | _, _ => none

/-- The same for native values. -/
def BinaryOp.onNative (op : BinaryOp) (a b : NativeValue) : Option NativeValue :=
  match op with
  | .eq => some (.bool (a.same b))
  | .add =>
      match a, b with
      | .str x, .str y => some (.str (x ++ y))
      | _, _ =>
          match a.asInt?, b.asInt? with
          | some x, some y => some (.int (x + y))
          | _, _ =>
              match a.asDouble?, b.asDouble? with
              | some x, some y => some (.double (x + y))
              | _, _ => none

namespace World

def interpNamed? (w : World) (name : String) : Option InterpId :=
  w.scope.interps.get? name

/-- The interpreter that works for code without an instance. -/
def mainInterp (w : World) : InterpId :=
  (w.interpNamed? "main").getD 0

/-- Whether the running thread holds the lock of a named interpreter. -/
def holdsNamed (w : World) (name : String) : Bool :=
  (w.interpNamed? name).elim false w.holdsLock

/-- The interpreter of an instance, or the main one without an instance. -/
def interpOf (w : World) (this : Option TwinId) : InterpId :=
  this.elim w.mainInterp fun t => (w.twin t).interp

def signalSet (w : World) (i : Nat) : Bool :=
  w.signals[i]?.getD false

/-- The dynamic value of a variable. -/
def readDyn (x : String) : Act DynValue := fun w =>
  match w.var? x with
  | some (.dyn v) => (v, w.retainAll v.handles)
  | some (.native v) => Crossing.lendToDynamic v w
  | _ => (.none, w)

/-- The native value of a variable; there is none if it holds a tuple. -/
def readNative (x : String) : Act (Option NativeValue) := fun w =>
  match w.var? x with
  | some (.dyn v) => Crossing.lendToRaw v w
  | some (.native v) => (some v, w.retainAll v.handles)
  | _ => (some .null, w)

end World

namespace DynFrame

def self (f : DynFrame) : Run Thrown TwinId :=
  f.this.elim (scriptError "no this") pure

end DynFrame

-- Operations of dynamic code on values at hand; operands are lent.
namespace DynOp

variable (h : Host)

def ofOption {α : Type} (message : String) : Option α → Run Thrown α
  | some a => pure a
  | none => scriptError message

/-- A copy of a value, with handles of its own. -/
def clone (v : DynValue) : Run Thrown DynValue := do
  Run.modify (·.retainAll v.handles)
  return v

/-- The instance that an operand has to be; its handle belongs to the caller. -/
def expectObject (operand : Run Thrown DynValue) : Run Thrown TwinId := do
  match ← operand with
  | .object t => return t
  | v =>
      Run.modify (·.drop v.handles)
      scriptError "not an object"

/-- The items of the tuple that an operand has to be; they belong to the
caller. -/
def expectTuple (operand : Run Thrown DynValue) : Run Thrown (List DynValue) := do
  match ← operand with
  | .tuple items => return items
  | v =>
      Run.modify (·.drop v.handles)
      scriptError "not a tuple"

def objectOrNone (m : Act (Option TwinId)) : Run Thrown DynValue := do
  return (← Run.act m).elim .none .object

def native (name : String) : Run Thrown NativeClass := do
  ofOption ("no native class " ++ name) (← Run.reads (·.scope.natives.get? name))

def dynClass (name : String) : Run Thrown DynamicClass := do
  ofOption ("no class " ++ name) (← Run.reads (·.scope.classes.get? name))

def function (name : String) : Run Thrown NativeFunction := do
  ofOption ("no function " ++ name) (← Run.reads (·.scope.functions.get? name))

def attr (t : TwinId) (name : String) : Run Thrown DynValue := do
  Run.ofExcept (← Run.act (World.getAttr t name))

def hasAttr (t : TwinId) (name : String) : Run Thrown DynValue := do
  match ← Run.act (World.getAttr t name) with
  | .ok v =>
      Run.modify (·.drop v.handles)
      return .bool true
  | .error _ => return .bool false

def callBase (t : TwinId) (c : NativeClass) (name : String) (args : List DynValue) :
    Run Thrown DynValue :=
  Run.mapError Failure.raise (Call.callBaseDynamic h t c name args)

def callFunction (this : Option TwinId) (f : NativeFunction) (args : List DynValue) :
    Run Thrown DynValue := do
  let i ← Run.reads (·.interpOf this)
  Call.callFunction h i f args

/-- A new instance of the dynamic class of this name, else of the native one. -/
def new (this : Option TwinId) (cls : String) (args : List DynValue) : Run Thrown DynValue := do
  match (← Run.reads (·.scope.classes.get? cls)) with
  | some c => Run.lending (.dynamic c) do return .object (← Construction.newDynamic h c args)
  | none =>
      let c ← native cls
      let i ← Run.reads (·.interpOf this)
      Run.lending (.native c) do
        return .object (← Run.mapError Failure.raise (Construction.instantiate h c i args))

def newGrouped (c : NativeClass) (g : ArgGroup) : Run Thrown DynValue := do
  let i ← Run.reads World.mainInterp
  return .object (← Run.mapError Failure.raise (Construction.newNative h c i g .dynamic))

def initBase (t : TwinId) (c : NativeClass) (args : List DynValue) : Run Thrown DynValue := do
  Run.mapError Failure.raise (Construction.initBase h t c args)
  return .none

def initParent (t : TwinId) (c : DynamicClass) (args : List DynValue) : Run Thrown DynValue := do
  Construction.initializeAs h .chained c t args
  return .none

def setOwner (t : TwinId) (flag : Ownership) : Run Thrown DynValue := do
  Run.modify (World.setOwner t flag)
  clone (.object t)

def ask (q : Question) (t : TwinId) : Run Thrown DynValue := do
  return match (← Run.reads fun w => q.answer w t) with
    | .inl b => .bool b
    | .inr s => .str s

def reproduce (way : Reproduction) (t : TwinId) : Run Thrown DynValue :=
  Run.mapError Failure.raise do
    return .object (← Run.ofExcept (← Run.act (World.reproduce way t)))

def classAttr (cls name : String) : Run Thrown DynValue := do
  let c ← dynClass cls
  clone ((← Run.reads (·.classAttr? c name)).getD .none)

/-- Bind a class attribute.  The value is given away. -/
def setClassAttr (c : DynamicClass) (name : String) (v : DynValue) : Run Thrown DynValue := do
  Run.modify (·.storeClassAttr c.id name v)
  return .none

def vec (x : String) : Run Thrown Nat := do
  ofOption ("no vector " ++ x) (← Run.reads (·.vecVar? x))

def shared (x : String) : Run Thrown Nat := do
  ofOption ("no shared pointer " ++ x) (← Run.reads (·.sharedVar? x))

/-- Let other threads have the main lock for a moment. -/
def yieldLock : Run Thrown DynValue := do
  Run.unlocked (·.handles.map .handle) (← Run.reads World.mainInterp) (return .none)

/-- Wait until a stop signal is set, with the main lock left meanwhile. -/
def waitStop (x : String) : Run Thrown DynValue := do
  let i ← ofOption ("no stop signal " ++ x) (← Run.reads (·.signalVar? x))
  if (← Run.reads (·.signalSet i)) then return .none
  else
    Run.unlocked (·.handles.map .handle) (← Run.reads World.mainInterp) do
      Run.await fun w => if w.signalSet i then some w else none
      return .none

end DynOp

-- Operations of native code on values at hand; operands are lent.
namespace NativeOp

variable (h : Host)

def ofOption {α : Type} (message : String) : Option α → Run Failure α
  | some a => pure a
  | none => nativeScriptError message

def clone (v : NativeValue) : Run Failure NativeValue := do
  Run.modify (·.retainAll v.handles)
  return v

/-- The instance that an operand has to be; its handle belongs to the caller. -/
def expectObject (operand : Run Failure NativeValue) : Run Failure TwinId := do
  match ← operand with
  | .object t => return t
  | v =>
      Run.modify (·.drop v.handles)
      nativeScriptError "not an object"

def native (name : String) : Run Failure NativeClass := do
  ofOption ("no native class " ++ name) (← Run.reads (·.scope.natives.get? name))

def function (name : String) : Run Failure NativeFunction := do
  ofOption ("no function " ++ name) (← Run.reads (·.scope.functions.get? name))

/-- The untyped native counterpart of a dynamic value. -/
def raw (v : DynValue) : Run Failure NativeValue := do
  ofOption "tuple in native code" (← Run.act (Crossing.lendToRaw v))

def result (m : Act (Except Failure NativeValue)) : Run Failure NativeValue := do
  Run.ofExcept (← Run.act m)

/-- A new instance made by native code. -/
def construct (c : NativeClass) (args : List NativeValue) : Run Failure NativeValue := do
  let i ← Run.reads World.mainInterp
  return .object (← Construction.construct h c i args)

/-- The segment a constructor body fills. -/
def site (f : NativeFrame) : Run Failure Site :=
  f.site.elim (nativeScriptError "not a constructor") pure

def ask (q : Question) (t : TwinId) : Run Failure NativeValue := do
  return match (← Run.reads fun w => q.answer w t) with
    | .inl b => .bool b
    | .inr s => .str s

def reproduce (way : Reproduction) (t : TwinId) : Run Failure NativeValue := do
  let new ← Run.ofExcept (← Run.act (World.reproduce way t))
  Run.modify (·.asNative new)
  return .object new

def adopt (t : TwinId) (flag : Ownership) : Run Failure NativeValue := do
  Run.modify (World.setOwner t flag)
  clone (.object t)

def vec (x : String) : Run Failure Nat := do
  ofOption ("no vector " ++ x) (← Run.reads (·.vecVar? x))

def shared (x : String) : Run Failure Nat := do
  ofOption ("no shared pointer " ++ x) (← Run.reads (·.sharedVar? x))

/-- Hold a vector while `m` runs. -/
def keepingVec {α : Type} (i : Nat) (m : Run Failure α) : Run Failure α := do
  Run.modify (World.holdVec i)
  Run.atEnd [.vec i] (World.leaveVec i) m

/-- Hold one more pointer of a group while `m` runs. -/
def keepingShared {α : Type} (i : Nat) (m : Run Failure α) : Run Failure α := do
  let t ← Run.reads fun w => (w.group i).target
  Run.modify (World.cloneShared i)
  Run.atEnd [.shared i t] (World.dropShared i) m

def vecAppend (way : Reproduction) (i : Nat) (t : TwinId) : Run Failure NativeValue := do
  Run.ofExcept (← Run.act (World.vecAppend way i t))
  return .void

def vecAsk (q : VecQuestion) (x : String) : Run Failure NativeValue := do
  let v ← Run.reads fun w => (w.vecVar? x).map w.vec
  let v ← ofOption ("no vector " ++ x) v
  return match q with
    | .size => .int (Int64.ofNat v.items.length)
    | .isEmpty => .bool v.items.isEmpty
    | .element => .str v.element

def sharedTarget (x : String) : Run Failure TwinId := do
  let i ← shared x
  Run.reads fun w => (w.group i).target

/-- Virtual call through a shared pointer. -/
def sharedCall (i : Nat) (name : String) (args : List NativeValue) : Run Failure NativeValue := do
  let t ← Run.reads fun w => (w.group i).target
  Call.callVirtual h false t name args

end NativeOp

mutual

/-- Evaluate dynamic code. -/
def DynExpr.eval (h : Host) (f : DynFrame) : DynExpr → Run Thrown DynValue
  | .lit l => return l.toDyn
  | .arg i => do DynOp.clone (← DynOp.ofOption "no such argument" f.args[i]?)
  | .argTuple => DynOp.clone (.tuple f.args)
  | .argCount => return .int (Int64.ofNat f.args.length)
  | .this => do DynOp.clone (.object (← f.self))
  | .var x => Run.act (World.readDyn x)
  | .set x e => do
      let v ← e.eval h f
      Run.modify (World.setVar x (.dyn v))
      return .none
  | .tuple es => do return .tuple (← evalDynList h f [] es)
  | .item e i => do
      let v ← e.eval h f
      Run.holding v.handles do
        let items ← DynOp.ofOption "not a tuple" v.asTuple?
        DynOp.clone (← DynOp.ofOption "no such item" items[i]?)
  | .seq es => evalDynSeq h f .none es
  | .cond c a b => do
      let v ← c.eval h f
      Run.modify (·.drop v.handles)
      if v.truthy then a.eval h f else b.eval h f
  | .binary op a b => do
      let x ← a.eval h f
      Run.holding x.handles do
        let y ← b.eval h f
        Run.holding y.handles (DynOp.ofOption "cannot add" (op.onDyn x y))
  | .raise t => Run.throw t
  | .attempt e => do
      match ← Run.outcome (e.eval h f) with
      | .ok v => return v
      | .error (t : Thrown) =>
          Run.modify (·.record [.caught])
          return .tuple [.str t.kind, .str t.message]
  | .log text => do
      Run.modify (·.record [.note text])
      return .none
  | .attr o name => do
      let t ← DynOp.expectObject (o.eval h f)
      Run.holding [.dynamic t] (DynOp.attr t name)
  | .hasAttr o name => do
      let t ← DynOp.expectObject (o.eval h f)
      Run.holding [.dynamic t] (DynOp.hasAttr t name)
  | .setAttr o name e => do
      let t ← DynOp.expectObject (o.eval h f)
      Run.holding [.dynamic t] do
        let v ← e.eval h f
        Run.ofExcept (← Run.act (World.setAttr t name v))
        return .none
  | .call o name args => do
      let t ← DynOp.expectObject (o.eval h f)
      Run.holding [.dynamic t] do
        let vs ← DynOp.expectTuple (args.eval h f)
        Run.holding (DynValue.itemHandles vs) (Call.callMethod h t name vs)
  | .callBase o cls name args => do
      let t ← DynOp.expectObject (o.eval h f)
      Run.holding [.dynamic t] do
        let c ← DynOp.native cls
        Run.lending (.native c) do
          let vs ← DynOp.expectTuple (args.eval h f)
          Run.holding (DynValue.itemHandles vs) (DynOp.callBase h t c name vs)
  | .callFunction function args => do
      let g ← DynOp.function function
      let vs ← DynOp.expectTuple (args.eval h f)
      Run.holding (DynValue.itemHandles vs) (DynOp.callFunction h f.this g vs)
  | .new cls args => do
      let vs ← DynOp.expectTuple (args.eval h f)
      Run.holding (DynValue.itemHandles vs) (DynOp.new h f.this cls vs)
  | .newGrouped cls group => do
      let c ← DynOp.native cls
      Run.lending (.native c) do
        let g ← group.eval h f
        Run.holding g.handles (DynOp.newGrouped h c g)
  | .superInit args => do
      let t ← f.self
      let vs ← DynOp.expectTuple (args.eval h f)
      Run.holding (DynValue.itemHandles vs) do
        Run.mapError Failure.raise (Construction.superInit h t vs)
        return .none
  | .superGroups groups => do
      let gs ← evalGroups h f [] groups
      let t ← Run.unwinding (gs.flatMap ArgGroup.handles) f.self
      Run.mapError Failure.raise (Construction.superGroups h t gs)
      return .none
  | .initBase cls args => do
      let t ← f.self
      let c ← DynOp.native cls
      Run.lending (.native c) do
        let vs ← DynOp.expectTuple (args.eval h f)
        Run.holding (DynValue.itemHandles vs) (DynOp.initBase h t c vs)
  | .initParent cls args => do
      let t ← f.self
      let c ← DynOp.dynClass cls
      Run.lending (.dynamic c) do
        let vs ← DynOp.expectTuple (args.eval h f)
        Run.holding (DynValue.itemHandles vs) (DynOp.initParent h t c vs)
  | .setOwner o flag => do
      let t ← DynOp.expectObject (o.eval h f)
      Run.holding [.dynamic t] (DynOp.setOwner t flag)
  | .ask q o => do
      let t ← DynOp.expectObject (o.eval h f)
      Run.holding [.dynamic t] (DynOp.ask q t)
  | .identical a b => do
      let t ← DynOp.expectObject (a.eval h f)
      Run.holding [.dynamic t] do
        let s ← DynOp.expectObject (b.eval h f)
        Run.holding [.dynamic s] (return .bool (t == s))
  | .reproduce way o => do
      let t ← DynOp.expectObject (o.eval h f)
      Run.holding [.dynamic t] (DynOp.reproduce way t)
  | .text e => do
      let v ← e.eval h f
      Run.holding v.handles do return .str (← Run.reads fun w => v.text w.instanceText)
  | .truthy e => do
      let v ← e.eval h f
      Run.modify (·.drop v.handles)
      return .bool v.truthy
  | .held interp => do return .bool (← Run.reads (·.holdsNamed interp))
  | .classAttr cls name => DynOp.classAttr cls name
  | .setClassAttr cls name e => do
      let c ← DynOp.dynClass cls
      Run.lending (.dynamic c) do
        let v ← e.eval h f
        DynOp.setClassAttr c name v
  | .vecGet x i => do
      let v ← DynOp.vec x
      DynOp.objectOrNone (World.vecGet v i)
  | .vecRemove x i => do
      let v ← DynOp.vec x
      DynOp.objectOrNone (World.vecRemove v i)
  | .sharedGet x => do
      let i ← DynOp.shared x
      DynOp.clone (.object (← Run.reads fun w => (w.group i).target))
  | .yieldLock => DynOp.yieldLock
  | .waitStop x => DynOp.waitStop x
  | .panic text => Run.panic text
  | .native e => Run.retaining (f.this.toList.map Handle.native) do
      Run.mapError Failure.raise do
        let v ← e.eval h { this := f.this }
        Run.act (Crossing.toDynamic v)

/-- Evaluate in order.  At an error the values that are there are let go. -/
def evalDynList (h : Host) (f : DynFrame) (done : List DynValue) :
    List DynExpr → Run Thrown (List DynValue)
  | [] => return done
  | e :: es => do
      let v ← Run.unwinding (DynValue.itemHandles done) (e.eval h f)
      evalDynList h f (done ++ [v]) es

/-- Evaluate in order; every value but the last is let go before the next. -/
def evalDynSeq (h : Host) (f : DynFrame) (last : DynValue) : List DynExpr → Run Thrown DynValue
  | [] => return last
  | e :: es => do
      Run.modify (·.drop last.handles)
      let v ← e.eval h f
      evalDynSeq h f v es

def GroupExpr.eval (h : Host) (f : DynFrame) : GroupExpr → Run Thrown ArgGroup
  | .mk positional names values => do
      let vs ← DynOp.expectTuple (positional.eval h f)
      let ks ← Run.unwinding (DynValue.itemHandles vs) (evalDynList h f [] values)
      let keywords := ks.zipIdx.map fun (v, i) => (names.getD i "", v)
      return { positional := vs, keywords }

def evalGroups (h : Host) (f : DynFrame) (done : List ArgGroup) :
    List GroupExpr → Run Thrown (List ArgGroup)
  | [] => return done
  | g :: gs => do
      let v ← Run.unwinding (done.flatMap ArgGroup.handles) (g.eval h f)
      evalGroups h f (done ++ [v]) gs

/-- Evaluate native code. -/
def NativeExpr.eval (h : Host) (f : NativeFrame) : NativeExpr → Run Failure NativeValue
  | .lit l => return l.toNative
  | .arg i => do NativeOp.clone (← NativeOp.ofOption "no such argument" f.args[i]?)
  | .argCount => return .int (Int64.ofNat f.args.length)
  | .this => do NativeOp.clone (.object (← NativeOp.ofOption "no this" f.this))
  | .var x => do NativeOp.ofOption "tuple in native code" (← Run.act (World.readNative x))
  | .set x e => do
      let v ← e.eval h f
      Run.modify (World.setVar x (.native v))
      return .void
  | .seq es => evalNativeSeq h f .void es
  | .cond c a b => do
      let v ← c.eval h f
      Run.modify (·.drop v.handles)
      if v.asBool? = some true then a.eval h f else b.eval h f
  | .binary op a b => do
      let x ← a.eval h f
      Run.holding x.handles do
        let y ← b.eval h f
        Run.holding y.handles (NativeOp.ofOption "cannot add" (op.onNative x y))
  | .fail failure => Run.raise failure
  | .attempt e => do
      match ← Run.outcome (e.eval h f) with
      | .ok v => return v
      | .error (failure : Failure) =>
          Run.modify (·.record [.caught])
          return .str ("caught " ++ failure.what)
  | .log text => do
      Run.modify (·.record [.note text])
      return .void
  | .typeName e => do
      let v ← e.eval h f
      Run.holding v.handles do return .str (← Run.reads fun w => v.typeName w.census)
  | .field o name => do
      let t ← NativeOp.expectObject (o.eval h f)
      Run.holding [.native t] (NativeOp.result (World.getField t name))
  | .fieldOf o cls name => do
      let t ← NativeOp.expectObject (o.eval h f)
      Run.holding [.native t] (NativeOp.result (World.getFieldOf t cls name))
  | .fieldAs type o name => do
      let t ← NativeOp.expectObject (o.eval h f)
      Run.holding [.native t] (NativeOp.result (World.getFieldAs type t name))
  | .setField o name e => do
      let t ← NativeOp.expectObject (o.eval h f)
      Run.holding [.native t] do
        let v ← e.eval h f
        Run.ofExcept (← Run.act (World.setField t name v))
        return .void
  | .callVirtual constOnly o name args => do
      let t ← NativeOp.expectObject (o.eval h f)
      Run.holding [.native t] do
        let vs ← evalNativeList h f [] args
        Call.withArgs vs (Call.callVirtual h constOnly t name vs)
  | .callMethod o name args => do
      let t ← NativeOp.expectObject (o.eval h f)
      Run.holding [.native t] do
        let vs ← evalNativeList h f [] args
        Call.withArgs vs (Call.callMethodNative h t name vs)
  | .callBase o cls name args => do
      let t ← NativeOp.expectObject (o.eval h f)
      Run.holding [.native t] do
        let c ← NativeOp.native cls
        Run.lending (.native c) do
          let vs ← evalNativeList h f [] args
          Call.withArgs vs (Call.callBaseNative h t c name vs)
  | .construct cls args => do
      let c ← NativeOp.native cls
      Run.lending (.native c) do
        let vs ← evalNativeList h f [] args
        Call.withArgs vs (NativeOp.construct h c vs)
  | .invoke function args => do
      let g ← NativeOp.function function
      let vs ← evalNativeList h f [] args
      Call.withArgs vs (Call.invoke h g vs)
  | .initField name e => do
      let v ← e.eval h f
      let s ← Run.unwinding v.handles (NativeOp.site f)
      Run.ofExcept (← Run.act (s.set name v))
      return .void
  | .getInit name => do
      let s ← NativeOp.site f
      Run.act (s.get name)
  | .ask q o => do
      let t ← NativeOp.expectObject (o.eval h f)
      Run.holding [.native t] (NativeOp.ask q t)
  | .identical a b => do
      let t ← NativeOp.expectObject (a.eval h f)
      Run.holding [.native t] do
        let s ← NativeOp.expectObject (b.eval h f)
        Run.holding [.native s] (return .bool (t == s))
  | .reproduce way o => do
      let t ← NativeOp.expectObject (o.eval h f)
      Run.holding [.native t] (NativeOp.reproduce way t)
  | .adopt o flag => do
      let t ← NativeOp.expectObject (o.eval h f)
      Run.holding [.native t] (NativeOp.adopt t flag)
  | .vecPush x o => do
      let i ← NativeOp.vec x
      NativeOp.keepingVec i do
        let t ← NativeOp.expectObject (o.eval h f)
        Run.holding [.native t] (NativeOp.vecAppend .copy i t)
  | .vecMove x o => do
      let i ← NativeOp.vec x
      NativeOp.keepingVec i do
        let t ← NativeOp.expectObject (o.eval h f)
        Run.holding [.native t] (NativeOp.vecAppend .move i t)
  | .vecClear x => do
      let i ← NativeOp.vec x
      Run.modify (World.vecClear i)
      return .void
  | .vecNative x i => do
      let v ← NativeOp.vec x
      return (← Run.act (World.vecNative v i)).elim .null .object
  | .vecAsk q x => NativeOp.vecAsk q x
  | .sharedNative x => do NativeOp.clone (.object (← NativeOp.sharedTarget x))
  | .sharedCall x name args => do
      let i ← NativeOp.shared x
      NativeOp.keepingShared i do
        let vs ← evalNativeList h f [] args
        Call.withArgs vs (NativeOp.sharedCall h i name vs)
  | .sharedCount x => do
      let i ← NativeOp.shared x
      return .int (Int64.ofNat (← Run.reads fun w => (w.group i).count))
  | .held interp => do return .bool (← Run.reads (·.holdsNamed interp))
  | .onThread e => Run.onThread (e.eval h { f with site := none })
  | .dynamic e => Run.retaining (f.this.toList.map Handle.dynamic) do
      let v ← Run.mapError Thrown.capture (e.eval h { this := f.this })
      Run.holding v.handles (NativeOp.raw v)

/-- Evaluate in order.  At an error the values that are there are let go. -/
def evalNativeList (h : Host) (f : NativeFrame) (done : List NativeValue) :
    List NativeExpr → Run Failure (List NativeValue)
  | [] => return done
  | e :: es => do
      let v ← Run.unwinding (done.flatMap NativeValue.handles) (e.eval h f)
      evalNativeList h f (done ++ [v]) es

/-- Evaluate in order; every value but the last is let go before the next. -/
def evalNativeSeq (h : Host) (f : NativeFrame) (last : NativeValue) :
    List NativeExpr → Run Failure NativeValue
  | [] => return last
  | e :: es => do
      Run.modify (·.drop last.handles)
      let v ← e.eval h f
      evalNativeSeq h f v es

end

/-- The host that evaluates bodies, with calls nested to the given depth.  That a
dynamic body is entered goes into the journal. -/
def Host.nested (dispatcher : Dispatcher) : Nat → Host
  | 0 => Host.exhausted dispatcher
  | depth + 1 =>
      { dispatcher
        native := fun f e => e.eval (Host.nested dispatcher depth) f
        dynamic := fun entry t args e => do
          Run.modify (World.enter entry t)
          e.eval (Host.nested dispatcher depth) { this := some t, args } }

end TwinObject
