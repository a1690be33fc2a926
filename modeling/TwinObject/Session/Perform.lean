/-
Performing steps.  A step answers with a report, or with the error that ended
it; what it evaluated for itself it lets go.  Threads have had their turns
before a step that waits for one.
-/
import TwinObject.Session.Operand
import TwinObject.Session.Thread

namespace TwinObject

namespace Step

open Report Operand

variable (h : Host)

/-- The index of the group that a new shared pointer belongs to, and its target. -/
def makeGroup : SharedSource → Run Thrown (Nat × TwinId)
  | .dynamic label args => do
      let c ← find (·.classNamed label)
      Run.lending (.dynamic c) do
        withArgs h args fun vs => do
          let t ← Construction.newDynamic h c vs
          Run.act (World.share t)
  | .native label args interp => do
      let c ← find (·.nativeNamed label)
      let i ← find (·.interpNamed interp)
      Run.lending (.native c) do
        withArgs h args fun vs => do
          let t ← Run.mapError Failure.raise (Construction.instantiate h c i vs)
          Run.act (World.share t)
  | .clone x => do
      let i ← DynOp.shared x
      let t ← Run.reads fun w => (w.group i).target
      Run.modify (World.cloneShared i)
      return (i, t)
  | .copy e => withObject h e fun t => do
      let new ← Run.mapError Failure.raise do Run.ofExcept (← Run.act (World.copyTwin t))
      Run.act (World.share new)

/-- Declare a native class after the defaults in it are evaluated. -/
def declareNativeClass (label : String) (spec : NativeSpec) : Run Failure Report := do
  let parents ← findNative (·.nativesNamed spec.parents)
  Run.lendingAll (parents.map Kind.native) do
    let decl ← nativeDecl h spec parents
    Run.ofExcept (← Run.act (World.declareNative label decl))
    return null

/-- The foundation that the labels of a class declaration stand for, if it names
any. -/
def findBase : Option BaseRef → Run Thrown (Option BaseSpec)
  | none => return none
  | some ref => return some (← find ref.find)

/-- Declare a dynamic class after its attributes are evaluated. -/
def declareDynamicClass (label name : String) (base : Option BaseRef) (methods : List Method)
    (initializer : Option DynExpr) (attrs : List (String × DynExpr)) (interp : String) :
    Run Thrown Report := do
  let spec ← findBase base
  let i ← find (·.interpNamed interp)
  Run.lendingAll (spec.elim [] BaseSpec.kinds) do
    let values ← evalDynList h {} [] (attrs.map (·.2))
    let decl : ClassDecl := { name, base := spec, methods, initializer }
    let c ← Run.mapError Failure.raise do
      Run.ofExcept (← Run.act (World.declareClass decl i ((attrs.map (·.1)).zip values)))
    Run.modify (World.nameClass label c)
    return null

/-- Show a dynamic value and bind it, or let go of it. -/
def keepDyn (x : Option String) (v : DynValue) : Act Report := do
  let r ← World.showDyn v
  modify (x.elim (·.drop v.handles) fun x => World.setVar x (.dyn v))
  return r

/-- Show a native value and bind it, or let go of it. -/
def keepNative (x : Option String) (v : NativeValue) : Act Report := do
  let r ← World.showNative v
  modify (x.elim (·.drop v.handles) fun x => World.setVar x (.native v))
  return r

/-- What was taken out of a variable is let go.  Answers for an instance
whether that released it. -/
def releaseBinding (b : Binding) : Act Report := do
  modify (World.dropBinding b)
  let w ← get
  return b.twin?.elim null fun t => bool (w.twin t).isReleased

/-- The handle counts of the instance in a variable. -/
def handleCounts (w : World) (x : String) : Report :=
  optional (((w.var? x).bind Binding.twin?).map fun t =>
    fields [("native", nat (w.twin t).nativeCount), ("dynamic", nat (w.twin t).dynamicCount)])

/-- The slot of a table that a call reaches, and the arguments it gets. -/
def resolveIn (table : VTable) (conv : Conversion Act) (className name : String)
    (constOnly : Bool) : Run Failure Report := do
  let s ← Run.ofExcept (← Run.act (table.resolve conv className name constOnly))
  return fields [("index", nat s.index), ("args", ← Run.act (presentAll s.args))]

def resolveCall (ref : ClassRef) (className name : String) (constOnly : Bool) :
    CallArgs → Act Answer
  | .native es => Answer.ofFailed do
      let table ← findNative (tableOf ref)
      withNativeArgs h es fun vs =>
        resolveIn table (Crossing.fromNative vs) className name constOnly
  | .dynamic es => Answer.afterOperands (evalDynList h {} [] es) fun vs =>
      Answer.ofFailed (Run.holding (vs.flatMap DynValue.handles) do
        let table ← findNative (tableOf ref)
        resolveIn table (Crossing.fromDynamic "resolve" vs) className name constOnly)

/-- Set the lock-release flag of the methods of a name. -/
def gateMethods (label method : String) (release : Bool) : Run Failure Report := do
  let c ← findNative (·.nativeNamed label)
  match c.findMethod? method with
  | none => Run.raise (.noSuchMethod c.name method)
  | some (declaring, _) =>
      Run.modify (·.setGate (.method declaring method) release)
      return null

def gateFunction (label : String) (release : Bool) : Run Thrown Report := do
  let f ← find (·.functionNamed label)
  let before ← Run.reads (·.releases f.gate)
  Run.modify (·.setGate f.gate release)
  let after ← Run.reads (·.releases f.gate)
  return fields
    [("before", bool before), ("after", bool after), ("name", text f.name),
      ("params", texts (f.params.map NativeType.text)), ("ret", text f.ret.text)]

def structureText : StructureOf → Act Answer
  | .native label => Answer.ofThrown do
      let c ← find (·.nativeNamed label)
      Run.reads fun w => text (Structure.ofNativeClass w c)
  | .dynamic label => Answer.ofThrown do
      return text (Structure.ofDynamicClass (← find (·.classNamed label)))
  | .function label => Answer.ofThrown do
      let f ← find (·.functionNamed label)
      Run.reads fun w => text (Structure.ofFunction w f)
  | .method label name => Answer.ofThrown do
      let c ← find (·.classNamed label)
      return text (Structure.option ((c.findMethod? name).map Structure.ofMethod))
  | .shared x => Answer.ofThrown do
      let i ← DynOp.shared x
      Run.modify (World.cloneShared i)
      let s ← Run.reads fun w => Structure.ofShared w (w.group i)
      Run.modify (World.dropShared i)
      return text s
  | .nativeValue e => Answer.ofFailed (withNative h e fun v =>
      Run.reads fun w => text (Structure.ofNative w v))
  | .dynValue e => Answer.ofThrown (withDynamic h e fun v =>
      Run.reads fun w => text (Structure.ofDyn w v))

def counterReport (i : InterpId) (handoffs : Bool) (w : World) : Report :=
  let s := w.interp i
  fields
    ([("dispatches", nat s.counters.dispatches), ("propagated", nat s.counters.propagated),
        ("gated", nat s.counters.gated)]
      ++ if handoffs then [("handoffs", nat s.lock.handoffs)] else [])

/-- Do something with an interpreter's lock.  Answers what came of it. -/
def moveLock (i : InterpId) : LockAction → Act Report
  | .acquire => do
      let _ ← World.openGuard i
      return null
  | .try => do return bool (← World.openGuard i)
  | .tryElsewhere => do return bool (← World.tryElsewhere i)
  | .suspend => do return bool (← World.openSuspension i)
  | .leave => do
      match ← World.closeGuard with
      | none => return text "none"
      | some (.held _) => return text "held"
      | some (.suspended _ depth) => return list [text "suspended", bool (decide (depth > 0))]
  | .look => return null

/-- Do something with a lock and look at it afterwards. -/
def lockReport (action : LockAction) (i : InterpId) : Act Report := do
  let result ← moveLock i action
  let w ← get
  let l := w.lock i
  return fields
    [("result", result), ("held", bool (l.isHeldBy w.currentThread)), ("locked", bool l.isLocked),
      ("held_elsewhere", bool (l.isHeldBy w.nextThread)), ("handoffs", nat l.handoffs)]

def threadVar (x : String) : Run Thrown Nat := do
  DynOp.ofOption ("no thread " ++ x) (← Run.reads (·.threadVar? x))

/-- Start a thread.  Answers the part of its name that is not a number. -/
def startThread (x : String) (e : DynExpr) (interp : String) : Run Thrown Report := do
  let i ← find (·.interpNamed interp)
  Run.modify fun w =>
    World.setVar x (.thread w.threads.size)
      { w with threads := w.threads.push ⟨i, e, .waiting⟩ }
  return text ((← Run.reads fun w => (w.interp i).options.threadName) ++ "-")

/-- Take the result of a thread that has come to its end. -/
def joinThread (x : String) : Run Thrown Report := do
  let index ← threadVar x
  let _ ← Run.act (World.takeVar x)
  Run.await fun w => if w.threadDone index then some w else none
  match ← Run.act (World.takeResult index) with
  | some (.ok v) => Run.act (presentDyn v)
  | some (.error t) => Run.raise t
  | none => scriptError ("no result of " ++ x)

/-- Whether a thread has come to its end in the time it was given. -/
def threadState (x : String) : Run Thrown Report := do
  let index ← threadVar x
  let done ← Run.reads (·.threadDone index)
  return fields [("done", bool done), ("alive", bool !done)]

def stopSignal (x : String) : Run Thrown Report := do
  match (← Run.reads (·.signalVar? x)) with
  | none => scriptError ("no stop signal " ++ x)
  | some i =>
      let before ← Run.reads (·.signalSet i)
      Run.modify fun w => { w with signals := w.signals.set! i true }
      return list [bool before, bool true]

/-- Perform one step. -/
def perform : Step → Act Answer
  | .declareNative label spec => Answer.ofFailed (declareNativeClass h label spec)
  | .declareClass label name base methods initializer attrs interp =>
      Answer.ofThrown (declareDynamicClass h label name base methods initializer attrs interp)
  | .declareFunction label name params ret body release => do
      modify (World.declareFunction label name params ret body release)
      return .ok null
  | .declareInterp label o => do
      modify (World.declareInterp label o)
      return .ok (list [bool o.warnMissingDtor, bool o.strictVoid, text o.threadName])
  | .declareVec x element => do
      modify (World.declareVec x element)
      return .ok null
  | .declareSignal x => do
      modify (World.declareSignal x)
      return .ok null
  | .makeShared x source => Answer.ofThrown do
      let (i, t) ← makeGroup h source
      let count ← Run.reads fun w => (w.group i).count
      let target ← Run.act (World.showTwin t)
      let owner ← Run.reads fun w => (w.twin t).owner.text
      Run.modify (World.setVar x (.shared i))
      return fields [("target", target), ("count", nat count), ("owner", text owner)]
  | .evalDyn e x => Answer.ofThrown do Run.act (keepDyn x (← dynamic h e))
  | .evalNative e x => Answer.ofFailed do Run.act (keepNative x (← native h e))
  | .dropVar x => do
      match ← World.takeVar x with
      | none => return .ok null
      | some b => return .ok (← releaseBinding b)
  | .countHandles x => do return .ok (handleCounts (← get) x)
  | .stop x => Answer.ofThrown (stopSignal x)
  | .nativeInfo label => Answer.ofThrown do
      let c ← find (·.nativeNamed label)
      Run.act (Inspect.nativeClass c)
  | .nativeQuery label name => Answer.ofThrown do
      let c ← find (·.nativeNamed label)
      Run.reads fun w => Inspect.nativeQuery w c name
  | .slotPosition ref key => Answer.ofThrown do
      return Inspect.slotPosition (← find (tableOf ref)) key
  | .resolve ref className name constOnly args => resolveCall h ref className name constOnly args
  | .setMethodGate label method release => Answer.ofFailed (gateMethods label method release)
  | .setFunctionGate label release => Answer.ofThrown (gateFunction label release)
  | .compose bases contains => Answer.ofFailed do
      let bs ← findNative (·.nativesNamed bases)
      return Inspect.composition (← Run.ofExcept (Composition.compose bs)) contains
  | .layout bases names within => Answer.ofThrown do
      let bs ← find (·.nativesNamed bases)
      Run.act (Inspect.layout (.of bs) names within)
  | .classInfo label => Answer.ofThrown do
      let c ← find (·.classNamed label)
      Run.reads fun w => Inspect.dynamicClass w c
  | .classQuery label name => Answer.ofThrown do
      let c ← find (·.classNamed label)
      Run.act (Inspect.classQuery c name)
  | .inspect e => Answer.ofThrown (withObject h e fun t => Run.reads fun w => Inspect.twin w t)
  | .counters interp handoffs => Answer.ofThrown do
      let i ← find (·.interpNamed interp)
      Run.reads (counterReport i handoffs)
  | .diagnostics interp => Answer.ofThrown do
      let i ← find (·.interpNamed interp)
      return list ((← Run.reads (·.interp i)).diagnostics.map ofWarning)
  | .structure what => structureText h what
  | .lock action interp => Answer.ofThrown do
      let i ← find (·.interpNamed interp)
      Run.act (lockReport action i)
  | .spawn x e interp => Answer.ofThrown (startThread x e interp)
  | .join x => Answer.ofThrown (joinThread x)
  | .joinTimeout x => Answer.ofThrown (threadState x)
  | .isAlive x => Answer.ofThrown do
      let index ← threadVar x
      Run.reads fun w => bool !(w.threadDone index)
  | .coerce e ty => Answer.ofFailed (withNative h e fun v =>
      Run.act do World.showOptional presentNative (← Crossing.coerceNative v ty))
  | .readAs e ty => Answer.ofFailed (withNative h e fun v => do
      let census ← Run.reads World.census
      Run.act (World.showNative (← Run.ofExcept (v.readAs census ty))))
  | .toNative e ty context => Answer.afterOperands (dynamic h e) fun v =>
      Answer.ofFailed (Run.holding v.handles do
        Run.act (presentNative (← Run.ofExcept (← Run.act (Crossing.toNative context v ty)))))
  | .returnToNative e ty context strict => Answer.afterOperands (dynamic h e) fun v =>
      Answer.ofFailed do
        let r ← Run.ofExcept (← Run.act (Crossing.returnToNative context strict v ty))
        Run.act (presentNative r)
  | .toDynamic e => Answer.ofFailed do
      let v ← native h e
      Run.act do presentDyn (← Crossing.toDynamic v)
  | .widens e ty => Answer.ofThrown (withDynamic h e fun v => return bool (v.widens ty))
  | .raw e => Answer.afterOperands (dynamic h e) fun v =>
      Answer.ofFailed (Run.holding v.handles do Run.act (presentNative (← NativeOp.raw v)))
  | .argsToNative es params fit => Answer.ofThrown (withArgs h es fun vs =>
      Run.act do World.showOptional presentAll (← Crossing.argsToNative "args" vs params fit))
  | .coerceArgs es params fit => Answer.ofFailed (withNativeArgs h es fun vs =>
      Run.act do World.showOptional presentAll (← Crossing.coerceArgs vs params fit))
  | .dynValue e => Answer.ofThrown (withDynamic h e fun v => Run.act (Inspect.dynValue v))
  | .nativeValue e => Answer.ofFailed (withNative h e fun v => Run.act (Inspect.nativeValue v))
  | .describeType ty => return .ok (Inspect.type ty)
  | .slotKey key other => return .ok (Inspect.slotKey key other)
  | .access a => return .ok (list [bool (a.visible false), bool (a.visible true)])
  | .copyPolicy p => return .ok (Inspect.copyPolicy p)
  | .ownership o => return .ok (Inspect.ownership o)
  | .failure f => return .ok (Inspect.failureText f)
  | .exception t => return .ok (Inspect.exception t)
  | .pending t => return .ok (fields [("display", text t.what), ("what", text t.what)])
  | .warning w => return .ok (ofWarning w)

end Step

end TwinObject
