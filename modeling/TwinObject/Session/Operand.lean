/-
Operands of a session's steps: code at the top level is evaluated, what it
gives is held while the step uses it, and results are shown and let go.
-/
import TwinObject.Session.Inspect

namespace TwinObject

namespace Answer

/-- The answer to code that came to an end; a step that does not is never
answered. -/
def ofCourse {ε α : Type} (value : α → Act Answer) (raised : ε → Answer) (m : Run ε α) :
    Act Answer :=
  fun w =>
    match m w with
    | .ended (.value a) w => value a w
    | .ended (.raised e) w => (raised e, w)
    | _ => (.stuck, w)

/-- The answer of a step whose errors are dynamic exceptions. -/
def ofThrown (m : Run Thrown Report) : Act Answer :=
  ofCourse (fun r => pure (.ok r)) .thrown m

/-- The answer of a step whose errors are native failures. -/
def ofFailed (m : Run Failure Report) : Act Answer :=
  ofCourse (fun r => pure (.ok r)) .failed m

/-- The answer of a step that goes on with dynamic operands; an exception that
ends their evaluation is the answer. -/
def afterOperands {α : Type} (m : Run Thrown α) (next : α → Act Answer) : Act Answer :=
  ofCourse next .thrown m

end Answer

namespace Operand

variable (h : Host)

/-- Evaluate dynamic code at the top level, with neither an instance nor
arguments. -/
def dynamic (e : DynExpr) : Run Thrown DynValue :=
  e.eval h {}

def native (e : NativeExpr) : Run Failure NativeValue :=
  e.eval h {}

/-- Evaluate to an instance, which is held while `m` runs. -/
def withObject {α : Type} (e : DynExpr) (m : TwinId → Run Thrown α) : Run Thrown α := do
  let t ← DynOp.expectObject (dynamic h e)
  Run.holding [.dynamic t] (m t)

/-- Evaluate a dynamic value, which is held while `m` runs. -/
def withDynamic {α : Type} (e : DynExpr) (m : DynValue → Run Thrown α) : Run Thrown α := do
  let v ← dynamic h e
  Run.holding v.handles (m v)

def withNative {α : Type} (e : NativeExpr) (m : NativeValue → Run Failure α) : Run Failure α := do
  let v ← native h e
  Run.holding v.handles (m v)

/-- Evaluate arguments, which are held while `m` runs. -/
def withArgs {α : Type} (es : List DynExpr) (m : List DynValue → Run Thrown α) : Run Thrown α := do
  let vs ← evalDynList h {} [] es
  Run.holding (vs.flatMap DynValue.handles) (m vs)

def withNativeArgs {α : Type} (es : List NativeExpr) (m : List NativeValue → Run Failure α) :
    Run Failure α := do
  let vs ← evalNativeList h {} [] es
  Run.holding (vs.flatMap NativeValue.handles) (m vs)

/-- Evaluate the defaults of parameters, after those at hand. -/
def params (done : List Param) : List ParamSpec → Run Failure (List Param)
  | [] => return done
  | p :: ps => do
      let default ← Run.unwinding (done.flatMap Param.handles) (p.default.mapM (native h))
      params (done ++ [⟨p.name, p.type, default⟩]) ps

/-- Evaluate the defaults in constructors, after the given members and the
constructors at hand. -/
def constructors (ms : List MemberDecl) (done : List Constructor) :
    List ConstructorSpec → Run Failure (List Constructor)
  | [] => return done
  | c :: cs => do
      let ps ← Run.unwinding
        (ms.flatMap MemberDecl.handles ++ done.flatMap Constructor.handles) (params h [] c.params)
      constructors ms (done ++ [⟨ps, c.access, c.body⟩]) cs

/-- Evaluate the defaults of members and declare these, after those at hand. -/
def members (done : List MemberDecl) : List MemberSpec → Run Failure (List MemberDecl)
  | [] => return done
  | m :: ms => do
      let default ← Run.unwinding (done.flatMap MemberDecl.handles) (native h m.default)
      let declared ← Run.act (World.declareMember m.name m.type m.access default)
      members (done ++ [declared]) ms

/-- Look something up in the world. -/
def find {α : Type} (f : World → Except Thrown α) : Run Thrown α := do
  Run.ofExcept (← Run.reads f)

def findNative {α : Type} (f : World → Except Thrown α) : Run Failure α := do
  Run.ofExcept ((← Run.reads f).mapError Thrown.capture)

/-- The declaration that a specification stands for, below the given parents. -/
def nativeDecl (s : NativeSpec) (parents : List NativeClass) : Run Failure NativeDecl := do
  let ms ← members h [] s.members
  let cs ← constructors h ms [] s.constructors
  return {
    name := s.name
    parents
    members := ms
    constructors := cs
    virtuals := s.virtuals
    methods := s.methods
    virtualDtor := s.virtualDtor
    copyPolicy := s.copyPolicy
    hooks := s.hooks }

/-- The virtual table of a class of either side. -/
def tableOf (ref : ClassRef) (w : World) : Except Thrown VTable :=
  match ref with
  | .native label => return (← w.nativeNamed label).vtable
  | .dynamic label => return (← w.classNamed label).vtable

/-- Show a native value and let go of it. -/
def presentNative (v : NativeValue) : Act Report := do
  let r ← World.showNative v
  modify (·.drop v.handles)
  return r

/-- Show a dynamic value and let go of it. -/
def presentDyn (v : DynValue) : Act Report := do
  let r ← World.showDyn v
  modify (·.drop v.handles)
  return r

/-- Show converted arguments and let go of them. -/
def presentAll (vs : List NativeValue) : Act Report := do
  let rs ← vs.mapM World.showNative
  modify (·.drop (vs.flatMap NativeValue.handles))
  return .list rs

end Operand

end TwinObject
