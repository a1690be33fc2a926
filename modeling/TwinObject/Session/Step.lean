/-
The steps of a session: declarations, evaluation of code, inspection, locks and
threads, and single conversions.
-/
import TwinObject.Session.Report

namespace TwinObject

/-- A class of either side, by the label of its declaration. -/
inductive ClassRef where
  | native (label : String)
  | dynamic (label : String)
deriving Repr, Inhabited

/-- What a dynamic class is declared over, by labels. -/
inductive BaseRef where
  | native (label : String)
  | composed (labels : List String)
  | dynamic (label : String)
deriving Repr, Inhabited

/-- Where a shared pointer comes from. -/
inductive SharedSource where
  | dynamic (cls : String) (args : List DynExpr)
  | native (cls : String) (args : List DynExpr) (interp : String)
  | clone (x : String)
  | copy (e : DynExpr)
deriving Inhabited

/-- The arguments of a call that is only resolved. -/
inductive CallArgs where
  | dynamic (args : List DynExpr)
  | native (args : List NativeExpr)
deriving Inhabited

inductive LockAction where
  | acquire
  | try
  | tryElsewhere
  | suspend
  | leave
  | look
deriving DecidableEq, Repr, Inhabited

/-- What is written out in structural text. -/
inductive StructureOf where
  | native (label : String)
  | dynamic (label : String)
  | function (label : String)
  | method (cls name : String)
  | shared (x : String)
  | nativeValue (e : NativeExpr)
  | dynValue (e : DynExpr)
deriving Inhabited

/-- A constructor parameter, with code for its default. -/
structure ParamSpec where
  name : String
  type : NativeType
  default : Option NativeExpr
deriving Inhabited

structure ConstructorSpec where
  params : List ParamSpec
  access : Access
  body : NativeExpr
deriving Inhabited

/-- A data member, with code for its default. -/
structure MemberSpec where
  name : String
  type : NativeType
  access : Access
  default : NativeExpr
deriving Inhabited

/-- A native class as a session declares it, its parents by labels. -/
structure NativeSpec where
  name : String
  parents : List String
  members : List MemberSpec
  constructors : List ConstructorSpec
  virtuals : List VirtualDecl
  methods : List MethodDecl
  virtualDtor : Bool
  copyPolicy : CopyPolicy
  hooks : List String
deriving Inhabited

/-- One thing that a session is asked to do. -/
inductive Step where
  | declareNative (label : String) (spec : NativeSpec)
  | declareClass (label name : String) (base : Option BaseRef) (methods : List Method)
      (initializer : Option DynExpr) (attrs : List (String × DynExpr)) (interp : String)
  | declareFunction (label name : String) (params : List NativeType) (ret : NativeType)
      (body : NativeExpr) (release : Bool)
  | declareInterp (label : String) (options : InterpOptions)
  | declareVec (x element : String)
  | declareSignal (x : String)
  | makeShared (x : String) (source : SharedSource)
  | evalDyn (e : DynExpr) (x : Option String)
  | evalNative (e : NativeExpr) (x : Option String)
  | dropVar (x : String)
  | countHandles (x : String)
  | stop (x : String)
  | nativeInfo (label : String)
  | nativeQuery (label name : String)
  | slotPosition (cls : ClassRef) (key : SlotKey)
  | resolve (cls : ClassRef) (className name : String) (constOnly : Bool) (args : CallArgs)
  | setMethodGate (label method : String) (release : Bool)
  | setFunctionGate (label : String) (release : Bool)
  | compose (bases contains : List String)
  | layout (bases names : List String) (within : List (String × String))
  | classInfo (label : String)
  | classQuery (label name : String)
  | inspect (e : DynExpr)
  | counters (interp : String) (handoffs : Bool)
  | diagnostics (interp : String)
  | structure (what : StructureOf)
  | lock (action : LockAction) (interp : String)
  | spawn (x : String) (e : DynExpr) (interp : String)
  | join (x : String)
  | joinTimeout (x : String)
  | isAlive (x : String)
  | coerce (e : NativeExpr) (type : NativeType)
  | readAs (e : NativeExpr) (type : PlainType)
  | toNative (e : DynExpr) (type : NativeType) (context : String)
  | returnToNative (e : DynExpr) (type : NativeType) (context : String) (strict : Bool)
  | toDynamic (e : NativeExpr)
  | widens (e : DynExpr) (type : NativeType)
  | raw (e : DynExpr)
  | argsToNative (args : List DynExpr) (params : List NativeType) (fit : Fit)
  | coerceArgs (args : List NativeExpr) (params : List NativeType) (fit : Fit)
  | dynValue (e : DynExpr)
  | nativeValue (e : NativeExpr)
  | describeType (type : NativeType)
  | slotKey (key : SlotKey) (other : Option SlotKey)
  | access (a : Access)
  | copyPolicy (p : CopyPolicy)
  | ownership (o : Ownership)
  | failure (f : Failure)
  | exception (t : Thrown)
  | pending (t : Thrown)
  | warning (w : LifetimeWarning)
deriving Inhabited

/-- How a step ended: with a report, a dynamic exception, a native failure, or
not at all. -/
inductive Answer where
  | ok (r : Report)
  | thrown (t : Thrown)
  | failed (f : Failure)
  | stuck
deriving Inhabited

end TwinObject
