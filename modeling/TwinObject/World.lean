/-
The world in which two-sided objects live: the twins with their handle counts,
the state of classes and interpreters, containers, and what code can name.
-/
import TwinObject.Attributes
import TwinObject.DynamicClass
import TwinObject.Lock

namespace TwinObject

/-- Class of a twin: a plain native class, or a dynamic class over native
bases. -/
inductive Kind where
  | native (c : NativeClass)
  | dynamic (c : DynamicClass)
deriving Inhabited

namespace Kind

def name : Kind → String
  | native c => c.name
  | dynamic c => c.name

def vtable : Kind → VTable
  | native c => c.vtable
  | dynamic c => c.vtable

def bases : Kind → List NativeClass
  | native c => [c]
  | dynamic c => c.composition.bases

def layout (k : Kind) : Layout :=
  .of k.bases

/-- The dynamic classes that a class is made of, nearest first. -/
def chain : Kind → List ClassDef
  | native _ => []
  | dynamic c => c.chain

/-- Dynamic classes see the members that their native bases keep for derived
classes. -/
def fromDerived : Kind → Bool
  | native _ => false
  | dynamic _ => true

/-- Whether two classes come from the same declaration. -/
def same : Kind → Kind → Bool
  | native a, native b => a.id = b.id
  | dynamic a, dynamic b => a.id = b.id
  | _, _ => false

def isA (k : Kind) (name : String) : Bool :=
  k.layout.isA name ||
    match k with
    | native c => c.isA name
    | dynamic c => c.isA name

end Kind

/-- The classes that a class declaration refers to. -/
def BaseSpec.kinds : BaseSpec → List Kind
  | native c => [.native c]
  | composed cs => cs.map .native
  | dynamic c => [.dynamic c]

/-- How far a twin has come: it exists as long as there are handles to it, and
when the last one is gone its contents are let go before its class is. -/
inductive Stage where
  | live
  | leaving
  | gone
deriving DecidableEq, Repr, Inhabited

/-- The record behind the handles of one instance: its native storage, its
dynamic attributes, who owns it, which bases are constructed, and how many
handles of each side exist. -/
structure Twin where
  interp : InterpId
  kind : Kind
  storage : List (List NativeValue)
  attrs : Attributes
  owner : Ownership
  constructed : List Bool
  moved : Bool
  /-- Whether constructors are at work on the storage, which nobody else can
  begin to fill meanwhile. -/
  filling : Bool
  nativeCount : Nat
  dynamicCount : Nat
  stage : Stage
deriving Inhabited

namespace Twin

def name (t : Twin) : String := t.kind.name

def layout (t : Twin) : Layout := t.kind.layout

/-- Whether there are no more handles to the twin. -/
def isReleased (t : Twin) : Bool :=
  t.stage != .live

/-- All handles inside a twin, in the order in which they are dropped. -/
def contents (t : Twin) : List Handle :=
  t.storage.flatten.flatMap NativeValue.handles ++ t.attrs.handles

/-- Whether every base is constructed. -/
def isInitialized (t : Twin) : Bool :=
  t.constructed.all id

def valueAt? (t : Twin) (p : Place) : Option NativeValue := do
  let segment ← t.storage[p.segment]?
  segment[p.index]?

def setValue (t : Twin) (p : Place) (v : NativeValue) : Twin :=
  { t with storage := t.storage.modify p.segment (·.set p.index v) }

/-- The constructed bases, in layout order. -/
def builtBases (t : Twin) : List BaseRange :=
  ((t.layout.bases.zip t.constructed).filter (·.2)).map (·.1)

/-- The segments of all constructed bases, in layout order. -/
def builtSegments (t : Twin) : List NativeClass :=
  t.builtBases.flatMap t.layout.segmentsIn

/-- The segments of all constructed bases in the order of their destruction:
the last base first, and in each the most derived class first. -/
def razedSegments (t : Twin) : List NativeClass :=
  t.builtBases.reverse.flatMap fun b => (t.layout.segmentsDown b).map (·.1)

end Twin

/-- How a body of dynamic code is entered: through a slot, as a method by its name,
as the initializer of a new instance, or as one that another initializer goes on
with. -/
inductive Entry where
  | slot
  | method
  | creation
  | chained
deriving DecidableEq, Repr, Inhabited

/-- What the world keeps a journal of: lines of text, segments that were built
and razed, bases that were built although they were constructed already, twins
that were released, handles that were let go without being counted, writes to
members that are not there, panics, exceptions that dynamic code raised, errors
that code of either side caught, bodies that were entered on an instance, and
open gates that were passed on the way out of an interpreter's lock, both with how
deep the thread was in that lock then. -/
inductive Event where
  | note (text : String)
  | built (id : NativeId) (hooks : List String)
  | razed (id : NativeId) (hooks : List String)
  | rebuilt (ids : List NativeId)
  | released (t : TwinId)
  | overdrawn (h : Handle)
  | astray (t : TwinId) (p : Place)
  | panicked
  | threw (t : Thrown)
  | caught
  | entered (entry : Entry) (t : TwinId) (depth : Nat)
  | passed (i : InterpId) (depth : Nat)
deriving DecidableEq, Repr, Inhabited

namespace Event

def ofBuilt (c : NativeClass) : Event := .built c.id c.hooks

def ofRazed (c : NativeClass) : Event := .razed c.id c.hooks

/-- The lines by which an event is told: one for each observer. -/
def lines : Event → List String
  | note text => [text]
  | built _ hooks => hooks.map ("+" ++ ·)
  | razed _ hooks => hooks.map ("-" ++ ·)
  | _ => []

end Event

/-- A declared native class, and the handles in the defaults of its members and
parameters; there are none left after the end of the class. -/
structure NativeState where
  cls : NativeClass
  kept : List Handle
deriving Inhabited

/-- A declared dynamic class with its attributes, and for every slot whether an
override was looked up and what was found. -/
structure ClassState where
  cls : DynamicClass
  attrs : Attributes
  overrides : List (Option (Option Method))
deriving Inhabited

def ClassState.handles (s : ClassState) : List Handle :=
  s.attrs.handles

/-- Number of slots whose override is known. -/
def ClassState.resolved (s : ClassState) : Nat :=
  s.overrides.countP Option.isSome

structure Interp where
  options : InterpOptions
  lock : Lock := {}
  counters : Counters := {}
  diagnostics : List LifetimeWarning := []
deriving Inhabited

/-- What a lock-release flag belongs to: the methods of one name that a class
declares, or a free function. -/
inductive Gate where
  | method (cls : NativeId) (name : String)
  | function (serial : Nat)
deriving DecidableEq, Repr, Inhabited

/-- A free native function. -/
structure NativeFunction where
  serial : Nat
  name : String
  params : List NativeType
  ret : NativeType
  body : NativeExpr
deriving Inhabited

def NativeFunction.gate (f : NativeFunction) : Gate :=
  .function f.serial

/-- A native vector that holds instances of one class by value.  It lives as
long as something holds it: a variable, or an operation on it. -/
structure InstanceVec where
  element : String
  items : List TwinId
  holders : Nat
deriving Repr, Inhabited

def InstanceVec.handles (v : InstanceVec) : List Handle :=
  v.items.map Handle.native

/-- Shared native ownership of a twin by a number of pointers. -/
structure SharedGroup where
  target : TwinId
  count : Nat
deriving Repr, Inhabited

/-- The pointers of a group hold one handle together. -/
def SharedGroup.handles (g : SharedGroup) : List Handle :=
  if g.count = 0 then [] else [.native g.target]

/-- A thread that runs dynamic code: it waits for its turn, or it has run and
keeps its result until that is taken. -/
inductive ThreadState where
  | waiting
  | done (result : Except Thrown DynValue)
  | taken
deriving Inhabited

structure DynThread where
  interp : InterpId
  code : DynExpr
  state : ThreadState
deriving Inhabited

/-- The handles in a result that was not taken yet. -/
def ThreadState.handles : ThreadState → List Handle
  | .done (.ok v) => v.handles
  | _ => []

/-- What a variable is bound to. -/
inductive Binding where
  | dyn (v : DynValue)
  | native (v : NativeValue)
  | vec (index : Nat)
  | shared (index : Nat)
  | signal (index : Nat)
  | thread (index : Nat)
deriving Inhabited

/-- The instance that a variable is bound to. -/
def Binding.twin? : Binding → Option TwinId
  | .dyn v => v.asObject?
  | .native v => v.asObject?
  | _ => none

/-- The handles in the value of a variable; containers and threads account for
their own. -/
def Binding.handles : Binding → List Handle
  | .dyn v => v.handles
  | .native v => v.handles
  | _ => []

/-- A lock scope that a session holds open: one level of an interpreter's lock,
or a step out of it and the depth to come back to. -/
inductive Guard where
  | held (interp : InterpId)
  | suspended (interp : InterpId) (depth : Nat)
deriving Repr, Inhabited

/-- The names that code can use. -/
structure Scope where
  natives : Bindings NativeClass := []
  classes : Bindings DynamicClass := []
  functions : Bindings NativeFunction := []
  interps : Bindings InterpId := []
  vars : Bindings Binding := []
deriving Inhabited

structure World where
  twins : Array Twin := #[]
  classes : Array ClassState := #[]
  interps : Array Interp := #[]
  /-- The native classes in order of declaration. -/
  declared : Array NativeState := #[]
  functions : Nat := 0
  openGates : List Gate := []
  registry : List (NativeId × DynamicClass) := []
  vecs : Array InstanceVec := #[]
  groups : Array SharedGroup := #[]
  signals : Array Bool := #[]
  threads : Array DynThread := #[]
  scope : Scope := {}
  journal : Array Event := #[]
  /-- The classes that operations at work refer to. -/
  lent : List Kind := []
  /-- Twins in the order in which they were first shown. -/
  shown : Array TwinId := #[]
  /-- Open lock scopes of the session, innermost first. -/
  guards : List Guard := []
  currentThread : ThreadId := 0
  nextThread : ThreadId := 1
deriving Inhabited

namespace World

def twin? (w : World) (t : TwinId) : Option Twin :=
  w.twins[t]?

def twin (w : World) (t : TwinId) : Twin :=
  (w.twin? t).getD default

/-- The handles that are held while no code runs: by defaults of native
classes, the halves of twins, attributes of dynamic classes, vectors, shared
pointers, results of threads and variables. -/
def roots (w : World) : List Handle :=
  w.declared.toList.flatMap NativeState.kept
    ++ w.twins.toList.flatMap Twin.contents
    ++ w.classes.toList.flatMap ClassState.handles
    ++ w.vecs.toList.flatMap InstanceVec.handles
    ++ w.groups.toList.flatMap SharedGroup.handles
    ++ w.threads.toList.flatMap (·.state.handles)
    ++ w.scope.vars.flatMap (·.2.handles)

def setTwin (w : World) (t : TwinId) (twin : Twin) : World :=
  { w with twins := w.twins.set! t twin }

/-- Whether a dynamic class can still be reached: by its label, through a class
derived from it, by an operation, or from a twin. -/
def reachesClass (w : World) (id : ClassId) : Bool :=
  w.scope.classes.any (fun entry => entry.2.chain.any (·.id = id))
    || w.lent.any (fun k => k.chain.any (·.id = id))
    || w.twins.any (fun t => t.stage != .gone && t.kind.chain.any (·.id = id))

/-- Whether a native class can still be reached: by its label, through a class
derived from it, by an operation, or from a twin.  Those below a dynamic class
are registered and stay for good. -/
def reachesNative (w : World) (id : NativeId) : Bool :=
  w.scope.natives.any (fun entry => entry.2.lineage.contains id)
    || w.registry.any (·.1 = id)
    || w.lent.any (fun k => k.layout.segments.any (·.id = id))
    || w.twins.any (fun t => t.stage != .gone && t.layout.segments.any (·.id = id))

def modifyTwin (w : World) (t : TwinId) (f : Twin → Twin) : World :=
  { w with twins := w.twins.modify t f }

def setFilling (w : World) (t : TwinId) (filling : Bool) : World :=
  w.modifyTwin t (fun twin => { twin with filling })

def className (w : World) (t : TwinId) : String :=
  (w.twin? t).elim "" Twin.name

def isA (w : World) (t : TwinId) (name : String) : Bool :=
  (w.twin? t).elim false (fun twin => twin.kind.isA name)

def census (w : World) : Census :=
  ⟨w.className, w.isA⟩

def record (w : World) (events : List Event) : World :=
  { w with journal := w.journal ++ events.toArray }

def modifyInterp (w : World) (i : InterpId) (f : Interp → Interp) : World :=
  { w with interps := w.interps.modify i f }

def interp (w : World) (i : InterpId) : Interp :=
  w.interps[i]?.getD { options := {} }

def lock (w : World) (i : InterpId) : Lock :=
  (w.interp i).lock

def setLock (w : World) (i : InterpId) (l : Lock) : World :=
  w.modifyInterp i (fun s => { s with lock := l })

/-- Step out of an interpreter's lock.  Answers the depth to come back to. -/
def leaveLock (i : InterpId) (w : World) : Nat × World :=
  let (l, depth) := (w.lock i).suspend w.currentThread
  (depth, w.setLock i l)

/-- Whether the running thread holds an interpreter's lock. -/
def holdsLock (w : World) (i : InterpId) : Bool :=
  (w.lock i).isHeldBy w.currentThread

/-- How deep the running thread is in an interpreter's lock. -/
def depthIn (w : World) (i : InterpId) : Nat :=
  (w.lock i).depthOf w.currentThread

/-- Record that a body is entered on an instance, and how deep the thread is in the
lock of its interpreter. -/
def enter (entry : Entry) (t : TwinId) (w : World) : World :=
  w.record [.entered entry t (w.depthIn (w.twin t).interp)]

/-- Record that a native body runs behind an open gate, and how deep the thread is
in the lock that it left. -/
def passGate (i : InterpId) (w : World) : World :=
  w.record [.passed i (w.depthIn i)]

def count (w : World) (i : InterpId) (f : Counters → Counters) : World :=
  w.modifyInterp i (fun s => { s with counters := f s.counters })

/-- Whether a gate is open: the body behind it runs without the interpreter's lock. -/
def releases (w : World) (g : Gate) : Bool :=
  w.openGates.contains g

/-- Open or shut a gate. -/
def setGate (w : World) (g : Gate) (release : Bool) : World :=
  let others := w.openGates.filter (· != g)
  { w with openGates := if release then g :: others else others }

/-- A gate is open or shut as it was last set, and other gates stay as they are. -/
@[simp] theorem releases_setGate (w : World) (set g : Gate) (release : Bool) :
    (w.setGate set release).releases g = if g = set then release else w.releases g := by
  by_cases h : g = set <;> cases release <;>
    simp [releases, setGate, List.contains_eq_mem, h]

/-- The label of a native class, or a question mark for one that lost its label
to a later class. -/
def nativeLabel (w : World) (id : NativeId) : String :=
  ((w.scope.natives.find? (·.2.id = id)).map (·.1)).getD "?"

/-- Names of the dynamic classes registered under a native class. -/
def derivedFrom (w : World) (id : NativeId) : List String :=
  (w.registry.filter (fun entry => entry.1 = id)).map (fun entry => entry.2.name)

/-- The number under which a twin was first shown. -/
def shownNumber? (w : World) (t : TwinId) : Option Nat :=
  (w.shown.findIdx? (· == t)).map (· + 1)

/-- The text of an instance: its class, and its number if it was shown. -/
def instanceText (w : World) (t : TwinId) : String :=
  "<" ++ w.className t ++ " object at #" ++ (w.shownNumber? t).elim "?" toString ++ ">"

end World

end TwinObject
