/-
Construction.  Parents are built before the class itself, then the own members
are reset and the constructor that fits the arguments best runs; what a failed
attempt had completed is destroyed again in reverse.
-/
import TwinObject.Member

namespace TwinObject

/-- One group of constructor arguments. -/
structure ArgGroup where
  positional : List DynValue := []
  keywords : List (String × DynValue) := []
deriving Inhabited

namespace ArgGroup

def isEmpty (g : ArgGroup) : Bool :=
  g.positional.isEmpty && g.keywords.isEmpty

def handles (g : ArgGroup) : List Handle :=
  (g.positional ++ g.keywords.map (·.2)).flatMap DynValue.handles

/-- The types of the arguments, as errors list them. -/
def describe (census : Census) (g : ArgGroup) : String :=
  "(" ++ ", ".intercalate
    (g.positional.map (·.typeName census)
      ++ g.keywords.map (fun (name, v) => name ++ "=" ++ v.typeName census)) ++ ")"

end ArgGroup

namespace Constructor

/-- The argument for a parameter: the next positional one or the keyword of its
name, but not both. -/
inductive Supply where
  | clash
  | given (v : DynValue) (byKeyword : Bool)
  | missing

def supply (p : Param) (next : Option DynValue) (keywords : List (String × DynValue)) : Supply :=
  match next, keywords.lookup p.name with
  | some _, some _ => .clash
  | some v, none => .given v false
  | none, some v => .given v true
  | none, none => .missing

/-- The value of one parameter, or nothing if its argument does not fit. -/
def bindParam (context : String) (fit : Fit) (p : Param) (s : Supply) : Act (Option NativeValue) :=
  match s with
  | .clash => return none
  | .given v _ =>
      if fit = .exact && v.widens p.type then return none
      else return (← Crossing.toNative context v p.type).toOption
  | .missing =>
      match p.default with
      | none => return none
      | some d => Crossing.coerceNative d p.type

/-- Bind the parameters in order, with the values bound so far and the number
of keywords they used. -/
def bindParams (context : String) (fit : Fit) (keywords : List (String × DynValue)) :
    List NativeValue → Nat → List Param → List DynValue → Act (Option (List NativeValue × Nat))
  | done, used, [], _ => return some (done, used)
  | done, used, p :: ps, positional => do
      let s := supply p positional.head? keywords
      match ← bindParam context fit p s with
      | none =>
          Crossing.discardValues done
          return none
      | some v =>
          let used := match s with
            | .given _ true => used + 1
            | _ => used
          bindParams context fit keywords (done ++ [v]) used ps positional.tail

/-- Bind a group of arguments: positional ones first, then keywords, then
defaults.  Every keyword has to be used. -/
def bind (c : Constructor) (context : String) (fit : Fit) (g : ArgGroup) :
    Act (Option (List NativeValue)) := do
  if g.positional.length > c.params.length then return none
  match ← bindParams context fit g.keywords [] 0 c.params g.positional with
  | none => return none
  | some (bound, used) =>
      if used = g.keywords.length then return some bound
      else
        Crossing.discardValues bound
        return none

end Constructor

/-- The outcome of the search for a constructor. -/
inductive Choice where
  | chosen (c : Constructor) (args : List NativeValue)
  | inaccessible
  | unfit

/-- Try constructors for one fit; `hidden` tells whether one that must not be
called fitted before. -/
def Choice.among (context : String) (fit : Fit) (g : ArgGroup) (fromDerived : Bool) :
    List Constructor → Bool → Act (Choice ⊕ Bool)
  | [], hidden => return .inr hidden
  | c :: cs, hidden => do
      match ← c.bind context fit g with
      | none => among context fit g fromDerived cs hidden
      | some args =>
          if c.access.visible fromDerived then return .inl (.chosen c args)
          else
            Crossing.discardValues args
            among context fit g fromDerived cs true

/-- The first visible constructor that fits exactly, else the first that fits
with widening. -/
def Choice.search (context : String) (g : ArgGroup) (fromDerived : Bool) (cs : List Constructor) :
    List Fit → Bool → Act Choice
  | [], hidden => return if hidden then .inaccessible else .unfit
  | fit :: fits, hidden => do
      match ← Choice.among context fit g fromDerived cs hidden with
      | .inl choice => return choice
      | .inr hidden => search context g fromDerived cs fits hidden

namespace Construction

variable (h : Host)

/-- Reset the members of a segment to their defaults. -/
def resetSegment (s : Site) (w : World) : World :=
  match (w.twin s.twin).storage[s.segment]? with
  | none => w.record [.astray s.twin ⟨s.segment, 0⟩]
  | some old =>
      let fresh := s.cls.defaultSegment
      ((w.retainAll (fresh.flatMap NativeValue.handles)).modifyTwin s.twin fun t =>
        { t with storage := t.storage.set s.segment fresh }).drop (old.flatMap NativeValue.handles)

/-- Fill one segment: its members are reset, and the constructor picked for the
arguments runs. -/
def constructOwn (s : Site) (g : ArgGroup) (fromDerived : Bool) : Run Failure Unit := do
  Run.modify (resetSegment s)
  let context := "constructor of '" ++ s.cls.name ++ "'"
  let census ← Run.reads World.census
  if s.cls.constructors.isEmpty then
    if g.isEmpty then return ()
    else Run.raise (.typeMismatch context "()" (g.describe census))
  else
    match ← Run.act (Choice.search context g fromDerived s.cls.constructors Fit.order false) with
    | .chosen c args =>
        Run.holding (args.flatMap NativeValue.handles) do
          let result ← h.native { args, site := some s } c.body
          Run.modify (·.drop result.handles)
    | .inaccessible =>
        Run.raise (.constructionAccess
          ("constructor of '" ++ s.cls.name ++ "' taking " ++ g.describe census
            ++ " is not accessible"))
    | .unfit =>
        Run.raise (.typeMismatch context
          (" or ".intercalate (s.cls.constructors.map Constructor.signature)) (g.describe census))

/-- Record the destruction of classes, the last one first. -/
def unwind (built : List NativeClass) (w : World) : World :=
  w.record ((NativeClass.destructionAll built).map Event.ofRazed)

/-- The segments of classes that are built, but belong to no constructed base
yet. -/
def segmentTokens (built : List NativeClass) : List Token :=
  (NativeClass.flattenAll built).map fun s => .segment s.id

mutual

/-- Construct the segments of a class from position `start` on: its parents
with their default constructors, then its own with the given arguments. -/
def constructClass (t : TwinId) (g : ArgGroup) (fromDerived : Bool) :
    NativeClass → Nat → Run Failure Unit
  | c@⟨_, _, parents, _, _, _, _, _, _, _⟩, start => do
      constructParents t [] parents start
      let segment := start + NativeClass.segmentCounts parents
      Run.onRaise (segmentTokens parents) (constructOwn h ⟨t, segment, c⟩ g fromDerived)
        (unwind parents)
      Run.modify (·.record [Event.ofBuilt c])

/-- Construct parents one after another; `built` are those completed. -/
def constructParents (t : TwinId) (built : List NativeClass) :
    List NativeClass → Nat → Run Failure Unit
  | [], _ => return ()
  | p :: ps, start => do
      Run.onRaise (segmentTokens built) (constructClass t {} true p start) (unwind built)
      constructParents t (built ++ [p]) ps (start + p.segmentCount)

end

/-- Mark a base as constructed, now that its segments are built.  If it was
marked already they were built for a second time. -/
def markBuilt (t : TwinId) (index : Nat) (base : NativeClass) (w : World) : World :=
  let again := (w.twin t).constructed[index]?.getD false
  (if again then w.record [.rebuilt (base.flatten.map NativeClass.id)] else w).modifyTwin t
    fun twin => { twin with constructed := twin.constructed.set index true }

/-- Construct one base of an instance and mark it as constructed. -/
def constructBase (t : TwinId) (index : Nat) (g : ArgGroup) (fromDerived : Bool) :
    Run Failure Unit := do
  match (← Run.reads fun w => (w.twin t).layout.baseRange? index) with
  | none => Run.raise (.unsupportedComposition ("no base at position " ++ toString index))
  | some b =>
      Run.filling t (constructClass h t g fromDerived b.base b.start)
      Run.modify (markBuilt t index b.base)

/-- Construct a base that is not constructed yet. -/
def constructOnce (t : TwinId) (index : Nat) (g : ArgGroup) : Run Failure Unit := do
  let twin ← Run.reads (·.twin t)
  if twin.constructed[index]?.getD false then
    let base := (twin.layout.baseRange? index).elim "" (·.base.name)
    Run.raise (.constructionAccess
      ("base '" ++ base ++ "' of '" ++ twin.name ++ "' is already initialized"))
  else constructBase h t index g twin.kind.fromDerived

/-- Default-construct every base that no initializer constructed. -/
def finish (t : TwinId) : Run Failure Unit := do
  let twin ← Run.reads (·.twin t)
  let pending := twin.constructed.zipIdx.filterMap fun (done, index) =>
    if done then none else some index
  pending.forM fun index => constructBase h t index {} true

/-- Base initialization is for instances of dynamic classes. -/
def requireDynamic (t : TwinId) : Run Failure Unit := do
  let twin ← Run.reads (·.twin t)
  if twin.kind.fromDerived then return ()
  else Run.raise (.constructionAccess
    ("'" ++ twin.name ++ "' is not a dynamic subclass; base initialization is not available"))

/-- Construct bases in order, each with its group, which is let go before the
next base; bases without one get the empty group.  All groups are given away. -/
def constructEach (t : TwinId) : List ArgGroup → List Nat → Run Failure Unit
  | groups, [] => Run.modify (·.drop (groups.flatMap ArgGroup.handles))
  | groups, index :: rest => do
      let g := groups.headD {}
      Run.unwinding (groups.tail.flatMap ArgGroup.handles)
        (Run.holding g.handles (constructOnce h t index g))
      constructEach t groups.tail rest

/-- The number of bases, which a number of argument groups must not exceed. -/
def baseCountFor (t : TwinId) (groups : Nat) : Run Failure Nat := do
  requireDynamic t
  let twin ← Run.reads (·.twin t)
  let count := twin.layout.baseCount
  if groups > count then
    Run.raise (.typeMismatch ("argument groups of '" ++ twin.name ++ "'")
      ("at most " ++ toString count ++ " groups") (toString groups ++ " groups"))
  else return count

/-- Initialize the native bases from explicit argument groups, which are given
away. -/
def superGroups (t : TwinId) (groups : List ArgGroup) : Run Failure Unit := do
  let count ← Run.unwinding (groups.flatMap ArgGroup.handles) (baseCountFor t groups.length)
  constructEach h t groups (List.range count)

/-- One argument group for each tuple. -/
def groupsOf (census : Census) (className : String) : Nat → List DynValue →
    Except Failure (List ArgGroup)
  | _, [] => .ok []
  | i, .tuple items :: rest => do
      return { positional := items } :: (← groupsOf census className (i + 1) rest)
  | i, v :: _ =>
      .error (.typeMismatch ("argument group " ++ toString i ++ " of '" ++ className ++ "'") "tuple"
        (v.typeName census))

/-- Initialize the native bases: the arguments go to a single base, or are one
tuple of arguments for each of several.  The arguments are lent. -/
def superInit (t : TwinId) (args : List DynValue) : Run Failure Unit := do
  let twin ← Run.reads (·.twin t)
  let census ← Run.reads World.census
  let groups ←
    if twin.layout.baseCount > 1 then Run.ofExcept (groupsOf census twin.name 0 args)
    else pure [{ positional := args }]
  Run.modify (·.retainAll (groups.flatMap ArgGroup.handles))
  superGroups h t groups

/-- Initialize one concrete base directly.  The arguments are lent. -/
def initBase (t : TwinId) (c : NativeClass) (args : List DynValue) : Run Failure Unit := do
  requireDynamic t
  let twin ← Run.reads (·.twin t)
  match twin.layout.baseIndex? c with
  | none =>
      Run.raise (.constructionAccess
        ("'" ++ c.name ++ "' is not a direct base of '" ++ twin.name ++ "'"))
  | some index =>
      if c.isAbstract then
        Run.raise (.constructionAccess
          ("base '" ++ c.name ++ "' is abstract and cannot be initialized directly; "
            ++ "use super() to initialize '" ++ twin.name ++ "'"))
      else
        let g : ArgGroup := { positional := args }
        Run.retaining g.handles (constructOnce h t index g)

/-- Create an instance of a native class, with one dynamic handle. -/
def newNative (c : NativeClass) (interp : InterpId) (g : ArgGroup) (owner : Ownership) :
    Run Failure TwinId := do
  match c.vtable.firstPure? with
  | some slot => Run.raise (.abstractInstantiation c.name slot.key.text)
  | none =>
      let t ← Run.act (fun w => (w.create interp (.native c) owner).swap)
      Run.unwinding [.dynamic t] (constructBase h t 0 g false)
      return t

/-- Create an instance of a native class from positional arguments, which are
lent. -/
def instantiate (c : NativeClass) (interp : InterpId) (args : List DynValue) :
    Run Failure TwinId :=
  let g : ArgGroup := { positional := args }
  Run.retaining g.handles (newNative h c interp g .dynamic)

/-- Create an instance of a native class for native code, which owns it, with
one native handle. -/
def construct (c : NativeClass) (interp : InterpId) (args : List NativeValue) :
    Run Failure TwinId := do
  let g : ArgGroup := { positional := ← Run.act (args.mapM Crossing.lendToDynamic) }
  Run.holding g.handles do
    let t ← newNative h c interp g .native
    Run.modify (·.asNative t)
    return t

/-- Run the initializer of a class, or of its nearest ancestor with one, on an
instance.  Without any the arguments go to the native bases. -/
def initializeAs (entry : Entry) (c : DynamicClass) (t : TwinId) (args : List DynValue) :
    Run Thrown Unit :=
  Run.locked c.interp do
    match c.findInitializer? with
    | some body =>
        let result ← h.dynamic entry t args body
        Run.modify (·.drop result.handles)
    | none => if args.isEmpty then return () else Run.mapError Failure.raise (superInit h t args)

/-- Initialize a new instance as its class says. -/
def runInitializer (c : DynamicClass) (t : TwinId) (args : List DynValue) : Run Thrown Unit :=
  initializeAs h .creation c t args

/-- Create an instance of a dynamic class, with one dynamic handle. -/
def newDynamic (c : DynamicClass) (args : List DynValue) : Run Thrown TwinId := do
  match c.missingOverride? with
  | some slot => Run.raise (Failure.abstractInstantiation c.name slot.key.text).raise
  | none =>
      let t ← Run.act (fun w => (w.create c.interp (.dynamic c) .dynamic).swap)
      Run.unwinding [.dynamic t] do
        runInitializer h c t args
        Run.mapError Failure.raise (finish h t)
      return t

end Construction

end TwinObject
