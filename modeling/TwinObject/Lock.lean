/-
The execution lock of an interpreter.  It is held by one thread at a time, to
any depth, and a holder can step out of it altogether and come back to the
same depth.
-/

namespace TwinObject

/-- Identity of a thread. -/
abbrev ThreadId := Nat

/-- A lock: the thread that holds it and how often, and how many times it went
to a thread anew. -/
structure Lock where
  owner : Option ThreadId := none
  depth : Nat := 0
  handoffs : Nat := 0
deriving DecidableEq, Repr, Inhabited

namespace Lock

def isHeldBy (l : Lock) (me : ThreadId) : Bool :=
  l.owner = some me

def isLocked (l : Lock) : Bool :=
  l.owner.isSome

/-- How deep a thread is in the lock; zero for one that does not hold it. -/
def depthOf (l : Lock) (me : ThreadId) : Nat :=
  if l.isHeldBy me then l.depth else 0

/-- Take the lock once more, or anew if it is free; a thread that meets another
holder has to wait. -/
def acquire? (l : Lock) (me : ThreadId) : Option Lock :=
  match l.owner with
  | none => some ⟨some me, 1, l.handoffs + 1⟩
  | some holder => if holder = me then some { l with depth := l.depth + 1 } else none

/-- Give back one level; the last one frees the lock. -/
def release (l : Lock) : Lock :=
  if l.depth - 1 = 0 then { l with owner := none, depth := 0 } else { l with depth := l.depth - 1 }

/-- Step out of the lock.  Answers the depth to come back to, which is zero for
a thread that does not hold it. -/
def suspend (l : Lock) (me : ThreadId) : Lock × Nat :=
  if l.isHeldBy me then ({ l with owner := none, depth := 0 }, l.depth) else (l, 0)

/-- Come back to the depth that was left. -/
def resume? (l : Lock) (me : ThreadId) (depth : Nat) : Option Lock :=
  if depth = 0 then some l
  else
    match l.owner with
    | none => some ⟨some me, depth, l.handoffs + 1⟩
    | some _ => none

end Lock

/-- Options of an interpreter: whether it warns of bases without a virtual
destructor, whether void slots refuse values, and the name that its threads are
numbered under. -/
structure InterpOptions where
  warnMissingDtor : Bool := true
  strictVoid : Bool := false
  threadName : String := "crossbridge-worker"
deriving DecidableEq, Repr, Inhabited

/-- How many overrides were run for native callers, how many exceptions left
them, and how many native calls ran without the lock. -/
structure Counters where
  dispatches : Nat := 0
  propagated : Nat := 0
  gated : Nat := 0
deriving DecidableEq, Repr, Inhabited

end TwinObject
