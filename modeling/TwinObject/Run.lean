/-
Running code: steps on the world that can fail, and the scopes they run in.  A
scope holds handles, a class or an interpreter's lock, and ends on every way
out.

Code that has to wait pauses with all its scopes open, in the world of that
moment, and goes on from there when what it waits for has happened.
-/
import TwinObject.Release

namespace TwinObject

/-- What code at work holds: a handle, a reference to a class, a vector, a pointer
of a shared group, a segment that it built and that does not belong to a
constructed base yet, or the storage of an instance while it fills that, with
which of its bases are constructed meanwhile. -/
inductive Token where
  | handle (h : Handle)
  | kind (k : Kind)
  | vec (index : Nat)
  | shared (index : Nat) (target : TwinId)
  | segment (id : NativeId)
  | storage (t : TwinId) (constructed : List Bool)
deriving Inhabited

/-- How code came to an end after which something can follow. -/
inductive Ending (ε α : Type) where
  | value (a : α)
  /-- An error that callers can catch. -/
  | raised (e : ε)
  /-- A panic, which nothing catches before the end of the thread. -/
  | panicked (text : String)

/-- What code still holds at its end, given what it holds for a value. -/
def Ending.held {ε α : Type} (kept : α → List Token) : Ending ε α → List Token
  | value a => kept a
  | _ => []

/-- How far running code has come. -/
inductive Course (ε α : Type) where
  | ended (e : Ending ε α) (w : World)
  /-- The code waits in a world for something that only another thread can do,
  and holds all that its open scopes hold.  When `ready` has an answer it goes on
  with that. -/
  | paused (held : List Token) (w : World) (ready : World → Option World)
      (next : World → Course ε α)
  /-- Calls were nested deeper than the bound, in the world of that moment. -/
  | exhausted (w : World)

instance {ε α : Type} : Inhabited (Course ε α) := ⟨.exhausted default⟩

/-- Go on with `next` after the end of a course.  While it is paused `held` is
held besides; where calls were nested too deep nothing follows. -/
def Course.andThen {ε ε' α β : Type} (held : List Token) (next : Ending ε α → World → Course ε' β) :
    Course ε α → Course ε' β
  | ended e w => next e w
  | paused inner w ready rest =>
      paused (inner ++ held) w ready fun v => (rest v).andThen held next
  | exhausted w => exhausted w

/-- A step that cannot fail. -/
abbrev Act := StateM World

/-- Code that can fail with an error of type `ε`. -/
def Run (ε α : Type) : Type :=
  World → Course ε α

namespace Run

variable {ε ε' α β : Type}

instance : Inhabited (Run ε α) := ⟨fun w => .exhausted w⟩

/-- Come to an end. -/
def again (e : Ending ε α) : Run ε α :=
  fun w => .ended e w

def raise (e : ε) : Run ε α :=
  again (.raised e)

def panic (text : String) : Run ε α :=
  fun w => .ended (.panicked text) (w.record [.panicked])

/-- Raise an exception of the program's own. -/
def throw (t : Thrown) : Run Thrown α :=
  fun w => .ended (.raised t) (w.record [.threw t])

/-- Go on with `next` after the end of `m`, while which `held` is held. -/
def thenDo (held : List Token) (m : Run ε α) (next : Ending ε α → Run ε' β) : Run ε' β :=
  fun w => (m w).andThen held next

/-- What follows an end: `next` after a value, and nothing after the others. -/
def following (next : α → Run ε β) : Ending ε α → Run ε β
  | .value a => next a
  | .raised e => raise e
  | .panicked text => again (.panicked text)

/-- Go on with the value of `m`. -/
def andThen (m : Run ε α) (next : α → Run ε β) : Run ε β :=
  thenDo [] m (following next)

instance : Monad (Run ε) where
  pure a := again (.value a)
  bind := andThen

def act (a : Act α) : Run ε α :=
  fun w => .ended (.value (a w).1) (a w).2

/-- Read something off the world. -/
def reads (f : World → α) : Run ε α :=
  act (fun w => (f w, w))

/-- Change the world. -/
def modify (f : World → World) : Run ε Unit :=
  act (fun w => ((), f w))

def ofExcept : Except ε α → Run ε α
  | .ok a => pure a
  | .error e => raise e

/-- Wait until `ready` has an answer, and go on in the world that it gives. -/
def await (ready : World → Option World) : Run ε Unit := fun w =>
  match ready w with
  | some w' => .ended (.value ()) w'
  | none => .paused [] w ready fun w' => .ended (.value ()) w'

/-- Run code and take its error, if it raises one, as a result. -/
def outcome (m : Run ε α) : Run ε' (Except ε α) :=
  thenDo [] m fun
    | .value a => pure (.ok a)
    | .raised e => pure (.error e)
    | .panicked text => again (.panicked text)

/-- Pass errors on in other words. -/
def mapError (f : ε → ε') (m : Run ε α) : Run ε' α :=
  thenDo [] m fun
    | .value a => pure a
    | .raised e => raise (f e)
    | .panicked text => again (.panicked text)

/-- Apply `f` to the world at the end of `m`, whatever that end is.  Until then
`held` is held. -/
def atEnd (held : List Token) (f : World → World) (m : Run ε α) : Run ε α :=
  thenDo held m fun e w => again e (f w)

/-- Hold handles while `m` runs. -/
def holding (hs : List Handle) (m : Run ε α) : Run ε α :=
  atEnd (hs.map .handle) (·.drop hs) m

/-- Take handles of one's own while `m` runs. -/
def retaining (hs : List Handle) (m : Run ε α) : Run ε α := do
  modify (·.retainAll hs)
  holding hs m

/-- Refer to a class while `m` runs. -/
def lending (k : Kind) (m : Run ε α) : Run ε α := do
  modify (World.lend k)
  atEnd [.kind k] (World.takeBack k) m

/-- Refer to several classes while `m` runs. -/
def lendingAll (ks : List Kind) (m : Run ε α) : Run ε α :=
  ks.foldr lending m

/-- Let go of handles if `m` does not end with a value. -/
def unwinding (hs : List Handle) (m : Run ε α) : Run ε α :=
  thenDo (hs.map .handle) m fun
    | .value a => pure a
    | e => fun w => again e (w.drop hs)

/-- Do something if `m` raises an error, and pass that on.  Until then `held` is
held. -/
def onRaise (held : List Token) (m : Run ε α) (f : World → World) : Run ε α :=
  thenDo held m fun
    | .raised e => fun w => raise e (f w)
    | e => again e

/-- Fill the storage of an instance while `m` runs, when nobody else does. -/
def filling (t : TwinId) (m : Run ε α) : Run ε α := do
  await fun w => if (w.twin t).filling then none else some (w.setFilling t true)
  let constructed ← reads fun w => (w.twin t).constructed
  atEnd [.storage t constructed] (·.setFilling t false) m

/-- Take the lock of an interpreter for the running thread, when it is free. -/
def acquire (i : InterpId) : Run ε Unit :=
  await fun w => ((w.lock i).acquire? w.currentThread).map (w.setLock i)

/-- Hold an interpreter's lock while `m` runs. -/
def locked (i : InterpId) (m : Run ε α) : Run ε α := do
  acquire i
  atEnd [] (fun w => w.setLock i (w.lock i).release) m

/-- Come back to a lock that was left at the given depth, when it is free. -/
def resume (i : InterpId) (depth : Nat) : Run ε Unit :=
  await fun w => ((w.lock i).resume? w.currentThread depth).map (w.setLock i)

/-- Step out of an interpreter's lock while `m` runs.  On the way back what is
kept of the value of `m` is held. -/
def unlocked (kept : α → List Token) (i : InterpId) (m : Run ε α) : Run ε α := do
  let depth ← act (World.leaveLock i)
  thenDo [] m fun e => thenDo (e.held kept) (resume i depth : Run ε Unit) fun _ => again e

/-- Run on a thread of its own, to its end. -/
def onThread (m : Run ε α) : Run ε α := do
  let me ← reads World.currentThread
  modify fun w => { w with currentThread := w.nextThread, nextThread := w.nextThread + 1 }
  atEnd [] (fun w => { w with currentThread := me }) m

end Run

/-- Where a native body runs: the instance it runs on, if any, its arguments,
and for a constructor the segment that it fills. -/
structure Site where
  twin : TwinId
  segment : Nat
  cls : NativeClass
deriving Inhabited

structure NativeFrame where
  this : Option TwinId := none
  args : List NativeValue := []
  site : Option Site := none
deriving Inhabited

/-- Where dynamic code runs: its instance, if any, and its arguments. -/
structure DynFrame where
  this : Option TwinId := none
  args : List DynValue := []
deriving Inhabited

/-- How calls through the slots of instances are decided: which method of a
dynamic class overrides a slot, and what comes of a call through a slot that does
not exist, or that has neither an override nor a body. -/
structure Dispatcher where
  override : DynamicClass → Nat → Slot → Act (Option Method)
  noSlot : Kind → Nat → Run Failure NativeValue
  bare : Slot → Run Failure NativeValue
deriving Inhabited

/-- Who runs the bodies: native ones in a frame, dynamic ones on an instance that they
are entered on, with arguments.  The values are lent to the body, and its result belongs
to the caller. -/
structure Host where
  dispatcher : Dispatcher
  native : NativeFrame → NativeExpr → Run Failure NativeValue
  dynamic : Entry → TwinId → List DynValue → DynExpr → Run Thrown DynValue

/-- The host that runs nothing. -/
def Host.exhausted (dispatcher : Dispatcher) : Host :=
  ⟨dispatcher, fun _ _ w => .exhausted w, fun _ _ _ _ w => .exhausted w⟩

end TwinObject
