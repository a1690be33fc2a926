/-
Threads as a session drives them.  They get their turns when the session waits
for one of them, in the order in which they were started.  A thread that has to
wait keeps what it did so far, and goes on from there in its next turn.
-/
import TwinObject.Eval
import TwinObject.Session.Guards

namespace TwinObject

/-- A thread that waits: its identity, and the course that it is on. -/
structure Waiter where
  me : ThreadId
  held : List Token
  ready : World → Option World
  next : World → Course Thrown DynValue

/-- A session: the world, and the threads that wait. -/
structure Session where
  world : World
  waiters : List (Nat × Waiter)
deriving Inhabited

namespace World

/-- Whether a thread has come to its end. -/
def threadDone (w : World) (index : Nat) : Bool :=
  match w.threads[index]? with
  | some ⟨_, _, .waiting⟩ => false
  | _ => true

/-- Leave the result of a thread where it can be taken.  A thread comes to its end
once; it would let go of a second result. -/
def endThread (index : Nat) (result : Except Thrown DynValue) (w : World) : World :=
  match w.threads[index]? with
  | some ⟨interp, code, .waiting⟩ =>
      { w with threads := w.threads.set! index ⟨interp, code, .done result⟩ }
  | _ => w.drop (ThreadState.done result).handles

/-- The world as a thread finds it that starts now. -/
def onNewThread (w : World) : World :=
  { w with currentThread := w.nextThread, nextThread := w.nextThread + 1 }

/-- The world as a thread finds it that has its turn. -/
def onThread (me : ThreadId) (w : World) : World :=
  { w with currentThread := me }

end World

namespace Session

variable (host : Host)

/-- The course of a thread that gets a turn now; there is none while what it
waits for did not happen. -/
def courseOf (s : Session) (index : Nat) (interp : InterpId) (code : DynExpr) :
    Option (Course Thrown DynValue) :=
  match s.waiters.lookup index with
  | none => some (Run.locked interp (code.eval host {}) s.world.onNewThread)
  | some p => (p.ready (s.world.onThread p.me)).map p.next

/-- What becomes of a session after the turn of a thread. -/
def afterTurn (index : Nat) (s : Session) : Course Thrown DynValue → Session
  | .ended e w =>
      let w := match e with
        | .value v => w.endThread index (.ok v)
        | .raised e => w.endThread index (.error e)
        | .panicked text => w.endThread index (.error (.runtimeError ("thread panicked: " ++ text)))
      ⟨w.onThread s.world.currentThread, s.waiters.filter (·.1 != index)⟩
  | .paused held w ready next =>
      ⟨w.onThread s.world.currentThread,
        (index, ⟨w.currentThread, held, ready, next⟩) :: s.waiters.filter (·.1 != index)⟩
  | .exhausted _ => s

/-- Give a thread a turn, in which it runs until it ends or has to wait. -/
def turn (index : Nat) (s : Session) : Session :=
  match s.world.threads[index]? with
  | some ⟨interp, code, .waiting⟩ => (s.courseOf host index interp code).elim s (afterTurn index s)
  | _ => s

/-- Give all threads a turn, until the given one has come to its end. -/
def round (target : Nat) (s : Session) : Session :=
  (List.range s.world.threads.size).foldl
    (fun s index => if s.world.threadDone target then s else turn host index s) s

/-- A number of rounds.  A thread may have to wait for one that was started
after it, so that there is one round for each. -/
def rounds (target : Nat) : Nat → Session → Session
  | 0, s => s
  | n + 1, s => rounds target n (round host target s)

/-- Do something with an interpreter's lock left. -/
def outside (i : InterpId) (f : Session → Session) (s : Session) : Session :=
  let (l, depth) := (s.world.lock i).suspend s.world.currentThread
  let s := f { s with world := s.world.setLock i l }
  { s with world := s.world.comeBack i depth }

/-- Wait for a thread with its interpreter's lock left, and once it has come to
its end for the host thread too. -/
def awaitThread (index : Nat) (s : Session) : Session :=
  match s.world.threads[index]? with
  | some ⟨interp, _, .waiting⟩ =>
      let s := outside interp (rounds host index s.world.threads.size) s
      if s.world.threadDone index then outside interp id s else s
  | _ => s

end Session

end TwinObject
