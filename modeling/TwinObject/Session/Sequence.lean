/-
Sequences of steps.  A step that fails does not end the session, and one that
never ends is undone; at the end all lock scopes are left and all variables let
go.
-/
import TwinObject.Session.Perform

namespace TwinObject

namespace Session

/-- A session in which nothing but the main interpreter exists. -/
def initial : Session :=
  ⟨.initial, []⟩

/-- The lines of the journal from the given entry on. -/
def linesSince (start : Nat) (w : World) : List String :=
  (w.journal.toList.drop start).flatMap Event.lines

/-- The thread that a step waits for. -/
def awaited? (w : World) : Step → Option Nat
  | .join x | .joinTimeout x => w.threadVar? x
  | _ => none

/-- Perform a step, after the thread that it waits for had its turns.  A step
that never ends is answered, but it leaves the session as it was. -/
def advance (host : Host) (step : Step) : StateM Session Answer := fun s =>
  let ready := (awaited? s.world step).elim s fun index => awaitThread host index s
  match step.perform host ready.world with
  | (.stuck, _) => (.stuck, s)
  | (answer, w) => (answer, { ready with world := w })

/-- Perform a step.  Answers what it reports and the lines it logged. -/
def step (host : Host) (st : Step) : StateM Session (Answer × List String) := fun s =>
  let (answer, s') := advance host st s
  ((answer, linesSince s.world.journal.size s'.world), s')

/-- Let go of all variables in the order in which they were first bound. -/
def dropVars (vars : Bindings Binding) (w : World) : World :=
  vars.foldl (fun w entry => World.dropBinding entry.2 w)
    { w with scope := { w.scope with vars := [] } }

/-- Leave all lock scopes and let go of all variables. -/
def close (w : World) : World :=
  let w := World.closeGuards w.guards w
  dropVars w.scope.vars w

/-- End a session.  Answers the lines that this logs. -/
def finish : Act (List String) := fun w =>
  (linesSince w.journal.size (close w), close w)

/-- Perform steps in a fresh session on a host.  Answers for each step, and the
lines that the end of the session logs. -/
def runOn (host : Host) (steps : List Step) : List (Answer × List String) × List String :=
  let (answers, s) := (steps.mapM (step host)).run initial
  (answers, (finish s.world).1)

/-- Perform steps in a fresh session, with calls nested to the given depth. -/
def run (depth : Nat) (steps : List Step) : List (Answer × List String) × List String :=
  runOn (.nested .memo depth) steps

/-- How deep calls are nested if nothing else is said. -/
def defaultDepth : Nat := 1000000

end Session

end TwinObject
