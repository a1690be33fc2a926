/-
Lock scopes that a session holds open.  They form one stack; leaving the
innermost one undoes what it did to the lock.
-/
import TwinObject.Run

namespace TwinObject

namespace World

/-- Come back to a lock that was left at the given depth, if it is free. -/
def comeBack (i : InterpId) (depth : Nat) (w : World) : World :=
  ((w.lock i).resume? w.currentThread depth).elim w (w.setLock i)

/-- Take an interpreter's lock for the session, if it is free or already
held. -/
def openGuard (i : InterpId) : Act Bool := fun w =>
  match (w.lock i).acquire? w.currentThread with
  | none => (false, w)
  | some l => (true, { w.setLock i l with guards := .held i :: w.guards })

/-- Whether another thread could take the lock now; it gives it back at once. -/
def tryElsewhere (i : InterpId) : Act Bool := fun w =>
  match (w.lock i).acquire? w.nextThread with
  | none => (false, w)
  | some l => (true, { w.setLock i l.release with nextThread := w.nextThread + 1 })

/-- Step out of a lock for the session.  Answers whether it was held. -/
def openSuspension (i : InterpId) : Act Bool := fun w =>
  let (l, depth) := (w.lock i).suspend w.currentThread
  (decide (depth > 0), { w.setLock i l with guards := .suspended i depth :: w.guards })

/-- Leave the innermost lock scope of the session. -/
def closeGuard : Act (Option Guard) := fun w =>
  match w.guards with
  | [] => (none, w)
  | g :: rest =>
      let w := { w with guards := rest }
      match g with
      | .held i => (some g, w.setLock i (w.lock i).release)
      | .suspended i depth => (some g, comeBack i depth w)

/-- Leave all lock scopes of the session, the last one first. -/
def closeGuards : List Guard → World → World
  | [], w => w
  | _ :: rest, w => closeGuards rest (closeGuard w).2

end World

end TwinObject
