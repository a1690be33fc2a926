/-
Histories.  A history is the list of steps that a session has performed.  What
holds of all states that can be reached holds after every history, with the
handles and segments that waiting threads hold; and a host that looks every
override up afresh answers each history like the one that remembers them.
-/
import TwinObject.Proofs.Safe.Session

namespace TwinObject

open Hold

namespace Session

/-- A session after a history, performed on a host from the beginning. -/
def after (host : Host) (steps : List Step) : Session :=
  ((steps.mapM (step host)).run initial).2

/-- What waiting threads hold after a history. -/
def waiting (s : Session) : Hold :=
  Waiters.hold s.waiters

section Steps

variable {h h' : Host}

theorem step_safe (hsafe : h.Safe h') (st : Step) {s s' : Session} (hs : s.Safe s') :
    (step h st s).1 = (step h' st s').1 ∧ (step h st s).2.Safe (step h' st s').2
      ∧ Persists s.world (step h st s).2.world := by
  obtain ⟨hanswer, hend, hpersists⟩ := advance_safe hsafe st hs
  refine ⟨?_, hend, hpersists⟩
  change ((advance h st s).1, linesSince s.world.journal.size (advance h st s).2.world)
    = ((advance h' st s').1, linesSince s'.world.journal.size (advance h' st s').2.world)
  rw [hanswer, hs.world, hend.world]

/-- All answers of a history are alike on the two hosts, and so is its end. -/
theorem steps_safe (hsafe : h.Safe h') (steps : List Step) {s s' : Session} (hs : s.Safe s') :
    (steps.mapM (step h) s).1 = (steps.mapM (step h') s').1
      ∧ (steps.mapM (step h) s).2.Safe (steps.mapM (step h') s').2
      ∧ Persists s.world (steps.mapM (step h) s).2.world := by
  induction steps generalizing s s' with
  | nil => exact ⟨rfl, hs, .refl _⟩
  | cons st steps ih =>
      obtain ⟨hanswer, hnext, hpersists⟩ := step_safe hsafe st hs
      obtain ⟨hanswers, hend, hlater⟩ := ih hnext
      have hrun : ∀ (host : Host) (s : Session), (st :: steps).mapM (step host) s
          = ((step host st s).1 :: (steps.mapM (step host) (step host st s).2).1,
              (steps.mapM (step host) (step host st s).2).2) := by
        intro host s
        rw [List.mapM_cons]
        rfl
      rw [hrun, hrun]
      exact ⟨by rw [hanswer, hanswers], hend, hpersists.trans hlater⟩

/-- A step that waits for no thread is answered with what it performs, or it is never
answered and leaves the session as it was. -/
theorem step_of_free {st : Step} {s : Session} (hfree : awaited? s.world st = none) :
    (step h st s).1.1 = (st.perform h s.world).1
      ∧ ((st.perform h s.world).1 = .stuck ∧ (step h st s).2 = s
        ∨ (st.perform h s.world).1 ≠ .stuck
          ∧ (step h st s).2 = { s with world := (st.perform h s.world).2 }) := by
  have hstep : (step h st s).1.1 = (advance h st s).1 ∧ (step h st s).2 = (advance h st s).2 :=
    ⟨rfl, rfl⟩
  rw [hstep.1, hstep.2]
  unfold advance
  rw [hfree, Option.elim_none]
  dsimp only
  rcases st.perform h s.world with ⟨answer, u⟩
  cases answer with
  | stuck => exact ⟨rfl, Or.inl ⟨rfl, rfl⟩⟩
  | _ => exact ⟨rfl, Or.inr ⟨nofun, rfl⟩⟩

theorem after_append (host : Host) (steps more : List Step) :
    after host (steps ++ more) = (more.mapM (step host) (after host steps)).2 := by
  rw [after, List.mapM_append]
  rfl

theorem after_singleton (host : Host) (steps : List Step) (st : Step) :
    after host (steps ++ [st]) = (step host st (after host steps)).2 := by
  rw [after_append, List.mapM_cons, List.mapM_nil]
  rfl

end Steps

section Reached

variable (depth : Nat) (steps more : List Step)

/-- After a history a session is at the same point on both hosts. -/
theorem after_safe (noSlot : Kind → Nat → Run Failure NativeValue)
    (bare : Slot → Run Failure NativeValue) :
    (after (.nested .memo depth) steps).Safe (after (.nested (.fresh noSlot bare) depth) steps) :=
  (steps_safe (Host.nested_safe noSlot bare depth) steps .initial).2.1

/-- A whole session is answered alike on both hosts. -/
theorem run_eq_runOn (noSlot : Kind → Nat → Run Failure NativeValue)
    (bare : Slot → Run Failure NativeValue) :
    run depth steps = runOn (.nested (.fresh noSlot bare) depth) steps := by
  obtain ⟨hanswers, hend, -⟩ := steps_safe (Host.nested_safe noSlot bare depth) steps .initial
  change ((steps.mapM (step (.nested .memo depth)) initial).1,
      (finish (steps.mapM (step (.nested .memo depth)) initial).2.world).1)
    = ((steps.mapM (step (.nested (.fresh noSlot bare) depth)) initial).1,
      (finish (steps.mapM (step (.nested (.fresh noSlot bare) depth)) initial).2.world).1)
  rw [hanswers, hend.world]

/-- What a session never takes back is there after any longer history. -/
theorem persists_after :
    Persists (after (.nested .memo depth) steps).world
      (after (.nested .memo depth) (steps ++ more)).world := by
  rw [after_append]
  have hsafe := Host.nested_safe Dispatcher.memo.noSlot Dispatcher.memo.bare depth
  exact (steps_safe hsafe more
    (after_safe depth steps Dispatcher.memo.noSlot Dispatcher.memo.bare)).2.2

/-- A state after a history can be reached, up to segments that code which
panicked left behind. -/
theorem attained_after :
    Attained (after (.nested .memo depth) steps).world
      (after (.nested .memo depth) steps).waiting :=
  (after_safe depth steps Dispatcher.memo.noSlot Dispatcher.memo.bare).attained

end Reached

end Session

end TwinObject
