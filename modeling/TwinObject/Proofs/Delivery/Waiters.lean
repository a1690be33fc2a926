/-
Threads that wait declare no dynamic class when they go on.  A session stays steady in all
turns that it gives to threads, and in every step but those that declare one.
-/
import TwinObject.Proofs.Delivery.Perform
import TwinObject.Proofs.Safe.Session

namespace TwinObject

/-- Whether a waiting thread declares no dynamic class when it goes on. -/
def Waiter.Steady (p : Waiter) : Prop :=
  ∃ g, ∀ v v', p.ready v = some v' →
    v.Silent v' ∧ (p.next v').Carries (fun _ _ _ => True) g v'

namespace Session

/-- Whether no dynamic class was declared between a world and a session, and the threads
that wait there will declare none. -/
structure Steady (w : World) (s : Session) : Prop where
  world : w.Steady s.world
  waiters : ∀ p ∈ s.waiters, p.2.Steady

variable {h : Host} {w u : World} {s : Session}

theorem Steady.to (hs : Steady w s) (hlater : s.world.Steady u) :
    Steady w { s with world := u } where
  world := hs.world.trans hlater
  waiters := hs.waiters

section Turns

theorem endThread_silent (index : Nat) (result : Except Thrown DynValue) (w : World) :
    w.Silent (w.endThread index result) := by
  unfold World.endThread
  split
  · exact .of_eq rfl rfl rfl rfl
  · exact .drop w _

theorem afterTurn_steady {index : Nat} {f : Option Thrown} {c : Course Thrown DynValue}
    (hs : Steady w s) (hbefore : s.world.Steady u) (hcourse : c.Carries (fun _ _ _ => True) f u) :
    Steady w (s.afterTurn index c) := by
  have hothers : ∀ p ∈ s.waiters.filter (·.1 != index), p.2.Steady := fun p hp =>
    hs.waiters p (List.mem_of_mem_filter hp)
  have hback : ∀ v : World, v.Steady (v.onThread s.world.currentThread) := fun v =>
    .of_eq rfl rfl rfl
  -- A thread that ended keeps its result, and one that waits joins the others that wait.
  cases hcourse with
  | @ended _ _ e _ v hbears _ =>
      have hsince := (hs.world.trans hbefore).trans hbears.steady
      refine ⟨hsince.trans (World.Steady.trans ?_ (hback _)), hothers⟩
      cases e with
      | value r => exact (endThread_silent index (.ok r) v).steady
      | raised t => exact (endThread_silent index (.error t) v).steady
      | panicked text => exact (endThread_silent index (.error _) v).steady
  | @paused _ g held _ v ready next hbears hready hnext =>
      have hsince := (hs.world.trans hbefore).trans hbears.steady
      refine ⟨hsince.trans (hback v), fun p hp => ?_⟩
      rcases List.mem_cons.mp hp with rfl | hp
      · exact ⟨g, fun v v' hgo => ⟨hready v v' hgo, hnext v v' hgo⟩⟩
      · exact hothers p hp
  | exhausted => exact hs

/-- Whatever a thread does in its turn, it goes on with code that delivers. -/
theorem turn_steady (hh : h.Delivers) (index : Nat) (hs : Steady w s) :
    Steady w (turn h index s) := by
  unfold turn
  split
  swap
  · exact hs
  rename_i interp code _
  cases hwaits : s.waiters.lookup index with
  | none =>
      rw [courseOf_of_none hwaits]
      have hcode : (Run.locked interp (code.eval h {})).Delivers id :=
        Run.Carries.locked (code.eval_delivers hh {})
      have hcourse := (hcode s.world.onNewThread).mono fun _ _ _ _ => trivial
      have hstarted : s.world.Steady s.world.onNewThread := .of_eq rfl rfl rfl
      exact afterTurn_steady hs hstarted hcourse
  | some p =>
      rw [courseOf_of_some hwaits]
      obtain ⟨before, after, hmem, -⟩ := List.lookup_eq_some_iff.mp hwaits
      obtain ⟨g, hgo⟩ := hs.waiters (index, p) (by rw [hmem]; simp)
      cases hready : p.ready (s.world.onThread p.me) with
      | none => exact hs
      | some v =>
          obtain ⟨hsilent, hcourse⟩ := hgo _ v hready
          have hback : s.world.Steady (s.world.onThread p.me) := .of_eq rfl rfl rfl
          exact afterTurn_steady hs (hback.trans hsilent.steady) hcourse

theorem round_steady (hh : h.Delivers) (target : Nat) (hs : Steady w s) :
    Steady w (round h target s) := by
  unfold round
  generalize List.range s.world.threads.size = indices
  induction indices generalizing s with
  | nil => exact hs
  | cons index indices ih =>
      rw [List.foldl_cons]
      split
      · exact ih hs
      · exact ih (turn_steady hh index hs)

theorem rounds_steady (hh : h.Delivers) (target n : Nat) (hs : Steady w s) :
    Steady w (rounds h target n s) := by
  induction n generalizing s with
  | zero => exact hs
  | succ n ih => exact ih (round_steady hh target hs)

theorem outside_steady {f : Session → Session} (i : InterpId)
    (hf : ∀ s, Steady w s → Steady w (f s)) (hs : Steady w s) : Steady w (outside i f s) :=
  (hf _ (hs.to (World.Silent.setLock s.world i _).steady)).to
    (World.comeBack_silent i _ _).steady

theorem awaitThread_steady (hh : h.Delivers) (index : Nat) (hs : Steady w s) :
    Steady w (awaitThread h index s) := by
  unfold awaitThread
  split
  · rename_i interp code _
    have hwaited := outside_steady interp
      (fun _ => rounds_steady hh index s.world.threads.size) hs
    dsimp only
    split
    · exact outside_steady _ (fun _ => id) hwaited
    · exact hwaited
  · exact hs

end Turns

/-- What a step leaves is what it performs, or what was there before. -/
theorem advance_steady (hh : h.Delivers) {st : Step} (hst : ¬st.Declares) (hs : Steady w s) :
    Steady w (advance h st s).2 := by
  have hready : Steady w ((awaited? s.world st).elim s fun index => awaitThread h index s) := by
    cases awaited? s.world st with
    | none => exact hs
    | some index => exact awaitThread_steady hh index hs
  have hperformed := Step.perform_steady hh hst
    ((awaited? s.world st).elim s fun index => awaitThread h index s).world
  unfold advance
  dsimp only
  generalize st.perform h _ = e at hperformed
  obtain ⟨answer, u⟩ := e
  cases answer with
  | stuck => exact hs
  | _ => exact hready.to hperformed

end Session

end TwinObject
