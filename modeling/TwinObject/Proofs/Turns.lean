/-
Locks and turns.  Threads take turns where code waits; what others do to locks then,
and what code does to them meanwhile, is told by how deep each thread is in each
lock.  Steps of the transition system leave all locks alone.
-/
import TwinObject.Proofs.Homes
import TwinObject.Proofs.Locks
import Mathlib.Order.Interval.Set.Defs

namespace TwinObject

namespace World

variable {w u v : World} {i j : InterpId}

theorem interp_modifyInterp (w : World) (i : InterpId) (f : Interp → Interp) (j : InterpId) :
    (w.modifyInterp i f).interp j
      = if i = j ∧ i < w.interps.size then f (w.interp i) else w.interp j := by
  simp only [interp, modifyInterp, Array.getElem?_modify]
  by_cases hi : i = j
  · subst hi
    by_cases hlt : i < w.interps.size
    · simp [hlt]
    · simp [hlt]
  · simp [hi]

/-- What is done to an interpreter apart from its lock leaves all locks alone. -/
theorem lock_modifyInterp (w : World) (i : InterpId) {f : Interp → Interp}
    (hf : ∀ s : Interp, (f s).lock = s.lock) (j : InterpId) :
    (w.modifyInterp i f).lock j = w.lock j := by
  rw [lock, interp_modifyInterp]
  split
  · rename_i h
    rw [hf, ← h.1, lock]
  · rfl

theorem lock_of_missing (hi : w.interps.size ≤ i) : w.lock i = {} := by
  rw [lock, interp, Array.getElem?_eq_none hi]
  rfl

theorem lock_setLock (w : World) (i : InterpId) (l : Lock) (j : InterpId) :
    (w.setLock i l).lock j = if i = j ∧ i < w.interps.size then l else w.lock j := by
  rw [lock, setLock, interp_modifyInterp]
  split <;> rfl

namespace Calm

theorem refl (w : World) : w.Calm w :=
  ⟨fun _ => rfl, rfl, rfl⟩

theorem trans (h : w.Calm u) (h' : u.Calm v) : w.Calm v where
  locks i := (h'.locks i).trans (h.locks i)
  running := h'.running.trans h.running
  started := h'.started.trans h.started

theorem of_eq (hinterps : u.interps = w.interps) (hrunning : u.currentThread = w.currentThread)
    (hstarted : u.nextThread = w.nextThread) : w.Calm u where
  locks i := by rw [lock, lock, interp, interp, hinterps]
  running := hrunning
  started := hstarted

theorem modifyInterp (w : World) (i : InterpId) {f : Interp → Interp}
    (hf : ∀ s : Interp, (f s).lock = s.lock) : w.Calm (w.modifyInterp i f) :=
  ⟨w.lock_modifyInterp i hf, rfl, rfl⟩

theorem depthIn (hcalm : w.Calm u) (i : InterpId) : u.depthIn i = w.depthIn i := by
  rw [World.depthIn, World.depthIn, hcalm.locks, hcalm.running]

end Calm

end World

/-- Steps leave all locks alone. -/
theorem Transition.calm {w w' : World} {R R' : Hold} (hstep : Transition w R w' R') :
    w.Calm w' := by
  cases hstep with
  | quiet halike hcalm => exact hcalm
  | letGo h =>
      obtain ⟨twins, journal, hframe⟩ := w.letGo_frame h
      rw [hframe]
      exact .of_eq rfl rfl rfl
  | mark =>
      obtain ⟨twins, journal, hframe⟩ := w.markBuilt_frame _ _ _
      rw [hframe]
      exact .of_eq rfl rfl rfl
  | endClass id =>
      obtain ⟨classes, hframe, -⟩ := w.endClass_frame id
      rw [hframe]
      exact .of_eq rfl rfl rfl
  | endNative id =>
      obtain ⟨declared, hframe⟩ := w.endNative_frame id
      rw [hframe]
      exact .of_eq rfl rfl rfl
  | @register _ c _ _ _ attrs =>
      have hwarned : w.Calm (w.modifyInterp c.interp fun s =>
          { s with diagnostics := s.diagnostics ++ c.warnings }) :=
        .modifyInterp w c.interp fun _ => rfl
      exact hwarned.trans (.of_eq rfl rfl rfl)
  | _ => exact .of_eq rfl rfl rfl

namespace World

/-- Whether the running thread and those of a set have nothing to do with each
other: it is none of them, and all of them are started already. -/
structure Apart (O : Set ThreadId) (w : World) : Prop where
  mine : w.currentThread ∉ O
  known : w.currentThread < w.nextThread
  theirs : ∀ t ∈ O, t < w.nextThread

/-- What others do while code waits: those of a set, and those that they start
then, take and leave locks, and the other threads are as deep in all of them as
they were. -/
structure Turns (O : Set ThreadId) (w u : World) : Prop where
  running : u.currentThread = w.currentThread
  started : w.nextThread ≤ u.nextThread
  depths : ∀ t, t ∉ O → t < w.nextThread → ∀ i, (u.lock i).depthOf t = (w.lock i).depthOf t

/-- Those who take turns after others did: they may have started some. -/
def joined (O : Set ThreadId) (w u : World) : Set ThreadId :=
  O ∪ Set.Ico w.nextThread u.nextThread

/-- Whether the threads of a set are as deep in all locks as they were. -/
def Spares (O : Set ThreadId) (w u : World) : Prop :=
  ∀ t ∈ O, ∀ i, (u.lock i).depthOf t = (w.lock i).depthOf t

/-- Whether a piece of code is back where it started: the same thread runs, and all
threads that there were, apart from the others, are as deep in all locks as before.
The others may have become more meanwhile. -/
structure Returns (O O' : Set ThreadId) (w u : World) : Prop where
  running : u.currentThread = w.currentThread
  started : w.nextThread ≤ u.nextThread
  depths : ∀ t, t ∉ O → t < w.nextThread → ∀ i, (u.lock i).depthOf t = (w.lock i).depthOf t
  others : ∀ t ∈ O', t ∈ O ∨ w.nextThread ≤ t
  theirs : ∀ t ∈ O', t < u.nextThread

variable {O O' O'' : Set ThreadId} {w u v : World}

namespace Spares

theorem refl (O : Set ThreadId) (w : World) : w.Spares O w :=
  fun _ _ _ => rfl

theorem trans (h : w.Spares O u) (h' : u.Spares O v) : w.Spares O v :=
  fun t ht i => (h' t ht i).trans (h t ht i)

theorem of_calm (hcalm : w.Calm u) : w.Spares O u := by
  intro t _ i
  rw [hcalm.locks]

end Spares

namespace Returns

theorem of_calm (hcalm : w.Calm u) (hapart : w.Apart O) : w.Returns O O u where
  running := hcalm.running
  started := Nat.le_of_eq hcalm.started.symm
  depths t _ _ i := by rw [hcalm.locks]
  others t ht := Or.inl ht
  theirs t ht := hcalm.started.symm ▸ hapart.theirs t ht

theorem refl (hapart : w.Apart O) : w.Returns O O w :=
  of_calm (.refl w) hapart

theorem trans (h : w.Returns O O' u) (h' : u.Returns O' O'' v) : w.Returns O O'' v where
  running := h'.running.trans h.running
  started := h.started.trans h'.started
  depths t ht hknown i := by
    have hnot : t ∉ O' := by
      intro hmem
      rcases h.others t hmem with hO | hnew
      · exact ht hO
      · exact absurd hknown (Nat.not_lt.mpr hnew)
    rw [h'.depths t hnot (hknown.trans_le h.started), h.depths t ht hknown]
  others t ht := by
    rcases h'.others t ht with hO' | hnew
    · exact h.others t hO'
    · exact Or.inr (h.started.trans hnew)
  theirs := h'.theirs

/-- The others are still apart. -/
theorem apart (hreturns : w.Returns O O' u) (hapart : w.Apart O) : u.Apart O' where
  mine := by
    rw [hreturns.running]
    intro hmem
    rcases hreturns.others _ hmem with hO | hnew
    · exact hapart.mine hO
    · exact absurd hapart.known (Nat.not_lt.mpr hnew)
  known := by
    rw [hreturns.running]
    exact hapart.known.trans_le hreturns.started
  theirs := hreturns.theirs

theorem depthIn (hreturns : w.Returns O O' u) (hapart : w.Apart O) (i : InterpId) :
    u.depthIn i = w.depthIn i := by
  rw [World.depthIn, hreturns.running, hreturns.depths _ hapart.mine hapart.known, World.depthIn]

end Returns

theorem Apart.of_calm (hapart : w.Apart O) (hcalm : w.Calm u) : u.Apart O :=
  (Returns.of_calm hcalm hapart).apart hapart

/-- Waiting leads back to the same place. -/
theorem Turns.returns (hturns : w.Turns O u) (hapart : w.Apart O) :
    w.Returns O (w.joined O u) u where
  running := hturns.running
  started := hturns.started
  depths := hturns.depths
  others t ht := ht.imp id fun hnew => hnew.1
  theirs t ht := by
    rcases ht with hO | hnew
    · exact (hapart.theirs t hO).trans_le hturns.started
    · exact hnew.2

/-- Whether the running thread went to a depth in one lock, and all else about locks is
as it was. -/
structure Moves (i : InterpId) (depth : Nat) (w u : World) : Prop where
  running : u.currentThread = w.currentThread
  started : u.nextThread = w.nextThread
  depths : ∀ t j, (u.lock j).depthOf t
    = if t = w.currentThread ∧ j = i then depth else (w.lock j).depthOf t

namespace Moves

variable {depth : Nat}

theorem depthIn (hmoves : w.Moves i depth u) : u.depthIn i = depth := by
  rw [World.depthIn, hmoves.running, hmoves.depths, if_pos ⟨rfl, rfl⟩]

theorem spares (hmoves : w.Moves i depth u) (hapart : w.Apart O) : w.Spares O u := by
  intro t ht j
  rw [hmoves.depths, if_neg]
  rintro ⟨rfl, -⟩
  exact hapart.mine ht

theorem apart (hmoves : w.Moves i depth u) (hapart : w.Apart O) : u.Apart O where
  mine := hmoves.running.symm ▸ hapart.mine
  known := hmoves.running.symm ▸ hmoves.started.symm ▸ hapart.known
  theirs t ht := hmoves.started.symm ▸ hapart.theirs t ht

/-- Going to a depth, back to the same place, and then to the old depth again. -/
theorem around (hthere : w.Moves i depth u) (hreturns : u.Returns O O' v) {x : World}
    (hback : v.Moves i (w.depthIn i) x) : w.Returns O O' x where
  running := by rw [hback.running, hreturns.running, hthere.running]
  started := by
    rw [hback.started, ← hthere.started]
    exact hreturns.started
  depths t ht hknown j := by
    rw [hback.depths, hreturns.running, hthere.running]
    split
    · rename_i hmine
      rw [hmine.1, hmine.2, World.depthIn]
    · rename_i hother
      rw [hreturns.depths t ht (hthere.started.symm ▸ hknown), hthere.depths, if_neg hother]
  others t ht := hthere.started ▸ hreturns.others t ht
  theirs t ht := hback.started.symm ▸ hreturns.theirs t ht

/-- A new state of a lock that exists shows in the depths. -/
theorem of_setLock {l : Lock} (hi : i < w.interps.size)
    (hdepths : ∀ t, l.depthOf t = if t = w.currentThread then depth else (w.lock i).depthOf t) :
    w.Moves i depth (w.setLock i l) where
  running := rfl
  started := rfl
  depths t j := by
    rw [lock_setLock]
    by_cases hj : j = i
    · subst hj
      rw [if_pos ⟨rfl, hi⟩, hdepths]
      simp only [and_true]
    · rw [if_neg fun h => hj h.1.symm, if_neg fun h => hj h.2]

/-- The lock of an interpreter that does not exist cannot be held. -/
theorem of_missing {l : Lock} (hi : w.interps.size ≤ i) : w.Moves i 0 (w.setLock i l) where
  running := rfl
  started := rfl
  depths t j := by
    rw [lock_setLock, if_neg fun h => absurd h.2 (Nat.not_lt.mpr hi)]
    split
    · rename_i hmine
      rw [hmine.2, lock_of_missing hi]
      exact Lock.depthOf_of_free rfl t
    · rfl

theorem acquired (hi : i < w.interps.size)
    (h : ((w.lock i).acquire? w.currentThread).map (w.setLock i) = some u) :
    w.Moves i (w.depthIn i + 1) u := by
  obtain ⟨l, hl, rfl⟩ := Option.map_eq_some_iff.mp h
  exact of_setLock hi (Lock.depthOf_acquire hl)

theorem released (hi : i < w.interps.size) (hheld : 0 < w.depthIn i) :
    w.Moves i (w.depthIn i - 1) (w.setLock i (w.lock i).release) :=
  of_setLock hi (Lock.depthOf_release (Lock.held_of_depthOf (Nat.ne_of_gt hheld)))

theorem left (w : World) (i : InterpId) : w.Moves i 0 (World.leaveLock i w).2 := by
  rcases Nat.lt_or_ge i w.interps.size with hi | hi
  · exact of_setLock hi (Lock.depthOf_suspend (w.lock i) w.currentThread)
  · exact of_missing hi

theorem resumed (hout : w.depthIn i = 0)
    (h : ((w.lock i).resume? w.currentThread depth).map (w.setLock i) = some u)
    (hi : depth ≠ 0 → i < w.interps.size) : w.Moves i depth u := by
  obtain ⟨l, hl, rfl⟩ := Option.map_eq_some_iff.mp h
  rcases Nat.lt_or_ge i w.interps.size with hlt | hge
  · exact of_setLock hlt (Lock.depthOf_resume hl hout)
  · obtain rfl : depth = 0 := by
      by_contra hdepth
      exact absurd (hi hdepth) (Nat.not_lt.mpr hge)
    exact of_missing hge

end Moves

end World

end TwinObject
