/-
Any number of threads on one lock.  Each of them opens scopes on it, levels of the
lock and suspensions, and closes them in reverse order.  Whatever the order in
which the threads take their steps, the lock agrees with the open scopes of its
holder, and nobody else has a claim to it.
-/
import TwinObject.Lock
import Mathlib.Data.List.TakeWhile
import Mathlib.Logic.Function.Basic
import Mathlib.Tactic.Common

namespace TwinObject

namespace Lock

variable {l l' : Lock} {me other : ThreadId} {depth : Nat}

/-- The lock is free exactly at depth zero. -/
def Settled (l : Lock) : Prop :=
  l.owner = none ↔ l.depth = 0

theorem isHeldBy_iff : l.isHeldBy me ↔ l.owner = some me := by
  simp [isHeldBy]

theorem depthOf_of_held (h : l.isHeldBy me) : l.depthOf me = l.depth :=
  if_pos h

theorem depthOf_of_not_held (h : ¬ l.isHeldBy me) : l.depthOf me = 0 :=
  if_neg h

theorem depthOf_of_free (h : l.owner = none) (me : ThreadId) : l.depthOf me = 0 := by
  simp [depthOf, isHeldBy, h]

theorem depthOf_of_owner {holder : ThreadId} (h : l.owner = some holder) (me : ThreadId) :
    l.depthOf me = if me = holder then l.depth else 0 := by
  simp [depthOf, isHeldBy, h, eq_comm]

theorem held_of_depthOf (h : l.depthOf me ≠ 0) : l.isHeldBy me := by
  by_contra hnot
  exact h (depthOf_of_not_held hnot)

/-- Taking the lock is one level for the thread that takes it. -/
theorem depthOf_acquire (h : l.acquire? me = some l') (other : ThreadId) :
    l'.depthOf other = if other = me then l.depthOf me + 1 else l.depthOf other := by
  unfold acquire? at h
  split at h
  · rename_i hfree
    cases h
    rw [depthOf_of_free hfree, depthOf_of_free hfree, depthOf_of_owner rfl]
  · rename_i holder howner
    split at h
    · rename_i hme
      subst hme
      cases h
      have hnew := depthOf_of_owner (l := { l with depth := l.depth + 1 }) howner other
      rw [hnew, depthOf_of_owner howner, depthOf_of_owner howner, if_pos rfl]
      split <;> rfl
    · cases h

theorem settled_acquire (h : l.acquire? me = some l') : l'.Settled := by
  unfold acquire? at h
  split at h
  · cases h
    simp [Settled]
  · rename_i holder howner
    split at h
    · cases h
      simp [Settled, howner]
    · cases h

/-- Giving back a level concerns its holder alone. -/
theorem depthOf_release (h : l.isHeldBy me) (other : ThreadId) :
    l.release.depthOf other = if other = me then l.depthOf me - 1 else l.depthOf other := by
  have howner := isHeldBy_iff.mp h
  rw [depthOf_of_owner howner, depthOf_of_owner howner, if_pos rfl]
  unfold release
  split
  · rename_i hlast
    rw [depthOf_of_free rfl, hlast]
    split <;> rfl
  · have hnew := depthOf_of_owner (l := { l with depth := l.depth - 1 }) howner other
    rw [hnew]
    split <;> rfl

theorem settled_release (hsettled : l.Settled) : l.release.Settled := by
  unfold release
  split
  · simp [Settled]
  · rename_i hmore
    have hdepth : l.depth ≠ 0 := by omega
    have howner : l.owner ≠ none := fun hfree => hdepth (hsettled.mp hfree)
    simp [Settled, howner, hmore]

/-- A suspension saves the depth of the thread. -/
theorem snd_suspend (l : Lock) (me : ThreadId) : (l.suspend me).2 = l.depthOf me := by
  unfold suspend depthOf
  split <;> rfl

theorem suspend_of_not_held (h : ¬ l.isHeldBy me) : l.suspend me = (l, 0) :=
  if_neg h

/-- Nobody but the thread that steps out of the lock is concerned. -/
theorem depthOf_suspend (l : Lock) (me other : ThreadId) :
    (l.suspend me).1.depthOf other = if other = me then 0 else l.depthOf other := by
  unfold suspend
  split
  · rename_i hheld
    rw [depthOf_of_free rfl, depthOf_of_owner (isHeldBy_iff.mp hheld)]
    split <;> rfl
  · rename_i hnot
    split
    · rename_i hother
      subst hother
      exact depthOf_of_not_held hnot
    · rfl

theorem settled_suspend (hsettled : l.Settled) (me : ThreadId) : (l.suspend me).1.Settled := by
  unfold suspend
  split
  · simp [Settled]
  · exact hsettled

theorem resume_zero (l : Lock) (me : ThreadId) : l.resume? me 0 = some l :=
  rfl

/-- Coming back leads to the depth that was left. -/
theorem depthOf_resume (h : l.resume? me depth = some l') (hout : l.depthOf me = 0)
    (other : ThreadId) : l'.depthOf other = if other = me then depth else l.depthOf other := by
  unfold resume? at h
  split at h
  · rename_i hzero
    cases h
    rw [hzero]
    split
    · rename_i hother
      rw [hother, hout]
    · rfl
  · split at h
    · rename_i hfree
      cases h
      rw [depthOf_of_owner rfl, depthOf_of_free hfree]
    · cases h

theorem settled_resume (hsettled : l.Settled) (h : l.resume? me depth = some l') : l'.Settled := by
  unfold resume? at h
  split at h
  · cases h
    exact hsettled
  · rename_i hdepth
    split at h
    · cases h
      simp [Settled, hdepth]
    · cases h

end Lock

/-- What a thread can have open on a lock: one level of it, or a suspension with the
depth that it is to come back to. -/
inductive LockScope where
  | level
  | suspension (saved : Nat)
deriving DecidableEq, Repr, Inhabited

namespace LockScope

/-- Whether it is a suspension that let go of the lock. -/
def isEffective : LockScope → Bool
  | level => false
  | suspension saved => decide (0 < saved)

/-- How many levels were opened since the innermost suspension that let go of the
lock. -/
def levels (scopes : List LockScope) : Nat :=
  (scopes.takeWhile fun scope => !scope.isEffective).count level

/-- Every suspension is to come back to the levels that were open under it. -/
def Faithful : List LockScope → Prop
  | [] => True
  | level :: rest => Faithful rest
  | suspension saved :: rest => saved = levels rest ∧ Faithful rest

@[simp] theorem levels_nil : levels [] = 0 :=
  rfl

@[simp] theorem levels_level (rest : List LockScope) :
    levels (level :: rest) = levels rest + 1 := by
  simp [levels, isEffective]

/-- Nothing is open since a suspension, if that came from a thread without levels
or let go of all of them. -/
theorem levels_suspension (rest : List LockScope) :
    levels (suspension (levels rest) :: rest) = 0 := by
  by_cases hzero : levels rest = 0
  · rw [hzero]
    simpa [levels, isEffective] using hzero
  · have heffective : (suspension (levels rest)).isEffective := by
      simpa [isEffective] using Nat.pos_of_ne_zero hzero
    rw [levels, List.takeWhile_cons_of_neg (by simp [heffective]), List.count_nil]

end LockScope

/-- A lock with the scopes that every thread has open on it, innermost first. -/
structure SharedLock where
  lock : Lock := {}
  scopes : ThreadId → List LockScope := fun _ => []

/-- What a thread can do to a lock: take it, or try to and give up if it would have
to wait, suspend it, and close the innermost scope that it has open. -/
inductive LockMove where
  | acquire
  | attempt
  | suspend
  | close
deriving DecidableEq, Repr, Inhabited

namespace SharedLock

open LockScope

variable {s s' : SharedLock} {me : ThreadId}

/-- The lock after a thread changed it, with the scopes that this thread has open
now. -/
def update (s : SharedLock) (me : ThreadId) (l : Lock) (opened : List LockScope) : SharedLock :=
  ⟨l, Function.update s.scopes me opened⟩

@[simp] theorem lock_update (s : SharedLock) (me : ThreadId) (l : Lock) (opened : List LockScope) :
    (s.update me l opened).lock = l :=
  rfl

@[simp] theorem scopes_update_self (s : SharedLock) (me : ThreadId) (l : Lock)
    (opened : List LockScope) : (s.update me l opened).scopes me = opened :=
  Function.update_self ..

theorem scopes_update_of_ne (s : SharedLock) (l : Lock) (opened : List LockScope) {t : ThreadId}
    (h : t ≠ me) : (s.update me l opened).scopes t = s.scopes t :=
  Function.update_of_ne h ..

/-- One step of a thread; there is none while it has to wait. -/
def step? (me : ThreadId) (move : LockMove) (s : SharedLock) : Option SharedLock :=
  match move with
  | .acquire => (s.lock.acquire? me).map fun l => s.update me l (.level :: s.scopes me)
  | .attempt =>
      some ((s.lock.acquire? me).elim s fun l => s.update me l (.level :: s.scopes me))
  | .suspend =>
      some (s.update me (s.lock.suspend me).1 (.suspension (s.lock.suspend me).2 :: s.scopes me))
  | .close =>
      match s.scopes me with
      | [] => none
      | .level :: rest => some (s.update me s.lock.release rest)
      | .suspension saved :: rest =>
          (s.lock.resume? me saved).map fun l => s.update me l rest

/-- A turn of a thread, which is lost while it has to wait. -/
def turn (s : SharedLock) (move : ThreadId × LockMove) : SharedLock :=
  (s.step? move.1 move.2).getD s

/-- Turns of threads in some order. -/
def after (moves : List (ThreadId × LockMove)) (s : SharedLock) : SharedLock :=
  moves.foldl turn s

/-- The lock agrees with the scopes that are open on it. -/
structure Sound (s : SharedLock) : Prop where
  settled : s.lock.Settled
  levels : ∀ t, LockScope.levels (s.scopes t) = s.lock.depthOf t
  faithful : ∀ t, Faithful (s.scopes t)

theorem Sound.initial : Sound {} where
  settled := by simp [Lock.Settled]
  levels _ := rfl
  faithful _ := trivial

/-- A step of one thread: the lock concerns the others as before, and this thread
has the levels that its scopes say. -/
theorem Sound.update (hsound : s.Sound) {l : Lock} {scopes : List LockScope} (hsettled : l.Settled)
    (hothers : ∀ t, t ≠ me → l.depthOf t = s.lock.depthOf t)
    (hlevels : LockScope.levels scopes = l.depthOf me) (hfaithful : Faithful scopes) :
    (s.update me l scopes).Sound where
  settled := hsettled
  levels t := by
    by_cases ht : t = me
    · subst ht
      rw [scopes_update_self, lock_update, hlevels]
    · rw [scopes_update_of_ne s l scopes ht, lock_update, hothers t ht, hsound.levels t]
  faithful t := by
    by_cases ht : t = me
    · subst ht
      rw [scopes_update_self]
      exact hfaithful
    · rw [scopes_update_of_ne s l scopes ht]
      exact hsound.faithful t

/-- Taking one level more. -/
theorem Sound.enter (hsound : s.Sound) {l : Lock} (h : s.lock.acquire? me = some l) :
    (s.update me l (.level :: s.scopes me)).Sound := by
  refine hsound.update (Lock.settled_acquire h) (fun t ht => ?_) ?_ (hsound.faithful me)
  · rw [Lock.depthOf_acquire h, if_neg ht]
  · rw [Lock.depthOf_acquire h, if_pos rfl, levels_level, hsound.levels me]

/-- A thread that closes a level holds the lock. -/
theorem Sound.held_of_level (hsound : s.Sound) {rest : List LockScope}
    (hopen : s.scopes me = .level :: rest) : s.lock.isHeldBy me ∧ 1 ≤ s.lock.depth := by
  have hlevels := hsound.levels me
  rw [hopen, levels_level] at hlevels
  have hheld : s.lock.isHeldBy me := Lock.held_of_depthOf (by omega)
  rw [Lock.depthOf_of_held hheld] at hlevels
  exact ⟨hheld, by omega⟩

/-- A thread whose innermost scope is a suspension does not hold the lock, and the
suspension knows the levels under it. -/
theorem Sound.out_of_suspension (hsound : s.Sound) {saved : Nat} {rest : List LockScope}
    (hopen : s.scopes me = .suspension saved :: rest) :
    s.lock.depthOf me = 0 ∧ saved = LockScope.levels rest ∧ Faithful rest := by
  have hfaithful := hsound.faithful me
  have hlevels := hsound.levels me
  rw [hopen] at hfaithful hlevels
  obtain ⟨hsaved, hrest⟩ := hfaithful
  rw [hsaved, levels_suspension] at hlevels
  exact ⟨hlevels.symm, hsaved, hrest⟩

/-- A step keeps the lock in agreement with the open scopes. -/
theorem Sound.step (hsound : s.Sound) {move : LockMove} (h : s.step? me move = some s') :
    s'.Sound := by
  cases move with
  | acquire =>
      obtain ⟨l, hl, rfl⟩ := Option.map_eq_some_iff.mp h
      exact hsound.enter hl
  | attempt =>
      cases h
      cases hl : s.lock.acquire? me with
      | none => exact hsound
      | some l => exact hsound.enter hl
  | suspend =>
      cases h
      refine hsound.update (Lock.settled_suspend hsound.settled me) (fun t ht => ?_) ?_ ?_
      · rw [Lock.depthOf_suspend, if_neg ht]
      · rw [Lock.snd_suspend, ← hsound.levels me, levels_suspension, Lock.depthOf_suspend,
          if_pos rfl]
      · rw [Lock.snd_suspend, ← hsound.levels me]
        exact ⟨rfl, hsound.faithful me⟩
  | close =>
      simp only [step?] at h
      split at h
      · cases h
      · rename_i rest hopen
        cases h
        have hheld := (hsound.held_of_level hopen).1
        have hlevels := hsound.levels me
        have hfaithful := hsound.faithful me
        rw [hopen] at hlevels hfaithful
        rw [levels_level] at hlevels
        refine hsound.update (Lock.settled_release hsound.settled) (fun t ht => ?_) ?_ hfaithful
        · rw [Lock.depthOf_release hheld, if_neg ht]
        · rw [Lock.depthOf_release hheld, if_pos rfl]
          omega
      · rename_i saved rest hopen
        obtain ⟨l, hl, rfl⟩ := Option.map_eq_some_iff.mp h
        obtain ⟨hout, hsaved, hfaithful⟩ := hsound.out_of_suspension hopen
        refine hsound.update (Lock.settled_resume hsound.settled hl) (fun t ht => ?_) ?_ hfaithful
        · rw [Lock.depthOf_resume hl hout, if_neg ht]
        · rw [Lock.depthOf_resume hl hout, if_pos rfl, hsaved]

theorem Sound.turn (hsound : s.Sound) (move : ThreadId × LockMove) : (s.turn move).Sound := by
  unfold SharedLock.turn
  cases hstep : s.step? move.1 move.2 with
  | none => exact hsound
  | some s' => exact hsound.step hstep

/-- Whatever the order of the turns, the lock agrees with the open scopes. -/
theorem Sound.after (hsound : s.Sound) (moves : List (ThreadId × LockMove)) :
    (s.after moves).Sound := by
  induction moves generalizing s with
  | nil => exact hsound
  | cons move moves ih => exact ih (hsound.turn move)

/-- A suspension that is closed gives its thread the depth that this had when it
suspended, and if that was none leaves the lock alone. -/
theorem Sound.close_suspension (hsound : s.Sound) {saved : Nat} {rest : List LockScope}
    (hopen : s.scopes me = .suspension saved :: rest) (h : s.step? me .close = some s') :
    s'.lock.depthOf me = saved ∧ s'.scopes me = rest ∧ (saved = 0 → s'.lock = s.lock) := by
  simp only [step?, hopen] at h
  obtain ⟨l, hl, rfl⟩ := Option.map_eq_some_iff.mp h
  obtain ⟨hout, -, -⟩ := hsound.out_of_suspension hopen
  refine ⟨?_, scopes_update_self s me l rest, fun hzero => ?_⟩
  · rw [lock_update, Lock.depthOf_resume hl hout, if_pos rfl]
  · rw [hzero, Lock.resume_zero] at hl
    exact (Option.some.inj hl).symm

end SharedLock

/-- Any number of threads, and any order of their steps on one lock.  At most one of
them holds it; it is free exactly at depth zero; its depth is the number of levels
that its holder opened since it last let go of it, and nobody else has such a
level.  A level is given back only by the holder, which has one.  A suspension by
a thread that does not hold the lock changes nothing, and whatever was done after
a suspension, once that is the innermost scope again and is closed, the thread is
as deep in the lock as it was. -/
theorem lock_scopes_sound (moves : List (ThreadId × LockMove)) :
    let s := ({} : SharedLock).after moves
    (∀ t t', s.lock.isHeldBy t → s.lock.isHeldBy t' → t = t')
      ∧ (s.lock.owner = none ↔ s.lock.depth = 0)
      ∧ (∀ t, s.lock.isHeldBy t → s.lock.depth = LockScope.levels (s.scopes t))
      ∧ (∀ t, ¬ s.lock.isHeldBy t → LockScope.levels (s.scopes t) = 0)
      ∧ (∀ t rest, s.scopes t = .level :: rest → s.lock.isHeldBy t ∧ 1 ≤ s.lock.depth)
      ∧ (∀ t, ¬ s.lock.isHeldBy t → (s.turn (t, .suspend)).lock = s.lock)
      ∧ (∀ t more s', let s₁ := s.turn (t, .suspend)
          let s₂ := s₁.after more
          s₂.scopes t = s₁.scopes t → s₂.step? t .close = some s' →
            s'.lock.depthOf t = s.lock.depthOf t ∧ s'.scopes t = s.scopes t
              ∧ (¬ s.lock.isHeldBy t → s'.lock = s₂.lock)) := by
  intro s
  have hsound : s.Sound := SharedLock.Sound.initial.after moves
  refine ⟨?_, hsound.settled, ?_, ?_, ?_, ?_, ?_⟩
  · intro t t' ht ht'
    rw [Lock.isHeldBy_iff] at ht ht'
    exact Option.some.inj (ht.symm.trans ht')
  · intro t ht
    rw [hsound.levels t, Lock.depthOf_of_held ht]
  · intro t ht
    rw [hsound.levels t, Lock.depthOf_of_not_held ht]
  · intro t rest hopen
    exact hsound.held_of_level hopen
  · intro t ht
    simp [SharedLock.turn, SharedLock.step?, Lock.suspend_of_not_held ht]
  · intro t more s' s₁ s₂ hopen hclose
    have hscopes : s₁.scopes t = .suspension (s.lock.depthOf t) :: s.scopes t := by
      simp [s₁, SharedLock.turn, SharedLock.step?, Lock.snd_suspend]
    have hsound₂ : s₂.Sound := (hsound.turn (t, .suspend)).after more
    obtain ⟨hdepth, hrest, hlock⟩ := hsound₂.close_suspension (hopen.trans hscopes) hclose
    exact ⟨hdepth, hrest, fun hout => hlock (Lock.depthOf_of_not_held hout)⟩

end TwinObject
