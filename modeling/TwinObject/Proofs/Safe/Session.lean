/-
Sessions are safe.  A thread that waits holds what its open scopes hold, and goes
on alike on two hosts from whatever world it has its next turn in.  Turns, rounds
and steps preserve that, in whatever order threads wait for each other.
-/
import TwinObject.Proofs.Safe.Perform
import TwinObject.Session.Sequence

namespace TwinObject

open Hold

/-- Whether a thread takes the same course on two hosts.  What it does to locks is left
open here. -/
abbrev Course.Alike (O : Set ThreadId) (w : World) (c : Course Thrown DynValue) (E : Hold)
    (c' : Course Thrown DynValue) : Prop :=
  Course.Runs False 0 (fun _ => Ending.Leaves 0 DynValue.hold fun _ _ => True) O w c E c'

/-- Whether a waiting thread goes on alike on two hosts, from a world on. -/
structure Waiter.Safe (w : World) (p p' : Waiter) : Prop where
  me : p'.me = p.me
  held : p'.held = p.held
  ready : p'.ready = p.ready
  known : p.me < w.nextThread
  next : ∀ (E : Hold) (v v' : World), Attained v (E + ↑p.held) → Persists w v →
    0 < v.threads.size → p.ready v = some v' →
    ∃ O, Course.Alike O v (p.next v') E (p'.next v')

theorem Waiter.Safe.mono {w u : World} {p p' : Waiter} (hp : p.Safe w p')
    (hpersists : Persists w u) : p.Safe u p' where
  me := hp.me
  held := hp.held
  ready := hp.ready
  known := hp.known.trans_le hpersists.started
  next E v v' hattained hlater := hp.next E v v' hattained (hpersists.trans hlater)

/-- Waiting threads, each with its number. -/
abbrev Waiters := List (Nat × Waiter)

namespace Waiters

/-- What waiting threads hold. -/
def hold (ps : Waiters) : Hold :=
  (ps.map fun p => (↑p.2.held : Hold)).sum

/-- Whether the same threads wait on two hosts, and go on alike. -/
def Safe (w : World) : Waiters → Waiters → Prop :=
  List.Forall₂ fun p p' => p'.1 = p.1 ∧ p.2.Safe w p'.2

variable {w u : World} {ps ps' : Waiters} {i : Nat}

theorem Safe.mono (hps : Safe w ps ps') (hpersists : Persists w u) : Safe u ps ps' :=
  List.Forall₂.imp (fun _ _ hp => ⟨hp.1, hp.2.mono hpersists⟩) hps

/-- One thread and the others. -/
theorem hold_filter {p : Waiter} (hdistinct : (ps.map Prod.fst).Nodup) (hp : ps.lookup i = some p) :
    hold ps = hold (ps.filter (·.1 != i)) + ↑p.held := by
  obtain ⟨before, after, rfl, -⟩ := List.lookup_eq_some_iff.mp hp
  have hothers : ∀ q ∈ before ++ after, (q.1 != i) = true := by
    intro q hq
    rw [List.map_append, List.map_cons] at hdistinct
    have hnot := (List.nodup_middle.mp hdistinct).notMem
    rw [← List.map_append] at hnot
    exact bne_iff_ne.mpr fun heq => hnot (List.mem_map.mpr ⟨q, hq, heq⟩)
  rw [List.forall_mem_append] at hothers
  rw [List.filter_append, List.filter_cons_of_neg (by simp), List.filter_eq_self.mpr hothers.1,
    List.filter_eq_self.mpr hothers.2]
  simp only [hold, List.map_append, List.map_cons, List.sum_append, List.sum_cons]
  abel

theorem filter_of_none (hp : ps.lookup i = none) : ps.filter (·.1 != i) = ps := by
  refine List.filter_eq_self.mpr fun q hq => ?_
  rw [bne_comm]
  exact List.lookup_eq_none_iff.mp hp q hq

theorem Safe.filter (hps : Safe w ps ps') (i : Nat) :
    Safe w (ps.filter (·.1 != i)) (ps'.filter (·.1 != i)) := by
  induction hps with
  | nil => exact .nil
  | @cons p p' ps ps' hp hps ih =>
      by_cases hi : p.1 = i
      · rw [List.filter_cons_of_neg (by simp [hi]), List.filter_cons_of_neg (by simp [hp.1, hi])]
        exact ih
      · rw [List.filter_cons_of_pos (by simp [hi]), List.filter_cons_of_pos (by simp [hp.1, hi])]
        exact .cons hp ih

/-- A thread waits on both hosts, or on neither. -/
theorem Safe.lookup (hps : Safe w ps ps') (i : Nat) :
    (ps.lookup i = none ∧ ps'.lookup i = none) ∨
      ∃ p p', ps.lookup i = some p ∧ ps'.lookup i = some p' ∧ p.Safe w p' := by
  induction hps with
  | nil => exact Or.inl ⟨rfl, rfl⟩
  | @cons p p' ps ps' hp hps ih =>
      obtain ⟨j, p⟩ := p
      obtain ⟨j', p'⟩ := p'
      obtain ⟨hnumber, hsafe⟩ := hp
      obtain rfl : j' = j := hnumber
      rw [List.lookup_cons, List.lookup_cons]
      by_cases hi : i = j'
      · rw [hi, beq_self_eq_true]
        exact Or.inr ⟨p, p', rfl, rfl, hsafe⟩
      · rw [beq_false_of_ne hi]
        exact ih

theorem nodup_filter (hdistinct : (ps.map Prod.fst).Nodup) (i : Nat) :
    ((ps.filter (·.1 != i)).map Prod.fst).Nodup :=
  hdistinct.sublist (List.filter_sublist.map Prod.fst)

end Waiters

/-- Whether two sessions are at the same point, on two hosts. -/
structure Session.Safe (s s' : Session) : Prop where
  world : s'.world = s.world
  waiters : Waiters.Safe s.world s.waiters s'.waiters
  distinct : (s.waiters.map Prod.fst).Nodup
  attained : Attained s.world (Waiters.hold s.waiters)

namespace Session

variable {h h' : Host} {s s' : Session} {w u : World}

theorem Safe.initial : Safe initial initial where
  world := rfl
  waiters := .nil
  distinct := .nil
  attained := .of_reachable .initial

/-- Whether two ways to go on with a session are alike. -/
def Alike (f f' : Session → Session) : Prop :=
  ∀ s s', s.Safe s' → (f s).Safe (f' s') ∧ Persists s.world (f s).world

/-- A change to the world that waiting threads do not notice. -/
theorem Safe.quiet (hs : s.Safe s') (halike : s.world.Alike u) :
    Safe { s with world := u } { s' with world := u } ∧ Persists s.world u := by
  obtain ⟨hattained, hpersists⟩ := hs.attained.turn halike
  exact ⟨⟨rfl, hs.waiters.mono hpersists, hs.distinct, hattained⟩, hpersists⟩

section Turns

theorem endThread_path (index : Nat) (result : Except Thrown DynValue) (w : World) (R : Hold) :
    Path w (R + ofHandles (ThreadState.done result).handles) (w.endThread index result) R := by
  unfold World.endThread
  split
  · rename_i interp code hth
    exact (Transition.endThread hth rfl result).path
  · exact Path.drop _

/-- The result of a thread goes into the world, and what it still holds is kept
with it. -/
theorem afterTurn_safe {index : Nat} {c c' : Course Thrown DynValue} (hs : s.Safe s')
    (hpersists : Persists s.world w) {O : Set ThreadId}
    (hruns : c.Alike O w (Waiters.hold (s.waiters.filter (·.1 != index))) c') :
    (s.afterTurn index c).Safe (s'.afterTurn index c')
      ∧ Persists s.world (s.afterTurn index c).world := by
  have hknown : s.world.currentThread < s.world.nextThread :=
    hs.attained.reached fun S hreach => hreach.invariant.homed.seated.known
  have hback : ∀ u : World, Persists s.world u → u.Alike (u.onThread s.world.currentThread) :=
    fun u hu => u.alike_with (Nat.le_refl _) fun _ => hknown.trans_le hu.started
  generalize hothers : Waiters.hold (s.waiters.filter (·.1 != index)) = E at hruns
  cases hruns with
  | @ended e _ _ u _ hlater _ hend =>
      have hresult : ∀ result : Except Thrown DynValue,
          Attained u (E + ofHandles (ThreadState.done result).handles) →
          Safe ⟨(u.endThread index result).onThread s.world.currentThread,
              s.waiters.filter (·.1 != index)⟩
            ⟨(u.endThread index result).onThread s'.world.currentThread,
              s'.waiters.filter (·.1 != index)⟩
          ∧ Persists s.world ((u.endThread index result).onThread s.world.currentThread) := by
        intro result hattained
        obtain ⟨hdone, hafter, -⟩ := hattained.along (G := 0) fun S _ =>
          (endThread_path index result u (S + E)).cast rfl (add_zero _)
        obtain ⟨hthere, hsince⟩ := hdone.turn (hback _ ((hpersists.trans hlater).trans hafter))
        have hall := ((hpersists.trans hlater).trans hafter).trans hsince
        refine ⟨⟨by rw [hs.world], (hs.waiters.filter index).mono hall,
          Waiters.nodup_filter hs.distinct index, ?_⟩, hall⟩
        exact hthere.cast (by rw [hothers, add_zero])
      cases e with
      | value v => exact hresult (.ok v) (hend.1.cast (by rw [add_zero]; rfl))
      | raised e => exact hresult (.error e) (hend.cast (by simp [ThreadState.handles]))
      | panicked text => exact hresult (.error _) (hend.1.cast (by simp [ThreadState.handles]))
  | exhausted => exact ⟨hs, .refl _⟩
  | @paused held _ _ u ready next next' _ hlater _ hattained hnext =>
      obtain ⟨hthere, hsince⟩ := hattained.turn (hback u (hpersists.trans hlater))
      have hrunning : u.currentThread < u.nextThread :=
        hattained.reached fun S hreach => hreach.invariant.homed.seated.known
      have hall := (hpersists.trans hlater).trans hsince
      refine ⟨⟨by rw [afterTurn, afterTurn, hs.world], ?_, ?_, ?_⟩, hall⟩
      · refine .cons ⟨rfl, rfl, rfl, rfl, hrunning, ?_⟩ ((hs.waiters.filter index).mono hall)
        intro E' v v' hheld hgone hthreads hready
        exact ⟨_, hnext E' v v' (hheld.cast (by rw [add_zero])) (hsince.trans hgone) hthreads
          False.elim hready⟩
      · refine List.nodup_cons.mpr ⟨fun hmem => ?_, Waiters.nodup_filter hs.distinct index⟩
        obtain ⟨q, hq, hnumber⟩ := List.mem_map.mp hmem
        exact bne_iff_ne.mp (List.mem_filter.mp hq).2 hnumber
      · refine hthere.cast ?_
        rw [← hothers, add_zero]
        exact add_comm _ _

theorem courseOf_of_none {index : Nat} (hnone : s.waiters.lookup index = none) (interp : InterpId)
    (code : DynExpr) :
    s.courseOf h index interp code = some (Run.locked interp (code.eval h {})
      s.world.onNewThread) := by
  unfold courseOf
  rw [hnone]

theorem courseOf_of_some {index : Nat} {p : Waiter} (hp : s.waiters.lookup index = some p)
    (interp : InterpId) (code : DynExpr) :
    s.courseOf h index interp code = (p.ready (s.world.onThread p.me)).map p.next := by
  unfold courseOf
  rw [hp]

/-- A thread that gets a turn starts its code or goes on where it waits. -/
theorem turn_safe (hsafe : h.Safe h') (index : Nat) : Alike (turn h index) (turn h' index) := by
  intro s s' hs
  unfold turn
  rw [hs.world]
  split
  swap
  · exact ⟨hs, .refl _⟩
  rename_i interp code hth
  have hthreads : 0 < s.world.threads.size :=
    (Nat.zero_le index).trans_lt (Array.getElem?_eq_some_iff.mp hth).1
  rcases hs.waiters.lookup index with ⟨hnone, hnone'⟩ | ⟨p, p', hp, hp', hwaits⟩
  · rw [courseOf_of_none hnone, courseOf_of_none hnone', hs.world]
    obtain ⟨hattained, hpersists⟩ := hs.attained.turn (u := s.world.onNewThread)
      (s.world.alike_with (Nat.le_succ _) fun _ => Nat.lt_succ_self _)
    have hinterp : interp < s.world.interps.size :=
      hs.attained.reached fun S hreach => hreach.invariant.homed.threads index _ hth
    have hcode : Run.Safe 0 0 DynValue.hold s.world.onNewThread
        (Run.locked interp (code.eval h {})) (Run.locked interp (code.eval h' {})) :=
      Run.Ensures.locked hinterp fun u _ _ => code.eval_safe hsafe (.top 0)
    refine afterTurn_safe (O := ∅) hs hpersists ?_
    rw [Waiters.filter_of_none hnone]
    have hruns := hcode False ∅ _ False.elim (hattained.cast (by rw [add_zero, add_zero]))
    exact hruns.mono fun _ _ _ _ hend => hend.1
  · rw [courseOf_of_some hp, courseOf_of_some hp', hs.world, hwaits.me, hwaits.ready]
    obtain ⟨hattained, hpersists⟩ := hs.attained.turn (u := s.world.onThread p.me)
      (s.world.alike_with (Nat.le_refl _) fun _ => hwaits.known)
    cases hready : p.ready (s.world.onThread p.me) with
    | none => exact ⟨hs, .refl _⟩
    | some v =>
        obtain ⟨O, hruns⟩ := hwaits.next _ _ v
          (hattained.cast (Waiters.hold_filter hs.distinct hp).symm) hpersists hthreads hready
        exact afterTurn_safe hs hpersists hruns

end Turns

section Rounds

variable {f f' g g' : Session → Session}

theorem Alike.id : Alike id id :=
  fun s _ hs => ⟨hs, .refl s.world⟩

theorem Alike.comp (hg : Alike g g') (hf : Alike f f') : Alike (g ∘ f) (g' ∘ f') := by
  intro s s' hs
  obtain ⟨hafter, hpersists⟩ := hf s s' hs
  obtain ⟨hend, hlater⟩ := hg _ _ hafter
  exact ⟨hend, hpersists.trans hlater⟩

theorem Alike.foldl {f f' : Session → Nat → Session} (hf : ∀ i, Alike (f · i) (f' · i))
    (is : List Nat) : Alike (fun s => is.foldl f s) (fun s => is.foldl f' s) := by
  induction is with
  | nil => exact Alike.id
  | cons i is ih => exact ih.comp (hf i)

/-- One turn for every thread, as long as the target is not done. -/
theorem round_safe (hsafe : h.Safe h') (target : Nat) :
    Alike (round h target) (round h' target) := by
  intro s s' hs
  unfold round
  rw [hs.world]
  refine Alike.foldl (fun index s s' hs => ?_) _ s s' hs
  dsimp only
  rw [hs.world]
  split
  · exact ⟨hs, .refl _⟩
  · exact turn_safe hsafe index s s' hs

theorem rounds_safe (hsafe : h.Safe h') (target n : Nat) :
    Alike (rounds h target n) (rounds h' target n) := by
  induction n with
  | zero => exact Alike.id
  | succ n ih => exact ih.comp (round_safe hsafe target)

theorem outside_safe (i : InterpId) (hf : Alike f f') : Alike (outside i f) (outside i f') := by
  intro s s' hs
  unfold outside
  rw [hs.world]
  obtain ⟨hleft, hpersists⟩ := hs.quiet (World.alike_setLock s.world i
    ((s.world.lock i).suspend s.world.currentThread).1)
  obtain ⟨hafter, hlater⟩ := hf _ _ hleft
  obtain ⟨hback, hsince⟩ := hafter.quiet (World.alike_comeBack i
    ((s.world.lock i).suspend s.world.currentThread).2 _)
  dsimp only
  rw [hafter.world]
  exact ⟨hback, (hpersists.trans hlater).trans hsince⟩

theorem awaitThread_safe (hsafe : h.Safe h') (index : Nat) :
    Alike (awaitThread h index) (awaitThread h' index) := by
  intro s s' hs
  unfold awaitThread
  rw [hs.world]
  split
  · rename_i interp code _
    obtain ⟨hafter, hpersists⟩ := outside_safe interp
      (rounds_safe hsafe index s.world.threads.size) s s' hs
    dsimp only
    rw [hafter.world]
    split
    · obtain ⟨hend, hlater⟩ := outside_safe interp Alike.id _ _ hafter
      exact ⟨hend, hpersists.trans hlater⟩
    · exact ⟨hafter, hpersists⟩
  · exact ⟨hs, .refl _⟩

end Rounds

section Steps

/-- A step is answered alike, and what it leaves is alike. -/
theorem advance_safe (hsafe : h.Safe h') (st : Step) (hs : s.Safe s') :
    (advance h st s).1 = (advance h' st s').1 ∧ (advance h st s).2.Safe (advance h' st s').2
      ∧ Persists s.world (advance h st s).2.world := by
  have hready : Alike (fun s => (awaited? s.world st).elim s fun index => awaitThread h index s)
      (fun s => (awaited? s.world st).elim s fun index => awaitThread h' index s) := by
    intro s s' hs
    dsimp only
    rw [hs.world]
    cases awaited? s.world st with
    | none => exact ⟨hs, .refl _⟩
    | some index => exact awaitThread_safe hsafe index s s' hs
  obtain ⟨hafter, hpersists⟩ := hready s s' hs
  unfold advance
  dsimp only at hafter hpersists ⊢
  generalize (awaited? s.world st).elim s (fun index => awaitThread h index s) = r,
    (awaited? s'.world st).elim s' (fun index => awaitThread h' index s') = r' at hafter hpersists ⊢
  obtain ⟨heq, hend⟩ := Step.perform_safe hsafe st (Waiters.hold r.waiters)
    (hafter.attained.cast (add_zero _))
  rw [hafter.world, ← heq]
  generalize st.perform h r.world = e at hend ⊢
  obtain ⟨answer, w⟩ := e
  rcases hend with hstuck | ⟨hattained, hlater⟩
  · obtain rfl : answer = .stuck := hstuck
    exact ⟨rfl, hs, .refl _⟩
  · have hthere : Safe { r with world := w } { r' with world := w } :=
      ⟨rfl, hafter.waiters.mono hlater, hafter.distinct, hattained⟩
    cases answer with
    | stuck => exact ⟨rfl, hs, .refl _⟩
    | _ => exact ⟨rfl, hthere, hpersists.trans hlater⟩

end Steps

end Session

end TwinObject
