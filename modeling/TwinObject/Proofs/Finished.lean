/-
Finished runs.  A course comes to an end through all its pauses, in each of which other
threads may do whatever leaves to it what it holds.  What is known of a safe course holds of
each of its finished runs, and a run of code that is put together consists of runs of its
parts.
-/
import TwinObject.Proofs.AtOnce

namespace TwinObject

open Hold

variable {ε ε' α β : Type}

/-- Whether a course comes to an end in a world.  `F` is held for it all the time; others hold
`E` at first, and `E'` at the end. -/
inductive Course.Comes {ε α : Type} (F : Hold) :
    Hold → Course ε α → Hold → Ending ε α → World → Prop
  | ended {E : Hold} {e : Ending ε α} {u : World} : Comes F E (.ended e u) E e u
  | paused {held : List Token} {u v v' x : World} {ready : World → Option World}
      {next : World → Course ε α} {E E' E'' : Hold} {e : Ending ε α}
      (hthere : Attained v (E' + F + ↑held)) (hpersists : Persists u v)
      (hthreads : 0 < v.threads.size) (hready : ready v = some v')
      (hrest : Comes F E' (next v') E'' e x) : Comes F E (.paused held u ready next) E'' e x

namespace Course

variable {P : Prop} {F E E' : Hold} {O : Set ThreadId} {w u : World} {c c' : Course ε α}
  {Q : Set ThreadId → Hold → Ending ε α → World → Prop} {e : Ending ε α}

/-- What holds of the ends of a course holds of the end that it comes to. -/
theorem Runs.comes (hruns : c.Runs P F Q O w E c') (hP : ¬P) (hcomes : c.Comes F E E' e u) :
    ∃ O', Q O' E' e u ∧ Persists w u := by
  induction hcomes generalizing O w c' with
  | ended =>
      cases hruns with
      | ended hpersists _ hend => exact ⟨O, hend, hpersists⟩
  | paused hthere hlater hthreads hready _ ih =>
      cases hruns with
      | paused hpersists _ _ hnext =>
          obtain ⟨O', hend, hlast⟩ :=
            ih (hnext _ _ _ hthere hlater hthreads (fun h => absurd h hP) hready)
          exact ⟨O', hend, (hpersists.trans hlater).trans hlast⟩

/-- A course that is gone on with comes to an end first. -/
theorem Comes.of_andThen {held : List Token} {next : Ending ε α → World → Course ε' β}
    {e : Ending ε' β} (hcomes : (c.andThen held next).Comes F E E' e u) :
    ∃ first v G, c.Comes (F + ↑held) E G first v ∧ (next first v).Comes F G E' e u := by
  induction c generalizing E with
  | ended first v => exact ⟨first, v, E, .ended, hcomes⟩
  | exhausted => cases hcomes
  | paused inner v ready rest ih =>
      cases hcomes with
      | paused hthere hpersists hthreads hready hrest =>
          obtain ⟨first, x, G, hfirst, hlast⟩ := ih _ hrest
          refine ⟨first, x, G, .paused (hthere.cast ?_) hpersists hthreads hready hfirst, hlast⟩
          rw [← Multiset.coe_add]
          abel

end Course

namespace Run

/-- Finished runs of code from a world on. -/
def Comes (m : Run ε α) (F E : Hold) (w : World) (E' : Hold) (e : Ending ε α) (u : World) : Prop :=
  (m w).Comes F E E' e u

variable {F E E' : Hold} {w u : World} {m : Run ε α}

/-- What is left at the end of a finished run of safe code. -/
theorem Ensures.comes {take : Hold} {give : α → Hold} {post : α → World → Prop} {m' : Run ε α}
    {e : Ending ε α} (hm : Ensures F take give post w m m') (hattained : Attained w (E + F + take))
    (hcomes : m.Comes F E w E' e u) : e.Leaves F give post E' u ∧ Persists w u := by
  obtain ⟨O, hend, hpersists⟩ := (hm False ∅ E False.elim hattained).comes not_false hcomes
  exact ⟨hend.1, hpersists⟩

namespace Comes

theorem cast {G : Hold} {e : Ending ε α} (hcomes : m.Comes F E w E' e u) (hG : G = F) :
    m.Comes G E w E' e u :=
  hG ▸ hcomes

theorem of_thenDo {held : List Token} {next : Ending ε α → Run ε' β} {e : Ending ε' β}
    (hcomes : (Run.thenDo held m next).Comes F E w E' e u) :
    ∃ first v G, m.Comes (F + ↑held) E w G first v ∧ (next first).Comes F G v E' e u :=
  Course.Comes.of_andThen hcomes

theorem of_act_bind {a : Act α} {k : α → Run ε β} {e : Ending ε β}
    (hcomes : (Run.act a >>= k).Comes F E w E' e u) : (k (a w).1).Comes F E (a w).2 E' e u :=
  hcomes

theorem of_modify_bind {f : World → World} {k : Unit → Run ε β} {e : Ending ε β}
    (hcomes : (Run.modify f >>= k).Comes F E w E' e u) : (k ()).Comes F E (f w) E' e u :=
  hcomes

theorem of_reads_bind {f : World → α} {k : α → Run ε β} {e : Ending ε β}
    (hcomes : (Run.reads f >>= k).Comes F E w E' e u) : (k (f w)).Comes F E w E' e u :=
  hcomes

theorem of_ofExcept {r : Except ε α} {e : Ending ε α}
    (hcomes : (Run.ofExcept r).Comes F E w E' e u) :
    E' = E ∧ u = w ∧ ((∃ a, r = .ok a ∧ e = .value a) ∨ ∃ f, r = .error f ∧ e = .raised f) := by
  cases r with
  | ok a =>
      cases hcomes
      exact ⟨rfl, rfl, .inl ⟨a, rfl, rfl⟩⟩
  | error f =>
      cases hcomes
      exact ⟨rfl, rfl, .inr ⟨f, rfl, rfl⟩⟩

/-- What is waited for happens sooner or later, where the run has got to. -/
theorem of_await_bind {ready : World → Option World} {k : Unit → Run ε β} {e : Ending ε β}
    (hattained : Attained w (E + F)) (hcomes : (Run.await ready >>= k).Comes F E w E' e u) :
    ∃ x v G, Attained x (G + F) ∧ Persists w x ∧ ready x = some v ∧ (k ()).Comes F G v E' e u := by
  change ((Run.await ready w).andThen [] _).Comes F E E' e u at hcomes
  rw [Run.await] at hcomes
  split at hcomes
  · rename_i v hready
    exact ⟨w, v, E, hattained, .refl w, hready, hcomes⟩
  · cases hcomes with
    | paused hthere hpersists _ hready hrest =>
        exact ⟨_, _, _, hthere.cast (add_zero _).symm, hpersists, hready, hrest⟩

theorem of_atEnd {held : List Token} {f : World → World} {e : Ending ε α}
    (hcomes : (Run.atEnd held f m).Comes F E w E' e u) :
    ∃ v, m.Comes (F + ↑held) E w E' e v ∧ u = f v := by
  obtain ⟨first, v, G, hfirst, hlast⟩ := of_thenDo hcomes
  cases hlast
  exact ⟨v, hfirst, rfl⟩

theorem of_holding {hs : List Handle} {e : Ending ε α}
    (hcomes : (Run.holding hs m).Comes F E w E' e u) :
    ∃ v, m.Comes (F + ofHandles hs) E w E' e v ∧ u = v.drop hs :=
  of_atEnd hcomes

/-- What code came to is taken as a result, unless it panicked. -/
theorem of_outcome_bind {k : Except ε α → Run ε' β} {e : Ending ε' β}
    (hcomes : (Run.outcome m >>= k).Comes F E w E' e u) :
    (∃ a v G, m.Comes F E w G (.value a) v ∧ (k (.ok a)).Comes F G v E' e u)
      ∨ (∃ f v G, m.Comes F E w G (.raised f) v ∧ (k (.error f)).Comes F G v E' e u)
      ∨ ∃ text, e = .panicked text ∧ m.Comes F E w E' (.panicked text) u := by
  obtain ⟨second, v, G, hfirst, hlast⟩ := of_thenDo hcomes
  obtain ⟨first, x, H, hm, hresult⟩ := of_thenDo (hfirst.cast (add_zero F).symm)
  replace hm := hm.cast (add_zero F).symm
  cases first with
  | value a =>
      cases hresult
      exact .inl ⟨a, _, _, hm, hlast⟩
  | raised f =>
      cases hresult
      exact .inr (.inl ⟨f, _, _, hm, hlast⟩)
  | panicked text =>
      cases hresult
      cases hlast
      exact .inr (.inr ⟨text, rfl, hm⟩)

/-- Code under a lock runs where this was free, in a world that differs in the lock alone. -/
theorem of_locked {i : InterpId} {e : Ending ε α} (hattained : Attained w (E + F))
    (hcomes : (Run.locked i m).Comes F E w E' e u) :
    ∃ x l v G, Attained x (G + F) ∧ Persists w x ∧ m.Comes F G (x.setLock i l) E' e v
      ∧ u = v.setLock i (v.lock i).release := by
  obtain ⟨x, y, G, hthere, hpersists, hready, hrest⟩ := of_await_bind hattained hcomes
  obtain ⟨l, -, rfl⟩ := Option.map_eq_some_iff.mp hready
  obtain ⟨v, hinside, rfl⟩ := of_atEnd hrest
  exact ⟨x, l, v, G, hthere, hpersists, hinside.cast (add_zero F).symm, rfl⟩

end Comes

end Run

end TwinObject
