/-
Code that runs to its end without waiting.  No other thread comes in between, so what such
a run did is what its parts did, one after another.
-/
import TwinObject.Proofs.Bystanders
import TwinObject.Proofs.Safe.Construct

namespace TwinObject

open Hold

variable {ε ε' α β : Type} {w u : World}

/-- The course that was gone on with ended at once too. -/
theorem Course.ended_of_andThen {c : Course ε α} {held : List Token}
    {next : Ending ε α → World → Course ε' β} {e : Ending ε' β}
    (h : c.andThen held next = .ended e u) : ∃ e' v, c = .ended e' v ∧ next e' v = .ended e u := by
  cases c with
  | ended e' v => exact ⟨e', v, rfl, h⟩
  | paused => cases h
  | exhausted => cases h

namespace Run

/-- Code goes on with a value, and with nothing after another end. -/
theorem ended_of_following {m : Run ε α} {k : α → Run ε β} {e : Ending ε β}
    (h : (m >>= k) w = .ended e u) : ∃ e' v, m w = .ended e' v ∧ following k e' v = .ended e u :=
  Course.ended_of_andThen h

/-- The second of two pieces of code runs if the first succeeds. -/
theorem ended_of_seq {m : Run ε Unit} {k : Unit → Run ε Unit} {e : Ending ε Unit}
    (h : (m >>= k) w = .ended e u) :
    e ≠ .value () ∧ m w = .ended e u ∨ ∃ v, m w = .ended (.value ()) v ∧ k () v = .ended e u := by
  obtain ⟨e', v, hm, hnext⟩ := ended_of_following h
  cases e' with
  | value a => exact .inr ⟨v, hm, hnext⟩
  | raised f =>
      cases hnext
      exact .inl ⟨nofun, hm⟩
  | panicked text =>
      cases hnext
      exact .inl ⟨nofun, hm⟩

theorem ended_of_atEnd {held : List Token} {f : World → World} {m : Run ε α} {e : Ending ε α}
    (h : Run.atEnd held f m w = .ended e u) : ∃ v, m w = .ended e v ∧ u = f v := by
  obtain ⟨e', v, hm, hnext⟩ := Course.ended_of_andThen h
  cases hnext
  exact ⟨v, hm, rfl⟩

theorem ended_of_holding {hs : List Handle} {m : Run ε α} {e : Ending ε α}
    (h : Run.holding hs m w = .ended e u) : ∃ v, m w = .ended e v ∧ u = v.drop hs :=
  ended_of_atEnd h

/-- What is held for a value is let go at any other end. -/
theorem ended_of_unwinding {hs : List Handle} {m : Run ε α} {e : Ending ε α}
    (h : Run.unwinding hs m w = .ended e u) : ∃ v, m w = .ended e v ∧ v.Still u := by
  obtain ⟨e', v, hm, hnext⟩ := Course.ended_of_andThen h
  cases e' <;> cases hnext
  · exact ⟨_, hm, .refl _⟩
  · exact ⟨v, hm, .drop v hs⟩
  · exact ⟨v, hm, .drop v hs⟩

/-- Errors in other words are raised where errors were. -/
theorem ended_of_mapError {f : ε → ε'} {m : Run ε α} {e : Ending ε' α}
    (h : Run.mapError f m w = .ended e u) :
    ∃ e', m w = .ended e' u ∧ ∀ a, e = .value a → e' = .value a := by
  obtain ⟨e', v, hm, hnext⟩ := Course.ended_of_andThen h
  cases e' <;> cases hnext
  · exact ⟨_, hm, fun _ => by rintro ⟨⟩; rfl⟩
  · exact ⟨_, hm, nofun⟩
  · exact ⟨_, hm, nofun⟩

/-- What runs under a lock does so in a world that differs in that lock alone. -/
theorem ended_of_locked {i : InterpId} {m : Run ε α} {e : Ending ε α}
    (h : Run.locked i m w = .ended e u) :
    ∃ l v, m (w.setLock i l) = .ended e v ∧ u = v.setLock i (v.lock i).release := by
  obtain ⟨e', v, hacquired, hnext⟩ := ended_of_following h
  cases htaken : ((w.lock i).acquire? w.currentThread).map (w.setLock i) with
  | none =>
      simp only [Run.acquire, Run.await, htaken] at hacquired
      cases hacquired
  | some x =>
      simp only [Run.acquire, Run.await, htaken] at hacquired
      cases hacquired
      obtain ⟨l, -, rfl⟩ := Option.map_eq_some_iff.mp htaken
      obtain ⟨x, hm, rfl⟩ := ended_of_atEnd hnext
      exact ⟨l, x, hm, rfl⟩

/-- Storage that is filled at once is one that nobody fills. -/
theorem ended_of_filling {t : TwinId} {m : Run ε α} {e : Ending ε α}
    (h : Run.filling t m w = .ended e u) :
    (w.twin t).filling = false
      ∧ ∃ v, m (w.setFilling t true) = .ended e v ∧ u = v.setFilling t false := by
  obtain ⟨e', v, hawait, hnext⟩ := ended_of_following h
  cases hfilling : (w.twin t).filling with
  | true =>
      simp only [Run.await, hfilling, if_true] at hawait
      cases hawait
  | false =>
      simp only [Run.await, hfilling, Bool.false_eq_true, if_false] at hawait
      cases hawait
      exact ⟨rfl, ended_of_atEnd hnext⟩

section Forwards

variable {v : World} {m : Run ε α} {e : Ending ε α} {f : ε} {hs : List Handle}

theorem bind_value {k : α → Run ε β} {a : α} (h : m w = .ended (.value a) v) :
    (m >>= k) w = k a v := by
  change (m w).andThen [] _ = _
  rw [h]
  rfl

theorem bind_raised {k : α → Run ε β} (h : m w = .ended (.raised f) v) :
    (m >>= k) w = .ended (.raised f) v := by
  change (m w).andThen [] _ = _
  rw [h]
  rfl

theorem holding_ended (h : m w = .ended e v) : Run.holding hs m w = .ended e (v.drop hs) := by
  change (m w).andThen _ _ = _
  rw [h]
  rfl

theorem unwinding_value {a : α} (h : m w = .ended (.value a) v) :
    Run.unwinding hs m w = .ended (.value a) v := by
  change (m w).andThen _ _ = _
  rw [h]
  rfl

theorem unwinding_raised (h : m w = .ended (.raised f) v) :
    Run.unwinding hs m w = .ended (.raised f) (v.drop hs) := by
  change (m w).andThen _ _ = _
  rw [h]
  rfl

theorem mapError_raised {g : ε → ε'} (h : m w = .ended (.raised f) v) :
    Run.mapError g m w = .ended (.raised (g f)) v := by
  change (m w).andThen _ _ = _
  rw [h]
  rfl

end Forwards

/-- What is left after a safe piece of code that ended at once. -/
theorem Ensures.at_once {F take : Hold} {give : α → Hold} {post : α → World → Prop}
    {m m' : Run ε α} {e : Ending ε α} (hm : Ensures F take give post w m m')
    (hattained : Attained w (F + take)) (h : m w = .ended e u) :
    e.Leaves F give post 0 u ∧ Persists w u := by
  have hruns := hm False ∅ 0 False.elim (hattained.cast (by rw [zero_add]))
  rw [h] at hruns
  generalize m' w = c at hruns
  cases hruns with
  | ended hpersists _ hend => exact ⟨hend.1, hpersists⟩

end Run

/-- However code ends, what was lent to it is lent still. -/
theorem Ending.Leaves.attained {F : Hold} {give : α → Hold} {post : α → World → Prop}
    {e : Ending ε α} (hleaves : e.Leaves F give post 0 u) :
    ∃ G, Attained u (F + G) ∧ ∀ a, e = .value a → G = give a := by
  cases e with
  | value a => exact ⟨give a, hleaves.1.cast (by rw [zero_add]), fun _ h => by cases h; rfl⟩
  | raised f => exact ⟨0, Attained.cast hleaves (by rw [zero_add, add_zero]), nofun⟩
  | panicked text => exact ⟨0, hleaves.1.cast (by rw [zero_add, add_zero]), nofun⟩

namespace Attained

variable {R : Hold} {t : TwinId}

theorem alive_of_lent (hattained : Attained w R) (hlent : Lends R t) : w.Alive t :=
  hattained.reached fun _ hreach => hlent.right.live hreach.invariant

theorem lt_of_lends (hattained : Attained w R) (hlent : Lends R t) : t < w.twins.size := by
  obtain ⟨a, ha, -⟩ := hattained.alive_of_lent hlent
  exact (Array.getElem?_eq_some_iff.mp ha).1

/-- A safe step to which all is lent that is held. -/
theorem step {a : Act α} {give : α → Hold} (hattained : Attained w R)
    (ha : Act.Safe R 0 give w a) :
    Attained (a w).2 (R + give (a w).1) ∧ Persists w (a w).2 := by
  have hframe : Attained w (0 + R + 0) := hattained.cast (by rw [zero_add, add_zero])
  obtain ⟨hthere, hpersists, -⟩ := hframe.act ha
  exact ⟨hthere.cast (by rw [zero_add]), hpersists⟩

/-- What an assignment is given is used up. -/
theorem setAttr {v : DynValue} (hattained : Attained w (R + v.hold)) (hlent : Lends R t)
    (name : String) : Attained (World.setAttr t name v w).2 R := by
  have hgiven := (Attained.act (R := 0) (hattained.cast (by rw [zero_add]))
    (World.setAttr_safe hlent name v)).1
  exact hgiven.cast (by rw [zero_add, add_zero])

theorem setField {v : NativeValue} (hattained : Attained w (R + v.hold)) (hlent : Lends R t)
    (name : String) : Attained (World.setField t name v w).2 R := by
  have hgiven := (Attained.act (R := 0) (hattained.cast (by rw [zero_add]))
    (World.setField_safe hlent name v)).1
  exact hgiven.cast (by rw [zero_add, add_zero])

/-- More handles to what is lent can be taken. -/
theorem retainAll (hattained : Attained w R) {hs : List Handle} (hlent : LendsAll R hs) :
    Attained (w.retainAll hs) (R + ofHandles hs) := by
  refine (Attained.along (hattained.cast (add_zero R)) fun S hreach => ?_).1
  rw [add_zero] at hreach ⊢
  refine Path.retainAll hs fun hd hmem => ?_
  exact (hlent hd hmem).right.held hreach.invariant

/-- Storage is filled with its constructed bases kept as they are. -/
theorem fill (hattained : Attained w R) (hlent : Lends R t) (hfree : (w.twin t).filling = false) :
    Attained (w.setFilling t true) (R + {.storage t (w.twin t).constructed}) := by
  obtain ⟨a, ha, -⟩ := hattained.alive_of_lent hlent
  rw [World.twin_eq ha] at hfree ⊢
  exact (Attained.along (hattained.cast (add_zero R)) fun S _ =>
    (Transition.fill ha hfree).path.cast (add_zero _) rfl).1

/-- The constructed bases of an instance stay what they are while its storage is filled. -/
theorem constructed_of_storage {flags : List Bool} (hattained : Attained w R) (hlent : Lends R t)
    (hfills : Token.storage t flags ∈ R) : (w.twin t).constructed = flags := by
  obtain ⟨a, ha, hlive⟩ := hattained.alive_of_lent hlent
  rw [World.twin_eq ha]
  refine hattained.reached fun S hreach => ?_
  refine hreach.invariant.formed.kept (t, flags) ?_ a ha hlive
  exact (Multiset.mem_filterMap _ _).mpr ⟨_, Multiset.mem_add.mpr (.inr hfills), rfl⟩

end Attained

end TwinObject
