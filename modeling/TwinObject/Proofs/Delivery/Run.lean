/-
Delivery of exceptions.  Code delivers if it ends with the exception that is in flight
at its end, as its side sees it.  There is one rule for each way in which code is put
together, and all scopes pass on what is in flight.
-/
import TwinObject.Proofs.Delivery.Act

namespace TwinObject

variable {ε ε' α β : Type}

/-- Whether a course that starts in a world with an exception in flight, or with none, ends
only as `post` says of what is in flight then.  Where it waits, it goes on so in every
world in which it is let go on; and only with none in flight calls are nested too deep. -/
inductive Course.Carries (post : Option Thrown → Ending ε α → World → Prop) :
    Option Thrown → World → Course ε α → Prop
  | ended {f g : Option Thrown} {e : Ending ε α} {w u : World} (hbears : w.Bears f u g)
      (hpost : post g e u) : Carries post f w (.ended e u)
  | paused {f g : Option Thrown} {held : List Token} {w u : World}
      {ready : World → Option World} {next : World → Course ε α} (hbears : w.Bears f u g)
      (hready : ∀ v v', ready v = some v' → v.Silent v')
      (hnext : ∀ v v', ready v = some v' → Carries post g v' (next v')) :
      Carries post f w (.paused held u ready next)
  | exhausted {f : Option Thrown} {w u : World} (hbears : w.Bears f u none) :
      Carries post f w (.exhausted u)

namespace Course.Carries

variable {post : Option Thrown → Ending ε α → World → Prop}
  {post' : Option Thrown → Ending ε' β → World → Prop} {f g : Option Thrown} {w u : World}

/-- Something happened before. -/
theorem since {c : Course ε α} (hc : c.Carries post g u) (hbears : w.Bears f u g) :
    c.Carries post f w := by
  cases hc with
  | ended hlater hpost => exact .ended (hbears.trans hlater) hpost
  | paused hlater hready hnext => exact .paused (hbears.trans hlater) hready hnext
  | exhausted hlater => exact .exhausted (hbears.trans hlater)

theorem andThen {c : Course ε α} {held : List Token} {next : Ending ε α → World → Course ε' β}
    (hc : c.Carries post f w)
    (hnext : ∀ g e u, post g e u → (next e u).Carries post' g u) :
    (c.andThen held next).Carries post' f w := by
  induction hc with
  | ended hbears hpost => exact (hnext _ _ _ hpost).since hbears
  | paused hbears hready _ ih => exact .paused hbears hready ih
  | exhausted hbears => exact .exhausted hbears

theorem mono {post₁ : Option Thrown → Ending ε α → World → Prop} {c : Course ε α}
    (hc : c.Carries post f w) (hpost : ∀ g e u, post g e u → post₁ g e u) :
    c.Carries post₁ f w := by
  induction hc with
  | ended hbears hend => exact .ended hbears (hpost _ _ _ hend)
  | paused hbears hready _ ih => exact .paused hbears hready ih
  | exhausted hbears => exact .exhausted hbears

end Course.Carries

/-- Whether an end delivers the exception in flight to a caller who sees it as `seen` says. -/
def Ending.Delivers (seen : Thrown → ε) (flight : Option Thrown) (e : Ending ε α) : Prop :=
  ∀ t, flight = some t → e = .raised (seen t)

theorem Ending.Delivers.of_none {seen : Thrown → ε} (e : Ending ε α) : e.Delivers seen none :=
  fun _ ht => by cases ht

/-- Nothing is in flight when code ends with a value. -/
theorem Ending.Delivers.eq_none {seen : Thrown → ε} {flight : Option Thrown} {e : Ending ε α}
    (hdelivers : e.Delivers seen flight) (hother : ∀ r, e ≠ .raised r) : flight = none := by
  cases flight with
  | none => rfl
  | some t => exact absurd (hdelivers t rfl) (hother _)

namespace Run

/-- Whether code ends, in whatever world it starts, only as `post` says. -/
def Carries (post : Option Thrown → Ending ε α → World → Prop) (f : Option Thrown)
    (m : Run ε α) : Prop :=
  ∀ w, (m w).Carries post f w

/-- Whether code that starts with an exception in flight, or with none, delivers what is in
flight at its end. -/
abbrev DeliversFrom (seen : Thrown → ε) (f : Option Thrown) (m : Run ε α) : Prop :=
  m.Carries (fun g e _ => e.Delivers seen g) f

/-- Whether code delivers the exceptions that are raised in it. -/
abbrev Delivers (seen : Thrown → ε) (m : Run ε α) : Prop :=
  m.DeliversFrom seen none

namespace Carries

variable {post : Option Thrown → Ending ε α → World → Prop}
  {post' : Option Thrown → Ending ε' β → World → Prop} {f : Option Thrown} {m : Run ε α}

theorem thenDo {held : List Token} {next : Ending ε α → Run ε' β} (hm : m.Carries post f)
    (hnext : ∀ g e u, post g e u → (next e u).Carries post' g u) :
    (Run.thenDo held m next).Carries post' f :=
  fun w => (hm w).andThen hnext

theorem again {e : Ending ε α} (hpost : ∀ w, post f e w) : (Run.again e).Carries post f :=
  fun w => .ended ((World.Silent.refl w).bears f) (hpost w)

/-- A wait takes nothing out of flight. -/
theorem await {ready : World → Option World}
    (hready : ∀ v v', ready v = some v' → v.Silent v') :
    (Run.await ready : Run ε Unit).Carries (fun g e _ => g = f ∧ e = .value ()) f := by
  intro w
  unfold Run.await
  cases h : ready w with
  | some w' => exact .ended ((hready w w' h).bears f) ⟨rfl, rfl⟩
  | none =>
      refine .paused ((World.Silent.refl w).bears f) hready fun v v' _ => ?_
      exact .ended ((World.Silent.refl v').bears f) ⟨rfl, rfl⟩

section First

variable {post' : Option Thrown → Ending ε β → World → Prop} {k : α → Run ε β}

/-- A silent step comes first, with anything in flight. -/
theorem act_bind {a : Act α} (ha : a.Silent) (hk : ∀ r, (k r).Carries post' f) :
    (Run.act a >>= k).Carries post' f :=
  fun w => (hk _ _).since ((ha w).bears f)

theorem reads_bind {g : World → α} (hk : ∀ r, (k r).Carries post' f) :
    (Run.reads g >>= k).Carries post' f :=
  act_bind (fun w => .refl w) hk

theorem modify_bind {g : World → World} (hg : ∀ w : World, w.Silent (g w)) {k : Unit → Run ε β}
    (hk : (k ()).Carries post' f) : (Run.modify g >>= k).Carries post' f :=
  act_bind hg fun _ => hk

theorem await_bind {ready : World → Option World}
    (hready : ∀ v v', ready v = some v' → v.Silent v') {k : Unit → Run ε β}
    (hk : (k ()).Carries post' f) : (Run.await ready >>= k).Carries post' f := by
  refine thenDo (await hready) fun g e u hend => ?_
  obtain ⟨rfl, rfl⟩ := hend
  exact hk u

/-- What was in flight is caught. -/
theorem caught_bind {k : Unit → Run ε β} (hk : (k ()).Carries post' none) :
    (Run.modify (·.record [.caught]) >>= k).Carries post' f :=
  fun w => (hk _).since (.caught w f)

end First

/-- Whoever takes an error as a result has it in his hands, still in flight. -/
theorem outcome_cases {k : Except ε α → Run ε' β} (hm : m.Carries post f)
    (hok : ∀ g a u, post g (.value a) u → (k (.ok a) u).Carries post' g u)
    (herror : ∀ g e u, post g (.raised e) u → (k (.error e) u).Carries post' g u)
    (hpanic : ∀ g text u, post g (.panicked text) u → post' g (.panicked text) u) :
    (Run.outcome m >>= k).Carries post' f := by
  -- All that has to be known of the result is how its owner goes on.
  have hresult : (Run.outcome m : Run ε' (Except ε α)).Carries
      (fun g r u => (following k r u).Carries post' g u) f := by
    refine thenDo hm fun g e u hend => ?_
    cases e with
    | value a => exact .ended ((World.Silent.refl u).bears g) (hok g a u hend)
    | raised e => exact .ended ((World.Silent.refl u).bears g) (herror g e u hend)
    | panicked text =>
        refine .ended ((World.Silent.refl u).bears g) ?_
        exact .ended ((World.Silent.refl u).bears g) (hpanic g text u hend)
  exact thenDo hresult fun _ _ _ hnext => hnext

-- Scopes hand on what is in flight, and whatever is said of it and of the end.
section Scopes

variable {P : Option Thrown → Ending ε α → Prop} (hm : m.Carries (fun g e _ => P g e) f)
include hm

theorem atEnd {held : List Token} {g : World → World} (hg : ∀ w : World, w.Silent (g w)) :
    (Run.atEnd held g m).Carries (fun g e _ => P g e) f :=
  thenDo hm fun g' _ u hend => .ended ((hg u).bears g') hend

theorem holding {hs : List Handle} : (Run.holding hs m).Carries (fun g e _ => P g e) f :=
  atEnd hm fun w => .drop w hs

theorem retaining {hs : List Handle} : (Run.retaining hs m).Carries (fun g e _ => P g e) f :=
  modify_bind (fun w => .retainAll w hs) (holding hm)

theorem lending {c : Kind} : (Run.lending c m).Carries (fun g e _ => P g e) f :=
  modify_bind (fun w => .lend w c) (atEnd hm fun w => .takeBack w c)

theorem lendingAll {cs : List Kind} : (Run.lendingAll cs m).Carries (fun g e _ => P g e) f := by
  induction cs with
  | nil => exact hm
  | cons c cs ih => exact lending ih

theorem unwinding {hs : List Handle} :
    (Run.unwinding hs m).Carries (fun g e _ => P g e) f := by
  refine thenDo hm fun g e u hend => ?_
  cases e with
  | value a => exact again (fun _ => hend) u
  | raised e => exact .ended ((World.Silent.drop u hs).bears g) hend
  | panicked text => exact .ended ((World.Silent.drop u hs).bears g) hend

theorem onRaise {held : List Token} {g : World → World} (hg : ∀ w : World, w.Silent (g w)) :
    (Run.onRaise held m g).Carries (fun g e _ => P g e) f := by
  refine thenDo hm fun g' e u hend => ?_
  cases e with
  | value a => exact again (fun _ => hend) u
  | raised e => exact .ended ((hg u).bears g') hend
  | panicked text => exact again (fun _ => hend) u

theorem filling {t : TwinId} : (Run.filling t m).Carries (fun g e _ => P g e) f := by
  refine await_bind (fun v v' h => ?_) (reads_bind fun _ => atEnd hm fun w => ?_)
  · split at h
    · cases h
    · cases h
      exact .modifyTwin v t _
  · exact .modifyTwin w t _

omit hm in
/-- A lock that was taken is another lock of the same interpreter. -/
theorem silent_of_taken {i : InterpId} {l : World → Option Lock} (v v' : World)
    (h : (l v).map (v.setLock i) = some v') : v.Silent v' := by
  obtain ⟨l', -, rfl⟩ := Option.map_eq_some_iff.mp h
  exact .setLock v i l'

theorem locked {i : InterpId} : (Run.locked i m).Carries (fun g e _ => P g e) f :=
  await_bind (silent_of_taken (l := fun v => (v.lock i).acquire? v.currentThread))
    (atEnd hm fun w => .setLock w i _)

/-- The exception stays in flight while its thread waits to come back to the lock. -/
theorem unlocked {kept : α → List Token} {i : InterpId} :
    (Run.unlocked kept i m).Carries (fun g e _ => P g e) f := by
  refine act_bind (fun w => .setLock w i _) fun depth => thenDo hm fun g e u hend => ?_
  have hback := silent_of_taken (i := i) (l := fun v => (v.lock i).resume? v.currentThread depth)
  refine thenDo (await (f := g) hback) (fun g' e' v hsame => ?_) u
  obtain ⟨rfl, -⟩ := hsame
  exact again (fun _ => hend) v

theorem onThread : (Run.onThread m).Carries (fun g e _ => P g e) f :=
  reads_bind fun me => modify_bind (fun w => .onThread w w.nextThread (w.nextThread + 1))
    (atEnd hm fun w => .onThread w me w.nextThread)

end Scopes

end Carries

namespace Delivers

variable {seen : Thrown → ε} {seen' : Thrown → ε'} {f : Option Thrown} {m : Run ε α}
  {k : α → Run ε β}

section Steps

theorem pure (a : α) : (Pure.pure a : Run ε α).Delivers seen :=
  Carries.again fun _ => .of_none _

theorem raise (e : ε) : (Run.raise e : Run ε α).Delivers seen :=
  Carries.again fun _ => .of_none _

theorem exhausted : Delivers (α := α) seen fun w => .exhausted w :=
  fun w => .exhausted ((World.Silent.refl w).bears none)

theorem panic (text : String) : (Run.panic text : Run ε α).Delivers seen :=
  fun w => .ended ((World.Silent.tell w fun _ => rfl).bears none) (.of_none _)

/-- An exception of the program is in flight from where it is raised. -/
theorem throw (t : Thrown) : (Run.throw t : Run Thrown α).Delivers id :=
  fun w => .ended (World.Bears.threw w none t) fun _ ht => by rw [Option.some.inj ht]; rfl

theorem act {a : Act α} (ha : a.Silent) : (Run.act a : Run ε α).Delivers seen :=
  fun w => .ended ((ha w).bears none) (.of_none _)

theorem reads (g : World → α) : (Run.reads g : Run ε α).Delivers seen :=
  act fun w => .refl w

theorem modify {g : World → World} (hg : ∀ w : World, w.Silent (g w)) :
    (Run.modify g : Run ε Unit).Delivers seen :=
  act hg

theorem ofExcept (x : Except ε α) : (Run.ofExcept x).Delivers seen := by
  cases x with
  | ok a => exact pure a
  | error e => exact raise e

end Steps

/-- A value leaves nothing in flight, and nothing follows on an error. -/
theorem bind (hm : m.Delivers seen) (hk : ∀ a, (k a).Delivers seen) : (m >>= k).Delivers seen := by
  refine Carries.thenDo hm fun g e u hend => ?_
  cases e with
  | value a =>
      obtain rfl : g = none := hend.eq_none (by simp)
      exact hk a u
  | raised e =>
      exact Carries.again (fun _ t ht => by rw [Ending.raised.inj (hend t ht)]) u
  | panicked text =>
      obtain rfl : g = none := hend.eq_none (by simp)
      exact Carries.again (fun _ => .of_none _) u

theorem ofExcept_bind {x : Except ε α} (hk : ∀ a, (k a).Delivers seen) :
    (Run.ofExcept x >>= k).Delivers seen :=
  bind (ofExcept x) hk

/-- Errors in other words are the exception that the caller sees in his words. -/
theorem mapError {g : ε → ε'} (hg : ∀ t, g (seen t) = seen' t) (hm : m.Delivers seen) :
    (Run.mapError g m).Delivers seen' := by
  refine Carries.thenDo hm fun f e u hend => ?_
  cases e with
  | value a =>
      obtain rfl : f = none := hend.eq_none (by simp)
      exact pure a u
  | raised e =>
      refine Carries.again (fun _ t ht => ?_) u
      rw [Ending.raised.inj (hend t ht), hg]
  | panicked text =>
      obtain rfl : f = none := hend.eq_none (by simp)
      exact Carries.again (fun _ => .of_none _) u

/-- Whoever takes an error as a result has it in his hands, still in flight. -/
theorem outcome_bind {k : Except ε α → Run ε' β} (hm : m.Delivers seen)
    (hok : ∀ a, (k (.ok a)).Delivers seen')
    (herror : ∀ e f, (∀ t, f = some t → e = seen t) → (k (.error e)).DeliversFrom seen' f) :
    (Run.outcome m >>= k).Delivers seen' := by
  refine Carries.outcome_cases hm (fun g a u hend => ?_) (fun g e u hend => ?_)
    fun g text u hend => ?_
  · obtain rfl : g = none := hend.eq_none (by simp)
    exact hok a u
  · exact herror e g (fun t ht => Ending.raised.inj (hend t ht)) u
  · obtain rfl : g = none := hend.eq_none (by simp)
    exact .of_none _

end Delivers

end Run

end TwinObject
