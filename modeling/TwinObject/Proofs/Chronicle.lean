/-
What code tells of itself.  A finished run adds events to the journal between its start
and the first place where it waits, and from each of those on; what others add while it
waits is not its own.  Code that is put together tells what its parts tell, in their
order.
-/
import TwinObject.Proofs.Delivery.Eval

namespace TwinObject

variable {ε ε' α β : Type}

/-- Finished runs of a course from a world on: what the course itself adds to the journal,
how it ends, and in which world.  Where it waits it goes on in any world in which it is let
go on. -/
inductive Course.Tells : World → Course ε α → List Event → Ending ε α → World → Prop
  | ended {e : Ending ε α} {w u : World} {events : List Event}
      (hjournal : u.journal.toList = w.journal.toList ++ events) :
      Tells w (.ended e u) events e u
  | paused {held : List Token} {w u v v' x : World} {ready : World → Option World}
      {next : World → Course ε α} {events later : List Event} {e : Ending ε α}
      (hjournal : u.journal.toList = w.journal.toList ++ events) (hready : ready v = some v')
      (hlater : Tells v (next v') later e x) :
      Tells w (.paused held u ready next) (events ++ later) e x

/-- Whether a course only adds to the journal, however often it waits. -/
inductive Course.Grows : World → Course ε α → Prop
  | ended {e : Ending ε α} {w u : World} (hjournal : w.journal.toList <+: u.journal.toList) :
      Grows w (.ended e u)
  | paused {held : List Token} {w u : World} {ready : World → Option World}
      {next : World → Course ε α} (hjournal : w.journal.toList <+: u.journal.toList)
      (hnext : ∀ v v', ready v = some v' → Grows v (next v')) : Grows w (.paused held u ready next)
  | exhausted {w u : World} : Grows w (.exhausted u)

namespace Course

variable {c : Course ε α} {w u x : World} {events before : List Event} {e : Ending ε α}

theorem Grows.since (hc : c.Grows u) (hjournal : w.journal.toList <+: u.journal.toList) :
    c.Grows w := by
  cases hc with
  | ended hlater => exact .ended (hjournal.trans hlater)
  | paused hlater hnext => exact .paused (hjournal.trans hlater) hnext
  | exhausted => exact .exhausted

theorem Grows.andThen {held : List Token} {next : Ending ε α → World → Course ε' β}
    (hc : c.Grows w) (hnext : ∀ e u, (next e u).Grows u) : (c.andThen held next).Grows w := by
  induction hc with
  | ended hjournal => exact (hnext _ _).since hjournal
  | paused hjournal _ ih => exact .paused hjournal ih
  | exhausted => exact .exhausted

/-- Code that delivers exceptions only adds to the journal. -/
theorem Carries.grows {post : Option Thrown → Ending ε α → World → Prop} {f : Option Thrown}
    (hc : c.Carries post f w) : c.Grows w := by
  have hgrows : ∀ {w u : World} {f g : Option Thrown}, w.Bears f u g →
      w.journal.toList <+: u.journal.toList := by
    intro w u f g hbears
    obtain ⟨events, hjournal, -⟩ := hbears.journal
    exact ⟨events, hjournal.symm⟩
  induction hc with
  | ended hbears => exact .ended (hgrows hbears)
  | paused hbears hready _ ih =>
      refine .paused (hgrows hbears) fun v v' h => ?_
      exact (ih v v' h).since (hgrows ((hready v v' h).bears none))
  | exhausted => exact .exhausted

/-- What happened before a course is told before what it tells. -/
theorem Tells.after (htells : c.Tells w events e x) (hgrows : c.Grows u)
    (hjournal : u.journal.toList = w.journal.toList ++ before) :
    ∃ later, events = before ++ later ∧ c.Tells u later e x := by
  cases htells with
  | ended hend =>
      cases hgrows with
      | ended hsince =>
          obtain ⟨later, hlater⟩ := hsince
          refine ⟨later, ?_, .ended hlater.symm⟩
          rw [← hlater, hjournal, List.append_assoc] at hend
          exact (List.append_cancel_left hend).symm
  | paused hpause hready hlater =>
      cases hgrows with
      | paused hsince hnext =>
          obtain ⟨own, hown⟩ := hsince
          refine ⟨own ++ _, ?_, .paused hown.symm hready hlater⟩
          rw [← hown, hjournal, List.append_assoc] at hpause
          rw [← List.append_cancel_left hpause, List.append_assoc]

/-- A course that is gone on with is finished first. -/
theorem Tells.of_andThen {held : List Token} {next : Ending ε α → World → Course ε' β}
    {e : Ending ε' β} (hgrows : c.Grows w) (hnext : ∀ e u, (next e u).Grows u)
    (htells : (c.andThen held next).Tells w events e x) :
    ∃ first before u later, c.Tells w before first u ∧ (next first u).Tells u later e x
      ∧ events = before ++ later := by
  induction hgrows generalizing events with
  | ended hjournal =>
      obtain ⟨before, hbefore⟩ := hjournal
      obtain ⟨later, rfl, hlater⟩ := Tells.after htells (hnext _ _) hbefore.symm
      exact ⟨_, before, _, later, .ended hbefore.symm, hlater, rfl⟩
  | paused hjournal hthere ih =>
      cases htells with
      | paused hpause hready hrest =>
          obtain ⟨first, before, u, later, hfirst, hlater, rfl⟩ := ih _ _ hready hrest
          exact ⟨first, _, u, later, .paused hpause hready hfirst, hlater,
            (List.append_assoc ..).symm⟩
  | exhausted => cases htells

end Course

namespace Run

/-- Whether code only adds to the journal, in whatever world it starts. -/
def Grows (m : Run ε α) : Prop :=
  ∀ w, (m w).Grows w

/-- Finished runs of code. -/
def Tells (m : Run ε α) (w : World) (events : List Event) (e : Ending ε α) (u : World) : Prop :=
  (m w).Tells w events e u

theorem Carries.grows {post : Option Thrown → Ending ε α → World → Prop} {f : Option Thrown}
    {m : Run ε α} (hm : m.Carries post f) : m.Grows :=
  fun w => (hm w).grows

namespace Tells

variable {m : Run ε α} {k : α → Run ε β} {w x : World} {events : List Event}

/-- Code that goes on with a value tells what leads to that value first, or it ends as its
first part does. -/
theorem of_bind {e : Ending ε β} (hm : m.Grows) (hk : ∀ a, (k a).Grows)
    (htells : (m >>= k).Tells w events e x) :
    (∃ a before u later, m.Tells w before (.value a) u ∧ (k a).Tells u later e x
      ∧ events = before ++ later)
      ∨ (∃ r, e = .raised r ∧ m.Tells w events (.raised r) x)
      ∨ ∃ text, e = .panicked text ∧ m.Tells w events (.panicked text) x := by
  obtain ⟨first, before, u, later, hfirst, hlater, rfl⟩ :=
    Course.Tells.of_andThen (hm w) (fun first u => by
      cases first with
      | value a => exact hk a u
      | raised r => exact .ended List.prefix_rfl
      | panicked text => exact .ended List.prefix_rfl) htells
  have hnothing : ∀ {later : List Event}, u.journal.toList = u.journal.toList ++ later →
      later = [] := fun h => List.self_eq_append_right.mp h
  cases first with
  | value a => exact .inl ⟨a, before, u, later, hfirst, hlater, rfl⟩
  | raised r =>
      cases hlater with
      | ended hjournal =>
          rw [hnothing hjournal, List.append_nil]
          exact .inr (.inl ⟨r, rfl, hfirst⟩)
  | panicked text =>
      cases hlater with
      | ended hjournal =>
          rw [hnothing hjournal, List.append_nil]
          exact .inr (.inr ⟨text, rfl, hfirst⟩)

/-- Steps without a value: the second follows, or the first is where they stop. -/
theorem of_seq {m : Run ε Unit} {k : Unit → Run ε Unit} {e : Ending ε Unit} (hm : m.Grows)
    (hk : (k ()).Grows) (htells : (m >>= k).Tells w events e x) :
    (∃ before u later, m.Tells w before (.value ()) u ∧ (k ()).Tells u later e x
      ∧ events = before ++ later) ∨ (e ≠ .value () ∧ m.Tells w events e x) := by
  rcases of_bind hm (fun _ => hk) htells with
    ⟨_, before, u, later, hfirst, hlater, rfl⟩ | ⟨r, rfl, hfirst⟩ | ⟨text, rfl, hfirst⟩
  · exact .inl ⟨before, u, later, hfirst, hlater, rfl⟩
  · exact .inr ⟨nofun, hfirst⟩
  · exact .inr ⟨nofun, hfirst⟩

/-- A change of the world ends at once. -/
theorem of_modify {f : World → World} {e : Ending ε Unit}
    (htells : (Run.modify f : Run ε Unit).Tells w events e x) :
    e = .value () ∧ x = f w ∧ (f w).journal.toList = w.journal.toList ++ events := by
  cases htells with
  | ended hjournal => exact ⟨rfl, rfl, hjournal⟩

/-- What is done when code raises an error is told at the end. -/
theorem of_onRaise {held : List Token} {f : World → World} {e : Ending ε α} (hm : m.Grows)
    (hf : ∀ w : World, w.journal.toList <+: (f w).journal.toList)
    (htells : (Run.onRaise held m f).Tells w events e x) :
    ((∀ r, e ≠ .raised r) ∧ m.Tells w events e x)
      ∨ ∃ r before u later, e = .raised r ∧ m.Tells w before (.raised r) u ∧ x = f u
        ∧ (f u).journal.toList = u.journal.toList ++ later ∧ events = before ++ later := by
  obtain ⟨first, before, u, later, hfirst, hlater, rfl⟩ :=
    Course.Tells.of_andThen (hm w) (fun first u => by
      cases first with
      | value a => exact .ended List.prefix_rfl
      | raised r => exact .ended (hf u)
      | panicked text => exact .ended List.prefix_rfl) htells
  cases first with
  | raised r =>
      cases hlater with
      | ended hjournal => exact .inr ⟨r, before, u, later, rfl, hfirst, rfl, hjournal, rfl⟩
  | value a =>
      cases hlater with
      | ended hjournal =>
          rw [List.self_eq_append_right.mp hjournal, List.append_nil]
          exact .inl ⟨nofun, hfirst⟩
  | panicked text =>
      cases hlater with
      | ended hjournal =>
          rw [List.self_eq_append_right.mp hjournal, List.append_nil]
          exact .inl ⟨nofun, hfirst⟩

/-- A scope whose end is not told tells what runs in it. -/
theorem of_atEnd {held : List Token} {f : World → World} {e : Ending ε α} (hm : m.Grows)
    (hf : ∀ w : World, (f w).journal = w.journal)
    (htells : (Run.atEnd held f m).Tells w events e x) :
    ∃ u, m.Tells w events e u ∧ x = f u := by
  obtain ⟨first, before, u, later, hfirst, hlater, rfl⟩ :=
    Course.Tells.of_andThen (hm w) (fun _ u => .ended (hf u ▸ List.prefix_rfl)) htells
  cases hlater with
  | ended hjournal =>
      rw [hf] at hjournal
      rw [List.self_eq_append_right.mp hjournal, List.append_nil]
      exact ⟨u, hfirst, rfl⟩

/-- Waiting is not told. -/
theorem of_await {ready : World → Option World} {k : Unit → Run ε β} {e : Ending ε β}
    (hready : ∀ v v', ready v = some v' → v'.journal = v.journal) (hk : (k ()).Grows)
    (htells : (Run.await ready >>= k).Tells w events e x) :
    ∃ v v', ready v = some v' ∧ (k ()).Tells v' events e x := by
  have hgo : ∀ {v v' : World} {events : List Event}, ready v = some v' →
      (k () v').Tells v events e x → (k ()).Tells v' events e x := by
    intro v v' events h hlater
    have hjournal : v'.journal.toList = v.journal.toList ++ [] := by
      rw [hready v v' h, List.append_nil]
    obtain ⟨later, rfl, hlater⟩ := hlater.after (hk v') hjournal
    exact hlater
  unfold Tells at htells
  cases h : ready w with
  | some w' =>
      have hcourse : (Run.await ready >>= k) w = k () w' := by
        change (Run.await ready w).andThen [] _ = _
        rw [Run.await, h]
        rfl
      exact ⟨w, w', h, hgo h (hcourse ▸ htells)⟩
  | none =>
      have hcourse : (Run.await ready >>= k) w = .paused [] w ready (k ()) := by
        change (Run.await ready w).andThen [] _ = _
        rw [Run.await, h]
        rfl
      rw [hcourse] at htells
      cases htells with
      | paused hpause hthere hlater =>
          rw [List.self_eq_append_right.mp hpause]
          exact ⟨_, _, hthere, hgo hthere hlater⟩

/-- Code that fills the storage of an instance tells nothing of that. -/
theorem of_filling {t : TwinId} {e : Ending ε α} (hm : m.Grows)
    (htells : (Run.filling t m).Tells w events e x) :
    ∃ v u, m.Tells v events e u ∧ x = u.setFilling t false := by
  have hscope : ∀ constructed : List Bool,
      (Run.atEnd [.storage t constructed] (·.setFilling t false) m).Grows :=
    fun _ w => (hm w).andThen fun _ u => .ended List.prefix_rfl
  obtain ⟨v, v', -, hlater⟩ := of_await (fun v v' h => by
    split at h
    · cases h
    · cases h
      rfl) (fun w => hscope (w.twin t).constructed w) htells
  have hfilled : (Run.atEnd [.storage t (v'.twin t).constructed] (·.setFilling t false) m).Tells v'
      events e x := hlater
  obtain ⟨u, hinner, rfl⟩ := of_atEnd (f := fun w => w.setFilling t false) hm (fun _ => rfl) hfilled
  exact ⟨v', u, hinner, rfl⟩

end Tells

end Run

end TwinObject
