/-
Safe code.  Two pieces of code that are to do the same are followed side by side:
both come to the same end, or wait in the same world for the same thing, and
wherever the first has got to, what it holds is accounted for.  What other
threads hold may change while it waits.  If those keep to their own levels of the
locks then so does the code, and at its end its threads are as deep in all locks
as at its start.
-/
import TwinObject.Proofs.Safe.Choice

namespace TwinObject

open Hold

/-- Whether a state can be reached, up to segments that code which panicked left
behind. -/
def Attained (w : World) (R : Hold) : Prop :=
  ∃ ids, Reachable w (ofSegments ids + R) ∧ (ids ≠ [] → .panicked ∈ w.journal.toList)

namespace Attained

variable {F R take : Hold} {w u : World} {α : Type}

theorem of_reachable (hreach : Reachable w R) : Attained w R :=
  ⟨[], hreach.along (Path.refl.cast rfl (zero_add R)), fun hne => absurd rfl hne⟩

theorem cast {S : Hold} (hattained : Attained w R) (hR : S = R) : Attained w S :=
  hR ▸ hattained

/-- Steps that are possible whatever else is held lead on, and leave all locks
alone. -/
theorem along (hattained : Attained w (R + take)) {G : Hold}
    (hpath : ∀ S, Reachable w (S + R + take) → Path w (S + R + take) u (S + R + G)) :
    Attained u (R + G) ∧ Persists w u ∧ w.Calm u := by
  obtain ⟨ids, hreach, hpanicked⟩ := hattained
  rw [← add_assoc] at hreach
  have hids := hpath (ofSegments ids) hreach
  refine ⟨⟨ids, ?_, fun hne => hids.persists.journal.subset (hpanicked hne)⟩, hids.persists,
    hids.calm⟩
  rw [← add_assoc]
  exact hreach.along hids

/-- Locks change hands, and other threads run, between steps. -/
theorem turn (hattained : Attained w R) (halike : w.Alike u) : Attained u R ∧ Persists w u := by
  obtain ⟨ids, hreach, hpanicked⟩ := hattained
  have hpersists := Persists.alike halike
  exact ⟨⟨ids, hreach.turn halike, fun hne => hpersists.journal.subset (hpanicked hne)⟩, hpersists⟩

theorem act {a : Act α} {give : α → Hold} (hattained : Attained w (R + F + take))
    (ha : Act.Safe F take give w a) :
    Attained (a w).2 (R + F + give (a w).1) ∧ Persists w (a w).2 ∧ w.Calm (a w).2 := by
  refine hattained.along fun S hreach => ?_
  have hassoc : ∀ X : Hold, S + (R + F) + X = S + R + F + X := fun X => by rw [add_assoc S R F]
  rw [hassoc] at hreach
  exact (ha (S + R) hreach).cast (hassoc _) (hassoc _)

/-- The segments that panicking code held are left behind. -/
theorem leave {ids : List NativeId} (hattained : Attained w (R + ofSegments ids))
    (hpanicked : .panicked ∈ w.journal.toList) : Attained w R := by
  obtain ⟨others, hreach, -⟩ := hattained
  refine ⟨others ++ ids, hreach.along (Path.refl.cast rfl ?_), fun _ => hpanicked⟩
  rw [ofSegments_append]
  abel

/-- What holds in every state that can be reached holds here too. -/
theorem reached {P : Prop} (hattained : Attained w R) (hreached : ∀ S, Reachable w (S + R) → P) :
    P := by
  obtain ⟨ids, hreach, -⟩ := hattained
  exact hreached (ofSegments ids) hreach

end Attained

/-- Whether two courses from a world on go the same way, to an end of which `Q`
holds.  `F` is held all the time; `E` is what others hold, which can be something
else after a pause.  If `P` holds then the threads of `O`, and those that they start,
take turns in a pause as `Turns` says, and the course does not touch their locks. -/
inductive Course.Runs {ε α : Type} (P : Prop) (F : Hold)
    (Q : Set ThreadId → Hold → Ending ε α → World → Prop) :
    Set ThreadId → World → Course ε α → Hold → Course ε α → Prop
  | ended {e : Ending ε α} {O : Set ThreadId} {w u : World} {E : Hold} (hpersists : Persists w u)
      (hspares : P → w.Spares O u) (hend : Q O E e u) : Runs P F Q O w (.ended e u) E (.ended e u)
  | exhausted {O : Set ThreadId} {w u : World} {E : Hold} :
      Runs P F Q O w (.exhausted u) E (.exhausted u)
  | paused {held : List Token} {O : Set ThreadId} {w u : World} {ready : World → Option World}
      {next next' : World → Course ε α} {E : Hold} (hpersists : Persists w u)
      (hspares : P → w.Spares O u) (hattained : Attained u (E + F + ↑held))
      (hnext : ∀ (E' : Hold) (v v' : World), Attained v (E' + F + ↑held) → Persists u v →
        0 < v.threads.size → (P → u.Turns O v) → ready v = some v' →
          Runs P F Q (u.joined O v) v (next v') E' (next' v')) :
      Runs P F Q O w (.paused held u ready next) E (.paused held u ready next')

namespace Course.Runs

variable {ε ε' α β : Type} {P : Prop} {F G E : Hold} {O : Set ThreadId} {w u : World}
  {Q : Set ThreadId → Hold → Ending ε α → World → Prop}
  {Q' : Set ThreadId → Hold → Ending ε' β → World → Prop} {c c' : Course ε α}

/-- What starts later persists from before. -/
theorem weaken (hruns : Runs P F Q O u c E c') (hpersists : Persists w u)
    (hspares : P → w.Spares O u) : Runs P F Q O w c E c' := by
  cases hruns with
  | ended hlater hsince hend =>
      exact .ended (hpersists.trans hlater) (fun hP => (hspares hP).trans (hsince hP)) hend
  | exhausted => exact .exhausted
  | paused hlater hsince hattained hnext =>
      exact .paused (hpersists.trans hlater) (fun hP => (hspares hP).trans (hsince hP)) hattained
        hnext

theorem mono {Q₁ : Set ThreadId → Hold → Ending ε α → World → Prop} (hruns : Runs P F Q O w c E c')
    (hend : ∀ O E e u, Q O E e u → Q₁ O E e u) : Runs P F Q₁ O w c E c' := by
  induction hruns with
  | ended hpersists hspares hold => exact .ended hpersists hspares (hend _ _ _ _ hold)
  | exhausted => exact .exhausted
  | paused hpersists hspares hattained hnext ih => exact .paused hpersists hspares hattained ih

/-- What follows on a course starts where that ends, with its scope closed. -/
theorem andThen {held : List Token} {next next' : Ending ε α → World → Course ε' β}
    (hruns : Runs P G Q O w c E c') (hG : G = F + ↑held)
    (hthen : ∀ O E e u, Persists w u → Q O E e u → Runs P F Q' O u (next e u) E (next' e u)) :
    Runs P F Q' O w (c.andThen held next) E (c'.andThen held next') := by
  have hassoc : ∀ (E : Hold) (inner : List Token),
      E + F + ((inner ++ held : List Token) : Hold) = E + G + ((inner : List Token) : Hold) := by
    intro E inner
    rw [← Multiset.coe_add, hG]
    abel
  induction hruns with
  | ended hpersists hspares hend => exact (hthen _ _ _ _ hpersists hend).weaken hpersists hspares
  | exhausted => exact .exhausted
  | paused hpersists hspares hattained hnext ih =>
      refine .paused hpersists hspares (hattained.cast (hassoc _ _)) ?_
      intro E' v v' hthere hlater hthreads hturns hready
      refine ih E' v v' (hthere.cast (hassoc _ _).symm) hlater hthreads hturns hready ?_
      exact fun O E e u hsince => hthen O E e u ((hpersists.trans hlater).trans hsince)

end Course.Runs

/-- What is left at an end: for a value what is given, and what is known then. -/
def Ending.Leaves {ε α : Type} (F : Hold) (give : α → Hold) (post : α → World → Prop) (E : Hold) :
    Ending ε α → World → Prop
  | value a, u => Attained u (E + F + give a) ∧ post a u
  | raised _, u => Attained u (E + F)
  | panicked _, u => Attained u (E + F) ∧ .panicked ∈ u.journal.toList

/-- What is left at an end, and that locks are as they were at the start if the
others keep to theirs. -/
def Ending.Finishes {ε α : Type} (P : Prop) (F : Hold) (give : α → Hold) (post : α → World → Prop)
    (O : Set ThreadId) (w : World) (O' : Set ThreadId) (E : Hold) (e : Ending ε α) (u : World) :
    Prop :=
  e.Leaves F give post E u ∧ (P → w.Returns O O' u)

/-- Whether two pieces of code do the same from a world on.  `F` is held
meanwhile, `take` is used up, `give` is held afterwards, and `post` is known
then. -/
def Run.Ensures {ε α : Type} (F take : Hold) (give : α → Hold) (post : α → World → Prop) (w : World)
    (m m' : Run ε α) : Prop :=
  ∀ (P : Prop) (O : Set ThreadId) (E : Hold), (P → w.Apart O) → Attained w (E + F + take) →
    (m w).Runs P F (Ending.Finishes P F give post O w) O w E (m' w)

/-- Whether they do the same, with nothing to be known afterwards. -/
abbrev Run.Safe {ε α : Type} (F take : Hold) (give : α → Hold) (w : World) (m m' : Run ε α) :
    Prop :=
  Run.Ensures F take give (fun _ _ => True) w m m'

namespace Run

variable {ε ε' α β : Type} {F G M take : Hold} {give : α → Hold} {give' : β → Hold}
  {post : α → World → Prop} {post' : β → World → Prop} {w : World} {m m' : Run ε α}
  {k k' : α → Run ε β}

/-- Pieces of code that follow each other. -/
theorem bind_assoc {α β γ : Type} (m : Run ε α) (f : α → Run ε β) (g : β → Run ε γ) :
    (m >>= f) >>= g = m >>= fun a => f a >>= g := by
  funext w
  have hcourse : ∀ c : Course ε α,
      (c.andThen [] (following f)).andThen [] (following g)
        = c.andThen [] (following fun a => f a >>= g) := by
    intro c
    induction c with
    | ended e u => cases e <;> rfl
    | exhausted => rfl
    | paused held u ready next ih =>
        simp only [Course.andThen, List.append_nil]
        exact congrArg _ (funext ih)
  exact hcourse (m w)

/-- What follows a step does not see which step it was. -/
theorem act_congr {a a' : Act α} (h : a w = a' w) (next : α → Run ε β) :
    (Run.act a >>= next) w = (Run.act a' >>= next) w :=
  congrArg (fun r : α × World => next r.1 r.2) h

namespace Ensures

theorem cast {take' : Hold} {give₁ : α → Hold} (hm : Ensures F take give post w m m')
    (htake : take' = take) (hgive : ∀ a, give₁ a = give a) :
    Ensures F take' give₁ post w m m' := by
  have heq : give₁ = give := funext hgive
  subst htake heq
  exact hm

/-- Less may be known afterwards. -/
theorem weaken {post₁ : α → World → Prop} (hm : Ensures F take give post w m m')
    (hpost : ∀ a u, post a u → post₁ a u) : Ensures F take give post₁ w m m' := by
  intro P O E hapart hattained
  refine (hm P O E hapart hattained).mono fun O' E e u hend => ?_
  obtain ⟨hleaves, hreturns⟩ := hend
  cases e with
  | value a => exact ⟨⟨hleaves.1, hpost a u hleaves.2⟩, hreturns⟩
  | raised e => exact ⟨hleaves, hreturns⟩
  | panicked text => exact ⟨hleaves, hreturns⟩

/-- An end that is come to by a step. -/
theorem ended {P : Prop} {O : Set ThreadId} {E : Hold} {e : Ending ε α} {u : World}
    (hapart : P → w.Apart O) (hpersists : Persists w u) (hcalm : w.Calm u)
    (hleaves : e.Leaves F give post E u) :
    (Course.ended e u).Runs P F (Ending.Finishes P F give post O w) O w E (.ended e u) :=
  .ended hpersists (fun _ => .of_calm hcalm) ⟨hleaves, fun hP => .of_calm hcalm (hapart hP)⟩

theorem value {a : α} (hpost : post a w) (htake : take = give a) :
    Ensures (ε := ε) F take give post w (Pure.pure a) (Pure.pure a) :=
  fun _ _ _ hapart hattained =>
    ended hapart (.refl w) (.refl w) ⟨hattained.cast (by rw [htake]), hpost⟩

theorem raise {e : ε} : Ensures F 0 give post w (Run.raise e) (Run.raise e) :=
  fun _ _ _ hapart hattained =>
    ended hapart (.refl w) (.refl w) (hattained.cast (add_zero _).symm)

theorem exhausted :
    Ensures (ε := ε) F take give post w (fun w => .exhausted w) fun w => .exhausted w :=
  fun _ _ _ _ _ => .exhausted

theorem panic (text : String) :
    Ensures (ε := ε) F 0 give post w (Run.panic text) (Run.panic text) := by
  intro P O E hapart hattained
  obtain ⟨hthere, hpersists, hcalm⟩ := hattained.along (G := 0) fun S _ => Transition.panic.path
  refine ended hapart hpersists hcalm ⟨hthere.cast (add_zero _).symm, ?_⟩
  simp [World.record]

theorem throw (t : Thrown) :
    Ensures (ε := Thrown) F 0 give post w (Run.throw t) (Run.throw t) := by
  intro P O E hapart hattained
  obtain ⟨hthere, hpersists, hcalm⟩ := hattained.along (G := 0) fun S _ => (Transition.throw t).path
  exact ended hapart hpersists hcalm (hthere.cast (add_zero _).symm)

theorem act {a : Act α} (ha : Act.Safe F take give w a)
    (hpost : Persists w (a w).2 → post (a w).1 (a w).2) :
    Ensures (ε := ε) F take give post w (Run.act a) (Run.act a) := by
  intro P O E hapart hattained
  obtain ⟨hthere, hpersists, hcalm⟩ := hattained.act ha
  exact ended hapart hpersists hcalm ⟨hthere, hpost hpersists⟩

/-- Go on at the end of the first piece, whatever that is. -/
theorem andThenAny {G : Hold} {held : List Token} {next next' : Ending ε α → Run ε' β} {P : Prop}
    {O : Set ThreadId} {E : Hold} (hm : Ensures G take give post w m m') (hG : G = F + ↑held)
    (hapart : P → w.Apart O) (hattained : Attained w (E + G + take))
    (hnext : ∀ O' E e u, Persists w u → (P → w.Returns O O' u) → e.Leaves G give post E u →
      (next e u).Runs P F (Ending.Finishes P F give' post' O' u) O' u E (next' e u)) :
    (thenDo held m next w).Runs P F (Ending.Finishes P F give' post' O w) O w E
      (thenDo held m' next' w) := by
  refine (hm P O E hapart hattained).andThen hG fun O' E e u hpersists hend => ?_
  refine (hnext O' E e u hpersists hend.2 hend.1).mono fun O'' E e v hlast => ?_
  exact ⟨hlast.1, fun hP => (hend.2 hP).trans (hlast.2 hP)⟩

/-- Go on with the value of the first piece. -/
theorem andThen (hm : Ensures F take give post w m m')
    (hk : ∀ a u, Persists w u → post a u → Ensures F (give a) give' post' u (k a) (k' a)) :
    Ensures F take give' post' w (m >>= k) (m' >>= k') := by
  intro P O E hapart hattained
  refine andThenAny hm (add_zero F).symm hapart hattained fun O' E e u hpersists hreturns hend => ?_
  have hthere : P → u.Apart O' := fun hP => (hreturns hP).apart (hapart hP)
  cases e with
  | value a => exact hk a u hpersists hend.2 P O' E hthere hend.1
  | raised e => exact ended hthere (.refl u) (.refl u) hend
  | panicked text => exact ended hthere (.refl u) (.refl u) hend

/-- A step that leaves all locks alone comes first. -/
theorem after_calm {u : World} {P : Prop} {O : Set ThreadId} {E : Hold} {c c' : Course ε β}
    (hapart : P → w.Apart O) (hpersists : Persists w u) (hcalm : w.Calm u)
    (hruns : (P → u.Apart O) → c.Runs P F (Ending.Finishes P F give' post' O u) O u E c') :
    c.Runs P F (Ending.Finishes P F give' post' O w) O w E c' := by
  have hlater := hruns fun hP => (hapart hP).of_calm hcalm
  refine (hlater.mono fun O' E e v hend => ?_).weaken hpersists fun _ => .of_calm hcalm
  exact ⟨hend.1, fun hP => (World.Returns.of_calm hcalm (hapart hP)).trans (hend.2 hP)⟩

/-- A step that cannot fail comes first. -/
theorem act_bind_calm {a : Act α} (ha : Act.Safe F take give w a)
    (hk : Persists w (a w).2 → w.Calm (a w).2 →
      Ensures F (give (a w).1) give' post' (a w).2 (k (a w).1) (k' (a w).1)) :
    Ensures F take give' post' w (Run.act a >>= k) (Run.act a >>= k') := by
  intro P O E hapart hattained
  obtain ⟨hthere, hpersists, hcalm⟩ := hattained.act ha
  exact after_calm hapart hpersists hcalm fun hlater => hk hpersists hcalm P O E hlater hthere

theorem act_bind {a : Act α} (ha : Act.Safe F take give w a)
    (hk : Persists w (a w).2 →
      Ensures F (give (a w).1) give' post' (a w).2 (k (a w).1) (k' (a w).1)) :
    Ensures F take give' post' w (Run.act a >>= k) (Run.act a >>= k') :=
  act_bind_calm ha fun hpersists _ => hk hpersists

theorem reads_bind {f : World → α} (hk : Ensures F take give' post' w (k (f w)) (k' (f w))) :
    Ensures F take give' post' w (Run.reads f >>= k) (Run.reads f >>= k') :=
  hk

/-- Pieces that follow each other can be grouped either way. -/
theorem assoc {γ : Type} {p p' : Run ε γ} {g g' : γ → Run ε α}
    (hm : Ensures F take give' post' w (p >>= fun c => g c >>= k) (p' >>= fun c => g' c >>= k')) :
    Ensures F take give' post' w ((p >>= g) >>= k) ((p' >>= g') >>= k') := by
  rw [Run.bind_assoc, Run.bind_assoc]
  exact hm

theorem modify_bind_calm {f : World → World} {k k' : Unit → Run ε β}
    (hf : ∀ R, Reachable w (R + F + take) → Path w (R + F + take) (f w) (R + F + M))
    (hk : Persists w (f w) → w.Calm (f w) → Ensures F M give' post' (f w) (k ()) (k' ())) :
    Ensures F take give' post' w (Run.modify f >>= k) (Run.modify f >>= k') :=
  act_bind_calm (show Act.Safe F take (fun _ => M) w fun w => ((), f w) from hf) hk

theorem modify_bind {f : World → World} {k k' : Unit → Run ε β}
    (hf : ∀ R, Reachable w (R + F + take) → Path w (R + F + take) (f w) (R + F + M))
    (hk : Persists w (f w) → Ensures F M give' post' (f w) (k ()) (k' ())) :
    Ensures F take give' post' w (Run.modify f >>= k) (Run.modify f >>= k') :=
  modify_bind_calm hf fun hpersists _ => hk hpersists

theorem modify {f : World → World} {give : Unit → Hold} {post : Unit → World → Prop}
    (hf : ∀ R, Reachable w (R + F + take) → Path w (R + F + take) (f w) (R + F + give ()))
    (hpost : Persists w (f w) → post () (f w)) :
    Ensures (ε := ε) F take give post w (Run.modify f) (Run.modify f) :=
  act hf hpost

/-- Let go of something first. -/
theorem drop_bind {hs : List Handle} {k k' : Unit → Run ε β}
    (hk : Persists w (w.drop hs) → Ensures F 0 give' post' (w.drop hs) (k ()) (k' ())) :
    Ensures F (ofHandles hs) give' post' w (Run.modify (·.drop hs) >>= k)
      (Run.modify (·.drop hs) >>= k') :=
  modify_bind (fun _ _ => (Path.drop hs).cast rfl (add_zero _)) hk

theorem pure_bind {a : α} (hk : Ensures F take give' post' w (k a) (k' a)) :
    Ensures F take give' post' w (Pure.pure a >>= k) (Pure.pure a >>= k') :=
  hk

theorem ofExcept {x : Except ε α} {g : α → Hold}
    (hok : ∀ a, x = .ok a → g a = give a ∧ post a w) :
    Ensures F (ofOk g x) give post w (Run.ofExcept x) (Run.ofExcept x) := by
  cases x with
  | ok a => exact .value (hok a rfl).2 (hok a rfl).1
  | error e => exact raise

theorem ofExcept_bind {x : Except ε α} {g : α → Hold}
    (hk : ∀ a, x = .ok a → Ensures F (g a) give' post' w (k a) (k' a)) :
    Ensures F (ofOk g x) give' post' w (Run.ofExcept x >>= k) (Run.ofExcept x >>= k') := by
  cases x with
  | ok a => exact hk a rfl
  | error e => exact raise

/-- A scope that is closed at every end. -/
theorem atEnd (held : List Token) {f : World → World} {post₁ : α → World → Prop}
    (hm : Ensures G 0 give post w m m') (hG : G = F + ↑held)
    (hf : ∀ u R, Reachable u (R + ↑held) → Path u (R + ↑held) (f u) R)
    (hpost : ∀ E a u, Persists w u → Attained u (E + G + give a) → post a u → post₁ a (f u)) :
    Ensures F ↑held give post₁ w (Run.atEnd held f m) (Run.atEnd held f m') := by
  intro P O E hapart hattained
  have hinner : Attained w (E + G + 0) := hattained.cast (by rw [hG, add_zero, add_assoc])
  refine andThenAny hm hG hapart hinner fun O' E e u hpersists hreturns hend => ?_
  have hthere : P → u.Apart O' := fun hP => (hreturns hP).apart (hapart hP)
  have hclose : ∀ S, Attained u (E + G + S) →
      Attained (f u) (E + F + S) ∧ Persists u (f u) ∧ u.Calm (f u) := by
    intro S hbefore
    have hswap : E + G + S = E + F + S + ↑held := by
      rw [hG]
      abel
    obtain ⟨hclosed, hlater⟩ := (hbefore.cast hswap.symm).along (G := 0) fun R hreach =>
      (hf u (R + (E + F + S)) hreach).cast rfl (add_zero _)
    exact ⟨hclosed.cast (add_zero _).symm, hlater⟩
  cases e with
  | value a =>
      obtain ⟨hclosed, hlater, hcalm⟩ := hclose _ hend.1
      exact ended hthere hlater hcalm ⟨hclosed, hpost E a u hpersists hend.1 hend.2⟩
  | raised e =>
      obtain ⟨hclosed, hlater, hcalm⟩ := hclose 0 (hend.cast (add_zero _))
      exact ended hthere hlater hcalm (hclosed.cast (add_zero _).symm)
  | panicked text =>
      obtain ⟨hclosed, hlater, hcalm⟩ := hclose 0 (hend.1.cast (add_zero _))
      exact ended hthere hlater hcalm ⟨hclosed.cast (add_zero _).symm, hlater.journal.subset hend.2⟩

end Ensures

end Run

end TwinObject
