/-
Scopes of safe code.  What a scope takes when it opens it holds to its end, on
whatever way the code in it gets there, and then it lets go of it or hands it
on.
-/
import TwinObject.Proofs.Safe.Run

namespace TwinObject

open Hold

theorem World.twin_setFilling {w : World} {t : TwinId} {a : Twin} (ha : w.twins[t]? = some a)
    (filling : Bool) : (w.setFilling t filling).twin t = { a with filling } := by
  rw [World.setFilling, World.modifyTwin_eq ha]
  exact World.twin_eq (by rw [World.getElem?_setTwin ha, if_pos rfl])

theorem World.constructed_setFilling (w : World) (t : TwinId) (filling : Bool) :
    ((w.setFilling t filling).twin t).constructed = (w.twin t).constructed := by
  cases ha : w.twins[t]? with
  | none => rw [World.setFilling, World.modifyTwin_of_none ha]
  | some a => rw [World.twin_setFilling ha, World.twin_eq ha]

theorem World.alike_modifyInterp (w : World) (i : InterpId) (f : Interp → Interp) :
    w.Alike (w.modifyInterp i f) :=
  have hsize : (w.modifyInterp i f).interps.size = w.interps.size := Array.size_modify
  ⟨rfl, rfl, rfl, rfl, rfl, rfl, rfl, rfl, rfl, rfl, rfl, rfl, Nat.le_of_eq hsize.symm,
    Nat.le_refl _, fun hseated => hseated.of_eq hsize rfl hseated.known⟩

theorem World.alike_setLock (w : World) (i : InterpId) (l : Lock) : w.Alike (w.setLock i l) :=
  w.alike_modifyInterp i _

/-- An end stays what it is while locks change hands. -/
theorem Ending.Leaves.turn {ε α : Type} {F E : Hold} {give : α → Hold} {e : Ending ε α}
    {u v : World} (hleaves : e.Leaves F give (fun _ _ => True) E u) (halike : u.Alike v) :
    e.Leaves F give (fun _ _ => True) E v := by
  cases e with
  | value a => exact ⟨(Attained.turn hleaves.1 halike).1, trivial⟩
  | raised e => exact (Attained.turn hleaves halike).1
  | panicked text =>
      obtain ⟨hthere, hpersists⟩ := Attained.turn hleaves.1 halike
      exact ⟨hthere, hpersists.journal.subset hleaves.2⟩

namespace Run.Ensures

variable {ε ε' α β : Type} {F take : Hold} {give : α → Hold} {give' : β → Hold}
  {post : α → World → Prop} {post' : β → World → Prop} {w : World} {m m' : Run ε α}
  {hs : List Handle}

/-- What holds of all states with what is held may be used. -/
theorem knowing {P : Prop} (hreached : ∀ R, Reachable w (R + F + take) → P)
    (hm : P → Ensures F take give post w m m') : Ensures F take give post w m m' := by
  intro P O E hapart hattained
  refine hm (hattained.reached fun S hreach => hreached (S + E) ?_) P O E hapart hattained
  simpa only [add_assoc] using hreach

/-- Handles are held while code runs, and let go at its end. -/
theorem holding (hm : Safe (F + ofHandles hs) 0 give w m m') :
    Safe F (ofHandles hs) give w (Run.holding hs m) (Run.holding hs m') :=
  atEnd _ hm rfl (fun _ _ _ => Path.drop hs) fun _ _ _ _ _ _ => trivial

theorem retaining (hvouches : Vouches F w hs)
    (hm : ∀ u, Persists w u → Safe (F + ofHandles hs) 0 give u m m') :
    Safe F 0 give w (Run.retaining hs m) (Run.retaining hs m') := by
  refine modify_bind (fun R hreach => ?_) fun hpersists => holding (hm _ hpersists)
  rw [add_zero] at hreach
  exact (Path.retainAll hs (hvouches w R (.refl w) hreach)).cast (add_zero _) rfl

theorem lending {k : Kind} (hkeeps : w.KeepsKind k)
    (hm : Persists w (World.lend k w) → Safe (F + {.kind k}) 0 give (World.lend k w) m m') :
    Safe F 0 give w (Run.lending k m) (Run.lending k m') := by
  refine modify_bind (fun R _ => ?_) fun hpersists =>
    atEnd [.kind k] (hm hpersists) rfl (fun _ _ _ => Path.takeBack k) fun _ _ _ _ _ _ => trivial
  exact (Transition.lend hkeeps).path.cast (add_zero _) rfl

theorem lendingAll {ks : List Kind} (hkeeps : ∀ k ∈ ks, w.KeepsKind k)
    (hm : ∀ u, Persists w u → Safe (F + ↑(ks.map Token.kind)) 0 give u m m') :
    Safe F 0 give w (Run.lendingAll ks m) (Run.lendingAll ks m') := by
  induction ks generalizing F w with
  | nil => exact (add_zero F) ▸ hm w (.refl w)
  | cons k ks ih =>
      refine lending (hkeeps k List.mem_cons_self) fun hu => ih (fun k' hk' => ?_) fun v hv => ?_
      · exact (hkeeps k' (List.mem_cons_of_mem k hk')).mono hu fun _ _ hs => hs
      · have hassoc : F + {.kind k} + ↑(ks.map Token.kind) = F + ↑((k :: ks).map Token.kind) := by
          rw [List.map_cons, ← Multiset.cons_coe, ← Multiset.singleton_add, add_assoc]
        exact hassoc ▸ hm v (hu.trans hv)

/-- Handles are held while code runs, and let go unless it ends with a value. -/
theorem unwinding_taking (hm : Ensures (F + ofHandles hs) take give post w m m') :
    Ensures F (ofHandles hs + take) (fun a => ofHandles hs + give a) post w (Run.unwinding hs m)
      (Run.unwinding hs m') := by
  intro P O E hapart hattained
  have hinner : Attained w (E + (F + ofHandles hs) + take) := hattained.cast (by abel)
  refine andThenAny hm rfl hapart hinner fun O' E e u hpersists hreturns hend => ?_
  have hthere : P → u.Apart O' := fun hP => (hreturns hP).apart (hapart hP)
  have hdrop : Attained u (E + (F + ofHandles hs)) →
      Attained (u.drop hs) (E + F) ∧ Persists u (u.drop hs) ∧ u.Calm (u.drop hs) := by
    intro hbefore
    obtain ⟨hdropped, hlater⟩ := (hbefore.cast (add_assoc E F _)).along (G := 0) fun R _ =>
      (Path.drop hs).cast (by abel) (add_zero _)
    exact ⟨hdropped.cast (add_zero _).symm, hlater⟩
  cases e with
  | value a =>
      exact ended hthere (.refl u) (.refl u) ⟨hend.1.cast (by simp only [add_assoc]), hend.2⟩
  | raised e =>
      obtain ⟨hdropped, hlater, hcalm⟩ := hdrop hend
      exact ended hthere hlater hcalm hdropped
  | panicked text =>
      obtain ⟨hdropped, hlater, hcalm⟩ := hdrop hend.1
      exact ended hthere hlater hcalm ⟨hdropped, hlater.journal.subset hend.2⟩

theorem unwinding (hm : Ensures (F + ofHandles hs) 0 give post w m m') :
    Ensures F (ofHandles hs) (fun a => ofHandles hs + give a) post w (Run.unwinding hs m)
      (Run.unwinding hs m') :=
  (unwinding_taking hm).cast (add_zero _).symm fun _ => rfl

/-- Segments that are built already are razed if code raises an error, and left
behind if it panics. -/
theorem onRaise {held : List Token} {ids : List NativeId} {f : World → World}
    (hheld : (↑held : Hold) = ofSegments ids) (hm : Safe (F + ofSegments ids) 0 give w m m')
    (hf : ∀ u R, Path u (R + ofSegments ids) (f u) R) :
    Safe F (ofSegments ids) (fun a => ofSegments ids + give a) w (Run.onRaise held m f)
      (Run.onRaise held m' f) := by
  intro P O E hapart hattained
  have hinner : Attained w (E + (F + ofSegments ids) + 0) := hattained.cast (by abel)
  refine andThenAny hm (by rw [hheld]) hapart hinner fun O' E e u hpersists hreturns hend => ?_
  have hthere : P → u.Apart O' := fun hP => (hreturns hP).apart (hapart hP)
  cases e with
  | value a =>
      exact ended hthere (.refl u) (.refl u) ⟨hend.1.cast (by simp only [add_assoc]), trivial⟩
  | raised e =>
      obtain ⟨hrazed, hlater, hcalm⟩ := (hend.cast (add_assoc E F _)).along (G := 0) fun R _ =>
        (hf u (R + (E + F))).cast rfl (add_zero _)
      exact ended hthere hlater hcalm (hrazed.cast (add_zero _).symm)
  | panicked text =>
      exact ended hthere (.refl u) (.refl u)
        ⟨(hend.1.cast (add_assoc E F _)).leave hend.2, hend.2⟩

/-- An error becomes a value that holds nothing. -/
theorem outcome (hm : Safe F take give w m m') :
    Safe (ε := ε') F take (ofOk give) w (Run.outcome m) (Run.outcome m') := by
  intro P O E hapart hattained
  refine andThenAny hm (add_zero F).symm hapart hattained fun O' E e u hpersists hreturns hend => ?_
  have hthere : P → u.Apart O' := fun hP => (hreturns hP).apart (hapart hP)
  cases e with
  | value a => exact ended hthere (.refl u) (.refl u) hend
  | raised e => exact ended hthere (.refl u) (.refl u) ⟨hend.cast (add_zero _), trivial⟩
  | panicked text => exact ended hthere (.refl u) (.refl u) hend

theorem mapError {f : ε → ε'} (hm : Ensures F take give post w m m') :
    Ensures F take give post w (Run.mapError f m) (Run.mapError f m') := by
  intro P O E hapart hattained
  refine andThenAny hm (add_zero F).symm hapart hattained fun O' E e u hpersists hreturns hend => ?_
  have hthere : P → u.Apart O' := fun hP => (hreturns hP).apart (hapart hP)
  cases e with
  | value a => exact ended hthere (.refl u) (.refl u) hend
  | raised e => exact ended hthere (.refl u) (.refl u) hend
  | panicked text => exact ended hthere (.refl u) (.refl u) hend

/-- A change to what no handle, class, container or lock depends on comes first. -/
theorem quiet_bind {f : World → World} {k k' : Unit → Run ε β} (halike : w.Alike (f w))
    (hcalm : w.Calm (f w))
    (hk : Persists w (f w) → Ensures F take give' post' (f w) (k ()) (k' ())) :
    Ensures F take give' post' w (Run.modify f >>= k) (Run.modify f >>= k') :=
  modify_bind (fun _ _ => Path.quiet halike hcalm) hk

/-- Counting what an interpreter does leaves its lock alone. -/
theorem count_bind {i : InterpId} {f : Counters → Counters} {k k' : Unit → Run ε β}
    (hk : Persists w (w.count i f) → w.Calm (w.count i f) →
      Ensures F take give' post' (w.count i f) (k ()) (k' ())) :
    Ensures F take give' post' w (Run.modify (·.count i f) >>= k)
      (Run.modify (·.count i f) >>= k') :=
  modify_bind_calm
    (fun _ _ => Path.quiet (w.alike_modifyInterp i _) (.modifyInterp w i fun _ => rfl)) hk

/-- Go on where what is waited for has happened: at once, or after other threads
had their turns. -/
theorem await_then {Q : Set ThreadId → Hold → Ending ε' β → World → Prop} (held : List Token)
    {next next' : Ending ε Unit → Run ε' β} {ready : World → Option World} {P : Prop}
    {O : Set ThreadId} {E : Hold} (hapart : P → w.Apart O) (hattained : Attained w (E + F + ↑held))
    (hnext : ∀ O' E u v, Attained u (E + F + ↑held) → Persists w u →
      (u = w ∨ 0 < u.threads.size) → (P → w.Returns O O' u) → ready u = some v →
        (next (.value ()) v).Runs P F Q O' u E (next' (.value ()) v)) :
    (thenDo held (Run.await ready) next w).Runs P F Q O w E
      (thenDo held (Run.await ready) next' w) := by
  rw [thenDo, thenDo, Run.await]
  cases hr : ready w with
  | some v =>
      exact hnext O E w v hattained (.refl w) (Or.inl rfl) (fun hP => .refl (hapart hP)) hr
  | none =>
      refine .paused (.refl w) (fun _ => .refl O w) hattained ?_
      intro E' u v hthere hpersists hthreads hturns hv
      exact hnext _ E' u v hthere hpersists (Or.inr hthreads)
        (fun hP => (hturns hP).returns (hapart hP)) hv

/-- What is waited for leaves all locks alone. -/
theorem await_bind {ready : World → Option World} {M : World → Hold} {k k' : Unit → Run ε β}
    (hready : ∀ u v R, ready u = some v → Reachable u (R + F + 0) →
      Path u (R + F + 0) v (R + F + M v))
    (hk : ∀ u v, Persists w u → (u = w ∨ 0 < u.threads.size) → ready u = some v → Persists u v →
      Ensures F (M v) give' post' v (k ()) (k' ())) :
    Ensures F 0 give' post' w (Run.await ready >>= k) (Run.await ready >>= k') := by
  intro P O E hapart hattained
  refine await_then [] hapart hattained fun O' E u v hthere hpersists hsince hreturns hv => ?_
  have hsafe : Act.Safe F 0 (fun _ => M v) u fun _ => ((), v) := fun R => hready u v R hv
  obtain ⟨hnow, hlater, hcalm⟩ := Attained.act hthere hsafe
  have hgo := after_calm (fun hP => (hreturns hP).apart (hapart hP)) hlater hcalm fun hthen =>
    hk u v hpersists hsince hv hlater P O' E hthen hnow
  exact hgo.mono fun O'' E e x hend => ⟨hend.1, fun hP => (hreturns hP).trans (hend.2 hP)⟩

/-- A step to another depth of a lock comes first. -/
theorem after_move {P : Prop} {O : Set ThreadId} {E : Hold} {i : InterpId} {depth : Nat}
    {u : World} {c c' : Course ε α} {Q : Set ThreadId → Hold → Ending ε α → World → Prop}
    (hapart : P → w.Apart O) (hpersists : Persists w u) (hmoves : w.Moves i depth u)
    (hruns : (P → u.Apart O) → c.Runs P F Q O u E c') : c.Runs P F Q O w E c' :=
  (hruns fun hP => hmoves.apart (hapart hP)).weaken hpersists fun hP => hmoves.spares (hapart hP)

/-- Code holds a lock while it runs, one level deeper than before. -/
theorem locked {i : InterpId} (hinterp : i < w.interps.size)
    (hm : ∀ u, Persists w u → 0 < u.depthIn i → Safe F 0 give u m m') :
    Safe F 0 give w (Run.locked i m) (Run.locked i m') := by
  intro P O E hapart hattained
  refine await_then [] hapart hattained fun O' E u v hthere hpersists _ hreturns hv => ?_
  have hapart' : P → u.Apart O' := fun hP => (hreturns hP).apart (hapart hP)
  have htaken : u.Moves i (u.depthIn i + 1) v := .acquired (hinterp.trans_le hpersists.interps) hv
  obtain ⟨l, -, rfl⟩ := Option.map_eq_some_iff.mp hv
  obtain ⟨hinside, hlater⟩ := hthere.turn (World.alike_setLock u i l)
  have hheld : 0 < (u.setLock i l).depthIn i := by
    rw [htaken.depthIn]
    exact Nat.succ_pos _
  refine after_move hapart' hlater htaken fun hthen => ?_
  refine (hm _ (hpersists.trans hlater) hheld P O' E hthen hinside).andThen (add_zero F).symm ?_
  intro O'' E e x hsince hend
  obtain ⟨hleaves, hback⟩ := hend
  have hthen' : P → x.Apart O'' := fun hP => (hback hP).apart (hthen hP)
  have hreleased : P → x.Moves i (u.depthIn i) (x.setLock i (x.lock i).release) := by
    intro hP
    have hdepth : x.depthIn i = u.depthIn i + 1 := by
      rw [(hback hP).depthIn (hthen hP), htaken.depthIn]
    have hmoves := World.Moves.released (w := x) (i := i)
      (hinterp.trans_le ((hpersists.trans hlater).trans hsince).interps)
      (by rw [hdepth]; exact Nat.succ_pos _)
    rwa [hdepth, Nat.add_sub_cancel] at hmoves
  refine .ended (.alike (World.alike_setLock x i _))
    (fun hP => (hreleased hP).spares (hthen' hP)) ?_
  exact ⟨hleaves.turn (World.alike_setLock x i _),
    fun hP => (hreturns hP).trans (htaken.around (hback hP) (hreleased hP))⟩

/-- Code runs without a lock, which is taken back to the old depth afterwards.  A value
that is kept over the way back is all that is given. -/
theorem unlocked {i : InterpId} {kept : α → List Token} (hgive : ∀ a, give a = ↑(kept a))
    (hm : ∀ u, Persists w u → u.depthIn i = 0 → Safe F 0 give u m m') :
    Safe F 0 give w (Run.unlocked kept i m) (Run.unlocked kept i m') := by
  intro P O E hapart hattained
  have hleft := World.Moves.left w i
  have hexists : (World.leaveLock i w).1 ≠ 0 → i < w.interps.size := by
    intro hdepth
    by_contra hmissing
    rw [World.leaveLock, World.lock_of_missing (Nat.le_of_not_lt hmissing)] at hdepth
    exact hdepth rfl
  have hdepth : (World.leaveLock i w).1 = w.depthIn i := (w.lock i).snd_suspend w.currentThread
  have halike : w.Alike (World.leaveLock i w).2 := World.alike_setLock w i _
  obtain ⟨houtside, hpersists⟩ := hattained.turn halike
  refine after_move hapart hpersists hleft fun hthere => ?_
  refine (hm _ hpersists hleft.depthIn P O E hthere houtside).andThen (add_zero F).symm ?_
  intro O' E e u hsince hend
  obtain ⟨hleaves, hback⟩ := hend
  have hthere' : P → u.Apart O' := fun hP => (hback hP).apart (hthere hP)
  have hkept : Attained u (E + F + ↑(e.held kept)) := by
    cases e with
    | value a => exact hleaves.1.cast (by rw [hgive]; rfl)
    | raised e => exact hleaves.cast (add_zero _)
    | panicked text => exact hleaves.1.cast (add_zero _)
  refine await_then (e.held kept) hthere' hkept fun O'' E v x hnow hlater _ hreturns hx => ?_
  have hagain : P → v.Apart O'' := fun hP => (hreturns hP).apart (hthere' hP)
  have hresumed : P → v.Moves i (w.depthIn i) x := by
    intro hP
    rw [← hdepth]
    refine .resumed ?_ hx fun hne =>
      (hexists hne).trans_le ((hpersists.trans hsince).trans hlater).interps
    rw [(hreturns hP).depthIn (hthere' hP), (hback hP).depthIn (hthere hP), hleft.depthIn]
  obtain ⟨l, -, rfl⟩ := Option.map_eq_some_iff.mp hx
  obtain ⟨hend, hlast⟩ := hnow.turn (World.alike_setLock v i l)
  refine .ended hlast (fun hP => (hresumed hP).spares (hagain hP)) ⟨?_, ?_⟩
  · cases e with
    | value a => exact ⟨hend.cast (by rw [hgive]; rfl), trivial⟩
    | raised e => exact hend.cast (add_zero _).symm
    | panicked text =>
        exact ⟨hend.cast (add_zero _).symm, (hlater.trans hlast).journal.subset hleaves.2⟩
  · exact fun hP => hleft.around ((hback hP).trans (hreturns hP)) (hresumed hP)

/-- Code runs on a new thread while the one that started it waits. -/
theorem onThread (hm : ∀ u, Persists w u → Safe F 0 give u m m') :
    Safe F 0 give w (Run.onThread m) (Run.onThread m') := by
  refine knowing (fun R hreach => hreach.invariant.homed.seated.known) fun hknown => ?_
  intro P O E hapart hattained
  let started : World := { w with currentThread := w.nextThread, nextThread := w.nextThread + 1 }
  have halike : w.Alike started := w.alike_with (Nat.le_succ _) fun _ => Nat.lt_succ_self _
  have hthere : P → started.Apart O := fun hP =>
    { mine := fun hmem => absurd ((hapart hP).theirs _ hmem) (Nat.lt_irrefl _)
      known := Nat.lt_succ_self _
      theirs := fun t ht => Nat.lt_succ_of_lt ((hapart hP).theirs t ht) }
  obtain ⟨hinside, hpersists⟩ := hattained.turn halike
  refine Course.Runs.weaken (u := started) ?_ hpersists fun _ _ _ _ => rfl
  refine (hm started hpersists P O E hthere hinside).andThen (add_zero F).symm ?_
  intro O' E e u hsince hend
  obtain ⟨hleaves, hback⟩ := hend
  have hswitch : u.Alike { u with currentThread := w.currentThread } :=
    u.alike_with (Nat.le_refl _) fun _ => hknown.trans_le (hpersists.trans hsince).started
  refine .ended (.alike hswitch) (fun _ _ _ _ => rfl) ⟨hleaves.turn hswitch, fun hP => ?_⟩
  have hreturns := hback hP
  exact
    { running := rfl
      started := (Nat.le_succ _).trans hreturns.started
      depths := fun t ht hlt i => hreturns.depths t ht (Nat.lt_succ_of_lt hlt) i
      others := fun t ht => (hreturns.others t ht).imp id fun hnew => (Nat.le_succ _).trans hnew
      theirs := hreturns.theirs }

/-- Storage is filled by one scope at a time.  Afterwards nobody fills it, and the
constructed bases are those from before, unless there are other threads. -/
theorem filling {t : TwinId} (hlent : Lends F t)
    (hm : ∀ u constructed, Persists w u →
      Safe (F + {.storage t constructed}) 0 give u m m') :
    Ensures F 0 give (fun _ u => (u.twin t).filling = false ∧
        ((u.twin t).constructed = (w.twin t).constructed ∨ 0 < u.threads.size)) w
      (Run.filling t m) (Run.filling t m') := by
  refine await_bind (M := fun v => {.storage t (v.twin t).constructed}) ?_ ?_
  · intro u v R hv hreach
    obtain ⟨a, ha, -⟩ := hreach.live_of_lent hlent
    rw [World.twin_eq ha] at hv
    cases hfree : a.filling with
    | true => simp [hfree] at hv
    | false =>
        rw [hfree, if_neg Bool.false_ne_true] at hv
        obtain rfl := Option.some.inj hv
        refine (Transition.fill ha hfree).path.cast (add_zero _) ?_
        rw [World.twin_setFilling ha]
  · intro u v hpersists hsince hv hlater
    refine reads_bind ?_
    refine atEnd [.storage t (v.twin t).constructed] (hm v _ (hpersists.trans hlater)) rfl
      (fun u' R _ => (Transition.unfill t _).path) ?_
    intro E a u' hthere hattained _
    obtain ⟨b, hb, hstage, hkept⟩ : ∃ b, u'.twins[t]? = some b ∧ b.stage = .live ∧
        b.constructed = (v.twin t).constructed := by
      refine hattained.reached fun S hreach => ?_
      have hassoc : S + (E + (F + {Token.storage t (v.twin t).constructed}) + give a)
          = S + E + F + (give a + {.storage t (v.twin t).constructed}) := by
        abel
      rw [hassoc] at hreach
      obtain ⟨b, hb, hstage⟩ := hreach.live_of_lent hlent
      refine ⟨b, hb, hstage, hreach.invariant.formed.kept (t, _) ?_ b hb hstage⟩
      simp [Hold.fillings]
    rw [World.twin_setFilling hb]
    refine ⟨rfl, hsince.imp (fun heq => ?_) fun hthreads => ?_⟩
    · subst heq
      split at hv
      · cases hv
      · obtain rfl := Option.some.inj hv
        rw [hkept, World.constructed_setFilling]
    · exact hthreads.trans_le (hlater.trans hthere).threads

end Run.Ensures

end TwinObject
