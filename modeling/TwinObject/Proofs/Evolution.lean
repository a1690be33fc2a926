/-
What a step never takes back.  A twin keeps its class and its interpreter, it is
released for good, what a class knows of its overrides stays, neither twins nor
classes, vectors or threads ever disappear, and the journal only grows.
-/
import TwinObject.Proofs.Transition

namespace TwinObject

/-- Whether a twin can have become another one. -/
structure Twin.Evolves (a b : Twin) : Prop where
  kind : b.kind = a.kind
  interp : b.interp = a.interp
  live : b.stage = .live → a.stage = .live
  gone : a.stage = .gone → b.stage = .gone

theorem Twin.Evolves.refl (a : Twin) : a.Evolves a :=
  ⟨rfl, rfl, id, id⟩

theorem Twin.Evolves.trans {a b c : Twin} (hab : a.Evolves b) (hbc : b.Evolves c) :
    a.Evolves c where
  kind := hbc.kind.trans hab.kind
  interp := hbc.interp.trans hab.interp
  live := hab.live ∘ hbc.live
  gone := hbc.gone ∘ hab.gone

theorem Twin.evolves_forget (h : Handle) (a : Twin) : a.Evolves (a.forget h) := by
  cases h <;> exact ⟨rfl, rfl, id, id⟩

/-- The last handle to a live twin is let go. -/
theorem Twin.evolves_emptied {h : Handle} {a : Twin} (hdue : (a.forget h).isDue = true) :
    a.Evolves (a.forget h).emptied := by
  have hforget := Twin.evolves_forget h a
  simp only [Twin.isDue, Bool.and_eq_true, decide_eq_true_eq] at hdue
  refine ⟨hforget.kind, hforget.interp, (fun hlive => by cases hlive), fun hgone => ?_⟩
  rw [Twin.stage_forget, hgone] at hdue
  cases hdue.2

/-- Whether the state of a class can have become another one. -/
structure ClassState.Evolves (s s' : ClassState) : Prop where
  cls : s'.cls = s.cls
  known : ∀ (index : Nat) (found : Option Method), s.overrides[index]? = some (some found) →
    s'.overrides[index]? = some (some found)

theorem ClassState.Evolves.refl (s : ClassState) : s.Evolves s :=
  ⟨rfl, fun _ _ => id⟩

theorem ClassState.Evolves.trans {s s' s'' : ClassState} (h : s.Evolves s') (h' : s'.Evolves s'') :
    s.Evolves s'' where
  cls := h'.cls.trans h.cls
  known index found hfound := h'.known index found (h.known index found hfound)

/-- Whether all that a world never takes back is still there in another one. -/
structure Persists (w w' : World) : Prop where
  twins : ∀ (t : TwinId) (a : Twin), w.twins[t]? = some a →
    ∃ b, w'.twins[t]? = some b ∧ a.Evolves b
  classes : ∀ (id : ClassId) (s : ClassState), w.classes[id]? = some s →
    ∃ s', w'.classes[id]? = some s' ∧ s.Evolves s'
  vecs : w.vecs.size ≤ w'.vecs.size
  threads : w.threads.size ≤ w'.threads.size
  interps : w.interps.size ≤ w'.interps.size
  started : w.nextThread ≤ w'.nextThread
  journal : w.journal.toList <+: w'.journal.toList

namespace Persists

variable {w w' w'' : World} {R R' : Hold}

theorem refl (w : World) : Persists w w where
  twins _ a ha := ⟨a, ha, .refl a⟩
  classes _ s hs := ⟨s, hs, .refl s⟩
  vecs := Nat.le_refl _
  threads := Nat.le_refl _
  interps := Nat.le_refl _
  started := Nat.le_refl _
  journal := List.prefix_rfl

theorem trans (h : Persists w w') (h' : Persists w' w'') : Persists w w'' where
  twins t a ha := by
    obtain ⟨b, hb, hab⟩ := h.twins t a ha
    obtain ⟨c, hc, hbc⟩ := h'.twins t b hb
    exact ⟨c, hc, hab.trans hbc⟩
  classes id s hs := by
    obtain ⟨s', hs', hevolves⟩ := h.classes id s hs
    obtain ⟨s'', hs'', hevolves'⟩ := h'.classes id s' hs'
    exact ⟨s'', hs'', hevolves.trans hevolves'⟩
  vecs := h.vecs.trans h'.vecs
  threads := h.threads.trans h'.threads
  interps := h.interps.trans h'.interps
  started := h.started.trans h'.started
  journal := h.journal.trans h'.journal

/-- Nothing changes but what can be taken back, and vectors and threads that come to be. -/
theorem of_eq (htwins : w'.twins = w.twins) (hclasses : w'.classes = w.classes)
    (hvecs : w.vecs.size ≤ w'.vecs.size) (hthreads : w.threads.size ≤ w'.threads.size)
    (hinterps : w'.interps = w.interps) (hstarted : w'.nextThread = w.nextThread)
    (hjournal : w.journal.toList <+: w'.journal.toList) : Persists w w' where
  twins _ a ha := ⟨a, htwins ▸ ha, .refl a⟩
  classes _ s hs := ⟨s, hclasses ▸ hs, .refl s⟩
  vecs := hvecs
  threads := hthreads
  interps := Nat.le_of_eq (by rw [hinterps])
  started := Nat.le_of_eq hstarted.symm
  journal := hjournal

theorem setTwin {t : TwinId} {a b : Twin} (ha : w.twins[t]? = some a) (hab : a.Evolves b) :
    Persists w (w.setTwin t b) where
  twins i c hc := by
    rw [World.getElem?_setTwin ha]
    by_cases hti : t = i
    · subst hti
      rw [ha] at hc
      cases hc
      exact ⟨b, if_pos rfl, hab⟩
    · exact ⟨c, by rw [if_neg hti, hc], .refl c⟩
  classes _ s hs := ⟨s, hs, .refl s⟩
  vecs := Nat.le_refl _
  threads := Nat.le_refl _
  interps := Nat.le_refl _
  started := Nat.le_refl _
  journal := List.prefix_rfl

theorem modifyTwin (t : TwinId) {f : Twin → Twin} (hf : ∀ a : Twin, a.Evolves (f a)) :
    Persists w (w.modifyTwin t f) := by
  cases ha : w.twins[t]? with
  | none =>
      rw [World.modifyTwin_of_none ha]
      exact refl w
  | some a =>
      rw [World.modifyTwin_eq ha]
      exact setTwin ha (hf a)

theorem record (w : World) (events : List Event) : Persists w (w.record events) :=
  of_eq rfl rfl (Nat.le_refl _) (Nat.le_refl _) rfl rfl (by simp [World.record])

theorem setClass {id : ClassId} {s s' : ClassState} (hs : w.classes[id]? = some s)
    (hevolves : s.Evolves s') : Persists w (w.setClass id s') where
  twins t a ha := ⟨a, ha, .refl a⟩
  classes i r hr := by
    have hlt := (Array.getElem?_eq_some_iff.mp hs).1
    rw [World.setClass, Array.getElem?_setIfInBounds]
    by_cases hi : id = i
    · subst hi
      rw [hs] at hr
      cases hr
      exact ⟨s', by simp [hlt], hevolves⟩
    · exact ⟨r, by rw [if_neg hi, hr], .refl r⟩
  vecs := Nat.le_refl _
  threads := Nat.le_refl _
  interps := Nat.le_refl _
  started := Nat.le_refl _
  journal := List.prefix_rfl

theorem letGo (w : World) (h : Handle) : Persists w (w.letGo h).1 := by
  unfold World.letGo
  split
  · exact record w _
  · rename_i a ha
    have hbase : Persists w (if a.tally h = 0 then w.record [.overdrawn h] else w) := by
      split
      · exact record w _
      · exact refl w
    have ha' : (if a.tally h = 0 then w.record [.overdrawn h] else w).twins[h.twin]? = some a := by
      split <;> exact ha
    dsimp only
    split
    · rename_i hdue
      exact (hbase.trans (setTwin ha' (Twin.evolves_emptied hdue))).trans (record _ _)
    · exact hbase.trans (setTwin ha' (Twin.evolves_forget h a))

theorem markBuilt (w : World) (t : TwinId) (index : Nat) (base : NativeClass) :
    Persists w (Construction.markBuilt t index base w) := by
  unfold Construction.markBuilt
  dsimp only
  split
  · exact (record w _).trans (modifyTwin t fun a => ⟨rfl, rfl, id, id⟩)
  · exact modifyTwin t fun a => ⟨rfl, rfl, id, id⟩

theorem endClass (w : World) (id : ClassId) : Persists w (World.endClass id w).1 := by
  unfold World.endClass
  split
  · exact refl w
  · rename_i s hs
    split
    · exact refl w
    · exact setClass hs ⟨rfl, fun _ _ hfound => hfound⟩

theorem endNative (w : World) (id : NativeId) : Persists w (World.endNative id w).1 := by
  obtain ⟨declared, hframe⟩ := w.endNative_frame id
  rw [hframe]
  exact of_eq rfl rfl (Nat.le_refl _) (Nat.le_refl _) rfl rfl List.prefix_rfl

theorem admitTwin (w : World) (a : Twin) : Persists w (w.admitTwin a).1 where
  twins t b hb := by
    have hlt := (Array.getElem?_eq_some_iff.mp hb).1
    refine ⟨b, ?_, .refl b⟩
    have hpush : (w.admitTwin a).1.twins[t]? = (w.twins.push a)[t]? := rfl
    rw [hpush, Array.getElem?_push, if_neg (Nat.ne_of_lt hlt), hb]
  classes _ s hs := ⟨s, hs, .refl s⟩
  vecs := Nat.le_refl _
  threads := Nat.le_refl _
  interps := Nat.le_refl _
  started := Nat.le_refl _
  journal := by simp [World.admitTwin, World.record]

theorem admitClass (w : World) (c : DynamicClass) (attrs : Attributes) :
    Persists w (World.admitClass c attrs w) where
  twins t a ha := ⟨a, ha, .refl a⟩
  classes id s hs := by
    have hlt := (Array.getElem?_eq_some_iff.mp hs).1
    refine ⟨s, ?_, .refl s⟩
    have hpush : (World.admitClass c attrs w).classes[id]?
      = (w.classes.push ⟨c, attrs, List.replicate c.vtable.size none⟩)[id]? := rfl
    rw [hpush, Array.getElem?_push, if_neg (Nat.ne_of_lt hlt), hs]
  vecs := Nat.le_refl _
  threads := Nat.le_refl _
  interps := by simp [World.admitClass, World.modifyInterp]
  started := Nat.le_refl _
  journal := List.prefix_rfl

theorem alike (halike : w.Alike w') : Persists w w' where
  twins _ a ha := ⟨a, halike.twins ▸ ha, .refl a⟩
  classes _ s hs := ⟨s, halike.classes ▸ hs, .refl s⟩
  vecs := Nat.le_of_eq (by rw [halike.vecs])
  threads := Nat.le_of_eq (by rw [halike.threads])
  interps := halike.interps
  started := halike.started
  journal := halike.journal ▸ List.prefix_rfl

/-- No step takes any of it back. -/
theorem of_step (hstep : Transition w R w' R') : Persists w w' := by
  cases hstep with
  | quiet halike => exact alike halike
  | note text => exact record w _
  | panic => exact record w _
  | throw t => exact record w _
  | recover => exact record w _
  | enter => exact record w _
  | passGate => exact record w _
  | @retain _ h hheld =>
      refine modifyTwin _ fun a => ?_
      cases h <;> exact ⟨rfl, rfl, id, id⟩
  | letGo h => exact letGo w h
  | depart htwin hstage =>
      exact setTwin htwin ⟨rfl, rfl, (fun hlive => by cases hlive), fun _ => rfl⟩
  | endClass id => exact endClass w id
  | endNative id => exact endNative w id
  | create hnative hdynamic hstage => exact admitTwin w _
  | store htwin hstage storage attrs owner moved hshape taken given hbag =>
      exact setTwin htwin ⟨rfl, rfl, id, id⟩
  | fill htwin hfree => exact modifyTwin _ fun a => ⟨rfl, rfl, id, id⟩
  | unfill t constructed => exact modifyTwin _ fun a => ⟨rfl, rfl, id, id⟩
  | build c => exact record w _
  | raze c => exact record w _
  | mark htwin hstage hfree hbase hagain => exact markBuilt w _ _ _
  | storeClass hs attrs taken given hbag =>
      exact setClass hs ⟨rfl, fun _ _ hfound => hfound⟩
  | learn hs hslot hunknown =>
      refine setClass hs ⟨rfl, fun i found hfound => ?_⟩
      rename_i s index slot
      have hne : index ≠ i := by
        rintro rfl
        rw [hunknown] at hfound
        cases hfound
      rw [List.getElem?_set_ne hne, hfound]
  | newVec element => exact of_eq rfl rfl (by simp) (Nat.le_refl _) rfl rfl List.prefix_rfl
  | holdVec hi =>
      exact of_eq rfl rfl (by simp [World.holdVec]) (Nat.le_refl _) rfl rfl List.prefix_rfl
  | leaveVec i => exact of_eq rfl rfl (by simp) (Nat.le_refl _) rfl rfl List.prefix_rfl
  | storeVec hv items taken given hbag =>
      exact of_eq rfl rfl (by simp [World.setItems]) (Nat.le_refl _) rfl rfl List.prefix_rfl
  | spawn hinterp code => exact of_eq rfl rfl (Nat.le_refl _) (by simp) rfl rfl List.prefix_rfl
  | endThread hth hstate result =>
      exact of_eq rfl rfl (Nat.le_refl _) (by simp) rfl rfl List.prefix_rfl
  | takeResult hth => exact of_eq rfl rfl (Nat.le_refl _) (by simp) rfl rfl List.prefix_rfl
  | register hid hbases hinterp attrs => exact admitClass w _ attrs
  | _ => exact of_eq rfl rfl (Nat.le_refl _) (Nat.le_refl _) rfl rfl List.prefix_rfl

end Persists

namespace World

variable (w : World)

@[simp] theorem size_setTwin (t : TwinId) (a : Twin) :
    (w.setTwin t a).twins.size = w.twins.size := by
  simp [setTwin]

@[simp] theorem size_modifyTwin (t : TwinId) (f : Twin → Twin) :
    (w.modifyTwin t f).twins.size = w.twins.size := by
  simp [modifyTwin]

@[simp] theorem size_record (events : List Event) : (w.record events).twins.size = w.twins.size :=
  rfl

theorem size_letGo (h : Handle) : (w.letGo h).1.twins.size = w.twins.size := by
  unfold letGo
  split
  · rfl
  · dsimp only
    split <;> split <;> simp [release]

theorem size_markBuilt (t : TwinId) (index : Nat) (base : NativeClass) :
    (Construction.markBuilt t index base w).twins.size = w.twins.size := by
  unfold Construction.markBuilt
  dsimp only
  split <;> simp

end World

namespace Transition

variable {w w' : World} {R R' : Hold}

/-- Twins are only added by admitting one. -/
theorem size_twins (hstep : Transition w R w' R') :
    w'.twins.size = w.twins.size ∨ ∃ a : Twin, w' = (w.admitTwin a).1 ∧ a.stage = .live
      ∧ a.filling = false ∧ a.Shaped ∧ w.KeepsKind a.kind ∧ a.kind.Concrete
      ∧ w.Houses a.interp a.kind := by
  cases hstep with
  | @create _ a hnative hdynamic hstage hfilling hshaped hkeeps hconcrete hconforms hhouses =>
      exact Or.inr ⟨a, rfl, hstage, hfilling, hshaped, hkeeps, hconcrete, hhouses⟩
  | quiet halike => exact Or.inl (by rw [halike.twins])
  | letGo h => exact Or.inl (w.size_letGo h)
  | endClass id =>
      obtain ⟨classes, hframe, -⟩ := w.endClass_frame id
      exact Or.inl (by rw [hframe])
  | endNative id =>
      obtain ⟨declared, hframe⟩ := w.endNative_frame id
      exact Or.inl (by rw [hframe])
  | mark => exact Or.inl (w.size_markBuilt _ _ _)
  | retain => exact Or.inl (w.size_modifyTwin _ _)
  | depart => exact Or.inl (w.size_setTwin _ _)
  | store => exact Or.inl (w.size_setTwin _ _)
  | fill => exact Or.inl (w.size_modifyTwin _ _)
  | unfill => exact Or.inl (w.size_modifyTwin _ _)
  | _ => exact Or.inl rfl

/-- A twin after a step was there before it, or was admitted by it. -/
theorem twin_before (hstep : Transition w R w' R') {t : TwinId} {b : Twin}
    (hb : w'.twins[t]? = some b) :
    (∃ a, w.twins[t]? = some a ∧ a.Evolves b) ∨ (b.stage = .live ∧ b.filling = false ∧ b.Shaped
      ∧ w.KeepsKind b.kind ∧ b.kind.Concrete ∧ w.Houses b.interp b.kind) := by
  have hpersists := Persists.of_step hstep
  rcases hstep.size_twins with hsize | ⟨a, rfl, hnew⟩
  · obtain ⟨hlt, -⟩ := Array.getElem?_eq_some_iff.mp hb
    rw [hsize] at hlt
    obtain ⟨b', hb', hevolves⟩ := hpersists.twins t _ (Array.getElem?_eq_getElem hlt)
    rw [hb] at hb'
    cases hb'
    exact Or.inl ⟨_, Array.getElem?_eq_getElem hlt, hevolves⟩
  · rcases World.of_getElem?_admitTwin hb with ⟨-, rfl⟩ | ⟨-, hold⟩
    · exact Or.inr hnew
    · exact Or.inl ⟨b, hold, .refl b⟩

end Transition

end TwinObject
