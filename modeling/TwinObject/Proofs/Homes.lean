/-
Where instances live, and how code enters them.  Instances and classes belong to
interpreters that exist, an instance to that of its class; no body was ever entered
without the lock of the instance's interpreter, unless another initializer went on
with it, and no open gate was ever passed with the lock.
-/
import TwinObject.Proofs.Evolution

namespace TwinObject

/-- Whether a body was entered with the lock, and a gate was passed without it.  What
another initializer goes on with runs wherever that one has got to. -/
def Event.InOrder : Event → Prop
  | entered entry _ depth => entry ≠ .chained → 0 < depth
  | passed _ depth => depth = 0
  | _ => True

namespace World

variable {w w' : World}

theorem Seated.of_eq (hseated : w.Seated) (hsize : w'.interps.size = w.interps.size)
    (hscope : w'.scope.interps = w.scope.interps) (hknown : w'.currentThread < w'.nextThread) :
    w'.Seated where
  main := hsize ▸ hseated.main
  named label i hi := by
    rw [interpNamed?, hscope] at hi
    exact hsize ▸ hseated.named label i hi
  known := hknown

/-- What an instance, a class or a container never refers to may change, and another
thread that was started may run. -/
theorem alike_with (w : World) {functions : Nat} {openGates : List Gate} {signals : Array Bool}
    {shown : Array TwinId} {guards : List Guard} {currentThread nextThread : ThreadId}
    {names : Bindings NativeFunction} (hstarted : w.nextThread ≤ nextThread)
    (hknown : w.currentThread < w.nextThread → currentThread < nextThread) :
    w.Alike { w with
      functions := functions
      openGates := openGates
      signals := signals
      shown := shown
      guards := guards
      currentThread := currentThread
      nextThread := nextThread
      scope := { w.scope with functions := names } } :=
  ⟨rfl, rfl, rfl, rfl, rfl, rfl, rfl, rfl, rfl, rfl, rfl, rfl, Nat.le_refl _, hstarted,
    fun hseated => hseated.of_eq rfl rfl (hknown hseated.known)⟩

theorem Seated.mainInterp_lt (hseated : w.Seated) : w.mainInterp < w.interps.size := by
  rw [mainInterp]
  cases hmain : w.interpNamed? "main" with
  | some i => exact hseated.named "main" i hmain
  | none => exact hseated.main

theorem Seated.initial : World.initial.Seated where
  known := by simp [World.initial, declareInterp]
  main := by simp [World.initial, declareInterp]
  named label i hi := by
    rw [interpNamed?, World.initial, declareInterp, Bindings.get?_put] at hi
    split at hi
    · cases hi
      simp [World.initial, declareInterp]
    · cases hi

/-- Whether an instance is in an interpreter. -/
def Lives (w : World) (t : TwinId) (i : InterpId) : Prop :=
  ∃ a, w.twins[t]? = some a ∧ a.interp = i

namespace Lives

variable {t : TwinId} {i : InterpId}

/-- Instances do not move. -/
theorem mono (hlives : w.Lives t i) (hpersists : Persists w w') : w'.Lives t i := by
  obtain ⟨a, ha, rfl⟩ := hlives
  obtain ⟨b, hb, hevolves⟩ := hpersists.twins t a ha
  exact ⟨b, hb, hevolves.interp⟩

theorem interp_eq (hlives : w.Lives t i) : (w.twin t).interp = i := by
  obtain ⟨a, ha, rfl⟩ := hlives
  rw [twin_eq ha]

end Lives

theorem Houses.mono {interp : InterpId} {kind : Kind} (hhouses : w.Houses interp kind)
    (hpersists : Persists w w') : w'.Houses interp kind where
  exists_interp := hhouses.exists_interp.trans_le hpersists.interps
  of_class := hhouses.of_class

end World

namespace Transition

variable {w w' : World} {R R' : Hold}

theorem seated (hstep : Transition w R w' R') (hseated : w.Seated) : w'.Seated := by
  cases hstep with
  | quiet halike => exact halike.seated hseated
  | letGo h =>
      obtain ⟨twins, journal, hframe⟩ := w.letGo_frame h
      exact hseated.of_eq (by rw [hframe]) (by rw [hframe]) (by rw [hframe]; exact hseated.known)
  | mark =>
      obtain ⟨twins, journal, hframe⟩ := w.markBuilt_frame _ _ _
      exact hseated.of_eq (by rw [hframe]) (by rw [hframe]) (by rw [hframe]; exact hseated.known)
  | endClass id =>
      obtain ⟨classes, hframe, -⟩ := w.endClass_frame id
      exact hseated.of_eq (by rw [hframe]) (by rw [hframe]) (by rw [hframe]; exact hseated.known)
  | endNative id =>
      obtain ⟨declared, hframe⟩ := w.endNative_frame id
      exact hseated.of_eq (by rw [hframe]) (by rw [hframe]) (by rw [hframe]; exact hseated.known)
  | register =>
      exact hseated.of_eq (by simp [World.admitClass, World.modifyInterp])
        (by simp [World.admitClass, World.modifyInterp]) hseated.known
  | _ => exact hseated.of_eq rfl rfl hseated.known

/-- Classes are only added by admitting one. -/
theorem size_classes (hstep : Transition w R w' R') :
    w'.classes.size = w.classes.size ∨ ∃ c attrs, w' = World.admitClass c attrs w
      ∧ c.interp < w.interps.size := by
  cases hstep with
  | @register _ c _ _ hinterp attrs => exact Or.inr ⟨c, attrs, rfl, hinterp⟩
  | quiet halike => exact Or.inl (by rw [halike.classes])
  | letGo h =>
      obtain ⟨twins, journal, hframe⟩ := w.letGo_frame h
      exact Or.inl (by rw [hframe])
  | mark =>
      obtain ⟨twins, journal, hframe⟩ := w.markBuilt_frame _ _ _
      exact Or.inl (by rw [hframe])
  | endClass id =>
      obtain ⟨classes, hframe, hsize⟩ := w.endClass_frame id
      exact Or.inl (by rw [hframe, hsize])
  | endNative id =>
      obtain ⟨declared, hframe⟩ := w.endNative_frame id
      exact Or.inl (by rw [hframe])
  | storeClass => exact Or.inl (by simp [World.setClass])
  | learn => exact Or.inl (by simp [World.setClass])
  | _ => exact Or.inl rfl

/-- A class after a step was there before it, or was admitted by it. -/
theorem class_before (hstep : Transition w R w' R') {id : ClassId} {s' : ClassState}
    (hs' : w'.classes[id]? = some s') :
    (∃ s, w.classes[id]? = some s ∧ s'.cls = s.cls) ∨ s'.cls.interp < w.interps.size := by
  have hpersists := Persists.of_step hstep
  have hbefore : id < w.classes.size → ∃ s, w.classes[id]? = some s ∧ s'.cls = s.cls := by
    intro hlt
    obtain ⟨s'', hs'', hevolves⟩ := hpersists.classes id _ (Array.getElem?_eq_getElem hlt)
    cases hs'.symm.trans hs''
    exact ⟨_, Array.getElem?_eq_getElem hlt, hevolves.cls⟩
  have hlt := (Array.getElem?_eq_some_iff.mp hs').1
  rcases hstep.size_classes with hsize | ⟨c, attrs, rfl, hinterp⟩
  · exact Or.inl (hbefore (hsize ▸ hlt))
  · have hpush : (w.classes.push ⟨c, attrs, List.replicate c.vtable.size none⟩)[id]? = some s' :=
      hs'
    rw [Array.getElem?_push] at hpush
    split at hpush
    · cases hpush
      exact Or.inr hinterp
    · exact Or.inl (hbefore (Array.getElem?_eq_some_iff.mp hpush).1)

/-- A thread after a step was there before it, or was started by it. -/
theorem thread_before (hstep : Transition w R w' R') {index : Nat} {th' : DynThread}
    (hth' : w'.threads[index]? = some th') :
    (∃ th, w.threads[index]? = some th ∧ th'.interp = th.interp) ∨ th'.interp < w.interps.size := by
  have hsame : w'.threads = w.threads →
      ∃ th, w.threads[index]? = some th ∧ th'.interp = th.interp :=
    fun heq => ⟨th', heq ▸ hth', rfl⟩
  have hstored : ∀ (i : Nat) (th : DynThread) (state : ThreadState), w.threads[i]? = some th →
      w'.threads = w.threads.setIfInBounds i { th with state } →
      ∃ th, w.threads[index]? = some th ∧ th'.interp = th.interp := by
    intro i th state hth heq
    rw [heq, Array.getElem?_setIfInBounds] at hth'
    split at hth'
    · rename_i hi
      subst hi
      split at hth'
      · cases hth'
        exact ⟨th, hth, rfl⟩
      · cases hth'
    · exact ⟨th', hth', rfl⟩
  cases hstep with
  | quiet halike => exact Or.inl (hsame halike.threads)
  | letGo h =>
      obtain ⟨twins, journal, hframe⟩ := w.letGo_frame h
      exact Or.inl (hsame (by rw [hframe]))
  | mark =>
      obtain ⟨twins, journal, hframe⟩ := w.markBuilt_frame _ _ _
      exact Or.inl (hsame (by rw [hframe]))
  | endClass id =>
      obtain ⟨classes, hframe, -⟩ := w.endClass_frame id
      exact Or.inl (hsame (by rw [hframe]))
  | endNative id =>
      obtain ⟨declared, hframe⟩ := w.endNative_frame id
      exact Or.inl (hsame (by rw [hframe]))
  | @spawn _ i hinterp code =>
      have hpush : (w.threads.push ⟨i, code, .waiting⟩)[index]? = some th' := hth'
      rw [Array.getElem?_push] at hpush
      split at hpush
      · cases hpush
        exact Or.inr hinterp
      · exact Or.inl ⟨th', hpush, rfl⟩
  | endThread hth => exact Or.inl (hstored _ _ _ hth rfl)
  | takeResult hth => exact Or.inl (hstored _ _ _ hth rfl)
  | _ => exact Or.inl (hsame rfl)

end Transition

namespace World

/-- Whether all entries in the journal are in order. -/
def InOrder (w : World) : Prop :=
  ∀ e ∈ w.journal.toList, e.InOrder

variable {w w' : World}

theorem InOrder.of_eq (horder : w.InOrder) (hjournal : w'.journal = w.journal) : w'.InOrder := by
  rw [InOrder, hjournal]
  exact horder

theorem InOrder.record (horder : w.InOrder) {events : List Event}
    (hevents : ∀ e ∈ events, e.InOrder) : (w.record events).InOrder := by
  intro e he
  simp only [World.record, Array.toList_append, List.mem_append] at he
  rcases he with he | he
  · exact horder e he
  · exact hevents e he

theorem InOrder.letGo (horder : w.InOrder) (h : Handle) : (w.letGo h).1.InOrder := by
  unfold World.letGo
  split
  · exact horder.record (by simp [Event.InOrder])
  · rename_i a ha
    have hbase : (if a.tally h = 0 then w.record [.overdrawn h] else w).InOrder := by
      split
      · exact horder.record (by simp [Event.InOrder])
      · exact horder
    dsimp only
    split
    · refine InOrder.record (w := World.setTwin _ _ _) (hbase.of_eq rfl) ?_
      simp [Event.ofRazed, Event.InOrder]
    · exact hbase.of_eq rfl

theorem InOrder.markBuilt (horder : w.InOrder) (t : TwinId) (index : Nat) (base : NativeClass) :
    (Construction.markBuilt t index base w).InOrder := by
  unfold Construction.markBuilt
  dsimp only
  split
  · exact InOrder.of_eq (horder.record (by simp [Event.InOrder])) rfl
  · exact horder.of_eq rfl

end World

theorem Transition.inOrder {w w' : World} {R R' : Hold} (hstep : Transition w R w' R')
    (horder : w.InOrder) : w'.InOrder := by
  cases hstep with
  | quiet halike => exact horder.of_eq halike.journal
  | note text => exact horder.record (by simp [Event.InOrder])
  | panic => exact horder.record (by simp [Event.InOrder])
  | throw t => exact horder.record (by simp [Event.InOrder])
  | recover => exact horder.record (by simp [Event.InOrder])
  | enter hheld => exact horder.record (by simpa [Event.InOrder] using hheld)
  | passGate hleft => exact horder.record (by simpa [Event.InOrder] using hleft)
  | letGo h => exact horder.letGo h
  | build c => exact horder.record (by simp [Event.ofBuilt, Event.InOrder])
  | raze c => exact horder.record (by simp [Event.ofRazed, Event.InOrder])
  | mark => exact horder.markBuilt _ _ _
  | create =>
      exact World.InOrder.record (w := { w with twins := _ }) (horder.of_eq rfl)
        (by simp [Event.ofBuilt, Event.InOrder])
  | endClass id =>
      obtain ⟨classes, hframe, -⟩ := w.endClass_frame id
      exact horder.of_eq (by rw [hframe])
  | endNative id =>
      obtain ⟨declared, hframe⟩ := w.endNative_frame id
      exact horder.of_eq (by rw [hframe])
  | _ => exact horder.of_eq rfl

/-- What holds of interpreters, of all that is in them, and of all that was entered. -/
structure Homed (w : World) : Prop where
  seated : w.Seated
  twins : ∀ (t : TwinId) (a : Twin), w.twins[t]? = some a → w.Houses a.interp a.kind
  classes : ∀ (id : ClassId) (s : ClassState), w.classes[id]? = some s →
    s.cls.interp < w.interps.size
  threads : ∀ (index : Nat) (th : DynThread), w.threads[index]? = some th →
    th.interp < w.interps.size
  inOrder : w.InOrder

namespace Homed

variable {w w' : World} {R R' : Hold}

theorem initial : Homed .initial where
  seated := .initial
  twins t a ha := by simp [World.initial, World.declareInterp] at ha
  classes id s hs := by simp [World.initial, World.declareInterp] at hs
  threads index th hth := by simp [World.initial, World.declareInterp] at hth
  inOrder e he := by simp [World.initial, World.declareInterp] at he

theorem alike (hhomed : Homed w) (halike : w.Alike w') : Homed w' where
  seated := halike.seated hhomed.seated
  twins t a ha := (hhomed.twins t a (halike.twins ▸ ha)).mono (.alike halike)
  classes id s hs := (hhomed.classes id s (halike.classes ▸ hs)).trans_le halike.interps
  threads index th hth := (hhomed.threads index th (halike.threads ▸ hth)).trans_le halike.interps
  inOrder := hhomed.inOrder.of_eq halike.journal

theorem step (hhomed : Homed w) (hstep : Transition w R w' R') : Homed w' where
  seated := hstep.seated hhomed.seated
  twins t b hb := by
    apply World.Houses.mono _ (Persists.of_step hstep)
    rcases hstep.twin_before hb with ⟨a, ha, hevolves⟩ | ⟨-, -, -, -, -, hhouses⟩
    · rw [hevolves.interp, hevolves.kind]
      exact hhomed.twins t a ha
    · exact hhouses
  classes id s' hs' := by
    apply Nat.lt_of_lt_of_le _ (Persists.of_step hstep).interps
    rcases hstep.class_before hs' with ⟨s, hs, hcls⟩ | hinterp
    · rw [hcls]
      exact hhomed.classes id s hs
    · exact hinterp
  threads index th' hth' := by
    apply Nat.lt_of_lt_of_le _ (Persists.of_step hstep).interps
    rcases hstep.thread_before hth' with ⟨th, hth, hinterp⟩ | hinterp
    · rw [hinterp]
      exact hhomed.threads index th hth
    · exact hinterp
  inOrder := hstep.inOrder hhomed.inOrder

end Homed

end TwinObject
