/-
Exceptions in flight.  The journal tells which exception was raised and not caught
yet.  What the library does to a world by itself raises and catches nothing, and
declares no class.
-/
import Mathlib.Data.List.Induction
import TwinObject.Proofs.Path

namespace TwinObject

namespace Event

/-- The exception that is in flight after an event, if one was in flight before it. -/
def carry (flight : Option Thrown) : Event → Option Thrown
  | threw t => some t
  | caught => none
  | _ => flight

/-- The exception that is in flight after a part of the journal. -/
def flight (before : Option Thrown) (events : List Event) : Option Thrown :=
  events.foldl carry before

theorem flight_append (before : Option Thrown) (events more : List Event) :
    flight before (events ++ more) = flight (flight before events) more :=
  List.foldl_append

/-- Events that tell of no exception. -/
def Plain (events : List Event) : Prop :=
  ∀ e ∈ events, ∀ f, carry f e = f

theorem Plain.flight {events : List Event} (hplain : Plain events) (f : Option Thrown) :
    flight f events = f := by
  induction events with
  | nil => rfl
  | cons e events ih =>
      have hfirst : carry f e = f := hplain e List.mem_cons_self f
      rw [Event.flight, List.foldl_cons, hfirst]
      exact ih fun e he => hplain e (List.mem_cons_of_mem _ he)

/-- An exception is in flight if it is the last one that was raised, and nothing was caught
since. -/
theorem flight_eq_some_iff (events : List Event) (t : Thrown) :
    flight none events = some t
      ↔ ∃ before after, events = before ++ .threw t :: after ∧ Plain after := by
  constructor
  · intro hflight
    induction events using List.reverseRecOn with
    | nil => cases hflight
    | append_singleton events e ih =>
        -- The last event tells of no exception, or is the one that was raised.
        rw [flight_append] at hflight
        by_cases he : ∀ f, carry f e = f
        · have hbefore : flight none events = some t := (he _).symm.trans hflight
          obtain ⟨before, after, rfl, hplain⟩ := ih hbefore
          refine ⟨before, after ++ [e], by simp, fun e' he' => ?_⟩
          rcases List.mem_append.mp he' with he' | he'
          · exact hplain e' he'
          · rw [List.mem_singleton.mp he']
            exact he
        · cases e with
          | threw s =>
              obtain rfl : s = t := Option.some.inj hflight
              exact ⟨events, [], rfl, nofun⟩
          | caught => cases hflight
          | _ => exact absurd (fun _ => rfl) he
  · rintro ⟨before, after, rfl, hplain⟩
    rw [flight_append]
    exact hplain.flight (some t)

theorem Plain.map {α : Type} {g : α → Event} (hg : ∀ a f, carry f (g a) = f) (as : List α) :
    Plain (as.map g) := by
  intro e he
  obtain ⟨a, -, rfl⟩ := List.mem_map.mp he
  exact hg a

end Event

namespace World

/-- The dynamic classes that were declared, in order. -/
def dynamicClasses (w : World) : List DynamicClass :=
  w.classes.toList.map ClassState.cls

/-- Whether no dynamic class was declared between two worlds: there are the same classes,
registered for the same native ones, and no interpreter was told of more. -/
structure Steady (w u : World) : Prop where
  classes : u.dynamicClasses = w.dynamicClasses
  registry : u.registry = w.registry
  options : ∀ i < w.interps.size, i < u.interps.size ∧ (u.interp i).options = (w.interp i).options
  diagnostics : ∀ i, (u.interp i).diagnostics = (w.interp i).diagnostics

namespace Steady

variable {w u v : World}

theorem of_eq (hclasses : u.classes = w.classes) (hregistry : u.registry = w.registry)
    (hinterps : u.interps = w.interps) : w.Steady u where
  classes := by rw [dynamicClasses, hclasses, dynamicClasses]
  registry := hregistry
  options i hi := ⟨by rwa [hinterps], by rw [interp, hinterps, interp]⟩
  diagnostics i := by rw [interp, hinterps, interp]

theorem refl (w : World) : w.Steady w :=
  of_eq rfl rfl rfl

theorem trans (h : w.Steady u) (h' : u.Steady v) : w.Steady v where
  classes := h'.classes.trans h.classes
  registry := h'.registry.trans h.registry
  options i hi := by
    obtain ⟨hlt, hsame⟩ := h.options i hi
    obtain ⟨hlt', hsame'⟩ := h'.options i hlt
    exact ⟨hlt', hsame'.trans hsame⟩
  diagnostics i := (h'.diagnostics i).trans (h.diagnostics i)

/-- Locks and counters of an interpreter may change. -/
theorem modifyInterp (w : World) (i : InterpId) {f : Interp → Interp}
    (hoptions : ∀ s, (f s).options = s.options)
    (hdiagnostics : ∀ s, (f s).diagnostics = s.diagnostics) : w.Steady (w.modifyInterp i f) where
  classes := rfl
  registry := rfl
  options j hj := by
    refine ⟨by simpa [World.modifyInterp] using hj, ?_⟩
    rw [interp_modifyInterp]
    split
    · rename_i h
      rw [hoptions, h.1]
    · rfl
  diagnostics j := by
    rw [interp_modifyInterp]
    split
    · rename_i h
      rw [hdiagnostics, h.1]
    · rfl

/-- The state of a class may change, but not the class. -/
theorem setClass {id : ClassId} {s s' : ClassState} (hs : w.classes[id]? = some s)
    (hcls : s'.cls = s.cls) : w.Steady (w.setClass id s') where
  classes := by
    obtain ⟨hlt, rfl⟩ := Array.getElem?_eq_some_iff.mp hs
    have hmapped : id < (w.classes.toList.map ClassState.cls).length := by simpa using hlt
    rw [dynamicClasses, World.setClass, Array.toList_setIfInBounds, List.map_set, hcls]
    refine Eq.trans ?_ (List.set_getElem_self hmapped)
    simp
  registry := rfl
  options _ hi := ⟨hi, rfl⟩
  diagnostics _ := rfl

theorem modifyClass (w : World) (id : ClassId) {f : ClassState → ClassState}
    (hcls : ∀ s, (f s).cls = s.cls) :
    w.Steady { w with classes := w.classes.modify id f } := by
  cases hs : w.classes[id]? with
  | none => exact of_eq (modify_of_none hs f) rfl rfl
  | some s =>
      rw [modify_eq_setIfInBounds hs]
      exact setClass hs (hcls s)

end Steady

/-- Whether code that is on its way from one world to another declares nothing, and what
is in flight there is what its own part of the journal says. -/
structure Bears (w : World) (f : Option Thrown) (u : World) (g : Option Thrown) : Prop where
  steady : w.Steady u
  journal : ∃ events, u.journal.toList = w.journal.toList ++ events ∧ Event.flight f events = g

theorem Bears.trans {w u v : World} {f g k : Option Thrown} (h : w.Bears f u g)
    (h' : u.Bears g v k) : w.Bears f v k where
  steady := h.steady.trans h'.steady
  journal := by
    obtain ⟨events, hu, rfl⟩ := h.journal
    obtain ⟨more, hv, rfl⟩ := h'.journal
    refine ⟨events ++ more, ?_, Event.flight_append f events more⟩
    rw [hv, hu, List.append_assoc]

/-- The journal of two worlds determines what is in flight in between. -/
theorem Bears.flight {w u : World} {f g : Option Thrown} (h : w.Bears f u g) :
    Event.flight f (u.journal.toList.drop w.journal.size) = g := by
  obtain ⟨events, hu, hflight⟩ := h.journal
  rw [hu, List.drop_left' Array.length_toList, hflight]

theorem Bears.threw (w : World) (f : Option Thrown) (t : Thrown) :
    w.Bears f (w.record [.threw t]) (some t) :=
  ⟨.of_eq rfl rfl rfl, [.threw t], by simp [record], rfl⟩

theorem Bears.caught (w : World) (f : Option Thrown) : w.Bears f (w.record [.caught]) none :=
  ⟨.of_eq rfl rfl rfl, [.caught], by simp [record], rfl⟩

/-- Whether nothing was declared, raised or caught between two worlds. -/
structure Silent (w u : World) : Prop where
  steady : w.Steady u
  journal : ∃ events, u.journal.toList = w.journal.toList ++ events ∧ Event.Plain events

namespace Silent

variable {w u v : World}

theorem bears (h : w.Silent u) (f : Option Thrown) : w.Bears f u f := by
  obtain ⟨events, hu, hplain⟩ := h.journal
  exact ⟨h.steady, events, hu, hplain.flight f⟩

theorem of_steady (hsteady : w.Steady u) (hjournal : u.journal = w.journal) : w.Silent u :=
  ⟨hsteady, [], by rw [hjournal, List.append_nil], nofun⟩

theorem of_eq (hclasses : u.classes = w.classes) (hregistry : u.registry = w.registry)
    (hinterps : u.interps = w.interps) (hjournal : u.journal = w.journal) : w.Silent u :=
  of_steady (.of_eq hclasses hregistry hinterps) hjournal

theorem refl (w : World) : w.Silent w :=
  of_eq rfl rfl rfl rfl

theorem trans (h : w.Silent u) (h' : u.Silent v) : w.Silent v where
  steady := h.steady.trans h'.steady
  journal := by
    obtain ⟨events, hu, hplain⟩ := h.journal
    obtain ⟨more, hv, hplain'⟩ := h'.journal
    refine ⟨events ++ more, by rw [hv, hu, List.append_assoc], fun e he => ?_⟩
    rcases List.mem_append.mp he with he | he
    · exact hplain e he
    · exact hplain' e he

theorem record (w : World) {events : List Event} (hplain : Event.Plain events) :
    w.Silent (w.record events) :=
  ⟨.of_eq rfl rfl rfl, events, by simp [World.record], hplain⟩

/-- An event that tells of no exception. -/
theorem tell (w : World) {e : Event} (he : ∀ f, Event.carry f e = f) : w.Silent (w.record [e]) :=
  record w fun _ hmem => by
    rw [List.mem_singleton.mp hmem]
    exact he

theorem modifyInterp (w : World) (i : InterpId) {f : Interp → Interp}
    (hoptions : ∀ s, (f s).options = s.options)
    (hdiagnostics : ∀ s, (f s).diagnostics = s.diagnostics) : w.Silent (w.modifyInterp i f) :=
  of_steady (.modifyInterp w i hoptions hdiagnostics) rfl

theorem setLock (w : World) (i : InterpId) (l : Lock) : w.Silent (w.setLock i l) :=
  modifyInterp w i (fun _ => rfl) fun _ => rfl

theorem count (w : World) (i : InterpId) (f : Counters → Counters) : w.Silent (w.count i f) :=
  modifyInterp w i (fun _ => rfl) fun _ => rfl

theorem modifyTwin (w : World) (t : TwinId) (f : Twin → Twin) : w.Silent (w.modifyTwin t f) :=
  of_eq rfl rfl rfl rfl

theorem retain (w : World) (h : Handle) : w.Silent (w.retain h) :=
  modifyTwin w h.twin (Twin.retain h)

theorem retainAll (w : World) (hs : List Handle) : w.Silent (w.retainAll hs) := by
  induction hs generalizing w with
  | nil => exact refl w
  | cons h hs ih => exact (retain w h).trans (ih (w.retain h))

section Releases

theorem setTwin (w : World) (t : TwinId) (a : Twin) : w.Silent (w.setTwin t a) :=
  of_eq rfl rfl rfl rfl

theorem release (w : World) (t : TwinId) (a : Twin) : w.Silent (w.release t a).1 := by
  refine (setTwin w t a.emptied).trans (record _ fun e he => ?_)
  rcases List.mem_cons.mp he with rfl | he
  · exact fun _ => rfl
  · exact Event.Plain.map (fun _ _ => rfl) a.razedSegments e he

theorem letGo (w : World) (h : Handle) : w.Silent (w.letGo h).1 := by
  unfold World.letGo
  split
  · exact tell w fun _ => rfl
  · rename_i a ha
    have hcounted : w.Silent (if a.tally h = 0 then w.record [.overdrawn h] else w) := by
      split
      · exact tell w fun _ => rfl
      · exact refl w
    dsimp only
    split
    · exact hcounted.trans (release _ h.twin (a.forget h))
    · exact hcounted.trans (setTwin _ _ _)

theorem endClass (w : World) (id : ClassId) : w.Silent (World.endClass id w).1 := by
  unfold World.endClass
  split
  · exact refl w
  · rename_i s hs
    split
    · exact refl w
    · exact of_steady (Steady.setClass hs rfl) rfl

theorem endNative (w : World) (id : NativeId) : w.Silent (World.endNative id w).1 := by
  obtain ⟨declared, hframe⟩ := w.endNative_frame id
  rw [hframe]
  exact of_eq rfl rfl rfl rfl

theorem endEach {α : Type} {f : α → World → World × List Handle}
    (hf : ∀ (a : α) (w : World), w.Silent (f a w).1) (as : List α) (w : World) :
    w.Silent (World.endEach f as w).1 := by
  induction as generalizing w with
  | nil => exact refl w
  | cons a as ih => exact (hf a w).trans (ih (f a w).1)

theorem forsake (w : World) (k : Kind) : w.Silent (World.forsake k w).1 := by
  cases k with
  | native c => exact endEach (fun id w => endNative w id) _ w
  | dynamic c => exact endEach (fun id w => endClass w id) _ w

theorem letKindGo (w : World) (t : TwinId) : w.Silent (w.letKindGo t).1 := by
  unfold World.letKindGo
  split
  · exact refl w
  · rename_i a ha
    split
    · exact (setTwin w t { a with stage := .gone }).trans (forsake _ _)
    · exact refl w

theorem settle (w : World) (ds : List Due) : w.Silent (w.settle ds) := by
  fun_induction World.settle w ds with
  | case1 w => exact refl w
  | case2 w d ds ih =>
      have hfirst : w.Silent (w.settleOne d).1 := by
        cases d with
        | handle h => exact letGo w h
        | kind t => exact letKindGo w t
      exact hfirst.trans ih

theorem drop (w : World) (hs : List Handle) : w.Silent (w.drop hs) :=
  settle w _

theorem dropKind (w : World) (k : Kind) : w.Silent (World.dropKind k w) :=
  (forsake w k).trans (drop _ _)

theorem lend (w : World) (k : Kind) : w.Silent (World.lend k w) :=
  of_eq rfl rfl rfl rfl

theorem takeBack (w : World) (k : Kind) : w.Silent (World.takeBack k w) :=
  (of_eq rfl rfl rfl rfl : w.Silent { w with lent := w.lent.eraseP k.same }).trans (dropKind _ k)

end Releases

section Twins

theorem admitTwin (w : World) (a : Twin) : w.Silent (w.admitTwin a).1 :=
  (of_eq rfl rfl rfl rfl : w.Silent { w with twins := w.twins.push a }).trans
    (record _ (Event.Plain.map (fun _ _ => rfl) _))

theorem create (w : World) (interp : InterpId) (kind : Kind) (owner : Ownership) :
    w.Silent (w.create interp kind owner).1 :=
  (retainAll w _).trans (admitTwin _ _)

theorem storeClassAttr (w : World) (id : ClassId) (name : String) (v : DynValue) :
    w.Silent (w.storeClassAttr id name v) := by
  have hbound := Steady.modifyClass w id (f := fun s => { s with attrs := s.attrs.put name v })
    fun _ => rfl
  exact (of_steady hbound rfl).trans (drop _ _)

theorem asNative (w : World) (t : TwinId) : w.Silent (w.asNative t) :=
  (retain w _).trans (drop _ _)

theorem markBuilt (w : World) (t : TwinId) (index : Nat) (base : NativeClass) :
    w.Silent (Construction.markBuilt t index base w) := by
  unfold Construction.markBuilt
  dsimp only
  split
  · exact (tell w fun _ => rfl).trans (modifyTwin _ t _)
  · exact modifyTwin w t _

theorem resetSegment (w : World) (s : Site) : w.Silent (Construction.resetSegment s w) := by
  unfold Construction.resetSegment
  split
  · exact tell w fun _ => rfl
  · exact ((retainAll w _).trans (modifyTwin _ _ _)).trans (drop _ _)

theorem unwind (w : World) (built : List NativeClass) :
    w.Silent (Construction.unwind built w) :=
  record w (Event.Plain.map (fun _ _ => rfl) _)

end Twins

section Containers

theorem vecClear (w : World) (i : Nat) : w.Silent (World.vecClear i w) :=
  (of_eq rfl rfl rfl rfl : w.Silent (w.setItems i [])).trans (drop _ _)

theorem holdVec (w : World) (i : Nat) : w.Silent (World.holdVec i w) :=
  of_eq rfl rfl rfl rfl

theorem cloneShared (w : World) (i : Nat) : w.Silent (World.cloneShared i w) :=
  of_eq rfl rfl rfl rfl

theorem leaveVec (w : World) (i : Nat) : w.Silent (World.leaveVec i w) := by
  have hless : w.Silent
      { w with vecs := w.vecs.modify i fun v => { v with holders := v.holders - 1 } } :=
    of_eq rfl rfl rfl rfl
  unfold World.leaveVec
  dsimp only
  split
  · exact hless.trans (vecClear _ i)
  · exact hless

theorem dropShared (w : World) (i : Nat) : w.Silent (World.dropShared i w) := by
  have hless : w.Silent
      { w with groups := w.groups.modify i fun g => { g with count := g.count - 1 } } :=
    of_eq rfl rfl rfl rfl
  unfold World.dropShared
  dsimp only
  split
  · exact hless.trans (drop _ _)
  · exact hless

theorem takeResult (w : World) (i : Nat) : w.Silent (World.takeResult i w).2 := by
  unfold World.takeResult
  split
  · exact of_eq rfl rfl rfl rfl
  · exact refl w

theorem dropBinding (w : World) (b : Binding) : w.Silent (World.dropBinding b w) := by
  cases b with
  | dyn v => exact drop w _
  | native v => exact drop w _
  | vec i => exact leaveVec w i
  | shared i => exact dropShared w i
  | signal _ => exact refl w
  | thread i =>
      have htaken := takeResult w i
      unfold World.dropBinding
      dsimp only
      generalize World.takeResult i w = r at htaken
      split
      · exact htaken.trans (drop _ _)
      · exact htaken

theorem setVar (w : World) (x : String) (b : Binding) : w.Silent (World.setVar x b w) := by
  have hbound : w.Silent { w with scope := { w.scope with vars := w.scope.vars.put x b } } :=
    of_eq rfl rfl rfl rfl
  unfold World.setVar
  cases w.var? x with
  | none => exact hbound
  | some old => exact hbound.trans (dropBinding _ old)

end Containers

theorem onThread (w : World) (current next : ThreadId) :
    w.Silent { w with currentThread := current, nextThread := next } :=
  of_eq rfl rfl rfl rfl

theorem setGate (w : World) (g : Gate) (isOpen : Bool) : w.Silent (w.setGate g isOpen) :=
  of_eq rfl rfl rfl rfl

theorem setSignal (w : World) (i : Nat) :
    w.Silent { w with signals := w.signals.set! i true } :=
  of_eq rfl rfl rfl rfl

end Silent

end World

end TwinObject
