/-
Handle accounting.  The counts of a twin are the handles to it that exist, at
rest in the world or in running code; it is live as long as there are any, its
release is recorded once, and no handle is ever let go without being counted.
-/
import TwinObject.Proofs.Transition

namespace TwinObject

namespace Twin

theorem tally_retain {h h' : Handle} (htwin : h'.twin = h.twin) (t : Twin) :
    (t.retain h).tally h' = t.tally h' + if h = h' then 1 else 0 := by
  cases h <;> cases h' <;> simp_all [retain, tally, Handle.twin]

theorem tally_forget {h h' : Handle} (htwin : h'.twin = h.twin) (t : Twin) :
    (t.forget h).tally h' = t.tally h' - if h = h' then 1 else 0 := by
  cases h <;> cases h' <;> simp_all [forget, tally, Handle.twin]

@[simp] theorem contents_retain (h : Handle) (t : Twin) : (t.retain h).contents = t.contents := by
  cases h <;> rfl

@[simp] theorem stage_retain (h : Handle) (t : Twin) : (t.retain h).stage = t.stage := by
  cases h <;> rfl

@[simp] theorem contents_emptied (t : Twin) : t.emptied.contents = [] := by
  simp [emptied, contents]

/-- A twin is counted as long as some handle to it is. -/
theorem counted_iff (t : Twin) (i : TwinId) :
    t.nativeCount ≠ 0 ∨ t.dynamicCount ≠ 0 ↔ ∃ h : Handle, h.twin = i ∧ t.tally h ≠ 0 := by
  constructor
  · rintro (hnative | hdynamic)
    · exact ⟨.native i, rfl, hnative⟩
    · exact ⟨.dynamic i, rfl, hdynamic⟩
  · rintro ⟨h, -, htally⟩
    cases h with
    | native => exact Or.inl htally
    | dynamic => exact Or.inr htally

end Twin

namespace World

variable {w : World}

/-- How many handles equal to `h` are counted. -/
def tally (w : World) (h : Handle) : Nat :=
  (w.twins[h.twin]?).elim 0 (Twin.tally h)

/-- How often the release of a twin is recorded. -/
def releaseCount (w : World) (t : TwinId) : Nat :=
  w.journal.toList.count (.released t)

theorem tally_eq {h : Handle} {twin : Twin} (htwin : w.twins[h.twin]? = some twin) :
    w.tally h = twin.tally h := by
  simp [tally, htwin]

theorem exists_twin_of_tally {h : Handle} (htally : w.tally h ≠ 0) :
    ∃ twin, w.twins[h.twin]? = some twin := by
  cases htwin : w.twins[h.twin]? with
  | none => simp [tally, htwin] at htally
  | some twin => exact ⟨twin, rfl⟩

theorem tally_setTwin {t : TwinId} {twin : Twin} (htwin : w.twins[t]? = some twin) (a : Twin)
    (h : Handle) : (w.setTwin t a).tally h = if t = h.twin then a.tally h else w.tally h := by
  rw [tally, getElem?_setTwin htwin]
  by_cases ht : t = h.twin <;> simp [ht, tally]

theorem rootBag_setTwin {t : TwinId} {twin : Twin} (htwin : w.twins[t]? = some twin) (a : Twin) :
    (w.setTwin t a).rootBag + ↑twin.contents = w.rootBag + ↑a.contents := by
  have hset := bag_set Twin.contents htwin a
  simp only [rootBag, setTwin, Array.set!_eq_setIfInBounds, varBag]
  ext h
  have hcount := congrArg (Multiset.count h) hset
  simp only [Multiset.count_add] at hcount ⊢
  omega

theorem rootBag_setTwin_of_eq {t : TwinId} {twin : Twin} (htwin : w.twins[t]? = some twin)
    {a : Twin} (ha : a.contents = twin.contents) : (w.setTwin t a).rootBag = w.rootBag := by
  have hset := rootBag_setTwin htwin a
  rw [ha] at hset
  exact add_right_cancel hset

theorem tally_admitTwin (w : World) (a : Twin) (h : Handle) :
    (w.admitTwin a).1.tally h = if w.twins.size = h.twin then a.tally h else w.tally h := by
  have hpush : (w.admitTwin a).1.tally h = ((w.twins.push a)[h.twin]?).elim 0 (Twin.tally h) := rfl
  rw [hpush, Array.getElem?_push]
  by_cases ht : w.twins.size = h.twin
  · rw [if_pos ht.symm, if_pos ht]
    rfl
  · rw [if_neg fun heq => ht heq.symm, if_neg ht]
    rfl

section Arrays

theorem rootBag_setClass {id : ClassId} {s : ClassState} (hs : w.classes[id]? = some s)
    (a : ClassState) : (w.setClass id a).rootBag + ↑s.handles = w.rootBag + ↑a.handles := by
  have hset := bag_set ClassState.handles hs a
  ext h
  have hcount := congrArg (Multiset.count h) hset
  simp only [rootBag, setClass, varBag, Multiset.count_add] at hcount ⊢
  omega

theorem rootBag_setDeclared {i : Nat} {s : NativeState} (hs : w.declared[i]? = some s)
    (a : NativeState) :
    { w with declared := w.declared.setIfInBounds i a }.rootBag + ↑s.kept
      = w.rootBag + ↑a.kept := by
  have hset := bag_set NativeState.kept hs a
  ext h
  have hcount := congrArg (Multiset.count h) hset
  simp only [rootBag, varBag, Multiset.count_add] at hcount ⊢
  omega

theorem rootBag_setVec {i : Nat} {v : InstanceVec} (hv : w.vecs[i]? = some v) (a : InstanceVec) :
    { w with vecs := w.vecs.setIfInBounds i a }.rootBag + ↑v.handles = w.rootBag + ↑a.handles := by
  have hset := bag_set InstanceVec.handles hv a
  ext h
  have hcount := congrArg (Multiset.count h) hset
  simp only [rootBag, varBag, Multiset.count_add] at hcount ⊢
  omega

theorem rootBag_modifyVec (i : Nat) (f : InstanceVec → InstanceVec)
    (hf : ∀ v, (f v).handles = v.handles) :
    { w with vecs := w.vecs.modify i f }.rootBag = w.rootBag := by
  simp only [rootBag, varBag, bag_modify_of_eq InstanceVec.handles fun v _ => hf v]

theorem rootBag_setGroup {i : Nat} {g : SharedGroup} (hg : w.groups[i]? = some g)
    (a : SharedGroup) :
    { w with groups := w.groups.setIfInBounds i a }.rootBag + ↑g.handles
      = w.rootBag + ↑a.handles := by
  have hset := bag_set SharedGroup.handles hg a
  ext h
  have hcount := congrArg (Multiset.count h) hset
  simp only [rootBag, varBag, Multiset.count_add] at hcount ⊢
  omega

theorem rootBag_setThread {i : Nat} {th : DynThread} (hth : w.threads[i]? = some th)
    (a : DynThread) :
    { w with threads := w.threads.setIfInBounds i a }.rootBag + ↑th.state.handles
      = w.rootBag + ↑a.state.handles := by
  have hset := bag_set (fun th : DynThread => th.state.handles) hth a
  ext h
  have hcount := congrArg (Multiset.count h) hset
  simp only [rootBag, varBag, Multiset.count_add] at hcount ⊢
  omega

theorem rootBag_put (w : World) (x : String) (b : Binding) :
    (w.setVars (w.scope.vars.put x b)).rootBag + ((w.var? x).elim 0 fun old => ↑old.handles)
      = w.rootBag + ↑b.handles := by
  have hput := Bindings.total_put (fun b : Binding => (↑b.handles : Multiset Handle)) x b
    w.scope.vars
  ext h
  have hcount := congrArg (Multiset.count h) hput
  simp only [rootBag, setVars, varBag, var?, Multiset.count_add] at hcount ⊢
  omega

theorem rootBag_erase (x : String) (hnames : (w.scope.vars.map Prod.fst).Nodup) :
    (w.setVars (w.scope.vars.erase x)).rootBag + ((w.var? x).elim 0 fun old => ↑old.handles)
      = w.rootBag := by
  have herase := Bindings.total_erase (fun b : Binding => (↑b.handles : Multiset Handle)) x hnames
  ext h
  have hcount := congrArg (Multiset.count h) herase
  simp only [rootBag, setVars, varBag, var?, Multiset.count_add] at hcount ⊢
  omega

end Arrays

@[simp] theorem handles_bindingHold (w : World) (b : Binding) :
    (w.bindingHold b).handles = ↑b.handles := by
  cases b <;> simp [bindingHold, Binding.handles]

theorem handles_varHold (w : World) (x : String) :
    (w.varHold x).handles = (w.var? x).elim 0 fun old => ↑old.handles := by
  cases hold : w.var? x <;> simp [varHold, hold]

theorem rootBag_admitTwin (w : World) (a : Twin) :
    (w.admitTwin a).1.rootBag = w.rootBag + ↑a.contents := by
  have hpush : (w.admitTwin a).1.rootBag = { w with twins := w.twins.push a }.rootBag := rfl
  rw [hpush]
  simp only [rootBag, bag_push, varBag]
  abel

@[simp] theorem rootBag_record (w : World) (events : List Event) :
    (w.record events).rootBag = w.rootBag := rfl

@[simp] theorem tally_record (w : World) (events : List Event) (h : Handle) :
    (w.record events).tally h = w.tally h := rfl

@[simp] theorem journal_record (w : World) (events : List Event) :
    (w.record events).journal.toList = w.journal.toList ++ events := by
  simp [record]

theorem releaseCount_record {events : List Event} {t : TwinId} (hnot : .released t ∉ events) :
    (w.record events).releaseCount t = w.releaseCount t := by
  rw [releaseCount, journal_record, List.count_append, List.count_eq_zero.mpr hnot, Nat.add_zero]
  rfl

/-- Releasing a twin is recorded once more, and no other release is. -/
theorem releaseCount_release (w : World) (t i : TwinId) (twin : Twin) :
    (w.release t twin).1.releaseCount i = w.releaseCount i + if t = i then 1 else 0 := by
  have hrazed : .released i ∉ twin.razedSegments.map Event.ofRazed := by
    simp [Event.ofRazed]
  rw [release, releaseCount, journal_record, List.count_append, List.count_cons,
    List.count_eq_zero.mpr hrazed]
  simp [releaseCount, setTwin]

end World

/-- The accounts of a state. -/
structure Accounts (w : World) (R : Hold) : Prop where
  counted : ∀ h, w.tally h = (w.rootBag + R.handles).count h
  live : ∀ (t : TwinId) (twin : Twin), w.twins[t]? = some twin →
    (twin.stage = .live ↔ twin.nativeCount ≠ 0 ∨ twin.dynamicCount ≠ 0)
  emptied : ∀ (t : TwinId) (twin : Twin), w.twins[t]? = some twin →
    twin.stage ≠ .live → twin.contents = []
  released : ∀ (t : TwinId) (twin : Twin), w.twins[t]? = some twin →
    w.releaseCount t = if twin.stage = .live then 0 else 1
  unborn : ∀ (t : TwinId), w.twins[t]? = none → w.releaseCount t = 0
  covered : ∀ h, .overdrawn h ∉ w.journal.toList

namespace Accounts

variable {w w' : World} {R R' : Hold} {h : Handle} {twin : Twin}

theorem initial : Accounts .initial 0 where
  counted h := by simp [World.tally, World.initial, World.declareInterp, World.rootBag, bag,
    World.varBag, Bindings.total]
  live t twin htwin := by simp [World.initial, World.declareInterp] at htwin
  emptied t twin htwin := by simp [World.initial, World.declareInterp] at htwin
  released t twin htwin := by simp [World.initial, World.declareInterp] at htwin
  unborn t _ := by simp [World.releaseCount, World.initial, World.declareInterp]
  covered h := by simp [World.initial, World.declareInterp]

/-- A twin to which there is a handle is live. -/
theorem live_of_held (ha : Accounts w R) {t : TwinId} (hheld : w.Held R t) :
    ∃ twin, w.twins[t]? = some twin ∧ twin.stage = .live := by
  obtain ⟨h, hmem, rfl⟩ := hheld
  have htally : w.tally h ≠ 0 := by
    rw [ha.counted]
    exact Multiset.count_ne_zero.mpr hmem
  obtain ⟨twin, htwin⟩ := World.exists_twin_of_tally htally
  rw [World.tally_eq htwin] at htally
  exact ⟨twin, htwin, (ha.live _ twin htwin).mpr ((twin.counted_iff _).mpr ⟨h, rfl, htally⟩)⟩

/-- The twins stay as they are, and handles only change hands. -/
theorem of_twins_eq (ha : Accounts w R) (htwins : w'.twins = w.twins)
    (hjournal : w'.journal = w.journal)
    (hbag : w'.rootBag + R'.handles = w.rootBag + R.handles) : Accounts w' R' where
  counted h := by
    rw [hbag, ← ha.counted h, World.tally, World.tally, htwins]
  live t twin htwin := ha.live t twin (htwins ▸ htwin)
  emptied t twin htwin := ha.emptied t twin (htwins ▸ htwin)
  released t twin htwin := by
    rw [← ha.released t twin (htwins ▸ htwin), World.releaseCount, World.releaseCount, hjournal]
  unborn t hnone := by
    rw [← ha.unborn t (htwins ▸ hnone), World.releaseCount, World.releaseCount, hjournal]
  covered h := hjournal ▸ ha.covered h

/-- Records of anything but releases do not count. -/
theorem record (ha : Accounts w R) {events : List Event} (hreleased : ∀ t, .released t ∉ events)
    (hoverdrawn : ∀ h, .overdrawn h ∉ events) : Accounts (w.record events) R where
  counted h := ha.counted h
  live := ha.live
  emptied := ha.emptied
  released t twin htwin := by
    rw [World.releaseCount_record (hreleased t)]
    exact ha.released t twin htwin
  unborn t hnone := by
    rw [World.releaseCount_record (hreleased t)]
    exact ha.unborn t hnone
  covered h := by
    rw [World.journal_record, List.mem_append, not_or]
    exact ⟨ha.covered h, hoverdrawn h⟩

/-- One twin changes, but neither its counts nor whether it is live; what goes
out of it is held, what comes in was held. -/
theorem setTwin (ha : Accounts w R) {t : TwinId} {twin a : Twin} (htwin : w.twins[t]? = some twin)
    (hnative : a.nativeCount = twin.nativeCount) (hdynamic : a.dynamicCount = twin.dynamicCount)
    (hstage : a.stage = .live ↔ twin.stage = .live) (hempty : a.stage ≠ .live → a.contents = [])
    (hbag : (↑a.contents : Multiset Handle) + R'.handles = ↑twin.contents + R.handles) :
    Accounts (w.setTwin t a) R' where
  counted h := by
    have htally : (w.setTwin t a).tally h = w.tally h := by
      rw [World.tally_setTwin htwin]
      by_cases ht : t = h.twin
      · subst ht
        rw [if_pos rfl, World.tally_eq htwin]
        cases h <;> simp [Twin.tally, hnative, hdynamic]
      · rw [if_neg ht]
    have hroots := congrArg (Multiset.count h) (World.rootBag_setTwin htwin a)
    have hmoved := congrArg (Multiset.count h) hbag
    have hcounted := ha.counted h
    simp only [Multiset.count_add] at hroots hmoved hcounted ⊢
    omega
  live i b hb := by
    rcases World.of_getElem?_setTwin htwin hb with ⟨rfl, rfl⟩ | ⟨-, hb⟩
    · rw [hstage, hnative, hdynamic]
      exact ha.live t twin htwin
    · exact ha.live i b hb
  emptied i b hb := by
    rcases World.of_getElem?_setTwin htwin hb with ⟨rfl, rfl⟩ | ⟨-, hb⟩
    · exact hempty
    · exact ha.emptied i b hb
  released i b hb := by
    rcases World.of_getElem?_setTwin htwin hb with ⟨rfl, rfl⟩ | ⟨-, hb⟩
    · simp only [hstage]
      exact ha.released t twin htwin
    · exact ha.released i b hb
  unborn i hnone := ha.unborn i (World.none_of_setTwin htwin hnone)
  covered := ha.covered

theorem retain (ha : Accounts w R) (hheld : w.Held R h.twin) :
    Accounts (w.retain h) (R + {.handle h}) := by
  obtain ⟨twin, htwin, hlive⟩ := ha.live_of_held hheld
  have hstage : (twin.retain h).stage = .live := by
    rw [Twin.stage_retain]
    exact hlive
  rw [World.retain, World.modifyTwin_eq htwin]
  exact {
    counted := fun h' => by
      have hcounted := ha.counted h'
      rw [World.tally_setTwin htwin,
        World.rootBag_setTwin_of_eq htwin (Twin.contents_retain h twin)]
      by_cases ht : h.twin = h'.twin
      · rw [World.tally_eq (ht ▸ htwin)] at hcounted
        rw [if_pos ht, Twin.tally_retain ht.symm, hcounted]
        simp [Multiset.count_singleton, eq_comm, add_assoc]
      · have hne : h' ≠ h := fun heq => ht (heq ▸ rfl)
        rw [if_neg ht, hcounted]
        simp [hne]
    live := fun t b hb => by
      rcases World.of_getElem?_setTwin htwin hb with ⟨-, rfl⟩ | ⟨-, hb⟩
      · rw [hstage]
        cases h <;> simp [Twin.retain]
      · exact ha.live t b hb
    emptied := fun t b hb hgone => by
      rcases World.of_getElem?_setTwin htwin hb with ⟨-, rfl⟩ | ⟨-, hb⟩
      · exact absurd hstage hgone
      · exact ha.emptied t b hb hgone
    released := fun t b hb => by
      rcases World.of_getElem?_setTwin htwin hb with ⟨rfl, rfl⟩ | ⟨-, hb⟩
      · rw [Twin.stage_retain]
        exact ha.released _ twin htwin
      · exact ha.released t b hb
    unborn := fun t hnone => ha.unborn t (World.none_of_setTwin htwin hnone)
    covered := ha.covered }

/-- The counts once a handle that was held is let go. -/
theorem counted_forget (ha : Accounts w (R + {.handle h})) {twin : Twin}
    (htwin : w.twins[h.twin]? = some twin) (h' : Handle) :
    (w.setTwin h.twin (twin.forget h)).tally h' = (w.rootBag + R.handles).count h' := by
  have hcounted := ha.counted h'
  rw [World.tally_setTwin htwin]
  by_cases ht : h.twin = h'.twin
  · rw [World.tally_eq (ht ▸ htwin)] at hcounted
    rw [if_pos ht, Twin.tally_forget ht.symm, hcounted]
    simp [Multiset.count_singleton, eq_comm, ← add_assoc]
  · have hne : h' ≠ h := fun heq => ht (heq ▸ rfl)
    rw [if_neg ht, hcounted]
    simp [hne]

/-- A twin that keeps its contents when a handle to it is let go. -/
theorem forget (ha : Accounts w (R + {.handle h})) {twin : Twin}
    (htwin : w.twins[h.twin]? = some twin) (hdue : (twin.forget h).isDue = false)
    (hlive : twin.stage = .live) : Accounts (w.setTwin h.twin (twin.forget h)) R where
  counted h' := by
    rw [World.rootBag_setTwin_of_eq htwin (Twin.contents_forget h twin)]
    exact ha.counted_forget htwin h'
  live t b hb := by
    rcases World.of_getElem?_setTwin htwin hb with ⟨-, rfl⟩ | ⟨-, hb⟩
    · rw [Twin.stage_forget, hlive]
      simp only [Twin.isDue, Twin.stage_forget, hlive] at hdue
      simp only [true_iff]
      by_contra hzero
      simp only [not_or, not_not] at hzero
      simp [hzero] at hdue
    · exact ha.live t b hb
  emptied t b hb hgone := by
    rcases World.of_getElem?_setTwin htwin hb with ⟨-, rfl⟩ | ⟨-, hb⟩
    · exact absurd ((Twin.stage_forget h twin).trans hlive) hgone
    · exact ha.emptied t b hb hgone
  released t b hb := by
    rcases World.of_getElem?_setTwin htwin hb with ⟨rfl, rfl⟩ | ⟨-, hb⟩
    · rw [Twin.stage_forget]
      exact ha.released _ twin htwin
    · exact ha.released t b hb
  unborn t hnone := ha.unborn t (World.none_of_setTwin htwin hnone)
  covered := ha.covered

/-- A twin that is released when the last handle to it is let go; what it
contained is still to be let go. -/
theorem release (ha : Accounts w (R + {.handle h})) {twin : Twin}
    (htwin : w.twins[h.twin]? = some twin) (hdue : (twin.forget h).isDue) :
    Accounts (w.release h.twin (twin.forget h)).1 (R + .ofHandles (twin.forget h).contents) := by
  simp only [Twin.isDue, Twin.stage_forget, Bool.and_eq_true, decide_eq_true_eq] at hdue
  have hcount (i : TwinId) : (w.release h.twin (twin.forget h)).1.releaseCount i
      = w.releaseCount i + if h.twin = i then 1 else 0 :=
    World.releaseCount_release w h.twin i (twin.forget h)
  exact {
    counted := fun h' => by
      have hcounted := ha.counted_forget htwin h'
      have hroots := congrArg (Multiset.count h')
        (World.rootBag_setTwin htwin (twin.forget h).emptied)
      have hsame : ((w.release h.twin (twin.forget h)).1).tally h'
          = (w.setTwin h.twin (twin.forget h)).tally h' := by
        simp only [World.release, World.tally_record, World.tally_setTwin htwin]
        cases h' <;> rfl
      rw [hsame, hcounted]
      simp only [World.release, World.rootBag_record, Twin.contents_forget,
        Hold.handles, Hold.handles_ofHandles, Multiset.filterMap_add, Multiset.count_add,
        Twin.contents_emptied, Multiset.coe_nil, Multiset.count_zero] at hroots ⊢
      omega
    live := fun t b hb => by
      rcases World.of_getElem?_setTwin htwin hb with ⟨-, rfl⟩ | ⟨-, hb⟩
      · simp [Twin.emptied, hdue.1]
      · exact ha.live t b hb
    emptied := fun t b hb hgone => by
      rcases World.of_getElem?_setTwin htwin hb with ⟨-, rfl⟩ | ⟨-, hb⟩
      · exact Twin.contents_emptied _
      · exact ha.emptied t b hb hgone
    released := fun t b hb => by
      rw [hcount]
      rcases World.of_getElem?_setTwin htwin hb with ⟨rfl, rfl⟩ | ⟨ht, hb⟩
      · have hstill := ha.released _ twin htwin
        rw [if_pos hdue.2] at hstill
        simp [hstill, Twin.emptied]
      · rw [if_neg ht]
        exact ha.released t b hb
    unborn := fun t hnone => by
      have hold := World.none_of_setTwin htwin hnone
      have hne : h.twin ≠ t := fun heq => by simp [← heq, htwin] at hold
      rw [hcount, if_neg hne]
      exact ha.unborn t hold
    covered := fun h' => by
      simp [World.release, World.setTwin, Event.ofRazed, ha.covered h'] }

theorem letGo (ha : Accounts w (R + {.handle h})) :
    Accounts (w.letGo h).1 (R + .ofHandles (Due.handles (w.letGo h).2)) := by
  have hcounted := ha.counted h
  have htally : w.tally h ≠ 0 := by
    rw [hcounted]
    simp
  obtain ⟨twin, htwin⟩ := World.exists_twin_of_tally htally
  rw [World.tally_eq htwin] at htally
  have hlive := (ha.live _ twin htwin).mpr ((twin.counted_iff _).mpr ⟨h, rfl, htally⟩)
  rw [World.letGo, htwin]
  simp only [htally, if_false]
  by_cases hdue : (twin.forget h).isDue
  · simpa [hdue, World.release] using ha.release htwin hdue
  · simpa [hdue, Due.handles] using ha.forget htwin (by simpa using hdue) hlive

/-- A new twin is counted for the one handle that it comes with. -/
theorem create (ha : Accounts w (R + .ofHandles twin.contents)) (hnative : twin.nativeCount = 0)
    (hdynamic : twin.dynamicCount = 1) (hstage : twin.stage = .live) :
    Accounts (w.admitTwin twin).1 (R + {.handle (.dynamic w.twins.size)}) := by
  have hcount (t : TwinId) : (w.admitTwin twin).1.releaseCount t = w.releaseCount t :=
    World.releaseCount_record (by simp [Event.ofBuilt])
  exact {
    counted := fun h => by
      have hcounted := ha.counted h
      rw [World.tally_admitTwin, World.rootBag_admitTwin]
      simp only [Multiset.filterMap_add, Hold.handles_ofHandles, Multiset.count_add,
        Hold.filterMap_single, Token.handle?, Option.elim_some, Multiset.count_singleton]
        at hcounted ⊢
      by_cases ht : w.twins.size = h.twin
      · have hnone : w.tally h = 0 := by simp [World.tally, ← ht]
        have hnew : twin.tally h = if h = .dynamic w.twins.size then 1 else 0 := by
          cases h <;> simp_all [Twin.tally, Handle.twin]
        rw [if_pos ht, hnew]
        omega
      · have hne : h ≠ .dynamic w.twins.size := fun heq => ht (heq ▸ rfl)
        rw [if_neg ht, if_neg hne]
        omega
    live := fun t b hb => by
      rcases World.of_getElem?_admitTwin hb with ⟨-, rfl⟩ | ⟨-, hb⟩
      · simp [hstage, hdynamic]
      · exact ha.live t b hb
    emptied := fun t b hb hgone => by
      rcases World.of_getElem?_admitTwin hb with ⟨-, rfl⟩ | ⟨-, hb⟩
      · exact absurd hstage hgone
      · exact ha.emptied t b hb hgone
    released := fun t b hb => by
      rw [hcount]
      rcases World.of_getElem?_admitTwin hb with ⟨rfl, rfl⟩ | ⟨-, hb⟩
      · rw [if_pos hstage]
        exact ha.unborn _ (by simp)
      · exact ha.released t b hb
    unborn := fun t hnone => by
      rw [hcount]
      exact ha.unborn t (World.none_of_admitTwin hnone)
    covered := fun h => by
      simp [World.admitTwin, Event.ofBuilt, ha.covered h] }

/-- A twin changes in nothing that is counted. -/
theorem setTwin_of_eq (ha : Accounts w R) {t : TwinId} {a : Twin} (htwin : w.twins[t]? = some twin)
    (hnative : a.nativeCount = twin.nativeCount) (hdynamic : a.dynamicCount = twin.dynamicCount)
    (hstage : a.stage = twin.stage) (hcontents : a.contents = twin.contents)
    (hhold : R'.handles = R.handles) : Accounts (w.setTwin t a) R' := by
  refine ha.setTwin htwin hnative hdynamic (by rw [hstage]) ?_ (by rw [hcontents, hhold])
  rw [hstage, hcontents]
  exact ha.emptied t twin htwin

theorem setFilling (ha : Accounts w R) (t : TwinId) (filling : Bool)
    (hhold : R'.handles = R.handles) : Accounts (w.setFilling t filling) R' := by
  rw [World.setFilling]
  cases htwin : w.twins[t]? with
  | none =>
      rw [World.modifyTwin_of_none htwin]
      exact ha.of_twins_eq rfl rfl (by rw [hhold])
  | some twin =>
      rw [World.modifyTwin_eq htwin]
      exact ha.setTwin_of_eq htwin rfl rfl rfl rfl hhold

theorem endClass (ha : Accounts w R) (id : ClassId) :
    Accounts (World.endClass id w).1 (R + .ofHandles (World.endClass id w).2) := by
  unfold World.endClass
  split
  · simpa using ha
  · rename_i s hs
    split
    · simpa using ha
    · refine ha.of_twins_eq rfl rfl ?_
      have hset := World.rootBag_setClass hs { s with attrs := {} }
      simp only [ClassState.handles, Attributes.handles_empty, World.setClass, Multiset.coe_nil,
        add_zero] at hset
      rw [← hset]
      simp only [ClassState.handles, Multiset.filterMap_add, Hold.handles_ofHandles]
      abel

theorem endNative (ha : Accounts w R) (id : NativeId) :
    Accounts (World.endNative id w).1 (R + .ofHandles (World.endNative id w).2) := by
  unfold World.endNative
  split
  · simpa using ha
  · rename_i s hs
    split
    · simpa using ha
    · refine ha.of_twins_eq rfl rfl ?_
      have hset := World.rootBag_setDeclared hs { s with kept := [] }
      simp only [Multiset.coe_nil, add_zero] at hset
      rw [← hset]
      simp only [Multiset.filterMap_add, Hold.handles_ofHandles]
      abel

theorem markBuilt (ha : Accounts w R) {t : TwinId} (htwin : w.twins[t]? = some twin) (index : Nat)
    (base : NativeClass) (hhold : R'.handles = R.handles) :
    Accounts (Construction.markBuilt t index base w) R' := by
  unfold Construction.markBuilt
  dsimp only
  split
  · rw [World.modifyTwin_eq (w := w.record _) htwin]
    exact (ha.record (by simp) (by simp)).setTwin_of_eq htwin rfl rfl rfl rfl hhold
  · rw [World.modifyTwin_eq htwin]
    exact ha.setTwin_of_eq htwin rfl rfl rfl rfl hhold

theorem alike (ha : Accounts w R) (halike : w.Alike w') : Accounts w' R := by
  refine ha.of_twins_eq halike.twins halike.journal ?_
  simp only [World.rootBag, World.varBag, halike.twins, halike.declared, halike.classes,
    halike.vecs, halike.groups, halike.threads, halike.vars]

section Shared

/-- The first pointer to a shared instance takes over the handle that it is made of. -/
theorem newGroup (t : TwinId) (ha : Accounts w (R + {.handle (.native t)})) :
    Accounts { w with groups := w.groups.push ⟨t, 1⟩ } (R + {.shared w.groups.size t}) := by
  refine ha.of_twins_eq rfl rfl ?_
  simp [World.rootBag, World.varBag, SharedGroup.handles]
  abel

theorem cloneShared (ha : Accounts w R) {i : Nat} {g : SharedGroup} (hg : w.groups[i]? = some g)
    (hcount : g.count ≠ 0) : Accounts (World.cloneShared i w) (R + {.shared i g.target}) := by
  refine ha.of_twins_eq rfl rfl ?_
  rw [World.cloneShared, modify_eq_setIfInBounds hg]
  have hset := World.rootBag_setGroup hg { g with count := g.count + 1 }
  simp only [SharedGroup.handles, hcount, if_false, Nat.add_eq_zero_iff, one_ne_zero,
    and_false] at hset
  simp [add_right_cancel hset]

/-- Only the last pointer gives the handle back. -/
theorem leaveGroup {i : Nat} {g : SharedGroup} (ha : Accounts w (R + {.shared i g.target}))
    (hg : w.groups[i]? = some g) :
    Accounts { w with groups := w.groups.setIfInBounds i { g with count := g.count - 1 } }
      (R + if g.count = 1 then {.handle (.native g.target)} else 0) := by
  refine ha.of_twins_eq rfl rfl ?_
  have hset := World.rootBag_setGroup hg { g with count := g.count - 1 }
  by_cases hone : g.count = 1
  · simp only [SharedGroup.handles, hone, one_ne_zero, if_false, Nat.sub_self, if_true,
      Multiset.coe_nil, add_zero] at hset
    simp [hone, ← hset, add_assoc, add_comm]
  · have hzero : g.count - 1 = 0 ↔ g.count = 0 := by omega
    simp only [SharedGroup.handles, hzero] at hset
    simpa [hone] using add_right_cancel hset

end Shared

section Threads

variable {index : Nat} {th : DynThread}

/-- A thread that has come to its end keeps its result. -/
theorem endThread {result : Except Thrown DynValue}
    (ha : Accounts w (R + .ofHandles (ThreadState.done result).handles))
    (hth : w.threads[index]? = some th) (hstate : th.state = .waiting) :
    Accounts { w with threads := w.threads.setIfInBounds index { th with state := .done result } }
      R := by
  refine ha.of_twins_eq rfl rfl ?_
  have hset := World.rootBag_setThread hth { th with state := .done result }
  have hwaiting : th.state.handles = [] := by
    rw [hstate]
    rfl
  simp only [hwaiting, Multiset.coe_nil, add_zero] at hset
  rw [hset]
  simp [add_assoc, add_comm]

theorem takeResult (ha : Accounts w R) (hth : w.threads[index]? = some th) :
    Accounts { w with threads := w.threads.setIfInBounds index { th with state := .taken } }
      (R + .ofHandles th.state.handles) := by
  refine ha.of_twins_eq rfl rfl ?_
  have hset := World.rootBag_setThread hth { th with state := .taken }
  have htaken : ThreadState.taken.handles = [] := rfl
  simp only [htaken, Multiset.coe_nil, add_zero] at hset
  rw [← hset]
  simp [add_assoc, add_comm]

end Threads

/-- Every step keeps the accounts. -/
theorem step (ha : Accounts w R) (hnames : (w.scope.vars.map Prod.fst).Nodup)
    (hstep : Transition w R w' R') : Accounts w' R' := by
  cases hstep with
  | quiet halike => exact ha.alike halike
  | note text => exact ha.record (by simp) (by simp)
  | panic => exact ha.record (by simp) (by simp)
  | throw t => exact ha.record (by simp) (by simp)
  | recover => exact ha.record (by simp) (by simp)
  | enter => exact ha.record (by simp) (by simp)
  | passGate => exact ha.record (by simp) (by simp)
  | retain hheld => exact ha.retain hheld
  | letGo h => exact ha.letGo
  | @depart _ t twin htwin hstage =>
      refine ha.setTwin htwin rfl rfl (by simp [hstage]) ?_ rfl
      exact fun _ => ha.emptied t twin htwin (by simp [hstage])
  | endClass id => exact ha.endClass id
  | endNative id => exact ha.endNative id
  | create hnative hdynamic hstage => exact ha.create hnative hdynamic hstage
  | store htwin hstage storage attrs owner moved hshape taken given hbag =>
      refine ha.setTwin htwin rfl rfl Iff.rfl (fun hgone => absurd hstage hgone) ?_
      have hmoved := Multiset.coe_eq_coe.mpr hbag
      simp only [← Multiset.coe_add] at hmoved
      simp only [Multiset.filterMap_add, Hold.handles_ofHandles]
      rw [add_left_comm, hmoved, add_left_comm]
  | fill htwin hfree => exact ha.setFilling _ true (by simp)
  | unfill t constructed => exact ha.setFilling t false (by simp)
  | build c =>
      exact (ha.record (by simp [Event.ofBuilt]) (by simp [Event.ofBuilt])).of_twins_eq
        rfl rfl (by simp)
  | raze c =>
      exact (ha.record (by simp [Event.ofRazed]) (by simp [Event.ofRazed])).of_twins_eq
        rfl rfl (by simp)
  | mark htwin hstage hfree hbase hagain => exact ha.markBuilt htwin _ _ (by simp)
  | storeClass hs attrs taken given hbag =>
      refine ha.of_twins_eq rfl rfl ?_
      simp only [Multiset.filterMap_add, Hold.handles_ofHandles]
      exact exchange (World.rootBag_setClass hs _) (Multiset.coe_eq_coe.mpr hbag) _
  | learn hs hslot hunknown =>
      refine ha.of_twins_eq rfl rfl ?_
      rw [add_left_inj]
      exact add_right_cancel (World.rootBag_setClass hs _)
  | newVec element =>
      refine ha.of_twins_eq rfl rfl ?_
      simp [World.rootBag, World.varBag, InstanceVec.handles]
  | @holdVec _ i hi =>
      have hroots : (World.holdVec i w).rootBag = w.rootBag :=
        World.rootBag_modifyVec i _ fun _ => rfl
      exact ha.of_twins_eq rfl rfl (by simp [hroots])
  | leaveVec i =>
      have hroots := World.rootBag_modifyVec (w := w) i
        (fun v => { v with holders := v.holders - 1 }) fun _ => rfl
      exact ha.of_twins_eq rfl rfl (by simp [hroots])
  | storeVec hv items taken given hbag =>
      refine ha.of_twins_eq rfl rfl ?_
      rw [World.setItems, modify_eq_setIfInBounds hv]
      simp only [Multiset.filterMap_add, Hold.handles_ofHandles]
      exact exchange (World.rootBag_setVec hv _) (Multiset.coe_eq_coe.mpr hbag) _
  | newGroup t => exact ha.newGroup t
  | cloneShared hg hcount => exact ha.cloneShared hg hcount
  | leaveGroup hg => exact ha.leaveGroup hg
  | bind x b =>
      refine ha.of_twins_eq rfl rfl ?_
      simp only [Multiset.filterMap_add, World.handles_bindingHold, World.handles_varHold]
      refine exchange (World.rootBag_put w x b) (add_comm _ _) _
  | unbind x =>
      refine ha.of_twins_eq rfl rfl ?_
      simp only [Multiset.filterMap_add, World.handles_varHold]
      rw [← World.rootBag_erase x hnames]
      abel
  | spawn hinterp code =>
      refine ha.of_twins_eq rfl rfl ?_
      simp [World.rootBag, World.varBag, ThreadState.handles]
  | endThread hth hstate => exact ha.endThread hth hstate
  | takeResult hth => exact ha.takeResult hth
  | declare hid hparents hdistinct =>
      refine ha.of_twins_eq rfl rfl ?_
      simp only [World.rootBag, World.varBag, bag_push, Multiset.filterMap_add,
        Hold.handles_ofHandles]
      abel
  | nameNative label hkeeps => exact ha.of_twins_eq rfl rfl rfl
  | register hid hbases hinterp attrs =>
      refine ha.of_twins_eq rfl rfl ?_
      simp [World.rootBag, World.varBag, World.admitClass, World.modifyInterp, ClassState.handles]
      abel
  | nameClass label hknows => exact ha.of_twins_eq rfl rfl rfl
  | lend hkeeps => exact ha.of_twins_eq rfl rfl (by simp [World.lend, World.rootBag, World.varBag])
  | giveBack k => exact ha.of_twins_eq rfl rfl (by simp [World.rootBag, World.varBag])

end Accounts

end TwinObject
