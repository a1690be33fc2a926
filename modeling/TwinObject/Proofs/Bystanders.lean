/-
Bystanders.  Taking and letting go of handles changes no twin that stays alive, but for how
many handles there are to it; and what brings new twins into being changes none of those
that are there.
-/
import TwinObject.Proofs.Conversions
import TwinObject.Proofs.Safe.Reproduce

namespace TwinObject

namespace World

section Releases

variable {r : World → World → Prop} (hrefl : ∀ w, r w w)
  (htrans : ∀ {w u v : World}, r w u → r u v → r w v)

include hrefl htrans

theorem endEach_leads {α : Type} {f : α → World → World × List Handle}
    (hf : ∀ (a : α) (w : World), r w (f a w).1) (as : List α) (w : World) :
    r w (endEach f as w).1 := by
  induction as generalizing w with
  | nil => exact hrefl w
  | cons a as ih => exact htrans (hf a w) (ih (f a w).1)

variable (hletGo : ∀ (w : World) (h : Handle), r w (w.letGo h).1)
  (hdepart : ∀ (w : World) (t : TwinId) (a : Twin), w.twins[t]? = some a →
    r w (w.setTwin t { a with stage := .gone }))
  (hclass : ∀ (id : ClassId) (w : World), r w (endClass id w).1)
  (hnative : ∀ (id : NativeId) (w : World), r w (endNative id w).1)

include hletGo hdepart hclass hnative

/-- What is still to be done comes down to single handles, to twins that are left behind, and
to classes that end. -/
theorem settleOne_leads (w : World) (d : Due) : r w (w.settleOne d).1 := by
  have hforsake : ∀ (k : Kind) (w : World), r w (forsake k w).1 := fun k w => by
    cases k with
    | native c => exact endEach_leads hrefl htrans hnative _ w
    | dynamic c => exact endEach_leads hrefl htrans hclass _ w
  cases d with
  | handle h => exact hletGo w h
  | kind t =>
      change r w (w.letKindGo t).1
      unfold letKindGo
      split
      · exact hrefl w
      · rename_i a ha
        split
        · exact htrans (hdepart w t a ha) (hforsake _ _)
        · exact hrefl w

theorem settle_leads (w : World) (ds : List Due) : r w (w.settle ds) := by
  fun_induction World.settle w ds with
  | case1 w => exact hrefl w
  | case2 w d ds ih =>
      exact htrans (settleOne_leads hrefl htrans hletGo hdepart hclass hnative w d) ih

theorem drop_leads (w : World) (hs : List Handle) : r w (w.drop hs) :=
  settle_leads hrefl htrans hletGo hdepart hclass hnative w _

end Releases

/-- Letting go of handles leaves what vectors hold to them. -/
theorem vecs_drop (w : World) (hs : List Handle) : (w.drop hs).vecs = w.vecs := by
  refine drop_leads (r := fun w u => u.vecs = w.vecs) (fun _ => rfl) (fun h h' => h'.trans h)
    (fun w h => ?_) (fun _ _ _ _ => rfl) (fun id w => ?_) (fun id w => ?_) w hs
  · obtain ⟨twins, journal, hframe⟩ := w.letGo_frame h
    rw [hframe]
  · obtain ⟨classes, hframe, -⟩ := w.endClass_frame id
    rw [hframe]
  · obtain ⟨declared, hframe⟩ := w.endNative_frame id
    rw [hframe]

theorem vecs_asNative (w : World) (t : TwinId) : (w.asNative t).vecs = w.vecs :=
  vecs_drop _ _

/-- Whether a twin is alive. -/
def Alive (w : World) (t : TwinId) : Prop :=
  ∃ a, w.twins[t]? = some a ∧ a.stage = .live

end World

namespace Twin

/-- A twin apart from how many handles there are to it. -/
def bare (a : Twin) : Twin :=
  { a with nativeCount := 0, dynamicCount := 0 }

@[simp] theorem bare_retain (h : Handle) (a : Twin) : (a.retain h).bare = a.bare := by
  cases h <;> rfl

@[simp] theorem bare_forget (h : Handle) (a : Twin) : (a.forget h).bare = a.bare := by
  cases h <;> rfl

@[simp] theorem kind_retain (h : Handle) (a : Twin) : (a.retain h).kind = a.kind := by
  cases h <;> rfl

@[simp] theorem kind_forget (h : Handle) (a : Twin) : (a.forget h).kind = a.kind := by
  cases h <;> rfl

@[simp] theorem forget_retain (h : Handle) (a : Twin) : (a.retain h).forget h = a := by
  cases h <;> rfl

/-- Whether a twin is of its class still and, if it is alive, as it was. -/
structure Rests (a b : Twin) : Prop where
  kind : b.kind = a.kind
  bare : b.stage = .live → b.bare = a.bare

namespace Rests

variable {a b c : Twin}

theorem refl (a : Twin) : a.Rests a :=
  ⟨rfl, fun _ => rfl⟩

theorem live (h : a.Rests b) (hlive : b.stage = .live) : a.stage = .live :=
  (congrArg Twin.stage (h.bare hlive)).symm.trans hlive

theorem trans (h : a.Rests b) (h' : b.Rests c) : a.Rests c where
  kind := h'.kind.trans h.kind
  bare hlive := (h'.bare hlive).trans (h.bare (h'.live hlive))

theorem storage (h : a.Rests b) (hlive : b.stage = .live) : b.storage = a.storage :=
  congrArg (·.storage) (h.bare hlive : b.bare = a.bare)

theorem attrs (h : a.Rests b) (hlive : b.stage = .live) : b.attrs = a.attrs :=
  congrArg (·.attrs) (h.bare hlive : b.bare = a.bare)

theorem constructed (h : a.Rests b) (hlive : b.stage = .live) : b.constructed = a.constructed :=
  congrArg (·.constructed) (h.bare hlive : b.bare = a.bare)

end Rests

end Twin

namespace World

variable {w u v : World}

/-- Whether all twins are still there, and as they were if they are alive. -/
def Rests (w u : World) : Prop :=
  ∀ (t : TwinId) (a : Twin), w.twins[t]? = some a →
    ∃ b, u.twins[t]? = some b ∧ a.Rests b

/-- Whether moreover no twin is new. -/
structure Still (w u : World) : Prop where
  rests : w.Rests u
  size : u.twins.size = w.twins.size

namespace Rests

theorem of_eq (htwins : u.twins = w.twins) : w.Rests u :=
  fun _ a ha => ⟨a, htwins ▸ ha, .refl a⟩

theorem trans (h : w.Rests u) (h' : u.Rests v) : w.Rests v := by
  intro t a ha
  obtain ⟨b, hb, hab⟩ := h t a ha
  obtain ⟨c, hc, hbc⟩ := h' t b hb
  exact ⟨c, hc, hab.trans hbc⟩

theorem twin (h : w.Rests u) {t : TwinId} {a b : Twin} (ha : w.twins[t]? = some a)
    (hb : u.twins[t]? = some b) : a.Rests b := by
  obtain ⟨b', hb', hab⟩ := h t a ha
  cases hb.symm.trans hb'
  exact hab

theorem admitTwin (w : World) (a : Twin) : w.Rests (w.admitTwin a).1 := by
  intro t b hb
  refine ⟨b, ?_, .refl b⟩
  obtain ⟨hlt, -⟩ := Array.getElem?_eq_some_iff.mp hb
  change (w.twins.push a)[t]? = some b
  rw [Array.getElem?_push_lt hlt, ← hb, Array.getElem?_eq_getElem hlt]

/-- What is alive was alive before, if it was there. -/
theorem alive (h : w.Rests u) {t : TwinId} (hthere : t < w.twins.size) (halive : u.Alive t) :
    w.Alive t := by
  obtain ⟨b, hb, hlive⟩ := halive
  have ha : w.twins[t]? = some w.twins[t] := Array.getElem?_eq_getElem hthere
  exact ⟨_, ha, (h.twin ha hb).live hlive⟩

end Rests

namespace Still

theorem of_eq (htwins : u.twins = w.twins) : w.Still u :=
  ⟨.of_eq htwins, by rw [htwins]⟩

theorem refl (w : World) : w.Still w :=
  of_eq rfl

theorem trans (h : w.Still u) (h' : u.Still v) : w.Still v :=
  ⟨h.rests.trans h'.rests, h'.size.trans h.size⟩

theorem record (w : World) (events : List Event) : w.Still (w.record events) :=
  of_eq rfl

theorem setTwin {t : TwinId} {old new : Twin} (hold : w.twins[t]? = some old)
    (hnew : old.Rests new) : w.Still (w.setTwin t new) where
  rests i a ha := by
    rw [getElem?_setTwin hold]
    by_cases hi : t = i
    · subst hi
      cases hold.symm.trans ha
      exact ⟨new, if_pos rfl, hnew⟩
    · exact ⟨a, by rw [if_neg hi, ha], .refl a⟩
  size := by
    rw [World.setTwin, Array.set!_eq_setIfInBounds, Array.size_setIfInBounds]

theorem letGo (w : World) (h : Handle) : w.Still (w.letGo h).1 := by
  unfold World.letGo
  split
  · exact record w _
  · rename_i a ha
    have hcounted : w.Still (if a.tally h = 0 then w.record [.overdrawn h] else w) := by
      split
      · exact record w _
      · exact refl w
    have ha' : (if a.tally h = 0 then w.record [.overdrawn h] else w).twins[h.twin]? = some a := by
      split <;> exact ha
    dsimp only
    split
    · have hemptied : a.Rests (a.forget h).emptied := ⟨Twin.kind_forget h a, nofun⟩
      exact hcounted.trans ((setTwin ha' hemptied).trans (of_eq rfl))
    · exact hcounted.trans (setTwin ha' ⟨Twin.kind_forget h a, fun _ => Twin.bare_forget h a⟩)

theorem endClass (id : ClassId) (w : World) : w.Still (w.endClass id).1 := by
  obtain ⟨classes, hframe, -⟩ := w.endClass_frame id
  rw [hframe]
  exact of_eq rfl

theorem endNative (id : NativeId) (w : World) : w.Still (w.endNative id).1 := by
  obtain ⟨declared, hframe⟩ := w.endNative_frame id
  rw [hframe]
  exact of_eq rfl

theorem settle (w : World) (ds : List Due) : w.Still (w.settle ds) :=
  settle_leads refl trans letGo (fun _ _ _ ha => setTwin ha ⟨rfl, nofun⟩) endClass endNative w ds

/-- Letting go of handles leaves every twin that stays alive as it was. -/
theorem drop (w : World) (hs : List Handle) : w.Still (w.drop hs) :=
  settle w _

theorem retain (w : World) (h : Handle) : w.Still (w.retain h) := by
  cases ha : w.twins[h.twin]? with
  | none =>
      rw [World.retain, modifyTwin_of_none ha]
      exact refl w
  | some a =>
      rw [World.retain, modifyTwin_eq ha]
      exact setTwin ha ⟨Twin.kind_retain h a, fun _ => Twin.bare_retain h a⟩

theorem retainAll (w : World) (hs : List Handle) : w.Still (w.retainAll hs) := by
  induction hs generalizing w with
  | nil => exact refl w
  | cons h hs ih => exact (retain w h).trans (ih (w.retain h))

theorem asNative (w : World) (t : TwinId) : w.Still (w.asNative t) :=
  (retain w _).trans (drop _ _)

/-- A twin that is alive was there, and as it is. -/
theorem twin (h : w.Still u) {t : TwinId} (halive : u.Alive t) :
    (w.twin t).Rests (u.twin t) ∧ (u.twin t).stage = .live := by
  obtain ⟨b, hb, hlive⟩ := halive
  have hlt : t < w.twins.size := h.size ▸ (Array.getElem?_eq_some_iff.mp hb).1
  have ha : w.twins[t]? = some w.twins[t] := Array.getElem?_eq_getElem hlt
  rw [twin_eq ha, twin_eq hb]
  exact ⟨h.rests.twin ha hb, hlive⟩

end Still

/-- A handle that is not the last one is just not counted any more. -/
theorem drop_counted {h : Handle} {a : Twin} (ha : w.twins[h.twin]? = some a)
    (hcounted : a.tally h ≠ 0) (hdue : (a.forget h).isDue = false) :
    w.drop [h] = w.setTwin h.twin (a.forget h) := by
  have hletGo : w.letGo h = (w.setTwin h.twin (a.forget h), []) := by
    unfold letGo
    rw [ha]
    simp only [if_neg hcounted, hdue, Bool.false_eq_true, if_false]
  change w.settle [.handle h] = _
  rw [settle, settleOne, hletGo, List.nil_append, settle]

theorem getElem?_retain {h : Handle} {a : Twin} (ha : w.twins[h.twin]? = some a) :
    (w.retain h).twins[h.twin]? = some (a.retain h) := by
  rw [retain, modifyTwin, Array.getElem?_modify, if_pos rfl, ha]
  rfl

theorem tally_retain (h : Handle) (a : Twin) : (a.retain h).tally h ≠ 0 := by
  cases h <;> exact Nat.succ_ne_zero _

theorem setTwin_modifyTwin (w : World) (t : TwinId) (f : Twin → Twin) (a : Twin) :
    (w.modifyTwin t f).setTwin t a = w.setTwin t a := by
  have htwins : (w.twins.modify t f).set! t a = w.twins.set! t a := by
    refine Array.ext_getElem? fun i => ?_
    rw [Array.set!_eq_setIfInBounds, Array.set!_eq_setIfInBounds, Array.getElem?_setIfInBounds,
      Array.getElem?_setIfInBounds, Array.size_modify, Array.getElem?_modify]
    by_cases hi : t = i
    · rw [if_pos hi, if_pos hi]
    · rw [if_neg hi, if_neg hi, if_neg hi]
  rw [setTwin, modifyTwin, htwins]
  rfl

theorem setTwin_self {t : TwinId} {a : Twin} (ha : w.twins[t]? = some a) : w.setTwin t a = w := by
  obtain ⟨hlt, rfl⟩ := Array.getElem?_eq_some_iff.mp ha
  rw [setTwin, Array.set!_eq_setIfInBounds, Array.setIfInBounds, dif_pos hlt,
    Array.set_getElem_self]

/-- A handle that is taken and let go again changes nothing, if there are others. -/
theorem drop_retain {h : Handle} {a : Twin} (ha : w.twins[h.twin]? = some a)
    (hdue : a.isDue = false) : (w.retain h).drop [h] = w := by
  rw [drop_counted (getElem?_retain ha) (tally_retain h a) (by rwa [Twin.forget_retain]),
    Twin.forget_retain, retain, setTwin_modifyTwin, setTwin_self ha]

/-- A handle of one kind that is given for one of the other kind is counted there. -/
theorem drop_retain_other {h k : Handle} {a : Twin} (htwin : k.twin = h.twin) (hne : k ≠ h)
    (ha : w.twins[h.twin]? = some a) (hcounted : a.tally k ≠ 0) :
    (w.retain h).drop [k] = w.setTwin h.twin ((a.retain h).forget k) := by
  have hretained : (w.retain h).twins[k.twin]? = some (a.retain h) := htwin ▸ getElem?_retain ha
  have hcounts : (a.retain h).tally k ≠ 0 ∧ ((a.retain h).forget k).isDue = false := by
    cases h <;> cases k <;> simp_all [Handle.twin, Twin.retain, Twin.forget, Twin.tally, Twin.isDue]
  rw [drop_counted hretained hcounts.1 hcounts.2, htwin, retain, setTwin_modifyTwin]

theorem Rests.copyTwin (w : World) (t : TwinId) : w.Rests (copyTwin t w).2 := by
  unfold World.copyTwin
  dsimp only
  split
  · exact .of_eq rfl
  · exact (Still.retainAll w _).rests.trans (.admitTwin _ _)

/-- Conversions change no twin that stays alive, but for how many handles there are to it. -/
theorem Rests.respected : Respects Rests where
  refl _ := .of_eq rfl
  trans := .trans
  retainAll w hs := (Still.retainAll w hs).rests
  drop w hs := (Still.drop w hs).rests
  copyTwin t w := .copyTwin w t

end World

end TwinObject
