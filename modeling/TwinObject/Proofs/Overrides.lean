/-
Overrides that dynamic classes remember.  What was found for a slot is what a
fresh look at the class would find.
-/
import TwinObject.Proofs.Evolution

namespace TwinObject

/-- Whether a class has an entry for each of its slots, and knows of none
anything but what its own chain gives for it. -/
structure ClassState.Faithful (s : ClassState) : Prop where
  size : s.overrides.length = s.cls.vtable.size
  known : ∀ (index : Nat) (found : Option Method), s.overrides[index]? = some (some found) →
    ∃ slot, s.cls.vtable.get? index = some slot ∧ found = s.cls.override? slot

/-- What holds of the overrides that the classes of a world remember. -/
def Remembered (w : World) : Prop :=
  ∀ (id : ClassId) (s : ClassState), w.classes[id]? = some s → s.Faithful

namespace Remembered

variable {w w' : World} {R R' : Hold}

theorem initial : Remembered .initial := by
  intro id s hs
  simp [World.initial, World.declareInterp] at hs

theorem of_classes_eq (hr : Remembered w) (hclasses : w'.classes = w.classes) : Remembered w' :=
  fun id s hs => hr id s (hclasses ▸ hs)

theorem setClass (hr : Remembered w) {id : ClassId} {s : ClassState} (hs : s.Faithful) :
    Remembered (w.setClass id s) := by
  intro i a ha
  rw [World.setClass, Array.getElem?_setIfInBounds] at ha
  by_cases hi : id = i
  · rw [if_pos hi] at ha
    by_cases hlt : id < w.classes.size
    · rw [if_pos hlt] at ha
      cases ha
      exact hs
    · rw [if_neg hlt] at ha
      cases ha
  · rw [if_neg hi] at ha
    exact hr i a ha

/-- Remembering what the chain gives for a slot keeps a class faithful. -/
theorem learn {s : ClassState} (hs : s.Faithful) {index : Nat} {slot : Slot}
    (hslot : s.cls.vtable.get? index = some slot) :
    ({ s with overrides := s.overrides.set index (some (s.cls.override? slot)) } :
      ClassState).Faithful where
  size := (List.length_set ..).trans hs.size
  known i found hfound := by
    rw [List.getElem?_set] at hfound
    by_cases hi : index = i
    · subst hi
      rw [if_pos rfl] at hfound
      by_cases hlt : index < s.overrides.length
      · rw [if_pos hlt] at hfound
        cases hfound
        exact ⟨slot, hslot, rfl⟩
      · rw [if_neg hlt] at hfound
        cases hfound
    · rw [if_neg hi] at hfound
      exact hs.known i found hfound

theorem fresh (c : DynamicClass) (attrs : Attributes) :
    (⟨c, attrs, List.replicate c.vtable.size none⟩ : ClassState).Faithful where
  size := List.length_replicate
  known i found hfound := by
    rw [List.getElem?_replicate] at hfound
    split at hfound <;> cases hfound

theorem alike (hr : Remembered w) (halike : w.Alike w') : Remembered w' :=
  hr.of_classes_eq halike.classes

theorem step (hr : Remembered w) (hstep : Transition w R w' R') : Remembered w' := by
  cases hstep with
  | quiet halike => exact hr.alike halike
  | letGo h =>
      obtain ⟨twins, journal, hframe⟩ := w.letGo_frame h
      exact hr.of_classes_eq (by rw [hframe])
  | mark htwin hstage hfree hbase hagain =>
      obtain ⟨twins, journal, hframe⟩ := w.markBuilt_frame _ _ _
      exact hr.of_classes_eq (by rw [hframe])
  | endClass id =>
      unfold World.endClass
      split
      · exact hr
      · rename_i s hs
        split
        · exact hr
        · obtain ⟨hsize, hknown⟩ := hr id s hs
          exact hr.setClass (s := { s with attrs := {} }) ⟨hsize, hknown⟩
  | endNative id =>
      obtain ⟨declared, hframe⟩ := w.endNative_frame id
      exact hr.of_classes_eq (by rw [hframe])
  | storeClass hs attrs taken given hbag =>
      obtain ⟨hsize, hknown⟩ := hr _ _ hs
      exact hr.setClass ⟨hsize, hknown⟩
  | learn hs hslot hunknown => exact hr.setClass (learn (hr _ _ hs) hslot)
  | register hid hbases hinterp attrs =>
      intro i s hs
      have hpush : (w.classes.push _)[i]? = some s := hs
      rw [Array.getElem?_push] at hpush
      by_cases hi : i = w.classes.size
      · rw [if_pos hi] at hpush
        cases hpush
        exact fresh _ _
      · rw [if_neg hi] at hpush
        exact hr i s hpush
  | _ => exact hr.of_classes_eq rfl

end Remembered

end TwinObject
