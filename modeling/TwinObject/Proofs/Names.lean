/-
Names of attributes.  Dynamic code looks for a member first and for an attribute
after that, so an attribute under the name of a member that it sees would stay
hidden.  No step leaves one behind.
-/
import TwinObject.Proofs.Evolution

namespace TwinObject

namespace Twin

variable {a b : Twin}

/-- Only the class and the attributes of a twin matter. -/
theorem Tidy.of_eq (htidy : a.Tidy) (hkind : b.kind = a.kind) (hattrs : b.attrs = a.attrs) :
    b.Tidy := by
  intro name p hfind
  rw [hattrs]
  rw [layout, hkind] at hfind
  exact htidy name p hfind

theorem tidy_of_empty (hempty : a.attrs.bindings = []) : a.Tidy := by
  intro name p _
  rw [Attributes.get?, hempty]
  rfl

/-- An attribute is bound under a name that no visible member has. -/
theorem Tidy.put (htidy : a.Tidy) {name : String}
    (hfree : a.layout.findVisibleMember? name a.kind.fromDerived = none) (v : DynValue) :
    ({ a with attrs := a.attrs.put name v } : Twin).Tidy := by
  intro other p hfind
  change (a.attrs.put name v).get? other = none
  rw [Attributes.get?_put_attribute, if_neg, htidy other p hfind]
  rintro rfl
  exact nomatch hfree.symm.trans hfind

end Twin

/-- No attribute of an instance has the name of a member that dynamic code sees. -/
def Tidied (w : World) : Prop :=
  ∀ (t : TwinId) (a : Twin), w.twins[t]? = some a → a.Tidy

namespace Tidied

variable {w w' : World} {R R' : Hold}

theorem initial : Tidied .initial := by
  intro t a ha
  simp [World.initial, World.declareInterp] at ha

theorem of_eq (ht : Tidied w) (htwins : w'.twins = w.twins) : Tidied w' :=
  fun t a ha => ht t a (htwins ▸ ha)

theorem setTwin (ht : Tidied w) {t : TwinId} {a b : Twin} (ha : w.twins[t]? = some a)
    (hb : b.Tidy) : Tidied (w.setTwin t b) := by
  intro i c hc
  rcases World.of_getElem?_setTwin ha hc with ⟨-, rfl⟩ | ⟨-, hc⟩
  · exact hb
  · exact ht i c hc

/-- A change to a twin that leaves its class and its attributes alone. -/
theorem modifyTwin (ht : Tidied w) (t : TwinId) {f : Twin → Twin}
    (hkind : ∀ a : Twin, (f a).kind = a.kind) (hattrs : ∀ a : Twin, (f a).attrs = a.attrs) :
    Tidied (w.modifyTwin t f) := by
  cases ha : w.twins[t]? with
  | none =>
      rw [World.modifyTwin_of_none ha]
      exact ht
  | some a =>
      rw [World.modifyTwin_eq ha]
      exact ht.setTwin ha ((ht t a ha).of_eq (hkind a) (hattrs a))

theorem letGo (ht : Tidied w) (h : Handle) : Tidied (w.letGo h).1 := by
  unfold World.letGo
  split
  · exact ht.of_eq rfl
  · rename_i a ha
    have hbase : Tidied (if a.tally h = 0 then w.record [.overdrawn h] else w) := by
      split
      · exact ht.of_eq rfl
      · exact ht
    have ha' : (if a.tally h = 0 then w.record [.overdrawn h] else w).twins[h.twin]? = some a := by
      split <;> exact ha
    dsimp only
    split
    · exact (hbase.setTwin ha' (Twin.tidy_of_empty rfl)).of_eq rfl
    · refine hbase.setTwin ha' ((hbase _ a ha').of_eq ?_ ?_)
      · cases h <;> rfl
      · cases h <;> rfl

theorem admitTwin (ht : Tidied w) {a : Twin} (ha : a.Tidy) : Tidied (w.admitTwin a).1 := by
  intro t b hb
  rcases World.of_getElem?_admitTwin hb with ⟨-, rfl⟩ | ⟨-, hb⟩
  · exact ha
  · exact ht t b hb

theorem mark (ht : Tidied w) (t : TwinId) (index : Nat) (base : NativeClass) :
    Tidied (Construction.markBuilt t index base w) := by
  unfold Construction.markBuilt
  dsimp only
  refine Tidied.modifyTwin ?_ t (fun a => rfl) fun a => rfl
  split
  · exact ht.of_eq rfl
  · exact ht

theorem alike (ht : Tidied w) (halike : w.Alike w') : Tidied w' :=
  ht.of_eq halike.twins

theorem step (ht : Tidied w) (hstep : Transition w R w' R') : Tidied w' := by
  cases hstep with
  | quiet halike => exact ht.alike halike
  | @retain _ h hheld =>
      refine ht.modifyTwin _ (fun a => ?_) fun a => ?_
      · cases h <;> rfl
      · cases h <;> rfl
  | letGo h => exact ht.letGo h
  | depart htwin hstage => exact ht.setTwin htwin ((ht _ _ htwin).of_eq rfl rfl)
  | endClass id =>
      obtain ⟨classes, hframe, -⟩ := w.endClass_frame id
      rw [hframe]
      exact ht.of_eq rfl
  | endNative id =>
      obtain ⟨declared, hframe⟩ := w.endNative_frame id
      rw [hframe]
      exact ht.of_eq rfl
  | create hnative hdynamic hstage hfilling hshaped hkeeps hconcrete hconforms hhouses htidy =>
      exact ht.admitTwin htidy
  | store htwin hstage storage attrs owner moved hshape taken given hbag hconforms htidy =>
      exact ht.setTwin htwin (htidy.of_eq rfl rfl)
  | fill htwin hfree => exact ht.modifyTwin _ (fun a => rfl) fun a => rfl
  | unfill t constructed => exact ht.modifyTwin _ (fun a => rfl) fun a => rfl
  | mark htwin hstage hfree hbase hagain => exact ht.mark _ _ _
  | _ => exact ht.of_eq rfl

end Tidied

end TwinObject
