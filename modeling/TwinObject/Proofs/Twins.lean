/-
What twins look like.  Every twin is of a class without pure slots, a live one
has the shape of its layout, and its storage is filled by one scope at a time,
while which bases are constructed stays as it was.
-/
import TwinObject.Proofs.Evolution

namespace TwinObject

/-- What holds of the twins of a state. -/
structure Formed (w : World) (R : Hold) : Prop where
  concrete : ∀ (t : TwinId) (a : Twin), w.twins[t]? = some a → a.kind.Concrete
  shaped : ∀ (t : TwinId) (a : Twin), w.twins[t]? = some a → a.stage = .live → a.Shaped
  filled : ∀ (t : TwinId), R.filled.count t = if (w.twins[t]?).any Twin.filling then 1 else 0
  kept : ∀ p ∈ R.fillings, ∀ a : Twin, w.twins[p.1]? = some a → a.stage = .live →
    a.constructed = p.2

namespace Formed

variable {w w' : World} {R R' : Hold}

theorem initial : Formed .initial 0 where
  concrete t a ha := by simp [World.initial, World.declareInterp] at ha
  shaped t a ha := by simp [World.initial, World.declareInterp] at ha
  filled t := by simp [World.initial, World.declareInterp]
  kept p hp := by simp at hp

theorem of_twins_eq (hf : Formed w R) (htwins : w'.twins = w.twins)
    (hfillings : R'.fillings = R.fillings) : Formed w' R' where
  concrete t a ha := hf.concrete t a (htwins ▸ ha)
  shaped t a ha := hf.shaped t a (htwins ▸ ha)
  filled t := by
    rw [htwins, Hold.filled_eq hfillings]
    exact hf.filled t
  kept p hp a ha := hf.kept p (hfillings ▸ hp) a (htwins ▸ ha)

theorem setTwin (hf : Formed w R) {t : TwinId} {a b : Twin} (ha : w.twins[t]? = some a)
    (hkind : b.kind = a.kind) (hfilling : b.filling = a.filling)
    (hlive : b.stage = .live → a.stage = .live ∧ b.constructed = a.constructed
      ∧ b.storage.map List.length = a.storage.map List.length)
    (hfillings : R'.fillings = R.fillings) : Formed (w.setTwin t b) R' where
  concrete i c hc := by
    rcases World.of_getElem?_setTwin ha hc with ⟨-, rfl⟩ | ⟨-, hc⟩
    · rw [hkind]
      exact hf.concrete t a ha
    · exact hf.concrete i c hc
  shaped i c hc hstage := by
    rcases World.of_getElem?_setTwin ha hc with ⟨-, rfl⟩ | ⟨-, hc⟩
    · obtain ⟨hold, hconstructed, hstorage⟩ := hlive hstage
      have hshaped := hf.shaped t a ha hold
      have hlayout : b.layout = a.layout := congrArg Kind.layout hkind
      exact ⟨by rw [hstorage, hlayout, hshaped.storage],
        by rw [hconstructed, hlayout, hshaped.constructed]⟩
    · exact hf.shaped i c hc hstage
  filled i := by
    rw [World.getElem?_setTwin ha, Hold.filled_eq hfillings]
    have hold := hf.filled i
    by_cases hti : t = i
    · subst hti
      rw [ha] at hold
      simpa [hfilling] using hold
    · simpa [hti] using hold
  kept p hp c hc hstage := by
    rw [hfillings] at hp
    rcases World.of_getElem?_setTwin ha hc with ⟨rfl, rfl⟩ | ⟨-, hc⟩
    · obtain ⟨hold, hconstructed, -⟩ := hlive hstage
      rw [hconstructed]
      exact hf.kept p hp a ha hold
    · exact hf.kept p hp c hc hstage

theorem letGo {h : Handle} (hf : Formed w R) (hfillings : R'.fillings = R.fillings) :
    Formed (w.letGo h).1 R' := by
  unfold World.letGo
  split
  · exact hf.of_twins_eq rfl hfillings
  · rename_i a ha
    have hbase : Formed (if a.tally h = 0 then w.record [.overdrawn h] else w) R := by
      split
      · exact hf.of_twins_eq rfl rfl
      · exact hf
    have ha' : (if a.tally h = 0 then w.record [.overdrawn h] else w).twins[h.twin]? = some a := by
      split <;> exact ha
    dsimp only
    split
    · refine Formed.of_twins_eq (R := R) (hbase.setTwin ha' ?_ ?_ ?_ rfl) rfl hfillings
      · cases h <;> rfl
      · cases h <;> rfl
      · exact fun hlive => by cases hlive
    · refine hbase.setTwin ha' ?_ ?_ ?_ hfillings
      · cases h <;> rfl
      · cases h <;> rfl
      · intro hlive
        rw [Twin.stage_forget] at hlive
        cases h <;> exact ⟨hlive, rfl, rfl⟩

theorem create (hf : Formed w R) {a : Twin} (hfilling : a.filling = false) (hshaped : a.Shaped)
    (hconcrete : a.kind.Concrete) (hfillings : R'.fillings = R.fillings) :
    Formed (w.admitTwin a).1 R' where
  concrete t b hb := by
    rcases World.of_getElem?_admitTwin hb with ⟨-, rfl⟩ | ⟨-, hb⟩
    · exact hconcrete
    · exact hf.concrete t b hb
  shaped t b hb hstage := by
    rcases World.of_getElem?_admitTwin hb with ⟨-, rfl⟩ | ⟨-, hb⟩
    · exact hshaped
    · exact hf.shaped t b hb hstage
  filled t := by
    have hpush : (w.admitTwin a).1.twins[t]? = (w.twins.push a)[t]? := rfl
    have hold := hf.filled t
    rw [hpush, Array.getElem?_push, Hold.filled_eq hfillings]
    by_cases ht : t = w.twins.size
    · subst ht
      simpa [hfilling] using hold
    · simpa [ht] using hold
  kept p hp b hb hstage := by
    rw [hfillings] at hp
    rcases World.of_getElem?_admitTwin hb with ⟨hp1, rfl⟩ | ⟨-, hb⟩
    · have hnone := hf.filled p.1
      rw [← hp1, Array.getElem?_eq_none (Nat.le_refl _)] at hnone
      simp only [Option.any_none, Bool.false_eq_true, if_false] at hnone
      have hmem : p.1 ∈ R.filled := Multiset.mem_map_of_mem Prod.fst hp
      exact absurd (hp1 ▸ hmem) (Multiset.count_eq_zero.mp hnone)
    · exact hf.kept p hp b hb hstage

/-- A twin that is not being filled is among the held storages of none. -/
theorem ne_of_free (hf : Formed w R) {t : TwinId} {a : Twin} (ha : w.twins[t]? = some a)
    (hfree : a.filling = false) {p : TwinId × List Bool} (hp : p ∈ R.fillings) : p.1 ≠ t := by
  have hcount := hf.filled t
  rw [ha] at hcount
  simp only [Option.any_some, hfree, Bool.false_eq_true, if_false] at hcount
  have hmem : p.1 ∈ R.filled := Multiset.mem_map_of_mem Prod.fst hp
  exact fun heq => Multiset.count_eq_zero.mp hcount (heq ▸ hmem)

theorem fill (hf : Formed w R) {t : TwinId} {a : Twin} (ha : w.twins[t]? = some a)
    (hfree : a.filling = false) :
    Formed (w.setFilling t true) (R + {.storage t a.constructed}) := by
  rw [World.setFilling, World.modifyTwin_eq ha]
  exact {
    concrete := fun i c hc => by
      rcases World.of_getElem?_setTwin ha hc with ⟨-, rfl⟩ | ⟨-, hc⟩
      · exact hf.concrete t a ha
      · exact hf.concrete i c hc
    shaped := fun i c hc hstage => by
      rcases World.of_getElem?_setTwin ha hc with ⟨-, rfl⟩ | ⟨-, hc⟩
      · obtain ⟨hstorage, hconstructed⟩ := hf.shaped t a ha hstage
        exact ⟨hstorage, hconstructed⟩
      · exact hf.shaped i c hc hstage
    filled := fun i => by
      have hold := hf.filled i
      rw [World.getElem?_setTwin ha, Hold.filled_add, Hold.filled_single, Multiset.count_add]
      by_cases hti : t = i
      · subst hti
        rw [ha] at hold
        simp [hold, hfree]
      · simp [hti, hold, Ne.symm hti]
    kept := fun p hp c hc hstage => by
      simp only [Multiset.filterMap_add, Hold.filterMap_single, Token.filling?, Option.elim_some,
        Multiset.mem_add, Multiset.mem_singleton] at hp
      rcases World.of_getElem?_setTwin ha hc with ⟨hpt, rfl⟩ | ⟨hpt, hc⟩
      · rcases hp with hp | rfl
        · exact absurd hpt.symm (hf.ne_of_free ha hfree hp)
        · rfl
      · rcases hp with hp | rfl
        · exact hf.kept p hp c hc hstage
        · exact absurd rfl hpt }

/-- A storage that is held is being filled, and by nobody else. -/
theorem filling_of_held {t : TwinId} {constructed : List Bool}
    (hf : Formed w (R + {.storage t constructed})) :
    ∃ a, w.twins[t]? = some a ∧ a.filling = true ∧ R.filled.count t = 0 := by
  have hcount := hf.filled t
  simp only [Hold.filled_add, Hold.filled_single, Token.filling?, Option.elim_some,
    Multiset.count_add, Multiset.count_singleton_self] at hcount
  cases ha : w.twins[t]? with
  | none => simp [ha] at hcount
  | some a =>
      rw [ha, Option.any_some] at hcount
      by_cases hfilling : a.filling = true
      · rw [if_pos hfilling] at hcount
        exact ⟨a, rfl, hfilling, by omega⟩
      · rw [if_neg hfilling] at hcount
        omega

theorem unfill {t : TwinId} {constructed : List Bool}
    (hf : Formed w (R + {.storage t constructed})) : Formed (w.setFilling t false) R := by
  obtain ⟨a, ha, hfilling, hcount⟩ := hf.filling_of_held
  rw [World.setFilling, World.modifyTwin_eq ha]
  exact {
    concrete := fun i c hc => by
      rcases World.of_getElem?_setTwin ha hc with ⟨-, rfl⟩ | ⟨-, hc⟩
      · exact hf.concrete t a ha
      · exact hf.concrete i c hc
    shaped := fun i c hc hstage => by
      rcases World.of_getElem?_setTwin ha hc with ⟨-, rfl⟩ | ⟨-, hc⟩
      · obtain ⟨hstorage, hconstructed⟩ := hf.shaped t a ha hstage
        exact ⟨hstorage, hconstructed⟩
      · exact hf.shaped i c hc hstage
    filled := fun i => by
      have hold := hf.filled i
      rw [World.getElem?_setTwin ha]
      by_cases hti : t = i
      · subst hti
        simp [hcount]
      · simpa [hti, Multiset.count_singleton, Ne.symm hti] using hold
    kept := fun p hp c hc hstage => by
      have hmem : p.1 ∈ R.filled := Multiset.mem_map_of_mem Prod.fst hp
      rcases World.of_getElem?_setTwin ha hc with ⟨hpt, -⟩ | ⟨-, hc⟩
      · exact absurd (hpt ▸ hmem) (Multiset.count_eq_zero.mp hcount)
      · refine hf.kept p ?_ c hc hstage
        rw [Hold.fillings, Multiset.filterMap_add]
        exact Multiset.mem_add.mpr (Or.inl hp) }

theorem mark (hf : Formed w R) {t : TwinId} {a : Twin} (ha : w.twins[t]? = some a)
    (hfree : a.filling = false) (index : Nat) (base : NativeClass)
    (hfillings : R'.fillings = R.fillings) :
    Formed (Construction.markBuilt t index base w) R' := by
  obtain ⟨v, hv, hmark⟩ : ∃ v : World, v.twins = w.twins ∧ Construction.markBuilt t index base w
      = v.setTwin t { a with constructed := a.constructed.set index true } := by
    unfold Construction.markBuilt
    dsimp only
    split
    · have hsame : (w.record [.rebuilt (base.flatten.map NativeClass.id)]).twins[t]? = some a := ha
      exact ⟨w.record [.rebuilt (base.flatten.map NativeClass.id)], rfl,
        World.modifyTwin_eq hsame _⟩
    · exact ⟨w, rfl, World.modifyTwin_eq ha _⟩
  have hav : v.twins[t]? = some a := hv ▸ ha
  rw [hmark]
  exact {
    concrete := fun i c hc => by
      rcases World.of_getElem?_setTwin hav hc with ⟨-, rfl⟩ | ⟨-, hc⟩
      · exact hf.concrete t a ha
      · exact hf.concrete i c (hv ▸ hc)
    shaped := fun i c hc hstage => by
      rcases World.of_getElem?_setTwin hav hc with ⟨-, rfl⟩ | ⟨-, hc⟩
      · obtain ⟨hstorage, hconstructed⟩ := hf.shaped t a ha hstage
        exact ⟨hstorage, (List.length_set ..).trans hconstructed⟩
      · exact hf.shaped i c (hv ▸ hc) hstage
    filled := fun i => by
      have hold := hf.filled i
      rw [World.getElem?_setTwin hav, Hold.filled_eq hfillings, hv]
      by_cases hti : t = i
      · subst hti
        rw [ha] at hold
        simpa using hold
      · simpa [hti] using hold
    kept := fun p hp c hc hstage => by
      rw [hfillings] at hp
      rcases World.of_getElem?_setTwin hav hc with ⟨hpt, -⟩ | ⟨-, hc⟩
      · exact absurd hpt.symm (hf.ne_of_free ha hfree hp)
      · exact hf.kept p hp c (hv ▸ hc) hstage }

theorem alike (hf : Formed w R) (halike : w.Alike w') : Formed w' R :=
  hf.of_twins_eq halike.twins rfl

theorem step (hf : Formed w R) (hstep : Transition w R w' R') : Formed w' R' := by
  cases hstep with
  | quiet halike => exact hf.alike halike
  | @retain _ h hheld =>
      rw [World.retain]
      cases ha : w.twins[h.twin]? with
      | none =>
          rw [World.modifyTwin_of_none ha]
          exact hf.of_twins_eq rfl (by simp)
      | some a =>
          rw [World.modifyTwin_eq ha]
          cases h <;> exact hf.setTwin ha rfl rfl (fun hlive => ⟨hlive, rfl, rfl⟩) (by simp)
  | letGo h => exact hf.letGo (by simp)
  | depart htwin hstage =>
      exact hf.setTwin htwin rfl rfl (fun hlive => by cases hlive) rfl
  | endClass id =>
      obtain ⟨classes, hframe, -⟩ := w.endClass_frame id
      exact hf.of_twins_eq (by rw [hframe]) (by simp)
  | endNative id =>
      obtain ⟨declared, hframe⟩ := w.endNative_frame id
      exact hf.of_twins_eq (by rw [hframe]) (by simp)
  | create hnative hdynamic hstage hfilling hshaped hkeeps hconcrete =>
      exact hf.create hfilling hshaped hconcrete (by simp)
  | store htwin hstage storage attrs owner moved hshape taken given hbag =>
      exact hf.setTwin htwin rfl rfl (fun hlive => ⟨hlive, rfl, hshape⟩) (by simp)
  | fill htwin hfree => exact hf.fill htwin hfree
  | unfill t constructed => exact hf.unfill
  | mark htwin hstage hfree hbase hagain => exact hf.mark htwin hfree _ _ (by simp)
  | bind x b =>
      refine hf.of_twins_eq rfl ?_
      simp only [Hold.fillings, Multiset.filterMap_add]
      rw [w.filterMap_varHold x (by simp) (by simp) (by simp),
        w.filterMap_bindingHold b (by simp) (by simp) (by simp)]
  | unbind x =>
      refine hf.of_twins_eq rfl ?_
      simp only [Hold.fillings, Multiset.filterMap_add]
      rw [w.filterMap_varHold x (by simp) (by simp) (by simp), add_zero]
  | @leaveGroup i g hg =>
      refine hf.of_twins_eq rfl ?_
      split <;> simp
  | _ => exact hf.of_twins_eq rfl (by simp)

end Formed

end TwinObject
