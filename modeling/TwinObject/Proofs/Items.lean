/-
What vectors hold.  Each instance that is put into a vector is new, so what a vector
holds is in the order in which it came to be, and no instance is held twice, by one
vector or by two.
-/
import TwinObject.Proofs.Typing

namespace TwinObject

/-- What holds of the items of the vectors of a state. -/
structure Listed (w : World) : Prop where
  ascending : ∀ (i : Nat) (v : InstanceVec), w.vecs[i]? = some v → v.items.Pairwise (· < ·)
  apart : ∀ (i j : Nat) (u v : InstanceVec), i ≠ j → w.vecs[i]? = some u → w.vecs[j]? = some v →
    ∀ t ∈ u.items, t ∉ v.items
  classed : ∀ (i : Nat) (v : InstanceVec), w.vecs[i]? = some v → ∀ t ∈ v.items, w.isA t v.element

namespace World.Edits

variable {w : World} {v : InstanceVec} {items : List TwinId}

/-- What a vector holds after a step it held before, unless it is newer than all that vectors
hold. -/
theorem old_or_new (hedits : w.Edits v items) {t : TwinId} (ht : t ∈ items) :
    t ∈ v.items ∨ w.isA t v.element ∧ ∀ (j : Nat) (u : InstanceVec), w.vecs[j]? = some u →
      ∀ s ∈ u.items, s < t := by
  cases hedits with
  | append hisA hnew =>
      rcases List.mem_append.mp ht with hold | hlast
      · exact .inl hold
      · cases List.mem_singleton.mp hlast
        exact .inr ⟨hisA, hnew⟩
  | erase index => exact .inl (List.mem_of_mem_eraseIdx ht)
  | clear => cases ht

theorem ascending (hedits : w.Edits v items) {i : Nat} (hv : w.vecs[i]? = some v)
    (hascending : v.items.Pairwise (· < ·)) : items.Pairwise (· < ·) := by
  cases hedits with
  | append hisA hnew =>
      refine List.pairwise_append.mpr ⟨hascending, List.pairwise_singleton _ _, ?_⟩
      intro s hs t ht
      cases List.mem_singleton.mp ht
      exact hnew i v hv s hs
  | erase index => exact hascending.sublist (List.eraseIdx_sublist _ _)
  | clear => exact .nil

end World.Edits

/-- What a step can do to vectors: nothing, bring a new one into being, have one held more or less
often, or edit one. -/
theorem Transition.vecs_cases {w w' : World} {R R' : Hold} (hstep : Transition w R w' R') :
    w'.vecs = w.vecs
      ∨ (∃ element, w'.vecs = w.vecs.push ⟨element, [], 1⟩)
      ∨ (∃ (i : Nat) (f : Nat → Nat),
        w'.vecs = w.vecs.modify i fun v => { v with holders := f v.holders })
      ∨ ∃ i v items, w.vecs[i]? = some v ∧ w.Edits v items ∧ w' = w.setItems i items := by
  cases hstep with
  | quiet halike => exact .inl halike.vecs
  | letGo h =>
      obtain ⟨twins, journal, hframe⟩ := w.letGo_frame h
      exact .inl (by rw [hframe])
  | endClass id =>
      obtain ⟨classes, hframe, -⟩ := w.endClass_frame id
      exact .inl (by rw [hframe])
  | endNative id =>
      obtain ⟨declared, hframe⟩ := w.endNative_frame id
      exact .inl (by rw [hframe])
  | @mark _ t _ index b htwin hstage hfree hbase hagain =>
      obtain ⟨twins, journal, hframe⟩ := w.markBuilt_frame t index b.base
      exact .inl (by rw [hframe])
  | newVec element => exact .inr (.inl ⟨element, rfl⟩)
  | holdVec hi => exact .inr (.inr (.inl ⟨_, (· + 1), rfl⟩))
  | leaveVec i => exact .inr (.inr (.inl ⟨i, (· - 1), rfl⟩))
  | storeVec hv items taken given hbag hedits =>
      exact .inr (.inr (.inr ⟨_, _, items, hv, hedits, rfl⟩))
  | _ => exact .inl rfl

namespace Listed

variable {w w' : World} {R R' : Hold}

theorem initial : Listed .initial where
  ascending i v hv := by simp [World.initial, World.declareInterp] at hv
  apart i j u v _ hu := by simp [World.initial, World.declareInterp] at hu
  classed i v hv := by simp [World.initial, World.declareInterp] at hv

/-- Each vector holds what one held before, and is of the same class. -/
theorem of_same (hl : Listed w) (hpersists : Persists w w')
    (hsame : ∀ (i : Nat) (v : InstanceVec), w'.vecs[i]? = some v → v.items = [] ∨
      ∃ u, w.vecs[i]? = some u ∧ v.element = u.element ∧ v.items = u.items) : Listed w' where
  ascending i v hv := by
    rcases hsame i v hv with hempty | ⟨u, hu, -, hitems⟩
    · rw [hempty]
      exact .nil
    · rw [hitems]
      exact hl.ascending i u hu
  apart i j u v hij hu hv t ht := by
    rcases hsame i u hu with hempty | ⟨u', hu', -, hitems⟩
    · rw [hempty] at ht
      cases ht
    · rcases hsame j v hv with hempty | ⟨v', hv', -, hitems'⟩
      · rw [hempty]
        exact List.not_mem_nil
      · rw [hitems] at ht
        rw [hitems']
        exact hl.apart i j u' v' hij hu' hv' t ht
  classed i v hv t ht := by
    rcases hsame i v hv with hempty | ⟨u, hu, helement, hitems⟩
    · rw [hempty] at ht
      cases ht
    · rw [hitems] at ht
      rw [helement]
      exact World.isA_mono hpersists (hl.classed i u hu t ht)

theorem of_eq (hl : Listed w) (hpersists : Persists w w') (hvecs : w'.vecs = w.vecs) :
    Listed w' :=
  hl.of_same hpersists fun _ v hv => .inr ⟨v, hvecs ▸ hv, rfl, rfl⟩

/-- A vector is held more or less often, and holds what it held. -/
theorem setHolders (hl : Listed w) (hpersists : Persists w w') {i : Nat} (f : Nat → Nat)
    (hvecs : w'.vecs = w.vecs.modify i fun v => { v with holders := f v.holders }) :
    Listed w' := by
  refine hl.of_same hpersists fun j v hv => .inr ?_
  rw [hvecs, Array.getElem?_modify] at hv
  split at hv
  · obtain ⟨u, hu, rfl⟩ := Option.map_eq_some_iff.mp hv
    exact ⟨u, hu, rfl, rfl⟩
  · exact ⟨v, hv, rfl, rfl⟩

theorem newVec (hl : Listed w) (hpersists : Persists w w') {element : String}
    (hvecs : w'.vecs = w.vecs.push ⟨element, [], 1⟩) : Listed w' := by
  refine hl.of_same hpersists fun j v hv => ?_
  rw [hvecs, Array.getElem?_push] at hv
  split at hv
  · cases hv
    exact .inl rfl
  · exact .inr ⟨v, hv, rfl, rfl⟩

theorem storeVec (hl : Listed w) {i : Nat} {v : InstanceVec} {items : List TwinId}
    (hv : w.vecs[i]? = some v) (hedits : w.Edits v items) : Listed (w.setItems i items) := by
  -- A vector afterwards is the one that was written, or stood there before.
  have hcases : ∀ (j : Nat) (u : InstanceVec), (w.setItems i items).vecs[j]? = some u →
      i = j ∧ u = { v with items } ∨ i ≠ j ∧ w.vecs[j]? = some u := by
    intro j u hu
    simp only [World.setItems, Array.getElem?_modify] at hu
    split at hu
    · rename_i hij
      subst hij
      rw [hv] at hu
      exact .inl ⟨rfl, (Option.some.inj hu).symm⟩
    · rename_i hij
      exact .inr ⟨hij, hu⟩
  have hfresh : ∀ (j : Nat) (u : InstanceVec), i ≠ j → w.vecs[j]? = some u →
      ∀ t ∈ items, t ∉ u.items := by
    intro j u hij hu t ht hmem
    rcases hedits.old_or_new ht with hold | ⟨-, hnew⟩
    · exact hl.apart i j v u hij hv hu t hold hmem
    · exact Nat.lt_irrefl t (hnew j u hu t hmem)
  refine ⟨fun j u hu => ?_, fun j k u u' hjk hu hu' t ht => ?_, fun j u hu t ht => ?_⟩
  · rcases hcases j u hu with ⟨rfl, rfl⟩ | ⟨-, hu⟩
    · exact hedits.ascending hv (hl.ascending _ v hv)
    · exact hl.ascending j u hu
  · rcases hcases j u hu with ⟨rfl, rfl⟩ | ⟨hij, hu⟩
    · rcases hcases k u' hu' with ⟨hik, -⟩ | ⟨hik, hu'⟩
      · exact absurd hik hjk
      · exact hfresh k u' hik hu' t ht
    · rcases hcases k u' hu' with ⟨rfl, rfl⟩ | ⟨-, hu'⟩
      · exact fun hmem => hfresh j u hij hu t hmem ht
      · exact hl.apart j k u u' hjk hu hu' t ht
  · rcases hcases j u hu with ⟨rfl, rfl⟩ | ⟨-, hu⟩
    · rcases hedits.old_or_new ht with hold | ⟨hisA, -⟩
      · exact hl.classed _ v hv t hold
      · exact hisA
    · exact hl.classed j u hu t ht

theorem alike (hl : Listed w) (halike : w.Alike w') : Listed w' :=
  hl.of_eq (.alike halike) halike.vecs

theorem step (hl : Listed w) (hstep : Transition w R w' R') : Listed w' := by
  have hpersists := Persists.of_step hstep
  rcases hstep.vecs_cases with hsame | ⟨element, hnew⟩ | ⟨i, f, hholders⟩
    | ⟨i, v, items, hv, hedits, rfl⟩
  · exact hl.of_eq hpersists hsame
  · exact hl.newVec hpersists hnew
  · exact hl.setHolders hpersists f hholders
  · exact hl.storeVec hv hedits

end Listed

end TwinObject
