/-
Compositions of native bases.  Tables can be merged if any two of them agree on
what a common key returns, and then each key has the slot it would inherit from
them.  What a key returns and whether its slot is pure is the same in any order
of the bases; which of several bodies runs is not.
-/
import Mathlib.Data.List.Pairwise
import TwinObject.Proofs.Returns

namespace TwinObject

namespace VTable

variable {t u t' : VTable} {tables : List VTable} {slot : Slot} {k : SlotKey}

/-- Two tables return the same for each key that both have. -/
def Agrees (t u : VTable) : Prop :=
  ∀ k s s', t.slotFor? k = some s → u.slotFor? k = some s' → s.ret = s'.ret

theorem Agrees.refl (t : VTable) : t.Agrees t := by
  intro k s s' hs hs'
  rw [hs] at hs'
  cases hs'
  rfl

instance : Std.Symm Agrees where
  symm _ _ h k s s' hs hs' := (h k s' s hs' hs).symm

theorem mergeSlot_of_agrees
    (hret : ∀ existing, t.slotFor? slot.key = some existing → existing.ret = slot.ret) :
    ∃ t', t.mergeSlot slot = .ok t' := by
  unfold mergeSlot
  split
  · exact ⟨_, rfl⟩
  · rename_i index existing hin
    rw [if_neg (not_not.mpr (hret existing (inherited_eq_some hin).2.1))]
    split <;> exact ⟨_, rfl⟩

theorem mergeSlots_of_agrees {slots : List Slot} (hnodup : (slots.map Slot.key).Nodup)
    (hret : ∀ slot ∈ slots, ∀ existing, t.slotFor? slot.key = some existing →
      existing.ret = slot.ret) :
    ∃ t', slots.foldlM mergeSlot t = .ok t' := by
  induction slots generalizing t with
  | nil => exact ⟨t, rfl⟩
  | cons slot rest ih =>
      obtain ⟨hnew, hdistinct⟩ := List.nodup_cons.mp hnodup
      obtain ⟨t₁, hstep⟩ := mergeSlot_of_agrees (hret slot List.mem_cons_self)
      obtain ⟨s, hsets, hkey, -, -, -⟩ := mergeSlot_ok hstep
      rw [List.foldlM_cons, hstep]
      refine ih hdistinct fun other hother existing hexisting => ?_
      -- the keys are distinct, so the slot taken in does not stand in the way of `other`
      have hne : other.key ≠ slot.key := fun h => hnew (h ▸ List.mem_map_of_mem hother)
      rw [hsets.slots, hkey, if_neg hne] at hexisting
      exact hret other (List.mem_cons_of_mem slot hother) existing hexisting

theorem merge_of_agrees (hnodup : u.keys.Nodup) (h : t.Agrees u) : ∃ t', t.merge u = .ok t' := by
  refine mergeSlots_of_agrees hnodup fun slot hslot existing hexisting => ?_
  obtain ⟨other, hother⟩ := exists_slotFor_iff.mpr (List.mem_map_of_mem (f := Slot.key) hslot)
  have hsame : other = slot :=
    List.inj_on_of_nodup_map hnodup (List.mem_of_find?_eq_some hother) hslot
      (key_of_slotFor hother)
  exact h slot.key existing slot hexisting (hsame ▸ hother)

theorem agrees_of_merge (hnodup : u.keys.Nodup) (h : t.merge u = .ok t') : t.Agrees u := by
  obtain ⟨hgoes, -, hrets⟩ := merge_ok hnodup h
  intro k s s' hs hs'
  obtain ⟨now, hnow, hret⟩ := hgoes.returns k s hs
  obtain ⟨now', hnow', hret'⟩ := hrets k s' hs'
  rw [hnow] at hnow'
  cases hnow'
  exact hret.symm.trans hret'

/-- A merged table agrees with all that both parts agree with. -/
theorem agrees_merge_iff {v : VTable} (hnodup : u.keys.Nodup) (h : t.merge u = .ok t') :
    t'.Agrees v ↔ t.Agrees v ∧ u.Agrees v := by
  obtain ⟨hgoes, hslots, hrets⟩ := merge_ok hnodup h
  refine ⟨fun hv => ⟨fun k s s' hs hs' => ?_, fun k s s' hs hs' => ?_⟩, ?_⟩
  · obtain ⟨now, hnow, hret⟩ := hgoes.returns k s hs
    exact hret.symm.trans (hv k now s' hnow hs')
  · obtain ⟨now, hnow, hret⟩ := hrets k s hs
    exact hret.symm.trans (hv k now s' hnow hs')
  · rintro ⟨ht, hu⟩ k now s' hnow hs'
    rw [hslots] at hnow
    cases hold : t.slotFor? k with
    | none =>
        rw [hold, none_prefer] at hnow
        exact hu k now s' hnow hs'
    | some s =>
        obtain ⟨now', hnow', hret⟩ := hgoes.returns k s hold
        rw [hslots, hnow] at hnow'
        cases hnow'
        exact hret.trans (ht k s s' hold hs')

/-- Tables can be merged one after another exactly if any two of them agree. -/
theorem mergeAll_ok_iff (hnodup : ∀ u ∈ tables, u.keys.Nodup) :
    (∃ t', tables.foldlM merge t = .ok t') ↔ (t :: tables).Pairwise Agrees := by
  induction tables generalizing t with
  | nil => simp [pure, Except.pure]
  | cons u rest ih =>
      have hu := hnodup u List.mem_cons_self
      have hrest : ∀ v ∈ rest, v.keys.Nodup := fun v hv => hnodup v (List.mem_cons_of_mem u hv)
      constructor
      · rintro ⟨t', h⟩
        obtain ⟨t₁, hstep, hgo⟩ := foldlM_cons_ok h
        obtain ⟨hhead, htail⟩ := List.pairwise_cons.mp ((ih hrest).mp ⟨t', hgo⟩)
        have hsplit : ∀ v ∈ rest, t.Agrees v ∧ u.Agrees v := fun v hv =>
          (agrees_merge_iff hu hstep).mp (hhead v hv)
        refine .cons (List.forall_mem_cons.mpr ⟨agrees_of_merge hu hstep, ?_⟩)
          (.cons (fun v hv => (hsplit v hv).2) htail)
        exact fun v hv => (hsplit v hv).1
      · intro h
        obtain ⟨hhead, htail⟩ := List.pairwise_cons.mp h
        obtain ⟨hnext, htail⟩ := List.pairwise_cons.mp htail
        obtain ⟨hagrees, hhead⟩ := List.forall_mem_cons.mp hhead
        obtain ⟨t₁, hstep⟩ := merge_of_agrees hu hagrees
        rw [List.foldlM_cons, hstep]
        refine (ih hrest).mpr (.cons (fun v hv => ?_) htail)
        exact (agrees_merge_iff hu hstep).mpr ⟨hhead v hv, hnext v hv⟩

theorem exists_of_inheritedSlot (h : inheritedSlot? tables k = some slot) :
    ∃ t ∈ tables, t.slotFor? k = some slot := by
  rcases Option.or_eq_some_iff.mp h with h | ⟨-, h⟩
  · obtain ⟨t, ht, hslot⟩ := List.exists_of_findSome?_eq_some h
    exact ⟨t, ht, (Option.filter_eq_some_iff.mp hslot).1⟩
  · exact List.exists_of_findSome?_eq_some h

theorem agrees_empty (u : VTable) : empty.Agrees u :=
  fun _ _ _ hs _ => nomatch hs

theorem isPure_of_prefer {a b : Option Slot} {s : Slot} (h : prefer a b = some s) :
    s.isPure ↔ (∀ x, a = some x → x.isPure) ∧ ∀ y, b = some y → y.isPure := by
  cases a with
  | none => simp_all
  | some x =>
      cases b with
      | none => simp_all
      | some y => cases hx : x.isPure <;> cases hy : y.isPure <;> simp_all [prefer]

/-- The slot that a key inherits is pure exactly if no table implements the key. -/
theorem isPure_inheritedSlot (h : inheritedSlot? tables k = some slot) :
    slot.isPure ↔ ∀ t ∈ tables, ∀ s, t.slotFor? k = some s → s.isPure := by
  induction tables generalizing slot with
  | nil => cases h
  | cons t rest ih =>
      rw [inheritedSlot_cons] at h
      rw [isPure_of_prefer h, List.forall_mem_cons]
      refine and_congr_right fun _ => ?_
      cases hrest : inheritedSlot? rest k with
      | some other => simpa using ih hrest
      | none =>
          have hnone : ∀ u ∈ rest, u.slotFor? k = none := by
            intro u hu
            rw [slotFor_eq_none_iff]
            intro hk
            have := (inheritedSlot_isSome_iff rest k).mpr ⟨u, hu, hk⟩
            simp [hrest] at this
          constructor
          · intro _ u hu s hs
            simp [hnone u hu] at hs
          · simp

end VTable

theorem firstPair?_eq_none_iff {α β : Type} {f : α → α → Option β} {as : List α} :
    firstPair? f as = none ↔ as.Pairwise fun a b => f a b = none := by
  refine ⟨pairwise_of_firstPair?, fun h => ?_⟩
  induction h with
  | nil => rfl
  | cons hhead _ ih =>
      rw [firstPair?, Option.or_eq_none_iff, List.findSome?_eq_none_iff]
      exact ⟨hhead, ih⟩

theorem NativeClass.sharedAncestor?_eq_none_iff {a b : NativeClass} :
    a.sharedAncestor? b = none ↔ a.lineage.Disjoint b.lineage := by
  simp [sharedAncestor?, List.find?_eq_none, List.Disjoint]

namespace Composition

variable {bases bases' : List NativeClass} {c c' : Composition}

/-- Bases that fit together: there is one, no two of them are or derive from the same
class, and all with a slot for some key return the same for it. -/
structure Fits (bases : List NativeClass) : Prop where
  nonempty : bases ≠ []
  disjoint : bases.Pairwise fun a b => a.lineage.Disjoint b.lineage
  agree : ∀ a ∈ bases, ∀ b ∈ bases, ∀ k s s', a.vtable.slotFor? k = some s →
    b.vtable.slotFor? k = some s' → s.ret = s'.ret

theorem Fits.perm (h : Fits bases) (hperm : bases.Perm bases') : Fits bases' where
  nonempty hnil := h.nonempty (hnil ▸ hperm).eq_nil
  disjoint := (hperm.pairwise_iff List.Disjoint.symm).mp h.disjoint
  agree a ha b hb := h.agree a (hperm.mem_iff.mpr ha) b (hperm.mem_iff.mpr hb)

/-- What comes of bases that are composed: their keys, each once, and for each the slot
of the first base that implements it, else of the first that has it. -/
structure Merges (bases : List NativeClass) (c : Composition) : Prop where
  bases_eq : c.bases = bases
  nodup : c.vtable.keys.Nodup
  keys : ∀ k, k ∈ c.vtable.keys ↔ ∃ b ∈ bases, k ∈ b.vtable.keys
  slots : ∀ k, c.vtable.slotFor? k = VTable.inheritedSlot? (bases.map NativeClass.vtable) k

theorem merges_of_slots (hbases : c.bases = bases) (hnodup : c.vtable.keys.Nodup)
    (hslots : ∀ k, c.vtable.slotFor? k = VTable.inheritedSlot? (bases.map NativeClass.vtable) k) :
    Merges bases c where
  bases_eq := hbases
  nodup := hnodup
  keys k := by
    rw [← VTable.exists_slotFor_iff, ← Option.isSome_iff_exists, hslots,
      VTable.inheritedSlot_isSome_iff]
    simp only [List.mem_map, exists_exists_and_eq_and]
  slots := hslots

theorem merges_single {base : NativeClass} (hnodup : base.vtable.keys.Nodup) :
    Merges [base] (single base) :=
  merges_of_slots rfl hnodup fun k => by
    rw [List.map_singleton, VTable.inheritedSlot_cons]
    exact (VTable.prefer_none _).symm

/-- Two bases and more are composed if they are disjoint and their tables can be merged. -/
theorem compose_many {a b : NativeClass} {rest : List NativeClass} :
    compose (a :: b :: rest) = .ok c ↔
      ((a :: b :: rest).Pairwise fun x y => x.lineage.Disjoint y.lineage)
        ∧ c.bases = a :: b :: rest
        ∧ ((a :: b :: rest).map NativeClass.vtable).foldlM VTable.merge VTable.empty
            = .ok c.vtable := by
  have hapart : firstPair? (fun x y => (x.sharedAncestor? y).map fun _ => (x, y)) (a :: b :: rest)
      = none ↔ (a :: b :: rest).Pairwise fun x y => x.lineage.Disjoint y.lineage := by
    simp only [firstPair?_eq_none_iff, Option.map_eq_none_iff,
      NativeClass.sharedAncestor?_eq_none_iff]
  rw [← hapart, List.foldlM_map]
  constructor
  · intro h
    rw [compose] at h
    split at h
    · cases h
    · rename_i hnone
      cases hmerge : (a :: b :: rest).foldlM (fun table x => table.merge x.vtable) VTable.empty with
      | error e =>
          rw [hmerge] at h
          cases h
      | ok table =>
          rw [hmerge] at h
          cases h
          exact ⟨hnone, rfl, rfl⟩
    · simp
    · simp
  · rintro ⟨hnone, hbases, hmerge⟩
    rw [compose, hnone]
    · dsimp only
      rw [hmerge]
      cases c
      cases hbases
      rfl
    · simp
    · simp

theorem compose_merges (hbuilt : ∀ b ∈ bases, b.Built) (h : compose bases = .ok c) :
    Merges bases c := by
  match bases, hbuilt, h with
  | [], _, h => cases h
  | [base], hbuilt, h =>
      cases h
      exact merges_single (hbuilt base List.mem_cons_self).nodup_keys
  | a :: b :: rest, hbuilt, h =>
      obtain ⟨-, hbases, hmerge⟩ := compose_many.mp h
      obtain ⟨hgoes, hslots, -⟩ := VTable.mergeAll_ok
        (List.forall_mem_map.mpr fun x hx => (hbuilt x hx).nodup_keys) hmerge
      exact merges_of_slots hbases (hgoes.nodup List.nodup_nil) hslots

theorem fits_single (base : NativeClass) : Fits [base] where
  nonempty := List.cons_ne_nil base []
  disjoint := List.pairwise_singleton _ base
  agree a ha b hb := by
    rw [List.mem_singleton.mp ha, List.mem_singleton.mp hb]
    exact VTable.Agrees.refl base.vtable

theorem compose_ok_iff (hbuilt : ∀ b ∈ bases, b.Built) :
    (∃ c, compose bases = .ok c) ↔ Fits bases := by
  match bases, hbuilt with
  | [], _ => exact ⟨fun ⟨_, h⟩ => (nomatch h), fun h => absurd rfl h.nonempty⟩
  | [base], _ => exact ⟨fun _ => fits_single base, fun _ => ⟨single base, rfl⟩⟩
  | a :: b :: rest, hbuilt =>
      have hmerge := VTable.mergeAll_ok_iff (t := VTable.empty)
        (List.forall_mem_map.mpr fun x hx => (hbuilt x hx).nodup_keys)
      rw [List.pairwise_cons] at hmerge
      constructor
      · rintro ⟨c, h⟩
        obtain ⟨hdisjoint, -, hok⟩ := compose_many.mp h
        refine ⟨List.cons_ne_nil a _, hdisjoint, fun x hx y hy => ?_⟩
        exact (hmerge.mp ⟨_, hok⟩).2.forall_of_forall (fun u _ => .refl u)
          (List.mem_map_of_mem hx) (List.mem_map_of_mem hy)
      · intro h
        have hagree : (a :: b :: rest).Pairwise fun x y => x.vtable.Agrees y.vtable :=
          List.pairwise_of_forall_mem_list h.agree
        obtain ⟨table, hok⟩ := hmerge.mpr
          ⟨fun u _ => VTable.agrees_empty u, List.pairwise_map.mpr hagree⟩
        exact ⟨⟨a :: b :: rest, table⟩, compose_many.mpr ⟨h.disjoint, rfl, hok⟩⟩

/-- What a key of the merged table returns, each base that has the key returns. -/
theorem Merges.ret_of_slot (h : Merges bases c) (hfits : Fits bases) {k : SlotKey} {s : Slot}
    (hslot : c.vtable.slotFor? k = some s) {b : NativeClass} (hb : b ∈ bases) {s' : Slot}
    (hs' : b.vtable.slotFor? k = some s') : s.ret = s'.ret := by
  rw [h.slots] at hslot
  obtain ⟨t, ht, hs⟩ := VTable.exists_of_inheritedSlot hslot
  obtain ⟨a, ha, rfl⟩ := List.mem_map.mp ht
  exact hfits.agree a ha b hb k s s' hs hs'

/-- The order of the bases changes neither what a key returns nor whether it is pure. -/
theorem Merges.alike (h : Merges bases c) (h' : Merges bases' c') (hfits : Fits bases)
    (hperm : bases.Perm bases') (k : SlotKey) :
    (k ∈ c.vtable.keys ↔ k ∈ c'.vtable.keys)
      ∧ ((c.vtable.slotFor? k).map Slot.ret = (c'.vtable.slotFor? k).map Slot.ret)
      ∧ (c.vtable.slotFor? k).map Slot.isPure = (c'.vtable.slotFor? k).map Slot.isPure := by
  have hkeys : k ∈ c.vtable.keys ↔ k ∈ c'.vtable.keys := by
    rw [h.keys, h'.keys]
    simp only [hperm.mem_iff]
  refine ⟨hkeys, ?_⟩
  cases hslot : c.vtable.slotFor? k with
  | none =>
      rw [VTable.slotFor_eq_none_iff, hkeys, ← VTable.slotFor_eq_none_iff] at hslot
      rw [hslot]
      exact ⟨rfl, rfl⟩
  | some s =>
      obtain ⟨s', hslot'⟩ := VTable.exists_slotFor_iff.mpr
        (hkeys.mp (VTable.exists_slotFor_iff.mp ⟨s, hslot⟩))
      have hret : s.ret = s'.ret := by
        rw [h'.slots] at hslot'
        obtain ⟨t, ht, hs'⟩ := VTable.exists_of_inheritedSlot hslot'
        obtain ⟨b, hb, rfl⟩ := List.mem_map.mp ht
        exact h.ret_of_slot hfits hslot (hperm.mem_iff.mpr hb) hs'
      have hpure : s.isPure = s'.isPure := by
        rw [h.slots] at hslot
        rw [h'.slots] at hslot'
        rw [Bool.eq_iff_iff, VTable.isPure_inheritedSlot hslot, VTable.isPure_inheritedSlot hslot']
        simp only [List.mem_map, hperm.mem_iff]
      rw [hslot']
      exact ⟨congrArg some hret, congrArg some hpure⟩

end Composition

/-- Bases that are composed, over any list of them.  The composition exists exactly if
there is a base, no two bases have a class in common and all agree on what a key
returns; its table has the keys of all bases, each once, with the slot of the first base
that implements the key, else of the first that has it; and in any other order of
the bases it exists as well, with the same keys, each of which returns the same and is
pure or not as before. -/
theorem compositions_merge {bases : List NativeClass} (hbuilt : ∀ b ∈ bases, b.Built) :
    ((∃ c, Composition.compose bases = .ok c) ↔ Composition.Fits bases)
      ∧ (∀ c, Composition.compose bases = .ok c → Composition.Merges bases c)
      ∧ ∀ bases' : List NativeClass, bases.Perm bases' →
          ((∃ c', Composition.compose bases' = .ok c') ↔ ∃ c, Composition.compose bases = .ok c)
          ∧ ∀ c c', Composition.compose bases = .ok c → Composition.compose bases' = .ok c' →
            ∀ k, (k ∈ c.vtable.keys ↔ k ∈ c'.vtable.keys)
              ∧ ((c.vtable.slotFor? k).map Slot.ret = (c'.vtable.slotFor? k).map Slot.ret)
              ∧ (c.vtable.slotFor? k).map Slot.isPure = (c'.vtable.slotFor? k).map Slot.isPure := by
  have haccept := Composition.compose_ok_iff hbuilt
  refine ⟨haccept, fun c => Composition.compose_merges hbuilt, fun bases' hperm => ?_⟩
  have hbuilt' : ∀ b ∈ bases', b.Built := fun b hb => hbuilt b (hperm.mem_iff.mpr hb)
  refine ⟨?_, fun c c' hc hc' => ?_⟩
  · rw [haccept, Composition.compose_ok_iff hbuilt']
    exact ⟨fun h => h.perm hperm.symm, fun h => h.perm hperm⟩
  · exact (Composition.compose_merges hbuilt hc).alike (Composition.compose_merges hbuilt' hc')
      (haccept.mp ⟨c, hc⟩) hperm

/-! A label says what it measures, and the measured thing how. -/

namespace Figures

def labelDecl : NativeDecl where
  name := "Label"
  virtuals := [⟨area, .int, none⟩, ⟨copy, .ptr "Label", some .this⟩]

def label : NativeClass :=
  classOf labelDecl ⟨3⟩ ⟨labelDecl.virtuals.map labelDecl.slotOf⟩

end Figures

open Figures in
theorem compositions_merge_label :
    (∀ b ∈ [label, measured], b.Built)
      ∧ (∃ c, Composition.compose [label, measured] = .ok c
          ∧ (c.vtable.slotFor? area).map Slot.origin = some (some .argCount, "Measured"))
      ∧ (∃ c', Composition.compose [measured, label] = .ok c')
      ∧ ¬∃ c, Composition.compose [label, label] = .ok c := by
  have hlabel : label.Built := by
    have hbuild : labelDecl.build (fun _ => "") ⟨3⟩ = .ok label := rfl
    have hparents : ∀ p ∈ labelDecl.parents, p.Built := fun _ hp => nomatch hp
    exact .declared hparents hbuild
  have hmeasured : measured.Built := by
    have hbuild : measuredDecl.build (fun _ => "") ⟨1⟩ = .ok measured := rfl
    have hparents : ∀ p ∈ measuredDecl.parents, p.Built := fun _ hp => nomatch hp
    exact .declared hparents hbuild
  have htwice : ∀ b ∈ [label, label], b.Built :=
    fun b hb => (List.mem_pair.mp hb).elim (· ▸ hlabel) (· ▸ hlabel)
  have hbuilt : ∀ b ∈ [label, measured], b.Built := by
    rintro b hb
    rcases List.mem_pair.mp hb with rfl | rfl
    · exact hlabel
    · exact hmeasured
  obtain ⟨-, hmerges, horder⟩ := compositions_merge hbuilt
  obtain ⟨hfits, -, -⟩ := compositions_merge htwice
  obtain ⟨c, hc⟩ : ∃ c, Composition.compose [label, measured] = .ok c := ⟨_, rfl⟩
  refine ⟨hbuilt, ⟨c, hc, ?_⟩, (horder _ (.swap _ _ [])).1.mpr ⟨c, hc⟩, fun h => ?_⟩
  · rw [(hmerges c hc).slots area]
    rfl
  · have hdisjoint := (List.pairwise_cons.mp (hfits.mp h).disjoint).1 label List.mem_cons_self
    exact hdisjoint (a := ⟨3⟩) List.mem_cons_self List.mem_cons_self

end TwinObject
