/-
Virtual tables as inheritance.  A table is read as a map from keys to slots: to
merge the table of a further base, and to take in an own declaration, each have
a closed form there, and both only append keys to a table.
-/
import TwinObject.NativeClass.Declare
import TwinObject.Proofs.Classes

namespace TwinObject

/-- What runs for a slot, and which class it comes from. -/
def Slot.origin (slot : Slot) : Option NativeExpr × String :=
  (slot.body, slot.declaredIn)

namespace VTable

variable {t t' : VTable} {slot : Slot} {k : SlotKey}

/-- The keys in the order of the slots. -/
def keys (t : VTable) : List SlotKey :=
  t.slots.map Slot.key

/-- The slot of a key. -/
def slotFor? (t : VTable) (k : SlotKey) : Option Slot :=
  t.slots.find? fun slot => slot.key = k

theorem slotFor_eq_none_iff : t.slotFor? k = none ↔ k ∉ t.keys := by
  simp [slotFor?, keys]

theorem exists_slotFor_iff : (∃ slot, t.slotFor? k = some slot) ↔ k ∈ t.keys := by
  rw [← Option.isSome_iff_exists, ← not_iff_not, ← slotFor_eq_none_iff,
    Option.not_isSome_iff_eq_none]

theorem key_of_slotFor (h : t.slotFor? k = some slot) : slot.key = k := by
  simpa using List.find?_some h

/-- What `inherited?` answers is the slot of the key, and its index is the first one
with that key. -/
theorem inherited_eq_some {index : Nat} {existing : Slot}
    (h : t.inherited? slot = some (index, existing)) :
    t.slots[index]? = some existing ∧ t.slotFor? slot.key = some existing
      ∧ ∀ s ∈ t.slots.take index, s.key ≠ slot.key := by
  obtain ⟨i, hi, hrest⟩ := Option.bind_eq_some_iff.mp h
  obtain ⟨e, he, hpair⟩ := Option.bind_eq_some_iff.mp hrest
  cases hpair
  obtain ⟨hlt, hkey, hfirst⟩ := List.findIdx?_eq_some_iff_getElem.mp hi
  have hget : t.slots[index] = existing := by
    simpa [get?, List.getElem?_eq_getElem hlt] using he
  refine ⟨he, ?_, fun s hs => ?_⟩
  · refine List.find?_eq_some_iff_getElem.mpr ⟨by rw [← hget]; exact hkey, index, hlt, hget, ?_⟩
    intro j hj
    simpa using hfirst j hj
  · obtain ⟨j, hj, rfl⟩ := List.mem_take_iff_getElem.mp hs
    simpa using hfirst j (by omega)

theorem inherited_eq_none (h : t.inherited? slot = none) : slot.key ∉ t.keys := by
  rw [← slotFor_eq_none_iff, slotFor?, List.find?_eq_none]
  intro s hs hkey
  obtain ⟨i, hi⟩ : ∃ i, t.position? slot.key = some i := by
    rw [← Option.isSome_iff_exists, position?, List.findIdx?_isSome]
    exact List.any_eq_true.mpr ⟨s, hs, hkey⟩
  obtain ⟨hlt, -, -⟩ := List.findIdx?_eq_some_iff_getElem.mp hi
  simp [inherited?, hi, get?, List.getElem?_eq_getElem hlt] at h

/-- A table in which a slot stands at its key, and nothing else is different: the key
keeps its index if it had one, and comes last if it is new. -/
structure Sets (t : VTable) (slot : Slot) (t' : VTable) : Prop where
  keys : t'.keys = if slot.key ∈ t.keys then t.keys else t.keys ++ [slot.key]
  slots : ∀ k, t'.slotFor? k = if k = slot.key then some slot else t.slotFor? k

theorem Sets.push (hnew : slot.key ∉ t.keys) : t.Sets slot (t.push slot) where
  keys := by simp [VTable.keys, VTable.push] at hnew ⊢; simpa using hnew
  slots k := by
    rw [slotFor?, VTable.push, List.find?_append]
    by_cases hk : k = slot.key
    · rw [if_pos hk, hk, ← slotFor?, slotFor_eq_none_iff.mpr hnew]
      simp
    · rw [if_neg hk, List.find?_singleton, if_neg (by simpa [eq_comm] using hk), Option.or_none]
      rfl

/-- The slot of a key gives way to another one with that key. -/
theorem Sets.replace {index : Nat} {existing : Slot} (hget : t.slots[index]? = some existing)
    (hkey : existing.key = slot.key) (hfirst : ∀ s ∈ t.slots.take index, s.key ≠ slot.key) :
    t.Sets slot (t.replace index slot) where
  keys := by
    obtain ⟨hlt, rfl⟩ := List.getElem?_eq_some_iff.mp hget
    have hmem : slot.key ∈ t.keys := hkey ▸ List.mem_map_of_mem (List.getElem_mem hlt)
    have hlt' : index < (t.slots.map Slot.key).length := by simpa using hlt
    have hsame : (t.slots.map Slot.key)[index] = slot.key := by simpa using hkey
    rw [if_pos hmem, VTable.keys, VTable.replace, List.map_set, ← hsame, List.set_getElem_self]
    rfl
  slots k := by
    obtain ⟨hlt, rfl⟩ := List.getElem?_eq_some_iff.mp hget
    have hbefore : (t.slots.take index).find? (fun s => s.key = slot.key) = none := by
      simpa [List.find?_eq_none] using hfirst
    have hsplit : t.slots = t.slots.take index ++ t.slots[index] :: t.slots.drop (index + 1) := by
      rw [List.getElem_cons_drop, List.take_append_drop]
    rw [slotFor?, VTable.replace, List.set_eq_take_append_cons_drop, if_pos hlt, List.find?_append]
    by_cases hk : k = slot.key
    · rw [if_pos hk, hk, hbefore, Option.none_or, List.find?_cons_of_pos (by simp)]
    · rw [if_neg hk, slotFor?, List.find?_cons_of_neg (by simpa [eq_comm] using hk)]
      conv_rhs => rw [hsplit]
      rw [List.find?_append, List.find?_cons_of_neg (by simpa [hkey, eq_comm] using hk)]

/-- A slot that stands at its key already. -/
theorem Sets.self (h : t.slotFor? slot.key = some slot) : t.Sets slot t where
  keys := by rw [if_pos (exists_slotFor_iff.mp ⟨slot, h⟩)]
  slots k := by
    split
    · rename_i hk
      rw [hk, h]
    · rfl

/-- A table goes on from another one: all keys keep their indices, no key occurs twice
if none did, and every key keeps the return type of its slot. -/
structure GoesOn (t t' : VTable) : Prop where
  appended : t.keys <+: t'.keys
  nodup : t.keys.Nodup → t'.keys.Nodup
  returns : ∀ k slot, t.slotFor? k = some slot →
    ∃ slot', t'.slotFor? k = some slot' ∧ slot'.ret = slot.ret

theorem GoesOn.refl (t : VTable) : t.GoesOn t :=
  ⟨List.prefix_rfl, id, fun _ slot h => ⟨slot, h, rfl⟩⟩

theorem GoesOn.trans {t'' : VTable} (h : t.GoesOn t') (h' : t'.GoesOn t'') : t.GoesOn t'' where
  appended := h.appended.trans h'.appended
  nodup hnodup := h'.nodup (h.nodup hnodup)
  returns k slot hslot := by
    obtain ⟨slot', hslot', hret⟩ := h.returns k slot hslot
    obtain ⟨slot'', hslot'', hret'⟩ := h'.returns k slot' hslot'
    exact ⟨slot'', hslot'', hret'.trans hret⟩

theorem Sets.goesOn (h : t.Sets slot t')
    (hret : ∀ existing, t.slotFor? slot.key = some existing → slot.ret = existing.ret) :
    t.GoesOn t' where
  appended := by
    rw [h.keys]
    split
    · exact List.prefix_rfl
    · exact List.prefix_append ..
  nodup hnodup := by
    rw [h.keys]
    split
    · exact hnodup
    · rename_i hnew
      exact List.nodup_append.mpr ⟨hnodup, by simp, by
        intro a ha b hb
        rw [List.mem_singleton.mp hb]
        exact fun heq => hnew (heq ▸ ha)⟩
  returns k existing hexisting := by
    rw [h.slots]
    by_cases hk : k = slot.key
    · subst hk
      exact ⟨slot, if_pos rfl, hret existing hexisting⟩
    · exact ⟨existing, by rw [if_neg hk, hexisting], rfl⟩

/-- Of two slots with one key the first, unless it is pure and the other is not. -/
def prefer : Option Slot → Option Slot → Option Slot
  | none, other => other
  | some slot, none => some slot
  | some slot, some other => some (if slot.isPure && !other.isPure then other else slot)

@[simp] theorem prefer_none (slot : Option Slot) : prefer slot none = slot := by
  cases slot <;> rfl

@[simp] theorem none_prefer (slot : Option Slot) : prefer none slot = slot :=
  rfl

theorem prefer_assoc (a b c : Option Slot) : prefer (prefer a b) c = prefer a (prefer b c) := by
  cases a with
  | none => rfl
  | some a =>
      cases b with
      | none => rfl
      | some b =>
          cases c with
          | none => rw [prefer_none, prefer_none]
          | some c =>
              cases ha : a.isPure <;> cases hb : b.isPure <;> cases hc : c.isPure <;>
                simp [prefer, ha, hb, hc]

/-- A slot that is merged in, and what stands at its key then. -/
theorem mergeSlot_ok (h : t.mergeSlot slot = .ok t') :
    ∃ s, t.Sets s t' ∧ s.key = slot.key ∧ some s = prefer (t.slotFor? slot.key) (some slot)
      ∧ s.ret = slot.ret ∧ ∀ existing, t.slotFor? slot.key = some existing →
        slot.ret = existing.ret := by
  unfold mergeSlot at h
  split at h
  · rename_i hnone
    cases h
    have hnew := inherited_eq_none hnone
    have hfor := slotFor_eq_none_iff.mpr hnew
    refine ⟨slot, Sets.push hnew, rfl, by rw [hfor]; rfl, rfl, fun existing hexisting => ?_⟩
    rw [hfor] at hexisting
    cases hexisting
  · rename_i index existing hsome
    obtain ⟨hget, hfor, hfirst⟩ := inherited_eq_some hsome
    have hkey := key_of_slotFor hfor
    split at h
    · cases h
    · rename_i hret
      have hsame : slot.ret = existing.ret := (not_not.mp hret).symm
      have hold : ∀ e, t.slotFor? slot.key = some e → slot.ret = e.ret := by
        intro e he
        rw [hfor] at he
        cases he
        exact hsame
      split at h
      · rename_i hwins
        cases h
        exact ⟨slot, Sets.replace hget hkey hfirst, rfl, by simp [hfor, prefer, hwins], rfl, hold⟩
      · rename_i hstays
        cases h
        refine ⟨existing, Sets.self (by rw [hkey, hfor]), hkey, ?_, hsame.symm, hold⟩
        rw [hfor, prefer, if_neg hstays]

/-- An own slot that is taken in: it has the return type of the inherited one. -/
theorem overrideOrPush_ok {related : String → String → Bool}
    (h : overrideOrPush related t slot = .ok t') :
    ∃ s, t.Sets s t' ∧ s.key = slot.key ∧ s.origin = slot.origin
      ∧ ∀ existing, t.slotFor? slot.key = some existing → s.ret = existing.ret := by
  unfold overrideOrPush at h
  split at h
  · rename_i hnone
    cases h
    have hnew := inherited_eq_none hnone
    refine ⟨slot, Sets.push hnew, rfl, rfl, fun existing hexisting => ?_⟩
    exact absurd (exists_slotFor_iff.mp ⟨existing, hexisting⟩) hnew
  · rename_i index existing hsome
    obtain ⟨hget, hfor, hfirst⟩ := inherited_eq_some hsome
    split at h
    · cases h
      refine ⟨{ slot with ret := existing.ret }, Sets.replace hget (key_of_slotFor hfor) hfirst,
        rfl, rfl, fun e he => ?_⟩
      rw [hfor] at he
      cases he
      rfl
    · cases h

/-- A step of a fold in which it does not fail. -/
theorem foldlM_cons_ok {α : Type} {step : VTable → α → Except Failure VTable} {a : α} {as : List α}
    (h : (a :: as).foldlM step t = .ok t') :
    ∃ t₁, step t a = .ok t₁ ∧ as.foldlM step t₁ = .ok t' := by
  rw [List.foldlM_cons] at h
  cases hstep : step t a with
  | error e =>
      rw [hstep] at h
      cases h
  | ok t₁ =>
      rw [hstep] at h
      exact ⟨t₁, rfl, h⟩

/-- Slots with different keys that are merged in one after another. -/
theorem mergeSlots_ok {slots : List Slot} (hnodup : (slots.map Slot.key).Nodup)
    (h : slots.foldlM mergeSlot t = .ok t') :
    t.GoesOn t'
      ∧ (∀ k, t'.slotFor? k = prefer (t.slotFor? k) (slots.find? fun s => s.key = k))
      ∧ ∀ slot ∈ slots, ∃ s, t'.slotFor? slot.key = some s ∧ s.ret = slot.ret := by
  induction slots generalizing t with
  | nil =>
      cases h
      exact ⟨.refl _, fun k => by rw [List.find?_nil, prefer_none], by simp⟩
  | cons slot rest ih =>
      obtain ⟨t₁, hstep, hrest⟩ := foldlM_cons_ok h
      obtain ⟨s, hsets, hkey, hprefer, hret, hold⟩ := mergeSlot_ok hstep
      obtain ⟨hnew, hdistinct⟩ := List.nodup_cons.mp hnodup
      obtain ⟨hgoes, hslots, hrets⟩ := ih hdistinct hrest
      have hfirst : t.GoesOn t₁ := hsets.goesOn fun e he => by
        rw [hkey] at he
        rw [hret, hold e he]
      refine ⟨hfirst.trans hgoes, fun k => ?_, fun other hother => ?_⟩
      · rw [hslots, hsets.slots, hkey]
        by_cases hk : k = slot.key
        · have hnone : rest.find? (fun s => s.key = k) = none := by
            rw [List.find?_eq_none]
            intro other hother hsame
            exact hnew (List.mem_map.mpr ⟨other, hother, (of_decide_eq_true hsame).trans hk⟩)
          rw [if_pos hk, hnone, prefer_none, hprefer, hk, List.find?_cons_of_pos (by simp)]
        · rw [if_neg hk, List.find?_cons_of_neg (by simpa [eq_comm] using hk)]
      · rcases List.mem_cons.mp hother with rfl | hother
        · obtain ⟨s', hs', hret'⟩ := hgoes.returns other.key s
            (by rw [hsets.slots, if_pos hkey.symm])
          exact ⟨s', hs', hret'.trans hret⟩
        · exact hrets other hother

/-- The table of a further base that is merged in. -/
theorem merge_ok {other : VTable} (hnodup : other.keys.Nodup) (h : t.merge other = .ok t') :
    t.GoesOn t'
      ∧ (∀ k, t'.slotFor? k = prefer (t.slotFor? k) (other.slotFor? k))
      ∧ ∀ k slot, other.slotFor? k = some slot →
        ∃ s, t'.slotFor? k = some s ∧ s.ret = slot.ret := by
  obtain ⟨hgoes, hslots, hrets⟩ := mergeSlots_ok hnodup h
  refine ⟨hgoes, hslots, fun k slot hslot => ?_⟩
  have hkey := key_of_slotFor hslot
  subst hkey
  exact hrets slot (List.mem_of_find?_eq_some hslot)

/-- Slots whose keys are new come after the others in their order. -/
theorem keys_mergeSlots {slots : List Slot} (hnodup : (t.keys ++ slots.map Slot.key).Nodup)
    (h : slots.foldlM mergeSlot t = .ok t') : t'.keys = t.keys ++ slots.map Slot.key := by
  induction slots generalizing t with
  | nil =>
      cases h
      simp
  | cons slot rest ih =>
      obtain ⟨t₁, hstep, hrest⟩ := foldlM_cons_ok h
      obtain ⟨s, hsets, hkey, -, -, -⟩ := mergeSlot_ok hstep
      have hnew : slot.key ∉ t.keys := fun hmem =>
        List.disjoint_of_nodup_append hnodup hmem (by simp)
      have hkeys : t₁.keys = t.keys ++ [slot.key] := by rw [hsets.keys, hkey, if_neg hnew]
      rw [ih (by rw [hkeys]; simpa using hnodup) hrest, hkeys]
      simp

/-- The inherited slot of a key: that of the first table that implements it, else that of
the first table that has it. -/
def inheritedSlot? (tables : List VTable) (k : SlotKey) : Option Slot :=
  (tables.findSome? fun t => (t.slotFor? k).filter fun slot => !slot.isPure).or
    (tables.findSome? fun t => t.slotFor? k)

theorem inheritedSlot_cons (t : VTable) (tables : List VTable) (k : SlotKey) :
    inheritedSlot? (t :: tables) k = prefer (t.slotFor? k) (inheritedSlot? tables k) := by
  unfold inheritedSlot?
  rw [List.findSome?_cons, List.findSome?_cons]
  cases t.slotFor? k with
  | none => rfl
  | some slot =>
      cases hpure : slot.isPure with
      | false =>
          cases hrest :
              (tables.findSome? fun t => (t.slotFor? k).filter fun slot => !slot.isPure).or
                (tables.findSome? fun t => t.slotFor? k) with
          | none => simp [Option.filter, hpure, prefer]
          | some other => simp [Option.filter, hpure, prefer]
      | true =>
          cases himpl : tables.findSome? fun t =>
              (t.slotFor? k).filter fun slot => !slot.isPure with
          | some other =>
              obtain ⟨u, -, hu⟩ := List.exists_of_findSome?_eq_some himpl
              have hother : other.isPure = false := by
                simpa using (Option.filter_eq_some_iff.mp hu).2
              simp [Option.filter, hpure, prefer, hother]
          | none =>
              cases hrest : tables.findSome? fun t => t.slotFor? k with
              | none => simp [Option.filter, hpure, prefer]
              | some other =>
                  obtain ⟨u, hu, hslot⟩ := List.exists_of_findSome?_eq_some hrest
                  have hother : other.isPure = true := by
                    have hfilter := List.findSome?_eq_none_iff.mp himpl u hu
                    simpa [hslot, Option.filter] using hfilter
                  simp [Option.filter, hpure, prefer, hother]

/-- Tables that are merged in one after another. -/
theorem mergeAll_ok {tables : List VTable} (hnodup : ∀ u ∈ tables, u.keys.Nodup)
    (h : tables.foldlM merge t = .ok t') :
    t.GoesOn t'
      ∧ (∀ k, t'.slotFor? k = prefer (t.slotFor? k) (inheritedSlot? tables k))
      ∧ ∀ u ∈ tables, ∀ k slot, u.slotFor? k = some slot →
          ∃ s, t'.slotFor? k = some s ∧ s.ret = slot.ret := by
  induction tables generalizing t with
  | nil =>
      cases h
      exact ⟨.refl _, fun k => (prefer_none _).symm, by simp⟩
  | cons u rest ih =>
      obtain ⟨t₁, hstep, hrest⟩ := foldlM_cons_ok h
      obtain ⟨hfirst, hmerged, hreturns⟩ := merge_ok (hnodup u List.mem_cons_self) hstep
      obtain ⟨hgoes, hslots, hrets⟩ := ih (fun v hv => hnodup v (List.mem_cons_of_mem u hv)) hrest
      refine ⟨hfirst.trans hgoes, fun k => ?_, fun v hv k slot hslot => ?_⟩
      · rw [hslots, hmerged, prefer_assoc, inheritedSlot_cons]
      · rcases List.mem_cons.mp hv with rfl | hv
        · obtain ⟨s, hs, hret⟩ := hreturns k slot hslot
          obtain ⟨s', hs', hret'⟩ := hgoes.returns k s hs
          exact ⟨s', hs', hret'.trans hret⟩
        · exact hrets v hv k slot hslot

theorem prefer_isSome (a b : Option Slot) : (prefer a b).isSome = (a.isSome || b.isSome) := by
  cases a <;> cases b <;> rfl

theorem inheritedSlot_isSome_iff (tables : List VTable) (k : SlotKey) :
    (inheritedSlot? tables k).isSome ↔ ∃ t ∈ tables, k ∈ t.keys := by
  induction tables with
  | nil => simp [inheritedSlot?]
  | cons t tables ih =>
      rw [inheritedSlot_cons, prefer_isSome, Bool.or_eq_true, ih, Option.isSome_iff_exists,
        exists_slotFor_iff]
      simp

/-- The first table that is merged keeps the indices of all its keys. -/
theorem keys_mergeAll_head {tables : List VTable} (hnodup : ∀ u ∈ t :: tables, u.keys.Nodup)
    (h : (t :: tables).foldlM merge empty = .ok t') : t.keys <+: t'.keys := by
  obtain ⟨t₁, hstep, hrest⟩ := foldlM_cons_ok h
  have hkeys : t₁.keys = t.keys := keys_mergeSlots (t := empty) (hnodup t List.mem_cons_self) hstep
  rw [← hkeys]
  exact (mergeAll_ok (fun u hu => hnodup u (List.mem_cons_of_mem t hu)) hrest).1.appended

/-- Own slots that are taken in one after another: the last one of a key runs. -/
theorem overrideAll_ok {related : String → String → Bool} {slots : List Slot}
    (h : slots.foldlM (overrideOrPush related) t = .ok t') :
    t.GoesOn t'
      ∧ (∀ k, (t'.slotFor? k).map Slot.origin
          = ((slots.reverse.find? fun s => s.key = k).or (t.slotFor? k)).map Slot.origin)
      ∧ ∀ k, k ∈ t'.keys ↔ k ∈ slots.map Slot.key ∨ k ∈ t.keys := by
  induction slots generalizing t with
  | nil =>
      cases h
      exact ⟨.refl _, fun k => rfl, by simp⟩
  | cons slot rest ih =>
      obtain ⟨t₁, hstep, hrest⟩ := foldlM_cons_ok h
      obtain ⟨s, hsets, hkey, horigin, hret⟩ := overrideOrPush_ok hstep
      obtain ⟨hgoes, hslots, hkeys⟩ := ih hrest
      have hfirst : t.GoesOn t₁ := hsets.goesOn fun e he => hret e (hkey ▸ he)
      refine ⟨hfirst.trans hgoes, fun k => ?_, fun k => ?_⟩
      · rw [hslots, hsets.slots, hkey, List.reverse_cons, List.find?_append, List.find?_singleton,
          Option.or_assoc]
        by_cases hk : k = slot.key
        · rw [if_pos hk, if_pos (by simp [hk])]
          cases rest.reverse.find? fun s => s.key = k with
          | none => simpa using horigin
          | some other => rfl
        · rw [if_neg hk, if_neg (by simpa [eq_comm] using hk), Option.none_or]
      · have hmem : k ∈ t₁.keys ↔ k = slot.key ∨ k ∈ t.keys := by
          rw [← exists_slotFor_iff, ← exists_slotFor_iff, hsets.slots, hkey]
          by_cases hk : k = slot.key <;> simp [hk]
        rw [hkeys, hmem, List.map_cons, List.mem_cons]
        tauto

end VTable

/-- No pair has an answer if no first one has. -/
theorem pairwise_of_firstPair? {α β : Type} {f : α → α → Option β} {as : List α}
    (hnone : firstPair? f as = none) : as.Pairwise fun a b => f a b = none := by
  induction as with
  | nil => exact .nil
  | cons a as ih =>
      rw [firstPair?, Option.or_eq_none_iff, List.findSome?_eq_none_iff] at hnone
      exact .cons hnone.1 (ih hnone.2)

namespace NativeDecl

variable {d : NativeDecl} {labelOf : NativeId → String} {id : NativeId} {c : NativeClass}

/-- What a class takes over from its declaration. -/
structure Builds (d : NativeDecl) (id : NativeId) (c : NativeClass) : Prop where
  id : c.id = id
  parents : c.parents = d.parents
  members : c.members = d.members
  handles : c.ownHandles = d.handles
  unshared : d.parents.Pairwise fun a b => a.sharedAncestor? b = none
  table : d.buildTable = .ok c.vtable

theorem build_ok (hbuild : d.build labelOf id = .ok c) : d.Builds id c := by
  unfold build at hbuild
  cases hparents : d.checkParents labelOf with
  | error e => rw [hparents] at hbuild; cases hbuild
  | ok _ =>
      cases hmembers : d.checkMembers with
      | error e => rw [hparents, hmembers] at hbuild; cases hbuild
      | ok _ =>
          cases htable : d.buildTable with
          | error e => rw [hparents, hmembers, htable] at hbuild; cases hbuild
          | ok table =>
              rw [hparents, hmembers, htable] at hbuild
              cases hbuild
              refine ⟨rfl, rfl, rfl, rfl, ?_, htable⟩
              unfold checkParents at hparents
              split at hparents
              · rename_i hnone
                exact (pairwise_of_firstPair? hnone).imp Option.map_eq_none_iff.mp
              · cases hparents

/-- The slot that a class is to have for a key: its own last declaration of the key, else
that of the first parent that implements it, else that of the first parent that
has it. -/
def provider? (d : NativeDecl) (k : SlotKey) : Option Slot :=
  ((d.virtuals.map d.slotOf).reverse.find? fun slot => slot.key = k).or
    (VTable.inheritedSlot? (d.parents.map NativeClass.vtable) k)

theorem own_keys (d : NativeDecl) :
    (d.virtuals.map d.slotOf).map Slot.key = d.virtuals.map VirtualDecl.key := by
  rw [List.map_map]
  rfl

/-- The parents' tables merged, and what the own declarations make of them. -/
theorem buildTable_ok {table : VTable} (hparents : ∀ p ∈ d.parents, p.vtable.keys.Nodup)
    (h : d.buildTable = .ok table) :
    table.keys.Nodup
      ∧ (∀ k, k ∈ table.keys ↔
          k ∈ d.virtuals.map VirtualDecl.key ∨ ∃ p ∈ d.parents, k ∈ p.vtable.keys)
      ∧ (∀ k, (table.slotFor? k).map Slot.origin = (d.provider? k).map Slot.origin)
      ∧ (∀ p ∈ d.parents, ∀ k slot, p.vtable.slotFor? k = some slot →
          ∃ s, table.slotFor? k = some s ∧ s.ret = slot.ret)
      ∧ ∀ p, d.parents.head? = some p → p.vtable.keys <+: table.keys := by
  have hnodup : ∀ u ∈ d.parents.map NativeClass.vtable, u.keys.Nodup := by
    intro u hu
    obtain ⟨p, hp, rfl⟩ := List.mem_map.mp hu
    exact hparents p hp
  unfold buildTable at h
  cases hmerge : d.parents.foldlM (fun table p => table.merge p.vtable) VTable.empty with
  | error e => rw [hmerge] at h; cases h
  | ok inherited =>
      rw [hmerge] at h
      rw [← List.foldlM_map (f := NativeClass.vtable) (g := VTable.merge)] at hmerge
      obtain ⟨hbegin, hslots, hrets⟩ := VTable.mergeAll_ok hnodup hmerge
      obtain ⟨hgoes, horigin, hkeys⟩ := VTable.overrideAll_ok h
      have hinherited : ∀ k, inherited.slotFor? k
          = VTable.inheritedSlot? (d.parents.map NativeClass.vtable) k := hslots
      refine ⟨hgoes.nodup (hbegin.nodup List.nodup_nil), fun k => ?_, fun k => ?_, ?_, ?_⟩
      · rw [hkeys, own_keys, ← VTable.exists_slotFor_iff, ← Option.isSome_iff_exists, hinherited,
          VTable.inheritedSlot_isSome_iff]
        simp only [List.mem_map, exists_exists_and_eq_and]
      · rw [horigin, hinherited]
        rfl
      · intro p hp k slot hslot
        obtain ⟨s, hs, hret⟩ := hrets p.vtable (List.mem_map_of_mem hp) k slot hslot
        obtain ⟨s', hs', hret'⟩ := hgoes.returns k s hs
        exact ⟨s', hs', hret'.trans hret⟩
      · intro p hp
        obtain ⟨rest, hrest⟩ := List.head?_eq_some_iff.mp hp
        rw [hrest] at hmerge hnodup
        exact (VTable.keys_mergeAll_head hnodup hmerge).trans hgoes.appended

end NativeDecl

/-- A class that came out of a declaration, as all its ancestors did. -/
inductive NativeClass.Built : NativeClass → Prop where
  | declared {d : NativeDecl} {labelOf : NativeId → String} {id : NativeId} {c : NativeClass}
      (parents : ∀ p ∈ d.parents, p.Built) (build : d.build labelOf id = .ok c) : c.Built

namespace NativeClass

variable {c : NativeClass}

/-- No key occurs twice in the table of a class. -/
theorem Built.nodup_keys (hbuilt : c.Built) : c.vtable.keys.Nodup := by
  induction hbuilt with
  | declared _ hbuild ih => exact (NativeDecl.buildTable_ok ih (NativeDecl.build_ok hbuild).table).1

/-- What an ancestor returns for a key the class returns too. -/
theorem Built.returns (hbuilt : c.Built) :
    ∀ a ∈ c.flatten, ∀ k slot, a.vtable.slotFor? k = some slot →
      ∃ s, c.vtable.slotFor? k = some s ∧ s.ret = slot.ret := by
  induction hbuilt with
  | @declared d labelOf id c hparents hbuild ih =>
      intro a ha k slot hslot
      have hbuilds := NativeDecl.build_ok hbuild
      obtain ⟨-, -, -, hrets, -⟩ :=
        NativeDecl.buildTable_ok (fun p hp => (hparents p hp).nodup_keys) hbuilds.table
      rw [flatten_eq, hbuilds.parents, flattenAll_eq, List.mem_append, List.mem_flatMap,
        List.mem_singleton] at ha
      rcases ha with ⟨p, hp, hmem⟩ | rfl
      · obtain ⟨s, hs, hret⟩ := ih p hp a hmem k slot hslot
        obtain ⟨s', hs', hret'⟩ := hrets p hp k s hs
        exact ⟨s', hs', hret'.trans hret⟩
      · exact ⟨slot, hslot, rfl⟩

end NativeClass

/-- The table of a class over any hierarchy of parents.  Its keys are pairwise distinct,
and are its own ones and those of its parents; each slot runs what the provider of
its key declares; it returns what every ancestor with that key returns; and the
slots of the first parent keep their indices. -/
theorem vtable_inherits {d : NativeDecl} {labelOf : NativeId → String} {id : NativeId}
    {c : NativeClass} (hparents : ∀ p ∈ d.parents, p.Built) (hbuild : d.build labelOf id = .ok c) :
    c.vtable.keys.Nodup
      ∧ (∀ k, k ∈ c.vtable.keys ↔
          k ∈ d.virtuals.map VirtualDecl.key ∨ ∃ p ∈ d.parents, k ∈ p.vtable.keys)
      ∧ (∀ k, (c.vtable.slotFor? k).map Slot.origin = (d.provider? k).map Slot.origin)
      ∧ (∀ a ∈ c.flatten, ∀ k slot, a.vtable.slotFor? k = some slot →
          ∃ s, c.vtable.slotFor? k = some s ∧ s.ret = slot.ret)
      ∧ ∀ p, d.parents.head? = some p → ∀ i slot, p.vtable.get? i = some slot →
          ∃ s, c.vtable.get? i = some s ∧ s.key = slot.key := by
  obtain ⟨hnodup, hkeys, horigin, -, hfirst⟩ :=
    NativeDecl.buildTable_ok (fun p hp => (hparents p hp).nodup_keys)
      (NativeDecl.build_ok hbuild).table
  refine ⟨hnodup, hkeys, horigin, (NativeClass.Built.declared hparents hbuild).returns, ?_⟩
  intro p hp i slot hslot
  have hkey : p.vtable.keys[i]? = some slot.key := by
    rw [VTable.keys, List.getElem?_map, show p.vtable.slots[i]? = some slot from hslot]
    rfl
  obtain ⟨hi, hget⟩ := List.getElem?_eq_some_iff.mp hkey
  have hsame : c.vtable.keys[i]? = some slot.key := by
    rw [List.prefix_iff_getElem?.mp (hfirst p hp) i hi, hget]
  rw [VTable.keys, List.getElem?_map] at hsame
  exact Option.map_eq_some_iff.mp hsame

/-! A square is a shape and has an area from another base; its copies are squares. -/

namespace Figures

def area : SlotKey := ⟨"area", [], true⟩

def copy : SlotKey := ⟨"copy", [], true⟩

def shapeDecl : NativeDecl where
  name := "Shape"
  virtuals := [⟨area, .int, none⟩, ⟨copy, .ptr "Shape", none⟩]

def measuredDecl : NativeDecl where
  name := "Measured"
  virtuals := [⟨area, .int, some .argCount⟩]

def classOf (d : NativeDecl) (id : NativeId) (table : VTable) : NativeClass where
  id := id
  name := d.name
  parents := d.parents
  members := []
  constructors := []
  vtable := table
  methods := []
  virtualDtor := false
  copyPolicy := .everyone
  hooks := []

def shape : NativeClass :=
  classOf shapeDecl ⟨0⟩ ⟨shapeDecl.virtuals.map shapeDecl.slotOf⟩

def measured : NativeClass :=
  classOf measuredDecl ⟨1⟩ ⟨measuredDecl.virtuals.map measuredDecl.slotOf⟩

def squareDecl : NativeDecl where
  name := "Square"
  parents := [shape, measured]
  virtuals := [⟨copy, .ptr "Square", some .this⟩]

def square : NativeClass :=
  classOf squareDecl ⟨2⟩
    ⟨[⟨area, .int, "Measured", some .argCount⟩, ⟨copy, .ptr "Shape", "Square", some .this⟩]⟩

end Figures

open Figures in
theorem vtable_inherits_square :
    squareDecl.build (fun _ => "") ⟨2⟩ = .ok square
      ∧ (square.vtable.slotFor? area).map Slot.origin = some (some .argCount, "Measured")
      ∧ (square.vtable.slotFor? copy).map Slot.origin = some (some .this, "Square")
      ∧ square.vtable.keys.Nodup := by
  have hshape : shapeDecl.build (fun _ => "") ⟨0⟩ = .ok shape := rfl
  have hmeasured : measuredDecl.build (fun _ => "") ⟨1⟩ = .ok measured := rfl
  have hparents : ∀ p ∈ squareDecl.parents, p.Built := by
    intro p hp
    rcases List.mem_pair.mp hp with rfl | rfl
    · apply NativeClass.Built.declared _ hshape
      exact fun p hp => nomatch hp
    · apply NativeClass.Built.declared _ hmeasured
      exact fun p hp => nomatch hp
  have hbuild : squareDecl.build (fun _ => "") ⟨2⟩ = .ok square := rfl
  obtain ⟨hnodup, -, horigin, -, -⟩ := vtable_inherits hparents hbuild
  exact ⟨hbuild, (horigin area).trans rfl, (horigin copy).trans rfl, hnodup⟩

end TwinObject
