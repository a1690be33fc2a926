/-
Return types of overrides.  An own slot may return another class than the slot it
overrides if both are named in the ancestry of the class that is being declared.
Which of the two derives from which is not asked.
-/
import TwinObject.Proofs.Inheritance

namespace TwinObject

namespace VTable

variable {related : String → String → Bool} {t t' : VTable} {slot : Slot} {e : Failure}

theorem compatibleReturn_iff {old own : NativeType} :
    compatibleReturn related old own ↔ own = old ∨ ∃ base derived,
      (old = .ptr base ∧ own = .ptr derived ∨ old = .ref base ∧ own = .ref derived)
        ∧ related derived base := by
  unfold compatibleReturn
  rw [Bool.or_eq_true, decide_eq_true_iff, @eq_comm _ own]
  refine or_congr Iff.rfl ⟨fun h => ?_, ?_⟩
  · split at h
    · exact ⟨_, _, .inl ⟨rfl, rfl⟩, h⟩
    · exact ⟨_, _, .inr ⟨rfl, rfl⟩, h⟩
    · cases h
  · rintro ⟨base, derived, ⟨rfl, rfl⟩ | ⟨rfl, rfl⟩, h⟩ <;> exact h

/-- The slot that `inherited?` answers, if a key has one. -/
theorem exists_inherited {existing : Slot} (h : t.slotFor? slot.key = some existing) :
    ∃ index, t.inherited? slot = some (index, existing) := by
  cases hin : t.inherited? slot with
  | none => exact absurd (exists_slotFor_iff.mp ⟨existing, h⟩) (inherited_eq_none hin)
  | some found =>
      obtain ⟨index, other⟩ := found
      obtain ⟨-, hfor, -⟩ := inherited_eq_some hin
      rw [h] at hfor
      cases hfor
      exact ⟨index, rfl⟩

/-- An own slot that fits the one it overrides is taken in; no other key notices. -/
theorem overrideOrPush_of_fits
    (hfits : ∀ old, t.slotFor? slot.key = some old → compatibleReturn related old.ret slot.ret) :
    ∃ t', overrideOrPush related t slot = .ok t'
      ∧ ∀ k, k ≠ slot.key → t'.slotFor? k = t.slotFor? k := by
  cases hstep : overrideOrPush related t slot with
  | ok t' =>
      obtain ⟨s, hsets, hkey, -, -⟩ := overrideOrPush_ok hstep
      exact ⟨t', rfl, fun k hk => by rw [hsets.slots, hkey, if_neg hk]⟩
  | error e =>
      unfold overrideOrPush at hstep
      split at hstep
      · cases hstep
      · rename_i index old hin
        rw [if_pos (hfits old (inherited_eq_some hin).2.1)] at hstep
        cases hstep

/-- An own slot that is taken in fits the one it overrides. -/
theorem overrideOrPush_fits (h : overrideOrPush related t slot = .ok t') {old : Slot}
    (hold : t.slotFor? slot.key = some old) : compatibleReturn related old.ret slot.ret := by
  obtain ⟨index, hin⟩ := exists_inherited hold
  rw [overrideOrPush, hin] at h
  dsimp only at h
  split at h
  · assumption
  · cases h

/-- Why an own slot is refused. -/
theorem overrideOrPush_error (h : overrideOrPush related t slot = .error e) :
    ∃ old, t.slotFor? slot.key = some old ∧ ¬compatibleReturn related old.ret slot.ret
      ∧ e = .incompatibleSignature slot.key.text
        ("return type " ++ slot.ret.text ++ " does not match " ++ old.ret.text
          ++ " declared in '" ++ old.declaredIn ++ "'") := by
  unfold overrideOrPush at h
  split at h
  · cases h
  · rename_i index old hin
    split at h
    · cases h
    · rename_i hfits
      cases h
      exact ⟨old, (inherited_eq_some hin).2.1, hfits, rfl⟩

theorem mergeSlot_error (h : t.mergeSlot slot = .error e) :
    ∃ method reason, e = .incompatibleSignature method reason := by
  unfold mergeSlot at h
  split at h
  · cases h
  · split at h
    · cases h
      exact ⟨_, _, rfl⟩
    · split at h <;> cases h

/-- The element at which a fold fails, and what was reached before it. -/
theorem foldlM_error {α : Type} {step : VTable → α → Except Failure VTable} {as : List α}
    (h : as.foldlM step t = .error e) :
    ∃ before a after t₁, as = before ++ a :: after ∧ before.foldlM step t = .ok t₁
      ∧ step t₁ a = .error e := by
  induction as generalizing t with
  | nil => cases h
  | cons a rest ih =>
      rw [List.foldlM_cons] at h
      cases hstep : step t a with
      | error f =>
          rw [hstep] at h
          cases h
          exact ⟨[], a, rest, t, rfl, rfl, hstep⟩
      | ok t₁ =>
          rw [hstep] at h
          obtain ⟨before, b, after, t₂, rfl, hbefore, hb⟩ := ih h
          refine ⟨a :: before, b, after, t₂, rfl, ?_, hb⟩
          rw [List.foldlM_cons, hstep]
          exact hbefore

theorem mergeAll_error {tables : List VTable} (h : tables.foldlM merge t = .error e) :
    ∃ method reason, e = .incompatibleSignature method reason := by
  obtain ⟨-, other, -, t₁, -, -, hmerge⟩ := foldlM_error h
  obtain ⟨-, slot, -, t₂, -, -, hslot⟩ := foldlM_error hmerge
  exact mergeSlot_error hslot

/-- Own slots that are taken in: each fits what its key had before all of them. -/
theorem overrideAll_fits {slots : List Slot}
    (h : slots.foldlM (overrideOrPush related) t = .ok t') :
    ∀ slot ∈ slots, ∀ old, t.slotFor? slot.key = some old →
      compatibleReturn related old.ret slot.ret := by
  induction slots generalizing t with
  | nil => simp
  | cons slot rest ih =>
      obtain ⟨t₁, hstep, hrest⟩ := foldlM_cons_ok h
      obtain ⟨s, hsets, hkey, -, hret⟩ := overrideOrPush_ok hstep
      intro other hother old hold
      rcases List.mem_cons.mp hother with rfl | hother
      · exact overrideOrPush_fits hstep hold
      · -- what stands at the key of `other` meanwhile returns what `old` returns
        obtain ⟨now, hnow, hsame⟩ :=
          (hsets.goesOn fun e he => hret e (hkey ▸ he)).returns other.key old hold
        rw [← hsame]
        exact ih hrest other hother now hnow

/-- Own slots with different keys are taken in if each fits what its key has. -/
theorem overrideAll_of_fits {slots : List Slot} (hnodup : (slots.map Slot.key).Nodup)
    (hfits : ∀ slot ∈ slots, ∀ old, t.slotFor? slot.key = some old →
      compatibleReturn related old.ret slot.ret) :
    ∃ t', slots.foldlM (overrideOrPush related) t = .ok t' := by
  induction slots generalizing t with
  | nil => exact ⟨t, rfl⟩
  | cons slot rest ih =>
      obtain ⟨hnew, hdistinct⟩ := List.nodup_cons.mp hnodup
      obtain ⟨t₁, hstep, hother⟩ := overrideOrPush_of_fits (hfits slot List.mem_cons_self)
      obtain ⟨t', hrest⟩ := ih (t := t₁) hdistinct fun s hs old hold => by
        refine hfits s (List.mem_cons_of_mem slot hs) old ?_
        rwa [← hother s.key fun heq => hnew (heq ▸ List.mem_map_of_mem hs)]
      refine ⟨t', ?_⟩
      rw [List.foldlM_cons, hstep]
      exact hrest

end VTable

namespace NativeDecl

variable {d : NativeDecl} {labelOf : NativeId → String} {id : NativeId} {c : NativeClass}

/-- The parents' tables, merged in their order. -/
def inherited (d : NativeDecl) : Except Failure VTable :=
  d.parents.foldlM (fun table p => table.merge p.vtable) VTable.empty

theorem inherited_eq (d : NativeDecl) :
    d.inherited = (d.parents.map NativeClass.vtable).foldlM VTable.merge VTable.empty :=
  (List.foldlM_map).symm

/-- Return types that an override may exchange: both are pointers, or both references, to
classes that the ancestry of the declared class names. -/
def Covary (d : NativeDecl) (old own : NativeType) : Prop :=
  ∃ base derived,
    (old = .ptr base ∧ own = .ptr derived ∨ old = .ref base ∧ own = .ref derived)
      ∧ derived ∈ d.ancestry ∧ base ∈ d.ancestry

/-- An own declaration that fits the slot it overrides. -/
def Fits (d : NativeDecl) (v : VirtualDecl) (old : Slot) : Prop :=
  v.ret = old.ret ∨ d.Covary old.ret v.ret

theorem fits_iff {v : VirtualDecl} {old : Slot} :
    VTable.compatibleReturn (fun derived base => d.ancestry.contains derived
      && d.ancestry.contains base) old.ret (d.slotOf v).ret ↔ d.Fits v old := by
  simp [VTable.compatibleReturn_iff, Fits, Covary, slotOf]

/-- A slot of a parent, as it stands in the merged tables. -/
theorem inherited_slot {table : VTable} (hparents : ∀ p ∈ d.parents, p.Built)
    (h : d.inherited = .ok table) {p : NativeClass} (hp : p ∈ d.parents) {k : SlotKey} {old : Slot}
    (hold : p.vtable.slotFor? k = some old) :
    ∃ s, table.slotFor? k = some s ∧ s.ret = old.ret := by
  rw [inherited_eq] at h
  have hnodup : ∀ u ∈ d.parents.map NativeClass.vtable, u.keys.Nodup := by
    intro u hu
    obtain ⟨q, hq, rfl⟩ := List.mem_map.mp hu
    exact (hparents q hq).nodup_keys
  exact (VTable.mergeAll_ok hnodup h).2.2 p.vtable (List.mem_map_of_mem hp) k old hold

/-- A slot of the merged tables returns what that of some parent returns. -/
theorem exists_parent_slot {table : VTable} (hparents : ∀ p ∈ d.parents, p.Built)
    (h : d.inherited = .ok table) {k : SlotKey} {s : Slot} (hs : table.slotFor? k = some s) :
    ∃ p ∈ d.parents, ∃ old, p.vtable.slotFor? k = some old ∧ old.ret = s.ret := by
  have hmerge := h
  rw [inherited_eq] at hmerge
  have hnodup : ∀ u ∈ d.parents.map NativeClass.vtable, u.keys.Nodup := by
    intro u hu
    obtain ⟨q, hq, rfl⟩ := List.mem_map.mp hu
    exact (hparents q hq).nodup_keys
  have hsome : (VTable.inheritedSlot? (d.parents.map NativeClass.vtable) k).isSome := by
    have hslots := (VTable.mergeAll_ok hnodup hmerge).2.1 k
    rw [hs] at hslots
    exact Option.isSome_iff_exists.mpr ⟨s, hslots.symm⟩
  obtain ⟨u, hu, hmem⟩ := (VTable.inheritedSlot_isSome_iff _ k).mp hsome
  obtain ⟨p, hp, rfl⟩ := List.mem_map.mp hu
  obtain ⟨old, hold⟩ := VTable.exists_slotFor_iff.mpr hmem
  obtain ⟨s', hs', hret⟩ := inherited_slot hparents h hp hold
  rw [hs] at hs'
  cases hs'
  exact ⟨p, hp, old, hold, hret.symm⟩

theorem checkMembers_error {e : Failure} (h : d.checkMembers = .error e) :
    ∃ method reason, e = .incompatibleSignature method reason := by
  unfold checkMembers at h
  split at h
  · cases h
  · cases h
    exact ⟨_, _, rfl⟩

theorem buildTable_error {e : Failure} (h : d.buildTable = .error e) :
    ∃ method reason, e = .incompatibleSignature method reason := by
  change (d.inherited >>= fun table => (d.virtuals.map d.slotOf).foldlM _ table) = _ at h
  cases hin : d.inherited with
  | error f =>
      rw [hin] at h
      cases h
      rw [inherited_eq] at hin
      exact VTable.mergeAll_error hin
  | ok table =>
      rw [hin] at h
      obtain ⟨-, slot, -, t₁, -, -, hslot⟩ := VTable.foldlM_error h
      obtain ⟨old, -, -, rfl⟩ := VTable.overrideOrPush_error hslot
      exact ⟨_, _, rfl⟩

/-- A table is built if and only if the parents' tables can be merged and the own slots can
be taken in. -/
theorem buildTable_eq_ok {table : VTable} (h : d.buildTable = .ok table) :
    ∃ before, d.inherited = .ok before
      ∧ (d.virtuals.map d.slotOf).foldlM (VTable.overrideOrPush fun derived base =>
        d.ancestry.contains derived && d.ancestry.contains base) before = .ok table := by
  change (d.inherited >>= fun table => (d.virtuals.map d.slotOf).foldlM _ table) = _ at h
  cases hin : d.inherited with
  | error f =>
      rw [hin] at h
      cases h
  | ok before =>
      rw [hin] at h
      exact ⟨before, rfl, h⟩

/-- A declaration with no fault in its parents and members comes down to its table. -/
theorem build_eq (hsound : d.checkParents labelOf = .ok ()) (hmembers : d.checkMembers = .ok ()) :
    (∃ c, d.build labelOf id = .ok c) ↔ ∃ table, d.buildTable = .ok table := by
  unfold build
  rw [hsound, hmembers]
  constructor
  · rintro ⟨c, h⟩
    cases htable : d.buildTable with
    | error e =>
        rw [htable] at h
        cases h
    | ok table => exact ⟨table, rfl⟩
  · rintro ⟨table, htable⟩
    rw [htable]
    exact ⟨_, rfl⟩

theorem build_error {e : Failure} (hsound : d.checkParents labelOf = .ok ())
    (h : d.build labelOf id = .error e) :
    ∃ method reason, e = .incompatibleSignature method reason := by
  unfold build at h
  rw [hsound] at h
  cases hmembers : d.checkMembers with
  | error f =>
      rw [hmembers] at h
      cases h
      exact checkMembers_error hmembers
  | ok _ =>
      rw [hmembers] at h
      cases htable : d.buildTable with
      | error f =>
          rw [htable] at h
          cases h
          exact buildTable_error htable
      | ok table =>
          rw [htable] at h
          cases h

/-- In an accepted declaration every own slot fits those of all parents. -/
theorem fits_of_build (hparents : ∀ p ∈ d.parents, p.Built) (hbuild : d.build labelOf id = .ok c)
    {v : VirtualDecl} (hv : v ∈ d.virtuals) {p : NativeClass} (hp : p ∈ d.parents) {old : Slot}
    (hold : p.vtable.slotFor? v.key = some old) : d.Fits v old := by
  obtain ⟨table, hin, hown⟩ := buildTable_eq_ok (build_ok hbuild).table
  obtain ⟨s, hs, hret⟩ := inherited_slot hparents hin hp hold
  have hfits : d.Fits v s :=
    fits_iff.mp (VTable.overrideAll_fits hown (d.slotOf v) (List.mem_map_of_mem hv) s hs)
  rwa [Fits, hret] at hfits

end NativeDecl

/-- Overrides with another return type, for every declaration over parents that were
declared.  In an accepted one both types are pointers, or both references, to classes
of its ancestry.  A declaration with any other override is refused for its signature.
Where nothing else is wrong, one whose overrides all fit is accepted. -/
theorem overrides_vary_in_ancestry {d : NativeDecl} {labelOf : NativeId → String} {id : NativeId}
    (hparents : ∀ p ∈ d.parents, p.Built) :
    (∀ c, d.build labelOf id = .ok c → ∀ v ∈ d.virtuals, ∀ p ∈ d.parents, ∀ old,
        p.vtable.slotFor? v.key = some old → v.ret ≠ old.ret → d.Covary old.ret v.ret)
      ∧ (d.checkParents labelOf = .ok () → ∀ v ∈ d.virtuals, ∀ p ∈ d.parents, ∀ old,
        p.vtable.slotFor? v.key = some old → v.ret ≠ old.ret → ¬d.Covary old.ret v.ret →
        ∃ method reason, d.build labelOf id = .error (.incompatibleSignature method reason))
      ∧ (d.checkParents labelOf = .ok () → d.checkMembers = .ok () →
        (∃ table, d.inherited = .ok table) → (d.virtuals.map VirtualDecl.key).Nodup →
        (∀ v ∈ d.virtuals, ∀ p ∈ d.parents, ∀ old,
          p.vtable.slotFor? v.key = some old → v.ret ≠ old.ret → d.Covary old.ret v.ret) →
        ∃ c, d.build labelOf id = .ok c) := by
  refine ⟨fun c hbuild v hv p hp old hold hne => ?_, fun hsound v hv p hp old hold hne hnot => ?_,
    fun hsound hmembers hmerge hnodup hall => ?_⟩
  · exact (NativeDecl.fits_of_build hparents hbuild hv hp hold).resolve_left hne
  · cases hbuild : d.build labelOf id with
    | ok c =>
        exact absurd (NativeDecl.fits_of_build hparents hbuild hv hp hold) (not_or.mpr ⟨hne, hnot⟩)
    | error e =>
        obtain ⟨method, reason, rfl⟩ := NativeDecl.build_error hsound hbuild
        exact ⟨method, reason, rfl⟩
  · obtain ⟨table, hin⟩ := hmerge
    refine (NativeDecl.build_eq hsound hmembers).mpr ?_
    change ∃ built, (d.inherited >>= fun t => (d.virtuals.map d.slotOf).foldlM _ t) = .ok built
    rw [hin]
    refine VTable.overrideAll_of_fits (by rwa [NativeDecl.own_keys]) fun slot hslot s hs => ?_
    obtain ⟨v, hv, rfl⟩ := List.mem_map.mp hslot
    obtain ⟨p, hp, old, hold, hret⟩ := NativeDecl.exists_parent_slot hparents hin hs
    rw [NativeDecl.fits_iff, NativeDecl.Fits, ← hret]
    exact or_iff_not_imp_left.mpr (hall v hv p hp old hold)

/-! A square is copied as a square.  A solid is a shape too, and can be scaled to a solid;
a cube that is scaled is said to be any shape at all. -/

namespace Figures

def scaled : SlotKey := ⟨"scaled", [], true⟩

def solidDecl : NativeDecl where
  name := "Solid"
  parents := [shape]
  virtuals := [⟨scaled, .ptr "Solid", none⟩]

def solid : NativeClass :=
  classOf solidDecl ⟨3⟩ ⟨shape.vtable.slots ++ solidDecl.virtuals.map solidDecl.slotOf⟩

def cubeDecl : NativeDecl where
  name := "Cube"
  parents := [solid]
  virtuals := [⟨scaled, .ptr "Shape", some .this⟩]

def cube : NativeClass :=
  classOf cubeDecl ⟨4⟩
    ⟨shape.vtable.slots ++ [⟨scaled, .ptr "Solid", "Cube", some .this⟩]⟩

theorem shape_built : shape.Built := by
  have hbuild : shapeDecl.build (fun _ => "") ⟨0⟩ = .ok shape := rfl
  apply NativeClass.Built.declared _ hbuild
  exact fun p hp => nomatch hp

theorem solid_built : solid.Built := by
  have hbuild : solidDecl.build (fun _ => "") ⟨3⟩ = .ok solid := rfl
  apply NativeClass.Built.declared _ hbuild
  intro p hp
  cases List.mem_singleton.mp hp
  exact shape_built

end Figures

open Figures in
theorem overrides_vary_in_ancestry_cube :
    cubeDecl.build (fun _ => "") ⟨4⟩ = .ok cube
      ∧ cubeDecl.Covary (.ptr "Solid") (.ptr "Shape") := by
  have hbuild : cubeDecl.build (fun _ => "") ⟨4⟩ = .ok cube := rfl
  have hparents : ∀ p ∈ cubeDecl.parents, p.Built := fun p hp => by
    cases List.mem_singleton.mp hp
    exact solid_built
  obtain ⟨haccepted, -, -⟩ :=
    @overrides_vary_in_ancestry cubeDecl (fun _ => "") ⟨4⟩ hparents
  exact ⟨hbuild, haccepted cube hbuild ⟨scaled, .ptr "Shape", some .this⟩ List.mem_cons_self solid
    List.mem_cons_self ⟨scaled, .ptr "Solid", "Solid", none⟩ rfl (by decide)⟩

open Figures in
/-- An override that returns a base of the class it has to return. -/
theorem override_returns_base :
    cubeDecl.build (fun _ => "") ⟨4⟩ = .ok cube
      ∧ (∃ v ∈ cubeDecl.virtuals, ∃ old, solid.vtable.slotFor? v.key = some old
        ∧ old.ret = .ptr "Solid" ∧ v.ret = .ptr "Shape")
      ∧ shape.isA "Solid" = false ∧ solid.isA "Shape" = true :=
  ⟨rfl, ⟨⟨scaled, .ptr "Shape", some .this⟩, List.mem_cons_self,
    ⟨scaled, .ptr "Solid", "Solid", none⟩, rfl, rfl, rfl⟩, rfl, rfl⟩

end TwinObject
