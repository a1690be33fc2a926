/-
Classes and what refers to them.  Labels, operations at work, twins and dynamic
classes keep the native classes that they are made of; a class that has come to
its end is part of none of them.
-/
import TwinObject.Proofs.Evolution

namespace TwinObject

namespace NativeClass

mutual

/-- The ids of a lineage are those of the storage segments. -/
theorem mem_lineage_iff (id : NativeId) :
    (c : NativeClass) → (id ∈ c.lineage ↔ ∃ s ∈ c.flatten, s.id = id)
  | ⟨own, _, parents, _, _, _, _, _, _, _⟩ => by
      simp only [lineage, flatten, List.mem_cons, List.mem_append, mem_lineages_iff id parents]
      constructor
      · rintro (rfl | ⟨s, hs, rfl⟩)
        · exact ⟨_, Or.inr (Or.inl rfl), rfl⟩
        · exact ⟨s, Or.inl hs, rfl⟩
      · rintro ⟨s, hs | rfl | hs, rfl⟩
        · exact Or.inr ⟨s, hs, rfl⟩
        · exact Or.inl rfl
        · cases hs

theorem mem_lineages_iff (id : NativeId) :
    (cs : List NativeClass) → (id ∈ lineages cs ↔ ∃ s ∈ flattenAll cs, s.id = id)
  | [] => by simp [lineages, flattenAll]
  | c :: cs => by
      simp only [lineages, flattenAll, List.mem_append, mem_lineage_iff id c,
        mem_lineages_iff id cs]
      constructor
      · rintro (⟨s, hs, rfl⟩ | ⟨s, hs, rfl⟩)
        · exact ⟨s, Or.inl hs, rfl⟩
        · exact ⟨s, Or.inr hs, rfl⟩
      · rintro ⟨s, hs | hs, rfl⟩
        · exact Or.inl ⟨s, hs, rfl⟩
        · exact Or.inr ⟨s, hs, rfl⟩

end

theorem flatten_eq (c : NativeClass) : c.flatten = flattenAll c.parents ++ [c] := by
  cases c
  rfl

theorem mem_flatten_self (c : NativeClass) : c ∈ c.flatten := by
  rw [flatten_eq]
  simp

theorem flattenAll_eq (cs : List NativeClass) : flattenAll cs = cs.flatMap flatten := by
  induction cs with
  | nil => rfl
  | cons c cs ih => rw [flattenAll, ih, List.flatMap_cons]

end NativeClass

namespace World

variable {w w' : World}

theorem Keeps.mono {c : NativeClass} (hkeeps : w.Keeps c)
    (hdeclared : ∀ (i : Nat) (s : NativeState), w.declared[i]? = some s →
      w'.declared[i]? = some s) : w'.Keeps c :=
  fun s hs => hdeclared _ _ (hkeeps s hs)

theorem Knows.mono {c : DynamicClass} (hknows : w.Knows c) (hpersists : Persists w w') :
    w'.Knows c := by
  obtain ⟨s, hs, rfl⟩ := hknows
  obtain ⟨s', hs', hevolves⟩ := hpersists.classes _ s hs
  exact ⟨s', hs', hevolves.cls⟩

theorem KeepsKind.mono {k : Kind} (hkeeps : w.KeepsKind k) (hpersists : Persists w w')
    (hdeclared : ∀ (i : Nat) (s : NativeState), w.declared[i]? = some s →
      w'.declared[i]? = some s) : w'.KeepsKind k := by
  cases k with
  | native c => exact Keeps.mono hkeeps hdeclared
  | dynamic c => exact Knows.mono hkeeps hpersists

/-- Classes of one id are the same class. -/
theorem Keeps.eq_of_id {c d : NativeClass} (hc : w.Keeps c) (hd : w.Keeps d) (hid : c.id = d.id) :
    c = d := by
  have hcs := hc c c.mem_flatten_self
  have hds := hd d d.mem_flatten_self
  rw [hid, hds] at hcs
  exact (congrArg NativeState.cls (Option.some.inj hcs)).symm

theorem Knows.eq_of_id {c d : DynamicClass} (hc : w.Knows c) (hd : w.Knows d) (hid : c.id = d.id) :
    c = d := by
  obtain ⟨s, hs, rfl⟩ := hc
  obtain ⟨r, hr, rfl⟩ := hd
  rw [hid, hr] at hs
  exact congrArg ClassState.cls (Option.some.inj hs).symm

theorem KeepsKind.eq_of_same {k l : Kind} (hk : w.KeepsKind k) (hl : w.KeepsKind l)
    (hsame : k.same l) : k = l := by
  cases k with
  | native c =>
      cases l with
      | native d => exact congrArg _ (Keeps.eq_of_id hk hl (by simpa [Kind.same] using hsame))
      | dynamic d => cases hsame
  | dynamic c =>
      cases l with
      | native d => cases hsame
      | dynamic d => exact congrArg _ (Knows.eq_of_id hk hl (by simpa [Kind.same] using hsame))

end World

/-- What holds of the classes of a state. -/
structure Classed (w : World) (R : Hold) : Prop where
  serials : ∀ (i : Nat) (s : NativeState), w.declared[i]? = some s → s.cls.id.serial = i
  ancestry : ∀ (i : Nat) (s : NativeState), w.declared[i]? = some s → ∀ c ∈ s.cls.flatten,
    ∃ kept, w.declared[c.id.serial]? = some ⟨c, kept⟩
  distinct : ∀ (i : Nat) (s : NativeState), w.declared[i]? = some s →
    (s.cls.flatten.map NativeClass.id).Nodup
  ids : ∀ (id : ClassId) (s : ClassState), w.classes[id]? = some s → s.cls.id = id
  bases : ∀ (id : ClassId) (s : ClassState), w.classes[id]? = some s →
    ∀ b ∈ s.cls.composition.bases, w.Keeps b ∧ ∀ c ∈ b.flatten, ∃ e ∈ w.registry, e.1 = c.id
  natives : ∀ e ∈ w.scope.natives, w.Keeps e.2
  labels : ∀ e ∈ w.scope.classes, w.Knows e.2
  lent : R.kinds = ↑w.lent
  lentKept : ∀ k ∈ w.lent, w.KeepsKind k
  twins : ∀ (t : TwinId) (a : Twin), w.twins[t]? = some a → a.stage ≠ .gone → w.KeepsKind a.kind

namespace Classed

variable {w w' : World} {R R' : Hold}

theorem initial : Classed .initial 0 where
  serials i s hs := by simp [World.initial, World.declareInterp] at hs
  ancestry i s hs := by simp [World.initial, World.declareInterp] at hs
  distinct i s hs := by simp [World.initial, World.declareInterp] at hs
  ids id s hs := by simp [World.initial, World.declareInterp] at hs
  bases id s hs := by simp [World.initial, World.declareInterp] at hs
  natives e he := by simp [World.initial, World.declareInterp] at he
  labels e he := by simp [World.initial, World.declareInterp] at he
  lent := by simp [World.initial, World.declareInterp]
  lentKept k hk := by simp [World.initial, World.declareInterp] at hk
  twins t a ha := by simp [World.initial, World.declareInterp] at ha

/-- No class comes to be or to its end, and no reference to one changes. -/
theorem of_eq (hc : Classed w R) (hpersists : Persists w w')
    (hbefore : ∀ (t : TwinId) (b : Twin), w'.twins[t]? = some b →
      (∃ a, w.twins[t]? = some a ∧ a.Evolves b) ∨ w.KeepsKind b.kind)
    (hdeclared : w'.declared = w.declared) (hsize : w'.classes.size = w.classes.size)
    (hregistry : w'.registry = w.registry)
    (hnatives : w'.scope.natives = w.scope.natives) (hlabels : w'.scope.classes = w.scope.classes)
    (hlent : w'.lent = w.lent) (hkinds : R'.kinds = R.kinds) : Classed w' R' := by
  have hsame : ∀ (i : Nat) (s : NativeState), w.declared[i]? = some s → w'.declared[i]? = some s :=
    fun i s hs => hdeclared ▸ hs
  have hback : ∀ (id : ClassId) (s' : ClassState), w'.classes[id]? = some s' →
      ∃ s, w.classes[id]? = some s ∧ s'.cls = s.cls := by
    intro id s' hs'
    obtain ⟨hlt, -⟩ := Array.getElem?_eq_some_iff.mp hs'
    rw [hsize] at hlt
    obtain ⟨s'', hs'', hevolves⟩ := hpersists.classes id _ (Array.getElem?_eq_getElem hlt)
    rw [hs'] at hs''
    cases hs''
    exact ⟨_, Array.getElem?_eq_getElem hlt, hevolves.cls⟩
  exact {
    serials := hdeclared ▸ hc.serials
    ancestry := hdeclared ▸ hc.ancestry
    distinct := hdeclared ▸ hc.distinct
    ids := fun id s' hs' => by
      obtain ⟨s, hs, hcls⟩ := hback id s' hs'
      rw [hcls]
      exact hc.ids id s hs
    bases := fun id s' hs' b hb => by
      obtain ⟨s, hs, hcls⟩ := hback id s' hs'
      rw [hcls] at hb
      obtain ⟨hkeeps, hregistered⟩ := hc.bases id s hs b hb
      exact ⟨hkeeps.mono hsame, hregistry ▸ hregistered⟩
    natives := hnatives ▸ fun e he => (hc.natives e he).mono hsame
    labels := hlabels ▸ fun e he => (hc.labels e he).mono hpersists
    lent := by rw [hkinds, hlent, hc.lent]
    lentKept := hlent ▸ fun k hk => (hc.lentKept k hk).mono hpersists hsame
    twins := fun t b hb hgone => by
      rcases hbefore t b hb with ⟨a, ha, hevolves⟩ | hkeeps
      · rw [hevolves.kind]
        exact (hc.twins t a ha (hgone ∘ hevolves.gone)).mono hpersists hsame
      · exact hkeeps.mono hpersists hsame }

theorem frame (hc : Classed w R) (hstep : Transition w R w' R')
    (hdeclared : w'.declared = w.declared) (hsize : w'.classes.size = w.classes.size)
    (hregistry : w'.registry = w.registry)
    (hnatives : w'.scope.natives = w.scope.natives) (hlabels : w'.scope.classes = w.scope.classes)
    (hlent : w'.lent = w.lent) (hkinds : R'.kinds = R.kinds) : Classed w' R' := by
  refine hc.of_eq (.of_step hstep) (fun t b hb => ?_) hdeclared hsize hregistry hnatives hlabels
    hlent hkinds
  exact (hstep.twin_before hb).imp id fun hnew => hnew.2.2.2.1

theorem alike (hc : Classed w R) (halike : w.Alike w') : Classed w' R := by
  refine hc.of_eq (.alike halike) (fun t b hb => Or.inl ⟨b, halike.twins ▸ hb, .refl b⟩)
    halike.declared (by rw [halike.classes]) halike.registry halike.natives halike.labels
    halike.lent rfl

theorem nameNative (hc : Classed w R) (label : String) {c : NativeClass} (hkeeps : w.Keeps c) :
    Classed { w with scope := { w.scope with natives := w.scope.natives.put label c } } R :=
  { hc with
    natives := fun e he => by
      rcases Bindings.mem_put he with hold | hnew
      · exact hc.natives e hold
      · rw [hnew]
        exact hkeeps
    lentKept := hc.lentKept
    twins := hc.twins }

theorem nameClass (hc : Classed w R) (label : String) {c : DynamicClass} (hknows : w.Knows c) :
    Classed { w with scope := { w.scope with classes := w.scope.classes.put label c } } R :=
  { hc with
    labels := fun e he => by
      rcases Bindings.mem_put he with hold | hnew
      · exact hc.labels e hold
      · rw [hnew]
        exact hknows
    lentKept := hc.lentKept
    twins := hc.twins }

theorem lend (hc : Classed w R) {k : Kind} (hkeeps : w.KeepsKind k) :
    Classed (World.lend k w) (R + {.kind k}) :=
  { hc with
    lent := by
      simp only [World.lend, Multiset.filterMap_add, Hold.filterMap_single, Token.kind?,
        Option.elim_some, hc.lent]
      rw [add_comm, Multiset.singleton_add, Multiset.cons_coe]
    lentKept := fun l hl => by
      rcases List.mem_cons.mp hl with rfl | hold
      · exact hkeeps
      · exact hc.lentKept l hold
    twins := hc.twins }

/-- Giving a class back takes that very class out of those that are lent. -/
theorem giveBack {k : Kind} (hc : Classed w (R + {.kind k})) :
    Classed { w with lent := w.lent.eraseP k.same } R := by
  have hlent := hc.lent
  simp only [Multiset.filterMap_add, Hold.filterMap_single, Token.kind?, Option.elim_some] at hlent
  have hmem : k ∈ w.lent := by
    rw [← Multiset.mem_coe, ← hlent]
    simp
  have hself : k.same k := by
    cases k <;> simp [Kind.same]
  obtain ⟨l, before, after, -, hl, hsplit, herase⟩ := List.exists_of_eraseP hmem hself
  have hkl : k = l := (hc.lentKept k hmem).eq_of_same
    (hc.lentKept l (by rw [hsplit]; simp)) hl
  subst hkl
  exact { hc with
    lent := by
      rw [herase]
      rw [hsplit] at hlent
      have hcons : (↑(before ++ k :: after) : Multiset Kind) = ↑(before ++ after) + {k} := by
        rw [Multiset.add_comm, Multiset.singleton_add, Multiset.cons_coe, Multiset.coe_eq_coe]
        exact List.perm_middle
      rw [hcons] at hlent
      exact add_right_cancel hlent
    lentKept := fun l hl => hc.lentKept l (List.mem_of_mem_eraseP hl)
    twins := hc.twins }

theorem declare {c : NativeClass} (hc : Classed w (R + .ofHandles c.ownHandles))
    (hid : c.id = ⟨w.declared.size⟩) (hparents : ∀ p ∈ c.parents, w.Keeps p)
    (hdistinct : (c.flatten.map NativeClass.id).Nodup) :
    Classed { w with declared := w.declared.push ⟨c, c.ownHandles⟩ } R := by
  have hold : ∀ (i : Nat) (s : NativeState), w.declared[i]? = some s →
      (w.declared.push ⟨c, c.ownHandles⟩)[i]? = some s := by
    intro i s hs
    rw [Array.getElem?_push, if_neg (Nat.ne_of_lt (Array.getElem?_eq_some_iff.mp hs).1), hs]
  have hback : ∀ (i : Nat) (s : NativeState),
      (w.declared.push ⟨c, c.ownHandles⟩)[i]? = some s →
        (i = w.declared.size ∧ s = ⟨c, c.ownHandles⟩) ∨ w.declared[i]? = some s := by
    intro i s hs
    rw [Array.getElem?_push] at hs
    by_cases hi : i = w.declared.size
    · rw [if_pos hi] at hs
      exact Or.inl ⟨hi, (Option.some.inj hs).symm⟩
    · rw [if_neg hi] at hs
      exact Or.inr hs
  exact {
    serials := fun i s hs => by
      rcases hback i s hs with ⟨rfl, rfl⟩ | hs
      · rw [hid]
      · exact hc.serials i s hs
    ancestry := fun i s hs d hd => by
      rcases hback i s hs with ⟨rfl, rfl⟩ | hs
      · rw [NativeClass.flatten_eq, List.mem_append, List.mem_singleton,
          NativeClass.flattenAll_eq, List.mem_flatMap] at hd
        rcases hd with ⟨p, hp, hd⟩ | rfl
        · exact ⟨_, hold _ _ (hparents p hp d hd)⟩
        · exact ⟨d.ownHandles, by rw [hid]; simp⟩
      · obtain ⟨kept, hkept⟩ := hc.ancestry i s hs d hd
        exact ⟨kept, hold _ _ hkept⟩
    distinct := fun i s hs => by
      rcases hback i s hs with ⟨rfl, rfl⟩ | hs
      · exact hdistinct
      · exact hc.distinct i s hs
    ids := hc.ids
    bases := fun id s hs b hb => (hc.bases id s hs b hb).imp_left fun hkeeps => hkeeps.mono hold
    natives := fun e he => (hc.natives e he).mono hold
    labels := hc.labels
    lent := by simpa using hc.lent
    lentKept := fun k hk =>
      (hc.lentKept k hk).mono (.of_eq rfl rfl le_rfl le_rfl rfl rfl List.prefix_rfl) hold
    twins := fun t a ha hgone =>
      (hc.twins t a ha hgone).mono (.of_eq rfl rfl le_rfl le_rfl rfl rfl List.prefix_rfl) hold }

theorem register {c : DynamicClass} {attrs : Attributes}
    (hc : Classed w (R + .ofHandles attrs.handles)) (hid : c.id = w.classes.size)
    (hbases : ∀ b ∈ c.composition.bases, w.Keeps b) : Classed (World.admitClass c attrs w) R := by
  have hpersists := Persists.admitClass w c attrs
  have hback : ∀ (id : ClassId) (s : ClassState),
      (World.admitClass c attrs w).classes[id]? = some s →
        (id = w.classes.size ∧ s.cls = c) ∨ w.classes[id]? = some s := by
    intro id s hs
    have hpush : (w.classes.push ⟨c, attrs, List.replicate c.vtable.size none⟩)[id]? = some s := hs
    rw [Array.getElem?_push] at hpush
    by_cases hi : id = w.classes.size
    · rw [if_pos hi] at hpush
      cases hpush
      exact Or.inl ⟨hi, rfl⟩
    · rw [if_neg hi] at hpush
      exact Or.inr hpush
  exact {
    serials := hc.serials
    ancestry := hc.ancestry
    distinct := hc.distinct
    ids := fun id s hs => by
      rcases hback id s hs with ⟨rfl, rfl⟩ | hs
      · exact hid
      · exact hc.ids id s hs
    bases := fun id s hs b hb => by
      rcases hback id s hs with ⟨rfl, rfl⟩ | hs
      · refine ⟨hbases b hb, fun d hd => ⟨(d.id, s.cls), ?_, rfl⟩⟩
        refine List.mem_append_right _ (List.mem_map.mpr ⟨d, ?_, rfl⟩)
        exact List.mem_flatMap.mpr ⟨b, hb, hd⟩
      · obtain ⟨hkeeps, hregistered⟩ := hc.bases id s hs b hb
        refine ⟨hkeeps, fun d hd => ?_⟩
        obtain ⟨e, he, hide⟩ := hregistered d hd
        exact ⟨e, List.mem_append_left _ he, hide⟩
    natives := hc.natives
    labels := fun e he => (hc.labels e he).mono hpersists
    lent := by simpa [World.admitClass, World.modifyInterp] using hc.lent
    lentKept := fun k hk => (hc.lentKept k hk).mono hpersists fun _ _ => id
    twins := fun t a ha hgone => (hc.twins t a ha hgone).mono hpersists fun _ _ => id }

section EndNative

variable {id : NativeId} {s : NativeState}

/-- A class that lost its defaults was declared before. -/
theorem declared_before_forget (hs : w.declared[id.serial]? = some s) {i : Nat} {r : NativeState}
    (hr : (w.declared.setIfInBounds id.serial { s with kept := [] })[i]? = some r) :
    ∃ r', w.declared[i]? = some r' ∧ r.cls = r'.cls := by
  rw [Array.getElem?_setIfInBounds] at hr
  by_cases hi : id.serial = i
  · subst hi
    rw [if_pos rfl, if_pos (Array.getElem?_eq_some_iff.mp hs).1] at hr
    cases hr
    exact ⟨s, hs, rfl⟩
  · rw [if_neg hi] at hr
    exact ⟨r, hr, rfl⟩

/-- A class is still declared when one has lost its defaults. -/
theorem declared_after_forget (hs : w.declared[id.serial]? = some s) {i : Nat} {c : NativeClass}
    {kept : List Handle} (hold : w.declared[i]? = some ⟨c, kept⟩) : ∃ kept',
      (w.declared.setIfInBounds id.serial { s with kept := [] })[i]? = some ⟨c, kept'⟩ := by
  rw [Array.getElem?_setIfInBounds]
  by_cases hi : id.serial = i
  · subst hi
    rw [hs] at hold
    cases hold
    have hlt := (Array.getElem?_eq_some_iff.mp hs).1
    exact ⟨[], by simp [hlt]⟩
  · exact ⟨kept, by rw [if_neg hi, hold]⟩

theorem keeps_forget (hs : w.declared[id.serial]? = some s) {c : NativeClass} (hkeeps : w.Keeps c)
    (hnot : ∀ d ∈ c.flatten, d.id ≠ id) :
    { w with declared := w.declared.setIfInBounds id.serial { s with kept := [] } }.Keeps c := by
  intro d hd
  have hne : id.serial ≠ d.id.serial := by
    intro heq
    apply hnot d hd
    cases hid : d.id
    cases id
    simp_all
  rw [Array.getElem?_setIfInBounds, if_neg hne]
  exact hkeeps d hd

theorem keepsKind_forget (hs : w.declared[id.serial]? = some s) {k : Kind}
    (hkeeps : w.KeepsKind k) (hnot : ∀ d ∈ k.layout.segments, d.id ≠ id) :
    { w with
      declared := w.declared.setIfInBounds id.serial { s with kept := [] } }.KeepsKind k := by
  cases k with
  | native c =>
      refine keeps_forget hs hkeeps fun d hd => hnot d ?_
      simpa [Kind.layout, Kind.bases, Layout.of] using hd
  | dynamic c => exact hkeeps

/-- A native class ends only when nothing refers to it, so that all references
are still to classes that have their defaults. -/
theorem forgetNative (hc : Classed w R) (hs : w.declared[id.serial]? = some s)
    (hunreached : w.reachesNative id = false) (hkinds : R'.kinds = R.kinds) :
    Classed { w with declared := w.declared.setIfInBounds id.serial { s with kept := [] } } R' := by
  simp only [World.reachesNative, Bool.or_eq_false_iff] at hunreached
  obtain ⟨⟨⟨hnatives, hregistry⟩, hlent⟩, htwins⟩ := hunreached
  exact {
    serials := fun i r hr => by
      obtain ⟨r', hr', hcls⟩ := declared_before_forget hs hr
      rw [hcls]
      exact hc.serials i r' hr'
    ancestry := fun i r hr c hcr => by
      obtain ⟨r', hr', hcls⟩ := declared_before_forget hs hr
      rw [hcls] at hcr
      obtain ⟨kept, hkept⟩ := hc.ancestry i r' hr' c hcr
      exact declared_after_forget hs hkept
    distinct := fun i r hr => by
      obtain ⟨r', hr', hcls⟩ := declared_before_forget hs hr
      rw [hcls]
      exact hc.distinct i r' hr'
    ids := hc.ids
    bases := fun cid r hr b hb => by
      obtain ⟨hkeeps, hregistered⟩ := hc.bases cid r hr b hb
      refine ⟨keeps_forget hs hkeeps fun d hd heq => ?_, hregistered⟩
      obtain ⟨e, he, hid⟩ := hregistered d hd
      have hnone := List.any_eq_false.mp hregistry e he
      simp [hid, heq] at hnone
    natives := fun e he => by
      refine keeps_forget hs (hc.natives e he) fun d hd heq => ?_
      have hnone := List.any_eq_false.mp hnatives e he
      exact hnone (List.contains_iff_mem.mpr ((e.2.mem_lineage_iff id).mpr ⟨d, hd, heq⟩))
    labels := hc.labels
    lent := hkinds.trans hc.lent
    lentKept := fun k hk => by
      refine keepsKind_forget hs (hc.lentKept k hk) fun d hd heq => ?_
      have hnone := List.any_eq_false.mp hlent k hk
      exact hnone (List.any_eq_true.mpr ⟨d, hd, by simpa using heq⟩)
    twins := fun t a ha hgone => by
      refine keepsKind_forget hs (hc.twins t a ha hgone) fun d hd heq => ?_
      rw [Array.any_eq_false'] at htwins
      have hnone := htwins a (Array.mem_of_getElem? ha)
      simp only [Bool.and_eq_true, bne_iff_ne, ne_eq, not_and] at hnone
      exact hnone hgone (List.any_eq_true.mpr ⟨d, hd, by simpa using heq⟩) }

end EndNative

theorem endNative (hc : Classed w R) (id : NativeId) :
    Classed (World.endNative id w).1 (R + .ofHandles (World.endNative id w).2) := by
  unfold World.endNative
  split
  · simpa using hc
  · rename_i s hs
    split
    · simpa using hc
    · rename_i hreaches
      exact hc.forgetNative hs (by simpa using hreaches) (by simp)

/-- Every step keeps the classes in order. -/
theorem step (hc : Classed w R) (hstep : Transition w R w' R') : Classed w' R' := by
  have hsame := hstep
  cases hstep with
  | quiet halike => exact hc.alike halike
  | letGo h =>
      obtain ⟨twins, journal, hframe⟩ := w.letGo_frame h
      exact hc.frame hsame (by rw [hframe]) (by rw [hframe]) (by rw [hframe]) (by rw [hframe])
        (by rw [hframe]) (by rw [hframe]) (by simp)
  | @mark _ t _ index b htwin hstage hfree hbase hagain =>
      obtain ⟨twins, journal, hframe⟩ := w.markBuilt_frame t index b.base
      exact hc.frame hsame (by rw [hframe]) (by rw [hframe]) (by rw [hframe]) (by rw [hframe])
        (by rw [hframe]) (by rw [hframe]) (by simp)
  | endClass id =>
      obtain ⟨classes, hframe, hsize⟩ := w.endClass_frame id
      exact hc.frame hsame (by rw [hframe]) (by rw [hframe, hsize]) (by rw [hframe])
        (by rw [hframe]) (by rw [hframe]) (by rw [hframe]) (by simp)
  | endNative id => exact hc.endNative id
  | declare hid hparents hdistinct => exact hc.declare hid hparents hdistinct
  | nameNative label hkeeps => exact hc.nameNative label hkeeps
  | register hid hbases hinterp attrs => exact hc.register hid hbases
  | nameClass label hknows => exact hc.nameClass label hknows
  | lend hkeeps => exact hc.lend hkeeps
  | giveBack k => exact hc.giveBack
  | storeClass => exact hc.frame hsame rfl (by simp [World.setClass]) rfl rfl rfl rfl (by simp)
  | learn => exact hc.frame hsame rfl (by simp [World.setClass]) rfl rfl rfl rfl rfl
  | bind x b =>
      refine hc.frame hsame rfl rfl rfl rfl rfl rfl ?_
      simp only [Multiset.filterMap_add]
      rw [w.filterMap_varHold x (by simp) (by simp) (by simp),
        w.filterMap_bindingHold b (by simp) (by simp) (by simp)]
  | unbind x =>
      refine hc.frame hsame rfl rfl rfl rfl rfl rfl ?_
      simp only [Multiset.filterMap_add]
      rw [w.filterMap_varHold x (by simp) (by simp) (by simp), add_zero]
  | leaveGroup hg => exact hc.frame hsame rfl rfl rfl rfl rfl rfl (by split <;> simp)
  | _ => exact hc.frame hsame rfl rfl rfl rfl rfl rfl (by simp)

end Classed

end TwinObject
