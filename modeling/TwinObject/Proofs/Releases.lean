/-
Releases.  Handles that are let go of release those twins alone that they are to, and those
that such twins kept alive; a class stays as it is while anything is made of it.  So a handle
that is taken and let go again leaves no trace.
-/
import TwinObject.Proofs.Trials

namespace TwinObject

open Hold

theorem flatMap_subset_of_forall {α β : Type} {f g : α → List β} (as : List α)
    (h : ∀ a, f a ⊆ g a) : as.flatMap f ⊆ as.flatMap g := by
  intro b hb
  obtain ⟨a, ha, hb⟩ := List.mem_flatMap.mp hb
  exact List.mem_flatMap.mpr ⟨a, ha, h a hb⟩

theorem Twin.retain_comm (h h' : Handle) (a : Twin) :
    (a.retain h).retain h' = (a.retain h').retain h := by
  cases h <;> cases h' <;> rfl

namespace World

/-- The handles in the attributes of a dynamic class. -/
def attrHandles (w : World) (id : ClassId) : List Handle :=
  (w.classes[id]?).elim [] ClassState.handles

/-- The handles in the defaults of a native class. -/
def keptHandles (w : World) (id : NativeId) : List Handle :=
  (w.declared[id.serial]?).elim [] NativeState.kept

/-- The handles that may be let go of when a class loses a reference. -/
def kindUpkeep (w : World) : Kind → List Handle
  | .native c => (c.flatten.map NativeClass.id).flatMap w.keptHandles
  | .dynamic c => (c.chain.reverse.map ClassDef.id).flatMap w.attrHandles

/-- The handles that may be let go of when a twin is released: those in its halves, and those
that its class keeps. -/
def upkeep (w : World) (t : TwinId) : List Handle :=
  (w.twin t).contents ++ w.kindUpkeep (w.twin t).kind

/-- What is reached from handles through twins that are not alive in the end. -/
inductive Reached (w u : World) (hs : List Handle) : TwinId → Prop
  | handle {h : Handle} (hh : h ∈ hs) : Reached w u hs h.twin
  | upkeep {t : TwinId} {h : Handle} (hreached : Reached w u hs t) (hreleased : ¬u.Alive t)
      (hh : h ∈ w.upkeep t) : Reached w u hs h.twin

/-- Whether nothing keeps more than it did. -/
structure Dwindles (w u : World) : Prop where
  kind : ∀ t, (u.twin t).kind = (w.twin t).kind
  contents : ∀ t, (u.twin t).contents ⊆ (w.twin t).contents
  classes : ∀ id, u.attrHandles id ⊆ w.attrHandles id
  declared : ∀ id, u.keptHandles id ⊆ w.keptHandles id

namespace Dwindles

variable {w u v : World}

theorem of_eq (htwins : u.twins = w.twins) (hclasses : u.classes = w.classes)
    (hdeclared : u.declared = w.declared) : w.Dwindles u where
  kind t := by rw [twin, twin?, htwins, twin, twin?]
  contents t := by rw [twin, twin?, htwins, twin, twin?]; exact List.Subset.refl _
  classes id := by rw [attrHandles, hclasses, attrHandles]; exact List.Subset.refl _
  declared id := by rw [keptHandles, hdeclared, keptHandles]; exact List.Subset.refl _

theorem refl (w : World) : w.Dwindles w :=
  of_eq rfl rfl rfl

theorem trans (h : w.Dwindles u) (h' : u.Dwindles v) : w.Dwindles v where
  kind t := (h'.kind t).trans (h.kind t)
  contents t := List.Subset.trans (h'.contents t) (h.contents t)
  classes id := List.Subset.trans (h'.classes id) (h.classes id)
  declared id := List.Subset.trans (h'.declared id) (h.declared id)

theorem setTwin {t : TwinId} {a b : Twin} (ha : w.twins[t]? = some a) (hkind : b.kind = a.kind)
    (hcontents : b.contents ⊆ a.contents) : w.Dwindles (w.setTwin t b) := by
  have htwin : ∀ i, (w.setTwin t b).twin i = if t = i then b else w.twin i := fun i => by
    rw [twin, twin?, getElem?_setTwin ha, twin, twin?]
    split <;> rfl
  refine ⟨fun i => ?_, fun i => ?_, fun _ => List.Subset.refl _, fun _ => List.Subset.refl _⟩
  · rw [htwin]
    split
    · rename_i hi
      rw [← hi, twin_eq ha, hkind]
    · rfl
  · rw [htwin]
    split
    · rename_i hi
      rw [← hi, twin_eq ha]
      exact hcontents
    · exact List.Subset.refl _

theorem letGo (w : World) (h : Handle) : w.Dwindles (w.letGo h).1 := by
  unfold World.letGo
  split
  · exact of_eq rfl rfl rfl
  · rename_i a ha
    have hbase : w.Dwindles (if a.tally h = 0 then w.record [.overdrawn h] else w) := by
      split <;> exact of_eq rfl rfl rfl
    have ha' : (if a.tally h = 0 then w.record [.overdrawn h] else w).twins[h.twin]? = some a := by
      split <;> exact ha
    dsimp only
    split
    · have hemptied := setTwin ha' (b := (a.forget h).emptied) (Twin.kind_forget h a) (by simp)
      exact hbase.trans (hemptied.trans (of_eq rfl rfl rfl))
    · exact hbase.trans (setTwin ha' (Twin.kind_forget h a) (by simp))

theorem endClass (id : ClassId) (w : World) : w.Dwindles (w.endClass id).1 := by
  unfold World.endClass
  split
  · exact refl w
  · rename_i s hs
    split
    · exact refl w
    · refine ⟨fun _ => rfl, fun _ => List.Subset.refl _, fun other => ?_,
        fun _ => List.Subset.refl _⟩
      by_cases hother : id = other
      · subst hother
        obtain ⟨hlt, -⟩ := Array.getElem?_eq_some_iff.mp hs
        simp [attrHandles, hlt, ClassState.handles]
      · rw [attrHandles, Array.getElem?_setIfInBounds_ne hother]
        exact List.Subset.refl _

theorem endNative (id : NativeId) (w : World) : w.Dwindles (w.endNative id).1 := by
  unfold World.endNative
  split
  · exact refl w
  · rename_i s hs
    split
    · exact refl w
    · refine ⟨fun _ => rfl, fun _ => List.Subset.refl _, fun _ => List.Subset.refl _,
        fun other => ?_⟩
      by_cases hother : id.serial = other.serial
      · obtain ⟨hlt, -⟩ := Array.getElem?_eq_some_iff.mp hs
        simp [keptHandles, ← hother, hlt]
      · rw [keptHandles, Array.getElem?_setIfInBounds_ne hother]
        exact List.Subset.refl _

theorem settleOne (w : World) (d : Due) : w.Dwindles (w.settleOne d).1 :=
  settleOne_leads refl trans letGo (fun _ _ _ ha => setTwin ha rfl (List.Subset.refl _)) endClass
    endNative w d

theorem kindUpkeep (h : w.Dwindles u) (k : Kind) : u.kindUpkeep k ⊆ w.kindUpkeep k := by
  cases k with
  | native c => exact flatMap_subset_of_forall _ h.declared
  | dynamic c => exact flatMap_subset_of_forall _ h.classes

theorem upkeep (h : w.Dwindles u) (t : TwinId) : u.upkeep t ⊆ w.upkeep t := by
  rw [World.upkeep, h.kind, World.upkeep]
  exact List.append_subset.mpr
    ⟨List.subset_append_of_subset_left _ (h.contents t),
      List.subset_append_of_subset_right _ (h.kindUpkeep _)⟩

end Dwindles

variable {w u : World}

section Freed

theorem snd_endClass_subset (id : ClassId) (w : World) :
    (w.endClass id).2 ⊆ w.attrHandles id := by
  unfold endClass attrHandles
  split
  · exact List.nil_subset _
  · rename_i s hs
    rw [hs]
    split
    · exact List.nil_subset _
    · exact List.Subset.refl _

theorem snd_endNative_subset (id : NativeId) (w : World) :
    (w.endNative id).2 ⊆ w.keptHandles id := by
  unfold endNative keptHandles
  split
  · exact List.nil_subset _
  · rename_i s hs
    rw [hs]
    split
    · exact List.nil_subset _
    · exact List.Subset.refl _

/-- What comes back when things end one after another was kept by them at the start. -/
theorem snd_endEach_subset {α : Type} {f : α → World → World × List Handle}
    {kept : World → α → List Handle} (hfreed : ∀ a w, (f a w).2 ⊆ kept w a)
    (hkept : ∀ a b w, kept (f a w).1 b ⊆ kept w b) (as : List α) (w : World) :
    (endEach f as w).2 ⊆ as.flatMap (kept w) := by
  induction as generalizing w with
  | nil => exact List.nil_subset _
  | cons a as ih =>
      rw [List.flatMap_cons]
      refine List.append_subset.mpr ⟨List.subset_append_of_subset_left _ (hfreed a w), ?_⟩
      refine List.subset_append_of_subset_right _ (List.Subset.trans (ih (f a w).1) ?_)
      exact flatMap_subset_of_forall _ (hkept a · w)

theorem snd_forsake_subset (k : Kind) (w : World) : (forsake k w).2 ⊆ w.kindUpkeep k := by
  cases k with
  | native c =>
      exact snd_endEach_subset snd_endNative_subset
        (fun a b w => (Dwindles.endNative a w).declared b) _ w
  | dynamic c =>
      exact snd_endEach_subset snd_endClass_subset
        (fun a b w => (Dwindles.endClass a w).classes b) _ w

/-- What comes back with the class of a twin was kept by that. -/
theorem snd_letKindGo_subset (w : World) (t : TwinId) : (w.letKindGo t).2 ⊆ w.upkeep t := by
  unfold letKindGo
  split
  · exact List.nil_subset _
  · rename_i a ha
    split
    · rw [upkeep, twin_eq ha]
      refine List.subset_append_of_subset_right _ ?_
      exact List.Subset.trans (snd_forsake_subset _ _)
        ((Dwindles.setTwin ha rfl (List.Subset.refl _)).kindUpkeep _)
    · exact List.nil_subset _

end Freed

section Released

theorem alive_setTwin {t i : TwinId} {a b : Twin} (ha : w.twins[t]? = some a)
    (hstage : i = t → a.stage = .live → b.stage = .live) (halive : w.Alive i) :
    (w.setTwin t b).Alive i := by
  obtain ⟨c, hc, hlive⟩ := halive
  by_cases hi : t = i
  · subst hi
    cases ha.symm.trans hc
    exact ⟨b, by rw [getElem?_setTwin ha, if_pos rfl], hstage rfl hlive⟩
  · exact ⟨c, by rw [getElem?_setTwin ha, if_neg hi, hc], hlive⟩

/-- A handle that is let go of sets nothing free, or the contents of its twin, which is released
then; no other twin is. -/
theorem letGo_releases (w : World) (h : Handle) :
    ((w.letGo h).2 = [] ∧ ∀ i, w.Alive i → (w.letGo h).1.Alive i)
    ∨ (w.letGo h).2 = (w.twin h.twin).contents.map Due.handle ++ [.kind h.twin]
      ∧ ¬(w.letGo h).1.Alive h.twin ∧ ∀ i, i ≠ h.twin → w.Alive i → (w.letGo h).1.Alive i := by
  unfold letGo
  split
  · exact .inl ⟨rfl, fun _ halive => halive⟩
  · rename_i a ha
    have hbase : ∀ i, w.Alive i → (if a.tally h = 0 then w.record [.overdrawn h] else w).Alive i :=
      fun i halive => by split <;> exact halive
    have ha' : (if a.tally h = 0 then w.record [.overdrawn h] else w).twins[h.twin]? = some a := by
      split <;> exact ha
    dsimp only
    generalize (if a.tally h = 0 then w.record [.overdrawn h] else w) = v at hbase ha'
    split
    · refine .inr ⟨?_, ?_, fun i hi halive => ?_⟩
      · rw [twin_eq ha, release, Twin.contents_forget]
      · rintro ⟨b, hb, hlive⟩
        change (v.setTwin h.twin (a.forget h).emptied).twins[h.twin]? = some b at hb
        rw [getElem?_setTwin ha', if_pos rfl] at hb
        cases hb
        cases hlive
      · exact alive_setTwin ha' (fun hi' => absurd hi' hi) (hbase i halive)
    · exact .inl ⟨rfl, fun i halive => alive_setTwin ha'
        (fun _ hlive => by rw [Twin.stage_forget, hlive]) (hbase i halive)⟩

theorem twins_forsake (k : Kind) (w : World) : (forsake k w).1.twins = w.twins := by
  have heach : ∀ {α : Type} {f : α → World → World × List Handle} (as : List α),
      (∀ a w, (f a w).1.twins = w.twins) → (endEach f as w).1.twins = w.twins := fun as hf =>
    endEach_leads (r := fun w u => u.twins = w.twins) (fun _ => rfl) (fun h h' => h'.trans h) hf
      as w
  cases k with
  | native c =>
      refine heach _ fun id w => ?_
      obtain ⟨declared, hframe⟩ := w.endNative_frame id
      rw [hframe]
  | dynamic c =>
      refine heach _ fun id w => ?_
      obtain ⟨classes, hframe, -⟩ := w.endClass_frame id
      rw [hframe]

theorem alive_letKindGo (t : TwinId) {i : TwinId} (halive : w.Alive i) :
    (w.letKindGo t).1.Alive i := by
  unfold letKindGo
  split
  · exact halive
  · rename_i a ha
    split
    · rename_i hleaving
      have hset : (w.setTwin t { a with stage := .gone }).Alive i :=
        alive_setTwin ha (fun _ hlive => nomatch hleaving.symm.trans hlive) halive
      obtain ⟨b, hb, hlive⟩ := hset
      exact ⟨b, by rw [twins_forsake, hb], hlive⟩
    · exact halive

/-- Whether what is still to be done concerns only twins of a set, and the classes of those
among them that are not alive in the end. -/
def Within (X : TwinId → Prop) (u : World) : Due → Prop
  | .handle h => X h.twin
  | .kind t => X t ∧ ¬u.Alive t

/-- One thing that is done for such a set sets free what concerns it too, and releases at most
a twin of the set. -/
theorem settleOne_within {X : TwinId → Prop} {d : Due} (hdue : Within X u d)
    (hlater : ∀ t, u.Alive t → (w.settleOne d).1.Alive t)
    (hclosed : ∀ t, X t → ¬u.Alive t → ∀ h ∈ w.upkeep t, X h.twin) :
    (∀ e ∈ (w.settleOne d).2, Within X u e)
      ∧ ∀ i, w.Alive i → X i ∨ (w.settleOne d).1.Alive i := by
  cases d with
  | handle h =>
      change (∀ t, u.Alive t → (w.letGo h).1.Alive t) at hlater
      change (∀ e ∈ (w.letGo h).2, Within X u e)
        ∧ ∀ i, w.Alive i → X i ∨ (w.letGo h).1.Alive i
      rcases letGo_releases w h with ⟨hnone, hkept⟩ | ⟨hfreed, hgone, hkept⟩
      · rw [hnone]
        exact ⟨fun e he => (nomatch he), fun i halive => .inr (hkept i halive)⟩
      · have hreleased : ¬u.Alive h.twin := fun halive => hgone (hlater _ halive)
        rw [hfreed]
        refine ⟨fun e he => ?_, fun i halive => ?_⟩
        · rcases List.mem_append.mp he with he | he
          · obtain ⟨content, hcontent, rfl⟩ := List.mem_map.mp he
            exact hclosed _ hdue hreleased content (List.mem_append_left _ hcontent)
          · cases List.mem_singleton.mp he
            exact ⟨hdue, hreleased⟩
        · by_cases hi : i = h.twin
          · exact .inl (hi ▸ hdue)
          · exact .inr (hkept i hi halive)
  | kind t =>
      refine ⟨fun e he => ?_, fun i halive => .inr (alive_letKindGo t halive)⟩
      obtain ⟨h, hh, rfl⟩ := List.mem_map.mp he
      exact hclosed t hdue.1 hdue.2 h (snd_letKindGo_subset w t hh)

/-- Of the twins that are alive only those are released that belong to a set which is closed
under what is kept. -/
theorem released_settle {X : TwinId → Prop} (ds : List Due) (hu : w.settle ds = u)
    (hdue : ∀ d ∈ ds, Within X u d)
    (hclosed : ∀ t, X t → ¬u.Alive t → ∀ h ∈ w.upkeep t, X h.twin) {i : TwinId}
    (halive : w.Alive i) (hreleased : ¬u.Alive i) : X i := by
  fun_induction World.settle w ds with
  | case1 w => exact absurd (hu ▸ halive) hreleased
  | case2 w d ds ih =>
      have hstill := Still.settle (w.settleOne d).1 ((w.settleOne d).2 ++ ds)
      rw [hu] at hstill
      have hlater : ∀ t, u.Alive t → (w.settleOne d).1.Alive t := fun t ht => by
        obtain ⟨b, hb, hlive⟩ := ht
        exact hstill.rests.alive (hstill.size ▸ (Array.getElem?_eq_some_iff.mp hb).1)
          ⟨b, hb, hlive⟩
      obtain ⟨hfreed, hkept⟩ := settleOne_within (hdue d List.mem_cons_self) hlater hclosed
      rcases hkept i halive with hi | hi
      · exact hi
      · refine ih hu (fun e he => ?_) (fun t ht hgone h hh => ?_) hi
        · rcases List.mem_append.mp he with he | he
          · exact hfreed e he
          · exact hdue e (List.mem_cons_of_mem d he)
        · exact hclosed t ht hgone h ((Dwindles.settleOne w d).upkeep t hh)

/-- A twin that is released when handles are let go of is reached from those of them whose twins
are released. -/
theorem reached_of_drop {x : World} {hs lost : List Handle} (hu : x.drop lost = u)
    (hlost : ∀ h ∈ lost, h ∈ hs ∨ u.Alive h.twin)
    (hupkeep : ∀ t, w.Reached u hs t → ¬u.Alive t → x.upkeep t ⊆ w.upkeep t) {i : TwinId}
    (halive : x.Alive i) (hreleased : ¬u.Alive i) : w.Reached u hs i := by
  have hclosed : ∀ t, (w.Reached u hs t ∨ u.Alive t) → ¬u.Alive t →
      ∀ h ∈ x.upkeep t, w.Reached u hs h.twin ∨ u.Alive h.twin := fun t ht hgone h hh => by
    have hreached := ht.resolve_right hgone
    exact .inl (.upkeep hreached hgone (hupkeep t hreached hgone hh))
  refine (released_settle (X := fun t => w.Reached u hs t ∨ u.Alive t) (lost.map Due.handle) hu
    (fun d hd => ?_) hclosed halive hreleased).resolve_right hreleased
  obtain ⟨h, hh, rfl⟩ := List.mem_map.mp hd
  exact (hlost h hh).imp_left .handle

/-- What is let go of with a twin is stored. -/
theorem upkeep_stored {t : TwinId} {a : Twin} (ha : w.twins[t]? = some a) {h : Handle}
    (hh : h ∈ w.upkeep t) : h ∈ w.rootBag := by
  rw [upkeep, twin_eq ha] at hh
  rcases List.mem_append.mp hh with hcontent | hkept
  · exact mem_rootBag ha hcontent
  · simp only [rootBag, Multiset.mem_add]
    cases hkind : a.kind with
    | native c =>
        rw [hkind] at hkept
        obtain ⟨id, -, hh⟩ := List.mem_flatMap.mp hkept
        cases hs : w.declared[id.serial]? with
        | none => simp [keptHandles, hs] at hh
        | some s =>
            have hkept : h ∈ s.kept := by simpa [keptHandles, hs] using hh
            exact .inl (.inl (.inl (.inl (.inl (.inl (mem_bag hs hkept))))))
    | dynamic c =>
        rw [hkind] at hkept
        obtain ⟨id, -, hh⟩ := List.mem_flatMap.mp hkept
        cases hs : w.classes[id]? with
        | none => simp [attrHandles, hs] at hh
        | some s =>
            have hattr : h ∈ s.handles := by simpa [attrHandles, hs] using hh
            exact .inl (.inl (.inl (.inl (.inr (mem_bag hs hattr)))))

/-- What is reached from handles that exist is there. -/
theorem Reached.lt_size {R : Hold} {hs : List Handle} {i : TwinId} (hattained : Attained w R)
    (hhs : ∀ h ∈ hs, h ∈ w.rootBag + R.handles) (hreached : w.Reached u hs i) :
    i < w.twins.size := by
  induction hreached with
  | handle hh => exact hattained.lt_size (hhs _ hh)
  | upkeep hreached hreleased hh ih =>
      have hstored := upkeep_stored (Array.getElem?_eq_getElem ih) hh
      exact hattained.lt_size (Multiset.mem_add.mpr (.inl hstored))

end Released

section Classes

/-- Whether the dynamic classes that something is made of are as they were. -/
def KeepsClasses (w u : World) : Prop :=
  ∀ id, u.reachesClass id = true → w.reachesClass id = true ∧ u.classes[id]? = w.classes[id]?

namespace KeepsClasses

variable {v : World}

theorem refl (w : World) : w.KeepsClasses w :=
  fun _ hreaches => ⟨hreaches, rfl⟩

theorem trans (h : w.KeepsClasses u) (h' : u.KeepsClasses v) : w.KeepsClasses v := by
  intro id hreaches
  obtain ⟨hreaches, hsame⟩ := h' id hreaches
  obtain ⟨hreaches, hsame'⟩ := h id hreaches
  exact ⟨hreaches, hsame.trans hsame'⟩

/-- As many classes are reached by twins as before if these only come closer to their end. -/
theorem of_twins (hscope : u.scope = w.scope) (hlent : u.lent = w.lent)
    (hclasses : u.classes = w.classes)
    (htwins : ∀ (i : TwinId) (b : Twin), u.twins[i]? = some b → b.stage ≠ .gone →
      ∃ a, w.twins[i]? = some a ∧ a.stage ≠ .gone ∧ a.kind = b.kind) : w.KeepsClasses u := by
  refine fun id hreaches => ⟨?_, by rw [hclasses]⟩
  rw [reachesClass, hscope, hlent, Bool.or_eq_true] at hreaches
  rw [reachesClass, Bool.or_eq_true]
  refine hreaches.imp_right fun hany => ?_
  obtain ⟨b, hb, hmade⟩ := Array.any_eq_true'.mp hany
  obtain ⟨i, hi⟩ := Array.mem_iff_getElem?.mp hb
  simp only [Bool.and_eq_true, bne_iff_ne] at hmade
  obtain ⟨a, ha, hstage, hkind⟩ := htwins i b hi hmade.1
  refine Array.any_eq_true'.mpr ⟨a, Array.mem_of_getElem? ha, ?_⟩
  simp only [Bool.and_eq_true, bne_iff_ne]
  exact ⟨hstage, hkind ▸ hmade.2⟩

theorem setTwin {t : TwinId} {a b : Twin} (ha : w.twins[t]? = some a) (hkind : b.kind = a.kind)
    (hstage : b.stage ≠ .gone → a.stage ≠ .gone) : w.KeepsClasses (w.setTwin t b) := by
  refine of_twins rfl rfl rfl fun i c hc hlive => ?_
  rcases of_getElem?_setTwin ha hc with ⟨rfl, rfl⟩ | ⟨-, hc⟩
  · exact ⟨a, ha, hstage hlive, hkind.symm⟩
  · exact ⟨c, hc, hlive, rfl⟩

theorem letGo (w : World) (h : Handle) : w.KeepsClasses (w.letGo h).1 := by
  unfold World.letGo
  split
  · exact refl w
  · rename_i a ha
    have hbase : w.KeepsClasses (if a.tally h = 0 then w.record [.overdrawn h] else w) := by
      split <;> exact refl w
    have ha' : (if a.tally h = 0 then w.record [.overdrawn h] else w).twins[h.twin]? = some a := by
      split <;> exact ha
    dsimp only
    generalize (if a.tally h = 0 then w.record [.overdrawn h] else w) = v at hbase ha'
    split
    · rename_i hdue
      have hlive : a.stage = .live := by
        simp only [Twin.isDue, Twin.stage_forget, Bool.and_eq_true, decide_eq_true_eq] at hdue
        exact hdue.2
      have hemptied : v.KeepsClasses (v.setTwin h.twin (a.forget h).emptied) :=
        setTwin ha' (Twin.kind_forget h a) fun _ => by simp [hlive]
      exact hbase.trans hemptied
    · exact hbase.trans (setTwin ha' (Twin.kind_forget h a) (by simp))

theorem endClass (id : ClassId) (w : World) : w.KeepsClasses (w.endClass id).1 := by
  unfold World.endClass
  split
  · exact refl w
  · split
    · exact refl w
    · rename_i hunreached
      refine fun other hreaches => ⟨hreaches, Array.getElem?_setIfInBounds_ne fun hid => ?_⟩
      exact hunreached (hid ▸ hreaches)

theorem endNative (id : NativeId) (w : World) : w.KeepsClasses (w.endNative id).1 := by
  obtain ⟨declared, hframe⟩ := w.endNative_frame id
  rw [hframe]
  exact refl w

/-- Letting go of handles leaves the classes that something is made of. -/
theorem drop (w : World) (hs : List Handle) : w.KeepsClasses (w.drop hs) :=
  drop_leads refl trans letGo (fun _ _ _ ha => setTwin ha rfl fun hstage => absurd rfl hstage)
    endClass endNative w hs

end KeepsClasses

end Classes

section Order

theorem settle_append (w : World) (ds es : List Due) :
    w.settle (ds ++ es) = (w.settle ds).settle es := by
  fun_induction World.settle w ds with
  | case1 w => rfl
  | case2 w d ds ih =>
      rw [List.cons_append, settle, ← List.append_assoc, ih]

theorem drop_nil (w : World) : w.drop [] = w := by
  rw [drop, List.map_nil, settle]

theorem drop_append (w : World) (hs hs' : List Handle) :
    w.drop (hs ++ hs') = (w.drop hs).drop hs' := by
  rw [drop, List.map_append, settle_append, drop, drop]

theorem retain_comm (w : World) (h h' : Handle) :
    (w.retain h).retain h' = (w.retain h').retain h := by
  have htwins : ((w.retain h).retain h').twins = ((w.retain h').retain h).twins := by
    refine Array.ext_getElem? fun i => ?_
    simp only [retain, modifyTwin, Array.getElem?_modify]
    cases w.twins[i]? with
    | none => split <;> split <;> rfl
    | some a => split <;> split <;> simp [Twin.retain_comm h h']
  exact congrArg (fun twins => { w with twins }) htwins

theorem retainAll_retain (w : World) (h : Handle) (hs : List Handle) :
    (w.retain h).retainAll hs = (w.retainAll hs).retain h := by
  induction hs generalizing w with
  | nil => rfl
  | cons h' hs ih =>
      change ((w.retain h).retain h').retainAll hs = ((w.retain h').retainAll hs).retain h
      rw [retain_comm, ih]

end Order

end World

/-- Handles to what is lent that are taken and let go again change nothing. -/
theorem Attained.drop_retainAll {w : World} {R : Hold} (hattained : Attained w R)
    {hs : List Handle} (hlent : LendsAll R hs) : (w.retainAll hs).drop hs = w := by
  induction hs with
  | nil => exact World.drop_nil w
  | cons h hs ih =>
      have hrest : LendsAll R hs := hlent.subset fun _ => List.mem_cons_of_mem h
      have htaken := (hattained.retainAll hrest).lt_of_lends
        (hlent h List.mem_cons_self).left
      calc (w.retainAll (h :: hs)).drop (h :: hs)
          = (((w.retainAll hs).retain h).drop [h]).drop hs := by
            rw [← List.singleton_append, World.drop_append, ← World.retainAll_retain]
            rfl
        _ = (w.retainAll hs).drop hs := by
            rw [(hattained.retainAll hrest).drop_retain htaken]
        _ = w := ih hrest

end TwinObject
