/-
Worlds that agree but for the storage of one instance.  Two such worlds stay in agreement
as long as both do the same, whatever old values are let go in either, and a conversion of
arguments cannot tell them apart.
-/
import TwinObject.Proofs.Bystanders
import TwinObject.Proofs.Filling

namespace TwinObject

namespace World

/-- Whether two worlds have the same instances, alike where they are alive in both, up to the
handles to them.  Of one instance only some segments have to be alike. -/
structure Shares (t : TwinId) (S : Set Nat) (w₁ w₂ : World) : Prop where
  kinds : ∀ i : TwinId, (w₁.twins[i]?).map Twin.kind = (w₂.twins[i]?).map Twin.kind
  others : ∀ (i : TwinId) (a b : Twin), i ≠ t → w₁.twins[i]? = some a → w₂.twins[i]? = some b →
    a.stage = .live → b.stage = .live → a.bare = b.bare
  segments : ∀ a b : Twin, w₁.twins[t]? = some a → w₂.twins[t]? = some b →
    a.stage = .live → b.stage = .live → ∀ j ∈ S, a.storage[j]? = b.storage[j]?

/-- Whether between two worlds an instance was written to in some segments only.  If it is
alive it was alive before. -/
def WritesIn (t : TwinId) (S : Set Nat) (w u : World) : Prop :=
  ∀ b : Twin, u.twins[t]? = some b → b.stage = .live →
    ∃ a, w.twins[t]? = some a ∧ a.stage = .live ∧ ∀ j ∉ S, b.storage[j]? = a.storage[j]?

variable {t : TwinId} {S T : Set Nat} {w u v w₁ w₂ u₁ u₂ : World}

/-- What is left of a twin was there, of the same class. -/
theorem Still.of_getElem? (h : w.Still u) {i : TwinId} {b : Twin} (hb : u.twins[i]? = some b) :
    ∃ a, w.twins[i]? = some a ∧ a.Rests b := by
  obtain ⟨hlt, -⟩ := Array.getElem?_eq_some_iff.mp hb
  rw [h.size] at hlt
  have ha : w.twins[i]? = some w.twins[i] := Array.getElem?_eq_getElem hlt
  exact ⟨_, ha, h.rests.twin ha hb⟩

theorem Still.kind (h : w.Still u) (i : TwinId) :
    (u.twins[i]?).map Twin.kind = (w.twins[i]?).map Twin.kind := by
  cases hb : u.twins[i]? with
  | some b =>
      obtain ⟨a, ha, hab⟩ := h.of_getElem? hb
      rw [ha, Option.map_some, Option.map_some, hab.kind]
  | none =>
      have hle : u.twins.size ≤ i := Array.getElem?_eq_none_iff.mp hb
      rw [Array.getElem?_eq_none (h.size ▸ hle)]

theorem getElem?_modifyTwin (w : World) (t i : TwinId) (f : Twin → Twin) :
    (w.modifyTwin t f).twins[i]? = if t = i then (w.twins[i]?).map f else w.twins[i]? :=
  Array.getElem?_modify

namespace WritesIn

theorem of_still (h : w.Still u) : WritesIn t S w u := by
  intro b hb hlive
  obtain ⟨a, ha, hab⟩ := h.of_getElem? hb
  exact ⟨a, ha, hab.live hlive, fun j _ => by rw [hab.storage hlive]⟩

theorem of_rests (h : w.Rests u) (hthere : t < w.twins.size) : WritesIn t S w u := by
  intro b hb hlive
  have ha : w.twins[t]? = some w.twins[t] := Array.getElem?_eq_getElem hthere
  have hab := h.twin ha hb
  exact ⟨_, ha, hab.live hlive, fun j _ => by rw [hab.storage hlive]⟩

theorem trans (h : WritesIn t S w u) (h' : WritesIn t T u v) : WritesIn t (S ∪ T) w v := by
  intro c hc hlive
  obtain ⟨b, hb, hlive, hbc⟩ := h' c hc hlive
  obtain ⟨a, ha, hlive, hab⟩ := h b hb hlive
  refine ⟨a, ha, hlive, fun j hj => ?_⟩
  rw [hbc j fun hT => hj (.inr hT), hab j fun hS => hj (.inl hS)]

theorem mono (h : WritesIn t S w u) (hST : S ⊆ T) : WritesIn t T w u := by
  intro b hb hlive
  obtain ⟨a, ha, hlive, hab⟩ := h b hb hlive
  exact ⟨a, ha, hlive, fun j hj => hab j fun hS => hj (hST hS)⟩

/-- One set of segments was written to twice. -/
theorem again (h : WritesIn t S w u) (h' : WritesIn t S u v) : WritesIn t S w v :=
  (h.trans h').mono (by rw [Set.union_self])

theorem alive (h : WritesIn t S w u) (halive : u.Alive t) : w.Alive t := by
  obtain ⟨b, hb, hlive⟩ := halive
  obtain ⟨a, ha, hlive, -⟩ := h b hb hlive
  exact ⟨a, ha, hlive⟩

/-- The other segments are as they were. -/
theorem storage (h : WritesIn t S w u) (halive : u.Alive t) {j : Nat} (hj : j ∉ S) :
    (u.twin t).storage[j]? = (w.twin t).storage[j]? := by
  obtain ⟨b, hb, hlive⟩ := halive
  obtain ⟨a, ha, -, hab⟩ := h b hb hlive
  rw [twin_eq hb, twin_eq ha, hab j hj]

/-- Members of one segment are rewritten. -/
theorem rewrite (segment : Nat) (g : List NativeValue → List NativeValue) :
    WritesIn t {segment} w
      (w.modifyTwin t fun a => { a with storage := a.storage.modify segment g }) := by
  intro b hb hlive
  rw [getElem?_modifyTwin, if_pos rfl] at hb
  obtain ⟨a, ha, rfl⟩ := Option.map_eq_some_iff.mp hb
  refine ⟨a, ha, hlive, fun j hj => ?_⟩
  exact List.getElem?_modify_ne g a.storage fun heq => hj heq.symm

end WritesIn

namespace Shares

theorem refl (w : World) : Shares t S w w where
  kinds _ := rfl
  others i a b _ ha hb _ _ := by rw [Option.some.inj (ha.symm.trans hb)]
  segments a b ha hb _ _ _ _ := by rw [Option.some.inj (ha.symm.trans hb)]

theorem symm (h : Shares t S w₁ w₂) : Shares t S w₂ w₁ where
  kinds i := (h.kinds i).symm
  others i a b hi ha hb hlive hlive' := (h.others i b a hi hb ha hlive' hlive).symm
  segments a b ha hb hlive hlive' j hj := (h.segments b a hb ha hlive' hlive j hj).symm

theorem mono (h : Shares t S w₁ w₂) (hTS : T ⊆ S) : Shares t T w₁ w₂ where
  kinds := h.kinds
  others := h.others
  segments a b ha hb hlive hlive' j hj := h.segments a b ha hb hlive hlive' j (hTS hj)

/-- Each of the worlds may lose what only the other one keeps alive. -/
theorem still (h : Shares t S w₁ w₂) (h₁ : w₁.Still u₁) (h₂ : w₂.Still u₂) :
    Shares t S u₁ u₂ where
  kinds i := by rw [h₁.kind, h₂.kind, h.kinds]
  others i a b hi ha hb hlive hlive' := by
    obtain ⟨a', ha', haa⟩ := h₁.of_getElem? ha
    obtain ⟨b', hb', hbb⟩ := h₂.of_getElem? hb
    rw [haa.bare hlive, hbb.bare hlive',
      h.others i a' b' hi ha' hb' (haa.live hlive) (hbb.live hlive')]
  segments a b ha hb hlive hlive' j hj := by
    obtain ⟨a', ha', haa⟩ := h₁.of_getElem? ha
    obtain ⟨b', hb', hbb⟩ := h₂.of_getElem? hb
    rw [haa.storage hlive, hbb.storage hlive',
      h.segments a' b' ha' hb' (haa.live hlive) (hbb.live hlive') j hj]

theorem size (h : Shares t S w₁ w₂) : w₁.twins.size = w₂.twins.size := by
  have hnone : ∀ i : Nat, w₁.twins.size ≤ i ↔ w₂.twins.size ≤ i := fun i => by
    rw [← Array.getElem?_eq_none_iff, ← Array.getElem?_eq_none_iff,
      ← Option.map_eq_none_iff (f := Twin.kind), h.kinds, Option.map_eq_none_iff]
  have h₁ := hnone w₁.twins.size
  have h₂ := hnone w₂.twins.size
  omega

theorem kind (h : Shares t S w₁ w₂) (i : TwinId) : (w₁.twin i).kind = (w₂.twin i).kind := by
  have hkinds := h.kinds i
  unfold World.twin World.twin?
  cases hb : w₂.twins[i]? with
  | none =>
      rw [hb, Option.map_none, Option.map_eq_none_iff] at hkinds
      rw [hkinds]
  | some b =>
      rw [hb] at hkinds
      obtain ⟨a, ha, hab⟩ := Option.map_eq_some_iff.mp hkinds
      rw [ha]
      exact hab

/-- Classes are looked up by the kinds of instances alone. -/
theorem census (h : Shares t S w₁ w₂) : w₁.census = w₂.census := by
  have hkind : ∀ {α : Type} (x : α) (f : Kind → α) (i : TwinId),
      (w₁.twin? i).elim x (fun a => f a.kind) = (w₂.twin? i).elim x fun a => f a.kind := by
    intro α x f i
    have hmap : ∀ o : Option Twin, o.elim x (fun a => f a.kind) = (o.map Twin.kind).elim x f :=
      fun o => by cases o <;> rfl
    rw [hmap, hmap]
    exact congrArg (Option.elim · x f) (h.kinds i)
  have hnames : w₁.className = w₂.className := funext fun i => hkind "" Kind.name i
  have hclasses : w₁.isA = w₂.isA :=
    funext fun i => funext fun c => hkind false (fun k => k.isA c) i
  rw [World.census, World.census, hnames, hclasses]

theorem isA (h : Shares t S w₁ w₂) (i : TwinId) (c : String) : w₁.isA i c = w₂.isA i c :=
  congrArg (·.isA i c) h.census

/-- Another instance is the same in both worlds. -/
theorem bare (h : Shares t S w₁ w₂) {i : TwinId} (hi : i ≠ t) (h₁ : w₁.Alive i)
    (h₂ : w₂.Alive i) : (w₁.twin i).bare = (w₂.twin i).bare := by
  obtain ⟨a, ha, hlive⟩ := h₁
  obtain ⟨b, hb, hlive'⟩ := h₂
  rw [twin_eq ha, twin_eq hb]
  exact h.others i a b hi ha hb hlive hlive'

theorem storage (h : Shares t S w₁ w₂) (h₁ : w₁.Alive t) (h₂ : w₂.Alive t) {j : Nat}
    (hj : j ∈ S) : (w₁.twin t).storage[j]? = (w₂.twin t).storage[j]? := by
  obtain ⟨a, ha, hlive⟩ := h₁
  obtain ⟨b, hb, hlive'⟩ := h₂
  rw [twin_eq ha, twin_eq hb]
  exact h.segments a b ha hb hlive hlive' j hj

theorem admitTwin (h : Shares t S w₁ w₂) (a : Twin) :
    (w₁.admitTwin a).2 = (w₂.admitTwin a).2
      ∧ Shares t S (w₁.admitTwin a).1 (w₂.admitTwin a).1 := by
  have hsize := h.size
  refine ⟨hsize, fun i => ?_, fun i b c hi hb hc hlive hlive' => ?_,
    fun b c hb hc hlive hlive' j hj => ?_⟩
  · change ((w₁.twins.push a)[i]?).map Twin.kind = ((w₂.twins.push a)[i]?).map Twin.kind
    rw [Array.getElem?_push, Array.getElem?_push, hsize]
    split
    · rfl
    · exact h.kinds i
  · rcases of_getElem?_admitTwin hb with ⟨hnew, rfl⟩ | ⟨hnew, hb⟩ <;>
      rcases of_getElem?_admitTwin hc with ⟨hnew', rfl⟩ | ⟨hnew', hc⟩
    · rfl
    · exact absurd (hsize.symm.trans hnew) hnew'
    · exact absurd (hsize.trans hnew') hnew
    · exact h.others i b c hi hb hc hlive hlive'
  · rcases of_getElem?_admitTwin hb with ⟨hnew, rfl⟩ | ⟨hnew, hb⟩ <;>
      rcases of_getElem?_admitTwin hc with ⟨hnew', rfl⟩ | ⟨hnew', hc⟩
    · rfl
    · exact absurd (hsize.symm.trans hnew) hnew'
    · exact absurd (hsize.trans hnew') hnew
    · exact h.segments b c hb hc hlive hlive' j hj

/-- Copies of another instance are the same in both worlds. -/
theorem copyTwin (h : Shares t S w₁ w₂) {i : TwinId} (hi : i ≠ t) (h₁ : w₁.Alive i)
    (h₂ : w₂.Alive i) : (World.copyTwin i w₁).1 = (World.copyTwin i w₂).1
      ∧ Shares t S (World.copyTwin i w₁).2 (World.copyTwin i w₂).2 := by
  have hbare := h.bare hi h₁ h₂
  have hkind : (w₁.twin i).kind = (w₂.twin i).kind := h.kind i
  have hobstacle : (w₁.twin i).obstacle? .copy = (w₂.twin i).obstacle? .copy := by
    unfold Twin.obstacle? Twin.refusal? Twin.layout
    rw [hkind]
  have hcontents : (w₁.twin i).contents = (w₂.twin i).contents :=
    (congrArg Twin.contents hbare : (w₁.twin i).bare.contents = (w₂.twin i).bare.contents)
  have hreborn : (w₁.twin i).reborn (w₁.twin i).storage (w₁.twin i).attrs
      = (w₂.twin i).reborn (w₂.twin i).storage (w₂.twin i).attrs := by
    change (w₁.twin i).bare.reborn (w₁.twin i).bare.storage (w₁.twin i).bare.attrs = _
    rw [hbare]
    rfl
  unfold World.copyTwin
  dsimp only
  rw [hobstacle, hcontents, hreborn]
  cases (w₂.twin i).obstacle? .copy with
  | some f => exact ⟨rfl, h⟩
  | none =>
      obtain ⟨hid, hadmitted⟩ := (h.still (.retainAll w₁ (w₂.twin i).contents)
        (.retainAll w₂ (w₂.twin i).contents)).admitTwin
          ((w₂.twin i).reborn (w₂.twin i).storage (w₂.twin i).attrs)
      exact ⟨congrArg Except.ok hid, hadmitted⟩

/-- Members of another instance are read alike in both worlds. -/
theorem readMember (h : Shares t S w₁ w₂) {i : TwinId} (hi : i ≠ t) (h₁ : w₁.Alive i)
    (h₂ : w₂.Alive i) (name : String) (find : Layout → Option Place) :
    (World.readMember i name find w₁).1 = (World.readMember i name find w₂).1
      ∧ Shares t S (World.readMember i name find w₁).2 (World.readMember i name find w₂).2 := by
  have hlayout : (w₁.twin i).layout = (w₂.twin i).layout := congrArg Kind.layout (h.kind i)
  have hvalue : (w₁.twin i).valueAt? = (w₂.twin i).valueAt? := by
    have hstorage : (w₁.twin i).storage = (w₂.twin i).storage :=
      congrArg (·.storage) (h.bare hi h₁ h₂ : (w₁.twin i).bare = (w₂.twin i).bare)
    funext p
    rw [Twin.valueAt?, Twin.valueAt?, hstorage]
  have hname : w₁.className i = w₂.className i := congrArg (·.className i) h.census
  unfold World.readMember World.noAttribute
  rw [hlayout, hvalue, hname]
  split
  · exact ⟨rfl, h.still (.retainAll w₁ _) (.retainAll w₂ _)⟩
  · exact ⟨rfl, h⟩

/-- One segment is rewritten in both worlds. -/
theorem rewrite (h : Shares t S w₁ w₂) (segment : Nat) (g : List NativeValue → List NativeValue)
    (hsame : ((w₁.twin t).storage[segment]?).map g = ((w₂.twin t).storage[segment]?).map g) :
    Shares t (insert segment S)
      (w₁.modifyTwin t fun a => { a with storage := a.storage.modify segment g })
      (w₂.modifyTwin t fun a => { a with storage := a.storage.modify segment g }) := by
  refine ⟨fun i => ?_, fun i a b hi ha hb => ?_, fun a b ha hb hlive hlive' j hj => ?_⟩
  · rw [getElem?_modifyTwin, getElem?_modifyTwin]
    split
    · rw [Option.map_map, Option.map_map]
      exact h.kinds i
    · exact h.kinds i
  · rw [getElem?_modifyTwin, if_neg (Ne.symm hi)] at ha hb
    exact h.others i a b hi ha hb
  · rw [getElem?_modifyTwin, if_pos rfl] at ha hb
    obtain ⟨x, hx, rfl⟩ := Option.map_eq_some_iff.mp ha
    obtain ⟨y, hy, rfl⟩ := Option.map_eq_some_iff.mp hb
    rw [twin_eq hx, twin_eq hy] at hsame
    by_cases hij : segment = j
    · subst hij
      exact (List.getElem?_modify_eq g segment x.storage).trans
        (hsame.trans (List.getElem?_modify_eq g segment y.storage).symm)
    · have hmem : j ∈ S := hj.resolve_left fun heq => hij heq.symm
      exact (List.getElem?_modify_ne g x.storage hij).trans
        ((h.segments x y hx hy hlive hlive' j hmem).trans
          (List.getElem?_modify_ne g y.storage hij).symm)

/-- Segments are written to in both worlds, and come out alike. -/
theorem extend (h : Shares t S w₁ w₂) (h₁ : WritesIn t T w₁ u₁) (h₂ : WritesIn t T w₂ u₂)
    (hwritten : Shares t T u₁ u₂) : Shares t (S ∪ T) u₁ u₂ where
  kinds := hwritten.kinds
  others := hwritten.others
  segments a b ha hb hlive hlive' j hj := by
    by_cases hT : j ∈ T
    · exact hwritten.segments a b ha hb hlive hlive' j hT
    · obtain ⟨a', ha', haa', hold⟩ := h₁ a ha hlive
      obtain ⟨b', hb', hbb', hold'⟩ := h₂ b hb hlive'
      rw [hold j hT, hold' j hT]
      exact h.segments a' b' ha' hb' haa' hbb' j (hj.resolve_right hT)

end Shares

/-- Flags of an instance can change while it is alive. -/
theorem Alive.modifyTwin {i : TwinId} (h : w.Alive t) {f : Twin → Twin}
    (hstage : ∀ a, (f a).stage = a.stage) : (w.modifyTwin i f).Alive t := by
  obtain ⟨a, ha, hlive⟩ := h
  by_cases hi : i = t
  · exact ⟨f a, by rw [getElem?_modifyTwin, if_pos hi, ha, Option.map_some],
      (hstage a).trans hlive⟩
  · exact ⟨a, by rw [getElem?_modifyTwin, if_neg hi, ha], hlive⟩

theorem Alive.markBuilt (h : w.Alive t) (index : Nat) (base : NativeClass) :
    (Construction.markBuilt t index base w).Alive t := by
  unfold Construction.markBuilt
  dsimp only
  split
  · exact modifyTwin h fun _ => rfl
  · exact modifyTwin h fun _ => rfl

/-- Whether a world changed in nothing that agreement is about. -/
structure Adjusts (t : TwinId) (w u : World) : Prop where
  writes : ∀ S, WritesIn t S w u
  shares : ∀ {S : Set Nat} {x : World}, w.Shares t S x → u.Shares t S x

namespace Adjusts

theorem of_still (h : w.Still u) : Adjusts t w u where
  writes _ := .of_still h
  shares {_ x} hshares := hshares.still h (.refl x)

theorem trans (h : Adjusts t w u) (h' : Adjusts t u v) : Adjusts t w v where
  writes S := (h.writes S).again (h'.writes S)
  shares hshares := h'.shares (h.shares hshares)

/-- Flags of the instance may change. -/
theorem modifyTwin (w : World) {f : Twin → Twin} (hkind : ∀ a, (f a).kind = a.kind)
    (hstage : ∀ a, (f a).stage = a.stage) (hstorage : ∀ a, (f a).storage = a.storage) :
    Adjusts t w (w.modifyTwin t f) where
  writes S b hb hlive := by
    rw [getElem?_modifyTwin, if_pos rfl] at hb
    obtain ⟨a, ha, rfl⟩ := Option.map_eq_some_iff.mp hb
    exact ⟨a, ha, hstage a ▸ hlive, fun j _ => by rw [hstorage]⟩
  shares {S x} h := by
    refine ⟨fun i => ?_, fun i a b hi ha => ?_, fun a b ha hb hlive => ?_⟩
    · rw [← h.kinds, getElem?_modifyTwin]
      split
      · rw [Option.map_map]
        exact congrArg (Option.map · w.twins[i]?) (funext hkind)
      · rfl
    · rw [getElem?_modifyTwin, if_neg (Ne.symm hi)] at ha
      exact h.others i a b hi ha
    · rw [getElem?_modifyTwin, if_pos rfl] at ha
      obtain ⟨a', ha', rfl⟩ := Option.map_eq_some_iff.mp ha
      rw [hstage] at hlive
      rw [hstorage]
      exact h.segments a' b ha' hb hlive

theorem setFilling (w : World) (filling : Bool) : Adjusts t w (w.setFilling t filling) :=
  modifyTwin w (fun _ => rfl) (fun _ => rfl) fun _ => rfl

theorem markBuilt (w : World) (index : Nat) (base : NativeClass) :
    Adjusts t w (Construction.markBuilt t index base w) := by
  have hmark : ∀ u : World, Adjusts t u (u.modifyTwin t fun twin =>
      { twin with constructed := twin.constructed.set index true }) := fun u =>
    modifyTwin u (fun _ => rfl) (fun _ => rfl) fun _ => rfl
  unfold Construction.markBuilt
  dsimp only
  split
  · exact (of_still (.record w _)).trans (hmark _)
  · exact hmark w

end Adjusts

section Segments

@[simp] theorem storage_retainAll (w : World) (hs : List Handle) (t : TwinId) :
    ((w.retainAll hs).twin t).storage = (w.twin t).storage := by
  induction hs generalizing w with
  | nil => rfl
  | cons h hs ih =>
      refine (ih (w.retain h)).trans ?_
      unfold World.twin World.twin?
      rw [World.retain, getElem?_modifyTwin]
      split
      · cases w.twins[t]? with
        | none => rfl
        | some a => cases h <;> rfl
      · rfl

variable {s : Site}

/-- To reset a segment writes to it alone. -/
theorem WritesIn.resetSegment (s : Site) (w : World) :
    WritesIn s.twin {s.segment} w (Construction.resetSegment s w) := by
  unfold Construction.resetSegment
  split
  · exact .of_still (.record w _)
  · dsimp only
    simp only [List.set_eq_modify]
    exact (WritesIn.of_still (.retainAll w _)).again
      ((WritesIn.rewrite _ _).again (.of_still (.drop _ _)))

/-- A segment that was reset does not tell what was in it. -/
theorem Shares.resetSegment (h : Shares s.twin ∅ w₁ w₂) {old₁ old₂ : List NativeValue}
    (h₁ : (w₁.twin s.twin).storage[s.segment]? = some old₁)
    (h₂ : (w₂.twin s.twin).storage[s.segment]? = some old₂) :
    Shares s.twin {s.segment} (Construction.resetSegment s w₁)
      (Construction.resetSegment s w₂) := by
  unfold Construction.resetSegment
  rw [h₁, h₂]
  dsimp only
  simp only [List.set_eq_modify]
  refine Shares.still ?_ (.drop _ _) (.drop _ _)
  refine ((h.still (.retainAll w₁ _) (.retainAll w₂ _)).rewrite s.segment _ ?_).mono ?_
  · rw [storage_retainAll, storage_retainAll, h₁, h₂]
    rfl
  · exact fun j hj => .inl hj

theorem WritesIn.storeValue (w : World) (t : TwinId) (p : Place) (v : NativeValue) :
    WritesIn t {p.segment} w (w.storeValue t p v) := by
  unfold World.storeValue
  split
  · exact .of_still ((Still.record w _).trans (.drop _ _))
  · exact (WritesIn.rewrite p.segment (·.set p.index v)).again (.of_still (.drop _ _))

theorem Shares.storeValue (h : Shares t S w₁ w₂) (h₁ : w₁.Alive t) (h₂ : w₂.Alive t) {p : Place}
    (hp : p.segment ∈ S) (v : NativeValue) :
    Shares t S (w₁.storeValue t p v) (w₂.storeValue t p v) := by
  have hsegment := h.storage h₁ h₂ hp
  have hvalue : ∀ {w : World}, w.Alive t →
      (w.twin? t).bind (·.valueAt? p) = ((w.twin t).storage[p.segment]?).bind (·[p.index]?) := by
    rintro w ⟨a, ha, -⟩
    rw [World.twin_eq ha, World.twin?, ha]
    rfl
  unfold World.storeValue
  rw [hvalue h₁, hvalue h₂, hsegment]
  cases ((w₂.twin t).storage[p.segment]?).bind (·[p.index]?) with
  | none =>
      exact h.still ((Still.record _ _).trans (.drop _ _)) ((Still.record _ _).trans (.drop _ _))
  | some old =>
      refine Shares.still ?_ (.drop _ _) (.drop _ _)
      refine (h.rewrite p.segment (·.set p.index v) (congrArg _ hsegment)).mono ?_
      exact fun j hj => .inr hj

end Segments

/-- Whether instances are alive from one world to another. -/
def Survive (is : List TwinId) (w u : World) : Prop :=
  ∀ i ∈ is, w.Alive i ∧ u.Alive i

/-- What is alive at the end was alive all the time. -/
theorem Survive.split {is : List TwinId} (hsurvive : w.Survive is v) (h : w.Rests u)
    (h' : u.Rests v) :
    w.Survive is u ∧ u.Survive is v := by
  have hmiddle : ∀ i ∈ is, u.Alive i := fun i hi => by
    obtain ⟨⟨a, ha, -⟩, halive⟩ := hsurvive i hi
    obtain ⟨b, hb, -⟩ := h i a ha
    exact h'.alive (Array.getElem?_eq_some_iff.mp hb).1 halive
  exact ⟨fun i hi => ⟨(hsurvive i hi).1, hmiddle i hi⟩,
    fun i hi => ⟨hmiddle i hi, (hsurvive i hi).2⟩⟩

end World

/-- Whether a step changes no instance that is there.  If it is `apart` from one instance of a
class, it also does the same in worlds that agree but for the storage of that one, as long as
some others stay alive. -/
structure Act.Local {α : Type} (t : TwinId) (k : Kind) (is : List TwinId) (apart : Prop)
    (a : Act α) : Prop where
  rests : ∀ w : World, w.Rests (a w).2
  alike : ∀ {S : Set Nat} {w₁ w₂ : World}, apart → w₁.Shares t S w₂ →
    (w₁.twins[t]?).map Twin.kind = some k →
    w₁.Survive is (a w₁).2 → w₂.Survive is (a w₂).2 →
    (a w₁).1 = (a w₂).1 ∧ (a w₁).2.Shares t S (a w₂).2

namespace Act.Local

variable {α β : Type} {t : TwinId} {k : Kind} {is : List TwinId} {apart : Prop} {a : Act α}
  {f : α → Act β}

theorem pure (r : α) : Local t k is apart (Pure.pure r) where
  rests _ := .of_eq rfl
  alike _ h _ _ _ := ⟨rfl, h⟩

theorem bind (ha : Local t k is apart a) (hf : ∀ r, Local t k is apart (f r)) :
    Local t k is apart (a >>= f) where
  rests w := (ha.rests w).trans ((hf _).rests _)
  alike {S w₁ w₂} hapart h hkind h₁ h₂ := by
    obtain ⟨hfirst₁, hnext₁⟩ := h₁.split (ha.rests w₁) ((hf _).rests _)
    obtain ⟨hfirst₂, hnext₂⟩ := h₂.split (ha.rests w₂) ((hf _).rests _)
    obtain ⟨hsame, hshares⟩ := ha.alike hapart h hkind hfirst₁ hfirst₂
    have hlater : ((a w₁).2.twins[t]?).map Twin.kind = some k := by
      obtain ⟨x, hx, rfl⟩ := Option.map_eq_some_iff.mp hkind
      obtain ⟨y, hy, hxy⟩ := ha.rests w₁ t x hx
      rw [hy, Option.map_some, hxy.kind]
    have hsecond : (a >>= f) w₂ = f (a w₁).1 (a w₂).2 := by
      rw [hsame]
      rfl
    rw [hsecond] at hnext₂ ⊢
    exact (hf _).alike hapart hshares hlater hnext₁ hnext₂

/-- Handles are taken or let go, and nothing else happens. -/
theorem still {g : World → World} (hg : ∀ w : World, w.Still (g w)) :
    Local t k is apart (modify g) where
  rests w := (hg w).rests
  alike {_ w₁ w₂} _ h _ _ _ := ⟨rfl, h.still (hg w₁) (hg w₂)⟩

end Act.Local

namespace Crossing

open Act.Local

variable {t : TwinId} {k : Kind} {is : List TwinId} {apart : Prop} (context : String)

theorem discardValues_local (vs : List NativeValue) : Act.Local t k is apart (discardValues vs) :=
  still fun w => .drop w _

theorem coerceNative_local (v : NativeValue) (ty : NativeType) :
    Act.Local t k is apart (coerceNative v ty) where
  rests := World.Rests.respected.coerceNative v ty
  alike {S w₁ w₂} _ h _ _ _ := by
    unfold coerceNative
    rw [h.census]
    cases v.coerce w₂.census ty with
    | none => exact ⟨rfl, h⟩
    | some c => exact ⟨rfl, h.still (.retainAll w₁ _) (.retainAll w₂ _)⟩

theorem toNative_rests (v : DynValue) (ty : NativeType) (w : World) :
    w.Rests (toNative context v ty w).2 :=
  World.Rests.respected.toNative context v ty w

/-- An argument is converted alike, but for the instance itself where that is taken by
value. -/
theorem toNative_local {v : DynValue} {ty : NativeType}
    (hself : apart → ∀ c, ty = .object c → k.isA c = true → v ≠ .object t)
    (hkept : ∀ i, v = .object i → i ∈ is) : Act.Local t k is apart (toNative context v ty) where
  rests := toNative_rests context v ty
  alike {S w₁ w₂} hapart h hkind h₁ h₂ := by
    have hmisfit : ((.error (.typeMismatch context ty.text (v.typeName w₁.census))
        : Except Failure NativeValue)) = .error (.typeMismatch context ty.text
          (v.typeName w₂.census)) := by rw [h.census]
    cases v with
    | object i =>
        cases ty with
        | object c =>
            unfold toNative at h₁ h₂ ⊢
            dsimp only at h₁ h₂ ⊢
            rw [h.isA] at h₁ ⊢
            split
            · rename_i hisA
              have hi : i ≠ t := by
                rintro rfl
                obtain ⟨a, ha, rfl⟩ := Option.map_eq_some_iff.mp hkind
                rw [← h.isA, World.isA, World.twin?, ha] at hisA
                exact hself hapart c rfl hisA rfl
              have hmem := hkept i rfl
              obtain ⟨hresult, hshares⟩ := h.copyTwin hi (h₁ i hmem).1 (h₂ i hmem).1
              generalize World.copyTwin i w₁ = r₁ at hresult hshares
              generalize World.copyTwin i w₂ = r₂ at hresult hshares
              obtain ⟨made, u₁⟩ := r₁
              obtain ⟨made', u₂⟩ := r₂
              obtain rfl : made = made' := hresult
              cases made with
              | ok copy => exact ⟨rfl, hshares.still (.asNative u₁ copy) (.asNative u₂ copy)⟩
              | error f => exact ⟨rfl, hshares⟩
            · exact ⟨hmisfit, h⟩
        | ref c | ptr c =>
            unfold toNative
            dsimp only
            rw [h.isA]
            split
            · exact ⟨rfl, h.still (.retain w₁ _) (.retain w₂ _)⟩
            · exact ⟨hmisfit, h⟩
        | void => exact ⟨rfl, h⟩
        | _ => exact ⟨hmisfit, h⟩
    | _ => cases ty <;> exact ⟨rfl, h⟩

end Crossing

/-- The arguments of a group, positional ones first. -/
def ArgGroup.values (g : ArgGroup) : List DynValue :=
  g.positional ++ g.keywords.map (·.2)

theorem ArgGroup.mem_values_of_keyword {g : ArgGroup} {name : String} {v : DynValue}
    (hv : g.keywords.lookup name = some v) : v ∈ g.values := by
  rw [List.lookup_eq_some_iff] at hv
  obtain ⟨before, after, hsplit, -⟩ := hv
  rw [ArgGroup.values, hsplit]
  simp

namespace Constructor

/-- What is supplied for each parameter. -/
def supplies (keywords : List (String × DynValue)) :
    List Param → List DynValue → List (Param × Supply)
  | [], _ => []
  | p :: ps, positional =>
      (p, supply p positional.head? keywords) :: supplies keywords ps positional.tail

/-- Whether a parameter that takes an instance by value is supplied with the instance itself.  A
copy of what is under construction would wait for its storage, and never get it. -/
def Duplicates (c : Constructor) (t : TwinId) (k : Kind) (g : ArgGroup) : Prop :=
  ∃ q ∈ supplies g.keywords c.params g.positional,
    ∃ n b, q.1.type = .object n ∧ k.isA n = true ∧ q.2 = .given (.object t) b

theorem missing_of_mem_supplies {ps : List Param} {q : Param × Supply}
    (hq : q ∈ supplies [] ps []) : q.2 = .missing := by
  induction ps with
  | nil => cases hq
  | cons p ps ih =>
      rcases List.mem_cons.mp hq with rfl | hq
      · rfl
      · exact ih hq

/-- Without arguments nothing is duplicated. -/
theorem not_duplicates_nil {t : TwinId} {k : Kind} (c : Constructor) : ¬c.Duplicates t k {} := by
  rintro ⟨q, hq, n, b, -, -, hgiven⟩
  cases (missing_of_mem_supplies hq).symm.trans hgiven

end Constructor

section Search

open Act.Local Crossing

variable {t : TwinId} {k : Kind} {is : List TwinId} {apart : Prop} {g : ArgGroup}
  (context : String)

namespace Constructor

theorem bindParam_local (fit : Fit) {p : Param} {s : Supply}
    (hself : apart → ∀ c, p.type = .object c → k.isA c = true → ∀ b, s ≠ .given (.object t) b)
    (hkept : ∀ i b, s = .given (.object i) b → i ∈ is) :
    Act.Local t k is apart (bindParam context fit p s) := by
  unfold bindParam
  cases s with
  | clash => exact pure _
  | given v byKeyword =>
      dsimp only
      split
      · exact pure _
      · refine (toNative_local context (fun hapart c hc hk hv => ?_) fun i hi => ?_).bind
          fun _ => pure _
        · exact hself hapart c hc hk byKeyword (by rw [hv])
        · exact hkept i byKeyword (by rw [hi])
  | missing =>
      dsimp only
      split
      · exact pure _
      · exact coerceNative_local _ _

theorem bindParams_local (fit : Fit) (ps : List Param) (done : List NativeValue) (used : Nat)
    (positional : List DynValue)
    (hself : apart → ∀ q ∈ supplies g.keywords ps positional, ∀ c, q.1.type = .object c →
      k.isA c = true → ∀ b, q.2 ≠ .given (.object t) b)
    (hkept : ∀ i, .object i ∈ g.values → i ∈ is) (hpositional : ∀ v ∈ positional, v ∈ g.values) :
    Act.Local t k is apart (bindParams context fit g.keywords done used ps positional) := by
  induction ps generalizing done used positional with
  | nil => exact pure _
  | cons p ps ih =>
      have hgiven : ∀ v b, supply p positional.head? g.keywords = .given v b → v ∈ g.values := by
        intro v b hs
        unfold supply at hs
        cases hhead : positional.head? <;> cases hword : g.keywords.lookup p.name <;>
          rw [hhead, hword] at hs <;> cases hs
        · exact ArgGroup.mem_values_of_keyword hword
        · exact hpositional _ (List.mem_of_head? hhead)
      refine (bindParam_local context fit
        (fun hapart => hself hapart _ List.mem_cons_self)
        fun i b hs => hkept i (hgiven _ b hs)).bind fun r => ?_
      cases r with
      | none => exact (discardValues_local done).bind fun _ => pure _
      | some v =>
          exact ih _ _ _ (fun hapart q hq => hself hapart q (List.mem_cons_of_mem _ hq))
            fun v hv => hpositional v (List.mem_of_mem_tail hv)

variable (hkept : ∀ i, .object i ∈ g.values → i ∈ is)

include hkept

theorem bind_local (c : Constructor) (fit : Fit) (hself : apart → ¬c.Duplicates t k g) :
    Act.Local t k is apart (c.bind context fit g) := by
  unfold Constructor.bind
  split
  · exact pure _
  · refine (bindParams_local context fit c.params [] 0 g.positional (fun hapart q hq n hn hk b hs =>
      hself hapart ⟨q, hq, n, b, hn, hk, hs⟩) hkept fun v hv =>
        List.mem_append_left _ hv).bind fun r => ?_
    split
    · exact pure _
    · split
      · exact pure _
      · exact (discardValues_local _).bind fun _ => pure _

end Constructor

namespace Choice

variable (hkept : ∀ i, .object i ∈ g.values → i ∈ is)

include hkept

theorem among_local (fit : Fit) (fromDerived : Bool) (cs : List Constructor)
    (hself : apart → ∀ c ∈ cs, ¬c.Duplicates t k g) (hidden : Bool) :
    Act.Local t k is apart (among context fit g fromDerived cs hidden) := by
  induction cs generalizing hidden with
  | nil => exact pure _
  | cons c cs ih =>
      have hrest := ih fun hapart c hc => hself hapart c (List.mem_cons_of_mem _ hc)
      refine (c.bind_local context hkept fit fun hapart =>
        hself hapart c List.mem_cons_self).bind fun r => ?_
      cases r with
      | none => exact hrest hidden
      | some args =>
          dsimp only
          split
          · exact pure _
          · exact (discardValues_local args).bind fun _ => hrest true

theorem search_local (fromDerived : Bool) (cs : List Constructor)
    (hself : apart → ∀ c ∈ cs, ¬c.Duplicates t k g) (fits : List Fit) (hidden : Bool) :
    Act.Local t k is apart (search context g fromDerived cs fits hidden) := by
  induction fits generalizing hidden with
  | nil => exact pure _
  | cons fit fits ih =>
      refine (among_local context hkept fit fromDerived cs hself hidden).bind fun r => ?_
      cases r with
      | inl choice => exact pure _
      | inr again => exact ih again

end Choice

end Search

end TwinObject
