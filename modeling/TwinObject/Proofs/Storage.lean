/-
What instances store.  As long as a twin is live its storage has the shape of its
layout and every value in it is of the type of its member, so every member that is
found can be read; and a value that was assigned with success is there afterwards,
since letting go of the old one changes no twin that stays alive.
-/
import TwinObject.Proofs.History

namespace TwinObject

open Hold

namespace Layout

variable {l : Layout} {p : Place}

/-- A member that is found in a named class is declared under its name. -/
theorem memberDecl_of_findIn {cls name : String} (hfind : l.findMemberIn? cls name = some p) :
    ∃ d, l.memberDecl? p = some d ∧ d.name = name := by
  obtain ⟨⟨c, segment⟩, hmem, hplace⟩ := List.exists_of_findSome?_eq_some hfind
  have hsegment : l.segments[segment]? = some c := List.mem_zipIdx_iff_getElem?.mp hmem
  dsimp only at hplace
  split at hplace
  · obtain ⟨index, hindex, rfl⟩ := Option.map_eq_some_iff.mp hplace
    obtain ⟨hlt, hname, -⟩ := List.findIdx?_eq_some_iff_getElem.mp hindex
    exact ⟨c.members[index], by simp [memberDecl?, hsegment, hlt], by simpa using hname⟩
  · cases hplace

theorem range_of_mem_ranges {start : Nat} {bases : List NativeClass} {b : BaseRange}
    (hb : b ∈ ranges start bases) :
    b.stop = b.start + b.base.flatten.length
      ∧ b.stop ≤ start + (bases.flatMap NativeClass.flatten).length := by
  induction bases generalizing start with
  | nil => cases hb
  | cons c bases ih =>
      rw [List.flatMap_cons, List.length_append]
      rw [ranges, List.mem_cons] at hb
      rcases hb with rfl | hb
      · exact ⟨rfl, by dsimp only; omega⟩
      · obtain ⟨hstop, hle⟩ := ih hb
        exact ⟨hstop, by omega⟩

end Layout

namespace Twin

variable {a : Twin} {p : Place}

/-- Where there is a value a member is declared. -/
theorem Shaped.memberDecl (hshaped : a.Shaped) {v : NativeValue} (hv : a.valueAt? p = some v) :
    ∃ d, a.layout.memberDecl? p = some d := by
  obtain ⟨segment, hsegment, hvalue⟩ := Option.bind_eq_some_iff.mp hv
  have hlength : (a.layout.segments.map (·.members.length))[p.segment]? = some segment.length := by
    rw [← hshaped.storage, List.getElem?_map, hsegment]
    rfl
  rw [List.getElem?_map, Option.map_eq_some_iff] at hlength
  obtain ⟨c, hc, hlength⟩ := hlength
  have hlt : p.index < c.members.length := by
    rw [hlength]
    exact (List.getElem?_eq_some_iff.mp hvalue).1
  exact ⟨c.members[p.index], by simp [Layout.memberDecl?, hc, hlt]⟩

end Twin

/-- Whether nothing was written since to a twin, as long as it is live. -/
structure Twin.Stays (a b : Twin) : Prop where
  kind : b.kind = a.kind
  stores : b.stage = .live → a.stage = .live ∧ b.storage = a.storage ∧ b.attrs = a.attrs

theorem Twin.Stays.refl (a : Twin) : a.Stays a :=
  ⟨rfl, fun hlive => ⟨hlive, rfl, rfl⟩⟩

theorem Twin.Stays.trans {a b c : Twin} (h : a.Stays b) (h' : b.Stays c) : a.Stays c where
  kind := h'.kind.trans h.kind
  stores hlive := by
    obtain ⟨hlive, hstorage, hattrs⟩ := h'.stores hlive
    obtain ⟨hlive, hstorage', hattrs'⟩ := h.stores hlive
    exact ⟨hlive, hstorage.trans hstorage', hattrs.trans hattrs'⟩

/-- Whether nothing was written since to a twin of a world, nor to the dynamic classes that
it is made of, as long as it is live. -/
def World.Intact (t : TwinId) (w u : World) : Prop :=
  ∀ a, w.twins[t]? = some a → ∃ b, u.twins[t]? = some b ∧ a.Stays b
    ∧ (b.stage = .live → ∀ d ∈ a.kind.chain, u.classes[d.id]? = w.classes[d.id]?)

/-- Whether nothing was written since to the twins that are still live. -/
def World.Untouched (w u : World) : Prop :=
  ∀ t, Intact t w u

namespace World.Intact

variable {w u v : World} {t : TwinId}

theorem of_eq (htwins : u.twins = w.twins) (hclasses : u.classes = w.classes) : Intact t w u :=
  fun a ha => ⟨a, htwins ▸ ha, .refl a, fun _ _ _ => by rw [hclasses]⟩

theorem trans (h : Intact t w u) (h' : Intact t u v) : Intact t w v := by
  intro a ha
  obtain ⟨b, hb, hab, hkept⟩ := h a ha
  obtain ⟨c, hc, hbc, hkept'⟩ := h' b hb
  refine ⟨c, hc, hab.trans hbc, fun hlive d hd => ?_⟩
  rw [hkept' hlive d (hab.kind ▸ hd), hkept (hbc.stores hlive).1 d hd]

/-- What a twin that stays alive stores is still there. -/
theorem twin_eq (hintact : Intact t w u) {a b : Twin} (ha : w.twins[t]? = some a)
    (hb : u.twins[t]? = some b) (hlive : b.stage = .live) :
    b.storage = a.storage ∧ b.attrs = a.attrs := by
  obtain ⟨b', hb', hstays, -⟩ := hintact a ha
  cases hb.symm.trans hb'
  exact (hstays.stores hlive).2

end World.Intact

/-- A class that an instance is made of which is alive can be reached. -/
theorem World.reachesClass_of_alive {w : World} {t : TwinId} {a : Twin} (ha : w.twins[t]? = some a)
    (hlive : a.stage = .live) {d : ClassDef} (hd : d ∈ a.kind.chain) :
    w.reachesClass d.id = true := by
  rw [reachesClass, Bool.or_eq_true]
  refine .inr (Array.any_eq_true'.mpr ⟨a, Array.mem_of_getElem? ha, ?_⟩)
  simpa [hlive] using ⟨d, hd, rfl⟩

namespace World.Untouched

variable {w u v : World}

theorem of_eq (htwins : u.twins = w.twins) (hclasses : u.classes = w.classes) : Untouched w u :=
  fun _ => .of_eq htwins hclasses

theorem trans (h : Untouched w u) (h' : Untouched u v) : Untouched w v :=
  fun t => (h t).trans (h' t)

theorem setTwin {i : TwinId} {old new : Twin} (hold : w.twins[i]? = some old)
    (hnew : old.Stays new) : Untouched w (w.setTwin i new) := by
  intro t a ha
  rw [getElem?_setTwin hold]
  by_cases hi : i = t
  · subst hi
    cases hold.symm.trans ha
    exact ⟨new, if_pos rfl, hnew, fun _ _ _ => rfl⟩
  · exact ⟨a, by rw [if_neg hi, ha], .refl a, fun _ _ _ => rfl⟩

/-- A twin that is released is not live any more. -/
theorem release {i : TwinId} {old a : Twin} (hold : w.twins[i]? = some old)
    (hkind : a.kind = old.kind) : Untouched w (w.release i a).1 := by
  have hset : Untouched w (w.setTwin i a.emptied) := setTwin hold ⟨hkind, nofun⟩
  exact hset.trans (of_eq rfl rfl)

theorem letGo (w : World) (h : Handle) : Untouched w (w.letGo h).1 := by
  unfold World.letGo
  split
  · exact of_eq rfl rfl
  · rename_i a ha
    have hbase : Untouched w (if a.tally h = 0 then w.record [.overdrawn h] else w) := by
      split <;> exact of_eq rfl rfl
    have ha' : (if a.tally h = 0 then w.record [.overdrawn h] else w).twins[h.twin]? = some a := by
      split <;> exact ha
    dsimp only
    split
    · exact hbase.trans (release ha' (by cases h <;> rfl))
    · refine hbase.trans (setTwin ha' ⟨by cases h <;> rfl, fun hlive => ?_⟩)
      rw [Twin.stage_forget] at hlive
      cases h <;> exact ⟨hlive, rfl, rfl⟩

/-- A class that ends is not one that a live twin is made of. -/
theorem endClass (id : ClassId) (w : World) : Untouched w (w.endClass id).1 := by
  unfold World.endClass
  split
  · exact of_eq rfl rfl
  · split
    · exact of_eq rfl rfl
    · rename_i hunreached
      refine fun t a ha => ⟨a, ha, .refl a, fun hlive d hd => ?_⟩
      refine Array.getElem?_setIfInBounds_ne fun hid => hunreached ?_
      rw [hid]
      exact reachesClass_of_alive ha hlive hd

theorem endNative (id : NativeId) (w : World) : Untouched w (w.endNative id).1 := by
  obtain ⟨declared, hframe⟩ := w.endNative_frame id
  rw [hframe]
  exact of_eq rfl rfl

theorem endEach {α : Type} {f : α → World → World × List Handle}
    (hf : ∀ (a : α) (w : World), Untouched w (f a w).1) (as : List α) (w : World) :
    Untouched w (World.endEach f as w).1 := by
  induction as generalizing w with
  | nil => exact of_eq rfl rfl
  | cons a as ih => exact (hf a w).trans (ih (f a w).1)

theorem forsake (k : Kind) (w : World) : Untouched w (World.forsake k w).1 := by
  cases k with
  | native c => exact endEach endNative _ w
  | dynamic c => exact endEach endClass _ w

theorem letKindGo (w : World) (t : TwinId) : Untouched w (w.letKindGo t).1 := by
  unfold World.letKindGo
  split
  · exact of_eq rfl rfl
  · rename_i a ha
    split
    · have hset : Untouched w (w.setTwin t { a with stage := .gone }) :=
        setTwin ha ⟨rfl, nofun⟩
      exact hset.trans (forsake _ _)
    · exact of_eq rfl rfl

/-- Whatever is released on the way, what stays alive is as it was. -/
theorem settle (w : World) (ds : List Due) : Untouched w (w.settle ds) := by
  fun_induction World.settle w ds with
  | case1 w => exact of_eq rfl rfl
  | case2 w d ds ih =>
      refine trans ?_ ih
      cases d with
      | handle h => exact letGo w h
      | kind t => exact letKindGo w t

theorem drop (w : World) (hs : List Handle) : Untouched w (w.drop hs) :=
  settle w _

theorem retain (w : World) (h : Handle) : Untouched w (w.retain h) := by
  cases ha : w.twins[h.twin]? with
  | none =>
      rw [World.retain, modifyTwin_of_none ha]
      exact of_eq rfl rfl
  | some a =>
      rw [World.retain, modifyTwin_eq ha]
      refine setTwin ha ?_
      cases h <;> exact ⟨rfl, fun hlive => ⟨hlive, rfl, rfl⟩⟩

theorem retainAll (w : World) (hs : List Handle) : Untouched w (w.retainAll hs) := by
  induction hs generalizing w with
  | nil => exact of_eq rfl rfl
  | cons h hs ih => exact (retain w h).trans (ih (w.retain h))

end World.Untouched

section Assignments

variable {w : World} {R : Hold} {t : TwinId} {name : String}

/-- A value that is written to a member of a twin which stays alive is there, and all else
that the twin stores is as before. -/
theorem World.valueAt_storeValue {p : Place} {d : MemberDecl} {v : NativeValue} {u : World}
    {a b : Twin} (ha : w.twins[t]? = some a) (hshaped : a.Shaped)
    (hdecl : a.layout.memberDecl? p = some d) (hlater : Untouched (w.storeValue t p v) u)
    (hb : u.twins[t]? = some b) (hlive : b.stage = .live) (q : Place) :
    b.valueAt? q = if q = p then some v else a.valueAt? q := by
  obtain ⟨old, hold⟩ := hshaped.valueAt hdecl
  have hstored : w.storeValue t p v = (w.setTwin t (a.setValue p v)).drop old.handles := by
    simp [storeValue, twin?, ha, hold, modifyTwin_eq ha]
  have hwritten : (w.setTwin t (a.setValue p v)).twins[t]? = some (a.setValue p v) := by
    rw [getElem?_setTwin ha, if_pos rfl]
  have hsince : Untouched (w.setTwin t (a.setValue p v)) u :=
    (Untouched.drop _ old.handles).trans (hstored ▸ hlater)
  obtain ⟨hstorage, -⟩ := (hsince t).twin_eq hwritten hb hlive
  rw [Twin.valueAt?, hstorage]
  exact Twin.valueAt_setValue hold v q

/-- What a member is assigned with success is there afterwards, and no other member of the
twin changes. -/
theorem World.writeMember_writes {p : Place} {d : MemberDecl} {context : String} {v : NativeValue}
    (hreach : Reachable w (R + v.hold)) (hlent : Lends R t)
    (hdecl : (w.twin t).layout.memberDecl? p = some d)
    (hok : (writeMember t p d context v w).1 = .ok ()) :
    ∃ c, v.coerce w.census d.type = some c
      ∧ ∀ q, ((writeMember t p d context v w).2.twin t).valueAt? q
        = if q = p then some c else (w.twin t).valueAt? q := by
  have hframe : R + v.hold = 0 + R + v.hold := by rw [zero_add]
  obtain ⟨b, hb, hlive⟩ : ∃ b, (writeMember t p d context v w).2.twins[t]? = some b
      ∧ b.stage = .live := by
    have hend := writeMember_safe hlent hdecl context v 0 (hframe ▸ hreach)
    exact Reachable.live_of_lent ((hframe ▸ hreach).along hend) hlent
  rw [twin_eq hb]
  revert hok hb
  unfold writeMember
  cases hcoerce : v.coerce w.census d.type with
  | none => exact fun hok => by cases hok
  | some c =>
      intro _ hb
      refine ⟨c, rfl, fun q => ?_⟩
      have hheld : ∀ h ∈ c.handles, w.Held (R + v.hold) h.twin := fun h hh =>
        (Lends.of_mem (NativeValue.handles_coerce hcoerce h hh)).right.held hreach.invariant
      have hretained := Path.retainAll c.handles hheld
      obtain ⟨a, ha, hlive'⟩ := (hlent.left.left).live (hreach.along hretained).invariant
      have hshaped := (hreach.along hretained).invariant.formed.shaped t a ha hlive'
      obtain ⟨a₀, ha₀, -⟩ := (hlent.left).live hreach.invariant
      have hdecl' : a.layout.memberDecl? p = some d := by
        rw [← twin_eq ha, hretained.persists.layout ha₀]
        exact hdecl
      obtain ⟨hstorage, -⟩ := (Untouched.retainAll w c.handles t).twin_eq ha₀ ha hlive'
      have hbefore : (w.twin t).valueAt? q = a.valueAt? q := by
        rw [twin_eq ha₀, Twin.valueAt?, Twin.valueAt?, hstorage]
      rw [hbefore]
      exact valueAt_storeValue ha hshaped hdecl' (Untouched.drop _ v.handles) hb hlive q

/-- Native assignment finds a member of the name, stores there the value converted to the
member's type, and changes no other member. -/
theorem World.setField_writes {v : NativeValue} (hreach : Reachable w (R + v.hold))
    (hlent : Lends R t) (hok : (setField t name v w).1 = .ok ()) :
    ∃ p d c, (w.twin t).layout.findMember? name = some p
      ∧ (w.twin t).layout.memberDecl? p = some d ∧ v.coerce w.census d.type = some c
      ∧ ∀ q, ((setField t name v w).2.twin t).valueAt? q
        = if q = p then some c else (w.twin t).valueAt? q := by
  revert hok
  unfold setField
  dsimp only
  cases hfound : ((w.twin t).layout.findMember? name).bind fun p =>
      ((w.twin t).layout.memberDecl? p).map (p, ·) with
  | none => exact fun hok => by cases hok
  | some found =>
      obtain ⟨p, d⟩ := found
      intro hok
      obtain ⟨q, hfind, hpair⟩ := Option.bind_eq_some_iff.mp hfound
      obtain ⟨d', hdecl, hpair⟩ := Option.map_eq_some_iff.mp hpair
      cases hpair
      obtain ⟨c, hcoerce, hwritten⟩ := writeMember_writes hreach hlent hdecl hok
      exact ⟨p, d, c, hfind, hdecl, hcoerce, hwritten⟩

theorem World.setField_stores {v : NativeValue} (hreach : Reachable w (R + v.hold))
    (hlent : Lends R t) (hok : (setField t name v w).1 = .ok ()) :
    ∃ p d c, (w.twin t).layout.findMember? name = some p
      ∧ (w.twin t).layout.memberDecl? p = some d ∧ v.coerce w.census d.type = some c
      ∧ ((setField t name v w).2.twin t).valueAt? p = some c := by
  obtain ⟨p, d, c, hfind, hdecl, hcoerce, hwritten⟩ := setField_writes hreach hlent hok
  exact ⟨p, d, c, hfind, hdecl, hcoerce, (hwritten p).trans (if_pos rfl)⟩

/-- A constructor stores what it sets in the segment that it fills. -/
theorem Site.set_stores {s : Site} {v : NativeValue} (hreach : Reachable w (R + v.hold))
    (hlent : Lends R s.twin) (hfits : s.Fits w) (hok : (s.set name v w).1 = .ok ()) :
    ∃ p d c, s.member? name = some (p, d) ∧ v.coerce w.census d.type = some c
      ∧ ((s.set name v w).2.twin s.twin).valueAt? p = some c := by
  revert hok
  unfold Site.set
  cases hmember : s.member? name with
  | none => exact fun hok => by cases hok
  | some found =>
      obtain ⟨p, d⟩ := found
      intro hok
      obtain ⟨c, hcoerce, hwritten⟩ :=
        World.writeMember_writes hreach hlent (hfits.memberDecl hmember) hok
      exact ⟨p, d, c, rfl, hcoerce, (hwritten p).trans (if_pos rfl)⟩

theorem World.storeAttr_stores {v : DynValue} {a b : Twin} (ha : w.twins[t]? = some a)
    (hb : (w.storeAttr t name v).twins[t]? = some b) (hlive : b.stage = .live) :
    b.attrs.get? name = some v := by
  have hwritten : (w.setTwin t { a with attrs := a.attrs.put name v }).twins[t]?
      = some { a with attrs := a.attrs.put name v } := by
    rw [getElem?_setTwin ha, if_pos rfl]
  unfold storeAttr at hb
  rw [modifyTwin_eq ha] at hb
  obtain ⟨-, hattrs⟩ := (Untouched.drop _ _ t).twin_eq hwritten hb hlive
  rw [hattrs]
  exact (Attributes.get?_put_attribute name name v a.attrs).trans (if_pos rfl)

/-- What a dynamic value was converted to is stored in the member that it was converted for. -/
theorem World.storeValue_stores {v : DynValue} {n : NativeValue} {p : Place} {d : MemberDecl}
    {context : String} {u : World} {b : Twin} (hreach : Reachable w (0 + R + v.hold))
    (hlent : Lends R t) (hdecl : (w.twin t).layout.memberDecl? p = some d)
    (hconverted : Crossing.toNative context v d.type w = (.ok n, u))
    (hb : ((u.storeValue t p n).drop v.handles).twins[t]? = some b) (hlive : b.stage = .live) :
    b.valueAt? p = some n := by
  have hpath := Crossing.toNative_keeping context v d.type 0 hreach
  rw [hconverted] at hpath
  have hthere := hreach.along hpath
  obtain ⟨a, ha, -⟩ := (hlent.right.left).live hreach.invariant
  obtain ⟨a', ha', hlive'⟩ := (hlent.right.left).live hthere.invariant
  have hshaped := hthere.invariant.formed.shaped t a' ha' hlive'
  have hdecl' : a'.layout.memberDecl? p = some d := by
    rw [← twin_eq ha', hpath.persists.layout ha]
    exact hdecl
  have hvalue := valueAt_storeValue ha' hshaped hdecl' (Untouched.drop _ v.handles) hb hlive p
  exact hvalue.trans (if_pos rfl)

/-- Dynamic assignment stores the converted value in the visible member of the name,
or if there is none the value itself among the attributes. -/
theorem World.setAttr_stores {v : DynValue} (hreach : Reachable w (R + v.hold))
    (hlent : Lends R t) (hok : (setAttr t name v w).1 = .ok ()) :
    match (w.twin t).layout.findVisibleMember? name (w.twin t).kind.fromDerived with
    | some p => ∃ d n, (w.twin t).layout.memberDecl? p = some d
        ∧ (Crossing.toNative ("assignment to '" ++ name ++ "'") v d.type w).1 = .ok n
        ∧ ((setAttr t name v w).2.twin t).valueAt? p = some n
    | none => ((setAttr t name v w).2.twin t).attrs.get? name = some v := by
  have hframe : Reachable w (0 + R + v.hold) := by rwa [zero_add]
  obtain ⟨b, hb, hlive⟩ : ∃ b, (setAttr t name v w).2.twins[t]? = some b ∧ b.stage = .live :=
    Reachable.live_of_lent (hframe.along (setAttr_safe hlent name v 0 hframe)) hlent
  rw [twin_eq hb]
  revert hok hb
  unfold setAttr
  dsimp only
  cases hfind : (w.twin t).layout.findVisibleMember? name (w.twin t).kind.fromDerived with
  | none =>
      intro _ hb
      obtain ⟨a, ha, -⟩ := (hlent.left).live hreach.invariant
      exact storeAttr_stores ha hb hlive
  | some p =>
      dsimp only
      obtain ⟨d, hdecl, -⟩ := Layout.memberDecl_of_find hfind
      rw [hdecl]
      dsimp only
      cases hresult : Crossing.toNative ("assignment to '" ++ name ++ "'") v d.type w with
      | mk r u =>
          cases r with
          | error f => exact fun hok => by cases hok
          | ok n =>
              intro _ hb
              exact ⟨d, n, rfl, by rw [hresult],
                storeValue_stores hframe hlent hdecl hresult hb hlive⟩

end Assignments

/-- What holds of the storage of a live twin in a world. -/
structure World.Stores (w : World) (t : TwinId) (a : Twin) : Prop where
  /-- There is one segment for each of the layout, with a value for each member. -/
  shaped : a.storage.map List.length = a.layout.segments.map (·.members.length)
  /-- Every value is one of a member, and of its type. -/
  typed : ∀ p v, a.valueAt? p = some v → ∃ d, a.layout.memberDecl? p = some d
    ∧ (v.coerce w.census d.type = some v ∨ v = .null ∧ d.type.isObject)
  /-- The segments of every base are among those stored. -/
  ranged : ∀ b ∈ a.layout.bases,
    b.stop = b.start + b.base.flatten.length ∧ b.stop ≤ a.storage.length
  field : ∀ name p, a.layout.findMember? name = some p →
    ∃ v, a.valueAt? p = some v ∧ (getField t name w).1 = .ok v
  fieldOf : ∀ cls name p, a.layout.findMemberIn? cls name = some p →
    ∃ v, a.valueAt? p = some v ∧ (getFieldOf t cls name w).1 = .ok v
  attr : ∀ name p, a.layout.findVisibleMember? name a.kind.fromDerived = some p →
    ∃ v, a.valueAt? p = some v ∧ (getAttr t name w).1 = .ok v.toDyn
  /-- A constructor finds the members of the segment that it fills. -/
  site : ∀ s : Site, s.twin = t → a.layout.segments[s.segment]? = some s.cls →
    ∀ name p d, s.member? name = some (p, d) →
      ∃ v, a.valueAt? p = some v ∧ (s.get name w).1 = v

namespace World

variable {w : World} {t : TwinId} {a : Twin}

theorem readMember_of_decl (ha : w.twins[t]? = some a) (hshaped : a.Shaped) {name : String}
    {find : Layout → Option Place} {p : Place} (hfind : find a.layout = some p)
    (hdecl : ∃ d, a.layout.memberDecl? p = some d) :
    ∃ v, a.valueAt? p = some v ∧ (readMember t name find w).1 = .ok v := by
  obtain ⟨d, hdecl⟩ := hdecl
  obtain ⟨v, hv⟩ := hshaped.valueAt hdecl
  exact ⟨v, hv, by simp [readMember, twin_eq ha, hfind, hv]⟩

/-- What holds of every state holds of the storage of every live twin. -/
theorem Stores.of_invariant {R : Hold} (hinv : Invariant w R) (ha : w.twins[t]? = some a)
    (hlive : a.stage = .live) : w.Stores t a := by
  have hshaped : a.Shaped := hinv.formed.shaped t a ha hlive
  refine ⟨hshaped.storage, ?_, ?_, ?_, ?_, ?_, ?_⟩
  · intro p v hv
    obtain ⟨d, hd⟩ := hshaped.memberDecl hv
    exact ⟨d, hd, hinv.typed.stored t a ha p v d hv hd⟩
  · intro b hb
    obtain ⟨hstop, hle⟩ := Layout.range_of_mem_ranges hb
    have hlength : a.storage.length = a.layout.segments.length := by
      simpa using congrArg List.length hshaped.storage
    refine ⟨hstop, ?_⟩
    rw [hlength]
    exact hle.trans (Nat.le_of_eq (Nat.zero_add _))
  · intro name p hfind
    obtain ⟨d, hd, -⟩ := Layout.memberDecl_of_find hfind
    exact readMember_of_decl ha hshaped hfind ⟨d, hd⟩
  · intro cls name p hfind
    obtain ⟨d, hd, -⟩ := Layout.memberDecl_of_findIn hfind
    exact readMember_of_decl ha hshaped hfind ⟨d, hd⟩
  · intro name p hfind
    obtain ⟨d, hd, -⟩ := Layout.memberDecl_of_find hfind
    obtain ⟨v, hv⟩ := hshaped.valueAt hd
    exact ⟨v, hv, by simp [getAttr, findAttr?, twin_eq ha, hfind, hv]⟩
  · intro s hs hsegment name p d hmember
    have hfits : s.Fits w := ⟨a, hs ▸ ha, hsegment⟩
    have hd := hfits.memberDecl hmember
    rw [hs, twin_eq ha] at hd
    obtain ⟨v, hv⟩ := hshaped.valueAt hd
    exact ⟨v, hv, by simp [Site.get, hs, twin_eq ha, hmember, hv]⟩

end World

/-- What holds of all storage while code is running that holds `R`. -/
structure World.StorageSound (w : World) (R : Hold) : Prop where
  stores : ∀ t a, w.twins[t]? = some a → a.isReleased = false → w.Stores t a
  /-- No write ever went to a place that is not there. -/
  placed : ∀ t p, .astray t p ∉ w.journal.toList
  /-- Native assignment to a twin that is held finds the member, and if it succeeds the
  member has the value converted to its type. -/
  setField : ∀ t name (v : NativeValue) S, R = S + v.hold → Lends S t →
    (setField t name v w).1 = .ok () →
      ∃ p d c, (w.twin t).layout.findMember? name = some p
        ∧ (w.twin t).layout.memberDecl? p = some d ∧ v.coerce w.census d.type = some c
        ∧ ((setField t name v w).2.twin t).valueAt? p = some c
  /-- So does what a constructor sets in the segment that it fills. -/
  setOwn : ∀ (s : Site) name (v : NativeValue) S, R = S + v.hold → Lends S s.twin → s.Fits w →
    (s.set name v w).1 = .ok () →
      ∃ p d c, s.member? name = some (p, d) ∧ v.coerce w.census d.type = some c
        ∧ ((s.set name v w).2.twin s.twin).valueAt? p = some c
  /-- Dynamic assignment writes the visible member, or else an attribute. -/
  setAttr : ∀ t name (v : DynValue) S, R = S + v.hold → Lends S t →
    (setAttr t name v w).1 = .ok () →
      match (w.twin t).layout.findVisibleMember? name (w.twin t).kind.fromDerived with
      | some p => ∃ d n, (w.twin t).layout.memberDecl? p = some d
          ∧ (Crossing.toNative ("assignment to '" ++ name ++ "'") v d.type w).1 = .ok n
          ∧ ((setAttr t name v w).2.twin t).valueAt? p = some n
      | none => ((setAttr t name v w).2.twin t).attrs.get? name = some v

/-- Storage is sound wherever running code has got to. -/
theorem Attained.storageSound {w : World} {R : Hold} (hattained : Attained w R) :
    w.StorageSound R := by
  obtain ⟨ids, hreach, -⟩ := hattained
  have hinv := hreach.invariant
  have hown : ∀ {S take : Hold}, R = S + take → Reachable w (ofSegments ids + S + take) := by
    intro S take hR
    rw [add_assoc, ← hR]
    exact hreach
  refine ⟨?_, hinv.typed.placed, ?_, ?_, ?_⟩
  · intro t a ha hlive
    refine .of_invariant hinv ha ?_
    simpa [Twin.isReleased] using hlive
  · intro t name v S hR hlent hok
    exact World.setField_stores (hown hR) hlent.right hok
  · intro s name v S hR hlent hfits hok
    exact Site.set_stores (hown hR) hlent.right hfits hok
  · intro t name v S hR hlent hok
    exact World.setAttr_stores (hown hR) hlent.right hok

open Session in
/-- After every history, and in every state that running code gets to, the storage of
each live twin has the shape of its layout and values of its members' types, or null
where no instance was stored; all members that are found can be read, no write ever
goes astray, and what is assigned with success is stored. -/
theorem storage_sound :
    (∀ (depth : Nat) (steps : List Step),
      let s := after (.nested .memo depth) steps
      s.world.StorageSound s.waiting)
    ∧ ∀ (w : World) (R : Hold), Attained w R → w.StorageSound R := by
  constructor
  · intro depth steps
    exact (attained_after depth steps).storageSound
  · intro w R hattained
    exact hattained.storageSound

end TwinObject
