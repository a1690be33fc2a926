/-
Members and attributes are safe: a value that is written belongs to the twin or
class from then on, the old one is let go, and a value that is read is one more.
-/
import TwinObject.Proofs.Safe.Crossing

namespace TwinObject

open Hold

namespace Bindings

variable {α : Type}

theorem mem_of_get? {b : Bindings α} {name : String} {v : α} (hget : b.get? name = some v) :
    (name, v) ∈ b := by
  induction b with
  | nil => simp [get?] at hget
  | cons entry rest ih =>
      obtain ⟨n, old⟩ := entry
      rw [get?_cons] at hget
      by_cases hn : name = n
      · rw [if_pos hn] at hget
        cases hget
        rw [hn]
        exact List.mem_cons_self
      · rw [if_neg hn] at hget
        exact List.mem_cons_of_mem _ (ih hget)

end Bindings

namespace Attributes

theorem coe_handles (a : Attributes) :
    (↑a.handles : Multiset Handle) = a.bindings.total fun v => ↑v.handles := by
  have hperm : a.handles.Perm (a.bindings.flatMap (·.2.handles)) :=
    List.Perm.flatMap_right _ a.inOrder_perm
  rw [Multiset.coe_eq_coe.mpr hperm, World.coe_flatMap]
  rfl

/-- Binding a name moves its old value out and the new one in. -/
theorem handles_put (a : Attributes) (name : String) (v : DynValue) :
    ((a.put name v).handles ++ (a.get? name).elim [] DynValue.handles).Perm
      (a.handles ++ v.handles) := by
  rw [← Multiset.coe_eq_coe, ← Multiset.coe_add, ← Multiset.coe_add, coe_handles, coe_handles]
  have hput := Bindings.total_put (fun v : DynValue => (↑v.handles : Multiset Handle)) name v
    a.bindings
  refine Eq.trans ?_ hput
  rw [get?]
  cases a.bindings.get? name <;> rfl

theorem mem_handles {a : Attributes} {name : String} {v : DynValue} (hget : a.get? name = some v)
    {h : Handle} (hh : h ∈ v.handles) : h ∈ a.handles :=
  List.mem_flatMap.mpr ⟨(name, v), a.inOrder_perm.mem_iff.mpr (Bindings.mem_of_get? hget), hh⟩

end Attributes

namespace Layout

variable {l : Layout} {p : Place}

/-- A segment of a range with its position is that of the layout. -/
theorem mem_segmentsDown_iff {b : BaseRange} {c : NativeClass} {i : Nat} :
    (c, i) ∈ l.segmentsDown b ↔ b.start ≤ i ∧ i < b.stop ∧ l.segments[i]? = some c := by
  rw [segmentsDown, List.mem_reverse, List.mk_mem_zipIdx_iff_le_and_getElem?_sub]
  refine and_congr_right fun hstart => ?_
  rw [segmentsIn, List.getElem?_drop, List.getElem?_take, Nat.add_sub_cancel' hstart]
  split <;> simp [*]

/-- A member that is found is declared under the name, and is eligible. -/
theorem memberDecl_of_find {name : String} {eligible : MemberDecl → Bool}
    (hfind : l.findMemberWhere? name eligible = some p) :
    ∃ d, l.memberDecl? p = some d ∧ d.name = name ∧ eligible d := by
  obtain ⟨b, -, hbase⟩ := List.exists_of_findSome?_eq_some hfind
  obtain ⟨⟨c, segment⟩, hmem, hplace⟩ := List.exists_of_findSome?_eq_some hbase
  obtain ⟨index, hindex, rfl⟩ := Option.map_eq_some_iff.mp hplace
  obtain ⟨hlt, hname, -⟩ := List.findIdx?_eq_some_iff_getElem.mp hindex
  refine ⟨c.members[index], ?_, by simpa using hname⟩
  simp [memberDecl?, (mem_segmentsDown_iff.mp hmem).2.2, hlt]

end Layout

namespace Twin

variable {a : Twin} {p : Place}

/-- A place of a declared member has a value. -/
theorem Shaped.valueAt (hshaped : a.Shaped) {decl : MemberDecl}
    (hdecl : a.layout.memberDecl? p = some decl) : ∃ old, a.valueAt? p = some old := by
  unfold Layout.memberDecl? at hdecl
  obtain ⟨c, hc, hdecl⟩ := Option.bind_eq_some_iff.mp hdecl
  have hlength : (a.storage.map List.length)[p.segment]? = some c.members.length := by
    rw [hshaped.storage, List.getElem?_map, hc]
    rfl
  rw [List.getElem?_map, Option.map_eq_some_iff] at hlength
  obtain ⟨segment, hsegment, hlength⟩ := hlength
  have hlt : p.index < segment.length := by
    rw [hlength]
    exact (List.getElem?_eq_some_iff.mp hdecl).1
  refine ⟨segment[p.index], ?_⟩
  simp [valueAt?, hsegment, hlt]

/-- A place that is written has the new value, and the others have theirs. -/
theorem valueAt_setValue {old : NativeValue} (hold : a.valueAt? p = some old) (v : NativeValue)
    (q : Place) : (a.setValue p v).valueAt? q = if q = p then some v else a.valueAt? q := by
  obtain ⟨segment, hsegment, hvalue⟩ := Option.bind_eq_some_iff.mp hold
  have hlt := (List.getElem?_eq_some_iff.mp hvalue).1
  obtain ⟨i, j⟩ := p
  obtain ⟨i', j'⟩ := q
  simp only [valueAt?, setValue, List.getElem?_modify, Place.mk.injEq] at hsegment hvalue ⊢
  by_cases hi : i = i'
  · subst hi
    by_cases hj : j = j'
    · subst hj
      simp [hsegment, hlt]
    · simp [hsegment, hj, Ne.symm hj, List.getElem?_set_ne]
  · simp [hi, Ne.symm hi]

theorem flatMap_modify {segments : List (List NativeValue)} {i j : Nat} {old : NativeValue}
    (hold : segments[i]?.bind (·[j]?) = some old) (v : NativeValue) :
    ((segments.modify i (·.set j v)).flatten.flatMap NativeValue.handles ++ old.handles).Perm
      (segments.flatten.flatMap NativeValue.handles ++ v.handles) := by
  obtain ⟨segment, hsegment, hvalue⟩ := Option.bind_eq_some_iff.mp hold
  obtain ⟨hi, rfl⟩ := List.getElem?_eq_some_iff.mp hsegment
  obtain ⟨hj, rfl⟩ := List.getElem?_eq_some_iff.mp hvalue
  have hinner := flatMap_set_add NativeValue.handles segments[i] j hj v
  have houter := flatMap_set_add (fun s : List NativeValue => s.flatMap NativeValue.handles)
    segments
    i hi (segments[i].set j v)
  have hmodify : segments.modify i (·.set j v) = segments.set i (segments[i].set j v) := by
    rw [List.modify_eq_set, List.getElem?_eq_getElem hi]
    rfl
  rw [hmodify, ← Multiset.coe_eq_coe, ← Multiset.coe_add, ← Multiset.coe_add,
    List.flatten_eq_flatMap, List.flatten_eq_flatMap, List.flatMap_assoc, List.flatMap_assoc]
  ext h
  have hinner := congrArg (Multiset.count h) hinner
  have houter := congrArg (Multiset.count h) houter
  simp only [Multiset.count_add, id] at hinner houter ⊢
  omega

/-- Writing a member moves its old value out and the new one in. -/
theorem contents_setValue {old : NativeValue} (hold : a.valueAt? p = some old) (v : NativeValue) :
    ((a.setValue p v).contents ++ old.handles).Perm (a.contents ++ v.handles) := by
  have hmodify := flatMap_modify hold v
  simp only [contents, setValue]
  rw [← Multiset.coe_eq_coe] at hmodify ⊢
  simp only [← Multiset.coe_add] at hmodify ⊢
  rw [add_right_comm, hmodify, add_right_comm]

theorem mem_contents_of_value {v : NativeValue} (hv : a.valueAt? p = some v) {h : Handle}
    (hh : h ∈ v.handles) : h ∈ a.contents := by
  obtain ⟨segment, hsegment, hvalue⟩ := Option.bind_eq_some_iff.mp hv
  exact List.mem_append_left _ (List.mem_flatMap.mpr ⟨v, List.mem_flatten.mpr
    ⟨segment, List.mem_of_getElem? hsegment, List.mem_of_getElem? hvalue⟩, hh⟩)

end Twin

/-- A twin is of the same class later on. -/
theorem Persists.kind {w u : World} {t : TwinId} {a : Twin} (hpersists : Persists w u)
    (ha : w.twins[t]? = some a) : (u.twin t).kind = (w.twin t).kind := by
  obtain ⟨b, hb, hevolves⟩ := hpersists.twins t a ha
  rw [World.twin_eq ha, World.twin_eq hb, hevolves.kind]

theorem Persists.layout {w u : World} {t : TwinId} {a : Twin} (hpersists : Persists w u)
    (ha : w.twins[t]? = some a) : (u.twin t).layout = (w.twin t).layout :=
  congrArg Kind.layout (hpersists.kind ha)

namespace World

variable {F R : Hold} {w u : World} {t : TwinId} {a : Twin}

/-- A value of a member's type can be written there. -/
theorem conforms_setValue {p : Place} {old v : NativeValue} (hconforms : w.Conforms a)
    (hold : a.valueAt? p = some old)
    (hfits : ∀ d, a.layout.memberDecl? p = some d → w.Fits d.type v) :
    w.Conforms (a.setValue p v) := by
  intro q u d hu hd
  rw [Twin.valueAt_setValue hold] at hu
  split at hu
  · rename_i hq
    cases hu
    exact hfits d (hq ▸ hd)
  · exact hconforms q u d hu hd

theorem storeValue_path {p : Place} {old v : NativeValue} (ha : w.twins[t]? = some a)
    (hlive : a.stage = .live) (hold : a.valueAt? p = some old) (hconforms : w.Conforms a)
    (htidy : a.Tidy) (hfits : ∀ d, a.layout.memberDecl? p = some d → w.Fits d.type v) :
    Path w (R + v.hold) (w.storeValue t p v) R := by
  have hshape : (a.storage.modify p.segment (·.set p.index v)).map List.length
      = a.storage.map List.length := by
    apply List.ext_getElem?
    intro i
    simp only [List.getElem?_map, List.getElem?_modify]
    cases a.storage[i]? with
    | none => rfl
    | some s =>
        simp only [Option.map_some]
        split <;> simp
  have hstore := (Transition.store (R := R) ha hlive (a.setValue p v).storage a.attrs a.owner
    a.moved
    hshape v.handles old.handles (Twin.contents_setValue hold v)
    (conforms_setValue hconforms hold hfits) htidy).path
  unfold storeValue
  rw [modifyTwin_eq ha]
  simp only [twin?, ha, Option.bind_some, hold]
  exact hstore.trans (Path.drop _)

theorem storeAttr_path {name : String} (v : DynValue) (ha : w.twins[t]? = some a)
    (hlive : a.stage = .live) (hconforms : w.Conforms a) (htidy : a.Tidy)
    (hfree : a.layout.findVisibleMember? name a.kind.fromDerived = none) :
    Path w (R + v.hold) (w.storeAttr t name v) R := by
  have hbag : (({ a with attrs := a.attrs.put name v } : Twin).contents
      ++ (a.attrs.get? name).elim [] DynValue.handles).Perm (a.contents ++ v.handles) := by
    simp only [Twin.contents, List.append_assoc]
    exact (a.attrs.handles_put name v).append_left _
  have hstore := (Transition.store (R := R) ha hlive a.storage (a.attrs.put name v) a.owner a.moved
    rfl v.handles _ hbag hconforms (htidy.put hfree v)).path
  unfold storeAttr
  rw [modifyTwin_eq ha]
  simp only [twin?, ha, Option.bind_some]
  exact hstore.trans (Path.drop _)

theorem storeClassAttr_path {id : ClassId} {s : ClassState} (hs : w.classes[id]? = some s)
    (name : String) (v : DynValue) : Path w (R + v.hold) (w.storeClassAttr id name v) R := by
  have hstore := (Transition.storeClass (R := R) hs (s.attrs.put name v) v.handles _
    (s.attrs.handles_put name v)).path
  unfold storeClassAttr
  rw [modify_eq_setIfInBounds hs]
  simp only [hs, Option.bind_some]
  exact hstore.trans (Path.drop _)

/-- A value of its type that is given to a declared member of a lent twin. -/
theorem storeValue_of_lent {T : Hold} {p : Place} {decl : MemberDecl} {v : NativeValue}
    (hreach : Reachable w (R + F + (v.hold + T))) (hlent : Lends F t)
    (hdecl : (w.twin t).layout.memberDecl? p = some decl) (hfits : w.Fits decl.type v) :
    Path w (R + F + (v.hold + T)) (w.storeValue t p v) (R + F + T) := by
  obtain ⟨a, ha, hlive⟩ := hreach.live_of_lent hlent
  rw [twin_eq ha] at hdecl
  obtain ⟨old, hold⟩ := (hreach.invariant.formed.shaped t a ha hlive).valueAt hdecl
  have hany : ∀ d, a.layout.memberDecl? p = some d → w.Fits d.type v := by
    intro d hd
    cases hdecl.symm.trans hd
    exact hfits
  exact (storeValue_path (R := R + F + T) ha hlive hold (hreach.invariant.typed.stored t a ha)
    (hreach.invariant.tidied t a ha) hany).cast (by abel) rfl

theorem classAttr_held {c : DynamicClass} {name : String} {v : DynValue}
    (hfind : w.classAttr? c name = some v) {h : Handle} (hh : h ∈ v.handles) :
    w.Held R h.twin := by
  obtain ⟨d, -, hget⟩ := List.exists_of_findSome?_eq_some hfind
  obtain ⟨s, hs, hget⟩ := Option.bind_eq_some_iff.mp hget
  have hbag : h ∈ bag ClassState.handles w.classes := mem_bag hs (Attributes.mem_handles hget hh)
  refine ⟨h, ?_, rfl⟩
  simp only [rootBag, Multiset.mem_add]
  exact Or.inl (Or.inl (Or.inl (Or.inl (Or.inl (Or.inr hbag)))))

theorem findAttr_held {name : String} {v : DynValue} (hexists : ∃ a, w.twins[t]? = some a)
    (hfind : w.findAttr? t name = some v) {h : Handle} (hh : h ∈ v.handles) :
    w.Held R h.twin := by
  obtain ⟨a, ha⟩ := hexists
  unfold findAttr? at hfind
  rw [twin_eq ha] at hfind
  dsimp only at hfind
  split at hfind
  · rename_i p hp
    cases hfind
    cases hvalue : a.valueAt? p with
    | none =>
        rw [hvalue] at hh
        cases hh
    | some n =>
        rw [hvalue] at hh
        cases n with
        | object i =>
            cases List.mem_singleton.mp hh
            exact held_of_contents (h := .native i) ha
              (Twin.mem_contents_of_value hvalue (List.mem_singleton_self _))
        | _ => cases hh
  · rw [Option.or_eq_some_iff] at hfind
    rcases hfind with hown | ⟨-, hclass⟩
    · exact held_of_contents ha (List.mem_append_right _ (Attributes.mem_handles hown hh))
    · cases hkind : a.kind with
      | native c =>
          rw [hkind] at hclass
          cases hclass
      | dynamic c =>
          rw [hkind] at hclass
          exact classAttr_held hclass hh

theorem getAttr_safe (hlent : Lends F t) (name : String) :
    Act.Safe F 0 (ofOk DynValue.hold) w (getAttr t name) := by
  intro R hreach
  obtain ⟨a, ha, -⟩ := hreach.live_of_lent hlent
  unfold getAttr
  cases hfind : w.findAttr? t name with
  | none => exact .refl
  | some v =>
      refine (Path.retainAll v.handles fun h hh => findAttr_held ⟨a, ha⟩ hfind hh).cast rfl ?_
      rw [add_zero]
      rfl

theorem setAttr_safe (hlent : Lends F t) (name : String) (v : DynValue) :
    Act.Safe F v.hold (fun _ => 0) w (setAttr t name v) := by
  intro R hreach
  obtain ⟨a, ha, hlive⟩ := hreach.live_of_lent hlent
  have hdrop : ∀ (u : World) (S : Hold), Path u (S + v.hold) (u.drop v.handles) S :=
    fun _ _ => Path.drop v.handles
  unfold setAttr
  dsimp only
  cases hfind : (w.twin t).layout.findVisibleMember? name (w.twin t).kind.fromDerived with
  | none =>
      rw [twin_eq ha] at hfind
      exact (storeAttr_path v ha hlive (hreach.invariant.typed.stored t a ha)
        (hreach.invariant.tidied t a ha) hfind).cast rfl (add_zero _)
  | some p =>
      dsimp only
      cases hdecl : (w.twin t).layout.memberDecl? p with
      | none =>
          obtain ⟨d, hd, -⟩ := Layout.memberDecl_of_find hfind
          rw [hdecl] at hd
          cases hd
      | some decl =>
          have hpath := Crossing.toNative_keeping ("assignment to '" ++ name ++ "'") v decl.type R
            hreach
          have hthere := hreach.along hpath
          dsimp only
          cases hresult : Crossing.toNative ("assignment to '" ++ name ++ "'") v decl.type w with
          | mk r u =>
              rw [hresult] at hpath hthere
              cases r with
              | error f =>
                  exact hpath.trans ((hdrop u _).cast (by simp) (add_zero _))
              | ok n =>
                  have hplace : (u.twin t).layout.memberDecl? p = some decl := by
                    rw [hpath.persists.layout ha]
                    exact hdecl
                  have hstored : Path u (R + F + (v.hold + n.hold)) (u.storeValue t p n)
                      (R + F + v.hold) := by
                    have hfits := Crossing.toNative_fits hresult
                    refine (storeValue_of_lent (T := v.hold) ?_ hlent hplace hfits).cast ?_ rfl
                    · exact hthere.along (Path.refl.cast rfl (by simp; abel))
                    · abel
                  exact (hpath.trans hstored).trans ((hdrop _ _).cast rfl (add_zero _))

theorem readMember_safe (hlent : Lends F t) (name : String) (find : Layout → Option Place) :
    Act.Safe F 0 (ofOk NativeValue.hold) w (readMember t name find) := by
  intro R hreach
  obtain ⟨a, ha, -⟩ := hreach.live_of_lent hlent
  unfold readMember
  cases hfind : (find (w.twin t).layout).bind (w.twin t).valueAt? with
  | none => exact .refl
  | some v =>
      rw [twin_eq ha] at hfind
      obtain ⟨p, -, hvalue⟩ := Option.bind_eq_some_iff.mp hfind
      refine (Path.retainAll v.handles fun h hh => ?_).cast rfl (by rw [add_zero]; rfl)
      exact held_of_contents ha (Twin.mem_contents_of_value hvalue hh)

/-- What is read off a value holds what the value holds. -/
theorem hold_readAs {census : Census} {type : PlainType} {v r : NativeValue}
    (hread : v.readAs census type = .ok r) : r.hold = v.hold := by
  cases type <;> cases v <;> cases hread <;> rfl

theorem getFieldAs_safe (hlent : Lends F t) (type : PlainType) (name : String) :
    Act.Safe F 0 (ofOk NativeValue.hold) w (getFieldAs type t name) := by
  refine (readMember_safe hlent name _).bind fun _ => ?_
  cases hresult : (getField t name w).1 with
  | error f =>
      simp only [getField] at hresult
      rw [hresult]
      exact .pure rfl
  | ok v =>
      simp only [getField] at hresult
      rw [hresult]
      refine Act.Safe.bind (g := fun _ => v.hold) (fun _ _ => .refl) fun _ => ?_
      split
      · rename_i r hread
        exact .pure (hold_readAs hread).symm
      · exact Crossing.discard_safe.bind fun _ => .pure rfl

theorem writeMember_safe (hlent : Lends F t) {p : Place} {decl : MemberDecl}
    (hdecl : (w.twin t).layout.memberDecl? p = some decl) (context : String) (v : NativeValue) :
    Act.Safe F v.hold (fun _ => 0) w (writeMember t p decl context v) := by
  intro R hreach
  obtain ⟨a, ha, -⟩ := hreach.live_of_lent hlent
  have hdrop : ∀ (u : World) (S : Hold), Path u (S + v.hold) (u.drop v.handles) S :=
    fun _ _ => Path.drop v.handles
  unfold writeMember
  cases hcoerce : v.coerce w.census decl.type with
  | none => exact (hdrop w _).cast rfl (add_zero _)
  | some c =>
      have hretained : Path w (R + F + v.hold) (w.retainAll c.handles)
        (R + F + v.hold + c.hold) := by
        refine Path.retainAll c.handles fun h hh => ?_
        have hown : h ∈ v.handles := NativeValue.handles_coerce hcoerce h hh
        exact (Lends.of_mem hown).right.held hreach.invariant
      have hplace : ((w.retainAll c.handles).twin t).layout.memberDecl? p = some decl := by
        rw [hretained.persists.layout ha]
        exact hdecl
      have hassoc : R + F + v.hold + c.hold = R + F + (c.hold + v.hold) := by abel
      have hstored := storeValue_of_lent (T := v.hold)
        (hassoc ▸ hreach.along hretained) hlent hplace
        ((Fits.of_coerce hcoerce).mono hretained.persists)
      exact (hretained.trans (hstored.cast hassoc rfl)).trans ((hdrop _ _).cast rfl (add_zero _))

theorem setField_safe (hlent : Lends F t) (name : String) (v : NativeValue) :
    Act.Safe F v.hold (fun _ => 0) w (setField t name v) := by
  intro R hreach
  unfold setField
  dsimp only
  cases hfind : ((w.twin t).layout.findMember? name).bind fun p =>
      ((w.twin t).layout.memberDecl? p).map (p, ·) with
  | none => exact (Path.drop v.handles).cast rfl (add_zero _)
  | some found =>
      obtain ⟨p, decl⟩ := found
      obtain ⟨q, -, hdecl⟩ := Option.bind_eq_some_iff.mp hfind
      rw [Option.map_eq_some_iff] at hdecl
      obtain ⟨d, hdecl, hpair⟩ := hdecl
      cases hpair
      exact writeMember_safe hlent hdecl _ v R hreach

end World

/-- Whether a construction fills a segment of the twin's own layout. -/
def Site.Fits (s : Site) (w : World) : Prop :=
  ∃ a, w.twins[s.twin]? = some a ∧ a.layout.segments[s.segment]? = some s.cls

namespace Site

variable {F : Hold} {w u : World} {s : Site}

theorem Fits.mono (hfits : s.Fits w) (hpersists : Persists w u) : s.Fits u := by
  obtain ⟨a, ha, hsegment⟩ := hfits
  obtain ⟨b, hb, hevolves⟩ := hpersists.twins _ a ha
  refine ⟨b, hb, ?_⟩
  rw [Twin.layout, hevolves.kind]
  exact hsegment

theorem Fits.memberDecl (hfits : s.Fits w) {name : String} {p : Place} {decl : MemberDecl}
    (hmember : s.member? name = some (p, decl)) :
    (w.twin s.twin).layout.memberDecl? p = some decl := by
  obtain ⟨a, ha, hsegment⟩ := hfits
  unfold member? at hmember
  obtain ⟨index, -, hmember⟩ := Option.bind_eq_some_iff.mp hmember
  obtain ⟨d, hdecl, hpair⟩ := Option.bind_eq_some_iff.mp hmember
  cases hpair
  rw [World.twin_eq ha]
  simp [Layout.memberDecl?, hsegment, hdecl]

theorem set_safe (hlent : Lends F s.twin) (hfits : s.Fits w) (name : String) (v : NativeValue) :
    Act.Safe F v.hold (fun _ => 0) w (s.set name v) := by
  intro R hreach
  unfold Site.set
  cases hmember : s.member? name with
  | none => exact (Path.drop v.handles).cast rfl (add_zero _)
  | some found =>
      obtain ⟨p, decl⟩ := found
      exact World.writeMember_safe hlent (hfits.memberDecl hmember) _ v R hreach

theorem get_safe (hlent : Lends F s.twin) (name : String) :
    Act.Safe F 0 NativeValue.hold w (s.get name) := by
  intro R hreach
  obtain ⟨a, ha, -⟩ := hreach.live_of_lent hlent
  unfold Site.get
  cases hfind : (s.member? name).bind fun found => (w.twin s.twin).valueAt? found.1 with
  | none => exact .refl
  | some v =>
      obtain ⟨found, -, hvalue⟩ := Option.bind_eq_some_iff.mp hfind
      rw [World.twin_eq ha] at hvalue
      refine (Path.retainAll v.handles fun h hh => ?_).cast rfl (by rw [add_zero]; rfl)
      exact World.held_of_contents ha (Twin.mem_contents_of_value hvalue hh)

end Site

end TwinObject
