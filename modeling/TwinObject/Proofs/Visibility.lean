/-
Visibility of members.  Dynamic code finds the first member of a name that it can see, native
code the first one of all.  These are the same member just if the one that native code finds is
visible; then what one side assigns the other reads, and else neither touches what the other
reads.
-/
import TwinObject.Proofs.Assignments
import TwinObject.Proofs.Locality

namespace TwinObject

open Hold

namespace Layout

variable {l : Layout} {name : String} {p q : Place}

/-- The members in the order in which a name is searched, each with its place. -/
def searched (l : Layout) : List (Place × MemberDecl) :=
  l.bases.flatMap fun b => (l.segmentsDown b).flatMap fun (c, segment) =>
    c.members.zipIdx.map fun (d, index) => (⟨segment, index⟩, d)

theorem findMemberWhere?_eq (l : Layout) (name : String) (eligible : MemberDecl → Bool) :
    l.findMemberWhere? name eligible
      = (l.searched.find? fun x => x.2.name = name && eligible x.2).map (·.1) := by
  unfold findMemberWhere? searched
  rw [List.find?_flatMap, List.map_findSome?]
  congr 1
  funext b
  rw [Function.comp_apply, List.find?_flatMap, List.map_findSome?]
  congr 1
  funext ⟨c, segment⟩
  dsimp only [Function.comp_apply]
  rw [List.find?_map, List.findIdx?_eq_fst_find?_zipIdx, Option.map_map,
    Option.map_map]
  rfl

theorem memberDecl_of_mem_searched {d : MemberDecl} (hmem : (p, d) ∈ l.searched) :
    l.memberDecl? p = some d := by
  obtain ⟨b, -, hmem⟩ := List.mem_flatMap.mp hmem
  obtain ⟨⟨c, segment⟩, hsegment, hmem⟩ := List.mem_flatMap.mp hmem
  obtain ⟨⟨d, index⟩, hindex, hplace⟩ := List.mem_map.mp hmem
  cases hplace
  simp [memberDecl?, (mem_segmentsDown_iff.mp hsegment).2.2,
    List.mem_zipIdx_iff_getElem?.mp hindex]

/-- What native code finds is what dynamic code finds just if it is visible. -/
theorem findMember?_of_visible {fromDerived : Bool}
    (hfind : l.findVisibleMember? name fromDerived = some p) :
    ∃ q d, l.findMember? name = some q ∧ l.memberDecl? q = some d
      ∧ (d.access.visible fromDerived = true ↔ q = p) := by
  obtain ⟨e, he, hename, hevisible⟩ := memberDecl_of_find hfind
  rw [findVisibleMember?, findMemberWhere?_eq, Option.map_eq_some_iff] at hfind
  obtain ⟨found, hfound, rfl⟩ := hfind
  have hfits := List.find?_some hfound
  rw [Bool.and_eq_true] at hfits
  have hnamed : (l.searched.find? fun x => x.2.name = name).isSome :=
    List.find?_isSome.mpr ⟨found, List.mem_of_find?_eq_some hfound, hfits.1⟩
  obtain ⟨⟨q, d⟩, hfirst⟩ := Option.isSome_iff_exists.mp hnamed
  have hd := memberDecl_of_mem_searched (List.mem_of_find?_eq_some hfirst)
  refine ⟨q, d, ?_, hd, fun hvisible => ?_, fun hq => ?_⟩
  · simp [findMember?, findMemberWhere?_eq, hfirst]
  · -- Nothing of the name comes before, so nothing visible of the name does.
    obtain ⟨hname, before, after, hsearched, hbefore⟩ := List.find?_eq_some_iff_append.mp hfirst
    have hsame : (l.searched.find? fun x => x.2.name = name && x.2.access.visible fromDerived)
        = some (q, d) := by
      refine List.find?_eq_some_iff_append.mpr ⟨?_, before, after, hsearched, fun x hx => ?_⟩
      · rw [hname, hvisible]
        rfl
      · simp only [Bool.not_eq_true'] at hbefore
        simp [hbefore x hx]
    cases hsame.symm.trans hfound
    rfl
  · cases (hq ▸ hd).symm.trans he
    exact hevisible

end Layout

open World in
/-- Under a name for which dynamic code sees a member native code finds one too.  It is the same
just if the one that native code finds is visible.  Then what dynamic code assigns native code
reads, as it was converted; and what native code assigns dynamic code reads, as it was fitted
to the type of the member.  Else each side reads what it did before the other assigned. -/
theorem members_agree {w : World} {S : Hold} {t : TwinId} {a : Twin} {name : String} {p : Place}
    (ha : w.twins[t]? = some a) (hlent : S.Lends t)
    (hvisible : a.layout.findVisibleMember? name a.kind.fromDerived = some p) :
    ∃ q d, a.layout.findMember? name = some q ∧ a.layout.memberDecl? q = some d
      ∧ (d.access.visible a.kind.fromDerived = true ↔ q = p)
      ∧ (∀ v : DynValue, Attained w (S + v.hold) → (setAttr t name v w).1 = .ok () →
        let u := (setAttr t name v w).2
        ∃ e n, a.layout.memberDecl? p = some e
          ∧ (Crossing.toNative ("assignment to '" ++ name ++ "'") v e.type w).1 = .ok n
          ∧ w.Binds u v e.type n
          ∧ (getField t name u).1
            = if d.access.visible a.kind.fromDerived then .ok n else (getField t name w).1)
      ∧ ∀ v : NativeValue, Attained w (S + v.hold) → (setField t name v w).1 = .ok () →
        let u := (setField t name v w).2
        ∃ c, v.coerce w.census d.type = some c
          ∧ (getAttr t name u).1
            = if d.access.visible a.kind.fromDerived then .ok c.toDyn
              else (getAttr t name w).1 := by
  obtain ⟨q, d, hfind, hdecl, hsame⟩ := Layout.findMember?_of_visible hvisible
  refine ⟨q, d, hfind, hdecl, hsame, fun v hattained hok => ?_, fun v hattained hok => ?_⟩
  · obtain ⟨e, n, x, old, he, hresult, hbinds, hold, hwrites⟩ :=
      hattained.setAttr_binds hlent ha hvisible hok
    have hu := (hattained.setAttr hlent name).alive_of_lent hlent
    obtain ⟨c, hc, hkind, hvalues⟩ := hwrites.valueAt ha hold hu
    refine ⟨e, n, he, by rw [hresult], hbinds, ?_⟩
    have hfind' : c.layout.findMember? name = some q := by rw [Twin.layout, hkind]; exact hfind
    by_cases hq : q = p
    · rw [if_pos (hsame.mpr hq)]
      exact getField_of_value hc hfind' (by rw [hvalues, if_pos hq])
    · obtain ⟨m, hm⟩ := (hattained.shaped hlent.left ha).valueAt hdecl
      rw [if_neg (mt hsame.mp hq), getField_of_value ha hfind hm]
      exact getField_of_value hc hfind' (by rw [hvalues, if_neg hq, hm])
  · obtain ⟨e, n, old, he, hcoerce, hold, hwrites⟩ := setField_member hattained hlent ha hfind hok
    cases hdecl.symm.trans he
    have hu := (hattained.setField hlent name).alive_of_lent hlent
    obtain ⟨c, hc, hkind, hvalues⟩ := hwrites.valueAt ha hold hu
    refine ⟨n, hcoerce, ?_⟩
    have hfind' : c.layout.findVisibleMember? name c.kind.fromDerived = some p := by
      rw [Twin.layout, hkind]
      exact hvisible
    by_cases hq : q = p
    · rw [if_pos (hsame.mpr hq)]
      exact getAttr_of_value hc hfind' (by rw [hvalues, if_pos hq.symm])
    · obtain ⟨e, he', -⟩ := Layout.memberDecl_of_find hvisible
      obtain ⟨m, hm⟩ := (hattained.shaped hlent.left ha).valueAt he'
      rw [if_neg (mt hsame.mp hq), getAttr_of_value ha hvisible hm]
      exact getAttr_of_value hc hfind' (by rw [hvalues, if_neg (Ne.symm hq), hm])

open World Panel in
/-- Both sides find one level, but the light of the frame is hidden from dynamic code. -/
theorem members_agree_panel :
    ((setAttr 1 "level" (.int 9) fresh).1 = .ok ()
      ∧ (getField 1 "level" (setAttr 1 "level" (.int 9) fresh).2).1 = .ok (.int 9)
      ∧ (setField 1 "level" (.int 4) fresh).1 = .ok ()
      ∧ (getAttr 1 "level" (setField 1 "level" (.int 4) fresh).2).1 = .ok (.int 4))
    ∧ (setAttr 1 "light" (.int 9) fresh).1 = .ok ()
    ∧ (getField 1 "light" (setAttr 1 "light" (.int 9) fresh).2).1 = .ok (.int 2)
    ∧ (setField 1 "light" (.int 4) fresh).1 = .ok ()
    ∧ (getAttr 1 "light" (setField 1 "light" (.int 4) fresh).2).1 = .ok (.int 3) := by
  have ha : fresh.twins[1]? = some (fresh.twin 1) := rfl
  have hgiven : Attained fresh (hold + 0) := fresh_attained.cast (add_zero _)
  constructor
  · have hvisible : (fresh.twin 1).layout.findVisibleMember? "level"
        (fresh.twin 1).kind.fromDerived = some ⟨0, 0⟩ := rfl
    obtain ⟨q, d, hfind, hdecl, -, hattr, hfield⟩ := members_agree ha lent hvisible
    cases hfind
    cases hdecl
    have hassigned : (setAttr 1 "level" (.int 9) fresh).1 = .ok () := by with_unfolding_all rfl
    have hassigned' : (setField 1 "level" (.int 4) fresh).1 = .ok () := by with_unfolding_all rfl
    obtain ⟨e, n, he, hconverted, -, hread⟩ := hattr (.int 9) hgiven hassigned
    obtain ⟨c, hcoerce, hread'⟩ := hfield (.int 4) hgiven hassigned'
    cases he
    cases hconverted
    cases hcoerce
    exact ⟨hassigned, hread, hassigned', hread'⟩
  · have hvisible : (fresh.twin 1).layout.findVisibleMember? "light"
        (fresh.twin 1).kind.fromDerived = some ⟨2, 0⟩ := rfl
    obtain ⟨q, d, hfind, hdecl, -, hattr, hfield⟩ := members_agree ha lent hvisible
    cases hfind
    cases hdecl
    have hassigned : (setAttr 1 "light" (.int 9) fresh).1 = .ok () := by with_unfolding_all rfl
    have hassigned' : (setField 1 "light" (.int 4) fresh).1 = .ok () := by with_unfolding_all rfl
    obtain ⟨e, n, -, -, -, hread⟩ := hattr (.int 9) hgiven hassigned
    obtain ⟨c, -, hread'⟩ := hfield (.int 4) hgiven hassigned'
    have hhidden : (getField 1 "light" fresh).1 = .ok (.int 2) := by with_unfolding_all rfl
    have hseen : (getAttr 1 "light" fresh).1 = .ok (.int 3) := by with_unfolding_all rfl
    exact ⟨hassigned, hread.trans hhidden, hassigned', hread'.trans hseen⟩

/-- A hidden member of a derived class stands before a visible one of its parent: dynamic code
assigns and reads that of the parent, native code the hidden one. -/
theorem hidden_member_first :
    let parent : NativeClass :=
      { (default : NativeClass) with
        id := ⟨0⟩, name := "A", members := [⟨"value", .int, .everyone, .int 1⟩] }
    let child : NativeClass :=
      { (default : NativeClass) with
        id := ⟨1⟩, name := "B", parents := [parent], members := [⟨"value", .int, .owner, .int 2⟩] }
    let w : World := { (default : World) with twins := #[.fresh 0 (.native child) .native] }
    let u := (World.setAttr 0 "value" (.int 7) w).2
    (World.setAttr 0 "value" (.int 7) w).1 = .ok ()
    ∧ (World.getAttr 0 "value" u).1 = .ok (.int 7)
    ∧ (World.getField 0 "value" u).1 = .ok (.int 2) := by
  refine ⟨?_, ?_, ?_⟩
  · with_unfolding_all rfl
  · with_unfolding_all rfl
  · with_unfolding_all rfl

end TwinObject
