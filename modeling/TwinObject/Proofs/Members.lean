/-
Members of the same name.  Every base of an instance has segments of its own, so that members
of one name that several bases declare are all there.  A member that native code names is
searched in all bases of the instance in order: code of a base finds the base's own member
just if no base before it has one of the name, and then it reads and writes as on an instance
of the base alone.
-/
import TwinObject.Proofs.Storage

namespace TwinObject

/-- A place with a number of segments before it. -/
def Place.shift (offset : Nat) (p : Place) : Place :=
  ⟨offset + p.segment, p.index⟩

namespace Layout

/-- The number of segments of a list of bases. -/
def width (bases : List NativeClass) : Nat :=
  (bases.flatMap NativeClass.flatten).length

/-- Where a member is found in the segments of one class, which are laid out from `start`
on. -/
def findFrom? (start : Nat) (c : NativeClass) (name : String) : Option Place :=
  (c.flatten.zipIdx start).reverse.findSome? fun (d, segment) =>
    (d.memberIndex? name).map (Place.mk segment)

variable {name : String} {p q : Place}

theorem findFrom?_shift (start : Nat) (c : NativeClass) (name : String) :
    findFrom? start c name = (findFrom? 0 c name).map (Place.shift start) := by
  unfold findFrom?
  rw [List.zipIdx_eq_map_add, ← List.map_reverse, List.findSome?_map, List.map_findSome?]
  congr 1
  funext ⟨d, segment⟩
  cases hindex : d.memberIndex? name with
  | none => simp [hindex]
  | some index => simp [hindex, Place.shift]

/-- Bases are searched in order. -/
theorem findMember?_eq (bases : List NativeClass) (name : String) :
    (of bases).findMember? name
      = (ranges 0 bases).findSome? fun b => findFrom? b.start b.base name := by
  have hdown : ∀ b ∈ (of bases).bases,
      (of bases).segmentsDown b = (b.base.flatten.zipIdx b.start).reverse := by
    intro b hb
    rw [segmentsDown, segmentsIn_of hb]
  have hbases : (of bases).bases = ranges 0 bases := rfl
  simp only [findMember?, findMemberWhere?, Bool.and_true]
  rw [hbases] at hdown ⊢
  generalize ranges 0 bases = bs at hdown ⊢
  induction bs with
  | nil => rfl
  | cons b bs ih =>
      rw [List.findSome?_cons, List.findSome?_cons, hdown b List.mem_cons_self,
        ih fun b' hb' => hdown b' (List.mem_cons_of_mem b hb')]
      rfl

theorem ranges_append (start : Nat) (before after : List NativeClass) :
    ranges start (before ++ after)
      = ranges start before ++ ranges (start + width before) after := by
  induction before generalizing start with
  | nil => rfl
  | cons b before ih =>
      simp only [List.cons_append, ranges, ih, width, List.flatMap_cons, List.length_append,
        Nat.add_assoc]

/-- A search goes through the bases before one, that one, and those after it. -/
theorem findMember?_split (before : List NativeClass) (b : NativeClass) (after : List NativeClass)
    (name : String) :
    (of (before ++ b :: after)).findMember? name
      = ((of before).findMember? name).or
          ((((of [b]).findMember? name).map (Place.shift (width before))).or
            ((ranges (width before + b.flatten.length) after).findSome? fun c =>
              findFrom? c.start c.base name)) := by
  have hone : (of [b]).findMember? name = findFrom? 0 b name := by
    rw [findMember?_eq]
    simp [ranges]
  rw [findMember?_eq, ranges_append, List.findSome?_append, ← findMember?_eq, hone, ranges,
    List.findSome?_cons, Nat.zero_add, findFrom?_shift]
  cases findFrom? 0 b name <;> rfl

/-- What is found has its segment among those of the bases. -/
theorem segment_lt_width {bases : List NativeClass}
    (hfind : (of bases).findMember? name = some p) : p.segment < width bases := by
  obtain ⟨d, hd, -⟩ := memberDecl_of_find hfind
  obtain ⟨c, hc, -⟩ := Option.bind_eq_some_iff.mp hd
  exact (List.getElem?_eq_some_iff.mp hc).1

/-- The members of a base are declared as in an instance of that base alone. -/
theorem memberDecl_shift (before : List NativeClass) (b : NativeClass) (after : List NativeClass)
    (hp : p.segment < width [b]) :
    (of (before ++ b :: after)).memberDecl? (p.shift (width before)) = (of [b]).memberDecl? p := by
  have hsegments : (of (before ++ b :: after)).segments[width before + p.segment]?
      = (of [b]).segments[p.segment]? := by
    have hlt : p.segment < b.flatten.length := by simpa [width] using hp
    simp only [of, List.flatMap_append, List.flatMap_cons, List.flatMap_nil, List.append_nil]
    rw [List.getElem?_append_right (by simp [width]), width, Nat.add_sub_cancel_left,
      List.getElem?_append_left hlt]
  simp only [memberDecl?, Place.shift, hsegments]

/-- A base's own member is found just if no base before it has one of the name. -/
theorem findMember?_own_iff {before : List NativeClass} {b : NativeClass}
    {after : List NativeClass} (hown : (of [b]).findMember? name = some p) :
    (of (before ++ b :: after)).findMember? name = some (p.shift (width before))
      ↔ (of before).findMember? name = none := by
  rw [findMember?_split, hown]
  constructor
  · intro hfind
    cases hbefore : (of before).findMember? name with
    | none => rfl
    | some q =>
        -- What is found before lies before all segments of the base.
        rw [hbefore] at hfind
        have hq := segment_lt_width hbefore
        obtain rfl : q = p.shift (width before) := Option.some.inj hfind
        exact absurd hq (Nat.not_lt.mpr (Nat.le_add_right _ _))
  · intro hbefore
    rw [hbefore]
    rfl

theorem findMember?_before {before after : List NativeClass} {b : NativeClass}
    (hbefore : (of before).findMember? name = some q) :
    (of (before ++ b :: after)).findMember? name = some q ∧ q.segment < width before := by
  refine ⟨?_, segment_lt_width hbefore⟩
  rw [findMember?_split, hbefore]
  rfl

end Layout

/-- Whether from a segment on a twin stores what is in the first segments of another. -/
def Twin.Mirrors (offset count : Nat) (a b : Twin) : Prop :=
  ∀ p : Place, p.segment < count → a.valueAt? (p.shift offset) = b.valueAt? p

theorem Place.shift_inj {offset : Nat} {p q : Place} : p.shift offset = q.shift offset ↔ p = q := by
  cases p
  cases q
  simp [Place.shift]

section Instances

open Hold Layout

variable {w : World} {R : Hold} {t t' : TwinId} {a a' : Twin} {before after : List NativeClass}
  {b : NativeClass} {name : String} {p : Place}

/-- Code of a base that names a member which no base before has reads what it reads on an
instance of the base alone that holds the same values. -/
theorem World.getField_mirrors (ha : w.twins[t]? = some a) (ha' : w.twins[t']? = some a')
    (hshaped : a'.Shaped) (hlayout : a.layout = .of (before ++ b :: after))
    (halone : a'.layout = .of [b]) (hmirrors : a.Mirrors (width before) (width [b]) a')
    (hown : (Layout.of [b]).findMember? name = some p)
    (hfirst : (Layout.of before).findMember? name = none) :
    (getField t name w).1 = (getField t' name w).1 := by
  obtain ⟨d, hd, -⟩ := memberDecl_of_find hown
  obtain ⟨v, hv⟩ := hshaped.valueAt (halone ▸ hd)
  have hvalue : a.valueAt? (p.shift (width before)) = some v :=
    (hmirrors p (segment_lt_width hown)).trans hv
  have hfind : (of (before ++ b :: after)).findMember? name = some (p.shift (width before)) :=
    (findMember?_own_iff hown).mpr hfirst
  simp [getField, readMember, twin_eq ha, twin_eq ha', hlayout, halone, hfind, hown, hvalue, hv]

/-- What a twin stores after an assignment, whether the value fitted or not. -/
theorem World.valueAt_writeMember {d : MemberDecl} {context : String} {v : NativeValue}
    (hreach : Reachable w (R + v.hold)) (hlent : Lends R t)
    (hdecl : (w.twin t).layout.memberDecl? p = some d) (q : Place) :
    ((writeMember t p d context v w).2.twin t).valueAt? q
      = ((v.coerce w.census d.type).filter fun _ => q = p).or ((w.twin t).valueAt? q) := by
  cases hcoerce : v.coerce w.census d.type with
  | some c =>
      have hok : (writeMember t p d context v w).1 = .ok () := by simp [writeMember, hcoerce]
      obtain ⟨c', hc, hwritten⟩ := writeMember_writes hreach hlent hdecl hok
      obtain rfl : c = c' := Option.some.inj (hcoerce.symm.trans hc)
      rw [hwritten]
      by_cases hq : q = p <;> simp [hq, Option.filter]
  | none =>
      have hframe : R + v.hold = 0 + R + v.hold := by rw [zero_add]
      have hdropped : (writeMember t p d context v w).2 = w.drop v.handles := by
        simp [writeMember, hcoerce]
      have hend := writeMember_safe hlent hdecl context v 0 (hframe ▸ hreach)
      obtain ⟨b, hb, hlive⟩ := Reachable.live_of_lent ((hframe ▸ hreach).along hend) hlent
      obtain ⟨a, ha, -⟩ := hlent.left.live hreach.invariant
      rw [hdropped] at hb ⊢
      obtain ⟨hstorage, -⟩ := (Untouched.drop w v.handles t).twin_eq ha hb hlive
      rw [twin_eq hb, twin_eq ha, Twin.valueAt?, hstorage]
      rfl

/-- Code of a base that assigns a member which no base before has does what it does on an
instance of the base alone that holds the same values, and both hold the same again. -/
theorem World.setField_mirrors {v : NativeValue} (hreach : Reachable w (R + v.hold))
    (hlent : Lends R t) (hlent' : Lends R t')
    (hlayout : (w.twin t).layout = .of (before ++ b :: after))
    (halone : (w.twin t').layout = .of [b])
    (hmirrors : (w.twin t).Mirrors (width before) (width [b]) (w.twin t'))
    (hown : (Layout.of [b]).findMember? name = some p)
    (hfirst : (Layout.of before).findMember? name = none) :
    (setField t name v w).1 = (setField t' name v w).1
      ∧ ((setField t name v w).2.twin t).Mirrors (width before) (width [b])
        ((setField t' name v w).2.twin t') := by
  obtain ⟨d, hdecl, -⟩ := memberDecl_of_find hown
  have hshifted := memberDecl_shift before b after (segment_lt_width hown)
  have hfind : (of (before ++ b :: after)).findMember? name = some (p.shift (width before)) :=
    (findMember?_own_iff hown).mpr hfirst
  have hwrites : setField t name v w
      = writeMember t (p.shift (width before)) d ("member '" ++ name ++ "'") v w := by
    simp [setField, hlayout, hfind, hshifted, hdecl]
  have hwrites' : setField t' name v w
      = writeMember t' p d ("member '" ++ name ++ "'") v w := by
    simp [setField, halone, hown, hdecl]
  rw [hwrites, hwrites']
  constructor
  · cases hcoerce : v.coerce w.census d.type <;> simp [writeMember, hcoerce]
  · intro q hq
    rw [valueAt_writeMember hreach hlent (by rw [hlayout, hshifted, hdecl]),
      valueAt_writeMember hreach hlent' (by rw [halone, hdecl]), hmirrors q hq]
    simp only [Place.shift_inj]

end Instances

/-- Members of one name that several bases declare are apart, and each is declared in the
segments of its base as in an instance of that alone.  By its name code of a base finds the
base's own member just if no base before has one of the name, and else that of such a base.
In the first case code that names the member reads and writes as on an instance of the base
alone that holds the same values. -/
theorem members_of_bases (before after : List NativeClass) (b : NativeClass) (name : String)
    (p : Place) :
    ((Layout.of [b]).findMember? name = some p →
      let l := Layout.of (before ++ b :: after)
      l.memberDecl? (p.shift (Layout.width before)) = (Layout.of [b]).memberDecl? p
      ∧ (l.findMember? name = some (p.shift (Layout.width before))
        ↔ (Layout.of before).findMember? name = none)
      ∧ ∀ q, (Layout.of before).findMember? name = some q →
        l.findMember? name = some q ∧ q.segment < Layout.width before)
    ∧ ∀ (w : World) (R : Hold) (t t' : TwinId) (a a' : Twin), Attained w R →
      w.twins[t]? = some a → w.twins[t']? = some a' → a'.isReleased = false →
        a.layout = .of (before ++ b :: after) → a'.layout = .of [b] →
          a.Mirrors (Layout.width before) (Layout.width [b]) a' →
            (Layout.of [b]).findMember? name = some p →
              (Layout.of before).findMember? name = none →
        (World.getField t name w).1 = (World.getField t' name w).1
        ∧ ∀ (v : NativeValue) (S : Hold), R = S + v.hold → S.Lends t → S.Lends t' →
          (World.setField t name v w).1 = (World.setField t' name v w).1
          ∧ ((World.setField t name v w).2.twin t).Mirrors (Layout.width before)
            (Layout.width [b]) ((World.setField t' name v w).2.twin t') := by
  constructor
  · intro hown
    exact ⟨Layout.memberDecl_shift before b after (Layout.segment_lt_width hown),
      Layout.findMember?_own_iff hown, fun q hq => Layout.findMember?_before hq⟩
  · rintro w R t t' a a' ⟨ids, hreach, -⟩ ha ha' hlive hlayout halone hmirrors hown hfirst
    have hshaped : a'.Shaped :=
      hreach.invariant.formed.shaped t' a' ha' (by simpa [Twin.isReleased] using hlive)
    refine ⟨World.getField_mirrors ha ha' hshaped hlayout halone hmirrors hown hfirst,
      fun v S hR hlent hlent' => ?_⟩
    rw [hR, ← add_assoc] at hreach
    rw [← World.twin_eq ha] at hlayout hmirrors
    rw [← World.twin_eq ha'] at halone hmirrors
    exact World.setField_mirrors hreach hlent.right hlent'.right hlayout halone hmirrors hown hfirst

/-- Two bases with a member of one name: code of the second finds the member of the first,
although the instance holds what an instance of the second alone holds. -/
theorem member_of_other_base :
    let declared (id : Nat) (name : String) (value : Int64) : NativeClass :=
      { (default : NativeClass) with
        id := ⟨id⟩, name, members := [⟨"value", .int, .everyone, .int value⟩] }
    let c : DynamicClass :=
      { (default : DynamicClass) with
        composition := ⟨[declared 0 "B1" 1, declared 1 "B2" 2], default⟩ }
    let w : World :=
      { (default : World) with
        twins := #[.fresh 0 (.dynamic c) .native, .fresh 0 (.native (declared 1 "B2" 2)) .native] }
    (w.twin 0).Mirrors 1 1 (w.twin 1)
    ∧ (World.getField 0 "value" w).1 = .ok (.int 1)
    ∧ (World.getField 1 "value" w).1 = .ok (.int 2) := by
  refine ⟨fun p hp => ?_, rfl, rfl⟩
  obtain ⟨segment, index⟩ := p
  obtain rfl : segment = 0 := Nat.lt_one_iff.mp hp
  rfl

end TwinObject
