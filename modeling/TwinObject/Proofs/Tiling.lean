/-
How the segments of a hierarchy lie.  Every class has one segment, right behind those of its
parents, so that the segments of each ancestor lie together and end with its own; the bases of
a layout lie one after another and leave no gap.  What a recursion over the tree of classes
tells is then read off the flat list.
-/
import TwinObject.Proofs.BaseCalls
import TwinObject.Proofs.Compositions
import TwinObject.Proofs.Visibility

namespace TwinObject

namespace NativeClass

mutual

/-- A lineage names the segments, in another order. -/
theorem ids_perm_lineage : (c : NativeClass) → (c.flatten.map NativeClass.id).Perm c.lineage
  | ⟨_, _, parents, _, _, _, _, _, _, _⟩ => by
      rw [flatten, lineage, List.map_append]
      exact (List.perm_append_singleton _ _).trans ((ids_perm_lineages parents).cons _)

theorem ids_perm_lineages : (cs : List NativeClass) →
    ((flattenAll cs).map NativeClass.id).Perm (lineages cs)
  | [] => .refl _
  | c :: cs => by
      rw [flattenAll, lineages, List.map_append]
      exact (ids_perm_lineage c).append (ids_perm_lineages cs)

end

mutual

/-- A member can be seen in a class if it can be seen in one of the segments. -/
theorem hasVisibleMember_iff (name : String) (fromDerived : Bool) : (c : NativeClass) →
    (c.hasVisibleMember name fromDerived = true
      ↔ ∃ s ∈ c.flatten, ∃ m ∈ s.members, m.name = name ∧ m.access.visible fromDerived = true)
  | ⟨_, _, parents, _, _, _, _, _, _, _⟩ => by
      simp only [hasVisibleMember, flatten, Bool.or_eq_true, List.any_eq_true, Bool.and_eq_true,
        decide_eq_true_eq, anyHasVisibleMember_iff name fromDerived parents, List.mem_append,
        List.mem_singleton, or_and_right, exists_or, exists_eq_left]
      exact or_comm

theorem anyHasVisibleMember_iff (name : String) (fromDerived : Bool) : (cs : List NativeClass) →
    (anyHasVisibleMember name fromDerived cs = true
      ↔ ∃ s ∈ flattenAll cs, ∃ m ∈ s.members, m.name = name
        ∧ m.access.visible fromDerived = true)
  | [] => by simp [anyHasVisibleMember, flattenAll]
  | c :: cs => by
      simp only [anyHasVisibleMember, flattenAll, Bool.or_eq_true, List.mem_append, or_and_right,
        exists_or, hasVisibleMember_iff name fromDerived c,
        anyHasVisibleMember_iff name fromDerived cs]

end

/-- Whether the segments of every class in a list end where its own is, in the list. -/
def Nested (cs : List NativeClass) : Prop :=
  ∀ (i : Nat) (d : NativeClass), cs[i]? = some d → d.flatten <:+ cs.take (i + 1)

theorem Nested.append {as bs : List NativeClass} (has : Nested as) (hbs : Nested bs) :
    Nested (as ++ bs) := by
  intro i d hd
  rcases Nat.lt_or_ge i as.length with hi | hi
  · rw [List.getElem?_append_left hi] at hd
    rw [List.take_append_of_le_length hi]
    exact has i d hd
  · rw [List.getElem?_append_right hi] at hd
    have hlater := hbs _ d hd
    rw [List.take_append, List.take_of_length_le (by omega), Nat.sub_add_comm hi]
    exact hlater.trans (List.suffix_append _ _)

/-- The last segment of a class is its own. -/
theorem nested_of_parents (c : NativeClass) (h : Nested (flattenAll c.parents)) :
    Nested c.flatten := by
  rw [flatten_eq]
  intro i d hd
  rcases Nat.lt_or_ge i (flattenAll c.parents).length with hi | hi
  · rw [List.getElem?_append_left hi] at hd
    rw [List.take_append_of_le_length hi]
    exact h i d hd
  · rw [List.getElem?_append_right hi, List.getElem?_singleton] at hd
    split at hd
    · obtain rfl := Option.some.inj hd
      have hall : (flattenAll c.parents ++ [c]).take (i + 1) = c.flatten := by
        rw [flatten_eq]
        refine List.take_of_length_le ?_
        rw [List.length_append, List.length_singleton]
        omega
      exact ⟨[], hall.symm⟩
    · cases hd

mutual

theorem nested_flatten : (c : NativeClass) → Nested c.flatten
  | ⟨_, _, parents, _, _, _, _, _, _, _⟩ => nested_of_parents _ (nested_flattenAll parents)

theorem nested_flattenAll : (cs : List NativeClass) → Nested (flattenAll cs)
  | [] => fun _ _ hd => nomatch hd
  | c :: cs => (nested_flatten c).append (nested_flattenAll cs)

end

end NativeClass

namespace Layout

/-- Whether bases lie one after another, without a gap, from one position to another. -/
inductive Spans : Nat → List BaseRange → Nat → Prop
  | nil (start : Nat) : Spans start [] start
  | cons {b : BaseRange} {bs : List BaseRange} {stop : Nat}
      (hstop : b.stop = b.start + b.base.segmentCount) (hrest : Spans b.stop bs stop) :
      Spans b.start (b :: bs) stop

namespace Spans

variable {start stop : Nat} {bs : List BaseRange}

theorem within (h : Spans start bs stop) :
    start ≤ stop ∧ ∀ b ∈ bs, start ≤ b.start ∧ b.stop = b.start + b.base.segmentCount
      ∧ b.stop ≤ stop := by
  induction h with
  | nil start => exact ⟨le_rfl, nofun⟩
  | cons hstop _ ih =>
      obtain ⟨hle, hrest⟩ := ih
      refine ⟨by omega, List.forall_mem_cons.mpr ⟨⟨le_rfl, hstop, hle⟩, fun c hc => ?_⟩⟩
      obtain ⟨hfirst, hwidth, hlast⟩ := hrest c hc
      exact ⟨by omega, hwidth, hlast⟩

/-- No two bases have a position in common. -/
theorem apart (h : Spans start bs stop) : bs.Pairwise fun a b => a.stop ≤ b.start := by
  induction h with
  | nil => exact .nil
  | cons hstop hrest ih => exact .cons (fun c hc => (hrest.within.2 c hc).1) ih

/-- Every position is one of some base. -/
theorem covers (h : Spans start bs stop) {i : Nat} (hstart : start ≤ i) (hstop : i < stop) :
    ∃ b ∈ bs, b.start ≤ i ∧ i < b.stop := by
  induction h with
  | nil => omega
  | @cons b bs stop hwidth _ ih =>
      rcases Nat.lt_or_ge i b.stop with hi | hi
      · exact ⟨b, List.mem_cons_self, hstart, hi⟩
      · obtain ⟨c, hc, hin⟩ := ih hi hstop
        exact ⟨c, List.mem_cons_of_mem b hc, hin⟩

/-- Bases that have a position in common are the same. -/
theorem eq_of_shared (h : Spans start bs stop) {a b : BaseRange} (ha : a ∈ bs) (hb : b ∈ bs)
    {i : Nat} (hia : a.start ≤ i ∧ i < a.stop) (hib : b.start ≤ i ∧ i < b.stop) : a = b := by
  induction h with
  | nil => cases ha
  | cons _ hrest ih =>
      have hbehind := fun c hc => (hrest.within.2 c hc).1
      rcases List.mem_cons.mp ha with rfl | ha'
      · rcases List.mem_cons.mp hb with rfl | hb'
        · rfl
        · have := hbehind b hb'
          omega
      · rcases List.mem_cons.mp hb with rfl | hb'
        · have := hbehind a ha'
          omega
        · exact ih ha' hb'

end Spans

variable {l : Layout} {b : BaseRange} {c : NativeClass} {name : String}
  {eligible : MemberDecl → Bool} {p : Place}

/-- The segments of a base are searched from the last to the first. -/
theorem descending_segmentsDown (l : Layout) (b : BaseRange) :
    (l.segmentsDown b).Pairwise fun x y => y.2 < x.2 := by
  rw [segmentsDown, List.pairwise_reverse]
  have hpositions : (((l.segmentsIn b).zipIdx b.start).map Prod.snd).Pairwise (· < ·) := by
    rw [List.zipIdx_map_snd]
    exact List.pairwise_lt_range' 1
  exact List.pairwise_map.mp hpositions

/-- A member that is found is one that was asked for, and none of the segments behind it in its
base has one. -/
theorem of_findMemberWhere (hfind : l.findMemberWhere? name eligible = some p) :
    ∃ b ∈ l.bases, b.start ≤ p.segment ∧ p.segment < b.stop
      ∧ (∃ c m, l.segments[p.segment]? = some c ∧ c.members[p.index]? = some m ∧ m.name = name
        ∧ eligible m = true)
      ∧ ∀ i d, p.segment < i → i < b.stop → l.segments[i]? = some d → ∀ m ∈ d.members,
        m.name = name → eligible m = false := by
  obtain ⟨b, hb, hfound⟩ := List.exists_of_findSome?_eq_some hfind
  obtain ⟨before, ⟨c, segment⟩, after, hdown, hplace, hbefore⟩ :=
    List.findSome?_eq_some_iff.mp hfound
  obtain ⟨index, hindex, rfl⟩ := Option.map_eq_some_iff.mp hplace
  obtain ⟨hlt, hfits, -⟩ := List.findIdx?_eq_some_iff_getElem.mp hindex
  rw [Bool.and_eq_true, decide_eq_true_eq] at hfits
  have hself : (c, segment) ∈ l.segmentsDown b := by simp [hdown]
  obtain ⟨hstart, hstop, hsegment⟩ := mem_segmentsDown_iff.mp hself
  have hmember : c.members[index]? = some c.members[index] := List.getElem?_eq_getElem hlt
  refine ⟨b, hb, hstart, hstop, ⟨c, c.members[index], hsegment, hmember, hfits⟩,
    fun i d hi hstop hd m hm hname => ?_⟩
  have horder := descending_segmentsDown l b
  have hmem : (d, i) ∈ l.segmentsDown b :=
    mem_segmentsDown_iff.mpr ⟨hstart.trans hi.le, hstop, hd⟩
  rw [hdown] at hmem horder
  have hearlier : (d, i) ∈ before := by
    rcases List.mem_append.mp hmem with h | h
    · exact h
    · rcases List.mem_cons.mp h with h | h
      · cases h
        exact absurd hi (Nat.lt_irrefl _)
      · have hlater := (List.pairwise_cons.mp (List.pairwise_append.mp horder).2.1).1 _ h
        exact absurd hi (Nat.lt_asymm hlater)
  have hnone := Option.map_eq_none_iff.mp (hbefore _ hearlier)
  have hunfit := List.findIdx?_eq_none_iff.mp hnone m hm
  simpa [hname] using hunfit

/-- How the segments of an instance lie.  The bases go through all of them in order, without a
gap, so that each segment is in just one of them; each base has its own segments, and so has each
class among them.  No class is there twice.  And no class that derives from the one in which a
member is found has an eligible member of that name. -/
structure Tiled (l : Layout) : Prop where
  spans : Spans 0 l.bases l.segments.length
  apart : l.bases.Pairwise fun a b => a.stop ≤ b.start
  covers : ∀ i < l.segments.length, ∃! b, b ∈ l.bases ∧ b.start ≤ i ∧ i < b.stop
  own : ∀ b ∈ l.bases, l.segmentsIn b = b.base.flatten
  distinct : (l.segments.map NativeClass.id).Nodup
  nested : ∀ b ∈ l.bases, ∀ i d, b.start ≤ i → i < b.stop → l.segments[i]? = some d →
    ∃ start, b.start ≤ start ∧ start + d.segmentCount = i + 1
      ∧ (l.segments.drop start).take d.segmentCount = d.flatten
  unshadowed : ∀ name eligible p, l.findMemberWhere? name eligible = some p →
    ∃ c m, l.segments[p.segment]? = some c ∧ c.members[p.index]? = some m ∧ m.name = name
      ∧ eligible m = true ∧ ∀ d ∈ l.segments, c.id ∈ NativeClass.lineages d.parents →
        ∀ m ∈ d.members, m.name = name → eligible m = false

theorem spans_ranges (start : Nat) (cs : List NativeClass) :
    Spans start (ranges start cs) (start + NativeClass.segmentCounts cs) := by
  induction cs generalizing start with
  | nil => exact .nil start
  | cons c cs ih =>
      rw [ranges, NativeClass.segmentCounts, ← Nat.add_assoc, NativeClass.segmentCount_eq]
      refine .cons (b := ⟨c, start, _⟩) ?_ (ih _)
      rw [NativeClass.segmentCount_eq]

theorem bases_of (bases : List NativeClass) :
    (of bases).bases.map BaseRange.base = bases := by
  have hranges : ∀ start, (ranges start bases).map BaseRange.base = bases := by
    induction bases with
    | nil => exact fun _ => rfl
    | cons b bases ih => exact fun start => congrArg (b :: ·) (ih _)
  exact hranges 0

theorem segments_of (bases : List NativeClass) :
    (of bases).segments = NativeClass.flattenAll bases :=
  (NativeClass.flattenAll_eq bases).symm

variable {bases : List NativeClass}

theorem spans_of (bases : List NativeClass) :
    Spans 0 (of bases).bases (of bases).segments.length := by
  have hspans := spans_ranges 0 bases
  rwa [Nat.zero_add, NativeClass.segmentCounts_eq, ← segments_of] at hspans

/-- Every class of a base has its hierarchy right before it, within the base. -/
theorem nested_of (hb : b ∈ (of bases).bases) {i : Nat} {d : NativeClass} (hstart : b.start ≤ i)
    (hstop : i < b.stop) (hd : (of bases).segments[i]? = some d) :
    ∃ start, b.start ≤ start ∧ start + d.segmentCount = i + 1
      ∧ ((of bases).segments.drop start).take d.segmentCount = d.flatten := by
  obtain ⟨-, hwidth, -⟩ := (spans_of bases).within.2 b hb
  have hown := segmentsIn_of hb
  rw [segmentsIn, List.drop_take] at hown
  have hthere : b.base.flatten[i - b.start]? = some d := by
    rw [← hown, List.getElem?_take_of_lt (by omega), List.getElem?_drop,
      Nat.add_sub_cancel' hstart, hd]
  have hsuffix := NativeClass.nested_flatten b.base _ d hthere
  have hlength : (b.base.flatten.take (i - b.start + 1)).length = i - b.start + 1 := by
    rw [List.length_take, ← NativeClass.segmentCount_eq]
    omega
  have hle := hsuffix.length_le
  rw [hlength, ← NativeClass.segmentCount_eq] at hle
  refine ⟨b.start + (i - b.start + 1 - d.segmentCount), by omega, by omega, ?_⟩
  rw [List.suffix_iff_eq_drop, hlength, ← NativeClass.segmentCount_eq] at hsuffix
  rw [hsuffix, ← hown, List.take_take, Nat.min_eq_left (by omega), List.drop_take, List.drop_drop]
  congr 1
  omega

/-- A layout of classes that have no segment in common. -/
theorem tiled_of (hdistinct : ((of bases).segments.map NativeClass.id).Nodup) :
    (of bases).Tiled where
  spans := spans_of bases
  apart := (spans_of bases).apart
  covers i hi := by
    obtain ⟨b, hb, hin⟩ := (spans_of bases).covers (Nat.zero_le i) hi
    exact ⟨b, ⟨hb, hin⟩, fun c hc => (spans_of bases).eq_of_shared hc.1 hb hc.2 hin⟩
  own b hb := segmentsIn_of hb
  distinct := hdistinct
  nested b hb i d := nested_of hb
  unshadowed name eligible p hfind := by
    obtain ⟨b, hb, hstart, hstop, ⟨c, m, hc, hm, hname, heligible⟩, hbehind⟩ :=
      of_findMemberWhere hfind
    refine ⟨c, m, hc, hm, hname, heligible, fun d hd hderives => ?_⟩
    obtain ⟨j, hj⟩ := List.mem_iff_getElem?.mp hd
    obtain ⟨b', hb', hstart', hstop'⟩ :=
      (spans_of bases).covers (Nat.zero_le j) (List.getElem?_eq_some_iff.mp hj).1
    obtain ⟨start, hwithin, hwidth, hflatten⟩ := nested_of hb' hstart' hstop' hj
    -- The ancestor is among the segments right before the class, and nowhere else.
    obtain ⟨s, hs, hid⟩ := (NativeClass.mem_lineages_iff c.id d.parents).mp hderives
    obtain ⟨k, hk⟩ := List.mem_iff_getElem?.mp hs
    have hbefore := (List.getElem?_eq_some_iff.mp hk).1
    rw [NativeClass.segmentCount_eq, NativeClass.flatten_eq, List.length_append,
      List.length_singleton] at hwidth
    have hplace : (of bases).segments[start + k]? = some s := by
      have htaken : ((of bases).segments.drop start)[k]? = d.flatten[k]? := by
        rw [← hflatten, List.getElem?_take_of_lt]
        rw [NativeClass.segmentCount_eq, NativeClass.flatten_eq, List.length_append,
          List.length_singleton]
        omega
      rw [List.getElem?_drop, NativeClass.flatten_eq, List.getElem?_append_left hbefore, hk]
        at htaken
      exact htaken
    have hsame : p.segment = start + k := by
      refine (List.getElem?_inj ?_ hdistinct).mp ?_
      · rw [List.length_map]
        exact (List.getElem?_eq_some_iff.mp hc).1
      · rw [List.getElem?_map, List.getElem?_map, hc, hplace, Option.map_some, Option.map_some, hid]
    have hbase : b' = b := (spans_of bases).eq_of_shared hb' hb (i := p.segment)
      ⟨by omega, by omega⟩ ⟨hstart, hstop⟩
    subst hbase
    exact hbehind j d (by omega) hstop' hj

/-- A member is found if some segment has one that was asked for. -/
theorem isSome_findMemberWhere (bases : List NativeClass) (name : String)
    (eligible : MemberDecl → Bool) :
    ((of bases).findMemberWhere? name eligible).isSome = true
      ↔ ∃ s ∈ (of bases).segments, ∃ m ∈ s.members, m.name = name ∧ eligible m = true := by
  constructor
  · intro hsome
    obtain ⟨p, hp⟩ := Option.isSome_iff_exists.mp hsome
    obtain ⟨-, -, -, -, ⟨c, m, hc, hm, hfits⟩, -⟩ := of_findMemberWhere hp
    exact ⟨c, List.mem_of_getElem? hc, m, List.mem_of_getElem? hm, hfits⟩
  · rintro ⟨s, hs, m, hm, hname, heligible⟩
    by_contra hnone
    rw [Bool.not_eq_true, Option.isSome_eq_false_iff, Option.isNone_iff_eq_none] at hnone
    obtain ⟨i, hi⟩ := List.mem_iff_getElem?.mp hs
    obtain ⟨b, hb, hstart, hstop⟩ :=
      (spans_of bases).covers (Nat.zero_le i) (List.getElem?_eq_some_iff.mp hi).1
    have hmissed := List.findSome?_eq_none_iff.mp (List.findSome?_eq_none_iff.mp hnone b hb) (s, i)
      (mem_segmentsDown_iff.mpr ⟨hstart, hstop, hi⟩)
    have hunfit := List.findIdx?_eq_none_iff.mp (Option.map_eq_none_iff.mp hmissed) m hm
    simp [hname, heligible] at hunfit

end Layout

namespace NativeClass

theorem segments_single (c : NativeClass) : (Layout.of [c]).segments = c.flatten := by
  rw [Layout.segments_of, flattenAll, flattenAll, List.append_nil]

/-- Whether what a recursion over the hierarchy of a class tells is told by its flat list of
segments, of which there is one for each id of the lineage. -/
structure Flattens (c : NativeClass) : Prop where
  count : c.flatten.length = c.segmentCount
  ids : (c.flatten.map NativeClass.id).Perm c.lineage
  distinct : c.lineage.Nodup
  isA : ∀ name, c.isA name = (Layout.of [c]).isA name
  visible : ∀ name fromDerived, c.hasVisibleMember name fromDerived
    = ((Layout.of [c]).findVisibleMember? name fromDerived).isSome

theorem flattens_of {c : NativeClass} (hdistinct : (c.flatten.map NativeClass.id).Nodup) :
    c.Flattens where
  count := c.segmentCount_eq.symm
  ids := c.ids_perm_lineage
  distinct := c.ids_perm_lineage.nodup_iff.mp hdistinct
  isA name := by
    rw [Bool.eq_iff_iff, isA_iff, Layout.isA, segments_single, List.any_eq_true]
    simp only [decide_eq_true_eq]
  visible name fromDerived := by
    rw [Bool.eq_iff_iff, hasVisibleMember_iff, Layout.findVisibleMember?,
      Layout.isSome_findMemberWhere, segments_single]

end NativeClass

end TwinObject
