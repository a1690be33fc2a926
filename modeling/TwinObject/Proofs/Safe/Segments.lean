/-
Segments under construction.  The segments of a base lie side by side in the
layout of a twin.  Those that are built and belong to no constructed base yet are
held, and razing them gives them up, in whatever order that is done.
-/
import TwinObject.Proofs.Safe.Host

namespace TwinObject

open Hold

namespace NativeClass

mutual

theorem segmentCount_eq : (c : NativeClass) → c.segmentCount = c.flatten.length
  | ⟨_, _, parents, _, _, _, _, _, _, _⟩ => by
      rw [segmentCount, flatten, List.length_append, segmentCounts_eq parents,
        List.length_singleton]

theorem segmentCounts_eq : (cs : List NativeClass) → segmentCounts cs = (flattenAll cs).length
  | [] => rfl
  | c :: cs => by
      rw [segmentCounts, flattenAll, List.length_append, segmentCount_eq c, segmentCounts_eq cs]

end

mutual

/-- What is destroyed with a class are its segments. -/
theorem destruction_perm : (c : NativeClass) → c.destruction.Perm c.flatten
  | ⟨_, _, parents, _, _, _, _, _, _, _⟩ => by
      rw [destruction, flatten]
      exact ((destructionAll_perm parents).cons _).trans (List.perm_append_singleton _ _).symm

theorem destructionAll_perm : (cs : List NativeClass) → (destructionAll cs).Perm (flattenAll cs)
  | [] => .refl _
  | c :: cs => by
      rw [destructionAll, flattenAll]
      exact List.perm_append_comm.trans ((destruction_perm c).append (destructionAll_perm cs))

end

theorem flattenAll_append (as bs : List NativeClass) :
    flattenAll (as ++ bs) = flattenAll as ++ flattenAll bs := by
  simp only [flattenAll_eq, List.flatMap_append]

end NativeClass

/-- The segments of classes that are built. -/
def Hold.ofBuilt (cs : List NativeClass) : Hold :=
  ofSegments ((NativeClass.flattenAll cs).map NativeClass.id)

namespace Hold

@[simp] theorem ofBuilt_nil : ofBuilt [] = 0 := rfl

theorem ofBuilt_append (as bs : List NativeClass) :
    ofBuilt (as ++ bs) = ofBuilt as + ofBuilt bs := by
  rw [ofBuilt, NativeClass.flattenAll_append, List.map_append, ofSegments_append]
  rfl

theorem ofBuilt_singleton (c : NativeClass) :
    ofBuilt [c] = ofSegments (c.flatten.map NativeClass.id) := by
  rw [ofBuilt, NativeClass.flattenAll, NativeClass.flattenAll, List.append_nil]

/-- The segments of a class are those of its parents and its own. -/
theorem ofBuilt_class (c : NativeClass) :
    ofSegments (c.flatten.map NativeClass.id) = ofBuilt c.parents + {.segment c.id} := by
  rw [NativeClass.flatten_eq, List.map_append, ofSegments_append]
  rfl

theorem coe_segmentTokens (built : List NativeClass) :
    (↑(Construction.segmentTokens built) : Hold) = ofBuilt built := by
  rw [Construction.segmentTokens, ofBuilt, ofSegments, List.map_map]
  rfl

end Hold

namespace World

theorem record_nil (w : World) : w.record [] = w := by
  simp [record]

theorem record_append (w : World) (es fs : List Event) :
    (w.record es).record fs = w.record (es ++ fs) := by
  simp [record]

end World

namespace Path

variable {w : World} {R : Hold}

theorem raze (cs : List NativeClass) :
    Path w (R + ofSegments (cs.map NativeClass.id)) (w.record (cs.map Event.ofRazed)) R := by
  induction cs generalizing w with
  | nil => exact (World.record_nil w).symm ▸ refl.cast (add_zero R) rfl
  | cons c cs ih =>
      have hfirst := (Transition.raze (w := w) (R := R + ofSegments (cs.map NativeClass.id)) c).path
      have hrecord := w.record_append [.ofRazed c] (cs.map Event.ofRazed)
      refine (hfirst.cast ?_ rfl).trans (hrecord ▸ ih)
      rw [List.map_cons, ← List.singleton_append, ofSegments_append, add_comm (ofSegments _),
        ← add_assoc]
      rfl

theorem unwind (built : List NativeClass) :
    Path w (R + ofBuilt built) (Construction.unwind built w) R := by
  refine (raze (NativeClass.destructionAll built)).cast ?_ rfl
  have hperm := (NativeClass.destructionAll_perm built).map NativeClass.id
  rw [ofBuilt, ofSegments, ofSegments]
  exact congrArg (R + ·) (Multiset.coe_eq_coe.mpr (hperm.map _).symm)

end Path

/-- Whether classes lie one after another in the layout of a twin. -/
def World.Places (w : World) (t : TwinId) (cs : List NativeClass) (start : Nat) : Prop :=
  ∃ a, w.twins[t]? = some a ∧
    ∀ (i : Nat) (s : NativeClass), cs[i]? = some s → a.layout.segments[start + i]? = some s

namespace World.Places

variable {w u : World} {t : TwinId} {as bs : List NativeClass} {start : Nat}

theorem mono (hplaces : w.Places t as start) (hpersists : Persists w u) :
    u.Places t as start := by
  obtain ⟨a, ha, hsegments⟩ := hplaces
  obtain ⟨b, hb, hevolves⟩ := hpersists.twins t a ha
  refine ⟨b, hb, ?_⟩
  rw [Twin.layout, hevolves.kind]
  exact hsegments

theorem left (hplaces : w.Places t (as ++ bs) start) : w.Places t as start := by
  obtain ⟨a, ha, hsegments⟩ := hplaces
  refine ⟨a, ha, fun i s hs => hsegments i s ?_⟩
  rw [List.getElem?_append_left (List.getElem?_eq_some_iff.mp hs).1, hs]

theorem right (hplaces : w.Places t (as ++ bs) start) : w.Places t bs (start + as.length) := by
  obtain ⟨a, ha, hsegments⟩ := hplaces
  refine ⟨a, ha, fun i s hs => ?_⟩
  rw [Nat.add_assoc]
  refine hsegments (as.length + i) s ?_
  rw [List.getElem?_append_right (Nat.le_add_right _ _), Nat.add_sub_cancel_left, hs]

/-- A class that lies in the layout can have its segment filled. -/
theorem fits {c : NativeClass} (hplaces : w.Places t [c] start) : Site.Fits ⟨t, start, c⟩ w := by
  obtain ⟨a, ha, hsegments⟩ := hplaces
  exact ⟨a, ha, hsegments 0 c rfl⟩

/-- A base lies where its range says. -/
theorem of_baseRange {a : Twin} (ha : w.twins[t]? = some a) {index : Nat} {b : BaseRange}
    (hbase : a.layout.baseRange? index = some b) : w.Places t b.base.flatten b.start := by
  refine ⟨a, ha, fun i s hs => ?_⟩
  have hmem : b ∈ a.layout.bases := List.mem_of_getElem? hbase
  rw [← Twin.segmentsIn_layout hmem, Layout.segmentsIn, List.getElem?_drop] at hs
  rw [List.getElem?_take] at hs
  split at hs
  · exact hs
  · cases hs

end World.Places

namespace Twin

/-- A segment of the layout is stored, with a value for each member. -/
theorem Shaped.segment {a : Twin} (hshaped : a.Shaped) {i : Nat} {c : NativeClass}
    (hsegment : a.layout.segments[i]? = some c) :
    ∃ old, a.storage[i]? = some old ∧ old.length = c.members.length := by
  have hlength := congrArg (·[i]?) hshaped.storage
  simp only [List.getElem?_map, hsegment, Option.map_some] at hlength
  exact Option.map_eq_some_iff.mp hlength

/-- Writing a segment moves its old values out and the new ones in. -/
theorem contents_setSegment {a : Twin} {i : Nat} {old : List NativeValue}
    (hold : a.storage[i]? = some old) (fresh : List NativeValue) :
    ({ a with storage := a.storage.set i fresh }.contents
      ++ old.flatMap NativeValue.handles).Perm
        (a.contents ++ fresh.flatMap NativeValue.handles) := by
  obtain ⟨hi, rfl⟩ := List.getElem?_eq_some_iff.mp hold
  have hset := flatMap_set_add (fun s : List NativeValue => s.flatMap NativeValue.handles) a.storage
    i hi fresh
  simp only [contents]
  rw [← Multiset.coe_eq_coe]
  simp only [← Multiset.coe_add, List.flatten_eq_flatMap, List.flatMap_assoc, id] at hset ⊢
  rw [add_right_comm, hset, add_right_comm]

end Twin

namespace Site

variable {F R : Hold} {w : World} {s : Site}

/-- The class of a site keeps the handles in its defaults as long as the twin is
lent. -/
theorem held_of_own {T : Hold} (hreach : Reachable w (R + F + T)) (hlent : Lends F s.twin)
    (hfits : s.Fits w) {h : Handle} (hh : h ∈ s.cls.ownHandles) : w.Held (R + F + T) h.twin := by
  obtain ⟨a, ha, hlive⟩ := hreach.live_of_lent hlent
  obtain ⟨b, hb, hsegment⟩ := hfits
  obtain rfl : a = b := Option.some.inj (ha.symm.trans hb)
  exact hreach.invariant.held_of_own (hreach.invariant.keepsKind_of_live ha hlive)
    (List.mem_of_getElem? hsegment) hh

theorem vouches (hlent : Lends F s.twin) (hfits : s.Fits w) :
    Vouches F w (s.cls.constructors.flatMap Constructor.handles) := by
  intro u R hpersists hreach h hh
  have hheld := held_of_own (F := F) (R := R) (T := 0) (by rwa [add_zero]) hlent
    (hfits.mono hpersists) (List.mem_append_right _ hh)
  rwa [add_zero] at hheld

/-- A segment can be reset to defaults that are of their members' types. -/
theorem conforms_setSegment {a : Twin} {i : Nat} {c : NativeClass} {old : List NativeValue}
    (hconforms : w.Conforms a) (hsegment : a.layout.segments[i]? = some c)
    (hold : a.storage[i]? = some old) (hdefaults : ∀ d ∈ c.members, w.Fits d.type d.default) :
    w.Conforms { a with storage := a.storage.set i c.defaultSegment } := by
  intro p v d hv hd
  have hi := (List.getElem?_eq_some_iff.mp hold).1
  by_cases hp : p.segment = i
  · obtain ⟨c', hc', hmember⟩ := Option.bind_eq_some_iff.mp hd
    obtain rfl : c' = c := by
      have hsame : a.layout.segments[i]? = some c' := hp ▸ hc'
      exact Option.some.inj (hsame.symm.trans hsegment)
    simp only [Twin.valueAt?, hp, List.getElem?_set_self hi, NativeClass.defaultSegment] at hv
    simp only [Option.bind_eq_bind, Option.bind_some, List.getElem?_map, hmember, Option.map_some,
      Option.some.injEq] at hv
    exact hv ▸ hdefaults d (List.mem_of_getElem? hmember)
  · refine hconforms p v d ?_ hd
    rwa [Twin.valueAt?, List.getElem?_set_ne (Ne.symm hp)] at hv

/-- Resetting a segment is a path. -/
theorem reset_path (hreach : Reachable w (R + F + 0)) (hlent : Lends F s.twin) (hfits : s.Fits w) :
    Path w (R + F + 0) (Construction.resetSegment s w) (R + F + 0) := by
  obtain ⟨a, ha, hlive⟩ := hreach.live_of_lent hlent
  obtain ⟨b, hb, hsegment⟩ := hfits
  obtain rfl : a = b := Option.some.inj (ha.symm.trans hb)
  obtain ⟨old, hold, hlength⟩ :=
    (hreach.invariant.formed.shaped _ a ha hlive).segment hsegment
  have hretain : Path w (R + F + 0)
      (w.retainAll (s.cls.defaultSegment.flatMap NativeValue.handles))
      (R + F + 0 + ofHandles (s.cls.defaultSegment.flatMap NativeValue.handles)) := by
    refine Path.retainAll _ fun h hh => ?_
    exact hreach.invariant.held_of_default (hreach.invariant.keepsKind_of_live ha hlive)
      (List.mem_of_getElem? hsegment) hh
  have hreset := conforms_setSegment (hreach.invariant.typed.stored _ a ha) hsegment hold
    fun d hd =>
    hreach.invariant.fits_default (hreach.invariant.keepsKind_of_live ha hlive)
      (List.mem_of_getElem? hsegment) hd
  obtain ⟨native, dynamic, ha'⟩ :=
    World.getElem?_retainAll (s.cls.defaultSegment.flatMap NativeValue.handles) ha
  have hshape : (a.storage.set s.segment s.cls.defaultSegment).map List.length
      = a.storage.map List.length := by
    obtain ⟨hi, rfl⟩ := List.getElem?_eq_some_iff.mp hold
    have hsame : s.cls.defaultSegment.length = a.storage[s.segment].length := by
      rw [hlength, NativeClass.defaultSegment, List.length_map]
    rw [List.map_set, hsame, ← List.map_set, List.set_getElem_self]
  have hstore := (Transition.store (R := R + F + 0) ha' hlive
    (a.storage.set s.segment s.cls.defaultSegment) a.attrs a.owner a.moved hshape
    (s.cls.defaultSegment.flatMap NativeValue.handles) (old.flatMap NativeValue.handles)
    (Twin.contents_setSegment hold s.cls.defaultSegment)
    ((hreset.mono hretain.persists).of_eq rfl rfl)
    ((hreach.invariant.tidied _ a ha).of_eq rfl rfl)).path
  rw [Construction.resetSegment, World.twin_eq ha, hold]
  dsimp only
  rw [World.modifyTwin_eq ha']
  exact (hretain.trans hstore).trans (Path.drop _)

end Site

end TwinObject
