/-
Hook balance.  Every segment that was built and not razed since belongs to a
constructed base of a twin, to a construction at work, or to a base that was
built although it was constructed already.
-/
import TwinObject.Proofs.Twins

namespace TwinObject

namespace Event

/-- How often an event tells that a segment of a class was built. -/
def buildsOf (id : NativeId) : Event → Nat
  | built own _ => if own = id then 1 else 0
  | _ => 0

def razesOf (id : NativeId) : Event → Nat
  | razed own _ => if own = id then 1 else 0
  | _ => 0

/-- How often an event tells that a segment of a class was built in the place of
one that stood there. -/
def rebuildsOf (id : NativeId) : Event → Nat
  | rebuilt ids => ids.count id
  | _ => 0

end Event

namespace Layout

theorem segmentsIn_ranges (before bases : List NativeClass) {b : BaseRange}
    (hb : b ∈ ranges before.length bases) :
    (((before ++ bases.flatMap NativeClass.flatten).take b.stop).drop b.start)
      = b.base.flatten := by
  induction bases generalizing before with
  | nil => cases hb
  | cons c bases ih =>
      rw [ranges, List.mem_cons] at hb
      rcases hb with rfl | hb
      · rw [List.flatMap_cons, ← List.append_assoc, List.take_append_of_le_length (by simp),
          List.take_of_length_le (by simp), List.drop_left]
      · rw [List.flatMap_cons, ← List.append_assoc]
        exact ih (before ++ c.flatten) (by simpa using hb)

/-- The segments of a base in a layout are those of its class. -/
theorem segmentsIn_of {bases : List NativeClass} {b : BaseRange} (hb : b ∈ (of bases).bases) :
    (of bases).segmentsIn b = b.base.flatten :=
  segmentsIn_ranges [] bases hb

theorem map_fst_segmentsDown (l : Layout) (b : BaseRange) :
    (l.segmentsDown b).map Prod.fst = (l.segmentsIn b).reverse := by
  rw [segmentsDown, List.map_reverse, List.zipIdx_map_fst]

end Layout

namespace Twin

variable {t : Twin}

theorem segmentsIn_layout {b : BaseRange} (hb : b ∈ t.layout.bases) :
    t.layout.segmentsIn b = b.base.flatten :=
  Layout.segmentsIn_of hb

theorem mem_bases_of_built {b : BaseRange} (hb : b ∈ t.builtBases) : b ∈ t.layout.bases := by
  obtain ⟨p, hp, rfl⟩ := List.mem_map.mp hb
  exact (List.of_mem_zip (List.mem_of_mem_filter hp)).1

/-- The segments of a twin that are built are the ones that are razed. -/
theorem razed_perm_built (t : Twin) : t.razedSegments.Perm t.builtSegments := by
  have hdown : ∀ b ∈ t.builtBases,
      ((t.layout.segmentsDown b).map (·.1)).Perm (t.layout.segmentsIn b) :=
    fun b _ => by
      rw [Layout.map_fst_segmentsDown]
      exact List.reverse_perm _
  exact (List.Perm.flatMap_right _ (List.reverse_perm _)).trans
    (List.Perm.flatMap_left _ hdown)

/-- How many segments of a class stand in constructed bases of a twin. -/
def standing (id : NativeId) (t : Twin) : Nat :=
  (t.builtSegments.map NativeClass.id).count id

theorem standing_of_unconstructed {id : NativeId} (hnone : t.constructed = []) :
    t.standing id = 0 := by
  simp [standing, builtSegments, builtBases, hnone]

theorem flagged_set {α β : Type} (f : α → List β) {as : List α} {flags : List Bool} {i : Nat}
    {a : α} (ha : as[i]? = some a) (hflag : flags[i]? = some false) :
    ((((as.zip (flags.set i true)).filter (·.2)).map (·.1)).flatMap f).Perm
      (f a ++ (((as.zip flags).filter (·.2)).map (·.1)).flatMap f) := by
  induction as generalizing flags i with
  | nil => cases ha
  | cons b as ih =>
      cases flags with
      | nil => cases hflag
      | cons flag flags =>
          cases i with
          | zero =>
              cases ha
              cases hflag
              simp
          | succ i =>
              have hrest := @ih flags i (by simpa using ha) (by simpa using hflag)
              cases flag with
              | false => simpa using hrest
              | true =>
                  simp only [List.set_cons_succ, List.zip_cons_cons, List.filter_cons_of_pos,
                    List.map_cons, List.flatMap_cons]
                  refine (hrest.append_left (f b)).trans ?_
                  rw [← List.append_assoc, ← List.append_assoc]
                  exact List.perm_append_comm.append_right _

/-- A base that is marked as constructed brings its segments. -/
theorem standing_mark {index : Nat} {b : BaseRange} (hbase : t.layout.baseRange? index = some b)
    (hflag : t.constructed[index]? = some false) (id : NativeId) :
    standing id { t with constructed := t.constructed.set index true }
      = t.standing id + (b.base.flatten.map NativeClass.id).count id := by
  have hperm := (flagged_set t.layout.segmentsIn hbase hflag).map NativeClass.id
  have hcount := hperm.count_eq id
  rw [List.map_append, List.count_append, segmentsIn_layout (List.mem_of_getElem? hbase),
    Nat.add_comm] at hcount
  exact hcount

end Twin

namespace World

/-- What the events of the journal amount to. -/
def tell (f : Event → Nat) (w : World) : Nat :=
  (w.journal.toList.map f).sum

theorem tell_record (f : Event → Nat) (w : World) (events : List Event) :
    (w.record events).tell f = w.tell f + (events.map f).sum := by
  simp [tell, record]

/-- How many segments of a class stand in constructed bases. -/
def standing (id : NativeId) (w : World) : Nat :=
  (w.twins.toList.map (Twin.standing id)).sum

theorem total_eq_sum {α : Type} (f : α → Nat) (l : List α) : total f l = (l.map f).sum := by
  induction l with
  | nil => rfl
  | cons a l ih => rw [total, ih, List.map_cons, List.sum_cons]

theorem standing_setTwin {w : World} {t : TwinId} {a : Twin} (ha : w.twins[t]? = some a) (b : Twin)
    (id : NativeId) :
    (w.setTwin t b).standing id + a.standing id = w.standing id + b.standing id := by
  simp only [standing, setTwin, Array.set!_eq_setIfInBounds, ← total_eq_sum]
  exact total_setIfInBounds_add (Twin.standing id) ha b

theorem sum_buildsOf (id : NativeId) (cs : List NativeClass) :
    ((cs.map Event.ofBuilt).map (Event.buildsOf id)).sum = (cs.map NativeClass.id).count id := by
  induction cs with
  | nil => rfl
  | cons c cs ih =>
      simp only [List.map_cons, List.sum_cons, ih, Event.ofBuilt, Event.buildsOf, List.count_cons,
        beq_iff_eq]
      omega

theorem sum_razesOf (id : NativeId) (cs : List NativeClass) :
    ((cs.map Event.ofRazed).map (Event.razesOf id)).sum = (cs.map NativeClass.id).count id := by
  induction cs with
  | nil => rfl
  | cons c cs ih =>
      simp only [List.map_cons, List.sum_cons, ih, Event.ofRazed, Event.razesOf, List.count_cons,
        beq_iff_eq]
      omega

theorem sum_map_eq_zero {f : Event → Nat} {events : List Event} (hf : ∀ e ∈ events, f e = 0) :
    (events.map f).sum = 0 := by
  rw [List.sum_eq_zero_iff_forall_eq_nat]
  simpa using hf

end World

theorem Hold.count_segment (R : Hold) (own id : NativeId) :
    (R + {.segment own}).segments.count id = R.segments.count id + [own].count id := by
  rw [segments, Multiset.filterMap_add, Multiset.count_add, filterMap_single]
  exact congrArg (R.segments.count id + ·) (Multiset.coe_count id [own])

theorem Hold.count_ofSegments (R : Hold) (ids : List NativeId) (id : NativeId) :
    (R + .ofSegments ids).segments.count id = R.segments.count id + ids.count id := by
  rw [segments, Multiset.filterMap_add, Multiset.count_add]
  simp

/-- The balance of hooks in a state. -/
structure Balanced (w : World) (R : Hold) : Prop where
  balance : ∀ id, w.tell (Event.buildsOf id)
    = w.tell (Event.razesOf id) + w.standing id + w.tell (Event.rebuildsOf id) + R.segments.count id
  razed : ∀ (t : TwinId) (a : Twin), w.twins[t]? = some a → a.stage ≠ .live → a.constructed = []
  threaded : ∀ id, w.tell (Event.rebuildsOf id) ≠ 0 → 0 < w.threads.size

namespace Balanced

variable {w w' : World} {R R' : Hold}

theorem initial : Balanced .initial 0 where
  balance id := by
    simp [World.tell, World.standing, World.initial, World.declareInterp]
  razed t a ha := by simp [World.initial, World.declareInterp] at ha
  threaded id hne := by simp [World.tell, World.initial, World.declareInterp] at hne

/-- No segment is built, razed or moved. -/
theorem of_eq (hb : Balanced w R) (htwins : w'.twins = w.twins) (hjournal : w'.journal = w.journal)
    (hthreads : w.threads.size ≤ w'.threads.size) (hsegments : R'.segments = R.segments) :
    Balanced w' R' where
  balance id := by
    have hbalance := hb.balance id
    rw [hsegments]
    simpa only [World.tell, World.standing, htwins, hjournal] using hbalance
  razed t a ha := hb.razed t a (htwins ▸ ha)
  threaded id hne := by
    rw [World.tell, hjournal] at hne
    exact Nat.lt_of_lt_of_le (hb.threaded id hne) hthreads

/-- What is recorded has nothing to do with segments. -/
theorem record (hb : Balanced w R) {e : Event} (hbuilds : ∀ id, e.buildsOf id = 0)
    (hrazes : ∀ id, e.razesOf id = 0) (hrebuilds : ∀ id, e.rebuildsOf id = 0) :
    Balanced (w.record [e]) R where
  balance id := by
    have hbalance := hb.balance id
    have hstanding : (w.record [e]).standing id = w.standing id := rfl
    simp only [World.tell_record, List.map_cons, List.map_nil, List.sum_cons, List.sum_nil,
      hbuilds, hrazes, hrebuilds, hstanding]
    omega
  razed := hb.razed
  threaded id hne := by
    simp only [World.tell_record, List.map_cons, List.map_nil, List.sum_cons, List.sum_nil,
      hrebuilds, Nat.add_zero] at hne
    exact hb.threaded id hne

/-- A twin changes, but not what is constructed of it. -/
theorem setTwin (hb : Balanced w R) {t : TwinId} {a b : Twin} (ha : w.twins[t]? = some a)
    (hkind : b.kind = a.kind) (hconstructed : b.constructed = a.constructed)
    (hstage : b.stage ≠ .live → a.stage ≠ .live) (hsegments : R'.segments = R.segments) :
    Balanced (w.setTwin t b) R' where
  balance id := by
    have hbalance := hb.balance id
    have hset := World.standing_setTwin ha b id
    have hsame : b.standing id = a.standing id := by
      simp only [Twin.standing, Twin.builtSegments, Twin.builtBases, Twin.layout, hkind,
        hconstructed]
    have htell : ∀ f, (w.setTwin t b).tell f = w.tell f := fun f => rfl
    rw [hsegments, htell, htell, htell]
    omega
  razed i c hc hgone := by
    rcases World.of_getElem?_setTwin ha hc with ⟨-, rfl⟩ | ⟨-, hc⟩
    · rw [hconstructed]
      exact hb.razed t a ha (hstage hgone)
    · exact hb.razed i c hc hgone
  threaded := hb.threaded

/-- The segments of a twin are razed when it is released. -/
theorem release (hb : Balanced w R) {t : TwinId} {old a : Twin} (hold : w.twins[t]? = some old)
    (hkind : a.kind = old.kind) (hconstructed : a.constructed = old.constructed)
    (hsegments : R'.segments = R.segments) : Balanced (w.release t a).1 R' where
  balance id := by
    have hbalance := hb.balance id
    have hset := World.standing_setTwin hold a.emptied id
    have hempty : a.emptied.standing id = 0 := Twin.standing_of_unconstructed rfl
    have hrazed : (a.razedSegments.map NativeClass.id).count id = old.standing id := by
      rw [(a.razed_perm_built.map NativeClass.id).count_eq id]
      simp only [Twin.standing, Twin.builtSegments, Twin.builtBases, Twin.layout, hkind,
        hconstructed]
    have hbuilds : ((a.razedSegments.map Event.ofRazed).map (Event.buildsOf id)).sum = 0 :=
      World.sum_map_eq_zero (by simp [Event.ofRazed, Event.buildsOf])
    have hrebuilds : ((a.razedSegments.map Event.ofRazed).map (Event.rebuildsOf id)).sum = 0 :=
      World.sum_map_eq_zero (by simp [Event.ofRazed, Event.rebuildsOf])
    have htell : ∀ f, (w.setTwin t a.emptied).tell f = w.tell f := fun f => rfl
    have hstanding : ((w.release t a).1).standing id = (w.setTwin t a.emptied).standing id := rfl
    rw [hsegments, hstanding]
    simp only [World.release, World.tell_record, List.map_cons, List.sum_cons, hbuilds, hrebuilds,
      World.sum_razesOf, hrazed, htell, Event.buildsOf, Event.razesOf, Event.rebuildsOf]
    omega
  razed i c hc hgone := by
    have hset : (w.setTwin t a.emptied).twins[i]? = some c := hc
    rcases World.of_getElem?_setTwin hold hset with ⟨-, rfl⟩ | ⟨-, hc⟩
    · rfl
    · exact hb.razed i c hc hgone
  threaded id hne := by
    have hrebuilds : ((a.razedSegments.map Event.ofRazed).map (Event.rebuildsOf id)).sum = 0 :=
      World.sum_map_eq_zero (by simp [Event.ofRazed, Event.rebuildsOf])
    have htell : ∀ f, (w.setTwin t a.emptied).tell f = w.tell f := fun f => rfl
    simp only [World.release, World.tell_record, List.map_cons, List.sum_cons, hrebuilds, htell,
      Event.rebuildsOf, Nat.add_zero] at hne
    exact hb.threaded id hne

theorem letGo {h : Handle} (hb : Balanced w R) (hsegments : R'.segments = R.segments) :
    Balanced (w.letGo h).1 R' := by
  have hnote : Balanced (w.record [.overdrawn h]) R :=
    hb.record (fun _ => rfl) (fun _ => rfl) fun _ => rfl
  unfold World.letGo
  split
  · exact hnote.of_eq rfl rfl (Nat.le_refl _) hsegments
  · rename_i a ha
    have hbase : Balanced (if a.tally h = 0 then w.record [.overdrawn h] else w) R := by
      split
      · exact hnote
      · exact hb
    have ha' : (if a.tally h = 0 then w.record [.overdrawn h] else w).twins[h.twin]? = some a := by
      split <;> exact ha
    dsimp only
    split
    · exact hbase.release ha' (by cases h <;> rfl) (by cases h <;> rfl) hsegments
    · refine hbase.setTwin ha' (by cases h <;> rfl) (by cases h <;> rfl) ?_ hsegments
      rw [Twin.stage_forget]
      exact id

/-- The segments of a new twin are built when it is admitted. -/
theorem create (hb : Balanced w R) (a : Twin) (hstage : a.stage = .live)
    (hsegments : R'.segments = R.segments) : Balanced (w.admitTwin a).1 R' where
  balance id := by
    have hbalance := hb.balance id
    have hstanding : (w.admitTwin a).1.standing id = w.standing id + a.standing id := by
      simp [World.admitTwin, World.standing, World.record]
    have hbuilt : ((a.builtSegments.map Event.ofBuilt).map (Event.buildsOf id)).sum
        = a.standing id := World.sum_buildsOf id a.builtSegments
    have hrazes : ((a.builtSegments.map Event.ofBuilt).map (Event.razesOf id)).sum = 0 :=
      World.sum_map_eq_zero (by simp [Event.ofBuilt, Event.razesOf])
    have hrebuilds : ((a.builtSegments.map Event.ofBuilt).map (Event.rebuildsOf id)).sum = 0 :=
      World.sum_map_eq_zero (by simp [Event.ofBuilt, Event.rebuildsOf])
    have htell : ∀ f, World.tell f { w with twins := w.twins.push a } = w.tell f := fun f => rfl
    rw [hsegments, hstanding]
    simp only [World.admitTwin, World.tell_record, hbuilt, hrazes, hrebuilds, htell]
    omega
  razed t b hb' hgone := by
    rcases World.of_getElem?_admitTwin hb' with ⟨-, rfl⟩ | ⟨-, hold⟩
    · exact absurd hstage hgone
    · exact hb.razed t b hold hgone
  threaded id hne := by
    have hrebuilds : ((a.builtSegments.map Event.ofBuilt).map (Event.rebuildsOf id)).sum = 0 :=
      World.sum_map_eq_zero (by simp [Event.ofBuilt, Event.rebuildsOf])
    have htell : ∀ f, World.tell f { w with twins := w.twins.push a } = w.tell f := fun f => rfl
    simp only [World.admitTwin, World.tell_record, hrebuilds, htell, Nat.add_zero] at hne
    exact hb.threaded id hne

theorem build (hb : Balanced w R) (c : NativeClass) :
    Balanced (w.record [.ofBuilt c]) (R + {.segment c.id}) where
  balance id := by
    have hbalance := hb.balance id
    have hstanding : (w.record [.ofBuilt c]).standing id = w.standing id := rfl
    have hbuilds : (w.record [.ofBuilt c]).tell (Event.buildsOf id)
        = w.tell (Event.buildsOf id) + [c.id].count id := by
      rw [World.tell_record]
      exact congrArg _ (World.sum_buildsOf id [c])
    have hrazes : (w.record [.ofBuilt c]).tell (Event.razesOf id) = w.tell (Event.razesOf id) :=
      World.tell_record _ _ _
    have hrebuilds : (w.record [.ofBuilt c]).tell (Event.rebuildsOf id)
        = w.tell (Event.rebuildsOf id) := World.tell_record _ _ _
    rw [hbuilds, hrazes, hrebuilds, hstanding, Hold.count_segment]
    omega
  razed := hb.razed
  threaded id hne := hb.threaded id (by rwa [World.tell_record] at hne)

theorem raze {c : NativeClass} (hb : Balanced w (R + {.segment c.id})) :
    Balanced (w.record [.ofRazed c]) R where
  balance id := by
    have hbalance := hb.balance id
    have hstanding : (w.record [.ofRazed c]).standing id = w.standing id := rfl
    have hbuilds : (w.record [.ofRazed c]).tell (Event.buildsOf id) = w.tell (Event.buildsOf id) :=
      World.tell_record _ _ _
    have hrazes : (w.record [.ofRazed c]).tell (Event.razesOf id)
        = w.tell (Event.razesOf id) + [c.id].count id := by
      rw [World.tell_record]
      exact congrArg _ (World.sum_razesOf id [c])
    have hrebuilds : (w.record [.ofRazed c]).tell (Event.rebuildsOf id)
        = w.tell (Event.rebuildsOf id) := World.tell_record _ _ _
    rw [Hold.count_segment] at hbalance
    rw [hbuilds, hrazes, hrebuilds, hstanding]
    omega
  razed := hb.razed
  threaded id hne := hb.threaded id (by rwa [World.tell_record] at hne)

section Mark

variable {t : TwinId} {a : Twin} {index : Nat} {b : BaseRange}

/-- The segments of a base that was constructed already are counted as built once more. -/
theorem rebuild (hb : Balanced w (R + .ofSegments (b.base.flatten.map NativeClass.id)))
    (hthreads : 0 < w.threads.size) :
    Balanced (w.record [.rebuilt (b.base.flatten.map NativeClass.id)]) R where
  balance id := by
    have hbalance := hb.balance id
    rw [Hold.count_ofSegments] at hbalance
    have hstanding : World.standing id
      (w.record [.rebuilt (b.base.flatten.map NativeClass.id)]) = w.standing id := rfl
    simp only [World.tell_record, hstanding, List.map_cons, List.map_nil, List.sum_cons,
      List.sum_nil, Event.buildsOf, Event.razesOf, Event.rebuildsOf]
    omega
  razed := hb.razed
  threaded _ _ := hthreads

/-- The segments of a base come to stand in its twin when it is marked. -/
theorem construct (hb : Balanced w (R + .ofSegments (b.base.flatten.map NativeClass.id)))
    (ha : w.twins[t]? = some a) (hstage : a.stage = .live)
    (hbase : a.layout.baseRange? index = some b) (hflag : a.constructed[index]? = some false) :
    Balanced (w.setTwin t { a with constructed := a.constructed.set index true }) R where
  balance id := by
    have hbalance := hb.balance id
    rw [Hold.count_ofSegments] at hbalance
    have hset := World.standing_setTwin ha
      { a with constructed := a.constructed.set index true } id
    have hmark := Twin.standing_mark hbase hflag id
    have htell : ∀ f, World.tell f
      (w.setTwin t { a with constructed := a.constructed.set index true }) = w.tell f :=
        fun f => rfl
    rw [htell, htell, htell]
    omega
  razed i c hc hgone := by
    rcases World.of_getElem?_setTwin ha hc with ⟨-, rfl⟩ | ⟨-, hc⟩
    · exact absurd hstage hgone
    · exact hb.razed i c hc hgone
  threaded := hb.threaded

/-- The segments of a base come to belong to its twin.  If the base was marked
already they are counted as built once more. -/
theorem mark (hb : Balanced w (R + .ofSegments (b.base.flatten.map NativeClass.id)))
    (ha : w.twins[t]? = some a) (hstage : a.stage = .live) (hshaped : a.Shaped)
    (hbase : a.layout.baseRange? index = some b)
    (hagain : a.constructed[index]? = some true → 0 < w.threads.size) :
    Balanced (Construction.markBuilt t index b.base w) R := by
  have hlt : index < a.constructed.length := by
    rw [hshaped.constructed]
    exact (List.getElem?_eq_some_iff.mp hbase).1
  unfold Construction.markBuilt
  rw [World.twin_eq ha]
  dsimp only
  cases hflag : a.constructed[index]? with
  | none => exact absurd (List.getElem?_eq_none_iff.mp hflag) (Nat.not_le_of_lt hlt)
  | some flag =>
      cases flag with
      | true =>
          have hset : a.constructed.set index true = a.constructed := by
            obtain ⟨hi, hval⟩ := List.getElem?_eq_some_iff.mp hflag
            rw [← hval, List.set_getElem_self]
          have ha' : (w.record [.rebuilt (b.base.flatten.map NativeClass.id)]).twins[t]? = some a :=
            ha
          simp only [Option.getD_some, if_true]
          rw [World.modifyTwin_eq ha']
          exact (hb.rebuild (hagain hflag)).setTwin ha' rfl hset id rfl
      | false =>
          simp only [Option.getD_some, Bool.false_eq_true, if_false]
          rw [World.modifyTwin_eq ha]
          exact hb.construct ha hstage hbase hflag

end Mark

theorem alike (hb : Balanced w R) (halike : w.Alike w') : Balanced w' R :=
  hb.of_eq halike.twins halike.journal (by rw [halike.threads]) rfl

theorem step (hb : Balanced w R) (hf : Formed w R) (hstep : Transition w R w' R') :
    Balanced w' R' := by
  have hthreads := (Persists.of_step hstep).threads
  cases hstep with
  | quiet halike => exact hb.alike halike
  | note text => exact hb.record (fun _ => rfl) (fun _ => rfl) fun _ => rfl
  | panic => exact hb.record (fun _ => rfl) (fun _ => rfl) fun _ => rfl
  | throw t => exact hb.record (fun _ => rfl) (fun _ => rfl) fun _ => rfl
  | recover => exact hb.record (fun _ => rfl) (fun _ => rfl) fun _ => rfl
  | enter => exact hb.record (fun _ => rfl) (fun _ => rfl) fun _ => rfl
  | passGate => exact hb.record (fun _ => rfl) (fun _ => rfl) fun _ => rfl
  | retain hheld =>
      rename_i h
      rw [World.retain]
      cases ha : w.twins[h.twin]? with
      | none =>
          rw [World.modifyTwin_of_none ha]
          exact hb.of_eq rfl rfl (Nat.le_refl _) (by simp)
      | some a =>
          rw [World.modifyTwin_eq ha]
          cases h <;> exact hb.setTwin ha rfl rfl id (by simp)
  | letGo h => exact hb.letGo (by simp)
  | depart htwin hstage =>
      exact hb.setTwin htwin rfl rfl (fun _ hlive => by rw [hstage] at hlive; cases hlive) rfl
  | endClass id =>
      obtain ⟨classes, hframe, -⟩ := w.endClass_frame id
      exact hb.of_eq (by rw [hframe]) (by rw [hframe]) hthreads (by simp)
  | endNative id =>
      obtain ⟨declared, hframe⟩ := w.endNative_frame id
      exact hb.of_eq (by rw [hframe]) (by rw [hframe]) hthreads (by simp)
  | create hnative hdynamic hstage => exact (hb.create _ hstage (by simp))
  | store htwin hstage storage attrs owner moved hshape taken given hbag =>
      exact hb.setTwin htwin rfl rfl id (by simp)
  | fill htwin hfree =>
      rw [World.setFilling, World.modifyTwin_eq htwin]
      exact hb.setTwin htwin rfl rfl id (by simp)
  | unfill t constructed =>
      obtain ⟨a, ha, -, -⟩ := hf.filling_of_held
      rw [World.setFilling, World.modifyTwin_eq ha]
      exact hb.setTwin ha rfl rfl id (by simp)
  | build c => exact hb.build c
  | raze c => exact hb.raze
  | mark htwin hstage hfree hbase hagain =>
      exact hb.mark htwin hstage (hf.shaped _ _ htwin hstage) hbase hagain
  | bind x b =>
      refine hb.of_eq rfl rfl hthreads ?_
      simp only [Multiset.filterMap_add]
      rw [w.filterMap_varHold x (by simp) (by simp) (by simp),
        w.filterMap_bindingHold b (by simp) (by simp) (by simp)]
  | unbind x =>
      refine hb.of_eq rfl rfl hthreads ?_
      simp only [Multiset.filterMap_add]
      rw [w.filterMap_varHold x (by simp) (by simp) (by simp), add_zero]
  | leaveGroup hg => exact hb.of_eq rfl rfl hthreads (by split <;> simp)
  | _ => exact hb.of_eq rfl rfl hthreads (by simp)

end Balanced

end TwinObject
