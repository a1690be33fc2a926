/-
Vectors.  A vector is a list of snapshots.  What is put into it is a new instance that only
the vector holds, and that continues its source as this was; whatever is done afterwards, to
the source or elsewhere, neither the list nor an element changes unless an operation of the
vector or a change to the element does it.  An operation that fails changes nothing.
-/
import TwinObject.Proofs.Copies
import TwinObject.Proofs.Locality
import TwinObject.Proofs.Trials

namespace TwinObject

open Hold

namespace Duplication

/-- A way to duplicate an instance is one to make an instance. -/
def way : Duplication → Reproduction
  | copy => .copy
  | move => .move

/-- What is left of an instance that is duplicated. -/
def leaves : Duplication → Twin → Twin
  | copy, x => x
  | move, x => x.movedOut

end Duplication

namespace World

variable {w u v : World} {R : Hold} {t n : TwinId} {x y : Twin} {way : Duplication}

section Appending

/-- A new instance is made of one that may be duplicated; all others are as they were, with one
more handle for each in what is left of the source. -/
theorem reproduced_of_mayBe (hx : w.twins[t]? = some x) (hfree : x.MayBe way) :
    ∃ u, reproduce way.way t w = (.ok w.twins.size, u) ∧ Continued w x w.twins.size u
      ∧ u.twins[t]? = some ((way.leaves x).gain t (way.leaves x).contents)
      ∧ ∀ (i : TwinId) (a : Twin), i ≠ t → w.twins[i]? = some a →
        u.twins[i]? = some (a.gain i (way.leaves x).contents) := by
  cases way with
  | copy =>
      obtain ⟨n, u, hok, hcopied⟩ := copied_of_mayBe hx hfree
      cases hcopied.fresh
      exact ⟨u, hok, hcopied.toContinued, hcopied.others t x hx, fun i a _ => hcopied.others i a⟩
  | move =>
      obtain ⟨n, u, hok, hmoved⟩ := moved_of_mayBe hx hfree
      cases hmoved.fresh
      refine ⟨u, hok, hmoved.toContinued, ?_, ?_⟩
      · rw [Duplication.leaves, Twin.contents_movedOut]
        exact hmoved.source
      · rw [Duplication.leaves, Twin.contents_movedOut]
        exact hmoved.others

theorem reproduce_refused (hx : w.twins[t]? = some x) {f : Failure}
    (h : x.obstacle? way = some f) : reproduce way.way t w = (.error f, w) := by
  cases way with
  | copy => exact copyTwin_refused hx h
  | move => exact moveTwin_refused hx h

/-- What comes of an instance that a vector takes.  There is one new instance, which continues
it and to which the vector has the only handle; apart from handles that are taken all other
instances are as they were, the source too unless it was moved. -/
structure Appended (w : World) (i : Nat) (vec : InstanceVec) (way : Duplication) (t : TwinId)
    (x : Twin) (u : World) : Prop where
  vec : u.vecs[i]? = some { vec with items := vec.items ++ [w.twins.size] }
  vecs : ∀ j, j ≠ i → u.vecs[j]? = w.vecs[j]?
  size : u.twins.size = w.twins.size + 1
  element : ∃ y, u.twins[w.twins.size]? = some y ∧ x.Continues y ∧ y.nativeCount = 1
    ∧ y.dynamicCount = 0
  source : u.twins[t]? = some ((way.leaves x).gain t (way.leaves x).contents)
  others : ∀ (s : TwinId) (a : Twin), s ≠ t → w.twins[s]? = some a →
    u.twins[s]? = some (a.gain s (way.leaves x).contents)
  journal : u.journal.toList = w.journal.toList ++ x.builtSegments.map Event.ofBuilt
  frame : { u with twins := w.twins, vecs := w.vecs, journal := w.journal } = w

/-- Why a vector does not take an instance: it is not of the class of the elements, or it must
not be duplicated. -/
def Declines (w : World) (vec : InstanceVec) (way : Duplication) (t : TwinId) (f : Failure) :
    Prop :=
  ¬w.isA t vec.element
      ∧ f = .typeMismatch ("element of vector<" ++ vec.element ++ ">") vec.element (w.className t)
    ∨ w.isA t vec.element ∧ (w.twin t).Refuses way f

theorem getElem?_setItems (w : World) (i j : Nat) (items : List TwinId) :
    (w.setItems i items).vecs[j]?
      = if i = j then (w.vecs[j]?).map ({ · with items }) else w.vecs[j]? :=
  Array.getElem?_modify

theorem setItems_self {i : Nat} {vec : InstanceVec} (hvec : w.vecs[i]? = some vec) :
    w.setItems i vec.items = w := by
  have hvecs : (w.setItems i vec.items).vecs = w.vecs := by
    refine Array.ext_getElem? fun j => ?_
    rw [getElem?_setItems]
    split
    · rename_i hj
      rw [← hj, hvec, Option.map_some]
    · rfl
  change { w with vecs := (w.setItems i vec.items).vecs } = w
  rw [hvecs]

/-- What is held by one dynamic handle is then held by one native handle. -/
theorem Continued.asNative (h : Continued w x n u) :
    ∃ y, u.twins[n]? = some y ∧ x.Continues y
      ∧ u.asNative n = u.setTwin n { y with nativeCount := 1, dynamicCount := 0 } := by
  obtain ⟨y, hy, hcontinues, hnative, hdynamic⟩ := h.twin
  refine ⟨y, hy, hcontinues, ?_⟩
  rw [World.asNative, drop_retain_other (h := .native n) (k := .dynamic n) rfl nofun hy
    (by rw [Twin.tally, hdynamic]; exact one_ne_zero)]
  simp [Handle.twin, Twin.retain, Twin.forget, hnative, hdynamic]

variable {i : Nat} {vec : InstanceVec}

theorem vecAppend_ok (hvec : w.vecs[i]? = some vec) (hisA : w.isA t vec.element)
    (hx : w.twins[t]? = some x) (hfree : x.MayBe way) :
    ∃ u, vecAppend way.way i t w = (.ok (), u) ∧ w.Appended i vec way t x u := by
  obtain ⟨u, hok, hcontinued, hsource, hothers⟩ := reproduced_of_mayBe hx hfree
  obtain ⟨y, hy, hcontinues, hnative⟩ := hcontinued.asNative
  have hthere : t ≠ w.twins.size := Nat.ne_of_lt (Array.getElem?_eq_some_iff.mp hx).1
  have hvecs : u.vecs = w.vecs := congrArg (·.vecs) hcontinued.frame
  have hold : ∀ s : TwinId, s ≠ w.twins.size → (u.asNative w.twins.size).twins[s]? = u.twins[s]? :=
    fun s hs => by rw [hnative, getElem?_setTwin hy, if_neg (Ne.symm hs)]
  -- Only the new instance changes sides, and that releases nothing.
  have hvec' : (u.asNative w.twins.size).vec i = vec :=
    vec_eq ((congrArg (·[i]?) ((vecs_asNative u _).trans hvecs)).trans hvec)
  refine ⟨(u.asNative w.twins.size).setItems i (vec.items ++ [w.twins.size]), ?_, ?_⟩
  · simp [vecAppend, vec_eq hvec, hisA, hok, hvec']
  constructor
  case vec => rw [getElem?_setItems, if_pos rfl, vecs_asNative, hvecs, hvec, Option.map_some]
  case vecs =>
    intro j hj
    rw [getElem?_setItems, if_neg (Ne.symm hj), vecs_asNative, hvecs]
  case size => exact (Still.asNative u _).size.trans hcontinued.size
  case element =>
    refine ⟨{ y with nativeCount := 1, dynamicCount := 0 }, ?_, ?_, rfl, rfl⟩
    · change (u.asNative w.twins.size).twins[w.twins.size]? = _
      rw [hnative, getElem?_setTwin hy, if_pos rfl]
    · exact hcontinues.rests ⟨rfl, fun _ => rfl⟩ hcontinues.live
  case source => exact (hold t hthere).trans hsource
  case others =>
    intro s a hs ha
    exact (hold s (Nat.ne_of_lt (Array.getElem?_eq_some_iff.mp ha).1)).trans (hothers s a hs ha)
  case journal =>
    change (u.asNative w.twins.size).journal.toList = _
    rw [hnative]
    exact hcontinued.journal
  case frame =>
    rw [hnative]
    refine Eq.trans ?_ hcontinued.frame
    rw [← hvecs]
    rfl

/-- A vector takes an instance, or there is a reason not to and nothing happens. -/
theorem vecAppend_cases (hvec : w.vecs[i]? = some vec) (way : Duplication) (t : TwinId) :
    (∃ f, vecAppend way.way i t w = (.error f, w) ∧ w.Declines vec way t f)
      ∨ ∃ x u, vecAppend way.way i t w = (.ok (), u) ∧ w.twins[t]? = some x
        ∧ w.isA t vec.element ∧ x.MayBe way ∧ w.Appended i vec way t x u := by
  by_cases hisA : w.isA t vec.element
  · obtain ⟨x, hx⟩ := exists_of_isA hisA
    cases hobstacle : x.obstacle? way with
    | some f =>
        refine .inl ⟨f, ?_, .inr ⟨hisA, ?_⟩⟩
        · simp [vecAppend, vec_eq hvec, hisA, reproduce_refused hx hobstacle]
        · rw [twin_eq hx]
          exact Twin.obstacle_eq_some_iff.mp hobstacle
    | none =>
        have hfree := Twin.obstacle_eq_none_iff.mp hobstacle
        obtain ⟨u, hok, happended⟩ := vecAppend_ok hvec hisA hx hfree
        exact .inr ⟨x, u, hok, hx, hisA, hfree, happended⟩
  · exact .inl ⟨_, by simp [vecAppend, vec_eq hvec, hisA], .inl ⟨hisA, rfl⟩⟩

theorem Declines.of_mayBe {f : Failure} (h : w.Declines vec way t f) (hisA : w.isA t vec.element)
    (hfree : (w.twin t).MayBe way) : False := by
  rcases h with ⟨hnot, -⟩ | ⟨-, hrefuses⟩
  · exact hnot hisA
  · rw [← Twin.obstacle_eq_none_iff, Twin.obstacle_eq_some_iff.mpr hrefuses] at hfree
    cases hfree

theorem Declines.unique {f g : Failure} (h : w.Declines vec way t f) (h' : w.Declines vec way t g) :
    f = g := by
  rcases h with ⟨hnot, rfl⟩ | ⟨hisA, hrefuses⟩ <;> rcases h' with ⟨hnot', rfl⟩ | ⟨hisA', hrefuses'⟩
  · rfl
  · exact absurd hisA' hnot
  · exact absurd hisA hnot'
  · rw [← Twin.obstacle_eq_some_iff] at hrefuses hrefuses'
    exact Option.some.inj (hrefuses.symm.trans hrefuses')

theorem vecAppend_ok_iff (hvec : w.vecs[i]? = some vec) (way : Duplication) (t : TwinId) :
    (∃ u, vecAppend way.way i t w = (.ok (), u))
      ↔ w.isA t vec.element ∧ (w.twin t).MayBe way := by
  rcases vecAppend_cases hvec way t with ⟨f, herror, hdeclines⟩ | ⟨x, u, hok, hx, hisA, hfree, -⟩
  · refine ⟨fun ⟨u, hok⟩ => ?_, fun ⟨hisA, hfree⟩ => (hdeclines.of_mayBe hisA hfree).elim⟩
    cases herror.symm.trans hok
  · exact ⟨fun _ => ⟨hisA, (twin_eq hx).symm ▸ hfree⟩, fun _ => ⟨u, hok⟩⟩

theorem vecAppend_error_iff (hvec : w.vecs[i]? = some vec) (way : Duplication) (t : TwinId)
    (f : Failure) (u : World) :
    vecAppend way.way i t w = (.error f, u) ↔ u = w ∧ w.Declines vec way t f := by
  rcases vecAppend_cases hvec way t with ⟨g, herror, hdeclines⟩ | ⟨x, u', hok, hx, hisA, hfree, -⟩
  · rw [herror]
    constructor
    · rintro ⟨⟩
      exact ⟨rfl, hdeclines⟩
    · rintro ⟨rfl, h⟩
      rw [hdeclines.unique h]
  · refine ⟨fun herror => ?_, fun ⟨_, hdeclines⟩ => ?_⟩
    · cases herror.symm.trans hok
    · exact (hdeclines.of_mayBe hisA ((twin_eq hx).symm ▸ hfree)).elim

theorem appended_of_ok (hvec : w.vecs[i]? = some vec)
    (hok : vecAppend way.way i t w = (.ok (), u)) :
    ∃ x, w.twins[t]? = some x ∧ w.Appended i vec way t x u := by
  rcases vecAppend_cases hvec way t with ⟨f, herror, -⟩ | ⟨x, u', hok', hx, -, -, happended⟩
  · cases herror.symm.trans hok
  · cases hok'.symm.trans hok
    exact ⟨x, hx, happended⟩

end Appending

section Taking

variable {i k : Nat} {vec : InstanceVec}

/-- A handle is taken to an element, if there is one. -/
def handOut (w : World) (h : TwinId → Handle) (item : Option TwinId) : World :=
  item.elim w fun t => w.retain (h t)

theorem vecGet_eq (w : World) (i k : Nat) :
    vecGet i k w = ((w.vec i).items[k]?, w.handOut .dynamic (w.vec i).items[k]?) := by
  unfold vecGet
  cases (w.vec i).items[k]? <;> rfl

theorem vecNative_eq (w : World) (i k : Nat) :
    vecNative i k w = ((w.vec i).items[k]?, w.handOut .native (w.vec i).items[k]?) := by
  unfold vecNative
  cases (w.vec i).items[k]? <;> rfl

theorem vecRemove_none (hvec : w.vecs[i]? = some vec) (hitem : vec.items[k]? = none) :
    vecRemove i k w = (none, w) := by
  unfold vecRemove
  rw [vec_eq hvec, hitem]

/-- The element that is taken out is as it was, but that the caller's handle replaces that of the
vector. -/
theorem vecRemove_some (hvec : w.vecs[i]? = some vec) (hitem : vec.items[k]? = some t)
    (hx : w.twins[t]? = some x) (hcount : x.nativeCount ≠ 0) :
    vecRemove i k w = (some t, (w.setItems i (vec.items.eraseIdx k)).setTwin t
      { x with nativeCount := x.nativeCount - 1, dynamicCount := x.dynamicCount + 1 }) := by
  unfold vecRemove
  rw [vec_eq hvec, hitem]
  dsimp only
  have hx' : (w.setItems i (vec.items.eraseIdx k)).twins[t]? = some x := hx
  rw [drop_retain_other (h := .dynamic t) (k := .native t) rfl nofun hx' hcount]
  rfl

/-- What is taken out is what is at the position, and without a position nothing changes. -/
theorem vecRemove_items (hvec : w.vecs[i]? = some vec) :
    (vecRemove i k w).1 = vec.items[k]?
      ∧ (vecRemove i k w).2.vecs = (w.setItems i (vec.items.eraseIdx k)).vecs
      ∧ w.Still (vecRemove i k w).2 := by
  cases hitem : vec.items[k]? with
  | none =>
      have hlong : vec.items.length ≤ k := List.getElem?_eq_none_iff.mp hitem
      rw [vecRemove_none hvec hitem, List.eraseIdx_of_length_le hlong, setItems_self hvec]
      exact ⟨rfl, rfl, .refl w⟩
  | some t =>
      unfold vecRemove
      rw [vec_eq hvec, hitem]
      have hset : w.Still (w.setItems i (vec.items.eraseIdx k)) := .of_eq rfl
      exact ⟨rfl, vecs_drop _ _, hset.trans ((Still.retain _ _).trans (.drop _ _))⟩

theorem vecClear_vecs (w : World) (i : Nat) : (vecClear i w).vecs = (w.setItems i []).vecs :=
  vecs_drop _ _

theorem Still.vecClear (w : World) (i : Nat) : w.Still (vecClear i w) :=
  (Still.of_eq (w := w) (u := w.setItems i []) rfl).trans (.drop _ _)

end Taking

end World

/-- What can be done to a vector. -/
inductive VecOp where
  | append (way : Duplication) (t : TwinId)
  | get (k : Nat)
  | native (k : Nat)
  | remove (k : Nat)
  | clear

/-- What a vector answers. -/
inductive VecAnswer where
  | put (r : Except Failure Unit)
  | item (t : Option TwinId)
  | cleared

/-- A list of instances, and how many instances there are at all. -/
structure Row where
  items : List TwinId
  count : Nat

/-- What a list answers to what is done to it, and what it is then.  What is appended is a new
instance. -/
inductive Row.Answers : Row → VecOp → VecAnswer → Row → Prop where
  | appended (r : Row) (way : Duplication) (t : TwinId) :
      Answers r (.append way t) (.put (.ok ())) ⟨r.items ++ [r.count], r.count + 1⟩
  | declined (r : Row) (way : Duplication) (t : TwinId) (f : Failure) :
      Answers r (.append way t) (.put (.error f)) r
  | get (r : Row) (k : Nat) : Answers r (.get k) (.item r.items[k]?) r
  | native (r : Row) (k : Nat) : Answers r (.native k) (.item r.items[k]?) r
  | remove (r : Row) (k : Nat) :
      Answers r (.remove k) (.item r.items[k]?) ⟨r.items.eraseIdx k, r.count⟩
  | clear (r : Row) : Answers r .clear .cleared ⟨[], r.count⟩

/-- How a list answers to all that is done to it, while instances come into being elsewhere. -/
inductive Row.Goes : Row → List (VecOp × VecAnswer) → Row → Prop where
  | done (r : Row) : Goes r [] r
  | answer {r s q : Row} {op : VecOp} {a : VecAnswer} {log : List (VecOp × VecAnswer)}
      (h : r.Answers op a s) (hrest : s.Goes log q) : Goes r ((op, a) :: log) q
  | elsewhere {r q : Row} {count : Nat} {log : List (VecOp × VecAnswer)} (hle : r.count ≤ count)
      (hrest : Goes ⟨r.items, count⟩ log q) : Goes r log q

namespace Row

variable {r s q : Row} {op : VecOp} {a : VecAnswer} {log : List (VecOp × VecAnswer)}

theorem Answers.count_le (h : r.Answers op a s) : r.count ≤ s.count := by
  cases h with
  | appended => exact Nat.le_succ _
  | _ => exact Nat.le_refl _

theorem Answers.old_or_new (h : r.Answers op a s) {t : TwinId} (ht : t ∈ s.items) :
    t ∈ r.items ∨ r.count ≤ t := by
  cases h with
  | appended =>
      rcases List.mem_append.mp ht with hold | hlast
      · exact .inl hold
      · cases List.mem_singleton.mp hlast
        exact .inr (Nat.le_refl _)
  | remove k => exact .inl (List.mem_of_mem_eraseIdx ht)
  | clear => cases ht
  | _ => exact .inl ht

/-- What a list holds it held from the start, or it is newer. -/
theorem Goes.old_or_new (h : r.Goes log q) {t : TwinId} (ht : t ∈ q.items) :
    t ∈ r.items ∨ r.count ≤ t := by
  induction h with
  | done => exact .inl ht
  | answer h _ ih =>
      rcases ih ht with hold | hnew
      · exact h.old_or_new hold
      · exact .inr (h.count_le.trans hnew)
  | elsewhere hle _ ih => exact (ih ht).imp_right hle.trans

end Row

namespace World

/-- What is done to a vector, and what it answers. -/
def runVec (i : Nat) : VecOp → Act VecAnswer
  | .append way t, w => (.put (vecAppend way.way i t w).1, (vecAppend way.way i t w).2)
  | .get k, w => (.item (vecGet i k w).1, (vecGet i k w).2)
  | .native k, w => (.item (vecNative i k w).1, (vecNative i k w).2)
  | .remove k, w => (.item (vecRemove i k w).1, (vecRemove i k w).2)
  | .clear, w => (.cleared, vecClear i w)

/-- How a vector is used, while other things happen that are related by `aside`. -/
inductive Uses (i : Nat) (aside : World → World → Prop) :
    World → List (VecOp × VecAnswer) → World → Prop where
  | done (w : World) : Uses i aside w [] w
  | act {w u : World} {log : List (VecOp × VecAnswer)} (op : VecOp)
      (hrest : Uses i aside (runVec i op w).2 log u) :
      Uses i aside w ((op, (runVec i op w).1) :: log) u
  | aside {w v u : World} {log : List (VecOp × VecAnswer)} (h : aside w v)
      (hrest : Uses i aside v log u) : Uses i aside w log u

/-- Whether a vector holds what it held, and all instances are there that were. -/
structure KeepsVec (i : Nat) (w u : World) : Prop where
  there : i < w.vecs.size → i < u.vecs.size
  items : (u.vec i).items = (w.vec i).items
  size : w.twins.size ≤ u.twins.size

/-- What a vector holds, in a world of so many instances. -/
def row (w : World) (i : Nat) : Row :=
  ⟨(w.vec i).items, w.twins.size⟩

variable {w u v : World} {i j k : Nat} {t n : TwinId} {log : List (VecOp × VecAnswer)}

namespace KeepsVec

theorem of_vecs (hvecs : u.vecs[i]? = w.vecs[i]?) (hsize : w.twins.size ≤ u.twins.size) :
    KeepsVec i w u where
  there hi := by
    rw [Array.getElem?_eq_getElem hi] at hvecs
    exact (Array.getElem?_eq_some_iff.mp hvecs).1
  items := by rw [vec, hvecs, vec]
  size := hsize

theorem of_still (hvecs : u.vecs = w.vecs) (hstill : w.Still u) : KeepsVec i w u :=
  of_vecs (by rw [hvecs]) hstill.size.ge

theorem trans (h : KeepsVec i w u) (h' : KeepsVec i u v) : KeepsVec i w v :=
  ⟨h'.there ∘ h.there, h'.items.trans h.items, h.size.trans h'.size⟩

theorem retainAll (w : World) (hs : List Handle) : KeepsVec i w (w.retainAll hs) := by
  obtain ⟨twins, hframe, hsize⟩ := w.retainAll_frame hs
  rw [hframe]
  exact of_vecs rfl hsize.ge

theorem drop (w : World) (hs : List Handle) : KeepsVec i w (w.drop hs) :=
  of_still (vecs_drop w hs) (.drop w hs)

theorem modifyTwin (w : World) (t : TwinId) (f : Twin → Twin) : KeepsVec i w (w.modifyTwin t f) :=
  of_vecs rfl (size_modifyTwin w t f).ge

theorem admitTwin (w : World) (a : Twin) : KeepsVec i w (w.admitTwin a).1 :=
  of_vecs rfl ((Nat.le_succ _).trans (Array.size_push _).ge)

theorem copyTwin (t : TwinId) (w : World) : KeepsVec i w (copyTwin t w).2 := by
  unfold World.copyTwin
  dsimp only
  split
  · exact of_vecs rfl le_rfl
  · exact (retainAll w _).trans (admitTwin _ _)

/-- What is done to an instance spares all vectors. -/
theorem disregards (i : Nat) (t : TwinId) : Disregards (KeepsVec i) t where
  refl _ := of_vecs rfl le_rfl
  trans := trans
  retainAll := retainAll
  drop := drop
  copyTwin := copyTwin
  astray _ _ := of_vecs rfl le_rfl
  modifyTwin w f := modifyTwin w t f
  admitTwin := admitTwin

theorem share (t : TwinId) (w : World) : KeepsVec i w (share t w).2 := by
  have hheld : KeepsVec i w ((setOwner t .shared w).retain (.native t)) :=
    (modifyTwin w t _).trans (modifyTwin _ _ _)
  have hgrouped : KeepsVec i w
      { (setOwner t .shared w).retain (.native t) with groups := w.groups.push ⟨t, 1⟩ } :=
    hheld.trans (of_vecs rfl le_rfl)
  exact hgrouped.trans (drop _ _)

end KeepsVec

section Runs

variable {aside : World → World → Prop} {op : VecOp}

theorem row_of_vecs {items : List TwinId} (hi : i < w.vecs.size)
    (hvecs : u.vecs = (w.setItems i items).vecs) (hstill : w.Still u) :
    i < u.vecs.size ∧ u.row i = ⟨items, w.twins.size⟩ := by
  have hvec : u.vecs[i]? = some { w.vecs[i] with items } := by
    rw [hvecs, getElem?_setItems, if_pos rfl, Array.getElem?_eq_getElem hi, Option.map_some]
  exact ⟨(Array.getElem?_eq_some_iff.mp hvec).1, by rw [row, vec_eq hvec, hstill.size]⟩

/-- A handle to an element makes no difference to what vectors hold. -/
theorem row_handOut (hi : i < w.vecs.size) (h : TwinId → Handle) (item : Option TwinId) :
    i < (w.handOut h item).vecs.size ∧ (w.handOut h item).row i = w.row i := by
  cases item with
  | none => exact ⟨hi, rfl⟩
  | some t => exact ⟨hi, congrArg (Row.mk _) (Still.retain w (h t)).size⟩

/-- A vector answers as a list does, and becomes what that becomes. -/
theorem runVec_answers (hi : i < w.vecs.size) (op : VecOp) :
    i < (runVec i op w).2.vecs.size
      ∧ (w.row i).Answers op (runVec i op w).1 ((runVec i op w).2.row i) := by
  have hvec : w.vecs[i]? = some w.vecs[i] := Array.getElem?_eq_getElem hi
  have hrow : w.row i = ⟨w.vecs[i].items, w.twins.size⟩ := by rw [row, vec_eq hvec]
  cases op with
  | append way t =>
      rcases vecAppend_cases hvec way t with ⟨f, herror, -⟩ | ⟨x, u, hok, -, -, -, happended⟩
      · simp only [runVec, herror]
        exact ⟨hi, .declined _ way t f⟩
      · have hrow' : u.row i = ⟨w.vecs[i].items ++ [w.twins.size], w.twins.size + 1⟩ := by
          rw [row, vec_eq happended.vec, happended.size]
        simp only [runVec, hok, hrow, hrow']
        exact ⟨(Array.getElem?_eq_some_iff.mp happended.vec).1, .appended _ way t⟩
  | get k =>
      obtain ⟨hi', hsame⟩ := row_handOut hi .dynamic (w.vec i).items[k]?
      simp only [runVec, vecGet_eq, hsame]
      exact ⟨hi', .get (w.row i) k⟩
  | native k =>
      obtain ⟨hi', hsame⟩ := row_handOut hi .native (w.vec i).items[k]?
      simp only [runVec, vecNative_eq, hsame]
      exact ⟨hi', .native (w.row i) k⟩
  | remove k =>
      obtain ⟨hitem, hvecs, hstill⟩ := vecRemove_items hvec (k := k)
      obtain ⟨hi', hrow'⟩ := row_of_vecs hi hvecs hstill
      simp only [runVec, hitem, hrow, hrow']
      exact ⟨hi', .remove _ k⟩
  | clear =>
      obtain ⟨hi', hrow'⟩ := row_of_vecs hi (vecClear_vecs w i) (.vecClear w i)
      simp only [runVec, hrow, hrow']
      exact ⟨hi', .clear _⟩

/-- However a vector is used, it answers as a list does. -/
theorem Uses.goes (haside : ∀ {w v : World}, aside w v → KeepsVec i w v)
    (h : Uses i aside w log u) (hi : i < w.vecs.size) : (w.row i).Goes log (u.row i) := by
  -- That the vector is there is kept along the way; without one nothing could be appended.
  induction h with
  | done w => exact .done _
  | act op _ ih =>
      obtain ⟨hi', hanswers⟩ := runVec_answers hi op
      exact .answer hanswers (ih hi')
  | @aside w v u log h _ ih =>
      have hkeeps := haside h
      have hrest := ih (hkeeps.there hi)
      rw [row, hkeeps.items] at hrest
      exact .elsewhere (hkeeps.size : (w.row i).count ≤ v.twins.size) hrest

/-- What is done to a vector leads to a world that is related by all that respects conversions,
and moves if it is one, and lets the list be another. -/
theorem runVec_leads {r : World → World → Prop} (hr : Respects r) (op : VecOp)
    (hmove : ∀ t, op = .append .move t → Act.Leads r (moveTwin t))
    (hset : ∀ w items, r w (setItems w j items)) (w : World) : r w (runVec j op w).2 := by
  have hout : ∀ (h : TwinId → Handle) (item : Option TwinId), r w (w.handOut h item) :=
    fun h item => by
      cases item with
      | none => exact hr.refl w
      | some t => exact hr.retainAll w [h t]
  cases op with
  | append way t =>
      have hmade : Act.Leads r (reproduce way.way t) := by
        cases way with
        | copy => exact hr.copyTwin t
        | move => exact hmove t rfl
      change r w (vecAppend way.way j t w).2
      unfold vecAppend
      dsimp only
      split
      · exact hr.refl w
      · have hfirst := hmade w
        generalize reproduce way.way t w = result at hfirst
        obtain ⟨f | new, u⟩ := result
        · exact hfirst
        · exact hr.trans hfirst (hr.trans (hr.asNative u new) (hset _ _))
  | get k =>
      simp only [runVec, vecGet_eq]
      exact hout _ _
  | native k =>
      simp only [runVec, vecNative_eq]
      exact hout _ _
  | remove k =>
      change r w (vecRemove j k w).2
      unfold vecRemove
      split
      · exact hr.refl w
      · exact hr.trans (hset _ _) (hr.trans (hr.retainAll _ [_]) (hr.drop _ _))
  | clear => exact hr.trans (hset _ _) (hr.drop _ _)

/-- Of what is done to a vector only a move out of an instance writes to it. -/
theorem runVec_intact (hop : op ≠ .append .move n) (w : World) : Intact n w (runVec i op w).2 :=
  runVec_leads (Intact.disregards (Nat.succ_ne_self n)).toRespects op
    (fun t ht => (Intact.disregards fun h => hop (by rw [ht, h])).moveTwin)
    (fun _ _ => .of_eq rfl rfl) w

/-- What is done to one vector makes no difference to what others hold. -/
theorem runVec_keeps (hne : j ≠ i) (op : VecOp) (w : World) : KeepsVec i w (runVec j op w).2 :=
  runVec_leads (KeepsVec.disregards i 0).toRespects op
    (fun t _ => (KeepsVec.disregards i t).moveTwin)
    (fun w items => .of_vecs (by rw [getElem?_setItems, if_neg hne]) le_rfl) w

/-- However a vector is used, an instance that nobody writes to stores what it stored. -/
theorem Uses.intact (haside : ∀ {w v : World}, aside w v → Intact n w v)
    (h : Uses i aside w log u) (hmoves : ∀ a, (.append .move n, a) ∉ log) : Intact n w u := by
  induction h with
  | done w => exact .of_eq rfl rfl
  | @act w u log op _ ih =>
      have hop : op ≠ .append .move n := fun hop => hmoves _ (by rw [hop]; exact List.mem_cons_self)
      exact (runVec_intact hop w).trans (ih fun a ha => hmoves a (List.mem_cons_of_mem _ ha))
  | aside h _ ih => exact (haside h).trans (ih hmoves)

end Runs

section Steps

variable {R S : Hold}

/-- Whether a vector was edited as one is when something is appended or taken out, or it is
cleared. -/
def EditsVec (i : Nat) (w u : World) : Prop :=
  ∃ vec items, w.vecs[i]? = some vec ∧ w.Edits vec items ∧ u = w.setItems i items

theorem KeepsVec.of_persists (hpersists : Persists w u)
    (hitems : (u.vec i).items = (w.vec i).items) : KeepsVec i w u where
  there hi := hi.trans_le hpersists.vecs
  items := hitems
  size := by
    by_contra hlt
    obtain ⟨b, hb, -⟩ := hpersists.twins _ _ (Array.getElem?_eq_getElem (Nat.not_le.mp hlt))
    exact Nat.lt_irrefl _ (Array.getElem?_eq_some_iff.mp hb).1

end Steps

end World

open World in
/-- A step of the program edits a vector, or lets it be. -/
theorem Transition.keepsVec_or_edits {w u : World} {R S : Hold} (hstep : Transition w R u S)
    (i : Nat) : w.KeepsVec i u ∨ w.EditsVec i u := by
  have hpersists := Persists.of_step hstep
  rcases hstep.vecs_cases with hvecs | ⟨element, hvecs⟩ | ⟨j, f, hvecs⟩
    | ⟨j, v, items, hv, hedits, rfl⟩
  · exact .inl (.of_persists hpersists (by rw [vec, hvecs, vec]))
  · refine .inl (.of_persists hpersists ?_)
    rw [vec, vec, hvecs, Array.getElem?_push]
    split
    · rename_i hi
      rw [hi, Array.getElem?_eq_none le_rfl]
      rfl
    · rfl
  · refine .inl (.of_persists hpersists ?_)
    rw [vec, vec, hvecs, Array.getElem?_modify]
    split
    · cases w.vecs[i]? <;> rfl
    · rfl
  · by_cases hj : j = i
    · subst hj
      exact .inr ⟨v, items, hv, hedits, rfl⟩
    · exact .inl (.of_vecs (by rw [getElem?_setItems, if_neg hj]) le_rfl)

open World in
/-- Whatever code does, a vector is edited step by step, or is let be. -/
theorem Path.keepsVec_or_edits {w u : World} {R S : Hold} (hpath : Path w R u S) (i : Nat) :
    Relation.ReflTransGen (fun w u => w.KeepsVec i u ∨ w.EditsVec i u) w u := by
  induction hpath with
  | refl => exact .refl
  | tail _ hstep ih => exact ih.tail (hstep.keepsVec_or_edits i)

namespace World

variable {w u : World} {R : Hold} {i : Nat} {t : TwinId} {vec : InstanceVec}

/-- What holds of vectors in a state in which code is running that holds `R`. -/
structure LawfulVectors (w : World) (R : Hold) : Prop where
  distinct : ∀ (i : Nat) (vec : InstanceVec), w.vecs[i]? = some vec → vec.items.Nodup
  apart : ∀ (i j : Nat) (vec vec' : InstanceVec), i ≠ j → w.vecs[i]? = some vec →
    w.vecs[j]? = some vec' → ∀ t ∈ vec.items, t ∉ vec'.items
  elements : ∀ (i : Nat) (vec : InstanceVec), w.vecs[i]? = some vec →
    ∀ t ∈ vec.items, w.Alive t ∧ w.isA t vec.element
  /-- What is put in is of the class of the elements and may be duplicated. -/
  accepted : ∀ i vec way t, w.vecs[i]? = some vec →
    ((∃ u, vecAppend way.way i t w = (.ok (), u)) ↔ w.isA t vec.element ∧ (w.twin t).MayBe way)
  appended : ∀ i vec way t u, w.vecs[i]? = some vec → vecAppend way.way i t w = (.ok (), u) →
    ∃ x, w.twins[t]? = some x ∧ w.Appended i vec way t x u
  /-- What is declined changes nothing. -/
  declined : ∀ i vec way t f u, w.vecs[i]? = some vec →
    (vecAppend way.way i t w = (.error f, u) ↔ u = w ∧ w.Declines vec way t f)
  read : ∀ i vec k, w.vecs[i]? = some vec →
    vecGet i k w = (vec.items[k]?, w.handOut .dynamic vec.items[k]?)
    ∧ vecNative i k w = (vec.items[k]?, w.handOut .native vec.items[k]?)
  /-- What is taken out is the element at the position, with a dynamic handle for the one that the
  vector had. -/
  removed : ∀ i vec k t, w.vecs[i]? = some vec → vec.items[k]? = some t →
    ∃ x, w.twins[t]? = some x ∧ x.nativeCount ≠ 0
      ∧ vecRemove i k w = (some t, (w.setItems i (vec.items.eraseIdx k)).setTwin t
        { x with nativeCount := x.nativeCount - 1, dynamicCount := x.dynamicCount + 1 })
  absent : ∀ i vec k, w.vecs[i]? = some vec → vec.items[k]? = none → vecRemove i k w = (none, w)
  /-- What a vector let go of lives on if something else refers to it. -/
  cleared : ∀ i, (vecClear i w).vecs = (w.setItems i []).vecs ∧ w.Still (vecClear i w)
    ∧ ∀ t, (vecClear i w).Alive t → (vecClear i w).Held R t

/-- A vector has a handle to each of its elements. -/
theorem nativeCount_of_element (hattained : Attained w R) (hvec : w.vecs[i]? = some vec)
    (ht : t ∈ vec.items) : ∃ x, w.twins[t]? = some x ∧ x.stage = .live ∧ x.nativeCount ≠ 0 := by
  have hbag : Handle.native t ∈ w.rootBag := by
    have hmem := mem_bag (f := InstanceVec.handles) hvec (List.mem_map_of_mem ht)
    simp only [rootBag, Multiset.mem_add]
    exact .inl (.inl (.inl (.inr hmem)))
  obtain ⟨x, hx, hlive⟩ := hattained.accounts.live_of_held (held_of_vec hvec ht)
  refine ⟨x, hx, hlive, ?_⟩
  have hcounted := hattained.accounts.counted (.native t)
  rw [tally_eq hx] at hcounted
  change x.nativeCount = _ at hcounted
  rw [hcounted]
  exact Multiset.count_ne_zero.mpr (Multiset.mem_add.mpr (.inl hbag))

end World

open World in
theorem Attained.lawfulVectors {w : World} {R : Hold} (hattained : Attained w R) :
    w.LawfulVectors R where
  distinct i vec hvec := hattained.reached fun _ hreach =>
    (hreach.invariant.listed.ascending i vec hvec).imp Nat.ne_of_lt
  apart i j vec vec' hij hvec hvec' := hattained.reached fun _ hreach =>
    hreach.invariant.listed.apart i j vec vec' hij hvec hvec'
  elements i vec hvec t ht := by
    obtain ⟨x, hx, hlive, -⟩ := nativeCount_of_element hattained hvec ht
    exact ⟨⟨x, hx, hlive⟩, hattained.reached fun _ hreach =>
      hreach.invariant.listed.classed i vec hvec t ht⟩
  accepted i vec way t hvec := vecAppend_ok_iff hvec way t
  appended i vec way t u hvec hok := appended_of_ok hvec hok
  declined i vec way t f u hvec := vecAppend_error_iff hvec way t f u
  read i vec k hvec := by
    rw [vecGet_eq, vecNative_eq, vec_eq hvec]
    exact ⟨rfl, rfl⟩
  removed i vec k t hvec hitem := by
    obtain ⟨x, hx, -, hcount⟩ :=
      nativeCount_of_element hattained hvec (List.mem_of_getElem? hitem)
    exact ⟨x, hx, hcount, vecRemove_some hvec hitem hx hcount⟩
  absent i vec k hvec hitem := vecRemove_none hvec hitem
  cleared i := by
    have hthere : Attained (vecClear i w) R :=
      ((hattained.cast (add_zero R)).along fun S _ => vecClear_path i w _).1.cast (add_zero R).symm
    exact ⟨vecClear_vecs w i, .vecClear w i, fun t => hthere.held_of_alive⟩

section Snapshots

open World

variable {w u z : World} {i : Nat} {t : TwinId} {log : List (VecOp × VecAnswer)}

/-- What a vector holds it held before, or it is new; so what is put in does not get into it. -/
theorem World.Uses.held_before (h : w.Uses i (KeepsVec i) log u) (hi : i < w.vecs.size)
    (hthere : t < w.twins.size) (ht : t ∈ (u.vec i).items) : t ∈ (w.vec i).items :=
  ((h.goes id hi).old_or_new ht).resolve_right (Nat.not_le.mpr hthere)

/-- What a vector took stays as its source was, as long as nobody writes to it. -/
theorem World.Uses.snapshot {vec : InstanceVec} {way : Duplication} {x y : Twin}
    (h : u.Uses i (Intact w.twins.size) log z) (hmoves : ∀ a, (.append .move w.twins.size, a) ∉ log)
    (happended : w.Appended i vec way t x u) (hy : z.twins[w.twins.size]? = some y)
    (hlive : y.stage = .live) : y.kind = x.kind ∧ y.storage = x.storage ∧ y.attrs = x.attrs := by
  obtain ⟨a, ha, hcontinues, -⟩ := happended.element
  obtain ⟨b, hb, hstays, -⟩ := h.intact id hmoves a ha
  cases hy.symm.trans hb
  -- What the new instance stores is what its source stored, and nobody wrote to it since.
  obtain ⟨-, hstorage, hattrs⟩ := hstays.stores hlive
  exact ⟨hstays.kind.trans hcontinues.kind, hstorage.trans hcontinues.storage,
    hattrs.trans hcontinues.attrs⟩

/-- What is done to instances, and to other vectors. -/
structure World.SparesVec (i : Nat) (w : World) : Prop where
  change : ∀ c : Change, w.KeepsVec i (c.make w)
  untargeted : ∀ (c : Change) (n : TwinId), c.target ≠ n → Intact n w (c.make w)
  copy : ∀ t, w.KeepsVec i (copyTwin t w).2
  own : ∀ t flag, w.KeepsVec i (setOwner t flag w)
  share : ∀ t, w.KeepsVec i (World.share t w).2
  retain : ∀ hs, w.KeepsVec i (w.retainAll hs)
  drop : ∀ hs, w.KeepsVec i (w.drop hs)
  other : ∀ j op, j ≠ i → w.KeepsVec i (runVec j op w).2

theorem World.sparesVec (i : Nat) (w : World) : w.SparesVec i where
  change c := c.leads (KeepsVec.disregards i c.target) w
  untargeted c _ hn := c.leads (Intact.disregards hn) w
  copy t := .copyTwin t w
  own t _ := .modifyTwin w t _
  share t := .share t w
  retain hs := .retainAll w hs
  drop hs := .drop w hs
  other _ op hj := runVec_keeps hj op w

end Snapshots

open Session World in
/-- Vectors are lists of snapshots.  After every history, and in every state that running code
gets to, no two positions are of one instance, elements are alive and of their class, what is put
in is a new instance that continues its source as this is then, and what is declined changes
nothing.  However a vector is used while other things happen, it answers as a list does; what it
took from a source stays as the source was until somebody writes to it, and no instance gets into
it that was there before.  What is done to instances or to other vectors leaves it alone, and
nothing that code can do changes it but as a list is edited. -/
theorem vectors_hold_snapshots :
    (∀ (depth : Nat) (steps : List Step),
      let s := after (.nested .memo depth) steps
      s.world.LawfulVectors s.waiting)
    ∧ (∀ (w : World) (R : Hold), Attained w R → w.LawfulVectors R)
    ∧ (∀ (i : Nat) (w u : World) (log : List (VecOp × VecAnswer)), i < w.vecs.size →
      w.Uses i (KeepsVec i) log u →
        (w.row i).Goes log (u.row i)
        ∧ ∀ t, t < w.twins.size → t ∈ (u.vec i).items → t ∈ (w.vec i).items)
    ∧ (∀ (i : Nat) (vec : InstanceVec) (way : Duplication) (t : TwinId) (x : Twin) (w u z : World)
      (log : List (VecOp × VecAnswer)), w.vecs[i]? = some vec → w.twins[t]? = some x →
        vecAppend way.way i t w = (.ok (), u) → u.Uses i (Intact w.twins.size) log z →
          (∀ a, (.append .move w.twins.size, a) ∉ log) → ∀ y, z.twins[w.twins.size]? = some y →
            y.stage = .live → y.kind = x.kind ∧ y.storage = x.storage ∧ y.attrs = x.attrs)
    ∧ (∀ (i : Nat) (w : World), w.SparesVec i)
    ∧ ∀ (i : Nat) (w u : World) (R S : Hold), Path w R u S →
      Relation.ReflTransGen (fun w u => w.KeepsVec i u ∨ w.EditsVec i u) w u := by
  refine ⟨?_, ?_, ?_, ?_, ?_, ?_⟩
  · exact fun depth steps => (attained_after depth steps).lawfulVectors
  · exact fun w R hattained => hattained.lawfulVectors
  · exact fun i w u log hi huses => ⟨huses.goes id hi, fun t => huses.held_before hi⟩
  · intro i vec way t x w u z log hvec hx hok huses hmoves y hy hlive
    obtain ⟨x', hx', happended⟩ := appended_of_ok hvec hok
    cases hx.symm.trans hx'
    exact huses.snapshot hmoves happended hy hlive
  · exact World.sparesVec
  · exact fun i w u R S hpath => hpath.keepsVec_or_edits i

namespace Gauge

/-- An empty vector of gauges. -/
def rack : World :=
  { Gauge.empty with vecs := #[⟨"Gauge", [], 1⟩] }

theorem rack_attained : Attained rack ({.handle (.dynamic 0)} + {.vec 0}) :=
  ((Gauge.empty_attained.cast (add_zero _)).along fun _ _ =>
    (Transition.newVec "Gauge").path.cast (add_zero _) rfl).1

end Gauge

open World Gauge in
/-- What a vector took of a gauge still shows nothing after the gauge was set. -/
theorem vectors_hold_snapshots_gauge :
    ∃ u, vecAppend .copy 0 0 rack = (.ok (), u) ∧ (u.vec 0).items = [1]
      ∧ let z := (Change.setAttr 0 "level" (.int 7)).make u
        (z.twins[0]?).map Twin.storage = some [[.int 7]]
        ∧ (z.vec 0).items = [1] ∧ ∀ y, z.twins[1]? = some y → y.stage = .live →
          y.storage = [[.int 0]] := by
  obtain ⟨-, hlawful, hgoes, hsnapshot, hspares, -⟩ := vectors_hold_snapshots
  have hvec : rack.vecs[0]? = some ⟨"Gauge", [], 1⟩ := rfl
  have hx : rack.twins[0]? = some (.fresh 0 (.native gauge) .native) := rfl
  obtain ⟨u, hok⟩ := ((hlawful rack _ rack_attained).accepted 0 _ .copy 0 hvec).mpr
    ⟨by decide, .inr (by decide)⟩
  obtain ⟨x, hx', happended⟩ := (hlawful rack _ rack_attained).appended 0 _ .copy 0 u hvec hok
  cases hx.symm.trans hx'
  have hitems : (u.vec 0).items = [1] := congrArg (·.items) (vec_eq happended.vec)
  have hspared := (hspares 0 u).change (.setAttr 0 "level" (.int 7))
  refine ⟨u, hok, hitems, ?_, hspared.items.trans hitems, fun y hy hlive => ?_⟩
  · cases hok.symm.trans (rfl : vecAppend .copy 0 0 rack = _)
    with_unfolding_all rfl
  · have huses : u.Uses 0 (Intact 1) [] ((Change.setAttr 0 "level" (.int 7)).make u) :=
      .aside ((hspares 0 u).untargeted _ 1 (by decide)) (.done _)
    exact (hsnapshot 0 _ .copy 0 _ rack u _ [] hvec hx hok huses nofun y hy hlive).2.1

open World Gauge in
/-- An element that is put in again was at a position already. -/
theorem element_put_in_again :
    let u := (vecAppend .copy 0 0 rack).2
    (vecGet 0 0 u).1 = some 1
    ∧ (vecAppend .copy 0 1 (vecGet 0 0 u).2).1 = .ok ()
    ∧ ((vecAppend .copy 0 1 (vecGet 0 0 u).2).2.vec 0).items = [1, 2] := by
  refine ⟨?_, ?_, ?_⟩ <;> with_unfolding_all rfl

end TwinObject
