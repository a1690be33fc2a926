/-
Trials.  Candidates of a call are tried with copies of the arguments that they take by value.
Whatever was tried, the instances that were there stay as they were, nothing stores a handle
to a copy, and only those copies are alive afterwards that somebody is given.
-/
import TwinObject.Proofs.Conversions
import TwinObject.Proofs.Handles
import TwinObject.Proofs.Results

namespace TwinObject

open Hold

namespace World

variable {w u v : World}

section Stored

theorem mem_rootBag {t : TwinId} {a : Twin} (ha : w.twins[t]? = some a) {h : Handle}
    (hh : h ∈ a.contents) : h ∈ w.rootBag := by
  simp only [rootBag, Multiset.mem_add]
  exact .inl (.inl (.inl (.inl (.inl (.inr (mem_bag ha hh))))))

/-- A twin in which no more is stored does not add to what is stored. -/
theorem rootBag_setTwin_subset {t : TwinId} {old new : Twin} (hold : w.twins[t]? = some old)
    (hnew : new.contents ⊆ old.contents) : (w.setTwin t new).rootBag ⊆ w.rootBag := by
  intro h hh
  have hset := rootBag_setTwin hold new
  have hmem : h ∈ w.rootBag + ↑new.contents := hset ▸ Multiset.mem_add.mpr (.inl hh)
  rcases Multiset.mem_add.mp hmem with hroot | hcontent
  · exact hroot
  · exact mem_rootBag hold (hnew (Multiset.mem_coe.mp hcontent))

theorem rootBag_letGo_subset (w : World) (h : Handle) : (w.letGo h).1.rootBag ⊆ w.rootBag := by
  unfold letGo
  split
  · exact Multiset.Subset.refl _
  · rename_i a ha
    have hbag : (if a.tally h = 0 then w.record [.overdrawn h] else w).rootBag = w.rootBag := by
      split <;> rfl
    have ha' : (if a.tally h = 0 then w.record [.overdrawn h] else w).twins[h.twin]? = some a := by
      split <;> exact ha
    dsimp only
    generalize (if a.tally h = 0 then w.record [.overdrawn h] else w) = v at hbag ha'
    rw [← hbag]
    split
    · rw [release, rootBag_record]
      exact rootBag_setTwin_subset ha' (by simp)
    · exact rootBag_setTwin_subset ha' (by simp)

theorem rootBag_endClass_subset (id : ClassId) (w : World) :
    (endClass id w).1.rootBag ⊆ w.rootBag := by
  unfold endClass
  split
  · exact Multiset.Subset.refl _
  · rename_i s hs
    split
    · exact Multiset.Subset.refl _
    · have hset := rootBag_setClass hs { s with attrs := {} }
      have hempty : ({ s with attrs := {} } : ClassState).handles = [] := Attributes.handles_empty
      rw [hempty, Multiset.coe_nil, add_zero] at hset
      exact Multiset.subset_of_le (hset ▸ Multiset.le_add_right _ _)

theorem rootBag_endNative_subset (id : NativeId) (w : World) :
    (endNative id w).1.rootBag ⊆ w.rootBag := by
  unfold endNative
  split
  · exact Multiset.Subset.refl _
  · rename_i s hs
    split
    · exact Multiset.Subset.refl _
    · have hset := rootBag_setDeclared hs { s with kept := [] }
      rw [Multiset.coe_nil, add_zero] at hset
      exact Multiset.subset_of_le (hset ▸ Multiset.le_add_right _ _)

/-- What is stored after handles were let go was stored before. -/
theorem rootBag_drop_subset (w : World) (hs : List Handle) : (w.drop hs).rootBag ⊆ w.rootBag :=
  drop_leads (r := fun w u => u.rootBag ⊆ w.rootBag) (fun _ => Multiset.Subset.refl _)
    (fun h h' => Multiset.Subset.trans h' h) rootBag_letGo_subset
    (fun _ _ _ ha => rootBag_setTwin_subset ha fun _ hh => hh) rootBag_endClass_subset
    rootBag_endNative_subset w hs

theorem rootBag_retainAll (w : World) (hs : List Handle) :
    (w.retainAll hs).rootBag = w.rootBag := by
  induction hs generalizing w with
  | nil => rfl
  | cons h hs ih => exact (ih (w.retain h)).trans (rootBag_modifyTwin w _ (Twin.contents_retain h))

theorem rootBag_copyTwin_subset (t : TwinId) (w : World) :
    (copyTwin t w).2.rootBag ⊆ w.rootBag := by
  unfold copyTwin
  dsimp only
  split
  · exact Multiset.Subset.refl _
  · intro h hh
    rw [rootBag_admitTwin, rootBag_retainAll] at hh
    rcases Multiset.mem_add.mp hh with hroot | hcontent
    · exact hroot
    · have hin : h ∈ (w.twin t).contents := hcontent
      cases ha : w.twins[t]? with
      | none =>
          have hnone : (w.twin t).contents = [] := by
            rw [World.twin, twin?, ha]
            exact Attributes.handles_empty
          rw [hnone] at hin
          cases hin
      | some a =>
          rw [twin_eq ha] at hin
          exact mem_rootBag ha hin

end Stored

/-- What trying candidates comes to: the twins that were there are as they were, no more is
stored than was, and new twins that are alive belong to native code. -/
structure Tried (w u : World) : Prop where
  rests : w.Rests u
  stored : u.rootBag ⊆ w.rootBag
  owned : ∀ (i : TwinId) (b : Twin), w.twins.size ≤ i → u.twins[i]? = some b → b.stage = .live →
    b.owner = .native ∧ b.moved = false

namespace Tried

theorem of_still (h : w.Still u) (hstored : u.rootBag ⊆ w.rootBag) : w.Tried u where
  rests := h.rests
  stored := hstored
  owned i b hi hb _ := by
    have hlt := (Array.getElem?_eq_some_iff.mp hb).1
    rw [h.size] at hlt
    exact absurd hlt (Nat.not_lt.mpr hi)

theorem trans (h : w.Tried u) (h' : u.Tried v) : w.Tried v where
  rests := h.rests.trans h'.rests
  stored := Multiset.Subset.trans h'.stored h.stored
  owned i b hi hb hlive := by
    by_cases hthere : i < u.twins.size
    · have ha := Array.getElem?_eq_getElem hthere
      have hrests := h'.rests.twin ha hb
      obtain ⟨howner, hmoved⟩ := h.owned i _ hi ha (hrests.live hlive)
      have hbare := hrests.bare hlive
      exact ⟨(congrArg (·.owner) hbare : b.owner = _).trans howner,
        (congrArg (·.moved) hbare : b.moved = _).trans hmoved⟩
    · exact h'.owned i b (Nat.not_lt.mp hthere) hb hlive

theorem copyTwin (t : TwinId) (w : World) : w.Tried (copyTwin t w).2 where
  rests := .copyTwin w t
  stored := rootBag_copyTwin_subset t w
  owned i b hi hb _ := by
    unfold World.copyTwin at hb
    dsimp only at hb
    split at hb
    · exact absurd (Array.getElem?_eq_some_iff.mp hb).1 (Nat.not_lt.mpr hi)
    · change ((w.retainAll _).twins.push _)[i]? = some b at hb
      rw [Array.getElem?_push] at hb
      split at hb
      · cases hb
        exact ⟨rfl, rfl⟩
      · have hlt := (Array.getElem?_eq_some_iff.mp hb).1
        rw [(Still.retainAll w _).size] at hlt
        exact absurd hlt (Nat.not_lt.mpr hi)

theorem respected : Respects Tried where
  refl w := of_still (.refl w) (Multiset.Subset.refl _)
  trans := trans
  retainAll w hs := of_still (.retainAll w hs) (rootBag_retainAll w hs ▸ Multiset.Subset.refl _)
  drop w hs := of_still (.drop w hs) (rootBag_drop_subset w hs)
  copyTwin := copyTwin

end Tried

end World

namespace Attained

variable {w x : World} {R S : Hold} {hs : List Handle} {i : TwinId}

/-- What a handle that exists refers to is there. -/
theorem lt_size (hattained : Attained w R) {h : Handle} (hmem : h ∈ w.rootBag + R.handles) :
    h.twin < w.twins.size := by
  obtain ⟨a, ha, -⟩ := hattained.accounts.live_of_held ⟨h, hmem, rfl⟩
  exact (Array.getElem?_eq_some_iff.mp ha).1

/-- There is a handle to what is alive. -/
theorem held_of_alive (hattained : Attained w R) (halive : w.Alive i) : w.Held R i := by
  obtain ⟨a, ha, hlive⟩ := halive
  obtain ⟨h, rfl, htally⟩ := (a.counted_iff i).mp ((hattained.accounts.live i a ha).mp hlive)
  refine ⟨h, Multiset.count_ne_zero.mp ?_, rfl⟩
  rwa [← hattained.accounts.counted, World.tally_eq ha]

/-- A handle to what is there that is taken and let go again changes nothing. -/
theorem drop_retain (hattained : Attained w R) {h : Handle} (hthere : h.twin < w.twins.size) :
    (w.retain h).drop [h] = w := by
  have ha : w.twins[h.twin]? = some w.twins[h.twin] := Array.getElem?_eq_getElem hthere
  refine World.drop_retain ha (Bool.eq_false_iff.mpr fun hdue => ?_)
  simp only [Twin.isDue, Bool.and_eq_true, decide_eq_true_eq] at hdue
  obtain ⟨⟨hnative, hdynamic⟩, hlive⟩ := hdue
  rcases (hattained.accounts.live _ _ ha).mp hlive with h | h
  · exact h hnative
  · exact h hdynamic

theorem has_of_lends (hattained : Attained w R) (hlent : LendsAll R hs) : w.Has hs :=
  fun h hh => hattained.lt_of_lends (hlent h hh)

end Attained

namespace World

variable {w v x : World} {R S : Hold} {hs : List Handle} {i : TwinId}

/-- After candidates were tried there are only those handles to a new twin that somebody was
given meanwhile. -/
theorem Tried.given (htried : w.Tried x)
    (hthere : ∀ h ∈ w.rootBag + S.handles, h.twin < w.twins.size)
    (hx : Attained x (S + ofHandles hs)) (hi : w.twins.size ≤ i) (halive : x.Alive i) :
    ∃ h ∈ hs, h.twin = i := by
  obtain ⟨h, hmem, rfl⟩ := hx.held_of_alive halive
  have hold : h ∉ w.rootBag + S.handles := fun hmem' => absurd (hthere h hmem') (Nat.not_lt.mpr hi)
  rw [Multiset.mem_add, not_or] at hold
  have hsplit : (S + ofHandles hs).handles = S.handles + ↑hs := by simp
  rw [hsplit, Multiset.mem_add, Multiset.mem_add] at hmem
  rcases hmem with hroot | hheld | hgiven
  · exact absurd (htried.stored hroot) hold.1
  · exact absurd hheld hold.2
  · exact ⟨h, Multiset.mem_coe.mp hgiven, rfl⟩

/-- Whether all twins are as they were, and none of those that came into being is alive. -/
structure Cleared (w u : World) : Prop where
  rests : w.Rests u
  released : ∀ i, w.twins.size ≤ i → ¬u.Alive i

theorem Tried.cleared (htried : w.Tried x) (hattained : Attained w R) (hx : Attained x R) :
    w.Cleared x where
  rests := htried.rests
  released i hi halive := by
    have hnothing : Attained x (R + ofHandles []) := hx.cast (by rw [ofHandles_nil, add_zero])
    obtain ⟨h, hh, -⟩ := htried.given (fun h => hattained.lt_size) hnothing hi halive
    cases hh

end World

/-- A twin of the same class with the same in both halves, which belongs to native code. -/
structure Twin.Double (a b : Twin) : Prop where
  kind : b.kind = a.kind
  storage : b.storage = a.storage
  attrs : b.attrs = a.attrs
  owner : b.owner = .native
  moved : b.moved = false
  live : b.stage = .live

namespace World

/-- What a parameter is bound to for an argument: by value to a new double of the instance, by
reference or pointer to the instance itself, and else to the value of its type. -/
def Binds (w x : World) (a : DynValue) (ty : NativeType) (n : NativeValue) : Prop :=
  match ty, a with
  | .object _, .object t => ∃ i b, n = .object i ∧ w.twins.size ≤ i ∧ x.twins[i]? = some b
      ∧ (w.twin t).Double b
  | .ref _, .object t | .ptr _, .object t => n = .object t
  | _, _ => a.coerce w.census ty = some n

/-- How values are passed for parameters, some of which have arguments: these stay as they are,
and of all that was made for them just what is passed is alive. -/
structure Passes (w x : World) (params : List (NativeType × Option DynValue))
    (ns : List NativeValue) : Prop where
  bound : List.Forall₂ (fun p n => ∀ a, p.2 = some a → w.Binds x a p.1 n) params ns
  rests : w.Rests x
  /-- The arguments are alive, and so they are as they were. -/
  intact : ∀ p ∈ params, ∀ t, p.2 = some (.object t) → x.Alive t
  single : ∀ i, w.twins.size ≤ i → x.Alive i → .object i ∈ ns
  unstored : ∀ h ∈ x.roots, h.twin < w.twins.size

variable {w x : World} {S : Hold} {a : DynValue} {ty : NativeType} {n : NativeValue}
  {params : List (NativeType × Option DynValue)} {ns : List NativeValue}

/-- What a parameter was found to get is what it is bound to, if that is alive. -/
theorem Tried.binds (htried : w.Tried x) (hhas : w.Has a.handles) (h : w.Becomes x a ty n)
    (hargument : ∀ t, a = .object t → x.Alive t) (hvalue : ∀ i, n = .object i → x.Alive i) :
    w.Binds x a ty n := by
  obtain ⟨m, hm, hpassed⟩ := h
  cases hpassed with
  | same hshared =>
      cases a with
      | object t =>
          cases ty with
          | object c => exact absurd (DynValue.isA_of_coerce rfl hm).2 (hshared c t rfl)
          | ref c | ptr c => exact (DynValue.isA_of_coerce rfl hm).2
          | _ => exact hm
      | _ => cases ty <;> exact hm
  | @copied c t new hreborn =>
      obtain rfl := DynValue.eq_object_of_coerce hm
      obtain ⟨b, hb, hlive⟩ := hvalue new rfl
      have ht : t < w.twins.size := hhas (.dynamic t) (by simp [DynValue.handles])
      obtain ⟨hstorage, hattrs⟩ := hreborn.alike (hargument t rfl) ⟨b, hb, hlive⟩
      obtain ⟨hstorage', hattrs'⟩ := htried.rests.stored ht (hargument t rfl)
      have hkind := hreborn.kind
      rw [twin_eq hb] at hkind hstorage hattrs
      obtain ⟨howner, hmoved⟩ := htried.owned new b hreborn.fresh hb hlive
      exact ⟨new, b, rfl, hreborn.fresh, hb, hkind.trans (htried.rests.at_twin ht).kind,
        hstorage.trans hstorage', hattrs.trans hattrs', howner, hmoved, hlive⟩

/-- What was found for the parameters of a candidate is passed, if it is held. -/
theorem Tried.passes (htried : w.Tried x)
    (hthere : ∀ h ∈ w.rootBag + S.handles, h.twin < w.twins.size)
    (hx : Attained x (S + NativeValue.holdAll ns))
    (hlent : ∀ p ∈ params, ∀ a, p.2 = some a → LendsAll S a.handles ∧ w.Has a.handles)
    (hbound : List.Forall₂ (fun p n => ∀ a, p.2 = some a → w.Becomes x a p.1 n) params ns) :
    w.Passes x params ns := by
  have hargument : ∀ p ∈ params, ∀ t, p.2 = some (.object t) → x.Alive t := fun p hp t ht =>
    hx.alive_of_lent ((hlent p hp _ ht).1 (.dynamic t) (by simp [DynValue.handles])).left
  have hvalue : ∀ i, .object i ∈ ns → x.Alive i := fun i hi =>
    hx.alive_of_lent (Lends.of_mem (h := .native i)
      (List.mem_flatMap.mpr ⟨_, hi, List.mem_singleton_self _⟩)).right
  constructor
  case bound =>
    rw [List.forall₂_iff_zip] at hbound ⊢
    refine ⟨hbound.1, fun {p n} hmem a ha => ?_⟩
    obtain ⟨hp, hn⟩ := List.of_mem_zip hmem
    exact htried.binds (hlent p hp a ha).2 (hbound.2 hmem a ha)
      (fun t ht => hargument p hp t (ht ▸ ha)) fun i hi => hvalue i (hi ▸ hn)
  case rests => exact htried.rests
  case intact => exact hargument
  case single =>
    intro i hi halive
    obtain ⟨h, hh, rfl⟩ := htried.given hthere hx hi halive
    obtain ⟨n, hn, hh⟩ := List.mem_flatMap.mp hh
    cases n with
    | object j =>
        cases List.mem_singleton.mp hh
        exact hn
    | _ => cases hh
  case unstored =>
    intro h hh
    refine hthere h (Multiset.mem_add.mpr (.inl (htried.stored ?_)))
    rw [← coe_roots]
    exact Multiset.mem_coe.mpr hh

end World

end TwinObject
