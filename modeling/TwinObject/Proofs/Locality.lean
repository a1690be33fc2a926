/-
Construction is local.  What a base comes to depends on nothing that its segments held before,
and construction writes to no segment of another base, whether it succeeds or fails.
-/
import Mathlib.Order.Interval.Set.Basic
import TwinObject.Proofs.Binding
import TwinObject.Proofs.Confinement
import TwinObject.Proofs.Storage

namespace TwinObject

open Hold

namespace World

/-- Whether an instance of a class, and arguments, are lent to running code. -/
structure Lending (w : World) (t : TwinId) (k : Kind) (g : ArgGroup) : Prop where
  lent : ∃ R, Attained w R ∧ Lends R t ∧ LendsAll R g.handles
  kind : (w.twins[t]?).map Twin.kind = some k

namespace Lending

variable {w u : World} {t : TwinId} {k : Kind} {g : ArgGroup}

theorem alive (h : w.Lending t k g) : w.Alive t := by
  obtain ⟨R, hattained, hlent, -⟩ := h.lent
  exact hattained.alive_of_lent hlent

theorem there (h : w.Lending t k g) : t < w.twins.size := by
  obtain ⟨R, hattained, hlent, -⟩ := h.lent
  exact hattained.lt_of_lends hlent

theorem kind_later (h : w.Lending t k g) (hpersists : Persists w u) :
    (u.twins[t]?).map Twin.kind = some k := by
  obtain ⟨a, ha, rfl⟩ := Option.map_eq_some_iff.mp h.kind
  obtain ⟨b, hb, hevolves⟩ := hpersists.twins t a ha
  rw [hb, Option.map_some, hevolves.kind]

/-- What was lent is lent still when safe code came to an end. -/
theorem later {ε α : Type} {give : α → Hold} {post : α → World → Prop} {m m' : Run ε α}
    {e : Ending ε α} (h : w.Lending t k g)
    (hm : ∀ R, Lends R t → LendsAll R g.handles → Run.Ensures R 0 give post w m m')
    (hrun : m w = .ended e u) : u.Lending t k g ∧ Persists w u := by
  obtain ⟨R, hattained, hlent, hgroup⟩ := h.lent
  obtain ⟨hleaves, hpersists⟩ := (hm R hlent hgroup).at_once (hattained.cast (add_zero R)) hrun
  obtain ⟨G, hthere, -⟩ := hleaves.attained
  exact ⟨⟨⟨_, hthere, hlent.left, hgroup.left⟩, h.kind_later hpersists⟩, hpersists⟩

theorem bare (h : w.Lending t k g) : w.Lending t k {} := by
  obtain ⟨R, hattained, hlent, -⟩ := h.lent
  exact ⟨⟨R, hattained, hlent, LendsAll.nil⟩, h.kind⟩

end Lending

end World

namespace Constructor

/-- Whether a parameter gets an instance itself.  Where that is taken by value it gets a copy. -/
def Supply.Hands (t : TwinId) (p : Param) : Supply → Prop
  | clash => False
  | given v _ => v = .object t ∧ ∀ n, p.type ≠ .object n
  | missing => p.default = some (.object t)

/-- Whether a constructor gets an instance itself for some parameter. -/
def Receives (c : Constructor) (t : TwinId) (g : ArgGroup) : Prop :=
  ∃ q ∈ supplies g.keywords c.params g.positional, q.2.Hands t q.1

variable {c : Constructor} {g : ArgGroup} {w u : World} {t : TwinId} {p : Param} {s : Supply}

theorem Supply.Yields.hands (h : s.Yields w u p (.object t)) (ht : t < w.twins.size) :
    s.Hands t p := by
  obtain ⟨name, type, default⟩ := p
  cases s with
  | clash => exact h
  | given v byKeyword =>
      obtain ⟨m, hm, hpassed⟩ := h
      cases hpassed with
      | same hshared =>
          exact ⟨DynValue.eq_object_of_coerce hm, fun n hn => hshared n t hn rfl⟩
      | copied hreborn => exact absurd ht (Nat.not_lt.mpr hreborn.fresh)
  | missing =>
      obtain ⟨d, rfl, hd⟩ := h
      exact congrArg some (NativeValue.eq_object_of_coerce hd)

/-- An instance is among the values for a constructor only if a parameter gets it. -/
theorem receives_of_gives {context : String} {fit : Fit} {args : List NativeValue}
    (hhas : w.Has (g.handles ++ c.handles)) (ht : t < w.twins.size)
    (hgives : (trial context g).Gives w u fit c args) (hmem : .object t ∈ args) :
    c.Receives t g := by
  obtain ⟨-, -, hyields⟩ := of_gives hhas hgives
  obtain ⟨i, hi⟩ := List.mem_iff_getElem?.mp hmem
  obtain ⟨q, hq, hyield⟩ := exists_of_forall₂ hyields.flip hi
  exact ⟨q, List.mem_of_getElem? hq, Supply.Yields.hands hyield ht⟩

end Constructor

/-- Whether the bodies of the constructors of a class and its ancestors are confined to the
segments that they fill, with all that a group of arguments may pass to them.  Ancestors are
constructed without arguments. -/
structure Host.ConfinesClass (h : Host) (t : TwinId) (g : ArgGroup) (c : NativeClass) : Prop where
  own : ∀ b ∈ c.constructors, h.Confines (b.Receives t g) b.body
  inherited : ∀ s ∈ NativeClass.flattenAll c.parents, ∀ b ∈ s.constructors,
    h.Confines (b.Receives t {}) b.body

theorem Host.ConfinesClass.of_flatten {h : Host} {t : TwinId} {c : NativeClass}
    (hbodies : ∀ s ∈ c.flatten, ∀ b ∈ s.constructors, h.Confines (b.Receives t {}) b.body) :
    h.ConfinesClass t {} c where
  own := hbodies c c.mem_flatten_self
  inherited s hs := hbodies s (c.flatten_eq ▸ List.mem_append_left [c] hs)

namespace Construction

variable {h h' : Host} {t : TwinId} {k : Kind} {g : ArgGroup} {fromDerived : Bool}
  {w u w₁ w₂ u₁ u₂ : World}

section Own

variable {s : Site}

/-- The segment of a site is stored. -/
theorem stored_of_lending (hlending : w.Lending s.twin k g) (hfits : s.Fits w) :
    ∃ old, (w.twin s.twin).storage[s.segment]? = some old := by
  obtain ⟨R, hattained, hlent, -⟩ := hlending.lent
  obtain ⟨a, ha, hlive⟩ := hattained.alive_of_lent hlent
  obtain ⟨b, hb, hsegment⟩ := hfits
  cases ha.symm.trans hb
  have hshaped : a.Shaped := hattained.reached fun _ hreach =>
    hreach.invariant.formed.shaped s.twin a ha hlive
  obtain ⟨old, hold, -⟩ := hshaped.segment hsegment
  rw [World.twin_eq ha]
  exact ⟨old, hold⟩

theorem lending_resetSegment (hlending : w.Lending s.twin k g) (hfits : s.Fits w) :
    (resetSegment s w).Lending s.twin k g ∧ s.Fits (resetSegment s w) := by
  obtain ⟨R, hattained, hlent, hgroup⟩ := hlending.lent
  obtain ⟨hthere, hpersists, -⟩ := Attained.along (hattained.cast (add_zero R))
    fun S hreach => Site.reset_path hreach hlent hfits
  exact ⟨⟨⟨R, hthere.cast (add_zero R).symm, hlent, hgroup⟩, hlending.kind_later hpersists⟩,
    hfits.mono hpersists⟩

/-- The instances among the arguments and the defaults are there. -/
theorem has_of_fits {R : Hold} (hattained : Attained w R) (hlent : Lends R s.twin)
    (hfits : s.Fits w) (hgroup : LendsAll R g.handles) :
    w.Has (g.handles ++ s.cls.constructors.flatMap Constructor.handles) := by
  intro d hd
  rcases List.mem_append.mp hd with hd | hd
  · exact hattained.lt_of_lends (hgroup d hd)
  · obtain ⟨a, ha, -⟩ := hattained.reached fun S hreach => hreach.invariant.accounts.live_of_held
      (Site.vouches hlent hfits w S (.refl w) hreach d hd)
    exact (Array.getElem?_eq_some_iff.mp ha).1

/-- What is chosen is a visible constructor, with what it got when it was tried. -/
theorem chosen_of_search
    (hhas : w.Has (g.handles ++ s.cls.constructors.flatMap Constructor.handles)) {c : Constructor}
    {args : List NativeValue} (h : (searchFor s g fromDerived w).1 = .chosen c args) :
    c ∈ s.cls.constructors ∧ c.access.visible fromDerived = true
      ∧ ∃ fit, (Constructor.trial (contextOf s) g).Gives w (searchFor s g fromDerived w).2 fit c
        args := by
  have hsteady := Constructor.steady hhas (contextOf s)
  unfold searchFor at h ⊢
  cases hfirst : firstFit? ((Constructor.trial (contextOf s) g).fits w)
      (Constructor.visible fromDerived s.cls.constructors) with
  | some first =>
      obtain ⟨fit, c'⟩ := first
      obtain ⟨args', u, hsearch, hgives⟩ := Choice.search_some false hsteady (.refl w) hfirst
      rw [hsearch] at h ⊢
      cases h
      obtain ⟨hmem, hvisible⟩ := List.mem_filter.mp (of_firstFit? hfirst).1
      exact ⟨hmem, hvisible, fit, hgives⟩
  | none =>
      obtain ⟨u, hsearch, -⟩ := Choice.search_none false hsteady (.refl w) hfirst
      rw [hsearch] at h
      dsimp only at h
      split at h <;> cases h

/-- The instance itself is among the values for what is chosen only if that is passed to it. -/
theorem receives_of_lending (hlending : w.Lending s.twin k g) (hfits : s.Fits w) {c : Constructor}
    {args : List NativeValue} (h : (searchFor s g fromDerived w).1 = .chosen c args) :
    c ∈ s.cls.constructors ∧ (.object s.twin ∈ args → c.Receives s.twin g) := by
  obtain ⟨R, hattained, hlent, hgroup⟩ := hlending.lent
  have hhas := has_of_fits hattained hlent hfits hgroup
  obtain ⟨hc, -, fit, hgives⟩ := chosen_of_search hhas h
  have hknown := Constructor.has_of_mem hhas hc
  exact ⟨hc, Constructor.receives_of_gives hknown hlending.there hgives⟩

/-- After the search all arguments are alive still, and what was chosen can be run. -/
theorem searchFor_leaves (fromDerived : Bool) (hlending : w.Lending s.twin k g) (hfits : s.Fits w) :
    w.Survive (g.handles.map Handle.twin) (searchFor s g fromDerived w).2
      ∧ ∀ c args, (searchFor s g fromDerived w).1 = .chosen c args →
        (searchFor s g fromDerived w).2.Supports { args, site := some s } := by
  obtain ⟨R, hattained, hlent, hgroup⟩ := hlending.lent
  have hsearch : Act.Safe R 0 Choice.hold w (searchFor s g fromDerived) :=
    Choice.search_safe (contextOf s) fromDerived s.cls.constructors Fit.order false hgroup
      (Site.vouches hlent hfits)
  obtain ⟨hthere, hpersists⟩ := hattained.step hsearch
  refine ⟨fun i hi => ?_, fun c args hchosen => ?_⟩
  · obtain ⟨hd, hmem, rfl⟩ := List.mem_map.mp hi
    exact ⟨hattained.alive_of_lent (hgroup hd hmem),
      hthere.alive_of_lent (hgroup hd hmem).left⟩
  · rw [hchosen] at hthere
    exact ⟨_, hthere, {
      this := fun _ ht => by cases ht
      args := (LendsAll.self _).right
      site := fun s' hs' => by
        cases hs'
        exact ⟨hlent.left, hfits.mono hpersists⟩ }⟩

theorem runBody_follows {c : Constructor} {args : List NativeValue} {passed : Prop}
    (hbody : h.Confines passed c.body) (hpassed : .object s.twin ∈ args → passed)
    (h₁ : w₁.Supports { args, site := some s }) (h₂ : w₂.Supports { args, site := some s })
    (hshares : w₁.Shares s.twin {s.segment} w₂) :
    Course.Follows (fun _ u₁ u₂ => World.Fills s.twin {s.segment} True w₁ w₂ u₁ u₂)
      (runBody h s c args w₁) (runBody h s c args w₂) := by
  let body : Run Failure Unit := do
    let result ← h.native { args, site := some s } c.body
    Run.modify (·.drop result.handles)
  have hran : Course.Follows (fun _ u₁ u₂ => World.Fills s.twin {s.segment} True w₁ w₂ u₁ u₂)
      (body w₁) (body w₂) := by
    refine (hbody s args w₁ w₂ hpassed h₁ h₂ hshares).andThen fun e v₁ v₂ _ _ hfills => ?_
    cases e with
    | value r => exact .ended (hfills.still (.drop v₁ _) (.drop v₂ _))
    | raised f => exact .ended hfills
    | panicked text => exact .ended hfills
  exact hran.andThen fun e v₁ v₂ _ _ hfills => .ended (hfills.still (.drop v₁ _) (.drop v₂ _))

/-- A segment that was reset is filled alike. -/
theorem fillReset_follows
    (hbodies : ∀ c ∈ s.cls.constructors, h.Confines (c.Receives s.twin g) c.body)
    (hself : w₁ = w₂ ∨ ∀ c ∈ s.cls.constructors, ¬c.Duplicates s.twin k g)
    (h₁ : w₁.Lending s.twin k g) (h₂ : w₂.Lending s.twin k g) (hfits₁ : s.Fits w₁)
    (hfits₂ : s.Fits w₂) (hshares : w₁.Shares s.twin {s.segment} w₂) :
    Course.Follows (fun _ u₁ u₂ => World.Fills s.twin {s.segment} True w₁ w₂ u₁ u₂)
      (fillReset h s g fromDerived w₁) (fillReset h s g fromDerived w₂) := by
  have hfound : Act.Local s.twin k (g.handles.map Handle.twin)
      (∀ c ∈ s.cls.constructors, ¬c.Duplicates s.twin k g) (searchFor s g fromDerived) := by
    refine Choice.search_local (contextOf s) (fun i hi => ?_) fromDerived s.cls.constructors id
      Fit.order false
    exact List.mem_map.mpr ⟨.dynamic i, List.mem_flatMap.mpr ⟨_, hi, List.mem_singleton_self _⟩,
      rfl⟩
  unfold fillReset
  split
  · rw [hshares.census]
    exact .ended (.refl hshares)
  · obtain ⟨hkept₁, hrun₁⟩ := searchFor_leaves fromDerived h₁ hfits₁
    obtain ⟨hkept₂, hrun₂⟩ := searchFor_leaves fromDerived h₂ hfits₂
    have halike : (searchFor s g fromDerived w₁).1 = (searchFor s g fromDerived w₂).1
        ∧ (searchFor s g fromDerived w₁).2.Shares s.twin {s.segment}
          (searchFor s g fromDerived w₂).2 := by
      rcases hself with rfl | hself
      · exact ⟨rfl, .refl _⟩
      · exact hfound.alike hself hshares h₁.kind hkept₁ hkept₂
    obtain ⟨hsame, hfilled⟩ := halike
    have hsearched : World.Fills s.twin {s.segment} True w₁ w₂ (searchFor s g fromDerived w₁).2
        (searchFor s g fromDerived w₂).2 :=
      ⟨.of_rests (hfound.rests w₁) h₁.there, .of_rests (hfound.rests w₂) h₂.there, fun _ => hfilled⟩
    rw [hsame] at hrun₁ ⊢
    cases hchoice : (searchFor s g fromDerived w₂).1 with
    | chosen c args =>
        obtain ⟨hc, hpassed⟩ := receives_of_lending h₂ hfits₂ hchoice
        exact (runBody_follows (hbodies c hc) hpassed (hrun₁ c args hchoice) (hrun₂ c args hchoice)
          hfilled).mono fun _ _ _ hfills => hsearched.again hfills
    | _ =>
        rw [hshares.census]
        exact .ended hsearched

theorem constructOwn_follows (fromDerived : Bool)
    (hbodies : ∀ c ∈ s.cls.constructors, h.Confines (c.Receives s.twin g) c.body)
    (hself : w₁ = w₂ ∨ ∀ c ∈ s.cls.constructors, ¬c.Duplicates s.twin k g)
    (h₁ : w₁.Lending s.twin k g) (h₂ : w₂.Lending s.twin k g) (hfits₁ : s.Fits w₁)
    (hfits₂ : s.Fits w₂) (hshares : w₁.Shares s.twin ∅ w₂) :
    Course.Follows (fun _ u₁ u₂ => World.Fills s.twin {s.segment} True w₁ w₂ u₁ u₂)
      (constructOwn h s g fromDerived w₁) (constructOwn h s g fromDerived w₂) := by
  obtain ⟨old₁, hold₁⟩ := stored_of_lending h₁ hfits₁
  obtain ⟨old₂, hold₂⟩ := stored_of_lending h₂ hfits₂
  obtain ⟨hreset₁, hfits₁⟩ := lending_resetSegment h₁ hfits₁
  obtain ⟨hreset₂, hfits₂⟩ := lending_resetSegment h₂ hfits₂
  have hreset := hshares.resetSegment hold₁ hold₂
  rw [constructOwn_eq, constructOwn_eq]
  refine (fillReset_follows hbodies (hself.imp_left fun hsame => by rw [hsame]) hreset₁ hreset₂
    hfits₁ hfits₂ hreset).mono fun _ _ _ hfills => ?_
  exact World.Fills.again ⟨.resetSegment s w₁, .resetSegment s w₂, fun _ => hreset⟩ hfills

end Own

section Classes

theorem follows_onRaise {ε α : Type} {S : Set Nat} {done : Ending ε α → Prop} {m : Run ε α}
    {held : List Token} {f : World → World} {v₁ v₂ : World} (hf : ∀ w : World, w.Still (f w))
    (hm : Course.Follows (fun e u₁ u₂ => World.Fills t S (done e) w₁ w₂ u₁ u₂) (m v₁) (m v₂)) :
    Course.Follows (fun e u₁ u₂ => World.Fills t S (done e) w₁ w₂ u₁ u₂)
      (Run.onRaise held m f v₁) (Run.onRaise held m f v₂) := by
  refine hm.andThen fun e u₁ u₂ _ _ hfills => ?_
  cases e with
  | value a => exact .ended hfills
  | raised e => exact .ended (hfills.still (hf u₁) (hf u₂))
  | panicked text => exact .ended hfills

theorem value_of_onRaise {ε α : Type} {m : Run ε α} {held : List Token} {f : World → World} {a : α}
    (h : Run.onRaise held m f w = .ended (.value a) u) : m w = .ended (.value a) u := by
  obtain ⟨e, v, hm, hnext⟩ := Course.ended_of_andThen h
  cases e <;> cases hnext
  exact hm

mutual

theorem constructClass_follows (hsafe : h.Safe h') (t : TwinId) (k : Kind) (g : ArgGroup)
    (fromDerived : Bool) : (c : NativeClass) → (start : Nat) → {w₁ w₂ : World} →
      h.ConfinesClass t g c → (w₁ = w₂ ∨ ∀ b ∈ c.constructors, ¬b.Duplicates t k g) →
      w₁.Lending t k g → w₂.Lending t k g →
      w₁.Places t c.flatten start → w₂.Places t c.flatten start → w₁.Shares t ∅ w₂ →
      Course.Follows (fun e u₁ u₂ => World.Fills t (Set.Ico start (start + c.segmentCount))
          (e = .value ()) w₁ w₂ u₁ u₂)
        (constructClass h t g fromDerived c start w₁) (constructClass h t g fromDerived c start w₂)
  | c@⟨_, _, parents, _, _, _, _, _, _, _⟩, start, w₁, w₂, hbodies, hself, h₁, h₂, hplaces₁,
      hplaces₂, hshares => by
      rw [constructClass]
      rw [NativeClass.flatten_eq] at hplaces₁ hplaces₂
      have hrange : Set.Ico start (start + NativeClass.segmentCounts parents)
          ∪ {start + NativeClass.segmentCounts parents}
            = Set.Ico start (start + (NativeClass.segmentCounts parents + 1)) := by
        ext j
        simp only [Set.mem_union, Set.mem_Ico, Set.mem_singleton_iff]
        omega
      rw [NativeClass.segmentCount, ← hrange]
      refine (constructParents_follows hsafe t k [] parents start hbodies.inherited h₁.bare h₂.bare
        hplaces₁.left hplaces₂.left hshares).andThen fun e v₁ v₂ hv₁ hv₂ hparents => ?_
      cases e with
      | value _ =>
          have hdone := hparents.alike rfl
          obtain ⟨h₁, hpersists₁⟩ := h₁.later (fun R hlent _ =>
            constructParents_safe hsafe t [] parents start hlent hplaces₁.left) hv₁
          obtain ⟨h₂, hpersists₂⟩ := h₂.later (fun R hlent _ =>
            constructParents_safe hsafe t [] parents start hlent hplaces₂.left) hv₂
          have hsite₁ := (NativeClass.segmentCounts_eq parents ▸ hplaces₁.right).mono hpersists₁
          have hsite₂ := (NativeClass.segmentCounts_eq parents ▸ hplaces₂.right).mono hpersists₂
          have hself : v₁ = v₂ ∨ _ := hself.imp_left fun hsame => by
            cases (hsame ▸ hv₁).symm.trans hv₂
            rfl
          have hown := (constructOwn_follows fromDerived hbodies.own hself h₁ h₂ hsite₁.fits
            hsite₂.fits (hdone.mono (Set.empty_subset _))).mono fun e _ _ hfills =>
              hparents.trans rfl (hfills.mono Set.Subset.rfl fun (_ : e = .value ()) =>
                ⟨trivial, Set.Subset.rfl⟩)
          refine (follows_onRaise (fun w => .record w _) hown).andThen
            fun e u₁ u₂ _ _ hfills => ?_
          cases e with
          | value _ => exact .ended (hfills.still (.record u₁ _) (.record u₂ _))
          | raised f => exact .ended hfills
          | panicked text => exact .ended hfills
      | raised f => exact .ended (hparents.mono Set.subset_union_left nofun)
      | panicked text => exact .ended (hparents.mono Set.subset_union_left nofun)

theorem constructParents_follows (hsafe : h.Safe h') (t : TwinId) (k : Kind)
    (built : List NativeClass) : (ps : List NativeClass) → (start : Nat) → {w₁ w₂ : World} →
      (∀ s ∈ NativeClass.flattenAll ps, ∀ b ∈ s.constructors,
        h.Confines (b.Receives t {}) b.body) →
      w₁.Lending t k {} → w₂.Lending t k {} → w₁.Places t (NativeClass.flattenAll ps) start →
      w₂.Places t (NativeClass.flattenAll ps) start → w₁.Shares t ∅ w₂ →
      Course.Follows (fun e u₁ u₂ => World.Fills t
          (Set.Ico start (start + NativeClass.segmentCounts ps)) (e = .value ()) w₁ w₂ u₁ u₂)
        (constructParents h t built ps start w₁) (constructParents h t built ps start w₂)
  | [], start, w₁, w₂, hbodies, h₁, h₂, hplaces₁, hplaces₂, hshares => by
      rw [constructParents]
      refine .ended ((World.Fills.refl hshares).mono (Set.empty_subset _) fun _ => ⟨trivial, ?_⟩)
      rw [NativeClass.segmentCounts, Nat.add_zero, Set.Ico_self]
  | p :: ps, start, w₁, w₂, hbodies, h₁, h₂, hplaces₁, hplaces₂, hshares => by
      rw [constructParents]
      rw [NativeClass.flattenAll] at hbodies hplaces₁ hplaces₂
      have hrange : Set.Ico start (start + p.segmentCount) ∪ Set.Ico (start + p.segmentCount)
          (start + p.segmentCount + NativeClass.segmentCounts ps)
            = Set.Ico start (start + (p.segmentCount + NativeClass.segmentCounts ps)) := by
        ext j
        simp only [Set.mem_union, Set.mem_Ico]
        omega
      rw [NativeClass.segmentCounts, ← hrange]
      have hfirst := constructClass_follows hsafe t k {} true p start
        (.of_flatten fun s hs => hbodies s (List.mem_append_left _ hs))
        (.inr fun b _ => b.not_duplicates_nil) h₁ h₂ hplaces₁.left hplaces₂.left hshares
      refine (follows_onRaise (fun w => .record w _) hfirst).andThen fun e v₁ v₂ hv₁ hv₂ hp => ?_
      cases e with
      | value _ =>
          obtain ⟨h₁, hpersists₁⟩ := h₁.later (fun R hlent _ =>
            constructClass_safe hsafe t {} true p start hlent LendsAll.nil hplaces₁.left)
            (value_of_onRaise hv₁)
          obtain ⟨h₂, hpersists₂⟩ := h₂.later (fun R hlent _ =>
            constructClass_safe hsafe t {} true p start hlent LendsAll.nil hplaces₂.left)
            (value_of_onRaise hv₂)
          refine (constructParents_follows hsafe t k (built ++ [p]) ps _
            (fun s hs => hbodies s (List.mem_append_right _ hs)) h₁ h₂
            ((NativeClass.segmentCount_eq p ▸ hplaces₁.right).mono hpersists₁)
            ((NativeClass.segmentCount_eq p ▸ hplaces₂.right).mono hpersists₂)
            ((hp.alike rfl).mono (Set.empty_subset _))).mono fun _ _ _ hfills => ?_
          exact hp.trans rfl hfills
      | raised f => exact .ended (hp.mono Set.subset_union_left nofun)
      | panicked text => exact .ended (hp.mono Set.subset_union_left nofun)

end

end Classes

section Bases

/-- Storage that nobody fills is filled at once. -/
theorem filling_eq {ε α : Type} {m : Run ε α} (hfree : (w.twin t).filling = false) :
    Run.filling t m w = (m (w.setFilling t true)).andThen
      [.storage t ((w.setFilling t true).twin t).constructed]
      fun e u => .ended e (u.setFilling t false) := by
  have hawait : (Run.await fun v : World => if (v.twin t).filling then none
      else some (v.setFilling t true) : Run ε Unit) w
        = .ended (.value ()) (w.setFilling t true) := by
    simp only [Run.await, hfree, Bool.false_eq_true, if_false]
  unfold Run.filling
  rw [Run.bind_value hawait]
  rfl

theorem lending_setFilling (hlending : w.Lending t k g) (hfree : (w.twin t).filling = false) :
    (w.setFilling t true).Lending t k g := by
  obtain ⟨R, hattained, hlent, hgroup⟩ := hlending.lent
  exact ⟨⟨_, hattained.fill hlent hfree, hlent.left, hgroup.left⟩,
    hlending.kind_later (.modifyTwin t fun _ => ⟨rfl, rfl, id, id⟩)⟩

theorem places_setFilling {b : BaseRange} {index : Nat} (hlending : w.Lending t k g)
    (hbase : k.layout.baseRange? index = some b) :
    (w.setFilling t true).Places t b.base.flatten b.start := by
  obtain ⟨a, ha, rfl⟩ := Option.map_eq_some_iff.mp hlending.kind
  exact (World.Places.of_baseRange ha hbase).mono (.modifyTwin t fun _ => ⟨rfl, rfl, id, id⟩)

theorem kind_of_lending (hlending : w.Lending t k g) : (w.twin t).kind = k := by
  obtain ⟨a, ha, rfl⟩ := Option.map_eq_some_iff.mp hlending.kind
  rw [World.twin_eq ha]

/-- While its storage is filled, and after that, the instance stays alive. -/
theorem alive_of_constructClass (hsafe : h.Safe h') {index : Nat} {b : BaseRange}
    (hbase : k.layout.baseRange? index = some b) (hlending : w.Lending t k g)
    (hfree : (w.twin t).filling = false) {e : Ending Failure Unit}
    (hrun : constructClass h t g fromDerived b.base b.start (w.setFilling t true) = .ended e u) :
    (u.setFilling t false).Alive t := by
  obtain ⟨hlater, -⟩ := (lending_setFilling hlending hfree).later (fun R hlent hgroup =>
    constructClass_safe hsafe t g fromDerived b.base b.start hlent hgroup
      (places_setFilling hlending hbase)) hrun
  exact hlater.alive.modifyTwin fun _ => rfl

/-- The storage of an instance is filled alike in worlds that agree but for that storage. -/
theorem filling_follows (hsafe : h.Safe h') {index : Nat} {b : BaseRange}
    (hbase : k.layout.baseRange? index = some b)
    (hbodies : h.ConfinesClass t g b.base)
    (hself : w₁ = w₂ ∨ ∀ c ∈ b.base.constructors, ¬c.Duplicates t k g)
    (h₁ : w₁.Lending t k g) (h₂ : w₂.Lending t k g) (hfree₁ : (w₁.twin t).filling = false)
    (hfree₂ : (w₂.twin t).filling = false) (hshares : w₁.Shares t ∅ w₂) :
    Course.Follows (fun e u₁ u₂ => World.Fills t
        (Set.Ico b.start (b.start + b.base.segmentCount)) (e = .value ()) w₁ w₂ u₁ u₂
          ∧ u₁.Alive t ∧ u₂.Alive t)
      (Run.filling t (constructClass h t g fromDerived b.base b.start) w₁)
      (Run.filling t (constructClass h t g fromDerived b.base b.start) w₂) := by
  have hfilled₁ : w₁.Adjusts t (w₁.setFilling t true) := .setFilling w₁ true
  have hfilled₂ : w₂.Adjusts t (w₂.setFilling t true) := .setFilling w₂ true
  rw [filling_eq hfree₁, filling_eq hfree₂]
  refine (constructClass_follows hsafe t k g fromDerived b.base b.start hbodies
    (hself.imp_left fun hsame => by rw [hsame]) (lending_setFilling h₁ hfree₁)
    (lending_setFilling h₂ hfree₂) (places_setFilling h₁ hbase) (places_setFilling h₂ hbase)
    (hfilled₂.shares (hfilled₁.shares hshares).symm).symm).andThen fun e v₁ v₂ hv₁ hv₂ hfills => ?_
  exact .ended ⟨(hfills.since hfilled₁ hfilled₂).adjust (.setFilling v₁ false)
      (.setFilling v₂ false), alive_of_constructClass hsafe hbase h₁ hfree₁ hv₁,
    alive_of_constructClass hsafe hbase h₂ hfree₂ hv₂⟩

/-- A base is constructed alike in worlds that agree but for the storage of its instance,
which stays alive. -/
theorem constructBase_follows (hsafe : h.Safe h') {index : Nat} {b : BaseRange}
    (hbase : k.layout.baseRange? index = some b)
    (hbodies : h.ConfinesClass t g b.base)
    (hself : w₁ = w₂ ∨ ∀ c ∈ b.base.constructors, ¬c.Duplicates t k g)
    (h₁ : w₁.Lending t k g) (h₂ : w₂.Lending t k g) (hfree₁ : (w₁.twin t).filling = false)
    (hfree₂ : (w₂.twin t).filling = false) (hshares : w₁.Shares t ∅ w₂) :
    Course.Follows (fun e u₁ u₂ => World.Fills t
        (Set.Ico b.start (b.start + b.base.segmentCount)) (e = .value ()) w₁ w₂ u₁ u₂
          ∧ u₁.Alive t ∧ u₂.Alive t)
      (constructBase h t index g fromDerived w₁) (constructBase h t index g fromDerived w₂) := by
  have hrange : ∀ {w : World}, w.Lending t k g →
      (w.twin t).layout.baseRange? index = some b := fun hlending => by
    rw [Twin.layout, kind_of_lending hlending, hbase]
  rw [constructBase_of_some h g fromDerived (hrange h₁),
    constructBase_of_some h g fromDerived (hrange h₂)]
  refine (filling_follows hsafe hbase hbodies hself h₁ h₂ hfree₁ hfree₂ hshares).andThen
    fun e v₁ v₂ _ _ hends => ?_
  obtain ⟨hfills, halive₁, halive₂⟩ := hends
  cases e with
  | value _ =>
      exact .ended ⟨hfills.adjust (.markBuilt v₁ index b.base) (.markBuilt v₂ index b.base),
        halive₁.markBuilt index b.base, halive₂.markBuilt index b.base⟩
  | raised f => exact .ended ⟨hfills, halive₁, halive₂⟩
  | panicked text => exact .ended ⟨hfills, halive₁, halive₂⟩

/-- A base is constructed in its own segments, with any arguments. -/
theorem constructBase_writes (hsafe : h.Safe h') {index : Nat} {b : BaseRange}
    (hbase : k.layout.baseRange? index = some b)
    (hbodies : h.ConfinesClass t g b.base)
    (hlending : w.Lending t k g) (hfree : (w.twin t).filling = false) {e : Ending Failure Unit}
    (hrun : constructBase h t index g fromDerived w = .ended e u) {j : Nat}
    (hj : j < b.start ∨ b.start + b.base.segmentCount ≤ j) :
    (u.twin t).storage[j]? = (w.twin t).storage[j]? := by
  obtain ⟨_, -, hfills, halive, -⟩ := constructBase_follows hsafe hbase hbodies (.inl rfl) hlending
    hlending hfree hfree (.refl w) e u hrun
  refine hfills.left.storage halive fun hin => ?_
  have hle := hin.1
  have hlt := hin.2
  omega

end Bases

end Construction

/-- Whether a base of an instance can be constructed with some arguments: both are lent, and
nobody fills the storage of the instance. -/
structure World.Prepared (w : World) (t : TwinId) (g : ArgGroup) : Prop where
  lent : ∃ R, Attained w R ∧ Lends R t ∧ LendsAll R g.handles
  free : (w.twin t).filling = false

namespace World.Prepared

variable {w : World} {t : TwinId} {g : ArgGroup}

theorem lending (h : w.Prepared t g) : w.Lending t (w.twin t).kind g where
  lent := h.lent
  kind := by
    obtain ⟨R, hattained, hlent, -⟩ := h.lent
    obtain ⟨a, ha, -⟩ := hattained.alive_of_lent hlent
    rw [twin_eq ha, ha]
    rfl

end World.Prepared

open Construction in
/-- Construction of a base is local, and depends on no history, if the bodies of its
constructors are confined to the segments that they fill.  In worlds that agree but for what
the instance has stored it ends in the same way, with the same error if it fails, and the
segments of the base come out the same when it succeeds, unless a parameter takes the instance
itself by value: a copy of that would wait for its storage.  The segments of other bases are
left alone whatever happens. -/
theorem construction_local (depth : Nat) {t : TwinId} (index : Nat) {g : ArgGroup}
    (fromDerived : Bool) {w₁ w₂ : World} (h₁ : w₁.Prepared t g) (h₂ : w₂.Prepared t g)
    (hshares : w₁.Shares t ∅ w₂)
    (hbodies : ∀ b, (w₁.twin t).layout.baseRange? index = some b →
      (Host.nested .memo depth).ConfinesClass t g b.base) :
    let build := constructBase (.nested .memo depth) t index g fromDerived
    ((∀ b, (w₁.twin t).layout.baseRange? index = some b → ∀ c ∈ b.base.constructors,
        ¬c.Duplicates t (w₁.twin t).kind g) →
      (∀ e, (∃ u₁, build w₁ = .ended e u₁) ↔ ∃ u₂, build w₂ = .ended e u₂)
      ∧ ∀ u₁ u₂, build w₁ = .ended (.value ()) u₁ → build w₂ = .ended (.value ()) u₂ →
        ∀ b, (w₁.twin t).layout.baseRange? index = some b → ∀ j, b.start ≤ j → j < b.stop →
          (u₁.twin t).storage[j]? = (u₂.twin t).storage[j]?)
    ∧ ∀ w ∈ [w₁, w₂], ∀ e u, build w = .ended e u → ∀ j,
      (∀ b, (w₁.twin t).layout.baseRange? index = some b → j < b.start ∨ b.stop ≤ j) →
        (u.twin t).storage[j]? = (w.twin t).storage[j]? := by
  intro build
  have hsafe := Host.nested_safe Dispatcher.memo.noSlot Dispatcher.memo.bare depth
  have hkinds : ∀ w ∈ [w₁, w₂], (w.twin t).kind = (w₁.twin t).kind := by
    simp [hshares.kind t]
  cases hbase : (w₁.twin t).layout.baseRange? index with
  | none =>
      have hrefused : ∀ w ∈ [w₁, w₂], build w = .ended
          (.raised (.unsupportedComposition ("no base at position " ++ toString index))) w := by
        intro w hw
        refine constructBase_of_none _ g fromDerived ?_
        rw [Twin.layout, hkinds w hw, ← Twin.layout, hbase]
      have hends : ∀ v₁ ∈ [w₁, w₂], ∀ v₂ ∈ [w₁, w₂],
          Course.Follows (fun _ _ _ => True) (build v₁) (build v₂) := fun v₁ hv₁ v₂ hv₂ => by
        rw [hrefused v₁ hv₁, hrefused v₂ hv₂]
        exact .ended trivial
      refine ⟨fun _ => ⟨(hends w₁ (by simp) w₂ (by simp)).ends_iff (hends _ (by simp) _ (by simp)),
        fun _ _ _ _ b hb => absurd hb.symm (Option.some_ne_none b)⟩, fun w hw e u hrun j _ => ?_⟩
      cases (hrefused w hw).symm.trans hrun
      rfl
  | some b =>
      have hbodies := hbodies b hbase
      have hstop : b.stop = b.start + b.base.segmentCount := by
        rw [NativeClass.segmentCount_eq]
        exact (Layout.range_of_mem_ranges (List.mem_of_getElem? hbase)).1
      have hprepared : ∀ w ∈ [w₁, w₂], w.Prepared t g := by simp [h₁, h₂]
      have hlending : ∀ w ∈ [w₁, w₂], w.Lending t (w₁.twin t).kind g := fun w hw =>
        hkinds w hw ▸ (hprepared w hw).lending
      refine ⟨fun hself => ?_, fun w hw e u hrun j hj => ?_⟩
      · have hforth : Course.Follows _ (build w₁) (build w₂) := constructBase_follows hsafe hbase
          hbodies (.inr (hself b rfl)) (hlending w₁ (by simp)) (hlending w₂ (by simp)) h₁.free
          h₂.free hshares
        have hback : Course.Follows _ (build w₂) (build w₁) := constructBase_follows hsafe hbase
          hbodies (.inr (hself b rfl)) (hlending w₂ (by simp)) (hlending w₁ (by simp)) h₂.free
          h₁.free hshares.symm
        refine ⟨hforth.ends_iff hback, ?_⟩
        rintro u₁ u₂ hrun₁ hrun₂ b ⟨⟩ j hle hlt
        obtain ⟨_, hrun, hfills, halive₁, halive₂⟩ := hforth _ u₁ hrun₁
        cases hrun₂.symm.trans hrun
        exact (hfills.alike rfl).storage halive₁ halive₂ ⟨hle, hstop ▸ hlt⟩
      · exact constructBase_writes hsafe hbase hbodies (hlending w hw) (hprepared w hw).free hrun
          (hstop ▸ hj b rfl)

/-! A gauge that was made, but not constructed, and the same one after an assignment. -/

namespace Gauge

def gauge : NativeClass :=
  { (default : NativeClass) with
    name := "Gauge"
    members := [⟨"level", .int, .everyone, .int 0⟩]
    constructors := [⟨[⟨"level", .int, none⟩], .everyone, .initField "level" (.arg 0)⟩] }

def arguments : ArgGroup := { positional := [.int 5] }

def empty : World :=
  ((World.initial.withNative gauge).admitTwin (.fresh 0 (.native gauge) .native)).1

def full : World :=
  empty.setTwin 0 { empty.twin 0 with storage := [[.int 7]] }

theorem empty_attained : Attained empty {.handle (.dynamic 0)} := by
  have hinitial : Attained .initial 0 := .of_reachable .initial
  obtain ⟨hdeclared, hkept⟩ := hinitial.declare (c := gauge) rfl nofun (by decide)
    (List.forall_mem_singleton.mpr (.inl rfl)) rfl
  exact (hdeclared.create (k := .native gauge) .native hkept rfl ⟨Nat.zero_lt_one, nofun⟩
    Attributes.handles_empty).cast (zero_add _).symm

theorem lent : Lends {.handle (.dynamic 0)} 0 :=
  LendsAll.self [.dynamic 0] _ List.mem_cons_self

theorem full_attained : Attained full {.handle (.dynamic 0)} := by
  have hassigned := (empty_attained.cast (add_zero _)).setAttr (v := .int 7) lent "level"
  have hfull : (World.setAttr 0 "level" (.int 7) empty).2 = full := by with_unfolding_all rfl
  exact hfull ▸ hassigned

end Gauge

/-! A panel is composed of a dial, which is set to what a gauge shows and derives from a frame
that is constructed with its default, and of a lamp. -/

namespace Panel

def frame : NativeClass :=
  { (default : NativeClass) with
    id := ⟨1⟩, name := "Frame"
    members := [⟨"level", .int, .everyone, .int 1⟩, ⟨"light", .int, .owner, .int 2⟩]
    constructors := [⟨[⟨"level", .int, some (.int 6)⟩], .everyone, .initField "level" (.arg 0)⟩] }

def dial : NativeClass :=
  { (default : NativeClass) with
    id := ⟨2⟩, name := "Dial", parents := [frame]
    members := [⟨"mark", .int, .everyone, .int 0⟩]
    constructors := [⟨[⟨"source", .ref "Gauge", none⟩], .everyone,
      .initField "mark" (.field (.arg 0) "level")⟩] }

def lamp : NativeClass :=
  { (default : NativeClass) with
    id := ⟨3⟩, name := "Lamp", members := [⟨"light", .int, .everyone, .int 3⟩] }

def panel : DynamicClass where
  own := { id := 0, name := "Panel", interp := 0, methods := [], initializer := none }
  ancestors := []
  composition := ⟨[dial, lamp], .empty⟩
  warnings := []

def shelf : World :=
  ((Gauge.full.withNative frame).withNative dial).withNative lamp

def fresh : World :=
  ((World.admitClass panel {} shelf).admitTwin (.fresh 0 (.dynamic panel) .native)).1

/-- The panel after its visible members were assigned. -/
def used : World :=
  fresh.setTwin 1 { fresh.twin 1 with storage := [[.int 8, .int 2], [.int 8], [.int 8]] }

def arguments : ArgGroup := { positional := [.object 0] }

def hold : Hold := {.handle (.dynamic 0), .handle (.dynamic 1)}

theorem shelf_attained : Attained shelf {.handle (.dynamic 0)}
    ∧ ∀ b ∈ [dial, lamp], shelf.Keeps b := by
  obtain ⟨hframe, hframe'⟩ := Gauge.full_attained.declare (c := frame) rfl nofun (by decide)
    (List.forall_mem_cons.mpr ⟨.inl rfl, List.forall_mem_singleton.mpr (.inl rfl)⟩) rfl
  obtain ⟨hdial, hdial'⟩ := hframe.declare (c := dial) rfl (List.forall_mem_singleton.mpr hframe')
    (by decide) (List.forall_mem_singleton.mpr (.inl rfl)) rfl
  obtain ⟨hlamp, hlamp'⟩ := hdial.declare (c := lamp) rfl nofun (by decide)
    (List.forall_mem_singleton.mpr (.inl rfl)) rfl
  exact ⟨hlamp, List.forall_mem_cons.mpr ⟨hdial'.withNative lamp,
    List.forall_mem_singleton.mpr hlamp'⟩⟩

theorem lends : LendsAll hold [.dynamic 0, .dynamic 1] :=
  LendsAll.self [.dynamic 0, .dynamic 1]

theorem lent : Lends hold 1 :=
  lends (.dynamic 1) (List.mem_cons_of_mem _ List.mem_cons_self)

theorem fresh_attained : Attained fresh hold := by
  obtain ⟨hshelf, hkept⟩ := shelf_attained
  obtain ⟨hregistered, -⟩ := (hshelf.cast (add_zero _)).along fun S _ =>
    (Transition.register (R := S + _) (c := panel) rfl hkept Nat.zero_lt_one {}).path.cast
      (by rw [Attributes.handles_empty, ofHandles_nil]) (add_zero _)
  have hhouses : (World.admitClass panel {} shelf).Houses 0 (.dynamic panel) :=
    ⟨Nat.zero_lt_one, by rintro c ⟨⟩; rfl⟩
  exact (hregistered.cast (add_zero _).symm).create .native ⟨_, rfl, rfl⟩ rfl hhouses
    Attributes.handles_empty

theorem used_attained : Attained used hold := by
  have hassign : ∀ {w : World} (name : String), Attained w hold →
      Attained (World.setAttr 1 name (.int 8) w).2 hold := fun name hattained =>
    (hattained.cast (add_zero _)).setAttr (v := .int 8) lent name
  have hused : (World.setAttr 1 "light" (.int 8) (World.setAttr 1 "mark" (.int 8)
      (World.setAttr 1 "level" (.int 8) fresh).2).2).2 = used := by with_unfolding_all rfl
  exact hused ▸ hassign "light" (hassign "mark" (hassign "level" fresh_attained))

theorem shares : fresh.Shares 1 ∅ used where
  kinds i := by rcases i with - | - | i <;> rfl
  others i a b hi ha hb := by
    rcases i with - | - | i
    · cases ha.symm.trans hb
      exact fun _ _ => rfl
    · exact absurd rfl hi
    · cases ha
  segments _ _ _ _ _ _ _ := nofun

theorem prepared {w : World} (hattained : Attained w hold) (hfree : (w.twin 1).filling = false) :
    w.Prepared 1 arguments where
  lent := ⟨hold, hattained, lent,
    lends.subset fun _ hd => List.mem_cons.mpr (.inl (List.mem_singleton.mp hd))⟩
  free := hfree

theorem confined : (Host.nested .memo 3).ConfinesClass 1 arguments dial where
  own b hb := by
    obtain rfl := List.mem_singleton.mp hb
    refine NativeExpr.Plain.confines 3 (.initField "mark" (.field ?_ 0 "level"))
    rintro ⟨q, hq, hhands⟩
    obtain rfl := List.mem_singleton.mp hq
    cases hhands.1
  inherited s hs b hb := by
    obtain rfl := List.mem_singleton.mp hs
    obtain rfl := List.mem_singleton.mp hb
    exact NativeExpr.Plain.confines 3 (.initField "level" (.arg 0))

end Panel

open Construction Panel in
theorem construction_local_panel :
    let build := constructBase (.nested .memo 3) 1 0 arguments false
    (∃ u, build fresh = .ended (.value ()) u
      ∧ (u.twin 1).storage = [[.int 6, .int 2], [.int 7], [.int 3]])
    ∧ ∃ u, build used = .ended (.value ()) u
      ∧ (u.twin 1).storage[0]? = some [.int 6, .int 2] ∧ (u.twin 1).storage[1]? = some [.int 7]
      ∧ (u.twin 1).storage[2]? = some [.int 8] := by
  intro build
  have hfresh : ∃ u, build fresh = .ended (.value ()) u
      ∧ (u.twin 1).storage = [[.int 6, .int 2], [.int 7], [.int 3]] := by
    with_unfolding_all exact ⟨_, rfl, rfl⟩
  have hbase : (fresh.twin 1).layout.baseRange? 0 = some ⟨dial, 0, 2⟩ := rfl
  have hself : ∀ c ∈ dial.constructors, ¬c.Duplicates 1 (fresh.twin 1).kind arguments := by
    rintro c hc ⟨q, hq, n, b, hn, -⟩
    obtain rfl := List.mem_singleton.mp hc
    obtain rfl := List.mem_singleton.mp hq
    cases hn
  obtain ⟨halike, hapart⟩ := construction_local 3 0 false (prepared fresh_attained rfl)
    (prepared used_attained rfl) shares (by rintro b ⟨⟩; exact confined)
  obtain ⟨hends, hsame⟩ := halike (by rintro b ⟨⟩; exact hself)
  obtain ⟨u₁, hrun₁, hstored⟩ := hfresh
  obtain ⟨u₂, hrun₂⟩ := (hends _).mp ⟨u₁, hrun₁⟩
  have hagain := hsame u₁ u₂ hrun₁ hrun₂ _ hbase
  refine ⟨⟨u₁, hrun₁, hstored⟩, u₂, hrun₂, ?_, ?_, ?_⟩
  · rw [← hagain 0 (by decide) (by decide), hstored]
    rfl
  · rw [← hagain 1 (by decide) (by decide), hstored]
    rfl
  · rw [hapart used (by simp) _ u₂ hrun₂ 2 (by rintro b ⟨⟩; exact .inr (by decide))]
    rfl

end TwinObject
