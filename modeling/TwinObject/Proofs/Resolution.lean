/-
Resolution of a call by name in a virtual table.  The slot that is reached fits exactly if any
that may be called does, is non-const if one of those fits, and is the lowest of what is left;
and a view that promises not to change an instance reaches const slots only.
-/
import TwinObject.Proofs.Selection
import TwinObject.Proofs.Safe.Dispatch

namespace TwinObject

/-- The arguments of a caller on either side. -/
inductive Arguments where
  | native (args : List NativeValue)
  | dynamic (context : String) (args : List DynValue)

namespace Arguments

/-- How candidates are tried with the arguments. -/
def conversion : Arguments → Conversion Act
  | native args => Crossing.fromNative args
  | dynamic context args => Crossing.fromDynamic context args

def handles : Arguments → List Handle
  | native args => args.flatMap NativeValue.handles
  | dynamic _ args => args.flatMap DynValue.handles

/-- Whether the arguments can be converted to the types of parameters. -/
def fits (a : Arguments) (w : World) (fit : Fit) (params : List NativeType) : Bool :=
  (a.conversion.convert params fit w).1.isSome

/-- Whether values are what parameters get for the arguments. -/
def Become (a : Arguments) (w u : World) (params : List NativeType) (ns : List NativeValue) :
    Prop :=
  match a with
  | native args =>
      args.length = params.length
        ∧ List.Forall₂ (fun p n => p.1.coerce w.census p.2 = some n) (args.zip params) ns
  | dynamic _ args =>
      args.length = params.length
        ∧ List.Forall₂ (fun p n => w.Becomes u p.1 p.2 n) (args.zip params) ns

variable {α : Type} {params : α → List NativeType} {cs : List α} {c : α} {a : Arguments}
  {w u : World} {fit : Fit} {ns : List NativeValue}

theorem steady (hhas : w.Has a.handles) :
    Trial.Steady (fun c => a.conversion.convert (params c)) cs w := by
  cases a with
  | native args => exact Crossing.steady_coerceArgs hhas
  | dynamic context args => exact Crossing.steady_argsToNative context hhas

theorem discard_rests (a : Arguments) (ns : List NativeValue) (w : World) :
    w.Rests (a.conversion.discard ns w).2 := by
  cases a <;> exact (World.Still.drop w _).rests

/-- What a candidate got when it was tried is what its parameters get. -/
theorem become_of_gives (params : α → List NativeType) (hhas : w.Has a.handles)
    (h : Trial.Gives (fun c => a.conversion.convert (params c)) w u fit c ns) :
    a.Become w u (params c) ns := by
  obtain ⟨v, hv, hconverted, hafter⟩ := h
  cases a with
  | native args => exact Crossing.forall₂_coerceArgs hhas hv hconverted
  | dynamic context args =>
      obtain ⟨hlength, hall⟩ := Crossing.becomes_argsToNative context hhas hv hconverted
      refine ⟨hlength, ?_⟩
      have hmember : ∀ p ∈ args.zip (params c), w.Has p.1.handles :=
        fun p hp => hhas.of_flatMap (List.of_mem_zip hp).1
      refine ((List.forall₂_and_left _ _).mpr ⟨hmember, hall⟩).imp ?_
      rintro p n ⟨hhas, hbecomes⟩
      exact hbecomes.along hhas (.refl w) (hv.trans (Crossing.argsToNative_rests context v)) hafter

end Arguments

namespace VTable

/-- Whether a slot has the name of a call, and may be called. -/
structure Callable (table : VTable) (name : String) (constOnly : Bool) (index : Nat)
    (slot : Slot) : Prop where
  there : table.get? index = some slot
  named : slot.key.name = name
  allowed : constOnly = true → slot.key.isConst = true

/-- Whether a slot is the one that a call has to reach, and how strictly its parameters fit. -/
structure Picks (table : VTable) (name : String) (constOnly : Bool)
    (fits : Fit → List NativeType → Bool) (fit : Fit) (index : Nat) (slot : Slot) : Prop where
  callable : table.Callable name constOnly index slot
  fitting : fits fit slot.key.params = true
  exact_first : fit = .widening → ∀ j other, table.Callable name constOnly j other →
    fits .exact other.key.params = false
  plain_first : slot.key.isConst = true → ∀ j other, table.Callable name constOnly j other →
    other.key.isConst = false → fits fit other.key.params = false
  lowest_first : ∀ j other, table.Callable name constOnly j other → j < index →
    other.key.isConst = slot.key.isConst → fits fit other.key.params = false

variable {table : VTable} {name : String} {constOnly : Bool} {fits : Fit → List NativeType → Bool}
  {fit fit' : Fit} {i j index : Nat} {slot other : Slot} {p : Nat × Slot → Bool}
  {slots : List (Nat × Slot)} {e : Nat × Slot}

/-- A call has at most one slot to reach. -/
theorem Picks.unique (h : table.Picks name constOnly fits fit i slot)
    (h' : table.Picks name constOnly fits fit' j other) : fit = fit' ∧ i = j ∧ slot = other := by
  have hfit : fit = fit' := by
    cases fit <;> cases fit'
    · rfl
    · cases h.fitting.symm.trans (h'.exact_first rfl i slot h.callable)
    · cases h'.fitting.symm.trans (h.exact_first rfl j other h'.callable)
    · rfl
  subst hfit
  have hconst : slot.key.isConst = other.key.isConst := by
    cases hslot : slot.key.isConst <;> cases hother : other.key.isConst
    · rfl
    · cases h.fitting.symm.trans (h'.plain_first hother i slot h.callable hslot)
    · cases h'.fitting.symm.trans (h.plain_first hslot j other h'.callable hother)
    · rfl
  obtain hlt | rfl | hlt := Nat.lt_trichotomy i j
  · cases h.fitting.symm.trans (h'.lowest_first i slot h.callable hlt hconst)
  · exact ⟨rfl, rfl, Option.some.inj (h.callable.there.symm.trans h'.callable.there)⟩
  · cases h'.fitting.symm.trans (h.lowest_first j other h'.callable hlt hconst.symm)

theorem mem_slotsNamed_iff : (index, slot) ∈ table.slotsNamed name
    ↔ table.get? index = some slot ∧ slot.key.name = name := by
  refine ⟨of_mem_slotsNamed, fun ⟨hslot, hname⟩ => ?_⟩
  exact List.mem_filterMap.mpr
    ⟨(slot, index), List.mk_mem_zipIdx_iff_getElem?.mpr hslot, if_pos hname⟩

theorem slotsNamed_pairwise (table : VTable) (name : String) :
    (table.slotsNamed name).Pairwise fun d e => d.1 < e.1 := by
  have hindices : table.slots.zipIdx.Pairwise fun d e => d.2 < e.2 := by
    rw [List.pairwise_iff_getElem]
    intro i j hi hj hlt
    simpa only [List.getElem_zipIdx, Nat.zero_add] using hlt
  refine hindices.filterMap _ ?_
  intro d e hlt d' hd e' he
  obtain ⟨-, hd⟩ := Option.ite_none_right_eq_some.mp hd
  obtain ⟨-, he⟩ := Option.ite_none_right_eq_some.mp he
  cases hd
  cases he
  exact hlt

theorem callable_iff : table.Callable name constOnly index slot
    ↔ (index, slot) ∈ table.slotsNamed name ∧ (constOnly = true → slot.key.isConst = true) := by
  rw [mem_slotsNamed_iff]
  exact ⟨fun h => ⟨⟨h.there, h.named⟩, h.allowed⟩, fun h => ⟨h.1.1, h.1.2, h.2⟩⟩

theorem mem_plain_iff : (index, slot) ∈ Slot.plain constOnly (table.slotsNamed name)
    ↔ table.Callable name constOnly index slot ∧ slot.key.isConst = false := by
  rw [Slot.plain, List.mem_filter, callable_iff]
  cases constOnly <;> cases slot.key.isConst <;> simp

theorem mem_const_iff (constOnly : Bool) : (index, slot) ∈ Slot.const (table.slotsNamed name)
    ↔ table.Callable name constOnly index slot ∧ slot.key.isConst = true := by
  rw [Slot.const, List.mem_filter, callable_iff]
  cases slot.key.isConst <;> simp

/-- Of slots in index order the one that is found is the lowest. -/
theorem lowest_of_find? (hordered : slots.Pairwise fun d e => d.1 < e.1)
    (hfind : slots.find? p = some e) : ∀ d ∈ slots, d.1 < e.1 → p d = false := by
  obtain ⟨-, before, after, rfl, hbefore⟩ := List.find?_eq_some_iff_append.mp hfind
  intro d hd hlt
  rcases List.mem_append.mp hd with hd | hd
  · exact (Bool.not_eq_true' _).mp (hbefore d hd)
  · rcases List.mem_cons.mp hd with rfl | hd
    · exact absurd hlt (Nat.lt_irrefl _)
    · have hafter := (List.pairwise_cons.mp (List.pairwise_append.mp hordered).2.1).1 d hd
      exact absurd hlt (Nat.not_lt.mpr hafter.le)

theorem find?_eligible_eq_none_iff : (table.eligible name constOnly).find? p = none
    ↔ ∀ index slot, table.Callable name constOnly index slot → p (index, slot) = false := by
  rw [find?_eligible, Option.or_eq_none_iff, List.find?_eq_none, List.find?_eq_none]
  simp only [Prod.forall, mem_plain_iff, mem_const_iff constOnly, Bool.not_eq_true]
  constructor
  · rintro ⟨hplain, hconst⟩ index slot hcallable
    cases hslot : slot.key.isConst with
    | false => exact hplain index slot ⟨hcallable, hslot⟩
    | true => exact hconst index slot ⟨hcallable, hslot⟩
  · exact fun h => ⟨fun index slot hslot => h index slot hslot.1,
      fun index slot hslot => h index slot hslot.1⟩

/-- What one pass finds is non-const if possible, and the lowest of its kind. -/
theorem of_find?_eligible (h : (table.eligible name constOnly).find? p = some (index, slot)) :
    table.Callable name constOnly index slot ∧ p (index, slot) = true
      ∧ (slot.key.isConst = true → ∀ j other, table.Callable name constOnly j other →
        other.key.isConst = false → p (j, other) = false)
      ∧ ∀ j other, table.Callable name constOnly j other → j < index →
        other.key.isConst = slot.key.isConst → p (j, other) = false := by
  have hordered := table.slotsNamed_pairwise name
  rw [find?_eligible, Option.or_eq_some_iff] at h
  rcases h with hplain | ⟨hnone, hconst⟩
  · obtain ⟨hcallable, hslot⟩ := mem_plain_iff.mp (List.mem_of_find?_eq_some hplain)
    refine ⟨hcallable, List.find?_some hplain, ?_, ?_⟩
    · intro hconst
      cases hconst.symm.trans hslot
    · intro j other hother hlt hsame
      exact lowest_of_find? (hordered.filter _) hplain _
        (mem_plain_iff.mpr ⟨hother, hsame.trans hslot⟩) hlt
  · obtain ⟨hcallable, hslot⟩ :=
      (mem_const_iff constOnly).mp (List.mem_of_find?_eq_some hconst)
    refine ⟨hcallable, List.find?_some hconst, ?_, ?_⟩
    · intro _ j other hother hplain
      exact Bool.eq_false_iff.mpr
        (List.find?_eq_none.mp hnone _ (mem_plain_iff.mpr ⟨hother, hplain⟩))
    · intro j other hother hlt hsame
      exact lowest_of_find? (hordered.filter _) hconst _
        ((mem_const_iff constOnly).mpr ⟨hother, hsame.trans hslot⟩) hlt

/-- The first slot that fits is the one that a call has to reach. -/
theorem picks_of_firstFit?
    (h : firstFit? (fun fit e => fits fit e.2.key.params) (table.eligible name constOnly)
      = some (fit, index, slot)) : table.Picks name constOnly fits fit index slot := by
  unfold firstFit? Fit.order at h
  cases hexact : (table.eligible name constOnly).find? fun e => fits .exact e.2.key.params with
  | some e =>
      rw [firstOf?_cons_some hexact] at h
      cases h
      obtain ⟨hcallable, hfits, hplain, hlowest⟩ := of_find?_eligible hexact
      exact ⟨hcallable, hfits, nofun, hplain, hlowest⟩
  | none =>
      rw [firstOf?_cons_none hexact] at h
      cases hwiden :
          (table.eligible name constOnly).find? fun e => fits .widening e.2.key.params with
      | none =>
          rw [firstOf?_cons_none hwiden] at h
          cases h
      | some e =>
          rw [firstOf?_cons_some hwiden] at h
          cases h
          obtain ⟨hcallable, hfits, hplain, hlowest⟩ := of_find?_eligible hwiden
          exact ⟨hcallable, hfits, fun _ => find?_eligible_eq_none_iff.mp hexact, hplain, hlowest⟩

/-- Without a first slot that fits none does. -/
theorem unfit_of_firstFit?
    (h : firstFit? (fun fit e => fits fit e.2.key.params) (table.eligible name constOnly) = none)
    (hcallable : table.Callable name constOnly index slot) (fit : Fit) :
    fits fit slot.key.params = false := by
  have hmem : (index, slot) ∈ table.eligible name constOnly := by
    rw [eligible, List.mem_append, mem_plain_iff, mem_const_iff constOnly]
    cases hslot : slot.key.isConst <;> simp [hcallable]
  exact firstFit?_eq_none_iff.mp h _ hmem fit

/-- How a call by name is resolved in a table. -/
structure Resolves (table : VTable) (a : Arguments) (className name : String) (constOnly : Bool)
    (w : World) : Prop where
  /-- What is reached is the slot that has to be, with what its parameters get. -/
  reached : ∀ s u, table.resolve a.conversion className name constOnly w = (.ok s, u) →
    ∃ fit slot, table.Picks name constOnly (a.fits w) fit s.index slot
      ∧ a.Become w u slot.key.params s.args
  /-- A slot is reached if one that may be called fits. -/
  reaches : ∀ index slot fit, table.Callable name constOnly index slot →
    a.fits w fit slot.key.params = true →
    ∃ s u, table.resolve a.conversion className name constOnly w = (.ok s, u)
  constViolation : (table.resolve a.conversion className name constOnly w).1
      = .error (.constViolation className name)
    ↔ constOnly = true
      ∧ (∀ index slot fit, table.Callable name true index slot →
        a.fits w fit slot.key.params = false)
      ∧ ∃ index slot fit, table.Callable name false index slot ∧ slot.key.isConst = false
        ∧ a.fits w fit slot.key.params = true
  noSuchMethod : (table.resolve a.conversion className name constOnly w).1
      = .error (.noSuchMethod className name)
    ↔ ∀ index slot fit, table.Callable name false index slot → a.fits w fit slot.key.params = false

section Outcome

variable {a : Arguments} {className : String} {w : World}

/-- A call by name reaches a slot, or fails as only const slots may be called, or as none fits. -/
theorem resolve_cases (table : VTable) (className name : String) (constOnly : Bool)
    (hhas : w.Has a.handles) :
    (∃ s u fit slot, table.resolve a.conversion className name constOnly w = (.ok s, u)
      ∧ table.Picks name constOnly (a.fits w) fit s.index slot
      ∧ a.Become w u slot.key.params s.args ∧ w.Rests u)
    ∨ (∀ index slot fit, table.Callable name constOnly index slot →
        a.fits w fit slot.key.params = false)
      ∧ ∃ u, w.Rests u ∧ table.resolve a.conversion className name constOnly w
        = (.error (if Fit.order.any fun fit =>
            Slot.withheld constOnly (fun e => a.fits w fit e.2.key.params) (table.slotsNamed name)
          then .constViolation className name else .noSuchMethod className name), u) := by
  have hsteady : a.conversion.trial.Steady (table.slotsNamed name) w := Arguments.steady hhas
  cases hfirst :
      firstFit? (fun fit e => a.fits w fit e.2.key.params) (table.eligible name constOnly) with
  | some first =>
      obtain ⟨fit, index, slot⟩ := first
      obtain ⟨s, u, hresolve, hindex, hgives⟩ :=
        resolvePasses_some a.discard_rests hsteady (.refl w) className false hfirst
      have hbecome := Arguments.become_of_gives (fun e : Nat × Slot => e.2.key.params) hhas hgives
      refine .inl ⟨s, u, fit, slot, hresolve, ?_, hbecome, hsteady.rests_of_gives hgives⟩
      rw [hindex]
      exact picks_of_firstFit? hfirst
  | none =>
      obtain ⟨u, hresolve, hu⟩ :=
        resolvePasses_none a.discard_rests hsteady (.refl w) className false hfirst
      rw [Bool.false_or] at hresolve
      exact .inr ⟨fun _ _ fit hcallable => unfit_of_firstFit? hfirst hcallable fit, u, hu, hresolve⟩

theorem withheld_iff {fits : Fit → List NativeType → Bool} :
    (Fit.order.any fun fit => Slot.withheld constOnly (fun e => fits fit e.2.key.params)
      (table.slotsNamed name)) = true
    ↔ constOnly = true ∧ ∃ index slot fit, table.Callable name false index slot
      ∧ slot.key.isConst = false ∧ fits fit slot.key.params = true := by
  rw [Fit.any_order_iff]
  simp only [List.any_eq_true, Slot.withheld, Bool.and_eq_true, Bool.not_eq_true', Prod.exists,
    mem_slotsNamed_iff]
  constructor
  · rintro ⟨fit, honly, index, slot, ⟨hthere, hnamed⟩, hslot, hfits⟩
    exact ⟨honly, index, slot, fit, ⟨hthere, hnamed, (absurd · Bool.false_ne_true)⟩, hslot, hfits⟩
  · rintro ⟨honly, index, slot, fit, hcallable, hslot, hfits⟩
    exact ⟨fit, honly, index, slot, ⟨hcallable.there, hcallable.named⟩, hslot, hfits⟩

section Slots

variable {s : Selection} {u : World} {blocked : Bool}

/-- A call that reaches the slot it has to does not fail. -/
theorem resolves_of_ok
    (hresolve : table.resolve a.conversion className name constOnly w = (.ok s, u))
    (hpicks : table.Picks name constOnly (a.fits w) fit s.index slot)
    (hbecome : a.Become w u slot.key.params s.args) :
    table.Resolves a className name constOnly w := by
  have hfits (h : a.fits w fit slot.key.params = false) : False := by
    cases hpicks.fitting.symm.trans h
  constructor
  case reached =>
    intro s' u' h
    cases hresolve.symm.trans h
    exact ⟨fit, slot, hpicks, hbecome⟩
  case reaches => exact fun _ _ _ _ _ => ⟨s, u, hresolve⟩
  case constViolation =>
    rw [hresolve]
    refine ⟨nofun, fun ⟨honly, hconst, _⟩ => ?_⟩
    subst honly
    exact (hfits (hconst _ _ fit hpicks.callable)).elim
  case noSuchMethod =>
    rw [hresolve]
    refine ⟨nofun, fun hnone => (hfits (hnone s.index slot fit ?_)).elim⟩
    exact ⟨hpicks.callable.there, hpicks.callable.named, nofun⟩

/-- A call that no slot fits which may be called fails as one fits which must not be, or as none
does. -/
theorem resolves_of_error (hunfit : ∀ index slot fit, table.Callable name constOnly index slot →
      a.fits w fit slot.key.params = false)
    (hblocked : blocked = true ↔ constOnly = true ∧ ∃ index slot fit,
      table.Callable name false index slot ∧ slot.key.isConst = false
        ∧ a.fits w fit slot.key.params = true)
    (hresolve : table.resolve a.conversion className name constOnly w
      = (.error (if blocked then .constViolation className name
          else .noSuchMethod className name), u)) :
    table.Resolves a className name constOnly w := by
  constructor
  case reached =>
    intro s u' h
    cases hresolve.symm.trans h
  case reaches =>
    intro index slot fit hcallable hfits
    cases hfits.symm.trans (hunfit index slot fit hcallable)
  case constViolation =>
    rw [hresolve]
    cases blocked with
    | true =>
        obtain ⟨rfl, hplain⟩ := hblocked.mp rfl
        exact iff_of_true rfl ⟨rfl, hunfit, hplain⟩
    | false =>
        refine iff_of_false nofun fun ⟨honly, _, hplain⟩ => ?_
        cases hblocked.mpr ⟨honly, hplain⟩
  case noSuchMethod =>
    rw [hresolve]
    cases blocked with
    | true =>
        obtain ⟨-, index, slot, fit, hcallable, -, hfits⟩ := hblocked.mp rfl
        refine iff_of_false nofun fun hnone => ?_
        cases hfits.symm.trans (hnone index slot fit hcallable)
    | false =>
        refine iff_of_true rfl fun index slot fit hcallable => ?_
        by_cases hallowed : constOnly = true → slot.key.isConst = true
        · exact hunfit index slot fit ⟨hcallable.there, hcallable.named, hallowed⟩
        · obtain ⟨honly, hplain⟩ := Classical.not_imp.mp hallowed
          refine Bool.eq_false_iff.mpr fun hfits => ?_
          cases hblocked.mpr ⟨honly, index, slot, fit, hcallable,
            Bool.eq_false_iff.mpr hplain, hfits⟩

end Slots

theorem resolves (table : VTable) (className name : String) (constOnly : Bool)
    (hhas : w.Has a.handles) : table.Resolves a className name constOnly w := by
  rcases table.resolve_cases className name constOnly hhas with
    ⟨s, u, fit, slot, hresolve, hpicks, hbecome, -⟩ | ⟨hunfit, u, -, hresolve⟩
  · exact resolves_of_ok hresolve hpicks hbecome
  · exact resolves_of_error hunfit withheld_iff hresolve

end Outcome

end VTable

namespace Run

variable {ε α β : Type} {a : Act (Except ε α)} {k : α → Run ε β} {w u : World}

/-- What a step found is gone on with. -/
theorem act_ok {r : α} (h : a w = (.ok r, u)) :
    (do k (← Run.ofExcept (← Run.act a)) : Run ε β) w = k r u := by
  change (Run.act a >>= fun r => Run.ofExcept r >>= k) w = _
  rw [Run.act_then (congrArg Prod.fst h), congrArg Prod.snd h]
  rfl

/-- What a step failed with is raised. -/
theorem act_error {e : ε} (h : a w = (.error e, u)) :
    (do k (← Run.ofExcept (← Run.act a)) : Run ε β) w = .ended (.raised e) u := by
  change (Run.act a >>= fun r => Run.ofExcept r >>= k) w = _
  rw [Run.act_then (congrArg Prod.fst h), congrArg Prod.snd h]
  rfl

end Run

namespace Call

/-- Whether a call through a view that promises not to change an instance fails before anything
runs, or goes to a const slot. -/
def ReachesConst (h : Host) (t : TwinId) (name : String) (args : List NativeValue) (w : World) :
    Prop :=
  (∃ f u, callVirtual h true t name args w = .ended (.raised f) u)
  ∨ ∃ (s : Selection) (slot : Slot) (u : World),
    callVirtual h true t name args w = withArgs s.args (callSlot h t s.index s.args) u
      ∧ (u.twin t).kind.vtable.get? s.index = some slot ∧ slot.key.isConst = true

variable {w : World} {t : TwinId} {args : List NativeValue}

theorem reachesConst (h : Host) (name : String) (ht : t < w.twins.size)
    (hhas : w.Has (args.flatMap NativeValue.handles)) : ReachesConst h t name args w := by
  unfold ReachesConst callVirtual
  rw [Run.reads_then (f := fun w => (w.twin t).kind) rfl]
  rcases (w.twin t).kind.vtable.resolve_cases (a := .native args) (w.twin t).kind.name name true
    hhas with ⟨s, u, fit, slot, hresolve, hpicks, -, hu⟩ | ⟨-, u, -, hresolve⟩
  · refine .inr ⟨s, slot, u, Run.act_ok hresolve, ?_, hpicks.callable.allowed rfl⟩
    rw [(hu.at_twin ht).kind]
    exact hpicks.callable.there
  · exact .inl ⟨_, u, Run.act_error hresolve⟩

end Call

/-- A call by name in a virtual table reaches the slot it has to, and none that is not const
through a view that promises not to change the instance. -/
theorem virtual_calls_resolve (table : VTable) (a : Arguments) (className name : String)
    (constOnly : Bool) (w : World) (hhas : w.Has a.handles) :
    table.Resolves a className name constOnly w
    ∧ ∀ h t args, a = .native args → t < w.twins.size → Call.ReachesConst h t name args w := by
  refine ⟨table.resolves className name constOnly hhas, ?_⟩
  rintro h t args rfl ht
  exact Call.reachesConst h name ht hhas

/-! A ruler measures doubles and integers; only the measuring of integers can be promised not
to change it. -/

namespace Ruler

def ruler : NativeClass :=
  { (default : NativeClass) with
    name := "Ruler"
    vtable := ⟨[⟨⟨"measure", [.double], false⟩, .void, "Ruler", some (.lit .void)⟩,
      ⟨⟨"measure", [.int], false⟩, .void, "Ruler", some (.lit .void)⟩,
      ⟨⟨"measure", [.int], true⟩, .void, "Ruler", some (.lit .void)⟩]⟩ }

def world : World :=
  ({ World.initial with declared := #[⟨ruler, []⟩] }.admitTwin (.fresh 0 (.native ruler) .native)).1

end Ruler

open Ruler in
theorem virtual_calls_resolve_ruler :
    (∃ fit slot, ruler.vtable.Picks "measure" false ((Arguments.native [.int 7]).fits world)
      fit 1 slot)
    ∧ (∃ fit slot, ruler.vtable.Picks "measure" true ((Arguments.native [.int 7]).fits world)
      fit 2 slot)
    ∧ Call.ReachesConst (.nested .memo 3) 0 "measure" [.int 7] world := by
  have hplain : world.Has (Arguments.native [.int 7]).handles := nofun
  have hfree : ruler.vtable.resolve (Crossing.fromNative [.int 7]) "Ruler" "measure" false world
      = (.ok ⟨1, [.int 7]⟩, world) := by
    with_unfolding_all rfl
  have hconst : ruler.vtable.resolve (Crossing.fromNative [.int 7]) "Ruler" "measure" true world
      = (.ok ⟨2, [.int 7]⟩, world) := by
    with_unfolding_all rfl
  obtain ⟨fit, slot, hpicks, -⟩ :=
    (virtual_calls_resolve ruler.vtable (.native [.int 7]) "Ruler" "measure" false world
      hplain).1.reached _ _ hfree
  obtain ⟨hresolves, hreaches⟩ :=
    virtual_calls_resolve ruler.vtable (.native [.int 7]) "Ruler" "measure" true world hplain
  obtain ⟨fit', slot', hpicks', -⟩ := hresolves.reached _ _ hconst
  exact ⟨⟨fit, slot, hpicks⟩, ⟨fit', slot', hpicks'⟩, hreaches _ 0 _ rfl Nat.zero_lt_one⟩

end TwinObject
