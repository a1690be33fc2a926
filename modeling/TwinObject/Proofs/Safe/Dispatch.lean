/-
Virtual dispatch is safe.  A call by name reaches a slot of the table, what is
remembered of a slot is what its class gives for it, and a slot without a body
always has an override.
-/
import TwinObject.Proofs.Safe.Construct

namespace TwinObject

open Hold

namespace VTable

theorem of_mem_slotsNamed {table : VTable} {name : String} {index : Nat} {slot : Slot}
    (hmem : (index, slot) ∈ table.slotsNamed name) :
    table.get? index = some slot ∧ slot.key.name = name := by
  obtain ⟨⟨slot', index'⟩, hslot, hname⟩ := List.mem_filterMap.mp hmem
  dsimp only at hname
  split at hname
  · rename_i heq
    cases hname
    exact ⟨List.mk_mem_zipIdx_iff_getElem?.mp hslot, heq⟩
  · cases hname

end VTable

/-- Whether a step gives a result of some sort in every world. -/
def Act.Yields {α : Type} (a : Act α) (P : α → Prop) : Prop :=
  ∀ w : World, P (a w).1

namespace Act.Yields

variable {α β : Type} {P Q : α → Prop} {P' : β → Prop} {a : Act α} {k : α → Act β}

theorem pure {r : α} (hr : P r) : Yields (Pure.pure r) P :=
  fun _ => hr

theorem bind (ha : Yields a P) (hk : ∀ r, P r → Yields (k r) P') : Yields (a >>= k) P' :=
  fun w => hk _ (ha w) (a w).2

/-- Whatever the first step gives. -/
theorem after (hk : ∀ r, Yields (k r) P') : Yields (a >>= k) P' :=
  fun w => hk (a w).1 (a w).2

end Act.Yields

/-- Whether the slots that candidates stand for are among the given ones. -/
def Candidates.Among (slots : List (Nat × Slot)) (c : Candidates) : Prop :=
  ∀ s : Selection, c.found = some s ∨ c.pending = some s → ∃ slot, (s.index, slot) ∈ slots

theorem Candidates.scan_among (conv : Conversion Act) (constOnly : Bool) (fit : Fit)
    {slots rest : List (Nat × Slot)} (hsub : ∀ p ∈ rest, p ∈ slots) {c : Candidates}
    (hc : c.Among slots) : Act.Yields (scan conv constOnly fit rest c) (Among slots) := by
  induction rest generalizing c with
  | nil => exact .pure hc
  | cons p rest ih =>
      obtain ⟨index, slot⟩ := p
      have hslot : (index, slot) ∈ slots := hsub _ List.mem_cons_self
      replace ih := fun c => ih (c := c) fun p hp => hsub p (List.mem_cons_of_mem _ hp)
      refine .after fun converted => ?_
      cases converted with
      | none => exact ih c hc
      | some args =>
          dsimp only
          split
          · cases hpending : c.pending with
            | none =>
                refine ih _ fun s hs => ?_
                rcases hs with hs | hs
                · exact hc s (Or.inl hs)
                · cases hs
                  exact ⟨slot, hslot⟩
            | some other => exact .after fun _ => ih c hc
          · split
            · exact .after fun _ => ih _ hc
            · have hfound :
                  Among slots { c with pending := none, found := some ⟨index, args⟩ } := by
                rintro s (hs | hs) <;> cases hs
                exact ⟨slot, hslot⟩
              cases hpending : c.pending with
              | none => exact fun _ => hfound
              | some other => exact .after fun _ => .pure hfound

namespace VTable

theorem resolvePasses_among (conv : Conversion Act) (table : VTable) (className name : String)
    (constOnly : Bool) (fits : List Fit) (blocked : Bool) :
    Act.Yields (table.resolvePasses conv className name constOnly fits blocked) fun r =>
      ∀ s, r = .ok s → ∃ slot, (s.index, slot) ∈ table.slotsNamed name := by
  induction fits generalizing blocked with
  | nil => exact .pure fun s hs => by cases hs
  | cons fit fits ih =>
      have hempty : Candidates.Among (table.slotsNamed name) { blocked } := by
        rintro s (hs | hs) <;> cases hs
      refine Act.Yields.bind (Candidates.scan_among conv constOnly fit (fun _ hp => hp) hempty)
        fun c hc => ?_
      obtain ⟨pending, again, found⟩ := c
      cases found with
      | some found =>
          refine .pure fun s hs => ?_
          cases hs
          exact hc found (Or.inl rfl)
      | none =>
          cases pending with
          | some pending =>
              refine .pure fun s hs => ?_
              cases hs
              exact hc pending (Or.inr rfl)
          | none => exact ih again

/-- A call by name reaches a slot of that name. -/
theorem resolve_get (conv : Conversion Act) (table : VTable) (className name : String)
    (constOnly : Bool) :
    Act.Yields (table.resolve conv className name constOnly) fun r =>
      ∀ s, r = .ok s → ∃ slot, table.get? s.index = some slot ∧ slot.key.name = name :=
  fun w s hs => (resolvePasses_among conv table className name constOnly Fit.order false w s hs).imp
    fun _ hmem => of_mem_slotsNamed hmem

end VTable

section Overrides

variable {w : World} {R : Hold} {c : DynamicClass} {index : Nat} {slot : Slot}

/-- What is remembered of a slot: nothing yet, or what the class gives for it. -/
theorem Reachable.overrides (hreach : Reachable w R) (hknows : w.Knows c)
    (hslot : c.vtable.get? index = some slot) : ∃ s, w.classes[c.id]? = some s ∧ s.cls = c ∧
      (s.overrides[index]? = some none ∨ s.overrides[index]? = some (some (c.override? slot))) := by
  obtain ⟨s, hs, rfl⟩ := hknows
  obtain ⟨hsize, hknown⟩ := hreach.invariant.remembered _ s hs
  refine ⟨s, hs, rfl, ?_⟩
  obtain ⟨hlt, -⟩ := List.getElem?_eq_some_iff.mp hslot
  cases hremembered : s.overrides[index]? with
  | none =>
      have hle := List.getElem?_eq_none_iff.mp hremembered
      exact absurd (hsize ▸ hlt) (Nat.not_lt.mpr hle)
  | some entry =>
      cases entry with
      | none => exact Or.inl rfl
      | some found =>
          obtain ⟨slot', hslot', rfl⟩ := hknown index found hremembered
          obtain rfl : slot = slot' := Option.some.inj (hslot.symm.trans hslot')
          exact Or.inr rfl

/-- The override of a slot is the one that the class gives, remembered or not. -/
theorem World.lookupOverride_eq (hreach : Reachable w R) (hknows : w.Knows c)
    (hslot : c.vtable.get? index = some slot) :
    (lookupOverride c index slot w).1 = c.override? slot := by
  obtain ⟨s, hs, -, hentry | hentry⟩ := hreach.overrides hknows hslot <;>
    rw [lookupOverride, hs, Option.bind_some, hentry]

theorem World.lookupOverride_path (hreach : Reachable w R) (hknows : w.Knows c)
    (hslot : c.vtable.get? index = some slot) : Path w R (lookupOverride c index slot w).2 R := by
  obtain ⟨s, hs, rfl, hentry | hentry⟩ := hreach.overrides hknows hslot
  · have hlearn := (Transition.learn (R := R) hs hslot hentry).path
    rw [lookupOverride, hs, Option.bind_some, hentry]
    dsimp only
    rw [modify_eq_setIfInBounds hs]
    exact hlearn
  · rw [lookupOverride, hs, Option.bind_some, hentry]
    exact .refl

end Overrides

namespace Call

open Run.Ensures

variable {F : Hold} {w : World} {h h' : Host} {t : TwinId}

theorem runDefault_safe (hsafe : h.Safe h') {slot : Slot} {bare bare' : Run Failure NativeValue}
    (hlent : Lends F t) {args : List NativeValue}
    (hargs : LendsAll F (args.flatMap NativeValue.handles))
    (hbare : slot.body = none → Run.Safe F 0 NativeValue.hold w bare bare') :
    Run.Safe F 0 NativeValue.hold w (runDefault h slot bare t args)
      (runDefault h' slot bare' t args) := by
  unfold runDefault
  split
  · rename_i body hbody
    refine hsafe.native F w _ body ⟨fun t' ht' => ?_, hargs, fun s hs => by cases hs⟩
    cases ht'
    exact hlent
  · rename_i hbody
    exact hbare hbody

/-- An override runs with handles of its own to the instance and the arguments, and
under the lock of the interpreter that both the class and the instance are in. -/
theorem runOverride_safe (hsafe : h.Safe h') (c : DynamicClass) (slot : Slot) (m : Method)
    (hinterp : c.interp < w.interps.size) (hlives : w.Lives t c.interp) (hlent : Lends F t)
    {args : List NativeValue} (hargs : LendsAll F (args.flatMap NativeValue.handles)) :
    Run.Safe F 0 NativeValue.hold w (runOverride h c slot m t args)
      (runOverride h' c slot m t args) := by
  refine locked hinterp fun u hu hheld => count_bind fun hcounted hcalm => ?_
  refine modify_bind_calm (M := Hold.dynamic t) (fun R hreach => ?_) fun hretained hcalm' => ?_
  · exact (Transition.retain (h := .dynamic t) (hreach.held_of_lent hlent)).path.cast rfl
      (by rw [add_zero]; rfl)
  refine act_bind_calm ((Act.Safe.frame (Crossing.lendAllToDynamic_safe hargs.left)).cast
    (add_zero _).symm fun _ => rfl) fun hcrossed hcalm'' => ?_
  generalize args.mapM Crossing.lendToDynamic _ = crossed at hcrossed hcalm'' ⊢
  obtain ⟨dynArgs, v⟩ := crossed
  have hhome : v.Lives t c.interp :=
    hlives.mono (((hu.trans hcounted).trans hretained).trans hcrossed)
  have hdepth : 0 < v.depthIn (v.twin t).interp := by
    rwa [hhome.interp_eq, hcalm''.depthIn, hcalm'.depthIn, hcalm.depthIn]
  refine (holding ?_).cast ?_ fun _ => rfl
  · have hlentArgs : LendsAll (F + ofHandles (dynArgs.flatMap DynValue.handles ++ [.dynamic t]))
        (dynArgs.flatMap DynValue.handles) :=
      (LendsAll.self _).right.subset fun _ hh => List.mem_append_left _ hh
    refine andThen (outcome (hsafe.dynamic _ v .slot t dynArgs m.body hlent.left hlentArgs
      fun _ => hdepth)) fun result _ _ _ => ?_
    cases result with
    | ok v =>
        refine reads_bind (act_bind (Crossing.returnToNative_safe _ _ v slot.ret) fun _ => ?_)
        exact ofExcept fun _ _ => ⟨rfl, trivial⟩
    | error e => exact count_bind fun _ _ => raise
  · rw [DynValue.holdAll, ofHandles_append, add_comm]
    rfl

/-- A class implements a slot if it overrides it. -/
theorem implements_eq (c : DynamicClass) (slot : Slot) :
    c.implements slot = (c.override? slot).isSome := by
  rw [DynamicClass.implements, DynamicClass.override?]
  cases c.findMethod? slot.key.name with
  | none => rfl
  | some m => cases hfits : m.accepts slot.key.arity <;> simp [hfits]

/-- A slot without a body has an override, if the class could be instantiated. -/
theorem body_of_concrete {c : DynamicClass} (hconcrete : (Kind.dynamic c).Concrete) {index : Nat}
    {slot : Slot} (hslot : c.vtable.get? index = some slot) (hnone : c.override? slot = none) :
    slot.body ≠ none := by
  intro hbody
  have hfits := List.find?_eq_none.mp hconcrete slot (List.mem_of_getElem? hslot)
  rw [implements_eq, hnone, Slot.isPure, hbody] at hfits
  exact hfits rfl

theorem body_of_native {c : NativeClass} (hconcrete : (Kind.native c).Concrete) {index : Nat}
    {slot : Slot} (hslot : c.vtable.get? index = some slot) : slot.body ≠ none := by
  intro hbody
  have hfits := List.find?_eq_none.mp hconcrete slot (List.mem_of_getElem? hslot)
  rw [Slot.isPure, hbody] at hfits
  exact hfits rfl

theorem dispatch_safe (hsafe : h.Safe h') {c : DynamicClass} {index : Nat} {slot : Slot}
    (hslot : c.vtable.get? index = some slot) (hconcrete : (Kind.dynamic c).Concrete)
    (hknows : w.Knows c) (hinterp : c.interp < w.interps.size) (hlives : w.Lives t c.interp)
    (hlent : Lends F t) {args : List NativeValue}
    (hargs : LendsAll F (args.flatMap NativeValue.handles)) :
    Run.Safe F 0 NativeValue.hold w (dispatch h c index slot t args)
      (dispatch h' c index slot t args) := by
  obtain ⟨noSlot, bare, hfresh⟩ := hsafe.forgets
  have hremembers := hsafe.remembers
  refine knowing (fun R hreach => World.lookupOverride_eq hreach hknows hslot) fun heq => ?_
  replace heq : (Dispatcher.memo.override c index slot w).1 = c.override? slot := heq
  have hgo : Run.Safe F 0 NativeValue.hold w (dispatch h c index slot t args)
      (Run.act (Dispatcher.memo.override c index slot) >>= runFound h' c slot t args) := by
    rw [dispatch, hremembers]
    have hlookup : Act.Safe F 0 (fun _ => 0) w (Dispatcher.memo.override c index slot) :=
      fun R hreach => World.lookupOverride_path hreach hknows hslot
    refine act_bind hlookup fun hpersists => ?_
    · rw [heq]
      cases hfound : c.override? slot with
      | some m =>
          exact runOverride_safe hsafe c slot m (hinterp.trans_le hpersists.interps)
            (hlives.mono hpersists) hlent hargs
      | none =>
          exact runDefault_safe hsafe hlent hargs fun hbody =>
            absurd hbody (body_of_concrete hconcrete hslot hfound)
  refine hgo.congr_right ?_
  rw [dispatch, hfresh]
  refine Run.act_congr ?_ _
  exact Prod.ext heq.symm rfl

/-- A call of a slot of the table is safe: neither is the slot missing nor its
body where it is needed. -/
theorem callSlot_safe (hsafe : h.Safe h') {index : Nat} {slot : Slot} (hlent : Lends F t)
    (hslot : (w.twin t).kind.vtable.get? index = some slot) {args : List NativeValue}
    (hargs : LendsAll F (args.flatMap NativeValue.handles)) :
    Run.Safe F 0 NativeValue.hold w (callSlot h t index args) (callSlot h' t index args) := by
  refine knowing (fun R hreach => hreach.home_of_lent hlent) fun ⟨hinterp, hlives⟩ => ?_
  refine knowing (P := (w.twin t).kind.Concrete ∧ w.KeepsKind (w.twin t).kind
      ∧ w.Houses (w.twin t).interp (w.twin t).kind) (fun R hreach => ?_)
    fun ⟨hconcrete, hkeeps, hhouses⟩ => ?_
  · obtain ⟨a, ha, hlive⟩ := hreach.live_of_lent hlent
    rw [World.twin_eq ha]
    exact ⟨hreach.invariant.formed.concrete t a ha, hreach.invariant.keepsKind_of_live ha hlive,
      hreach.invariant.homed.twins t a ha⟩
  · refine reads_bind ?_
    rw [hslot]
    dsimp only
    cases hkind : (w.twin t).kind with
    | dynamic c =>
        have hhome := hhouses.of_class c hkind
        rw [hkind] at hslot hconcrete hkeeps
        rw [← hhome] at hinterp hlives
        exact dispatch_safe hsafe hslot hconcrete hkeeps hinterp hlives hlent hargs
    | native c =>
        rw [hkind] at hslot hconcrete
        exact runDefault_safe hsafe hlent hargs fun hbody =>
          absurd hbody (body_of_native hconcrete hslot)

end Call

end TwinObject
