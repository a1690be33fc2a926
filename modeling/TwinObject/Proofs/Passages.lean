/-
Passages of calls.  A call from dynamic code tries candidates with its arguments, and goes on
through one that fits or fails.  What the parameters of that one are bound to by value are new
doubles, and of all that was made while candidates were tried, and until the call is over,
nothing is left that nobody keeps.
-/
import TwinObject.Proofs.Overloads
import TwinObject.Proofs.Trials

namespace TwinObject

open Hold

variable {ε α : Type}

/-- One way for a call to go on: what its parameters are and which arguments they have, and what
runs once they are bound to values. -/
structure Passage (ε α : Type) where
  params : List (NativeType × Option DynValue)
  run : List NativeValue → Run ε α

namespace Passage

/-- A list of parameters with an argument for each. -/
def supplied (params : List NativeType) (args : List DynValue) :
    List (NativeType × Option DynValue) :=
  (args.zip params).map fun p => (p.2, some p.1)

/-- The passages of a call with a list of arguments: through each candidate that has as many
parameters. -/
def through {ι : Type} (candidate : ι → Prop) (params : ι → List NativeType)
    (run : ι → List NativeValue → Run ε α) (args : List DynValue) : Set (Passage ε α) :=
  {p | ∃ c, candidate c ∧ args.length = (params c).length ∧ p = ⟨supplied (params c) args, run c⟩}

/-- The passages of a call by name through the slots of a table. -/
def slots (table : VTable) (name : String) (run : Nat × Slot → List NativeValue → Run ε α)
    (args : List DynValue) : Set (Passage ε α) :=
  through (fun e => table.get? e.1 = some e.2 ∧ e.2.key.name = name) (·.2.key.params) run args

/-- The passages of a call of a method of an instance that is of no other name's slots: through
the visible overloads of the class that declares it. -/
def methods (w : World) (t : TwinId) (name : String)
    (run : NativeClass × MethodDecl → List NativeValue → Run ε α) (args : List DynValue) :
    Set (Passage ε α) :=
  through (fun c => (w.twin t).layout.declaring? name = some c.1 ∧ c.2 ∈ c.1.overloads name
    ∧ c.2.access.visible (w.twin t).kind.fromDerived = true) (·.2.params) run args

end Passage

/-- How a call goes on: through a passage, whose parameters are bound to values then, or not at
all, where something is known of what trying it left. -/
inductive Run.Enters (m : Run ε α) (passages : Set (Passage ε α)) (left : World → Prop)
    (w v : World) : Prop
  | through {p : Passage ε α} {ns : List NativeValue} {x : World} (hp : p ∈ passages)
      (hrun : m w = p.run ns x) (hpasses : v.Passes x p.params ns)
  | fails {e : ε} {u : World} (hend : m w = .ended (.raised e) u) (hleft : left u)

/-- How a call isolates what it passes by value.  `F` is held all the time, others hold `E`, and
the parameters are bound in `v`. -/
structure Run.Isolates (m : Run ε α) (passages : Set (Passage ε α)) (give : α → Hold) (F E : Hold)
    (w v : World) : Prop where
  /-- A call that does not go on leaves nothing behind. -/
  enters : m.Enters passages v.Cleared w v
  /-- What came into being meanwhile is alive at the end only if a handle to it is stored, is in
  the result, or is with others. -/
  releases : ∀ E' e u, m.Comes F E w E' e u → ∀ i, w.twins.size ≤ i → u.Alive i →
    ∃ h : Handle, h.twin = i
      ∧ (h ∈ u.roots ∨ .handle h ∈ E' ∨ ∃ a, e = .value a ∧ .handle h ∈ give a)

/-- What came into being is gone once a call has ended where nobody keeps anything. -/
theorem Run.Isolates.gone {m : Run ε α} {passages : Set (Passage ε α)} {give : α → Hold} {F : Hold}
    {w v u : World} {e : Ending ε α} (h : m.Isolates passages give F 0 w v)
    (hend : m w = .ended e u) (hroots : u.roots = [])
    (hgive : ∀ a, e = .value a → give a = 0) {i : TwinId} (hi : w.twins.size ≤ i) :
    ¬u.Alive i := by
  intro halive
  have hcomes : m.Comes F 0 w 0 e u := by
    rw [Run.Comes, hend]
    exact .ended
  obtain ⟨g, -, hroot | hothers | ⟨a, ha, hresult⟩⟩ := h.releases 0 e u hcomes i hi halive
  · rw [hroots] at hroot
    cases hroot
  · cases hothers
  · rw [hgive a ha] at hresult
    cases hresult

theorem Run.Enters.subset {m : Run ε α} {passages passages' : Set (Passage ε α)}
    {left : World → Prop} {w v : World} (h : m.Enters passages left w v)
    (hsub : passages ⊆ passages') : m.Enters passages' left w v := by
  cases h with
  | through hp hrun hpasses => exact .through (hsub hp) hrun hpasses
  | fails hend hleft => exact .fails hend hleft

theorem Hold.LendsAll.native {F : Hold} {t : TwinId} (hlent : Lends F t) :
    LendsAll F [.native t] := fun g hg => by
  cases List.mem_singleton.mp hg
  exact hlent

theorem Hold.mem_handles {R : Hold} {h : Handle} : h ∈ R.handles ↔ .handle h ∈ R := by
  rw [handles, Multiset.mem_filterMap]
  constructor
  · rintro ⟨a, ha, hh⟩
    cases a <;> cases hh
    exact ha
  · exact fun hh => ⟨_, hh, rfl⟩

section Ends

variable {F E E' : Hold} {w v u : World} {m m' : Run ε α} {give : α → Hold} {e : Ending ε α}
  {passages : Set (Passage ε α)} (hm : Run.Safe F 0 give w m m') (hattained : Attained w (E + F))

include hm hattained

/-- What safe code leaves alive that was not there is kept by somebody. -/
theorem Run.Ensures.releases (hcomes : m.Comes F E w E' e u) {i : TwinId} (hi : w.twins.size ≤ i)
    (halive : u.Alive i) :
    ∃ h : Handle, h.twin = i
      ∧ (h ∈ u.roots ∨ .handle h ∈ E' ∨ ∃ a, e = .value a ∧ .handle h ∈ give a) := by
  have hold : ∀ h : Handle, h.twin = i → .handle h ∉ F := fun h hh hmem => by
    have hhandle : h ∈ (E + F).handles := Hold.mem_handles.mpr (Multiset.mem_add.mpr (.inr hmem))
    have hlt := hattained.lt_size (Multiset.mem_add.mpr (.inr hhandle))
    exact absurd (hh ▸ hlt) (Nat.not_lt.mpr hi)
  have hends := (hm.comes (hattained.cast (add_zero _)) hcomes).1
  obtain ⟨G, hthere, hgiven⟩ : ∃ G, Attained u (E' + F + G)
      ∧ ∀ h : Handle, .handle h ∈ G → ∃ a, e = .value a ∧ .handle h ∈ give a := by
    cases e with
    | value a => exact ⟨give a, hends.1, fun h hh => ⟨a, rfl, hh⟩⟩
    | raised f => exact ⟨0, Attained.cast hends (add_zero _), nofun⟩
    | panicked text => exact ⟨0, hends.1.cast (add_zero _), nofun⟩
  obtain ⟨h, hmem, hh⟩ := hthere.held_of_alive halive
  refine ⟨h, hh, ?_⟩
  rcases Multiset.mem_add.mp hmem with hroot | hheld
  · rw [← World.coe_roots] at hroot
    exact .inl hroot
  · rw [Hold.mem_handles, Multiset.mem_add, Multiset.mem_add] at hheld
    rcases hheld with (hothers | hframe) | hresult
    · exact .inr (.inl hothers)
    · exact absurd hframe (hold h hh)
    · exact .inr (.inr (hgiven h hresult))

/-- A call that failed when only candidates had been tried leaves nothing behind. -/
theorem Run.Ensures.cleared {f : ε} (hv : Attained v (E + F)) (hend : m w = .ended (.raised f) u)
    (htried : v.Tried u) : v.Cleared u := by
  have hcomes : m.Comes F E w E (.raised f) u := by
    rw [Run.Comes, hend]
    exact .ended
  exact htried.cleared hv (hm.comes (hattained.cast (add_zero _)) hcomes).1

/-- A safe call that goes on through passages isolates what it passes. -/
theorem Run.Ensures.isolates (hv : Attained v (E + F)) (henters : m.Enters passages v.Tried w v) :
    m.Isolates passages give F E w v where
  enters := by
    cases henters with
    | through hp hrun hpasses => exact .through hp hrun hpasses
    | fails hend htried => exact .fails hend (hm.cleared hattained hv hend htried)
  releases _ _ _ hcomes _ hi halive := hm.releases hattained hcomes hi halive

end Ends

section Candidates

variable {E F : Hold} {w : World} {hs : List Handle} {context : String} {args : List DynValue}
  {m : Run ε α} (hattained : Attained w (E + F)) (hlent : LendsAll F hs)
  (hargs : LendsAll F (args.flatMap DynValue.handles))

include hattained hlent hargs

/-- A call goes on through the candidate that was found to fit, with handles of its own. -/
theorem Run.Enters.of_become {ι : Type} {candidate : ι → Prop} {params : ι → List NativeType}
    {run : ι → List NativeValue → Run ε α} {c : ι} {ns : List NativeValue} {x : World}
    {left : World → Prop} (hc : candidate c)
    (hbecome : (Arguments.dynamic context args).Become (w.retainAll hs) x (params c) ns)
    (htried : (w.retainAll hs).Tried x)
    (hx : Attained x (E + F + ofHandles hs + NativeValue.holdAll ns)) (hrun : m w = run c ns x) :
    m.Enters (Passage.through candidate params run args) left w w := by
  obtain ⟨hlength, hbound⟩ := hbecome
  have hstart := World.Tried.respected.retainAll w hs
  have hthere : ∀ h ∈ w.rootBag + (E + F + ofHandles hs).handles, h.twin < w.twins.size := by
    rw [← World.rootBag_retainAll w hs, ← (World.Still.retainAll w hs).size]
    exact fun h => (hattained.retainAll hlent.right).lt_size
  have hlentArgs := hargs.right (F := E)
  have hhas := hattained.has_of_lends hlentArgs
  refine .through ⟨c, hc, hlength, rfl⟩ hrun ((hstart.trans htried).passes hthere hx ?_ ?_)
  · intro p hp a ha
    obtain ⟨q, hq, rfl⟩ := List.mem_map.mp hp
    cases ha
    have hmem := (List.of_mem_zip hq).1
    refine ⟨LendsAll.subset hlentArgs.left fun h hh => ?_, hhas.of_flatMap hmem⟩
    exact List.mem_flatMap.mpr ⟨_, hmem, hh⟩
  · rw [Passage.supplied, List.forall₂_map_left_iff, List.forall₂_iff_zip]
    rw [List.forall₂_iff_zip] at hbound
    refine ⟨hbound.1, fun {p n} hmem a ha => ?_⟩
    cases ha
    have hargument := hhas.of_flatMap (List.of_mem_zip (List.of_mem_zip hmem).1).1
    exact (hbound.2 hmem).along hargument hstart.rests htried.rests (.refl x)

/-- A call that is resolved in a table goes on through a slot of its name. -/
theorem Run.Enters.of_resolve (context className : String) {table : VTable} {name : String}
    {run : Nat × Slot → List NativeValue → Run ε α}
    (hok : ∀ s slot x, table.resolve (Crossing.fromDynamic context args) className name false
        (w.retainAll hs) = (.ok s, x) → table.get? s.index = some slot →
      m w = run (s.index, slot) s.args x)
    (herror : ∀ f x, table.resolve (Crossing.fromDynamic context args) className name false
        (w.retainAll hs) = (.error f, x) → ∃ e u, m w = .ended (.raised e) u ∧ x.Tried u) :
    m.Enters (Passage.slots table name run args) w.Tried w w := by
  have hretained := hattained.retainAll hlent.right
  have hhas := hretained.has_of_lends (hargs.right (F := E)).left
  have hsafe := hretained.step (VTable.resolve_safe (Crossing.fromDynamic_safe context
    (hargs.right (F := E)).left) table className name false)
  have htried := World.Tried.respected.resolve
    (World.Tried.respected.fromDynamic context args) table className name false (w.retainAll hs)
  rcases table.resolve_cases (a := .dynamic context args) className name false hhas with
    ⟨s, x, fit, slot, hresolve, hpicks, hbecome, -⟩ | ⟨-, x, -, hresolve⟩
  · replace hresolve : table.resolve (Crossing.fromDynamic context args) className name false
      (w.retainAll hs) = (.ok s, x) := hresolve
    rw [hresolve] at hsafe htried
    exact .of_become hattained hlent hargs (c := (s.index, slot))
      ⟨hpicks.callable.there, hpicks.callable.named⟩ hbecome htried hsafe.1
      (hok s slot x hresolve hpicks.callable.there)
  · replace hresolve : table.resolve (Crossing.fromDynamic context args) className name false
      (w.retainAll hs) = (.error _, x) := hresolve
    rw [hresolve] at htried
    obtain ⟨e, u, hend, hafter⟩ := herror _ x hresolve
    exact .fails hend (((World.Tried.respected.retainAll w hs).trans htried).trans hafter)

/-- A call that is picked from overloads goes on through one of them. -/
theorem Run.Enters.of_pick (context : String) (ms : List MethodDecl)
    (run : MethodDecl → List NativeValue → Run ε α)
    (hok : ∀ d ns x, Call.pickOverload (Crossing.argsToNative context args) ms Fit.order
        (w.retainAll hs) = (some (d, ns), x) → m w = run d ns x)
    (hnone : ∀ x, Call.pickOverload (Crossing.argsToNative context args) ms Fit.order
        (w.retainAll hs) = (none, x) → ∃ e u, m w = .ended (.raised e) u ∧ x.Tried u) :
    m.Enters (Passage.through (· ∈ ms) MethodDecl.params run args) w.Tried w w := by
  have hretained := hattained.retainAll hlent.right
  have hhas := hretained.has_of_lends (hargs.right (F := E)).left
  have hsafe := hretained.step (Call.pickOverload_safe (fun w params fit =>
    Crossing.argsToNative_safe context params fit (hargs.right (F := E)).left) ms Fit.order)
  have htried := World.Tried.respected.pickOverload
    (World.Tried.respected.argsToNative context args) ms Fit.order (w.retainAll hs)
  cases hfirst : firstFit? (fun fit d => (Arguments.dynamic context args).fits (w.retainAll hs) fit
      (MethodDecl.params d)) ms with
  | some first =>
      obtain ⟨fit, d⟩ := first
      obtain ⟨ns, x, hpick, hbecome⟩ := Call.pickOverload_first (a := .dynamic context args) hhas
        (.refl _) hfirst
      replace hpick : Call.pickOverload (Crossing.argsToNative context args) ms Fit.order
        (w.retainAll hs) = (some (d, ns), x) := hpick
      rw [hpick] at hsafe htried
      exact .of_become hattained hlent hargs (c := d) (of_firstFit? hfirst).1 hbecome htried hsafe.1
        (hok d ns x hpick)
  | none =>
      obtain ⟨x, hpick⟩ := Call.pickOverload_unfit (a := .dynamic context args) hhas (.refl _)
        (firstFit?_eq_none_iff.mp hfirst)
      replace hpick : Call.pickOverload (Crossing.argsToNative context args) ms Fit.order
        (w.retainAll hs) = (none, x) := hpick
      rw [hpick] at htried
      obtain ⟨e, u, hend, hafter⟩ := hnone x hpick
      exact .fails hend (((World.Tried.respected.retainAll w hs).trans htried).trans hafter)

end Candidates

end TwinObject
