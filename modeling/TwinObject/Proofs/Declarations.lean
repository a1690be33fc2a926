/-
Declarations of dynamic classes are all or nothing.  The registry is what follows from the
list of the classes that were declared, and so are the warnings of all interpreters: a class
is registered once under every native class among its segments, and a request that is
rejected leaves no trace.
-/
import TwinObject.Proofs.Delivery.Waiters
import TwinObject.Proofs.History

namespace TwinObject

/-- Whether a dynamic class derives from a native one, directly or through an ancestor. -/
def DynamicClass.derives (c : DynamicClass) (id : NativeId) : Bool :=
  c.composition.layout.segments.any (·.id = id)

/-- The native bases that a class stands on which derives from this. -/
def BaseSpec.bases : BaseSpec → List NativeClass
  | native b => [b]
  | composed bs => bs
  | dynamic parent => parent.composition.bases

/-- The native bases that are named directly. -/
def BaseSpec.direct : BaseSpec → List NativeClass
  | dynamic _ => []
  | spec => spec.bases

/-- The warning about the first base named directly that has no virtual destructor. -/
def BaseSpec.warning? (spec : BaseSpec) (name : String) : Option LifetimeWarning :=
  (spec.direct.find? fun b => !b.virtualDtor).map fun b => ⟨name, b.name⟩

/-- What a built class owes to the foundation that its declaration names. -/
theorem ClassDecl.build_spec {d : ClassDecl} {id : ClassId} {interp : InterpId} {warn : Bool}
    {c : DynamicClass} (hbuild : d.build id interp warn = .ok c) :
    ∃ spec, d.base = some spec ∧ c.name = d.name ∧ c.composition.bases = spec.bases
      ∧ c.warnings = if warn then (spec.warning? d.name).toList else [] := by
  obtain ⟨comp, ancestors, hfoundation, rfl⟩ := eq_of_build hbuild
  unfold foundation at hfoundation
  dsimp only
  rw [lifetimeWarning?, namesNativeBases]
  cases hbase : d.base with
  | none => rw [hbase] at hfoundation; cases hfoundation
  | some spec =>
      refine ⟨spec, rfl, rfl, ?_⟩
      rw [hbase] at hfoundation
      cases spec with
      | native b =>
          cases hfoundation
          exact ⟨rfl, rfl⟩
      | composed bs =>
          cases hcompose : Composition.compose bs with
          | error e => simp [hcompose, Except.map] at hfoundation
          | ok found =>
              simp only [hcompose, Except.map, Except.ok.injEq, Prod.mk.injEq] at hfoundation
              obtain ⟨rfl, -⟩ := hfoundation
              have hbases := bases_of_compose hcompose
              refine ⟨hbases, ?_⟩
              rw [if_pos rfl, hbases]
              rfl
      | dynamic parent =>
          cases hfoundation
          exact ⟨rfl, by simp [BaseSpec.warning?, BaseSpec.direct]⟩

/-- Bases that could be composed share no ancestor. -/
theorem Composition.unshared_of_compose {bs : List NativeClass} {comp : Composition}
    (hcompose : compose bs = .ok comp) : bs.Pairwise fun a b => a.sharedAncestor? b = none := by
  unfold compose at hcompose
  split at hcompose
  · exact .nil
  · exact List.pairwise_singleton _ _
  · split at hcompose
    · cases hcompose
    · rename_i hnone
      exact (pairwise_of_firstPair? hnone).imp Option.map_eq_none_iff.mp

theorem ClassDecl.unshared_of_build {d : ClassDecl} {id : ClassId} {interp : InterpId}
    {warn : Bool} {c : DynamicClass} {bs : List NativeClass} (hbase : d.base = some (.composed bs))
    (hbuild : d.build id interp warn = .ok c) :
    bs.Pairwise fun a b => a.sharedAncestor? b = none := by
  obtain ⟨comp, ancestors, hfoundation, -⟩ := eq_of_build hbuild
  simp only [foundation, hbase] at hfoundation
  cases hcompose : Composition.compose bs with
  | error e => simp [hcompose, Except.map] at hfoundation
  | ok comp => exact Composition.unshared_of_compose hcompose

namespace World

/-- Whether between two worlds one dynamic class was declared and nothing else: it is
registered under all its segments, and its interpreter was told of its warnings. -/
structure Admits (w : World) (c : DynamicClass) (u : World) : Prop where
  classes : u.dynamicClasses = w.dynamicClasses ++ [c]
  registry : u.registry = w.registry ++ c.composition.layout.segments.map fun s => (s.id, c)
  diagnostics : ∀ i, (u.interp i).diagnostics
    = (w.interp i).diagnostics ++ if i = c.interp then c.warnings else []

variable {w u v : World} {c : DynamicClass}

theorem Steady.admits (h : w.Steady u) (h' : u.Admits c v) : w.Admits c v where
  classes := by rw [h'.classes, h.classes]
  registry := by rw [h'.registry, h.registry]
  diagnostics i := by rw [h'.diagnostics, h.diagnostics]

theorem Admits.steady (h : w.Admits c u) (h' : u.Steady v) : w.Admits c v where
  classes := by rw [h'.classes, h.classes]
  registry := by rw [h'.registry, h.registry]
  diagnostics i := by rw [h'.diagnostics, h.diagnostics]

theorem admitClass_admits (hinterp : c.interp < w.interps.size) (attrs : Attributes) :
    w.Admits c (admitClass c attrs w) where
  classes := by simp [admitClass, dynamicClasses, modifyInterp]
  registry := rfl
  diagnostics i := by
    have hinterps : (admitClass c attrs w).interp i = (w.modifyInterp c.interp fun s =>
        { s with diagnostics := s.diagnostics ++ c.warnings }).interp i := rfl
    rw [hinterps, interp_modifyInterp]
    by_cases hi : i = c.interp
    · subst hi
      simp [hinterp]
    · rw [if_neg (fun h => hi h.1.symm), if_neg hi, List.append_nil]

theorem classAttrs_silent (attrs : List (String × DynValue)) (w : World) :
    w.Silent (classAttrs attrs w).2 := by
  unfold classAttrs
  generalize Attributes.withRoom attrs.length = a
  induction attrs generalizing a w with
  | nil => exact .refl w
  | cons attr attrs ih => exact (Silent.drop w _).trans (ih _ _)

/-- A class that was built is admitted. -/
theorem declareClass_admits {decl : ClassDecl} {i : InterpId} {attrs : List (String × DynValue)}
    (hi : i < w.interps.size) (hok : (declareClass decl i attrs w).1 = .ok c) :
    decl.build w.classes.size i (w.interp i).options.warnMissingDtor = .ok c
      ∧ w.Admits c (declareClass decl i attrs w).2 := by
  unfold declareClass at hok ⊢
  cases hbuild : decl.build w.classes.size i (w.interp i).options.warnMissingDtor with
  | error f => rw [hbuild] at hok; cases hok
  | ok d =>
      rw [hbuild] at hok
      cases hok
      refine ⟨rfl, ?_⟩
      have hattrs := (classAttrs_silent attrs w).steady
      have hinterp : c.interp < (classAttrs attrs w).2.interps.size := by
        rw [(ClassDecl.build_ok hbuild).2.1]
        exact (hattrs.options i hi).1
      exact hattrs.admits (admitClass_admits hinterp _)

theorem declareClass_refused {decl : ClassDecl} {i : InterpId} {attrs : List (String × DynValue)}
    {f : Failure} (herror : (declareClass decl i attrs w).1 = .error f) :
    w.Steady (declareClass decl i attrs w).2 := by
  unfold declareClass at herror ⊢
  cases hbuild : decl.build w.classes.size i (w.interp i).options.warnMissingDtor with
  | error f => exact (Silent.drop w _).steady
  | ok d => rw [hbuild] at herror; cases herror

end World

section Ends

variable {ε α β : Type} {seen : Thrown → ε} {m : Run ε α} {w u : World}

theorem Run.Delivers.steady_of_ended {e : Ending ε α} (hm : m.Delivers seen)
    (hended : m w = .ended e u) : w.Steady u := by
  have hcourse := hm w
  rw [hended] at hcourse
  cases hcourse with
  | ended hbears _ => exact hbears.steady

/-- Code in two parts ends where the second ends after a value of the first, or where the
first ends without one. -/
theorem Run.ended_of_bind {k : α → Run ε β} {e : Ending ε β}
    (hended : (m >>= k) w = .ended e u) :
    (∃ a v, m w = .ended (.value a) v ∧ k a v = .ended e u)
      ∨ (∀ b, e ≠ .value b) ∧ ∃ e', (∀ a, e' ≠ .value a) ∧ m w = .ended e' u := by
  have hcourse : (m >>= k) w = (m w).andThen [] (following k) := rfl
  rw [hcourse] at hended
  cases hm : m w with
  | paused held v ready next => rw [hm] at hended; cases hended
  | exhausted v => rw [hm] at hended; cases hended
  | ended e' v =>
      rw [hm] at hended
      cases e' with
      | value a => exact Or.inl ⟨a, v, rfl, hended⟩
      | raised t =>
          cases hended
          exact Or.inr ⟨by simp, _, by simp, rfl⟩
      | panicked text =>
          cases hended
          exact Or.inr ⟨by simp, _, by simp, rfl⟩

/-- What is lent is taken back at every end. -/
theorem Run.ended_of_lendingAll {ks : List Kind} {e : Ending ε α}
    (hended : Run.lendingAll ks m w = .ended e u) :
    ∃ v v', w.Steady v ∧ m v = .ended e v' ∧ v'.Steady u := by
  induction ks generalizing w u with
  | nil => exact ⟨w, u, .refl w, hended, .refl u⟩
  | cons k ks ih =>
      have hcourse : Run.lendingAll (k :: ks) m w = (Run.lendingAll ks m (w.lend k)).andThen
          [.kind k] fun e v => .ended e (v.takeBack k) := rfl
      rw [hcourse] at hended
      cases hinner : Run.lendingAll ks m (w.lend k) with
      | paused held v ready next => rw [hinner] at hended; cases hended
      | exhausted v => rw [hinner] at hended; cases hended
      | ended e' y =>
          rw [hinner] at hended
          cases hended
          obtain ⟨v, v', hbefore, hm, hafter⟩ := ih hinner
          exact ⟨v, v', (World.Silent.lend w k).steady.trans hbefore, hm,
            hafter.trans (World.Silent.takeBack y k).steady⟩

theorem Operand.value_of_find {f : World → Except Thrown α} {a : α}
    (hended : find f w = .ended (.value a) u) : u = w ∧ f w = .ok a := by
  have hcourse : find f w = Run.ofExcept (f w) w := rfl
  rw [hcourse] at hended
  cases hfound : f w with
  | ok b =>
      rw [hfound] at hended
      cases hended
      exact ⟨rfl, rfl⟩
  | error t => rw [hfound] at hended; cases hended

end Ends

namespace Step

open Operand

variable {h : Host} {w u : World}

theorem value_of_findBase {base : Option BaseRef} {spec : Option BaseSpec}
    (hended : findBase base w = .ended (.value spec) u) :
    u = w ∧ ∀ b, spec = some b → ∃ ref, base = some ref ∧ ref.find w = .ok b := by
  cases base with
  | none =>
      cases hended
      exact ⟨rfl, nofun⟩
  | some ref =>
      rcases Run.ended_of_bind hended with ⟨b, v, hfound, hrest⟩ | ⟨hnever, -⟩
      · obtain ⟨rfl, hfind⟩ := value_of_find hfound
        cases hrest
        exact ⟨rfl, fun b' hb => ⟨ref, rfl, by rw [hfind, Option.some.inj hb]⟩⟩
      · exact absurd rfl (hnever _)

/-- An action whose error is raised in other words ends in its own world. -/
theorem ends_of_checked {α : Type} {a : Act (Except Failure α)} {e : Ending Thrown α}
    (hended : Run.mapError Failure.raise (Run.act a >>= Run.ofExcept) w = .ended e u) :
    u = (a w).2 ∧ ((∃ r, (a w).1 = .ok r ∧ e = .value r)
      ∨ ∃ f, (a w).1 = .error f ∧ e = .raised f.raise) := by
  change (Run.ofExcept (a w).1 (a w).2).andThen [] _ = _ at hended
  cases hresult : (a w).1 with
  | ok r =>
      rw [hresult] at hended
      cases hended
      exact ⟨rfl, Or.inl ⟨r, rfl, rfl⟩⟩
  | error f =>
      rw [hresult] at hended
      cases hended
      exact ⟨rfl, Or.inr ⟨f, rfl, rfl⟩⟩

/-- Whether a request to declare a class was granted between two worlds: its foundation is
there, and the class that is built on it is admitted. -/
structure Grants (w : World) (name : String) (base : Option BaseRef) (methods : List Method)
    (initializer : Option DynExpr) (interp : String) (spec : BaseSpec) (i : InterpId)
    (c : DynamicClass) (u : World) : Prop where
  found : ∃ ref, base = some ref ∧ ref.find w = .ok spec
  named : w.interpNamed interp = .ok i
  built : ClassDecl.build { name, base := some spec, methods, initializer } w.classes.size i
    (w.interp i).options.warnMissingDtor = .ok c
  admits : w.Admits c u

/-- A request to declare a class ends with a value just if it was granted, and without a
trace otherwise. -/
theorem declareDynamicClass_ends (hh : h.Delivers) (hseated : w.Seated) {label name : String}
    {base : Option BaseRef} {methods : List Method} {initializer : Option DynExpr}
    {attrs : List (String × DynExpr)} {interp : String} {e : Ending Thrown Report}
    (hended : declareDynamicClass h label name base methods initializer attrs interp w
      = .ended e u) :
    (∃ r, e = .value r) ∧ (∃ spec i c, Grants w name base methods initializer interp spec i c u)
      ∨ (∀ r, e ≠ .value r) ∧ w.Steady u := by
  unfold declareDynamicClass at hended
  rcases Run.ended_of_bind hended with ⟨spec, v, hbase, hnext⟩ | ⟨hnever, _, -, hbase⟩
  swap
  · exact Or.inr ⟨hnever, (findBase_delivers base).steady_of_ended hbase⟩
  obtain ⟨rfl, hspec⟩ := value_of_findBase hbase
  rcases Run.ended_of_bind hnext with ⟨i, v, hfind, hlending⟩ | ⟨hnever, _, -, hfind⟩
  swap
  · exact Or.inr ⟨hnever, (find_delivers _).steady_of_ended hfind⟩
  obtain ⟨rfl, hnamed⟩ := value_of_find hfind
  obtain ⟨y, y', hlent, hbody, hback⟩ := Run.ended_of_lendingAll hlending
  have hattrs := evalDynList_delivers hh {} (attrs.map (·.2)) []
  rcases Run.ended_of_bind hbody with ⟨values, x, hvalues, hlast⟩ | ⟨hnever, _, -, hvalues⟩
  swap
  · exact Or.inr ⟨hnever, (hlent.trans (hattrs.steady_of_ended hvalues)).trans hback⟩
  have hsince := hlent.trans (hattrs.steady_of_ended hvalues)
  have hi : i < v.interps.size := by
    cases hlabel : v.interpNamed? interp with
    | none => simp [World.interpNamed, hlabel] at hnamed
    | some j =>
        simp only [World.interpNamed, hlabel, Option.elim_some, Except.ok.injEq] at hnamed
        exact hnamed ▸ hseated.named interp j hlabel
  -- All that was done until here is steady: the class itself is declared now or not at all.
  rcases Run.ended_of_bind hlast with ⟨c, z, hclass, hname⟩ | ⟨hnever, e', hnot, hclass⟩
  · obtain ⟨rfl, ⟨c', hok, hc⟩ | ⟨f, -, hc⟩⟩ := ends_of_checked hclass
    swap
    · cases hc
    obtain rfl := Ending.value.inj hc
    obtain ⟨hbuild, hadmits⟩ := World.declareClass_admits (hsince.options i hi).1 hok
    have hsize : x.classes.size = v.classes.size := by
      simpa [World.dynamicClasses] using congrArg List.length hsince.classes
    rw [hsize, (hsince.options i hi).2] at hbuild
    obtain ⟨b, hb, -⟩ := ClassDecl.build_spec hbuild
    obtain rfl : spec = some b := hb
    cases hname
    have hlabelled := hadmits.steady (World.Silent.nameClass _ label c).steady
    exact Or.inl ⟨⟨_, rfl⟩, b, i, c, hspec b rfl, hnamed, hbuild,
      (hsince.admits hlabelled).steady hback⟩
  · obtain ⟨rfl, ⟨c', -, hc⟩ | ⟨f, herror, -⟩⟩ := ends_of_checked hclass
    · exact absurd hc (hnot c')
    · exact Or.inr ⟨hnever, (hsince.trans (World.declareClass_refused herror)).trans hback⟩

/-- What comes of a request to declare a class: it is answered with a report just if it was
granted, and leaves no trace otherwise. -/
theorem perform_declareClass (hh : h.Delivers) (hseated : w.Seated) (label name : String)
    (base : Option BaseRef) (methods : List Method) (initializer : Option DynExpr)
    (attrs : List (String × DynExpr)) (interp : String) :
    let r := (declareClass label name base methods initializer attrs interp).perform h w
    (∃ report, r.1 = .ok report)
        ∧ (∃ spec i c, Grants w name base methods initializer interp spec i c r.2)
      ∨ (∀ report, r.1 ≠ .ok report) ∧ w.Steady r.2 := by
  have hperform : (declareClass label name base methods initializer attrs interp).perform h w
      = Answer.ofThrown (declareDynamicClass h label name base methods initializer attrs interp)
        w := rfl
  dsimp only
  rw [hperform, Answer.ofThrown, Answer.ofCourse]
  cases hcourse : declareDynamicClass h label name base methods initializer attrs interp w with
  | paused held u ready next => exact Or.inr ⟨by simp, .refl w⟩
  | exhausted u => exact Or.inr ⟨by simp, .refl w⟩
  | ended e u =>
      rcases declareDynamicClass_ends hh hseated hcourse with
        ⟨⟨r, rfl⟩, hgrants⟩ | ⟨hnever, hsteady⟩
      · exact Or.inl ⟨⟨r, rfl⟩, hgrants⟩
      · cases e with
        | value r => exact absurd rfl (hnever r)
        | raised t => exact Or.inr ⟨by simp, hsteady⟩
        | panicked text => exact Or.inr ⟨by simp, .refl w⟩

end Step

/-- Whether the registry and the warnings of all interpreters are those of the dynamic
classes that were declared, no two segments of which are of one native class. -/
structure World.Catalogued (w : World) : Prop where
  registry : w.registry = w.dynamicClasses.flatMap fun c =>
    c.composition.layout.segments.map fun s => (s.id, c)
  distinct : ∀ c ∈ w.dynamicClasses, (c.composition.layout.segments.map NativeClass.id).Nodup
  diagnostics : ∀ i, (w.interp i).diagnostics
    = (w.dynamicClasses.filter (·.interp = i)).flatMap DynamicClass.warnings

namespace World.Catalogued

variable {w u : World} {c : DynamicClass} {R : Hold}

theorem initial : Catalogued .initial where
  registry := rfl
  distinct c hc := by cases hc
  diagnostics i := by
    by_cases hi : i = 0
    · subst hi
      rfl
    · simp [World.initial, declareInterp, interp, dynamicClasses, hi]

theorem steady (hc : Catalogued w) (h : w.Steady u) : Catalogued u where
  registry := by rw [h.registry, h.classes, hc.registry]
  distinct := by
    rw [h.classes]
    exact hc.distinct
  diagnostics i := by rw [h.diagnostics, h.classes, hc.diagnostics]

theorem admits (hw : Catalogued w) (h : w.Admits c u)
    (hdistinct : (c.composition.layout.segments.map NativeClass.id).Nodup) : Catalogued u where
  registry := by
    rw [h.registry, h.classes, hw.registry, List.flatMap_append, List.flatMap_singleton]
  distinct d hd := by
    rw [h.classes, List.mem_append, List.mem_singleton] at hd
    rcases hd with hd | rfl
    · exact hw.distinct d hd
    · exact hdistinct
  diagnostics i := by
    rw [h.diagnostics, h.classes, hw.diagnostics, List.filter_append, List.flatMap_append]
    by_cases hi : i = c.interp
    · simp [hi]
    · simp [hi, Ne.symm hi]

/-- A class that was granted has no two segments of one native class. -/
theorem distinct_of_grants (hw : Catalogued w) (hinv : Invariant w R) {name : String}
    {base : Option BaseRef} {methods : List Method} {initializer : Option DynExpr}
    {interp : String} {spec : BaseSpec} {i : InterpId}
    (hgrants : Step.Grants w name base methods initializer interp spec i c u) :
    (c.composition.layout.segments.map NativeClass.id).Nodup := by
  obtain ⟨ref, -, hfind⟩ := hgrants.found
  obtain ⟨spec', hbase, -, hbases, -⟩ := ClassDecl.build_spec hgrants.built
  obtain rfl : spec = spec' := Option.some.inj hbase
  have hsegments : c.composition.layout.segments = spec.bases.flatMap NativeClass.flatten := by
    rw [← hbases]
    rfl
  have hnative : ∀ (label : String) (b : NativeClass), (label, b) ∈ w.scope.natives →
      (b.flatten.map NativeClass.id).Nodup := by
    intro label b hb
    have hkeeps := hinv.classed.natives (label, b) hb
    exact hinv.classed.distinct _ _ (hkeeps b (NativeClass.mem_flatten_self b))
  rw [hsegments]
  cases ref with
  | native label =>
      cases hnamed : w.nativeNamed label with
      | error t => simp [BaseRef.find, hnamed] at hfind
      | ok b =>
          obtain rfl : BaseSpec.native b = spec := by simpa [BaseRef.find, hnamed] using hfind
          simpa [BaseSpec.bases] using hnative label b (Operand.mem_natives_of_named hnamed)
  | composed labels =>
      cases hnamed : w.nativesNamed labels with
      | error t => simp [BaseRef.find, hnamed] at hfind
      | ok bs =>
          obtain rfl : BaseSpec.composed bs = spec := by simpa [BaseRef.find, hnamed] using hfind
          rw [List.map_flatMap, List.nodup_flatMap]
          refine ⟨fun b hb => ?_, ?_⟩
          · obtain ⟨label, hb⟩ := Operand.mem_natives_of_all hnamed b hb
            exact hnative label b hb
          · exact (ClassDecl.unshared_of_build rfl hgrants.built).imp
              NativeClass.disjoint_of_unshared
  | dynamic label =>
      cases hnamed : w.classNamed label with
      | error t => simp [BaseRef.find, hnamed] at hfind
      | ok parent =>
          obtain rfl : BaseSpec.dynamic parent = spec := by simpa [BaseRef.find, hnamed] using hfind
          obtain ⟨s, hs, rfl⟩ := hinv.classed.labels _ (Operand.mem_classes_of_named hnamed)
          refine hw.distinct s.cls (List.mem_map.mpr ⟨s, ?_, rfl⟩)
          exact Array.mem_toList_iff.mpr (Array.mem_of_getElem? hs)

/-- A class whose segments are all different is registered once under a native class from
which it derives. -/
theorem registered_once (hdistinct : (c.composition.layout.segments.map NativeClass.id).Nodup)
    (id : NativeId) :
    ((c.composition.layout.segments.map fun s => (s.id, c)).filter (·.1 = id)).map Prod.snd
      = if c.derives id then [c] else [] := by
  have hcount : (c.composition.layout.segments.filter (·.id = id)).length
      = if c.derives id then 1 else 0 := by
    have hmem : c.derives id = true ↔ id ∈ c.composition.layout.segments.map NativeClass.id := by
      simp [DynamicClass.derives]
    have hids : (c.composition.layout.segments.map NativeClass.id).count id
        = (c.composition.layout.segments.filter (·.id = id)).length := by
      rw [List.count, List.countP_map, ← List.countP_eq_length_filter]
      rfl
    rw [← hids, List.Nodup.count hdistinct]
    simp only [hmem]
  rw [List.filter_map, List.map_map]
  have hconst : Prod.snd ∘ (fun s : NativeClass => (s.id, c)) = Function.const NativeClass c := rfl
  rw [hconst, List.map_const]
  change List.replicate (c.composition.layout.segments.filter (·.id = id)).length c = _
  rw [hcount]
  split <;> rfl

/-- The classes that are registered under a native class are those that derive from it, each
once and in the order of their declaration. -/
theorem registered (hc : Catalogued w) (id : NativeId) :
    (w.registry.filter (·.1 = id)).map Prod.snd = w.dynamicClasses.filter (·.derives id) := by
  have hdistinct := hc.distinct
  rw [hc.registry]
  generalize w.dynamicClasses = cs at hdistinct ⊢
  induction cs with
  | nil => rfl
  | cons c cs ih =>
      rw [List.flatMap_cons, List.filter_append, List.map_append,
        registered_once (hdistinct c List.mem_cons_self) id,
        ih fun d hd => hdistinct d (List.mem_cons_of_mem c hd), List.filter_cons]
      split <;> rfl

end World.Catalogued

/-- Classes are numbered in the order of their declaration. -/
theorem World.numbered {w : World} {R : Hold} (hinv : Invariant w R) :
    w.dynamicClasses.map DynamicClass.id = List.range w.dynamicClasses.length := by
  refine List.ext_getElem (by simp) fun i hi _ => ?_
  have hlt : i < w.classes.size := by simpa [dynamicClasses] using hi
  simpa [dynamicClasses] using hinv.classed.ids i w.classes[i] (Array.getElem?_eq_getElem hlt)

namespace Session

variable {h : Host} {s : Session}

/-- Whether a step declared a dynamic class: it was asked to, and answered with a report. -/
def declared (st : Step) (answer : Answer) : Prop :=
  st.Declares ∧ ∃ report, answer = .ok report

/-- A request to declare a class is granted or leaves no trace, and starts no thread. -/
theorem step_declareClass (hh : h.Delivers) (hseated : s.world.Seated) (label name : String)
    (base : Option BaseRef) (methods : List Method) (initializer : Option DynExpr)
    (attrs : List (String × DynExpr)) (interp : String) :
    let r := step h (.declareClass label name base methods initializer attrs interp) s
    r.2.waiters = s.waiters
      ∧ ((∃ report, r.1.1 = .ok report)
          ∧ (∃ spec i c,
            Step.Grants s.world name base methods initializer interp spec i c r.2.world)
        ∨ (∀ report, r.1.1 ≠ .ok report) ∧ s.world.Steady r.2.world) := by
  have hfree : awaited? s.world
      (.declareClass label name base methods initializer attrs interp) = none := rfl
  obtain ⟨hanswer, hafter⟩ := step_of_free (h := h) hfree
  dsimp only
  rw [hanswer]
  have hperformed := Step.perform_declareClass hh hseated label name base methods initializer
    attrs interp
  dsimp only at hperformed
  rcases hperformed with ⟨⟨r, hr⟩, hgrants⟩ | ⟨hnever, hsteady⟩
  · rcases hafter with ⟨hstuck, -⟩ | ⟨-, hafter⟩
    · cases hr.symm.trans hstuck
    · rw [hafter]
      exact ⟨rfl, Or.inl ⟨⟨r, hr⟩, hgrants⟩⟩
  · rcases hafter with ⟨-, hafter⟩ | ⟨-, hafter⟩
    · rw [hafter]
      exact ⟨rfl, Or.inr ⟨hnever, .refl _⟩⟩
    · rw [hafter]
      exact ⟨rfl, Or.inr ⟨hnever, hsteady⟩⟩

/-- A step that declares no class leaves no trace where classes are declared. -/
theorem step_steady (hh : h.Delivers) (hseated : s.world.Seated)
    (hwaiters : ∀ p ∈ s.waiters, p.2.Steady) {st : Step}
    (hnot : ¬declared st (step h st s).1.1) : Steady s.world (step h st s).2 := by
  by_cases hst : st.Declares
  · cases st with
    | declareClass label name base methods initializer attrs interp =>
        obtain ⟨hsame, ⟨hreport, -⟩ | ⟨-, hsteady⟩⟩ := step_declareClass hh hseated label name base
          methods initializer attrs interp
        · exact absurd ⟨trivial, hreport⟩ hnot
        · exact ⟨hsteady, hsame ▸ hwaiters⟩
    | _ => exact hst.elim
  · exact advance_steady hh hst ⟨.refl _, hwaiters⟩

variable (depth : Nat) (steps : List Step)

/-- After every history the catalogue is in order. -/
theorem catalogued_after :
    (after (.nested .memo depth) steps).world.Catalogued
      ∧ ∀ p ∈ (after (.nested .memo depth) steps).waiters, p.2.Steady := by
  have hh : (Host.nested .memo depth).Delivers := Host.nested_delivers depth
  induction steps using List.reverseRecOn with
  | nil => exact ⟨.initial, nofun⟩
  | append_singleton steps st ih =>
      obtain ⟨hcatalogued, hwaiters⟩ := ih
      rw [after_singleton]
      have hattained := attained_after depth steps
      have hseated := hattained.reached fun S hreach => hreach.invariant.homed.seated
      -- A request that is granted adds to the catalogue, and any other step keeps it.
      by_cases hdeclared : declared st
          (step (.nested .memo depth) st (after (.nested .memo depth) steps)).1.1
      · cases st with
        | declareClass label name base methods initializer attrs interp =>
            obtain ⟨hsame, ⟨-, spec, i, c, hgrants⟩ | ⟨hnever, -⟩⟩ := step_declareClass hh hseated
              label name base methods initializer attrs interp
            · refine ⟨hcatalogued.admits hgrants.admits ?_, hsame ▸ hwaiters⟩
              exact hattained.reached fun S hreach =>
                hcatalogued.distinct_of_grants hreach.invariant hgrants
            · exact absurd hdeclared.2 (by simpa using hnever)
        | _ => exact hdeclared.1.elim
      · have hsteady := step_steady hh hseated hwaiters hdeclared
        exact ⟨hcatalogued.steady hsteady.world, hsteady.waiters⟩

end Session

open Session in
/-- Dynamic classes are declared whole or not at all, and catalogued as they are declared.
After every history the classes that are registered under a native class are those among the
declared ones that derive from it, in the order of their declaration and each once; and the
warnings of an interpreter are those of its classes.  A step that is no declaration, or one
that is not answered with a report, changes neither.  A declaration that is answered with
one adds a class on the bases of the foundation it names, registers that under all its
segments, and its interpreter is told of the first base that is named directly and has no
virtual destructor, if there is one and the interpreter is to warn of it. -/
theorem declarations_exact (depth : Nat) (steps : List Step) :
    let s := after (.nested .memo depth) steps
    World.initial.dynamicClasses = []
    ∧ (∀ id : NativeId,
      (s.world.registry.filter (·.1 = id)).map Prod.snd
        = s.world.dynamicClasses.filter (·.derives id)
      ∧ s.world.derivedFrom id
        = (s.world.dynamicClasses.filter (·.derives id)).map DynamicClass.name)
    ∧ s.world.dynamicClasses.map DynamicClass.id = List.range s.world.dynamicClasses.length
    ∧ (∀ i : InterpId, (s.world.interp i).diagnostics
      = (s.world.dynamicClasses.filter (·.interp = i)).flatMap DynamicClass.warnings)
    ∧ (∀ st : Step, let r := step (.nested .memo depth) st s
      ¬declared st r.1.1 →
        r.2.world.dynamicClasses = s.world.dynamicClasses
        ∧ r.2.world.registry = s.world.registry
        ∧ ∀ i, (r.2.world.interp i).diagnostics = (s.world.interp i).diagnostics)
    ∧ ∀ (label name : String) (base : Option BaseRef) (methods : List Method)
        (initializer : Option DynExpr) (attrs : List (String × DynExpr)) (interp : String),
      let r := step (.nested .memo depth)
        (.declareClass label name base methods initializer attrs interp) s
      (∃ report, r.1.1 = .ok report) → ∃ ref spec i c,
        base = some ref ∧ ref.find s.world = .ok spec ∧ s.world.interpNamed interp = .ok i
        ∧ c.name = name ∧ c.interp = i ∧ c.composition.bases = spec.bases
        ∧ r.2.world.dynamicClasses = s.world.dynamicClasses ++ [c]
        ∧ r.2.world.registry
          = s.world.registry ++ c.composition.layout.segments.map (fun n => (n.id, c))
        ∧ ∀ j, (r.2.world.interp j).diagnostics = (s.world.interp j).diagnostics
          ++ if j = i ∧ (s.world.interp i).options.warnMissingDtor then (spec.warning? name).toList
            else [] := by
  have hh : (Host.nested .memo depth).Delivers := Host.nested_delivers depth
  obtain ⟨hcatalogued, hwaiters⟩ := catalogued_after depth steps
  have hattained := attained_after depth steps
  have hseated := hattained.reached fun S hreach => hreach.invariant.homed.seated
  refine ⟨rfl, fun id => ⟨hcatalogued.registered id, ?_⟩, ?_, hcatalogued.diagnostics,
    fun st hnot => ?_, fun label name base methods initializer attrs interp hreport => ?_⟩
  · rw [← hcatalogued.registered, List.map_map]
    rfl
  · exact hattained.reached fun S hreach => World.numbered hreach.invariant
  · have hsteady := (step_steady hh hseated hwaiters hnot).world
    exact ⟨hsteady.classes, hsteady.registry, hsteady.diagnostics⟩
  · obtain ⟨-, ⟨-, spec, i, c, hgrants⟩ | ⟨hnever, -⟩⟩ := step_declareClass hh hseated label name
      base methods initializer attrs interp
    swap
    · exact absurd hreport.choose_spec (hnever _)
    obtain ⟨ref, hbase, hfind⟩ := hgrants.found
    obtain ⟨spec', hspec, hname, hbases, hwarnings⟩ := ClassDecl.build_spec hgrants.built
    obtain rfl : spec = spec' := Option.some.inj hspec
    have hinterp : c.interp = i := (ClassDecl.build_ok hgrants.built).2.1
    refine ⟨ref, spec, i, c, hbase, hfind, hgrants.named, hname, hinterp, hbases,
      hgrants.admits.classes, hgrants.admits.registry, fun j => ?_⟩
    rw [hgrants.admits.diagnostics, hinterp, hwarnings]
    by_cases hj : j = i <;> simp [hj]

end TwinObject
