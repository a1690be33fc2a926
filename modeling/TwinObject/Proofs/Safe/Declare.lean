/-
Declarations are safe.  A class that could be built refers to classes that are
kept, and no two of its segments are of one class; what it had before under its
label is let go.
-/
import TwinObject.Proofs.Inheritance
import TwinObject.Proofs.Safe.Inspect

namespace TwinObject

open Hold

section Building

/-- Classes that share no ancestor have no segment in common. -/
theorem NativeClass.disjoint_of_unshared {a b : NativeClass} (hnone : a.sharedAncestor? b = none) :
    List.Disjoint (a.flatten.map NativeClass.id) (b.flatten.map NativeClass.id) := by
  intro id ha hb
  obtain ⟨s, hs, rfl⟩ := List.mem_map.mp ha
  have hlineage : s.id ∈ b.lineage := (mem_lineage_iff _ _).mpr (List.mem_map.mp hb)
  have hfind := List.find?_eq_none.mp hnone s.id ((mem_lineage_iff _ _).mpr ⟨s, hs, rfl⟩)
  simp [hlineage] at hfind

namespace World

variable {w : World} {R : Hold} {c : NativeClass}

/-- The segments of a class whose parents share no ancestor are all different, if
the class itself is new. -/
theorem nodup_flatten (hinv : Invariant w R) (hid : c.id = ⟨w.declared.size⟩)
    (hparents : ∀ p ∈ c.parents, w.Keeps p)
    (hunshared : c.parents.Pairwise fun a b => a.sharedAncestor? b = none) :
    (c.flatten.map NativeClass.id).Nodup := by
  have hinherited : ((NativeClass.flattenAll c.parents).map NativeClass.id).Nodup := by
    rw [NativeClass.flattenAll_eq, List.map_flatMap, List.nodup_flatMap]
    refine ⟨fun p hp => ?_, hunshared.imp NativeClass.disjoint_of_unshared⟩
    exact hinv.classed.distinct _ _ (hparents p hp p (NativeClass.mem_flatten_self p))
  rw [NativeClass.flatten_eq, List.map_append, List.nodup_append]
  refine ⟨hinherited, List.nodup_singleton _, fun a ha b hb heq => ?_⟩
  obtain ⟨s, hs, rfl⟩ := List.mem_map.mp ha
  rw [NativeClass.flattenAll_eq, List.mem_flatMap] at hs
  obtain ⟨p, hp, hsp⟩ := hs
  obtain ⟨hlt, -⟩ := Array.getElem?_eq_some_iff.mp (hparents p hp s hsp)
  rw [List.mem_singleton.mp hb, hid] at heq
  rw [heq] at hlt
  exact Nat.lt_irrefl _ hlt

/-- A class is kept once it is declared. -/
theorem keeps_declared (hid : c.id = ⟨w.declared.size⟩) (hparents : ∀ p ∈ c.parents, w.Keeps p) :
    { w with declared := w.declared.push ⟨c, c.ownHandles⟩ }.Keeps c := by
  intro s hs
  rw [NativeClass.flatten_eq, List.mem_append, NativeClass.flattenAll_eq, List.mem_flatMap,
    List.mem_singleton] at hs
  rcases hs with ⟨p, hp, hs⟩ | rfl
  · have hkept := hparents p hp s hs
    rw [Array.getElem?_push, if_neg (Nat.ne_of_lt (Array.getElem?_eq_some_iff.mp hkept).1), hkept]
  · rw [hid]
    exact Array.getElem?_push_size

theorem nameNative_path (label : String) (hkeeps : w.Keeps c) :
    Path w R (nameNative label c w) R := by
  have hnamed := (Transition.nameNative (R := R) label hkeeps).path
  unfold nameNative
  cases w.scope.natives.get? label with
  | none => exact hnamed
  | some old => exact hnamed.trans (Path.dropKind _)

theorem nameClass_path {c : DynamicClass} (label : String) (hknows : w.Knows c) :
    Path w R (nameClass label c w) R := by
  have hnamed := (Transition.nameClass (R := R) label hknows).path
  unfold nameClass
  cases w.scope.classes.get? label with
  | none => exact hnamed
  | some old => exact hnamed.trans (Path.dropKind _)

end World

end Building

/-- A world with one more class. -/
def World.withNative (w : World) (c : NativeClass) : World :=
  { w with declared := w.declared.push ⟨c, c.ownHandles⟩ }

theorem World.Keeps.withNative {w : World} {c : NativeClass} (h : w.Keeps c) (added : NativeClass) :
    (w.withNative added).Keeps c :=
  h.mono fun i s hs => by
    rw [World.withNative, Array.getElem?_push,
      if_neg (Nat.ne_of_lt (Array.getElem?_eq_some_iff.mp hs).1), hs]

namespace Attained

variable {w : World} {R : Hold}

/-- A class without handles of its own is declared, and kept from then on. -/
theorem declare {c : NativeClass} (hattained : Attained w R) (hid : c.id = ⟨w.declared.size⟩)
    (hparents : ∀ p ∈ c.parents, w.Keeps p) (hdistinct : (c.flatten.map NativeClass.id).Nodup)
    (hdefaults : ∀ d ∈ c.members, w.Fits d.type d.default) (hnone : c.ownHandles = []) :
    Attained (w.withNative c) R ∧ (w.withNative c).Keeps c := by
  refine ⟨?_, World.keeps_declared hid hparents⟩
  refine ((hattained.cast (add_zero R)).along fun S _ => ?_).1.cast (add_zero R).symm
  have hdeclare := (Transition.declare (R := S + R) hid hparents hdistinct hdefaults).path
  exact hdeclare.cast (by rw [hnone, ofHandles_nil]) (add_zero _)

/-- An instance of a class that is kept comes into being. -/
theorem create {i : InterpId} {k : Kind} (hattained : Attained w R) (owner : Ownership)
    (hkeeps : w.KeepsKind k) (hconcrete : k.Concrete) (hhouses : w.Houses i k)
    (hnone : (Twin.fresh i k owner).contents = []) :
    Attained (w.admitTwin (.fresh i k owner)).1 (R + {.handle (.dynamic w.twins.size)}) := by
  refine ((hattained.cast (add_zero R)).along fun S hreach => ?_).1
  have hconforms := hreach.invariant.conforms_default (a := .fresh i k owner) hkeeps rfl
  have hcreate := (Transition.create (R := S + R) rfl rfl rfl rfl (Twin.shaped_fresh i k owner)
    hkeeps hconcrete hconforms hhouses (Twin.tidy_of_empty rfl)).path
  exact hcreate.cast (by rw [hnone, ofHandles_nil]) rfl

end Attained

namespace World

variable {F R : Hold} {w : World}

/-- A native class takes over the handles in its defaults, or they are let go. -/
theorem declareNative_safe (label : String) {decl : NativeDecl}
    (hparents : ∀ p ∈ decl.parents, Token.kind (.native p) ∈ F)
    (hdefaults : ∀ d ∈ decl.members, w.Fits d.type d.default) :
    Act.Safe F (ofHandles decl.handles) (fun _ => 0) w (declareNative label decl) := by
  intro R hreach
  have hkeeps : ∀ p ∈ decl.parents, w.Keeps p := fun p hp =>
    hreach.invariant.keepsKind_of_lent
      (Multiset.mem_add.mpr (Or.inl (Multiset.mem_add.mpr (Or.inr (hparents p hp)))))
  unfold declareNative
  cases hbuild : decl.build w.nativeLabel ⟨w.declared.size⟩ with
  | error e => exact (Path.drop _).cast rfl (add_zero _)
  | ok c =>
      have hbuilds := NativeDecl.build_ok hbuild
      have hunshared := hbuilds.unshared
      rw [← hbuilds.parents] at hkeeps hunshared
      have hdeclared := Transition.declare (R := R + F) hbuilds.id hkeeps
        (nodup_flatten hreach.invariant hbuilds.id hkeeps hunshared)
        (hbuilds.members ▸ hdefaults)
      rw [hbuilds.handles] at hdeclared
      refine (hdeclared.path.trans ?_).cast rfl (add_zero _)
      rw [← hbuilds.handles]
      exact nameNative_path label (keeps_declared hbuilds.id hkeeps)

/-- Of several values for one attribute all but the last are let go. -/
theorem bindAttrs_path (attrs : List (String × DynValue)) (a : Attributes) (w : World) (R : Hold) :
    Path w (R + ofHandles (a.handles ++ attrs.flatMap (·.2.handles)))
      (attrs.foldl bindAttr (a, w)).2 (R + ofHandles (attrs.foldl bindAttr (a, w)).1.handles) := by
  induction attrs generalizing a w with
  | nil => exact Path.refl.cast rfl (by simp)
  | cons entry attrs ih =>
      obtain ⟨name, v⟩ := entry
      refine Path.trans ?_ (ih (a.put name v) _)
      refine (Path.drop ((a.get? name).elim [] DynValue.handles)).cast ?_ rfl
      have hput := ofHandles_perm (a.handles_put name v)
      rw [ofHandles_append, ofHandles_append] at hput
      rw [List.flatMap_cons, ← List.append_assoc, ofHandles_append, ofHandles_append, ← hput,
        ofHandles_append]
      abel

theorem classAttrs_path (attrs : List (String × DynValue)) (w : World) (R : Hold) :
    Path w (R + ofHandles (attrs.flatMap (·.2.handles))) (classAttrs attrs w).2
      (R + ofHandles (classAttrs attrs w).1.handles) := by
  refine (bindAttrs_path attrs (.withRoom attrs.length) w R).cast ?_ rfl
  rw [Attributes.handles_withRoom, List.nil_append]

section Sizes

/-- No class comes or goes when something is let go. -/
theorem size_endEach {α : Type} {f : α → World → World × List Handle}
    (hf : ∀ (a : α) (w : World), (f a w).1.classes.size = w.classes.size) (as : List α)
    (w : World) : (endEach f as w).1.classes.size = w.classes.size := by
  induction as generalizing w with
  | nil => rfl
  | cons a as ih => exact (ih _).trans (hf a w)

theorem size_forsake (k : Kind) (w : World) : (forsake k w).1.classes.size = w.classes.size := by
  cases k with
  | native c =>
      refine size_endEach (fun id u => ?_) _ w
      obtain ⟨declared, hframe⟩ := u.endNative_frame id
      rw [hframe]
  | dynamic c =>
      refine size_endEach (fun id u => ?_) _ w
      obtain ⟨classes, hframe, hsize⟩ := u.endClass_frame id
      rw [hframe]
      exact hsize

theorem size_settleOne (w : World) (d : Due) : (w.settleOne d).1.classes.size = w.classes.size := by
  cases d with
  | handle h =>
      obtain ⟨twins, journal, hframe⟩ := w.letGo_frame h
      exact congrArg (·.classes.size) hframe
  | kind t =>
      have hkind : (w.letKindGo t).1.classes.size = w.classes.size := by
        unfold letKindGo
        split
        · rfl
        · split
          · exact size_forsake _ _
          · rfl
      exact hkind

theorem size_settle (w : World) (ds : List Due) : (w.settle ds).classes.size = w.classes.size := by
  fun_induction World.settle w ds with
  | case1 w => rfl
  | case2 w d ds ih => exact ih.trans (size_settleOne w d)

theorem size_bindAttrs (attrs : List (String × DynValue)) (a : Attributes) (w : World) :
    (attrs.foldl bindAttr (a, w)).2.classes.size = w.classes.size := by
  induction attrs generalizing a w with
  | nil => rfl
  | cons entry attrs ih => exact (ih _ _).trans (size_settle w _)

end Sizes

end World

namespace ClassDecl

variable {d : ClassDecl} {c : DynamicClass}

theorem bases_of_compose {bases : List NativeClass} {comp : Composition}
    (hcompose : Composition.compose bases = .ok comp) : comp.bases = bases := by
  unfold Composition.compose at hcompose
  split at hcompose
  · cases hcompose
  · cases hcompose
    rfl
  · split at hcompose
    · cases hcompose
    · cases htable : bases.foldlM (fun table b => table.merge b.vtable) VTable.empty with
      | error e => rw [htable] at hcompose; cases hcompose
      | ok table =>
          rw [htable] at hcompose
          cases hcompose
          rfl

/-- What a class that was built takes over from its declaration and from the foundation
that this names. -/
theorem eq_of_build {id : ClassId} {interp : InterpId} {warn : Bool}
    (hbuild : d.build id interp warn = .ok c) :
    ∃ composition ancestors, d.foundation = .ok (composition, ancestors)
      ∧ c = { own := { id, name := d.name, interp, methods := d.methods,
                       initializer := d.initializer }
              ancestors, composition
              warnings := if warn then (d.lifetimeWarning? composition).toList else [] } := by
  unfold build at hbuild
  cases hfoundation : d.foundation with
  | error e => rw [hfoundation] at hbuild; cases hbuild
  | ok found =>
      obtain ⟨comp, ancestors⟩ := found
      rw [hfoundation] at hbuild
      cases hchecks : d.methods.forM (d.checkMethod comp) with
      | error e =>
          simp only [bind, Except.bind, hchecks] at hbuild
          cases hbuild
      | ok _ =>
          simp only [bind, Except.bind, hchecks] at hbuild
          exact ⟨comp, ancestors, rfl, (Except.ok.inj hbuild).symm⟩

/-- A class that was built stands on the foundation that its declaration names. -/
theorem build_ok {id : ClassId} {interp : InterpId} {warn : Bool}
    (hbuild : d.build id interp warn = .ok c) :
    c.id = id ∧ c.interp = interp
      ∧ ∃ ancestors, d.foundation = .ok (c.composition, ancestors) := by
  obtain ⟨comp, ancestors, hfoundation, rfl⟩ := eq_of_build hbuild
  exact ⟨rfl, rfl, ancestors, hfoundation⟩

/-- The native bases of a foundation are kept if what the declaration refers to is. -/
theorem keeps_bases {w : World} {R : Hold} (hinv : Invariant w R)
    (hkinds : ∀ k ∈ d.base.elim [] BaseSpec.kinds, w.KeepsKind k) {comp : Composition}
    {ancestors : List ClassDef} (hfoundation : d.foundation = .ok (comp, ancestors)) :
    ∀ b ∈ comp.bases, w.Keeps b := by
  unfold foundation at hfoundation
  cases hbase : d.base with
  | none => rw [hbase] at hfoundation; cases hfoundation
  | some spec =>
      rw [hbase] at hfoundation hkinds
      cases spec with
      | native base =>
          cases hfoundation
          intro b hb
          rw [List.mem_singleton.mp hb]
          exact hkinds (.native base) (List.mem_singleton_self _)
      | composed bases =>
          cases hcompose : Composition.compose bases with
          | error e => simp [hcompose, Except.map] at hfoundation
          | ok found =>
              simp only [hcompose, Except.map, Except.ok.injEq, Prod.mk.injEq] at hfoundation
              obtain ⟨rfl, -⟩ := hfoundation
              rw [bases_of_compose hcompose]
              exact fun b hb => hkinds (.native b) (List.mem_map_of_mem hb)
      | dynamic parent =>
          cases hfoundation
          obtain ⟨s, hs, rfl⟩ := hkinds (.dynamic parent) (List.mem_singleton_self _)
          exact fun b hb => (hinv.classed.bases _ s hs b hb).1

end ClassDecl

namespace World

variable {F : Hold} {w : World}

/-- A dynamic class takes over the values of its attributes, or they are let go. -/
theorem declareClass_safe {decl : ClassDecl} {interp : InterpId}
    (hinterp : interp < w.interps.size) (attrs : List (String × DynValue))
    (hkinds : ∀ k ∈ decl.base.elim [] BaseSpec.kinds, Token.kind k ∈ F) :
    Act.Safe F (ofHandles (attrs.flatMap (·.2.handles))) (fun _ => 0) w
      (declareClass decl interp attrs) := by
  intro R hreach
  unfold declareClass
  cases hbuild : decl.build w.classes.size interp (w.interp interp).options.warnMissingDtor with
  | error e => exact (Path.drop _).cast rfl (add_zero _)
  | ok c =>
      obtain ⟨hid, rfl, ancestors, hfoundation⟩ := ClassDecl.build_ok hbuild
      have hattrs := classAttrs_path attrs w (R + F)
      have hthere := hreach.along hattrs
      have hbases : ∀ b ∈ c.composition.bases, (classAttrs attrs w).2.Keeps b := by
        refine ClassDecl.keeps_bases hthere.invariant (fun k hk => ?_) hfoundation
        exact hthere.invariant.keepsKind_of_lent
          (Multiset.mem_add.mpr (Or.inl (Multiset.mem_add.mpr (Or.inr (hkinds k hk)))))
      have hthere := hinterp.trans_le hattrs.persists.interps
      refine hattrs.trans ((Transition.register (hid.trans ?_) hbases hthere _).path.cast rfl
        (add_zero _))
      exact (size_bindAttrs attrs _ w).symm

/-- A dynamic class is known once it is declared. -/
theorem knows_declared {decl : ClassDecl} {interp : InterpId} {attrs : List (String × DynValue)}
    {c : DynamicClass} (hok : (declareClass decl interp attrs w).1 = .ok c) :
    (declareClass decl interp attrs w).2.Knows c := by
  unfold declareClass at hok ⊢
  cases hbuild : decl.build w.classes.size interp (w.interp interp).options.warnMissingDtor with
  | error e => rw [hbuild] at hok; cases hok
  | ok b =>
      rw [hbuild] at hok
      cases hok
      refine ⟨⟨c, (classAttrs attrs w).1, List.replicate c.vtable.size none⟩, ?_, rfl⟩
      have hpush : c.id = (classAttrs attrs w).2.classes.size :=
        (ClassDecl.build_ok hbuild).1.trans (size_bindAttrs attrs _ w).symm
      rw [hpush]
      exact Array.getElem?_push_size

theorem declareFunction_path {R : Hold} (label name : String) (params : List NativeType)
    (ret : NativeType) (body : NativeExpr) (release : Bool) :
    Path w R (declareFunction label name params ret body release w) R :=
  Path.quiet (w.alike_with (Nat.le_refl _) id) (.of_eq rfl rfl rfl)

theorem alike_declareInterp (w : World) (label : String) (options : InterpOptions) :
    w.Alike (declareInterp label options w) :=
  have hsize : (declareInterp label options w).interps.size = w.interps.size + 1 :=
    Array.size_push _
  { twins := rfl, declared := rfl, classes := rfl, registry := rfl, vecs := rfl, groups := rfl,
    threads := rfl, natives := rfl, labels := rfl, vars := rfl, journal := rfl, lent := rfl
    interps := by
      rw [hsize]
      exact Nat.le_succ _
    started := Nat.le_refl _
    seated := fun hseated =>
      { main := by
          rw [hsize]
          exact Nat.succ_pos _
        named := by
          intro name i hi
          rw [hsize]
          rw [interpNamed?, declareInterp, Bindings.get?_put] at hi
          split at hi
          · cases hi
            exact Nat.lt_succ_self _
          · exact Nat.lt_succ_of_lt (hseated.named name i hi)
        known := hseated.known } }

/-- The lock of a new interpreter is free. -/
theorem calm_declareInterp (w : World) (label : String) (options : InterpOptions) :
    w.Calm (declareInterp label options w) where
  locks i := by
    rw [lock, interp, declareInterp, Array.getElem?_push]
    split
    · rename_i hi
      rw [lock_of_missing (Nat.le_of_eq hi.symm)]
      rfl
    · rfl
  running := rfl
  started := rfl

theorem declareInterp_path {R : Hold} (label : String) (options : InterpOptions) :
    Path w R (declareInterp label options w) R :=
  Path.quiet (w.alike_declareInterp label options) (w.calm_declareInterp label options)

/-- A new vector belongs to its variable. -/
theorem declareVec_path {R : Hold} (x element : String) (hreach : Reachable w R) :
    Path w R (declareVec x element w) R := by
  have hnew := (Transition.newVec (R := R) (w := w) element).path
  exact hnew.trans (setVar_path x (.vec w.vecs.size) (hreach.along hnew))

theorem declareSignal_path {R : Hold} (x : String) (hreach : Reachable w R) :
    Path w R (declareSignal x w) R := by
  have hnew : Path w R { w with signals := w.signals.push false } R :=
    Path.quiet (w.alike_with (Nat.le_refl _) id) (.of_eq rfl rfl rfl)
  refine hnew.trans ((setVar_path x (.signal w.signals.size) ?_).cast (add_zero R).symm rfl)
  exact (hreach.along hnew).along (Path.refl.cast rfl (add_zero R))

end World

end TwinObject
