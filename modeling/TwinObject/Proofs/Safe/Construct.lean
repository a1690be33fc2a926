/-
Construction is safe.  The segments that an attempt completed are held until they
belong to a constructed base, and are razed when it fails; a base is constructed
for a second time only where there are other threads.
-/
import TwinObject.Proofs.Safe.Segments

namespace TwinObject

open Hold

namespace Construction

open Run.Ensures

variable {F : Hold} {w : World} {h h' : Host} {t : TwinId}

section Classes

theorem constructOwn_safe (hsafe : h.Safe h') {s : Site} {g : ArgGroup} (fromDerived : Bool)
    (hlent : Lends F s.twin) (hfits : s.Fits w) (hgroup : LendsAll F g.handles) :
    Run.Safe F 0 (fun _ => 0) w (constructOwn h s g fromDerived)
      (constructOwn h' s g fromDerived) := by
  unfold constructOwn
  refine modify_bind (M := 0) (fun R hreach => Site.reset_path hreach hlent hfits) fun hreset => ?_
  refine reads_bind ?_
  split
  · split
    · exact value trivial rfl
    · exact raise
  · have hdefaults := (Site.vouches hlent hfits).mono hreset
    refine act_bind (Choice.search_safe _ _ _ _ _ hgroup hdefaults) fun hsearch => ?_
    generalize (Choice.search _ _ _ _ _ _ _).1 = choice
    cases choice with
    | chosen c args =>
        refine holding ?_
        have hframe : NativeFrame.Lent (F + ofHandles (args.flatMap NativeValue.handles))
            (Choice.search ("constructor of '" ++ s.cls.name ++ "'") g fromDerived
              s.cls.constructors Fit.order false (resetSegment s w)).2
            { args, site := some s } := {
          this := fun _ ht => by cases ht
          args := (LendsAll.self _).right
          site := fun s' hs' => by
            cases hs'
            exact ⟨hlent.left, (hfits.mono hreset).mono hsearch⟩ }
        exact andThen (hsafe.native _ _ _ _ hframe) fun _ _ _ _ => dropping rfl
    | inaccessible => exact raise
    | unfit => exact raise

mutual

theorem constructClass_safe (hsafe : h.Safe h') (t : TwinId) (g : ArgGroup) (fromDerived : Bool) :
    (c : NativeClass) → (start : Nat) → {F : Hold} → {w : World} → Lends F t →
      LendsAll F g.handles → w.Places t c.flatten start →
      Run.Safe F 0 (fun _ => ofSegments (c.flatten.map NativeClass.id)) w
        (constructClass h t g fromDerived c start) (constructClass h' t g fromDerived c start)
  | c@⟨_, _, parents, _, _, _, _, _, _, _⟩, start, F, w, hlent, hgroup, hplaces => by
      rw [constructClass, constructClass]
      rw [NativeClass.flatten_eq] at hplaces
      refine andThen (constructParents_safe hsafe t [] parents start hlent hplaces.left)
        fun _ u hu _ => ?_
      have hsite := (NativeClass.segmentCounts_eq parents ▸ hplaces.right).mono hu
      refine andThen (onRaise (coe_segmentTokens parents)
        (constructOwn_safe hsafe fromDerived hlent.left hsite.fits hgroup.left)
        fun _ _ => Path.unwind parents) fun _ v hv _ => ?_
      refine modify (fun R _ => ?_) fun _ => trivial
      rw [ofBuilt_class, add_zero, ← add_assoc]
      exact (Transition.build _).path

theorem constructParents_safe (hsafe : h.Safe h') (t : TwinId) (built : List NativeClass) :
    (ps : List NativeClass) → (start : Nat) → {F : Hold} → {w : World} → Lends F t →
      w.Places t (NativeClass.flattenAll ps) start →
      Run.Safe F (ofBuilt built) (fun _ => ofBuilt (built ++ ps)) w
        (constructParents h t built ps start) (constructParents h' t built ps start)
  | [], start, F, w, hlent, hplaces => by
      rw [constructParents, constructParents]
      exact value trivial (by rw [List.append_nil])
  | p :: ps, start, F, w, hlent, hplaces => by
      rw [constructParents, constructParents]
      rw [NativeClass.flattenAll] at hplaces
      refine andThen (onRaise (coe_segmentTokens built)
        (constructClass_safe hsafe t {} true p start hlent.left LendsAll.nil hplaces.left)
        fun _ _ => Path.unwind built) fun _ u hu _ => ?_
      have hrest := (NativeClass.segmentCount_eq p ▸ hplaces.right).mono hu
      refine (constructParents_safe hsafe t (built ++ [p]) ps _ hlent hrest).cast ?_ fun _ => ?_
      · rw [ofBuilt_append, ofBuilt_singleton]
        rfl
      · rw [List.append_assoc, List.singleton_append]

end

end Classes

section Bases

theorem constructed_markBuilt {a : Twin} (ha : w.twins[t]? = some a) (index : Nat)
    (base : NativeClass) :
    ((markBuilt t index base w).twin t).constructed = a.constructed.set index true := by
  have hsame : (if (w.twin t).constructed[index]?.getD false then
      w.record [.rebuilt (base.flatten.map NativeClass.id)] else w).twins[t]? = some a := by
    split <;> exact ha
  have hmarked : (markBuilt t index base w).twins[t]?
      = some { a with constructed := a.constructed.set index true } := by
    rw [markBuilt, World.modifyTwin_eq hsame, World.getElem?_setTwin hsame, if_pos rfl]
  rw [World.twin_eq hmarked]

/-- A base is marked once its segments are built.  Without other threads no other
base is marked meanwhile. -/
theorem constructBase_ensures (hsafe : h.Safe h') (hlent : Lends F t) {index : Nat} {g : ArgGroup}
    (fromDerived : Bool) (hgroup : LendsAll F g.handles)
    (hagain : (w.twin t).constructed[index]? = some true → 0 < w.threads.size) :
    Run.Ensures F 0 (fun _ => 0) (fun _ u =>
        (u.twin t).constructed = (w.twin t).constructed.set index true ∨ 0 < u.threads.size) w
      (constructBase h t index g fromDerived) (constructBase h' t index g fromDerived) := by
  refine knowing (fun R hreach => hreach.live_of_lent hlent) fun ⟨a, ha, hlive⟩ => ?_
  refine reads_bind ?_
  rw [World.twin_eq ha] at hagain ⊢
  cases hbase : a.layout.baseRange? index with
  | none => exact raise
  | some b =>
      refine andThen (filling hlent fun u constructed hu =>
        constructClass_safe hsafe t g fromDerived
        b.base b.start hlent.left hgroup.left ((World.Places.of_baseRange ha hbase).mono hu))
        fun _ u hu hfilled => ?_
      obtain ⟨a', ha', hevolves⟩ := hu.twins t a ha
      rw [World.twin_eq ha', World.twin_eq ha] at hfilled
      obtain ⟨hfree, hsteady⟩ := hfilled
      have hlayout : a'.layout = a.layout := congrArg Kind.layout hevolves.kind
      refine modify (fun R hreach => ?_) fun hmarked => ?_
      · obtain ⟨b', hb', hstage⟩ := hreach.live_of_lent hlent
        obtain rfl : a' = b' := Option.some.inj (ha'.symm.trans hb')
        rw [add_zero]
        refine (Transition.mark ha' hstage hfree (hlayout ▸ hbase) fun htrue => ?_).path
        rcases hsteady with hsteady | hthreads
        · exact (hagain (hsteady ▸ htrue)).trans_le hu.threads
        · exact hthreads
      · rw [constructed_markBuilt ha']
        exact hsteady.imp (fun heq => by rw [heq]) fun hthreads => hthreads.trans_le hmarked.threads

/-- A base that is constructed already is refused. -/
theorem constructOnce_safe (hsafe : h.Safe h') (hlent : Lends F t) (index : Nat) {g : ArgGroup}
    (hgroup : LendsAll F g.handles) :
    Run.Safe F 0 (fun _ => 0) w (constructOnce h t index g) (constructOnce h' t index g) := by
  refine reads_bind ?_
  split
  · exact raise
  · rename_i hunmarked
    refine (constructBase_ensures hsafe hlent _ hgroup fun htrue => ?_).weaken fun _ _ _ => trivial
    rw [htrue] at hunmarked
    exact absurd rfl hunmarked

/-- The bases that no initializer constructed are different from each other. -/
theorem nodup_pending (flags : List Bool) :
    (flags.zipIdx.filterMap fun (done, index) => if done then none else some index).Nodup := by
  refine List.Nodup.filterMap (fun p q i hp hq => ?_) (List.Nodup.of_map Prod.snd ?_)
  · obtain ⟨_ | _, a⟩ := p <;> obtain ⟨_ | _, b⟩ := q <;> simp_all
  · rw [List.zipIdx_map_snd]
    exact List.nodup_range'

theorem unmarked_of_pending {flags : List Bool} {i : Nat}
    (hi : i ∈ flags.zipIdx.filterMap fun (done, index) => if done then none else some index) :
    flags[i]? = some false := by
  obtain ⟨⟨done, index⟩, hmem, hdone⟩ := List.mem_filterMap.mp hi
  cases done with
  | true => cases hdone
  | false =>
      cases hdone
      exact List.mk_mem_zipIdx_iff_getElem?.mp hmem

theorem constructPending_safe (hsafe : h.Safe h') (hlent : Lends F t) {pending : List Nat}
    (hnodup : pending.Nodup) (hunmarked : (∀ i ∈ pending, (w.twin t).constructed[i]? ≠ some true)
      ∨ 0 < w.threads.size) :
    Run.Safe F 0 (fun _ => 0) w (pending.forM fun index => constructBase h t index {} true)
      (pending.forM fun index => constructBase h' t index {} true) := by
  induction pending generalizing w with
  | nil => exact value trivial rfl
  | cons i rest ih =>
      obtain ⟨hnot, hnodup⟩ := List.nodup_cons.mp hnodup
      refine andThen (constructBase_ensures hsafe hlent true LendsAll.nil fun htrue => ?_)
        fun _ u hu hmarked => ih hnodup ?_
      · exact hunmarked.resolve_left fun hnone => hnone i List.mem_cons_self htrue
      · rcases hunmarked with hunmarked | hthreads
        · refine hmarked.imp (fun heq j hj => ?_) id
          have hij : i ≠ j := fun hij => hnot (hij ▸ hj)
          rw [heq, List.getElem?_set_ne hij]
          exact hunmarked j (List.mem_cons_of_mem i hj)
        · exact Or.inr (hthreads.trans_le hu.threads)

theorem finish_safe (hsafe : h.Safe h') (hlent : Lends F t) :
    Run.Safe F 0 (fun _ => 0) w (finish h t) (finish h' t) := by
  refine reads_bind (constructPending_safe hsafe hlent (nodup_pending _) (Or.inl fun i hi => ?_))
  rw [unmarked_of_pending hi]
  exact fun hfalse => by cases hfalse

theorem requireDynamic_safe (t : TwinId) :
    Run.Safe F 0 (fun _ => 0) w (requireDynamic t) (requireDynamic t) := by
  refine reads_bind ?_
  split
  · exact value trivial rfl
  · exact raise

/-- All groups are given away, whether their bases come to be constructed or not. -/
theorem constructEach_safe (hsafe : h.Safe h') (hlent : Lends F t) (groups : List ArgGroup)
    (indices : List Nat) :
    Run.Safe F (ofHandles (groups.flatMap ArgGroup.handles)) (fun _ => 0) w
      (constructEach h t groups indices) (constructEach h' t groups indices) := by
  induction indices generalizing groups w with
  | nil => exact modify (fun R _ => (Path.drop _).cast rfl (add_zero _)) fun _ => trivial
  | cons index rest ih =>
      have hsplit : ofHandles (groups.flatMap ArgGroup.handles)
          = ofHandles (groups.tail.flatMap ArgGroup.handles)
            + ofHandles (groups.headD {}).handles := by
        cases groups with
        | nil => rfl
        | cons g groups =>
            rw [List.flatMap_cons, ofHandles_append, add_comm]
            rfl
      exact andThen ((unwinding_taking (holding (constructOnce_safe hsafe hlent.left.left index
        (LendsAll.self _).right))).cast hsplit fun _ => (add_zero _).symm) fun _ u _ _ => ih _

end Bases

section Initializers

theorem baseCountFor_safe (t : TwinId) (groups : Nat) :
    Run.Safe F 0 (fun _ => 0) w (baseCountFor t groups) (baseCountFor t groups) := by
  refine andThen (requireDynamic_safe t) fun _ u _ _ => reads_bind ?_
  dsimp only
  split
  · exact raise
  · exact value trivial rfl

theorem superGroups_safe (hsafe : h.Safe h') (hlent : Lends F t) (groups : List ArgGroup) :
    Run.Safe F (ofHandles (groups.flatMap ArgGroup.handles)) (fun _ => 0) w
      (superGroups h t groups) (superGroups h' t groups) :=
  andThen ((unwinding (baseCountFor_safe t groups.length)).cast rfl fun _ => (add_zero _).symm)
    fun _ _ _ _ => constructEach_safe hsafe hlent groups _

/-- Groups hold what their tuples hold. -/
theorem handles_groupsOf {census : Census} {className : String} {i : Nat} {args : List DynValue}
    {groups : List ArgGroup} (hgroups : groupsOf census className i args = .ok groups) :
    groups.flatMap ArgGroup.handles = args.flatMap DynValue.handles := by
  induction args generalizing i groups with
  | nil =>
      cases hgroups
      rfl
  | cons v rest ih =>
      cases v with
      | tuple items =>
          cases hrest : groupsOf census className (i + 1) rest with
          | error e =>
              rw [groupsOf, hrest] at hgroups
              cases hgroups
          | ok others =>
              rw [groupsOf, hrest] at hgroups
              cases hgroups
              rw [List.flatMap_cons, List.flatMap_cons, ih hrest]
              simp [ArgGroup.handles, DynValue.handles, DynValue.itemHandles_eq_flatMap]
      | _ => cases hgroups

theorem superInit_safe (hsafe : h.Safe h') (hlent : Lends F t) {args : List DynValue}
    (hargs : LendsAll F (args.flatMap DynValue.handles)) :
    Run.Safe F 0 (fun _ => 0) w (superInit h t args) (superInit h' t args) := by
  refine reads_bind (reads_bind ?_)
  have hgroups : ∀ groups : List ArgGroup,
      groups.flatMap ArgGroup.handles = args.flatMap DynValue.handles →
      Run.Safe F 0 (fun _ => 0) w
        (Run.modify (·.retainAll (groups.flatMap ArgGroup.handles)) >>= fun _ =>
          superGroups h t groups)
        (Run.modify (·.retainAll (groups.flatMap ArgGroup.handles)) >>= fun _ =>
          superGroups h' t groups) := by
    intro groups heq
    refine modify_bind (fun R hreach => ?_) fun _ => superGroups_safe hsafe hlent groups
    rw [add_zero] at hreach ⊢
    exact Path.retainAll _ ((Vouches.of_lends (heq ▸ hargs)) w R (.refl w) hreach)
  split
  · refine (ofExcept_bind (g := fun _ => 0) fun groups hok => ?_).cast (ofOk_zero _).symm
      fun _ => rfl
    exact hgroups groups (handles_groupsOf hok)
  · refine pure_bind (hgroups _ ?_)
    simp [ArgGroup.handles]

theorem initBase_safe (hsafe : h.Safe h') (hlent : Lends F t) (c : NativeClass)
    {args : List DynValue} (hargs : LendsAll F (args.flatMap DynValue.handles)) :
    Run.Safe F 0 (fun _ => 0) w (initBase h t c args) (initBase h' t c args) := by
  refine andThen (requireDynamic_safe t) fun _ u _ _ => reads_bind ?_
  split
  · exact raise
  · split
    · exact raise
    · refine retaining (Vouches.of_lends ?_) fun v _ =>
        constructOnce_safe hsafe hlent.left _ (LendsAll.self _).right
      simpa [ArgGroup.handles] using hargs

/-- A dynamic initializer runs in the interpreter of its class, where a new instance of
the class is too. -/
theorem initializeAs_safe (hsafe : h.Safe h') (hlent : Lends F t) {entry : Entry}
    {c : DynamicClass} (hinterp : c.interp < w.interps.size)
    (hlives : entry ≠ .chained → w.Lives t c.interp) {args : List DynValue}
    (hargs : LendsAll F (args.flatMap DynValue.handles)) :
    Run.Safe F 0 (fun _ => 0) w (initializeAs h entry c t args)
      (initializeAs h' entry c t args) := by
  refine locked hinterp fun u hpersists hheld => ?_
  split
  · rename_i body hbody
    have hthere : entry ≠ .chained → 0 < u.depthIn (u.twin t).interp := fun hnew => by
      rwa [((hlives hnew).mono hpersists).interp_eq]
    exact andThen (hsafe.dynamic F u entry t args body hlent hargs hthere) fun _ _ _ _ =>
      dropping rfl
  · split
    · exact value trivial rfl
    · exact mapError (superInit_safe hsafe hlent hargs)

theorem runInitializer_safe (hsafe : h.Safe h') (hlent : Lends F t) {c : DynamicClass}
    (hinterp : c.interp < w.interps.size) (hlives : w.Lives t c.interp) {args : List DynValue}
    (hargs : LendsAll F (args.flatMap DynValue.handles)) :
    Run.Safe F 0 (fun _ => 0) w (runInitializer h c t args) (runInitializer h' c t args) :=
  initializeAs_safe hsafe hlent hinterp (fun _ => hlives) hargs

end Initializers

section Instances

theorem getElem?_create (w : World) (interp : InterpId) (kind : Kind) (owner : Ownership) :
    (w.create interp kind owner).1.twins[(w.create interp kind owner).2]?
      = some (Twin.fresh interp kind owner) :=
  Array.getElem?_push_size

theorem newNative_safe (hsafe : h.Safe h') {c : NativeClass} (hkind : Token.kind (.native c) ∈ F)
    {interp : InterpId} (hinterp : interp < w.interps.size) {g : ArgGroup}
    (hgroup : LendsAll F g.handles) (owner : Ownership) :
    Run.Safe F 0 Hold.dynamic w (newNative h c interp g owner) (newNative h' c interp g owner) := by
  unfold newNative
  cases hpure : c.vtable.firstPure? with
  | some slot => exact raise
  | none =>
      refine act_bind (World.create_safe hkind hpure ⟨hinterp, fun _ => nofun⟩) fun hcreated => ?_
      have hfresh := getElem?_create w interp (.native c) owner
      have hbase : Run.Safe F (Hold.dynamic (w.create interp (.native c) owner).2)
          (fun _ => Hold.dynamic (w.create interp (.native c) owner).2)
          (w.create interp (.native c) owner).1
          (Run.unwinding [.dynamic (w.create interp (.native c) owner).2]
            (constructBase h (w.create interp (.native c) owner).2 0 g false))
          (Run.unwinding [.dynamic (w.create interp (.native c) owner).2]
            (constructBase h' (w.create interp (.native c) owner).2 0 g false)) := by
        refine (unwinding ((constructBase_ensures hsafe ?_ false hgroup.left ?_).weaken
          fun _ _ _ => trivial)).cast rfl fun _ => (add_zero _).symm
        · exact Lends.of_dynamic _
        · rw [World.twin_eq hfresh, Twin.fresh]
          intro htrue
          simp only [List.getElem?_replicate] at htrue
          split at htrue <;> cases htrue
      exact andThen hbase fun _ _ _ _ => value trivial rfl

theorem instantiate_safe (hsafe : h.Safe h') {c : NativeClass} (hkind : Token.kind (.native c) ∈ F)
    {interp : InterpId} (hinterp : interp < w.interps.size) {args : List DynValue}
    (hargs : LendsAll F (args.flatMap DynValue.handles)) :
    Run.Safe F 0 Hold.dynamic w (instantiate h c interp args) (instantiate h' c interp args) := by
  refine retaining (Vouches.of_lends ?_) fun u hpersists => newNative_safe hsafe
    (Hold.mem_left hkind) (hinterp.trans_le hpersists.interps) (LendsAll.self _).right _
  simpa [ArgGroup.handles] using hargs

theorem construct_safe (hsafe : h.Safe h') {c : NativeClass} (hkind : Token.kind (.native c) ∈ F)
    {interp : InterpId} (hinterp : interp < w.interps.size) {args : List NativeValue}
    (hargs : LendsAll F (args.flatMap NativeValue.handles)) :
    Run.Safe F 0 Hold.native w (construct h c interp args) (construct h' c interp args) := by
  refine act_bind (Crossing.lendAllToDynamic_safe hargs) fun hpersists => ?_
  generalize (args.mapM Crossing.lendToDynamic w).1 = values
  refine (holding ?_).cast ?_ fun _ => rfl
  · refine andThen (newNative_safe hsafe (Hold.mem_left hkind) (hinterp.trans_le hpersists.interps)
      (LendsAll.self _).right _) fun t _ _ _ => ?_
    exact modify_bind (fun _ _ => World.asNative_path) fun _ => value trivial rfl
  · simp [ArgGroup.handles, DynValue.holdAll]

theorem newDynamic_safe (hsafe : h.Safe h') {c : DynamicClass}
    (hkind : Token.kind (.dynamic c) ∈ F) {args : List DynValue}
    (hargs : LendsAll F (args.flatMap DynValue.handles)) :
    Run.Safe F 0 Hold.dynamic w (newDynamic h c args) (newDynamic h' c args) := by
  unfold newDynamic
  cases hmissing : c.missingOverride? with
  | some slot => exact raise
  | none =>
      refine knowing (fun R hreach => hreach.invariant.interp_of_lent
        (Multiset.mem_add.mpr (Or.inl (Multiset.mem_add.mpr (Or.inr hkind))))) fun hinterp => ?_
      have hhouses : w.Houses c.interp (.dynamic c) := by
        refine ⟨hinterp, fun c' hc' => ?_⟩
        cases hc'
        rfl
      refine act_bind (World.create_safe hkind hmissing hhouses) fun hcreated => ?_
      have hlent : Lends (F + Hold.dynamic (w.create c.interp (.dynamic c) .dynamic).2)
          (w.create c.interp (.dynamic c) .dynamic).2 :=
        Lends.of_dynamic _
      have hlives : (w.create c.interp (.dynamic c) .dynamic).1.Lives
          (w.create c.interp (.dynamic c) .dynamic).2 c.interp :=
        ⟨_, getElem?_create w c.interp (.dynamic c) .dynamic, rfl⟩
      have hinit := runInitializer_safe hsafe hlent (hinterp.trans_le hcreated.interps) hlives
        hargs.left
      have hfinish := fun u => mapError (f := Failure.raise) (finish_safe (w := u) hsafe hlent)
      refine andThen ((unwinding (andThen hinit fun _ u _ _ => hfinish u)).cast rfl
        fun _ => (add_zero _).symm) fun _ _ _ _ => value trivial rfl

end Instances

end Construction

end TwinObject
