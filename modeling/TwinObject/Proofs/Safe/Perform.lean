/-
Steps are safe.  Whatever a session is asked to do, two hosts answer it alike,
and what a step evaluates for itself it lets go or puts into the world.
-/
import TwinObject.Proofs.Safe.Operand

namespace TwinObject

open Hold

namespace World

theorem alike_comeBack (i : InterpId) (depth : Nat) (w : World) : w.Alike (w.comeBack i depth) := by
  unfold comeBack
  cases (w.lock i).resume? w.currentThread depth with
  | none => exact .refl w
  | some l => exact alike_setLock w i l

theorem alike_closeGuard (w : World) : w.Alike (closeGuard w).2 := by
  unfold closeGuard
  split
  · exact .refl w
  · rename_i g rest _
    have hpopped : w.Alike { w with guards := rest } := w.alike_with (Nat.le_refl _) id
    cases g with
    | held i => exact hpopped.trans (alike_setLock _ i _)
    | suspended i depth => exact hpopped.trans (alike_comeBack i depth _)

end World

namespace Step

open Run.Ensures Operand

variable {F : Hold} {w : World} {h h' : Host}

/-- A report on the world as it is. -/
theorem reads_safe {α : Type} {f : World → α} :
    Run.Safe (ε := Thrown) F 0 (fun _ => 0) w (Run.reads f) (Run.reads f) :=
  act (fun _ _ => .refl) fun _ => trivial

theorem quiet_safe {ε α : Type} {a : Act α} (hquiet : a.Quiet) :
    Run.Safe (ε := ε) F 0 (fun _ => 0) w (Run.act a) (Run.act a) :=
  act hquiet.safe fun _ => trivial

section Shared

theorem share_safe (t : TwinId) :
    Act.Safe F (Hold.dynamic t) (fun p => {.shared p.1 p.2}) w (World.share t) :=
  fun _ hreach => World.share_path t hreach

/-- A new pointer of a group belongs to the step that made it. -/
theorem makeGroup_safe (hsafe : h.Safe h') (source : SharedSource) :
    Run.Safe F 0 (fun p => {.shared p.1 p.2}) w (makeGroup h source) (makeGroup h' source) := by
  refine knowing (fun R hreach => And.intro hreach.invariant.classed.natives
    hreach.invariant.classed.labels) fun ⟨hnatives, hlabels⟩ => ?_
  cases source with
  | dynamic label args =>
      refine find_bind fun c hc => lending (hlabels _ (mem_classes_of_named hc)) fun _ => ?_
      refine withArgs_safe hsafe args fun vs u _ => ?_
      exact andThen (Construction.newDynamic_safe hsafe (Hold.mem_left Hold.mem_last)
        (LendsAll.self _).right) fun t v _ _ => act (share_safe t) fun _ => trivial
  | native label args interp =>
      refine find_bind fun c hc => interp_bind fun i hi =>
        lending (hnatives _ (mem_natives_of_named hc)) fun hlent => ?_
      refine withArgs_safe hsafe args fun vs u hu => ?_
      exact andThen (mapError (Construction.instantiate_safe hsafe (Hold.mem_left Hold.mem_last)
        (hi.trans_le (hlent.trans hu).interps) (LendsAll.self _).right)) fun t v _ _ =>
          act (share_safe t) fun _ => trivial
  | clone x =>
      refine knowing (fun R hreach i => World.group_of_sharedVar (x := x) (i := i) hreach)
        fun hgroups => ?_
      refine assoc (reads_bind (DynOp.ofOption_bind fun i hi => reads_bind ?_))
      obtain ⟨g, hg, hcount⟩ := hgroups i hi
      rw [World.group_eq hg]
      refine modify_bind (M := {.shared i g.target}) (fun R _ => ?_) fun _ => value trivial rfl
      exact (World.cloneShared_path hg hcount).cast (add_zero _) rfl
  | copy e =>
      refine withObject_safe hsafe e fun t u => ?_
      have hcopy : Run.Safe (F + Hold.dynamic t) 0 Hold.dynamic u
          (Run.act (World.copyTwin t) >>= Run.ofExcept)
          (Run.act (World.copyTwin t) >>= Run.ofExcept) :=
        act_bind (World.copyTwin_safe (Lends.of_dynamic t)) fun _ =>
          ofExcept fun _ _ => ⟨rfl, trivial⟩
      exact andThen (mapError hcopy) fun new v _ _ => act (share_safe new) fun _ => trivial

/-- A pointer goes into its variable. -/
theorem makeShared_safe (hsafe : h.Safe h') (x : String) (source : SharedSource) :
    Act.Answers 0 w (perform h (.makeShared x source)) (perform h' (.makeShared x source)) := by
  refine .ofThrown (andThen (makeGroup_safe hsafe source) fun p u _ _ => ?_)
  obtain ⟨i, t⟩ := p
  refine reads_bind (act_bind (World.showTwin_quiet t).safe fun _ => reads_bind ?_)
  refine knowing (fun R hreach => World.group_of_pointer hreach) fun ⟨g, hg, htarget⟩ => ?_
  refine modify_bind (M := 0) (fun R hreach => ?_) fun _ => value trivial rfl
  have hbound : World.bindingHold (World.showTwin t u).2 (.shared i) = {.shared i t} := by
    rw [World.bindingHold, World.group_eq hg, htarget]
  rw [← hbound] at hreach ⊢
  exact (World.setVar_path x (.shared i) hreach).cast rfl (add_zero _)

theorem structureShared_safe (x : String) :
    Act.Answers 0 w (structureText h (.shared x)) (structureText h' (.shared x)) := by
  refine .ofThrown (knowing (fun R hreach i => World.group_of_sharedVar (x := x) (i := i) hreach)
    fun hgroups => ?_)
  refine assoc (reads_bind (DynOp.ofOption_bind fun i hi => ?_))
  obtain ⟨g, hg, hcount⟩ := hgroups i hi
  refine modify_bind (M := {.shared i g.target}) (fun R _ => ?_) fun _ => reads_bind ?_
  · exact (World.cloneShared_path hg hcount).cast (add_zero _) rfl
  · refine modify_bind (M := 0) (fun R hreach => ?_) fun _ => value trivial rfl
    exact (World.dropShared_path hreach).cast rfl (add_zero _)

end Shared

section Declarations

/-- Defaults are evaluated while the parents are lent to the declaration. -/
theorem declareNativeClass_safe (hsafe : h.Safe h') (label : String) (spec : NativeSpec) :
    Run.Safe 0 0 (fun _ => 0) w (declareNativeClass h label spec)
      (declareNativeClass h' label spec) := by
  refine knowing (fun R hreach => hreach.invariant.classed.natives) fun hnatives => ?_
  refine findNative_bind fun parents hparents => lendingAll (fun k hk => ?_) fun u _ => ?_
  · obtain ⟨c, hc, rfl⟩ := List.mem_map.mp hk
    obtain ⟨name, hmem⟩ := mem_natives_of_all hparents c hc
    exact hnatives _ hmem
  · refine andThen (nativeDecl_safe hsafe spec parents) fun decl v _ ⟨hdecl, hdefaults⟩ => ?_
    refine act_bind (World.declareNative_safe label (fun p hp => ?_) hdefaults) fun _ =>
      checked fun _ => rfl
    rw [hdecl] at hp
    refine Multiset.mem_add.mpr (Or.inr (Multiset.mem_coe.mpr ?_))
    exact List.mem_map_of_mem (List.mem_map_of_mem hp)

/-- The classes of a foundation that was found are there. -/
theorem findBase_ensures (base : Option BaseRef) :
    Run.Ensures F 0 (fun _ => 0) (fun spec u => ∀ k ∈ spec.elim [] BaseSpec.kinds, u.KeepsKind k) w
      (findBase base) (findBase base) := by
  refine knowing (fun R hreach => And.intro hreach.invariant.classed.natives
    hreach.invariant.classed.labels) fun ⟨hnatives, hlabels⟩ => ?_
  cases base with
  | none => exact value (fun k hk => by cases hk) rfl
  | some ref =>
      refine find_bind fun spec hspec => value (fun k hk => ?_) rfl
      cases ref with
      | native label =>
          cases hfound : w.nativeNamed label with
          | error e => simp only [BaseRef.find, hfound] at hspec; cases hspec
          | ok c =>
              simp only [BaseRef.find, hfound] at hspec
              cases hspec
              rw [List.mem_singleton.mp hk]
              exact hnatives _ (mem_natives_of_named hfound)
      | composed labels =>
          cases hfound : w.nativesNamed labels with
          | error e => simp only [BaseRef.find, hfound] at hspec; cases hspec
          | ok cs =>
              simp only [BaseRef.find, hfound] at hspec
              cases hspec
              obtain ⟨c, hc, rfl⟩ := List.mem_map.mp hk
              obtain ⟨name, hmem⟩ := mem_natives_of_all hfound c hc
              exact hnatives _ hmem
      | dynamic label =>
          cases hfound : w.classNamed label with
          | error e => simp only [BaseRef.find, hfound] at hspec; cases hspec
          | ok c =>
              simp only [BaseRef.find, hfound] at hspec
              cases hspec
              rw [List.mem_singleton.mp hk]
              exact hlabels _ (mem_classes_of_named hfound)

/-- A class takes the values of its attributes over. -/
theorem declareDynamicClass_safe (hsafe : h.Safe h') (label name : String) (base : Option BaseRef)
    (methods : List Method) (initializer : Option DynExpr) (attrs : List (String × DynExpr))
    (interp : String) :
    Run.Safe 0 0 (fun _ => 0) w
      (declareDynamicClass h label name base methods initializer attrs interp)
      (declareDynamicClass h' label name base methods initializer attrs interp) := by
  refine andThen (findBase_ensures base) fun spec u _ hkinds => interp_bind fun i hi => ?_
  refine lendingAll hkinds fun v hv => ?_
  refine andThen (evalDynList_safe hsafe (attrs.map (·.2)) (.top _) [])
    fun values x hx hlength => ?_
  have hvalues : ((attrs.map (·.1)).zip values).flatMap (·.2.handles)
      = values.flatMap DynValue.handles := by
    have hsnd : ((attrs.map (·.1)).zip values).map Prod.snd = values :=
      List.map_snd_zip (by simp [hlength])
    rw [← List.flatMap_map Prod.snd DynValue.handles, hsnd]
  have hclass : Run.Ensures (0 + ↑((spec.elim [] BaseSpec.kinds).map Token.kind))
      (DynValue.holdAll values) (fun _ => 0) (fun c y => y.Knows c) x
      (Run.act (World.declareClass ⟨name, spec, methods, initializer⟩ i
        ((attrs.map (·.1)).zip values)) >>= Run.ofExcept)
      (Run.act (World.declareClass ⟨name, spec, methods, initializer⟩ i
        ((attrs.map (·.1)).zip values)) >>= Run.ofExcept) := by
    refine act_bind
      ((World.declareClass_safe (hi.trans_le (hv.trans hx).interps) _ fun k hk => ?_).cast
        (by rw [hvalues]; rfl) fun _ => rfl) fun _ => ?_
    · exact Multiset.mem_add.mpr (Or.inr (Multiset.mem_coe.mpr (List.mem_map_of_mem hk)))
    · cases hok : (World.declareClass ⟨name, spec, methods, initializer⟩ i
          ((attrs.map (·.1)).zip values) x).1 with
      | ok c => exact value (World.knows_declared hok) rfl
      | error e => exact raise
  refine andThen (mapError hclass) fun c y _ hknows => ?_
  exact modify_bind (M := 0) (fun R _ => World.nameClass_path label hknows) fun _ =>
    value trivial rfl

end Declarations

section Variables

theorem keepDyn_safe (x : Option String) (v : DynValue) :
    Act.Safe F v.hold (fun _ => 0) w (keepDyn x v) := by
  refine Act.Safe.bind (World.showDyn_quiet v).safe fun _ => Act.Safe.of_path rfl fun R hreach => ?_
  cases x with
  | none => exact (Path.drop v.handles).cast rfl (add_zero _)
  | some x => exact (World.setVar_path x (.dyn v) hreach).cast rfl (add_zero _)

theorem keepNative_safe (x : Option String) (v : NativeValue) :
    Act.Safe F v.hold (fun _ => 0) w (keepNative x v) := by
  refine Act.Safe.bind (World.showNative_quiet v).safe fun _ =>
    Act.Safe.of_path rfl fun R hreach => ?_
  cases x with
  | none => exact (Path.drop v.handles).cast rfl (add_zero _)
  | some x => exact (World.setVar_path x (.native v) hreach).cast rfl (add_zero _)

/-- What code gives is shown, and bound or let go. -/
theorem evalDyn_safe (hsafe : h.Safe h') (e : DynExpr) (x : Option String) :
    Run.Safe F 0 (fun _ => 0) w (dynamic h e >>= fun v => Run.act (keepDyn x v))
      (dynamic h' e >>= fun v => Run.act (keepDyn x v)) :=
  andThen (dynamic_safe hsafe e) fun v _ _ _ => act (keepDyn_safe x v) fun _ => trivial

theorem evalNative_safe (hsafe : h.Safe h') (e : NativeExpr) (x : Option String) :
    Run.Safe F 0 (fun _ => 0) w (native h e >>= fun v => Run.act (keepNative x v))
      (native h' e >>= fun v => Run.act (keepNative x v)) :=
  andThen (native_safe hsafe e) fun v _ _ _ => act (keepNative_safe x v) fun _ => trivial

/-- What was in a variable is let go. -/
theorem dropVar_safe (x : String) :
    Act.Answers 0 w (perform h (.dropVar x)) (perform h' (.dropVar x)) := by
  have htaken : Act.Safe 0 0 (fun r => r.elim 0 w.bindingHold) w (World.takeVar x) :=
    fun R _ => (World.takeVar_path x w (R + 0)).cast (add_zero _) rfl
  refine .bind htaken ?_
  change Act.Answers ((w.var? x).elim 0 w.bindingHold) (World.takeVar x w).2 _ _
  cases hvar : w.var? x with
  | none =>
      rw [World.takeVar, hvar]
      exact .pure _
  | some b =>
      rw [World.takeVar, hvar]
      refine .bind (g := fun _ => 0) (fun R hreach => ?_) (.pure _)
      exact (World.dropBinding_path b hreach).cast rfl (add_zero _)

end Variables

section Threads

/-- A new thread holds nothing, and its variable is that of a thread. -/
theorem startThread_safe (x : String) (e : DynExpr) (interp : String) :
    Run.Safe 0 0 (fun _ => 0) w (startThread x e interp) (startThread x e interp) := by
  refine interp_bind fun i hi => modify_bind (M := 0) (fun R hreach => ?_) fun _ =>
    reads_bind (value trivial rfl)
  have hspawned := (Transition.spawn (R := R + 0 + 0) hi e).path
  refine hspawned.trans
    ((World.setVar_path x (.thread w.threads.size) ?_).cast (add_zero _).symm rfl)
  exact (hreach.along hspawned).along (Path.refl.cast rfl (add_zero _))

theorem threadVar_bind {x : String} {k : Nat → Run Thrown Report}
    (hk : ∀ i, w.var? x = some (.thread i) → Run.Safe F 0 (fun _ => 0) w (k i) (k i)) :
    Run.Safe F 0 (fun _ => 0) w (threadVar x >>= k) (threadVar x >>= k) := by
  refine assoc (reads_bind (DynOp.ofOption_bind fun i hi => hk i ?_))
  unfold World.threadVar? at hi
  split at hi
  · rename_i j hvar
    rw [hvar, Option.some.inj hi]
  · cases hi

/-- The result of a thread is taken out of it and shown. -/
theorem joinThread_safe (x : String) :
    Run.Safe F 0 (fun _ => 0) w (joinThread x) (joinThread x) := by
  refine threadVar_bind fun i hvar => ?_
  have htaken : Act.Safe F 0 (fun _ => 0) w (World.takeVar x) := fun R _ => by
    refine (World.takeVar_path x w (R + F)).cast (add_zero _) ?_
    rw [World.varHold, hvar]
    rfl
  refine act_bind htaken fun _ => await_bind (M := fun _ => 0) (fun u v R hv _ => ?_)
    fun u v _ _ _ _ => act_bind (World.takeResult_safe i) fun _ => ?_
  · split at hv
    · cases hv
      exact .refl
    · cases hv
  · cases (World.takeResult i v).1 with
    | none => exact raise
    | some r =>
        cases r with
        | ok value => exact act (presentDyn_safe value) fun _ => trivial
        | error t => exact raise

theorem threadState_safe (x : String) :
    Run.Safe F 0 (fun _ => 0) w (threadState x) (threadState x) :=
  threadVar_bind fun _ _ => reads_bind (value trivial rfl)

theorem stopSignal_safe (x : String) :
    Run.Safe F 0 (fun _ => 0) w (stopSignal x) (stopSignal x) := by
  refine reads_bind ?_
  cases w.signalVar? x with
  | none => exact raise
  | some i =>
      exact reads_bind (quiet_bind (w.alike_with (Nat.le_refl _) id) (.of_eq rfl rfl rfl) fun _ =>
        value trivial rfl)

end Threads

section Locks

theorem alike_openGuard (i : InterpId) (w : World) : w.Alike (World.openGuard i w).2 := by
  unfold World.openGuard
  split
  · exact .refl w
  · rename_i l _
    exact (w.alike_setLock i l).trans (World.alike_with _ (Nat.le_refl _) id)

theorem alike_tryElsewhere (i : InterpId) (w : World) : w.Alike (World.tryElsewhere i w).2 := by
  unfold World.tryElsewhere
  split
  · exact .refl w
  · rename_i l _
    exact (w.alike_setLock i l.release).trans (World.alike_with _ (Nat.le_succ _) Nat.lt_succ_of_lt)

theorem alike_openSuspension (i : InterpId) (w : World) :
    w.Alike (World.openSuspension i w).2 :=
  (w.alike_setLock i _).trans (World.alike_with _ (Nat.le_refl _) id)

theorem alike_bind {α β : Type} {a : Act α} {k : α → Act β} (ha : w.Alike (a w).2)
    (hk : ∀ (r : α) (u : World), u.Alike (k r u).2) : w.Alike ((a >>= k) w).2 :=
  ha.trans (hk _ _)

/-- What a session does with locks changes nothing else. -/
theorem alike_moveLock (i : InterpId) (action : LockAction) (w : World) :
    w.Alike (moveLock i action w).2 := by
  cases action with
  | acquire => exact alike_openGuard i w
  | «try» => exact alike_openGuard i w
  | tryElsewhere => exact alike_tryElsewhere i w
  | suspend => exact alike_openSuspension i w
  | leave =>
      refine alike_bind (World.alike_closeGuard w) fun g u => ?_
      rcases g with _ | (_ | ⟨_, _⟩)
      · exact .refl u
      · exact .refl u
      · exact .refl u
  | look => exact .refl w

/-- A step that does something with a lock is answered wherever threads wait. -/
theorem lock_safe (action : LockAction) (interp : String) :
    Act.Answers 0 w (perform h (.lock action interp)) (perform h' (.lock action interp)) := by
  intro E hattained
  refine ⟨rfl, Or.inr ?_⟩
  have hanswer : perform h (.lock action interp) w = Answer.ofThrown
      (Run.ofExcept (w.interpNamed interp) >>= fun i => Run.act (lockReport action i)) w := rfl
  have halike : w.Alike (perform h (.lock action interp) w).2 := by
    rw [hanswer]
    cases w.interpNamed interp with
    | error e => exact .refl w
    | ok i => exact alike_moveLock i action w
  obtain ⟨hthere, hpersists⟩ := hattained.turn halike
  exact ⟨hthere.cast (add_zero E).symm, hpersists⟩

end Locks

section Conversions

/-- A call that is only resolved: the arguments it would get are shown. -/
theorem resolveIn_safe (table : VTable) {conv : Conversion Act} (hconv : conv.Safe F)
    (className name : String) (constOnly : Bool) :
    Run.Safe F 0 (fun _ => 0) w (resolveIn table conv className name constOnly)
      (resolveIn table conv className name constOnly) := by
  refine act_bind (VTable.resolve_safe hconv table className name constOnly) fun _ =>
    ofExcept_bind fun s _ => ?_
  exact act_bind (presentAll_safe s.args) fun _ => value trivial rfl

theorem resolveCall_safe (hsafe : h.Safe h') (ref : ClassRef) (className name : String)
    (constOnly : Bool) (args : CallArgs) :
    Act.Answers 0 w (resolveCall h ref className name constOnly args)
      (resolveCall h' ref className name constOnly args) := by
  cases args with
  | native es =>
      refine .ofFailed (findNative_bind fun table _ => withNativeArgs_safe hsafe es fun vs u => ?_)
      exact resolveIn_safe table (Crossing.fromNative_safe (LendsAll.self _).right) _ _ _
  | dynamic es =>
      refine .afterOperands ((evalDynList_safe hsafe es (.top 0) []).weaken fun _ _ _ => trivial)
        fun vs u _ => .ofFailed (holding (findNative_bind fun table _ => ?_))
      exact resolveIn_safe table (Crossing.fromDynamic_safe _ (LendsAll.self _).right) _ _ _

theorem gateMethods_safe (label method : String) (release : Bool) :
    Run.Safe F 0 (fun _ => 0) w (gateMethods label method release)
      (gateMethods label method release) := by
  refine findNative_bind fun c _ => ?_
  cases c.findMethod? method with
  | none => exact raise
  | some found =>
      exact quiet_bind (w.alike_with (Nat.le_refl _) id) (.of_eq rfl rfl rfl) fun _ =>
        value trivial rfl

theorem gateFunction_safe (label : String) (release : Bool) :
    Run.Safe F 0 (fun _ => 0) w (gateFunction label release) (gateFunction label release) := by
  refine find_bind fun f _ => reads_bind ?_
  exact quiet_bind (w.alike_with (Nat.le_refl _) id) (.of_eq rfl rfl rfl) fun _ =>
    reads_bind (value trivial rfl)

theorem coerce_safe {v : NativeValue} (ty : NativeType) :
    Act.Safe (F + v.hold) 0 (fun _ => 0) w
      (do World.showOptional presentNative (← Crossing.coerceNative v ty)) :=
  (Crossing.coerceNative_safe ty (.of_lends (LendsAll.self v.handles).right)).bind fun _ =>
    showOptional_safe _ fun v _ => presentNative_safe v

theorem argsToNative_safe {vs : List DynValue} (params : List NativeType) (fit : Fit) :
    Act.Safe (F + DynValue.holdAll vs) 0 (fun _ => 0) w
      (do World.showOptional presentAll (← Crossing.argsToNative "args" vs params fit)) :=
  (Crossing.argsToNative_safe "args" params fit (LendsAll.self _).right).bind fun _ =>
    showOptional_safe _ fun vs _ => presentAll_safe vs

theorem coerceArgs_safe {vs : List NativeValue} (params : List NativeType) (fit : Fit) :
    Act.Safe (F + NativeValue.holdAll vs) 0 (fun _ => 0) w
      (do World.showOptional presentAll (← Crossing.coerceArgs vs params fit)) :=
  (Crossing.coerceArgs_safe params fit (LendsAll.self _).right).bind fun _ =>
    showOptional_safe _ fun vs _ => presentAll_safe vs

/-- A conversion that can fail, and its result shown. -/
theorem presented_safe {take : Hold} {a : Act (Except Failure NativeValue)}
    (ha : Act.Safe F take (ofOk NativeValue.hold) w a) :
    Run.Safe F take (fun _ => 0) w
      (Run.act a >>= fun r => Run.ofExcept r >>= fun v => Run.act (presentNative v))
      (Run.act a >>= fun r => Run.ofExcept r >>= fun v => Run.act (presentNative v)) :=
  act_bind ha fun _ => ofExcept_bind fun v _ => act (presentNative_safe v) fun _ => trivial

end Conversions

section Steps

theorem structureText_safe (hsafe : h.Safe h') (what : StructureOf) :
    Act.Answers 0 w (structureText h what) (structureText h' what) := by
  cases what with
  | native label => exact .ofThrown (find_bind fun c _ => reads_safe)
  | dynamic label => exact .ofThrown (find_bind fun c _ => value trivial rfl)
  | function label => exact .ofThrown (find_bind fun f _ => reads_safe)
  | method label name => exact .ofThrown (find_bind fun c _ => value trivial rfl)
  | shared x => exact structureShared_safe x
  | nativeValue e =>
      exact .ofFailed (withNative_safe hsafe e fun v u => act (fun _ _ => .refl) fun _ => trivial)
  | dynValue e => exact .ofThrown (withDynamic_safe hsafe e fun v u => reads_safe)

/-- Hosts that run bodies alike answer every step alike. -/
theorem perform_safe (hsafe : h.Safe h') (st : Step) :
    Act.Answers 0 w (st.perform h) (st.perform h') := by
  cases st with
  | declareNative label spec => exact .ofFailed (declareNativeClass_safe hsafe label spec)
  | declareClass label name base methods initializer attrs interp =>
      exact .ofThrown (declareDynamicClass_safe hsafe label name base methods initializer attrs
        interp)
  | declareFunction label name params ret body release =>
      exact .modify_bind (fun R _ =>
        World.declareFunction_path label name params ret body release) (.pure _)
  | declareInterp label o =>
      exact .modify_bind (fun R _ => World.declareInterp_path label o) (.pure _)
  | declareVec x element =>
      exact .modify_bind (fun R hreach => World.declareVec_path x element hreach) (.pure _)
  | declareSignal x =>
      exact .modify_bind (fun R hreach => World.declareSignal_path x hreach) (.pure _)
  | makeShared x source => exact makeShared_safe hsafe x source
  | evalDyn e x =>
      exact .ofThrown (evalDyn_safe hsafe e x)
  | evalNative e x =>
      exact .ofFailed (evalNative_safe hsafe e x)
  | dropVar x => exact dropVar_safe x
  | countHandles x => exact .bind (a := get) (g := fun _ => 0) (fun _ _ => .refl) (.pure _)
  | stop x => exact .ofThrown (stopSignal_safe x)
  | nativeInfo label =>
      exact .ofThrown (find_bind fun c _ => quiet_safe (Inspect.nativeClass_quiet c))
  | nativeQuery label name => exact .ofThrown (find_bind fun c _ => reads_safe)
  | slotPosition ref key => exact .ofThrown (find_bind fun table _ => value trivial rfl)
  | resolve ref className name constOnly args =>
      exact resolveCall_safe hsafe ref className name constOnly args
  | setMethodGate label method release => exact .ofFailed (gateMethods_safe label method release)
  | setFunctionGate label release => exact .ofThrown (gateFunction_safe label release)
  | compose bases contains =>
      exact .ofFailed (findNative_bind fun bs _ => checked fun _ => rfl)
  | layout bases names within =>
      exact .ofThrown (find_bind fun bs _ => quiet_safe (Inspect.layout_quiet _ names within))
  | classInfo label => exact .ofThrown (find_bind fun c _ => reads_safe)
  | classQuery label name =>
      exact .ofThrown (find_bind fun c _ => quiet_safe (Inspect.classQuery_quiet c name))
  | inspect e => exact .ofThrown (withObject_safe hsafe e fun t u => reads_safe)
  | counters interp handoffs => exact .ofThrown (find_bind fun i _ => reads_safe)
  | diagnostics interp =>
      exact .ofThrown (find_bind fun i _ => reads_bind (value trivial rfl))
  | «structure» what => exact structureText_safe hsafe what
  | lock action interp =>
      exact lock_safe action interp
  | spawn x e interp => exact .ofThrown (startThread_safe x e interp)
  | join x => exact .ofThrown (joinThread_safe x)
  | joinTimeout x => exact .ofThrown (threadState_safe x)
  | isAlive x => exact .ofThrown (threadVar_bind fun i _ => reads_safe)
  | coerce e ty =>
      exact .ofFailed (withNative_safe hsafe e fun v u => act (coerce_safe ty) fun _ => trivial)
  | readAs e ty =>
      refine .ofFailed (withNative_safe hsafe e fun v u => reads_bind ?_)
      cases v.readAs u.census ty with
      | ok r => exact quiet_safe (World.showNative_quiet r)
      | error e => exact raise
  | toNative e ty context =>
      exact .afterOperands (dynamic_safe hsafe e) fun v u _ => .ofFailed (holding (presented_safe
        (Crossing.toNative_safe context ty (LendsAll.self _).right)))
  | returnToNative e ty context strict =>
      exact .afterOperands (dynamic_safe hsafe e) fun v u _ => .ofFailed (presented_safe
        (Crossing.returnToNative_safe context strict v ty))
  | toDynamic e =>
      exact .ofFailed (andThen (native_safe hsafe e) fun v u _ _ =>
        act ((Crossing.toDynamic_safe v).bind fun _ => presentDyn_safe _) fun _ => trivial)
  | widens e ty => exact .ofThrown (withDynamic_safe hsafe e fun v u => value trivial rfl)
  | raw e =>
      exact .afterOperands (dynamic_safe hsafe e) fun v u _ => .ofFailed (holding (andThen
        (NativeOp.raw_safe (LendsAll.self _).right) fun r _ _ _ =>
          act (presentNative_safe r) fun _ => trivial))
  | argsToNative es params fit =>
      exact .ofThrown (withArgs_safe hsafe es fun vs u _ =>
        act (argsToNative_safe params fit) fun _ => trivial)
  | coerceArgs es params fit =>
      exact .ofFailed (withNativeArgs_safe hsafe es fun vs u =>
        act (coerceArgs_safe params fit) fun _ => trivial)
  | dynValue e =>
      exact .ofThrown (withDynamic_safe hsafe e fun v u => quiet_safe (Inspect.dynValue_quiet v))
  | nativeValue e =>
      exact .ofFailed (withNative_safe hsafe e fun v u => quiet_safe (Inspect.nativeValue_quiet v))
  | _ => exact .pure _

end Steps

end Step

end TwinObject
