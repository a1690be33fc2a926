/-
Evaluation is safe.  What a body leaves is the hold of its value, on whatever
way it came there; by induction on the depth of calls all bodies that a host runs
are safe.
-/
import TwinObject.Proofs.Safe.NativeCode

namespace TwinObject

open Hold

namespace BinaryOp

/-- Operators give plain values. -/
theorem handles_onDyn {op : BinaryOp} {a b r : DynValue} (hr : op.onDyn a b = some r) :
    r.handles = [] := by
  unfold onDyn at hr
  repeat' split at hr
  all_goals cases hr
  all_goals rfl

theorem handles_onNative {op : BinaryOp} {a b r : NativeValue} (hr : op.onNative a b = some r) :
    r.handles = [] := by
  unfold onNative at hr
  repeat' split at hr
  all_goals cases hr
  all_goals rfl

end BinaryOp

open Run.Ensures

section Frames

variable {α : Type} {F : Hold} {give : α → Hold} {w : World}

namespace DynFrame.Lent

variable {f : DynFrame}

theorem self_bind (hframe : f.Lent F) {k k' : TwinId → Run Thrown α}
    (hk : ∀ t, Lends F t → Run.Safe F 0 give w (k t) (k' t)) :
    Run.Safe F 0 give w (f.self >>= k) (f.self >>= k') := by
  unfold DynFrame.self
  cases hthis : f.this with
  | some t => exact hk t (hframe.this t hthis)
  | none => exact raise

theorem self_ensures (hframe : f.Lent F) (G : Hold) :
    Run.Ensures (F + G) 0 (fun _ => 0) (fun t _ => Lends F t) w f.self f.self := by
  unfold DynFrame.self
  cases hthis : f.this with
  | some t => exact value (hframe.this t hthis) rfl
  | none => exact raise

theorem of_arg (hframe : f.Lent F) {i : Nat} {v : DynValue} (hv : f.args[i]? = some v) :
    LendsAll F v.handles :=
  hframe.args.subset fun _ hh => List.mem_flatMap.mpr ⟨v, List.mem_of_getElem? hv, hh⟩

/-- Native code in dynamic code works on the same instance. -/
theorem native (hframe : f.Lent F) : NativeFrame.Lent F w { this := f.this } where
  this := hframe.this
  args := LendsAll.nil
  site s hs := by cases hs

end DynFrame.Lent

namespace NativeFrame.Lent

variable {f : NativeFrame}

theorem of_arg (hframe : f.Lent F w) {i : Nat} {v : NativeValue} (hv : f.args[i]? = some v) :
    LendsAll F v.handles :=
  hframe.args.subset fun _ hh => List.mem_flatMap.mpr ⟨v, List.mem_of_getElem? hv, hh⟩

/-- The segment that a constructor fills is one of its own twin. -/
theorem site_bind (hframe : f.Lent F w) {k k' : Site → Run Failure α}
    (hk : ∀ s, Lends F s.twin → s.Fits w → Run.Safe F 0 give w (k s) (k' s)) :
    Run.Safe F 0 give w (NativeOp.site f >>= k) (NativeOp.site f >>= k') := by
  unfold NativeOp.site
  cases hsite : f.site with
  | some s => exact hk s (hframe.site s hsite).1 (hframe.site s hsite).2
  | none => exact raise

theorem site_ensures (hframe : f.Lent F w) (G : Hold) :
    Run.Ensures (F + G) 0 (fun _ => 0) (fun s u => Lends F s.twin ∧ s.Fits u) w (NativeOp.site f)
      (NativeOp.site f) := by
  unfold NativeOp.site
  cases hsite : f.site with
  | some s => exact value (hframe.site s hsite) rfl
  | none => exact raise

theorem dynamic (hframe : f.Lent F w) : DynFrame.Lent F { this := f.this } where
  this := hframe.this
  args := LendsAll.nil

/-- Code on another thread has no segment to fill. -/
theorem elsewhere (hframe : f.Lent F w) : NativeFrame.Lent F w { f with site := none } where
  this := hframe.this
  args := hframe.args
  site s hs := by cases hs

end NativeFrame.Lent

theorem Hold.LendsAll.this {this : Option TwinId} {g : TwinId → Handle} (hg : ∀ t, (g t).twin = t)
    (hthis : ∀ t, this = some t → Lends F t) : LendsAll F (this.toList.map g) := by
  intro h hh
  obtain ⟨t, ht, rfl⟩ := List.mem_map.mp hh
  rw [hg]
  exact hthis t (Option.mem_toList.mp ht)

/-- Nothing is done to a value that holds nothing. -/
theorem Run.Ensures.plain {ε : Type} {a : α} (hgive : give a = 0) :
    Run.Safe (ε := ε) F 0 give w (Pure.pure a) (Pure.pure a) :=
  value trivial hgive.symm

/-- A value follows on a step that can fail. -/
theorem Run.Ensures.checked {ε β : Type} {x : Except ε β} {f : β → α}
    (hgive : ∀ b, give (f b) = 0) :
    Run.Safe F 0 give w (Run.ofExcept x >>= fun b => Pure.pure (f b))
      (Run.ofExcept x >>= fun b => Pure.pure (f b)) := by
  cases x with
  | ok b => exact plain (hgive b)
  | error _ => exact raise

theorem Run.Ensures.note_bind {ε β : Type} {give' : β → Hold} (text : String)
    {k k' : Unit → Run ε β} (hk : ∀ u, Run.Safe F 0 give' u (k ()) (k' ())) :
    Run.Safe F 0 give' w (Run.modify (·.record [.note text]) >>= k)
      (Run.modify (·.record [.note text]) >>= k') :=
  modify_bind (fun _ _ => (Transition.note text).path) fun _ => hk _

theorem Run.Ensures.caught_bind {ε β : Type} {give' : β → Hold} {k k' : Unit → Run ε β}
    (hk : ∀ u, Run.Safe F 0 give' u (k ()) (k' ())) :
    Run.Safe F 0 give' w (Run.modify (·.record [.caught]) >>= k)
      (Run.modify (·.record [.caught]) >>= k') :=
  modify_bind (fun _ _ => Transition.recover.path) fun _ => hk _

theorem Run.Ensures.setVar_bind {ε β : Type} {give' : β → Hold} (x : String) (b : Binding)
    {k k' : Unit → Run ε β} (hk : ∀ u, Run.Safe F 0 give' u (k ()) (k' ())) :
    Run.Safe F (w.bindingHold b) give' w (Run.modify (World.setVar x b) >>= k)
      (Run.modify (World.setVar x b) >>= k') :=
  modify_bind (fun _ hreach => (World.setVar_path x b hreach).cast rfl (add_zero _)) fun _ => hk _

end Frames

section Evaluation

variable {h h' : Host}

mutual

theorem DynExpr.eval_safe (hsafe : h.Safe h') : (e : DynExpr) → {F : Hold} → {w : World} →
    {f : DynFrame} → f.Lent F → Run.Safe F 0 DynValue.hold w (e.eval h f) (e.eval h' f)
  | .lit l, _, _, f, hframe => by
      rw [DynExpr.eval, DynExpr.eval]
      exact plain (by rw [DynValue.hold, Literal.handles_toDyn]; rfl)
  | .arg i, _, _, f, hframe => by
      rw [DynExpr.eval, DynExpr.eval]
      exact DynOp.ofOption_bind fun v hv => DynOp.clone_safe (hframe.of_arg hv).held
  | .argTuple, _, _, f, hframe => by
      rw [DynExpr.eval, DynExpr.eval]
      refine DynOp.clone_safe (LendsAll.held (hframe.args.subset fun _ hh => ?_))
      rwa [DynValue.handles, DynValue.itemHandles_eq_flatMap] at hh
  | .argCount, _, _, f, hframe => by
      rw [DynExpr.eval, DynExpr.eval]
      exact plain rfl
  | .this, _, _, f, hframe => by
      rw [DynExpr.eval, DynExpr.eval]
      refine hframe.self_bind fun t ht => DynOp.clone_safe (LendsAll.held fun _ hh => ?_)
      cases List.mem_singleton.mp hh
      exact ht
  | .var x, _, _, f, hframe => by
      rw [DynExpr.eval, DynExpr.eval]
      exact act (World.readDyn_safe x) fun _ => trivial
  | .set x e, _, _, f, hframe => by
      rw [DynExpr.eval, DynExpr.eval]
      exact andThen (e.eval_safe hsafe hframe) fun v u _ _ => setVar_bind x (.dyn v) fun _ =>
        plain rfl
  | .tuple es, _, _, f, hframe => by
      rw [DynExpr.eval, DynExpr.eval]
      refine andThen (evalDynList_safe hsafe es hframe []) fun vs _ _ _ => value trivial ?_
      rw [DynValue.hold, DynValue.handles, DynValue.itemHandles_eq_flatMap, DynValue.holdAll]
  | .item e i, _, _, f, hframe => by
      rw [DynExpr.eval, DynExpr.eval]
      refine andThen (e.eval_safe hsafe hframe) fun v u _ _ =>
        holding (DynOp.ofOption_bind fun items hitems =>
        DynOp.ofOption_bind fun item hitem => DynOp.clone_safe (LendsAll.held fun _ hh => ?_))
      refine (LendsAll.self v.handles).right _ (DynValue.mem_handles_of_item hitems ?_ hh)
      exact List.mem_of_getElem? hitem
  | .seq es, _, _, f, hframe => by
      rw [DynExpr.eval, DynExpr.eval]
      exact evalDynSeq_safe hsafe es hframe .none
  | .cond c a b, _, _, f, hframe => by
      rw [DynExpr.eval, DynExpr.eval]
      refine andThen (c.eval_safe hsafe hframe) fun v u _ _ => drop_bind fun _ => ?_
      split
      · exact a.eval_safe hsafe hframe
      · exact b.eval_safe hsafe hframe
  | .binary op a b, _, _, f, hframe => by
      rw [DynExpr.eval, DynExpr.eval]
      refine andThen (a.eval_safe hsafe hframe) fun x u _ _ => holding ?_
      refine andThen (b.eval_safe hsafe (hframe.left _)) fun y v _ _ =>
        holding (DynOp.ofOption_plain fun r hr => ?_)
      rw [DynValue.hold, BinaryOp.handles_onDyn hr]
      rfl
  | .raise t, _, _, f, hframe => by
      rw [DynExpr.eval, DynExpr.eval]
      exact throw t
  | .attempt e, _, _, f, hframe => by
      rw [DynExpr.eval, DynExpr.eval]
      refine andThen (outcome (e.eval_safe hsafe hframe)) fun r u _ _ => ?_
      cases r with
      | ok v => exact value trivial rfl
      | error t => exact caught_bind fun _ => plain rfl
  | .log text, _, _, f, hframe => by
      rw [DynExpr.eval, DynExpr.eval]
      exact note_bind text fun _ => plain rfl
  | .attr o name, _, _, f, hframe => by
      rw [DynExpr.eval, DynExpr.eval]
      exact DynOp.object_bind (o.eval_safe hsafe hframe) fun t _ _ =>
        DynOp.attr_safe (Lends.of_dynamic t) name
  | .hasAttr o name, _, _, f, hframe => by
      rw [DynExpr.eval, DynExpr.eval]
      exact DynOp.object_bind (o.eval_safe hsafe hframe) fun t _ _ =>
        DynOp.hasAttr_safe (Lends.of_dynamic t) name
  | .setAttr o name e, _, _, f, hframe => by
      rw [DynExpr.eval, DynExpr.eval]
      refine DynOp.object_bind (o.eval_safe hsafe hframe) fun t _ _ => ?_
      exact andThen (e.eval_safe hsafe (hframe.left _)) fun v _ _ _ =>
        act_bind (World.setAttr_safe (Lends.of_dynamic t) name v) fun _ => checked fun _ => rfl
  | .call o name args, _, _, f, hframe => by
      rw [DynExpr.eval, DynExpr.eval]
      refine DynOp.object_bind (o.eval_safe hsafe hframe) fun t _ _ => ?_
      exact DynOp.tuple_bind (args.eval_safe hsafe (hframe.left _)) fun vs _ _ =>
        Call.callMethod_safe hsafe (Lends.of_dynamic t).left name (LendsAll.self _).right
  | .callBase o cls name args, _, _, f, hframe => by
      rw [DynExpr.eval, DynExpr.eval]
      refine DynOp.object_bind (o.eval_safe hsafe hframe) fun t _ _ =>
        DynOp.native_bind fun c _ _ => ?_
      exact DynOp.tuple_bind (args.eval_safe hsafe ((hframe.left _).left _)) fun vs _ _ =>
        mapError (Call.callBaseDynamic_safe hsafe (Lends.of_dynamic t).left.left c name
        (LendsAll.self _).right)
  | .callFunction function args, _, _, f, hframe => by
      rw [DynExpr.eval, DynExpr.eval]
      refine DynOp.function_bind fun g =>
        DynOp.tuple_bind (args.eval_safe hsafe hframe) fun vs _ _ => ?_
      exact reads_bind (Call.callFunction_safe hsafe _ g (LendsAll.self _).right)
  | .new cls args, _, _, f, hframe => by
      rw [DynExpr.eval, DynExpr.eval]
      exact DynOp.tuple_bind (args.eval_safe hsafe hframe) fun vs _ _ =>
        DynOp.new_safe hsafe (fun t ht => (hframe.this t ht).left) cls (LendsAll.self _).right
  | .newGrouped cls group, _, _, f, hframe => by
      rw [DynExpr.eval, DynExpr.eval]
      refine DynOp.native_bind fun c _ _ =>
        andThen (group.eval_safe hsafe (hframe.left _)) fun g _ _ _ => ?_
      exact holding (DynOp.newGrouped_safe hsafe (Hold.mem_left Hold.mem_last) (LendsAll.self
        _).right)
  | .superInit args, _, _, f, hframe => by
      rw [DynExpr.eval, DynExpr.eval]
      refine hframe.self_bind fun t ht =>
        DynOp.tuple_bind (args.eval_safe hsafe hframe) fun vs _ _ => ?_
      exact DynOp.none_safe (mapError (Construction.superInit_safe hsafe ht.left (LendsAll.self
        _).right))
  | .superGroups groups, _, _, f, hframe => by
      rw [DynExpr.eval, DynExpr.eval]
      refine andThen (evalGroups_safe hsafe groups hframe []) fun gs u _ _ => ?_
      refine andThen (unwinding (hframe.self_ensures _)) fun t _ _ ht => ?_
      exact DynOp.none_safe (mapError
        ((Construction.superGroups_safe hsafe ht gs).cast (add_zero _) fun _ => rfl))
  | .initBase cls args, _, _, f, hframe => by
      rw [DynExpr.eval, DynExpr.eval]
      refine hframe.self_bind fun t ht => DynOp.native_bind fun c _ _ => ?_
      refine DynOp.tuple_bind (args.eval_safe hsafe (hframe.left _)) fun vs _ _ => ?_
      exact DynOp.none_safe (mapError (Construction.initBase_safe hsafe ht.left.left c
        (LendsAll.self _).right))
  | .initParent cls args, _, _, f, hframe => by
      rw [DynExpr.eval, DynExpr.eval]
      refine hframe.self_bind fun t ht => DynOp.dynClass_bind fun c _ _ => ?_
      refine DynOp.tuple_bind (args.eval_safe hsafe (hframe.left _)) fun vs _ _ => ?_
      exact DynOp.initParent_safe hsafe ht.left.left (Hold.mem_left Hold.mem_last)
        (LendsAll.self _).right
  | .setOwner o flag, _, _, f, hframe => by
      rw [DynExpr.eval, DynExpr.eval]
      exact DynOp.object_bind (o.eval_safe hsafe hframe) fun t _ _ =>
        DynOp.setOwner_safe (Lends.of_dynamic t) flag
  | .ask q o, _, _, f, hframe => by
      rw [DynExpr.eval, DynExpr.eval]
      exact DynOp.object_bind (o.eval_safe hsafe hframe) fun t _ _ => DynOp.ask_safe q t
  | .identical a b, _, _, f, hframe => by
      rw [DynExpr.eval, DynExpr.eval]
      refine DynOp.object_bind (a.eval_safe hsafe hframe) fun t _ _ => ?_
      exact DynOp.object_bind (b.eval_safe hsafe (hframe.left _)) fun s _ _ => plain rfl
  | .reproduce way o, _, _, f, hframe => by
      rw [DynExpr.eval, DynExpr.eval]
      exact DynOp.object_bind (o.eval_safe hsafe hframe) fun t _ _ =>
        DynOp.reproduce_safe (Lends.of_dynamic t) way
  | .text e, _, _, f, hframe => by
      rw [DynExpr.eval, DynExpr.eval]
      exact andThen (e.eval_safe hsafe hframe) fun v _ _ _ => holding (reads_bind (plain rfl))
  | .truthy e, _, _, f, hframe => by
      rw [DynExpr.eval, DynExpr.eval]
      exact andThen (e.eval_safe hsafe hframe) fun v _ _ _ => drop_bind fun _ => plain rfl
  | .held interp, _, _, f, hframe => by
      rw [DynExpr.eval, DynExpr.eval]
      exact reads_bind (plain rfl)
  | .classAttr cls name, _, _, f, hframe => by
      rw [DynExpr.eval, DynExpr.eval]
      exact DynOp.classAttr_safe cls name
  | .setClassAttr cls name e, _, _, f, hframe => by
      rw [DynExpr.eval, DynExpr.eval]
      refine DynOp.dynClass_bind fun c _ _ =>
        andThen (e.eval_safe hsafe (hframe.left _)) fun v _ _ _ => ?_
      exact DynOp.setClassAttr_safe (Hold.mem_last) name v
  | .vecGet x i, _, _, f, hframe => by
      rw [DynExpr.eval, DynExpr.eval]
      exact DynOp.vec_bind fun v => DynOp.objectOrNone_safe (World.vecGet_safe v i)
  | .vecRemove x i, _, _, f, hframe => by
      rw [DynExpr.eval, DynExpr.eval]
      exact DynOp.vec_bind fun v => DynOp.objectOrNone_safe (World.vecRemove_safe v i)
  | .sharedGet x, _, _, f, hframe => by
      rw [DynExpr.eval, DynExpr.eval]
      exact DynOp.sharedGet_safe x
  | .yieldLock, _, _, f, hframe => by
      rw [DynExpr.eval, DynExpr.eval]
      exact DynOp.yieldLock_safe
  | .waitStop x, _, _, f, hframe => by
      rw [DynExpr.eval, DynExpr.eval]
      exact DynOp.waitStop_safe x
  | .panic text, _, _, f, hframe => by
      rw [DynExpr.eval, DynExpr.eval]
      exact panic text
  | .native e, _, _, f, hframe => by
      rw [DynExpr.eval, DynExpr.eval]
      refine retaining (Vouches.of_lends (LendsAll.this (fun _ => rfl) hframe.this)) fun u _ => ?_
      refine mapError (andThen (e.eval_safe hsafe (hframe.left _).native) fun v _ _ _ => ?_)
      exact act (Crossing.toDynamic_safe v) fun _ => trivial

/-- A list gives as many values as it has expressions. -/
theorem evalDynList_safe (hsafe : h.Safe h') : (es : List DynExpr) → {F : Hold} → {w : World} →
    {f : DynFrame} → f.Lent F → (done : List DynValue) →
      Run.Ensures F (DynValue.holdAll done) DynValue.holdAll
        (fun vs _ => vs.length = done.length + es.length) w (evalDynList h f done es)
        (evalDynList h' f done es)
  | [], _, _, f, hframe, done => by
      rw [evalDynList, evalDynList]
      exact value rfl rfl
  | e :: es, _, _, f, hframe, done => by
      rw [evalDynList, evalDynList, DynValue.itemHandles_eq_flatMap]
      refine andThen (unwinding (e.eval_safe hsafe (hframe.left _))) fun v u _ _ => ?_
      refine ((evalDynList_safe hsafe es hframe (done ++ [v])).cast ?_ fun _ => rfl).weaken ?_
      · rw [DynValue.holdAll_append, DynValue.holdAll_singleton]
        rfl
      · intro vs _ hlength
        rw [hlength, List.length_append, List.length_singleton, List.length_cons]
        omega

theorem evalDynSeq_safe (hsafe : h.Safe h') : (es : List DynExpr) → {F : Hold} → {w : World} →
    {f : DynFrame} → f.Lent F → (last : DynValue) →
      Run.Safe F last.hold DynValue.hold w (evalDynSeq h f last es) (evalDynSeq h' f last es)
  | [], _, _, f, hframe, last => by
      rw [evalDynSeq, evalDynSeq]
      exact value trivial rfl
  | e :: es, _, _, f, hframe, last => by
      rw [evalDynSeq, evalDynSeq]
      exact drop_bind fun _ => andThen (e.eval_safe hsafe hframe) fun v _ _ _ =>
        evalDynSeq_safe hsafe es hframe v

theorem GroupExpr.eval_safe (hsafe : h.Safe h') : (g : GroupExpr) → {F : Hold} → {w : World} →
    {f : DynFrame} → f.Lent F →
      Run.Safe F 0 (fun g => ofHandles g.handles) w (g.eval h f) (g.eval h' f)
  | .mk positional names values, _, _, f, hframe => by
      rw [GroupExpr.eval, GroupExpr.eval]
      refine andThen (DynOp.expectTuple_safe (positional.eval_safe hsafe hframe)) fun vs u _ _ => ?_
      rw [DynValue.itemHandles_eq_flatMap]
      refine andThen (unwinding (evalDynList_safe hsafe values (hframe.left _) [])) fun ks _ _ _ =>
        value trivial ?_
      rw [ArgGroup.handles, List.map_map, Function.comp_def]
      dsimp only
      rw [List.zipIdx_map_fst, List.flatMap_append, ofHandles_append]
      rfl

theorem evalGroups_safe (hsafe : h.Safe h') : (gs : List GroupExpr) → {F : Hold} → {w : World} →
    {f : DynFrame} → f.Lent F → (done : List ArgGroup) →
      Run.Safe F (ofHandles (done.flatMap ArgGroup.handles))
        (fun gs => ofHandles (gs.flatMap ArgGroup.handles)) w (evalGroups h f done gs)
        (evalGroups h' f done gs)
  | [], _, _, f, hframe, done => by
      rw [evalGroups, evalGroups]
      exact value trivial rfl
  | g :: gs, _, _, f, hframe, done => by
      rw [evalGroups, evalGroups]
      refine andThen (unwinding (g.eval_safe hsafe (hframe.left _))) fun v u _ _ => ?_
      refine (evalGroups_safe hsafe gs hframe (done ++ [v])).cast ?_ fun _ => rfl
      rw [List.flatMap_append, ofHandles_append, List.flatMap_singleton]

theorem NativeExpr.eval_safe (hsafe : h.Safe h') : (e : NativeExpr) → {F : Hold} → {w : World} →
    {f : NativeFrame} → f.Lent F w → Run.Safe F 0 NativeValue.hold w (e.eval h f) (e.eval h' f)
  | .lit l, _, _, f, hframe => by
      rw [NativeExpr.eval, NativeExpr.eval]
      exact plain (by rw [NativeValue.hold, Literal.handles_toNative]; rfl)
  | .arg i, _, _, f, hframe => by
      rw [NativeExpr.eval, NativeExpr.eval]
      exact NativeOp.ofOption_bind fun v hv => NativeOp.clone_safe (hframe.of_arg hv).held
  | .argCount, _, _, f, hframe => by
      rw [NativeExpr.eval, NativeExpr.eval]
      exact plain rfl
  | .this, _, _, f, hframe => by
      rw [NativeExpr.eval, NativeExpr.eval]
      refine NativeOp.ofOption_bind fun t ht => NativeOp.clone_safe (LendsAll.held fun _ hh => ?_)
      cases List.mem_singleton.mp hh
      exact hframe.this t ht
  | .var x, _, _, f, hframe => by
      rw [NativeExpr.eval, NativeExpr.eval]
      exact act_bind (World.readNative_safe x) fun _ => NativeOp.ofOption_safe
  | .set x e, _, _, f, hframe => by
      rw [NativeExpr.eval, NativeExpr.eval]
      exact andThen (e.eval_safe hsafe hframe) fun v u _ _ => setVar_bind x (.native v) fun _ =>
        plain rfl
  | .seq es, _, _, f, hframe => by
      rw [NativeExpr.eval, NativeExpr.eval]
      exact evalNativeSeq_safe hsafe es hframe .void
  | .cond c a b, _, _, f, hframe => by
      rw [NativeExpr.eval, NativeExpr.eval]
      refine andThen (c.eval_safe hsafe hframe) fun v u hu _ => drop_bind fun hv => ?_
      split
      · exact a.eval_safe hsafe ((hframe.mono hu).mono hv)
      · exact b.eval_safe hsafe ((hframe.mono hu).mono hv)
  | .binary op a b, _, _, f, hframe => by
      rw [NativeExpr.eval, NativeExpr.eval]
      refine andThen (a.eval_safe hsafe hframe) fun x u hu _ => holding ?_
      refine andThen (b.eval_safe hsafe ((hframe.mono hu).left _)) fun y v _ _ =>
        holding (NativeOp.ofOption_plain fun r hr => ?_)
      rw [NativeValue.hold, BinaryOp.handles_onNative hr]
      rfl
  | .fail failure, _, _, f, hframe => by
      rw [NativeExpr.eval, NativeExpr.eval]
      exact raise
  | .attempt e, _, _, f, hframe => by
      rw [NativeExpr.eval, NativeExpr.eval]
      refine andThen (outcome (e.eval_safe hsafe hframe)) fun r u _ _ => ?_
      cases r with
      | ok v => exact value trivial rfl
      | error t => exact caught_bind fun _ => plain rfl
  | .log text, _, _, f, hframe => by
      rw [NativeExpr.eval, NativeExpr.eval]
      exact note_bind text fun _ => plain rfl
  | .typeName e, _, _, f, hframe => by
      rw [NativeExpr.eval, NativeExpr.eval]
      exact andThen (e.eval_safe hsafe hframe) fun v _ _ _ => holding (reads_bind (plain rfl))
  | .field o name, _, _, f, hframe => by
      rw [NativeExpr.eval, NativeExpr.eval]
      exact NativeOp.object_bind (o.eval_safe hsafe hframe) fun t _ _ =>
        NativeOp.result_safe (World.readMember_safe (Lends.of_native t) name _)
  | .fieldOf o cls name, _, _, f, hframe => by
      rw [NativeExpr.eval, NativeExpr.eval]
      exact NativeOp.object_bind (o.eval_safe hsafe hframe) fun t _ _ =>
        NativeOp.result_safe (World.readMember_safe (Lends.of_native t) name _)
  | .fieldAs type o name, _, _, f, hframe => by
      rw [NativeExpr.eval, NativeExpr.eval]
      exact NativeOp.object_bind (o.eval_safe hsafe hframe) fun t _ _ =>
        NativeOp.result_safe (World.getFieldAs_safe (Lends.of_native t) type name)
  | .setField o name e, _, _, f, hframe => by
      rw [NativeExpr.eval, NativeExpr.eval]
      refine NativeOp.object_bind (o.eval_safe hsafe hframe) fun t _ hu => ?_
      exact andThen (e.eval_safe hsafe ((hframe.mono hu).left _)) fun v _ _ _ =>
        act_bind (World.setField_safe (Lends.of_native t) name v) fun _ => checked fun _ => rfl
  | .callVirtual constOnly o name args, _, _, f, hframe => by
      rw [NativeExpr.eval, NativeExpr.eval]
      refine NativeOp.object_bind (o.eval_safe hsafe hframe) fun t _ hu => ?_
      exact NativeOp.args_bind (evalNativeList_safe hsafe args ((hframe.mono hu).left _) []) fun vs
        _ _ => Call.callVirtual_safe hsafe constOnly (Lends.of_native t).left name (LendsAll.self
        _).right
  | .callMethod o name args, _, _, f, hframe => by
      rw [NativeExpr.eval, NativeExpr.eval]
      refine NativeOp.object_bind (o.eval_safe hsafe hframe) fun t _ hu => ?_
      exact NativeOp.args_bind (evalNativeList_safe hsafe args ((hframe.mono hu).left _) []) fun vs
        _ _ => Call.callMethodNative_safe hsafe (Lends.of_native t).left name (LendsAll.self
        _).right
  | .callBase o cls name args, _, _, f, hframe => by
      rw [NativeExpr.eval, NativeExpr.eval]
      refine NativeOp.object_bind (o.eval_safe hsafe hframe) fun t _ hu =>
        NativeOp.native_bind fun c _ hv => ?_
      exact NativeOp.args_bind (evalNativeList_safe hsafe args ((((hframe.mono hu).left _).mono
        hv).left _) []) fun vs _ _ =>
        Call.callBaseNative_safe hsafe (Lends.of_native t).left.left c name (LendsAll.self _).right
  | .construct cls args, _, _, f, hframe => by
      rw [NativeExpr.eval, NativeExpr.eval]
      refine NativeOp.native_bind fun c _ hu => ?_
      exact NativeOp.args_bind (evalNativeList_safe hsafe args ((hframe.mono hu).left _) []) fun vs
        _ _ => NativeOp.construct_safe hsafe (Hold.mem_left Hold.mem_last) (LendsAll.self _).right
  | .invoke function args, _, _, f, hframe => by
      rw [NativeExpr.eval, NativeExpr.eval]
      refine NativeOp.function_bind fun g => ?_
      exact NativeOp.args_bind (evalNativeList_safe hsafe args hframe []) fun vs _ _ =>
        Call.invoke_safe hsafe g (LendsAll.self _).right
  | .initField name e, _, _, f, hframe => by
      rw [NativeExpr.eval, NativeExpr.eval]
      refine andThen (e.eval_safe hsafe hframe) fun v u hu _ => ?_
      refine andThen (unwinding ((hframe.mono hu).site_ensures _)) fun s u' _ hs => ?_
      exact act_bind ((Site.set_safe hs.1 hs.2 name v).cast (add_zero _) fun _ => rfl) fun _ =>
        checked fun _ => rfl
  | .getInit name, _, _, f, hframe => by
      rw [NativeExpr.eval, NativeExpr.eval]
      exact hframe.site_bind fun s hs _ => act (Site.get_safe hs name) fun _ => trivial
  | .ask q o, _, _, f, hframe => by
      rw [NativeExpr.eval, NativeExpr.eval]
      exact NativeOp.object_bind (o.eval_safe hsafe hframe) fun t _ _ => NativeOp.ask_safe q t
  | .identical a b, _, _, f, hframe => by
      rw [NativeExpr.eval, NativeExpr.eval]
      refine NativeOp.object_bind (a.eval_safe hsafe hframe) fun t _ hu => ?_
      exact NativeOp.object_bind (b.eval_safe hsafe ((hframe.mono hu).left _)) fun s _ _ =>
        plain rfl
  | .reproduce way o, _, _, f, hframe => by
      rw [NativeExpr.eval, NativeExpr.eval]
      exact NativeOp.object_bind (o.eval_safe hsafe hframe) fun t _ _ =>
        NativeOp.reproduce_safe (Lends.of_native t) way
  | .adopt o flag, _, _, f, hframe => by
      rw [NativeExpr.eval, NativeExpr.eval]
      exact NativeOp.object_bind (o.eval_safe hsafe hframe) fun t _ _ =>
        NativeOp.adopt_safe (Lends.of_native t) flag
  | .vecPush x o, _, _, f, hframe => by
      rw [NativeExpr.eval, NativeExpr.eval]
      refine NativeOp.keepingVec_bind fun i _ hu => ?_
      exact NativeOp.object_bind (o.eval_safe hsafe ((hframe.mono hu).left _)) fun t _ _ =>
        NativeOp.vecAppend_safe (Hold.mem_left Hold.mem_last) (Lends.of_native t) .copy
  | .vecMove x o, _, _, f, hframe => by
      rw [NativeExpr.eval, NativeExpr.eval]
      refine NativeOp.keepingVec_bind fun i _ hu => ?_
      exact NativeOp.object_bind (o.eval_safe hsafe ((hframe.mono hu).left _)) fun t _ _ =>
        NativeOp.vecAppend_safe (Hold.mem_left Hold.mem_last) (Lends.of_native t) .move
  | .vecClear x, _, _, f, hframe => by
      rw [NativeExpr.eval, NativeExpr.eval]
      exact NativeOp.vec_bind fun i => modify_bind (fun R _ => World.vecClear_path i _ _) fun _ =>
        plain rfl
  | .vecNative x i, _, _, f, hframe => by
      rw [NativeExpr.eval, NativeExpr.eval]
      exact NativeOp.vec_bind fun v => NativeOp.objectOrNull_safe (World.vecNative_safe v i)
  | .vecAsk q x, _, _, f, hframe => by
      rw [NativeExpr.eval, NativeExpr.eval]
      exact NativeOp.vecAsk_safe q x
  | .sharedNative x, _, _, f, hframe => by
      rw [NativeExpr.eval, NativeExpr.eval]
      exact NativeOp.sharedNative_safe x
  | .sharedCall x name args, _, _, f, hframe => by
      rw [NativeExpr.eval, NativeExpr.eval]
      refine NativeOp.keepingShared_bind fun i t _ hu => ?_
      exact NativeOp.args_bind (evalNativeList_safe hsafe args ((hframe.mono hu).left _) []) fun vs
        _ _ => NativeOp.sharedCall_safe hsafe (Hold.mem_left Hold.mem_last) name (LendsAll.self
        _).right
  | .sharedCount x, _, _, f, hframe => by
      rw [NativeExpr.eval, NativeExpr.eval]
      exact assoc (reads_bind (NativeOp.ofOption_bind fun i _ => reads_bind (plain rfl)))
  | .held interp, _, _, f, hframe => by
      rw [NativeExpr.eval, NativeExpr.eval]
      exact reads_bind (plain rfl)
  | .onThread e, _, _, f, hframe => by
      rw [NativeExpr.eval, NativeExpr.eval]
      exact onThread fun u hu => e.eval_safe hsafe (hframe.mono hu).elsewhere
  | .dynamic e, _, _, f, hframe => by
      rw [NativeExpr.eval, NativeExpr.eval]
      refine retaining (Vouches.of_lends (LendsAll.this (fun _ => rfl) hframe.this)) fun u hu => ?_
      refine andThen (mapError (e.eval_safe hsafe ((hframe.mono hu).left _).dynamic)) fun v _ _ _
        => ?_
      exact holding (NativeOp.raw_safe (LendsAll.self _).right)

theorem evalNativeList_safe (hsafe : h.Safe h') : (es : List NativeExpr) → {F : Hold} →
    {w : World} → {f : NativeFrame} → f.Lent F w → (done : List NativeValue) →
      Run.Safe F (NativeValue.holdAll done) NativeValue.holdAll w (evalNativeList h f done es)
        (evalNativeList h' f done es)
  | [], _, _, f, hframe, done => by
      rw [evalNativeList, evalNativeList]
      exact value trivial rfl
  | e :: es, _, _, f, hframe, done => by
      rw [evalNativeList, evalNativeList]
      refine andThen (unwinding (e.eval_safe hsafe (hframe.left _))) fun v u hu _ => ?_
      refine (evalNativeList_safe hsafe es (hframe.mono hu) (done ++ [v])).cast ?_ fun _ => rfl
      rw [NativeValue.holdAll_append, NativeValue.holdAll_singleton]
      rfl

theorem evalNativeSeq_safe (hsafe : h.Safe h') : (es : List NativeExpr) → {F : Hold} →
    {w : World} → {f : NativeFrame} → f.Lent F w → (last : NativeValue) →
      Run.Safe F last.hold NativeValue.hold w (evalNativeSeq h f last es)
        (evalNativeSeq h' f last es)
  | [], _, _, f, hframe, last => by
      rw [evalNativeSeq, evalNativeSeq]
      exact value trivial rfl
  | e :: es, _, _, f, hframe, last => by
      rw [evalNativeSeq, evalNativeSeq]
      exact drop_bind fun hu => andThen (e.eval_safe hsafe (hframe.mono hu)) fun v _ hv _ =>
        evalNativeSeq_safe hsafe es ((hframe.mono hu).mono hv) v

end

end Evaluation

/-- Calls may be nested as deep as one likes. -/
theorem Host.nested_safe (noSlot : Kind → Nat → Run Failure NativeValue)
    (bare : Slot → Run Failure NativeValue) (depth : Nat) :
    Host.Safe (nested .memo depth) (nested (.fresh noSlot bare) depth) := by
  induction depth with
  | zero => exact safe_exhausted noSlot bare
  | succ depth ih =>
      exact {
        remembers := rfl
        forgets := ⟨noSlot, bare, rfl⟩
        native := fun _ _ _ e hframe => e.eval_safe ih hframe
        dynamic := fun F w entry t args e hlent hargs hheld => by
          refine modify_bind (M := 0) (fun _ _ => (Transition.enter hheld).path) fun _ => ?_
          refine e.eval_safe ih ⟨fun t' ht' => ?_, hargs⟩
          cases ht'
          exact hlent }

end TwinObject
