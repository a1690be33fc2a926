/-
Evaluation delivers.  Of all that code can do, only an attempt takes an exception out of
flight; by induction on the depth of calls all bodies that a host runs deliver.
-/
import TwinObject.Proofs.Delivery.Call

namespace TwinObject

open Run.Delivers Run.Carries

variable {h : Host}

theorem DynFrame.self_delivers (f : DynFrame) : f.self.Delivers id := by
  unfold DynFrame.self
  cases f.this with
  | none => exact raise _
  | some t => exact pure t

namespace DynOp

theorem ofOption_delivers {α : Type} (message : String) (o : Option α) :
    (ofOption message o).Delivers id := by
  cases o with
  | none => exact raise _
  | some a => exact pure a

theorem clone_delivers (v : DynValue) : (clone v).Delivers id :=
  modify_bind (fun w => .retainAll w _) (pure v)

theorem expectObject_delivers {operand : Run Thrown DynValue} (hoperand : operand.Delivers id) :
    (expectObject operand).Delivers id := by
  refine bind hoperand fun v => ?_
  split
  · exact pure _
  · exact modify_bind (fun w => .drop w _) (raise _)

theorem expectTuple_delivers {operand : Run Thrown DynValue} (hoperand : operand.Delivers id) :
    (expectTuple operand).Delivers id := by
  refine bind hoperand fun v => ?_
  split
  · exact pure _
  · exact modify_bind (fun w => .drop w _) (raise _)

theorem object_delivers {α : Type} {operand : Run Thrown DynValue} {k : TwinId → Run Thrown α}
    (hoperand : operand.Delivers id) (hk : ∀ t, (k t).Delivers id) :
    (expectObject operand >>= fun t => Run.holding [.dynamic t] (k t)).Delivers id :=
  bind (expectObject_delivers hoperand) fun t => holding (hk t)

theorem tuple_delivers {α : Type} {operand : Run Thrown DynValue} {k : List DynValue → Run Thrown α}
    (hoperand : operand.Delivers id) (hk : ∀ vs, (k vs).Delivers id) :
    (expectTuple operand >>= fun vs =>
      Run.holding (DynValue.itemHandles vs) (k vs)).Delivers id :=
  bind (expectTuple_delivers hoperand) fun vs => holding (hk vs)

/-- Something that the world may have under a name is looked up. -/
theorem named_delivers {α : Type} (message : String) (find : World → Option α) :
    (Run.reads find >>= ofOption message).Delivers id :=
  reads_bind fun o => ofOption_delivers message o

theorem objectOrNone_delivers {m : Act (Option TwinId)} (hm : m.Silent) :
    (objectOrNone m).Delivers id :=
  act_bind hm fun _ => pure _

theorem hasAttr_delivers (t : TwinId) (name : String) : (hasAttr t name).Delivers id := by
  refine act_bind (World.getAttr_silent t name) fun r => ?_
  cases r with
  | ok v => exact modify_bind (fun w => .drop w _) (pure _)
  | error e => exact pure _

theorem callFunction_delivers (hh : h.Delivers) (this : Option TwinId) (f : NativeFunction)
    (args : List DynValue) : (callFunction h this f args).Delivers id :=
  reads_bind fun i => Call.callFunction_delivers hh i f args

theorem new_delivers (hh : h.Delivers) (this : Option TwinId) (cls : String)
    (args : List DynValue) : (new h this cls args).Delivers id := by
  refine reads_bind fun found => ?_
  cases found with
  | some c =>
      exact lending (bind (Construction.newDynamic_delivers hh c args) fun _ => pure _)
  | none =>
      refine bind (named_delivers _ _) fun c => reads_bind fun i => lending ?_
      exact bind (given_back (Construction.instantiate_delivers hh c i args)) fun _ => pure _

theorem newGrouped_delivers (hh : h.Delivers) (c : NativeClass) (g : ArgGroup) :
    (newGrouped h c g).Delivers id :=
  reads_bind fun i =>
    bind (given_back (Construction.newNative_delivers hh c i g .dynamic)) fun _ => pure _

theorem initBase_delivers (hh : h.Delivers) (t : TwinId) (c : NativeClass)
    (args : List DynValue) : (initBase h t c args).Delivers id :=
  bind (given_back (Construction.initBase_delivers hh t c args)) fun _ => pure _

theorem initParent_delivers (hh : h.Delivers) (t : TwinId) (c : DynamicClass)
    (args : List DynValue) : (initParent h t c args).Delivers id :=
  bind (Construction.initializeAs_delivers hh .chained c t args) fun _ => pure _

theorem reproduce_delivers (way : Reproduction) (t : TwinId) : (reproduce way t).Delivers id :=
  given_back (act_bind (World.reproduce_silent t way) fun _ => ofExcept_bind fun _ => pure _)

theorem classAttr_delivers (cls name : String) : (classAttr cls name).Delivers id :=
  bind (named_delivers _ _) fun _ => reads_bind fun _ => clone_delivers _

theorem setClassAttr_delivers (c : DynamicClass) (name : String) (v : DynValue) :
    (setClassAttr c name v).Delivers id :=
  modify_bind (fun w => .storeClassAttr w c.id name v) (pure _)

theorem setOwner_delivers (t : TwinId) (flag : Ownership) : (setOwner t flag).Delivers id :=
  modify_bind (fun w => .modifyTwin w t _) (clone_delivers _)

theorem yieldLock_delivers : yieldLock.Delivers id :=
  reads_bind fun _ => unlocked (pure _)

theorem waitStop_delivers (x : String) : (waitStop x).Delivers id := by
  refine reads_bind fun found => bind (ofOption_delivers _ found) fun i =>
    reads_bind fun isSet => ?_
  split
  · exact pure _
  · refine reads_bind fun _ => unlocked ?_
    refine await_bind (fun v v' hset => ?_) (pure _)
    split at hset
    · cases hset
      exact .refl v
    · cases hset

end DynOp

namespace NativeOp

theorem ofOption_delivers {α : Type} (message : String) (o : Option α) :
    (ofOption message o).Delivers Thrown.capture := by
  cases o with
  | none => exact raise _
  | some a => exact pure a

theorem clone_delivers (v : NativeValue) : (clone v).Delivers Thrown.capture :=
  modify_bind (fun w => .retainAll w _) (pure v)

theorem object_delivers {α : Type} {operand : Run Failure NativeValue} {k : TwinId → Run Failure α}
    (hoperand : operand.Delivers Thrown.capture) (hk : ∀ t, (k t).Delivers Thrown.capture) :
    (expectObject operand >>= fun t =>
      Run.holding [.native t] (k t)).Delivers Thrown.capture := by
  refine bind (bind hoperand fun v => ?_) fun t => holding (hk t)
  split
  · exact pure _
  · exact modify_bind (fun w => .drop w _) (raise _)

theorem named_delivers {α : Type} (message : String) (find : World → Option α) :
    (Run.reads find >>= ofOption message).Delivers Thrown.capture :=
  reads_bind fun o => ofOption_delivers message o

theorem result_delivers {m : Act (Except Failure NativeValue)} (hm : m.Silent) :
    (result m).Delivers Thrown.capture :=
  act_bind hm fun r => ofExcept r

theorem construct_delivers (hh : h.Delivers) (c : NativeClass) (args : List NativeValue) :
    (construct h c args).Delivers Thrown.capture :=
  reads_bind fun i => bind (Construction.construct_delivers hh c i args) fun _ => pure _

theorem site_delivers (f : NativeFrame) : (site f).Delivers Thrown.capture := by
  unfold site
  cases f.site with
  | none => exact raise _
  | some s => exact pure s

theorem reproduce_delivers (way : Reproduction) (t : TwinId) :
    (reproduce way t).Delivers Thrown.capture :=
  act_bind (World.reproduce_silent t way) fun _ => ofExcept_bind fun new =>
    modify_bind (fun w => .asNative w new) (pure _)

theorem adopt_delivers (t : TwinId) (flag : Ownership) :
    (adopt t flag).Delivers Thrown.capture :=
  modify_bind (fun w => .modifyTwin w t _) (clone_delivers _)

theorem keepingVec_delivers {α : Type} {m : Run Failure α} (i : Nat)
    (hm : m.Delivers Thrown.capture) : (keepingVec i m).Delivers Thrown.capture :=
  modify_bind (fun w => .holdVec w i) (atEnd hm fun w => .leaveVec w i)

theorem keepingShared_delivers {α : Type} {m : Run Failure α} (i : Nat)
    (hm : m.Delivers Thrown.capture) : (keepingShared i m).Delivers Thrown.capture :=
  reads_bind fun _ =>
    modify_bind (fun w => .cloneShared w i) (atEnd hm fun w => .dropShared w i)

theorem vecAppend_delivers (way : Reproduction) (i : Nat) (t : TwinId) :
    (vecAppend way i t).Delivers Thrown.capture :=
  act_bind (World.vecAppend_silent way i t) fun _ => ofExcept_bind fun _ => pure _

theorem vecAsk_delivers (q : VecQuestion) (x : String) :
    (vecAsk q x).Delivers Thrown.capture :=
  reads_bind fun _ => bind (ofOption_delivers _ _) fun _ => pure _

theorem sharedTarget_delivers (x : String) : (sharedTarget x).Delivers Thrown.capture :=
  bind (named_delivers _ _) fun _ => reads _

theorem sharedCall_delivers (hh : h.Delivers) (i : Nat) (name : String)
    (args : List NativeValue) : (sharedCall h i name args).Delivers Thrown.capture :=
  reads_bind fun t => Call.callVirtual_delivers hh false t name args

end NativeOp

-- By recursion on code: only what raises or attempts changes what is in flight, and the rest
-- hands it on from its parts.
mutual

theorem DynExpr.eval_delivers (hh : h.Delivers) :
    (e : DynExpr) → (f : DynFrame) → (e.eval h f).Delivers id
  | .lit l, f => by
      rw [DynExpr.eval]
      exact pure _
  | .arg i, f => by
      rw [DynExpr.eval]
      exact bind (DynOp.ofOption_delivers _ _) fun v => DynOp.clone_delivers v
  | .argTuple, f => by
      rw [DynExpr.eval]
      exact DynOp.clone_delivers _
  | .argCount, f => by
      rw [DynExpr.eval]
      exact pure _
  | .this, f => by
      rw [DynExpr.eval]
      exact bind f.self_delivers fun t => DynOp.clone_delivers _
  | .var x, f => by
      rw [DynExpr.eval]
      exact act (World.readDyn_silent x)
  | .set x e, f => by
      rw [DynExpr.eval]
      exact bind (e.eval_delivers hh f) fun v => modify_bind (fun w => .setVar w x _) (pure _)
  | .tuple es, f => by
      rw [DynExpr.eval]
      exact bind (evalDynList_delivers hh f es []) fun vs => pure _
  | .item e i, f => by
      rw [DynExpr.eval]
      refine bind (e.eval_delivers hh f) fun v => holding ?_
      exact bind (DynOp.ofOption_delivers _ _) fun items =>
        bind (DynOp.ofOption_delivers _ _) fun item => DynOp.clone_delivers item
  | .seq es, f => by
      rw [DynExpr.eval]
      exact evalDynSeq_delivers hh f es .none
  | .cond c a b, f => by
      rw [DynExpr.eval]
      refine bind (c.eval_delivers hh f) fun v => modify_bind (fun w => .drop w _) ?_
      split
      · exact a.eval_delivers hh f
      · exact b.eval_delivers hh f
  | .binary op a b, f => by
      rw [DynExpr.eval]
      refine bind (a.eval_delivers hh f) fun x => holding ?_
      exact bind (b.eval_delivers hh f) fun y => holding (DynOp.ofOption_delivers _ _)
  | .raise t, f => by
      rw [DynExpr.eval]
      exact throw t
  | .attempt e, f => by
      rw [DynExpr.eval]
      exact outcome_bind (e.eval_delivers hh f) (fun v => pure v) fun t g _ =>
        caught_bind (pure _)
  | .log text, f => by
      rw [DynExpr.eval]
      exact modify_bind (fun w => .tell w fun _ => rfl) (pure _)
  | .attr o name, f => by
      rw [DynExpr.eval]
      exact DynOp.object_delivers (o.eval_delivers hh f) fun t =>
        act_bind (World.getAttr_silent t name) fun r => ofExcept r
  | .hasAttr o name, f => by
      rw [DynExpr.eval]
      exact DynOp.object_delivers (o.eval_delivers hh f) fun t => DynOp.hasAttr_delivers t name
  | .setAttr o name e, f => by
      rw [DynExpr.eval]
      refine DynOp.object_delivers (o.eval_delivers hh f) fun t => ?_
      exact bind (e.eval_delivers hh f) fun v =>
        act_bind (World.setAttr_silent t name v) fun _ => ofExcept_bind fun _ => pure _
  | .call o name args, f => by
      rw [DynExpr.eval]
      refine DynOp.object_delivers (o.eval_delivers hh f) fun t => ?_
      exact DynOp.tuple_delivers (args.eval_delivers hh f) fun vs =>
        Call.callMethod_delivers hh t name vs
  | .callBase o cls name args, f => by
      rw [DynExpr.eval]
      refine DynOp.object_delivers (o.eval_delivers hh f) fun t =>
        bind (DynOp.named_delivers _ _) fun c => lending ?_
      exact DynOp.tuple_delivers (args.eval_delivers hh f) fun vs =>
        given_back (Call.callBaseDynamic_delivers hh t c name vs)
  | .callFunction function args, f => by
      rw [DynExpr.eval]
      refine bind (DynOp.named_delivers _ _) fun g => ?_
      exact DynOp.tuple_delivers (args.eval_delivers hh f) fun vs =>
        DynOp.callFunction_delivers hh f.this g vs
  | .new cls args, f => by
      rw [DynExpr.eval]
      exact DynOp.tuple_delivers (args.eval_delivers hh f) fun vs =>
        DynOp.new_delivers hh f.this cls vs
  | .newGrouped cls group, f => by
      rw [DynExpr.eval]
      refine bind (DynOp.named_delivers _ _) fun c => lending ?_
      exact bind (group.eval_delivers hh f) fun g => holding (DynOp.newGrouped_delivers hh c g)
  | .superInit args, f => by
      rw [DynExpr.eval]
      refine bind f.self_delivers fun t =>
        DynOp.tuple_delivers (args.eval_delivers hh f) fun vs => ?_
      exact bind (given_back (Construction.superInit_delivers hh t vs)) fun _ => pure _
  | .superGroups groups, f => by
      rw [DynExpr.eval]
      refine bind (evalGroups_delivers hh f groups []) fun gs =>
        bind (unwinding f.self_delivers) fun t => ?_
      exact bind (given_back (Construction.superGroups_delivers hh t gs)) fun _ => pure _
  | .initBase cls args, f => by
      rw [DynExpr.eval]
      refine bind f.self_delivers fun t => bind (DynOp.named_delivers _ _) fun c => lending ?_
      exact DynOp.tuple_delivers (args.eval_delivers hh f) fun vs =>
        DynOp.initBase_delivers hh t c vs
  | .initParent cls args, f => by
      rw [DynExpr.eval]
      refine bind f.self_delivers fun t => bind (DynOp.named_delivers _ _) fun c => lending ?_
      exact DynOp.tuple_delivers (args.eval_delivers hh f) fun vs =>
        DynOp.initParent_delivers hh t c vs
  | .setOwner o flag, f => by
      rw [DynExpr.eval]
      exact DynOp.object_delivers (o.eval_delivers hh f) fun t => DynOp.setOwner_delivers t flag
  | .ask q o, f => by
      rw [DynExpr.eval]
      exact DynOp.object_delivers (o.eval_delivers hh f) fun t => reads_bind fun _ => pure _
  | .identical a b, f => by
      rw [DynExpr.eval]
      refine DynOp.object_delivers (a.eval_delivers hh f) fun t => ?_
      exact DynOp.object_delivers (b.eval_delivers hh f) fun s => pure _
  | .reproduce way o, f => by
      rw [DynExpr.eval]
      exact DynOp.object_delivers (o.eval_delivers hh f) fun t => DynOp.reproduce_delivers way t
  | .text e, f => by
      rw [DynExpr.eval]
      exact bind (e.eval_delivers hh f) fun v => holding (reads_bind fun _ => pure _)
  | .truthy e, f => by
      rw [DynExpr.eval]
      exact bind (e.eval_delivers hh f) fun v => modify_bind (fun w => .drop w _) (pure _)
  | .held interp, f => by
      rw [DynExpr.eval]
      exact reads_bind fun _ => pure _
  | .classAttr cls name, f => by
      rw [DynExpr.eval]
      exact DynOp.classAttr_delivers cls name
  | .setClassAttr cls name e, f => by
      rw [DynExpr.eval]
      refine bind (DynOp.named_delivers _ _) fun c => lending ?_
      exact bind (e.eval_delivers hh f) fun v => DynOp.setClassAttr_delivers c name v
  | .vecGet x i, f => by
      rw [DynExpr.eval]
      exact bind (DynOp.named_delivers _ _) fun v =>
        DynOp.objectOrNone_delivers (World.vecGet_silent v i)
  | .vecRemove x i, f => by
      rw [DynExpr.eval]
      exact bind (DynOp.named_delivers _ _) fun v =>
        DynOp.objectOrNone_delivers (World.vecRemove_silent v i)
  | .sharedGet x, f => by
      rw [DynExpr.eval]
      exact bind (DynOp.named_delivers _ _) fun i => reads_bind fun _ => DynOp.clone_delivers _
  | .yieldLock, f => by
      rw [DynExpr.eval]
      exact DynOp.yieldLock_delivers
  | .waitStop x, f => by
      rw [DynExpr.eval]
      exact DynOp.waitStop_delivers x
  | .panic text, f => by
      rw [DynExpr.eval]
      exact panic text
  | .native e, f => by
      rw [DynExpr.eval]
      refine retaining (given_back ?_)
      exact bind (e.eval_delivers hh _) fun v => act (Crossing.toDynamic_silent v)

theorem evalDynList_delivers (hh : h.Delivers) (f : DynFrame) :
    (es : List DynExpr) → (done : List DynValue) → (evalDynList h f done es).Delivers id
  | [], done => by
      rw [evalDynList]
      exact pure done
  | e :: es, done => by
      rw [evalDynList]
      exact bind (unwinding (e.eval_delivers hh f)) fun v =>
        evalDynList_delivers hh f es (done ++ [v])

theorem evalDynSeq_delivers (hh : h.Delivers) (f : DynFrame) :
    (es : List DynExpr) → (last : DynValue) → (evalDynSeq h f last es).Delivers id
  | [], last => by
      rw [evalDynSeq]
      exact pure last
  | e :: es, last => by
      rw [evalDynSeq]
      exact modify_bind (fun w => .drop w _) (bind (e.eval_delivers hh f) fun v =>
        evalDynSeq_delivers hh f es v)

theorem GroupExpr.eval_delivers (hh : h.Delivers) :
    (g : GroupExpr) → (f : DynFrame) → (g.eval h f).Delivers id
  | .mk positional names values, f => by
      rw [GroupExpr.eval]
      refine bind (DynOp.expectTuple_delivers (positional.eval_delivers hh f)) fun vs => ?_
      exact bind (unwinding (evalDynList_delivers hh f values [])) fun ks => pure _

theorem evalGroups_delivers (hh : h.Delivers) (f : DynFrame) :
    (gs : List GroupExpr) → (done : List ArgGroup) → (evalGroups h f done gs).Delivers id
  | [], done => by
      rw [evalGroups]
      exact pure done
  | g :: gs, done => by
      rw [evalGroups]
      exact bind (unwinding (g.eval_delivers hh f)) fun v =>
        evalGroups_delivers hh f gs (done ++ [v])

theorem NativeExpr.eval_delivers (hh : h.Delivers) :
    (e : NativeExpr) → (f : NativeFrame) → (e.eval h f).Delivers Thrown.capture
  | .lit l, f => by
      rw [NativeExpr.eval]
      exact pure _
  | .arg i, f => by
      rw [NativeExpr.eval]
      exact bind (NativeOp.ofOption_delivers _ _) fun v => NativeOp.clone_delivers v
  | .argCount, f => by
      rw [NativeExpr.eval]
      exact pure _
  | .this, f => by
      rw [NativeExpr.eval]
      exact bind (NativeOp.ofOption_delivers _ _) fun t => NativeOp.clone_delivers _
  | .var x, f => by
      rw [NativeExpr.eval]
      exact act_bind (World.readNative_silent x) fun _ => NativeOp.ofOption_delivers _ _
  | .set x e, f => by
      rw [NativeExpr.eval]
      exact bind (e.eval_delivers hh f) fun v => modify_bind (fun w => .setVar w x _) (pure _)
  | .seq es, f => by
      rw [NativeExpr.eval]
      exact evalNativeSeq_delivers hh f es .void
  | .cond c a b, f => by
      rw [NativeExpr.eval]
      refine bind (c.eval_delivers hh f) fun v => modify_bind (fun w => .drop w _) ?_
      split
      · exact a.eval_delivers hh f
      · exact b.eval_delivers hh f
  | .binary op a b, f => by
      rw [NativeExpr.eval]
      refine bind (a.eval_delivers hh f) fun x => holding ?_
      exact bind (b.eval_delivers hh f) fun y => holding (NativeOp.ofOption_delivers _ _)
  | .fail failure, f => by
      rw [NativeExpr.eval]
      exact raise failure
  | .attempt e, f => by
      rw [NativeExpr.eval]
      exact outcome_bind (e.eval_delivers hh f) (fun v => pure v) fun t g _ =>
        caught_bind (pure _)
  | .log text, f => by
      rw [NativeExpr.eval]
      exact modify_bind (fun w => .tell w fun _ => rfl) (pure _)
  | .typeName e, f => by
      rw [NativeExpr.eval]
      exact bind (e.eval_delivers hh f) fun v => holding (reads_bind fun _ => pure _)
  | .field o name, f => by
      rw [NativeExpr.eval]
      exact NativeOp.object_delivers (o.eval_delivers hh f) fun t =>
        NativeOp.result_delivers (World.readMember_silent t name _)
  | .fieldOf o cls name, f => by
      rw [NativeExpr.eval]
      exact NativeOp.object_delivers (o.eval_delivers hh f) fun t =>
        NativeOp.result_delivers (World.readMember_silent t name _)
  | .fieldAs type o name, f => by
      rw [NativeExpr.eval]
      exact NativeOp.object_delivers (o.eval_delivers hh f) fun t =>
        NativeOp.result_delivers (World.getFieldAs_silent t name type)
  | .setField o name e, f => by
      rw [NativeExpr.eval]
      refine NativeOp.object_delivers (o.eval_delivers hh f) fun t => ?_
      exact bind (e.eval_delivers hh f) fun v =>
        act_bind (World.setField_silent t name v) fun _ => ofExcept_bind fun _ => pure _
  | .callVirtual constOnly o name args, f => by
      rw [NativeExpr.eval]
      refine NativeOp.object_delivers (o.eval_delivers hh f) fun t => ?_
      exact bind (evalNativeList_delivers hh f args []) fun vs =>
        Call.withArgs_delivers vs (Call.callVirtual_delivers hh constOnly t name vs)
  | .callMethod o name args, f => by
      rw [NativeExpr.eval]
      refine NativeOp.object_delivers (o.eval_delivers hh f) fun t => ?_
      exact bind (evalNativeList_delivers hh f args []) fun vs =>
        Call.withArgs_delivers vs (Call.callMethodNative_delivers hh t name vs)
  | .callBase o cls name args, f => by
      rw [NativeExpr.eval]
      refine NativeOp.object_delivers (o.eval_delivers hh f) fun t =>
        bind (NativeOp.named_delivers _ _) fun c => lending ?_
      exact bind (evalNativeList_delivers hh f args []) fun vs =>
        Call.withArgs_delivers vs (Call.callBaseNative_delivers hh t c name vs)
  | .construct cls args, f => by
      rw [NativeExpr.eval]
      refine bind (NativeOp.named_delivers _ _) fun c => lending ?_
      exact bind (evalNativeList_delivers hh f args []) fun vs =>
        Call.withArgs_delivers vs (NativeOp.construct_delivers hh c vs)
  | .invoke function args, f => by
      rw [NativeExpr.eval]
      refine bind (NativeOp.named_delivers _ _) fun g => ?_
      exact bind (evalNativeList_delivers hh f args []) fun vs =>
        Call.withArgs_delivers vs (Call.invoke_delivers hh g vs)
  | .initField name e, f => by
      rw [NativeExpr.eval]
      refine bind (e.eval_delivers hh f) fun v =>
        bind (unwinding (NativeOp.site_delivers f)) fun s => ?_
      exact act_bind (s.set_silent name v) fun _ => ofExcept_bind fun _ => pure _
  | .getInit name, f => by
      rw [NativeExpr.eval]
      exact bind (NativeOp.site_delivers f) fun s => act (s.get_silent name)
  | .ask q o, f => by
      rw [NativeExpr.eval]
      exact NativeOp.object_delivers (o.eval_delivers hh f) fun t => reads_bind fun _ => pure _
  | .identical a b, f => by
      rw [NativeExpr.eval]
      refine NativeOp.object_delivers (a.eval_delivers hh f) fun t => ?_
      exact NativeOp.object_delivers (b.eval_delivers hh f) fun s => pure _
  | .reproduce way o, f => by
      rw [NativeExpr.eval]
      exact NativeOp.object_delivers (o.eval_delivers hh f) fun t =>
        NativeOp.reproduce_delivers way t
  | .adopt o flag, f => by
      rw [NativeExpr.eval]
      exact NativeOp.object_delivers (o.eval_delivers hh f) fun t => NativeOp.adopt_delivers t flag
  | .vecPush x o, f => by
      rw [NativeExpr.eval]
      refine bind (NativeOp.named_delivers _ _) fun i => NativeOp.keepingVec_delivers i ?_
      exact NativeOp.object_delivers (o.eval_delivers hh f) fun t =>
        NativeOp.vecAppend_delivers .copy i t
  | .vecMove x o, f => by
      rw [NativeExpr.eval]
      refine bind (NativeOp.named_delivers _ _) fun i => NativeOp.keepingVec_delivers i ?_
      exact NativeOp.object_delivers (o.eval_delivers hh f) fun t =>
        NativeOp.vecAppend_delivers .move i t
  | .vecClear x, f => by
      rw [NativeExpr.eval]
      exact bind (NativeOp.named_delivers _ _) fun i =>
        modify_bind (fun w => .vecClear w i) (pure _)
  | .vecNative x i, f => by
      rw [NativeExpr.eval]
      exact bind (NativeOp.named_delivers _ _) fun v =>
        act_bind (World.vecNative_silent v i) fun _ => pure _
  | .vecAsk q x, f => by
      rw [NativeExpr.eval]
      exact NativeOp.vecAsk_delivers q x
  | .sharedNative x, f => by
      rw [NativeExpr.eval]
      exact bind (NativeOp.sharedTarget_delivers x) fun t => NativeOp.clone_delivers _
  | .sharedCall x name args, f => by
      rw [NativeExpr.eval]
      refine bind (NativeOp.named_delivers _ _) fun i => NativeOp.keepingShared_delivers i ?_
      exact bind (evalNativeList_delivers hh f args []) fun vs =>
        Call.withArgs_delivers vs (NativeOp.sharedCall_delivers hh i name vs)
  | .sharedCount x, f => by
      rw [NativeExpr.eval]
      exact bind (NativeOp.named_delivers _ _) fun i => reads_bind fun _ => pure _
  | .held interp, f => by
      rw [NativeExpr.eval]
      exact reads_bind fun _ => pure _
  | .onThread e, f => by
      rw [NativeExpr.eval]
      exact onThread (e.eval_delivers hh _)
  | .dynamic e, f => by
      rw [NativeExpr.eval]
      refine retaining (bind (captured (e.eval_delivers hh _)) fun v => holding ?_)
      exact act_bind (Crossing.lendToRaw_silent v) fun _ => NativeOp.ofOption_delivers _ _

theorem evalNativeList_delivers (hh : h.Delivers) (f : NativeFrame) :
    (es : List NativeExpr) → (done : List NativeValue) →
    (evalNativeList h f done es).Delivers Thrown.capture
  | [], done => by
      rw [evalNativeList]
      exact pure done
  | e :: es, done => by
      rw [evalNativeList]
      exact bind (unwinding (e.eval_delivers hh f)) fun v =>
        evalNativeList_delivers hh f es (done ++ [v])

theorem evalNativeSeq_delivers (hh : h.Delivers) (f : NativeFrame) :
    (es : List NativeExpr) → (last : NativeValue) →
    (evalNativeSeq h f last es).Delivers Thrown.capture
  | [], last => by
      rw [evalNativeSeq]
      exact pure last
  | e :: es, last => by
      rw [evalNativeSeq]
      exact modify_bind (fun w => .drop w _) (bind (e.eval_delivers hh f) fun v =>
        evalNativeSeq_delivers hh f es v)

end

/-- However deep calls are nested, all bodies deliver. -/
theorem Host.nested_delivers (depth : Nat) : (nested .memo depth).Delivers := by
  induction depth with
  | zero =>
      exact {
        override := World.lookupOverride_silent
        noSlot := fun _ _ => raise _
        bare := fun _ => raise _
        native := fun _ _ => Run.Delivers.exhausted
        dynamic := fun _ _ _ _ => Run.Delivers.exhausted }
  | succ depth ih =>
      exact {
        override := World.lookupOverride_silent
        noSlot := fun _ _ => raise _
        bare := fun _ => raise _
        native := fun f e => e.eval_delivers ih f
        dynamic := fun entry t args e =>
          modify_bind (fun w => .tell w fun _ => rfl) (e.eval_delivers ih _) }

end TwinObject
