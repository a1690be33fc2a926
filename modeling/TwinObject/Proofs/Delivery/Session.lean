/-
Steps of a session deliver.  What a session shows, resolves, shares and converts is as
silent as the library; of all steps only those that declare a dynamic class are not steady.
-/
import TwinObject.Proofs.Delivery.Eval
import TwinObject.Proofs.Safe.Inspect
import TwinObject.Session.Sequence

namespace TwinObject

open Act.Silent

/-- Numbers under which instances are shown tell of no exception. -/
theorem Act.Quiet.silent {α : Type} {a : Act α} (ha : a.Quiet) : a.Silent := by
  intro w
  obtain ⟨shown, hsame⟩ := ha w
  rw [hsame]
  exact .of_eq rfl rfl rfl rfl

namespace World

theorem share_silent (t : TwinId) : Act.Silent (share t) := by
  intro w
  have hshared : w.Silent ((setOwner t .shared w).retain (.native t)) :=
    (Silent.modifyTwin w t _).trans (.retain _ _)
  have hpushed : ((setOwner t .shared w).retain (.native t)).Silent
      { (setOwner t .shared w).retain (.native t) with groups := w.groups.push ⟨t, 1⟩ } :=
    .of_eq rfl rfl rfl rfl
  exact (hshared.trans hpushed).trans (.drop _ _)

theorem takeVar_silent (x : String) : Act.Silent (takeVar x) :=
  fun _ => .of_eq rfl rfl rfl rfl

theorem takeResult_silent (i : Nat) : Act.Silent (takeResult i) :=
  fun w => .takeResult w i

theorem declareMember_silent (name : String) (type : NativeType) (access : Access)
    (default : NativeValue) : Act.Silent (declareMember name type access default) :=
  fun w => (Silent.retainAll w _).trans (.drop _ _)

/-- A native class is no dynamic class. -/
theorem declareNative_silent (label : String) (decl : NativeDecl) :
    Act.Silent (declareNative label decl) := by
  intro w
  unfold declareNative
  split
  · exact .drop w _
  · rename_i c _
    have hpushed : w.Silent { w with declared := w.declared.push ⟨c, c.ownHandles⟩ } :=
      .of_eq rfl rfl rfl rfl
    refine hpushed.trans ?_
    generalize { w with declared := w.declared.push ⟨c, c.ownHandles⟩ } = u
    have hnamed : u.Silent
        { u with scope := { u.scope with natives := u.scope.natives.put label c } } :=
      .of_eq rfl rfl rfl rfl
    unfold nameNative
    cases u.scope.natives.get? label with
    | none => exact hnamed
    | some old => exact hnamed.trans (.dropKind _ _)

theorem Silent.nameClass (w : World) (label : String) (c : DynamicClass) :
    w.Silent (World.nameClass label c w) := by
  have hnamed : w.Silent
      { w with scope := { w.scope with classes := w.scope.classes.put label c } } :=
    .of_eq rfl rfl rfl rfl
  unfold World.nameClass
  cases w.scope.classes.get? label with
  | none => exact hnamed
  | some old => exact hnamed.trans (.dropKind _ _)

end World

namespace Operand

/-- What is shown is let go. -/
theorem present_silent {α : Type} {shown : Act α} (hshown : shown.Quiet) (hs : List Handle)
    (f : α → Report) : Act.Silent (do
      let r ← shown
      modify (·.drop hs)
      return f r) :=
  hshown.silent.bind fun _ => Act.Silent.bind (fun w => .drop w hs) fun _ => pure _

theorem presentNative_silent (v : NativeValue) : Act.Silent (presentNative v) :=
  present_silent (World.showNative_quiet v) v.handles id

theorem presentDyn_silent (v : DynValue) : Act.Silent (presentDyn v) :=
  present_silent (World.showDyn_quiet v) v.handles id

theorem presentAll_silent (vs : List NativeValue) : Act.Silent (presentAll vs) :=
  present_silent (Act.Quiet.mapM World.showNative_quiet vs) _ Report.list

theorem showOptional_silent {α : Type} {f : α → Act Report} (hf : ∀ a, Act.Silent (f a))
    (o : Option α) : Act.Silent (World.showOptional f o) := by
  cases o with
  | none => exact pure _
  | some a => exact (hf a).bind fun _ => pure _

end Operand

open Run.Delivers Run.Carries

namespace Operand

variable {h : Host} {α : Type}

theorem withObject_delivers (hh : h.Delivers) (e : DynExpr) {m : TwinId → Run Thrown α}
    (hm : ∀ t, (m t).Delivers id) : (withObject h e m).Delivers id :=
  DynOp.object_delivers (e.eval_delivers hh {}) hm

theorem withDynamic_delivers (hh : h.Delivers) (e : DynExpr) {m : DynValue → Run Thrown α}
    (hm : ∀ v, (m v).Delivers id) : (withDynamic h e m).Delivers id :=
  bind (e.eval_delivers hh {}) fun v => holding (hm v)

theorem withNative_delivers (hh : h.Delivers) (e : NativeExpr) {m : NativeValue → Run Failure α}
    (hm : ∀ v, (m v).Delivers Thrown.capture) : (withNative h e m).Delivers Thrown.capture :=
  bind (e.eval_delivers hh {}) fun v => holding (hm v)

theorem withArgs_delivers (hh : h.Delivers) (es : List DynExpr)
    {m : List DynValue → Run Thrown α} (hm : ∀ vs, (m vs).Delivers id) :
    (withArgs h es m).Delivers id :=
  bind (evalDynList_delivers hh {} es []) fun vs => holding (hm vs)

theorem withNativeArgs_delivers (hh : h.Delivers) (es : List NativeExpr)
    {m : List NativeValue → Run Failure α} (hm : ∀ vs, (m vs).Delivers Thrown.capture) :
    (withNativeArgs h es m).Delivers Thrown.capture :=
  bind (evalNativeList_delivers hh {} es []) fun vs => holding (hm vs)

theorem find_delivers (f : World → Except Thrown α) : (find f).Delivers id :=
  reads_bind fun r => ofExcept r

theorem findNative_delivers (f : World → Except Thrown α) :
    (findNative f).Delivers Thrown.capture :=
  reads_bind fun _ => ofExcept _

/-- The default of a parameter, if it has one. -/
theorem default_delivers (hh : h.Delivers) (default : Option NativeExpr) :
    (default.mapM (native h)).Delivers Thrown.capture := by
  cases default with
  | none => exact pure none
  | some e => exact bind (e.eval_delivers hh {}) fun v => pure (some v)

theorem params_delivers (hh : h.Delivers) (ps : List ParamSpec) (done : List Param) :
    (params h done ps).Delivers Thrown.capture := by
  induction ps generalizing done with
  | nil => exact pure done
  | cons p ps ih => exact bind (unwinding (default_delivers hh p.default)) fun _ => ih _

theorem constructors_delivers (hh : h.Delivers) (ms : List MemberDecl)
    (cs : List ConstructorSpec) (done : List Constructor) :
    (constructors h ms done cs).Delivers Thrown.capture := by
  induction cs generalizing done with
  | nil => exact pure done
  | cons c cs ih => exact bind (unwinding (params_delivers hh c.params [])) fun _ => ih _

theorem members_delivers (hh : h.Delivers) (ms : List MemberSpec) (done : List MemberDecl) :
    (members h done ms).Delivers Thrown.capture := by
  induction ms generalizing done with
  | nil => exact pure done
  | cons m ms ih =>
      refine bind (unwinding (m.default.eval_delivers hh {})) fun default => ?_
      exact act_bind (World.declareMember_silent m.name m.type m.access default) fun _ => ih _

theorem nativeDecl_delivers (hh : h.Delivers) (s : NativeSpec) (parents : List NativeClass) :
    (nativeDecl h s parents).Delivers Thrown.capture :=
  bind (members_delivers hh s.members []) fun ms =>
    bind (constructors_delivers hh ms s.constructors []) fun _ => pure _

end Operand

namespace Step

open Operand

variable {h : Host}

theorem makeGroup_delivers (hh : h.Delivers) (source : SharedSource) :
    (makeGroup h source).Delivers id := by
  cases source with
  | dynamic label args =>
      refine bind (find_delivers _) fun c => lending (withArgs_delivers hh args fun vs => ?_)
      exact bind (Construction.newDynamic_delivers hh c vs) fun t => act (World.share_silent t)
  | native label args interp =>
      refine bind (find_delivers _) fun c => bind (find_delivers _) fun i =>
        lending (withArgs_delivers hh args fun vs => ?_)
      exact bind (given_back (Construction.instantiate_delivers hh c i vs)) fun t =>
        act (World.share_silent t)
  | clone x =>
      refine bind (DynOp.named_delivers _ _) fun i => reads_bind fun t => ?_
      exact modify_bind (fun w => .cloneShared w i) (pure _)
  | copy e =>
      refine withObject_delivers hh e fun t => bind (given_back ?_) fun new =>
        act (World.share_silent new)
      exact act_bind (World.copyTwin_silent t) fun r => ofExcept r

theorem declareNativeClass_delivers (hh : h.Delivers) (label : String) (spec : NativeSpec) :
    (declareNativeClass h label spec).Delivers Thrown.capture := by
  refine bind (findNative_delivers _) fun parents => lendingAll ?_
  refine bind (nativeDecl_delivers hh spec parents) fun decl => ?_
  exact act_bind (World.declareNative_silent label decl) fun _ => ofExcept_bind fun _ => pure _

theorem findBase_delivers (base : Option BaseRef) : (findBase base).Delivers id := by
  cases base with
  | none => exact pure none
  | some ref => exact bind (find_delivers _) fun spec => pure (some spec)

theorem keepDyn_silent (x : Option String) (v : DynValue) : Act.Silent (keepDyn x v) := by
  refine (World.showDyn_quiet v).silent.bind fun r => Act.Silent.bind (fun w => ?_) fun _ => pure r
  cases x with
  | none => exact .drop w _
  | some x => exact .setVar w x _

theorem keepNative_silent (x : Option String) (v : NativeValue) :
    Act.Silent (keepNative x v) := by
  refine (World.showNative_quiet v).silent.bind fun r =>
    Act.Silent.bind (fun w => ?_) fun _ => pure r
  cases x with
  | none => exact .drop w _
  | some x => exact .setVar w x _

theorem evalDyn_delivers (hh : h.Delivers) (e : DynExpr) (x : Option String) :
    (dynamic h e >>= fun v => Run.act (keepDyn x v)).Delivers id :=
  bind (e.eval_delivers hh {}) fun v => act (keepDyn_silent x v)

theorem evalNative_delivers (hh : h.Delivers) (e : NativeExpr) (x : Option String) :
    (native h e >>= fun v => Run.act (keepNative x v)).Delivers Thrown.capture :=
  bind (e.eval_delivers hh {}) fun v => act (keepNative_silent x v)

theorem resolveIn_delivers (table : VTable) {conv : Conversion Act} (hconv : conv.Silent)
    (className name : String) (constOnly : Bool) :
    (resolveIn table conv className name constOnly).Delivers Thrown.capture :=
  act_bind (VTable.resolve_silent hconv table className name constOnly) fun _ =>
    ofExcept_bind fun s => act_bind (presentAll_silent s.args) fun _ => pure _

theorem gateMethods_delivers (label method : String) (release : Bool) :
    (gateMethods label method release).Delivers Thrown.capture := by
  refine bind (findNative_delivers _) fun c => ?_
  cases c.findMethod? method with
  | none => exact raise _
  | some found => exact modify_bind (fun w => .setGate w _ release) (pure _)

theorem gateFunction_delivers (label : String) (release : Bool) :
    (gateFunction label release).Delivers id :=
  bind (find_delivers _) fun f => reads_bind fun _ =>
    modify_bind (fun w => .setGate w f.gate release) (reads_bind fun _ => pure _)

theorem startThread_delivers (x : String) (e : DynExpr) (interp : String) :
    (startThread x e interp).Delivers id := by
  refine bind (find_delivers _) fun i => modify_bind (fun w => ?_) (reads_bind fun _ => pure _)
  have hpushed : w.Silent { w with threads := w.threads.push ⟨i, e, .waiting⟩ } :=
    .of_eq rfl rfl rfl rfl
  exact hpushed.trans (.setVar _ x _)

theorem joinThread_delivers (x : String) : (joinThread x).Delivers id := by
  refine bind (DynOp.named_delivers _ _) fun index => act_bind (World.takeVar_silent x) fun _ =>
    await_bind (fun v v' hdone => ?_) (act_bind (World.takeResult_silent index) fun result => ?_)
  · split at hdone
    · cases hdone
      exact .refl v
    · cases hdone
  · rcases result with _ | (t | v)
    · exact raise _
    · exact raise t
    · exact act (presentDyn_silent v)

theorem stopSignal_delivers (x : String) : (stopSignal x).Delivers id := by
  refine reads_bind fun found => ?_
  cases found with
  | none => exact raise _
  | some i =>
      exact reads_bind fun _ => modify_bind (fun w => .setSignal w i) (pure _)

end Step

end TwinObject
