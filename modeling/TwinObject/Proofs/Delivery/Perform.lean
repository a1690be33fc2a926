/-
Steps that declare no dynamic class are steady, and so are the turns of threads: neither
the classes nor what is registered for them nor what interpreters were told of changes.
-/
import TwinObject.Proofs.Delivery.Session

namespace TwinObject

/-- Whether an action declares no dynamic class. -/
def Act.Steady {α : Type} (a : Act α) : Prop :=
  ∀ w : World, w.Steady (a w).2

theorem Act.Silent.steady {α : Type} {a : Act α} (ha : a.Silent) : a.Steady :=
  fun w => (ha w).steady

namespace Answer

variable {ε α : Type} {seen : Thrown → ε}

/-- What code that delivers leaves behind, with what follows on its value. -/
theorem ofCourse_steady {value : α → Act Answer} {raised : ε → Answer} {m : Run ε α}
    (hm : m.Delivers seen) (hvalue : ∀ a, (value a).Steady) : (ofCourse value raised m).Steady := by
  intro w
  have hcourse := hm w
  unfold ofCourse
  generalize m w = c at hcourse
  cases hcourse with
  | @ended _ _ e _ u hbears _ =>
      cases e with
      | value a => exact hbears.steady.trans (hvalue a u)
      | raised e => exact hbears.steady
      | panicked text => exact .refl w
  | paused => exact .refl w
  | exhausted => exact .refl w

theorem ofThrown_steady {m : Run Thrown Report} (hm : m.Delivers id) : (ofThrown m).Steady :=
  ofCourse_steady hm fun _ w => .refl w

theorem ofFailed_steady {m : Run Failure Report} (hm : m.Delivers Thrown.capture) :
    (ofFailed m).Steady :=
  ofCourse_steady hm fun _ w => .refl w

theorem afterOperands_steady {m : Run Thrown α} (hm : m.Delivers id) {next : α → Act Answer}
    (hnext : ∀ a, (next a).Steady) : (afterOperands m next).Steady :=
  ofCourse_steady hm hnext

end Answer

namespace World

variable {w : World}

theorem comeBack_silent (i : InterpId) (depth : Nat) (w : World) :
    w.Silent (comeBack i depth w) := by
  unfold comeBack
  cases (w.lock i).resume? w.currentThread depth with
  | none => exact .refl w
  | some l => exact .setLock w i l

theorem openGuard_silent (i : InterpId) : Act.Silent (openGuard i) := by
  intro w
  unfold openGuard
  split
  · exact .refl w
  · rename_i l _
    exact (Silent.setLock w i l).trans (.of_eq rfl rfl rfl rfl)

theorem tryElsewhere_silent (i : InterpId) : Act.Silent (tryElsewhere i) := by
  intro w
  unfold tryElsewhere
  split
  · exact .refl w
  · rename_i l _
    exact (Silent.setLock w i l.release).trans (.of_eq rfl rfl rfl rfl)

theorem openSuspension_silent (i : InterpId) : Act.Silent (openSuspension i) :=
  fun w => (Silent.setLock w i _).trans (.of_eq rfl rfl rfl rfl)

theorem closeGuard_silent : Act.Silent closeGuard := by
  intro w
  have hpopped : ∀ rest, w.Silent { w with guards := rest } := fun _ => .of_eq rfl rfl rfl rfl
  unfold closeGuard
  split
  · exact .refl w
  · rename_i g rest _
    cases g with
    | held i => exact (hpopped rest).trans (.setLock _ i _)
    | suspended i depth => exact (hpopped rest).trans (comeBack_silent i depth _)

theorem declareInterp_steady (label : String) (o : InterpOptions) (w : World) :
    w.Steady (declareInterp label o w) where
  classes := rfl
  registry := rfl
  options i hi := by
    have hbefore : (w.interps.push { options := o })[i]? = w.interps[i]? := by
      rw [Array.getElem?_push, if_neg (Nat.ne_of_lt hi)]
    refine ⟨by simpa [declareInterp] using Nat.lt_succ_of_lt hi, ?_⟩
    simp only [declareInterp, interp, hbefore]
  diagnostics i := by
    -- A new interpreter was told of nothing yet.
    by_cases hi : i = w.interps.size
    · subst hi
      simp [declareInterp, interp]
    · have hbefore : (w.interps.push { options := o })[i]? = w.interps[i]? := by
        rw [Array.getElem?_push, if_neg hi]
      simp only [declareInterp, interp, hbefore]

end World

namespace Step

open Run.Delivers Run.Carries Operand Act.Silent Answer

variable {h : Host}

theorem moveLock_silent (i : InterpId) (action : LockAction) : Act.Silent (moveLock i action) := by
  cases action with
  | acquire => exact (World.openGuard_silent i).bind fun _ => pure _
  | «try» => exact (World.openGuard_silent i).bind fun _ => pure _
  | tryElsewhere => exact (World.tryElsewhere_silent i).bind fun _ => pure _
  | suspend => exact (World.openSuspension_silent i).bind fun _ => pure _
  | leave =>
      refine World.closeGuard_silent.bind fun g => ?_
      rcases g with _ | (_ | _)
      · exact pure _
      · exact pure _
      · exact pure _
  | look => exact pure _

theorem lockReport_silent (action : LockAction) (i : InterpId) :
    Act.Silent (lockReport action i) :=
  (moveLock_silent i action).bind fun _ => .get_bind fun _ => pure _

theorem releaseBinding_silent (b : Binding) : Act.Silent (releaseBinding b) :=
  Act.Silent.bind (fun w => .dropBinding w b) fun _ => .get_bind fun _ => pure _

theorem threadVar_delivers (x : String) : (threadVar x).Delivers id :=
  reads_bind fun _ => DynOp.ofOption_delivers _ _

theorem makeShared_steady (hh : h.Delivers) (x : String) (source : SharedSource) :
    ((makeShared x source).perform h).Steady := by
  refine ofThrown_steady (bind (makeGroup_delivers hh source) fun found => reads_bind fun _ => ?_)
  refine act_bind (World.showTwin_quiet _).silent fun _ => reads_bind fun _ => ?_
  exact modify_bind (fun w => .setVar w x _) (pure _)

theorem dropVar_steady (x : String) : ((dropVar x).perform h).Steady := by
  refine Act.Silent.steady ((World.takeVar_silent x).bind fun b => ?_)
  cases b with
  | none => exact pure _
  | some b => exact (releaseBinding_silent b).bind fun _ => pure _

theorem resolveCall_steady (hh : h.Delivers) (ref : ClassRef) (className name : String)
    (constOnly : Bool) (args : CallArgs) :
    (resolveCall h ref className name constOnly args).Steady := by
  cases args with
  | native es =>
      refine ofFailed_steady (bind (findNative_delivers _) fun table => ?_)
      exact withNativeArgs_delivers hh es fun vs =>
        resolveIn_delivers table (Crossing.fromNative_silent vs) className name constOnly
  | dynamic es =>
      refine afterOperands_steady (evalDynList_delivers hh {} es []) fun vs => ofFailed_steady ?_
      refine holding (bind (findNative_delivers _) fun table => ?_)
      exact resolveIn_delivers table (Crossing.fromDynamic_silent _ vs) className name constOnly

theorem structureText_steady (hh : h.Delivers) (what : StructureOf) :
    (structureText h what).Steady := by
  cases what with
  | native label => exact ofThrown_steady (bind (find_delivers _) fun c => reads _)
  | dynamic label => exact ofThrown_steady (bind (find_delivers _) fun c => pure _)
  | function label => exact ofThrown_steady (bind (find_delivers _) fun f => reads _)
  | method label name => exact ofThrown_steady (bind (find_delivers _) fun c => pure _)
  | shared x =>
      refine ofThrown_steady (bind (DynOp.named_delivers _ _) fun i => ?_)
      refine modify_bind (fun w => .cloneShared w i) (reads_bind fun _ => ?_)
      exact modify_bind (fun w => .dropShared w i) (pure _)
  | nativeValue e => exact ofFailed_steady (withNative_delivers hh e fun v => reads _)
  | dynValue e => exact ofThrown_steady (withDynamic_delivers hh e fun v => reads _)

/-- Whether a step is a request to declare a dynamic class. -/
def Declares : Step → Prop
  | .declareClass .. => True
  | _ => False

theorem perform_steady (hh : h.Delivers) {st : Step} (hst : ¬st.Declares) :
    (st.perform h).Steady := by
  cases st with
  | declareClass => exact absurd trivial hst
  | declareNative label spec => exact ofFailed_steady (declareNativeClass_delivers hh label spec)
  | declareFunction label name params ret body release =>
      intro w
      exact .of_eq rfl rfl rfl
  | declareInterp label o => exact World.declareInterp_steady label o
  | declareVec x element =>
      intro w
      have hpushed : w.Silent { w with vecs := w.vecs.push ⟨element, [], 1⟩ } :=
        .of_eq rfl rfl rfl rfl
      exact (hpushed.trans (.setVar _ x _)).steady
  | declareSignal x =>
      intro w
      have hpushed : w.Silent { w with signals := w.signals.push false } := .of_eq rfl rfl rfl rfl
      exact (hpushed.trans (.setVar _ x _)).steady
  | makeShared x source => exact makeShared_steady hh x source
  | evalDyn e x => exact ofThrown_steady (evalDyn_delivers hh e x)
  | evalNative e x => exact ofFailed_steady (evalNative_delivers hh e x)
  | dropVar x => exact dropVar_steady x
  | countHandles x => exact Act.Silent.steady (.get_bind fun _ => pure _)
  | stop x => exact ofThrown_steady (stopSignal_delivers x)
  | nativeInfo label =>
      exact ofThrown_steady (bind (find_delivers _) fun c =>
        act (Inspect.nativeClass_quiet c).silent)
  | nativeQuery label name => exact ofThrown_steady (bind (find_delivers _) fun c => reads _)
  | slotPosition ref key => exact ofThrown_steady (bind (find_delivers _) fun table => pure _)
  | resolve ref className name constOnly args =>
      exact resolveCall_steady hh ref className name constOnly args
  | setMethodGate label method release =>
      exact ofFailed_steady (gateMethods_delivers label method release)
  | setFunctionGate label release => exact ofThrown_steady (gateFunction_delivers label release)
  | compose bases contains =>
      exact ofFailed_steady (bind (findNative_delivers _) fun bs => ofExcept_bind fun _ => pure _)
  | layout bases names within =>
      exact ofThrown_steady (bind (find_delivers _) fun bs =>
        act (Inspect.layout_quiet _ names within).silent)
  | classInfo label => exact ofThrown_steady (bind (find_delivers _) fun c => reads _)
  | classQuery label name =>
      exact ofThrown_steady (bind (find_delivers _) fun c =>
        act (Inspect.classQuery_quiet c name).silent)
  | inspect e => exact ofThrown_steady (withObject_delivers hh e fun t => reads _)
  | counters interp handoffs => exact ofThrown_steady (bind (find_delivers _) fun i => reads _)
  | diagnostics interp =>
      exact ofThrown_steady (bind (find_delivers _) fun i => reads_bind fun _ => pure _)
  | «structure» what => exact structureText_steady hh what
  | lock action interp =>
      exact ofThrown_steady (bind (find_delivers _) fun i => act (lockReport_silent action i))
  | spawn x e interp => exact ofThrown_steady (startThread_delivers x e interp)
  | join x => exact ofThrown_steady (joinThread_delivers x)
  | joinTimeout x =>
      exact ofThrown_steady (bind (threadVar_delivers x) fun _ => reads_bind fun _ => pure _)
  | isAlive x => exact ofThrown_steady (bind (threadVar_delivers x) fun _ => reads _)
  | coerce e ty =>
      exact ofFailed_steady (withNative_delivers hh e fun v => act
        ((Crossing.coerceNative_silent v ty).bind (showOptional_silent presentNative_silent)))
  | readAs e ty =>
      exact ofFailed_steady (withNative_delivers hh e fun v => reads_bind fun _ =>
        ofExcept_bind fun n => act (World.showNative_quiet n).silent)
  | toNative e ty context =>
      refine afterOperands_steady (e.eval_delivers hh {}) fun v => ofFailed_steady (holding ?_)
      exact act_bind (Crossing.toNative_silent context v ty) fun _ => ofExcept_bind fun n =>
        act (presentNative_silent n)
  | returnToNative e ty context strict =>
      refine afterOperands_steady (e.eval_delivers hh {}) fun v => ofFailed_steady ?_
      exact act_bind (Crossing.returnToNative_silent context strict v ty) fun _ =>
        ofExcept_bind fun n => act (presentNative_silent n)
  | toDynamic e =>
      exact ofFailed_steady (bind (e.eval_delivers hh {}) fun v =>
        act ((Crossing.toDynamic_silent v).bind presentDyn_silent))
  | widens e ty => exact ofThrown_steady (withDynamic_delivers hh e fun v => pure _)
  | raw e =>
      refine afterOperands_steady (e.eval_delivers hh {}) fun v => ofFailed_steady (holding ?_)
      refine bind ?_ fun n => act (presentNative_silent n)
      exact act_bind (Crossing.lendToRaw_silent v) fun _ => NativeOp.ofOption_delivers _ _
  | argsToNative es params fit =>
      exact ofThrown_steady (withArgs_delivers hh es fun vs => act
        ((Crossing.argsToNative_silent _ vs params fit).bind
          (showOptional_silent presentAll_silent)))
  | coerceArgs es params fit =>
      exact ofFailed_steady (withNativeArgs_delivers hh es fun vs => act
        ((Crossing.coerceArgs_silent vs params fit).bind (showOptional_silent presentAll_silent)))
  | dynValue e =>
      exact ofThrown_steady (withDynamic_delivers hh e fun v =>
        act (Inspect.dynValue_quiet v).silent)
  | nativeValue e =>
      exact ofFailed_steady (withNative_delivers hh e fun v =>
        act (Inspect.nativeValue_quiet v).silent)
  | describeType | slotKey | access | copyPolicy | ownership | failure | «exception» | pending
  | warning =>
      intro w
      exact .refl w

end Step

end TwinObject
