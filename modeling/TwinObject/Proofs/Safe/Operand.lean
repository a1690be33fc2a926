/-
Operands of a step are safe.  What code at the top level gives is held while the
step uses it.  Steps on two hosts give the same answer in the same world, unless
they are never answered.
-/
import TwinObject.Proofs.Safe.Declare

namespace TwinObject

open Hold

/-- Whether two hosts come to the same answer from a world on.  `take` is used
up, and what waiting threads hold stays as it is. -/
def Act.Answers (take : Hold) (w : World) (a a' : Act Answer) : Prop :=
  ∀ E, Attained w (E + take) →
    a w = a' w ∧ ((a w).1 = .stuck ∨ Attained (a w).2 E ∧ Persists w (a w).2)

namespace Act.Answers

variable {ε α : Type} {take : Hold} {give : α → Hold} {post : α → World → Prop} {w : World}

theorem pure (r : Answer) : Answers 0 w (Pure.pure r) (Pure.pure r) :=
  fun E hattained => ⟨rfl, Or.inr ⟨hattained.cast (add_zero E).symm, .refl w⟩⟩

theorem bind {a : Act α} {g : α → Hold} {k k' : α → Act Answer} (ha : Act.Safe 0 take g w a)
    (hk : Answers (g (a w).1) (a w).2 (k (a w).1) (k' (a w).1)) :
    Answers take w (a >>= k) (a >>= k') := by
  intro E hattained
  obtain ⟨hthere, hpersists, -⟩ := Attained.act (R := E) (hattained.cast (by rw [add_zero])) ha
  obtain ⟨heq, hend⟩ := hk E (hthere.cast (by rw [add_zero]))
  refine ⟨heq, hend.imp_right fun ⟨hlater, hsince⟩ => ⟨hlater, hpersists.trans hsince⟩⟩

theorem modify_bind {f : World → World} {k k' : Unit → Act Answer}
    (hf : ∀ R, Reachable w R → Path w R (f w) R) (hk : Answers 0 (f w) (k ()) (k' ())) :
    Answers 0 w (modify f >>= k) (modify f >>= k') := by
  refine bind (a := modify f) (g := fun _ => 0) (fun R hreach => ?_) hk
  exact hf _ hreach

/-- Code that comes to an end answers there; code that does not is not answered. -/
theorem ofCourse {m m' : Run ε α} {value value' : α → Act Answer} {raised : ε → Answer}
    (hm : Run.Ensures 0 take give post w m m')
    (hvalue : ∀ r u, Persists w u → post r u → Answers (give r) u (value r) (value' r)) :
    Answers take w (Answer.ofCourse value raised m) (Answer.ofCourse value' raised m') := by
  intro E hattained
  -- No other thread has a turn at the top level.
  have hruns := hm False ∅ E False.elim (hattained.cast (by rw [add_zero]))
  unfold Answer.ofCourse
  generalize m w = c, m' w = c' at hruns ⊢
  cases hruns with
  | @ended e _ _ u _ hpersists _ hend =>
      replace hend := hend.1
      cases e with
      | value r =>
          obtain ⟨heq, hafter⟩ := hvalue r u hpersists hend.2 E (hend.1.cast (by rw [add_zero]))
          exact ⟨heq, hafter.imp_right fun ⟨hlater, hsince⟩ => ⟨hlater, hpersists.trans hsince⟩⟩
      | raised e => exact ⟨rfl, Or.inr ⟨hend.cast (add_zero E).symm, hpersists⟩⟩
      | panicked text => exact ⟨rfl, Or.inl rfl⟩
  | exhausted => exact ⟨rfl, Or.inl rfl⟩
  | paused => exact ⟨rfl, Or.inl rfl⟩

theorem ofThrown {m m' : Run Thrown Report} (hm : Run.Safe 0 take (fun _ => 0) w m m') :
    Answers take w (Answer.ofThrown m) (Answer.ofThrown m') :=
  ofCourse hm fun r _ _ _ => pure (.ok r)

theorem ofFailed {m m' : Run Failure Report} (hm : Run.Safe 0 take (fun _ => 0) w m m') :
    Answers take w (Answer.ofFailed m) (Answer.ofFailed m') :=
  ofCourse hm fun r _ _ _ => pure (.ok r)

theorem afterOperands {m m' : Run Thrown α} {next next' : α → Act Answer}
    (hm : Run.Safe 0 take give w m m')
    (hnext : ∀ r u, Persists w u → Answers (give r) u (next r) (next' r)) :
    Answers take w (Answer.afterOperands m next) (Answer.afterOperands m' next') :=
  ofCourse hm fun r u hpersists _ => hnext r u hpersists

end Act.Answers

/-- Code at the top level refers to nothing. -/
theorem DynFrame.Lent.top (F : Hold) : DynFrame.Lent F {} where
  this t ht := by cases ht
  args := LendsAll.nil

theorem NativeFrame.Lent.top (F : Hold) (w : World) : NativeFrame.Lent F w {} where
  this t ht := by cases ht
  args := LendsAll.nil
  site s hs := by cases hs

namespace Operand

open Run.Ensures

variable {α : Type} {F : Hold} {give : α → Hold} {w : World} {h h' : Host}

section Evaluated

theorem dynamic_safe (hsafe : h.Safe h') (e : DynExpr) :
    Run.Safe F 0 DynValue.hold w (dynamic h e) (dynamic h' e) :=
  e.eval_safe hsafe (.top F)

theorem native_safe (hsafe : h.Safe h') (e : NativeExpr) :
    Run.Safe F 0 NativeValue.hold w (native h e) (native h' e) :=
  e.eval_safe hsafe (.top F w)

theorem withObject_safe (hsafe : h.Safe h') (e : DynExpr) {m m' : TwinId → Run Thrown α}
    (hm : ∀ t u, Run.Safe (F + Hold.dynamic t) 0 give u (m t) (m' t)) :
    Run.Safe F 0 give w (withObject h e m) (withObject h' e m') :=
  DynOp.object_bind (dynamic_safe hsafe e) fun t u _ => hm t u

theorem withDynamic_safe (hsafe : h.Safe h') (e : DynExpr) {m m' : DynValue → Run Thrown α}
    (hm : ∀ v u, Run.Safe (F + v.hold) 0 give u (m v) (m' v)) :
    Run.Safe F 0 give w (withDynamic h e m) (withDynamic h' e m') :=
  andThen (dynamic_safe hsafe e) fun v u _ _ => holding (hm v u)

theorem withNative_safe (hsafe : h.Safe h') (e : NativeExpr) {m m' : NativeValue → Run Failure α}
    (hm : ∀ v u, Run.Safe (F + v.hold) 0 give u (m v) (m' v)) :
    Run.Safe F 0 give w (withNative h e m) (withNative h' e m') :=
  andThen (native_safe hsafe e) fun v u _ _ => holding (hm v u)

theorem withArgs_safe (hsafe : h.Safe h') (es : List DynExpr) {m m' : List DynValue → Run Thrown α}
    (hm : ∀ vs u, Persists w u → Run.Safe (F + DynValue.holdAll vs) 0 give u (m vs) (m' vs)) :
    Run.Safe F 0 give w (withArgs h es m) (withArgs h' es m') :=
  andThen (evalDynList_safe hsafe es (.top F) []) fun vs u hpersists _ =>
    holding (hm vs u hpersists)

theorem withNativeArgs_safe (hsafe : h.Safe h') (es : List NativeExpr)
    {m m' : List NativeValue → Run Failure α}
    (hm : ∀ vs u, Run.Safe (F + NativeValue.holdAll vs) 0 give u (m vs) (m' vs)) :
    Run.Safe F 0 give w (withNativeArgs h es m) (withNativeArgs h' es m') :=
  andThen (evalNativeList_safe hsafe es (.top F w) []) fun vs u _ _ => holding (hm vs u)

end Evaluated

section Found

variable {β : Type}

theorem find_bind {post : α → World → Prop} {f : World → Except Thrown β} {k k' : β → Run Thrown α}
    (hk : ∀ b, f w = .ok b → Run.Ensures F 0 give post w (k b) (k' b)) :
    Run.Ensures F 0 give post w (find f >>= k) (find f >>= k') := by
  refine assoc (reads_bind ?_)
  cases hfound : f w with
  | ok b => exact hk b hfound
  | error e => exact raise

/-- An interpreter that is found by its name exists. -/
theorem interp_bind {name : String} {k k' : InterpId → Run Thrown α}
    (hk : ∀ i, i < w.interps.size → Run.Safe F 0 give w (k i) (k' i)) :
    Run.Safe F 0 give w (find (·.interpNamed name) >>= k) (find (·.interpNamed name) >>= k') := by
  refine knowing (fun R hreach => hreach.invariant.homed.seated) fun hseated => ?_
  refine find_bind fun i hi => hk i ?_
  cases hnamed : w.interpNamed? name with
  | none => rw [World.interpNamed, hnamed] at hi; cases hi
  | some j =>
      rw [World.interpNamed, hnamed] at hi
      cases hi
      exact hseated.named name i hnamed

theorem findNative_bind {f : World → Except Thrown β} {k k' : β → Run Failure α}
    (hk : ∀ b, f w = .ok b → Run.Safe F 0 give w (k b) (k' b)) :
    Run.Safe F 0 give w (findNative f >>= k) (findNative f >>= k') := by
  refine assoc (reads_bind ?_)
  cases hfound : f w with
  | ok b => exact hk b hfound
  | error e => exact raise

theorem mem_natives_of_named {label : String} {c : NativeClass}
    (hfound : w.nativeNamed label = .ok c) : (label, c) ∈ w.scope.natives := by
  unfold World.nativeNamed at hfound
  cases hget : w.scope.natives.get? label with
  | none => rw [hget] at hfound; cases hfound
  | some d =>
      rw [hget] at hfound
      cases hfound
      exact Bindings.mem_of_get? hget

theorem mem_classes_of_named {label : String} {c : DynamicClass}
    (hfound : w.classNamed label = .ok c) : (label, c) ∈ w.scope.classes := by
  unfold World.classNamed at hfound
  cases hget : w.scope.classes.get? label with
  | none => rw [hget] at hfound; cases hfound
  | some d =>
      rw [hget] at hfound
      cases hfound
      exact Bindings.mem_of_get? hget

theorem mem_natives_of_all {labels : List String} {cs : List NativeClass}
    (hfound : w.nativesNamed labels = .ok cs) :
    ∀ c ∈ cs, ∃ label, (label, c) ∈ w.scope.natives := by
  unfold World.nativesNamed at hfound
  induction labels generalizing cs with
  | nil =>
      cases hfound
      exact fun c hc => by cases hc
  | cons label labels ih =>
      rw [World.findAll] at hfound
      cases hget : w.scope.natives.get? label with
      | none => rw [hget] at hfound; cases hfound
      | some d =>
          rw [hget] at hfound
          cases hrest : World.findAll "native class" (w.scope.natives.get? ·) labels with
          | error e => simp only [hrest] at hfound; cases hfound
          | ok ds =>
              simp only [hrest] at hfound
              cases hfound
              intro c hc
              rcases List.mem_cons.mp hc with rfl | hc
              · exact ⟨label, Bindings.mem_of_get? hget⟩
              · exact ih hrest c hc

end Found

section Defaults

/-- The default of a parameter, if it has one. -/
theorem default_safe (hsafe : h.Safe h') (default : Option NativeExpr) :
    Run.Safe F 0 (fun r => ofHandles (r.elim [] NativeValue.handles)) w (default.mapM (native h))
      (default.mapM (native h')) := by
  cases default with
  | none => exact value trivial rfl
  | some e => exact andThen (native_safe hsafe e) fun v _ _ _ => value trivial rfl

theorem params_safe (hsafe : h.Safe h') (ps : List ParamSpec) (done : List Param) :
    Run.Safe F (ofHandles (done.flatMap Param.handles))
      (fun ps => ofHandles (ps.flatMap Param.handles)) w (params h done ps)
        (params h' done ps) := by
  induction ps generalizing done w with
  | nil => exact value trivial rfl
  | cons p ps ih =>
      refine andThen (unwinding (default_safe hsafe p.default)) fun default u _ _ => ?_
      refine (ih (done ++ [⟨p.name, p.type, default⟩])).cast ?_ fun _ => rfl
      rw [List.flatMap_append, ofHandles_append, List.flatMap_singleton]
      rfl

/-- Members at hand are let go too if the default of a parameter fails. -/
theorem constructors_safe (hsafe : h.Safe h') (ms : List MemberDecl) (cs : List ConstructorSpec)
    (done : List Constructor) :
    Run.Safe F (ofHandles (ms.flatMap MemberDecl.handles ++ done.flatMap Constructor.handles))
      (fun cs => ofHandles (ms.flatMap MemberDecl.handles ++ cs.flatMap Constructor.handles)) w
      (constructors h ms done cs) (constructors h' ms done cs) := by
  induction cs generalizing done w with
  | nil => exact value trivial rfl
  | cons c cs ih =>
      refine andThen (unwinding (params_safe hsafe c.params [])) fun ps u _ _ => ?_
      refine (ih (done ++ [⟨ps, c.access, c.body⟩])).cast ?_ fun _ => rfl
      rw [List.flatMap_append, ← List.append_assoc, ofHandles_append _ (List.flatMap _ [_]),
        List.flatMap_singleton]
      rfl

theorem declareMember_safe (name : String) (type : NativeType) (access : Access) (v : NativeValue) :
    Act.Safe F v.hold (fun d => ofHandles d.handles) w
      (World.declareMember name type access v) := by
  intro R hreach
  have hheld : ∀ h ∈ (MemberDecl.declare w.census name type access v).handles,
      w.Held (R + F + v.hold) h.twin := by
    intro h hh
    refine World.Held.of_handle (Multiset.mem_add.mpr (Or.inr ?_))
    refine Multiset.mem_coe.mpr (List.mem_map_of_mem ?_)
    unfold MemberDecl.handles MemberDecl.declare at hh
    cases hcoerce : v.coerce w.census type with
    | some c =>
        rw [hcoerce] at hh
        exact NativeValue.handles_coerce hcoerce h hh
    | none =>
        rw [hcoerce] at hh
        cases type <;> cases hh
  refine (Path.retainAll _ hheld).trans ((Path.drop v.handles).cast ?_ rfl)
  rw [add_right_comm]
  rfl

/-- Each default is of the type of its member. -/
theorem members_safe (hsafe : h.Safe h') (ms : List MemberSpec) (done : List MemberDecl)
    (hdone : ∀ d ∈ done, w.Fits d.type d.default) :
    Run.Ensures F (ofHandles (done.flatMap MemberDecl.handles))
      (fun ms => ofHandles (ms.flatMap MemberDecl.handles))
      (fun ms u => ∀ d ∈ ms, u.Fits d.type d.default) w (members h done ms)
        (members h' done ms) := by
  induction ms generalizing done w with
  | nil => exact value hdone rfl
  | cons m ms ih =>
      refine andThen (unwinding (native_safe hsafe m.default)) fun v u hpersists _ => ?_
      refine act_bind (declareMember_safe m.name m.type m.access v).frame fun hlater => ?_
      refine (ih (done ++ [_]) fun d hd => ?_).cast ?_ fun _ => rfl
      · rcases List.mem_append.mp hd with hd | hd
        · exact (hdone d hd).mono (hpersists.trans hlater)
        · cases List.mem_singleton.mp hd
          exact (World.Fits.declare u m.name m.type m.access v).mono hlater
      · rw [List.flatMap_append, ofHandles_append, List.flatMap_singleton]

/-- A declaration comes with the handles in its defaults, and those of its members are
of their types. -/
theorem nativeDecl_safe (hsafe : h.Safe h') (s : NativeSpec) (parents : List NativeClass) :
    Run.Ensures F 0 (fun d => ofHandles d.handles)
      (fun d u => d.parents = parents ∧ ∀ m ∈ d.members, u.Fits m.type m.default) w
      (nativeDecl h s parents) (nativeDecl h' s parents) := by
  refine andThen (members_safe hsafe s.members [] fun d hd => by cases hd) fun ms u _ hms => ?_
  refine andThen ((constructors_safe hsafe ms s.constructors []).cast ?_ fun _ => rfl)
    fun cs _ hlater _ => value ⟨rfl, fun m hm => (hms m hm).mono hlater⟩ rfl
  rw [List.flatMap_nil, List.append_nil]

end Defaults

section Shown

/-- What was shown is let go. -/
theorem present_safe {shown : Act Report} (hquiet : shown.Quiet) (hs : List Handle) :
    Act.Safe F (ofHandles hs) (fun _ => 0) w (do
      let r ← shown
      modify (·.drop hs)
      return r) := by
  refine Act.Safe.bind hquiet.safe fun _ => ?_
  exact Act.Safe.of_path rfl fun R _ => (Path.drop hs).cast rfl (add_zero _)

theorem presentNative_safe (v : NativeValue) :
    Act.Safe F v.hold (fun _ => 0) w (presentNative v) :=
  present_safe (World.showNative_quiet v) v.handles

theorem presentDyn_safe (v : DynValue) : Act.Safe F v.hold (fun _ => 0) w (presentDyn v) :=
  present_safe (World.showDyn_quiet v) v.handles

theorem presentAll_safe (vs : List NativeValue) :
    Act.Safe F (NativeValue.holdAll vs) (fun _ => 0) w (presentAll vs) := by
  refine Act.Safe.bind (Act.Quiet.mapM World.showNative_quiet vs).safe fun _ => ?_
  exact Act.Safe.of_path rfl fun R _ => (Path.drop _).cast rfl (add_zero _)

/-- An optional result that is shown and let go. -/
theorem showOptional_safe {β : Type} {f : β → Act Report} {g : β → Hold} (o : Option β)
    (hf : ∀ b u, Act.Safe F (g b) (fun _ => 0) u (f b)) :
    Act.Safe F (o.elim 0 g) (fun _ => 0) w (World.showOptional f o) := by
  cases o with
  | none => exact .pure rfl
  | some b => exact Act.Safe.bind (hf b w) fun _ => .pure rfl

end Shown

end Operand

end TwinObject
