/-
Exceptions cross frames of both sides as they are.  Whatever code is called on the way, an
exception that dynamic code raises and nobody catches comes back to every dynamic caller as
the same exception, and to every native caller as an error that carries it.
-/
import TwinObject.Proofs.Delivery.Session
import TwinObject.Proofs.History

namespace TwinObject

/-- Code that delivers, and came to an end without a wait, ends with the last exception
that was raised in it if nothing was caught since. -/
theorem Run.Delivers.of_threw {ε α : Type} {seen : Thrown → ε} {m : Run ε α}
    (hm : m.Delivers seen) {w u : World} {e : Ending ε α} (hend : m w = .ended e u)
    {before after : List Event} {t : Thrown}
    (hjournal : u.journal.toList = w.journal.toList ++ (before ++ .threw t :: after))
    (hplain : Event.Plain after) : e = .raised (seen t) := by
  have hcourse := hm w
  rw [hend] at hcourse
  cases hcourse with
  | ended hbears hpost =>
      refine hpost t ?_
      rw [← hbears.flight, hjournal, List.drop_left' Array.length_toList]
      exact (Event.flight_eq_some_iff _ t).mpr ⟨before, after, rfl, hplain⟩

/-- Whether all code that runs on a host delivers the exceptions that are raised in it, and
so do all calls and constructions, whoever makes them. -/
structure Host.CallsDeliver (h : Host) : Prop where
  code : ∀ (e : DynExpr) (f : DynFrame), (e.eval h f).Delivers id
  nativeCode : ∀ (e : NativeExpr) (f : NativeFrame), (e.eval h f).Delivers Thrown.capture
  /-- To native callers: virtual calls, which run overrides in stubs, and calls past them. -/
  stub : ∀ (c : DynamicClass) (slot : Slot) (m : Method) (t : TwinId) (args : List NativeValue),
    (Call.runOverride h c slot m t args).Delivers Thrown.capture
  slot : ∀ (t : TwinId) (index : Nat) (args : List NativeValue),
    (Call.callSlot h t index args).Delivers Thrown.capture
  virtual : ∀ (constOnly : Bool) (t : TwinId) (name : String) (args : List NativeValue),
    (Call.callVirtual h constOnly t name args).Delivers Thrown.capture
  direct : ∀ (t : TwinId) (name : String) (args : List NativeValue),
    (Call.callMethodNative h t name args).Delivers Thrown.capture
  base : ∀ (t : TwinId) (c : NativeClass) (name : String) (args : List NativeValue),
    (Call.callBaseNative h t c name args).Delivers Thrown.capture
  free : ∀ (f : NativeFunction) (args : List NativeValue),
    (Call.invoke h f args).Delivers Thrown.capture
  gated : ∀ (i : InterpId) (g : Gate) (f : NativeFrame) (body : NativeExpr),
    (Call.gated i g (h.native f body)).Delivers Thrown.capture
  constructor : ∀ (s : Site) (g : ArgGroup) (fromDerived : Bool),
    (Construction.constructOwn h s g fromDerived).Delivers Thrown.capture
  construct : ∀ (c : NativeClass) (i : InterpId) (args : List NativeValue),
    (Construction.construct h c i args).Delivers Thrown.capture
  /-- To dynamic callers, who are given exceptions back: methods of either side, base calls,
  free functions, initializers and new instances. -/
  method : ∀ (t : TwinId) (name : String) (args : List DynValue),
    (Call.callMethod h t name args).Delivers id
  native : ∀ (t : TwinId) (name : String) (args : List DynValue),
    (Run.mapError Failure.raise (Call.callNativeMethod h t name args)).Delivers id
  dynamicBase : ∀ (t : TwinId) (c : NativeClass) (name : String) (args : List DynValue),
    (DynOp.callBase h t c name args).Delivers id
  function : ∀ (i : InterpId) (f : NativeFunction) (args : List DynValue),
    (Call.callFunction h i f args).Delivers id
  initializer : ∀ (entry : Entry) (c : DynamicClass) (t : TwinId) (args : List DynValue),
    (Construction.initializeAs h entry c t args).Delivers id
  superInit : ∀ (t : TwinId) (args : List DynValue),
    (Run.mapError Failure.raise (Construction.superInit h t args)).Delivers id
  superGroups : ∀ (t : TwinId) (groups : List ArgGroup),
    (Run.mapError Failure.raise (Construction.superGroups h t groups)).Delivers id
  initBase : ∀ (t : TwinId) (c : NativeClass) (args : List DynValue),
    (DynOp.initBase h t c args).Delivers id
  instantiate : ∀ (this : Option TwinId) (cls : String) (args : List DynValue),
    (DynOp.new h this cls args).Delivers id

open Run.Delivers in
theorem Host.Delivers.calls {h : Host} (hh : h.Delivers) : h.CallsDeliver where
  code e f := e.eval_delivers hh f
  nativeCode e f := e.eval_delivers hh f
  stub := Call.runOverride_delivers hh
  slot := Call.callSlot_delivers hh
  virtual := Call.callVirtual_delivers hh
  direct := Call.callMethodNative_delivers hh
  base := Call.callBaseNative_delivers hh
  free := Call.invoke_delivers hh
  gated i g f body := Call.gated_delivers i g (hh.native f body)
  constructor := Construction.constructOwn_delivers hh
  construct := Construction.construct_delivers hh
  method := Call.callMethod_delivers hh
  native t name args := given_back (Call.callNativeMethod_delivers hh t name args)
  dynamicBase t c name args := given_back (Call.callBaseDynamic_delivers hh t c name args)
  function := Call.callFunction_delivers hh
  initializer := Construction.initializeAs_delivers hh
  superInit t args := given_back (Construction.superInit_delivers hh t args)
  superGroups t groups := given_back (Construction.superGroups_delivers hh t groups)
  initBase := DynOp.initBase_delivers hh
  instantiate := DynOp.new_delivers hh

section Results

/-- Whether a value is a result for a slot of the given return type. -/
def DynValue.fitsResult (census : Census) (strictVoid : Bool) (ty : NativeType) (v : DynValue) :
    Bool :=
  match ty, v with
  | .void, .none => true
  | .void, _ => !strictVoid
  | .bool, .bool _ | .int, .int _ | .int, .bool _ | .double, .float _ | .double, .int _
  | .str, .str _ | .ptr _, .none => true
  | .object c, .object t | .ref c, .object t | .ptr c, .object t => census.isA t c
  | _, _ => false

/-- A result that does not fit is refused, and nothing is done with it. -/
theorem Crossing.resultToNative_misfit (context : String) {strict : Bool} {v : DynValue}
    {ty : NativeType} {w : World} (hmisfit : v.fitsResult w.census strict ty = false) :
    resultToNative context strict v ty w
      = (.error (.typeMismatch context ty.text (v.typeName w.census)), w) := by
  cases ty with
  | void =>
      cases v with
      | none => cases hmisfit
      | _ =>
          have hstrict : strict = true := by simpa [DynValue.fitsResult] using hmisfit
          rw [hstrict]
          rfl
  | object c | ref c | ptr c =>
      cases v with
      | object t =>
          have hother : w.isA t c = false := hmisfit
          simp [resultToNative, toNative, hother]
      | _ => simp_all [DynValue.fitsResult, resultToNative, toNative]
  | _ => cases v <;> simp_all [DynValue.fitsResult, resultToNative, toNative]

/-- What stands in the way of a duplicate is a copy policy. -/
theorem Twin.obstacle_unavailable {t : Twin} {operation : Duplication} {f : Failure}
    (hobstacle : t.obstacle? operation = some f) : ∃ name, f = .copyUnavailable name operation := by
  unfold obstacle? at hobstacle
  split at hobstacle
  · cases hobstacle
  · obtain ⟨c, -, rfl⟩ := Option.map_eq_some_iff.mp hobstacle
    exact ⟨c.name, rfl⟩

theorem World.copyTwin_unavailable {t : TwinId} {w : World} {f : Failure}
    (herror : (copyTwin t w).1 = .error f) : ∃ name, f = .copyUnavailable name .copy := by
  simp only [copyTwin] at herror
  split at herror
  · rename_i hobstacle
    obtain rfl := Except.error.inj herror
    exact Twin.obstacle_unavailable hobstacle
  · cases herror

theorem World.moveTwin_unavailable {t : TwinId} {w : World} {f : Failure}
    (herror : (moveTwin t w).1 = .error f) : ∃ name, f = .copyUnavailable name .move := by
  simp only [moveTwin] at herror
  split at herror
  · rename_i hobstacle
    obtain rfl := Except.error.inj herror
    exact Twin.obstacle_unavailable hobstacle
  · cases herror

theorem World.materializeTwin_unavailable {t : TwinId} {w : World} {f : Failure}
    (herror : (materializeTwin t w).1 = .error f) :
    ∃ name operation, f = .copyUnavailable name operation := by
  simp only [materializeTwin] at herror
  split at herror
  · exact ⟨_, _, (copyTwin_unavailable herror).choose_spec⟩
  · split at herror
    · exact ⟨_, _, (moveTwin_unavailable herror).choose_spec⟩
    · exact ⟨_, _, (copyTwin_unavailable herror).choose_spec⟩

/-- A result that fits is refused only for want of a duplicate. -/
theorem Crossing.resultToNative_fit {context : String} {strict : Bool} {v : DynValue}
    {ty : NativeType} {w : World} {f : Failure} (hfits : v.fitsResult w.census strict ty = true)
    (herror : (resultToNative context strict v ty w).1 = .error f) :
    ∃ name operation, f = .copyUnavailable name operation := by
  cases ty with
  | void =>
      cases v with
      | none => cases herror
      | _ =>
          have hlax : strict = false := by simpa [DynValue.fitsResult] using hfits
          rw [hlax] at herror
          cases herror
  | object c =>
      cases v with
      | object t =>
          have hisA : w.isA t c = true := hfits
          simp only [resultToNative, hisA, if_true] at herror
          split at herror
          · cases herror
          · rename_i e u hmaterialize
            obtain rfl := Except.error.inj herror
            exact World.materializeTwin_unavailable (by rw [hmaterialize])
      | _ => cases hfits
  | ptr c =>
      cases v with
      | object t =>
          have hisA : w.isA t c = true := hfits
          simp only [resultToNative, toNative, hisA, if_true] at herror
          split at herror <;> cases herror
      | _ => simp_all [DynValue.fitsResult, resultToNative, toNative]
  | _ => cases v <;> simp_all [DynValue.fitsResult, resultToNative, toNative, World.census]

/-- What the end of an override's body is to the native caller of its stub. -/
def Call.stubEnd (c : DynamicClass) (slot : Slot) (w : World) :
    Ending Thrown DynValue → Ending Failure NativeValue
  | .value v =>
      let context := "return value of '" ++ c.name ++ "::" ++ slot.key.name ++ "'"
      let strict := (w.interp c.interp).options.strictVoid
      match (Crossing.returnToNative context strict v slot.ret w).1 with
      | .ok n => .value n
      | .error f => .raised f
  | .raised t => .raised t.capture
  | .panicked text => .panicked text

/-- A stub refuses just those results for a mismatch that do not fit. -/
theorem Call.stubEnd_mismatch_iff (c : DynamicClass) (slot : Slot) (w : World) (v : DynValue) :
    (∃ context expected got, stubEnd c slot w (.value v)
      = .raised (.typeMismatch context expected got))
    ↔ v.fitsResult w.census (w.interp c.interp).options.strictVoid slot.ret = false := by
  let context := "return value of '" ++ c.name ++ "::" ++ slot.key.name ++ "'"
  let strict := (w.interp c.interp).options.strictVoid
  have hstub : stubEnd c slot w (.value v)
      = match (Crossing.resultToNative context strict v slot.ret w).1 with
        | .ok n => .value n
        | .error f => .raised f := rfl
  rw [hstub]
  constructor
  · rintro ⟨_, _, _, hmismatch⟩
    rw [Bool.eq_false_iff]
    intro hfits
    split at hmismatch
    · cases hmismatch
    · rename_i f herror
      obtain ⟨_, _, rfl⟩ := Crossing.resultToNative_fit hfits herror
      cases hmismatch
  · intro hmisfit
    rw [Crossing.resultToNative_misfit context hmisfit]
    exact ⟨_, _, _, rfl⟩

open Run.Carries in
/-- A stub ends with what the end of its override's body is to its caller, whichever host
runs the body. -/
theorem Call.runOverride_carries {h : Host} {t : TwinId} {m : Method}
    {post : Option Thrown → Ending Thrown DynValue → World → Prop}
    (hbody : ∀ args, (h.dynamic .slot t args m.body).Carries post none) (c : DynamicClass)
    (slot : Slot) (args : List NativeValue) :
    (runOverride h c slot m t args).Carries
      (fun f e _ => ∃ body u, post f body u ∧ e = stubEnd c slot u body) none := by
  refine locked (modify_bind (fun w => .count w c.interp _) (modify_bind (fun w => .retain w _) ?_))
  refine act_bind (.mapM Crossing.lendToDynamic_silent args) fun dynArgs => holding ?_
  -- A value is converted, an exception goes over to the native side, and a panic passes.
  refine outcome_cases (hbody dynArgs) (fun f v u hend => ?_) (fun f e u hend => ?_)
    fun f text u hend => ⟨.panicked text, u, hend, rfl⟩
  · let context := "return value of '" ++ c.name ++ "::" ++ slot.key.name ++ "'"
    let strict := (u.interp c.interp).options.strictVoid
    have hsilent := Crossing.returnToNative_silent context strict v slot.ret u
    have hstub : stubEnd c slot u (.value v)
        = match (Crossing.returnToNative context strict v slot.ret u).1 with
          | .ok n => .value n
          | .error f => .raised f := rfl
    change Course.Carries _ f u (Run.ofExcept _ (Crossing.returnToNative context strict v _ u).2)
    refine .since ?_ (hsilent.bears f)
    cases hresult : (Crossing.returnToNative context strict v slot.ret u).1 with
    | ok n =>
        refine .ended ((World.Silent.refl _).bears f) ⟨.value v, u, hend, ?_⟩
        rw [hstub, hresult]
    | error e =>
        refine .ended ((World.Silent.refl _).bears f) ⟨.value v, u, hend, ?_⟩
        rw [hstub, hresult]
  · refine modify_bind (fun w => .count w c.interp _) (fun v => ?_) u
    exact .ended ((World.Silent.refl v).bears f) ⟨.raised e, u, hend, rfl⟩

end Results

section Sessions

open Session

/-- The answer to code that delivers is the exception in flight, as its side sees it. -/
theorem Answer.of_delivers {ε : Type} {seen : Thrown → ε} {raised : ε → Answer}
    {m : Run ε Report} (hm : m.Delivers seen) {w : World} {before after : List Event} {t : Thrown}
    (hended : (Answer.ofCourse (fun r => pure (.ok r)) raised m w).1 ≠ .stuck)
    (hjournal : (Answer.ofCourse (fun r => pure (.ok r)) raised m w).2.journal.toList
      = w.journal.toList ++ (before ++ .threw t :: after))
    (hplain : Event.Plain after) :
    (Answer.ofCourse (fun r => pure (.ok r)) raised m w).1 = raised (seen t) := by
  unfold Answer.ofCourse at hended hjournal ⊢
  cases hcourse : m w with
  | ended e u =>
      simp only [hcourse] at hended hjournal ⊢
      have hraised : e = .raised (seen t) := by
        cases e with
        | value r => exact hm.of_threw hcourse hjournal hplain
        | raised e => exact hm.of_threw hcourse hjournal hplain
        | panicked text => exact absurd rfl hended
      rw [hraised]
  | paused held u ready next =>
      simp only [hcourse] at hended
      exact absurd rfl hended
  | exhausted u =>
      simp only [hcourse] at hended
      exact absurd rfl hended

/-- A step that evaluates code which delivers answers with the exception in flight. -/
theorem Session.step_of_delivers {ε : Type} {seen : Thrown → ε} {raised : ε → Answer} {h : Host}
    {st : Step} {s : Session} {m : Run ε Report} (hm : m.Delivers seen)
    (hfree : awaited? s.world st = none)
    (hperform : st.perform h = Answer.ofCourse (fun r => pure (.ok r)) raised m)
    {before after : List Event} {t : Thrown}
    (hjournal : (step h st s).2.world.journal.toList
      = s.world.journal.toList ++ (before ++ .threw t :: after)) (hplain : Event.Plain after) :
    (step h st s).1.1 = raised (seen t) := by
  obtain ⟨hanswer, hafter⟩ := step_of_free (h := h) hfree
  rw [hanswer]
  rcases hafter with ⟨-, hafter⟩ | ⟨hstuck, hafter⟩
  · rw [hafter] at hjournal
    exact absurd hjournal (by simp)
  · rw [hafter, hperform] at hjournal
    rw [hperform] at hstuck ⊢
    exact Answer.of_delivers hm hstuck hjournal hplain

end Sessions

open Session in
/-- An exception that dynamic code raises crosses all frames as it is, however deep calls of
both sides are nested.  It is in flight from where it is raised until it is caught; whatever
code it leaves on its way ends with it, neither with a value nor with another error, and
never in a panic or for want of depth.  Dynamic callers are given the same exception, native
callers a failure that carries it.  The stub of an override adds to this only that its
caller sees a result that does not fit as a mismatch, which carries no exception.  So after
every history code that is evaluated answers with the last exception that was raised in it,
if nothing was caught since. -/
theorem exceptions_delivered (depth : Nat) :
    (Host.nested .memo depth).CallsDeliver
    ∧ (∀ t : Thrown, t.capture = .propagated t ∧ t.capture.raise = t)
    ∧ (∀ (t : Thrown) (f : DynFrame) (w : World),
      (DynExpr.raise t).eval (Host.nested .memo depth) f w
        = .ended (.raised t) (w.record [.threw t]))
    ∧ (∀ (c : DynamicClass) (slot : Slot) (m : Method) (t : TwinId) (args : List NativeValue)
      (post : Option Thrown → Ending Thrown DynValue → World → Prop),
      (∀ args, ((Host.nested .memo depth).dynamic .slot t args m.body).Carries post none) →
        (Call.runOverride (Host.nested .memo depth) c slot m t args).Carries
          (fun f e _ => ∃ body u, post f body u ∧ e = Call.stubEnd c slot u body) none)
    ∧ (∀ (c : DynamicClass) (slot : Slot) (w : World) (v : DynValue),
      (∃ context expected got, Call.stubEnd c slot w (.value v)
        = .raised (.typeMismatch context expected got))
      ↔ v.fitsResult w.census (w.interp c.interp).options.strictVoid slot.ret = false)
    ∧ ∀ (steps : List Step) (x : Option String) (before past : List Event) (t : Thrown),
      Event.Plain past →
        let s := after (.nested .memo depth) steps
        (∀ e : DynExpr, (step (.nested .memo depth) (.evalDyn e x) s).2.world.journal.toList
            = s.world.journal.toList ++ (before ++ .threw t :: past) →
          (step (.nested .memo depth) (.evalDyn e x) s).1.1 = .thrown t)
        ∧ ∀ e : NativeExpr, (step (.nested .memo depth) (.evalNative e x) s).2.world.journal.toList
            = s.world.journal.toList ++ (before ++ .threw t :: past) →
          (step (.nested .memo depth) (.evalNative e x) s).1.1 = .failed (.propagated t) := by
  have hh : (Host.nested .memo depth).Delivers := Host.nested_delivers depth
  refine ⟨hh.calls, fun t => ⟨rfl, rfl⟩, fun t f w => ?_, fun c slot m t args post hbody =>
    Call.runOverride_carries hbody c slot args, Call.stubEnd_mismatch_iff,
    fun steps x before past t hplain => ⟨fun e => ?_, fun e => ?_⟩⟩
  · rw [DynExpr.eval]
    rfl
  · intro hjournal
    exact step_of_delivers (Step.evalDyn_delivers hh e x) rfl rfl hjournal hplain
  · intro hjournal
    exact step_of_delivers (Step.evalNative_delivers hh e x) rfl rfl hjournal hplain

end TwinObject
