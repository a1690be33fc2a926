/-
Calls and constructions deliver.  An exception that leaves the body of an override is
captured there, native frames carry it, and whatever dynamic code called gives it back.
-/
import TwinObject.Proofs.Delivery.Run
import TwinObject.Eval

namespace TwinObject

/-- Whether all that a host runs delivers the exceptions that are raised in it. -/
structure Host.Delivers (h : Host) : Prop where
  override : ∀ c index slot, (h.dispatcher.override c index slot).Silent
  noSlot : ∀ kind index, (h.dispatcher.noSlot kind index).Delivers Thrown.capture
  bare : ∀ slot, (h.dispatcher.bare slot).Delivers Thrown.capture
  native : ∀ f e, (h.native f e).Delivers Thrown.capture
  dynamic : ∀ entry t args e, (h.dynamic entry t args e).Delivers id

open Run.Delivers Run.Carries

/-- What native code ends with is what its dynamic caller is given back. -/
theorem Run.Delivers.given_back {α : Type} {m : Run Failure α} (hm : m.Delivers Thrown.capture) :
    (Run.mapError Failure.raise m).Delivers id :=
  mapError Thrown.raise_capture hm

/-- What dynamic code ends with is what native code carries on. -/
theorem Run.Delivers.captured {α : Type} {m : Run Thrown α} (hm : m.Delivers id) :
    (Run.mapError Thrown.capture m).Delivers Thrown.capture :=
  mapError (fun _ => rfl) hm

variable {h : Host}

namespace Construction

theorem constructOwn_delivers (hh : h.Delivers) (s : Site) (g : ArgGroup) (fromDerived : Bool) :
    (constructOwn h s g fromDerived).Delivers Thrown.capture := by
  refine modify_bind (fun w => .resetSegment w s) (reads_bind fun census => ?_)
  split
  · split
    · exact pure ()
    · exact raise _
  · refine act_bind (Choice.search_silent _ g fromDerived _ _ _) fun choice => ?_
    cases choice with
    | chosen c args =>
        exact holding (bind (hh.native _ c.body) fun result => modify fun w => .drop w _)
    | inaccessible => exact raise _
    | unfit => exact raise _

mutual

theorem constructClass_delivers (hh : h.Delivers) (t : TwinId) (g : ArgGroup)
    (fromDerived : Bool) : (c : NativeClass) → (start : Nat) →
    (constructClass h t g fromDerived c start).Delivers Thrown.capture
  | ⟨id, name, parents, members, constructors, vtable, methods, virtualDtor, copyPolicy, hooks⟩,
    start => by
      rw [constructClass]
      refine bind (constructParents_delivers hh t [] parents start) fun _ => ?_
      refine bind (onRaise (constructOwn_delivers hh _ g fromDerived) fun w => .unwind w parents)
        fun _ => ?_
      exact modify fun w => .tell w fun _ => rfl

theorem constructParents_delivers (hh : h.Delivers) (t : TwinId) (built : List NativeClass) :
    (ps : List NativeClass) → (start : Nat) →
    (constructParents h t built ps start).Delivers Thrown.capture
  | [], _ => by
      rw [constructParents]
      exact pure ()
  | p :: ps, start => by
      rw [constructParents]
      exact bind (onRaise (constructClass_delivers hh t {} true p start) fun w => .unwind w built)
        fun _ => constructParents_delivers hh t (built ++ [p]) ps _

end

theorem constructBase_delivers (hh : h.Delivers) (t : TwinId) (index : Nat) (g : ArgGroup)
    (fromDerived : Bool) : (constructBase h t index g fromDerived).Delivers Thrown.capture := by
  refine reads_bind fun found => ?_
  cases found with
  | none => exact raise _
  | some b =>
      exact bind (filling (constructClass_delivers hh t g fromDerived b.base b.start)) fun _ =>
        modify fun w => .markBuilt w t index b.base

theorem constructOnce_delivers (hh : h.Delivers) (t : TwinId) (index : Nat) (g : ArgGroup) :
    (constructOnce h t index g).Delivers Thrown.capture := by
  refine reads_bind fun twin => ?_
  split
  · exact raise _
  · exact constructBase_delivers hh t index g _

theorem constructPending_delivers (hh : h.Delivers) (t : TwinId) (indices : List Nat) :
    (indices.forM fun index => constructBase h t index {} true).Delivers Thrown.capture := by
  induction indices with
  | nil => exact pure ()
  | cons index rest ih => exact bind (constructBase_delivers hh t index {} true) fun _ => ih

theorem finish_delivers (hh : h.Delivers) (t : TwinId) :
    (finish h t).Delivers Thrown.capture :=
  reads_bind fun _ => constructPending_delivers hh t _

theorem requireDynamic_delivers (t : TwinId) : (requireDynamic t).Delivers Thrown.capture := by
  refine reads_bind fun twin => ?_
  split
  · exact pure ()
  · exact raise _

theorem constructEach_delivers (hh : h.Delivers) (t : TwinId) (groups : List ArgGroup)
    (indices : List Nat) : (constructEach h t groups indices).Delivers Thrown.capture := by
  induction indices generalizing groups with
  | nil => exact modify fun w => .drop w _
  | cons index rest ih =>
      exact bind (unwinding (holding (constructOnce_delivers hh t index _))) fun _ => ih groups.tail

theorem baseCountFor_delivers (t : TwinId) (groups : Nat) :
    (baseCountFor t groups).Delivers Thrown.capture := by
  refine bind (requireDynamic_delivers t) fun _ => reads_bind fun twin => ?_
  dsimp only
  split
  · exact raise _
  · exact pure _

theorem superGroups_delivers (hh : h.Delivers) (t : TwinId) (groups : List ArgGroup) :
    (superGroups h t groups).Delivers Thrown.capture :=
  bind (unwinding (baseCountFor_delivers t groups.length)) fun count =>
    constructEach_delivers hh t groups (List.range count)

theorem superInit_delivers (hh : h.Delivers) (t : TwinId) (args : List DynValue) :
    (superInit h t args).Delivers Thrown.capture := by
  have hgroups : ∀ groups : List ArgGroup, (do
      Run.modify (·.retainAll (groups.flatMap ArgGroup.handles))
      superGroups h t groups).Delivers Thrown.capture := fun groups =>
    modify_bind (fun w => .retainAll w _) (superGroups_delivers hh t groups)
  refine reads_bind fun twin => reads_bind fun census => ?_
  dsimp only
  split
  · exact ofExcept_bind hgroups
  · exact hgroups _

theorem initBase_delivers (hh : h.Delivers) (t : TwinId) (c : NativeClass)
    (args : List DynValue) : (initBase h t c args).Delivers Thrown.capture := by
  refine bind (requireDynamic_delivers t) fun _ => reads_bind fun twin => ?_
  cases twin.layout.baseIndex? c with
  | none => exact raise _
  | some index =>
      dsimp only
      split
      · exact raise _
      · exact retaining (constructOnce_delivers hh t index _)

theorem newNative_delivers (hh : h.Delivers) (c : NativeClass) (interp : InterpId) (g : ArgGroup)
    (owner : Ownership) : (newNative h c interp g owner).Delivers Thrown.capture := by
  unfold newNative
  cases c.vtable.firstPure? with
  | some slot => exact raise _
  | none =>
      refine act_bind (fun w => .create w interp (.native c) owner) fun t => ?_
      exact bind (unwinding (constructBase_delivers hh t 0 g false)) fun _ => pure t

theorem instantiate_delivers (hh : h.Delivers) (c : NativeClass) (interp : InterpId)
    (args : List DynValue) : (instantiate h c interp args).Delivers Thrown.capture :=
  retaining (newNative_delivers hh c interp _ .dynamic)

theorem construct_delivers (hh : h.Delivers) (c : NativeClass) (interp : InterpId)
    (args : List NativeValue) : (construct h c interp args).Delivers Thrown.capture :=
  act_bind (.mapM Crossing.lendToDynamic_silent args) fun _ => by
    refine holding (bind (newNative_delivers hh c interp _ .native) fun t => ?_)
    exact modify_bind (fun w => .asNative w t) (pure t)

theorem initializeAs_delivers (hh : h.Delivers) (entry : Entry) (c : DynamicClass) (t : TwinId)
    (args : List DynValue) : (initializeAs h entry c t args).Delivers id := by
  refine locked ?_
  cases c.findInitializer? with
  | some body =>
      exact bind (hh.dynamic entry t args body) fun result => modify fun w => .drop w _
  | none =>
      dsimp only
      split
      · exact pure ()
      · exact given_back (superInit_delivers hh t args)

theorem newDynamic_delivers (hh : h.Delivers) (c : DynamicClass) (args : List DynValue) :
    (newDynamic h c args).Delivers id := by
  unfold newDynamic
  cases c.missingOverride? with
  | some slot => exact raise _
  | none =>
      refine act_bind (fun w => .create w c.interp (.dynamic c) .dynamic) fun t => ?_
      refine bind (unwinding ?_) fun _ => pure t
      exact bind (initializeAs_delivers hh .creation c t args) fun _ =>
        given_back (finish_delivers hh t)

end Construction

namespace Call

theorem withArgs_delivers {α : Type} (args : List NativeValue) {m : Run Failure α}
    (hm : m.Delivers Thrown.capture) : (withArgs args m).Delivers Thrown.capture :=
  holding hm

theorem runDefault_delivers (hh : h.Delivers) (slot : Slot) {bare : Run Failure NativeValue}
    (hbare : bare.Delivers Thrown.capture) (t : TwinId) (args : List NativeValue) :
    (runDefault h slot bare t args).Delivers Thrown.capture := by
  unfold runDefault
  cases slot.body with
  | some body => exact hh.native _ body
  | none => exact hbare

/-- What leaves the body of an override is captured while it is in flight. -/
theorem runOverride_delivers (hh : h.Delivers) (c : DynamicClass) (slot : Slot) (m : Method)
    (t : TwinId) (args : List NativeValue) :
    (runOverride h c slot m t args).Delivers Thrown.capture := by
  refine locked (modify_bind (fun w => .count w c.interp _) (modify_bind (fun w => .retain w _) ?_))
  refine act_bind (.mapM Crossing.lendToDynamic_silent args) fun dynArgs => holding ?_
  refine outcome_bind (hh.dynamic .slot t dynArgs m.body) (fun v => ?_) fun e f hflight => ?_
  · exact reads_bind fun strict =>
      act_bind (Crossing.returnToNative_silent _ strict v slot.ret) fun r => ofExcept r
  · refine modify_bind (fun w => .count w c.interp _) (again fun _ t ht => ?_)
    rw [hflight t ht, id]

theorem dispatch_delivers (hh : h.Delivers) (c : DynamicClass) (index : Nat) (slot : Slot)
    (t : TwinId) (args : List NativeValue) :
    (dispatch h c index slot t args).Delivers Thrown.capture := by
  refine act_bind (hh.override c index slot) fun found => ?_
  cases found with
  | some m => exact runOverride_delivers hh c slot m t args
  | none => exact runDefault_delivers hh slot (hh.bare slot) t args

theorem callSlot_delivers (hh : h.Delivers) (t : TwinId) (index : Nat) (args : List NativeValue) :
    (callSlot h t index args).Delivers Thrown.capture := by
  refine reads_bind fun kind => ?_
  cases kind.vtable.get? index with
  | none => exact hh.noSlot kind index
  | some slot =>
      cases kind with
      | dynamic c => exact dispatch_delivers hh c index slot t args
      | native c => exact runDefault_delivers hh slot (hh.bare slot) t args

theorem callVirtual_delivers (hh : h.Delivers) (constOnly : Bool) (t : TwinId) (name : String)
    (args : List NativeValue) : (callVirtual h constOnly t name args).Delivers Thrown.capture :=
  reads_bind fun _ =>
    act_bind (VTable.resolve_silent (Crossing.fromNative_silent args) _ _ _ _) fun _ =>
      ofExcept_bind fun s => withArgs_delivers s.args (callSlot_delivers hh t s.index s.args)

theorem callBaseWith_delivers (hh : h.Delivers) {conv : Conversion Act} (hconv : conv.Silent)
    (t : TwinId) (c : NativeClass) (name : String) :
    (callBaseWith h conv t c name).Delivers Thrown.capture := by
  refine reads_bind fun kind => ?_
  split
  · exact raise _
  · refine act_bind (VTable.resolve_silent hconv _ _ _ _) fun _ => ofExcept_bind fun s =>
      withArgs_delivers s.args ?_
    cases c.vtable.get? s.index with
    | some slot => exact runDefault_delivers hh slot (raise _) t s.args
    | none => exact raise _

theorem callBaseNative_delivers (hh : h.Delivers) (t : TwinId) (c : NativeClass) (name : String)
    (args : List NativeValue) : (callBaseNative h t c name args).Delivers Thrown.capture :=
  callBaseWith_delivers hh (Crossing.fromNative_silent args) t c name

theorem callBaseDynamic_delivers (hh : h.Delivers) (t : TwinId) (c : NativeClass) (name : String)
    (args : List DynValue) : (callBaseDynamic h t c name args).Delivers Thrown.capture :=
  bind (retaining (callBaseWith_delivers hh (Crossing.fromDynamic_silent _ args) t c name))
    fun r => act (Crossing.toDynamic_silent r)

theorem callMethodNative_delivers (hh : h.Delivers) (t : TwinId) (name : String)
    (args : List NativeValue) : (callMethodNative h t name args).Delivers Thrown.capture := by
  refine reads_bind fun kind => ?_
  dsimp only
  cases kind.layout.findMethod? name with
  | none => exact raise _
  | some found =>
      refine act_bind (pickOverload_silent (Crossing.coerceArgs_silent args) _ _) fun picked => ?_
      cases picked with
      | none => exact raise _
      | some p => exact withArgs_delivers p.2 (hh.native _ p.1.body)

theorem gated_delivers (i : InterpId) (g : Gate) {m : Run Failure NativeValue}
    (hm : m.Delivers Thrown.capture) : (gated i g m).Delivers Thrown.capture := by
  refine reads_bind fun isOpen => ?_
  split
  · refine modify_bind (fun w => .count w i _) (unlocked ?_)
    exact modify_bind (fun w => .tell w fun _ => rfl) hm
  · exact hm

theorem callNativeMethod_delivers (hh : h.Delivers) (t : TwinId) (name : String)
    (args : List DynValue) : (callNativeMethod h t name args).Delivers Thrown.capture := by
  refine retaining (reads_bind fun twin => ?_)
  dsimp only
  split
  · refine act_bind (VTable.resolve_silent (Crossing.fromDynamic_silent _ args) _ _ _ _) fun _ =>
      ofExcept_bind fun s => withArgs_delivers s.args ?_
    exact bind (callSlot_delivers hh t s.index s.args) fun r => act (Crossing.toDynamic_silent r)
  · cases twin.layout.findMethod? name with
    | none => exact raise _
    | some found =>
        refine act_bind (pickOverload_silent (Crossing.argsToNative_silent _ args) _ _)
          fun picked => ?_
        cases picked with
        | none => exact raise _
        | some p =>
            refine withArgs_delivers p.2 (bind (gated_delivers _ _ (hh.native _ p.1.body)) ?_)
            exact fun r => act (Crossing.toDynamic_silent r)

theorem callMethod_delivers (hh : h.Delivers) (t : TwinId) (name : String) (args : List DynValue) :
    (callMethod h t name args).Delivers id := by
  refine reads_bind fun twin => ?_
  dsimp only
  split
  · rename_i c m _
    split
    · exact raise _
    · exact locked (hh.dynamic .method t args m.body)
  · exact given_back (callNativeMethod_delivers hh t name args)

theorem invoke_delivers (hh : h.Delivers) (f : NativeFunction) (args : List NativeValue) :
    (invoke h f args).Delivers Thrown.capture := by
  refine act_bind (Crossing.coerceArgs_silent args f.params .widening) fun converted => ?_
  cases converted with
  | some converted => exact withArgs_delivers converted (hh.native _ f.body)
  | none => exact reads_bind fun census => raise _

theorem callFunction_delivers (hh : h.Delivers) (i : InterpId) (f : NativeFunction)
    (args : List DynValue) : (callFunction h i f args).Delivers id := by
  unfold callFunction
  split
  · exact raise _
  · refine given_back (act_bind ?_ fun _ => ofExcept_bind fun converted => ?_)
    · exact Crossing.convertAll_silent (Crossing.toNative_silent _) [] _
    · refine withArgs_delivers converted (bind (gated_delivers i f.gate ?_) fun r => ?_)
      · exact invoke_delivers hh f converted
      · exact act (Crossing.toDynamic_silent r)

end Call

end TwinObject
