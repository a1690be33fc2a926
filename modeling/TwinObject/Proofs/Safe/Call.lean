/-
Calls are safe.  Converted arguments are held over the call that gets them, and
let go with it.
-/
import TwinObject.Proofs.Safe.Dispatch

namespace TwinObject

open Hold

namespace Call

open Run.Ensures

variable {F : Hold} {w : World} {h h' : Host} {t : TwinId}

/-- The arguments of a call are held while it runs. -/
theorem withArgs_safe {α : Type} {give : α → Hold} {args : List NativeValue} {m m' : Run Failure α}
    (hm : Run.Safe (F + NativeValue.holdAll args) 0 give w m m') :
    Run.Safe F (NativeValue.holdAll args) give w (withArgs args m) (withArgs args m') :=
  holding hm

/-- A call that is resolved goes on with the slot that was picked. -/
theorem resolve_bind {α : Type} {give : α → Hold} {conv : Conversion Act} (hconv : conv.Safe F)
    {table : VTable} {className name : String} {constOnly : Bool} {k k' : Selection → Run Failure α}
    (hk : ∀ (s : Selection) (slot : Slot) (u : World), Persists w u →
      table.get? s.index = some slot →
        Run.Safe (F + NativeValue.holdAll s.args) 0 give u (k s) (k' s)) :
    Run.Safe F 0 give w
      (Run.act (table.resolve conv className name constOnly) >>= fun r =>
        Run.ofExcept r >>= fun s => withArgs s.args (k s))
      (Run.act (table.resolve conv className name constOnly) >>= fun r =>
        Run.ofExcept r >>= fun s => withArgs s.args (k' s)) := by
  refine act_bind (VTable.resolve_safe hconv table className name constOnly) fun hpersists => ?_
  refine ofExcept_bind fun s hs => ?_
  obtain ⟨slot, hslot, -⟩ := VTable.resolve_get conv table className name constOnly w s hs
  exact withArgs_safe (hk s slot _ hpersists hslot)

theorem callVirtual_safe (hsafe : h.Safe h') (constOnly : Bool) (hlent : Lends F t) (name : String)
    {args : List NativeValue} (hargs : LendsAll F (args.flatMap NativeValue.handles)) :
    Run.Safe F 0 NativeValue.hold w (callVirtual h constOnly t name args)
      (callVirtual h' constOnly t name args) := by
  refine knowing (fun R hreach => hreach.live_of_lent hlent) fun ⟨a, ha, hlive⟩ => ?_
  refine reads_bind (resolve_bind (Crossing.fromNative_safe hargs) fun s slot u hu hslot => ?_)
  have hthere : (u.twin t).kind.vtable.get? s.index = some slot := by
    rw [hu.kind ha]
    exact hslot
  exact callSlot_safe hsafe hlent.left hthere (LendsAll.self _).right

theorem callBaseWith_safe (hsafe : h.Safe h') {conv : Conversion Act} (hconv : conv.Safe F)
    (hlent : Lends F t) (c : NativeClass) (name : String) :
    Run.Safe F 0 NativeValue.hold w (callBaseWith h conv t c name)
      (callBaseWith h' conv t c name) := by
  refine reads_bind ?_
  split
  · exact raise
  · refine resolve_bind hconv fun s slot u hu hslot => ?_
    rw [hslot]
    exact runDefault_safe hsafe hlent.left (LendsAll.self _).right fun _ => raise

theorem callBaseNative_safe (hsafe : h.Safe h') (hlent : Lends F t) (c : NativeClass)
    (name : String) {args : List NativeValue}
    (hargs : LendsAll F (args.flatMap NativeValue.handles)) :
    Run.Safe F 0 NativeValue.hold w (callBaseNative h t c name args)
      (callBaseNative h' t c name args) :=
  callBaseWith_safe hsafe (Crossing.fromNative_safe hargs) hlent c name

theorem toDynamic_bind {m m' : Run Failure NativeValue}
    (hm : Run.Safe F 0 NativeValue.hold w m m') :
    Run.Safe F 0 DynValue.hold w (m >>= fun r => Run.act (Crossing.toDynamic r))
      (m' >>= fun r => Run.act (Crossing.toDynamic r)) :=
  andThen hm fun r _ _ _ => act (Crossing.toDynamic_safe r) fun _ => trivial

theorem callBaseDynamic_safe (hsafe : h.Safe h') (hlent : Lends F t) (c : NativeClass)
    (name : String) {args : List DynValue} (hargs : LendsAll F (args.flatMap DynValue.handles)) :
    Run.Safe F 0 DynValue.hold w (callBaseDynamic h t c name args)
      (callBaseDynamic h' t c name args) := by
  refine toDynamic_bind (retaining (Vouches.of_lends fun h hh => ?_) fun u _ =>
    callBaseWith_safe hsafe (Crossing.fromDynamic_safe _ hargs.left) hlent.left c name)
  cases List.mem_singleton.mp hh
  exact hlent

/-- The overload that is picked goes on with the converted arguments. -/
theorem pickOverload_bind {α : Type} {give : α → Hold}
    {convert : List NativeType → Fit → Act (Option (List NativeValue))}
    (hconvert : ∀ (w : World) (params : List NativeType) (fit : Fit),
      Act.Safe F 0 (fun r => r.elim 0 NativeValue.holdAll) w (convert params fit))
    {overloads : List MethodDecl} {e : Failure}
    {k k' : MethodDecl → List NativeValue → Run Failure α}
    (hk : ∀ d converted u, Persists w u →
      Run.Safe (F + NativeValue.holdAll converted) 0 give u (k d converted) (k' d converted)) :
    Run.Safe F 0 give w
      (Run.act (pickOverload convert overloads Fit.order) >>= fun
        | none => Run.raise e
        | some (d, converted) => withArgs converted (k d converted))
      (Run.act (pickOverload convert overloads Fit.order) >>= fun
        | none => Run.raise e
        | some (d, converted) => withArgs converted (k' d converted)) := by
  refine act_bind (pickOverload_safe hconvert overloads Fit.order) fun hpersists => ?_
  cases (pickOverload convert overloads Fit.order w).1 with
  | none => exact raise
  | some found => exact withArgs_safe (hk found.1 found.2 _ hpersists)

theorem native_safe (hsafe : h.Safe h') (hlent : Lends F t) {args : List NativeValue}
    (hargs : LendsAll F (args.flatMap NativeValue.handles)) (body : NativeExpr) :
    Run.Safe F 0 NativeValue.hold w (h.native { this := some t, args } body)
      (h'.native { this := some t, args } body) := by
  refine hsafe.native F w _ body ⟨fun t' ht' => ?_, hargs, fun s hs => by cases hs⟩
  cases ht'
  exact hlent

theorem callMethodNative_safe (hsafe : h.Safe h') (hlent : Lends F t) (name : String)
    {args : List NativeValue} (hargs : LendsAll F (args.flatMap NativeValue.handles)) :
    Run.Safe F 0 NativeValue.hold w (callMethodNative h t name args)
      (callMethodNative h' t name args) := by
  refine reads_bind ?_
  dsimp only
  split
  · exact raise
  · refine pickOverload_bind (fun w params fit => Crossing.coerceArgs_safe params fit hargs)
      fun d converted u _ => ?_
    exact native_safe hsafe hlent.left (LendsAll.self _).right d.body

/-- Behind an open gate code runs without the lock. -/
theorem gated_safe (i : InterpId) (g : Gate) {m m' : Run Failure NativeValue}
    (hm : ∀ u, Persists w u → Run.Safe F 0 NativeValue.hold u m m') :
    Run.Safe F 0 NativeValue.hold w (gated i g m) (gated i g m') := by
  refine reads_bind ?_
  split
  · refine count_bind fun hu _ => unlocked (fun _ => rfl) fun v hv hleft => ?_
    refine modify_bind (M := 0) (fun _ _ => (Transition.passGate hleft).path) fun hpassed => ?_
    exact hm _ ((hu.trans hv).trans hpassed)
  · exact hm w (.refl w)

theorem callNativeMethod_safe (hsafe : h.Safe h') (hlent : Lends F t) (name : String)
    {args : List DynValue} (hargs : LendsAll F (args.flatMap DynValue.handles)) :
    Run.Safe F 0 DynValue.hold w (callNativeMethod h t name args)
      (callNativeMethod h' t name args) := by
  refine retaining (Vouches.of_lends fun h hh => ?_) fun u _ => ?_
  · cases List.mem_singleton.mp hh
    exact hlent
  replace hlent := hlent.left (G := ofHandles [.native t])
  replace hargs := hargs.left (G := ofHandles [.native t])
  refine knowing (fun R hreach => hreach.live_of_lent hlent) fun ⟨a, ha, hlive⟩ => ?_
  refine reads_bind ?_
  dsimp only
  split
  · refine resolve_bind (Crossing.fromDynamic_safe _ hargs) fun s slot v hv hslot => ?_
    have hthere : (v.twin t).kind.vtable.get? s.index = some slot := by
      rw [hv.kind ha]
      exact hslot
    exact toDynamic_bind (callSlot_safe hsafe hlent.left hthere (LendsAll.self _).right)
  · split
    · exact raise
    · refine pickOverload_bind (fun w params fit => Crossing.argsToNative_safe _ params fit hargs)
        fun d converted v _ => ?_
      exact toDynamic_bind (gated_safe _ _ fun v' _ =>
        native_safe hsafe hlent.left (LendsAll.self _).right d.body)

theorem callMethod_safe (hsafe : h.Safe h') (hlent : Lends F t) (name : String)
    {args : List DynValue} (hargs : LendsAll F (args.flatMap DynValue.handles)) :
    Run.Safe F 0 DynValue.hold w (callMethod h t name args) (callMethod h' t name args) := by
  refine knowing (fun R hreach => hreach.home_of_lent hlent) fun ⟨hinterp, hlives⟩ => ?_
  refine reads_bind ?_
  dsimp only
  split
  · rename_i c m hown
    split
    · exact raise
    · refine locked hinterp fun u hu hheld =>
        hsafe.dynamic F u .method t args m.body hlent hargs fun _ => ?_
      rwa [(hlives.mono hu).interp_eq]
  · exact mapError (callNativeMethod_safe hsafe hlent name hargs)

theorem invoke_safe (hsafe : h.Safe h') (f : NativeFunction) {args : List NativeValue}
    (hargs : LendsAll F (args.flatMap NativeValue.handles)) :
    Run.Safe F 0 NativeValue.hold w (invoke h f args) (invoke h' f args) := by
  refine act_bind (Crossing.coerceArgs_safe f.params .widening hargs) fun _ => ?_
  generalize (Crossing.coerceArgs args f.params .widening w).1 = converted
  cases converted with
  | some converted =>
      refine withArgs_safe (hsafe.native _ _ _ f.body ⟨fun t ht => ?_, (LendsAll.self _).right,
        fun s hs => ?_⟩)
      · cases ht
      · cases hs
  | none => exact reads_bind raise

theorem callFunction_safe (hsafe : h.Safe h') (i : InterpId) (f : NativeFunction)
    {args : List DynValue} (hargs : LendsAll F (args.flatMap DynValue.handles)) :
    Run.Safe F 0 DynValue.hold w (callFunction h i f args) (callFunction h' i f args) := by
  unfold callFunction
  split
  · exact raise
  · refine mapError (act_bind (Crossing.convertAll_safe (fun p hp u => ?_) []) fun _ => ?_)
    · exact Crossing.toNative_safe _ p.2 (hargs.subset fun h hh =>
        List.mem_flatMap.mpr ⟨p.1, Crossing.mem_of_zip hp, hh⟩)
    · refine ofExcept_bind fun converted _ => withArgs_safe (toDynamic_bind ?_)
      exact gated_safe _ _ fun v _ => invoke_safe hsafe f (LendsAll.self _).right

end Call

end TwinObject
