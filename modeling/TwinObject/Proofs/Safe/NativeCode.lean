/-
Operations of native code are safe.  A vector or a shared pointer that an
operation works on is held besides its variable.
-/
import TwinObject.Proofs.Safe.DynamicCode

namespace TwinObject

open Hold

namespace NativeOp

open Run.Ensures

variable {α : Type} {F : Hold} {give : α → Hold} {w : World} {h h' : Host} {t : TwinId}

theorem nativeScriptError_safe {message : String} :
    Run.Safe F 0 give w (nativeScriptError message) (nativeScriptError message) :=
  raise

theorem ofOption_bind {β : Type} {message : String} {o : Option β} {k k' : β → Run Failure α}
    (hk : ∀ b, o = some b → Run.Safe F 0 give w (k b) (k' b)) :
    Run.Safe F 0 give w (ofOption message o >>= k) (ofOption message o >>= k') := by
  cases o with
  | some b => exact hk b rfl
  | none => exact raise

theorem ofOption_safe {message : String} {o : Option α} :
    Run.Safe F (o.elim 0 give) give w (ofOption message o) (ofOption message o) := by
  cases o with
  | some a => exact value trivial rfl
  | none => exact raise

theorem ofOption_plain {message : String} {o : Option α} (hsome : ∀ a, o = some a → give a = 0) :
    Run.Safe F 0 give w (ofOption message o) (ofOption message o) := by
  cases o with
  | some a => exact value trivial (hsome a rfl).symm
  | none => exact raise

theorem clone_safe {v : NativeValue}
    (hheld : ∀ R, Reachable w (R + F + 0) → ∀ h ∈ v.handles, w.Held (R + F + 0) h.twin) :
    Run.Safe F 0 NativeValue.hold w (clone v) (clone v) :=
  retain_value rfl hheld

section Operands

variable {m m' : Run Failure NativeValue}

theorem expectObject_safe (hm : Run.Safe F 0 NativeValue.hold w m m') :
    Run.Safe F 0 Hold.native w (expectObject m) (expectObject m') := by
  refine andThen hm fun v u _ _ => ?_
  have hmisfit : Run.Safe F v.hold Hold.native u
      (Run.modify (·.drop v.handles) >>= fun _ => nativeScriptError "not an object")
      (Run.modify (·.drop v.handles) >>= fun _ => nativeScriptError "not an object") :=
    drop_bind fun _ => nativeScriptError_safe
  cases v with
  | object t => exact value trivial rfl
  | _ => exact hmisfit

/-- An instance is held over the operation that uses it. -/
theorem object_bind {k k' : TwinId → Run Failure α} (hm : Run.Safe F 0 NativeValue.hold w m m')
    (hk : ∀ t u, Persists w u → Run.Safe (F + Hold.native t) 0 give u (k t) (k' t)) :
    Run.Safe F 0 give w (expectObject m >>= fun t => Run.holding [.native t] (k t))
      (expectObject m' >>= fun t => Run.holding [.native t] (k' t)) :=
  andThen (expectObject_safe hm) fun t u hu _ => holding (hk t u hu)

/-- Arguments are held over the operation that uses them. -/
theorem args_bind {ms ms' : Run Failure (List NativeValue)}
    {k k' : List NativeValue → Run Failure α} (hms : Run.Safe F 0 NativeValue.holdAll w ms ms')
    (hk : ∀ vs u, Persists w u → Run.Safe (F + NativeValue.holdAll vs) 0 give u (k vs) (k' vs)) :
    Run.Safe F 0 give w (ms >>= fun vs => Call.withArgs vs (k vs))
      (ms' >>= fun vs => Call.withArgs vs (k' vs)) :=
  andThen hms fun vs u hu _ => Call.withArgs_safe (hk vs u hu)

end Operands

section Labels

/-- A native class that has a label is lent to what uses it. -/
theorem native_bind {name : String} {k k' : NativeClass → Run Failure α}
    (hk : ∀ c u, Persists w u → Run.Safe (F + {.kind (.native c)}) 0 give u (k c) (k' c)) :
    Run.Safe F 0 give w (native name >>= fun c => Run.lending (.native c) (k c))
      (native name >>= fun c => Run.lending (.native c) (k' c)) := by
  refine knowing (fun R hreach => hreach.invariant.classed.natives) fun hnatives => ?_
  refine assoc (reads_bind (ofOption_bind fun c hc => ?_))
  exact lending (hnatives _ (Bindings.mem_of_get? hc)) fun hu => hk c _ hu

theorem function_bind {name : String} {k k' : NativeFunction → Run Failure α}
    (hk : ∀ f, Run.Safe F 0 give w (k f) (k' f)) :
    Run.Safe F 0 give w (function name >>= k) (function name >>= k') :=
  assoc (reads_bind (ofOption_bind fun f _ => hk f))

theorem vec_bind {x : String} {k k' : Nat → Run Failure α}
    (hk : ∀ i, Run.Safe F 0 give w (k i) (k' i)) :
    Run.Safe F 0 give w (vec x >>= k) (vec x >>= k') :=
  assoc (reads_bind (ofOption_bind fun i _ => hk i))

/-- A vector is held over the operation that works on it. -/
theorem keepingVec_bind {x : String} {k k' : Nat → Run Failure α}
    (hk : ∀ i u, Persists w u → Run.Safe (F + {.vec i}) 0 give u (k i) (k' i)) :
    Run.Safe F 0 give w (vec x >>= fun i => keepingVec i (k i))
      (vec x >>= fun i => keepingVec i (k' i)) := by
  refine knowing (fun R hreach i => World.lt_of_vecVar (x := x) (i := i) hreach) fun hlt => ?_
  refine assoc (reads_bind (ofOption_bind fun i hi => ?_))
  refine modify_bind (fun R _ => ?_) fun hu => atEnd [.vec i] (hk i _ hu) rfl
    (fun u R _ => World.leaveVec_path i u R) fun _ _ _ _ _ _ => trivial
  exact (Transition.holdVec (hlt i hi)).path.cast (add_zero _) rfl

/-- A pointer of a group of one's own is held over the operation that uses it. -/
theorem keepingShared_bind {x : String} {k k' : Nat → Run Failure α}
    (hk : ∀ i t u, Persists w u → Run.Safe (F + {.shared i t}) 0 give u (k i) (k' i)) :
    Run.Safe F 0 give w (shared x >>= fun i => keepingShared i (k i))
      (shared x >>= fun i => keepingShared i (k' i)) := by
  refine knowing (fun R hreach i => World.group_of_sharedVar (x := x) (i := i) hreach)
    fun hgroups => ?_
  refine assoc (reads_bind (ofOption_bind fun i hi => reads_bind ?_))
  obtain ⟨g, hg, hcount⟩ := hgroups i hi
  rw [World.group_eq hg]
  refine modify_bind (fun R _ => ?_) fun hu => atEnd [.shared i g.target] (hk i _ _ hu) rfl
    (fun u R hreach => World.dropShared_path hreach) fun _ _ _ _ _ _ => trivial
  exact (World.cloneShared_path hg hcount).cast (add_zero _) rfl

end Labels

theorem result_safe {m : Act (Except Failure NativeValue)}
    (hm : Act.Safe F 0 (ofOk NativeValue.hold) w m) :
    Run.Safe F 0 NativeValue.hold w (result m) (result m) :=
  act_bind hm fun _ => ofExcept fun _ _ => ⟨rfl, trivial⟩

theorem raw_safe {v : DynValue} (hlent : LendsAll F v.handles) :
    Run.Safe F 0 NativeValue.hold w (raw v) (raw v) :=
  act_bind (Crossing.lendToRaw_safe hlent) fun _ => ofOption_safe

theorem objectOrNull_safe {m : Act (Option TwinId)}
    (hm : Act.Safe F 0 (fun r => r.elim 0 Hold.native) w m) :
    Run.Safe (ε := Failure) F 0 NativeValue.hold w
      (Run.act m >>= fun t => Pure.pure (t.elim .null .object))
      (Run.act m >>= fun t => Pure.pure (t.elim .null .object)) := by
  refine act_bind hm fun _ => ?_
  cases (m w).1 <;> exact value trivial rfl

theorem construct_safe (hsafe : h.Safe h') {c : NativeClass} (hkind : Token.kind (.native c) ∈ F)
    {args : List NativeValue} (hargs : LendsAll F (args.flatMap NativeValue.handles)) :
    Run.Safe F 0 NativeValue.hold w (construct h c args) (construct h' c args) :=
  knowing (fun _ hreach => hreach.invariant.homed.seated.mainInterp_lt) fun hinterp =>
    reads_bind (andThen (Construction.construct_safe hsafe hkind hinterp hargs) fun _ _ _ _ =>
      value trivial rfl)

theorem ask_safe (q : Question) (t : TwinId) :
    Run.Safe F 0 NativeValue.hold w (ask q t) (ask q t) := by
  refine reads_bind (value trivial ?_)
  split <;> rfl

theorem reproduce_safe (hlent : Lends F t) (way : Reproduction) :
    Run.Safe F 0 NativeValue.hold w (reproduce way t) (reproduce way t) := by
  refine act_bind (World.reproduce_safe hlent way) fun _ => ofExcept_bind fun new _ => ?_
  exact modify_bind (fun _ _ => World.asNative_path) fun _ => value trivial rfl

theorem adopt_safe (hlent : Lends F t) (flag : Ownership) :
    Run.Safe F 0 NativeValue.hold w (adopt t flag) (adopt t flag) := by
  refine act_bind (World.setOwner_safe hlent flag) fun _ =>
    clone_safe (LendsAll.held fun h hh => ?_)
  cases List.mem_singleton.mp hh
  exact hlent

theorem vecAppend_safe {i : Nat} (hvec : Token.vec i ∈ F) (hlent : Lends F t) (way : Reproduction) :
    Run.Safe F 0 NativeValue.hold w (vecAppend way i t) (vecAppend way i t) := by
  refine act_bind (World.vecAppend_safe hvec hlent way) fun _ => ?_
  cases (World.vecAppend way i t w).1 with
  | ok _ => exact value trivial rfl
  | error e => exact raise

theorem vecAsk_safe (q : VecQuestion) (x : String) :
    Run.Safe F 0 NativeValue.hold w (vecAsk q x) (vecAsk q x) := by
  refine reads_bind (ofOption_bind fun v _ => value trivial ?_)
  cases q <;> rfl

theorem sharedCall_safe (hsafe : h.Safe h') {i : Nat} (hlent : Token.shared i t ∈ F) (name : String)
    {args : List NativeValue} (hargs : LendsAll F (args.flatMap NativeValue.handles)) :
    Run.Safe F 0 NativeValue.hold w (sharedCall h i name args) (sharedCall h' i name args) := by
  refine knowing (fun R hreach => World.group_of_lent hreach hlent) fun htarget => ?_
  refine reads_bind ?_
  rw [htarget]
  exact Call.callVirtual_safe hsafe false (Or.inr ⟨i, hlent⟩) name hargs

theorem sharedNative_safe (x : String) :
    Run.Safe F 0 NativeValue.hold w (sharedTarget x >>= fun t => clone (.object t))
      (sharedTarget x >>= fun t => clone (.object t)) := by
  refine knowing (fun R hreach i => World.group_of_sharedVar (x := x) (i := i) hreach)
    fun hgroups => ?_
  refine assoc (assoc (reads_bind (ofOption_bind fun i hi => reads_bind (clone_safe ?_))))
  obtain ⟨g, hg, hcount⟩ := hgroups i hi
  rw [World.group_eq hg]
  intro R _ h hh
  cases List.mem_singleton.mp hh
  exact World.held_of_group hg hcount

end NativeOp

end TwinObject
