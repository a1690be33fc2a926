/-
Operations of dynamic code are safe.  An operand is held over the operation that
uses it, and a class that has a label is lent to what uses it.
-/
import TwinObject.Proofs.Safe.Call

namespace TwinObject

open Hold

section Scopes

open Run.Ensures

variable {ε α : Type} {F : Hold} {give : α → Hold} {w : World}

/-- A value that is held somewhere can be had with handles of one's own. -/
theorem Run.Ensures.retain_value {hs : List Handle} {v : α} (hgive : give v = ofHandles hs)
    (hheld : ∀ R, Reachable w (R + F + 0) → ∀ h ∈ hs, w.Held (R + F + 0) h.twin) :
    Run.Safe (ε := ε) F 0 give w
      (Run.modify (·.retainAll hs) >>= fun _ => Pure.pure v)
      (Run.modify (·.retainAll hs) >>= fun _ => Pure.pure v) := by
  refine modify_bind (M := ofHandles hs) (fun R hreach => ?_) fun _ => value trivial hgive.symm
  exact (Path.retainAll hs (hheld R hreach)).cast rfl (by rw [add_zero])

theorem Hold.LendsAll.held {hs : List Handle} (hlent : LendsAll F hs) (R : Hold)
    (hreach : Reachable w (R + F + 0)) : ∀ h ∈ hs, w.Held (R + F + 0) h.twin :=
  fun h hh => hreach.held_of_lent (hlent h hh)

end Scopes

namespace DynOp

open Run.Ensures

variable {α : Type} {F : Hold} {give : α → Hold} {w : World} {h h' : Host} {t : TwinId}

theorem ofOption_bind {β : Type} {message : String} {o : Option β} {k k' : β → Run Thrown α}
    (hk : ∀ b, o = some b → Run.Safe F 0 give w (k b) (k' b)) :
    Run.Safe F 0 give w (ofOption message o >>= k) (ofOption message o >>= k') := by
  cases o with
  | some b => exact hk b rfl
  | none => exact raise

theorem scriptError_safe {message : String} :
    Run.Safe F 0 give w (scriptError message) (scriptError message) :=
  raise

theorem ofOption_plain {message : String} {o : Option α} (hsome : ∀ a, o = some a → give a = 0) :
    Run.Safe F 0 give w (ofOption message o) (ofOption message o) := by
  cases o with
  | some a => exact value trivial (hsome a rfl).symm
  | none => exact raise

theorem clone_safe {v : DynValue}
    (hheld : ∀ R, Reachable w (R + F + 0) → ∀ h ∈ v.handles, w.Held (R + F + 0) h.twin) :
    Run.Safe F 0 DynValue.hold w (clone v) (clone v) :=
  retain_value rfl hheld

section Operands

variable {m m' : Run Thrown DynValue}

theorem expectObject_safe (hm : Run.Safe F 0 DynValue.hold w m m') :
    Run.Safe F 0 Hold.dynamic w (expectObject m) (expectObject m') := by
  refine andThen hm fun v u _ _ => ?_
  have hmisfit : Run.Safe F v.hold Hold.dynamic u
      (Run.modify (·.drop v.handles) >>= fun _ => scriptError "not an object")
      (Run.modify (·.drop v.handles) >>= fun _ => scriptError "not an object") :=
    drop_bind fun _ => scriptError_safe
  cases v with
  | object t => exact value trivial rfl
  | _ => exact hmisfit

theorem expectTuple_safe (hm : Run.Safe F 0 DynValue.hold w m m') :
    Run.Safe F 0 DynValue.holdAll w (expectTuple m) (expectTuple m') := by
  refine andThen hm fun v u _ _ => ?_
  have hmisfit : Run.Safe F v.hold DynValue.holdAll u
      (Run.modify (·.drop v.handles) >>= fun _ => scriptError "not a tuple")
      (Run.modify (·.drop v.handles) >>= fun _ => scriptError "not a tuple") :=
    drop_bind fun _ => scriptError_safe
  cases v with
  | tuple items =>
      refine value trivial ?_
      rw [DynValue.hold, DynValue.handles, DynValue.itemHandles_eq_flatMap, DynValue.holdAll]
  | _ => exact hmisfit

/-- An instance is held over the operation that uses it. -/
theorem object_bind {k k' : TwinId → Run Thrown α} (hm : Run.Safe F 0 DynValue.hold w m m')
    (hk : ∀ t u, Persists w u → Run.Safe (F + Hold.dynamic t) 0 give u (k t) (k' t)) :
    Run.Safe F 0 give w (expectObject m >>= fun t => Run.holding [.dynamic t] (k t))
      (expectObject m' >>= fun t => Run.holding [.dynamic t] (k' t)) :=
  andThen (expectObject_safe hm) fun t u hu _ =>
    holding (hk t u hu)

/-- Arguments are held over the operation that uses them. -/
theorem tuple_bind {k k' : List DynValue → Run Thrown α} (hm : Run.Safe F 0 DynValue.hold w m m')
    (hk : ∀ vs u, Persists w u → Run.Safe (F + DynValue.holdAll vs) 0 give u (k vs) (k' vs)) :
    Run.Safe F 0 give w (expectTuple m >>= fun vs => Run.holding (DynValue.itemHandles vs) (k vs))
      (expectTuple m' >>= fun vs => Run.holding (DynValue.itemHandles vs) (k' vs)) := by
  refine andThen (expectTuple_safe hm) fun vs u hu _ => ?_
  rw [DynValue.itemHandles_eq_flatMap]
  exact holding (hk vs u hu)

end Operands

section Labels

/-- A native class that has a label is lent to what uses it. -/
theorem native_bind {name : String} {k k' : NativeClass → Run Thrown α}
    (hk : ∀ c u, Persists w u → Run.Safe (F + {.kind (.native c)}) 0 give u (k c) (k' c)) :
    Run.Safe F 0 give w (native name >>= fun c => Run.lending (.native c) (k c))
      (native name >>= fun c => Run.lending (.native c) (k' c)) := by
  refine knowing (fun R hreach => hreach.invariant.classed.natives) fun hnatives => ?_
  refine assoc (reads_bind (ofOption_bind fun c hc => ?_))
  exact lending (hnatives _ (Bindings.mem_of_get? hc)) fun hu => hk c _ hu

theorem dynClass_bind {name : String} {k k' : DynamicClass → Run Thrown α}
    (hk : ∀ c u, Persists w u → Run.Safe (F + {.kind (.dynamic c)}) 0 give u (k c) (k' c)) :
    Run.Safe F 0 give w (dynClass name >>= fun c => Run.lending (.dynamic c) (k c))
      (dynClass name >>= fun c => Run.lending (.dynamic c) (k' c)) := by
  refine knowing (fun R hreach => hreach.invariant.classed.labels) fun hlabels => ?_
  refine assoc (reads_bind (ofOption_bind fun c hc => ?_))
  exact lending (hlabels _ (Bindings.mem_of_get? hc)) fun hu => hk c _ hu

theorem function_bind {name : String} {k k' : NativeFunction → Run Thrown α}
    (hk : ∀ f, Run.Safe F 0 give w (k f) (k' f)) :
    Run.Safe F 0 give w (function name >>= k) (function name >>= k') :=
  assoc (reads_bind (ofOption_bind fun f _ => hk f))

theorem vec_bind {x : String} {k k' : Nat → Run Thrown α}
    (hk : ∀ i, Run.Safe F 0 give w (k i) (k' i)) :
    Run.Safe F 0 give w (vec x >>= k) (vec x >>= k') :=
  assoc (reads_bind (ofOption_bind fun i _ => hk i))

end Labels

theorem objectOrNone_safe {m : Act (Option TwinId)}
    (hm : Act.Safe F 0 (fun r => r.elim 0 Hold.dynamic) w m) :
    Run.Safe F 0 DynValue.hold w (objectOrNone m) (objectOrNone m) := by
  refine act_bind hm fun _ => ?_
  cases (m w).1 <;> exact value trivial rfl

theorem attr_safe (hlent : Lends F t) (name : String) :
    Run.Safe F 0 DynValue.hold w (attr t name) (attr t name) :=
  act_bind (World.getAttr_safe hlent name) fun _ => ofExcept fun _ _ => ⟨rfl, trivial⟩

theorem hasAttr_safe (hlent : Lends F t) (name : String) :
    Run.Safe F 0 DynValue.hold w (hasAttr t name) (hasAttr t name) := by
  refine act_bind (World.getAttr_safe hlent name) fun _ => ?_
  cases (World.getAttr t name w).1 with
  | ok v => exact andThen (dropping rfl) fun _ _ _ _ => value trivial rfl
  | error e => exact value trivial rfl

/-- A new instance belongs to whoever asked for it. -/
theorem object_safe {m m' : Run Thrown TwinId} (hm : Run.Safe F 0 Hold.dynamic w m m') :
    Run.Safe F 0 DynValue.hold w (m >>= fun t => Pure.pure (.object t))
      (m' >>= fun t => Pure.pure (.object t)) :=
  andThen hm fun _ _ _ _ => value trivial rfl

theorem new_safe (hsafe : h.Safe h') {this : Option TwinId} (hthis : ∀ t, this = some t → Lends F t)
    (cls : String) {args : List DynValue}
    (hargs : LendsAll F (args.flatMap DynValue.handles)) :
    Run.Safe F 0 DynValue.hold w (new h this cls args) (new h' this cls args) := by
  refine knowing (fun R hreach => And.intro hreach.invariant.classed.natives
    hreach.invariant.classed.labels) fun ⟨hnatives, hlabels⟩ => ?_
  refine knowing (fun R hreach => hreach.interpOf_lt hthis) fun hinterp => ?_
  refine reads_bind ?_
  cases hc : w.scope.classes.get? cls with
  | some c =>
      refine lending (hlabels _ (Bindings.mem_of_get? hc)) fun hu => object_safe ?_
      exact Construction.newDynamic_safe hsafe Hold.mem_last hargs.left
  | none =>
      refine assoc (reads_bind (ofOption_bind fun c hc => reads_bind ?_))
      refine lending (hnatives _ (Bindings.mem_of_get? hc)) fun hu => object_safe ?_
      exact mapError (Construction.instantiate_safe hsafe Hold.mem_last
        (hinterp.trans_le hu.interps) hargs.left)

theorem newGrouped_safe (hsafe : h.Safe h') {c : NativeClass} (hkind : Token.kind (.native c) ∈ F)
    {g : ArgGroup} (hgroup : LendsAll F g.handles) :
    Run.Safe F 0 DynValue.hold w (newGrouped h c g) (newGrouped h' c g) :=
  knowing (fun _ hreach => hreach.invariant.homed.seated.mainInterp_lt) fun hinterp =>
    reads_bind (object_safe (mapError (Construction.newNative_safe hsafe hkind hinterp hgroup _)))

/-- An operation that has nothing to give answers so. -/
theorem none_safe {take : Hold} {m m' : Run Thrown Unit}
    (hm : Run.Safe F take (fun _ => 0) w m m') :
    Run.Safe F take DynValue.hold w (m >>= fun _ => Pure.pure .none)
      (m' >>= fun _ => Pure.pure .none) :=
  andThen hm fun _ _ _ _ => value trivial rfl

/-- The instance need not be in the interpreter of the class that its initializer goes on
with. -/
theorem initParent_safe (hsafe : h.Safe h') (hlent : Lends F t) {c : DynamicClass}
    (hkind : Token.kind (.dynamic c) ∈ F) {args : List DynValue}
    (hargs : LendsAll F (args.flatMap DynValue.handles)) :
    Run.Safe F 0 DynValue.hold w (initParent h t c args) (initParent h' t c args) := by
  refine none_safe (knowing (fun R hreach => hreach.invariant.interp_of_lent
    (Multiset.mem_add.mpr (Or.inl (Multiset.mem_add.mpr (Or.inr hkind))))) fun hinterp => ?_)
  exact Construction.initializeAs_safe hsafe hlent hinterp (fun hnew => absurd rfl hnew) hargs

theorem setOwner_safe (hlent : Lends F t) (flag : Ownership) :
    Run.Safe F 0 DynValue.hold w (setOwner t flag) (setOwner t flag) := by
  refine act_bind (World.setOwner_safe hlent flag) fun _ =>
    clone_safe (LendsAll.held fun h hh => ?_)
  cases List.mem_singleton.mp hh
  exact hlent

theorem ask_safe (q : Question) (t : TwinId) :
    Run.Safe F 0 DynValue.hold w (ask q t) (ask q t) := by
  refine reads_bind (value trivial ?_)
  split <;> rfl

theorem reproduce_safe (hlent : Lends F t) (way : Reproduction) :
    Run.Safe F 0 DynValue.hold w (reproduce way t) (reproduce way t) :=
  mapError (act_bind (World.reproduce_safe hlent way) fun _ =>
    ofExcept_bind fun _ _ => value trivial rfl)

theorem classAttr_safe (cls name : String) :
    Run.Safe F 0 DynValue.hold w (classAttr cls name) (classAttr cls name) := by
  refine assoc (reads_bind (ofOption_bind fun c _ => reads_bind (clone_safe fun R _ h hh => ?_)))
  cases hfind : w.classAttr? c name with
  | none =>
      rw [hfind] at hh
      cases hh
  | some v =>
      rw [hfind] at hh
      exact World.classAttr_held hfind hh

theorem setClassAttr_safe {c : DynamicClass} (hkind : Token.kind (.dynamic c) ∈ F) (name : String)
    (v : DynValue) :
    Run.Safe F v.hold DynValue.hold w (setClassAttr c name v) (setClassAttr c name v) := by
  refine modify_bind (M := 0) (fun R hreach => ?_) fun _ => value trivial rfl
  obtain ⟨s, hs, -⟩ := hreach.invariant.keepsKind_of_lent
    (Multiset.mem_add.mpr (Or.inl (Multiset.mem_add.mpr (Or.inr hkind))))
  exact (World.storeClassAttr_path hs name v).cast rfl (add_zero _)

theorem sharedGet_safe (x : String) :
    Run.Safe F 0 DynValue.hold w
      (shared x >>= fun i => Run.reads (fun w => (w.group i).target) >>= fun t => clone (.object t))
      (shared x >>= fun i => Run.reads (fun w => (w.group i).target) >>= fun t =>
        clone (.object t)) := by
  refine knowing (fun R hreach i => World.group_of_sharedVar (x := x) (i := i) hreach)
    fun hgroups => ?_
  refine assoc (reads_bind (ofOption_bind fun i hi => reads_bind (clone_safe ?_)))
  obtain ⟨g, hg, hcount⟩ := hgroups i hi
  rw [World.group_eq hg]
  intro R _ h hh
  cases List.mem_singleton.mp hh
  exact World.held_of_group hg hcount

theorem yieldLock_safe : Run.Safe F 0 DynValue.hold w yieldLock yieldLock :=
  reads_bind (unlocked (fun _ => rfl) fun _ _ _ => value trivial rfl)

theorem waitStop_safe (x : String) :
    Run.Safe F 0 DynValue.hold w (waitStop x) (waitStop x) := by
  refine reads_bind (ofOption_bind fun i _ => reads_bind ?_)
  split
  · exact value trivial rfl
  · refine reads_bind (unlocked (fun _ => rfl) fun u _ _ => ?_)
    refine await_bind (M := fun _ => 0) (fun u v R hv _ => ?_) fun _ _ _ _ _ _ => value trivial rfl
    split at hv
    · cases hv
      exact .refl
    · cases hv

end DynOp

end TwinObject
