/-
Values cross safely: what comes out of a conversion has handles of its own, and
what a failed conversion had made is let go again.
-/
import TwinObject.Proofs.Safe.Reproduce
import TwinObject.Call

namespace TwinObject

open Hold

namespace NativeValue

@[simp] theorem holdAll_nil : holdAll [] = 0 := rfl

@[simp] theorem holdAll_append (vs vs' : List NativeValue) :
    holdAll (vs ++ vs') = holdAll vs + holdAll vs' := by
  rw [holdAll, List.flatMap_append, ofHandles_append]
  rfl

@[simp] theorem holdAll_singleton (v : NativeValue) : holdAll [v] = v.hold := by
  rw [holdAll, List.flatMap_singleton]
  rfl

theorem lendsAll_toDyn {F : Hold} {v : NativeValue} (hlent : LendsAll F v.handles) :
    LendsAll F v.toDyn.handles := by
  cases v with
  | object t =>
      intro h hh
      cases List.mem_singleton.mp hh
      exact hlent (.native t) (List.mem_singleton_self _)
  | _ => exact .nil

theorem handles_coerce {census : Census} {ty : NativeType} {v c : NativeValue}
    (hcoerce : v.coerce census ty = some c) : ∀ h ∈ c.handles, h ∈ v.handles := by
  unfold coerce at hcoerce
  split at hcoerce <;> simp_all [handles]
  all_goals
    obtain ⟨-, rfl⟩ := hcoerce
    simp

end NativeValue

namespace DynValue

@[simp] theorem holdAll_nil : holdAll [] = 0 := rfl

theorem mem_handles_of_item {v : DynValue} {items : List DynValue}
    (hitems : v.asTuple? = some items)
    {item : DynValue} (hitem : item ∈ items) {h : Handle} (hh : h ∈ item.handles) :
    h ∈ v.handles := by
  cases v with
  | tuple vs =>
      cases hitems
      rw [handles, itemHandles_eq_flatMap]
      exact List.mem_flatMap.mpr ⟨item, hitem, hh⟩
  | _ => cases hitems

@[simp] theorem holdAll_append (vs vs' : List DynValue) :
    holdAll (vs ++ vs') = holdAll vs + holdAll vs' := by
  rw [holdAll, List.flatMap_append, ofHandles_append]
  rfl

@[simp] theorem holdAll_singleton (v : DynValue) : holdAll [v] = v.hold := by
  rw [holdAll, List.flatMap_singleton]
  rfl

theorem lendsAll_toRaw {F : Hold} {v : DynValue} {n : NativeValue} (hlent : LendsAll F v.handles)
    (hraw : v.toRaw? = some n) : LendsAll F n.handles := by
  cases v with
  | object t =>
      cases hraw
      intro h hh
      cases List.mem_singleton.mp hh
      refine hlent (.dynamic t) ?_
      simp [handles]
  | _ =>
      cases hraw
      try exact .nil

end DynValue

namespace Crossing

variable {F : Hold} {w : World}

theorem lendToDynamic_safe {v : NativeValue} (hlent : LendsAll F v.handles) :
    Act.Safe F 0 DynValue.hold w (lendToDynamic v) :=
  (keep_safe (.of_lends (NativeValue.lendsAll_toDyn hlent))).bind fun _ => .pure rfl

theorem toDynamic_safe (v : NativeValue) : Act.Safe F v.hold DynValue.hold w (toDynamic v) := by
  have hlend : Act.Safe F v.hold (fun d => v.hold + d.hold) w (lendToDynamic v) :=
    (Act.Safe.frame (lendToDynamic_safe (LendsAll.self v.handles).right)).cast (add_zero _).symm
      fun _ => rfl
  refine hlend.bind fun _ => ?_
  have hdiscard : Act.Safe F (v.hold + v.toDyn.hold) (fun _ => v.toDyn.hold) (lendToDynamic v w).2
      (discard v.handles) :=
    (Act.Safe.frame (G := v.toDyn.hold) discard_safe).cast (add_comm _ _) fun _ => (add_zero _).symm
  exact hdiscard.bind fun _ => .pure rfl

theorem lendAllToDynamic_safe {vs : List NativeValue}
    (hlent : LendsAll F (vs.flatMap NativeValue.handles)) :
    Act.Safe F 0 DynValue.holdAll w (vs.mapM lendToDynamic) := by
  induction vs generalizing w with
  | nil => exact .pure rfl
  | cons v vs ih =>
      rw [List.mapM_cons]
      have hv : LendsAll F v.handles := hlent.subset fun h hh => by simp [hh]
      have hvs : LendsAll F (vs.flatMap NativeValue.handles) := hlent.subset fun h hh => by
        rw [List.flatMap_cons]
        exact List.mem_append_right _ hh
      refine (lendToDynamic_safe hv).bind fun _ => ?_
      have hrest := Act.Safe.frame (G := v.toDyn.hold)
        ((ih hvs (w := (lendToDynamic v w).2)).mono _)
      refine (hrest.cast (add_zero _).symm fun _ => rfl).bind fun _ => .pure ?_
      rw [← List.singleton_append, DynValue.holdAll_append, DynValue.holdAll_singleton]
      rfl

theorem lendToRaw_safe {v : DynValue} (hlent : LendsAll F v.handles) :
    Act.Safe F 0 (fun r => r.elim 0 NativeValue.hold) w (lendToRaw v) := by
  unfold lendToRaw
  cases hraw : v.toRaw? with
  | none => exact .pure rfl
  | some n =>
      have hvouches : Vouches F w n.handles := .of_lends (DynValue.lendsAll_toRaw hlent hraw)
      exact (keep_safe hvouches).bind fun _ => .pure rfl

/-- A new instance that a conversion made goes to native code. -/
theorem nativeOf_safe {make : Act (Except Failure TwinId)}
    (hmake : Act.Safe F 0 (ofOk Hold.dynamic) w make) :
    Act.Safe F 0 (ofOk NativeValue.hold) w fun w =>
      match make w with
      | (.ok new, w) => (.ok (.object new), w.asNative new)
      | (.error f, w) => (.error f, w) := by
  intro R hreach
  have hpath := hmake R hreach
  dsimp only
  cases hresult : make w with
  | mk r u =>
      rw [hresult] at hpath
      cases r with
      | error f => exact hpath
      | ok new => exact hpath.trans World.asNative_path

theorem retain_safe {t : TwinId} (hlent : Lends F t) :
    Act.Safe F 0 (ofOk NativeValue.hold) w fun w =>
      ((.ok (.object t) : Except Failure NativeValue), w.retain (.native t)) := by
  intro R hreach
  refine (Transition.retain (h := .native t) (hreach.held_of_lent hlent)).path.cast rfl ?_
  rw [add_zero]
  rfl

theorem toNative_safe (context : String) {v : DynValue} (ty : NativeType)
    (hlent : LendsAll F v.handles) :
    Act.Safe F 0 (ofOk NativeValue.hold) w (toNative context v ty) := by
  unfold toNative
  cases v with
  | object t =>
      have ht : Lends F t := hlent (.dynamic t) (by simp [DynValue.handles])
      cases ty with
      | object c =>
          intro R hreach
          dsimp only
          by_cases hisA : w.isA t c
          · rw [if_pos hisA]
            exact nativeOf_safe (World.copyTwin_safe ht) R hreach
          · rw [if_neg hisA]
            exact .refl
      | ref c =>
          intro R hreach
          dsimp only
          by_cases hisA : w.isA t c
          · rw [if_pos hisA]
            exact retain_safe ht R hreach
          · rw [if_neg hisA]
            exact .refl
      | ptr c =>
          intro R hreach
          dsimp only
          by_cases hisA : w.isA t c
          · rw [if_pos hisA]
            exact retain_safe ht R hreach
          · rw [if_neg hisA]
            exact .refl
      | _ => exact fun _ _ => .refl
  | _ => cases ty <;> exact fun _ _ => .refl

/-- A copy is of the classes that its source is of. -/
theorem isA_copyTwin {t copy : TwinId} {u : World} {name : String}
    (hcopy : World.copyTwin t w = (.ok copy, u)) (hisA : w.isA t name) : u.isA copy name := by
  cases ha : w.twins[t]? with
  | none => simp [World.isA, World.twin?, ha] at hisA
  | some a =>
      rw [World.isA_eq ha] at hisA
      unfold World.copyTwin at hcopy
      rw [World.twin_eq ha] at hcopy
      dsimp only at hcopy
      split at hcopy
      · cases hcopy
      · cases hcopy
        have hnew : ((w.retainAll a.contents).admitTwin (a.reborn a.storage a.attrs)).1.twins[
            (w.retainAll a.contents).twins.size]? = some (a.reborn a.storage a.attrs) := by
          simp [World.admitTwin, World.record]
        exact (World.isA_eq hnew name).trans hisA

/-- What conversion to a type gives is of that type. -/
theorem toNative_fits {context : String} {v : DynValue} {ty : NativeType} {n : NativeValue}
    {u : World} (h : toNative context v ty w = (.ok n, u)) : u.Fits ty n := by
  have hshared : ∀ (name : String) (t : TwinId), ty.className? = some name → w.isA t name →
      (w.retain (.native t)).Fits ty (.object t) := by
    intro name t hclass hisA
    have hpersists : Persists w (w.retain (.native t)) :=
      Persists.modifyTwin _ fun a => ⟨rfl, rfl, id, id⟩
    refine World.Fits.mono (Or.inl ?_) hpersists
    exact (NativeValue.coerce_object hclass t).trans (if_pos hisA)
  unfold toNative at h
  cases v with
  | object t =>
      cases ty with
      | object c =>
          dsimp only at h
          split at h
          · rename_i hisA
            cases hcopy : World.copyTwin t w with
            | mk r w₁ =>
                rw [hcopy] at h
                cases r with
                | error f => cases h
                | ok copy =>
                    cases h
                    have hfits : w₁.Fits (.object c) (.object copy) :=
                      Or.inl ((NativeValue.coerce_object rfl copy).trans
                        (if_pos (isA_copyTwin hcopy hisA)))
                    exact hfits.mono (World.asNative_path (R := 0)).persists
          · cases h
      | ref c | ptr c =>
          dsimp only at h
          split at h
          · rename_i hisA
            cases h
            exact hshared c t rfl hisA
          · cases h
      | void => cases h; exact Or.inl rfl
      | _ => cases h
  | _ => cases ty <;> cases h <;> exact Or.inl rfl

/-- A value that is given away is still there after its conversion. -/
theorem toNative_keeping (context : String) (v : DynValue) (ty : NativeType) :
    Act.Safe F v.hold (fun r => v.hold + ofOk NativeValue.hold r) w (toNative context v ty) :=
  (Act.Safe.frame (toNative_safe context ty (LendsAll.self v.handles).right)).cast
    (add_zero _).symm fun _ => rfl

theorem resultToNative_safe (context : String) (strict : Bool) {v : DynValue} (ty : NativeType)
    (hlent : LendsAll F v.handles) :
    Act.Safe F 0 (ofOk NativeValue.hold) w (resultToNative context strict v ty) := by
  have hnative : Act.Safe F 0 (ofOk NativeValue.hold) w (toNative context v ty) :=
    toNative_safe context ty hlent
  intro R hreach
  unfold resultToNative
  cases ty with
  | void =>
      cases v with
      | none => exact .refl
      | _ =>
          dsimp only
          split <;> exact .refl
  | ptr c =>
      cases v with
      | object t =>
          have ht : Lends F t := hlent (.dynamic t) (by simp [DynValue.handles])
          dsimp only
          split
          · split
            · exact retain_safe ht R hreach
            · exact .refl
          · exact hnative R hreach
      | _ => exact hnative R hreach
  | object c =>
      cases v with
      | object t =>
          have ht : Lends F t := hlent (.dynamic t) (by simp [DynValue.handles])
          dsimp only
          split
          · exact nativeOf_safe (World.materializeTwin_safe ht) R hreach
          · exact hnative R hreach
      | _ => exact hnative R hreach
  | _ => exact hnative R hreach

theorem returnToNative_safe (context : String) (strict : Bool) (v : DynValue) (ty : NativeType) :
    Act.Safe F v.hold (ofOk NativeValue.hold) w (returnToNative context strict v ty) := by
  have hlent : LendsAll (F + v.hold) v.handles := (LendsAll.self v.handles).right
  have hresult := resultToNative_safe (w := w) context strict ty hlent
  refine ((Act.Safe.frame hresult).cast (add_zero _).symm fun _ => rfl).bind fun _ => ?_
  refine Act.Safe.bind (g := fun _ => ofOk NativeValue.hold _) ?_ fun _ => .pure rfl
  exact (Act.Safe.frame discard_safe).cast (add_comm _ _) fun _ => (add_zero _).symm

theorem coerceNative_safe {v : NativeValue} (ty : NativeType) (hvouches : Vouches F w v.handles) :
    Act.Safe F 0 (fun r => r.elim 0 NativeValue.hold) w (coerceNative v ty) := by
  intro R hreach
  unfold coerceNative
  cases hcoerce : v.coerce w.census ty with
  | none => exact .refl
  | some c =>
      exact keep_safe (hvouches.subset (NativeValue.handles_coerce hcoerce)) R hreach

theorem discardValues_safe {vs : List NativeValue} :
    Act.Safe F (NativeValue.holdAll vs) (fun _ => 0) w (discardValues vs) :=
  discard_safe

theorem convertAll_safe {α ε : Type} {convert : α → NativeType → Act (Except ε NativeValue)}
    {rest : List (α × NativeType)}
    (hconvert : ∀ p ∈ rest, ∀ u, Act.Safe F 0 (ofOk NativeValue.hold) u (convert p.1 p.2))
    (done : List NativeValue) :
    Act.Safe F (NativeValue.holdAll done) (ofOk NativeValue.holdAll) w
      (convertAll convert done rest) := by
  induction rest generalizing w done with
  | nil => exact .pure rfl
  | cons p rest ih =>
      obtain ⟨a, ty⟩ := p
      have hfirst := Act.Safe.frame (G := NativeValue.holdAll done)
        ((hconvert (a, ty) List.mem_cons_self w).mono _)
      refine (hfirst.cast (add_zero _).symm fun _ => rfl).bind fun _ => ?_
      cases (convert a ty w).1 with
      | ok v =>
          have hrest := ih (w := (convert a ty w).2) (fun q hq =>
            hconvert q (List.mem_cons_of_mem _ hq))
            (done ++ [v])
          refine hrest.cast ?_ fun _ => rfl
          rw [NativeValue.holdAll_append, NativeValue.holdAll_singleton]
          rfl
      | error e =>
          have hdiscard : Act.Safe F (NativeValue.holdAll done + 0) (fun _ => 0) (convert a ty w).2
              (discard (done.flatMap NativeValue.handles)) :=
            discard_safe.cast (add_zero _) fun _ => rfl
          exact hdiscard.bind fun _ => .pure rfl

/-- The arguments of a call as its candidates get them. -/
theorem toOption_safe {ε : Type} {convert : Act (Except ε (List NativeValue))}
    (hconvert : Act.Safe F 0 (ofOk NativeValue.holdAll) w convert) :
    Act.Safe F 0 (fun r => r.elim 0 NativeValue.holdAll) w
      (do return (← convert).toOption) := by
  refine hconvert.bind fun _ => .pure ?_
  cases (convert w).1 <;> rfl

theorem mem_of_zip {α : Type} {as : List α} {tys : List NativeType} {p : α × NativeType}
    (hp : p ∈ as.zip tys) : p.1 ∈ as :=
  (List.of_mem_zip hp).1

theorem argsToNative_safe (context : String) {args : List DynValue} (params : List NativeType)
    (fit : Fit) (hlent : LendsAll F (args.flatMap DynValue.handles)) :
    Act.Safe F 0 (fun r => r.elim 0 NativeValue.holdAll) w
      (argsToNative context args params fit) := by
  unfold argsToNative
  split
  · exact .pure rfl
  · split
    · exact .pure rfl
    · refine toOption_safe (convertAll_safe (fun p hp u => toNative_safe context p.2 ?_) [])
      exact hlent.subset fun h hh => List.mem_flatMap.mpr ⟨p.1, mem_of_zip hp, hh⟩

theorem coerceArgs_safe {args : List NativeValue} (params : List NativeType) (fit : Fit)
    (hlent : LendsAll F (args.flatMap NativeValue.handles)) :
    Act.Safe F 0 (fun r => r.elim 0 NativeValue.holdAll) w (coerceArgs args params fit) := by
  unfold coerceArgs
  split
  · exact .pure rfl
  · split
    · exact .pure rfl
    · refine toOption_safe (convertAll_safe (fun p hp u => ?_) [])
      have hp' : LendsAll F p.1.handles :=
        hlent.subset fun h hh => List.mem_flatMap.mpr ⟨p.1, mem_of_zip hp, hh⟩
      refine (coerceNative_safe p.2 (.of_lends hp')).bind fun _ => .pure ?_
      cases (coerceNative p.1 p.2 u).1 <;> rfl

end Crossing

/-- Whether the candidates of a call are tried safely. -/
structure Conversion.Safe (F : Hold) (conv : Conversion Act) : Prop where
  convert : ∀ (w : World) (params : List NativeType) (fit : Fit),
    Act.Safe F 0 (fun r => r.elim 0 NativeValue.holdAll) w (conv.convert params fit)
  discard : ∀ (w : World) (vs : List NativeValue),
    Act.Safe F (NativeValue.holdAll vs) (fun _ => 0) w (conv.discard vs)

namespace Crossing

variable {F : Hold}

theorem fromDynamic_safe (context : String) {args : List DynValue}
    (hlent : LendsAll F (args.flatMap DynValue.handles)) : (fromDynamic context args).Safe F where
  convert _ params fit := argsToNative_safe context params fit hlent
  discard _ _ := discardValues_safe

theorem fromNative_safe {args : List NativeValue}
    (hlent : LendsAll F (args.flatMap NativeValue.handles)) : (fromNative args).Safe F where
  convert _ params fit := coerceArgs_safe params fit hlent
  discard _ _ := discardValues_safe

end Crossing

end TwinObject
