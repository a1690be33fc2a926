/-
Containers and variables are safe: what is put in is given away, what is taken
out belongs to the caller, and what nothing refers to any more is let go.
-/
import TwinObject.Proofs.Reproduction
import TwinObject.Proofs.Safe.Member
import TwinObject.Eval

namespace TwinObject

open Hold

namespace World

variable {F R : Hold} {w : World}

section Held

theorem held_of_vec {i : Nat} {v : InstanceVec} (hv : w.vecs[i]? = some v) {t : TwinId}
    (ht : t ∈ v.items) : w.Held R t := by
  have hbag : Handle.native t ∈ bag InstanceVec.handles w.vecs :=
    mem_bag hv (List.mem_map_of_mem ht)
  refine ⟨.native t, ?_, rfl⟩
  simp only [rootBag, Multiset.mem_add]
  exact Or.inl (Or.inl (Or.inl (Or.inl (Or.inr hbag))))

theorem held_of_group {i : Nat} {g : SharedGroup} (hg : w.groups[i]? = some g)
    (hcount : g.count ≠ 0) : w.Held R g.target := by
  have hbag : Handle.native g.target ∈ bag SharedGroup.handles w.groups :=
    mem_bag hg (by simp [SharedGroup.handles, hcount])
  refine ⟨.native g.target, ?_, rfl⟩
  simp only [rootBag, Multiset.mem_add]
  exact Or.inl (Or.inl (Or.inl (Or.inr hbag)))

theorem held_of_var {x : String} {b : Binding} (hb : w.var? x = some b) {h : Handle}
    (hh : h ∈ b.handles) : w.Held R h.twin := by
  have hbag : h ∈ w.varBag :=
    Bindings.mem_total (f := fun b : Binding => (↑b.handles : Multiset Handle)) hb
      (Multiset.mem_coe.mpr hh)
  refine ⟨h, ?_, rfl⟩
  simp only [rootBag, Multiset.mem_add]
  exact Or.inl (Or.inr hbag)

theorem Held.of_handle {h : Handle} (hmem : Token.handle h ∈ R) : w.Held R h.twin :=
  ⟨h, Multiset.mem_add.mpr (Or.inr ((Multiset.mem_filterMap _ _).mpr ⟨_, hmem, rfl⟩)), rfl⟩

end Held

section Vectors

theorem vec_eq {i : Nat} {v : InstanceVec} (hv : w.vecs[i]? = some v) : w.vec i = v := by
  simp [vec, hv]

/-- A vector that is held is there. -/
theorem vec_of_held {i : Nat} (hreach : Reachable w R) (hi : Token.vec i ∈ R) :
    ∃ v, w.vecs[i]? = some v := by
  have hlt := hreach.invariant.contained.vecs i (Multiset.mem_add.mpr (Or.inr
    ((Multiset.mem_filterMap _ _).mpr ⟨.vec i, hi, rfl⟩)))
  exact ⟨_, Array.getElem?_eq_getElem hlt⟩

/-- A vector of which an item is read is there. -/
theorem exists_vec_of_item {i index : Nat} {t : TwinId} (hitem : (w.vec i).items[index]? = some t) :
    ∃ v, w.vecs[i]? = some v ∧ w.vec i = v ∧ t ∈ v.items := by
  cases hv : w.vecs[i]? with
  | none => simp [vec, hv] at hitem
  | some v =>
      rw [vec_eq hv] at hitem
      exact ⟨v, rfl, vec_eq hv, List.mem_of_getElem? hitem⟩

theorem vecGet_safe (i index : Nat) :
    Act.Safe F 0 (fun r => r.elim 0 Hold.dynamic) w (vecGet i index) := by
  intro R hreach
  unfold vecGet
  cases hitem : (w.vec i).items[index]? with
  | none => exact .refl
  | some t =>
      obtain ⟨v, hv, -, ht⟩ := exists_vec_of_item hitem
      refine (Transition.retain (h := .dynamic t) (held_of_vec hv ht)).path.cast rfl ?_
      rw [add_zero]
      rfl

theorem vecNative_safe (i index : Nat) :
    Act.Safe F 0 (fun r => r.elim 0 Hold.native) w (vecNative i index) := by
  intro R hreach
  unfold vecNative
  cases hitem : (w.vec i).items[index]? with
  | none => exact .refl
  | some t =>
      obtain ⟨v, hv, -, ht⟩ := exists_vec_of_item hitem
      refine (Transition.retain (h := .native t) (held_of_vec hv ht)).path.cast rfl ?_
      rw [add_zero]
      rfl

theorem vecRemove_safe (i index : Nat) :
    Act.Safe F 0 (fun r => r.elim 0 Hold.dynamic) w (vecRemove i index) := by
  intro R hreach
  unfold vecRemove
  cases hitem : (w.vec i).items[index]? with
  | none => exact .refl
  | some t =>
      obtain ⟨v, hv, hvec, ht⟩ := exists_vec_of_item hitem
      rw [hvec] at hitem
      obtain ⟨hlt, rfl⟩ := List.getElem?_eq_some_iff.mp hitem
      have hbag : ((v.items.eraseIdx index).map Handle.native ++
        [Handle.native v.items[index]]).Perm
          (v.handles ++ []) := by
        rw [List.append_nil, InstanceVec.handles, ← List.map_singleton, ← List.map_append]
        refine List.Perm.map _ (List.perm_append_comm.trans ?_)
        exact List.getElem_cons_eraseIdx_perm hlt
      have hstored := (Transition.storeVec (R := R + F) hv (v.items.eraseIdx index) [] _ hbag
        (.erase index)).path
      have hheld : (w.setItems i (v.items.eraseIdx index)).Held
          (R + F + ofHandles [.native v.items[index]]) v.items[index] :=
        Held.of_handle (h := .native v.items[index])
          (Multiset.mem_add.mpr (Or.inr (Multiset.mem_singleton_self _)))
      have hretained := (Transition.retain (h := .dynamic v.items[index]) hheld).path
      have hdropped := Path.drop (w := (w.setItems i (v.items.eraseIdx index)).retain
        (.dynamic v.items[index])) (R := R + F + Hold.dynamic v.items[index])
        [.native v.items[index]]
      simp only [hvec]
      refine (hstored.trans (hretained.trans (hdropped.cast ?_ rfl)))
      rw [Hold.dynamic, ofHandles_singleton (.dynamic _)]
      abel

theorem vecClear_path (i : Nat) (w : World) (R : Hold) : Path w R (vecClear i w) R := by
  unfold vecClear
  cases hv : w.vecs[i]? with
  | none =>
      have hsame : w.setItems i [] = w := by rw [setItems, modify_of_none hv]
      have hnone : (w.vec i).handles = [] := by simp [vec, hv, InstanceVec.handles]
      rw [hsame, hnone]
      exact (Path.drop []).cast (add_zero _).symm rfl
  | some v =>
      rw [vec_eq hv]
      have hstored := (Transition.storeVec (R := R) hv [] [] v.handles (by simp) .clear).path
      exact (hstored.cast (add_zero _).symm rfl).trans (Path.drop _)

theorem leaveVec_path (i : Nat) (w : World) (R : Hold) :
    Path w (R + {.vec i}) (leaveVec i w) R := by
  unfold leaveVec
  dsimp only
  split
  · exact (Transition.leaveVec i).path.trans (vecClear_path i _ R)
  · exact (Transition.leaveVec i).path

/-- What is made for a vector is an instance of its class, and newer than all that vectors
hold. -/
theorem edits_append {v : InstanceVec} {t n : TwinId} {u : World} {way : Reproduction}
    (hreach : Reachable w R) (hisA : w.isA t v.element)
    (hok : reproduce way t w = (.ok n, u)) :
    (u.asNative n).vecs = w.vecs ∧ (u.asNative n).Edits v (v.items ++ [n]) := by
  obtain ⟨a, ha⟩ := exists_of_isA hisA
  rw [isA_eq ha] at hisA
  have hcontinued := continued_of_ok ha hok
  obtain ⟨b, hb, hcontinues, -⟩ := hcontinued.twin
  have hvecs : (u.asNative n).vecs = w.vecs :=
    (vecs_asNative u n).trans (congrArg (·.vecs) hcontinued.frame)
  refine ⟨hvecs, .append ?_ fun j x hx s hs => ?_⟩
  · obtain ⟨c, hc, hrests⟩ := (Still.asNative u n).rests n b hb
    rw [isA_eq hc, hrests.kind, hcontinues.kind]
    exact hisA
  · rw [hvecs] at hx
    obtain ⟨c, hc⟩ := exists_of_isA (hreach.invariant.listed.classed j x hx s hs)
    rw [hcontinued.fresh]
    exact (Array.getElem?_eq_some_iff.mp hc).1

theorem vecAppend_safe {i : Nat} {t : TwinId} (hvec : Token.vec i ∈ F) (hlent : Lends F t)
    (way : Reproduction) : Act.Safe F 0 (fun _ => 0) w (vecAppend way i t) := by
  intro R hreach
  unfold vecAppend
  obtain ⟨v, hv⟩ := vec_of_held hreach (Multiset.mem_add.mpr (Or.inl
    (Multiset.mem_add.mpr (Or.inr hvec))))
  rw [vec_eq hv]
  dsimp only
  split
  · exact .refl
  · rename_i hisA
    rw [Bool.not_eq_true, Bool.not_eq_false'] at hisA
    have hpath := reproduce_safe hlent way R hreach
    cases hresult : reproduce way t w with
    | mk r u =>
        rw [hresult] at hpath
        cases r with
        | error f => exact hpath
        | ok new =>
            have hnative : Path w (R + F + 0) (u.asNative new) (R + F + Hold.native new) :=
              hpath.trans asNative_path
            obtain ⟨hvecs, hedits⟩ := edits_append hreach hisA hresult
            have hv' : (u.asNative new).vecs[i]? = some v := hvecs ▸ hv
            refine hnative.trans ?_
            dsimp only
            rw [vec_eq hv']
            exact (Transition.storeVec (R := R + F) hv' _ [.native new] []
              (by simp [InstanceVec.handles]) hedits).path

end Vectors

section Groups

theorem group_eq {i : Nat} {g : SharedGroup} (hg : w.groups[i]? = some g) : w.group i = g := by
  simp [group, hg]

/-- A pointer that is held is one of its group. -/
theorem group_of_pointer {i : Nat} {t : TwinId} (hreach : Reachable w (R + {.shared i t})) :
    ∃ g, w.groups[i]? = some g ∧ g.target = t := by
  have hpointer : (i, t) ∈ (R + {Token.shared i t}).pointers :=
    mem_pointers_add.mpr (Or.inr (by simp))
  exact hreach.invariant.contained.targets _ hpointer

theorem share_path (t : TwinId) (hreach : Reachable w (R + Hold.dynamic t)) :
    Path w (R + Hold.dynamic t) (share t w).2 (R + {.shared w.groups.size t}) := by
  have hlent : Lends (Hold.dynamic t) t := Lends.of_mem (List.mem_singleton_self (Handle.dynamic t))
  have howned := setOwner_safe hlent .shared R (hreach.along (Path.refl.cast rfl (add_zero _)))
  have hheld : (setOwner t .shared w).Held (R + Hold.dynamic t) t :=
    Held.of_handle (h := .dynamic t) (Multiset.mem_add.mpr (Or.inr (Multiset.mem_singleton_self _)))
  have hretained := (Transition.retain (h := .native t) hheld).path
  have hgrouped := (Transition.newGroup (w := (setOwner t .shared w).retain (.native t))
    (R := R + Hold.dynamic t) t).path
  have hdropped := Path.drop (w := { (setOwner t .shared w).retain (.native t) with
    groups := w.groups.push ⟨t, 1⟩ }) (R := R + {.shared w.groups.size t}) [.dynamic t]
  refine (howned.cast (add_zero _).symm (add_zero _).symm).trans (hretained.trans (hgrouped.trans
    (hdropped.cast ?_ rfl)))
  rw [Hold.dynamic, add_right_comm]
  rfl

theorem cloneShared_path {i : Nat} {g : SharedGroup} (hg : w.groups[i]? = some g)
    (hcount : g.count ≠ 0) : Path w R (cloneShared i w) (R + {.shared i g.target}) :=
  (Transition.cloneShared hg hcount).path

theorem dropShared_path {i : Nat} {t : TwinId} (hreach : Reachable w (R + {.shared i t})) :
    Path w (R + {.shared i t}) (dropShared i w) R := by
  obtain ⟨g, hg, rfl⟩ := group_of_pointer hreach
  have hleft := (Transition.leaveGroup (R := R) hg).path
  unfold dropShared
  rw [group_eq hg, modify_eq_setIfInBounds hg]
  dsimp only
  by_cases hcount : g.count = 1
  · rw [if_pos hcount] at hleft ⊢
    exact hleft.trans (Path.drop [.native g.target])
  · rw [if_neg hcount, add_zero] at hleft
    rw [if_neg hcount]
    exact hleft

end Groups

section Variables

theorem takeResult_safe (i : Nat) :
    Act.Safe F 0 (fun r => r.elim 0 (ofOk DynValue.hold)) w (takeResult i) := by
  intro R hreach
  unfold takeResult
  split
  · rename_i interp code r hth
    have htaken := (Transition.takeResult (R := R + F) hth).path
    rw [modify_eq_setIfInBounds hth]
    refine htaken.cast (add_zero _) ?_
    cases r <;> rfl
  · exact .refl

/-- A binding that was given away is let go. -/
theorem dropBinding_path (b : Binding) (hreach : Reachable w (R + w.bindingHold b)) :
    Path w (R + w.bindingHold b) (dropBinding b w) R := by
  cases b with
  | dyn v => exact Path.drop _
  | native v => exact Path.drop _
  | vec i => exact leaveVec_path i w R
  | shared i => exact dropShared_path hreach
  | signal i => exact Path.refl.cast (add_zero _) rfl
  | thread i =>
      have htaken := takeResult_safe (F := 0) i R
        (hreach.along (Path.refl.cast rfl (by simp [bindingHold])))
      unfold dropBinding
      dsimp only
      cases hresult : takeResult i w with
      | mk r u =>
          rw [hresult] at htaken
          rcases r with _ | (e | v)
          · exact htaken.cast (by simp [bindingHold]) (by simp)
          · exact htaken.cast (by simp [bindingHold]) (by simp)
          · exact (htaken.cast (by simp [bindingHold]) rfl).trans
              ((Path.drop v.handles).cast (by simp; rfl) rfl)

/-- Binding a variable takes the new value and lets go of the old one. -/
theorem setVar_path (x : String) (b : Binding) (hreach : Reachable w (R + w.bindingHold b)) :
    Path w (R + w.bindingHold b) (setVar x b w) R := by
  have hbound := (Transition.bind (w := w) (R := R) x b).path
  have hthere := hreach.along hbound
  unfold setVar
  unfold varHold at hbound hthere
  dsimp only
  cases hold : w.var? x with
  | none =>
      rw [hold] at hbound
      exact hbound.cast rfl (add_zero R).symm
  | some old =>
      rw [hold] at hbound hthere
      exact hbound.trans (dropBinding_path (w := w.setVars (w.scope.vars.put x b)) old hthere)

theorem takeVar_path (x : String) (w : World) (R : Hold) :
    Path w R (takeVar x w).2 (R + w.varHold x) :=
  (Transition.unbind x).path

theorem readDyn_safe (x : String) : Act.Safe F 0 DynValue.hold w (readDyn x) := by
  intro R hreach
  unfold readDyn
  split
  · rename_i v hvar
    refine (Path.retainAll v.handles fun h hh => held_of_var hvar hh).cast rfl ?_
    rw [add_zero]
    rfl
  · rename_i v hvar
    refine (Path.retainAll v.toDyn.handles fun h hh => ?_).cast rfl (by rw [add_zero]; rfl)
    cases v with
    | object t =>
        cases List.mem_singleton.mp hh
        exact held_of_var (h := .native t) hvar (List.mem_singleton_self _)
    | _ => cases hh
  · exact .refl

theorem readNative_safe (x : String) :
    Act.Safe F 0 (fun r => r.elim 0 NativeValue.hold) w (readNative x) := by
  intro R hreach
  unfold readNative
  split
  · rename_i v hvar
    unfold Crossing.lendToRaw
    cases hraw : v.toRaw? with
    | none => exact .refl
    | some n =>
        refine (Path.retainAll n.handles fun h hh => ?_).cast rfl (by rw [add_zero]; rfl)
        cases v with
        | object t =>
            cases hraw
            cases List.mem_singleton.mp hh
            exact held_of_var (h := .dynamic t) hvar (by simp [Binding.handles, DynValue.handles])
        | _ =>
            cases hraw
            try cases hh
  · rename_i v hvar
    refine (Path.retainAll v.handles fun h hh => held_of_var hvar hh).cast rfl ?_
    rw [add_zero]
    rfl
  · exact .refl

theorem lt_of_vecVar (hreach : Reachable w R) {x : String} {i : Nat} (hx : w.vecVar? x = some i) :
    i < w.vecs.size := by
  unfold vecVar? at hx
  split at hx
  · rename_i j hvar
    cases hx
    have hmem : i ∈ w.varVecs := Bindings.mem_total hvar (Multiset.mem_singleton_self i)
    exact hreach.invariant.contained.vecs i (Multiset.mem_add.mpr (Or.inl hmem))
  · cases hx

/-- A group that a variable points to has an instance. -/
theorem group_of_sharedVar (hreach : Reachable w R) {x : String} {i : Nat}
    (hx : w.sharedVar? x = some i) : ∃ g, w.groups[i]? = some g ∧ g.count ≠ 0 := by
  unfold sharedVar? at hx
  split at hx
  · rename_i j hvar
    cases hx
    have hmem : i ∈ w.varGroups := Bindings.mem_total hvar (Multiset.mem_singleton_self i)
    have hlt := hreach.invariant.contained.groups i hmem
    refine ⟨w.groups[i], Array.getElem?_eq_getElem hlt, ?_⟩
    have hcount := hreach.invariant.contained.counted i _ (Array.getElem?_eq_getElem hlt)
    have hpos := Multiset.count_pos.mpr (Multiset.mem_add.mpr (Or.inl hmem) : i ∈ _ + R.groups)
    omega
  · cases hx

theorem group_of_lent {T : Hold} {i : Nat} {t : TwinId} (hreach : Reachable w (R + F + T))
    (hlent : Token.shared i t ∈ F) : (w.group i).target = t := by
  have hpointer : (i, t) ∈ (R + F + T).pointers := (Multiset.mem_filterMap _ _).mpr
    ⟨_, Multiset.mem_add.mpr (Or.inl (Multiset.mem_add.mpr (Or.inr hlent))), rfl⟩
  obtain ⟨g, hg, htarget⟩ := hreach.invariant.contained.targets _ hpointer
  rw [group_eq hg, htarget]

end Variables

end World

end TwinObject
