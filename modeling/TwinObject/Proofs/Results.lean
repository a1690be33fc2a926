/-
Results of overrides.  A value that an override returns is given to native code as the
declared return type of its slot says: an instance by value as a new one like it, by pointer
unless the dynamic side owns it, by reference as it is.  What does not suit is refused, and
left as it was.
-/
import TwinObject.Proofs.Exceptions
import TwinObject.Proofs.Finished
import TwinObject.Proofs.Fitting
import TwinObject.Proofs.History
import TwinObject.Proofs.Reproduction

namespace TwinObject

open Hold

namespace DynValue

/-- Whether a result is one for a slot of the given return type, where it counts as `m`: it fits
the type, is nothing if results of void slots are strict, and can be copied or moved if it goes
by value. -/
structure Suits (v : World) (strict : Bool) (ty : NativeType) (r : DynValue) (m : NativeValue) :
    Prop where
  fits : r.coerce v.census ty = some m
  nothing : ty = .void → strict = true → r = .none
  duplicable : ∀ c s, ty = .object c → m = .object s →
    (v.twin s).MayBe .copy ∨ (v.twin s).MayBe .move

variable {v : World} {ty : NativeType} {r : DynValue} {m : NativeValue}

theorem isA_of_coerce {c : String} {t : TwinId} (hclass : ty.className? = some c)
    (h : (object t).coerce v.census ty = some m) : v.isA t c = true ∧ m = .object t := by
  rw [coerce_object hclass, World.isA_census] at h
  split at h
  · rename_i hisA
    exact ⟨hisA, (Option.some.inj h).symm⟩
  · cases h

theorem coerce_coerce (h : r.coerce v.census ty = some m) : m.coerce v.census ty = some m := by
  cases ty with
  | void => cases h; rfl
  | bool | int | double | str => cases r <;> cases h <;> rfl
  | object c | ref c | ptr c =>
      cases r with
      | object t =>
          obtain ⟨hisA, rfl⟩ := isA_of_coerce rfl h
          exact (NativeValue.coerce_object rfl t).trans (if_pos hisA)
      | none => first | (cases h; rfl) | cases h
      | _ => cases h

/-- A result fits the type of its slot if it is a value of that type, and nothing where just
that is wanted. -/
theorem fitsResult_iff {census : Census} {strict : Bool} : r.fitsResult census strict ty = true
    ↔ (∃ m, r.coerce census ty = some m) ∧ (ty = .void → strict = true → r = .none) := by
  cases ty with
  | void => cases r <;> cases strict <;> simp [fitsResult, coerce]
  | bool | int | double | str => cases r <;> simp [fitsResult, coerce]
  | object c | ref c | ptr c => cases r <;> simp [fitsResult, coerce]

end DynValue

namespace World

variable {v v' u : World} {s : TwinId} {c : String}

theorem has_of_coerce {ty : NativeType} {n : NativeValue} (h : n.coerce v.census ty = some n) :
    v.Has n.handles := by
  cases n with
  | object s =>
      rintro _ hmem
      cases List.mem_singleton.mp hmem
      cases ty with
      | object c | ref c | ptr c =>
          rw [NativeValue.coerce_object rfl] at h
          split at h
          · rename_i hisA
            obtain ⟨x, hx⟩ := exists_of_isA hisA
            exact (Array.getElem?_eq_some_iff.mp hx).1
          · cases h
      | _ => cases h
  | _ => exact nofun

/-- What is made for a result by value. -/
theorem materializeTwin_continues {x : Twin} (hx : v.twins[s]? = some x)
    (hmay : x.MayBe .copy ∨ x.MayBe .move) :
    ∃ n u, materializeTwin s v = (.ok n, u) ∧ Continued v x n u := by
  by_cases hcopy : x.MayBe .copy
  · obtain ⟨n, u, hok, hcopied⟩ := materializeTwin_copied hx hcopy
    exact ⟨n, u, hok, hcopied.toContinued⟩
  · obtain ⟨n, u, hok, hmoved⟩ := materializeTwin_moved hx hcopy (hmay.resolve_left hcopy)
    exact ⟨n, u, hok, hmoved.toContinued⟩

end World

/-- What native code is given for a result that counts as `m`: for an instance by value a new
native-owned one like it; for a pointer nothing if the dynamic side owns the instance; and else
the very same. -/
def Call.Given (v u : World) (ty : NativeType) (m n : NativeValue) : Prop :=
  match ty, m with
  | .object _, .object s => ∃ i y, n = .object i ∧ v.twins.size ≤ i ∧ u.twins[i]? = some y
      ∧ (v.twin s).Continues y
  | .ptr _, .object s => n = if (v.twin s).owner = .dynamic then .null else .object s
  | _, _ => n = m

namespace Crossing

variable {v : World} {strict : Bool} {ty : NativeType} {r : DynValue} {m : NativeValue}

section Objects

variable {c : String} {s : TwinId}

theorem resultToNative_void (context : String) (hnothing : strict = true → r = .none) :
    resultToNative context strict r .void v = (.ok .void, v) := by
  cases r with
  | none => rfl
  | _ =>
      cases strict with
      | false => rfl
      | true => cases hnothing rfl

theorem resultToNative_ref (context : String) (hisA : v.isA s c = true) :
    resultToNative context strict (.object s) (.ref c) v
      = (.ok (.object s), v.retain (.native s)) := by
  simp [resultToNative, toNative, hisA]

/-- A pointer to what the dynamic side owns is withheld. -/
theorem resultToNative_ptr_withheld (context : String) (hisA : v.isA s c = true)
    (howner : (v.twin s).owner = .dynamic) :
    resultToNative context strict (.object s) (.ptr c) v = (.ok .null, v) := by
  simp [resultToNative, hisA, howner, Ownership.nativeMayHold]

theorem resultToNative_ptr_shared (context : String) (hisA : v.isA s c = true)
    (howner : (v.twin s).owner ≠ .dynamic) :
    resultToNative context strict (.object s) (.ptr c) v
      = (.ok (.object s), v.retain (.native s)) := by
  cases h : (v.twin s).owner with
  | dynamic => exact absurd h howner
  | native | shared => simp [resultToNative, hisA, h, Ownership.nativeMayHold]

/-- By value a new instance is given, which takes on the contents of the result and is of the
type of the slot as well. -/
theorem resultToNative_object (context : String) (hisA : v.isA s c = true)
    (hmay : (v.twin s).MayBe .copy ∨ (v.twin s).MayBe .move) :
    ∃ i u, resultToNative context strict (.object s) (.object c) v
        = (.ok (.object i), u.asNative i)
      ∧ Call.Given v u (.object c) (.object s) (.object i)
      ∧ (NativeValue.object i).coerce u.census (.object c) = some (.object i) := by
  obtain ⟨x, hx⟩ := World.exists_of_isA hisA
  rw [World.twin_eq hx] at hmay
  obtain ⟨i, u, hok, hcontinued⟩ := World.materializeTwin_continues hx hmay
  obtain ⟨y, hy, hlike, -⟩ := hcontinued.twin
  refine ⟨i, u, by simp [resultToNative, hisA, hok], ?_, ?_⟩
  · exact ⟨i, y, rfl, hcontinued.fresh.ge, hy, World.twin_eq hx ▸ hlike⟩
  · rw [World.isA_eq hx] at hisA
    refine (NativeValue.coerce_object rfl i).trans (if_pos ?_)
    rw [World.isA_census, World.isA_eq hy, hlike.kind]
    exact hisA

end Objects

/-- A result that suits is converted.  What is given for it is there before handles change
hands, and is of the type. -/
theorem resultToNative_suits (context : String) (h : r.Suits v strict ty m) :
    ∃ n u, (resultToNative context strict r ty v).1 = .ok n
      ∧ u.Still (resultToNative context strict r ty v).2 ∧ Call.Given v u ty m n
      ∧ n.coerce u.census ty = some n := by
  obtain ⟨hfits, hnothing, hduplicable⟩ := h
  have hof := DynValue.coerce_coerce hfits
  cases ty with
  | void =>
      cases hfits
      rw [resultToNative_void context (hnothing rfl)]
      exact ⟨.void, v, rfl, .refl v, rfl, hof⟩
  | bool | int | double | str =>
      cases r <;> cases hfits <;> exact ⟨_, v, rfl, .refl v, rfl, hof⟩
  | ref c =>
      cases r with
      | object s =>
          obtain ⟨hisA, rfl⟩ := DynValue.isA_of_coerce rfl hfits
          rw [resultToNative_ref context hisA]
          exact ⟨.object s, v, rfl, .retain v _, rfl, hof⟩
      | _ => cases hfits
  | ptr c =>
      cases r with
      | none =>
          cases hfits
          exact ⟨.null, v, rfl, .refl v, rfl, hof⟩
      | object s =>
          obtain ⟨hisA, rfl⟩ := DynValue.isA_of_coerce rfl hfits
          by_cases howner : (v.twin s).owner = .dynamic
          · rw [resultToNative_ptr_withheld context hisA howner]
            exact ⟨.null, v, rfl, .refl v, (if_pos howner).symm, rfl⟩
          · rw [resultToNative_ptr_shared context hisA howner]
            exact ⟨.object s, v, rfl, .retain v _, (if_neg howner).symm, hof⟩
      | _ => cases hfits
  | object c =>
      cases r with
      | object s =>
          obtain ⟨hisA, rfl⟩ := DynValue.isA_of_coerce rfl hfits
          obtain ⟨i, u, hmade, hgiven, hfresh⟩ :=
            resultToNative_object context hisA (hduplicable c s rfl rfl)
          rw [hmade]
          exact ⟨.object i, u, rfl, .asNative u i, hgiven, hfresh⟩
      | _ => cases hfits

/-- What does not suit is refused, and nothing is done with it. -/
theorem resultToNative_unsuited (context : String) (h : ∀ m, ¬r.Suits v strict ty m) :
    ∃ f, resultToNative context strict r ty v = (.error f, v) := by
  by_cases hfits : r.fitsResult v.census strict ty = true
  · obtain ⟨⟨m, hm⟩, hnothing⟩ := DynValue.fitsResult_iff.mp hfits
    have hbarred : ∃ c s, ty = .object c ∧ m = .object s
        ∧ ¬((v.twin s).MayBe .copy ∨ (v.twin s).MayBe .move) := by
      by_contra hfree
      refine h m ⟨hm, hnothing, fun c s hty hobject => ?_⟩
      by_contra hmay
      exact hfree ⟨c, s, hty, hobject, hmay⟩
    obtain ⟨c, s, rfl, rfl, hmay⟩ := hbarred
    obtain rfl := DynValue.eq_object_of_coerce hm
    obtain ⟨hisA, -⟩ := DynValue.isA_of_coerce rfl hm
    obtain ⟨x, hx⟩ := World.exists_of_isA hisA
    rw [World.twin_eq hx, not_or] at hmay
    obtain ⟨f, hrefused, -⟩ := World.materializeTwin_refused hx hmay.1 hmay.2
    exact ⟨f, by simp [resultToNative, hisA, hrefused]⟩
  · exact ⟨_, resultToNative_misfit context (Bool.eq_false_iff.mpr hfits)⟩

end Crossing

theorem World.Still.setLock (w : World) (i : InterpId) (l : Lock) : w.Still (w.setLock i l) :=
  .of_eq rfl

/-- No number of a twin is ever given again. -/
theorem Persists.size_le {w u : World} (h : Persists w u) : w.twins.size ≤ u.twins.size := by
  by_contra hlt
  obtain ⟨b, hb, -⟩ := h.twins u.twins.size _ (Array.getElem?_eq_getElem (Nat.not_le.mp hlt))
  exact Nat.lt_irrefl _ (Array.getElem?_eq_some_iff.mp hb).1

theorem Crossing.value_mapM_lend (vs : List NativeValue) (w : World) :
    (vs.mapM lendToDynamic w).1 = vs.map NativeValue.toDyn := by
  induction vs generalizing w with
  | nil => rfl
  | cons v vs ih =>
      rw [List.mapM_cons]
      exact congrArg (v.toDyn :: ·) (ih _)

namespace Call

variable {h : Host} {F E E' : Hold} {w u : World} {e : Ending Failure NativeValue}

/-- What a stub holds while an override runs: handles to the instance and the arguments. -/
def stubHandles (t : TwinId) (args : List NativeValue) : List Handle :=
  (args.map NativeValue.toDyn).flatMap DynValue.handles ++ [.dynamic t]

/-- What a stub makes of a value that an override returned, before it lets go of that. -/
def stubResult (c : DynamicClass) (slot : Slot) (v : World) (r : DynValue) :
    Except Failure NativeValue × World :=
  Crossing.resultToNative ("return value of '" ++ c.name ++ "::" ++ slot.key.name ++ "'")
    (v.interp c.interp).options.strictVoid r slot.ret v

theorem stubEnd_ok {c : DynamicClass} {slot : Slot} {v : World} {r : DynValue} {n : NativeValue}
    (h : (stubResult c slot v r).1 = .ok n) : stubEnd c slot v (.value r) = .value n := by
  have hresult : (Crossing.returnToNative _ _ r slot.ret v).1 = .ok n := h
  simp only [stubEnd, hresult]

theorem stubEnd_error {c : DynamicClass} {slot : Slot} {v : World} {r : DynValue} {f : Failure}
    (h : (stubResult c slot v r).1 = .error f) : stubEnd c slot v (.value r) = .raised f := by
  have hresult : (Crossing.returnToNative _ _ r slot.ret v).1 = .error f := h
  simp only [stubEnd, hresult]

/-- A finished run of a stub is one of the override, and of what is made of its end. -/
theorem runOverride_comes (hattained : Attained w (E + F)) {c : DynamicClass} {slot : Slot}
    {m : Method} {t : TwinId} {args : List NativeValue}
    (hcomes : (runOverride h c slot m t args).Comes F E w E' e u) :
    ∃ x G b v, (h.dynamic .slot t (args.map NativeValue.toDyn) m.body).Comes
        (F + ofHandles (stubHandles t args)) G x E' b v
      ∧ e = stubEnd c slot v b ∧ ∀ r, b = .value r → (stubResult c slot v r).2.Still u := by
  obtain ⟨x, l, y, G, hthere, -, hinside, rfl⟩ := hcomes.of_locked hattained
  replace hinside := hinside.of_modify_bind.of_modify_bind.of_act_bind
  rw [Crossing.value_mapM_lend] at hinside
  obtain ⟨z, hheld, rfl⟩ := hinside.of_holding
  rcases hheld.of_outcome_bind with ⟨r, v, H, hbody, hrest⟩ | ⟨f, v, H, hbody, hrest⟩
    | ⟨text, rfl, hbody⟩
  · replace hrest := hrest.of_reads_bind.of_act_bind
    obtain ⟨rfl, rfl, hend⟩ := hrest.of_ofExcept
    refine ⟨_, _, _, _, hbody, ?_, fun r' hr => ?_⟩
    · rcases hend with ⟨n, hok, rfl⟩ | ⟨f, herror, rfl⟩
      · exact (stubEnd_ok hok).symm
      · exact (stubEnd_error herror).symm
    · cases hr
      exact ((World.Still.drop _ _).trans (.drop _ _)).trans (.setLock _ _ _)
  · cases hrest.of_modify_bind
    exact ⟨_, _, _, _, hbody, rfl, nofun⟩
  · exact ⟨_, _, _, _, hbody, rfl, nofun⟩

/-- A call of a slot that the instance's class overrides is one of the stub, once the override
was looked up. -/
theorem callSlot_overridden (hmemo : h.dispatcher = .memo) (hattained : Attained w (E + F))
    {t : TwinId} (hlent : Lends F t) {c : DynamicClass} (hkind : (w.twin t).kind = .dynamic c)
    {index : Nat} {slot : Slot} (hslot : c.vtable.get? index = some slot) {m : Method}
    (hm : c.override? slot = some m) (args : List NativeValue) :
    ∃ x, Attained x (E + F) ∧ callSlot h t index args w = runOverride h c slot m t args x := by
  obtain ⟨a, ha, hlive⟩ := hattained.alive_of_lent hlent.right
  rw [World.twin_eq ha] at hkind
  have hknows : ∀ R, Reachable w R → w.Knows c := fun R hreach => by
    have hkeeps := hreach.invariant.keepsKind_of_live ha hlive
    rwa [hkind] at hkeeps
  have hfound : (World.lookupOverride c index slot w).1 = some m :=
    hattained.reached fun S hreach => hm ▸ World.lookupOverride_eq hreach (hknows _ hreach) hslot
  have hthere : Attained (World.lookupOverride c index slot w).2 (E + F + 0) :=
    (Attained.along (hattained.cast (add_zero _)) fun S hreach =>
      World.lookupOverride_path hreach (hknows _ hreach) hslot).1
  refine ⟨_, hthere.cast (add_zero _).symm, ?_⟩
  replace hslot : (Kind.dynamic c).vtable.get? index = some slot := hslot
  rw [callSlot, Run.reads_then (f := fun w => (w.twin t).kind)
    ((congrArg Twin.kind (World.twin_eq ha)).trans hkind), hslot]
  dsimp only
  rw [dispatch, hmemo]
  exact Run.act_then hfound

/-- What native code gets by the end in `u` for a value that an override returned in `v`: a value
of the declared type, of which an instance is alive, or an error that leaves all instances as
they were. -/
structure HandsOver (strict : Bool) (ty : NativeType) (r : DynValue) (v : World)
    (e : Ending Failure NativeValue) (u : World) : Prop where
  accepted : ∀ m, r.Suits v strict ty m → ∃ n, e = .value n ∧ n.coerce u.census ty = some n
    ∧ Given v u ty m n ∧ ∀ i, n = .object i → u.Alive i
  refused : (∀ m, ¬r.Suits v strict ty m) → (∃ f, e = .raised f) ∧ v.Rests u

/-- What is given stays what it is while handles change hands, if it is alive then. -/
theorem Given.still {v x : World} {ty : NativeType} {m n : NativeValue} (h : Given v x ty m n)
    (hstill : x.Still u) (halive : ∀ i, n = .object i → u.Alive i) : Given v u ty m n := by
  cases ty with
  | object c =>
      cases m with
      | object s =>
          obtain ⟨i, y, rfl, hfresh, hy, hlike⟩ := h
          obtain ⟨z, hz, hlive⟩ := halive i rfl
          exact ⟨i, z, rfl, hfresh, hz, hlike.rests (hstill.rests.twin hy hz) hlive⟩
      | _ => exact h
  | ptr c => cases m <;> exact h
  | _ => exact h

/-- The end of a stub hands the value of its override over. -/
theorem handsOver_of_stubEnd {c : DynamicClass} {slot : Slot} {r : DynValue} {v : World}
    (hstill : (stubResult c slot v r).2.Still u)
    (halive : ∀ i, stubEnd c slot v (.value r) = .value (.object i) → u.Alive i) :
    HandsOver (v.interp c.interp).options.strictVoid slot.ret r v
      (stubEnd c slot v (.value r)) u where
  accepted m hsuits := by
    obtain ⟨n, x, hok, hbefore, hgiven, hof⟩ := Crossing.resultToNative_suits _ hsuits
    have hend : stubEnd c slot v (.value r) = .value n := stubEnd_ok hok
    have hlater := hbefore.trans hstill
    replace halive : ∀ i, n = .object i → u.Alive i := fun i hi => halive i (hi ▸ hend)
    refine ⟨n, hend, ?_, hgiven.still hlater halive, halive⟩
    rw [NativeValue.coerce_rests hlater.rests (World.has_of_coerce hof), hof]
  refused hnone := by
    obtain ⟨f, hrefused⟩ := Crossing.resultToNative_unsuited
      ("return value of '" ++ c.name ++ "::" ++ slot.key.name ++ "'") hnone
    replace hrefused : stubResult c slot v r = (.error f, v) := hrefused
    rw [hrefused] at hstill
    exact ⟨⟨f, stubEnd_error (congrArg Prod.fst hrefused)⟩, hstill.rests⟩

/-- A value that comes out of a stub is given for one that suits. -/
theorem HandsOver.suits {strict : Bool} {ty : NativeType} {r : DynValue} {v : World}
    {n : NativeValue} (h : HandsOver strict ty r v (.value n) u) :
    ∃ m, r.Suits v strict ty m ∧ n.coerce u.census ty = some n ∧ Given v u ty m n
      ∧ ∀ i, n = .object i → u.Alive i := by
  by_cases hsuits : ∃ m, r.Suits v strict ty m
  · obtain ⟨m, hm⟩ := hsuits
    obtain ⟨n, hn, hgiven⟩ := h.accepted m hm
    cases hn
    exact ⟨m, hm, hgiven⟩
  · obtain ⟨⟨f, hf⟩, -⟩ := h.refused fun m hm => hsuits ⟨m, hm⟩
    cases hf

/-- A result by value is a new instance. -/
theorem HandsOver.fresh {strict : Bool} {name : String} {r : DynValue} {v : World} {i : TwinId}
    (h : HandsOver strict (.object name) r v (.value (.object i)) u) :
    v.twins.size ≤ i ∧ i < u.twins.size := by
  obtain ⟨m, hm, -, hgiven, -⟩ := h.suits
  have hfits := hm.fits
  cases r with
  | object s =>
      obtain ⟨-, rfl⟩ := DynValue.isA_of_coerce rfl hfits
      obtain ⟨j, y, hj, hfresh, hy, -⟩ := hgiven
      cases hj
      exact ⟨hfresh, (Array.getElem?_eq_some_iff.mp hy).1⟩
  | _ => cases hfits

end Call

/-- What a stub hands over.  Whenever a call runs an override, and however other threads run
meanwhile, its end is that of the override as native code sees it.  A value that suits the
slot's return type comes out as one of that type: an instance by value as a native-owned one
that was not there when the override returned, with both halves as they were then; by pointer
as itself unless the dynamic side owns it, which gives null as nothing does; by reference as
itself; and anything as void, where just nothing suits if results are strict.  An instance that
is handed over is alive, whoever held it before.  A value that does not suit is an error, and
all instances stay as they were.  No result by value is the one of another call. -/
theorem results_handed_over (depth : Nat) :
    (∀ (F E : Hold) (w : World) (t : TwinId) (c : DynamicClass) (index : Nat) (slot : Slot)
      (m : Method) (args : List NativeValue), Attained w (E + F) → Lends F t →
      LendsAll F (args.flatMap NativeValue.handles) → (w.twin t).kind = .dynamic c →
      c.vtable.get? index = some slot → c.override? slot = some m →
      ∀ E' e u, (Call.callSlot (.nested .memo depth) t index args).Comes F E w E' e u →
        ∃ x G b v, ((Host.nested .memo depth).dynamic .slot t (args.map NativeValue.toDyn)
            m.body).Comes (F + ofHandles (Call.stubHandles t args)) G x E' b v
          ∧ match b with
            | .value r => Call.HandsOver (v.interp c.interp).options.strictVoid slot.ret r v e u
            | .raised y => e = .raised y.capture
            | .panicked text => e = .panicked text)
    ∧ ∀ (strict strict' : Bool) (name name' : String) (r r' : DynValue) (v u v' u' : World)
      (i j : TwinId), Call.HandsOver strict (.object name) r v (.value (.object i)) u →
        Persists u v' → Call.HandsOver strict' (.object name') r' v' (.value (.object j)) u' →
          i < j := by
  constructor
  · intro F E w t c index slot m args hattained hlent hargs hkind hslot hm E' e u hcomes
    have hsafe := Host.nested_safe Dispatcher.memo.noSlot Dispatcher.memo.bare depth
    have hthere : (w.twin t).kind.vtable.get? index = some slot := by
      rw [hkind]
      exact hslot
    have hends : e.Leaves F NativeValue.hold (fun _ _ => True) E' u :=
      ((Call.callSlot_safe hsafe hlent hthere hargs).comes
        (hattained.cast (add_zero _)) hcomes).1
    obtain ⟨x, hx, hcall⟩ :=
      Call.callSlot_overridden hsafe.remembers hattained hlent hkind hslot hm args
    have hstub : (Call.runOverride (.nested .memo depth) c slot m t args).Comes F E x E' e u := by
      rw [Run.Comes, ← hcall]
      exact hcomes
    obtain ⟨y, G, b, v, hbody, rfl, hstill⟩ := Call.runOverride_comes hx hstub
    refine ⟨y, G, b, v, hbody, ?_⟩
    cases b with
    | raised f => rfl
    | panicked text => rfl
    | value r =>
        refine Call.handsOver_of_stubEnd (hstill r rfl) fun i hi => ?_
        rw [hi] at hends
        exact hends.1.alive_of_lent (Lends.of_native i)
  · intro strict strict' name name' r r' v u v' u' i j hfirst hbetween hsecond
    exact (hfirst.fresh.2.trans_le hbetween.size_le).trans_le hsecond.fresh.1

/-! A mirror is a gauge that returns itself where another gauge is asked for. -/

namespace Mirror

open Session

def steps : List Step :=
  [.declareNative "Gauge"
      { name := "Gauge"
        parents := []
        members := [⟨"level", .int, .everyone, .lit (.int 0)⟩]
        constructors := []
        virtuals := [⟨⟨"again", [], false⟩, .object "Gauge", none⟩]
        methods := []
        virtualDtor := true
        copyPolicy := .everyone
        hooks := [] },
    .declareClass "Mirror" "Mirror" (some (.native "Gauge")) [⟨"again", some 0, .this⟩] none []
      "main",
    .evalDyn (.new "Mirror" (.tuple [])) (some "x")]

def made : World := (after (.nested .memo 3) steps).world

/-- An instance that a variable holds, and native code besides. -/
def held : World := made.retainAll [.native 0]

theorem attained : Attained held (0 + ofHandles [.native 0]) := by
  have hidle : (after (.nested .memo 3) steps).waiters = [] :=
    List.isEmpty_iff.mp (by decide +kernel)
  have hmade : Attained made 0 := by
    have hreached := attained_after 3 steps
    rw [waiting, hidle] at hreached
    exact hreached
  have hrooted : .dynamic 0 ∈ made.rootBag := by
    have hroots : made.roots = [.dynamic 0] := by
      decide +kernel
    rw [← World.coe_roots, hroots]
    exact List.mem_cons_self
  refine (Attained.along (hmade.cast (add_zero 0)) fun S _ => ?_).1
  refine (Path.retainAll [.native 0] fun h hh => ?_).cast (add_zero _) rfl
  rw [List.mem_singleton.mp hh]
  exact ⟨.dynamic 0, Multiset.mem_add.mpr (.inl hrooted), rfl⟩

end Mirror

open Call Mirror in
theorem results_handed_over_mirror :
    ∃ u, callSlot (.nested .memo 3) 0 0 [] held = .ended (.value (.object 1)) u ∧ u.Alive 1
      ∧ (NativeValue.object 1).coerce u.census (.object "Gauge") = some (.object 1)
      ∧ ∃ strict i u', HandsOver strict (.object "Gauge") (.object 0) u (.value (.object i)) u'
        ∧ 1 < i := by
  obtain ⟨hcalls, hdistinct⟩ := results_handed_over 3
  have hlent : LendsAll (ofHandles [.native 0]) [.native 0] := LendsAll.self [.native 0]
  -- The override returns the instance itself, once to the stub and once more after it.
  obtain ⟨c, slot, m, u, hkind, hslot, hm, hret, hcall, hagain, hlive⟩ : ∃ c slot m u,
      (held.twin 0).kind = .dynamic c ∧ c.vtable.get? 0 = some slot ∧ c.override? slot = some m
        ∧ slot.ret = .object "Gauge"
        ∧ callSlot (.nested .memo 3) 0 0 [] held = .ended (.value (.object 1)) u
        ∧ (stubResult c slot u (.object 0)).1 = .ok (.object 2)
        ∧ (stubResult c slot u (.object 0)).2.Alive 2 := by
    with_unfolding_all exact ⟨_, _, _, _, rfl, rfl, rfl, rfl, rfl, rfl, _, rfl, rfl⟩
  obtain ⟨x, G, b, v, -, hover⟩ := hcalls _ 0 held 0 c 0 slot m [] attained
    (hlent _ List.mem_cons_self) LendsAll.nil hkind hslot hm 0 (.value (.object 1)) u
    (by rw [Run.Comes, hcall]; exact .ended)
  have hend := stubEnd_ok hagain
  have hsecond := handsOver_of_stubEnd (.refl (stubResult c slot u (.object 0)).2) fun i hi => by
    rw [hend] at hi
    cases hi
    exact hlive
  rw [hret] at hover hsecond
  rw [hend] at hsecond
  cases b with
  | value r =>
      obtain ⟨-, -, hof, -, halive⟩ := hover.suits
      exact ⟨u, hcall, halive 1 rfl, hof, _, 2, _, hsecond,
        hdistinct _ _ _ _ _ _ _ _ _ _ 1 2 hover (.refl u) hsecond⟩
  | raised y => cases hover
  | panicked text => cases hover

end TwinObject
