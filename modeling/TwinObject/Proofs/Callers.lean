/-
Callers on the two sides.  A virtual call reaches the same slot from native and from dynamic
code, as long as no boolean is given for an integer, which only dynamic code may do, and no
instance by value that cannot be copied, which only native code may do.
-/
import TwinObject.Proofs.Overloads

namespace TwinObject

namespace NativeValue

/-- Whether a parameter takes an argument alike on both sides. -/
structure Neutral (w : World) (v : NativeValue) (ty : NativeType) : Prop where
  /-- A boolean is an integer for dynamic callers only. -/
  plain : ∀ b, v = .bool b → ty ≠ .int
  /-- An instance is copied for dynamic callers only. -/
  copyable : ∀ t c, v = .object t → ty = .object c → w.isA t c = true →
    (w.twin t).obstacle? .copy = none

variable {w u : World} {v : NativeValue} {ty : NativeType} {fit : Fit}

theorem coerce_toDyn (hvoid : v ≠ .void) (hplain : ∀ b, v = .bool b → ty ≠ .int)
    (census : Census) : v.toDyn.coerce census ty = v.coerce census ty := by
  cases v with
  | void => exact absurd rfl hvoid
  | bool b =>
      cases ty with
      | int => exact absurd rfl (hplain b rfl)
      | _ => rfl
  | _ => cases ty <;> rfl

theorem widens_toDyn (hplain : ∀ b, v = .bool b → ty ≠ .int) :
    v.toDyn.widens ty = v.widens ty := by
  cases v with
  | bool b =>
      cases ty with
      | int => exact absurd rfl (hplain b rfl)
      | _ => rfl
  | _ => cases ty <;> rfl

/-- An instance that fits where it is taken by value can be duplicated. -/
theorem Neutral.duplicates_toDyn (h : v.Neutral w ty)
    (hfits : (v.coerce w.census ty).isSome = true) : w.duplicates ty v.toDyn = true := by
  cases v with
  | object t =>
      cases ty with
      | object c =>
          rw [coerce_object rfl, World.isA_census] at hfits
          split at hfits
          · rename_i hisA
            exact Option.isNone_iff_eq_none.mpr (h.copyable t c rfl rfl hisA)
          · cases hfits
      | _ => rfl
  | _ => cases ty <;> rfl

theorem Neutral.takes_toDyn (h : v.Neutral w ty) (hvoid : v ≠ .void) :
    w.takes fit ty v.toDyn = w.takesNative fit ty v := by
  rw [World.takes, World.takesNative, widens_toDyn h.plain, coerce_toDyn hvoid h.plain]
  cases hfits : (v.coerce w.census ty).isSome with
  | true => rw [h.duplicates_toDyn hfits, Bool.and_true]
  | false => rw [Bool.and_false, Bool.false_and]

end NativeValue

/-- Code that goes on alike goes on alike where errors are passed on in other words. -/
theorem Run.mapError_congr {ε ε' α : Type} {m k : Run ε α} {w u : World} (f : ε → ε')
    (h : m w = k u) : mapError f m w = mapError f k u :=
  congrArg (Course.andThen [] _) h

namespace Call

/-- Whether no slot of a name that takes as many arguments tells the two sides apart. -/
def Neutral (w : World) (table : VTable) (name : String) (args : List NativeValue) : Prop :=
  ∀ index slot, table.get? index = some slot → slot.key.name = name →
    args.length = slot.key.params.length → ∀ p ∈ args.zip slot.key.params, p.1.Neutral w p.2

variable {w u : World} {table : VTable} {name context : String} {args : List NativeValue}
  {fit : Fit} {index : Nat} {slot : Slot}

theorem handles_toDyn (w : World) (hhas : w.Has (args.flatMap NativeValue.handles)) :
    w.Has ((args.map NativeValue.toDyn).flatMap DynValue.handles) := by
  intro x hx
  rw [List.flatMap_map] at hx
  obtain ⟨v, hv, hx⟩ := List.mem_flatMap.mp hx
  cases v with
  | object t =>
      obtain rfl : x = .dynamic t := by simpa [NativeValue.toDyn, DynValue.handles] using hx
      exact hhas.of_flatMap hv (.native t) (List.mem_singleton_self _)
  | _ => cases hx

theorem zip_map_toDyn (params : List NativeType) : (args.map NativeValue.toDyn).zip params
    = (args.zip params).map fun p => (p.1.toDyn, p.2) := by
  rw [List.zip_map_left]
  rfl

/-- A slot fits the arguments of both sides or neither. -/
theorem Neutral.fits_eq (h : Neutral w table name args) (context : String) (fit : Fit)
    (hvoid : .void ∉ args) (hhas : w.Has (args.flatMap NativeValue.handles)) (hu : w.Rests u)
    (hslot : table.get? index = some slot) (hname : slot.key.name = name) :
    (Arguments.dynamic context (args.map NativeValue.toDyn)).fits u fit slot.key.params
      = (Arguments.native args).fits w fit slot.key.params := by
  refine (Crossing.isSome_argsToNative context (handles_toDyn w hhas) hu _ fit).trans
    (.trans ?_ (Crossing.isSome_coerceArgs hhas (.refl w) _ fit).symm)
  rw [List.length_map, zip_map_toDyn, List.all_map]
  by_cases hlength : args.length = slot.key.params.length
  · refine congrArg _ (Bool.eq_iff_iff.mpr ?_)
    rw [List.all_eq_true, List.all_eq_true]
    refine forall₂_congr fun p hp => ?_
    have hmem : p.1 ≠ .void := fun hp' => hvoid (hp' ▸ (List.of_mem_zip hp).1)
    rw [Function.comp_apply, (h index slot hslot hname hlength p hp).takes_toDyn hmem]
  · rw [decide_eq_false hlength]
    rfl

end Call

/-- Two lists that go with one list of pairs go with each other. -/
theorem forall₂_zip_of_forall₂ {α β γ δ : Type} {R : α × β → γ → Prop} {S : α × β → δ → Prop}
    {T : β → γ → δ → Prop} {ps : List (α × β)} {cs : List γ} {ds : List δ}
    (hR : List.Forall₂ R ps cs) (hS : List.Forall₂ S ps ds)
    (hT : ∀ p ∈ ps, ∀ c d, R p c → S p d → T p.2 c d) :
    List.Forall₂ (fun q d => T q.1 q.2 d) ((ps.map Prod.snd).zip cs) ds := by
  induction hR generalizing ds with
  | nil =>
      cases hS
      exact .nil
  | cons hp _ ih =>
      cases hS with
      | cons hp' hrest =>
          refine .cons (hT _ List.mem_cons_self _ _ hp hp') (ih hrest fun p hmem => ?_)
          exact hT p (List.mem_cons_of_mem _ hmem)

theorem VTable.Picks.congr {table : VTable} {name : String} {constOnly : Bool}
    {fits fits' : Fit → List NativeType → Bool} {fit : Fit} {index : Nat} {slot : Slot}
    (h : table.Picks name constOnly fits fit index slot)
    (hfits : ∀ j other fit, table.Callable name constOnly j other →
      fits fit other.key.params = fits' fit other.key.params) :
    table.Picks name constOnly fits' fit index slot where
  callable := h.callable
  fitting := (hfits _ _ _ h.callable).symm.trans h.fitting
  exact_first hfit j other hother :=
    (hfits j other _ hother).symm.trans (h.exact_first hfit j other hother)
  plain_first hconst j other hother hplain :=
    (hfits j other _ hother).symm.trans (h.plain_first hconst j other hother hplain)
  lowest_first j other hother hlt hsame :=
    (hfits j other _ hother).symm.trans (h.lowest_first j other hother hlt hsame)

namespace Call

variable {w u x y : World} {table : VTable} {name context className : String}
  {args : List NativeValue} {slot : Slot}

/-- Whether two selections are of one slot and its parameters get the same, or a new instance
like it where one is taken by value. -/
structure Alike (w y : World) (slot : Slot) (s s' : Selection) : Prop where
  index : s'.index = s.index
  length : s.args.length = slot.key.params.length
  args : List.Forall₂ (fun q n => w.Passed y q.1 q.2 n) (slot.key.params.zip s.args) s'.args

/-- What the parameters get is the same on both sides, or a new instance like it. -/
theorem alike_of_become {s s' : Selection} (hindex : s'.index = s.index) (hvoid : .void ∉ args)
    (h : ∀ p ∈ args.zip slot.key.params, p.1.Neutral w p.2)
    (hhas : w.Has (args.flatMap NativeValue.handles)) (hu : w.Rests u) (hy : u.Rests y)
    (hnative : (Arguments.native args).Become w x slot.key.params s.args)
    (hdynamic : (Arguments.dynamic context (args.map NativeValue.toDyn)).Become u y
      slot.key.params s'.args) : Alike w y slot s s' := by
  obtain ⟨hlength, hcoerced⟩ := hnative
  obtain ⟨-, hbecome⟩ := hdynamic
  rw [zip_map_toDyn, List.forall₂_map_left_iff] at hbecome
  have hparams : (args.zip slot.key.params).map Prod.snd = slot.key.params :=
    List.map_snd_zip hlength.ge
  refine ⟨hindex, ?_, ?_⟩
  · rw [← hcoerced.length_eq, List.length_zip, hlength, Nat.min_self]
  · rw [← hparams]
    refine forall₂_zip_of_forall₂ hcoerced hbecome fun p hp n n' hn hn' => ?_
    have hmem := (List.of_mem_zip hp).1
    have hknown : w.Has p.1.toDyn.handles :=
      (handles_toDyn w hhas).of_flatMap (List.mem_map_of_mem hmem)
    obtain ⟨m, hm, hpassed⟩ := hn'.along hknown hu hy (.refl y)
    rw [NativeValue.coerce_toDyn (fun hp' => hvoid (hp' ▸ hmem)) (h p hp).plain, hn] at hm
    cases hm
    exact hpassed

/-- The arguments of a native caller and their dynamic counterparts are resolved alike. -/
theorem resolve_alike (hneutral : Neutral w table name args) (hvoid : .void ∉ args)
    (hhas : w.Has (args.flatMap NativeValue.handles)) (hu : w.Rests u)
    (className context : String) :
    (∃ s x s' y slot,
      table.resolve (Crossing.fromNative args) className name false w = (.ok s, x)
      ∧ table.resolve (Crossing.fromDynamic context (args.map NativeValue.toDyn)) className name
        false u = (.ok s', y)
      ∧ table.get? s.index = some slot ∧ Alike w y slot s s')
    ∨ ∃ x y,
      table.resolve (Crossing.fromNative args) className name false w
        = (.error (.noSuchMethod className name), x)
      ∧ table.resolve (Crossing.fromDynamic context (args.map NativeValue.toDyn)) className name
        false u = (.error (.noSuchMethod className name), y) := by
  have hdyn : u.Has (Arguments.dynamic context (args.map NativeValue.toDyn)).handles :=
    hu.has (handles_toDyn w hhas)
  have hfits (j : Nat) (other : Slot) (fit : Fit) (hother : table.Callable name false j other) :=
    hneutral.fits_eq context fit hvoid hhas hu hother.there hother.named
  rcases table.resolve_cases (a := .native args) className name false hhas with
    ⟨s, x, fit, slot, hnative, hpicks, hbecome, -⟩ | ⟨hunfit, x, -, hnative⟩ <;>
  rcases table.resolve_cases className name false hdyn with
    ⟨s', y, fit', slot', hdynamic, hpicks', hbecome', hy⟩ | ⟨hunfit', y, -, hdynamic⟩
  · obtain ⟨-, hindex, rfl⟩ := (hpicks'.congr hfits).unique hpicks
    have hslot := hneutral s.index slot' hpicks.callable.there hpicks.callable.named hbecome.1
    exact .inl ⟨s, x, s', y, slot', hnative, hdynamic, hpicks.callable.there,
      alike_of_become hindex hvoid hslot hhas hu hy hbecome hbecome'⟩
  · have hfitting := hpicks.fitting.symm.trans (hfits _ _ fit hpicks.callable).symm
    cases hfitting.trans (hunfit' _ _ fit hpicks.callable)
  · have hfitting := hpicks'.fitting.symm.trans (hfits _ _ fit' hpicks'.callable)
    cases hfitting.trans (hunfit _ _ fit' hpicks'.callable)
  · refine .inr ⟨x, y, hnative, hdynamic⟩

/-- A slot that was selected on behalf of dynamic code. -/
def runSlot (h : Host) (t : TwinId) (s : Selection) : Run Failure DynValue :=
  withArgs s.args do
    let r ← callSlot h t s.index s.args
    Run.act (Crossing.toDynamic r)

/-- The search for the slot of a virtual call from native code. -/
def nativeSearch (t : TwinId) (name : String) (args : List NativeValue) (w : World) :
    Except Failure Selection × World :=
  (w.twin t).kind.vtable.resolve (Crossing.fromNative args) (w.twin t).name name false w

/-- The search for the slot of the call from dynamic code, which holds the instance meanwhile. -/
def dynamicSearch (t : TwinId) (name : String) (args : List DynValue) (w : World) :
    Except Failure Selection × World :=
  (w.twin t).kind.vtable.resolve (Crossing.fromDynamic ("argument of '" ++ name ++ "'") args)
    (w.twin t).name name false (w.retainAll [.native t])

/-- Whether a virtual call from native code and the call with the counterparts of its arguments
from dynamic code go to one slot, or fail alike before anything runs. -/
inductive Agree (h : Host) (t : TwinId) (name : String) (args : List NativeValue) (w : World) : Prop
  | reached {s s' : Selection} {x y : World} {slot : Slot}
      (hnative : nativeSearch t name args w = (.ok s, x))
      (hdynamic : dynamicSearch t name (args.map NativeValue.toDyn) w = (.ok s', y))
      (hslot : (w.twin t).kind.vtable.get? s.index = some slot)
      (halike : Alike w y slot s s')
      (hcall : callVirtual h false t name args w = withArgs s.args (callSlot h t s.index s.args) x)
      (hcall' : callMethod h t name (args.map NativeValue.toDyn) w
        = Run.mapError Failure.raise (Run.holding [.native t] (runSlot h t s')) y)
  | failed {f : Failure} {x y z : World}
      (hnative : nativeSearch t name args w = (.error f, x))
      (hdynamic : dynamicSearch t name (args.map NativeValue.toDyn) w = (.error f, y))
      (hcall : callVirtual h false t name args w = .ended (.raised f) x)
      (hcall' : callMethod h t name (args.map NativeValue.toDyn) w = .ended (.raised f.raise) z)

section Calls

variable {t : TwinId} (h : Host)
  (hinherits : ∀ c, (w.twin t).kind = .dynamic c → c.findMethod? name = none)

include hinherits

/-- A name that no dynamic class has a method for is one of native code. -/
theorem callMethod_inherited (dynArgs : List DynValue) : callMethod h t name dynArgs w
    = Run.mapError Failure.raise (callNativeMethod h t name dynArgs) w := by
  unfold callMethod
  rw [Run.reads_then (f := fun w => w.twin t) rfl]
  cases hkind : (w.twin t).kind with
  | native c => rfl
  | dynamic c =>
      dsimp only
      rw [hinherits c hkind]
      rfl

omit hinherits in
/-- A name with virtual slots is resolved in the table. -/
theorem callNativeMethod_virtual (ht : t < w.twins.size)
    (hslots : (w.twin t).kind.vtable.hasMethod name = true) (dynArgs : List DynValue) :
    callNativeMethod h t name dynArgs w = Run.holding [.native t] (do
      let s ← Run.ofExcept (← Run.act ((w.twin t).kind.vtable.resolve
        (Crossing.fromDynamic ("argument of '" ++ name ++ "'") dynArgs) (w.twin t).name name false))
      runSlot h t s) (w.retainAll [.native t]) := by
  have hretained : ((w.twin t).retain (.native t)).kind.vtable.hasMethod name = true := hslots
  refine Run.holding_congr _ ?_
  rw [Run.reads_then (f := fun w => w.twin t) (twin_retained t ht)]
  dsimp only
  rw [if_pos hretained]
  rfl

variable (ht : t < w.twins.size) (hslots : (w.twin t).kind.vtable.hasMethod name = true)

include ht hslots

/-- A name with virtual slots that no dynamic class has a method for is resolved in the table. -/
theorem callMethod_virtual (dynArgs : List DynValue) : callMethod h t name dynArgs w
    = Run.mapError Failure.raise (Run.holding [.native t] (do
      let s ← Run.ofExcept (← Run.act ((w.twin t).kind.vtable.resolve
        (Crossing.fromDynamic ("argument of '" ++ name ++ "'") dynArgs) (w.twin t).name name false))
      runSlot h t s)) (w.retainAll [.native t]) :=
  (callMethod_inherited h hinherits dynArgs).trans
    (Run.mapError_congr _ (callNativeMethod_virtual h ht hslots dynArgs))

/-- Both sides reach one slot with the same arguments, or none. -/
theorem agree (hneutral : Neutral w (w.twin t).kind.vtable name args) (hvoid : .void ∉ args)
    (hhas : w.Has (args.flatMap NativeValue.handles)) : Agree h t name args w := by
  have hvirtual : callVirtual h false t name args w = (do
      let s ← Run.ofExcept (← Run.act ((w.twin t).kind.vtable.resolve (Crossing.fromNative args)
        (w.twin t).name name false))
      withArgs s.args (callSlot h t s.index s.args) : Run Failure NativeValue) w := by
    unfold callVirtual
    rw [Run.reads_then (f := fun w => (w.twin t).kind) rfl]
    rfl
  have hmethod := callMethod_virtual h hinherits ht hslots (args.map NativeValue.toDyn)
  have hu := (World.Still.retainAll w [.native t]).rests
  rcases resolve_alike hneutral hvoid hhas hu (w.twin t).name ("argument of '" ++ name ++ "'")
    with ⟨s, x, s', y, slot, hnative, hdynamic, hslot, halike⟩ | ⟨x, y, hnative, hdynamic⟩
  · exact .reached hnative hdynamic hslot halike (hvirtual.trans (Run.act_ok hnative))
      (hmethod.trans (Run.mapError_congr _ (Run.holding_congr _ (Run.act_ok hdynamic))))
  · have hfailed := Run.act_error (k := runSlot h t) hdynamic
    refine .failed (z := y.drop [.native t]) hnative hdynamic
      (hvirtual.trans (Run.act_error hnative))
      (hmethod.trans (Run.mapError_congr (k := Run.raise _) _ ?_))
    exact Run.holding_congr (k := Run.raise _) _ hfailed

end Calls

end Call

/-- A virtual call reaches the same slot from both sides, unless an argument is taken by one of
them only. -/
theorem callers_reach_one_slot (h : Host) (t : TwinId) (name : String) (args : List NativeValue)
    (w : World) (ht : t < w.twins.size) (hhas : w.Has (args.flatMap NativeValue.handles))
    (hslots : (w.twin t).kind.vtable.hasMethod name = true)
    (hinherits : ∀ c, (w.twin t).kind = .dynamic c → c.findMethod? name = none)
    (hvoid : .void ∉ args) (hneutral : Call.Neutral w (w.twin t).kind.vtable name args) :
    Call.Agree h t name args w :=
  Call.agree h hinherits ht hslots hneutral hvoid hhas

/-! A switch is set by a number or by an integer, and joined with a switch; it cannot be copied. -/

namespace Switch

def switch : NativeClass :=
  { (default : NativeClass) with
    name := "Switch"
    vtable := ⟨[⟨⟨"set", [.double], false⟩, .void, "Switch", some (.lit .void)⟩,
      ⟨⟨"set", [.int], false⟩, .void, "Switch", some (.lit .void)⟩,
      ⟨⟨"join", [.object "Switch"], false⟩, .void, "Switch", some (.lit .void)⟩]⟩
    copyPolicy := .deleted }

def world : World :=
  ({ World.initial with declared := #[⟨switch, []⟩] }.admitTwin
    (.fresh 0 (.native switch) .native)).1

def host : Host := .nested .memo 3

theorem set_neutral : Call.Neutral world switch.vtable "set" [.int 7] := by
  rintro index slot - - - ⟨v, ty⟩ hp
  obtain rfl : v = .int 7 := List.mem_singleton.mp (List.of_mem_zip hp).1
  exact ⟨nofun, nofun⟩

end Switch

open Switch in
theorem callers_reach_one_slot_switch : Call.Agree host 0 "set" [.int 7] world :=
  callers_reach_one_slot host 0 "set" [.int 7] world Nat.zero_lt_one nofun rfl nofun (by decide)
    set_neutral

open Switch in
/-- A boolean sets the switch from dynamic code, and a switch is joined from native code only. -/
theorem callers_told_apart :
    ¬Call.Agree host 0 "set" [.bool true] world ∧ ¬Call.Agree host 0 "join" [.object 0] world := by
  constructor
  · have hnative : (Call.nativeSearch 0 "set" [.bool true] world).1
        = .error (.noSuchMethod "Switch" "set") := by
      with_unfolding_all rfl
    have hdynamic : (Call.dynamicSearch 0 "set" [.bool true] world).1 = .ok ⟨1, [.int 1]⟩ := by
      with_unfolding_all rfl
    rintro (⟨h, -⟩ | ⟨-, h⟩)
    · cases hnative.symm.trans (congrArg Prod.fst h)
    · cases hdynamic.symm.trans (congrArg Prod.fst h)
  · have hnative : (Call.nativeSearch 0 "join" [.object 0] world).1 = .ok ⟨2, [.object 0]⟩ := by
      with_unfolding_all rfl
    have hdynamic : (Call.dynamicSearch 0 "join" [.object 0] world).1
        = .error (.noSuchMethod "Switch" "join") := by
      with_unfolding_all rfl
    rintro (⟨-, h⟩ | ⟨h, -⟩)
    · cases hdynamic.symm.trans (congrArg Prod.fst h)
    · cases hnative.symm.trans (congrArg Prod.fst h)

end TwinObject
