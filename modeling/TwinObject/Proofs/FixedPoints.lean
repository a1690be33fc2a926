/-
What a conversion gives is left alone by coercion.  Dynamic values that cross to native code
are of the types that they were converted to, so that coercion to these passes them on as they
are; and native values that are of a type come back as themselves when they cross and return.
-/
import TwinObject.Proofs.ByValue

namespace TwinObject

namespace Crossing

variable {w u : World} {v : DynValue} {n m : NativeValue} {ty : NativeType} (context : String)

/-- An instance that is converted is there.  Only a type without values asks nothing of it. -/
theorem has_of_toNative (hty : ty ≠ .void) (h : (toNative context v ty w).1 = .ok m) :
    w.Has v.handles := by
  have hconverted := isSome_toNative context v ty w
  rw [h] at hconverted
  obtain ⟨hfits, -⟩ := Bool.and_eq_true_iff.mp hconverted.symm
  obtain ⟨c, hc⟩ := Option.isSome_iff_exists.mp hfits
  cases v with
  | object t =>
      cases ty with
      | object name | ref name | ptr name =>
          obtain ⟨hisA, -⟩ := DynValue.isA_of_coerce rfl hc
          obtain ⟨a, ha⟩ := World.exists_of_isA hisA
          intro d hd
          cases List.mem_singleton.mp hd
          exact (Array.getElem?_eq_some_iff.mp ha).1
      | void => exact absurd rfl hty
      | _ => cases hc
  | tuple items =>
      cases ty with
      | void => exact absurd rfl hty
      | _ => cases hc
  | _ => exact fun d hd => absurd hd List.not_mem_nil

/-- A value that was converted is of the type that it was converted to. -/
theorem coerce_of_toNative (h : toNative context v ty w = (.ok m, u)) :
    m.coerce u.census ty = some m := by
  by_cases hty : ty = .void
  · subst hty
    cases h
    rfl
  · have hhas := has_of_toNative context hty (congrArg Prod.fst h)
    have hrests := toNative_rests context v ty w
    rw [h] at hrests
    exact (becomes_toNative context hhas h).fitted hrests hhas

/-- A value of a type that is not taken by value is converted back to itself. -/
theorem toNative_toDyn (hshared : ∀ c, ty ≠ .object c) (hfits : n.coerce w.census ty = some n) :
    (toNative context n.toDyn ty w).1 = .ok n := by
  cases n with
  | object t =>
      cases ty with
      | object c => exact absurd rfl (hshared c)
      | ref c | ptr c =>
          have hisA : w.isA t c = true := by
            by_contra hother
            rw [NativeValue.coerce_object rfl, World.isA_census, if_neg hother] at hfits
            cases hfits
          unfold toNative
          dsimp only [NativeValue.toDyn]
          rw [if_pos hisA]
      | _ => cases hfits
  | _ => cases ty <;> first | rfl | cases hfits

/-- Handing a value to dynamic code changes the class of no instance. -/
theorem toDynamic_rests (n : NativeValue) (w : World) : w.Rests (toDynamic n w).2 :=
  ((World.Still.retainAll w n.toDyn.handles).trans (World.Still.drop _ n.handles)).rests

/-- Values that were converted for a list of types are of these types. -/
theorem coerce_of_convertAll {args : List DynValue} {params : List NativeType}
    {ns : List NativeValue} (hlength : args.length = params.length)
    (h : convertAll (toNative context) [] (args.zip params) w = (.ok ns, u)) :
    List.Forall₂ (fun n ty => n.coerce u.census ty = some n) ns params := by
  obtain ⟨later, rfl, hall⟩ := forall₂_convertAll (toNative_rests context) (.refl w)
    (congrArg Prod.fst h)
  rw [h] at hall
  have hparams : (args.zip params).map Prod.snd = params := List.map_snd_zip hlength.ge
  rw [← hparams, List.forall₂_map_right_iff]
  refine .flip (hall.imp ?_)
  rintro p n ⟨v, -, hone, hlater⟩
  have hof := coerce_of_toNative context (Prod.ext hone rfl)
  exact (NativeValue.coerce_rests hlater (World.has_of_coerce hof) p.2).trans hof

end Crossing

/-- What a conversion gives is a fixed point of coercion to its type, from then on; and so is
what coercion gives.  A value that is of a type crosses to dynamic code and back as itself,
unless the type is taken by value.  Therefore the coercion of arguments that were converted for
a function succeeds whenever it is done, and gives these arguments; and a call of the function
from dynamic code runs its body with them. -/
theorem coercion_fixes_converted (h : Host) (w : World) :
    (∀ context v ty m u, Crossing.toNative context v ty w = (.ok m, u) →
      ∀ y, Persists u y → m.coerce y.census ty = some m)
    ∧ (∀ (n : NativeValue) ty m, n.coerce w.census ty = some m → m.coerce w.census ty = some m)
    ∧ (∀ context (n : NativeValue) ty, (∀ c, ty ≠ .object c) → n.coerce w.census ty = some n →
      (Crossing.toNative context (Crossing.toDynamic n w).1 ty (Crossing.toDynamic n w).2).1
        = .ok n)
    ∧ ∀ (i : InterpId) (f : NativeFunction) (args : List DynValue) ns x,
      args.length = f.params.length →
      Crossing.convertAll (Crossing.toNative ("argument of '" ++ f.name ++ "'")) []
        (args.zip f.params) w = (.ok ns, x) →
      (∀ y, Persists x y →
        Crossing.coerceArgs ns f.params .widening y
          = (some ns, y.retainAll (ns.flatMap NativeValue.handles))
        ∧ Call.invoke h f ns y = Run.retaining (ns.flatMap NativeValue.handles)
            (h.native { args := ns } f.body) y)
      ∧ Call.callFunction h i f args w = Call.runFunction h i f ns x := by
  refine ⟨fun context v ty m u hm y hlater => ?_, fun n ty m => NativeValue.coerce_coerce,
    fun context n ty hshared hfits => ?_, fun i f args ns x hlength hconverted => ?_⟩
  · exact NativeValue.coerce_mono (fun _ _ => World.isA_mono hlater)
      (Crossing.coerce_of_toNative context hm)
  · refine Crossing.toNative_toDyn context hshared ?_
    rw [NativeValue.coerce_rests (Crossing.toDynamic_rests n w) (World.has_of_coerce hfits), hfits]
  · have hconforms := Crossing.coerce_of_convertAll _ hlength hconverted
    refine ⟨fun y hlater => ?_, Call.callFunction_fitted i hlength hconverted hconforms⟩
    have hfitted : List.Forall₂ (fun n ty => n.coerce y.census ty = some n) ns f.params :=
      hconforms.imp fun n ty => NativeValue.coerce_mono fun _ _ => World.isA_mono hlater
    exact ⟨Crossing.coerceArgs_fitted hfitted, Call.invoke_fitted hfitted⟩

end TwinObject
