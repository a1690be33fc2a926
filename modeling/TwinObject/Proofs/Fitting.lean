/-
Which arguments fit which parameters.  That is told by the classes of the instances among
them, so that it makes no difference which candidates were tried before and what was copied
for them; and what a parameter gets is the argument, or a new instance like it where that is
taken by value.
-/
import TwinObject.Proofs.Agreement

namespace TwinObject

/-- Fit a dynamic value to a declared type.  An instance is fitted as itself, also where a copy
of it is taken. -/
def DynValue.coerce (census : Census) (ty : NativeType) (v : DynValue) : Option NativeValue :=
  match ty, v with
  | .void, _ => some .void
  | .bool, .bool b => some (.bool b)
  | .int, .int i => some (.int i)
  | .int, .bool b => some (.int (boolToInt b))
  | .double, .float d => some (.double d)
  | .double, .int i => some (.double i.toFloat)
  | .str, .str s => some (.str s)
  | .ptr _, .none => some .null
  | .object c, .object t | .ref c, .object t | .ptr c, .object t =>
      if census.isA t c then some (.object t) else Option.none
  | _, _ => Option.none

namespace World

/-- Whether the instances that handles refer to are there. -/
def Has (w : World) (hs : List Handle) : Prop :=
  ∀ h ∈ hs, h.twin < w.twins.size

/-- Whether an argument can be duplicated if it is an instance that is taken by value. -/
def duplicates (w : World) (ty : NativeType) (v : DynValue) : Bool :=
  match ty, v with
  | .object _, .object t => ((w.twin t).obstacle? .copy).isNone
  | _, _ => true

/-- Whether a parameter takes an argument of a dynamic caller. -/
def takes (w : World) (fit : Fit) (ty : NativeType) (v : DynValue) : Bool :=
  !(fit = .exact && v.widens ty) && (v.coerce w.census ty).isSome && w.duplicates ty v

/-- Whether a parameter takes an argument of a native caller. -/
def takesNative (w : World) (fit : Fit) (ty : NativeType) (v : NativeValue) : Bool :=
  !(fit = .exact && v.widens ty) && (v.coerce w.census ty).isSome

/-- Whether an instance is new and of the class of another one, and stores the same as long as
both are alive. -/
structure Reborn (w u : World) (t new : TwinId) : Prop where
  fresh : w.twins.size ≤ new
  there : new < u.twins.size
  kind : (u.twin new).kind = (u.twin t).kind
  alike : u.Alive t → u.Alive new →
    (u.twin new).storage = (u.twin t).storage ∧ (u.twin new).attrs = (u.twin t).attrs

/-- Whether `n` is what a parameter of a type gets for a value `m` that fits it: a new instance
for one that is taken by value, and else the value. -/
inductive Passed (w u : World) : NativeType → NativeValue → NativeValue → Prop
  | same {ty : NativeType} {m : NativeValue} (hshared : ∀ c t, ty = .object c → m ≠ .object t) :
      Passed w u ty m m
  | copied {c : String} {t new : TwinId} (hreborn : w.Reborn u t new) :
      Passed w u (.object c) (.object t) (.object new)

/-- Whether `n` is what a parameter of a type gets for an argument. -/
def Becomes (w u : World) (v : DynValue) (ty : NativeType) (n : NativeValue) : Prop :=
  ∃ m, v.coerce w.census ty = some m ∧ w.Passed u ty m n

variable {w u v : World} {t new : TwinId} {hs hs' : List Handle} {ty : NativeType}

theorem isA_census (w : World) (t : TwinId) (name : String) : w.census.isA t name = w.isA t name :=
  rfl

theorem Has.subset (h : w.Has hs) (hsub : ∀ x ∈ hs', x ∈ hs) : w.Has hs' :=
  fun x hx => h x (hsub x hx)

theorem Has.of_flatMap {α : Type} {as : List α} {f : α → List Handle} (h : w.Has (as.flatMap f))
    {a : α} (ha : a ∈ as) : w.Has (f a) :=
  h.subset fun _ hx => List.mem_flatMap.mpr ⟨a, ha, hx⟩

namespace Rests

theorem refl (w : World) : w.Rests w :=
  .of_eq rfl

theorem size_le (h : w.Rests u) : w.twins.size ≤ u.twins.size := by
  by_contra hlt
  obtain ⟨b, hb, -⟩ := h u.twins.size _ (Array.getElem?_eq_getElem (Nat.not_le.mp hlt))
  exact Nat.lt_irrefl _ (Array.getElem?_eq_some_iff.mp hb).1

theorem has (h : w.Rests u) (hhas : w.Has hs) : u.Has hs :=
  fun x hx => Nat.lt_of_lt_of_le (hhas x hx) h.size_le

theorem at_twin (h : w.Rests u) (ht : t < w.twins.size) : (w.twin t).Rests (u.twin t) := by
  have ha := Array.getElem?_eq_getElem ht
  obtain ⟨b, hb, hab⟩ := h t _ ha
  rwa [twin_eq ha, twin_eq hb]

theorem isA (h : w.Rests u) (ht : t < w.twins.size) (name : String) :
    u.isA t name = w.isA t name := by
  have ha := Array.getElem?_eq_getElem ht
  obtain ⟨b, hb, hab⟩ := h t _ ha
  rw [isA_eq ha, isA_eq hb, hab.kind]

theorem obstacle (h : w.Rests u) (ht : t < w.twins.size) (way : Duplication) :
    (u.twin t).obstacle? way = (w.twin t).obstacle? way := by
  unfold Twin.obstacle? Twin.refusal? Twin.layout
  rw [(h.at_twin ht).kind]

/-- An instance that is alive at the end stores what it stored. -/
theorem stored (h : w.Rests u) (ht : t < w.twins.size) (halive : u.Alive t) :
    (u.twin t).storage = (w.twin t).storage ∧ (u.twin t).attrs = (w.twin t).attrs := by
  obtain ⟨b, hb, hlive⟩ := halive
  have hrests := h.at_twin ht
  rw [twin_eq hb] at hrests ⊢
  exact ⟨hrests.storage hlive, hrests.attrs hlive⟩

end Rests

end World

theorem DynValue.coerce_object {census : Census} {ty : NativeType} {c : String}
    (hclass : ty.className? = some c) (t : TwinId) :
    (DynValue.object t).coerce census ty
      = if census.isA t c then some (.object t) else Option.none := by
  cases ty <;> cases hclass <;> rfl

section Values

variable {w u : World}

theorem NativeValue.coerce_rests {v : NativeValue} (h : w.Rests u) (hhas : w.Has v.handles)
    (ty : NativeType) : v.coerce u.census ty = v.coerce w.census ty := by
  cases v with
  | object t =>
      have ht : t < w.twins.size := hhas (.native t) (List.mem_singleton_self _)
      cases ty with
      | object c | ref c | ptr c =>
          rw [coerce_object rfl, coerce_object rfl, World.isA_census, h.isA ht, World.isA_census]
      | _ => rfl
  | _ => cases ty <;> rfl

theorem DynValue.coerce_rests {v : DynValue} (h : w.Rests u) (hhas : w.Has v.handles)
    (ty : NativeType) : v.coerce u.census ty = v.coerce w.census ty := by
  cases v with
  | object t =>
      have ht : t < w.twins.size := hhas (.dynamic t) (by simp [DynValue.handles])
      cases ty with
      | object c | ref c | ptr c =>
          rw [coerce_object rfl, coerce_object rfl, World.isA_census, h.isA ht, World.isA_census]
      | _ => rfl
  | _ => cases ty <;> rfl

theorem World.Rests.duplicates (h : w.Rests u) {v : DynValue} (hhas : w.Has v.handles)
    (ty : NativeType) : u.duplicates ty v = w.duplicates ty v := by
  cases v with
  | object t =>
      have ht : t < w.twins.size := hhas (.dynamic t) (by simp [DynValue.handles])
      cases ty <;> simp only [World.duplicates, h.obstacle ht]
  | _ => cases ty <;> rfl

end Values

namespace World

variable {w u v : World} {t new : TwinId} {ty : NativeType} {m n : NativeValue}

theorem Reborn.along (h : u.Reborn v t new) (hbefore : w.Rests u) (ht : t < v.twins.size)
    {x : World} (hafter : v.Rests x) : w.Reborn x t new where
  fresh := hbefore.size_le.trans h.fresh
  there := h.there.trans_le hafter.size_le
  kind := by rw [(hafter.at_twin h.there).kind, (hafter.at_twin ht).kind, h.kind]
  alike halive hnew := by
    obtain ⟨hstorage, hattrs⟩ := h.alike (hafter.alive ht halive) (hafter.alive h.there hnew)
    obtain ⟨hold, hold'⟩ := hafter.stored ht halive
    obtain ⟨hcopy, hcopy'⟩ := hafter.stored h.there hnew
    exact ⟨by rw [hcopy, hstorage, hold], by rw [hcopy', hattrs, hold']⟩

/-- A copy is like its original. -/
theorem reborn_copyTwin (ht : t < w.twins.size) (hcopy : copyTwin t w = (.ok new, u)) :
    w.Reborn u t new := by
  have hrests := Rests.copyTwin w t
  have hkept := Still.retainAll w (w.twin t).contents
  unfold copyTwin at hcopy hrests
  dsimp only at hcopy hrests
  split at hcopy
  · cases hcopy
  · rename_i hallowed
    rw [hallowed] at hrests
    cases hcopy
    have hnew : ((w.retainAll (w.twin t).contents).admitTwin
        ((w.twin t).reborn (w.twin t).storage (w.twin t).attrs)).1.twins[
          ((w.retainAll (w.twin t).contents).admitTwin
            ((w.twin t).reborn (w.twin t).storage (w.twin t).attrs)).2]?
        = some ((w.twin t).reborn (w.twin t).storage (w.twin t).attrs) := by
      simp [World.admitTwin, World.record]
    have hold := hrests.at_twin ht
    refine ⟨hkept.size.ge, (Array.getElem?_eq_some_iff.mp hnew).1, ?_, fun halive _ => ?_⟩
    · rw [twin_eq hnew, hold.kind]
      rfl
    · obtain ⟨hstorage, hattrs⟩ := hrests.stored ht halive
      rw [twin_eq hnew, hstorage, hattrs]
      exact ⟨rfl, rfl⟩

theorem Passed.along (h : u.Passed v ty m n) (hbefore : w.Rests u)
    (hthere : ∀ t, m = .object t → t < v.twins.size) {x : World} (hafter : v.Rests x) :
    w.Passed x ty m n := by
  cases h with
  | same hshared => exact .same hshared
  | copied hreborn => exact .copied (hreborn.along hbefore (hthere _ rfl) hafter)

end World

namespace DynValue

variable {census : Census} {ty : NativeType} {v : DynValue} {m : NativeValue}

/-- An instance comes from the argument itself. -/
theorem eq_object_of_coerce {t : TwinId} (h : v.coerce census ty = some (.object t)) :
    v = .object t := by
  unfold coerce at h
  split at h <;> simp_all

end DynValue

namespace World.Becomes

variable {w u x y : World} {v : DynValue} {ty : NativeType} {n : NativeValue}

/-- What was passed in the middle of a run was passed in all of it. -/
theorem along (h : u.Becomes x v ty n) (hhas : w.Has v.handles) (hbefore : w.Rests u)
    (hduring : u.Rests x) (hafter : x.Rests y) : w.Becomes y v ty n := by
  obtain ⟨m, hm, hpassed⟩ := h
  refine ⟨m, DynValue.coerce_rests hbefore hhas ty ▸ hm, hpassed.along hbefore ?_ hafter⟩
  rintro t rfl
  obtain rfl := DynValue.eq_object_of_coerce hm
  have hknown := (hbefore.trans hduring).has hhas
  exact hknown (.dynamic t) (by simp [DynValue.handles])

end World.Becomes

namespace Crossing

variable {w u : World} (context : String)

/-- An argument is converted if it fits, and can be duplicated where it has to be. -/
theorem isSome_toNative (v : DynValue) (ty : NativeType) (w : World) :
    (toNative context v ty w).1.toOption.isSome
      = ((v.coerce w.census ty).isSome && w.duplicates ty v) := by
  cases v with
  | object t =>
      cases ty with
      | object c =>
          rw [DynValue.coerce_object rfl, World.isA_census]
          unfold toNative
          dsimp only
          split
          · rw [World.duplicates, World.copyTwin]
            dsimp only
            cases (w.twin t).obstacle? .copy <;> rfl
          · rfl
      | ref c | ptr c =>
          rw [DynValue.coerce_object rfl, World.isA_census]
          unfold toNative
          dsimp only
          split <;> rfl
      | _ => rfl
  | _ => cases ty <;> rfl

/-- What an argument is converted to is what the parameter gets for it. -/
theorem becomes_toNative {v : DynValue} {ty : NativeType} {n : NativeValue}
    (hhas : w.Has v.handles) (h : toNative context v ty w = (.ok n, u)) :
    w.Becomes u v ty n := by
  unfold toNative at h
  cases v with
  | object t =>
      have ht : t < w.twins.size := hhas (.dynamic t) (by simp [DynValue.handles])
      cases ty with
      | object c =>
          dsimp only at h
          split at h
          · rename_i hisA
            refine ⟨.object t, if_pos hisA, ?_⟩
            cases hcopy : World.copyTwin t w with
            | mk made x =>
                rw [hcopy] at h
                cases made with
                | error f => cases h
                | ok new =>
                    cases h
                    have hreborn := World.reborn_copyTwin ht hcopy
                    refine .copied (hreborn.along (.refl w) ?_ (World.Still.asNative x new).rests)
                    have hsize := (World.Rests.copyTwin w t).size_le
                    rw [hcopy] at hsize
                    exact ht.trans_le hsize
          · cases h
      | ref c | ptr c =>
          dsimp only at h
          split at h
          · rename_i hisA
            cases h
            exact ⟨.object t, if_pos hisA, .same nofun⟩
          · cases h
      | void => cases h; exact ⟨_, rfl, .same nofun⟩
      | _ => cases h
  | _ => cases ty <;> cases h <;> exact ⟨_, rfl, .same nofun⟩

section Lists

variable {α ε : Type}

/-- Convert a list of arguments for a list of parameters, if none has to be widened where they
have to fit exactly. -/
def convertFor (convert : α → NativeType → Act (Except ε NativeValue))
    (widens : NativeType → α → Bool) (args : List α) (params : List NativeType) (fit : Fit) :
    Act (Option (List NativeValue)) :=
  if args.length ≠ params.length then return none
  else if fit = .exact && (args.zip params).any (fun (a, ty) => widens ty a) then return none
  else do
    return (← convertAll convert [] (args.zip params)).toOption

variable {convert : α → NativeType → Act (Except ε NativeValue)}
  (hrests : ∀ a ty (v : World), v.Rests (convert a ty v).2)

include hrests

theorem isSome_convertAll {fits : NativeType → α → Bool} {rest : List (α × NativeType)}
    (hfits : ∀ p ∈ rest, ∀ v : World, w.Rests v →
      (convert p.1 p.2 v).1.toOption.isSome = fits p.2 p.1)
    (done : List NativeValue) (hu : w.Rests u) :
    (convertAll convert done rest u).1.toOption.isSome = rest.all fun p => fits p.2 p.1 := by
  induction rest generalizing done u with
  | nil => rfl
  | cons p rest ih =>
      obtain ⟨a, ty⟩ := p
      have hone := hfits (a, ty) List.mem_cons_self u hu
      rw [convertAll, List.all_cons, ← hone]
      cases hfirst : (convert a ty u).1 with
      | ok n =>
          rw [Act.bind_then hfirst]
          exact ih (fun q hq => hfits q (List.mem_cons_of_mem _ hq)) _ (hu.trans (hrests a ty u))
      | error e =>
          rw [Act.bind_then hfirst]
          rfl

/-- The members of a list are converted one after another. -/
theorem forall₂_convertAll {done ns : List NativeValue} {rest : List (α × NativeType)}
    (hu : w.Rests u) (h : (convertAll convert done rest u).1 = .ok ns) :
    ∃ later, ns = done ++ later ∧ List.Forall₂ (fun p n => ∃ v, w.Rests v
      ∧ (convert p.1 p.2 v).1 = .ok n
      ∧ (convert p.1 p.2 v).2.Rests (convertAll convert done rest u).2) rest later := by
  induction rest generalizing done u with
  | nil =>
      cases h
      exact ⟨[], (List.append_nil _).symm, .nil⟩
  | cons p rest ih =>
      obtain ⟨a, ty⟩ := p
      rw [convertAll] at h ⊢
      cases hfirst : (convert a ty u).1 with
      | ok n =>
          rw [Act.bind_then hfirst] at h ⊢
          obtain ⟨later, rfl, hlater⟩ := ih (hu.trans (hrests a ty u)) h
          refine ⟨n :: later, by simp, .cons ⟨u, hu, hfirst, ?_⟩ hlater⟩
          exact World.Rests.respected.convertAll hrests _ rest _
      | error e =>
          rw [Act.bind_then hfirst] at h
          cases h

variable {widens : NativeType → α → Bool} {args : List α} {params : List NativeType} {fit : Fit}

/-- A list of arguments is converted if there is one for each parameter, and all fit. -/
theorem isSome_convertFor {fits : NativeType → α → Bool}
    (hfits : ∀ a ∈ args, ∀ ty, ∀ v : World, w.Rests v →
      (convert a ty v).1.toOption.isSome = fits ty a) (hu : w.Rests u) :
    (convertFor convert widens args params fit u).1.isSome
      = (decide (args.length = params.length) && (args.zip params).all fun p =>
        !(fit = .exact && widens p.2 p.1) && fits p.2 p.1) := by
  have hall : (convertAll convert [] (args.zip params) u).1.toOption.isSome
      = (args.zip params).all fun p => fits p.2 p.1 :=
    isSome_convertAll hrests (fun p hp => hfits p.1 (List.of_mem_zip hp).1 p.2) [] hu
  unfold convertFor
  split
  · rename_i hlength
    rw [decide_eq_false hlength]
    rfl
  · rename_i hlength
    rw [decide_eq_true (not_not.mp hlength), Bool.true_and]
    split
    · rename_i hwidens
      rw [Bool.and_eq_true, List.any_eq_true] at hwidens
      obtain ⟨hexact, p, hp, hwiden⟩ := hwidens
      refine (List.all_eq_false.mpr ⟨p, hp, ?_⟩).symm
      have hwiden : widens p.2 p.1 = true := hwiden
      rw [hexact, hwiden]
      simp
    · rename_i hexact
      have hnone : ∀ p ∈ args.zip params, (fit = .exact && widens p.2 p.1) = false := by
        intro p hp
        refine Bool.eq_false_iff.mpr fun hwiden => hexact ?_
        rw [Bool.and_eq_true] at hwiden ⊢
        exact ⟨hwiden.1, List.any_eq_true.mpr ⟨p, hp, hwiden.2⟩⟩
      refine hall.trans (Bool.eq_iff_iff.mpr ?_)
      rw [List.all_eq_true, List.all_eq_true]
      refine forall₂_congr fun p hp => ?_
      rw [hnone p hp, Bool.not_false, Bool.true_and]

theorem forall₂_convertFor {ns : List NativeValue} (hu : w.Rests u)
    (h : (convertFor convert widens args params fit u).1 = some ns) :
    args.length = params.length ∧ List.Forall₂ (fun p n => ∃ v, w.Rests v
      ∧ (convert p.1 p.2 v).1 = .ok n
      ∧ (convert p.1 p.2 v).2.Rests (convertFor convert widens args params fit u).2)
        (args.zip params) ns := by
  unfold convertFor at h ⊢
  split at h
  · cases h
  · rename_i hlength
    refine ⟨not_not.mp hlength, ?_⟩
    rw [if_neg hlength]
    split at h
    · cases h
    · rename_i hexact
      rw [if_neg hexact]
      cases hconverted : (convertAll convert [] (args.zip params) u).1 with
      | error e =>
          rw [Act.bind_then hconverted] at h
          cases h
      | ok ms =>
          rw [Act.bind_then hconverted] at h ⊢
          cases h
          obtain ⟨later, rfl, hlater⟩ := forall₂_convertAll hrests hu hconverted
          exact hlater

end Lists

section Callers

variable {params : List NativeType} {fit : Fit} {ns : List NativeValue}

section Dynamic

variable {args : List DynValue}

theorem argsToNative_rests (u : World) : u.Rests (argsToNative context args params fit u).2 :=
  World.Rests.respected.argsToNative context args params fit u

variable (hhas : w.Has (args.flatMap DynValue.handles)) (hu : w.Rests u)

include hhas hu

theorem isSome_argsToNative (params : List NativeType) (fit : Fit) :
    (argsToNative context args params fit u).1.isSome
    = (decide (args.length = params.length)
      && (args.zip params).all fun p => w.takes fit p.2 p.1) := by
  have hfits : ∀ a ∈ args, ∀ ty, ∀ v : World, w.Rests v →
      (toNative context a ty v).1.toOption.isSome
        = ((a.coerce w.census ty).isSome && w.duplicates ty a) := by
    intro a ha ty v hv
    have hhas := hhas.of_flatMap ha
    rw [isSome_toNative, DynValue.coerce_rests hv hhas, hv.duplicates hhas]
  refine (isSome_convertFor (toNative_rests context) hfits hu).trans ?_
  simp only [World.takes, Bool.and_assoc]

theorem becomes_argsToNative (h : (argsToNative context args params fit u).1 = some ns) :
    args.length = params.length ∧ List.Forall₂ (fun p n =>
      w.Becomes (argsToNative context args params fit u).2 p.1 p.2 n) (args.zip params) ns := by
  obtain ⟨hlength, hall⟩ := forall₂_convertFor (toNative_rests context) hu h
  have hmember : ∀ p ∈ args.zip params, w.Has p.1.handles :=
    fun p hp => hhas.of_flatMap (List.of_mem_zip hp).1
  refine ⟨hlength, ((List.forall₂_and_left _ _).mpr ⟨hmember, hall⟩).imp ?_⟩
  rintro p n ⟨hhas, v, hv, hconverted, hafter⟩
  refine (becomes_toNative context (hv.has hhas) (Prod.ext hconverted rfl)).along hhas hv
    (toNative_rests context p.1 p.2 v) hafter

end Dynamic

section Native

variable {args : List NativeValue}

theorem coerceNative_rests (v : NativeValue) (ty : NativeType) (u : World) :
    u.Rests (coerceNative v ty u).2 :=
  World.Rests.respected.coerceNative v ty u

theorem coerceNative_value (v : NativeValue) (ty : NativeType) (u : World) :
    (coerceNative v ty u).1 = v.coerce u.census ty := by
  unfold coerceNative
  cases v.coerce u.census ty <;> rfl

/-- Fit an argument of a native caller to a parameter. -/
def fitNative (v : NativeValue) (ty : NativeType) : Act (Except Unit NativeValue) := do
  return (← coerceNative v ty).elim (.error ()) .ok

theorem fitNative_rests (v : NativeValue) (ty : NativeType) (u : World) :
    u.Rests (fitNative v ty u).2 :=
  coerceNative_rests v ty u

theorem toOption_fitNative (v : NativeValue) (ty : NativeType) (u : World) :
    (fitNative v ty u).1.toOption = v.coerce u.census ty := by
  change ((coerceNative v ty u).1.elim (.error ()) .ok : Except Unit NativeValue).toOption = _
  rw [coerceNative_value]
  cases v.coerce u.census ty <;> rfl

theorem coerceArgs_rests (u : World) : u.Rests (coerceArgs args params fit u).2 :=
  World.Rests.respected.coerceArgs args params fit u

variable (hhas : w.Has (args.flatMap NativeValue.handles)) (hu : w.Rests u)

include hhas hu

theorem isSome_coerceArgs (params : List NativeType) (fit : Fit) :
    (coerceArgs args params fit u).1.isSome
    = (decide (args.length = params.length)
      && (args.zip params).all fun p => w.takesNative fit p.2 p.1) := by
  have hfits : ∀ a ∈ args, ∀ ty, ∀ v : World, w.Rests v →
      (fitNative a ty v).1.toOption.isSome = (a.coerce w.census ty).isSome := by
    intro a ha ty v hv
    rw [toOption_fitNative, NativeValue.coerce_rests hv (hhas.of_flatMap ha)]
  exact isSome_convertFor fitNative_rests hfits hu

theorem forall₂_coerceArgs (h : (coerceArgs args params fit u).1 = some ns) :
    args.length = params.length ∧ List.Forall₂ (fun p n => p.1.coerce w.census p.2 = some n)
      (args.zip params) ns := by
  obtain ⟨hlength, hall⟩ := forall₂_convertFor fitNative_rests hu h
  have hmember : ∀ p ∈ args.zip params, w.Has p.1.handles :=
    fun p hp => hhas.of_flatMap (List.of_mem_zip hp).1
  refine ⟨hlength, ((List.forall₂_and_left _ _).mpr ⟨hmember, hall⟩).imp ?_⟩
  rintro p n ⟨hhas, v, hv, hconverted, -⟩
  rw [← NativeValue.coerce_rests hv hhas, ← toOption_fitNative, hconverted]
  rfl

end Native

end Callers

end Crossing

end TwinObject
