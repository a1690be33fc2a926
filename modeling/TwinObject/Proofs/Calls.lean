/-
Virtual calls after every history.  Remembering overrides makes no difference: a
call through a slot runs the method that the chain of the instance's own class
gives, else the native body, and never a slot without one.  Classes for which
that could happen have no instances.
-/
import TwinObject.Proofs.History

namespace TwinObject

namespace DynamicClass

variable {c : DynamicClass} {slot : Slot}

/-- Whether the nearest class of the chain that defines a name defines it as `m`. -/
def Nearest (c : DynamicClass) (name : String) (m : Method) : Prop :=
  ∃ before d behind, c.chain = before ++ d :: behind ∧ (∀ b ∈ before, b.method? name = none)
    ∧ d.method? name = some m

theorem findMethod_iff {name : String} {m : Method} :
    c.findMethod? name = some m ↔ c.Nearest name m := by
  rw [findMethod?, List.findSome?_eq_some_iff]
  constructor
  · rintro ⟨before, d, behind, hchain, hd, hbefore⟩
    exact ⟨before, d, behind, hchain, hbefore, hd⟩
  · rintro ⟨before, d, behind, hchain, hbefore, hd⟩
    exact ⟨before, d, behind, hchain, hd, hbefore⟩

theorem accepts_iff {m : Method} {count : Nat} :
    m.accepts count = true ↔ m.arity = none ∨ m.arity = some count := by
  rw [Method.accepts]
  cases m.arity <;> simp

theorem override_iff {m : Method} : c.override? slot = some m ↔
    c.Nearest slot.key.name m ∧ (m.arity = none ∨ m.arity = some slot.key.arity) := by
  rw [override?, Option.filter_eq_some_iff, findMethod_iff, accepts_iff]

/-- Whether a slot is pure and the nearest class that defines its name, if there is
one, does not accept its arity. -/
def Lacks (c : DynamicClass) (slot : Slot) : Prop :=
  slot.isPure = true ∧
    ∀ m, c.Nearest slot.key.name m → ¬(m.arity = none ∨ m.arity = some slot.key.arity)

theorem lacks_iff : c.Lacks slot ↔ slot.isPure = true ∧ c.override? slot = none := by
  simp only [Lacks, Option.eq_none_iff_forall_ne_some, ne_eq, override_iff, not_and]

theorem missing_iff : (slot.isPure && !c.implements slot) = true ↔ c.Lacks slot := by
  rw [lacks_iff, Call.implements_eq, Bool.and_eq_true, Bool.not_eq_true',
    Option.isSome_eq_false_iff, Option.isNone_iff_eq_none]

end DynamicClass

/-- Whether a slot is the first one of a table that something holds of. -/
def VTable.First (table : VTable) (P : Slot → Prop) (slot : Slot) : Prop :=
  P slot ∧ ∃ before behind, table.slots = before ++ slot :: behind ∧ ∀ b ∈ before, ¬P b

theorem VTable.find_eq_some_iff {table : VTable} {p : Slot → Bool} {P : Slot → Prop}
    (hp : ∀ slot, p slot = true ↔ P slot) {slot : Slot} :
    table.slots.find? p = some slot ↔ table.First P slot := by
  rw [List.find?_eq_some_iff_append, hp, First]
  simp only [Bool.not_eq_true', ← Bool.not_eq_true, hp]

theorem VTable.first_or_none (table : VTable) (P : Slot → Prop) :
    (∃ slot, table.First P slot) ∨ ∀ slot ∈ table.slots, ¬P slot := by
  classical
  cases hfind : table.slots.find? (fun slot => decide (P slot)) with
  | none => exact Or.inr fun slot hslot => by simpa using List.find?_eq_none.mp hfind slot hslot
  | some slot => exact Or.inl ⟨slot, (find_eq_some_iff fun _ => decide_eq_true_iff).mp hfind⟩

/-- A new twin gets the next number. -/
theorem World.snd_create (w : World) (interp : InterpId) (kind : Kind) (owner : Ownership) :
    (w.create interp kind owner).2 = w.twins.size := by
  obtain ⟨twins, hframe, hsize⟩ := w.retainAll_frame (Twin.fresh interp kind owner).contents
  simp only [create, admitTwin, hframe, hsize]

/-- What comes after a new twin runs with its number, in the world that it is part of. -/
theorem Run.create_bind {ε α : Type} (w : World) (interp : InterpId) (kind : Kind)
    (owner : Ownership) (k : TwinId → Run ε α) :
    (Run.act (fun w => (w.create interp kind owner).swap) >>= k) w
      = k (w.create interp kind owner).2 (w.create interp kind owner).1 :=
  rfl

namespace Construction

variable (h : Host) (w : World)

/-- A class that lacks an override is refused, and the world stays as it is. -/
theorem newDynamic_refused {c : DynamicClass} {slot : Slot} (hfirst : c.vtable.First c.Lacks slot)
    (args : List DynValue) : newDynamic h c args w
      = .ended (.raised (Failure.abstractInstantiation c.name slot.key.text).raise) w := by
  have hmissing : c.missingOverride? = some slot :=
    (VTable.find_eq_some_iff fun _ => DynamicClass.missing_iff).mpr hfirst
  rw [newDynamic, hmissing]
  rfl

/-- For any other class an instance is created, and initialized in the world that
it is part of. -/
theorem newDynamic_admitted {c : DynamicClass} (hnone : ∀ slot ∈ c.vtable.slots, ¬c.Lacks slot)
    (args : List DynValue) : newDynamic h c args w
      = (do
          Run.unwinding [.dynamic w.twins.size] do
            runInitializer h c w.twins.size args
            Run.mapError Failure.raise (finish h w.twins.size)
          return w.twins.size : Run Thrown TwinId) (w.create c.interp (.dynamic c) .dynamic).1 := by
  have hmissing : c.missingOverride? = none :=
    List.find?_eq_none.mpr fun slot hslot hlacks =>
      hnone slot hslot (DynamicClass.missing_iff.mp hlacks)
  rw [newDynamic, hmissing]
  dsimp only
  rw [Run.create_bind, World.snd_create]

theorem newNative_refused {c : NativeClass} {slot : Slot}
    (hfirst : c.vtable.First (fun s => s.isPure = true) slot) (interp : InterpId) (g : ArgGroup)
    (owner : Ownership) : newNative h c interp g owner w
      = .ended (.raised (.abstractInstantiation c.name slot.key.text)) w := by
  have hpure : c.vtable.firstPure? = some slot :=
    (VTable.find_eq_some_iff fun _ => Iff.rfl).mpr hfirst
  rw [newNative, hpure]
  rfl

theorem newNative_admitted {c : NativeClass} (hnone : ∀ slot ∈ c.vtable.slots, slot.isPure = false)
    (interp : InterpId) (g : ArgGroup) (owner : Ownership) : newNative h c interp g owner w
      = (do
          Run.unwinding [.dynamic w.twins.size] (constructBase h w.twins.size 0 g false)
          return w.twins.size : Run Failure TwinId) (w.create interp (.native c) owner).1 := by
  have hpure : c.vtable.firstPure? = none :=
    List.find?_eq_none.mpr fun slot hslot => by simp [hnone slot hslot]
  rw [newNative, hpure]
  dsimp only
  rw [Run.create_bind, World.snd_create]

end Construction

open Session

/-- Every answer of a session is the same if each virtual call looks its override up
afresh in the chain of the instance's class, whatever would come of a slot that does
not exist or that nothing implements.  What is remembered of a slot is what the
nearest class that defines its name gives for it, and stays so. -/
theorem dispatch_uncached (depth : Nat) (noSlot : Kind → Nat → Run Failure NativeValue)
    (bare : Slot → Run Failure NativeValue) (steps : List Step) :
    run depth steps = runOn (.nested (.fresh noSlot bare) depth) steps
    ∧ (∀ (c : DynamicClass) (slot : Slot) (m : Method), c.override? slot = some m ↔
        c.Nearest slot.key.name m ∧ (m.arity = none ∨ m.arity = some slot.key.arity))
    ∧ ∀ (id : ClassId) (s : ClassState),
        (after (.nested .memo depth) steps).world.classes[id]? = some s →
        s.overrides.length = s.cls.vtable.size
        ∧ ∀ (index : Nat) (found : Option Method), s.overrides[index]? = some (some found) →
          (∃ slot, s.cls.vtable.get? index = some slot ∧ found = s.cls.override? slot)
          ∧ ∀ more, ∃ s', s'.cls = s.cls ∧ s'.overrides[index]? = some (some found) ∧
            (after (.nested .memo depth) (steps ++ more)).world.classes[id]? = some s' := by
  refine ⟨run_eq_runOn depth steps noSlot bare, fun _ _ _ => DynamicClass.override_iff,
    fun id s hs => ?_⟩
  have hfaithful : s.Faithful :=
    (attained_after depth steps).reached fun _ hreach => hreach.invariant.remembered id s hs
  refine ⟨hfaithful.size, fun index found hfound => ⟨hfaithful.known index found hfound, ?_⟩⟩
  intro more
  obtain ⟨s', hs', hevolves⟩ := (persists_after depth steps more).classes id s hs
  exact ⟨s', hevolves.cls, hevolves.known index found hfound, hs'⟩

/-- What would come of a call that reaches a pure slot without an override makes no
difference to any answer of a session, and every slot of every instance there ever is
has an override or a body.  A class is refused if and only if it has a pure slot that
it lacks an override for, the first such slot is named, and the world stays as it is;
for any other class an instance is created and initialized. -/
theorem no_abstract_dispatch (depth : Nat) (steps : List Step) :
    (∀ bare, run depth steps = runOn (.nested (.fresh Dispatcher.memo.noSlot bare) depth) steps)
    ∧ (∀ (t : TwinId) (a : Twin) (index : Nat) (slot : Slot),
        (after (.nested .memo depth) steps).world.twins[t]? = some a →
        a.kind.vtable.get? index = some slot → slot.body = none →
        ∃ c m, a.kind = .dynamic c ∧ c.override? slot = some m)
    ∧ (∀ (h : Host) (c : DynamicClass) (args : List DynValue) (w : World),
        (∃ slot, c.vtable.First c.Lacks slot ∧ Construction.newDynamic h c args w
          = .ended (.raised (Failure.abstractInstantiation c.name slot.key.text).raise) w)
        ∨ (∀ slot ∈ c.vtable.slots, ¬c.Lacks slot) ∧ Construction.newDynamic h c args w
          = (do
              Run.unwinding [.dynamic w.twins.size] do
                Construction.runInitializer h c w.twins.size args
                Run.mapError Failure.raise (Construction.finish h w.twins.size)
              return w.twins.size : Run Thrown TwinId)
            (w.create c.interp (.dynamic c) .dynamic).1)
    ∧ ∀ (h : Host) (c : NativeClass) (i : InterpId) (g : ArgGroup) (owner : Ownership) (w : World),
        (∃ slot, c.vtable.First (fun s => s.isPure = true) slot
          ∧ Construction.newNative h c i g owner w
            = .ended (.raised (.abstractInstantiation c.name slot.key.text)) w)
        ∨ (∀ slot ∈ c.vtable.slots, slot.isPure = false) ∧ Construction.newNative h c i g owner w
          = (do
              Run.unwinding [.dynamic w.twins.size]
                (Construction.constructBase h w.twins.size 0 g false)
              return w.twins.size : Run Failure TwinId) (w.create i (.native c) owner).1 := by
  refine ⟨fun bare => run_eq_runOn depth steps _ bare, fun t a index slot ha hslot hbody => ?_,
    fun h c args w => ?_, fun h c i g owner w => ?_⟩
  · have hconcrete : a.kind.Concrete :=
      (attained_after depth steps).reached fun _ hreach => hreach.invariant.formed.concrete t a ha
    cases hkind : a.kind with
    | native c =>
        rw [hkind] at hconcrete hslot
        exact absurd hbody (Call.body_of_native hconcrete hslot)
    | dynamic c =>
        rw [hkind] at hconcrete hslot
        cases hfound : c.override? slot with
        | none => exact absurd hbody (Call.body_of_concrete hconcrete hslot hfound)
        | some m => exact ⟨c, m, rfl, hfound⟩
  · rcases VTable.first_or_none c.vtable c.Lacks with ⟨slot, hfirst⟩ | hnone
    · exact Or.inl ⟨slot, hfirst, Construction.newDynamic_refused h w hfirst args⟩
    · exact Or.inr ⟨hnone, Construction.newDynamic_admitted h w hnone args⟩
  · rcases VTable.first_or_none c.vtable fun s => s.isPure = true with ⟨slot, hfirst⟩ | hnone
    · exact Or.inl ⟨slot, hfirst, Construction.newNative_refused h w hfirst i g owner⟩
    · have hbodies : ∀ slot ∈ c.vtable.slots, slot.isPure = false :=
        fun slot hslot => Bool.eq_false_iff.mpr (hnone slot hslot)
      exact Or.inr ⟨hbodies, Construction.newNative_admitted h w hbodies i g owner⟩

end TwinObject
