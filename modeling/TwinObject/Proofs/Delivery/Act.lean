/-
Steps of the library are silent: conversions and copies, reading and writing members,
attributes and variables, and the choice of what a call or a construction runs.
-/
import TwinObject.Proofs.Conversions
import TwinObject.Proofs.Delivery.Flight

namespace TwinObject

/-- Whether a step declares, raises and catches nothing. -/
def Act.Silent {α : Type} (a : Act α) : Prop :=
  ∀ w : World, w.Silent (a w).2

namespace Act.Silent

variable {α β : Type} {a : Act α} {k : α → Act β}

theorem pure (r : α) : Silent (Pure.pure r) :=
  fun w => .refl w

theorem bind (ha : Silent a) (hk : ∀ r, Silent (k r)) : Silent (a >>= k) :=
  fun w => (ha w).trans (hk (a w).1 (a w).2)

theorem get_bind {k : World → Act β} (hk : ∀ w, Silent (k w)) : Silent (get >>= k) :=
  fun w => hk w w

theorem mapM {f : α → Act β} (hf : ∀ x, Silent (f x)) (xs : List α) : Silent (xs.mapM f) := by
  induction xs with
  | nil => exact pure []
  | cons x xs ih =>
      rw [List.mapM_cons]
      exact (hf x).bind fun y => ih.bind fun ys => pure (y :: ys)

end Act.Silent

open Act.Silent

namespace World

section Reproduction

variable (t : TwinId)

theorem copyTwin_silent : Act.Silent (copyTwin t) := by
  intro w
  unfold copyTwin
  dsimp only
  split
  · exact .refl w
  · exact (Silent.retainAll w _).trans (.admitTwin _ _)

end Reproduction

/-- Conversions declare, raise and catch nothing. -/
theorem Silent.respected : Respects Silent where
  refl := .refl
  trans := .trans
  retainAll := .retainAll
  drop := .drop
  copyTwin := copyTwin_silent

/-- Nor does what is done to a twin. -/
theorem Silent.disregards (t : TwinId) : Disregards Silent t where
  toRespects := Silent.respected
  astray w _ := .tell w fun _ => rfl
  modifyTwin w := .modifyTwin w t
  admitTwin := .admitTwin

section Reproduction

variable (t : TwinId)

theorem moveTwin_silent : Act.Silent (moveTwin t) :=
  (Silent.disregards t).moveTwin

theorem materializeTwin_silent : Act.Silent (materializeTwin t) := by
  intro w
  unfold materializeTwin
  dsimp only
  split
  · exact copyTwin_silent t w
  · split
    · exact moveTwin_silent t w
    · exact copyTwin_silent t w

theorem reproduce_silent (way : Reproduction) : Act.Silent (reproduce way t) := by
  cases way with
  | copy => exact copyTwin_silent t
  | move => exact moveTwin_silent t
  | materialize => exact materializeTwin_silent t

end Reproduction

end World

namespace Crossing

variable (context : String)

theorem keep_silent (hs : List Handle) : Act.Silent (keep hs) :=
  fun w => .retainAll w hs

theorem discard_silent (hs : List Handle) : Act.Silent (discard hs) :=
  fun w => .drop w hs

theorem discardValues_silent (vs : List NativeValue) : Act.Silent (discardValues vs) :=
  discard_silent _

theorem lendToDynamic_silent (v : NativeValue) : Act.Silent (lendToDynamic v) :=
  (keep_silent _).bind fun _ => pure _

theorem toDynamic_silent (v : NativeValue) : Act.Silent (toDynamic v) :=
  (lendToDynamic_silent v).bind fun _ => (discard_silent _).bind fun _ => pure _

theorem lendToRaw_silent (v : DynValue) : Act.Silent (lendToRaw v) := by
  unfold lendToRaw
  split
  · exact pure _
  · exact (keep_silent _).bind fun _ => pure _

theorem toNative_silent (v : DynValue) (ty : NativeType) :
    Act.Silent (toNative context v ty) :=
  World.Silent.respected.toNative context v ty

theorem resultToNative_silent (strict : Bool) (v : DynValue) (ty : NativeType) :
    Act.Silent (resultToNative context strict v ty) := by
  intro w
  unfold resultToNative
  split
  · exact .refl w
  · split <;> exact .refl w
  · split
    · split
      · exact .retain w _
      · exact .refl w
    · exact toNative_silent context _ _ w
  · rename_i c t
    split
    · exact World.Silent.respected.nativeOf (World.materializeTwin_silent t) w
    · exact toNative_silent context _ _ w
  · exact toNative_silent context _ _ w

theorem returnToNative_silent (strict : Bool) (v : DynValue) (ty : NativeType) :
    Act.Silent (returnToNative context strict v ty) :=
  (resultToNative_silent context strict v ty).bind fun _ =>
    (discard_silent _).bind fun _ => pure _

theorem coerceNative_silent (v : NativeValue) (ty : NativeType) :
    Act.Silent (coerceNative v ty) :=
  World.Silent.respected.coerceNative v ty

theorem convertAll_silent {α ε : Type} {convert : α → NativeType → Act (Except ε NativeValue)}
    (hconvert : ∀ a ty, Act.Silent (convert a ty)) (done : List NativeValue)
    (rest : List (α × NativeType)) : Act.Silent (convertAll convert done rest) :=
  World.Silent.respected.convertAll hconvert done rest

theorem argsToNative_silent (args : List DynValue) (params : List NativeType) (fit : Fit) :
    Act.Silent (argsToNative context args params fit) :=
  World.Silent.respected.argsToNative context args params fit

theorem coerceArgs_silent (args : List NativeValue) (params : List NativeType) (fit : Fit) :
    Act.Silent (coerceArgs args params fit) :=
  World.Silent.respected.coerceArgs args params fit

end Crossing

/-- Whether trying the candidates of a call declares, raises and catches nothing. -/
structure Conversion.Silent (conv : Conversion Act) : Prop where
  convert : ∀ params fit, Act.Silent (conv.convert params fit)
  discard : ∀ args, Act.Silent (conv.discard args)

theorem Conversion.Silent.leads {conv : Conversion Act} (hconv : conv.Silent) :
    conv.Leads World.Silent :=
  ⟨hconv.convert, hconv.discard⟩

theorem Crossing.fromDynamic_silent (context : String) (args : List DynValue) :
    (Crossing.fromDynamic context args).Silent :=
  ⟨argsToNative_silent context args, discardValues_silent⟩

theorem Crossing.fromNative_silent (args : List NativeValue) : (Crossing.fromNative args).Silent :=
  ⟨coerceArgs_silent args, discardValues_silent⟩

section Choices

theorem VTable.resolve_silent {conv : Conversion Act} (hconv : conv.Silent) (table : VTable)
    (className name : String) (constOnly : Bool) :
    Act.Silent (table.resolve conv className name constOnly) :=
  World.Silent.respected.resolve hconv.leads table className name constOnly

theorem Call.pickOverload_silent {convert : List NativeType → Fit → Act (Option (List NativeValue))}
    (hconvert : ∀ params fit, Act.Silent (convert params fit)) (overloads : List MethodDecl)
    (fits : List Fit) : Act.Silent (pickOverload convert overloads fits) :=
  World.Silent.respected.pickOverload hconvert overloads fits

theorem Choice.search_silent (context : String) (g : ArgGroup) (fromDerived : Bool)
    (cs : List Constructor) (fits : List Fit) (hidden : Bool) :
    Act.Silent (search context g fromDerived cs fits hidden) :=
  World.Silent.respected.search context g fromDerived cs fits hidden

end Choices

namespace World

section Members

variable (t : TwinId) (name : String)

theorem getAttr_silent : Act.Silent (getAttr t name) := by
  intro w
  unfold getAttr
  split
  · exact .retainAll w _
  · exact .refl w

theorem setAttr_silent (v : DynValue) : Act.Silent (setAttr t name v) :=
  (Silent.disregards t).setAttr name v

theorem readMember_silent (find : Layout → Option Place) :
    Act.Silent (readMember t name find) := by
  intro w
  unfold readMember
  split
  · exact .retainAll w _
  · exact .refl w

theorem getFieldAs_silent (type : PlainType) : Act.Silent (getFieldAs type t name) := by
  refine (readMember_silent t name _).bind fun r => ?_
  cases r with
  | error f => exact pure _
  | ok v =>
      refine get_bind fun w => ?_
      split
      · exact pure _
      · exact (Crossing.discard_silent _).bind fun _ => pure _

theorem setField_silent (v : NativeValue) : Act.Silent (setField t name v) :=
  (Silent.disregards t).setField name v

end Members

section Variables

theorem readDyn_silent (x : String) : Act.Silent (readDyn x) := by
  intro w
  unfold readDyn
  split
  · exact .retainAll w _
  · exact Crossing.lendToDynamic_silent _ w
  · exact .refl w

theorem readNative_silent (x : String) : Act.Silent (readNative x) := by
  intro w
  unfold readNative
  split
  · exact Crossing.lendToRaw_silent _ w
  · exact .retainAll w _
  · exact .refl w

theorem vecAppend_silent (way : Reproduction) (i : Nat) (t : TwinId) :
    Act.Silent (vecAppend way i t) := by
  intro w
  unfold vecAppend
  dsimp only
  split
  · exact .refl w
  · have hmade := reproduce_silent t way w
    generalize reproduce way t w = r at hmade
    obtain ⟨result, u⟩ := r
    cases result with
    | error f => exact hmade
    | ok new =>
        have hplaced : (u.asNative new).Silent
            ((u.asNative new).setItems i (((u.asNative new).vec i).items ++ [new])) :=
          .of_eq rfl rfl rfl rfl
        exact (hmade.trans (.asNative u new)).trans hplaced

theorem vecGet_silent (i index : Nat) : Act.Silent (vecGet i index) := by
  intro w
  unfold vecGet
  split
  · exact .refl w
  · exact .retain w _

theorem vecNative_silent (i index : Nat) : Act.Silent (vecNative i index) := by
  intro w
  unfold vecNative
  split
  · exact .refl w
  · exact .retain w _

theorem vecRemove_silent (i index : Nat) : Act.Silent (vecRemove i index) := by
  intro w
  unfold vecRemove
  split
  · exact .refl w
  · have htaken : w.Silent (w.setItems i ((w.vec i).items.eraseIdx index)) :=
      .of_eq rfl rfl rfl rfl
    exact (htaken.trans (.retain _ _)).trans (.drop _ _)

theorem lookupOverride_silent (c : DynamicClass) (index : Nat) (slot : Slot) :
    Act.Silent (lookupOverride c index slot) := by
  intro w
  unfold lookupOverride
  split
  · exact .refl w
  · exact .refl w
  · exact .of_steady (.modifyClass w c.id fun _ => rfl) rfl

end Variables

end World

namespace Site

variable (s : Site) (name : String)

theorem set_silent (v : NativeValue) : Act.Silent (s.set name v) := by
  intro w
  unfold Site.set
  split
  · exact .drop w _
  · exact (World.Silent.disregards s.twin).writeMember _ _ _ v w

theorem get_silent : Act.Silent (s.get name) := by
  intro w
  unfold Site.get
  split
  · exact .refl w
  · exact .retainAll w _

end Site

end TwinObject
