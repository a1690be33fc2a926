/-
Inspection is quiet.  Showing an instance gives it a number, and nothing depends
on that.
-/
import TwinObject.Proofs.Safe.Eval

namespace TwinObject

open Hold

namespace World.Alike

variable {w u v : World}

theorem refl (w : World) : w.Alike w :=
  w.alike_with (Nat.le_refl _) id

theorem trans (h : w.Alike u) (h' : u.Alike v) : w.Alike v where
  twins := h'.twins.trans h.twins
  declared := h'.declared.trans h.declared
  classes := h'.classes.trans h.classes
  registry := h'.registry.trans h.registry
  vecs := h'.vecs.trans h.vecs
  groups := h'.groups.trans h.groups
  threads := h'.threads.trans h.threads
  natives := h'.natives.trans h.natives
  labels := h'.labels.trans h.labels
  vars := h'.vars.trans h.vars
  journal := h'.journal.trans h.journal
  lent := h'.lent.trans h.lent
  interps := h.interps.trans h'.interps
  started := h.started.trans h'.started
  seated := h'.seated ∘ h.seated

end World.Alike

/-- Whether a step changes nothing but the numbers under which instances are shown. -/
def Act.Quiet {α : Type} (a : Act α) : Prop :=
  ∀ w : World, ∃ shown, (a w).2 = { w with shown := shown }

namespace Act.Quiet

variable {α β : Type} {a : Act α} {k : α → Act β}

theorem pure (r : α) : Quiet (Pure.pure r) :=
  fun w => ⟨w.shown, rfl⟩

theorem get_bind {k : World → Act β} (hk : ∀ w, Quiet (k w)) : Quiet (get >>= k) :=
  fun w => hk w w

theorem bind (ha : Quiet a) (hk : ∀ r, Quiet (k r)) : Quiet (a >>= k) := by
  intro w
  obtain ⟨shown, hfirst⟩ := ha w
  obtain ⟨shown', hsecond⟩ := hk (a w).1 (a w).2
  refine ⟨shown', ?_⟩
  change (k (a w).1 (a w).2).2 = _
  rw [hsecond, hfirst]

theorem mapM {f : α → Act β} (hf : ∀ x, Quiet (f x)) (xs : List α) : Quiet (xs.mapM f) := by
  induction xs with
  | nil => exact .pure []
  | cons x xs ih =>
      rw [List.mapM_cons]
      exact .bind (hf x) fun y => .bind ih fun ys => .pure (y :: ys)

/-- A quiet step is safe, whatever is held. -/
theorem safe (ha : Quiet a) {F take : Hold} {w : World} : Act.Safe F take (fun _ => take) w a := by
  intro R _
  obtain ⟨shown, hsame⟩ := ha w
  rw [hsame]
  exact Path.quiet (w.alike_with (Nat.le_refl _) id) (.of_eq rfl rfl rfl)

end Act.Quiet

namespace World

open Act.Quiet

theorem number_quiet (t : TwinId) : Act.Quiet (number t) := by
  intro w
  unfold number
  split
  · exact ⟨w.shown, rfl⟩
  · exact ⟨_, rfl⟩

theorem showTwin_quiet (t : TwinId) : Act.Quiet (showTwin t) :=
  bind (number_quiet t) fun _ => get_bind fun _ => pure _

theorem showNative_quiet (v : NativeValue) : Act.Quiet (showNative v) := by
  cases v with
  | object t => exact showTwin_quiet t
  | _ => exact pure _

mutual

theorem showDyn_quiet : (v : DynValue) → Act.Quiet (showDyn v)
  | .object t => showTwin_quiet t
  | .tuple items => by
      rw [showDyn]
      exact bind (showItems_quiet items) fun _ => pure _
  | .none => by rw [showDyn]; exact pure _
  | .bool _ => by rw [showDyn]; exact pure _
  | .int _ => by rw [showDyn]; exact pure _
  | .float _ => by rw [showDyn]; exact pure _
  | .str _ => by rw [showDyn]; exact pure _

theorem showItems_quiet : (vs : List DynValue) → Act.Quiet (showItems vs)
  | [] => by rw [showItems]; exact pure _
  | v :: vs => by
      rw [showItems]
      exact bind (showDyn_quiet v) fun _ => bind (showItems_quiet vs) fun _ => pure _

end

theorem showOptional_quiet {α : Type} {f : α → Act Report} (hf : ∀ a, Act.Quiet (f a))
    (o : Option α) : Act.Quiet (showOptional f o) := by
  cases o with
  | none => exact pure _
  | some a => exact bind (hf a) fun _ => pure _

end World

namespace Inspect

open Act.Quiet World

theorem member_quiet (d : MemberDecl) : Act.Quiet (member d) :=
  bind (showNative_quiet d.default) fun _ => pure _

theorem nativeClass_quiet (c : NativeClass) : Act.Quiet (nativeClass c) :=
  bind (mapM member_quiet c.members) fun _ => get_bind fun _ => pure _

theorem layout_quiet (l : Layout) (names : List String) (within : List (String × String)) :
    Act.Quiet (layout l names within) :=
  bind (mapM (fun segment => bind (mapM showNative_quiet segment) fun _ => pure _)
    l.defaultStorage) fun _ => get_bind fun _ => pure _

theorem classQuery_quiet (c : DynamicClass) (name : String) : Act.Quiet (classQuery c name) :=
  get_bind fun w => bind (showOptional_quiet showDyn_quiet (w.classAttr? c name)) fun _ =>
    get_bind fun _ => pure _

theorem dynValue_quiet (v : DynValue) : Act.Quiet (dynValue v) :=
  bind (showDyn_quiet v) fun _ => bind (showOptional_quiet
    (fun items => bind (showItems_quiet items) fun _ => pure _) v.asTuple?) fun _ =>
      get_bind fun _ => pure _

theorem nativeValue_quiet (v : NativeValue) : Act.Quiet (nativeValue v) :=
  bind (showNative_quiet v) fun _ => get_bind fun _ => pure _

end Inspect

end TwinObject
