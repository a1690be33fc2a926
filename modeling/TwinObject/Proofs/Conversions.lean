/-
Conversions at large.  To convert and bind arguments, and to try candidates with them, comes
down to taking handles, letting go of handles and copying instances.  A relation between
worlds that respects these three respects all of it.  One that moreover disregards an instance
respects all that is assigned to it or moved out of it.
-/
import TwinObject.Call

namespace TwinObject

/-- Whether a step leads to a related world from any. -/
def Act.Leads {α : Type} (r : World → World → Prop) (a : Act α) : Prop :=
  ∀ w, r w (a w).2

/-- Whether a relation respects what conversions are made of. -/
structure World.Respects (r : World → World → Prop) : Prop where
  refl (w : World) : r w w
  trans {w u v : World} (h : r w u) (h' : r u v) : r w v
  retainAll (w : World) (hs : List Handle) : r w (w.retainAll hs)
  drop (w : World) (hs : List Handle) : r w (w.drop hs)
  copyTwin (t : TwinId) (w : World) : r w (World.copyTwin t w).2

namespace World.Respects

variable {r : World → World → Prop} (hr : Respects r)

include hr

section Steps

variable {α β : Type} {a : Act α} {k : α → Act β}

theorem pure (x : α) : Act.Leads r (Pure.pure x) :=
  hr.refl

theorem bind (ha : Act.Leads r a) (hk : ∀ x, Act.Leads r (k x)) : Act.Leads r (a >>= k) :=
  fun w => hr.trans (ha w) (hk (a w).1 (a w).2)

end Steps

section Values

theorem asNative (w : World) (t : TwinId) : r w (w.asNative t) :=
  hr.trans (hr.retainAll w [.native t]) (hr.drop _ _)

theorem discard (hs : List Handle) : Act.Leads r (Crossing.discard hs) :=
  fun w => hr.drop w hs

theorem discardValues (vs : List NativeValue) : Act.Leads r (Crossing.discardValues vs) :=
  hr.discard _

/-- A new instance that was made for a value is held on the native side. -/
theorem nativeOf {made : Act (Except Failure TwinId)} (hmade : Act.Leads r made) :
    Act.Leads r fun w => match made w with
      | (.ok t, w) => ((.ok (.object t) : Except Failure NativeValue), w.asNative t)
      | (.error f, w) => (.error f, w) := by
  intro w
  have hfirst := hmade w
  dsimp only
  generalize made w = result at hfirst
  obtain ⟨made | t, u⟩ := result
  · exact hfirst
  · exact hr.trans hfirst (hr.asNative u t)

/-- Only instances are more than plain values. -/
theorem toNative (context : String) (v : DynValue) (ty : NativeType) :
    Act.Leads r (Crossing.toNative context v ty) := by
  intro w
  unfold Crossing.toNative
  cases v with
  | object t =>
      cases ty with
      | object c =>
          dsimp only
          split
          · exact hr.nativeOf (hr.copyTwin t) w
          · exact hr.refl w
      | ref c | ptr c =>
          dsimp only
          split
          · exact hr.retainAll w [.native t]
          · exact hr.refl w
      | _ => exact hr.refl w
  | _ => cases ty <;> exact hr.refl w

theorem coerceNative (v : NativeValue) (ty : NativeType) :
    Act.Leads r (Crossing.coerceNative v ty) := by
  intro w
  unfold Crossing.coerceNative
  split
  · exact hr.refl w
  · exact hr.retainAll w _

theorem convertAll {α ε : Type} {convert : α → NativeType → Act (Except ε NativeValue)}
    (hconvert : ∀ a ty, Act.Leads r (convert a ty)) (done : List NativeValue)
    (rest : List (α × NativeType)) : Act.Leads r (Crossing.convertAll convert done rest) := by
  induction rest generalizing done with
  | nil => exact hr.pure _
  | cons entry rest ih =>
      refine hr.bind (hconvert entry.1 entry.2) fun result => ?_
      cases result with
      | ok v => exact ih (done ++ [v])
      | error e => exact hr.bind (hr.discard _) fun _ => hr.pure _

theorem argsToNative (context : String) (args : List DynValue) (params : List NativeType)
    (fit : Fit) : Act.Leads r (Crossing.argsToNative context args params fit) := by
  unfold Crossing.argsToNative
  split
  · exact hr.pure _
  · split
    · exact hr.pure _
    · exact hr.bind (hr.convertAll (hr.toNative context) [] _) fun _ => hr.pure _

theorem coerceArgs (args : List NativeValue) (params : List NativeType) (fit : Fit) :
    Act.Leads r (Crossing.coerceArgs args params fit) := by
  unfold Crossing.coerceArgs
  split
  · exact hr.pure _
  · split
    · exact hr.pure _
    · refine hr.bind (hr.convertAll (fun v ty => ?_) [] _) fun _ => hr.pure _
      exact hr.bind (hr.coerceNative v ty) fun _ => hr.pure _

end Values

end World.Respects

/-- Whether trying the candidates of a call leads to related worlds. -/
structure Conversion.Leads (r : World → World → Prop) (conv : Conversion Act) : Prop where
  convert : ∀ params fit, Act.Leads r (conv.convert params fit)
  discard : ∀ args, Act.Leads r (conv.discard args)

namespace World.Respects

variable {r : World → World → Prop} (hr : Respects r)

include hr

theorem fromDynamic (context : String) (args : List DynValue) :
    (Crossing.fromDynamic context args).Leads r :=
  ⟨hr.argsToNative context args, hr.discardValues⟩

section Slots

variable {conv : Conversion Act} (hconv : conv.Leads r)

include hconv

theorem scan (constOnly : Bool) (fit : Fit) (slots : List (Nat × Slot)) (c : Candidates) :
    Act.Leads r (Candidates.scan conv constOnly fit slots c) := by
  induction slots generalizing c with
  | nil => exact hr.pure c
  | cons entry rest ih =>
      refine hr.bind (hconv.convert entry.2.key.params fit) fun found => ?_
      cases found with
      | none => exact ih c
      | some args =>
          dsimp only
          split
          · cases c.pending with
            | none => exact ih _
            | some _ => exact hr.bind (hconv.discard args) fun _ => ih c
          · split
            · exact hr.bind (hconv.discard args) fun _ => ih _
            · cases c.pending with
              | none => exact hr.bind (hr.pure ()) fun _ => hr.pure _
              | some other => exact hr.bind (hconv.discard other.args) fun _ => hr.pure _

theorem resolvePasses (table : VTable) (className name : String) (constOnly : Bool)
    (fits : List Fit) (blocked : Bool) :
    Act.Leads r (table.resolvePasses conv className name constOnly fits blocked) := by
  induction fits generalizing blocked with
  | nil => exact hr.pure _
  | cons fit fits ih =>
      refine hr.bind (hr.scan hconv constOnly fit _ _) fun c => ?_
      obtain ⟨pending, again, found⟩ := c
      cases found with
      | some found => exact hr.pure _
      | none =>
          cases pending with
          | some pending => exact hr.pure _
          | none => exact ih again

theorem resolve (table : VTable) (className name : String) (constOnly : Bool) :
    Act.Leads r (table.resolve conv className name constOnly) :=
  hr.resolvePasses hconv table className name constOnly Fit.order false

end Slots

section Methods

variable {convert : List NativeType → Fit → Act (Option (List NativeValue))}
  (hconvert : ∀ params fit, Act.Leads r (convert params fit))

include hconvert

theorem attempt (fit : Fit) (overloads : List MethodDecl) :
    Act.Leads r (Call.pickOverload.attempt convert fit overloads) := by
  induction overloads with
  | nil => exact hr.pure _
  | cons d ds ih =>
      refine hr.bind (hconvert d.params fit) fun found => ?_
      cases found with
      | none => exact ih
      | some args => exact hr.pure _

theorem pickOverload (overloads : List MethodDecl) (fits : List Fit) :
    Act.Leads r (Call.pickOverload convert overloads fits) := by
  induction fits with
  | nil => exact hr.pure _
  | cons fit fits ih =>
      refine hr.bind (hr.attempt hconvert fit overloads) fun found => ?_
      cases found with
      | none => exact ih
      | some found => exact hr.pure _

end Methods

section Constructors

variable (context : String)

theorem bindParam (fit : Fit) (p : Param) (s : Constructor.Supply) :
    Act.Leads r (Constructor.bindParam context fit p s) := by
  cases s with
  | clash => exact hr.pure _
  | given v byKeyword =>
      rw [Constructor.bindParam]
      split
      · exact hr.pure _
      · exact hr.bind (hr.toNative context v p.type) fun _ => hr.pure _
  | missing =>
      rw [Constructor.bindParam]
      split
      · exact hr.pure _
      · exact hr.coerceNative _ _

theorem bindParams (fit : Fit) (keywords : List (String × DynValue)) (done : List NativeValue)
    (used : Nat) (ps : List Param) (positional : List DynValue) :
    Act.Leads r (Constructor.bindParams context fit keywords done used ps positional) := by
  induction ps generalizing done used positional with
  | nil => exact hr.pure _
  | cons p ps ih =>
      refine hr.bind (hr.bindParam context fit p _) fun bound => ?_
      cases bound with
      | none => exact hr.bind (hr.discardValues done) fun _ => hr.pure _
      | some v => exact ih _ _ _

theorem bindGroup (c : Constructor) (fit : Fit) (g : ArgGroup) :
    Act.Leads r (c.bind context fit g) := by
  unfold Constructor.bind
  split
  · exact hr.pure _
  · refine hr.bind (hr.bindParams context fit g.keywords [] 0 c.params g.positional) fun bound => ?_
    split
    · exact hr.pure _
    · split
      · exact hr.pure _
      · exact hr.bind (hr.discardValues _) fun _ => hr.pure _

theorem among (fit : Fit) (g : ArgGroup) (fromDerived : Bool) (cs : List Constructor)
    (hidden : Bool) : Act.Leads r (Choice.among context fit g fromDerived cs hidden) := by
  induction cs generalizing hidden with
  | nil => exact hr.pure _
  | cons c cs ih =>
      refine hr.bind (hr.bindGroup context c fit g) fun bound => ?_
      cases bound with
      | none => exact ih hidden
      | some args =>
          dsimp only
          split
          · exact hr.pure _
          · exact hr.bind (hr.discardValues args) fun _ => ih true

theorem search (g : ArgGroup) (fromDerived : Bool) (cs : List Constructor) (fits : List Fit)
    (hidden : Bool) : Act.Leads r (Choice.search context g fromDerived cs fits hidden) := by
  induction fits generalizing hidden with
  | nil => exact hr.pure _
  | cons fit fits ih =>
      refine hr.bind (hr.among context fit g fromDerived cs hidden) fun found => ?_
      cases found with
      | inl choice => exact hr.pure _
      | inr again => exact ih again

end Constructors

end World.Respects

/-- Whether a relation respects moreover what is done to a twin, and what is new. -/
structure World.Disregards (r : World → World → Prop) (i : TwinId) : Prop extends Respects r where
  astray (w : World) (p : Place) : r w (w.record [.astray i p])
  modifyTwin (w : World) (f : Twin → Twin) : r w (w.modifyTwin i f)
  admitTwin (w : World) (a : Twin) : r w (w.admitTwin a).1

namespace World.Disregards

variable {r : World → World → Prop} {i : TwinId} (hr : Disregards r i)

include hr

theorem storeValue (w : World) (p : Place) (v : NativeValue) : r w (w.storeValue i p v) := by
  unfold World.storeValue
  split
  · exact hr.trans (hr.astray w p) (hr.drop _ v.handles)
  · exact hr.trans (hr.modifyTwin w _) (hr.drop _ _)

theorem storeAttr (w : World) (name : String) (v : DynValue) : r w (w.storeAttr i name v) :=
  hr.trans (hr.modifyTwin w _) (hr.drop _ _)

/-- Dynamic assignment converts the value and stores it. -/
theorem setAttr (name : String) (v : DynValue) : Act.Leads r (setAttr i name v) := by
  intro w
  unfold World.setAttr
  dsimp only
  split
  · exact hr.storeAttr w name v
  · rename_i p hfind
    split
    · exact hr.trans (hr.astray w p) (hr.drop _ v.handles)
    · rename_i d hdecl
      have hconverted := hr.toNative ("assignment to '" ++ name ++ "'") v d.type w
      generalize Crossing.toNative ("assignment to '" ++ name ++ "'") v d.type w = result
        at hconverted
      obtain ⟨f | n, u⟩ := result
      · exact hr.trans hconverted (hr.drop u v.handles)
      · exact hr.trans hconverted (hr.trans (hr.storeValue u p n) (hr.drop _ v.handles))

/-- Native assignment takes handles to what is stored. -/
theorem writeMember (p : Place) (decl : MemberDecl) (context : String) (v : NativeValue) :
    Act.Leads r (writeMember i p decl context v) := by
  intro w
  unfold World.writeMember
  split
  · exact hr.drop w v.handles
  · rename_i c hcoerce
    have hstored := hr.trans (hr.retainAll w c.handles) (hr.storeValue _ p c)
    exact hr.trans hstored (hr.drop _ v.handles)

theorem setField (name : String) (v : NativeValue) : Act.Leads r (setField i name v) := by
  intro w
  unfold World.setField
  dsimp only
  split
  · exact hr.drop w v.handles
  · exact hr.writeMember _ _ _ v w

/-- A move takes the halves out of one twin. -/
theorem moveTwin : Act.Leads r (moveTwin i) := by
  intro w
  unfold World.moveTwin
  dsimp only
  split
  · exact hr.refl w
  · have hemptied := hr.trans (hr.retainAll w (w.twin i).movedOut.contents)
      (hr.modifyTwin _ Twin.movedOut)
    exact hr.trans hemptied (hr.admitTwin _ _)

end World.Disregards

end TwinObject
