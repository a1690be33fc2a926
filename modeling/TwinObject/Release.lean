/-
Counted handles: taking one, letting one go, and what follows when the last
handle to a twin is gone.  Its destruction is recorded, the handles inside it
are let go in turn, each together with all that depends on it before the next,
and then its class may have come to its end too, with what that class kept.
-/
import TwinObject.World

namespace TwinObject

namespace Twin

def retain (h : Handle) (t : Twin) : Twin :=
  match h with
  | .native _ => { t with nativeCount := t.nativeCount + 1 }
  | .dynamic _ => { t with dynamicCount := t.dynamicCount + 1 }

/-- How many handles of the kind of `h` are counted. -/
def tally (h : Handle) (t : Twin) : Nat :=
  match h with
  | .native _ => t.nativeCount
  | .dynamic _ => t.dynamicCount

def forget (h : Handle) (t : Twin) : Twin :=
  match h with
  | .native _ => { t with nativeCount := t.nativeCount - 1 }
  | .dynamic _ => { t with dynamicCount := t.dynamicCount - 1 }

/-- Whether the last handle is gone and the twin was not released yet. -/
def isDue (t : Twin) : Bool :=
  t.nativeCount = 0 && t.dynamicCount = 0 && t.stage = .live

/-- A twin of a class before anything is constructed: default storage, and one
dynamic handle. -/
def fresh (interp : InterpId) (kind : Kind) (owner : Ownership) : Twin :=
  { interp, kind, owner
    storage := kind.layout.defaultStorage
    attrs := {}
    constructed := List.replicate kind.layout.baseCount false
    moved := false
    filling := false
    nativeCount := 0
    dynamicCount := 1
    stage := .live }

/-- A twin after its release: nothing is constructed or stored in it. -/
def emptied (t : Twin) : Twin :=
  { t with stage := .leaving, constructed := [], storage := [], attrs := {} }

/-- What the end of a twin can still cost. -/
def weight (t : Twin) : Nat :=
  match t.stage with
  | .live => t.contents.length + 2
  | .leaving => 1
  | .gone => 0

@[simp] theorem contents_forget (h : Handle) (t : Twin) : (t.forget h).contents = t.contents := by
  cases h <;> rfl

@[simp] theorem stage_forget (h : Handle) (t : Twin) : (t.forget h).stage = t.stage := by
  cases h <;> rfl

@[simp] theorem weight_forget (h : Handle) (t : Twin) : (t.forget h).weight = t.weight := by
  cases h <;> rfl

end Twin

/-- What is still to be done: let go of a handle, or of the class of a twin whose
contents were let go. -/
inductive Due where
  | handle (h : Handle)
  | kind (t : TwinId)
deriving DecidableEq, Repr, Inhabited

namespace World

/-- Take one more handle to a twin. -/
def retain (h : Handle) (w : World) : World :=
  w.modifyTwin h.twin (Twin.retain h)

def retainAll (hs : List Handle) (w : World) : World :=
  hs.foldl (fun w h => w.retain h) w

/-- Release a twin: the destruction of its constructed segments is recorded, and
the handles it contained come back as still to be let go, and after them its
class. -/
def release (w : World) (i : TwinId) (t : Twin) : World × List Due :=
  ((w.setTwin i t.emptied).record (.released i :: t.razedSegments.map Event.ofRazed),
    t.contents.map Due.handle ++ [.kind i])

/-- Let go of one handle.  If it was the last one the twin is released. -/
def letGo (w : World) (h : Handle) : World × List Due :=
  match w.twins[h.twin]? with
  | none => (w.record [.overdrawn h], [])
  | some t =>
      let w := if t.tally h = 0 then w.record [.overdrawn h] else w
      let t := t.forget h
      if t.isDue then w.release h.twin t else (w.setTwin h.twin t, [])

/-- End a dynamic class that cannot be reached any more.  The handles in its
attributes come back. -/
def endClass (id : ClassId) (w : World) : World × List Handle :=
  match w.classes[id]? with
  | none => (w, [])
  | some s =>
      if w.reachesClass id then (w, [])
      else ({ w with classes := w.classes.setIfInBounds id { s with attrs := {} } }, s.handles)

/-- End a native class that cannot be reached any more.  The handles in its
defaults come back. -/
def endNative (id : NativeId) (w : World) : World × List Handle :=
  match w.declared[id.serial]? with
  | none => (w, [])
  | some s =>
      if w.reachesNative id then (w, [])
      else ({ w with declared := w.declared.setIfInBounds id.serial { s with kept := [] } }, s.kept)

/-- End things one after another.  All that comes back is collected in order. -/
def endEach {α : Type} (f : α → World → World × List Handle) : List α → World → World × List Handle
  | [], w => (w, [])
  | a :: as, w => ((endEach f as (f a w).1).1, (f a w).2 ++ (endEach f as (f a w).1).2)

/-- A class lost one of the references to it.  Those parts of it that nothing
else refers to come to their end, parents before their children. -/
def forsake (k : Kind) (w : World) : World × List Handle :=
  match k with
  | .native c => endEach endNative (c.flatten.map NativeClass.id) w
  | .dynamic c => endEach endClass (c.chain.reverse.map ClassDef.id) w

/-- Let go of the class of a twin whose contents were let go. -/
def letKindGo (w : World) (t : TwinId) : World × List Handle :=
  match w.twins[t]? with
  | none => (w, [])
  | some twin =>
      if twin.stage = .leaving then forsake twin.kind (w.setTwin t { twin with stage := .gone })
      else (w, [])

/-- One thing that is still to be done, with what it sets free. -/
def settleOne (w : World) : Due → World × List Due
  | .handle h => w.letGo h
  | .kind t => ((w.letKindGo t).1, (w.letKindGo t).2.map Due.handle)

/-- What the entries of a list come to together. -/
def total {α : Type} (f : α → Nat) : List α → Nat
  | [] => 0
  | a :: as => f a + total f as

/-- What the end of all twins and classes can still cost. -/
def weight (w : World) : Nat :=
  total Twin.weight w.twins.toList
    + total (·.handles.length) w.classes.toList
    + total (·.kept.length) w.declared.toList

theorem total_set_add {α : Type} (f : α → Nat) (l : List α) (i : Nat) (hi : i < l.length) (a : α) :
    total f (l.set i a) + f l[i] = total f l + f a := by
  induction l generalizing i with
  | nil => simp at hi
  | cons b l ih =>
      cases i with
      | zero => simp only [List.set_cons_zero, List.getElem_cons_zero, total]; omega
      | succ i =>
          simp only [List.length_cons, Nat.add_lt_add_iff_right] at hi
          have := ih i hi
          simp only [List.set_cons_succ, List.getElem_cons_succ, total]
          omega

theorem total_setIfInBounds_add {α : Type} (f : α → Nat) {xs : Array α} {i : Nat} {old : α}
    (h : xs[i]? = some old) (a : α) :
    total f (xs.setIfInBounds i a).toList + f old = total f xs.toList + f a := by
  obtain ⟨hi, rfl⟩ := Array.getElem?_eq_some_iff.mp h
  rw [Array.toList_setIfInBounds]
  exact total_set_add f xs.toList i hi a

theorem weight_setTwin {w : World} {i : TwinId} {t : Twin} (ht : w.twins[i]? = some t) (t' : Twin) :
    (w.setTwin i t').weight + t.weight = w.weight + t'.weight := by
  have h := total_setIfInBounds_add Twin.weight ht t'
  simp only [weight, setTwin, Array.set!_eq_setIfInBounds]
  omega

theorem weight_endClass (id : ClassId) (w : World) :
    (endClass id w).1.weight + (endClass id w).2.length ≤ w.weight := by
  unfold endClass
  split
  · simp
  · rename_i s hs
    split
    · simp
    · have h := total_setIfInBounds_add (·.handles.length) hs { s with attrs := {} }
      simp only [weight, ClassState.handles, Attributes.handles_empty, List.length_nil] at h ⊢
      omega

theorem weight_endNative (id : NativeId) (w : World) :
    (endNative id w).1.weight + (endNative id w).2.length ≤ w.weight := by
  unfold endNative
  split
  · simp
  · rename_i s hs
    split
    · simp
    · have h := total_setIfInBounds_add (·.kept.length) hs { s with kept := [] }
      simp only [weight, List.length_nil] at h ⊢
      omega

theorem weight_endEach {α : Type} {f : α → World → World × List Handle}
    (hf : ∀ a w, (f a w).1.weight + (f a w).2.length ≤ w.weight) (as : List α) (w : World) :
    (endEach f as w).1.weight + (endEach f as w).2.length ≤ w.weight := by
  induction as generalizing w with
  | nil => simp [endEach]
  | cons a as ih =>
      have h₁ := hf a w
      have h₂ := ih (f a w).1
      simp only [endEach, List.length_append]
      omega

/-- What comes back from the end of classes is paid for by them. -/
theorem weight_forsake (k : Kind) (w : World) :
    (forsake k w).1.weight + (forsake k w).2.length ≤ w.weight := by
  unfold forsake
  split
  · exact weight_endEach weight_endNative _ w
  · exact weight_endEach weight_endClass _ w

@[simp] theorem weight_record (w : World) (events : List Event) :
    (w.record events).weight = w.weight := rfl

/-- What a release sets free is paid for by the twin. -/
theorem weight_release {w : World} {i : TwinId} {old t : Twin} (hold : w.twins[i]? = some old)
    (hweight : old.weight = t.contents.length + 2) :
    (w.release i t).1.weight + (w.release i t).2.length ≤ w.weight := by
  have hset := weight_setTwin hold t.emptied
  have hempty : t.emptied.weight = 1 := rfl
  simp only [release, weight_record, List.length_append, List.length_map, List.length_cons,
    List.length_nil]
  omega

/-- Letting go of a handle costs one step, and what it sets free is paid for by
the twin that is released. -/
theorem weight_letGo (w : World) (h : Handle) :
    (w.letGo h).1.weight + (w.letGo h).2.length ≤ w.weight := by
  unfold letGo
  split
  · simp
  · rename_i t ht
    have hbase :
        (if t.tally h = 0 then w.record [.overdrawn h] else w).twins[h.twin]? = some t := by
      split <;> exact ht
    have hsame : (if t.tally h = 0 then w.record [.overdrawn h] else w).weight = w.weight := by
      split <;> rfl
    dsimp only
    split
    · rename_i hdue
      have hlive : t.stage = .live := by
        simp only [Twin.isDue, Twin.stage_forget, Bool.and_eq_true, decide_eq_true_eq] at hdue
        exact hdue.2
      have hweight : t.weight = (t.forget h).contents.length + 2 := by
        simp [Twin.weight, hlive]
      rw [← hsame]
      exact weight_release hbase hweight
    · have hset := weight_setTwin hbase (t.forget h)
      simp only [Twin.weight_forget, List.length_nil] at hset ⊢
      omega

theorem weight_letKindGo (w : World) (t : TwinId) :
    (w.letKindGo t).1.weight + (w.letKindGo t).2.length ≤ w.weight := by
  unfold letKindGo
  split
  · simp
  · rename_i twin ht
    split
    · have hs := weight_setTwin ht { twin with stage := .gone }
      have hf := weight_forsake twin.kind (w.setTwin t { twin with stage := .gone })
      have hg : ({ twin with stage := .gone } : Twin).weight = 0 := rfl
      omega
    · simp

theorem weight_settleOne (w : World) (d : Due) :
    (w.settleOne d).1.weight + (w.settleOne d).2.length ≤ w.weight := by
  cases d with
  | handle h => exact weight_letGo w h
  | kind t => simpa [settleOne] using weight_letKindGo w t

/-- Do all that is still to be done in order, and after each thing all that it
sets free. -/
def settle (w : World) : List Due → World
  | [] => w
  | d :: ds => settle (w.settleOne d).1 ((w.settleOne d).2 ++ ds)
termination_by ds => w.weight + ds.length
decreasing_by
  have := weight_settleOne w d
  simp only [List.length_append, List.length_cons]
  omega

/-- Let go of handles in order, and after each of them of all that its release
sets free. -/
def drop (w : World) (hs : List Handle) : World :=
  w.settle (hs.map Due.handle)

/-- Give up a reference to a class, with all that this sets free. -/
def dropKind (k : Kind) (w : World) : World :=
  (forsake k w).1.drop (forsake k w).2

/-- Refer to a class for the time of an operation. -/
def lend (k : Kind) (w : World) : World :=
  { w with lent := k :: w.lent }

/-- Give up the reference of an operation to a class. -/
def takeBack (k : Kind) (w : World) : World :=
  dropKind k { w with lent := w.lent.eraseP k.same }

/-- Add a twin whose constructed segments are new. -/
def admitTwin (w : World) (t : Twin) : World × TwinId :=
  ({ w with twins := w.twins.push t }.record (t.builtSegments.map Event.ofBuilt), w.twins.size)

/-- A new twin with default storage and one dynamic handle. -/
def create (w : World) (interp : InterpId) (kind : Kind) (owner : Ownership) : World × TwinId :=
  let twin := Twin.fresh interp kind owner
  (w.retainAll twin.contents).admitTwin twin

/-- Write a member and let go of its old value.  Where there is no member the
value is lost. -/
def storeValue (w : World) (t : TwinId) (p : Place) (v : NativeValue) : World :=
  match (w.twin? t).bind (·.valueAt? p) with
  | none => (w.record [.astray t p]).drop v.handles
  | some old => (w.modifyTwin t (·.setValue p v)).drop old.handles

/-- Bind an attribute and let go of its old value. -/
def storeAttr (w : World) (t : TwinId) (name : String) (v : DynValue) : World :=
  let old := (w.twin? t).bind (·.attrs.get? name)
  (w.modifyTwin t (fun twin => { twin with attrs := twin.attrs.put name v })).drop
    (old.elim [] DynValue.handles)

end World

end TwinObject
