/-
The world as a transition system.  A state is a world together with what running
code holds; every step either changes the world by itself or moves something
between the world and the hold.  Whatever programs, threads and sessions do is a
sequence of these steps.
-/
import TwinObject.Proofs.Hold
import TwinObject.Session.Perform

namespace TwinObject

/-- Whether every pure slot of a class has an override that fits it. -/
def Kind.Concrete : Kind → Prop
  | .native c => c.vtable.firstPure? = none
  | .dynamic c => c.missingOverride? = none

/-- Whether the storage and the flags of a twin have the shape of its layout. -/
structure Twin.Shaped (t : Twin) : Prop where
  storage : t.storage.map List.length = t.layout.segments.map (·.members.length)
  constructed : t.constructed.length = t.layout.baseCount

/-- Whether no attribute of a twin has the name of a member that dynamic code sees. -/
def Twin.Tidy (t : Twin) : Prop :=
  ∀ (name : String) (p : Place),
    t.layout.findVisibleMember? name t.kind.fromDerived = some p → t.attrs.get? name = none

/-- The handles among things that are still to be done. -/
def Due.handles (ds : List Due) : List Handle :=
  ds.filterMap fun
    | .handle h => some h
    | .kind _ => none

@[simp] theorem Due.handles_append (ds ds' : List Due) :
    Due.handles (ds ++ ds') = Due.handles ds ++ Due.handles ds' :=
  List.filterMap_append

@[simp] theorem Due.handles_map_handle (hs : List Handle) :
    Due.handles (hs.map Due.handle) = hs := by
  simp [Due.handles, List.filterMap_map]

@[simp] theorem Due.handles_kind (t : TwinId) : Due.handles [.kind t] = [] := rfl

namespace World

/-- Whether a handle to a twin exists, in the world or in running code. -/
def Held (w : World) (R : Hold) (t : TwinId) : Prop :=
  ∃ h ∈ w.rootBag + R.handles, h.twin = t

/-- Whether a native class and its ancestors are declared and have their
defaults. -/
def Keeps (w : World) (c : NativeClass) : Prop :=
  ∀ s ∈ c.flatten, w.declared[s.id.serial]? = some ⟨s, s.ownHandles⟩

/-- Whether a dynamic class is declared. -/
def Knows (w : World) (c : DynamicClass) : Prop :=
  ∃ s, w.classes[c.id]? = some s ∧ s.cls = c

def KeepsKind (w : World) : Kind → Prop
  | .native c => w.Keeps c
  | .dynamic c => w.Knows c

/-- Whether a value is one of a type: conversion to the type leaves it as it is, or it
is the null of a member that no instance was stored in. -/
def Fits (w : World) (type : NativeType) (v : NativeValue) : Prop :=
  v.coerce w.census type = some v ∨ v = .null ∧ type.isObject

/-- Whether every value in a twin is of the type that its member is declared with. -/
def Conforms (w : World) (a : Twin) : Prop :=
  ∀ (p : Place) (v : NativeValue) (d : MemberDecl), a.valueAt? p = some v →
    a.layout.memberDecl? p = some d → w.Fits d.type v

/-- What a vector can come to hold: one more instance of its class, which is newer than all that
vectors hold, or all but one of what it held, or nothing. -/
inductive Edits (w : World) (v : InstanceVec) : List TwinId → Prop
  | append {n : TwinId} (hisA : w.isA n v.element)
      (hnew : ∀ (j : Nat) (u : InstanceVec), w.vecs[j]? = some u → ∀ t ∈ u.items, t < n) :
      w.Edits v (v.items ++ [n])
  | erase (index : Nat) : w.Edits v (v.items.eraseIdx index)
  | clear : w.Edits v []

/-- What the value of a variable holds. -/
def bindingHold (w : World) : Binding → Hold
  | .dyn v => .ofHandles v.handles
  | .native v => .ofHandles v.handles
  | .vec i => {.vec i}
  | .shared i => {.shared i (w.group i).target}
  | .signal _ => 0
  | .thread _ => 0

/-- What a variable holds that may not be bound. -/
def varHold (w : World) (x : String) : Hold :=
  (w.var? x).elim 0 w.bindingHold

def setClass (w : World) (id : ClassId) (s : ClassState) : World :=
  { w with classes := w.classes.setIfInBounds id s }

def setVars (w : World) (vars : Bindings Binding) : World :=
  { w with scope := { w.scope with vars } }

section Twins

variable {w : World} {t : TwinId} {twin : Twin}

theorem twin_eq (htwin : w.twins[t]? = some twin) : w.twin t = twin := by
  simp [World.twin, twin?, htwin]

theorem getElem?_setTwin (htwin : w.twins[t]? = some twin) (a : Twin) (i : TwinId) :
    (w.setTwin t a).twins[i]? = if t = i then some a else w.twins[i]? := by
  obtain ⟨hlt, -⟩ := Array.getElem?_eq_some_iff.mp htwin
  rw [setTwin, Array.set!_eq_setIfInBounds, Array.getElem?_setIfInBounds]
  by_cases hti : t = i
  · simp [hti, hti ▸ hlt]
  · simp [hti]

/-- A twin after a write is the one that was written, or stood there before. -/
theorem of_getElem?_setTwin (htwin : w.twins[t]? = some twin) {a b : Twin} {i : TwinId}
    (hb : (w.setTwin t a).twins[i]? = some b) :
    (t = i ∧ a = b) ∨ (t ≠ i ∧ w.twins[i]? = some b) := by
  rw [getElem?_setTwin htwin] at hb
  by_cases hti : t = i
  · rw [if_pos hti] at hb
    exact Or.inl ⟨hti, Option.some.inj hb⟩
  · rw [if_neg hti] at hb
    exact Or.inr ⟨hti, hb⟩

theorem none_of_setTwin (htwin : w.twins[t]? = some twin) {a : Twin} {i : TwinId}
    (hnone : (w.setTwin t a).twins[i]? = none) : w.twins[i]? = none := by
  rw [getElem?_setTwin htwin] at hnone
  by_cases hti : t = i
  · rw [if_pos hti] at hnone
    cases hnone
  · rw [if_neg hti] at hnone
    exact hnone

theorem modifyTwin_eq (htwin : w.twins[t]? = some twin) (f : Twin → Twin) :
    w.modifyTwin t f = w.setTwin t (f twin) := by
  rw [modifyTwin, setTwin, Array.set!_eq_setIfInBounds, modify_eq_setIfInBounds htwin]

theorem modifyTwin_of_none (hnone : w.twins[t]? = none) (f : Twin → Twin) :
    w.modifyTwin t f = w := by
  rw [modifyTwin, modify_of_none hnone]

/-- A twin after an admission is the new one, or was there before. -/
theorem of_getElem?_admitTwin {a b : Twin} {i : TwinId}
    (hb : (w.admitTwin a).1.twins[i]? = some b) :
    (w.twins.size = i ∧ a = b) ∨ (w.twins.size ≠ i ∧ w.twins[i]? = some b) := by
  have hpush : (w.twins.push a)[i]? = some b := hb
  rw [Array.getElem?_push] at hpush
  by_cases hi : i = w.twins.size
  · rw [if_pos hi] at hpush
    exact Or.inl ⟨hi.symm, Option.some.inj hpush⟩
  · rw [if_neg hi] at hpush
    exact Or.inr ⟨fun heq => hi heq.symm, hpush⟩

theorem none_of_admitTwin {a : Twin} {i : TwinId} (hnone : (w.admitTwin a).1.twins[i]? = none) :
    w.twins[i]? = none := by
  have hpush : (w.twins.push a)[i]? = none := hnone
  rw [Array.getElem?_push] at hpush
  by_cases hi : i = w.twins.size
  · rw [if_pos hi] at hpush
    cases hpush
  · rw [if_neg hi] at hpush
    exact hpush

end Twins

section Frames

variable (w : World)

/-- Letting go of a handle changes nothing but twins and the journal. -/
theorem letGo_frame (h : Handle) :
    ∃ twins journal, (w.letGo h).1 = { w with twins := twins, journal := journal } := by
  unfold letGo
  split
  · exact ⟨_, _, rfl⟩
  · dsimp only
    split <;> split <;> exact ⟨_, _, rfl⟩

theorem markBuilt_frame (t : TwinId) (index : Nat) (base : NativeClass) :
    ∃ twins journal, Construction.markBuilt t index base w
      = { w with twins := twins, journal := journal } := by
  unfold Construction.markBuilt
  dsimp only
  split <;> exact ⟨_, _, rfl⟩

theorem endClass_frame (id : ClassId) :
    ∃ classes, (endClass id w).1 = { w with classes := classes }
      ∧ classes.size = w.classes.size := by
  unfold endClass
  split
  · exact ⟨_, rfl, rfl⟩
  · split
    · exact ⟨_, rfl, rfl⟩
    · exact ⟨_, rfl, Array.size_setIfInBounds⟩

theorem endNative_frame (id : NativeId) :
    ∃ declared, (endNative id w).1 = { w with declared := declared } := by
  unfold endNative
  split
  · exact ⟨_, rfl⟩
  · split <;> exact ⟨_, rfl⟩

end Frames

/-- Whether the running thread was started, and all interpreters that can be named exist,
and the main one does. -/
structure Seated (w : World) : Prop where
  main : 0 < w.interps.size
  named : ∀ (label : String) (i : InterpId), w.interpNamed? label = some i → i < w.interps.size
  known : w.currentThread < w.nextThread

/-- Whether two worlds differ at most in interpreters, locks, gates, signals,
functions, numbers shown and the running thread. -/
structure Alike (w w' : World) : Prop where
  twins : w'.twins = w.twins
  declared : w'.declared = w.declared
  classes : w'.classes = w.classes
  registry : w'.registry = w.registry
  vecs : w'.vecs = w.vecs
  groups : w'.groups = w.groups
  threads : w'.threads = w.threads
  natives : w'.scope.natives = w.scope.natives
  labels : w'.scope.classes = w.scope.classes
  vars : w'.scope.vars = w.scope.vars
  journal : w'.journal = w.journal
  lent : w'.lent = w.lent
  interps : w.interps.size ≤ w'.interps.size
  started : w.nextThread ≤ w'.nextThread
  seated : w.Seated → w'.Seated

/-- Whether the same thread runs in two worlds, and all locks are as they were. -/
structure Calm (w w' : World) : Prop where
  locks : ∀ i, w'.lock i = w.lock i
  running : w'.currentThread = w.currentThread
  started : w'.nextThread = w.nextThread

/-- Whether an instance is in an interpreter that exists, and if its class is a
dynamic one in that of its class. -/
structure Houses (w : World) (interp : InterpId) (kind : Kind) : Prop where
  exists_interp : interp < w.interps.size
  of_class : ∀ c, kind = .dynamic c → c.interp = interp

/-- A variable holds handles, a vector or a pointer, and nothing else. -/
theorem filterMap_bindingHold {β : Type} {f : Token → Option β} (w : World) (b : Binding)
    (hhandle : ∀ h, f (.handle h) = none) (hvec : ∀ i, f (.vec i) = none)
    (hshared : ∀ i t, f (.shared i t) = none) : Multiset.filterMap f (w.bindingHold b) = 0 := by
  cases b <;> simp [bindingHold, hhandle, hvec, hshared]

theorem filterMap_varHold {β : Type} {f : Token → Option β} (w : World) (x : String)
    (hhandle : ∀ h, f (.handle h) = none) (hvec : ∀ i, f (.vec i) = none)
    (hshared : ∀ i t, f (.shared i t) = none) : Multiset.filterMap f (w.varHold x) = 0 := by
  rw [varHold]
  cases w.var? x with
  | none => rfl
  | some b => exact filterMap_bindingHold w b hhandle hvec hshared

end World

open World Hold in
/-- One step of a world and of what running code holds. -/
inductive Transition : World → Hold → World → Hold → Prop
  | quiet {w w' : World} {R : Hold} (halike : w.Alike w') (hcalm : w.Calm w') : Transition w R w' R
  | note {w : World} {R : Hold} (text : String) : Transition w R (w.record [.note text]) R
  | panic {w : World} {R : Hold} : Transition w R (w.record [.panicked]) R
  | throw {w : World} {R : Hold} (t : Thrown) : Transition w R (w.record [.threw t]) R
  | recover {w : World} {R : Hold} : Transition w R (w.record [.caught]) R
  /-- A body is entered by a thread that holds the lock, or goes on with another one. -/
  | enter {w : World} {R : Hold} {entry : Entry} {t : TwinId}
      (hheld : entry ≠ .chained → 0 < w.depthIn (w.twin t).interp) :
      Transition w R (w.enter entry t) R
  | passGate {w : World} {R : Hold} {i : InterpId} (hleft : w.depthIn i = 0) :
      Transition w R (w.passGate i) R
  | retain {w : World} {R : Hold} {h : Handle} (hheld : w.Held R h.twin) :
      Transition w R (w.retain h) (R + {.handle h})
  | letGo {w : World} {R : Hold} (h : Handle) :
      Transition w (R + {.handle h}) (w.letGo h).1 (R + ofHandles (Due.handles (w.letGo h).2))
  | depart {w : World} {R : Hold} {t : TwinId} {twin : Twin} (htwin : w.twins[t]? = some twin)
      (hstage : twin.stage = .leaving) : Transition w R (w.setTwin t { twin with stage := .gone }) R
  | endClass {w : World} {R : Hold} (id : ClassId) :
      Transition w R (endClass id w).1 (R + ofHandles (endClass id w).2)
  | endNative {w : World} {R : Hold} (id : NativeId) :
      Transition w R (endNative id w).1 (R + ofHandles (endNative id w).2)
  /-- A new twin takes its contents over, and comes with one dynamic handle. -/
  | create {w : World} {R : Hold} {twin : Twin} (hnative : twin.nativeCount = 0)
      (hdynamic : twin.dynamicCount = 1) (hstage : twin.stage = .live)
      (hfilling : twin.filling = false) (hshaped : twin.Shaped) (hkeeps : w.KeepsKind twin.kind)
      (hconcrete : twin.kind.Concrete) (hconforms : w.Conforms twin)
      (hhouses : w.Houses twin.interp twin.kind) (htidy : twin.Tidy) :
      Transition w (R + ofHandles twin.contents) (w.admitTwin twin).1
        (R + {.handle (.dynamic w.twins.size)})
  /-- The values in a twin change: what comes in was held, what goes out is held. -/
  | store {w : World} {R : Hold} {t : TwinId} {twin : Twin} (htwin : w.twins[t]? = some twin)
      (hstage : twin.stage = .live) (storage : List (List NativeValue)) (attrs : Attributes)
      (owner : Ownership) (moved : Bool)
      (hshape : storage.map List.length = twin.storage.map List.length) (taken given : List Handle)
      (hbag : ({ twin with storage, attrs, owner, moved } : Twin).contents ++ given
        |>.Perm (twin.contents ++ taken)) (hconforms : w.Conforms { twin with storage })
      (htidy : ({ twin with attrs } : Twin).Tidy) :
      Transition w (R + ofHandles taken) (w.setTwin t { twin with storage, attrs, owner, moved })
        (R + ofHandles given)
  | fill {w : World} {R : Hold} {t : TwinId} {twin : Twin} (htwin : w.twins[t]? = some twin)
      (hfree : twin.filling = false) :
      Transition w R (w.setFilling t true) (R + {.storage t twin.constructed})
  | unfill {w : World} {R : Hold} (t : TwinId) (constructed : List Bool) :
      Transition w (R + {.storage t constructed}) (w.setFilling t false) R
  | build {w : World} {R : Hold} (c : NativeClass) :
      Transition w R (w.record [.ofBuilt c]) (R + {.segment c.id})
  | raze {w : World} {R : Hold} (c : NativeClass) :
      Transition w (R + {.segment c.id}) (w.record [.ofRazed c]) R
  /-- The segments of a base belong to the twin from now on. -/
  | mark {w : World} {R : Hold} {t : TwinId} {twin : Twin} {index : Nat} {b : BaseRange}
      (htwin : w.twins[t]? = some twin) (hstage : twin.stage = .live)
      (hfree : twin.filling = false) (hbase : twin.layout.baseRange? index = some b)
      (hagain : twin.constructed[index]? = some true → 0 < w.threads.size) :
      Transition w (R + ofSegments (b.base.flatten.map NativeClass.id))
        (Construction.markBuilt t index b.base w) R
  | storeClass {w : World} {R : Hold} {id : ClassId} {s : ClassState} (hs : w.classes[id]? = some s)
      (attrs : Attributes) (taken given : List Handle)
      (hbag : (attrs.handles ++ given).Perm (s.attrs.handles ++ taken)) :
      Transition w (R + ofHandles taken) (w.setClass id { s with attrs }) (R + ofHandles given)
  /-- The override of a slot is looked up and remembered. -/
  | learn {w : World} {R : Hold} {id : ClassId} {s : ClassState} {index : Nat} {slot : Slot}
      (hs : w.classes[id]? = some s) (hslot : s.cls.vtable.get? index = some slot)
      (hunknown : s.overrides[index]? = some none) :
      Transition w R
        (w.setClass id { s with overrides := s.overrides.set index (some (s.cls.override? slot)) })
          R
  | newVec {w : World} {R : Hold} (element : String) :
      Transition w R { w with vecs := w.vecs.push ⟨element, [], 1⟩ } (R + {.vec w.vecs.size})
  | holdVec {w : World} {R : Hold} {i : Nat} (hi : i < w.vecs.size) :
      Transition w R (holdVec i w) (R + {.vec i})
  | leaveVec {w : World} {R : Hold} (i : Nat) :
      Transition w (R + {.vec i})
        { w with vecs := w.vecs.modify i fun v => { v with holders := v.holders - 1 } } R
  | storeVec {w : World} {R : Hold} {i : Nat} {v : InstanceVec} (hv : w.vecs[i]? = some v)
      (items : List TwinId) (taken given : List Handle)
      (hbag : (items.map Handle.native ++ given).Perm (v.handles ++ taken))
      (hedits : w.Edits v items) :
      Transition w (R + ofHandles taken) (w.setItems i items) (R + ofHandles given)
  | newGroup {w : World} {R : Hold} (t : TwinId) :
      Transition w (R + {.handle (.native t)}) { w with groups := w.groups.push ⟨t, 1⟩ }
        (R + {.shared w.groups.size t})
  | cloneShared {w : World} {R : Hold} {i : Nat} {g : SharedGroup} (hg : w.groups[i]? = some g)
      (hcount : g.count ≠ 0) : Transition w R (cloneShared i w) (R + {.shared i g.target})
  | leaveGroup {w : World} {R : Hold} {i : Nat} {g : SharedGroup} (hg : w.groups[i]? = some g) :
      Transition w (R + {.shared i g.target})
        { w with groups := w.groups.setIfInBounds i { g with count := g.count - 1 } }
        (R + if g.count = 1 then {.handle (.native g.target)} else 0)
  | bind {w : World} {R : Hold} (x : String) (b : Binding) :
      Transition w (R + w.bindingHold b) (w.setVars (w.scope.vars.put x b)) (R + w.varHold x)
  | unbind {w : World} {R : Hold} (x : String) :
      Transition w R (w.setVars (w.scope.vars.erase x)) (R + w.varHold x)
  | spawn {w : World} {R : Hold} {i : InterpId} (hinterp : i < w.interps.size) (code : DynExpr) :
      Transition w R { w with threads := w.threads.push ⟨i, code, .waiting⟩ } R
  | endThread {w : World} {R : Hold} {index : Nat} {th : DynThread}
      (hth : w.threads[index]? = some th) (hstate : th.state = .waiting)
      (result : Except Thrown DynValue) :
      Transition w (R + ofHandles (ThreadState.done result).handles)
        { w with threads := w.threads.setIfInBounds index { th with state := .done result } } R
  | takeResult {w : World} {R : Hold} {index : Nat} {th : DynThread}
      (hth : w.threads[index]? = some th) :
      Transition w R { w with threads := w.threads.setIfInBounds index { th with state := .taken } }
        (R + ofHandles th.state.handles)
  | declare {w : World} {R : Hold} {c : NativeClass} (hid : c.id = ⟨w.declared.size⟩)
      (hparents : ∀ p ∈ c.parents, w.Keeps p)
      (hdistinct : (c.flatten.map NativeClass.id).Nodup)
      (hdefaults : ∀ d ∈ c.members, w.Fits d.type d.default) :
      Transition w (R + ofHandles c.ownHandles)
        { w with declared := w.declared.push ⟨c, c.ownHandles⟩ } R
  | nameNative {w : World} {R : Hold} (label : String) {c : NativeClass} (hkeeps : w.Keeps c) :
      Transition w R
        { w with scope := { w.scope with natives := w.scope.natives.put label c } } R
  | register {w : World} {R : Hold} {c : DynamicClass} (hid : c.id = w.classes.size)
      (hbases : ∀ b ∈ c.composition.bases, w.Keeps b) (hinterp : c.interp < w.interps.size)
      (attrs : Attributes) :
      Transition w (R + ofHandles attrs.handles) (admitClass c attrs w) R
  | nameClass {w : World} {R : Hold} (label : String) {c : DynamicClass} (hknows : w.Knows c) :
      Transition w R
        { w with scope := { w.scope with classes := w.scope.classes.put label c } } R
  | lend {w : World} {R : Hold} {k : Kind} (hkeeps : w.KeepsKind k) :
      Transition w R (lend k w) (R + {.kind k})
  | giveBack {w : World} {R : Hold} (k : Kind) :
      Transition w (R + {.kind k}) { w with lent := w.lent.eraseP k.same } R

/-- The states that a session can come to.  Locks change hands, and threads take
turns, in between. -/
inductive Reachable : World → Hold → Prop
  | initial : Reachable .initial 0
  | step {w w' : World} {R R' : Hold} (hreach : Reachable w R) (hstep : Transition w R w' R') :
      Reachable w' R'
  | turn {w w' : World} {R : Hold} (hreach : Reachable w R) (halike : w.Alike w') : Reachable w' R

end TwinObject
