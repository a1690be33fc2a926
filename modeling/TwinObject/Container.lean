/-
Native containers.  A vector holds instances of one class by value: what is
put in is copied or moved.  Shared pointers own one instance together; it stays
alive as long as one of them exists.
-/
import TwinObject.Crossing

namespace TwinObject

namespace World

def vec (w : World) (i : Nat) : InstanceVec :=
  w.vecs[i]?.getD ⟨"", [], 0⟩

def setItems (w : World) (i : Nat) (items : List TwinId) : World :=
  { w with vecs := w.vecs.modify i fun v => { v with items } }

/-- Append a new instance made from `t` by copying or moving. -/
def vecAppend (way : Reproduction) (i : Nat) (t : TwinId) : Act (Except Failure Unit) := fun w =>
  let v := w.vec i
  if !w.isA t v.element then
    (.error (.typeMismatch ("element of vector<" ++ v.element ++ ">") v.element (w.className t)), w)
  else
    match reproduce way t w with
    | (.error f, w) => (.error f, w)
    | (.ok new, w) =>
        let w := w.asNative new
        (.ok (), w.setItems i ((w.vec i).items ++ [new]))

/-- A dynamic handle to an element. -/
def vecGet (i index : Nat) : Act (Option TwinId) := fun w =>
  match (w.vec i).items[index]? with
  | none => (none, w)
  | some t => (some t, w.retain (.dynamic t))

/-- A native handle to an element. -/
def vecNative (i index : Nat) : Act (Option TwinId) := fun w =>
  match (w.vec i).items[index]? with
  | none => (none, w)
  | some t => (some t, w.retain (.native t))

/-- Take an element out; its handle becomes a dynamic one. -/
def vecRemove (i index : Nat) : Act (Option TwinId) := fun w =>
  match (w.vec i).items[index]? with
  | none => (none, w)
  | some t =>
      (some t,
        ((w.setItems i ((w.vec i).items.eraseIdx index)).retain (.dynamic t)).drop [.native t])

/-- Destroy every element. -/
def vecClear (i : Nat) (w : World) : World :=
  (w.setItems i []).drop (w.vec i).handles

/-- One more holder of a vector. -/
def holdVec (i : Nat) (w : World) : World :=
  { w with vecs := w.vecs.modify i fun v => { v with holders := v.holders + 1 } }

/-- One holder less; without any the elements are destroyed. -/
def leaveVec (i : Nat) (w : World) : World :=
  let v := w.vec i
  let w := { w with vecs := w.vecs.modify i fun v => { v with holders := v.holders - 1 } }
  if v.holders = 1 then vecClear i w else w

def group (w : World) (i : Nat) : SharedGroup :=
  w.groups[i]?.getD ⟨0, 0⟩

/-- Put the instance of a dynamic handle into shared ownership; the handle is
given away.  Answers the index of the new group and its target. -/
def share (t : TwinId) : Act (Nat × TwinId) := fun w =>
  ((w.groups.size, t),
    ({ (setOwner t .shared w).retain (.native t) with groups := w.groups.push ⟨t, 1⟩ }).drop
      [.dynamic t])

/-- One more pointer of a group. -/
def cloneShared (i : Nat) (w : World) : World :=
  { w with groups := w.groups.modify i fun g => { g with count := g.count + 1 } }

/-- One pointer less; the last one lets go of the instance. -/
def dropShared (i : Nat) (w : World) : World :=
  let g := w.group i
  let w := { w with groups := w.groups.modify i fun g => { g with count := g.count - 1 } }
  if g.count = 1 then w.drop [.native g.target] else w

/-- Take the result of a thread, if it has one that was not taken yet. -/
def takeResult (i : Nat) : Act (Option (Except Thrown DynValue)) := fun w =>
  match w.threads[i]? with
  | some ⟨_, _, .done r⟩ =>
      (some r, { w with threads := w.threads.modify i fun t => { t with state := .taken } })
  | _ => (none, w)

/-- Let go of what a variable was bound to. -/
def dropBinding (b : Binding) (w : World) : World :=
  match b with
  | .dyn v => w.drop v.handles
  | .native v => w.drop v.handles
  | .vec i => leaveVec i w
  | .shared i => dropShared i w
  | .signal _ => w
  | .thread i =>
      match takeResult i w with
      | (some (.ok v), w) => w.drop v.handles
      | (_, w) => w

def var? (w : World) (x : String) : Option Binding :=
  w.scope.vars.get? x

/-- Bind a variable and let go of what it was bound to. -/
def setVar (x : String) (b : Binding) (w : World) : World :=
  let old := w.var? x
  let w := { w with scope := { w.scope with vars := w.scope.vars.put x b } }
  old.elim w (dropBinding · w)

/-- Unbind a variable; what it was bound to is given to the caller. -/
def takeVar (x : String) : Act (Option Binding) := fun w =>
  (w.var? x, { w with scope := { w.scope with vars := w.scope.vars.erase x } })

def vecVar? (w : World) (x : String) : Option Nat :=
  match w.var? x with
  | some (.vec i) => some i
  | _ => none

def sharedVar? (w : World) (x : String) : Option Nat :=
  match w.var? x with
  | some (.shared i) => some i
  | _ => none

def signalVar? (w : World) (x : String) : Option Nat :=
  match w.var? x with
  | some (.signal i) => some i
  | _ => none

def threadVar? (w : World) (x : String) : Option Nat :=
  match w.var? x with
  | some (.thread i) => some i
  | _ => none

end World

end TwinObject
