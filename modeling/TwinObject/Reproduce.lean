/-
New twins from old ones.  A copy duplicates both halves, a move takes them out
of the source; plain native instances obey the copy policies of all their
segments, instances of dynamic classes are always free to go.  Neither waits for
storage that another thread fills, as a second construction does.
-/
import TwinObject.Run

namespace TwinObject

namespace Twin

/-- The first segment whose policy does not allow an operation. -/
def refusal? (t : Twin) (allows : CopyPolicy → Bool) : Option NativeClass :=
  t.layout.segments.find? (fun c => !allows c.copyPolicy)

def allows (t : Twin) (check : CopyPolicy → Bool) : Bool :=
  t.layout.segments.all (fun c => check c.copyPolicy)

/-- Why an instance cannot be duplicated in this way, if it cannot. -/
def obstacle? (t : Twin) (operation : Duplication) : Option Failure :=
  match t.kind with
  | .dynamic _ => none
  | .native _ =>
      let check : CopyPolicy → Bool :=
        match operation with
        | .copy => CopyPolicy.canCopy false
        | .move => CopyPolicy.canMove false
      (t.refusal? check).map fun c => .copyUnavailable c.name operation

/-- A new twin of the same class with the given halves and as much constructed
as in the source; it is owned natively and held by one dynamic handle. -/
def reborn (src : Twin) (storage : List (List NativeValue)) (attrs : Attributes) : Twin :=
  { src with
    storage, attrs, owner := .native, moved := false, filling := false
    nativeCount := 0, dynamicCount := 1, stage := .live }

/-- A twin whose halves were moved out. -/
def movedOut (t : Twin) : Twin :=
  { t with storage := t.layout.defaultStorage, attrs := {}, moved := true }

end Twin

namespace World

/-- Copy an instance.  The new one is held by one dynamic handle.  Storage that is being
filled is not waited for: as much of it is copied as is filled by then. -/
def copyTwin (t : TwinId) : Act (Except Failure TwinId) := fun w =>
  let src := w.twin t
  match src.obstacle? .copy with
  | some f => (.error f, w)
  | none =>
      let (w, copy) := (w.retainAll src.contents).admitTwin (src.reborn src.storage src.attrs)
      (.ok copy, w)

/-- Move the halves of an instance into a new one.  The source keeps default
storage and no attributes.  Storage that is being filled is not waited for: what is
filled by then moves, and the rest goes into the defaults. -/
def moveTwin (t : TwinId) : Act (Except Failure TwinId) := fun w =>
  let src := w.twin t
  match src.obstacle? .move with
  | some f => (.error f, w)
  | none =>
      let (w, moved) := ((w.retainAll src.movedOut.contents).modifyTwin t Twin.movedOut).admitTwin
        (src.reborn src.storage src.attrs)
      (.ok moved, w)

/-- A fresh instance for a result by value: a copy if the class can be copied,
else a move if it can be moved. -/
def materializeTwin (t : TwinId) : Act (Except Failure TwinId) := fun w =>
  let src := w.twin t
  if src.kind.fromDerived || src.allows (CopyPolicy.canCopy false) then copyTwin t w
  else if src.allows (CopyPolicy.canMove false) then moveTwin t w
  else copyTwin t w

/-- Make a new instance in the given way. -/
def reproduce (way : Reproduction) (t : TwinId) : Act (Except Failure TwinId) :=
  match way with
  | .copy => copyTwin t
  | .move => moveTwin t
  | .materialize => materializeTwin t

def setOwner (t : TwinId) (flag : Ownership) (w : World) : World :=
  w.modifyTwin t (fun twin => { twin with owner := flag })

end World

/-- Turn a fresh dynamic handle into a native one. -/
def World.asNative (w : World) (t : TwinId) : World :=
  (w.retain (.native t)).drop [.dynamic t]

end TwinObject
