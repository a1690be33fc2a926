/-
Reports: labelled trees in which sessions answer.  Instances are shown by
numbers, given out in the order in which they are first shown.
-/
import TwinObject.Eval

namespace TwinObject

/-- What a session answers. -/
inductive Report where
  | null
  | bool (b : Bool)
  | int (i : Int)
  | float (d : Float)
  | text (s : String)
  | list (items : List Report)
  | fields (entries : List (String × Report))
  | failure (f : Failure)
deriving Inhabited

namespace Report

def nat (n : Nat) : Report :=
  int n

def texts (ss : List String) : Report :=
  list (ss.map text)

/-- A result that may be absent. -/
def optional : Option Report → Report
  | some r => fields [("some", r)]
  | none => text "none"

/-- A text that may be absent. -/
def nullable : Option String → Report
  | some s => text s
  | none => null

def void : Report :=
  fields [("void", bool true)]

def place (p : Place) : Report :=
  list [nat p.segment, nat p.index]

def ofSlot (s : Slot) : Report :=
  fields
    [("key", text s.key.text), ("ret", text s.ret.text), ("declared_in", text s.declaredIn),
      ("pure", bool s.isPure)]

def ofWarning (w : LifetimeWarning) : Report :=
  fields
    [("class", text w.className), ("base", text w.base), ("message", text w.message),
      ("display", text w.text)]

end Report

namespace World

/-- The number of an instance; a new one is given to an instance that was not
shown before. -/
def number (t : TwinId) : Act Nat := fun w =>
  match w.shownNumber? t with
  | some n => (n, w)
  | none => (w.shown.size + 1, { w with shown := w.shown.push t })

/-- Show an instance. -/
def showTwin (t : TwinId) : Act Report := do
  let n ← number t
  let w ← get
  return .fields [("obj", .nat n), ("class", .text (w.className t))]

/-- Show a native value. -/
def showNative (v : NativeValue) : Act Report :=
  match v with
  | .void => return .void
  | .null => return .null
  | .bool b => return .bool b
  | .int i => return .int i.toInt
  | .double d => return .float d
  | .str s => return .text s
  | .object t => showTwin t

mutual

/-- Show a dynamic value. -/
def showDyn : DynValue → Act Report
  | .none => return .null
  | .bool b => return .bool b
  | .int i => return .int i.toInt
  | .float d => return .float d
  | .str s => return .text s
  | .tuple items => do return .list (← showItems items)
  | .object t => showTwin t

def showItems : List DynValue → Act (List Report)
  | [] => return []
  | v :: vs => do
      let r ← showDyn v
      return r :: (← showItems vs)

end

/-- Show an optional result. -/
def showOptional {α : Type} (f : α → Act Report) (o : Option α) : Act Report :=
  match o with
  | none => return .optional none
  | some a => do return .optional (some (← f a))

end World

end TwinObject
