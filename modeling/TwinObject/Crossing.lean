/-
Values crossing from one side to the other.  Plain values are converted;
references and pointers share the instance, and by-value parameters and
results get an instance of their own.
-/
import TwinObject.Reproduce

namespace TwinObject

/-- The dynamic counterpart of a native value. -/
def NativeValue.toDyn : NativeValue → DynValue
  | .void | .null => .none
  | .bool b => .bool b
  | .int i => .int i
  | .double d => .float d
  | .str s => .str s
  | .object t => .object t

/-- The native counterpart of a dynamic value that no type asks for; there is
none for tuples. -/
def DynValue.toRaw? : DynValue → Option NativeValue
  | .none => some .null
  | .bool b => some (.bool b)
  | .int i => some (.int i)
  | .float d => some (.double d)
  | .str s => some (.str s)
  | .tuple _ => Option.none
  | .object t => some (.object t)

namespace Crossing

def discard (hs : List Handle) : Act Unit :=
  modify (·.drop hs)

def keep (hs : List Handle) : Act Unit :=
  modify (·.retainAll hs)

/-- The dynamic counterpart of a value that its owner keeps. -/
def lendToDynamic (v : NativeValue) : Act DynValue := do
  keep v.toDyn.handles
  return v.toDyn

/-- The dynamic counterpart of a value that is given away. -/
def toDynamic (v : NativeValue) : Act DynValue := do
  let d ← lendToDynamic v
  discard v.handles
  return d

/-- The untyped native counterpart of a value that its owner keeps. -/
def lendToRaw (v : DynValue) : Act (Option NativeValue) := do
  match v.toRaw? with
  | none => return none
  | some n =>
      keep n.handles
      return some n

/-- Convert an argument to a parameter type; a by-value object is copied. -/
def toNative (context : String) (v : DynValue) (ty : NativeType) :
    Act (Except Failure NativeValue) :=
  fun w =>
    let misfit : Except Failure NativeValue :=
      .error (.typeMismatch context ty.text (v.typeName w.census))
    match ty, v with
    | .void, _ => (.ok .void, w)
    | .bool, .bool b => (.ok (.bool b), w)
    | .int, .int i => (.ok (.int i), w)
    | .int, .bool b => (.ok (.int (boolToInt b)), w)
    | .double, .float d => (.ok (.double d), w)
    | .double, .int i => (.ok (.double i.toFloat), w)
    | .str, .str s => (.ok (.str s), w)
    | .ptr _, .none => (.ok .null, w)
    | .object c, .object t =>
        if w.isA t c then
          match World.copyTwin t w with
          | (.ok copy, w) => (.ok (.object copy), w.asNative copy)
          | (.error f, w) => (.error f, w)
        else (misfit, w)
    | .ref c, .object t | .ptr c, .object t =>
        if w.isA t c then (.ok (.object t), w.retain (.native t)) else (misfit, w)
    | _, _ => (misfit, w)

/-- Convert the result of an override that is kept.  A void slot takes no result if
results are strict, else any; a pointer is handed over only if native code may
hold the instance, and is null otherwise; a by-value result gets an instance
of its own. -/
def resultToNative (context : String) (strictVoid : Bool) (v : DynValue) (ty : NativeType) :
    Act (Except Failure NativeValue) := fun w =>
  match ty, v with
  | .void, .none => (.ok .void, w)
  | .void, _ =>
      if strictVoid then (.error (.typeMismatch context ty.text (v.typeName w.census)), w)
      else (.ok .void, w)
  | .ptr c, .object t =>
      if w.isA t c then
        if (w.twin t).owner.nativeMayHold then (.ok (.object t), w.retain (.native t))
        else (.ok .null, w)
      else toNative context v ty w
  | .object c, .object t =>
      if w.isA t c then
        match World.materializeTwin t w with
        | (.ok fresh, w) => (.ok (.object fresh), w.asNative fresh)
        | (.error f, w) => (.error f, w)
      else toNative context v ty w
  | _, _ => toNative context v ty w

/-- Convert the result of an override, which is given away. -/
def returnToNative (context : String) (strictVoid : Bool) (v : DynValue) (ty : NativeType) :
    Act (Except Failure NativeValue) := do
  let result ← resultToNative context strictVoid v ty
  discard v.handles
  return result

/-- Fit a native value that its owner keeps to a parameter type. -/
def coerceNative (v : NativeValue) (ty : NativeType) : Act (Option NativeValue) := fun w =>
  match v.coerce w.census ty with
  | none => (none, w)
  | some c => (some c, w.retainAll c.handles)

/-- Convert a list of arguments, each by `convert`; at the first that fails
the converted ones are let go. -/
def convertAll {α ε : Type} (convert : α → NativeType → Act (Except ε NativeValue)) :
    List NativeValue → List (α × NativeType) → Act (Except ε (List NativeValue))
  | done, [] => return .ok done
  | done, (a, ty) :: rest => do
      match ← convert a ty with
      | .ok v => convertAll convert (done ++ [v]) rest
      | .error e =>
          discard (done.flatMap NativeValue.handles)
          return .error e

/-- Convert dynamic arguments to a parameter list.  An exact fit is checked
before anything is copied. -/
def argsToNative (context : String) (args : List DynValue) (params : List NativeType) (fit : Fit) :
    Act (Option (List NativeValue)) :=
  if args.length ≠ params.length then return none
  else if fit = .exact && (args.zip params).any (fun (v, ty) => v.widens ty) then return none
  else do
    return (← convertAll (toNative context) [] (args.zip params)).toOption

/-- Coerce native arguments to a parameter list. -/
def coerceArgs (args : List NativeValue) (params : List NativeType) (fit : Fit) :
    Act (Option (List NativeValue)) :=
  if args.length ≠ params.length then return none
  else if fit = .exact && (args.zip params).any (fun (v, ty) => v.widens ty) then return none
  else do
    let coerce := fun v ty => return (← coerceNative v ty).elim (.error ()) .ok
    return (← convertAll coerce [] (args.zip params)).toOption

def discardValues (vs : List NativeValue) : Act Unit :=
  discard (vs.flatMap NativeValue.handles)

/-- Candidates of a call with dynamic arguments. -/
def fromDynamic (context : String) (args : List DynValue) : Conversion Act :=
  ⟨argsToNative context args, discardValues⟩

/-- Candidates of a call with native arguments. -/
def fromNative (args : List NativeValue) : Conversion Act :=
  ⟨coerceArgs args, discardValues⟩

end Crossing

end TwinObject
