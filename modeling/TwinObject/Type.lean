/-
The vocabulary of the native side: types of parameters, results and members,
identities of virtual slots, access levels, copy policies and ownership flags.
-/

namespace TwinObject

/-- Declared type of a native parameter, result or data member.  The three
object forms name a class and pass its instances by value, by reference or by
nullable pointer. -/
inductive NativeType where
  | void
  | bool
  | int
  | double
  | str
  | object (className : String)
  | ref (className : String)
  | ptr (className : String)
deriving DecidableEq, Repr, Inhabited

namespace NativeType

/-- Class named by an object type. -/
def className? : NativeType → Option String
  | object c | ref c | ptr c => some c
  | _ => none

def isObject (ty : NativeType) : Bool :=
  ty.className?.isSome

def isVoid : NativeType → Bool
  | void => true
  | _ => false

def text : NativeType → String
  | void => "void"
  | bool => "bool"
  | int => "int"
  | double => "double"
  | str => "string"
  | object c => c
  | ref c => c ++ "&"
  | ptr c => c ++ "*"

end NativeType

/-- A parameter list as it is written in signatures. -/
def signatureText (params : List NativeType) : String :=
  "(" ++ ", ".intercalate (params.map NativeType.text) ++ ")"

/-- Identity of a virtual slot: overloads differ in their parameters, and a
const method is a slot of its own beside the non-const one. -/
structure SlotKey where
  name : String
  params : List NativeType
  isConst : Bool := false
deriving DecidableEq, Repr, Inhabited

def SlotKey.arity (key : SlotKey) : Nat :=
  key.params.length

def SlotKey.text (key : SlotKey) : String :=
  key.name ++ signatureText key.params ++ (if key.isConst then " const" else "")

/-- Access level of a native member, named by those who may use it. -/
inductive Access where
  | everyone
  | derived
  | owner
deriving DecidableEq, Repr, Inhabited

/-- A member for derived classes is not seen by unrelated code, and one kept
by its owner is seen by nobody else. -/
def Access.visible (fromDerived : Bool) : Access → Bool
  | .everyone => true
  | .derived => fromDerived
  | .owner => false

/-- How instances of a native class may be duplicated: by whom the copy
constructor may be called, or that only moving or neither is possible. -/
inductive CopyPolicy where
  | everyone
  | derived
  | owner
  | moveOnly
  | deleted
deriving DecidableEq, Repr, Inhabited

namespace CopyPolicy

def canCopy (fromDerived : Bool) : CopyPolicy → Bool
  | .everyone => true
  | .derived => fromDerived
  | _ => false

def canMove (fromDerived : Bool) : CopyPolicy → Bool
  | .everyone | .moveOnly => true
  | .derived => fromDerived
  | _ => false

end CopyPolicy

/-- The side that is responsible for an instance. -/
inductive Ownership where
  | native
  | dynamic
  | shared
deriving DecidableEq, Repr, Inhabited

namespace Ownership

/-- Native callers may keep an instance unless the dynamic side owns it. -/
def nativeMayHold : Ownership → Bool
  | .dynamic => false
  | _ => true

/-- The stored code of a flag. -/
def toCode : Ownership → Nat
  | .native => 0
  | .dynamic => 1
  | .shared => 2

/-- Every code that stands for no flag is read as dynamic ownership. -/
def ofCode : Nat → Ownership
  | 0 => .native
  | 2 => .shared
  | _ => .dynamic

theorem ofCode_toCode (flag : Ownership) : ofCode flag.toCode = flag := by
  cases flag <;> rfl

def text : Ownership → String
  | .native => "native"
  | .dynamic => "dynamic"
  | .shared => "shared"

end Ownership

end TwinObject
