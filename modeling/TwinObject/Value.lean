/-
Values of the two sides, and the counted handles inside them.  An object value
names a twin, the record that both halves of one instance share.
-/
import TwinObject.Type
import TwinObject.Decimal.Shortest

namespace TwinObject

/-- Identity of a twin; ids are given out in order and never used again. -/
abbrev TwinId := Nat

/-- A counted handle to a twin, held by native or by dynamic code. -/
inductive Handle where
  | native (twin : TwinId)
  | dynamic (twin : TwinId)
deriving DecidableEq, Repr, Inhabited

def Handle.twin : Handle → TwinId
  | native t | dynamic t => t

/-- A value as native code sees it. -/
inductive NativeValue where
  | void
  | null
  | bool (b : Bool)
  | int (i : Int64)
  | double (d : Float)
  | str (s : String)
  | object (twin : TwinId)
deriving DecidableEq, Repr, Inhabited

/-- A value as dynamic code sees it. -/
inductive DynValue where
  | none
  | bool (b : Bool)
  | int (i : Int64)
  | float (d : Float)
  | str (s : String)
  | tuple (items : List DynValue)
  | object (twin : TwinId)
deriving Repr, Inhabited

/-- What a world knows about its twins: the class name of each, and whether it
is an instance of a class with a given name. -/
structure Census where
  className : TwinId → String
  isA : TwinId → String → Bool

def boolToInt (b : Bool) : Int64 :=
  if b then 1 else 0

namespace NativeValue

def typeName (census : Census) : NativeValue → String
  | void => "void"
  | null => "nullptr"
  | bool _ => "bool"
  | int _ => "int"
  | double _ => "double"
  | str _ => "string"
  | object t => census.className t

def isNull : NativeValue → Bool
  | null => true
  | _ => false

def asBool? : NativeValue → Option Bool
  | bool b => some b
  | _ => Option.none

def asInt? : NativeValue → Option Int64
  | int i => some i
  | _ => Option.none

/-- Integers widen to doubles. -/
def asDouble? : NativeValue → Option Float
  | double d => some d
  | int i => some i.toFloat
  | _ => Option.none

def asStr? : NativeValue → Option String
  | str s => some s
  | _ => Option.none

def asObject? : NativeValue → Option TwinId
  | object t => some t
  | _ => Option.none

/-- Equality as native code tests it: doubles by their numeric order, objects
by identity. -/
def same : NativeValue → NativeValue → Bool
  | void, void | null, null => true
  | bool a, bool b => a == b
  | int a, int b => a == b
  | double a, double b => a == b
  | str a, str b => a == b
  | object a, object b => a == b
  | _, _ => false

/-- The handles a value holds. -/
def handles : NativeValue → List Handle
  | object t => [.native t]
  | _ => []

/-- Value of a member before anything is stored in it. -/
def zero : NativeType → NativeValue
  | .void => void
  | .bool => bool false
  | .int => int 0
  | .double => double 0
  | .str => str ""
  | .object _ | .ref _ | .ptr _ => null

/-- Fit a value to a declared type: integers widen to doubles, an object must
be an instance of the named class, and null is for pointers alone. -/
def coerce (census : Census) (ty : NativeType) (v : NativeValue) : Option NativeValue :=
  match ty, v with
  | .void, _ => some void
  | .bool, bool b => some (bool b)
  | .int, int i => some (int i)
  | .double, double d => some (double d)
  | .double, int i => some (double i.toFloat)
  | .str, str s => some (str s)
  | .ptr _, null => some null
  | .object c, object t | .ref c, object t | .ptr c, object t =>
      if census.isA t c then some (object t) else Option.none
  | _, _ => Option.none

/-- Whether coercion to the type has to convert the value. -/
def widens (ty : NativeType) (v : NativeValue) : Bool :=
  match ty, v with
  | .double, int _ => true
  | _, _ => false

end NativeValue

namespace DynValue

def typeName (census : Census) : DynValue → String
  | none => "NoneType"
  | bool _ => "bool"
  | int _ => "int"
  | float _ => "float"
  | str _ => "str"
  | tuple _ => "tuple"
  | object t => census.className t

def isNone : DynValue → Bool
  | none => true
  | _ => false

def asBool? : DynValue → Option Bool
  | bool b => some b
  | _ => Option.none

/-- Booleans count as integers. -/
def asInt? : DynValue → Option Int64
  | int i => some i
  | bool b => some (boolToInt b)
  | _ => Option.none

/-- Integers widen to floats. -/
def asFloat? : DynValue → Option Float
  | float d => some d
  | int i => some i.toFloat
  | _ => Option.none

def asStr? : DynValue → Option String
  | str s => some s
  | _ => Option.none

def asTuple? : DynValue → Option (List DynValue)
  | tuple items => some items
  | _ => Option.none

def asObject? : DynValue → Option TwinId
  | object t => some t
  | _ => Option.none

def truthy : DynValue → Bool
  | none => false
  | bool b => b
  | int i => i != 0
  | float d => d != 0
  | str s => !s.isEmpty
  | tuple items => !items.isEmpty
  | object _ => true

mutual

/-- Equality as dynamic code tests it: an integer equals the float of its
value, tuples are compared item by item, objects by identity. -/
def same : DynValue → DynValue → Bool
  | none, none => true
  | bool a, bool b => a == b
  | int a, int b => a == b
  | float a, float b => a == b
  | int a, float b => a.toFloat == b
  | float a, int b => b.toFloat == a
  | str a, str b => a == b
  | tuple a, tuple b => sameItems a b
  | object a, object b => a == b
  | _, _ => false

def sameItems : List DynValue → List DynValue → Bool
  | [], [] => true
  | a :: as, b :: bs => same a b && sameItems as bs
  | _, _ => false

end

mutual

/-- The handles a value holds, those inside tuples included. -/
def handles : DynValue → List Handle
  | object t => [.dynamic t]
  | tuple items => itemHandles items
  | _ => []

def itemHandles : List DynValue → List Handle
  | [] => []
  | v :: vs => handles v ++ itemHandles vs

end

theorem itemHandles_eq_flatMap (items : List DynValue) :
    itemHandles items = items.flatMap handles := by
  induction items with
  | nil => rfl
  | cons v vs ih => simp [itemHandles, ih]

mutual

/-- The text of a value, given the text of an instance. -/
def text (instanceText : TwinId → String) : DynValue → String
  | none => "None"
  | bool b => if b then "True" else "False"
  | int i => toString i.toInt
  | float d => DecimalStyle.plain.text d
  | str s => "'" ++ s ++ "'"
  | tuple items =>
      "(" ++ ", ".intercalate (itemTexts instanceText items)
        ++ (if items.length = 1 then ",)" else ")")
  | object t => instanceText t

def itemTexts (instanceText : TwinId → String) : List DynValue → List String
  | [] => []
  | v :: vs => text instanceText v :: itemTexts instanceText vs

end

/-- Whether conversion to the type has to widen the value. -/
def widens (ty : NativeType) (v : DynValue) : Bool :=
  match ty, v with
  | .double, int _ => true
  | .int, bool _ => true
  | _, _ => false

end DynValue

end TwinObject
