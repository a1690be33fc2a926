/-
The two small languages in which bodies are written: dynamic code for methods
and initializers of dynamic classes, native code for slots, methods, functions
and constructors of the native side.  Either can call into the other.
-/
import TwinObject.Value
import TwinObject.Failure

namespace TwinObject

/-- A value that can be written down in code; an instance cannot. -/
inductive Literal where
  | null
  | void
  | bool (b : Bool)
  | int (i : Int64)
  | float (d : Float)
  | str (s : String)
deriving DecidableEq, Repr, Inhabited

namespace Literal

def toNative : Literal → NativeValue
  | null => .null
  | void => .void
  | bool b => .bool b
  | int i => .int i
  | float d => .double d
  | str s => .str s

/-- Dynamic code has one word for nothing. -/
def toDyn : Literal → DynValue
  | null | void => .none
  | bool b => .bool b
  | int i => .int i
  | float d => .float d
  | str s => .str s

@[simp] theorem handles_toNative (l : Literal) : l.toNative.handles = [] := by
  cases l <;> rfl

@[simp] theorem handles_toDyn (l : Literal) : l.toDyn.handles = [] := by
  cases l <;> rfl

end Literal

/-- Operators on two plain values. -/
inductive BinaryOp where
  | eq
  | add
deriving DecidableEq, Repr, Inhabited

/-- What code may ask about an instance. -/
inductive Question where
  | className
  | owner
  | dynamicOwns
  | isA (name : String)
  | initialized
  | moved
deriving DecidableEq, Repr, Inhabited

/-- How a new instance is made from an old one. -/
inductive Reproduction where
  | copy
  | move
  | materialize
deriving DecidableEq, Repr, Inhabited

/-- What code may ask about a native vector. -/
inductive VecQuestion where
  | size
  | isEmpty
  | element
deriving DecidableEq, Repr, Inhabited

/-- The plain types as which a member can be read. -/
inductive PlainType where
  | int
  | double
  | bool
  | str
  | object
deriving DecidableEq, Repr, Inhabited

mutual

/-- Dynamic code. -/
inductive DynExpr where
  | lit (l : Literal)
  | arg (i : Nat)
  | argTuple
  | argCount
  | this
  | var (x : String)
  | set (x : String) (e : DynExpr)
  | tuple (es : List DynExpr)
  | item (e : DynExpr) (i : Nat)
  | seq (es : List DynExpr)
  | cond (c a b : DynExpr)
  | binary (op : BinaryOp) (a b : DynExpr)
  | raise (t : Thrown)
  | attempt (e : DynExpr)
  | log (text : String)
  | attr (o : DynExpr) (name : String)
  | hasAttr (o : DynExpr) (name : String)
  | setAttr (o : DynExpr) (name : String) (e : DynExpr)
  | call (o : DynExpr) (name : String) (args : DynExpr)
  | callBase (o : DynExpr) (cls name : String) (args : DynExpr)
  | callFunction (function : String) (args : DynExpr)
  | new (cls : String) (args : DynExpr)
  | newGrouped (cls : String) (group : GroupExpr)
  | superInit (args : DynExpr)
  | superGroups (groups : List GroupExpr)
  | initBase (cls : String) (args : DynExpr)
  | initParent (cls : String) (args : DynExpr)
  | setOwner (o : DynExpr) (flag : Ownership)
  | ask (q : Question) (o : DynExpr)
  | identical (a b : DynExpr)
  | reproduce (way : Reproduction) (o : DynExpr)
  | text (e : DynExpr)
  | truthy (e : DynExpr)
  | held (interp : String)
  | classAttr (cls name : String)
  | setClassAttr (cls name : String) (e : DynExpr)
  | vecGet (vec : String) (i : Nat)
  | vecRemove (vec : String) (i : Nat)
  | sharedGet (shared : String)
  | yieldLock
  | waitStop (signal : String)
  | panic (text : String)
  | native (e : NativeExpr)

/-- One group of constructor arguments: an expression for the positional ones,
and names with their expressions for the keywords. -/
inductive GroupExpr where
  | mk (positional : DynExpr) (names : List String) (values : List DynExpr)

/-- Native code. -/
inductive NativeExpr where
  | lit (l : Literal)
  | arg (i : Nat)
  | argCount
  | this
  | var (x : String)
  | set (x : String) (e : NativeExpr)
  | seq (es : List NativeExpr)
  | cond (c a b : NativeExpr)
  | binary (op : BinaryOp) (a b : NativeExpr)
  | fail (f : Failure)
  | attempt (e : NativeExpr)
  | log (text : String)
  | typeName (e : NativeExpr)
  | field (o : NativeExpr) (name : String)
  | fieldOf (o : NativeExpr) (cls name : String)
  | fieldAs (type : PlainType) (o : NativeExpr) (name : String)
  | setField (o : NativeExpr) (name : String) (e : NativeExpr)
  | callVirtual (constOnly : Bool) (o : NativeExpr) (name : String) (args : List NativeExpr)
  | callMethod (o : NativeExpr) (name : String) (args : List NativeExpr)
  | callBase (o : NativeExpr) (cls name : String) (args : List NativeExpr)
  | construct (cls : String) (args : List NativeExpr)
  | invoke (function : String) (args : List NativeExpr)
  | initField (name : String) (e : NativeExpr)
  | getInit (name : String)
  | ask (q : Question) (o : NativeExpr)
  | identical (a b : NativeExpr)
  | reproduce (way : Reproduction) (o : NativeExpr)
  | adopt (o : NativeExpr) (flag : Ownership)
  | vecPush (vec : String) (o : NativeExpr)
  | vecMove (vec : String) (o : NativeExpr)
  | vecClear (vec : String)
  | vecNative (vec : String) (i : Nat)
  | vecAsk (q : VecQuestion) (vec : String)
  | sharedNative (shared : String)
  | sharedCall (shared name : String) (args : List NativeExpr)
  | sharedCount (shared : String)
  | held (interp : String)
  | onThread (e : NativeExpr)
  | dynamic (e : DynExpr)

end

instance : Inhabited DynExpr := ⟨.lit .null⟩
instance : Inhabited NativeExpr := ⟨.lit .void⟩

end TwinObject
