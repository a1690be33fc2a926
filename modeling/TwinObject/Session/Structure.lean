/-
Structural text: values and declarations written out with the names of their
parts, for diagnosis.
-/
import TwinObject.Session.Report
import TwinObject.Text.Quoted

namespace TwinObject.Structure

/-- A constructor with its arguments. -/
def call (name : String) (args : List String) : String :=
  name ++ "(" ++ ", ".intercalate args ++ ")"

/-- A record with named parts. -/
def record (name : String) (parts : List (String × String)) : String :=
  name ++ " \x7b " ++ ", ".intercalate (parts.map fun (label, s) => label ++ ": " ++ s) ++ " \x7d"

def list (items : List String) : String :=
  "[" ++ ", ".intercalate items ++ "]"

def option : Option String → String
  | none => "None"
  | some s => call "Some" [s]

def bool (b : Bool) : String :=
  if b then "true" else "false"

def ofType : NativeType → String
  | .void => "Void"
  | .bool => "Bool"
  | .int => "Int"
  | .double => "Double"
  | .str => "Str"
  | .object c => call "Object" [quoted c]
  | .ref c => call "Ref" [quoted c]
  | .ptr c => call "Ptr" [quoted c]

def ofCopyPolicy : CopyPolicy → String
  | .everyone => "Public"
  | .derived => "Protected"
  | .owner => "Private"
  | .moveOnly => "MoveOnly"
  | .deleted => "Deleted"

def ofOwnership : Ownership → String
  | .native => "Native"
  | .dynamic => "Dynamic"
  | .shared => "Shared"

def ofSlot (s : Slot) : String :=
  record "Slot"
    [("key", quoted s.key.text), ("ret", ofType s.ret), ("declared_in", quoted s.declaredIn),
      ("pure", bool s.isPure)]

def ofNativeClass (w : World) (c : NativeClass) : String :=
  record "NativeInterface"
    [("id", call "InterfaceId" [w.nativeLabel c.id]), ("name", quoted c.name),
      ("parents", list (c.parents.map fun p => quoted p.name)),
      ("vtable", record "VTable" [("slots", list (c.vtable.slots.map ofSlot))]),
      ("virtual_dtor", bool c.virtualDtor), ("copy_policy", ofCopyPolicy c.copyPolicy)]

def ofDynamicClass (c : DynamicClass) : String :=
  record "DynClass"
    [("name", quoted c.name), ("parent", option (c.parentName?.map quoted)),
      ("shadow", record "ShadowType"
        [("name", quoted c.name), ("bases", list (c.composition.bases.map fun b => quoted b.name)),
          ("stubs", toString c.vtable.size)])]

def ofMethod (m : Method) : String :=
  record "DynMethod" [("name", quoted m.name), ("arity", option (m.arity.map toString))]

def ofFunction (w : World) (f : NativeFunction) : String :=
  record "NativeFunction"
    [("name", quoted f.name), ("params", list (f.params.map ofType)), ("ret", ofType f.ret),
      ("releases_lock", bool (w.releases f.gate))]

/-- The identity of an instance by the number under which it was shown. -/
def ofTwinId (w : World) (t : TwinId) : String :=
  call "InstanceId" [(w.shownNumber? t).elim "?" toString]

def ofNativeHandle (w : World) (t : TwinId) : String :=
  record "NativeRef" [("id", ofTwinId w t), ("class", quoted (w.className t))]

def ofDynamicHandle (w : World) (t : TwinId) : String :=
  record "Instance"
    [("id", ofTwinId w t), ("class", quoted (w.className t)),
      ("ownership", ofOwnership (w.twin t).owner)]

def ofNative (w : World) : NativeValue → String
  | .void => "Void"
  | .null => "Null"
  | .bool b => call "Bool" [bool b]
  | .int i => call "Int" [toString i.toInt]
  | .double d => call "Double" [DecimalStyle.exact.text d]
  | .str s => call "Str" [quoted s]
  | .object t => call "Object" [ofNativeHandle w t]

mutual

def ofDyn (w : World) : DynValue → String
  | .none => "None"
  | .bool b => call "Bool" [bool b]
  | .int i => call "Int" [toString i.toInt]
  | .float d => call "Float" [DecimalStyle.exact.text d]
  | .str s => call "Str" [quoted s]
  | .tuple items => call "Tuple" [list (ofItems w items)]
  | .object t => call "Object" [ofDynamicHandle w t]

def ofItems (w : World) : List DynValue → List String
  | [] => []
  | v :: vs => ofDyn w v :: ofItems w vs

end

def ofShared (w : World) (g : SharedGroup) : String :=
  record "SharedPtr"
    [("target", ofNativeHandle w g.target), ("use_count", toString g.count)]

end TwinObject.Structure
