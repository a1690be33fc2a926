/-
Inspection: what a session can find out about declarations and instances.
-/
import TwinObject.Session.Declare
import TwinObject.Session.Structure

namespace TwinObject

def Access.text : Access → String
  | .everyone => "public"
  | .derived => "protected"
  | .owner => "private"

def CopyPolicy.text : CopyPolicy → String
  | .everyone => "public"
  | .derived => "protected"
  | .owner => "private"
  | .moveOnly => "move_only"
  | .deleted => "deleted"

namespace Inspect

open Report

def member (d : MemberDecl) : Act Report := do
  return fields
    [("name", text d.name), ("type", text d.type.text), ("access", text d.access.text),
      ("default", ← World.showNative d.default)]

def nativeClass (c : NativeClass) : Act Report := do
  let members ← c.members.mapM member
  let w ← get
  return fields
    [("name", text c.name), ("parents", texts (c.parents.map NativeClass.name)),
      ("fields", list members), ("slots", list (c.vtable.slots.map ofSlot)),
      ("slot_count", nat c.vtable.size), ("no_slots", bool c.vtable.slots.isEmpty),
      ("first_pure", optional (c.vtable.firstPure?.map ofSlot)),
      ("virtual_dtor", bool c.virtualDtor), ("copy", text c.copyPolicy.text),
      ("abstract", bool c.isAbstract), ("segments", nat c.segmentCount),
      ("lineage", texts (c.lineage.map w.nativeLabel)), ("shadows", texts (w.derivedFrom c.id))]

/-- An overload set, with the lock-release flag that its methods share. -/
def overloads (w : World) (found : NativeId × List MethodDecl) : Report :=
  list (found.2.map fun d => fields
    [("name", text d.name), ("params", texts (d.params.map NativeType.text)),
      ("ret", text d.ret.text), ("access", text d.access.text),
      ("releases", bool (w.releases (.method found.1 d.name)))])

def keyedSlot (entry : Nat × Slot) : Report :=
  list [nat entry.1, text entry.2.key.text]

def nativeQuery (w : World) (c : NativeClass) (name : String) : Report :=
  fields
    [("is_a", bool (c.isA name)), ("visible_outside", bool (c.hasVisibleMember name false)),
      ("visible_derived", bool (c.hasVisibleMember name true)),
      ("methods", optional ((c.findMethod? name).map (overloads w))),
      ("has_slot", bool (c.vtable.hasMethod name)),
      ("slots_named", list ((c.vtable.slotsNamed name).map keyedSlot))]

def slotPosition (table : VTable) (key : SlotKey) : Report :=
  optional do
    let index ← table.position? key
    let slot ← table.get? index
    return list [nat index, ofSlot slot]

def composition (c : Composition) (names : List String) : Report :=
  fields
    [("bases", texts (c.bases.map NativeClass.name)), ("slots", list (c.vtable.slots.map ofSlot)),
      ("base_count", nat c.bases.length), ("contains", list (names.map (bool ∘ c.contains)))]

def layoutName (w : World) (l : Layout) (name : String) : Report :=
  let found := l.findMember? name
  fields
    [("field", optional (found.map place)),
      ("outside", optional ((l.findVisibleMember? name false).map place)),
      ("derived", optional ((l.findVisibleMember? name true).map place)),
      ("type", optional ((found.bind l.memberDecl?).map fun d => text d.type.text)),
      ("methods", optional ((l.findMethod? name).map (overloads w))), ("is_a", bool (l.isA name))]

def layout (l : Layout) (names : List String) (within : List (String × String)) : Act Report := do
  let storage ← l.defaultStorage.mapM fun segment => return list (← segment.mapM World.showNative)
  let w ← get
  return fields
    [("segments", texts (l.segments.map NativeClass.name)),
      ("bases", texts (l.bases.map (·.base.name))),
      ("ranges", list ((List.range (l.baseCount + 1)).map fun i =>
        optional ((l.baseRange? i).map fun b => list [nat b.start, nat b.stop]))),
      ("base_index", list (l.segments.map fun s => optional ((l.baseIndex? s).map nat))),
      ("storage", list storage), ("names", list (names.map (layoutName w l))),
      ("within", list (within.map fun (c, name) => optional ((l.findMemberIn? c name).map place))),
      ("no_decl", bool (l.memberDecl? ⟨l.segments.length, 0⟩).isNone)]

def dynamicClass (w : World) (c : DynamicClass) : Report :=
  let state := w.classes[c.id]?.getD default
  let shadow := fields
    [("name", text c.name), ("bases", texts (c.composition.bases.map NativeClass.name)),
      ("stubs", list (c.vtable.slots.zipIdx.map fun (s, i) => keyedSlot (i, s))),
      ("past_end", bool (c.vtable.get? c.vtable.size).isSome), ("resolved", nat state.resolved),
      ("entries", nat state.overrides.length), ("empty", bool state.overrides.isEmpty)]
  fields
    [("name", text c.name), ("parent", optional (c.parentName?.map text)),
      ("bases", texts c.baseNames),
      ("missing", optional (c.missingOverride?.map (text ·.key.text))),
      ("abstract", bool c.isAbstract), ("warnings", list (c.warnings.map ofWarning)),
      ("shadow", shadow)]

/-- Whether a class exposes a name in any way. -/
def exposes (w : World) (c : DynamicClass) (name : String) : Bool :=
  (c.findMethod? name).isSome || (w.classAttr? c name).isSome || c.vtable.hasMethod name
    || (c.composition.layout.findVisibleMember? name true).isSome

def method (m : Method) : Report :=
  fields
    [("name", text m.name), ("arity", m.arity.elim null nat),
      ("accepts", list ((List.range 4).map (bool ∘ m.accepts)))]

def classQuery (c : DynamicClass) (name : String) : Act Report := do
  let attr ← World.showOptional World.showDyn ((← get).classAttr? c name)
  let w ← get
  return fields
    [("is_a", bool (c.isA name)), ("has_attr", bool (exposes w c name)), ("attr", attr),
      ("method", optional ((c.findMethod? name).map method))]

def twin (w : World) (t : TwinId) : Report :=
  let twin := w.twin t
  let (dynamic, native) := match twin.kind with
    | .native c => (none, some c.name)
    | .dynamic c => (some c.name, none)
  fields
    [("class", text twin.name), ("dynamic", nullable dynamic), ("native", nullable native),
      ("owner", text twin.owner.text), ("dynamic_owns", bool (twin.owner = .dynamic)),
      ("initialized", bool twin.isInitialized), ("moved", bool twin.moved),
      ("segments", texts (twin.layout.segments.map NativeClass.name)),
      ("display", text (w.instanceText t))]

def dynValue (v : DynValue) : Act Report := do
  let shown ← World.showDyn v
  let tuple ← World.showOptional (fun items => return list (← World.showItems items)) v.asTuple?
  let w ← get
  return fields
    [("value", shown), ("type", text (v.typeName w.census)), ("none", bool v.isNone),
      ("truthy", bool v.truthy), ("bool", optional (v.asBool?.map bool)),
      ("int", optional (v.asInt?.map fun i => int i.toInt)),
      ("float", optional (v.asFloat?.map float)), ("str", optional (v.asStr?.map text)),
      ("tuple", tuple), ("object", bool v.asObject?.isSome),
      ("display", text (v.text w.instanceText))]

def nativeValue (v : NativeValue) : Act Report := do
  let shown ← World.showNative v
  let w ← get
  return fields
    [("value", shown), ("type", text (v.typeName w.census)), ("null", bool v.isNull),
      ("bool", optional (v.asBool?.map bool)),
      ("int", optional (v.asInt?.map fun i => int i.toInt)),
      ("double", optional (v.asDouble?.map float)), ("str", optional (v.asStr?.map text)),
      ("object", bool v.asObject?.isSome)]

def type (ty : NativeType) : Report :=
  fields
    [("display", text ty.text), ("class", nullable ty.className?), ("object", bool ty.isObject),
      ("void", bool ty.isVoid)]

def slotKey (key : SlotKey) (other : Option SlotKey) : Report :=
  fields
    [("display", text key.text), ("arity", nat key.arity),
      ("same", other.elim null fun o => bool (key = o))]

def ownership (o : Ownership) : Report :=
  fields
    [("display", text o.text), ("raw", nat o.toCode), ("native_may_hold", bool o.nativeMayHold)]

def copyPolicy (p : CopyPolicy) : Report :=
  fields
    [("copy", list [bool (p.canCopy false), bool (p.canCopy true)]),
      ("move", list [bool (p.canMove false), bool (p.canMove true)])]

def failureText (f : Failure) : Report :=
  fields
    [("error", text f.label), ("message", text f.text), ("what", text f.what),
      ("kind", text f.kindName), ("propagated", bool f.isPropagated), ("described", text f.what),
      ("raised", list [text f.raise.kind, text f.raise.message]), ("display", text f.raise.text)]

def exception (t : Thrown) : Report :=
  fields
    [("display", text t.text), ("is_self", bool (t.kind = t.kind)),
      ("is_type", bool (t.kind = "TypeError")), ("captured", failure t.capture),
      ("round", bool (t.capture.raise = t))]

end Inspect

end TwinObject
