/-
Members and attributes.  Dynamic code finds a visible native member first, then
an attribute of the instance, then one of its class; native code finds members
of every access level.  No access here waits for storage that another thread
fills, as a second construction does: there are more interleavings than there are
for storage behind a lock.
-/
import TwinObject.Crossing

namespace TwinObject

/-- Read a plain value of the given type off a native value. -/
def NativeValue.readAs (census : Census) (type : PlainType) (v : NativeValue) :
    Except Failure NativeValue :=
  let misfit (expected : String) : Except Failure NativeValue :=
    .error (.typeMismatch "native conversion" expected (v.typeName census))
  match type with
  | .int => (v.asInt?).elim (misfit "int") (.ok ∘ .int)
  | .double => (v.asDouble?).elim (misfit "double") (.ok ∘ .double)
  | .bool => (v.asBool?).elim (misfit "bool") (.ok ∘ .bool)
  | .str => (v.asStr?).elim (misfit "string") (.ok ∘ .str)
  | .object => (v.asObject?).elim (misfit "object") (.ok ∘ .object)

namespace World

def noAttribute (w : World) (t : TwinId) (name : String) : Failure :=
  .noSuchAttribute (w.className t) name

/-- An attribute of the nearest class of the chain that has it. -/
def classAttr? (w : World) (c : DynamicClass) (name : String) : Option DynValue :=
  c.chain.findSome? fun d => (w.classes[d.id]?).bind (·.attrs.get? name)

/-- Bind an attribute of a class and let go of its old value. -/
def storeClassAttr (w : World) (id : ClassId) (name : String) (v : DynValue) : World :=
  let old := (w.classes[id]?).bind (·.attrs.get? name)
  { w with classes := w.classes.modify id fun s => { s with attrs := s.attrs.put name v } }.drop
    (old.elim [] DynValue.handles)

/-- The attribute of a name that dynamic code sees. -/
def findAttr? (w : World) (t : TwinId) (name : String) : Option DynValue :=
  let twin := w.twin t
  match twin.layout.findVisibleMember? name twin.kind.fromDerived with
  | some p => some ((twin.valueAt? p).getD .void).toDyn
  | none =>
      (twin.attrs.get? name).or
        (match twin.kind with
          | .native _ => none
          | .dynamic c => w.classAttr? c name)

/-- Read an attribute.  Storage that is being filled is read as it is by then. -/
def getAttr (t : TwinId) (name : String) : Act (Except Thrown DynValue) := fun w =>
  match w.findAttr? t name with
  | some v => (.ok v, w.retainAll v.handles)
  | none => (.error (w.noAttribute t name).raise, w)

/-- Assign an attribute.  The value is given away.  Storage that is being filled is
written to at once. -/
def setAttr (t : TwinId) (name : String) (v : DynValue) : Act (Except Thrown Unit) := fun w =>
  let twin := w.twin t
  match twin.layout.findVisibleMember? name twin.kind.fromDerived with
  | none => (.ok (), w.storeAttr t name v)
  | some p =>
      match twin.layout.memberDecl? p with
      | none => (.ok (), (w.record [.astray t p]).drop v.handles)
      | some decl =>
          match Crossing.toNative ("assignment to '" ++ name ++ "'") v decl.type w with
          | (.error f, w) => (.error f.raise, w.drop v.handles)
          | (.ok n, w) => (.ok (), (w.storeValue t p n).drop v.handles)

/-- Read the member at a place found by `find`. -/
def readMember (t : TwinId) (name : String) (find : Layout → Option Place) :
    Act (Except Failure NativeValue) := fun w =>
  match (find (w.twin t).layout).bind (w.twin t).valueAt? with
  | some v => (.ok v, w.retainAll v.handles)
  | none => (.error (w.noAttribute t name), w)

/-- Read a member whatever its access, of storage that is being filled as it is by
then. -/
def getField (t : TwinId) (name : String) : Act (Except Failure NativeValue) :=
  readMember t name (·.findMember? name)

/-- Read a member declared by a class of the given name. -/
def getFieldOf (t : TwinId) (cls name : String) : Act (Except Failure NativeValue) :=
  readMember t name (·.findMemberIn? cls name)

/-- Read a member as a plain value. -/
def getFieldAs (type : PlainType) (t : TwinId) (name : String) :
    Act (Except Failure NativeValue) := do
  match ← getField t name with
  | .error f => return .error f
  | .ok v =>
      let w ← get
      match v.readAs w.census type with
      | .ok r => return .ok r
      | .error f =>
          Crossing.discard v.handles
          return .error f

/-- Write a value into a declared member if it fits.  The value is given
away. -/
def writeMember (t : TwinId) (p : Place) (decl : MemberDecl) (context : String) (v : NativeValue) :
    Act (Except Failure Unit) := fun w =>
  match v.coerce w.census decl.type with
  | none =>
      (.error (.typeMismatch context decl.type.text (v.typeName w.census)), w.drop v.handles)
  | some c => (.ok (), ((w.retainAll c.handles).storeValue t p c).drop v.handles)

/-- Assign a member whatever its access.  The value is given away.  Storage that is
being filled is written to at once. -/
def setField (t : TwinId) (name : String) (v : NativeValue) : Act (Except Failure Unit) := fun w =>
  let layout := (w.twin t).layout
  match (layout.findMember? name).bind fun p => (layout.memberDecl? p).map (p, ·) with
  | none => (.error (w.noAttribute t name), w.drop v.handles)
  | some (p, decl) => writeMember t p decl ("member '" ++ name ++ "'") v w

end World

namespace Site

/-- The member of the segment under construction that has the name. -/
def member? (s : Site) (name : String) : Option (Place × MemberDecl) := do
  let index ← s.cls.memberIndex? name
  return (⟨s.segment, index⟩, ← s.cls.members[index]?)

/-- Initialize a member of the segment.  The value is given away. -/
def set (s : Site) (name : String) (v : NativeValue) : Act (Except Failure Unit) := fun w =>
  match s.member? name with
  | none => (.error (.noSuchAttribute s.cls.name name), w.drop v.handles)
  | some (p, decl) =>
      World.writeMember s.twin p decl ("member '" ++ s.cls.name ++ "::" ++ name ++ "'") v w

/-- Read a member of the segment back. -/
def get (s : Site) (name : String) : Act NativeValue := fun w =>
  match (s.member? name).bind fun found => (w.twin s.twin).valueAt? found.1 with
  | none => (.void, w)
  | some v => (v, w.retainAll v.handles)

end Site

end TwinObject
