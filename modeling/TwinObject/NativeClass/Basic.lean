/-
Native classes: members, constructors, virtual slots and methods of one class,
and its parents.  A class is a finite tree and never changes once declared.
-/
import TwinObject.NativeClass.VTable

namespace TwinObject

/-- Identity of a native class: a number given out at its declaration. -/
structure NativeId where
  serial : Nat
deriving DecidableEq, Repr, Inhabited

/-- Constructor parameter; one with a default may be left out. -/
structure Param where
  name : String
  type : NativeType
  default : Option NativeValue
deriving Repr, Inhabited

/-- Data member of a native class. -/
structure MemberDecl where
  name : String
  type : NativeType
  access : Access
  default : NativeValue
deriving Repr, Inhabited

/-- A member with a default of its type: one that does not fit gives way to
the type's zero. -/
def MemberDecl.declare (census : Census) (name : String) (type : NativeType) (access : Access)
    (default : NativeValue) : MemberDecl :=
  ⟨name, type, access, (default.coerce census type).getD (.zero type)⟩

/-- The handle in a member's default, if there is one. -/
def MemberDecl.handles (d : MemberDecl) : List Handle :=
  d.default.handles

def Param.handles (p : Param) : List Handle :=
  p.default.elim [] NativeValue.handles

structure Constructor where
  params : List Param
  access : Access
  body : NativeExpr
deriving Inhabited

def Constructor.signature (c : Constructor) : String :=
  signatureText (c.params.map Param.type)

def Constructor.handles (c : Constructor) : List Handle :=
  c.params.flatMap Param.handles

/-- Non-virtual method. -/
structure MethodDecl where
  name : String
  params : List NativeType
  ret : NativeType
  access : Access
  body : NativeExpr
deriving Inhabited

/-- A declared native class. -/
structure NativeClass where
  id : NativeId
  name : String
  parents : List NativeClass
  members : List MemberDecl
  constructors : List Constructor
  vtable : VTable
  methods : List MethodDecl
  virtualDtor : Bool
  copyPolicy : CopyPolicy
  /-- Observers that are told of every construction and destruction of a
  segment of this class. -/
  hooks : List String
deriving Inhabited

namespace NativeClass

def isAbstract (c : NativeClass) : Bool :=
  c.vtable.firstPure?.isSome

def memberIndex? (c : NativeClass) (name : String) : Option Nat :=
  c.members.findIdx? (fun d => d.name = name)

/-- The values of the own members before a constructor runs. -/
def defaultSegment (c : NativeClass) : List NativeValue :=
  c.members.map MemberDecl.default

/-- The handles in the defaults of the own members and parameters, which the
class keeps. -/
def ownHandles (c : NativeClass) : List Handle :=
  c.members.flatMap MemberDecl.handles ++ c.constructors.flatMap Constructor.handles

mutual

/-- Whether the class is, or derives from, one of the given name. -/
def isA (name : String) : NativeClass → Bool
  | ⟨_, own, parents, _, _, _, _, _, _, _⟩ => own = name || anyIsA name parents

def anyIsA (name : String) : List NativeClass → Bool
  | [] => false
  | p :: ps => p.isA name || anyIsA name ps

end

mutual

/-- Ids of the class and of all its ancestors. -/
def lineage : NativeClass → List NativeId
  | ⟨id, _, parents, _, _, _, _, _, _, _⟩ => id :: lineages parents

def lineages : List NativeClass → List NativeId
  | [] => []
  | p :: ps => p.lineage ++ lineages ps

end

mutual

/-- Names of the class and of all its ancestors. -/
def ancestry : NativeClass → List String
  | ⟨_, name, parents, _, _, _, _, _, _, _⟩ => name :: ancestries parents

def ancestries : List NativeClass → List String
  | [] => []
  | p :: ps => p.ancestry ++ ancestries ps

end

mutual

/-- Number of storage segments, one for each class of the hierarchy. -/
def segmentCount : NativeClass → Nat
  | ⟨_, _, parents, _, _, _, _, _, _, _⟩ => segmentCounts parents + 1

def segmentCounts : List NativeClass → Nat
  | [] => 0
  | p :: ps => p.segmentCount + segmentCounts ps

end

mutual

/-- The classes of the hierarchy in storage order, parents before the class. -/
def flatten : NativeClass → List NativeClass
  | c@⟨_, _, parents, _, _, _, _, _, _, _⟩ => flattenAll parents ++ [c]

def flattenAll : List NativeClass → List NativeClass
  | [] => []
  | p :: ps => p.flatten ++ flattenAll ps

end

mutual

/-- Overloads of a non-virtual method with the class that declares them: the
own ones, else those of the first parent that has any. -/
def findMethod? (name : String) : NativeClass → Option (NativeId × List MethodDecl)
  | ⟨id, _, parents, _, _, _, methods, _, _, _⟩ =>
      match methods.filter (fun d => d.name = name) with
      | [] => findMethodAmong? name parents
      | own => some (id, own)

def findMethodAmong? (name : String) : List NativeClass → Option (NativeId × List MethodDecl)
  | [] => none
  | p :: ps =>
      match p.findMethod? name with
      | some found => some found
      | none => findMethodAmong? name ps

end

mutual

/-- Whether a member of this name can be seen in the class or an ancestor. -/
def hasVisibleMember (name : String) (fromDerived : Bool) : NativeClass → Bool
  | ⟨_, _, parents, members, _, _, _, _, _, _⟩ =>
      members.any (fun d => d.name = name && d.access.visible fromDerived)
        || anyHasVisibleMember name fromDerived parents

def anyHasVisibleMember (name : String) (fromDerived : Bool) : List NativeClass → Bool
  | [] => false
  | p :: ps => p.hasVisibleMember name fromDerived || anyHasVisibleMember name fromDerived ps

end

mutual

/-- The segments that are destroyed with the class, in order: the class before
its parents, and of those the last before the first. -/
def destruction : NativeClass → List NativeClass
  | c@⟨_, _, parents, _, _, _, _, _, _, _⟩ => c :: destructionAll parents

/-- The segments destroyed with a list of classes, the last class first. -/
def destructionAll : List NativeClass → List NativeClass
  | [] => []
  | p :: ps => destructionAll ps ++ p.destruction

end

end NativeClass

end TwinObject
