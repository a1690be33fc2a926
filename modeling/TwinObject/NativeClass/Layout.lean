/-
Storage layout of an instance with one or more native bases: every base owns
one contiguous range of segments, so members of the same name never collide.
-/
import TwinObject.NativeClass.Basic

namespace TwinObject

/-- A base and the half-open range of its segments. -/
structure BaseRange where
  base : NativeClass
  start : Nat
  stop : Nat
deriving Inhabited

/-- Place of a member: its segment and its index there. -/
structure Place where
  segment : Nat
  index : Nat
deriving DecidableEq, Repr, Inhabited

structure Layout where
  segments : List NativeClass
  bases : List BaseRange
deriving Inhabited

namespace Layout

/-- Ranges of bases that are laid out one after another from `start` on. -/
def ranges : Nat → List NativeClass → List BaseRange
  | _, [] => []
  | start, b :: bs =>
      let stop := start + b.flatten.length
      ⟨b, start, stop⟩ :: ranges stop bs

def of (bases : List NativeClass) : Layout :=
  ⟨bases.flatMap NativeClass.flatten, ranges 0 bases⟩

def baseCount (l : Layout) : Nat :=
  l.bases.length

/-- Position of a base, found by its id. -/
def baseIndex? (l : Layout) (c : NativeClass) : Option Nat :=
  l.bases.findIdx? (fun b => b.base.id = c.id)

def baseRange? (l : Layout) (index : Nat) : Option BaseRange :=
  l.bases[index]?

/-- The segments of a range in storage order. -/
def segmentsIn (l : Layout) (b : BaseRange) : List NativeClass :=
  (l.segments.take b.stop).drop b.start

/-- The segments of a range with their positions, the most derived first. -/
def segmentsDown (l : Layout) (b : BaseRange) : List (NativeClass × Nat) :=
  ((l.segmentsIn b).zipIdx b.start).reverse

/-- Values of all members before any constructor runs. -/
def defaultStorage (l : Layout) : List (List NativeValue) :=
  l.segments.map NativeClass.defaultSegment

/-- The first eligible member of a name: bases are searched in order, and
within a base the most derived class comes first. -/
def findMemberWhere? (l : Layout) (name : String) (eligible : MemberDecl → Bool) : Option Place :=
  l.bases.findSome? fun b =>
    (l.segmentsDown b).findSome? fun (c, segment) =>
      (c.members.findIdx? (fun d => d.name = name && eligible d)).map (Place.mk segment)

/-- Locate a member whatever its access. -/
def findMember? (l : Layout) (name : String) : Option Place :=
  l.findMemberWhere? name (fun _ => true)

/-- Locate a member that dynamic code can see. -/
def findVisibleMember? (l : Layout) (name : String) (fromDerived : Bool) : Option Place :=
  l.findMemberWhere? name (fun d => d.access.visible fromDerived)

/-- Locate a member declared by a class of the given name. -/
def findMemberIn? (l : Layout) (className name : String) : Option Place :=
  l.segments.zipIdx.findSome? fun (c, segment) =>
    if c.name = className then (c.memberIndex? name).map (Place.mk segment) else none

def memberDecl? (l : Layout) (p : Place) : Option MemberDecl := do
  let c ← l.segments[p.segment]?
  c.members[p.index]?

/-- Overloads of a non-virtual method, from the first base that has any. -/
def findMethod? (l : Layout) (name : String) : Option (NativeId × List MethodDecl) :=
  l.bases.findSome? (fun b => b.base.findMethod? name)

def isA (l : Layout) (name : String) : Bool :=
  l.segments.any (fun c => c.name = name)

end Layout

end TwinObject
