/-
Declaration of a native class: its parents must not share an ancestor, its
members must differ in name, and its slots must fit those it inherits.
-/
import TwinObject.NativeClass.Basic

namespace TwinObject

/-- A virtual method as a class declares it. -/
structure VirtualDecl where
  key : SlotKey
  ret : NativeType
  body : Option NativeExpr
deriving Inhabited

/-- All that the declaration of a native class says. -/
structure NativeDecl where
  name : String
  parents : List NativeClass := []
  members : List MemberDecl := []
  constructors : List Constructor := []
  virtuals : List VirtualDecl := []
  methods : List MethodDecl := []
  virtualDtor : Bool := false
  copyPolicy : CopyPolicy := .everyone
  hooks : List String := []
deriving Inhabited

/-- The first pair of list elements, in order of the earlier one, for which
`f` has an answer. -/
def firstPair? {α β : Type} (f : α → α → Option β) : List α → Option β
  | [] => none
  | a :: rest => (rest.findSome? (f a)).or (firstPair? f rest)

/-- An id in the lineage of both classes. -/
def NativeClass.sharedAncestor? (a b : NativeClass) : Option NativeId :=
  a.lineage.find? (fun id => b.lineage.contains id)

namespace NativeDecl

/-- The handles in the defaults of members and parameters. -/
def handles (d : NativeDecl) : List Handle :=
  d.members.flatMap MemberDecl.handles ++ d.constructors.flatMap Constructor.handles

/-- No two parents share an ancestor; an error names the ancestor's id by its
label. -/
def checkParents (d : NativeDecl) (labelOf : NativeId → String) : Except Failure Unit :=
  match firstPair? (fun a b => (a.sharedAncestor? b).map fun id => (a, b, id)) d.parents with
  | none => .ok ()
  | some (a, b, id) =>
      .error (.unsupportedComposition
        ("'" ++ d.name ++ "' has parents '" ++ a.name ++ "' and '" ++ b.name
          ++ "' sharing a base (InterfaceId(" ++ labelOf id ++ "))"))

/-- The first member whose name an earlier one has. -/
def firstRepeated? : List String → List MemberDecl → Option MemberDecl
  | _, [] => none
  | seen, d :: rest => if seen.contains d.name then some d else firstRepeated? (d.name :: seen) rest

def checkMembers (d : NativeDecl) : Except Failure Unit :=
  match firstRepeated? [] d.members with
  | none => .ok ()
  | some m =>
      .error (.incompatibleSignature (d.name ++ "::" ++ m.name) "data member declared twice")

/-- Names of the class and its ancestors, among which return types may vary. -/
def ancestry (d : NativeDecl) : List String :=
  d.name :: NativeClass.ancestries d.parents

def slotOf (d : NativeDecl) (v : VirtualDecl) : Slot :=
  ⟨v.key, v.ret, d.name, v.body⟩

/-- The parents' tables merged in order, then the own slots. -/
def buildTable (d : NativeDecl) : Except Failure VTable := do
  let inherited ← d.parents.foldlM (fun table p => table.merge p.vtable) VTable.empty
  let related := fun derived base => d.ancestry.contains derived && d.ancestry.contains base
  (d.virtuals.map d.slotOf).foldlM (VTable.overrideOrPush related) inherited

/-- Freeze a declaration into a class. -/
def build (d : NativeDecl) (labelOf : NativeId → String) (id : NativeId) :
    Except Failure NativeClass := do
  d.checkParents labelOf
  d.checkMembers
  let vtable ← d.buildTable
  return {
    id := id
    name := d.name
    parents := d.parents
    members := d.members
    constructors := d.constructors
    vtable := vtable
    methods := d.methods
    virtualDtor := d.virtualDtor || d.parents.any NativeClass.virtualDtor
    copyPolicy := d.copyPolicy
    hooks := d.hooks }

end NativeDecl

end TwinObject
