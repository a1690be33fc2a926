/-
Dynamic classes: a chain of definitions over an ordered composition of native
bases.  The composition gives the merged virtual table and the layout.
-/
import TwinObject.NativeClass.Layout
import TwinObject.NativeClass.Declare

namespace TwinObject

/-- Identity of an interpreter, in order of creation. -/
abbrev InterpId := Nat

/-- Identity of a dynamic class, in order of declaration. -/
abbrev ClassId := Nat

/-- Ordered native bases with their merged virtual table. -/
structure Composition where
  bases : List NativeClass
  vtable : VTable
deriving Inhabited

namespace Composition

def single (base : NativeClass) : Composition :=
  ⟨[base], base.vtable⟩

/-- Compose bases that share no ancestor. -/
def compose : List NativeClass → Except Failure Composition
  | [] => .error (.unsupportedComposition "at least one native base is required")
  | [only] => .ok (single only)
  | bases =>
      match firstPair? (fun a b => (a.sharedAncestor? b).map fun _ => (a, b)) bases with
      | some (a, b) =>
          .error (.unsupportedComposition
            ("bases '" ++ a.name ++ "' and '" ++ b.name ++ "' overlap"))
      | none => do
          let vtable ← bases.foldlM (fun table b => table.merge b.vtable) VTable.empty
          return ⟨bases, vtable⟩

def layout (c : Composition) : Layout :=
  .of c.bases

/-- Whether a base is, or derives from, a class of the given name. -/
def contains (c : Composition) (name : String) : Bool :=
  c.bases.any (NativeClass.isA name)

end Composition

/-- A method of a dynamic class; without an arity it takes any arguments. -/
structure Method where
  name : String
  arity : Option Nat
  body : DynExpr
deriving Inhabited

namespace Method

def accepts (m : Method) (count : Nat) : Bool :=
  match m.arity with
  | none => true
  | some n => n = count

/-- The complaint about a call with the wrong number of arguments. -/
def arityError? (m : Method) (className : String) (count : Nat) : Option Thrown :=
  match m.arity with
  | some n =>
      if n = count then none
      else some (.typeError (className ++ "." ++ m.name ++ "() takes " ++ toString n
        ++ " arguments but " ++ toString count ++ " were given"))
  | none => none

end Method

/-- What one dynamic class defines itself. -/
structure ClassDef where
  id : ClassId
  name : String
  interp : InterpId
  methods : List Method
  initializer : Option DynExpr
deriving Inhabited

/-- The last definition of a name counts. -/
def ClassDef.method? (d : ClassDef) (name : String) : Option Method :=
  d.methods.reverse.find? (fun m => m.name = name)

/-- A dynamic class: its own definition and those of its dynamic ancestors,
nearest first. -/
structure DynamicClass where
  own : ClassDef
  ancestors : List ClassDef
  composition : Composition
  warnings : List LifetimeWarning
deriving Inhabited

namespace DynamicClass

def id (c : DynamicClass) : ClassId := c.own.id

def name (c : DynamicClass) : String := c.own.name

def interp (c : DynamicClass) : InterpId := c.own.interp

/-- The definitions in the order in which names are looked up. -/
def chain (c : DynamicClass) : List ClassDef :=
  c.own :: c.ancestors

def vtable (c : DynamicClass) : VTable :=
  c.composition.vtable

def parentName? (c : DynamicClass) : Option String :=
  c.ancestors.head?.map ClassDef.name

/-- Names of the direct bases. -/
def baseNames (c : DynamicClass) : List String :=
  match c.parentName? with
  | some parent => [parent]
  | none => c.composition.bases.map NativeClass.name

/-- The method of the nearest class that defines the name. -/
def findMethod? (c : DynamicClass) (name : String) : Option Method :=
  c.chain.findSome? (fun d => d.method? name)

/-- The initializer of the nearest class that has one. -/
def findInitializer? (c : DynamicClass) : Option DynExpr :=
  c.chain.findSome? ClassDef.initializer

/-- The method that overrides a slot: one of another arity does not. -/
def override? (c : DynamicClass) (slot : Slot) : Option Method :=
  (c.findMethod? slot.key.name).filter (fun m => m.accepts slot.key.arity)

/-- Whether an instance could be created although the slot is pure. -/
def implements (c : DynamicClass) (slot : Slot) : Bool :=
  match c.findMethod? slot.key.name with
  | none => false
  | some m => m.accepts slot.key.arity

/-- The first pure slot without a method that fits it. -/
def missingOverride? (c : DynamicClass) : Option Slot :=
  c.vtable.slots.find? (fun slot => slot.isPure && !c.implements slot)

def isAbstract (c : DynamicClass) : Bool :=
  c.missingOverride?.isSome

def isA (c : DynamicClass) (name : String) : Bool :=
  c.chain.any (fun d => d.name = name) || c.composition.contains name

end DynamicClass

/-- What a dynamic class derives from. -/
inductive BaseSpec where
  | native (base : NativeClass)
  | composed (bases : List NativeClass)
  | dynamic (parent : DynamicClass)
deriving Inhabited

/-- All that the declaration of a dynamic class says, its attributes apart. -/
structure ClassDecl where
  name : String
  base : Option BaseSpec
  methods : List Method := []
  initializer : Option DynExpr := none
deriving Inhabited

namespace ClassDecl

/-- The composition a declaration builds on, and the parent's chain. -/
def foundation (d : ClassDecl) : Except Failure (Composition × List ClassDef) :=
  match d.base with
  | none => .error (.unsupportedComposition ("'" ++ d.name ++ "' names no base class"))
  | some (.native base) => .ok (.single base, [])
  | some (.composed bases) => (Composition.compose bases).map fun c => (c, [])
  | some (.dynamic parent) => .ok (parent.composition, parent.chain)

/-- Whether the declaration names native bases itself. -/
def namesNativeBases (d : ClassDecl) : Bool :=
  match d.base with
  | some (.native _) | some (.composed _) => true
  | _ => false

/-- A method must not hide a member, and one with a fixed arity must fit some
virtual method of its name, if there are any. -/
def checkMethod (d : ClassDecl) (c : Composition) (m : Method) : Except Failure Unit :=
  let label := d.name ++ "." ++ m.name
  if (c.layout.findMember? m.name).isSome then
    .error (.incompatibleSignature label "name is already a native data member")
  else
    match m.arity with
    | none => .ok ()
    | some n =>
        let arities := (c.vtable.slotsNamed m.name).map fun (_, slot) => slot.key.arity
        if arities.isEmpty || arities.contains n then .ok ()
        else .error (.incompatibleSignature label
          ("override takes " ++ toString n ++ " arguments, virtual method takes ["
            ++ ", ".intercalate (arities.map toString) ++ "]"))

/-- The warning for the first direct native base without a virtual destructor. -/
def lifetimeWarning? (d : ClassDecl) (c : Composition) : Option LifetimeWarning :=
  if d.namesNativeBases then
    (c.bases.find? (fun b => !b.virtualDtor)).map fun b => ⟨d.name, b.name⟩
  else none

/-- Check a declaration and freeze it into a class. -/
def build (d : ClassDecl) (id : ClassId) (interp : InterpId) (warn : Bool) :
    Except Failure DynamicClass := do
  let (composition, ancestors) ← d.foundation
  d.methods.forM (d.checkMethod composition)
  let warnings := if warn then (d.lifetimeWarning? composition).toList else []
  return {
    own := { id, name := d.name, interp, methods := d.methods, initializer := d.initializer }
    ancestors
    composition
    warnings }

end ClassDecl

end TwinObject
