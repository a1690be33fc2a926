/-
Virtual tables: lists of slots in which no key occurs twice.  A table is built
from those of the parents, and then from a class's own declarations; a call by
name picks the slot that its arguments fit best.
-/
import TwinObject.Code

namespace TwinObject

/-- A virtual slot; one without a body is pure. -/
structure Slot where
  key : SlotKey
  ret : NativeType
  declaredIn : String
  body : Option NativeExpr
deriving Inhabited

def Slot.isPure (slot : Slot) : Bool :=
  slot.body.isNone

/-- The slots of a class, in index order. -/
structure VTable where
  slots : List Slot
deriving Inhabited

namespace VTable

def empty : VTable := ⟨[]⟩

def size (table : VTable) : Nat :=
  table.slots.length

def get? (table : VTable) (index : Nat) : Option Slot :=
  table.slots[index]?

/-- Index of the slot with exactly this key. -/
def position? (table : VTable) (key : SlotKey) : Option Nat :=
  table.slots.findIdx? (fun slot => slot.key = key)

def slotsNamed (table : VTable) (name : String) : List (Nat × Slot) :=
  table.slots.zipIdx.filterMap fun (slot, index) =>
    if slot.key.name = name then some (index, slot) else none

def hasMethod (table : VTable) (name : String) : Bool :=
  table.slots.any (fun slot => slot.key.name = name)

def firstPure? (table : VTable) : Option Slot :=
  table.slots.find? Slot.isPure

/-- The slot with the key of `slot`, and its index. -/
def inherited? (table : VTable) (slot : Slot) : Option (Nat × Slot) := do
  let index ← table.position? slot.key
  return (index, ← table.get? index)

def push (table : VTable) (slot : Slot) : VTable :=
  ⟨table.slots ++ [slot]⟩

def replace (table : VTable) (index : Nat) (slot : Slot) : VTable :=
  ⟨table.slots.set index slot⟩

/-- Take in a slot of a further base: of two with one key, an implementation
wins over a pure declaration, and differing return types are refused. -/
def mergeSlot (table : VTable) (slot : Slot) : Except Failure VTable :=
  match table.inherited? slot with
  | none => .ok (table.push slot)
  | some (index, existing) =>
      if existing.ret ≠ slot.ret then
        .error (.incompatibleSignature slot.key.text
          ("'" ++ existing.declaredIn ++ "' returns " ++ existing.ret.text ++ " but '"
            ++ slot.declaredIn ++ "' returns " ++ slot.ret.text))
      else if existing.isPure && !slot.isPure then .ok (table.replace index slot)
      else .ok table

/-- Merge the table of a further base into the one built so far. -/
def merge (table other : VTable) : Except Failure VTable :=
  other.slots.foldlM mergeSlot table

/-- Whether a slot may return `own` where the inherited one returns `old`: the
same type, or a pointer or reference to a subclass. -/
def compatibleReturn (isSubclass : String → String → Bool) (old own : NativeType) : Bool :=
  old = own ||
    match old, own with
    | .ptr base, .ptr derived | .ref base, .ref derived => isSubclass derived base
    | _, _ => false

/-- Override the inherited slot with the same key, keeping its index and its
return type, or append a new slot. -/
def overrideOrPush (isSubclass : String → String → Bool) (table : VTable) (slot : Slot) :
    Except Failure VTable :=
  match table.inherited? slot with
  | none => .ok (table.push slot)
  | some (index, existing) =>
      if compatibleReturn isSubclass existing.ret slot.ret then
        .ok (table.replace index { slot with ret := existing.ret })
      else
        .error (.incompatibleSignature slot.key.text
          ("return type " ++ slot.ret.text ++ " does not match " ++ existing.ret.text
            ++ " declared in '" ++ existing.declaredIn ++ "'"))

end VTable

/-- How strictly arguments must fit a parameter list. -/
inductive Fit where
  | exact
  | widening
deriving DecidableEq, Repr, Inhabited

/-- Every candidate is tried for an exact fit before any widening. -/
def Fit.order : List Fit := [.exact, .widening]

/-- A slot picked for a call, with the arguments converted to its types. -/
structure Selection where
  index : Nat
  args : List NativeValue
deriving Inhabited

section Resolve

variable {m : Type → Type} [Monad m]

/-- How the candidates of a call are tried: `convert` maps the call's arguments
onto a parameter list, `discard` lets go of converted arguments that no call
will get. -/
structure Conversion (m : Type → Type) where
  convert : List NativeType → Fit → m (Option (List NativeValue))
  discard : List NativeValue → m Unit

/-- Where a pass over the candidates stands: the first const slot that fits,
and whether a non-const one fitted that must not be called. -/
structure Candidates where
  pending : Option Selection := none
  blocked : Bool := false
  found : Option Selection := none
deriving Inhabited

/-- One pass over the slots of a name.  A non-const slot that fits ends it,
unless only const slots may be called. -/
def Candidates.scan (conv : Conversion m) (constOnly : Bool) (fit : Fit) :
    List (Nat × Slot) → Candidates → m Candidates
  | [], c => pure c
  | (index, slot) :: rest, c => do
      match ← conv.convert slot.key.params fit with
      | none => scan conv constOnly fit rest c
      | some args =>
          if slot.key.isConst then
            match c.pending with
            | none => scan conv constOnly fit rest { c with pending := some ⟨index, args⟩ }
            | some _ =>
                conv.discard args
                scan conv constOnly fit rest c
          else if constOnly then
            conv.discard args
            scan conv constOnly fit rest { c with blocked := true }
          else
            match c.pending with
            | none => pure ()
            | some other => conv.discard other.args
            pure { c with pending := none, found := some ⟨index, args⟩ }

/-- The passes in order, until one finds a slot. -/
def VTable.resolvePasses (table : VTable) (conv : Conversion m) (className name : String)
    (constOnly : Bool) : List Fit → Bool → m (Except Failure Selection)
  | [], blocked =>
      pure (.error
        (if blocked then .constViolation className name else .noSuchMethod className name))
  | fit :: fits, blocked => do
      let c ← Candidates.scan conv constOnly fit (table.slotsNamed name) { blocked }
      match c.found, c.pending with
      | some found, _ => pure (.ok found)
      | none, some pending => pure (.ok pending)
      | none, none => resolvePasses table conv className name constOnly fits c.blocked

/-- The slot a call by name reaches: exact fits win over widened ones, and in
either pass non-const slots over const ones. -/
def VTable.resolve (table : VTable) (conv : Conversion m) (className name : String)
    (constOnly : Bool) : m (Except Failure Selection) :=
  table.resolvePasses conv className name constOnly Fit.order false

end Resolve

end TwinObject
