/-
Attributes: names bound to dynamic values.  The order in which they are let go
is that of their names in a table, whatever the order in which they were bound.
-/
import TwinObject.Bindings
import TwinObject.NameTable
import TwinObject.Value

namespace TwinObject

structure Attributes where
  bindings : Bindings DynValue := []
  table : NameTable := {}
deriving Inhabited

namespace Attributes

/-- No attributes, with room for a number of them. -/
def withRoom (count : Nat) : Attributes :=
  { table := .withRoom count }

def get? (a : Attributes) (name : String) : Option DynValue :=
  a.bindings.get? name

def put (name : String) (v : DynValue) (a : Attributes) : Attributes :=
  ⟨a.bindings.put name v, a.table.add name⟩

/-- The bindings in the order in which they are let go. -/
def inOrder (a : Attributes) : Bindings DynValue :=
  a.bindings.mergeSort fun x y => a.table.placeOf x.1 ≤ a.table.placeOf y.1

/-- The handles in all attributes, in the order in which they are let go. -/
def handles (a : Attributes) : List Handle :=
  a.inOrder.flatMap (·.2.handles)

theorem get?_put_attribute (name other : String) (v : DynValue) (a : Attributes) :
    (a.put name v).get? other = if other = name then some v else a.get? other :=
  Bindings.get?_put name other v a.bindings

theorem inOrder_perm (a : Attributes) : a.inOrder.Perm a.bindings :=
  List.mergeSort_perm _ _

@[simp] theorem handles_empty : ({} : Attributes).handles = [] := by
  simp [handles, inOrder]

@[simp] theorem handles_withRoom (count : Nat) : (withRoom count).handles = [] := by
  simp [withRoom, handles, inOrder]

end Attributes

end TwinObject
