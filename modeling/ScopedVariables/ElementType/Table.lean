import ScopedVariables.ElementType.Descriptor
import Std.Data.TreeMap

/-! The table of registered element types.

A type's handle is its position in the order of registration. A second index
finds the handle by name, so that each name is registered once at most. -/

namespace ScopedVariables

inductive TypeTableError where
  | duplicate (name : String)
  | overflow (count : Nat)
  deriving DecidableEq, Repr

def TypeTableError.message : TypeTableError → String
  | .duplicate name => "type `" ++ name ++ "` is already registered"
  | .overflow count =>
      "type table exceeded capacity: " ++ toString count ++ " types"

structure TypeTable where
  descriptors : Array TypeDescriptor
  byName : Std.TreeMap String TypeId

namespace TypeTable

def empty : TypeTable := ⟨#[], ∅⟩

def size (table : TypeTable) : Nat := table.descriptors.size

def isEmpty (table : TypeTable) : Bool := table.descriptors.isEmpty

def get? (table : TypeTable) (id : TypeId) : Option TypeDescriptor :=
  table.descriptors[id.index]?

def lookup (table : TypeTable) (name : String) : Option TypeDescriptor :=
  table.byName[name]?.bind table.get?

def push (table : TypeTable) (descriptor : TypeDescriptor) : TypeTable where
  descriptors := table.descriptors.push descriptor
  byName := table.byName.insert descriptor.name descriptor.id

/-- Register a type under the next free handle. A name already taken is
reported before a table that has no handle left. -/
def register (table : TypeTable) (name : String) (members : List Member) :
    Except TypeTableError (TypeId × TypeTable) :=
  if name ∈ table.byName then
    .error (.duplicate name)
  else if table.size < UInt32.size then
    let id : TypeId := ⟨UInt32.ofNat table.size⟩
    .ok (id, table.push { id, name, members })
  else
    .error (.overflow table.size)

/-! ## What each operation does to the two indexes -/

theorem get?_push (table : TypeTable) (descriptor : TypeDescriptor)
    (id : TypeId) :
    (table.push descriptor).get? id =
      if id.index = table.size then some descriptor else table.get? id :=
  Array.getElem?_push

theorem register_duplicate {table : TypeTable} {name : String}
    (taken : name ∈ table.byName) (members : List Member) :
    table.register name members = .error (.duplicate name) := by
  simp [register, taken]

theorem register_fresh {table : TypeTable} {name : String}
    (fresh : name ∉ table.byName) (room : table.size < UInt32.size)
    (members : List Member) :
    table.register name members =
      .ok (⟨UInt32.ofNat table.size⟩,
        table.push { id := ⟨UInt32.ofNat table.size⟩, name, members }) := by
  simp [register, fresh, room]

end TypeTable

end ScopedVariables
