import ScopedVariables.Handle

/-! An element type is an ordered list of named, sized members. -/

namespace ScopedVariables

structure Member where
  name : String
  size : Nat
  deriving DecidableEq, Repr, Inhabited

structure TypeDescriptor where
  id : TypeId
  name : String
  members : List Member
  deriving DecidableEq, Repr, Inhabited

def TypeDescriptor.memberCount (descriptor : TypeDescriptor) : Nat :=
  descriptor.members.length

end ScopedVariables
