import ScopedVariables.ElementType.Descriptor
import ScopedVariables.Variable.Payload

/-! # Variables

A variable has a name, a scope (or none: the undefined scope), a shape, an
element type and as many payloads as shape and type ask for. It may also carry
an internal value, a byte string of which only the presence is ever logged.

A variable is built by `Variable.ofValues` or one of its two special cases.
Its place among other variables belongs to the store that holds it. -/

namespace ScopedVariables

inductive Shape where
  | scalar
  | array (length : Nat)
  deriving DecidableEq, Repr, Inhabited

namespace Shape

def payloadCount (descriptor : TypeDescriptor) : Shape → Nat
  | .scalar => descriptor.memberCount
  | .array length => length

def arrayLength? : Shape → Option Nat
  | .scalar => none
  | .array length => some length

def isArray (shape : Shape) : Bool := shape.arrayLength?.isSome

def text : Shape → String
  | .scalar => "Scalar"
  | .array length => "Array(" ++ toString length ++ ")"

end Shape

inductive VariableError where
  | emptyName
  | emptyArray (name : String)
  | payloadCount (name : String) (expected found : Nat)
  deriving DecidableEq, Repr

def VariableError.message : VariableError → String
  | .emptyName => "variable name must not be empty"
  | .emptyArray name =>
      "array `" ++ name ++ "` must have at least one element"
  | .payloadCount name expected found =>
      "variable `" ++ name ++ "` expects " ++ toString expected ++
        " payloads, got " ++ toString found

structure Variable where
  name : String
  scope : Option ScopeId
  shape : Shape
  elementType : TypeId
  values : List Payload
  internal : Option ByteArray
  deriving DecidableEq, Inhabited

namespace Variable

/-- Build a variable around `values`. An empty name is reported before an
array of no elements, and both before a wrong number of payloads. -/
def ofValues (name : String) (scope : Option ScopeId)
    (descriptor : TypeDescriptor) (shape : Shape) (values : List Payload) :
    Except VariableError Variable :=
  let expected := shape.payloadCount descriptor
  if name = "" then
    .error .emptyName
  else if shape = .array 0 then
    .error (.emptyArray name)
  else if values.length = expected then
    .ok { name, scope, shape, elementType := descriptor.id, values, internal := none }
  else
    .error (.payloadCount name expected values.length)

def scalar (name : String) (scope : Option ScopeId)
    (descriptor : TypeDescriptor) : Except VariableError Variable :=
  ofValues name scope descriptor .scalar
    (List.replicate descriptor.memberCount .empty)

def array (name : String) (scope : Option ScopeId)
    (descriptor : TypeDescriptor) (length : Nat) :
    Except VariableError Variable :=
  ofValues name scope descriptor (.array length)
    (List.replicate length .empty)

def payloadCount (var : Variable) : Nat := var.values.length

def value? (var : Variable) (index : Nat) : Option Payload :=
  var.values[index]?

/-! ## When a variable is built -/

theorem ofValues_eq_ok_iff {name : String} {scope : Option ScopeId}
    {descriptor : TypeDescriptor} {shape : Shape} {values : List Payload}
    {var : Variable} :
    ofValues name scope descriptor shape values = .ok var ↔
      (name ≠ "" ∧ shape ≠ .array 0 ∧
        values.length = shape.payloadCount descriptor) ∧
      var = ⟨name, scope, shape, descriptor.id, values, none⟩ := by
  unfold ofValues
  by_cases named : name = ""
  · simp [named]
  by_cases inhabited : shape = .array 0
  · simp [named, inhabited]
  by_cases count : values.length = shape.payloadCount descriptor
  · simp [named, inhabited, count, eq_comm]
  · simp [named, inhabited, count]

end Variable

end ScopedVariables
