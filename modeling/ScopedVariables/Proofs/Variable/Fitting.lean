import ScopedVariables.Proofs.ElementType.Registration
import ScopedVariables.Variable.Write

/-! # Variables that fit their type

A variable fits the descriptor it was built from if it has a name, if its
element type leads to that descriptor, and if it has the payloads that shape and
descriptor ask for. Building yields nothing else, and for the first reason of
three it yields nothing. Neither writes nor later registrations undo the fit. -/

namespace ScopedVariables.Variable

/-- Why no variable is built around `values`. Each reason leaves those before it
out. -/
inductive Refused (name : String) (descriptor : TypeDescriptor) (shape : Shape)
    (values : List Payload) : VariableError → Prop
  | emptyName : name = "" → Refused name descriptor shape values .emptyName
  | emptyArray : name ≠ "" → shape = .array 0 →
      Refused name descriptor shape values (.emptyArray name)
  | payloadCount : name ≠ "" → shape ≠ .array 0 →
      values.length ≠ shape.payloadCount descriptor →
      Refused name descriptor shape values
        (.payloadCount name (shape.payloadCount descriptor) values.length)

theorem ofValues_eq_error_iff {name : String} {scope : Option ScopeId}
    {descriptor : TypeDescriptor} {shape : Shape} {values : List Payload}
    {error : VariableError} :
    ofValues name scope descriptor shape values = .error error ↔
      Refused name descriptor shape values error := by
  constructor
  · intro refused
    rw [ofValues] at refused
    split at refused
    · rename_i unnamed
      cases refused
      exact .emptyName unnamed
    · rename_i named
      split at refused
      · rename_i isEmpty
        cases refused
        exact .emptyArray named isEmpty
      · rename_i inhabited
        split at refused
        · cases refused
        · rename_i miscounted
          cases refused
          exact .payloadCount named inhabited miscounted
  · intro refused
    cases refused with
    | emptyName unnamed => simp [ofValues, unnamed]
    | emptyArray named isEmpty => simp [ofValues, named, isEmpty]
    | payloadCount named inhabited miscounted =>
        simp [ofValues, named, inhabited, miscounted]

structure Fits (var : Variable) (types : TypeTable)
    (descriptor : TypeDescriptor) : Prop where
  name_ne : var.name ≠ ""
  get?_eq : types.get? var.elementType = some descriptor
  payloadCount_eq : var.payloadCount = var.shape.payloadCount descriptor
  length_pos : ∀ length, var.shape = .array length → 1 ≤ length
  isSome_value?_iff : ∀ index, (var.value? index).isSome ↔ index < var.payloadCount

theorem isSome_value?_iff (var : Variable) (index : Nat) :
    (var.value? index).isSome ↔ index < var.payloadCount := by
  simp [value?, payloadCount]

namespace Fits

variable {var : Variable} {types : TypeTable} {descriptor : TypeDescriptor}

theorem of_ofValues {name : String} {scope : Option ScopeId} {shape : Shape}
    {values : List Payload} (listed : types.get? descriptor.id = some descriptor)
    (built : ofValues name scope descriptor shape values = .ok var) :
    var.Fits types descriptor := by
  rcases ofValues_eq_ok_iff.mp built with ⟨⟨named, inhabited, counted⟩, rfl⟩
  refine ⟨named, listed, counted, ?_, Variable.isSome_value?_iff _⟩
  intro length isArray
  apply Nat.pos_of_ne_zero
  rintro rfl
  exact inhabited isArray

theorem write (fits : var.Fits types descriptor) (write : Write) :
    (var.write write).Fits types descriptor where
  name_ne := by
    rw [name_write]
    exact fits.name_ne
  get?_eq := by
    rw [elementType_write]
    exact fits.get?_eq
  payloadCount_eq := by
    rw [payloadCount_write, shape_write]
    exact fits.payloadCount_eq
  length_pos := by
    rw [shape_write]
    exact fits.length_pos
  isSome_value?_iff := Variable.isSome_value?_iff _

theorem register (fits : var.Fits types descriptor) {after : TypeTable}
    {name : String} {members : List Member} {id : TypeId}
    (registers : types.register name members = .ok (id, after)) :
    var.Fits after descriptor where
  name_ne := fits.name_ne
  get?_eq := TypeTable.get?_register registers fits.get?_eq
  payloadCount_eq := fits.payloadCount_eq
  length_pos := fits.length_pos
  isSome_value?_iff := fits.isSome_value?_iff

end Fits

end ScopedVariables.Variable
