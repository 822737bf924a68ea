import ScopedVariables.Variable.Basic

/-! Writes change a variable in place: the bytes of one payload, or the
internal value. Name, scope, shape and type of a variable never change, so a
write leaves the chains of a store as they are. -/

namespace ScopedVariables.Variable

inductive Write where
  | value (index : Nat) (bytes : ByteArray)
  | setInternal (bytes : ByteArray)
  | takeInternal
  deriving DecidableEq

/-- Apply a write. A payload index out of range changes nothing. -/
def write (var : Variable) : Write → Variable
  | .value index bytes =>
      { var with values := var.values.modify index (·.set bytes) }
  | .setInternal bytes => { var with internal := some bytes }
  | .takeInternal => { var with internal := none }

def replaced (var : Variable) : Write → Option ByteArray
  | .value index _ => (var.value? index).map Payload.bytes
  | .setInternal _ | .takeInternal => var.internal

/-! ## What a write keeps -/

variable (var : Variable) (write : Write)

@[simp] theorem name_write : (var.write write).name = var.name := by
  cases write <;> rfl

@[simp] theorem scope_write : (var.write write).scope = var.scope := by
  cases write <;> rfl

@[simp] theorem shape_write : (var.write write).shape = var.shape := by
  cases write <;> rfl

@[simp] theorem elementType_write :
    (var.write write).elementType = var.elementType := by
  cases write <;> rfl

@[simp] theorem payloadCount_write :
    (var.write write).payloadCount = var.payloadCount := by
  cases write <;> simp [Variable.write, payloadCount]

/-! ## What is read after a write

A write is told by what is read of the variable before and after it, and by the
bytes that it replaces. No other variable would be read so. -/

theorem value?_write_value (index other : Nat) (bytes : ByteArray) :
    (var.write (.value index bytes)).value? other =
      if other = index ∧ other < var.payloadCount then some ⟨bytes⟩
      else var.value? other := by
  rw [Variable.write, value?, value?, payloadCount, List.getElem?_modify]
  by_cases inRange : other < var.values.length
  · rw [List.getElem?_eq_getElem inRange, Option.map_eq_map, Option.map_some]
    by_cases same : other = index
    · rw [if_pos same.symm, if_pos ⟨same, inRange⟩, Payload.set]
    · rw [if_neg fun equal => same equal.symm, if_neg fun both => same both.1]
  · rw [List.getElem?_eq_none (Nat.not_lt.mp inRange), if_neg fun both => inRange both.2]
    rfl

structure Overwrites (before : Variable) (write : Write) (old : Option ByteArray)
    (after : Variable) : Prop where
  name_eq : after.name = before.name
  scope_eq : after.scope = before.scope
  shape_eq : after.shape = before.shape
  elementType_eq : after.elementType = before.elementType
  payloadCount_eq : after.payloadCount = before.payloadCount
  reads : match write with
    | .value index bytes =>
        (∀ other, after.value? other =
          if other = index ∧ other < before.payloadCount then some ⟨bytes⟩
          else before.value? other) ∧
        after.internal = before.internal ∧
        old = (before.value? index).map Payload.bytes
    | .setInternal bytes =>
        (∀ index, after.value? index = before.value? index) ∧
        after.internal = some bytes ∧ old = before.internal
    | .takeInternal =>
        (∀ index, after.value? index = before.value? index) ∧
        after.internal = none ∧ old = before.internal

theorem overwrites_write : var.Overwrites write (var.replaced write) (var.write write) where
  name_eq := var.name_write write
  scope_eq := var.scope_write write
  shape_eq := var.shape_write write
  elementType_eq := var.elementType_write write
  payloadCount_eq := var.payloadCount_write write
  reads := by
    cases write with
    | value index bytes =>
        exact ⟨fun other => var.value?_write_value index other bytes, rfl, rfl⟩
    | setInternal | takeInternal => exact ⟨fun _ => rfl, rfl, rfl⟩

theorem ext_value? {left right : Variable} (name_eq : left.name = right.name)
    (scope_eq : left.scope = right.scope) (shape_eq : left.shape = right.shape)
    (elementType_eq : left.elementType = right.elementType)
    (value?_eq : ∀ index, left.value? index = right.value? index)
    (internal_eq : left.internal = right.internal) : left = right := by
  cases left
  cases right
  rw [Variable.mk.injEq]
  exact ⟨name_eq, scope_eq, shape_eq, elementType_eq,
    List.ext_getElem? value?_eq, internal_eq⟩

theorem overwrites_iff {before after : Variable} {write : Write} {old : Option ByteArray} :
    before.Overwrites write old after ↔
      old = before.replaced write ∧ after = before.write write := by
  constructor
  · rintro ⟨name_eq, scope_eq, shape_eq, elementType_eq, _, reads⟩
    have written := before.overwrites_write write
    have same : (∀ index, after.value? index = (before.write write).value? index) ∧
        after.internal = (before.write write).internal ∧ old = before.replaced write := by
      cases write with
      | value index bytes =>
          exact ⟨fun other => (reads.1 other).trans (written.reads.1 other).symm, reads.2⟩
      | setInternal | takeInternal => exact reads
    refine ⟨same.2.2, ext_value? (name_eq.trans written.name_eq.symm)
      (scope_eq.trans written.scope_eq.symm) (shape_eq.trans written.shape_eq.symm)
      (elementType_eq.trans written.elementType_eq.symm) same.1 same.2.1⟩
  · rintro ⟨rfl, rfl⟩
    exact before.overwrites_write write

end ScopedVariables.Variable
