import Mathlib.Logic.Basic
import ScopedVariables.ElementType.Table

/-! # Registration

A table comes about by registering types one after another. The handle of a
type is then its place in the order of registration, the index by name leads to
the type of that name, and neither is changed by later registrations. -/

namespace ScopedVariables

theorem TypeId.index_injective {left right : TypeId}
    (same : left.index = right.index) : left = right := by
  cases left
  cases right
  exact congrArg TypeId.mk (UInt32.toNat_inj.mp same)

namespace TypeTable

inductive Registered : TypeTable → Prop
  | empty : Registered empty
  | register {table after name members id} : Registered table →
      table.register name members = .ok (id, after) → Registered after

section Register

variable {table after : TypeTable} {name : String} {members : List Member}
  {id : TypeId}

theorem register_eq_ok (registers : table.register name members = .ok (id, after)) :
    name ∉ table.byName ∧ id.index = table.size ∧
      after = table.push { id, name, members } := by
  rw [register] at registers
  split at registers
  · cases registers
  · rename_i fresh
    split at registers
    · rename_i room
      cases registers
      exact ⟨fresh, TypeId.index_ofNat room, rfl⟩
    · cases registers

theorem descriptors_register
    (registers : table.register name members = .ok (id, after)) :
    after.descriptors = table.descriptors.push { id, name, members } := by
  rw [(register_eq_ok registers).2.2]
  rfl

theorem get?_register (registers : table.register name members = .ok (id, after))
    {type : TypeId} {descriptor : TypeDescriptor}
    (found : table.get? type = some descriptor) :
    after.get? type = some descriptor := by
  have inside : type.index < table.size :=
    (Array.getElem?_eq_some_iff.mp found).1
  rw [(register_eq_ok registers).2.2, get?_push, if_neg (Nat.ne_of_lt inside)]
  exact found

end Register

/-! ## The two indexes -/

theorem byName_push (table : TypeTable) (descriptor : TypeDescriptor)
    (name : String) :
    (table.push descriptor).byName[name]? =
      if descriptor.name = name then some descriptor.id
      else table.byName[name]? := by
  simp only [push, Std.TreeMap.getElem?_insert, Std.compare_eq_iff_eq]

structure Indexed (table : TypeTable) : Prop where
  index_eq : ∀ {position : Nat} {descriptor : TypeDescriptor},
    table.descriptors[position]? = some descriptor → descriptor.id.index = position
  byName_iff : ∀ {name id}, table.byName[name]? = some id ↔
    ∃ descriptor, table.get? id = some descriptor ∧ descriptor.name = name

namespace Indexed

variable {table : TypeTable}

theorem empty : TypeTable.empty.Indexed where
  index_eq := by simp [TypeTable.empty]
  byName_iff := by simp [TypeTable.empty, get?]

theorem push (indexed : table.Indexed) {descriptor : TypeDescriptor}
    (fresh : descriptor.name ∉ table.byName)
    (next : descriptor.id.index = table.size) :
    (table.push descriptor).Indexed where
  index_eq := by
    intro position found inTable
    rw [TypeTable.push, Array.getElem?_push] at inTable
    split at inTable
    · rename_i isLast
      cases inTable
      exact next.trans isLast.symm
    · exact indexed.index_eq inTable
  byName_iff := by
    intro name id
    rw [byName_push, get?_push]
    rcases Decidable.eq_or_ne descriptor.name name with rfl | otherName
    · rw [if_pos rfl, Option.some.injEq]
      constructor
      · rintro rfl
        exact ⟨descriptor, if_pos next, rfl⟩
      · rintro ⟨found, inTable, sameName⟩
        split at inTable
        · rename_i isLast
          exact TypeId.index_injective (next.trans isLast.symm)
        · refine absurd ?_ fresh
          rw [Std.TreeMap.mem_iff_isSome_getElem?,
            indexed.byName_iff.mpr ⟨found, inTable, sameName⟩]
          rfl
    · rw [if_neg otherName, indexed.byName_iff]
      split
      · rename_i isLast
        have absent : table.get? id = none := by
          rw [get?, isLast]
          exact Array.getElem?_size
        simp [absent, otherName]
      · rfl

end Indexed

theorem Registered.indexed {table : TypeTable} (registered : table.Registered) :
    table.Indexed := by
  induction registered with
  | empty => exact .empty
  | register _ registers induction =>
      rcases register_eq_ok registers with ⟨fresh, next, rfl⟩
      exact induction.push fresh next

namespace Indexed

variable {table : TypeTable} {descriptor : TypeDescriptor}

theorem mem_descriptors_iff (indexed : table.Indexed) :
    descriptor ∈ table.descriptors ↔ table.get? descriptor.id = some descriptor := by
  rw [Array.mem_iff_getElem?]
  constructor
  · rintro ⟨position, found⟩
    rw [get?, indexed.index_eq found]
    exact found
  · intro found
    exact ⟨_, found⟩

theorem get?_id (indexed : table.Indexed) {type : TypeId}
    (found : table.get? type = some descriptor) :
    table.get? descriptor.id = some descriptor :=
  indexed.mem_descriptors_iff.mp (Array.mem_iff_getElem?.mpr ⟨_, found⟩)

theorem lookup_eq_some_iff (indexed : table.Indexed) {name : String} :
    table.lookup name = some descriptor ↔
      descriptor ∈ table.descriptors ∧ descriptor.name = name := by
  rw [lookup, Option.bind_eq_some_iff, indexed.mem_descriptors_iff]
  constructor
  · rintro ⟨id, named, found⟩
    rcases indexed.byName_iff.mp named with ⟨other, alsoFound, otherName⟩
    rw [found] at alsoFound
    cases alsoFound
    exact ⟨indexed.get?_id found, otherName⟩
  · rintro ⟨found, isNamed⟩
    exact ⟨descriptor.id, indexed.byName_iff.mpr ⟨descriptor, found, isNamed⟩, found⟩

theorem lookup_eq_none_iff (indexed : table.Indexed) {name : String} :
    table.lookup name = none ↔
      ∀ descriptor, descriptor ∈ table.descriptors → descriptor.name ≠ name := by
  rw [Option.eq_none_iff_forall_ne_some]
  constructor
  · intro missing descriptor member isNamed
    exact missing descriptor (indexed.lookup_eq_some_iff.mpr ⟨member, isNamed⟩)
  · intro otherNames descriptor found
    rcases indexed.lookup_eq_some_iff.mp found with ⟨member, isNamed⟩
    exact otherNames descriptor member isNamed

end Indexed

end TypeTable

end ScopedVariables
