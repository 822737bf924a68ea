import ScopedVariables.Proofs.Store.Walk

/-! # A store stands for a sequence

A store represents a plain sequence if its handles resolve to exactly the
entries that the sequence gives them, and the stored head and count fit. Such a
store shows the sequence along its first chain and each scope along the second,
and every query can be answered from the sequence alone. -/

namespace ScopedVariables.Store

open Sequence (ids)

structure Represents (store : Store) (items : Sequence) : Prop where
  nodup : items.ids.Nodup
  resolve?_eq : ∀ id, store.resolve? id = items.entryOf id
  head_eq : store.head = items.ids.head?
  count_eq : store.count = items.length
  tidy : store.Tidy

theorem represents_empty : empty.Represents [] where
  nodup := .nil
  resolve?_eq := resolve?_empty
  head_eq := rfl
  count_eq := rfl
  tidy := tidy_empty

namespace Represents

variable {store : Store} {items : Sequence}

/-! ## Handles -/

theorem resolve?_eq_none_iff (represents : store.Represents items) {id : VarId} :
    store.resolve? id = none ↔ id ∉ items.ids := by
  rw [represents.resolve?_eq, Sequence.entryOf, Option.map_eq_none_iff]
  exact Sequence.lookup_eq_none_iff

theorem resolves_iff (represents : store.Represents items) {id : VarId} :
    (store.resolve? id).isSome ↔ id ∈ items.ids := by
  rw [Option.isSome_iff_ne_none, ne_eq, represents.resolve?_eq_none_iff]
  exact Decidable.not_not

theorem lookup_of_resolve? (represents : store.Represents items) {id : VarId}
    {entry : Entry} (found : store.resolve? id = some entry) :
    items.lookup id = some entry.var ∧
      entry.next = following? items.ids id ∧
      entry.nextInScope = following? (items.members entry.var.scope) id := by
  rw [represents.resolve?_eq] at found
  rcases Option.map_eq_some_iff.mp found with ⟨var, listed, rfl⟩
  exact ⟨listed, rfl, rfl⟩

theorem resolve?_of_lookup (represents : store.Represents items) {id : VarId}
    {var : Variable} (listed : items.lookup id = some var) :
    store.resolve? id = some
      { var
        next := following? items.ids id
        nextInScope := following? (items.members var.scope) id } := by
  rw [represents.resolve?_eq, Sequence.entryOf, listed]
  rfl

theorem get?_eq (represents : store.Represents items) (id : VarId) :
    store.get? id = items.lookup id := by
  rw [get?, represents.resolve?_eq, Sequence.entryOf, Option.map_map]
  exact Option.map_id_apply

theorem next?_eq (represents : store.Represents items) (id : VarId) :
    store.next? id = following? items.ids id := by
  rw [next?, represents.resolve?_eq, Sequence.entryOf]
  cases listed : items.lookup id with
  | none => exact (following?_of_not_mem (Sequence.lookup_eq_none_iff.mp listed)).symm
  | some var => rfl

theorem nextInScope?_eq (represents : store.Represents items) (id : VarId) :
    store.nextInScope? id = (items.lookup id).bind fun var =>
      following? (items.members var.scope) id := by
  rw [nextInScope?, represents.resolve?_eq, Sequence.entryOf]
  cases items.lookup id <;> rfl

/-! ## Chains -/

theorem shows_sequence (represents : store.Represents items) :
    store.Shows .sequence items := by
  apply shows_of_following? represents.nodup
  rintro ⟨id, var⟩ member
  have listed := Sequence.lookup_of_mem represents.nodup member
  exact ⟨_, represents.resolve?_of_lookup listed, rfl, rfl⟩

theorem shows_scope (represents : store.Represents items)
    (scope : Option ScopeId) : store.Shows .scope (items.ofScope scope) := by
  apply shows_of_following? (Sequence.nodup_members represents.nodup scope)
  rintro ⟨id, var⟩ member
  rcases List.mem_filter.mp member with ⟨inItems, belongs⟩
  have listed := Sequence.lookup_of_mem represents.nodup inItems
  refine ⟨_, represents.resolve?_of_lookup listed, rfl, ?_⟩
  have sameScope : var.scope = scope := of_decide_eq_true belongs
  rw [← sameScope]
  rfl

theorem length_le_size (represents : store.Represents items) :
    items.length ≤ store.slots.size :=
  represents.shows_sequence.length_le_size represents.nodup

theorem toList_eq (represents : store.Represents items) :
    store.toList = items :=
  represents.shows_sequence.toList represents.nodup represents.head_eq

theorem represents_toList (represents : store.Represents items) :
    store.Represents store.toList := by
  rw [represents.toList_eq]
  exact represents

theorem firstInScope_eq (represents : store.Represents items)
    (scope : ScopeId) :
    store.firstInScope (some scope) = (items.members (some scope)).head? := by
  rw [firstInScope, represents.toList_eq, Sequence.members, Sequence.ofScope, ids,
    List.head?_map, List.head?_filter]

theorem scopeList_eq (represents : store.Represents items) (scope : ScopeId) :
    store.scopeList scope = items.ofScope (some scope) := by
  rw [scopeList, scopeIter, represents.firstInScope_eq]
  exact (represents.shows_scope (some scope)).rest
    (Sequence.nodup_members represents.nodup (some scope))

theorem isEmpty_eq (represents : store.Represents items) :
    store.isEmpty = items.isEmpty := by
  rw [isEmpty, represents.head_eq]
  cases items <;> rfl

theorem findByName_eq (represents : store.Represents items) (name : String) :
    store.findByName name =
      if name = "" then none
      else (items.find? fun item => item.2.name = name).map Prod.fst := by
  rw [findByName, represents.toList_eq]

/-! ## The ends of the chains -/

theorem tail?_eq (represents : store.Represents items) :
    store.tail? = items.ids.getLast? := by
  rw [Store.tail?_eq, represents.toList_eq]

theorem scopeTail?_eq (represents : store.Represents items)
    (scope : Option ScopeId) :
    store.scopeTail? scope = (items.members scope).getLast? := by
  rw [Store.scopeTail?_eq, represents.toList_eq]

end Represents

/-! ## Stores of one sequence -/

/-- No query tells the two stores apart, as far as variables and links go. -/
structure LooksLike (after before : Store) : Prop where
  rows_eq : after.rows = before.rows
  iter_take : ∀ count,
    (after.iter.take after count).1 = (before.iter.take before count).1
  get?_eq : ∀ id, after.get? id = before.get? id
  next?_eq : ∀ id, after.next? id = before.next? id
  nextInScope?_eq : ∀ id, after.nextInScope? id = before.nextInScope? id
  count_eq : after.count = before.count

theorem Represents.looksLike {after before : Store} {items : Sequence}
    (representsAfter : after.Represents items)
    (representsBefore : before.Represents items) : after.LooksLike before where
  rows_eq := by
    have sameEntries : after.resolve? = before.resolve? := by
      funext id
      rw [representsAfter.resolve?_eq, representsBefore.resolve?_eq]
    rw [rows_eq_filterMap, rows_eq_filterMap, representsAfter.toList_eq,
      representsBefore.toList_eq, sameEntries]
  iter_take := by
    intro count
    rw [iter, iter, representsAfter.head_eq, representsBefore.head_eq,
      representsAfter.shows_sequence.take, representsBefore.shows_sequence.take]
  get?_eq := fun id => by rw [representsAfter.get?_eq, representsBefore.get?_eq]
  next?_eq := fun id => by rw [representsAfter.next?_eq, representsBefore.next?_eq]
  nextInScope?_eq := fun id => by
    rw [representsAfter.nextInScope?_eq, representsBefore.nextInScope?_eq]
  count_eq := by rw [representsAfter.count_eq, representsBefore.count_eq]

end ScopedVariables.Store
