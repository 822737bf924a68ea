import ScopedVariables.Store.Operation
import ScopedVariables.Proofs.Store.Clearing
import ScopedVariables.Proofs.Store.Linking
import ScopedVariables.Proofs.Store.Unlinking

/-! # What each operation does to the sequence

One statement for each operation of a store that represents a sequence: what it
yields and which sequence it leaves. A handle that is not listed is covered
too, as one that takes nothing away. -/

namespace ScopedVariables

open Sequence (ids)

namespace Sequence

def named (name : String) (item : VarId × Variable) : Bool :=
  decide (name ≠ "" ∧ item.2.name = name)

def withoutScope (items : Sequence) (scope : ScopeId) : Sequence :=
  items.filter fun item => item.2.scope ≠ some scope

def withoutAll (items : Sequence) (targets : List VarId) : Sequence :=
  items.filter fun item => item.1 ∉ targets

variable {items : Sequence}

theorem ofScope_withoutScope (scope : ScopeId) (other : Option ScopeId) :
    (items.withoutScope scope).ofScope other =
      (items.ofScope other).withoutScope scope := by
  rw [ofScope, ofScope, withoutScope, withoutScope, List.filter_filter,
    List.filter_filter]
  simp only [Bool.and_comm]

theorem ofScope_withoutScope_self (scope : ScopeId) :
    (items.withoutScope scope).ofScope (some scope) = [] := by
  apply List.filter_eq_nil_iff.mpr
  intro item member inside
  exact of_decide_eq_true (List.mem_filter.mp member).2 (of_decide_eq_true inside)

theorem ofScope_withoutScope_of_ne {scope : ScopeId} {other : Option ScopeId}
    (different : other ≠ some scope) :
    (items.withoutScope scope).ofScope other = items.ofScope other := by
  rw [ofScope, withoutScope, List.filter_filter]
  apply List.filter_congr
  intro item _
  rcases Decidable.eq_or_ne item.2.scope other with inside | outside
  · simp [inside, different]
  · simp [outside]

theorem withoutAll_nil : items.withoutAll [] = items :=
  List.filter_eq_self.mpr fun _ _ => by simp

theorem withoutAll_cons (target : VarId) (targets : List VarId) :
    items.withoutAll (target :: targets) =
      (items.without target).withoutAll targets := by
  rw [withoutAll, withoutAll, without, List.filter_filter]
  apply List.filter_congr
  intro item _
  simp [Bool.and_comm]

theorem lookup_withoutAll (targets : List VarId) (id : VarId) :
    (items.withoutAll targets).lookup id =
      if id ∈ targets then none else items.lookup id := by
  induction targets generalizing items with
  | nil => simp [withoutAll_nil]
  | cons target targets induction =>
      rw [withoutAll_cons, induction, lookup_without]
      rcases Decidable.eq_or_ne id target with rfl | different
      · simp
      · simp [different]

theorem withoutAll_members (nodup : items.ids.Nodup) (scope : ScopeId) :
    items.withoutAll (items.members (some scope)) = items.withoutScope scope := by
  apply List.filter_congr
  rintro ⟨id, var⟩ member
  have listed := lookup_of_mem nodup member
  have belongs : id ∈ items.members (some scope) ↔ var.scope = some scope := by
    rw [mem_members_iff nodup, listed]
    simp
  simp [belongs]

theorem eraseP_eq_without (nodup : items.ids.Nodup)
    {fits : VarId × Variable → Bool} {found : VarId × Variable}
    (first : items.find? fits = some found) :
    items.eraseP fits = items.without found.1 := by
  induction items with
  | nil => cases first
  | cons head rest induction =>
      have parts := List.nodup_cons.mp nodup
      cases fitsHead : fits head with
      | true =>
          rw [List.find?_cons_of_pos fitsHead] at first
          cases first
          rw [List.eraseP_cons_of_pos fitsHead, without,
            List.filter_cons_of_neg (by simp)]
          exact (without_of_not_mem parts.1).symm
      | false =>
          have skips : ¬fits head = true := by simp [fitsHead]
          rw [List.find?_cons_of_neg skips] at first
          have different : head.1 ≠ found.1 := fun same =>
            parts.1 (same ▸ mem_ids (List.mem_of_find?_eq_some first))
          rw [List.eraseP_cons_of_neg skips, without,
            List.filter_cons_of_pos (by simp [different]), induction parts.2 first]
          rfl

end Sequence

namespace Store.Represents

variable {store : Store} {items : Sequence}

theorem remove (represents : store.Represents items) (id : VarId) :
    (store.remove id).value.1 = items.lookup id ∧
      (store.remove id).value.2.Represents (items.without id) := by
  cases listed : items.lookup id with
  | none =>
      have absent := Sequence.lookup_eq_none_iff.mp listed
      rw [remove_of_unlink_eq_none (represents.unlink_eq_none listed),
        Sequence.without_of_not_mem absent]
      exact ⟨rfl, represents⟩
  | some var =>
      rcases represents.unlink listed with ⟨after, unlinked, representsAfter⟩
      rw [remove_of_unlink_eq_some unlinked]
      exact ⟨rfl, representsAfter⟩

theorem remove_stale (represents : store.Represents items) {id : VarId}
    (absent : id ∉ items.ids) : store.remove id = pure (none, store) :=
  remove_of_unlink_eq_none
    (represents.unlink_eq_none (Sequence.lookup_eq_none_iff.mpr absent))

theorem discard (represents : store.Represents items) (targets : List VarId) :
    (store.discard targets).value.Represents (items.withoutAll targets) := by
  induction targets generalizing store items with
  | nil =>
      rw [Sequence.withoutAll_nil]
      exact represents
  | cons target targets induction =>
      rw [discard_cons, Sequence.withoutAll_cons]
      exact induction (represents.remove target).2

theorem removeScope (represents : store.Represents items) (scope : ScopeId) :
    (store.removeScope scope).value.1 = (items.ofScope (some scope)).length ∧
      (store.removeScope scope).value.2.Represents (items.withoutScope scope) := by
  rw [value_removeScope, represents.scopeList_eq]
  refine ⟨rfl, ?_⟩
  rw [← Sequence.withoutAll_members represents.nodup]
  exact represents.discard _

theorem findByName_eq_find? (represents : store.Represents items)
    (name : String) :
    store.findByName name = (items.find? (Sequence.named name)).map Prod.fst := by
  rw [represents.findByName_eq]
  split
  · rename_i unnamed
    have nothing : items.find? (Sequence.named name) = none :=
      List.find?_eq_none.mpr fun item _ => by simp [Sequence.named, unnamed]
    rw [nothing]
    rfl
  · rename_i isName
    have sameSearch :
        (fun item : VarId × Variable => decide (item.2.name = name)) =
          Sequence.named name := by
      funext item
      simp [Sequence.named, isName]
    rw [sameSearch]

theorem removeByName (represents : store.Represents items) (name : String) :
    (store.removeByName name).value.1 = items.any (Sequence.named name) ∧
      (store.removeByName name).value.2.Represents
        (items.eraseP (Sequence.named name)) := by
  have search := represents.findByName_eq_find? name
  cases first : items.find? (Sequence.named name) with
  | none =>
      have absent := List.find?_eq_none.mp first
      rw [first, Option.map_none] at search
      rw [Store.removeByName, search, List.eraseP_of_forall_not absent,
        List.any_eq_false.mpr absent]
      exact ⟨rfl, represents⟩
  | some found =>
      rw [first, Option.map_some] at search
      rcases represents.remove found.1 with ⟨removed, representsAfter⟩
      have inItems := List.mem_of_find?_eq_some first
      have present : items.any (Sequence.named name) = true :=
        List.any_eq_true.mpr ⟨found, inItems, List.find?_some first⟩
      have listed := Sequence.lookup_of_mem represents.nodup inItems
      rw [Sequence.eraseP_eq_without represents.nodup first, present,
        Store.removeByName, search]
      refine ⟨?_, representsAfter⟩
      change (store.remove found.1).value.1.isSome = true
      rw [removed, listed]
      rfl

theorem destroyAll (represents : store.Represents items) :
    store.destroyAll.value.Represents [] :=
  represents.clear.2

theorem write (represents : store.Represents items) (id : VarId)
    (write : Variable.Write) :
    (store.write id write).1 = (items.lookup id).map (·.replaced write) ∧
      (store.write id write).2.Represents (items.update id (·.write write)) := by
  refine ⟨?_, ?_, ?_, ?_, ?_, ?_⟩
  · rw [Store.write, represents.get?_eq]
  · rw [Sequence.ids_update]
    exact represents.nodup
  · intro other
    rw [Store.write, resolve?_modify, represents.resolve?_eq, Sequence.entryOf,
      Sequence.entryOf, Sequence.lookup_update, Sequence.ids_update]
    have sameMembers : ∀ scope,
        (items.update id (·.write write)).members scope = items.members scope :=
      Sequence.members_update (fun var => var.scope_write write) id
    simp only [sameMembers]
    split
    · cases items.lookup other with
      | none => rfl
      | some var => simp
    · rfl
  · rw [Sequence.ids_update]
    exact represents.head_eq
  · rw [Sequence.update, List.length_map]
    exact represents.count_eq
  · exact represents.tidy.modify id _

end Store.Represents

end ScopedVariables
