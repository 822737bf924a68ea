import ScopedVariables.Proofs.Store.Refinement
import ScopedVariables.Proofs.Store.ScopeChain

/-! # Linking and unlinking touch only neighbours

A new variable is followed by nothing, and follows the former ends of its two
chains. A variable that goes leaves a gap in both chains, which closes: what was
before it leads to what was behind it. No other handle is led elsewhere, and none
leads to another variable. So to remove what was just added is to undo it. -/

namespace ScopedVariables.Store

open Sequence (ids members)

/-- What changes when `var` is linked under `id`. -/
structure Linked (before : Store) (id : VarId) (var : Variable) (after : Store) :
    Prop where
  get?_eq : ∀ other,
    after.get? other = if other = id then some var else before.get? other
  next?_eq : ∀ other, after.next? other =
    if other = id then none
    else if (ids before.toList).getLast? = some other then some id
    else before.next? other
  nextInScope?_eq : ∀ other, after.nextInScope? other =
    if other = id then none
    else if (members before.toList var.scope).getLast? = some other then some id
    else before.nextInScope? other

/-- What changes when `var` is unlinked, which was linked under `id`. In each chain
at most one handle comes directly before `id`. -/
structure Unlinked (before : Store) (id : VarId) (var : Variable) (after : Store) :
    Prop where
  get?_eq : ∀ other,
    after.get? other = if other = id then none else before.get? other
  next?_eq : ∀ other, after.next? other =
    if other = id then none
    else if following? (ids before.toList) other = some id then before.next? id
    else before.next? other
  nextInScope?_eq : ∀ other, after.nextInScope? other =
    if other = id then none
    else if following? (members before.toList var.scope) other = some id then
      before.nextInScope? id
    else before.nextInScope? other
  predecessor_unique : ∀ left right,
    following? (ids before.toList) left = some id →
      following? (ids before.toList) right = some id → left = right
  scopePredecessor_unique : ∀ left right,
    following? (members before.toList var.scope) left = some id →
      following? (members before.toList var.scope) right = some id → left = right

namespace Represents

variable {store after : Store} {items : Sequence} (represents : store.Represents items)
  {id : VarId} {var : Variable}

include represents

/-! ## A new last variable -/

theorem getLast?_members_ne_of_resolve? {other : VarId}
    (stale : store.resolve? other = none) (scope : Option ScopeId) :
    (items.members scope).getLast? ≠ some other := by
  intro last
  have listed := Sequence.mem_ids_of_mem_members (List.mem_of_getLast? last)
  exact represents.resolve?_eq_none_iff.mp stale listed

theorem linked (var : Variable) :
    store.Linked (store.link var).1 var (store.link var).2 := by
  have fresh : (store.link var).1 ∉ items.ids := represents.place_fresh var
  have representsAfter := represents.link var
  refine ⟨fun other => ?_, fun other => ?_, fun other => ?_⟩
  · rw [representsAfter.get?_eq, represents.get?_eq, Sequence.lookup_concat fresh]
  · rw [representsAfter.next?_eq, represents.next?_eq, represents.toList_eq,
      Sequence.ids_append]
    split
    · rename_i same
      rw [same]
      exact following?_append_cons fresh []
    · exact following?_concat represents.nodup fresh other
  · rw [nextInScope?, representsAfter.resolve?_eq, represents.toList_eq]
    split
    · rename_i same
      rw [same, Sequence.entryOf_concat_self fresh]
      rfl
    · rename_i different
      rw [Sequence.entryOf_concat_of_ne represents.nodup fresh different,
        ← represents.resolve?_eq, nextInScope?]
      cases found : store.resolve? other with
      | none =>
          rw [if_neg (represents.getLast?_members_ne_of_resolve? found var.scope)]
          rfl
      | some entry =>
          rw [Option.map_some, Option.bind_some, Option.bind_some]

/-! ## The loss of a variable -/

theorem nextInScope?_eq_some_iff (listed : items.lookup id = some var)
    {other : VarId} :
    store.nextInScope? other = some id ↔
      following? (items.members var.scope) other = some id := by
  constructor
  · intro leads
    rw [represents.nextInScope?_eq] at leads
    rcases Option.bind_eq_some_iff.mp leads with ⟨otherVar, _, follows⟩
    have sameScope : var.scope = otherVar.scope :=
      Sequence.scope_eq_of_mem_members represents.nodup
        (mem_of_eq_some_following? follows) listed
    rw [sameScope]
    exact follows
  · intro follows
    rw [represents.nextInScope?_of_mem_members (mem_of_following?_eq_some follows)]
    exact follows

theorem unlinked (listed : items.lookup id = some var)
    (representsAfter : after.Represents (items.without id)) :
    store.Unlinked id var after := by
  obtain rfl : items = store.toList := represents.toList_eq.symm
  refine ⟨fun other => ?_, fun other => ?_, fun other => ?_, ?_, ?_⟩
  · rw [representsAfter.get?_eq, represents.get?_eq, Sequence.lookup_without]
  · rw [representsAfter.next?_eq, represents.next?_eq, represents.next?_eq,
      Sequence.ids_without]
    split
    · rename_i same
      rw [same]
      exact following?_of_not_mem (by simp)
    · rename_i different
      exact following?_filter_ne represents.nodup different
  · rw [nextInScope?, representsAfter.resolve?_eq]
    split
    · rename_i same
      rw [same, Sequence.entryOf_without_self]
      rfl
    · rename_i different
      simp only [← represents.nextInScope?_eq_some_iff listed]
      rw [Sequence.entryOf_without_of_ne represents.nodup listed different,
        ← represents.resolve?_eq, represents.nextInScope?_of_mem_members
          ((Sequence.mem_members_iff represents.nodup).mpr ⟨var, listed, rfl⟩),
        nextInScope?]
      cases store.resolve? other <;> rfl
  · exact fun left right => following?_injective represents.nodup
  · exact fun left right =>
      following?_injective (Sequence.nodup_members represents.nodup var.scope)

theorem remove_link (var : Variable) :
    let outcome := ((store.link var).2.remove (store.link var).1).value
    outcome.1 = some var ∧ outcome.2.LooksLike store := by
  have fresh : (store.link var).1 ∉ items.ids := represents.place_fresh var
  rcases (represents.link var).remove (store.link var).1 with ⟨answer, representsAfter⟩
  rw [Sequence.lookup_concat fresh, if_pos rfl] at answer
  rw [Sequence.without_concat fresh] at representsAfter
  exact ⟨answer, representsAfter.looksLike represents⟩

end Represents

/-- In every store that commands make of an empty one, linking a variable and
unlinking it change the links of its neighbours and no others, and together they
change nothing. -/
theorem linking_touches_neighbours_only (commands : List Command) :
    let store := (empty.run commands).value.2
    (∀ var, store.Linked (store.add var).value.1 var (store.add var).value.2) ∧
      (∀ id var, store.get? id = some var →
        (store.remove id).value.1 = some var ∧
          store.Unlinked id var (store.remove id).value.2) ∧
      ∀ var,
        let added := (store.add var).value
        (added.2.remove added.1).value.1 = some var ∧
          (added.2.remove added.1).value.2.LooksLike store := by
  intro store
  have represents : store.Represents store.toList := represents_run commands
  refine ⟨fun var => ?_, fun id var linked => ?_, fun var => ?_⟩
  · rw [value_add]
    exact represents.linked var
  · rw [represents.get?_eq] at linked
    rcases represents.remove id with ⟨answer, representsAfter⟩
    exact ⟨answer.trans linked, represents.unlinked linked representsAfter⟩
  · rw [value_add]
    exact represents.remove_link var

end ScopedVariables.Store
