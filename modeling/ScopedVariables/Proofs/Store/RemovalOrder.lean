import ScopedVariables.Proofs.Store.Refinement

/-! # The order of removals does not matter

Removals of neighbours read links that earlier removals have written, so they do
not commute step by step. What is left is nevertheless the sequence without the
variables that went, and the sequence says all about the links. So variables may
be removed in any order, one by one or with their scopes. -/

namespace ScopedVariables

open Sequence (members)

namespace Sequence

variable {items : Sequence}

theorem withoutAll_perm {left right : List VarId} (reordered : left.Perm right) :
    items.withoutAll left = items.withoutAll right := by
  apply List.filter_congr
  intro item _
  simp only [reordered.mem_iff]

theorem withoutScope_comm (first second : ScopeId) :
    (items.withoutScope first).withoutScope second =
      (items.withoutScope second).withoutScope first := by
  simp only [withoutScope, List.filter_filter, Bool.and_comm]

end Sequence

namespace Store

variable {store : Store} {items : Sequence} (represents : store.Represents items)

include represents

theorem Represents.run_remove {targets : List VarId} (distinct : targets.Nodup) :
    let outcome := (store.run (targets.map .remove)).value
    outcome.1 = targets.map (fun id => .removed (store.get? id)) ∧
      outcome.2.Represents (items.withoutAll targets) := by
  induction targets generalizing store items with
  | nil =>
      rw [Sequence.withoutAll_nil]
      exact ⟨rfl, represents⟩
  | cons target targets induction =>
      have parts := List.nodup_cons.mp distinct
      rcases represents.remove target with ⟨answer, representsAfter⟩
      rcases induction representsAfter parts.2 with ⟨replies, representsFinally⟩
      rw [List.map_cons, value_run_cons, value_execute_remove, List.map_cons,
        Sequence.withoutAll_cons, answer, replies, represents.get?_eq]
      refine ⟨?_, representsFinally⟩
      rw [List.cons.injEq]
      refine ⟨rfl, List.map_congr_left fun id member => ?_⟩
      have different : id ≠ target := fun same => parts.1 (same ▸ member)
      rw [representsAfter.get?_eq, represents.get?_eq, Sequence.lookup_without,
        if_neg different]

theorem Represents.looksLike_run_remove {left right : List VarId}
    (distinct : left.Nodup) (reordered : left.Perm right) :
    (store.run (left.map .remove)).value.2.LooksLike
      (store.run (right.map .remove)).value.2 := by
  have rightRepresents := (represents.run_remove (reordered.nodup distinct)).2
  rw [← Sequence.withoutAll_perm reordered] at rightRepresents
  exact (represents.run_remove distinct).2.looksLike rightRepresents

theorem Represents.removeScope_one_by_one {scope : ScopeId} {targets : List VarId}
    (reordered : targets.Perm (items.members (some scope))) :
    let outcome := (store.removeScope scope).value
    outcome.1 = targets.length ∧
      outcome.2.LooksLike (store.run (targets.map .remove)).value.2 := by
  have distinct : targets.Nodup :=
    reordered.symm.nodup (Sequence.nodup_members represents.nodup (some scope))
  have oneByOne := (represents.run_remove distinct).2
  rw [Sequence.withoutAll_perm reordered,
    Sequence.withoutAll_members represents.nodup] at oneByOne
  rcases represents.removeScope scope with ⟨counted, representsAfter⟩
  refine ⟨?_, representsAfter.looksLike oneByOne⟩
  rw [counted, reordered.length_eq, members, Sequence.ids, List.length_map]

theorem Represents.removeScope_removeScope (first second : ScopeId) :
    let outcome := ((store.removeScope first).value.2.removeScope second).value
    outcome.1 = ((items.withoutScope first).ofScope (some second)).length ∧
      outcome.2.Represents ((items.withoutScope first).withoutScope second) :=
  (represents.removeScope first).2.removeScope second

theorem Represents.count_removeScope_of_ne {first second : ScopeId}
    (different : first ≠ second) :
    ((store.removeScope first).value.2.removeScope second).value.1 =
      (store.removeScope second).value.1 := by
  have elsewhere : some second ≠ some first := fun same =>
    different (Option.some.inj same).symm
  rw [(represents.removeScope_removeScope first second).1, (represents.removeScope second).1,
    Sequence.ofScope_withoutScope_of_ne elsewhere]

omit represents

/-- In every store that commands make of an empty one, distinct handles may be
removed in any order: each hands out its variable, and the rows that remain are the
same. A scope may be removed variable by variable, and two scopes in either order. -/
theorem removal_order_immaterial (commands : List Command) :
    let store := (empty.run commands).value.2
    (∀ left right : List VarId, left.Nodup → left.Perm right →
        let leftOutcome := (store.run (left.map .remove)).value
        let rightOutcome := (store.run (right.map .remove)).value
        leftOutcome.1 = left.map (fun id => .removed (store.get? id)) ∧
          rightOutcome.1 = right.map (fun id => .removed (store.get? id)) ∧
          leftOutcome.2.LooksLike rightOutcome.2) ∧
      (∀ (scope : ScopeId) (targets : List VarId),
        targets.Perm (members store.toList (some scope)) →
          let outcome := (store.removeScope scope).value
          outcome.1 = targets.length ∧
            outcome.2.LooksLike (store.run (targets.map .remove)).value.2) ∧
      ∀ first second : ScopeId,
        let forth := ((store.removeScope first).value.2.removeScope second).value
        let back := ((store.removeScope second).value.2.removeScope first).value
        forth.2.LooksLike back.2 ∧
          (first ≠ second →
            (store.removeScope first).value.1 = back.1 ∧
              (store.removeScope second).value.1 = forth.1) := by
  intro store
  have represents : store.Represents store.toList := represents_run commands
  refine ⟨fun left right distinct reordered => ?_,
    fun scope targets reordered => represents.removeScope_one_by_one reordered,
    fun first second => ?_⟩
  · exact ⟨(represents.run_remove distinct).1,
      (represents.run_remove (reordered.nodup distinct)).1,
      represents.looksLike_run_remove distinct reordered⟩
  · have forth := (represents.removeScope_removeScope first second).2
    have back := (represents.removeScope_removeScope second first).2
    rw [Sequence.withoutScope_comm] at back
    refine ⟨forth.looksLike back, fun different => ⟨?_, ?_⟩⟩
    · exact (represents.count_removeScope_of_ne different.symm).symm
    · exact (represents.count_removeScope_of_ne different).symm

end Store

end ScopedVariables
