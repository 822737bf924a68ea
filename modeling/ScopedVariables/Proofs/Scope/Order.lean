import Mathlib.Order.Nat
import ScopedVariables.Scope.Stack

/-! # The order of live scopes

Handles are issued in ascending order, so every live scope is greater than the
scopes around it, and the next handle is greater than all of them. A scope that
was left is therefore spent: it is neither live nor ever issued again. -/

namespace ScopedVariables

namespace ScopeId

theorem toNat_raw_injective :
    Function.Injective fun scope : ScopeId => scope.raw.toNat := by
  rintro ⟨left⟩ ⟨right⟩ same
  exact congrArg ScopeId.mk (UInt32.toNat_inj.mp same)

-- The comparisons stay those that handles come with, so that `<` has one meaning.
instance : LinearOrder ScopeId :=
  { LinearOrder.lift' (fun scope : ScopeId => scope.raw.toNat) toNat_raw_injective with
    le := (· ≤ ·)
    lt := (· < ·) }

variable {left right : ScopeId}

theorem lt_iff_toNat_lt :
    left < right ↔ left.raw.toNat < right.raw.toNat :=
  UInt32.lt_iff_toNat_lt

theorem lt_of_successor? (issued : left.successor? = some right) :
    left < right := by
  rw [lt_iff_toNat_lt, successor?_eq_some_iff.mp issued]
  exact Nat.lt_succ_self _

end ScopeId

namespace ScopeStack

variable {stack after : ScopeStack} {scope : ScopeId}

/-! ## What a move changes -/

theorem enter_eq_some_iff :
    stack.enter = some (scope, after) ↔
      stack.next = some scope ∧
        after = ⟨scope :: stack.entered, scope.successor?⟩ := by
  rw [enter, Option.map_eq_some_iff]
  constructor
  · rintro ⟨fresh, issued, equal⟩
    cases equal
    exact ⟨issued, rfl⟩
  · rintro ⟨issued, rfl⟩
    exact ⟨scope, issued, rfl⟩

theorem leave_eq_some_iff :
    stack.leave = some (scope, after) ↔
      stack.entered = scope :: after.entered ∧ after.next = stack.next := by
  rcases stack with ⟨live, next⟩
  rcases after with ⟨rest, later⟩
  cases live with
  | nil => simp [leave]
  | cons innermost outer => simp [leave, eq_comm, and_assoc]

theorem leave_eq_none_iff : stack.leave = none ↔ stack.depth = 1 := by
  rcases stack with ⟨live, next⟩
  cases live with
  | nil => simp [leave, depth]
  | cons innermost outer => simp [leave, depth]

theorem exists_leave_eq_some (nested : 1 < stack.depth) :
    ∃ outer, stack.leave = some (stack.current, outer) := by
  rcases stack with ⟨live, next⟩
  cases live with
  | nil => cases Nat.lt_irrefl 1 nested
  | cons innermost outer => exact ⟨_, rfl⟩

/-! ## Ordered stacks -/

structure Ordered (stack : ScopeStack) : Prop where
  /-- Every live scope is greater than the scopes around it. -/
  descending : stack.innermostFirst.Pairwise fun inner outer => outer < inner
  /-- The next handle is greater than every live scope. -/
  below_next : ∀ next, stack.next = some next →
    ∀ live, live ∈ stack.innermostFirst → live < next

theorem ordered_initial : initial.Ordered where
  descending := List.pairwise_singleton _ _
  below_next := by
    intro next issued live member
    rw [List.mem_singleton.mp member]
    exact ScopeId.lt_of_successor? issued

theorem global_mem_innermostFirst (stack : ScopeStack) :
    .global ∈ stack.innermostFirst :=
  List.mem_append_right _ List.mem_cons_self

theorem current_mem_innermostFirst (stack : ScopeStack) :
    stack.current ∈ stack.innermostFirst := by
  rcases innermostFirst_eq_cons stack with ⟨outer, split⟩
  rw [split]
  exact List.mem_cons_self

namespace Ordered

theorem enter (ordered : stack.Ordered)
    (entered : stack.enter = some (scope, after)) : after.Ordered := by
  have live := innermostFirst_enter entered
  rcases enter_eq_some_iff.mp entered with ⟨issued, rfl⟩
  refine ⟨?_, ?_⟩
  · rw [live]
    exact List.pairwise_cons.mpr
      ⟨ordered.below_next scope issued, ordered.descending⟩
  · intro next following inner member
    have increased := ScopeId.lt_of_successor? following
    rw [live] at member
    rcases List.mem_cons.mp member with rfl | member
    · exact increased
    · exact lt_trans (ordered.below_next scope issued inner member) increased

theorem leave (ordered : stack.Ordered)
    (left : stack.leave = some (scope, after)) : after.Ordered := by
  have live := innermostFirst_leave left
  rcases leave_eq_some_iff.mp left with ⟨_, sameNext⟩
  refine ⟨?_, ?_⟩
  · have descending := ordered.descending
    rw [live] at descending
    exact (List.pairwise_cons.mp descending).2
  · intro next issued inner member
    rw [sameNext] at issued
    apply ordered.below_next next issued
    rw [live]
    exact List.mem_cons_of_mem _ member

theorem leaveAll (ordered : stack.Ordered) : stack.leaveAll.Ordered := by
  rw [leaveAll_eq]
  refine ⟨List.pairwise_singleton _ _, ?_⟩
  intro next issued inner member
  rw [List.mem_singleton.mp member]
  exact ordered.below_next next issued .global stack.global_mem_innermostFirst

theorem le_current (ordered : stack.Ordered) {live : ScopeId}
    (member : live ∈ stack.innermostFirst) : live ≤ stack.current := by
  rcases innermostFirst_eq_cons stack with ⟨outer, split⟩
  have descending := ordered.descending
  rw [split] at descending member
  rcases List.mem_cons.mp member with rfl | member
  · exact le_rfl
  · exact le_of_lt ((List.pairwise_cons.mp descending).1 live member)

end Ordered

/-! ## Spent scopes -/

structure Spent (stack : ScopeStack) (scope : ScopeId) : Prop where
  not_live : scope ∉ stack.innermostFirst
  below_next : ∀ next, stack.next = some next → scope < next

theorem Ordered.spent_of_leave (ordered : stack.Ordered)
    (left : stack.leave = some (scope, after)) : after.Spent scope := by
  have live := innermostFirst_leave left
  rcases leave_eq_some_iff.mp left with ⟨_, sameNext⟩
  refine ⟨?_, ?_⟩
  · intro member
    have descending := ordered.descending
    rw [live] at descending
    exact lt_irrefl scope
      ((List.pairwise_cons.mp descending).1 scope member)
  · intro next issued
    rw [sameNext] at issued
    apply ordered.below_next next issued
    rw [live]
    exact List.mem_cons_self

theorem Ordered.spent_of_leaveAll (ordered : stack.Ordered)
    (entered : scope ∈ stack.entered) : stack.leaveAll.Spent scope := by
  rw [leaveAll_eq]
  refine ⟨?_, fun next issued => ordered.below_next next issued scope
    (List.mem_append_left _ entered)⟩
  intro member
  have aboveGlobal := (List.pairwise_append.mp ordered.descending).2.2
    scope entered .global List.mem_cons_self
  rw [List.mem_singleton.mp member] at aboveGlobal
  exact lt_irrefl _ aboveGlobal

namespace Spent

variable {spent : ScopeId}

theorem ne_of_enter (isSpent : stack.Spent spent)
    (entered : stack.enter = some (scope, after)) : spent ≠ scope := by
  rcases enter_eq_some_iff.mp entered with ⟨issued, _⟩
  intro same
  have less := isSpent.below_next scope issued
  rw [same] at less
  exact lt_irrefl scope less

theorem enter (isSpent : stack.Spent spent)
    (entered : stack.enter = some (scope, after)) : after.Spent spent := by
  have different := isSpent.ne_of_enter entered
  have live := innermostFirst_enter entered
  rcases enter_eq_some_iff.mp entered with ⟨issued, rfl⟩
  refine ⟨?_, ?_⟩
  · rw [live]
    intro member
    exact isSpent.not_live ((List.mem_cons.mp member).resolve_left different)
  · intro next following
    exact lt_trans (isSpent.below_next scope issued)
      (ScopeId.lt_of_successor? following)

theorem leave (isSpent : stack.Spent spent)
    (left : stack.leave = some (scope, after)) : after.Spent spent := by
  have live := innermostFirst_leave left
  rcases leave_eq_some_iff.mp left with ⟨_, sameNext⟩
  refine ⟨?_, ?_⟩
  · intro member
    apply isSpent.not_live
    rw [live]
    exact List.mem_cons_of_mem _ member
  · rw [sameNext]
    exact isSpent.below_next

theorem leaveAll (isSpent : stack.Spent spent) : stack.leaveAll.Spent spent := by
  rw [leaveAll_eq]
  refine ⟨?_, isSpent.below_next⟩
  intro member
  rw [List.mem_singleton.mp member] at isSpent
  exact isSpent.not_live stack.global_mem_innermostFirst

end Spent

end ScopeStack

end ScopedVariables
