import Mathlib.Data.List.Forall2
import Mathlib.Data.Option.Basic
import ScopedVariables.Proofs.Scope.Order

/-! # Scopes issued later

Scopes are numbered in the order of issue. Two stacks that make the same moves,
the one when it has issued some scopes already, stay in step: a live scope of the
one is the live scope of the other with those scopes added to its number. The
global scope is the same in both. -/

namespace ScopedVariables

/-- The left scope is the right one with `count` added to its number, unless both
are the global one. -/
inductive ScopeId.Later (count : Nat) : ScopeId → ScopeId → Prop
  | global : Later count global global
  | issued {left right} : right ≠ global →
      left.raw.toNat = right.raw.toNat + count → Later count left right

namespace ScopeId

variable {count : Nat}

theorem eq_iff_toNat_eq {left right : ScopeId} :
    left = right ↔ left.raw.toNat = right.raw.toNat := by
  rw [UInt32.toNat_inj, ScopeId.mk.injEq]

@[simp] theorem toNat_global : global.raw.toNat = 0 := rfl

theorem Later.eq_iff {left right otherLeft otherRight : ScopeId}
    (later : Later count left right) (other : Later count otherLeft otherRight) :
    left = otherLeft ↔ right = otherRight := by
  cases later with
  | global =>
      cases other with
      | global => exact iff_of_true rfl rfl
      | issued entered number =>
          simp only [ne_eq, eq_iff_toNat_eq, toNat_global] at entered ⊢
          omega
  | issued entered number =>
      cases other with
      | global =>
          simp only [ne_eq, eq_iff_toNat_eq, toNat_global] at entered ⊢
          omega
      | issued otherEntered otherNumber =>
          simp only [eq_iff_toNat_eq]
          omega

theorem Later.option_eq_iff {left right otherLeft otherRight : Option ScopeId}
    (later : Option.Rel (Later count) left right)
    (other : Option.Rel (Later count) otherLeft otherRight) :
    left = otherLeft ↔ right = otherRight := by
  cases later with
  | none => cases other <;> simp
  | some later =>
      cases other with
      | none => simp
      | some other =>
          rw [Option.some.injEq, Option.some.injEq]
          exact later.eq_iff other

end ScopeId

namespace ScopeStack

variable {stack after : ScopeStack} {scope : ScopeId} {count : Nat}

/-! ## The number of scopes issued -/

/-- The stack has issued `count` scopes: the next one has the number after it, if
there is such a scope. -/
def HasIssued (stack : ScopeStack) (count : Nat) : Prop :=
  ∀ scope, stack.next = some scope ↔ scope.raw.toNat = count + 1

theorem hasIssued_initial : initial.HasIssued 0 := fun _ =>
  @ScopeId.successor?_eq_some_iff .global _

namespace HasIssued

theorem number_of_enter (issued : stack.HasIssued count)
    (enters : stack.enter = some (scope, after)) :
    scope.raw.toNat = count + 1 :=
  (issued scope).mp (enter_eq_some_iff.mp enters).1

theorem enter (issued : stack.HasIssued count)
    (enters : stack.enter = some (scope, after)) : after.HasIssued (count + 1) := by
  have number := issued.number_of_enter enters
  rcases enter_eq_some_iff.mp enters with ⟨_, rfl⟩
  intro following
  rw [ScopeId.successor?_eq_some_iff, number]

theorem exists_enter (issued : stack.HasIssued count)
    (fits : count + 1 < UInt32.size) :
    ∃ scope : ScopeId, scope.raw.toNat = count + 1 ∧
      stack.enter = some (scope, ⟨scope :: stack.entered, scope.successor?⟩) := by
  have number : (UInt32.ofNat (count + 1)).toNat = count + 1 :=
    UInt32.toNat_ofNat_of_lt' fits
  exact ⟨⟨.ofNat (count + 1)⟩, number, enter_eq_some_iff.mpr
    ⟨(issued ⟨.ofNat (count + 1)⟩).mpr number, rfl⟩⟩

theorem leave (issued : stack.HasIssued count)
    (leaves : stack.leave = some (scope, after)) : after.HasIssued count := by
  rw [HasIssued, (leave_eq_some_iff.mp leaves).2]
  exact issued

theorem leaveAll (issued : stack.HasIssued count) : stack.leaveAll.HasIssued count := by
  rw [leaveAll_eq]
  exact issued

end HasIssued

/-! ## Stacks in step -/

structure Renews (count : Nat) (left right : ScopeStack) : Prop where
  entered : List.Forall₂ (ScopeId.Later count) left.entered right.entered
  issued : ∃ moves, left.HasIssued (moves + count) ∧ right.HasIssued moves

namespace Renews

variable {left right leftAfter : ScopeStack}

theorem innermostFirst (renews : Renews count left right) :
    List.Forall₂ (ScopeId.Later count) left.innermostFirst right.innermostFirst :=
  List.rel_append renews.entered (.cons .global .nil)

theorem depth_eq (renews : Renews count left right) : left.depth = right.depth := by
  rw [depth, depth, renews.entered.length_eq]

theorem current (renews : Renews count left right) :
    ScopeId.Later count left.current right.current := by
  rcases left with ⟨leftEntered, leftNext⟩
  rcases right with ⟨rightEntered, rightNext⟩
  cases renews.entered with
  | nil => exact .global
  | cons later _ => exact later

theorem enter (renews : Renews count left right)
    (enters : left.enter = some (scope, leftAfter)) :
    ∃ other rightAfter, right.enter = some (other, rightAfter) ∧
      ScopeId.Later count scope other ∧ Renews count leftAfter rightAfter := by
  rcases renews.issued with ⟨moves, leftIssued, rightIssued⟩
  have number := leftIssued.number_of_enter enters
  have fits : moves + 1 < UInt32.size :=
    Nat.lt_of_le_of_lt (by omega) scope.raw.toNat_lt
  rcases rightIssued.exists_enter fits with ⟨other, otherNumber, rightEnters⟩
  have later : ScopeId.Later count scope other := by
    refine .issued ?_ ?_
    · rw [ne_eq, ScopeId.eq_iff_toNat_eq, otherNumber]
      exact Nat.succ_ne_zero moves
    · rw [otherNumber, number]
      omega
  refine ⟨_, _, rightEnters, later, ?_, moves + 1, ?_, rightIssued.enter rightEnters⟩
  · rcases enter_eq_some_iff.mp enters with ⟨_, rfl⟩
    exact .cons later renews.entered
  · have issuedAfter := leftIssued.enter enters
    rwa [Nat.add_right_comm] at issuedAfter

theorem leave (renews : Renews count left right) :
    (left.leave = none ∧ right.leave = none) ∨
      ∃ scope leftAfter other rightAfter, left.leave = some (scope, leftAfter) ∧
        right.leave = some (other, rightAfter) ∧
        ScopeId.Later count scope other ∧ Renews count leftAfter rightAfter := by
  rcases left with ⟨leftEntered, leftNext⟩
  rcases right with ⟨rightEntered, rightNext⟩
  rcases renews with ⟨entered, issued⟩
  cases entered with
  | nil => exact .inl ⟨rfl, rfl⟩
  | cons later outer => exact .inr ⟨_, _, _, _, rfl, rfl, later, outer, issued⟩

theorem leaveAll (renews : Renews count left right) :
    Renews count left.leaveAll right.leaveAll := by
  rw [leaveAll_eq, leaveAll_eq]
  exact ⟨.nil, renews.issued⟩

end Renews

theorem HasIssued.renews (issued : stack.HasIssued count) :
    Renews count stack.leaveAll initial := by
  rw [leaveAll_eq]
  exact ⟨.nil, 0, by rwa [Nat.zero_add], hasIssued_initial⟩

end ScopeStack

end ScopedVariables
