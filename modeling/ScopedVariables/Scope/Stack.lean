import ScopedVariables.Handle

/-! # Live scopes

Scopes nest. The global scope is live for ever; every other scope is live from
the time it is entered until it is left, innermost first. Handles are issued in
ascending order and never again, so a scope that was left cannot be mistaken
for a newer one. -/

namespace ScopedVariables

structure ScopeStack where
  /-- The live scopes inside the global one, innermost first. -/
  entered : List ScopeId
  /-- The handle to be issued next, if any is left. -/
  next : Option ScopeId
  deriving DecidableEq, Repr

namespace ScopeStack

def initial : ScopeStack := ⟨[], ScopeId.global.successor?⟩

def innermostFirst (stack : ScopeStack) : List ScopeId :=
  stack.entered ++ [.global]

def current (stack : ScopeStack) : ScopeId :=
  stack.entered.headD .global

def depth (stack : ScopeStack) : Nat := stack.entered.length + 1

/-! A scope is entered under a fresh handle, unless the handles are used up.
The innermost one is left, unless it is the global one. -/

def enter (stack : ScopeStack) : Option (ScopeId × ScopeStack) :=
  stack.next.map fun scope =>
    (scope, { entered := scope :: stack.entered, next := scope.successor? })

def leave (stack : ScopeStack) : Option (ScopeId × ScopeStack) :=
  match stack.entered with
  | [] => none
  | scope :: outer => some (scope, { stack with entered := outer })

theorem length_entered_leave {stack outer : ScopeStack} {scope : ScopeId}
    (left : stack.leave = some (scope, outer)) :
    outer.entered.length < stack.entered.length := by
  obtain ⟨live, next⟩ := stack
  cases live with
  | nil => cases left
  | cons innermost rest =>
      cases left
      exact Nat.lt_succ_self rest.length

def leaveAll (stack : ScopeStack) : ScopeStack :=
  match _ : stack.leave with
  | none => stack
  | some (_, outer) => outer.leaveAll
termination_by stack.entered.length
decreasing_by exact length_entered_leave ‹_›

theorem leaveAll_eq (stack : ScopeStack) :
    stack.leaveAll = { stack with entered := [] } := by
  obtain ⟨live, next⟩ := stack
  induction live with
  | nil =>
      rw [leaveAll]
      rfl
  | cons innermost outer induction =>
      rw [leaveAll]
      exact induction

@[simp] theorem length_innermostFirst (stack : ScopeStack) :
    stack.innermostFirst.length = stack.depth := by
  simp [innermostFirst, depth]

theorem innermostFirst_eq_cons (stack : ScopeStack) :
    ∃ outer, stack.innermostFirst = stack.current :: outer := by
  cases stack with
  | mk entered next =>
      cases entered with
      | nil => exact ⟨[], rfl⟩
      | cons scope outer => exact ⟨outer ++ [.global], rfl⟩

theorem innermostFirst_enter {stack after : ScopeStack} {scope : ScopeId}
    (entered : stack.enter = some (scope, after)) :
    after.innermostFirst = scope :: stack.innermostFirst := by
  obtain ⟨fresh, _, equal⟩ := Option.map_eq_some_iff.mp entered
  cases equal
  rfl

theorem innermostFirst_leave {stack after : ScopeStack} {scope : ScopeId}
    (left : stack.leave = some (scope, after)) :
    stack.innermostFirst = scope :: after.innermostFirst := by
  obtain ⟨live, next⟩ := stack
  cases live with
  | nil => cases left
  | cons innermost outer =>
      cases left
      rfl

@[simp] theorem innermostFirst_leaveAll (stack : ScopeStack) :
    stack.leaveAll.innermostFirst = [.global] := by
  rw [leaveAll_eq]
  rfl

/-! ## Sequences of moves

A move that is not possible changes nothing and tells no scope. -/

inductive Move where
  | enter
  | leave
  deriving DecidableEq, Repr

def move (stack : ScopeStack) (move : Move) : Option ScopeId × ScopeStack :=
  let outcome := match move with
    | .enter => stack.enter
    | .leave => stack.leave
  match outcome with
  | none => (none, stack)
  | some (scope, stack) => (some scope, stack)

def moves (stack : ScopeStack) : List Move → List (Option ScopeId) × ScopeStack
  | [] => ([], stack)
  | move :: moves =>
      let (scope, stack) := stack.move move
      let (scopes, stack) := stack.moves moves
      (scope :: scopes, stack)

end ScopeStack

end ScopedVariables
