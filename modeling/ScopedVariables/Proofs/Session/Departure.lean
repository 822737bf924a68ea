import ScopedVariables.Proofs.Scope.Order
import ScopedVariables.Proofs.Session.Discipline
import ScopedVariables.Proofs.Session.Tuning
import ScopedVariables.Proofs.Store.Report

/-! # Leaving a scope

When a scope is left, its variables are walked twice, first to announce their
removal and then to remove them. Whatever else is linked before, between and
behind them, both walks meet the same variables in the same order, and nothing
but these variables goes. -/

namespace ScopedVariables.Session

open Log
open Sequence (ids)

/-- What is left of the session `before` when the variables `leaving` have gone
with their scope. -/
structure Departed (before : Session) (scope : ScopeId) (leaving : Sequence)
    (after : Session) : Prop where
  live_eq : before.scopes.innermostFirst = scope :: after.scopes.innermostFirst
  next_eq : after.scopes.next = before.scopes.next
  types_eq : after.types = before.types
  config_eq : after.config = before.config
  /-- The variables were removed and destroyed one by one. -/
  store_eq : after.store = (before.store.discard leaving.ids).value
  toList_eq : after.store.toList = Sequence.withoutScope before.store.toList scope
  agrees : after.store.Agrees after.store.toList
  get?_eq : ∀ id,
    after.store.get? id = if id ∈ leaving.ids then none else before.store.get? id
  left_eq : after.variablesOf (some scope) = []
  kept_eq : ∀ other, other ≠ some scope →
    after.variablesOf other = before.variablesOf other

theorem Departed.of_discard {before : Session} {scope : ScopeId} {outer : ScopeStack}
    (represents : before.store.Represents before.store.toList)
    (left : before.scopes.leave = some (scope, outer)) :
    let leaving := Sequence.ofScope before.store.toList (some scope)
    before.Departed scope leaving
      { before with
        scopes := outer, store := (before.store.discard leaving.ids).value } := by
  intro leaving
  have withoutScope : Sequence.withoutAll before.store.toList leaving.ids =
      Sequence.withoutScope before.store.toList scope :=
    Sequence.withoutAll_members represents.nodup scope
  have discarded := represents.discard leaving.ids
  rw [withoutScope] at discarded
  have toList_eq := discarded.toList_eq
  have representsAfter := discarded.represents_toList
  exact {
    live_eq := ScopeStack.innermostFirst_leave left
    next_eq := (ScopeStack.leave_eq_some_iff.mp left).2
    types_eq := rfl
    config_eq := rfl
    store_eq := rfl
    toList_eq
    agrees := representsAfter.agrees
    get?_eq := by
      intro id
      rw [discarded.get?_eq, represents.get?_eq, ← withoutScope]
      exact Sequence.lookup_withoutAll leaving.ids id
    left_eq := by
      rw [variablesOf_eq representsAfter, toList_eq]
      exact Sequence.ofScope_withoutScope_self scope
    kept_eq := by
      intro other different
      rw [variablesOf_eq representsAfter, variablesOf_eq represents, toList_eq]
      exact Sequence.ofScope_withoutScope_of_ne different }

/-- Leaving the global scope does nothing. Leaving another scope takes away its
variables and nothing else, and counts them. If removals are announced, then
those of just these variables are, in the order in which they are removed. -/
theorem leaving_removes_scope {session : Session} (reachable : session.Reachable) :
    (session.scopes.depth = 1 → session.leaveScope = pure (none, session)) ∧
      (1 < session.scopes.depth →
        let scope := session.scopes.current
        let leaving := Sequence.ofScope session.store.toList (some scope)
        let announced := leaving.map fun item =>
          Record.event (.removing scope item.1 item.2.name)
        let removed :=
          .enter (.removeScope scope) ::
            Store.departures session.store.count (leaving.map Prod.snd) ++
            [.exit (.removeScope scope)]
        session.leaveScope.value.1 = some (scope, leaving.length) ∧
          session.Departed scope leaving session.leaveScope.value.2 ∧
          session.leaveScope.log =
            (if session.config.logScopeRemovals then announced else []) ++ removed ++
              [.event (.scopeLeft scope leaving.length)]) := by
  have represents := reachable.represents.1
  refine ⟨fun outermost => ?_, fun nested => ?_⟩
  · exact leaveScope_of_none (ScopeStack.leave_eq_none_iff.mpr outermost)
  · intro scope leaving announced removed
    rcases ScopeStack.exists_leave_eq_some nested with ⟨outer, left⟩
    have listed : session.store.scopeList scope = leaving :=
      represents.scopeList_eq scope
    have counted : (session.store.removeScope scope).value.1 = leaving.length :=
      (represents.removeScope scope).1
    refine ⟨?_, ?_, ?_⟩
    · rw [value_leaveScope_of_some left, counted]
    · rw [value_leaveScope_of_some left, Store.value_removeScope, listed]
      exact Departed.of_discard represents left
    · rw [log_leaveScope_of_some left, counted, represents.log_removeScope_eq, listed]

/-- The evaluator linked a variable of the innermost scope before all others. It
goes with the one that is declared there, from around an outer one. -/
theorem innermost_scope_departs :
    let float : TypeDescriptor := ⟨⟨0⟩, "float", [⟨"value", 4⟩]⟩
    let x : Variable := ⟨"x", some ⟨2⟩, .scalar, float.id, [.empty], none⟩
    let y : Variable := ⟨"y", some ⟨2⟩, .array 2, float.id, [.empty, .empty], none⟩
    let session := ((start { logScopeRemovals := true }).run
      [.store (.add x), .defineType float.name float.members,
        .declare (.builtin "x" "float"), .enterScope, .declare (.scalar "x" "float"),
        .enterScope, .declare (.array "y" "float" 2)]).value.2
    session.Reachable ∧ 1 < session.scopes.depth ∧
      session.leaveScope.value.1 = some (⟨2⟩, 2) ∧
      session.Departed ⟨2⟩ [(⟨0, 0⟩, x), (⟨3, 0⟩, y)] session.leaveScope.value.2 ∧
      session.leaveScope.log =
        [.event (.removing ⟨2⟩ ⟨0, 0⟩ "x"), .event (.removing ⟨2⟩ ⟨3, 0⟩ "y"),
          .enter (.removeScope ⟨2⟩),
          .event (.unlinked "x" 3), .event (.destroying "x" 1 false),
          .event (.unlinked "y" 2), .event (.destroying "y" 2 false),
          .exit (.removeScope ⟨2⟩), .event (.scopeLeft ⟨2⟩ 2)] := by
  intro float x y session
  have built : x.Built :=
    have success : Variable.ofValues "x" (some ⟨2⟩) float .scalar [.empty] =
      .ok x := rfl
    .ofValues success
  have reachable : session.Reachable := by
    apply (Reachable.start { logScopeRemovals := true }).run
    intro command member
    simp only [List.mem_cons, List.not_mem_nil, or_false] at member
    rcases member with rfl | rfl | rfl | rfl | rfl | rfl | rfl
    · exact built
    all_goals trivial
  have nested : 1 < session.scopes.depth := by decide
  have innermost : session.scopes.current = ⟨2⟩ := by decide
  have leaving : Sequence.ofScope session.store.toList (some ⟨2⟩) =
      [(⟨0, 0⟩, x), (⟨3, 0⟩, y)] := by decide
  have announces : session.config.logScopeRemovals = true := by decide
  have counted : session.store.count = 4 := by decide
  have departs := (leaving_removes_scope reachable).2 nested
  dsimp only at departs
  rw [innermost, leaving, if_pos announces, counted] at departs
  exact ⟨reachable, nested, departs⟩

end ScopedVariables.Session
