import ScopedVariables.Proofs.Session.Discipline

/-! # Scopes end once

While variables are linked by declaring only, each has a name of its own in its
scope, and its scope is live if it is defined. A scope that is left holds
nothing from then on and is not entered again, so it is never mistaken for a
later one. -/

namespace ScopedVariables.Session

variable {session : Session} {scope : ScopeId}

/-- The command leaves the scope: its reply says so, or it ends them all. -/
inductive Leaves (session : Session) (scope : ScopeId) : Command → Prop
  | leaveScope {removed : Nat} :
      session.leaveScope.value.1 = some (scope, removed) →
      Leaves session scope .leaveScope
  | shutdown : scope ∈ session.scopes.entered → Leaves session scope .shutdown

/-! ## Spent scopes -/

theorem Leaves.spent {command : Command} (leaves : session.Leaves scope command)
    (ordered : session.scopes.Ordered) :
    (session.execute command).value.2.scopes.Spent scope := by
  cases leaves with
  | leaveScope reply =>
      change session.leaveScope.value.2.scopes.Spent scope
      cases left : session.scopes.leave with
      | none =>
          rw [leaveScope_of_none left] at reply
          cases reply
      | some outcome =>
          rw [value_leaveScope_of_some left] at reply ⊢
          cases reply
          exact ordered.spent_of_leave left
  | shutdown entered =>
      change session.shutdown.value.scopes.Spent scope
      rw [value_shutdown]
      exact ordered.spent_of_leaveAll entered

theorem Effect.spent {scopes : ScopeStack} {items : Sequence}
    (effect : session.Effect scopes items) (spent : session.scopes.Spent scope) :
    scopes.Spent scope := by
  cases effect with
  | entered enters => exact spent.enter enters
  | left leaves => exact spent.leave leaves
  | declared | removed | written => exact spent
  | ended => exact spent.leaveAll

theorem enter_of_entered {command : Command}
    (reply : (session.execute command).value.1 = .entered (.ok scope)) :
    ∃ scopes, session.scopes.enter = some (scope, scopes) := by
  cases command with
  | enterScope =>
      have entered : session.enterScope.value.1 = .ok scope :=
        Reply.entered.inj reply
      rcases enterScope_eq_ok entered with ⟨scopes, enters, _⟩
      exact ⟨scopes, enters⟩
  | _ => cases reply

theorem Declarative.spent_run (declarative : session.Declarative)
    (spent : session.scopes.Spent scope) {commands : List Command}
    (each : ∀ command, command ∈ commands → command.Declarative) :
    (session.run commands).value.2.scopes.Spent scope ∧
      .entered (.ok scope) ∉ (session.run commands).value.1 := by
  induction commands generalizing session with
  | nil => exact ⟨spent, List.not_mem_nil⟩
  | cons command rest induction =>
      have first := each command List.mem_cons_self
      have later := induction (.execute first declarative)
        ((effect_execute declarative.represents first).spent spent)
        fun other member => each other (List.mem_cons_of_mem _ member)
      rw [value_run_cons]
      refine ⟨later.1, fun member => ?_⟩
      rcases List.mem_cons.mp member with reply | member
      · rcases enter_of_entered reply.symm with ⟨scopes, enters⟩
        exact spent.ne_of_enter enters rfl
      · exact later.2 member

theorem Declarative.scope_ne_of_spent (declarative : session.Declarative)
    (spent : session.scopes.Spent scope) {item : VarId × Variable}
    (member : item ∈ session.store.toList) : item.2.scope ≠ some scope := by
  intro inside
  exact spent.not_live
    (declarative.disciplined.mem_innermostFirst (Sequence.mem_keys member) inside)

/-! ## The main statement -/

/-- No two variables share scope and name, and every scope that is defined is
live. Once a scope is left, no later state has a variable in it and no later
command enters it. -/
theorem variables_distinct_in_live_scopes (declarative : session.Declarative) :
    (Sequence.keys session.store.toList).Nodup ∧
      (∀ item, item ∈ session.store.toList →
        item.2.scope = none ∨ session.scopes.IsLive item.2.scope) ∧
      ∀ scope command later, session.Leaves scope command →
        (∀ each, each ∈ later → each.Declarative) →
        let outcome := ((session.execute command).value.2.run later).value
        (∀ item, item ∈ outcome.2.store.toList →
          item.2.scope ≠ some scope) ∧
          .entered (.ok scope) ∉ outcome.1 := by
  have disciplined := declarative.disciplined
  refine ⟨disciplined.distinct,
    fun item member => disciplined.live _ (Sequence.mem_keys member), ?_⟩
  intro scope command later leaves each
  have declarativeAfter : (session.execute command).value.2.Declarative := by
    cases leaves with
    | leaveScope | shutdown => exact .execute trivial declarative
  have spent := leaves.spent disciplined.ordered
  rcases declarativeAfter.spent_run spent each with ⟨spentFinally, neverEntered⟩
  refine ⟨fun item member => ?_, neverEntered⟩
  exact (declarativeAfter.run each).scope_ne_of_spent spentFinally member

/-- A built-in, a global scalar and a local array share a name. The array ends
with its scope, and the name is used again in the scope entered after it. -/
theorem variables_distinct_in_nested_scopes :
    let session := ((start {}).run
      [.defineType "float" [⟨"value", 4⟩], .declare (.builtin "x" "float"),
        .declare (.scalar "x" "float"), .enterScope,
        .declare (.array "x" "float" 2)]).value.2
    let later : List Command := [.enterScope, .declare (.scalar "x" "float")]
    session.Declarative ∧ session.Leaves ⟨1⟩ .leaveScope ∧
      (∀ each, each ∈ later → each.Declarative) ∧
      Sequence.keys session.store.toList =
        [(none, "x"), (some ⟨0⟩, "x"), (some ⟨1⟩, "x")] ∧
      (Sequence.keys session.store.toList).Nodup ∧
      let outcome := ((session.execute .leaveScope).value.2.run later).value
      (∀ item, item ∈ outcome.2.store.toList → item.2.scope ≠ some ⟨1⟩) ∧
        .entered (.ok ⟨1⟩) ∉ outcome.1 := by
  intro session later
  have declarative : session.Declarative := (Declarative.start {}).run (by decide)
  have leaves : session.Leaves ⟨1⟩ .leaveScope :=
    .leaveScope (show session.leaveScope.value.1 = some (⟨1⟩, 1) by decide)
  have each : ∀ each, each ∈ later → each.Declarative := by decide
  rcases variables_distinct_in_live_scopes declarative with ⟨distinct, _, ends⟩
  exact ⟨declarative, leaves, each, by decide, distinct,
    ends ⟨1⟩ .leaveScope later leaves each⟩

end ScopedVariables.Session
