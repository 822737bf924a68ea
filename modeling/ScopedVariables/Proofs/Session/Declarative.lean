import ScopedVariables.Proofs.Session.Reachable

/-! # Sessions that link by declaring

An evaluator that leaves the linking of variables to declarations may still
remove them in any way, write to them and move between scopes. What one such
command can do to the live scopes and to the sequence of variables is said here
once, as a list of cases. -/

namespace ScopedVariables

open Sequence (ids)

theorem Declaration.name_and_scope_of_build {declaration : Declaration}
    {current : ScopeId} {descriptor : TypeDescriptor} {var : Variable}
    (success : declaration.build current descriptor = .ok var) :
    var.name = declaration.name ∧ var.scope = declaration.scope current := by
  cases declaration with
  | scalar name typeName | builtin name typeName =>
      rcases Variable.ofValues_eq_ok_iff.mp success with ⟨_, rfl⟩
      exact ⟨rfl, rfl⟩
  | array name typeName length =>
      rcases Variable.ofValues_eq_ok_iff.mp success with ⟨_, rfl⟩
      exact ⟨rfl, rfl⟩

theorem Declaration.scope_cases (declaration : Declaration) (current : ScopeId) :
    declaration.scope current = none ∨
      declaration.scope current = some current := by
  cases declaration with
  | scalar | array => exact Or.inr rfl
  | builtin => exact Or.inl rfl

namespace Session

/-! ## Declarative commands -/

def Command.Declarative : Command → Prop
  | .store (.add _) => False
  | _ => True

instance : DecidablePred Command.Declarative
  | .store (.add _) => .isFalse id
  | .store (.remove _) | .store (.removeByName _) | .store (.removeScope _)
  | .store .destroyAll | .store (.write _ _) | .defineType _ _ | .enterScope
  | .leaveScope | .declare _ | .lookup _ | .remove _ | .shutdown => .isTrue trivial

theorem Command.Declarative.admissible {command : Command}
    (declarative : command.Declarative) : command.Admissible := by
  cases command with
  | store command =>
      cases command with
      | add var => exact declarative.elim
      | _ => trivial
  | _ => trivial

inductive Declarative : Session → Prop
  | start (config : SessionConfig) : Declarative (start config)
  | execute {session : Session} {command : Command} :
      command.Declarative → Declarative session →
      Declarative (session.execute command).value.2

theorem Declarative.reachable {session : Session}
    (declarative : session.Declarative) : session.Reachable := by
  induction declarative with
  | start config => exact .start config
  | execute command _ induction => exact .execute command.admissible induction

theorem Declarative.run {session : Session} {commands : List Command}
    (declarative : session.Declarative)
    (each : ∀ command, command ∈ commands → command.Declarative) :
    (session.run commands).value.2.Declarative := by
  induction commands generalizing session with
  | nil => exact declarative
  | cons command rest induction =>
      rw [value_run_cons]
      apply induction (.execute (each command List.mem_cons_self) declarative)
      intro later member
      exact each later (List.mem_cons_of_mem _ member)

theorem Declarative.represents {session : Session}
    (declarative : session.Declarative) :
    session.store.Represents session.store.toList :=
  declarative.reachable.represents.1

/-! ## What a prepared declaration has passed -/

theorem prepare_eq_ok {session : Session} {declaration : Declaration}
    {var : Variable} (prepared : session.prepare declaration = .ok var) :
    var.name = declaration.name ∧
      var.scope = declaration.scope session.scopes.current ∧
      session.isDeclared var.scope var.name = false := by
  rcases prepare_eq_ok_iff.mp prepared with ⟨unused, _, _, built⟩
  rcases Declaration.name_and_scope_of_build built with ⟨name, scope⟩
  rw [name, scope]
  exact ⟨rfl, rfl, unused⟩

/-! ## What a declarative command does -/

inductive Effect (session : Session) : ScopeStack → Sequence → Prop
  | entered {scope : ScopeId} {scopes : ScopeStack} :
      session.scopes.enter = some (scope, scopes) →
      Effect session scopes session.store.toList
  | left {scope : ScopeId} {scopes : ScopeStack} :
      session.scopes.leave = some (scope, scopes) →
      Effect session scopes (Sequence.withoutScope session.store.toList scope)
  | declared {declaration : Declaration} {var : Variable} {id : VarId} :
      session.prepare declaration = .ok var →
      id ∉ ids session.store.toList →
      Effect session session.scopes (session.store.toList ++ [(id, var)])
  | removed {items : Sequence} :
      items.Sublist session.store.toList →
      Effect session session.scopes items
  | written (id : VarId) (write : Variable.Write) :
      Effect session session.scopes
        (Sequence.update session.store.toList id (·.write write))
  | ended : Effect session session.scopes.leaveAll []

section Effect

variable {session : Session}

theorem Effect.unchanged (session : Session) :
    session.Effect session.scopes session.store.toList :=
  .removed (.refl _)

private theorem effect_enterScope (session : Session) :
    session.Effect session.enterScope.value.2.scopes
      session.enterScope.value.2.store.toList := by
  rw [enterScope]
  split
  · exact .unchanged session
  · split
    · exact .unchanged session
    · rename_i entered
      exact .entered entered

variable (represents : session.store.Represents session.store.toList)

include represents

private theorem effect_leaveScope :
    session.Effect session.leaveScope.value.2.scopes
      session.leaveScope.value.2.store.toList := by
  cases left : session.scopes.leave with
  | none =>
      rw [leaveScope_of_none left]
      exact .unchanged session
  | some outcome =>
      rw [value_leaveScope_of_some left, (represents.removeScope _).2.toList_eq]
      exact .left left

private theorem effect_declare (declaration : Declaration) :
    session.Effect (session.declare declaration).value.2.scopes
      (session.declare declaration).value.2.store.toList := by
  cases prepared : session.prepare declaration with
  | error error =>
      rw [declare_of_error prepared]
      exact .unchanged session
  | ok var =>
      rw [value_declare_of_ok prepared, (represents.link var).toList_eq]
      exact .declared prepared (represents.place_fresh var)

private theorem effect_shutdown :
    session.Effect session.shutdown.value.scopes
      session.shutdown.value.store.toList := by
  have nothing : session.shutdown.value.store.toList = [] := by
    rw [value_shutdown]
    cases isEmpty : session.store.isEmpty with
    | true =>
        rw [represents.isEmpty_eq] at isEmpty
        exact List.isEmpty_iff.mp isEmpty
    | false => exact represents.destroyAll.toList_eq
  rw [nothing, value_shutdown]
  exact .ended

private theorem effect_store {command : Store.Command}
    (declarative : (Command.store command).Declarative) :
    session.Effect session.scopes
      (session.store.execute command).value.2.toList := by
  cases command with
  | add var => exact declarative.elim
  | remove id =>
      rw [Store.value_execute_remove, (represents.remove id).2.toList_eq]
      exact .removed List.filter_sublist
  | removeByName name =>
      rw [Store.value_execute_removeByName,
        (represents.removeByName name).2.toList_eq]
      exact .removed List.eraseP_sublist
  | removeScope scope =>
      rw [Store.value_execute_removeScope,
        (represents.removeScope scope).2.toList_eq]
      exact .removed List.filter_sublist
  | destroyAll =>
      rw [Store.value_execute_destroyAll, represents.destroyAll.toList_eq]
      exact .removed (List.nil_sublist _)
  | write id write =>
      rw [Store.value_execute_write, (represents.write id write).2.toList_eq]
      exact .written id write

theorem effect_execute {command : Command} (declarative : command.Declarative) :
    session.Effect (session.execute command).value.2.scopes
      (session.execute command).value.2.store.toList := by
  cases command with
  | defineType name members =>
      change session.Effect (session.defineType name members).2.scopes
        (session.defineType name members).2.store.toList
      rw [defineType]
      split <;> exact .unchanged session
  | enterScope => exact effect_enterScope session
  | leaveScope => exact effect_leaveScope represents
  | declare declaration => exact effect_declare represents declaration
  | lookup name => exact .unchanged session
  | remove name =>
      change session.Effect session.scopes
        (session.store.removeByName name).value.2.toList
      rw [(represents.removeByName name).2.toList_eq]
      exact .removed List.eraseP_sublist
  | shutdown => exact effect_shutdown represents
  | store command => exact effect_store represents declarative

end Effect

end Session

end ScopedVariables
