import ScopedVariables.Session.Command
import ScopedVariables.Proofs.Store.Refinement

/-! # Reachable sessions

A session is reachable if commands lead to it from the start of some session.
An evaluator may link any variable through the store, provided that it was
built as variables are, and perhaps written to since. Whatever a session does
to its store, it does by commands of the store, so the store of a reachable
session represents a sequence. -/

namespace ScopedVariables

/-! ## Built variables -/

inductive Variable.Built : Variable → Prop
  | ofValues {name scope descriptor shape values var} :
      Variable.ofValues name scope descriptor shape values = .ok var →
      Built var
  | write {var} (write : Variable.Write) : Built var → Built (var.write write)

theorem Variable.Built.name_ne {var : Variable} (built : var.Built) :
    var.name ≠ "" := by
  induction built with
  | ofValues success =>
      rcases Variable.ofValues_eq_ok_iff.mp success with ⟨⟨isName, _⟩, rfl⟩
      exact isName
  | write write _ induction =>
      rw [Variable.name_write]
      exact induction

theorem Declaration.built_of_build {declaration : Declaration}
    {current : ScopeId} {descriptor : TypeDescriptor} {var : Variable}
    (success : declaration.build current descriptor = .ok var) : var.Built := by
  cases declaration <;> exact .ofValues success

/-! ## Sequences of built variables -/

namespace Sequence

def Built (items : Sequence) : Prop :=
  ∀ item, item ∈ items → item.2.Built

theorem Runs.built {items after : Sequence} {commands : List Store.Command}
    {replies : List Store.Reply} (runs : items.Runs commands replies after)
    (built : items.Built)
    (linked : ∀ var, .add var ∈ commands → var.Built) : after.Built := by
  refine runs.forall_items (fun _ var => var.Built) ?_ built ?_
  · exact fun _ _ write builtVar => .write write builtVar
  · exact fun _ var member => linked var member

end Sequence

namespace Session

/-! ## What a session does to its store -/

def storeCommands (session : Session) : Command → List Store.Command
  | .defineType _ _ | .enterScope | .lookup _ => []
  | .leaveScope =>
      match session.scopes.leave with
      | none => []
      | some (scope, _) => [.removeScope scope]
  | .declare declaration =>
      match session.prepare declaration with
      | .error _ => []
      | .ok var => [.add var]
  | .remove name => [.removeByName name]
  | .shutdown => if session.store.isEmpty then [] else [.destroyAll]
  | .store command => [command]

theorem store_execute (session : Session) (command : Command) :
    (session.execute command).value.2.store =
      (session.store.run (session.storeCommands command)).value.2 := by
  cases command with
  | defineType name members =>
      change (session.defineType name members).2.store = session.store
      rw [defineType]
      split <;> rfl
  | enterScope =>
      change session.enterScope.value.2.store = session.store
      rw [enterScope]
      split
      · rfl
      · split <;> rfl
  | leaveScope =>
      change session.leaveScope.value.2.store = _
      rw [storeCommands]
      cases left : session.scopes.leave with
      | none =>
          rw [leaveScope_of_none left]
          rfl
      | some outcome =>
          rw [value_leaveScope_of_some left]
          rfl
  | declare declaration =>
      change (session.declare declaration).value.2.store = _
      rw [storeCommands]
      cases prepared : session.prepare declaration with
      | error error =>
          rw [declare_of_error prepared]
          rfl
      | ok var =>
          rw [value_declare_of_ok prepared, Store.value_run_cons,
            Store.value_execute_add]
          rfl
  | lookup name => rfl
  | remove name => rfl
  | shutdown =>
      change session.shutdown.value.store = _
      rw [value_shutdown, storeCommands]
      cases session.store.isEmpty <;> rfl
  | store command => rfl

/-! ## What a session does to its other parts -/

def Reply.entered? : Reply → Option ScopeId
  | .entered (.ok scope) => some scope
  | _ => none

/-- What a command may do to types and scopes. A scope is entered exactly if the
reply says so. -/
inductive Alters (session : Session) :
    Option ScopeId → TypeTable → ScopeStack → Prop
  | kept : Alters session none session.types session.scopes
  | defined {name members id types} :
      session.types.register name members = .ok (id, types) →
      Alters session none types session.scopes
  | entered {scope scopes} :
      session.scopes.enter = some (scope, scopes) →
      Alters session (some scope) session.types scopes
  | left {scope scopes} :
      session.scopes.leave = some (scope, scopes) →
      Alters session none session.types scopes
  | ended : Alters session none session.types session.scopes.leaveAll

theorem alters_execute (session : Session) (command : Command) :
    let outcome := (session.execute command).value
    outcome.2.config = session.config ∧
      session.Alters outcome.1.entered? outcome.2.types outcome.2.scopes := by
  cases command with
  | defineType name members =>
      rw [value_execute_defineType]
      cases registered : session.types.register name members with
      | error error =>
          rw [defineType_of_error registered]
          exact ⟨rfl, .kept⟩
      | ok outcome =>
          rw [defineType_of_ok registered]
          exact ⟨rfl, .defined registered⟩
  | enterScope =>
      rw [value_execute_enterScope]
      cases outcome : session.enterScope.value.1 with
      | error error =>
          rw [enterScope_eq_error outcome]
          exact ⟨rfl, .kept⟩
      | ok scope =>
          rcases enterScope_eq_ok outcome with ⟨scopes, enters, after⟩
          rw [after]
          exact ⟨rfl, .entered enters⟩
  | leaveScope =>
      rw [value_execute_leaveScope]
      cases leaves : session.scopes.leave with
      | none =>
          rw [leaveScope_of_none leaves]
          exact ⟨rfl, .kept⟩
      | some outcome =>
          rw [value_leaveScope_of_some leaves]
          exact ⟨rfl, .left leaves⟩
  | declare declaration =>
      rw [value_execute_declare]
      cases prepared : session.prepare declaration with
      | error error =>
          rw [declare_of_error prepared]
          exact ⟨rfl, .kept⟩
      | ok var =>
          rw [value_declare_of_ok prepared]
          exact ⟨rfl, .kept⟩
  | shutdown =>
      rw [value_execute_shutdown, value_shutdown]
      exact ⟨rfl, .ended⟩
  | lookup | remove | store => exact ⟨rfl, .kept⟩

theorem config_execute (session : Session) (command : Command) :
    (session.execute command).value.2.config = session.config :=
  (alters_execute session command).1

theorem config_run (session : Session) (commands : List Command) :
    (session.run commands).value.2.config = session.config := by
  induction commands generalizing session with
  | nil => rfl
  | cons command commands induction =>
      rw [value_run_cons]
      exact (induction _).trans (config_execute session command)

/-! ## Reachability -/

/-- An evaluator links nothing but variables that were built. -/
def Command.Admissible : Command → Prop
  | .store (.add var) => var.Built
  | _ => True

inductive Reachable : Session → Prop
  | start (config : SessionConfig) : Reachable (start config)
  | execute {session : Session} {command : Command} :
      command.Admissible → Reachable session →
      Reachable (session.execute command).value.2

theorem Reachable.run {session : Session} {commands : List Command}
    (reachable : session.Reachable)
    (admissible : ∀ command, command ∈ commands → command.Admissible) :
    (session.run commands).value.2.Reachable := by
  induction commands generalizing session with
  | nil => exact reachable
  | cons command rest induction =>
      apply induction (.execute (admissible command List.mem_cons_self) reachable)
      intro later member
      exact admissible later (List.mem_cons_of_mem _ member)

theorem prepare_eq_ok_iff {session : Session} {declaration : Declaration}
    {var : Variable} :
    session.prepare declaration = .ok var ↔
      session.isDeclared (declaration.scope session.scopes.current)
          declaration.name = false ∧
        ∃ descriptor, session.types.lookup declaration.typeName = some descriptor ∧
          declaration.build session.scopes.current descriptor = .ok var := by
  rw [prepare]
  cases session.isDeclared (declaration.scope session.scopes.current)
    declaration.name with
  | true => simp
  | false =>
      cases session.types.lookup declaration.typeName with
      | none => simp
      | some descriptor =>
          cases outcome : declaration.build session.scopes.current descriptor with
          | error error => simp [outcome, Except.mapError]
          | ok built => simp [outcome, Except.mapError]

theorem add_mem_storeCommands {session : Session} {command : Command}
    {var : Variable} (member : .add var ∈ session.storeCommands command) :
    (∃ declaration, command = .declare declaration ∧
        session.prepare declaration = .ok var) ∨
      command = .store (.add var) := by
  cases command with
  | defineType | enterScope | lookup => cases member
  | leaveScope =>
      rw [storeCommands] at member
      split at member <;> simp at member
  | declare declaration =>
      rw [storeCommands] at member
      cases prepared : session.prepare declaration with
      | error error => simp [prepared] at member
      | ok declared =>
          simp only [prepared, List.mem_singleton, Store.Command.add.injEq] at member
          rw [member]
          exact .inl ⟨declaration, rfl, prepared⟩
  | remove name => simp [storeCommands] at member
  | shutdown =>
      rw [storeCommands] at member
      split at member <;> simp at member
  | store command =>
      rw [storeCommands, List.mem_singleton] at member
      rw [member]
      exact .inr rfl

theorem built_of_mem_storeCommands {session : Session} {command : Command}
    (admissible : command.Admissible) {var : Variable}
    (member : .add var ∈ session.storeCommands command) : var.Built := by
  rcases add_mem_storeCommands member with ⟨declaration, rfl, prepared⟩ | rfl
  · rcases prepare_eq_ok_iff.mp prepared with ⟨_, _, _, built⟩
    exact Declaration.built_of_build built
  · exact admissible

theorem Reachable.represents {session : Session}
    (reachable : session.Reachable) :
    session.store.Represents session.store.toList ∧
      Sequence.Built session.store.toList := by
  induction reachable with
  | start config =>
      rw [store_start]
      exact ⟨Store.represents_empty, fun item member => nomatch member⟩
  | @execute session command admissible _ induction =>
      rcases induction with ⟨represents, built⟩
      rcases represents.run (session.storeCommands command) with
        ⟨after, runs, representsAfter⟩
      rw [store_execute, representsAfter.toList_eq]
      refine ⟨representsAfter, ?_⟩
      apply runs.built built
      intro var member
      exact built_of_mem_storeCommands admissible member

end Session

end ScopedVariables
