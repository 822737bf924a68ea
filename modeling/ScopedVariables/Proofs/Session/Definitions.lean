import ScopedVariables.Proofs.ElementType.Registration
import ScopedVariables.Proofs.Session.Reachable

/-! # Registering the same types again

A type table is what its registrations have made of the empty one, and it lists
them in order. So a new session that is given the same definitions in the same
order has the same table, handles included. -/

namespace ScopedVariables.Session

def definitions (types : TypeTable) : List Command :=
  types.descriptors.toList.map fun descriptor =>
    .defineType descriptor.name descriptor.members

theorem definitions_register {table after : TypeTable} {name : String}
    {members : List Member} {id : TypeId}
    (registered : table.register name members = .ok (id, after)) :
    definitions after = definitions table ++ [.defineType name members] := by
  rw [definitions, TypeTable.descriptors_register registered, Array.toList_push,
    List.map_append]
  rfl

theorem value_run_append (session : Session) (earlier later : List Command) :
    (session.run (earlier ++ later)).value =
      ((session.run earlier).value.1 ++
          ((session.run earlier).value.2.run later).value.1,
        ((session.run earlier).value.2.run later).value.2) := by
  induction earlier generalizing session with
  | nil => rfl
  | cons command commands induction =>
      rw [List.cons_append, value_run_cons, value_run_cons, induction]
      rfl

theorem run_definitions {types : TypeTable} (registered : types.Registered)
    (config : SessionConfig) :
    ((start config).run (definitions types)).value.2 =
      { start config with types } := by
  induction registered with
  | empty => rfl
  | @register table after name members id _ registers induction =>
      rw [definitions_register registers, value_run_append, induction]
      change (defineType { start config with types := table } name members).2 = _
      rw [defineType, registers]

theorem Alters.registered {session : Session} {entered : Option ScopeId}
    {types : TypeTable} {scopes : ScopeStack}
    (alters : session.Alters entered types scopes)
    (registered : session.types.Registered) : types.Registered := by
  cases alters with
  | defined registers => exact .register registered registers
  | kept | entered | left | ended => exact registered

theorem Reachable.registered {session : Session} (reachable : session.Reachable) :
    session.types.Registered := by
  induction reachable with
  | start config => exact .empty
  | execute _ _ induction => exact (alters_execute _ _).2.registered induction

theorem registered_run {session : Session} (registered : session.types.Registered)
    (commands : List Command) :
    (session.run commands).value.2.types.Registered := by
  induction commands generalizing session with
  | nil => exact registered
  | cons command commands induction =>
      rw [value_run_cons]
      exact induction ((alters_execute session command).2.registered registered)

end ScopedVariables.Session
