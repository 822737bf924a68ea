import ScopedVariables.Store.Operation

/-! # Commands of a store

The operations that may change a store, as data, so that a whole history of
calls can be run and reasoned about. -/

namespace ScopedVariables.Store

inductive Command where
  | add (var : Variable)
  | remove (id : VarId)
  | removeByName (name : String)
  | removeScope (scope : ScopeId)
  | destroyAll
  | write (id : VarId) (write : Variable.Write)
  deriving DecidableEq

inductive Reply where
  | added (id : VarId)
  | removed (var : Option Variable)
  | found (found : Bool)
  | removedCount (count : Nat)
  | done
  | written (replaced : Option (Option ByteArray))
  deriving DecidableEq

def execute (store : Store) : Command → Logged (Reply × Store)
  | .add var => do
      let (id, store) ← store.add var
      pure (.added id, store)
  | .remove id => do
      let (removed, store) ← store.remove id
      pure (.removed removed, store)
  | .removeByName name => do
      let (found, store) ← store.removeByName name
      pure (.found found, store)
  | .removeScope scope => do
      let (count, store) ← store.removeScope scope
      pure (.removedCount count, store)
  | .destroyAll => do
      let store ← store.destroyAll
      pure (.done, store)
  | .write id write =>
      let (replaced, store) := store.write id write
      pure (.written replaced, store)

def run (store : Store) : List Command → Logged (List Reply × Store)
  | [] => pure ([], store)
  | command :: commands => do
      let (reply, store) ← store.execute command
      let (replies, store) ← store.run commands
      pure (reply :: replies, store)

/-! ## What a command yields -/

@[simp] theorem value_execute_add (store : Store) (var : Variable) :
    (store.execute (.add var)).value =
      (.added (store.link var).1, (store.link var).2) := by
  rw [← value_add]
  rfl

@[simp] theorem value_execute_remove (store : Store) (id : VarId) :
    (store.execute (.remove id)).value =
      (.removed (store.remove id).value.1, (store.remove id).value.2) := rfl

@[simp] theorem value_execute_removeByName (store : Store) (name : String) :
    (store.execute (.removeByName name)).value =
      (.found (store.removeByName name).value.1,
        (store.removeByName name).value.2) := rfl

@[simp] theorem value_execute_removeScope (store : Store) (scope : ScopeId) :
    (store.execute (.removeScope scope)).value =
      (.removedCount (store.removeScope scope).value.1,
        (store.removeScope scope).value.2) := rfl

@[simp] theorem value_execute_destroyAll (store : Store) :
    (store.execute .destroyAll).value = (.done, store.destroyAll.value) := rfl

@[simp] theorem value_execute_write (store : Store) (id : VarId)
    (write : Variable.Write) :
    (store.execute (.write id write)).value =
      (.written (store.write id write).1, (store.write id write).2) := rfl

@[simp] theorem value_run_nil (store : Store) :
    (store.run []).value = ([], store) := rfl

theorem value_run_cons (store : Store) (command : Command)
    (commands : List Command) :
    (store.run (command :: commands)).value =
      ((store.execute command).value.1 ::
          ((store.execute command).value.2.run commands).value.1,
        ((store.execute command).value.2.run commands).value.2) := rfl

theorem value_run_append (store : Store) (earlier later : List Command) :
    (store.run (earlier ++ later)).value =
      ((store.run earlier).value.1 ++ ((store.run earlier).value.2.run later).value.1,
        ((store.run earlier).value.2.run later).value.2) := by
  induction earlier generalizing store with
  | nil => rfl
  | cons command earlier induction =>
      rw [List.cons_append, value_run_cons, value_run_cons, induction]
      rfl

end ScopedVariables.Store
