import ScopedVariables.Log.Logged
import ScopedVariables.Store.Link

/-! # Operations of a store

The operations that clients call: each changes the store and reports what it
does. Removing hands a variable out; destroying ends it. A handle that does not
resolve changes nothing. -/

namespace ScopedVariables.Store

open Log Logged

def add (store : Store) (var : Variable) : Logged (VarId × Store) :=
  within (.add var.name) do
    let (id, after) := store.link var
    -- the tail that was found still resolves, see append
    if (store.scopeTail? var.scope).isNone then
      note (.chainStarted var.scope)
    note (.linked id after.count)
    pure (id, after)

def remove (store : Store) (id : VarId) : Logged (Option Variable × Store) :=
  match store.unlink id with
  | none => pure (none, store)
  | some (var, store) => do
      note (.unlinked var.name store.count)
      pure (some var, store)

def ending (var : Variable) : Event :=
  .destroying var.name var.payloadCount var.internal.isSome

def destroy : Option Variable → Logged Unit
  | none => pure ()
  | some var => note (ending var)

def removeByName (store : Store) (name : String) : Logged (Bool × Store) :=
  within (.removeByName name) do
    match store.findByName name with
    | none =>
        note .nameMissing
        pure (false, store)
    | some id =>
        let (removed, store) ← store.remove id
        destroy removed
        pure (removed.isSome, store)

def discard (store : Store) : List VarId → Logged Store
  | [] => pure store
  | id :: ids => do
      let (removed, store) ← store.remove id
      destroy removed
      store.discard ids

def removeScope (store : Store) (scope : ScopeId) : Logged (Nat × Store) :=
  within (.removeScope scope) do
    let members := (store.scopeList scope).map Prod.fst
    let store ← store.discard members
    pure (members.length, store)

def destroyAll (store : Store) : Logged Store :=
  within (.destroyAll store.count) do
    let (vars, store) := store.clear
    notes (vars.map ending)
    pure store

/-- Write to a variable in place. The reply holds the bytes that the write
replaces, and is absent if the handle does not resolve. -/
def write (store : Store) (id : VarId) (write : Variable.Write) :
    Option (Option ByteArray) × Store :=
  ((store.get? id).map (·.replaced write),
    store.modify id fun entry => { entry with var := entry.var.write write })

/-! ## What each operation yields and what it reports -/

@[simp] theorem value_add (store : Store) (var : Variable) :
    (store.add var).value = store.link var := by
  unfold add
  cases store.scopeTail? var.scope <;> rfl

theorem log_add (store : Store) (var : Variable) :
    (store.add var).log =
      .enter (.add var.name) ::
        (if (store.scopeTail? var.scope).isNone then
          [.event (.chainStarted var.scope)] else []) ++
        [.event (.linked (store.link var).1 (store.link var).2.count),
          .exit (.add var.name)] := by
  unfold add
  cases store.scopeTail? var.scope <;> rfl

@[simp] theorem log_destroy (var : Variable) :
    (destroy (some var)).log =
      [.event (.destroying var.name var.payloadCount var.internal.isSome)] := rfl

theorem remove_of_unlink_eq_none {store : Store} {id : VarId}
    (stale : store.unlink id = none) :
    store.remove id = pure (none, store) := by
  simp [remove, stale]

theorem remove_of_unlink_eq_some {store after : Store} {id : VarId}
    {var : Variable} (unlinked : store.unlink id = some (var, after)) :
    store.remove id =
      ⟨(some var, after), [.event (.unlinked var.name after.count)]⟩ := by
  simp only [remove, unlinked]
  rfl

theorem discard_cons (store : Store) (id : VarId) (ids : List VarId) :
    store.discard (id :: ids) =
      ⟨((store.remove id).value.2.discard ids).value,
        (store.remove id).log ++ (destroy (store.remove id).value.1).log ++
          ((store.remove id).value.2.discard ids).log⟩ := by
  rw [List.append_assoc]
  rfl

@[simp] theorem value_removeScope (store : Store) (scope : ScopeId) :
    (store.removeScope scope).value =
      ((store.scopeList scope).length,
        (store.discard ((store.scopeList scope).map Prod.fst)).value) := by
  simp [removeScope]

theorem log_removeScope (store : Store) (scope : ScopeId) :
    (store.removeScope scope).log =
      .enter (.removeScope scope) ::
        (store.discard ((store.scopeList scope).map Prod.fst)).log ++
        [.exit (.removeScope scope)] := by
  simp [removeScope]

@[simp] theorem value_destroyAll (store : Store) :
    store.destroyAll.value = store.clear.2 := rfl

theorem log_destroyAll (store : Store) :
    store.destroyAll.log =
      .enter (.destroyAll store.count) ::
        store.clear.1.map (fun var =>
          .event (.destroying var.name var.payloadCount var.internal.isSome)) ++
        [.exit (.destroyAll store.count)] := by
  simp [destroyAll, ending]

end ScopedVariables.Store
