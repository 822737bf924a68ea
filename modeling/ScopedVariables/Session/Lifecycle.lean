import ScopedVariables.Session.Basic
import ScopedVariables.Session.Error

/-! # Scopes and the end of a session

Entering a scope only makes it current. Leaving it removes its variables, and
shutting down leaves every scope and destroys whatever is still linked. Types,
configuration and the supply of scope handles outlast a shutdown. -/

namespace ScopedVariables.Session

open Log Logged

def enterScope (session : Session) :
    Logged (Except SessionError ScopeId × Session) :=
  -- the depth limit is checked before the supply of handles
  let limit := session.config.maxScopeDepth
  if limit ≤ session.scopes.depth then
    pure (.error (.scopeDepth limit), session)
  else
    match session.scopes.enter with
    | none => pure (.error .scopesExhausted, session)
    | some (scope, scopes) => do
        note (.scopeEntered scope scopes.depth)
        pure (.ok scope, { session with scopes })

def leaveScope (session : Session) :
    Logged (Option (ScopeId × Nat) × Session) :=
  match session.scopes.leave with
  | none => pure (none, session)
  | some (scope, scopes) => do
      if session.config.logScopeRemovals then
        notes ((session.store.scopeList scope).map fun (id, var) =>
          .removing scope id var.name)
      let (removed, store) ← session.store.removeScope scope
      note (.scopeLeft scope removed)
      pure (some (scope, removed), { session with scopes, store })

def shutdown (session : Session) : Logged Session := do
  let session := { session with scopes := session.scopes.leaveAll }
  if session.store.isEmpty then
    pure session
  else
    note (.sessionEnding session.store.count)
    let store ← session.store.destroyAll
    pure { session with store }

def remove (session : Session) (name : String) : Logged (Bool × Session) := do
  let (found, store) ← session.store.removeByName name
  pure (found, { session with store })

/-! ## What each operation yields -/

theorem enterScope_of_deep {session : Session}
    (deep : session.config.maxScopeDepth ≤ session.scopes.depth) :
    session.enterScope =
      pure (.error (.scopeDepth session.config.maxScopeDepth), session) := by
  rw [enterScope, if_pos deep]

theorem enterScope_of_none {session : Session}
    (shallow : session.scopes.depth < session.config.maxScopeDepth)
    (exhausted : session.scopes.enter = none) :
    session.enterScope = pure (.error .scopesExhausted, session) := by
  rw [enterScope, if_neg (Nat.not_le.mpr shallow), exhausted]

theorem value_enterScope_of_some {session : Session} {scope : ScopeId}
    {scopes : ScopeStack}
    (shallow : session.scopes.depth < session.config.maxScopeDepth)
    (enters : session.scopes.enter = some (scope, scopes)) :
    session.enterScope.value = (.ok scope, { session with scopes }) := by
  rw [enterScope, if_neg (Nat.not_le.mpr shallow), enters]
  rfl

theorem enterScope_eq_ok {session : Session} {scope : ScopeId}
    (entered : session.enterScope.value.1 = .ok scope) :
    ∃ scopes, session.scopes.enter = some (scope, scopes) ∧
      session.enterScope.value.2 = { session with scopes } := by
  rw [enterScope] at entered ⊢
  split at entered
  · cases entered
  · rename_i shallow
    rw [if_neg shallow]
    split at entered
    · cases entered
    · rename_i issued
      cases entered
      exact ⟨_, issued, rfl⟩

theorem enterScope_eq_error {session : Session} {error : SessionError}
    (refused : session.enterScope.value.1 = .error error) :
    session.enterScope.value.2 = session := by
  rw [enterScope] at refused ⊢
  split
  · rfl
  · rename_i shallow
    rw [if_neg shallow] at refused
    split
    · rfl
    · rename_i issued
      rw [issued] at refused
      cases refused

theorem leaveScope_of_none {session : Session}
    (outermost : session.scopes.leave = none) :
    session.leaveScope = pure (none, session) := by
  rw [leaveScope, outermost]

theorem value_leaveScope_of_some {session : Session} {scope : ScopeId}
    {scopes : ScopeStack} (left : session.scopes.leave = some (scope, scopes)) :
    session.leaveScope.value =
      (some (scope, (session.store.removeScope scope).value.1),
        { session with
          scopes, store := (session.store.removeScope scope).value.2 }) := by
  rw [leaveScope, left]
  cases session.config.logScopeRemovals <;> rfl

theorem value_shutdown (session : Session) :
    session.shutdown.value =
      { session with
        scopes := session.scopes.leaveAll
        store := if session.store.isEmpty then session.store
          else session.store.destroyAll.value } := by
  cases ended : session.store.isEmpty <;> simp [shutdown, ended]

@[simp] theorem value_remove (session : Session) (name : String) :
    (session.remove name).value =
      ((session.store.removeByName name).value.1,
        { session with store := (session.store.removeByName name).value.2 }) := rfl

end ScopedVariables.Session
