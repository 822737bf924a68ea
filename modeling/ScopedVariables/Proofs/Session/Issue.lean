import ScopedVariables.Proofs.Scope.Renewal
import ScopedVariables.Proofs.Session.Reachable
import ScopedVariables.Proofs.Store.Aliasing

/-! # What a session issues

A session numbers the scopes that it enters one by one, whatever happens in
between, and its store forgets no handle that it has issued. So neither a scope
nor a handle comes back once it is gone, not even after a shutdown. -/

namespace ScopedVariables.Session

variable {session : Session} {count : Nat}

/-! ## Scopes -/

def enteredBy (replies : List Reply) : List ScopeId :=
  replies.filterMap Reply.entered?

theorem enteredBy_cons (reply : Reply) (replies : List Reply) :
    enteredBy (reply :: replies) = reply.entered?.toList ++ enteredBy replies := by
  simp only [enteredBy, List.filterMap_eq_flatMap_toList, List.flatMap_cons]

theorem Alters.hasIssued {entered : Option ScopeId} {types : TypeTable}
    {scopes : ScopeStack} (alters : session.Alters entered types scopes)
    (issued : session.scopes.HasIssued count) :
    entered.toList.map (·.raw.toNat) = List.range' (count + 1) entered.toList.length ∧
      scopes.HasIssued (count + entered.toList.length) := by
  cases alters with
  | entered enters =>
      refine ⟨?_, issued.enter enters⟩
      simp [issued.number_of_enter enters]
  | left leaves => exact ⟨rfl, issued.leave leaves⟩
  | ended => exact ⟨rfl, issued.leaveAll⟩
  | kept | defined => exact ⟨rfl, issued⟩

theorem hasIssued_run (issued : session.scopes.HasIssued count)
    (commands : List Command) :
    (enteredBy (session.run commands).value.1).map (·.raw.toNat) =
        List.range' (count + 1) (enteredBy (session.run commands).value.1).length ∧
      (session.run commands).value.2.scopes.HasIssued
        (count + (enteredBy (session.run commands).value.1).length) := by
  induction commands generalizing session count with
  | nil => exact ⟨rfl, issued⟩
  | cons command commands induction =>
      rcases (alters_execute session command).2.hasIssued issued with
        ⟨firstNumbers, issuedAfter⟩
      rcases induction issuedAfter with ⟨laterNumbers, issuedFinally⟩
      rw [value_run_cons, enteredBy_cons, List.map_append, List.length_append,
        firstNumbers, laterNumbers, Nat.add_right_comm, List.range'_append_1,
        ← Nat.add_assoc]
      exact ⟨rfl, issuedFinally⟩

theorem number_of_mem_enteredBy (issued : session.scopes.HasIssued count)
    {commands : List Command} {scope : ScopeId}
    (member : scope ∈ enteredBy (session.run commands).value.1) :
    count < scope.raw.toNat ∧
      scope.raw.toNat ≤ count + (enteredBy (session.run commands).value.1).length := by
  have numbered := List.mem_map_of_mem (f := (·.raw.toNat)) member
  rw [(hasIssued_run issued commands).1, List.mem_range'_1] at numbered
  omega

theorem hasIssued_shutdown (issued : session.scopes.HasIssued count) :
    session.shutdown.value.scopes.HasIssued count := by
  rw [value_shutdown]
  exact issued.leaveAll

/-! ## Handles -/

theorem represents_execute
    (represents : session.store.Represents session.store.toList) (command : Command) :
    (session.execute command).value.2.store.Represents
      (session.execute command).value.2.store.toList := by
  rcases represents.run (session.storeCommands command) with ⟨after, _, representsAfter⟩
  rw [store_execute, representsAfter.toList_eq]
  exact representsAfter

theorem represents_start (config : SessionConfig) :
    (start config).store.Represents (start config).store.toList := by
  rw [store_start]
  exact Store.represents_empty

theorem represents_run (represents : session.store.Represents session.store.toList)
    (commands : List Command) :
    (session.run commands).value.2.store.Represents
      (session.run commands).value.2.store.toList := by
  induction commands generalizing session with
  | nil => exact represents
  | cons command commands induction =>
      rw [value_run_cons]
      exact induction (represents_execute represents command)

theorem remembers_execute
    (represents : session.store.Represents session.store.toList) (command : Command) :
    session.store.Remembers (session.execute command).value.2.store := by
  rw [store_execute]
  exact .run represents (session.storeCommands command)

theorem remembers_run (represents : session.store.Represents session.store.toList)
    (commands : List Command) :
    session.store.Remembers (session.run commands).value.2.store := by
  induction commands generalizing session with
  | nil => exact .refl session.store
  | cons command commands induction =>
      rw [value_run_cons]
      exact (remembers_execute represents command).trans
        (induction (represents_execute represents command))

def Reply.linked? : Reply → Option VarId
  | .declared (.ok id) | .store (.added id) => some id
  | _ => none

def issuedBy (replies : List Reply) : List VarId :=
  replies.filterMap Reply.linked?

theorem issuedBy_cons (reply : Reply) (replies : List Reply) :
    issuedBy (reply :: replies) = reply.linked?.toList ++ issuedBy replies := by
  simp only [issuedBy, List.filterMap_eq_flatMap_toList, List.flatMap_cons]

theorem issued_execute (represents : session.store.Represents session.store.toList)
    {command : Command} {id : VarId}
    (linked : (session.execute command).value.1.linked? = some id) :
    (session.execute command).value.2.store.Issued id := by
  cases command with
  | declare declaration =>
      rw [value_execute_declare] at linked ⊢
      cases prepared : session.prepare declaration with
      | error error =>
          rw [declare_of_error prepared] at linked
          cases linked
      | ok var =>
          rw [value_declare_of_ok prepared] at linked ⊢
          cases linked
          exact represents.tidy.issued_link var
  | store command =>
      rw [value_execute_store] at linked ⊢
      cases command with
      | add var =>
          rw [Store.value_execute_add] at linked ⊢
          cases linked
          exact represents.tidy.issued_link var
      | _ => cases linked
  | _ => cases linked

theorem issued_run (represents : session.store.Represents session.store.toList)
    {commands : List Command} {id : VarId}
    (member : id ∈ issuedBy (session.run commands).value.1) :
    (session.run commands).value.2.store.Issued id := by
  induction commands generalizing session with
  | nil => cases member
  | cons command commands induction =>
      have representsAfter := represents_execute represents command
      rw [value_run_cons, issuedBy_cons, List.mem_append, Option.mem_toList] at member
      rw [value_run_cons]
      cases member with
      | inl linked =>
          exact remembers_run representsAfter commands id
            (issued_execute represents linked)
      | inr later => exact induction representsAfter later

theorem stale_run (represents : session.store.Represents session.store.toList)
    {id : VarId} (issued : session.store.Issued id)
    (unresolved : session.store.resolve? id = none) (commands : List Command) :
    (session.run commands).value.2.store.Stale id := by
  induction commands generalizing session with
  | nil => exact Store.stale_of_resolve?_eq_none unresolved
  | cons command commands induction =>
      rw [value_run_cons]
      apply induction (represents_execute represents command)
        (remembers_execute represents command id issued)
      rw [store_execute, ← Option.not_isSome_iff_eq_none,
        represents.resolves_run_iff issued, unresolved]
      exact fun resolves => nomatch resolves.1

end ScopedVariables.Session
