import ScopedVariables.Proofs.Store.Refinement

/-! # Scope chains follow the sequence

The second chain of a store has no stored head. It is nevertheless complete:
from the first variable of a scope in the sequence, its links visit exactly the
variables of that scope, in the order of the sequence, and then end. The
undefined scope is one of the scopes. -/

namespace ScopedVariables.Store

open Sequence (ids)

def stepThrough (next : VarId → Option VarId) :
    (steps : Nat) → (position : Option VarId) → List VarId
  | 0, _ => []
  | _, none => []
  | steps + 1, some id => id :: stepThrough next steps (next id)

/-- The links between variables of a scope visit exactly `listed`. -/
structure ScopeChain (store : Store) (listed : Sequence) : Prop where
  nodup : listed.ids.Nodup
  visits : ∀ steps,
    stepThrough store.nextInScope? steps listed.ids.head? = listed.ids.take steps
  ends_iff : ∀ id, id ∈ listed.ids →
    (store.nextInScope? id = none ↔ listed.ids.getLast? = some id)
  stays : ∀ id next, id ∈ listed.ids → store.nextInScope? id = some next →
    next ∈ listed.ids

theorem Shows.stepThrough {store : Store} {items : Sequence}
    (shows : store.Shows .scope items) (steps : Nat) :
    stepThrough store.nextInScope? steps items.ids.head? =
      items.ids.take steps := by
  induction items generalizing steps with
  | nil => cases steps <;> rfl
  | cons first rest induction =>
      rcases shows with ⟨⟨entry, found, _, link⟩, later⟩
      cases steps with
      | zero => rfl
      | succ steps =>
          have next : store.nextInScope? first.1 = (ids rest).head? := by
            rw [nextInScope?, found]
            exact link
          rw [Sequence.ids_cons, List.head?_cons, Store.stepThrough, next,
            induction later, List.take_succ_cons]

namespace Represents

variable {store : Store} {items : Sequence}

theorem nextInScope?_of_mem_members (represents : store.Represents items)
    {scope : Option ScopeId} {id : VarId} (member : id ∈ items.members scope) :
    store.nextInScope? id = following? (items.members scope) id := by
  rcases (Sequence.mem_members_iff represents.nodup).mp member with
    ⟨var, listed, belongs⟩
  rw [represents.nextInScope?_eq, listed, Option.bind_some, belongs]

theorem scopeChain (represents : store.Represents items)
    (scope : Option ScopeId) : store.ScopeChain (items.ofScope scope) where
  nodup := Sequence.nodup_members represents.nodup scope
  visits := (represents.shows_scope scope).stepThrough
  ends_iff := by
    intro id member
    rw [represents.nextInScope?_of_mem_members member]
    exact following?_eq_none_iff
      (Sequence.nodup_members represents.nodup scope) member
  stays := by
    intro id next member leads
    rw [represents.nextInScope?_of_mem_members member] at leads
    exact mem_of_eq_some_following? leads

theorem scopeIter_take (represents : store.Represents items) (scope : ScopeId)
    (count : Nat) :
    ((store.scopeIter scope).take store count).1 =
      (items.ofScope (some scope)).take count := by
  rw [scopeIter, represents.firstInScope_eq]
  exact (represents.shows_scope (some scope)).take count

end Represents

/-- In every store that commands make of an empty one the scope chains are the
sequence restricted to each scope, and both ways to enumerate a scope yield it.
A handle that is not listed leads nowhere. -/
theorem scope_chains_follow_sequence (commands : List Command) :
    let store := (empty.run commands).value.2
    let items : Sequence := store.toList
    (∀ count, (store.iter.take store count).1 = items.take count) ∧
      (∀ scope, store.ScopeChain (items.ofScope scope)) ∧
      (∀ id, id ∉ items.ids → store.nextInScope? id = none) ∧
      ∀ scope : ScopeId,
        (∀ count, ((store.scopeIter scope).take store count).1 =
          (items.ofScope (some scope)).take count) ∧
        ∀ steps, stepThrough store.nextInScope? steps
            (store.firstInScope (some scope)) =
          (items.members (some scope)).take steps := by
  intro store items
  have represents : store.Represents items := represents_run commands
  refine ⟨represents.agrees.iter_take, represents.scopeChain, ?_, ?_⟩
  · intro id absent
    rw [represents.nextInScope?_eq, Sequence.lookup_eq_none_iff.mpr absent]
    rfl
  · intro scope
    refine ⟨represents.scopeIter_take scope, ?_⟩
    intro steps
    rw [represents.firstInScope_eq]
    exact (represents.shows_scope (some scope)).stepThrough steps

end ScopedVariables.Store
