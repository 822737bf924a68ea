import ScopedVariables.Proofs.Store.Represents

/-! # Clearing a store

The walk that clears a store releases each entry after it has read the link to
the next one. What is not yet released is still shown along the sequence, and
nothing else resolves, although the links between scopes are left dangling. -/

namespace ScopedVariables.Store

open Sequence (ids)

theorem drain_of_resolve? {store : Store} {id : VarId} {entry : Entry}
    (found : store.resolve? id = some entry) (steps : Nat) :
    store.drain (steps + 1) (some id) =
      (entry.var :: ((store.vacate id).drain steps entry.next).1,
        ((store.vacate id).drain steps entry.next).2) := by
  rw [drain, release_of_resolve? found]

structure Draining (store : Store) (rest : Sequence) : Prop where
  nodup : rest.ids.Nodup
  shows_rest : store.Shows .sequence rest
  resolves_rest : ∀ id, (store.resolve? id).isSome → id ∈ rest.ids
  count_eq : store.count = rest.length
  tidy : store.Tidy

namespace Draining

variable {store : Store} {rest : Sequence}

theorem vacate {id : VarId} {var : Variable}
    (draining : store.Draining ((id, var) :: rest)) :
    (store.vacate id).Draining rest := by
  have parts := List.nodup_cons.mp draining.nodup
  have resolves := draining.shows_rest.resolves List.mem_cons_self
  refine ⟨parts.2, ?_, ?_, ?_, draining.tidy.vacate resolves⟩
  · apply draining.shows_rest.2.congr
    intro other member
    have different : other ≠ id := fun same => parts.1 (same ▸ member)
    rw [resolve?_vacate resolves, if_neg different]
  · intro other stillResolves
    rw [resolve?_vacate resolves] at stillResolves
    split at stillResolves
    · cases stillResolves
    · rename_i different
      have listed := draining.resolves_rest other stillResolves
      exact (List.mem_cons.mp listed).resolve_left different
  · change store.count - 1 = rest.length
    rw [draining.count_eq]
    rfl

theorem represents_nil (draining : store.Draining [])
    (head : store.head = none) : store.Represents [] where
  nodup := .nil
  resolve?_eq := fun id => Option.not_isSome_iff_eq_none.mp fun resolves =>
    nomatch draining.resolves_rest id resolves
  head_eq := head
  count_eq := draining.count_eq
  tidy := draining.tidy

theorem drain (draining : store.Draining rest) (head : store.head = none)
    {steps : Nat} (enough : rest.length ≤ steps) :
    (store.drain steps rest.ids.head?).1 = rest.map Prod.snd ∧
      (store.drain steps rest.ids.head?).2.Represents [] := by
  induction rest generalizing store steps with
  | nil =>
      have stopped : store.drain steps none = ([], store) := by
        cases steps <;> rfl
      rw [show (ids ([] : Sequence)).head? = none from rfl, stopped]
      exact ⟨rfl, draining.represents_nil head⟩
  | cons first rest induction =>
      rcases first with ⟨id, var⟩
      rcases draining.shows_rest.1 with ⟨entry, found, sameVar, link⟩
      cases steps with
      | zero => simp at enough
      | succ steps =>
          have next : entry.next = (ids rest).head? := link
          have later := induction draining.vacate head
            (Nat.le_of_succ_le_succ enough)
          rw [Sequence.ids_cons, List.head?_cons, drain_of_resolve? found, next, sameVar]
          exact ⟨congrArg (var :: ·) later.1, later.2⟩

end Draining

theorem Represents.draining {store : Store} {items : Sequence}
    (represents : store.Represents items) :
    { store with head := none }.Draining items where
  nodup := represents.nodup
  shows_rest := represents.shows_sequence.congr fun _ _ => rfl
  resolves_rest := fun _ resolves => represents.resolves_iff.mp resolves
  count_eq := represents.count_eq
  tidy := represents.tidy.of_arena_eq rfl rfl

theorem Represents.clear {store : Store} {items : Sequence}
    (represents : store.Represents items) :
    store.clear.1 = items.map Prod.snd ∧ store.clear.2.Represents [] := by
  rw [Store.clear, represents.head_eq]
  exact represents.draining.drain rfl represents.length_le_size

end ScopedVariables.Store
