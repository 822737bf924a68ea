import Mathlib.Logic.Basic
import ScopedVariables.Store.Arena

/-! # Slots and the free list

Allocation relies on the free list: it names empty slots only, each of them
once, and every empty slot that still has a generation to give. A store in this
condition is tidy. The operations on the arena are described here slot by slot,
and each of them leaves a tidy store tidy. -/

namespace ScopedVariables.Store

structure Tidy (store : Store) : Prop where
  free_nodup : store.free.Nodup
  free_empty : ∀ index, index ∈ store.free →
    ∃ generation, store.slots[index]? = some ⟨generation, none⟩
  empty_free : ∀ index generation,
    store.slots[index]? = some ⟨generation, none⟩ →
      index ∈ store.free ∨ nextWord? generation = none

theorem tidy_empty : empty.Tidy where
  free_nodup := .nil
  free_empty := fun _ member => nomatch member
  empty_free := fun index generation found => by
    simp [empty] at found

theorem Tidy.of_arena_eq {store after : Store} (tidy : store.Tidy)
    (slots : after.slots = store.slots) (free : after.free = store.free) :
    after.Tidy := by
  rcases tidy with ⟨nodup, freeEmpty, emptyFree⟩
  rw [← free] at nodup
  rw [← slots, ← free] at freeEmpty emptyFree
  exact ⟨nodup, freeEmpty, emptyFree⟩

theorem resolve?_eq_some_iff {store : Store} {id : VarId} {entry : Entry} :
    store.resolve? id = some entry ↔
      store.slots[id.index]? = some ⟨id.generation, some entry⟩ := by
  rw [resolve?]
  cases store.slots[id.index]? with
  | none => simp
  | some slot =>
      rcases slot with ⟨generation, content⟩
      rw [Option.bind_some, Slot.content?]
      split
      · rename_i current
        cases current
        simp
      · rename_i stale
        simp [stale]

theorem resolve?_congr {left right : Store} {id : VarId}
    (same : left.slots[id.index]? = right.slots[id.index]?) :
    left.resolve? id = right.resolve? id := by
  rw [resolve?, resolve?, same]

theorem eq_of_index_eq {store : Store} {left right : VarId}
    (leftResolves : (store.resolve? left).isSome)
    (rightResolves : (store.resolve? right).isSome)
    (same : left.index = right.index) : left = right := by
  rcases Option.isSome_iff_exists.mp leftResolves with ⟨_, leftFound⟩
  rcases Option.isSome_iff_exists.mp rightResolves with ⟨_, rightFound⟩
  rw [resolve?_eq_some_iff, same] at leftFound
  rw [resolve?_eq_some_iff, leftFound] at rightFound
  rcases left with ⟨leftIndex, leftGeneration⟩
  rcases right with ⟨rightIndex, rightGeneration⟩
  cases rightFound
  cases same
  rfl

theorem index_lt_size {store : Store} {id : VarId}
    (resolves : (store.resolve? id).isSome) : id.index < store.slots.size := by
  rcases Option.isSome_iff_exists.mp resolves with ⟨_, found⟩
  exact (Array.getElem?_eq_some_iff.mp (resolve?_eq_some_iff.mp found)).1

/-! ## Changing an entry -/

theorem slots_modify_eq_empty_iff {store : Store} {id : VarId}
    {change : Entry → Entry} {index : Nat} {generation : UInt32} :
    (store.modify id change).slots[index]? = some ⟨generation, none⟩ ↔
      store.slots[index]? = some ⟨generation, none⟩ := by
  simp only [modify, Array.getElem?_modify]
  split
  · cases store.slots[index]? with
    | none => rfl
    | some slot =>
        rcases slot with ⟨current, content⟩
        rw [Option.map_some, Slot.modify]
        split
        · cases content <;> simp
        · rfl
  · rfl

theorem Tidy.modify {store : Store} (tidy : store.Tidy) (id : VarId)
    (change : Entry → Entry) : (store.modify id change).Tidy where
  free_nodup := tidy.free_nodup
  free_empty := fun index member => by
    rcases tidy.free_empty index member with ⟨generation, found⟩
    exact ⟨generation, slots_modify_eq_empty_iff.mpr found⟩
  empty_free := fun index generation found =>
    tidy.empty_free index generation (slots_modify_eq_empty_iff.mp found)

/-! ## Allocating -/

/-- A new entry takes the slot emptied last, or else a new slot. -/
theorem Tidy.allocate_cases {store : Store} (tidy : store.Tidy) (entry : Entry) :
    (store.free = [] ∧ store.allocate entry = store.grow entry) ∨
      ∃ index free generation, store.free = index :: free ∧
        store.slots[index]? = some ⟨generation, none⟩ ∧
        store.allocate entry =
          (⟨index, generation⟩,
            { store with
              free
              slots := store.slots.setIfInBounds index
                ⟨generation, some entry⟩ }) := by
  rw [allocate]
  cases remaining : store.free with
  | nil => exact Or.inl ⟨rfl, rfl⟩
  | cons index free =>
      rcases tidy.free_empty index (by simp [remaining]) with ⟨generation, found⟩
      exact Or.inr ⟨index, free, generation, rfl, found, by simp only [found]⟩

@[simp] theorem head_allocate (store : Store) (entry : Entry) :
    (store.allocate entry).2.head = store.head := by
  rw [allocate]
  split
  · rfl
  · split <;> rfl

@[simp] theorem count_allocate (store : Store) (entry : Entry) :
    (store.allocate entry).2.count = store.count := by
  rw [allocate]
  split
  · rfl
  · split <;> rfl

theorem Tidy.index_allocate {store : Store} (tidy : store.Tidy) (entry : Entry)
    {index : Nat} {free : List Nat} (remaining : store.free = index :: free) :
    (store.allocate entry).1.index = index ∧
      ∃ generation, store.slots[index]? = some ⟨generation, none⟩ := by
  rcases tidy.allocate_cases entry with
    ⟨nothingFree, _⟩ | ⟨reused, _, generation, freed, empty, equal⟩
  · rw [remaining] at nothingFree
    cases nothingFree
  · rw [remaining] at freed
    cases freed
    rw [equal]
    exact ⟨rfl, generation, empty⟩

theorem Tidy.free_allocate {store : Store} (tidy : store.Tidy) (entry : Entry) :
    (store.allocate entry).2.free = store.free.tail := by
  rcases tidy.allocate_cases entry with
    ⟨free, equal⟩ | ⟨index, free, generation, remaining, _, equal⟩
  · rw [equal, grow, free]
    rfl
  · rw [equal, remaining]
    rfl

theorem Tidy.slots_allocate {store : Store} (tidy : store.Tidy) (entry : Entry)
    (index : Nat) :
    (store.allocate entry).2.slots[index]? =
      if index = (store.allocate entry).1.index then
        some ⟨(store.allocate entry).1.generation, some entry⟩
      else store.slots[index]? := by
  rcases tidy.allocate_cases entry with
    ⟨_, equal⟩ | ⟨reused, free, generation, _, found, equal⟩
  · rw [equal]
    exact Array.getElem?_push
  · rw [equal, Array.getElem?_setIfInBounds]
    rcases Decidable.eq_or_ne index reused with rfl | elsewhere
    · have inside := (Array.getElem?_eq_some_iff.mp found).1
      simp [inside]
    · rw [if_neg elsewhere, if_neg elsewhere.symm]

theorem Tidy.slots_before_allocate {store : Store} (tidy : store.Tidy)
    (entry : Entry) :
    store.slots[(store.allocate entry).1.index]? = none ∨
      store.slots[(store.allocate entry).1.index]? =
        some ⟨(store.allocate entry).1.generation, none⟩ := by
  rcases tidy.allocate_cases entry with
    ⟨_, equal⟩ | ⟨index, free, generation, _, found, equal⟩
  · rw [equal]
    exact Or.inl Array.getElem?_size
  · rw [equal]
    exact Or.inr found

private theorem Tidy.unresolved_before_allocate {store : Store}
    (tidy : store.Tidy) (entry : Entry) {id : VarId}
    (here : id.index = (store.allocate entry).1.index) :
    store.resolve? id = none := by
  apply Option.eq_none_iff_forall_ne_some.mpr
  intro other found
  rw [resolve?_eq_some_iff, here] at found
  rcases tidy.slots_before_allocate entry with absent | empty
  · rw [absent] at found
    cases found
  · rw [empty] at found
    simp at found

theorem Tidy.resolve?_allocate_fresh {store : Store} (tidy : store.Tidy)
    (entry : Entry) : store.resolve? (store.allocate entry).1 = none :=
  tidy.unresolved_before_allocate entry rfl

theorem Tidy.resolve?_allocate {store : Store} (tidy : store.Tidy)
    (entry : Entry) (id : VarId) :
    (store.allocate entry).2.resolve? id =
      if id = (store.allocate entry).1 then some entry else store.resolve? id := by
  have newResolves :
      (store.allocate entry).2.resolve? (store.allocate entry).1 = some entry := by
    rw [resolve?_eq_some_iff, tidy.slots_allocate, if_pos rfl]
  split
  · rename_i same
    rw [same, newResolves]
  · rename_i different
    rcases Decidable.eq_or_ne id.index (store.allocate entry).1.index with
      here | elsewhere
    · rw [tidy.unresolved_before_allocate entry here]
      apply Option.not_isSome_iff_eq_none.mp
      intro resolves
      exact different (eq_of_index_eq resolves (by simp [newResolves]) here)
    · apply resolve?_congr
      rw [tidy.slots_allocate, if_neg elsewhere]

theorem Tidy.index_not_mem_free_allocate {store : Store} (tidy : store.Tidy)
    (entry : Entry) :
    (store.allocate entry).1.index ∉ (store.allocate entry).2.free := by
  rw [tidy.free_allocate]
  rcases tidy.allocate_cases entry with
    ⟨free, _⟩ | ⟨index, free, generation, remaining, _, equal⟩
  · simp [free]
  · rw [equal, remaining]
    have nodup := tidy.free_nodup
    rw [remaining] at nodup
    exact (List.nodup_cons.mp nodup).1

theorem Tidy.mem_free_allocate {store : Store} (tidy : store.Tidy) (entry : Entry)
    {index : Nat} :
    index ∈ (store.allocate entry).2.free ↔
      index ∈ store.free ∧ index ≠ (store.allocate entry).1.index := by
  have taken := tidy.index_not_mem_free_allocate entry
  rw [tidy.free_allocate] at taken ⊢
  constructor
  · intro member
    exact ⟨List.mem_of_mem_tail member, fun here => taken (here ▸ member)⟩
  · rintro ⟨member, elsewhere⟩
    rcases tidy.allocate_cases entry with
      ⟨free, _⟩ | ⟨reused, free, _, remaining, _, equal⟩
    · simp [free] at member
    · rw [remaining] at member ⊢
      rw [equal] at elsewhere
      exact (List.mem_cons.mp member).resolve_left elsewhere

theorem Tidy.allocate {store : Store} (tidy : store.Tidy) (entry : Entry) :
    (store.allocate entry).2.Tidy := by
  refine ⟨?_, ?_, ?_⟩
  · rw [tidy.free_allocate]
    exact tidy.free_nodup.tail
  · intro index member
    rcases (tidy.mem_free_allocate entry).mp member with ⟨wasFree, elsewhere⟩
    rw [tidy.slots_allocate, if_neg elsewhere]
    exact tidy.free_empty index wasFree
  · intro index generation found
    rw [tidy.slots_allocate] at found
    rcases Decidable.eq_or_ne index (store.allocate entry).1.index with
      here | elsewhere
    · simp [here] at found
    · rw [if_neg elsewhere] at found
      refine (tidy.empty_free index generation found).imp_left fun member => ?_
      exact (tidy.mem_free_allocate entry).mpr ⟨member, elsewhere⟩

/-! ## Releasing -/

def vacate (store : Store) (id : VarId) : Store where
  slots := store.slots.setIfInBounds id.index
    ⟨(nextWord? id.generation).getD id.generation, none⟩
  free := if (nextWord? id.generation).isSome then id.index :: store.free
    else store.free
  head := store.head
  count := store.count - 1

theorem release_of_resolve? {store : Store} {id : VarId} {entry : Entry}
    (found : store.resolve? id = some entry) :
    store.release id = some (entry, store.vacate id) := by
  rw [release, vacate, found]
  cases nextWord? id.generation <;> rfl

theorem eq_vacate_of_release {store after : Store} {id : VarId} {entry : Entry}
    (released : store.release id = some (entry, after)) :
    store.resolve? id = some entry ∧ after = store.vacate id := by
  have found := (resolve?_release released id).1
  rw [release_of_resolve? found] at released
  cases released
  exact ⟨found, rfl⟩

theorem resolve?_vacate {store : Store} {id : VarId}
    (resolves : (store.resolve? id).isSome) (other : VarId) :
    (store.vacate id).resolve? other =
      if other = id then none else store.resolve? other := by
  rcases Option.isSome_iff_exists.mp resolves with ⟨entry, found⟩
  exact (resolve?_release (release_of_resolve? found) other).2

theorem slots_vacate {store : Store} {id : VarId}
    (resolves : (store.resolve? id).isSome) (index : Nat) :
    (store.vacate id).slots[index]? =
      if index = id.index then
        some ⟨(nextWord? id.generation).getD id.generation, none⟩
      else store.slots[index]? := by
  have inside := index_lt_size resolves
  simp only [vacate, Array.getElem?_setIfInBounds]
  rcases Decidable.eq_or_ne index id.index with rfl | elsewhere
  · simp [inside]
  · rw [if_neg elsewhere, if_neg elsewhere.symm]

theorem mem_free_vacate {store : Store} {id : VarId} {index : Nat} :
    index ∈ (store.vacate id).free ↔
      index = id.index ∧ nextWord? id.generation ≠ none ∨ index ∈ store.free := by
  cases following : nextWord? id.generation with
  | none => simp [vacate, following]
  | some next => simp [vacate, following]

theorem Tidy.vacate {store : Store} (tidy : store.Tidy) {id : VarId}
    (resolves : (store.resolve? id).isSome) : (store.vacate id).Tidy := by
  rcases Option.isSome_iff_exists.mp resolves with ⟨entry, occupied⟩
  rw [resolve?_eq_some_iff] at occupied
  have notFree : id.index ∉ store.free := by
    intro member
    rcases tidy.free_empty id.index member with ⟨generation, found⟩
    rw [occupied] at found
    cases found
  refine ⟨?_, ?_, ?_⟩
  · rw [Store.vacate]
    split
    · exact List.nodup_cons.mpr ⟨notFree, tidy.free_nodup⟩
    · exact tidy.free_nodup
  · intro index member
    rw [slots_vacate resolves]
    split
    · exact ⟨_, rfl⟩
    · rename_i elsewhere
      rcases mem_free_vacate.mp member with ⟨here, _⟩ | wasFree
      · exact absurd here elsewhere
      · exact tidy.free_empty index wasFree
  · intro index generation found
    rw [slots_vacate resolves] at found
    rw [mem_free_vacate]
    split at found
    · rename_i here
      cases following : nextWord? id.generation with
      | none =>
          rw [following] at found
          cases found
          exact Or.inr following
      | some next => simp [here]
    · exact (tidy.empty_free index generation found).imp_left Or.inr

end ScopedVariables.Store
