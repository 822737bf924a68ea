import ScopedVariables.Store.Command
import ScopedVariables.Proofs.Store.Refinement

/-! # Issued handles

The slots remember which handles were issued: a handle was issued if its slot
has moved on to a later generation, or is in the generation of the handle and
not waiting on the free list. No operation forgets an issued handle, and a new
handle is never one of them. -/

namespace ScopedVariables.Store

def Issued (store : Store) (id : VarId) : Prop :=
  ∃ slot, store.slots[id.index]? = some slot ∧
    (id.generation.toNat < slot.generation.toNat ∨
      id.generation = slot.generation ∧ id.index ∉ store.free)

def Remembers (store after : Store) : Prop :=
  ∀ id, store.Issued id → after.Issued id

namespace Remembers

theorem refl (store : Store) : store.Remembers store := fun _ issued => issued

theorem trans {store middle after : Store} (first : store.Remembers middle)
    (second : middle.Remembers after) : store.Remembers after :=
  fun id issued => second id (first id issued)

theorem of_arena_eq {store after : Store} (slots : after.slots = store.slots)
    (free : after.free = store.free) : store.Remembers after := by
  intro id known
  rcases known with ⟨slot, found, issued⟩
  exact ⟨slot, by rw [slots, found], by rw [free]; exact issued⟩

theorem modify (store : Store) (id : VarId) (change : Entry → Entry) :
    store.Remembers (store.modify id change) := by
  rintro other ⟨slot, found, issued⟩
  refine ⟨if id.index = other.index then slot.modify id.generation change else slot,
    ?_, ?_⟩
  · simp only [Store.modify, Array.getElem?_modify, found, Option.map_some]
    split <;> rfl
  · have sameGeneration : ∀ current : Slot,
        (current.modify id.generation change).generation = current.generation := by
      intro current
      rw [Slot.modify]
      split <;> rfl
    split
    · rw [sameGeneration]
      exact issued
    · exact issued

theorem allocate {store : Store} (tidy : store.Tidy) (entry : Entry) :
    store.Remembers (store.allocate entry).2 := by
  intro id known
  rcases known with ⟨slot, found, issued⟩
  have stillBusy : id.index ∉ store.free →
      id.index ∉ (store.allocate entry).2.free := by
    intro busy member
    rw [tidy.free_allocate] at member
    exact busy (List.mem_of_mem_tail member)
  rcases Decidable.eq_or_ne id.index (store.allocate entry).1.index with
    here | elsewhere
  · refine ⟨_, by rw [tidy.slots_allocate, if_pos here], Or.inl ?_⟩
    rcases tidy.allocate_cases entry with
      ⟨_, equal⟩ | ⟨index, free, generation, remaining, empty, equal⟩
    · rw [here, equal, grow, Array.getElem?_size] at found
      cases found
    · rw [equal] at here ⊢
      rw [here, empty] at found
      cases found
      -- the slot was on the free list, so its generation was still to come
      refine issued.resolve_right fun current => current.2 ?_
      rw [here, remaining]
      exact List.mem_cons_self
  · exact ⟨slot, by rw [tidy.slots_allocate, if_neg elsewhere, found],
      issued.imp_right fun current => ⟨current.1, stillBusy current.2⟩⟩

theorem vacate {store : Store} {id : VarId}
    (resolves : (store.resolve? id).isSome) :
    store.Remembers (store.vacate id) := by
  rcases Option.isSome_iff_exists.mp resolves with ⟨entry, occupied⟩
  rw [resolve?_eq_some_iff] at occupied
  rintro other ⟨slot, found, issued⟩
  rcases Decidable.eq_or_ne other.index id.index with here | elsewhere
  · rw [here, occupied] at found
    cases found
    refine ⟨_, by rw [slots_vacate resolves, if_pos here], ?_⟩
    cases following : nextWord? id.generation with
    | none =>
        have free : (store.vacate id).free = store.free := by
          simp [Store.vacate, following]
        rw [free]
        exact issued
    | some next =>
        have increased := nextWord?_eq_some_iff.mp following
        left
        change other.generation.toNat < next.toNat
        rcases issued with earlier | ⟨current, _⟩
        · change other.generation.toNat < id.generation.toNat at earlier
          omega
        · have same : other.generation.toNat = id.generation.toNat :=
            congrArg UInt32.toNat current
          omega
  · refine ⟨slot, by rw [slots_vacate resolves, if_neg elsewhere, found], ?_⟩
    refine issued.imp_right fun current => ⟨current.1, ?_⟩
    intro member
    rcases mem_free_vacate.mp member with ⟨here, _⟩ | wasFree
    · exact elsewhere here
    · exact current.2 wasFree

theorem release {store after : Store} {id : VarId} {entry : Entry}
    (released : store.release id = some (entry, after)) :
    store.Remembers after := by
  rcases eq_vacate_of_release released with ⟨occupied, rfl⟩
  exact vacate (Option.isSome_of_eq_some occupied)

/-! ## The operations -/

theorem append (store : Store) (chain : Chain) (tail : Option VarId)
    (id : VarId) : store.Remembers (store.append chain tail id) := by
  cases tail with
  | none => cases chain <;> exact of_arena_eq rfl rfl
  | some last => exact modify store last _

theorem link {store : Store} (tidy : store.Tidy) (var : Variable) :
    store.Remembers (store.link var).2 := by
  have placed : store.Remembers (store.place var).2 :=
    (allocate tidy { var }).trans (of_arena_eq rfl rfl)
  rw [link_eq]
  exact (placed.trans (append _ .sequence _ _)).trans (append _ .scope _ _)

theorem bypass (store : Store) (chain : Chain) (target : VarId)
    (following : Option VarId) :
    store.Remembers (store.bypass chain target following) := by
  rw [Store.bypass]
  split
  · exact refl store
  · exact modify store _ _

theorem unlink {store after : Store} {target : VarId} {var : Variable}
    (unlinked : store.unlink target = some (var, after)) :
    store.Remembers after := by
  cases found : store.resolve? target with
  | none =>
      rw [unlink_of_resolve?_eq_none found] at unlinked
      cases unlinked
  | some entry =>
      rw [unlink_of_resolve? found] at unlinked
      rcases Option.map_eq_some_iff.mp unlinked with ⟨⟨_, _⟩, released, equal⟩
      cases equal
      have detached : store.Remembers (store.detach target entry.next) := by
        rw [detach]
        split
        · exact of_arena_eq rfl rfl
        · exact bypass store .sequence target entry.next
      exact (detached.trans (bypass _ .scope target entry.nextInScope)).trans
        (release released)

theorem remove (store : Store) (id : VarId) :
    store.Remembers (store.remove id).value.2 := by
  cases unlinked : store.unlink id with
  | none =>
      rw [remove_of_unlink_eq_none unlinked]
      exact refl store
  | some outcome =>
      rw [remove_of_unlink_eq_some unlinked]
      exact unlink unlinked

theorem discard (store : Store) (targets : List VarId) :
    store.Remembers (store.discard targets).value := by
  induction targets generalizing store with
  | nil => exact refl store
  | cons target targets induction =>
      rw [discard_cons]
      exact (remove store target).trans (induction _)

theorem drain (store : Store) (steps : Nat) (position : Option VarId) :
    store.Remembers (store.drain steps position).2 := by
  induction steps generalizing store position with
  | zero => exact refl store
  | succ steps induction =>
      cases position with
      | none => exact refl store
      | some id =>
          rw [Store.drain]
          cases released : store.release id with
          | none => exact refl store
          | some outcome => exact (release released).trans (induction _ _)

theorem execute {store : Store} (tidy : store.Tidy) (command : Command) :
    store.Remembers (store.execute command).value.2 := by
  cases command with
  | add var =>
      rw [value_execute_add]
      exact link tidy var
  | remove id => exact remove store id
  | removeByName name =>
      rw [value_execute_removeByName, Store.removeByName]
      cases store.findByName name with
      | none => exact refl store
      | some id => exact remove store id
  | removeScope scope =>
      rw [value_execute_removeScope, value_removeScope]
      exact discard store _
  | destroyAll =>
      have headless : store.Remembers { store with head := none } :=
        of_arena_eq rfl rfl
      exact headless.trans (drain _ _ _)
  | write id write => exact modify store id _

theorem run {store : Store} {items : Sequence} (represents : store.Represents items)
    (commands : List Command) : store.Remembers (store.run commands).value.2 := by
  induction commands generalizing store items with
  | nil => exact refl store
  | cons command commands induction =>
      rcases represents.execute command with ⟨_, _, representsAfter⟩
      rw [value_run_cons]
      exact (execute represents.tidy command).trans (induction representsAfter)

end Remembers

theorem Tidy.issued_of_resolves {store : Store} (tidy : store.Tidy) {id : VarId}
    (resolves : (store.resolve? id).isSome) : store.Issued id := by
  rcases Option.isSome_iff_exists.mp resolves with ⟨entry, found⟩
  rw [resolve?_eq_some_iff] at found
  refine ⟨_, found, Or.inr ⟨rfl, fun isFree => ?_⟩⟩
  rcases tidy.free_empty _ isFree with ⟨generation, empty⟩
  rw [found] at empty
  cases empty

/-! ## New handles -/

theorem Tidy.issued_allocate {store : Store} (tidy : store.Tidy)
    (entry : Entry) :
    (store.allocate entry).2.Issued (store.allocate entry).1 :=
  ⟨_, by rw [tidy.slots_allocate, if_pos rfl],
    Or.inr ⟨rfl, tidy.index_not_mem_free_allocate entry⟩⟩

theorem Tidy.not_issued_allocate {store : Store} (tidy : store.Tidy)
    (entry : Entry) : ¬store.Issued (store.allocate entry).1 := by
  rintro ⟨slot, found, issued⟩
  rcases tidy.allocate_cases entry with
    ⟨_, equal⟩ | ⟨index, free, generation, remaining, empty, equal⟩
  · rw [equal, grow, Array.getElem?_size] at found
    cases found
  · rw [equal] at found issued
    rw [empty] at found
    cases found
    rcases issued with earlier | ⟨_, busy⟩
    · exact Nat.lt_irrefl _ earlier
    · exact busy (by simp [remaining])

theorem Tidy.issued_link {store : Store} (tidy : store.Tidy) (var : Variable) :
    (store.link var).2.Issued (store.link var).1 := by
  have placed : (store.place var).2.Issued (store.place var).1 :=
    Remembers.of_arena_eq rfl rfl _ (tidy.issued_allocate { var })
  rw [link_eq]
  exact Remembers.append _ .scope _ _ _ (Remembers.append _ .sequence _ _ _ placed)

theorem Tidy.not_issued_link {store : Store} (tidy : store.Tidy)
    (var : Variable) : ¬store.Issued (store.link var).1 :=
  tidy.not_issued_allocate { var }

end ScopedVariables.Store
