import ScopedVariables.Proofs.Store.Turns

/-! # The accounts of an arena

The free list, the slots and the count of a store tell the same: what is free is
empty, what is not free is occupied, and the count says how much that is. Each
small step keeps these accounts, as long as no slot has come to its last
generation, and that takes as many additions as there are words. -/

namespace ScopedVariables.Store

open Sequence (ids)

def occupied (store : Store) : Nat :=
  store.slots.countP (·.entry.isSome)

structure Balanced (store : Store) : Prop where
  free_nodup : store.free.Nodup
  mem_free_iff : ∀ index, index ∈ store.free ↔
    ∃ generation, store.slots[index]? = some ⟨generation, none⟩
  count_eq : store.count = store.occupied
  size_eq : store.slots.size = store.count + store.free.length

/-! ## Counting occupied slots -/

theorem occupied_modify (store : Store) (id : VarId) (change : Entry → Entry) :
    (store.modify id change).occupied = store.occupied := by
  have sameOccupation : (store.modify id change).slots.map (·.entry.isSome) =
      store.slots.map (·.entry.isSome) := by
    apply Array.ext_getElem?
    intro index
    rw [Array.getElem?_map, Array.getElem?_map, modify, Array.getElem?_modify]
    split
    · cases store.slots[index]? with
      | none => rfl
      | some slot =>
          rw [Option.map_some, Option.map_some, Option.map_some, Slot.modify]
          split
          · rw [Option.isSome_map]
          · rfl
    · rfl
  have counted (slots : Array Slot) :
      slots.countP (·.entry.isSome) = (slots.map (·.entry.isSome)).countP (·) := by
    rw [Array.countP_map]
    rfl
  rw [occupied, occupied, counted, counted, sameOccupation]

private theorem countP_setIfInBounds {slots : Array Slot} {index : Nat} {old : Slot}
    (here : slots[index]? = some old) (new : Slot) :
    (slots.setIfInBounds index new).countP (·.entry.isSome) +
        (if old.entry.isSome then 1 else 0) =
      slots.countP (·.entry.isSome) + if new.entry.isSome then 1 else 0 := by
  rcases Array.getElem?_eq_some_iff.mp here with ⟨inside, rfl⟩
  have counted := Array.boole_getElem_le_countP (p := (·.entry.isSome)) inside
  rw [Array.setIfInBounds_def, dif_pos inside, Array.countP_set inside]
  omega

theorem Tidy.occupied_allocate {store : Store} (tidy : store.Tidy) (entry : Entry) :
    (store.allocate entry).2.occupied = store.occupied + 1 := by
  rcases tidy.allocate_cases entry with
    ⟨_, equal⟩ | ⟨index, free, generation, _, empty, equal⟩
  · rw [equal]
    exact Array.countP_push
  · rw [equal]
    exact countP_setIfInBounds empty ⟨generation, some entry⟩

theorem Tidy.size_allocate {store : Store} (tidy : store.Tidy) (entry : Entry) :
    (store.allocate entry).2.slots.size + store.free.length =
      store.slots.size + (store.allocate entry).2.free.length + 1 := by
  rcases tidy.allocate_cases entry with
    ⟨nothingFree, equal⟩ | ⟨index, free, generation, freed, _, equal⟩
  · rw [equal]
    change (store.slots.push _).size + _ = _ + store.free.length + 1
    rw [Array.size_push, Nat.add_right_comm]
  · rw [equal, freed]
    change (store.slots.setIfInBounds index _).size + _ = _ + free.length + 1
    rw [Array.size_setIfInBounds, List.length_cons, Nat.add_assoc]

theorem occupied_vacate {store : Store} {id : VarId}
    (resolves : (store.resolve? id).isSome) :
    (store.vacate id).occupied + 1 = store.occupied := by
  rcases Option.isSome_iff_exists.mp resolves with ⟨entry, found⟩
  exact countP_setIfInBounds (resolve?_eq_some_iff.mp found) _

namespace Balanced

variable {store : Store} (balanced : store.Balanced)

include balanced

theorem tidy : store.Tidy where
  free_nodup := balanced.free_nodup
  free_empty := fun index member => (balanced.mem_free_iff index).mp member
  empty_free := fun index generation found =>
    .inl ((balanced.mem_free_iff index).mpr ⟨generation, found⟩)

/-! ## Small steps -/

theorem of_headed (head : Option VarId) : { store with head }.Balanced where
  free_nodup := balanced.free_nodup
  mem_free_iff := balanced.mem_free_iff
  count_eq := balanced.count_eq
  size_eq := balanced.size_eq

theorem modify (id : VarId) (change : Entry → Entry) :
    (store.modify id change).Balanced where
  free_nodup := balanced.free_nodup
  mem_free_iff := fun index => by
    simp only [slots_modify_eq_empty_iff]
    exact balanced.mem_free_iff index
  count_eq := by
    rw [occupied_modify]
    exact balanced.count_eq
  size_eq := by
    rw [size_modify]
    exact balanced.size_eq

theorem place (var : Variable) : (store.place var).2.Balanced where
  free_nodup := (balanced.tidy.place var).free_nodup
  mem_free_iff := by
    intro index
    change index ∈ (store.allocate { var }).2.free ↔
      ∃ generation, (store.allocate { var }).2.slots[index]? = some ⟨generation, none⟩
    rw [balanced.tidy.mem_free_allocate, balanced.tidy.slots_allocate,
      balanced.mem_free_iff]
    split
    · rename_i here
      simp [here]
    · rename_i elsewhere
      exact and_iff_left elsewhere
  count_eq := by
    have counted := balanced.tidy.occupied_allocate { var }
    rw [← balanced.count_eq, ← count_allocate store { var }] at counted
    exact counted.symm
  size_eq := by
    have sized := balanced.tidy.size_allocate { var }
    have before := balanced.size_eq
    change (store.allocate { var }).2.slots.size =
      (store.allocate { var }).2.count + 1 + (store.allocate { var }).2.free.length
    rw [count_allocate]
    omega

theorem count_pos {id : VarId} (resolves : (store.resolve? id).isSome) :
    0 < store.count := by
  have counted := occupied_vacate resolves
  rw [← balanced.count_eq] at counted
  omega

theorem vacate {id : VarId} (resolves : (store.resolve? id).isSome)
    {next : UInt32} (following : nextWord? id.generation = some next) :
    (store.vacate id).Balanced where
  free_nodup := (balanced.tidy.vacate resolves).free_nodup
  mem_free_iff := by
    intro index
    rw [mem_free_vacate, slots_vacate resolves, balanced.mem_free_iff, following]
    split
    · rename_i here
      simp [here]
    · rename_i elsewhere
      simp [elsewhere]
  count_eq := by
    have counted := occupied_vacate resolves
    rw [← balanced.count_eq] at counted
    exact (Nat.eq_sub_of_add_eq counted).symm
  size_eq := by
    have counted := balanced.count_pos resolves
    have before := balanced.size_eq
    have freed : (store.vacate id).free = id.index :: store.free := by
      simp [Store.vacate, following]
    rw [freed, List.length_cons, Store.vacate, Array.size_setIfInBounds]
    dsimp only
    omega

end Balanced

/-! ## How often slots are used -/

/-- How often a slot was issued: once in each generation that it has left, and once
more if it is occupied. -/
def Slot.uses (slot : Slot) : Nat :=
  slot.generation.toNat + if slot.entry.isSome then 1 else 0

structure UsedAtMost (store : Store) (issues : Nat) : Prop where
  size_le : store.slots.size ≤ issues
  uses_le : ∀ (index : Nat) (slot : Slot), store.slots[index]? = some slot →
    slot.uses ≤ issues

theorem Slot.uses_modify (generation : UInt32) (change : Entry → Entry)
    (slot : Slot) : (slot.modify generation change).uses = slot.uses := by
  rw [Slot.modify]
  split
  · rw [uses, uses, Option.isSome_map]
  · rfl

namespace UsedAtMost

variable {store : Store} {issues : Nat} (used : store.UsedAtMost issues)

include used

theorem modify (id : VarId) (change : Entry → Entry) :
    (store.modify id change).UsedAtMost issues where
  size_le := by
    rw [size_modify]
    exact used.size_le
  uses_le := by
    intro index slot found
    rw [Store.modify, Array.getElem?_modify] at found
    split at found
    · rcases Option.map_eq_some_iff.mp found with ⟨before, wasThere, rfl⟩
      rw [Slot.uses_modify]
      exact used.uses_le index before wasThere
    · exact used.uses_le index slot found

theorem place (tidy : store.Tidy) (var : Variable) :
    (store.place var).2.UsedAtMost (issues + 1) where
  size_le := by
    have sized := tidy.size_allocate { var }
    have before := used.size_le
    rw [tidy.free_allocate, List.length_tail] at sized
    change (store.allocate { var }).2.slots.size ≤ issues + 1
    omega
  uses_le := by
    intro index slot found
    change (store.allocate { var }).2.slots[index]? = some slot at found
    rw [tidy.slots_allocate] at found
    split at found
    · cases found
      apply Nat.add_le_add_right
      rcases tidy.allocate_cases { var } with
        ⟨_, equal⟩ | ⟨reused, free, generation, _, empty, equal⟩
      · rw [equal]
        exact Nat.zero_le issues
      · rw [equal]
        exact used.uses_le reused _ empty
    · exact Nat.le_succ_of_le (used.uses_le index slot found)

theorem vacate {id : VarId} (resolves : (store.resolve? id).isSome) :
    (store.vacate id).UsedAtMost issues where
  size_le := by
    rw [Store.vacate, Array.size_setIfInBounds]
    exact used.size_le
  uses_le := by
    intro index slot found
    rw [slots_vacate resolves] at found
    split at found
    · cases found
      rcases Option.isSome_iff_exists.mp resolves with ⟨entry, occupied⟩
      have before : id.generation.toNat + 1 ≤ issues :=
        used.uses_le id.index _ (resolve?_eq_some_iff.mp occupied)
      change ((nextWord? id.generation).getD id.generation).toNat ≤ issues
      cases following : nextWord? id.generation with
      | none => exact Nat.le_of_succ_le before
      | some next =>
          rw [Option.getD_some, nextWord?_eq_some_iff.mp following]
          exact before
    · exact used.uses_le index slot found

theorem exists_nextWord (few : issues < UInt32.size) {id : VarId}
    (resolves : (store.resolve? id).isSome) :
    ∃ next, nextWord? id.generation = some next := by
  rcases Option.isSome_iff_exists.mp resolves with ⟨entry, occupied⟩
  have before : id.generation.toNat + 1 ≤ issues :=
    used.uses_le id.index _ (resolve?_eq_some_iff.mp occupied)
  rw [← Option.isSome_iff_exists, Option.isSome_iff_ne_none, ne_eq,
    nextWord?_eq_none_iff]
  omega

end UsedAtMost

/-! ## Accounts along a run -/

structure Accounted (store : Store) (issues : Nat) : Prop where
  balanced : store.Balanced
  used : store.UsedAtMost issues

theorem accounted_empty : empty.Accounted 0 where
  balanced := ⟨.nil, by simp [empty], rfl, rfl⟩
  used := ⟨Nat.le_refl 0, by simp [empty]⟩

theorem Accounted.step {store after : Store} {turns : List Turn} {issues : Nat}
    (accounted : store.Accounted issues) (few : issues < UInt32.size)
    (step : Step store turns after) :
    after.Accounted (issues + (issuedSlots turns).length) := by
  rcases accounted with ⟨balanced, used⟩
  cases step with
  | modified id change => exact ⟨balanced.modify id change, used.modify id change⟩
  | headed head => exact ⟨balanced.of_headed head, ⟨used.size_le, used.uses_le⟩⟩
  | issued var => exact ⟨balanced.place var, used.place balanced.tidy var⟩
  | released released =>
      rcases eq_vacate_of_release released with ⟨found, rfl⟩
      have resolves := Option.isSome_of_eq_some found
      rcases used.exists_nextWord few resolves with ⟨next, following⟩
      exact ⟨balanced.vacate resolves following, used.vacate resolves⟩

theorem Steps.accounted {store : Store} {turns : List Turn}
    (steps : Steps empty turns store) (few : (issuedSlots turns).length < UInt32.size) :
    store.Accounted (issuedSlots turns).length := by
  refine steps.keep (fun past store => (issuedSlots past).length < UInt32.size →
    store.Accounted (issuedSlots past).length) ?_ [] (fun _ => accounted_empty) few
  intro past middle turns after accounted step few
  rw [issuedSlots_append, List.length_append] at few ⊢
  have fewBefore : (issuedSlots past).length < UInt32.size := by omega
  exact (accounted fewBefore).step fewBefore step

theorem length_issuedSlots_history_le (store : Store) (commands : List Command) :
    (issuedSlots (store.history commands)).length ≤ commands.length := by
  induction commands generalizing store with
  | nil => exact Nat.le_refl 0
  | cons command commands induction =>
      have once : (issuedSlots (store.turns command)).length ≤ 1 := by
        rcases command.adds_or_not with ⟨var, rfl⟩ | addsNothing
        · exact Nat.le_refl 1
        · rw [turns_of_ne_add addsNothing, issuedSlots_released]
          exact Nat.zero_le 1
      have later := induction (store.execute command).value.2
      rw [history, issuedSlots_append, List.length_append, List.length_cons]
      omega

theorem few_issuedSlots {commands : List Command} (few : commands.length < UInt32.size) :
    (issuedSlots (empty.history commands)).length < UInt32.size :=
  Nat.lt_of_le_of_lt (length_issuedSlots_history_le empty commands) few

theorem accounted_run {commands : List Command} (few : commands.length < UInt32.size) :
    (empty.run commands).value.2.Accounted (issuedSlots (empty.history commands)).length :=
  (represents_empty.steps_run commands).accounted (few_issuedSlots few)

/-! ## Safe allocation and release -/

/-- A new entry gets the slot freed last, which is there and empty, or else a new one,
which has an index. No occupied slot is touched. -/
structure AllocatesSafely (store : Store) (entry : Entry) : Prop where
  freed : ∀ index free, store.free = index :: free →
    (store.allocate entry).1.index = index ∧
      ∃ generation, store.slots[index]? = some ⟨generation, none⟩
  grown : store.free = [] →
    (store.allocate entry).1.index = store.slots.size ∧ store.slots.size < UInt32.size
  untouched : ∀ (index : Nat) (slot : Slot), store.slots[index]? = some slot →
    slot.entry.isSome → (store.allocate entry).2.slots[index]? = some slot

/-- The release finds its entry, and there is one to count off. -/
structure ReleasesSafely (caller : Store) (id : VarId) : Prop where
  balanced_before : caller.Balanced
  count_pos : 0 < caller.count
  releases : ∃ entry after, caller.release id = some (entry, after) ∧
    after.count + 1 = caller.count ∧ after.Balanced

namespace Accounted

variable {store : Store} {issues : Nat} (accounted : store.Accounted issues)
  (few : issues < UInt32.size)

include accounted few

theorem allocatesSafely (entry : Entry) : store.AllocatesSafely entry where
  freed := fun _ _ remaining => accounted.balanced.tidy.index_allocate entry remaining
  grown := by
    intro nothingFree
    rw [allocate, nothingFree]
    exact ⟨rfl, Nat.lt_of_le_of_lt accounted.used.size_le few⟩
  untouched := by
    intro index slot found occupied
    rw [accounted.balanced.tidy.slots_allocate]
    split
    · rename_i here
      rcases accounted.balanced.tidy.slots_before_allocate entry with absent | empty
      · rw [here, absent] at found
        cases found
      · rw [here, empty] at found
        cases found
        cases occupied
    · exact found

theorem releasesSafely {id : VarId} (resolves : (store.resolve? id).isSome) :
    store.ReleasesSafely id where
  balanced_before := accounted.balanced
  count_pos := accounted.balanced.count_pos resolves
  releases := by
    rcases Option.isSome_iff_exists.mp resolves with ⟨entry, found⟩
    rcases accounted.used.exists_nextWord few resolves with ⟨next, following⟩
    have counted := accounted.balanced.count_pos resolves
    exact ⟨entry, store.vacate id, release_of_resolve? found, Nat.sub_add_cancel counted,
      accounted.balanced.vacate resolves following⟩

end Accounted

/-- After any run, with any handles in its removals: the free list names the empty slots,
each of them once and all of them in the arena; the count is that of the occupied slots
and of the entries on the sequence; and the store has a head unless the count is zero. So
an addition never takes a slot that is occupied or not there, and no release counts below
zero, also in the middle of the next command, whose releases lead to the next store. -/
theorem accounts_balance {commands : List Command} (few : commands.length < UInt32.size) :
    let store := (empty.run commands).value.2
    store.Balanced ∧
      (∀ index, index ∈ store.free → index < store.slots.size) ∧
      store.toList.length = store.count ∧
      (∀ steps, store.count ≤ steps →
        (store.follow .sequence steps store.head).length = store.count) ∧
      (store.head = none ↔ store.count = 0) ∧
      (∀ entry, store.AllocatesSafely entry) ∧
      ∀ command,
        (store.releases command).map Prod.snd = Sequence.taken store.toList command ∧
          ((∀ var, command ≠ .add var) →
            Releases store (store.releases command) (store.execute command).value.2) ∧
          ∀ caller id, (caller, id) ∈ store.releases command →
            caller.ReleasesSafely id := by
  intro store
  have represents : store.Represents store.toList := represents_run commands
  have fewIssues := few_issuedSlots few
  have accounted : store.Accounted _ := accounted_run few
  have balanced := accounted.balanced
  refine ⟨balanced, ?_, represents.count_eq.symm, ?_, ?_,
    accounted.allocatesSafely fewIssues, ?_⟩
  · intro index member
    rcases (balanced.mem_free_iff index).mp member with ⟨generation, empty⟩
    exact (Array.getElem?_eq_some_iff.mp empty).1
  · intro steps enough
    have walked := congrArg List.length (represents.shows_sequence.follow steps)
    rw [List.length_map, List.length_take, ← represents.head_eq, ← represents.count_eq,
      Nat.min_eq_right enough] at walked
    exact walked
  · rw [represents.head_eq, represents.count_eq, List.head?_eq_none_iff, Sequence.ids,
      List.map_eq_nil_iff, List.length_eq_zero_iff]
  · intro command
    refine ⟨represents.handles_releases command,
      fun addsNothing => (represents.releases_execute addsNothing).2,
      fun caller id member => ?_⟩
    rcases command.adds_or_not with ⟨var, rfl⟩ | addsNothing
    · cases member
    · rcases (represents.releases_execute addsNothing).2.of_mem member with
        ⟨⟨earlier, upTo⟩, resolves⟩
      have steps := (represents_empty.steps_run commands).trans upTo
      have fewSoFar : (issuedSlots (empty.history commands ++
          earlier.map .released)).length < UInt32.size := by
        rw [issuedSlots_append_released]
        exact fewIssues
      exact (steps.accounted fewSoFar).releasesSafely fewSoFar resolves

/-- One slot is used twice and another one is free. A stale handle and a handle of no slot
were removed on the way, and the two variables left are about to be destroyed. -/
theorem accounts_balance_after_reuse :
    let x : Variable := ⟨"x", some .global, .scalar, ⟨0⟩, [.empty], none⟩
    let y : Variable := ⟨"y", some ⟨1⟩, .scalar, ⟨0⟩, [.empty], none⟩
    let commands : List Command :=
      [.add x, .add y, .remove ⟨0, 0⟩, .remove ⟨0, 0⟩, .remove ⟨7, 3⟩, .add y, .add x,
        .remove ⟨1, 0⟩]
    let store := (empty.run commands).value.2
    commands.length < UInt32.size ∧
      store.free = [1] ∧
      store.Balanced ∧
      store.toList.length = 2 ∧
      store.AllocatesSafely { var := x } ∧
      (store.releases .destroyAll).map Prod.snd = [⟨0, 1⟩, ⟨2, 0⟩] ∧
      ∀ caller id, (caller, id) ∈ store.releases .destroyAll → caller.ReleasesSafely id := by
  intro x y commands store
  have few : commands.length < UInt32.size := by decide
  have counted : store.count = 2 := by decide
  rcases accounts_balance few with ⟨balanced, _, listed, _, _, allocates, releases⟩
  exact ⟨few, by decide, balanced, listed.trans counted, allocates { var := x }, by decide,
    (releases .destroyAll).2.2⟩

end ScopedVariables.Store
