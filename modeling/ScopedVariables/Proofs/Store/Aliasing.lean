import ScopedVariables.Proofs.Store.Issue

/-! # Handles never alias

A handle means one variable for ever. All additions of a run answer different
handles; a handle resolves as long as no command has removed its variable; and
from then on it is stale, whatever its slot holds. -/

namespace ScopedVariables

open Sequence (ids)

/-! ## What a command removes -/

namespace Sequence

def taken (items : Sequence) : Store.Command → List VarId
  | .remove id => items.ids.filter (· = id)
  | .removeByName name => ((items.find? (named name)).map Prod.fst).toList
  | .removeScope scope => items.members (some scope)
  | .destroyAll => items.ids
  | .add _ | .write _ _ => []

variable {items : Sequence}

theorem mem_ids_without {id target : VarId} :
    id ∈ (items.without target).ids ↔ id ∈ items.ids ∧ id ≠ target := by
  rw [ids_without, List.mem_filter, decide_eq_true_iff]

theorem mem_ids_withoutAll {id : VarId} {targets : List VarId} :
    id ∈ (items.withoutAll targets).ids ↔ id ∈ items.ids ∧ id ∉ targets := by
  have filtered : (items.withoutAll targets).ids =
      items.ids.filter fun listed => listed ∉ targets := by
    rw [ids, ids, List.filter_map]
    rfl
  rw [filtered, List.mem_filter, decide_eq_true_iff]

theorem mem_ids_eraseP (nodup : items.ids.Nodup)
    {fits : VarId × Variable → Bool} {id : VarId} :
    id ∈ ids (items.eraseP fits) ↔
      id ∈ items.ids ∧ id ∉ ((items.find? fits).map Prod.fst).toList := by
  cases first : items.find? fits with
  | none =>
      rw [List.eraseP_of_forall_not (List.find?_eq_none.mp first)]
      simp
  | some found =>
      rw [eraseP_eq_without nodup first, mem_ids_without]
      simp

end Sequence

namespace Store

def RemovedDuring (store : Store) (commands : List Command) (id : VarId) : Prop :=
  ∃ before command after, commands = before ++ command :: after ∧
    id ∈ Sequence.taken (store.run before).value.2.toList command

/-- A handle that nothing can be done with. -/
structure Stale (store : Store) (id : VarId) : Prop where
  get?_eq : store.get? id = none
  next?_eq : store.next? id = none
  nextInScope?_eq : store.nextInScope? id = none
  remove_eq : store.remove id = pure (none, store)
  write_eq : ∀ write, store.write id write = (none, store)

def issuedBy (replies : List Reply) : List VarId :=
  replies.filterMap fun
    | .added id => some id
    | _ => none

/-! ## Stale handles -/

theorem modify_of_resolve?_eq_none {store : Store} {id : VarId}
    (stale : store.resolve? id = none) (change : Entry → Entry) :
    store.modify id change = store := by
  have sameSlots : store.slots.modify id.index (·.modify id.generation change) =
      store.slots := by
    apply Array.ext_getElem?
    intro index
    rw [Array.getElem?_modify]
    split
    · rename_i here
      rw [← here]
      cases found : store.slots[id.index]? with
      | none => rfl
      | some slot =>
          rcases slot with ⟨generation, content⟩
          rw [Option.map_some, Slot.modify]
          split
          · rename_i current
            cases content with
            | none => rfl
            | some entry =>
                change generation = id.generation at current
                rw [current] at found
                rw [resolve?_eq_some_iff.mpr found] at stale
                cases stale
          · rfl
    · rfl
  rw [modify, sameSlots]

theorem stale_of_resolve?_eq_none {store : Store} {id : VarId}
    (unresolved : store.resolve? id = none) : store.Stale id where
  get?_eq := by rw [get?, unresolved]; rfl
  next?_eq := by rw [next?, unresolved]; rfl
  nextInScope?_eq := by rw [nextInScope?, unresolved]; rfl
  remove_eq := remove_of_unlink_eq_none (unlink_of_resolve?_eq_none unresolved)
  write_eq := by
    intro write
    rw [Store.write, get?, unresolved, modify_of_resolve?_eq_none unresolved]
    rfl

/-! ## One command -/

namespace Represents

variable {store : Store} {items : Sequence}

theorem resolves_execute_iff (represents : store.Represents items)
    {id : VarId} (issued : store.Issued id) (command : Command) :
    ((store.execute command).value.2.resolve? id).isSome ↔
      (store.resolve? id).isSome ∧ id ∉ items.taken command := by
  rw [represents.resolves_iff]
  cases command with
  | add var =>
      have different : id ≠ (store.link var).1 := fun same =>
        represents.tidy.not_issued_link var (same ▸ issued)
      rw [value_execute_add, (represents.link var).resolves_iff,
        Sequence.ids_append]
      simp [Sequence.taken, ids, different]
  | remove target =>
      rw [value_execute_remove, (represents.remove target).2.resolves_iff,
        Sequence.mem_ids_without, Sequence.taken, List.mem_filter,
        decide_eq_true_iff]
      exact and_congr_right fun listed => by simp [listed]
  | removeByName name =>
      rw [value_execute_removeByName, (represents.removeByName name).2.resolves_iff]
      exact Sequence.mem_ids_eraseP represents.nodup
  | removeScope scope =>
      rw [value_execute_removeScope, (represents.removeScope scope).2.resolves_iff,
        ← Sequence.withoutAll_members represents.nodup]
      exact Sequence.mem_ids_withoutAll
  | destroyAll =>
      rw [value_execute_destroyAll, represents.destroyAll.resolves_iff]
      simp [Sequence.taken, ids]
  | write target write =>
      rw [value_execute_write, (represents.write target write).2.resolves_iff,
        Sequence.ids_update]
      simp [Sequence.taken]

/-! ## Runs -/

private theorem removedDuring_cons_iff (represents : store.Represents items)
    {command : Command} {commands : List Command} {id : VarId} :
    store.RemovedDuring (command :: commands) id ↔
      id ∈ items.taken command ∨
        (store.execute command).value.2.RemovedDuring commands id := by
  constructor
  · rintro ⟨before, other, after, equal, member⟩
    cases before with
    | nil =>
        cases equal
        rw [value_run_nil, represents.toList_eq] at member
        exact Or.inl member
    | cons first before =>
        cases equal
        exact Or.inr ⟨before, other, after, rfl, member⟩
  · rintro (member | ⟨before, other, after, rfl, member⟩)
    · refine ⟨[], command, commands, rfl, ?_⟩
      rw [value_run_nil, represents.toList_eq]
      exact member
    · exact ⟨command :: before, other, after, rfl, member⟩

theorem resolves_run_iff (represents : store.Represents items) {id : VarId}
    (issued : store.Issued id) (commands : List Command) :
    ((store.run commands).value.2.resolve? id).isSome ↔
      (store.resolve? id).isSome ∧ ¬store.RemovedDuring commands id := by
  induction commands generalizing store items with
  | nil =>
      have never : ¬store.RemovedDuring [] id := by
        rintro ⟨before, _, _, equal, _⟩
        cases before <;> cases equal
      simp [never]
  | cons command commands induction =>
      rcases represents.execute command with ⟨middle, _, representsMiddle⟩
      have remembered := Remembers.execute represents.tidy command id issued
      rw [value_run_cons, induction representsMiddle remembered,
        represents.resolves_execute_iff issued, represents.removedDuring_cons_iff,
        not_or, and_assoc]

theorem nodup_issuedBy (represents : store.Represents items)
    (commands : List Command) :
    (issuedBy (store.run commands).value.1).Nodup ∧
      ∀ id, id ∈ issuedBy (store.run commands).value.1 → ¬store.Issued id := by
  induction commands generalizing store items with
  | nil => exact ⟨.nil, fun _ member => nomatch member⟩
  | cons command commands induction =>
      rcases represents.execute command with ⟨middle, _, representsMiddle⟩
      rcases induction representsMiddle with ⟨laterNodup, laterFresh⟩
      have remembers := Remembers.execute represents.tidy command
      rw [value_run_cons]
      have laterNew : ∀ id,
          id ∈ issuedBy ((store.execute command).value.2.run commands).value.1 →
            ¬store.Issued id := fun id member issued =>
        laterFresh id member (remembers id issued)
      cases command with
      | add var =>
          rw [value_execute_add] at laterNodup laterFresh laterNew ⊢
          have issuedNow := represents.tidy.issued_link var
          refine ⟨List.nodup_cons.mpr ⟨fun member =>
            laterFresh _ member issuedNow, laterNodup⟩, ?_⟩
          intro id member
          rcases List.mem_cons.mp member with same | member
          · rw [same]
            exact represents.tidy.not_issued_link var
          · exact laterNew id member
      | remove | removeByName | removeScope | destroyAll | write =>
          exact ⟨laterNodup, laterNew⟩

end Represents

/-- All handles answered to the additions of a run differ. The handle of an
addition resolves as long as its variable is not removed, and once it is
removed the handle is stale for the rest of the run. -/
theorem handles_never_alias :
    (∀ commands, (issuedBy (empty.run commands).value.1).Nodup) ∧
      ∀ (earlier later : List Command) (var : Variable),
        let start := (empty.run earlier).value.2
        let id := (start.add var).value.1
        let linked := (start.add var).value.2
        let final := (linked.run later).value.2
        ((final.get? id).isSome ↔ ¬linked.RemovedDuring later id) ∧
          (linked.RemovedDuring later id → final.Stale id) := by
  refine ⟨fun commands => (represents_empty.nodup_issuedBy commands).1, ?_⟩
  intro earlier later var start id linked final
  have representsStart : start.Represents start.toList := represents_run earlier
  have added : (start.add var).value = start.link var := value_add start var
  have representsLinked : linked.Represents (start.toList ++ [(id, var)]) := by
    simp only [linked, id, added]
    exact representsStart.link var
  have issued : linked.Issued id := by
    simp only [linked, id, added]
    exact representsStart.tidy.issued_link var
  have resolves : (linked.resolve? id).isSome := by
    rw [representsLinked.resolves_iff, Sequence.ids_append]
    exact List.mem_append_right _ List.mem_cons_self
  have survives := representsLinked.resolves_run_iff issued later
  constructor
  · rw [get?, Option.isSome_map, survives]
    exact and_iff_right resolves
  · intro removed
    apply stale_of_resolve?_eq_none
    rw [← Option.not_isSome_iff_eq_none, survives]
    exact fun stays => stays.2 removed

end Store

end ScopedVariables
