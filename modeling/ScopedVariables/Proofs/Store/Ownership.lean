import ScopedVariables.Proofs.Store.Aliasing
import ScopedVariables.Proofs.Store.Report

/-! # No variable is lost

A store owns the variables that are linked into it. It gives up each of them
once, to the caller of a removal or by destroying it, and it reports what it
destroys. Until then a variable changes by the writes through its handle and in
no other way. -/

namespace ScopedVariables

open Log
open Sequence (ids)

def Log.endings (log : List Record) : List Event :=
  log.filterMap fun
    | .event (.destroying name payloads internal) =>
        some (.destroying name payloads internal)
    | _ => none

namespace Store

/-! ## The ways out of a store

A variable goes by being handed to the caller of a removal, under the handle
that was given, or by being destroyed. Until then it is what was added, after
the writes through its handle. -/

def handedOver : Command → Reply → Sequence
  | .remove id, .removed (some var) => [(id, var)]
  | _, _ => []

def handedOut (commands : List Command) (replies : List Reply) : Sequence :=
  (commands.zipWith handedOver replies).flatten

def destroyedBy (store : Store) : Command → Sequence
  | .removeByName name => (store.toList.find? (Sequence.named name)).toList
  | .removeScope scope => store.scopeList scope
  | .destroyAll => store.toList
  | .add _ | .remove _ | .write _ _ => []

def destroyedDuring (store : Store) : List Command → Sequence
  | [] => []
  | command :: commands =>
      store.destroyedBy command ++
        (store.execute command).value.2.destroyedDuring commands

def Command.change (id : VarId) (var : Variable) : Command → Variable
  | .write target change => if target = id then var.write change else var
  | _ => var

def writtenThrough (id : VarId) (var : Variable) (commands : List Command) :
    Variable :=
  commands.foldl (Command.change id) var

/-- What a store gives up was linked, and every end is reported. -/
structure GivesUp (store : Store) : Prop where
  remove_eq : ∀ id, (store.remove id).value.1 = store.get? id
  destroyed_eq : ∀ command item, item ∈ store.destroyedBy command →
    store.get? item.1 = some item.2
  endings_eq : ∀ command, endings (store.execute command).log =
    (store.destroyedBy command).map fun item =>
      .destroying item.2.name item.2.payloadCount item.2.internal.isSome

end Store

/-! ## Parts of a sequence -/

namespace Sequence

variable {items : Sequence}

theorem perm_ids_without (nodup : items.ids.Nodup) {target : VarId}
    (member : target ∈ items.ids) :
    items.ids.Perm ((items.without target).ids ++ [target]) := by
  have erased : items.ids.erase target = (items.without target).ids := by
    rw [nodup.erase_eq_filter, ids_without]
    simp only [ne_eq, decide_not]
    rfl
  calc items.ids
    _ |>.Perm (target :: items.ids.erase target) := List.perm_cons_erase member
    _ |>.Perm ((items.without target).ids ++ [target]) := by
        rw [erased]
        exact (List.perm_append_singleton _ _).symm

theorem perm_ids_withoutScope (scope : ScopeId) :
    items.ids.Perm
      ((items.withoutScope scope).ids ++ (items.ofScope (some scope)).ids) := by
  rw [← ids_append]
  apply List.Perm.map
  apply ((List.filter_append_perm (fun item => item.2.scope ≠ some scope) items).symm).trans
  simp [withoutScope, ofScope]

theorem lookup_of_sublist (nodup : items.ids.Nodup) {part : Sequence}
    (included : part.Sublist items) (id : VarId) :
    part.lookup id = none ∨ part.lookup id = items.lookup id := by
  cases listed : part.lookup id with
  | none => exact Or.inl rfl
  | some var =>
      have member := included.subset (mem_of_lookup listed)
      exact Or.inr (lookup_of_mem nodup member).symm

end Sequence

namespace Store

variable {store : Store} {items : Sequence}

/-! ## What is reported -/

theorem endings_departures (count : Nat) (vars : List Variable) :
    endings (departures count vars) = vars.map fun var =>
      .destroying var.name var.payloadCount var.internal.isSome := by
  induction vars generalizing count with
  | nil => rfl
  | cons var vars induction => exact congrArg (_ :: ·) (induction (count - 1))

theorem endings_map (items : Sequence) :
    endings (items.map fun item => .event (.destroying item.2.name
        item.2.payloadCount item.2.internal.isSome)) =
      items.map fun item =>
        .destroying item.2.name item.2.payloadCount item.2.internal.isSome := by
  induction items with
  | nil => rfl
  | cons item items induction => exact congrArg (_ :: ·) induction

theorem endings_append (earlier later : List Record) :
    endings (earlier ++ later) = endings earlier ++ endings later :=
  List.filterMap_append

theorem Reported.endings_eq {command : Command} {reply : Reply} {log : List Record}
    (reported : store.Reported command reply log)
    (represents : store.Represents items) :
    endings log = (store.destroyedBy command).map fun item =>
      .destroying item.2.name item.2.payloadCount item.2.internal.isSome := by
  cases reported with
  | firstOfScope | added | removed | stale | written => rfl
  | @named name id var found linked =>
      rw [represents.findByName_eq_find?] at found
      rcases Option.map_eq_some_iff.mp found with ⟨⟨target, first⟩, search, rfl⟩
      rw [represents.get?_eq, Sequence.lookup_of_mem represents.nodup
        (List.mem_of_find?_eq_some search)] at linked
      cases linked
      rw [destroyedBy, represents.toList_eq, search]
      rfl
  | @unnamed name missing =>
      rw [represents.findByName_eq_find?, Option.map_eq_none_iff] at missing
      rw [destroyedBy, represents.toList_eq, missing]
      rfl
  | @scopeRemoved scope vars listed =>
      change endings (departures store.count vars ++ [.exit (.removeScope scope)]) = _
      rw [endings_append, endings_departures, ← listed, List.map_map]
      exact List.append_nil _
  | destroyed =>
      change endings (store.toList.map _ ++ [.exit (.destroyAll store.count)]) = _
      rw [endings_append, endings_map]
      exact List.append_nil _

theorem issuedBy_cons (reply : Reply) (replies : List Reply) :
    issuedBy (reply :: replies) = issuedBy [reply] ++ issuedBy replies :=
  List.filterMap_append (l := [reply])

theorem Represents.givesUp (represents : store.Represents items) :
    store.GivesUp where
  remove_eq := fun id => by
    rw [(represents.remove id).1, represents.get?_eq]
  destroyed_eq := by
    intro command item member
    have listed : item ∈ items := by
      cases command with
      | add | remove | write => cases member
      | removeByName name =>
          rw [destroyedBy, represents.toList_eq, Option.mem_toList] at member
          exact List.mem_of_find?_eq_some member
      | removeScope scope =>
          rw [destroyedBy, represents.scopeList_eq] at member
          exact (List.mem_filter.mp member).1
      | destroyAll =>
          rw [destroyedBy, represents.toList_eq] at member
          exact member
    rw [represents.get?_eq]
    exact Sequence.lookup_of_mem represents.nodup listed
  endings_eq := fun command => (represents.reported command).endings_eq represents

/-! ## What is given up -/

section Conservation

variable (represents : store.Represents items)

include represents

theorem Represents.conserves (command : Command) :
    (ids store.toList ++ issuedBy [(store.execute command).value.1]).Perm
      (ids (store.execute command).value.2.toList ++
        (ids (handedOver command (store.execute command).value.1) ++
          ids (store.destroyedBy command))) := by
  have listed := represents.toList_eq
  cases command with
  | add var =>
      rw [value_execute_add, (represents.link var).toList_eq, listed, Sequence.ids_append]
      simp [issuedBy, handedOver, destroyedBy, ids]
  | remove id =>
      rcases represents.remove id with ⟨handed, after⟩
      rw [value_execute_remove, after.toList_eq, handed, listed]
      cases found : items.lookup id with
      | none =>
          rw [Sequence.without_of_not_mem (Sequence.lookup_eq_none_iff.mp found)]
          simp [issuedBy, handedOver, destroyedBy, ids]
      | some var =>
          simpa [issuedBy, handedOver, destroyedBy, ids] using
            Sequence.perm_ids_without represents.nodup (Sequence.mem_ids_of_lookup found)
  | removeByName name =>
      rw [value_execute_removeByName, (represents.removeByName name).2.toList_eq,
        destroyedBy, listed]
      cases search : items.find? (Sequence.named name) with
      | none =>
          rw [List.eraseP_of_forall_not (List.find?_eq_none.mp search)]
          simp [issuedBy, handedOver, ids]
      | some first =>
          rw [Sequence.eraseP_eq_without represents.nodup search]
          simpa [issuedBy, handedOver, ids] using
            Sequence.perm_ids_without represents.nodup
              (Sequence.mem_ids (List.mem_of_find?_eq_some search))
  | removeScope scope =>
      rw [value_execute_removeScope, (represents.removeScope scope).2.toList_eq,
        destroyedBy, listed, represents.scopeList_eq]
      simpa [issuedBy, handedOver, ids] using Sequence.perm_ids_withoutScope scope
  | destroyAll =>
      rw [value_execute_destroyAll, represents.destroyAll.toList_eq, destroyedBy]
      simp [issuedBy, handedOver, ids]
  | write id write =>
      rw [value_execute_write, (represents.write id write).2.toList_eq,
        Sequence.ids_update, listed]
      simp [issuedBy, handedOver, destroyedBy, ids]

theorem Represents.conserves_run (commands : List Command) :
    (ids store.toList ++ issuedBy (store.run commands).value.1).Perm
      (ids (store.run commands).value.2.toList ++
        (ids (handedOut commands (store.run commands).value.1) ++
          ids (store.destroyedDuring commands))) := by
  induction commands generalizing store items with
  | nil => simp [issuedBy, handedOut, destroyedDuring, ids]
  | cons command commands induction =>
      rcases represents.execute command with ⟨after, _, representsAfter⟩
      have first := represents.conserves command
      have rest := induction representsAfter
      rw [value_run_cons, issuedBy_cons, destroyedDuring, handedOut,
        List.zipWith_cons_cons, List.flatten_cons, ← handedOut]
      simp only [Sequence.ids_append, List.perm_iff_count, List.count_append]
        at first rest ⊢
      intro id
      have firstCount := first id
      have restCount := rest id
      omega

theorem Represents.endings_run (commands : List Command) :
    endings (store.run commands).log =
      (store.destroyedDuring commands).map fun item =>
        .destroying item.2.name item.2.payloadCount item.2.internal.isSome := by
  induction commands generalizing store items with
  | nil => rfl
  | cons command commands induction =>
      rcases represents.execute command with ⟨after, _, representsAfter⟩
      rw [log_run_cons, endings_append, represents.givesUp.endings_eq command,
        induction representsAfter, destroyedDuring, List.map_append]

/-! ## What remains -/

theorem Represents.get?_execute {id : VarId} (issued : store.Issued id)
    (command : Command) :
    let after := (store.execute command).value.2
    after.get? id = none ∨
      after.get? id = (store.get? id).map (command.change id ·) := by
  intro after
  have kept {part : Sequence} (representsAfter : after.Represents part)
      (included : part.Sublist items) :
      after.get? id = none ∨ after.get? id = (store.get? id).map fun var => var := by
    rw [Option.map_id_fun', id_eq, representsAfter.get?_eq, represents.get?_eq]
    exact Sequence.lookup_of_sublist represents.nodup included id
  cases command with
  | add var =>
      have different : id ≠ (store.link var).1 := fun same =>
        represents.tidy.not_issued_link var (same ▸ issued)
      have fresh : (store.link var).1 ∉ items.ids := represents.place_fresh var
      have representsAfter : after.Represents (items ++ [((store.link var).1, var)]) := by
        simp only [after, value_execute_add]
        exact represents.link var
      right
      rw [representsAfter.get?_eq, represents.get?_eq,
        Sequence.lookup_concat fresh, if_neg different]
      exact Option.map_id_apply.symm
  | remove target => exact kept (represents.remove target).2 List.filter_sublist
  | removeByName name => exact kept (represents.removeByName name).2 List.eraseP_sublist
  | removeScope scope => exact kept (represents.removeScope scope).2 List.filter_sublist
  | destroyAll => exact kept represents.destroyAll (List.nil_sublist _)
  | write target change =>
      right
      have representsAfter := (represents.write target change).2
      simp only [after, value_execute_write]
      rw [representsAfter.get?_eq, represents.get?_eq, Sequence.lookup_update]
      simp only [Command.change, eq_comm]
      split
      · rfl
      · simp

theorem Represents.get?_run {id : VarId} (issued : store.Issued id)
    (commands : List Command) :
    let final := (store.run commands).value.2
    final.get? id = none ∨
      final.get? id = (store.get? id).map (writtenThrough id · commands) := by
  induction commands generalizing store items with
  | nil => exact Or.inr Option.map_id_apply.symm
  | cons command commands induction =>
      rcases represents.execute command with ⟨after, _, representsAfter⟩
      have remembered := Remembers.execute represents.tidy command id issued
      rw [value_run_cons]
      rcases induction representsAfter remembered with gone | later
      · exact Or.inl gone
      · rcases represents.get?_execute issued command with gone | changed
        · rw [gone] at later
          exact Or.inl later
        · rw [changed, Option.map_map] at later
          exact Or.inr later

end Conservation

/-! ## The main statement -/

/-- All variables that are linked in a run are linked at its end, handed out or
destroyed, each of them in one place and once. Every end is reported, with what the
variable is at that time, and no other event reports one. A linked variable is the one
that was added, after the writes that went through its handle, and a write overwrites
what it names and nothing else. -/
theorem ownership_conserved :
    (∀ commands,
      let outcome := empty.run commands
      let destroyed := empty.destroyedDuring commands
      (issuedBy outcome.value.1).Nodup ∧
        (issuedBy outcome.value.1).Perm
          (ids outcome.value.2.toList ++
            (ids (handedOut commands outcome.value.1) ++ ids destroyed)) ∧
        endings outcome.log = destroyed.map (fun item =>
          .destroying item.2.name item.2.payloadCount item.2.internal.isSome) ∧
        outcome.value.2.GivesUp) ∧
      (∀ (earlier later : List Command) (var : Variable),
        let start := (empty.run earlier).value.2
        let id := (start.add var).value.1
        let final := ((start.add var).value.2.run later).value.2
        final.get? id = none ∨
          final.get? id = some (writtenThrough id var later)) ∧
      ∀ (before after : Variable) (write : Variable.Write) (old : Option ByteArray),
        before.Overwrites write old after ↔
          old = before.replaced write ∧ after = before.write write := by
  refine ⟨fun commands => ?_, fun earlier later var => ?_,
    fun _ _ _ _ => Variable.overwrites_iff⟩
  · intro outcome destroyed
    have conserved := represents_empty.conserves_run commands
    exact ⟨(represents_empty.nodup_issuedBy commands).1, conserved,
      represents_empty.endings_run commands, (represents_run commands).givesUp⟩
  · intro start id final
    have representsStart : start.Represents start.toList := represents_run earlier
    have added : (start.add var).value = start.link var := value_add start var
    have linked := representsStart.link var
    have fresh : (start.link var).1 ∉ ids start.toList :=
      representsStart.place_fresh var
    have linkedVar : (start.link var).2.get? (start.link var).1 = some var := by
      rw [linked.get?_eq, Sequence.lookup_concat fresh, if_pos rfl]
    have written := linked.get?_run (representsStart.tidy.issued_link var) later
    rw [linkedVar] at written
    simp only [final, id, added]
    exact written

/-- One variable is handed out. The next one takes its slot, is given bytes and an internal
value, and is destroyed with its scope, while a third one stays. -/
theorem written_variable_destroyed :
    let x : Variable := ⟨"x", some .global, .scalar, ⟨0⟩, [.empty], none⟩
    let y : Variable := ⟨"y", some ⟨1⟩, .array 2, ⟨0⟩, [.empty, .empty], none⟩
    let writes : List Command :=
      [.write ⟨0, 1⟩ (.value 1 ⟨#[7, 8]⟩), .write ⟨0, 1⟩ (.setInternal ⟨#[9]⟩)]
    let commands : List Command :=
      .add x :: .remove ⟨0, 0⟩ :: .add y :: .add x :: writes ++ [.removeScope ⟨1⟩]
    let outcome := empty.run commands
    issuedBy outcome.value.1 = [⟨0, 0⟩, ⟨0, 1⟩, ⟨1, 0⟩] ∧
      ids outcome.value.2.toList = [⟨1, 0⟩] ∧
      handedOut commands outcome.value.1 = [(⟨0, 0⟩, x)] ∧
      empty.destroyedDuring commands =
        [(⟨0, 1⟩, { y with
          values := [.empty, ⟨⟨#[7, 8]⟩⟩], internal := some ⟨#[9]⟩ })] ∧
      (issuedBy outcome.value.1).Perm ([⟨1, 0⟩] ++ ([⟨0, 0⟩] ++ [⟨0, 1⟩])) ∧
      endings outcome.log = [.destroying "y" 2 true] := by
  intro x y writes commands outcome
  have linked : ids outcome.value.2.toList = [⟨1, 0⟩] := by decide
  have handed : handedOut commands outcome.value.1 = [(⟨0, 0⟩, x)] := by decide
  have destroyed : empty.destroyedDuring commands =
      [(⟨0, 1⟩, { y with
        values := [.empty, ⟨⟨#[7, 8]⟩⟩], internal := some ⟨#[9]⟩ })] := by decide
  have conserved := ownership_conserved.1 commands
  dsimp only at conserved
  rw [linked, handed, destroyed] at conserved
  exact ⟨by decide, linked, handed, destroyed, conserved.2.1, conserved.2.2.1⟩

end Store

end ScopedVariables
