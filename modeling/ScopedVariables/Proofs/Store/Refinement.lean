import ScopedVariables.Store.Command
import ScopedVariables.Proofs.Store.Operations

/-! # Stores refine plain sequences

Commands have a plain meaning on lists, where a handle is nothing but a name
and a new variable may be listed under any unused one. The main statement is
that a run from the empty store is a run on lists: reply by reply, and with
every query on the store answered from the list. -/

namespace ScopedVariables

open Sequence (ids)

namespace Sequence

/-- What a command answers and leaves, a new variable being listed under
`fresh`. -/
def execute (items : Sequence) (fresh : VarId) :
    Store.Command → Store.Reply × Sequence
  | .add var => (.added fresh, items ++ [(fresh, var)])
  | .remove id => (.removed (items.lookup id), items.without id)
  | .removeByName name =>
      (.found (items.any (named name)), items.eraseP (named name))
  | .removeScope scope =>
      (.removedCount (items.ofScope (some scope)).length, items.withoutScope scope)
  | .destroyAll => (.done, [])
  | .write id write =>
      (.written ((items.lookup id).map (·.replaced write)),
        items.update id (·.write write))

def Step (items : Sequence) (command : Store.Command) (reply : Store.Reply)
    (after : Sequence) : Prop :=
  ∃ fresh, fresh ∉ items.ids ∧ items.execute fresh command = (reply, after)

inductive Runs :
    Sequence → List Store.Command → List Store.Reply → Sequence → Prop
  | nil (items) : Runs items [] [] items
  | cons {items middle final command reply commands replies} :
      Step items command reply middle →
      Runs middle commands replies final →
      Runs items (command :: commands) (reply :: replies) final

theorem Step.fresh_of_added {items after : Sequence} {command : Store.Command}
    {id : VarId} (step : items.Step command (.added id) after) :
    id ∉ items.ids := by
  rcases step with ⟨fresh, unused, executed⟩
  cases command <;> cases executed
  exact unused

/-! ## What holds of every listed variable -/

section Kept

variable (Holds : VarId → Variable → Prop) {items after : Sequence}
  (kept : ∀ id var write, Holds id var → Holds id (var.write write))

include kept

theorem Step.forall_items {command : Store.Command} {reply : Store.Reply}
    (step : items.Step command reply after)
    (holds : ∀ item, item ∈ items → Holds item.1 item.2)
    (added : ∀ id var, command = .add var → reply = .added id → Holds id var) :
    ∀ item, item ∈ after → Holds item.1 item.2 := by
  rcases step with ⟨fresh, _, executed⟩
  cases command with
  | add var =>
      cases executed
      intro item member
      rcases List.mem_append.mp member with member | member
      · exact holds item member
      · rw [List.mem_singleton.mp member]
        exact added fresh var rfl rfl
  | remove id =>
      cases executed
      exact fun item member => holds item (List.mem_filter.mp member).1
  | removeByName name =>
      cases executed
      exact fun item member => holds item (List.mem_of_mem_eraseP member)
  | removeScope scope =>
      cases executed
      exact fun item member => holds item (List.mem_filter.mp member).1
  | destroyAll =>
      cases executed
      exact fun item member => nomatch member
  | write id write =>
      cases executed
      intro item member
      rcases List.mem_map.mp member with ⟨before, inItems, rfl⟩
      split
      · exact kept before.1 before.2 write (holds before inItems)
      · exact holds before inItems

theorem Runs.forall_items {commands : List Store.Command}
    {replies : List Store.Reply} (runs : items.Runs commands replies after)
    (holds : ∀ item, item ∈ items → Holds item.1 item.2)
    (added : ∀ id var, .add var ∈ commands → Holds id var) :
    ∀ item, item ∈ after → Holds item.1 item.2 := by
  induction runs with
  | nil => exact holds
  | cons step _ induction =>
      apply induction
      · apply step.forall_items Holds kept holds
        intro id var isAdd _
        exact added id var (isAdd ▸ List.mem_cons_self)
      · intro id var member
        exact added id var (List.mem_cons_of_mem _ member)

end Kept

theorem Step.listed_before_or_added {items after : Sequence}
    {command : Store.Command} {reply : Store.Reply}
    (step : items.Step command reply after) :
    ∀ item, item ∈ after →
      (∃ var, (item.1, var) ∈ items ∧ var.scope = item.2.scope) ∨
        ∃ var, command = .add var ∧ reply = .added item.1 ∧
          var.scope = item.2.scope := by
  apply step.forall_items fun id listed =>
    (∃ var, (id, var) ∈ items ∧ var.scope = listed.scope) ∨
      ∃ var, command = .add var ∧ reply = .added id ∧ var.scope = listed.scope
  · intro id listed write
    rw [Variable.scope_write]
    exact fun before => before
  · exact fun item member => .inl ⟨item.2, member, rfl⟩
  · exact fun id var isAdd isNew => .inr ⟨var, isAdd, isNew, rfl⟩

end Sequence

namespace Store

structure Agrees (store : Store) (items : Sequence) : Prop where
  nodup : items.ids.Nodup
  iter_take : ∀ count, (store.iter.take store count).1 = items.take count
  get?_eq : ∀ id, store.get? id = items.lookup id
  next?_eq : ∀ id, store.next? id = following? items.ids id
  findByName_eq : ∀ name,
    store.findByName name = (items.find? (Sequence.named name)).map Prod.fst
  firstInScope_some : ∀ scope,
    store.firstInScope (some scope) =
      (items.find? fun item => item.2.scope = some scope).map Prod.fst
  firstInScope_none : store.firstInScope none = none
  count_eq : store.count = items.length
  isEmpty_eq : store.isEmpty = items.isEmpty

theorem Represents.agrees {store : Store} {items : Sequence}
    (represents : store.Represents items) : store.Agrees items where
  nodup := represents.nodup
  iter_take := by
    rw [iter, represents.head_eq]
    exact represents.shows_sequence.take
  get?_eq := represents.get?_eq
  next?_eq := represents.next?_eq
  findByName_eq := represents.findByName_eq_find?
  firstInScope_some := by
    intro scope
    rw [firstInScope, represents.toList_eq]
  firstInScope_none := rfl
  count_eq := represents.count_eq
  isEmpty_eq := represents.isEmpty_eq

theorem Represents.execute {store : Store} {items : Sequence}
    (represents : store.Represents items) (command : Command) :
    ∃ after, items.Step command (store.execute command).value.1 after ∧
      (store.execute command).value.2.Represents after := by
  -- any unused handle serves a command that links nothing
  have unused := represents.place_fresh default
  cases command with
  | add var =>
      rw [value_execute_add]
      exact ⟨_, ⟨_, represents.place_fresh var, rfl⟩, represents.link var⟩
  | remove id =>
      rcases represents.remove id with ⟨answer, representsAfter⟩
      rw [value_execute_remove, answer]
      exact ⟨_, ⟨_, unused, rfl⟩, representsAfter⟩
  | removeByName name =>
      rcases represents.removeByName name with ⟨answer, representsAfter⟩
      rw [value_execute_removeByName, answer]
      exact ⟨_, ⟨_, unused, rfl⟩, representsAfter⟩
  | removeScope scope =>
      rcases represents.removeScope scope with ⟨answer, representsAfter⟩
      rw [value_execute_removeScope, answer]
      exact ⟨_, ⟨_, unused, rfl⟩, representsAfter⟩
  | destroyAll =>
      rw [value_execute_destroyAll]
      exact ⟨_, ⟨_, unused, rfl⟩, represents.destroyAll⟩
  | write id write =>
      rcases represents.write id write with ⟨answer, representsAfter⟩
      rw [value_execute_write, answer]
      exact ⟨_, ⟨_, unused, rfl⟩, representsAfter⟩

theorem Represents.run {store : Store} {items : Sequence}
    (represents : store.Represents items) (commands : List Command) :
    ∃ after, items.Runs commands (store.run commands).value.1 after ∧
      (store.run commands).value.2.Represents after := by
  induction commands generalizing store items with
  | nil => exact ⟨items, .nil items, represents⟩
  | cons command commands induction =>
      rcases represents.execute command with ⟨middle, step, representsMiddle⟩
      rcases induction representsMiddle with ⟨after, rest, representsAfter⟩
      rw [value_run_cons]
      exact ⟨after, .cons step rest, representsAfter⟩

theorem represents_run (commands : List Command) :
    (empty.run commands).value.2.Represents (empty.run commands).value.2.toList := by
  rcases represents_empty.run commands with ⟨items, _, represents⟩
  exact represents.represents_toList

/-- Runs from the empty store are runs on plain lists, and so is every further
step. Each store on the way lists the plain list and answers from it, and a
handle that is not listed removes nothing. -/
theorem run_refines_sequence (commands : List Command) :
    let store := (empty.run commands).value.2
    Sequence.Runs [] commands (empty.run commands).value.1 store.toList ∧
      store.Agrees store.toList ∧
      (∀ command, Sequence.Step store.toList command
        (store.execute command).value.1 (store.execute command).value.2.toList) ∧
      ∀ id, id ∉ ids store.toList → store.remove id = pure (none, store) := by
  intro store
  have represents : store.Represents store.toList := represents_run commands
  refine ⟨?_, represents.agrees, ?_, fun id absent => represents.remove_stale absent⟩
  · rcases represents_empty.run commands with ⟨items, runs, final⟩
    rw [show store.toList = items from final.toList_eq]
    exact runs
  · intro command
    rcases represents.execute command with ⟨after, step, representsAfter⟩
    rw [representsAfter.toList_eq]
    exact step

end Store

end ScopedVariables
