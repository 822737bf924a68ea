import ScopedVariables.Proofs.Store.Neighbours
import ScopedVariables.Proofs.Store.Ownership

/-! # What a handle reads

A variable keeps what was written through its handle, wherever in the arena it
lies and whoever used its slot before. Every linked handle answers an addition of
the run, and reading it yields the variable of that addition after the writes
through the handle since then. A write in turn is seen through its handle alone. -/

namespace ScopedVariables.Store

open Sequence (ids members)

/-- One of the commands adds `var` and is answered with `id`, and `later` comes
after it. -/
def Adds (store : Store) (commands : List Command) (id : VarId) (var : Variable)
    (later : List Command) : Prop :=
  ∃ earlier, commands = earlier ++ .add var :: later ∧
    ((store.run earlier).value.2.add var).value.1 = id

/-- What a write through `id` replies and changes, and what it leaves. -/
structure Written (before : Store) (id : VarId) (write : Variable.Write)
    (reply : Option (Option ByteArray)) (after : Store) : Prop where
  reply_eq : reply = (before.get? id).map (·.replaced write)
  get?_eq : ∀ other, after.get? other =
    if other = id then (before.get? id).map (·.write write) else before.get? other
  next?_eq : ∀ other, after.next? other = before.next? other
  nextInScope?_eq : ∀ other, after.nextInScope? other = before.nextInScope? other
  head_eq : after.head = before.head
  ids_eq : ids after.toList = ids before.toList
  members_eq : ∀ scope, members after.toList scope = members before.toList scope
  count_eq : after.count = before.count

namespace Represents

variable {store : Store} {items : Sequence} (represents : store.Represents items)

include represents

/-! ## One write -/

theorem written (id : VarId) (write : Variable.Write) :
    store.Written id write (store.write id write).1 (store.write id write).2 := by
  have representsAfter := (represents.write id write).2
  have sameMembers : ∀ scope,
      (items.update id (·.write write)).members scope = items.members scope :=
    Sequence.members_update (fun var => var.scope_write write) id
  -- a link is read from the entry itself, and the write keeps the links of an entry
  have sameLink (read : Entry → Option VarId)
      (kept : ∀ entry : Entry, read { entry with var := entry.var.write write } = read entry)
      (other : VarId) :
      ((store.write id write).2.resolve? other).bind read =
        (store.resolve? other).bind read := by
    rw [Store.write, resolve?_modify]
    split
    · cases store.resolve? other with
      | none => rfl
      | some entry => exact kept entry
    · rfl
  refine ⟨rfl, fun other => ?_, sameLink Entry.next fun _ => rfl,
    sameLink Entry.nextInScope fun _ => rfl, rfl, ?_, fun scope => ?_, rfl⟩
  · rw [representsAfter.get?_eq, represents.get?_eq, represents.get?_eq,
      Sequence.lookup_update]
    split
    · rename_i same
      rw [same]
    · rfl
  · rw [representsAfter.toList_eq, represents.toList_eq, Sequence.ids_update]
  · rw [representsAfter.toList_eq, represents.toList_eq, sameMembers]

/-! ## The addition behind a handle -/

theorem linked_before_or_added {commands : List Command} {id : VarId}
    (linked : ((store.run commands).value.2.get? id).isSome) :
    (store.get? id).isSome ∨ ∃ var later, store.Adds commands id var later := by
  induction commands generalizing store items with
  | nil => exact Or.inl linked
  | cons command commands induction =>
      rcases represents.execute command with ⟨after, step, representsAfter⟩
      rw [value_run_cons] at linked
      rcases induction representsAfter linked with before | ⟨var, later, earlier, split, answer⟩
      · rw [get?, Option.isSome_map, representsAfter.resolves_iff] at before
        rcases List.mem_map.mp before with ⟨item, member, rfl⟩
        rcases step.listed_before_or_added item member with
          ⟨var, listed, _⟩ | ⟨var, rfl, reply, _⟩
        · left
          rw [get?, Option.isSome_map, represents.resolves_iff]
          exact List.mem_map.mpr ⟨(item.1, var), listed, rfl⟩
        · right
          rw [value_execute_add, Reply.added.injEq, ← value_add] at reply
          exact ⟨var, commands, [], rfl, reply⟩
      · right
        exact ⟨var, later, command :: earlier, by rw [split, List.cons_append], answer⟩

theorem get?_of_adds {commands later : List Command} {id : VarId} {var : Variable}
    (adds : store.Adds commands id var later)
    (linked : ((store.run commands).value.2.get? id).isSome) :
    (store.run commands).value.2.get? id = some (writtenThrough id var later) := by
  rcases adds with ⟨earlier, rfl, rfl⟩
  rcases represents.run earlier with ⟨before, _, representsBefore⟩
  have continued : (store.run (earlier ++ .add var :: later)).value.2 =
      (((store.run earlier).value.2.link var).2.run later).value.2 := by
    rw [value_run_append, value_run_cons, value_execute_add]
  rw [continued, value_add] at linked ⊢
  have issued := representsBefore.tidy.issued_link var
  rcases (representsBefore.link var).get?_run issued later with gone | read
  · rw [gone] at linked
    cases linked
  · rw [(representsBefore.linked var).get?_eq, if_pos rfl] at read
    exact read

end Represents

/-! ## The main statement -/

/-- In every store that commands make of an empty one, a linked handle answers an
addition, and reads and hands out the variable of that addition after the writes
through the handle since then. One more write changes this variable and nothing else,
and a write through a handle that does not resolve changes nothing. What is read of a
variable after a write is the bytes that were written and, but for them, what was read
before. -/
theorem contents_follow_handles (commands : List Command) :
    let final := (empty.run commands).value.2
    (∀ id, (final.get? id).isSome → ∃ var later, empty.Adds commands id var later) ∧
      (∀ id var later, empty.Adds commands id var later → (final.get? id).isSome →
        final.get? id = some (writtenThrough id var later) ∧
          (final.remove id).value.1 = some (writtenThrough id var later)) ∧
      (∀ id write,
        final.Written id write (final.write id write).1 (final.write id write).2) ∧
      (∀ id, final.get? id = none → ∀ write, final.write id write = (none, final)) ∧
      ∀ (before after : Variable) (write : Variable.Write) (old : Option ByteArray),
        before.Overwrites write old after ↔
          old = before.replaced write ∧ after = before.write write := by
  intro final
  have represents : final.Represents final.toList := represents_run commands
  refine ⟨fun id linked => ?_, fun id var later adds linked => ?_,
    represents.written, fun id absent write => ?_, fun _ _ _ _ => Variable.overwrites_iff⟩
  · rcases represents_empty.linked_before_or_added linked with before | added
    · rw [get?, resolve?_empty] at before
      cases before
    · exact added
  · have read := represents_empty.get?_of_adds adds linked
    refine ⟨read, ?_⟩
    rw [(represents.remove id).1, ← represents.get?_eq]
    exact read
  · rw [get?, Option.map_eq_none_iff] at absent
    exact (stale_of_resolve?_eq_none absent).write_eq write

/-- A slot is used again. What was written last through its new handle is read back and
handed out, and the handle that resolved before writes nothing. -/
theorem contents_read_in_used_slot :
    let x : Variable := ⟨"x", some .global, .scalar, ⟨0⟩, [.empty], none⟩
    let y : Variable := ⟨"y", some ⟨1⟩, .array 2, ⟨0⟩, [.empty, .empty], none⟩
    let later : List Command :=
      [.write ⟨0, 1⟩ (.value 1 ⟨#[7, 8]⟩), .write ⟨0, 0⟩ (.value 0 ⟨#[1]⟩),
        .write ⟨0, 1⟩ (.setInternal ⟨#[9]⟩), .add x, .write ⟨0, 1⟩ (.value 1 ⟨#[5]⟩),
        .write ⟨1, 0⟩ .takeInternal, .write ⟨0, 1⟩ (.value 2 ⟨#[6]⟩)]
    let commands : List Command := .add x :: .remove ⟨0, 0⟩ :: .add y :: later
    let final := (empty.run commands).value.2
    let read : Variable :=
      { y with values := [.empty, ⟨⟨#[5]⟩⟩], internal := some ⟨#[9]⟩ }
    empty.Adds commands ⟨0, 1⟩ y later ∧
      final.get? ⟨0, 1⟩ = some read ∧ (final.remove ⟨0, 1⟩).value.1 = some read ∧
      (final.write ⟨0, 1⟩ .takeInternal).1 = some (some ⟨#[9]⟩) ∧
      final.get? ⟨0, 0⟩ = none ∧ final.write ⟨0, 0⟩ .takeInternal = (none, final) := by
  intro x y later commands final read
  have adds : empty.Adds commands ⟨0, 1⟩ y later :=
    ⟨[.add x, .remove ⟨0, 0⟩], rfl, by decide⟩
  have linked : (final.get? ⟨0, 1⟩).isSome := by decide
  have absent : final.get? ⟨0, 0⟩ = none := by decide
  have written : writtenThrough ⟨0, 1⟩ y later = read := by decide
  -- from here on the commands need not be run again
  clear_value commands later
  rcases contents_follow_handles commands with ⟨_, reads, writes, stale, _⟩
  have readBack := reads ⟨0, 1⟩ y later adds linked
  have reply := (writes ⟨0, 1⟩ .takeInternal).reply_eq
  rw [written] at readBack
  rw [readBack.1] at reply
  exact ⟨adds, readBack.1, readBack.2, reply, absent, stale ⟨0, 0⟩ absent .takeInternal⟩

end ScopedVariables.Store
