import ScopedVariables.Proofs.Store.Issue
import ScopedVariables.Proofs.Store.Pairing
import ScopedVariables.Proofs.Store.ScopeChain

/-! # Only the listed variables count

Two stores that list equal variables may differ in their slots, in the order of
their free lists and in the generations that are left over. No client can tell
them apart: with their handles paired position by position, and each pair of
new handles joining the pairing, all answers agree from then on. -/

namespace ScopedVariables

open Sequence (ids)

namespace Store

/-! ## The same calls, up to handles -/

inductive Command.Paired (pairing : Pairing) : Command → Command → Prop
  | add (var) : Paired pairing (.add var) (.add var)
  | remove {left right} :
      pairing.Pairs left right → Paired pairing (.remove left) (.remove right)
  | removeByName (name) : Paired pairing (.removeByName name) (.removeByName name)
  | removeScope (scope) : Paired pairing (.removeScope scope) (.removeScope scope)
  | destroyAll : Paired pairing .destroyAll .destroyAll
  | write {left right} (write) :
      pairing.Pairs left right → Paired pairing (.write left write) (.write right write)

inductive Reply.Paired (pairing : Pairing) : Reply → Reply → Prop
  | added {left right} :
      pairing.Pairs left right → Paired pairing (.added left) (.added right)
  | removed (var) : Paired pairing (.removed var) (.removed var)
  | found (found) : Paired pairing (.found found) (.found found)
  | removedCount (count) : Paired pairing (.removedCount count) (.removedCount count)
  | done : Paired pairing .done .done
  | written (replaced) : Paired pairing (.written replaced) (.written replaced)

/-- The handles that two stores answer to an addition join the pairing. No pair
ever leaves it. -/
def joined (pairing : Pairing) : Reply → Reply → Pairing
  | .added left, .added right => (left, right) :: pairing
  | _, _ => pairing

structure AnswersAlike (pairing : Pairing) (left right : Store) : Prop where
  oneToOne : pairing.OneToOne
  get?_eq : ∀ {leftId rightId}, pairing.Pairs leftId rightId →
    left.get? leftId = right.get? rightId
  next?_rel : ∀ {leftId rightId}, pairing.Pairs leftId rightId →
    Option.Rel pairing.Pairs (left.next? leftId) (right.next? rightId)
  nextInScope?_rel : ∀ {leftId rightId}, pairing.Pairs leftId rightId →
    Option.Rel pairing.Pairs (left.nextInScope? leftId) (right.nextInScope? rightId)
  findByName_rel : ∀ name,
    Option.Rel pairing.Pairs (left.findByName name) (right.findByName name)
  firstInScope_rel : ∀ scope,
    Option.Rel pairing.Pairs (left.firstInScope scope) (right.firstInScope scope)
  iter_take : ∀ count, List.Forall₂ pairing.Matches
    (left.iter.take left count).1 (right.iter.take right count).1
  scopeIter_take : ∀ scope count, List.Forall₂ pairing.Matches
    ((left.scopeIter scope).take left count).1
    ((right.scopeIter scope).take right count).1
  count_eq : left.count = right.count
  isEmpty_eq : left.isEmpty = right.isEmpty

/-- Two stores answer alike now and, as long as they are given the same calls
with paired handles, after each of them, and the calls are answered alike. -/
def AgreeOn (pairing : Pairing) (left right : Store) :
    List (Command × Command) → Prop
  | [] => AnswersAlike pairing left right
  | (leftCommand, rightCommand) :: calls =>
      AnswersAlike pairing left right ∧
        (Command.Paired pairing leftCommand rightCommand →
          let leftOutcome := (left.execute leftCommand).value
          let rightOutcome := (right.execute rightCommand).value
          let pairing := joined pairing leftOutcome.1 rightOutcome.1
          Reply.Paired pairing leftOutcome.1 rightOutcome.1 ∧
            AgreeOn pairing leftOutcome.2 rightOutcome.2 calls)

/-! ## Handles issued on both sides -/

def IssuedPairs (pairing : Pairing) (left right : Store) : Prop :=
  ∀ {leftId rightId}, pairing.Pairs leftId rightId →
    left.Issued leftId ∧ right.Issued rightId

namespace IssuedPairs

variable {pairing : Pairing} {left right leftAfter rightAfter : Store}

theorem remembers (issued : IssuedPairs pairing left right)
    (leftRemembers : left.Remembers leftAfter)
    (rightRemembers : right.Remembers rightAfter) :
    IssuedPairs pairing leftAfter rightAfter := by
  intro leftId rightId pair
  exact (issued pair).imp (leftRemembers leftId) (rightRemembers rightId)

section Link

variable (issued : IssuedPairs pairing left right) (leftTidy : left.Tidy)
  (rightTidy : right.Tidy) (leftVar rightVar : Variable)

include issued leftTidy rightTidy

theorem link :
    IssuedPairs (((left.link leftVar).1, (right.link rightVar).1) :: pairing)
      (left.link leftVar).2 (right.link rightVar).2 := by
  intro leftId rightId pair
  rcases List.mem_cons.mp pair with isNew | pair
  · cases isNew
    exact ⟨leftTidy.issued_link leftVar, rightTidy.issued_link rightVar⟩
  · exact (issued pair).imp (Remembers.link leftTidy leftVar leftId)
      (Remembers.link rightTidy rightVar rightId)

theorem oneToOne_link (oneToOne : pairing.OneToOne) :
    Pairing.OneToOne (((left.link leftVar).1, (right.link rightVar).1) :: pairing) := by
  apply oneToOne.cons
  · intro _ pair
    exact leftTidy.not_issued_link leftVar (issued pair).1
  · intro _ pair
    exact rightTidy.not_issued_link rightVar (issued pair).2

end Link

theorem execute (issued : IssuedPairs pairing left right)
    (oneToOne : pairing.OneToOne) (leftTidy : left.Tidy) (rightTidy : right.Tidy)
    (leftCommand rightCommand : Command) :
    let leftOutcome := (left.execute leftCommand).value
    let rightOutcome := (right.execute rightCommand).value
    let after := joined pairing leftOutcome.1 rightOutcome.1
    after.OneToOne ∧ IssuedPairs after leftOutcome.2 rightOutcome.2 := by
  have remembered : IssuedPairs pairing (left.execute leftCommand).value.2
      (right.execute rightCommand).value.2 :=
    issued.remembers (Remembers.execute leftTidy leftCommand)
      (Remembers.execute rightTidy rightCommand)
  cases leftCommand with
  | add leftVar =>
      cases rightCommand with
      | add rightVar =>
          simp only [value_execute_add]
          exact ⟨issued.oneToOne_link leftTidy rightTidy leftVar rightVar oneToOne,
            issued.link leftTidy rightTidy leftVar rightVar⟩
      | _ => exact ⟨oneToOne, remembered⟩
  | _ => exact ⟨oneToOne, remembered⟩

end IssuedPairs

theorem forall₂_execute {pairing : Pairing} {leftItems rightItems : Sequence}
    (paired : List.Forall₂ pairing.Matches leftItems rightItems)
    (oneToOne : pairing.OneToOne) {leftCommand rightCommand : Command}
    (same : Command.Paired pairing leftCommand rightCommand)
    (leftFresh rightFresh : VarId) :
    let left := leftItems.execute leftFresh leftCommand
    let right := rightItems.execute rightFresh rightCommand
    let after := joined pairing left.1 right.1
    Reply.Paired after left.1 right.1 ∧
      List.Forall₂ after.Matches left.2 right.2 := by
  cases same with
  | add var =>
      refine ⟨.added List.mem_cons_self, List.rel_append ?_ ?_⟩
      · exact paired.imp fun _ _ same => same.cons _
      · exact .cons ⟨List.mem_cons_self, rfl⟩ .nil
  | remove pair =>
      simp only [Sequence.execute]
      rw [Sequence.lookup_eq_of_pairs paired oneToOne pair]
      exact ⟨.removed _, Sequence.forall₂_without paired oneToOne pair⟩
  | removeByName name =>
      simp only [Sequence.execute]
      rw [Sequence.any_eq paired (Sequence.named_eq name)]
      exact ⟨.found _, Sequence.forall₂_eraseP paired (Sequence.named_eq name)⟩
  | removeScope scope =>
      simp only [Sequence.execute]
      rw [(Sequence.forall₂_ofScope paired (some scope)).length_eq]
      exact ⟨.removedCount _, Sequence.forall₂_withoutScope paired scope⟩
  | destroyAll => exact ⟨.done, .nil⟩
  | write write pair =>
      simp only [Sequence.execute]
      rw [Sequence.lookup_eq_of_pairs paired oneToOne pair]
      exact ⟨.written _, Sequence.forall₂_update paired oneToOne pair (·.write write)⟩

/-! ## What two such stores keep -/

structure Alike (pairing : Pairing) (left right : Store)
    (leftItems rightItems : Sequence) : Prop where
  leftRepresents : left.Represents leftItems
  rightRepresents : right.Represents rightItems
  paired : List.Forall₂ pairing.Matches leftItems rightItems
  oneToOne : pairing.OneToOne
  issued : ∀ {leftId rightId}, pairing.Pairs leftId rightId →
    left.Issued leftId ∧ right.Issued rightId

namespace Alike

variable {pairing : Pairing} {left right : Store} {leftItems rightItems : Sequence}

theorem of_vars_eq (leftRepresents : left.Represents leftItems)
    (rightRepresents : right.Represents rightItems)
    (sameVars : leftItems.map Prod.snd = rightItems.map Prod.snd) :
    Alike (leftItems.ids.zip rightItems.ids) left right leftItems rightItems where
  leftRepresents
  rightRepresents
  paired := Sequence.forall₂_matches_zip sameVars
  oneToOne := Pairing.oneToOne_zip leftRepresents.nodup rightRepresents.nodup
  issued := fun pair => by
    rcases List.of_mem_zip pair with ⟨leftListed, rightListed⟩
    exact ⟨leftRepresents.tidy.issued_of_resolves
        (leftRepresents.resolves_iff.mpr leftListed),
      rightRepresents.tidy.issued_of_resolves
        (rightRepresents.resolves_iff.mpr rightListed)⟩

theorem answersAlike (alike : Alike pairing left right leftItems rightItems) :
    AnswersAlike pairing left right where
  oneToOne := alike.oneToOne
  get?_eq := fun pair => by
    rw [alike.leftRepresents.get?_eq, alike.rightRepresents.get?_eq]
    exact Sequence.lookup_eq_of_pairs alike.paired alike.oneToOne pair
  next?_rel := fun pair => by
    rw [alike.leftRepresents.next?_eq, alike.rightRepresents.next?_eq]
    exact Sequence.rel_following? alike.oneToOne pair
      (Sequence.forall₂_ids alike.paired)
  nextInScope?_rel := fun {leftId rightId} pair => by
    rw [alike.leftRepresents.nextInScope?_eq, alike.rightRepresents.nextInScope?_eq,
      Sequence.lookup_eq_of_pairs alike.paired alike.oneToOne pair]
    cases rightItems.lookup rightId with
    | none => exact .none
    | some var =>
        exact Sequence.rel_following? alike.oneToOne pair
          (Sequence.forall₂_ids (Sequence.forall₂_ofScope alike.paired var.scope))
  findByName_rel := fun name => by
    rw [alike.leftRepresents.findByName_eq_find?,
      alike.rightRepresents.findByName_eq_find?]
    exact Sequence.rel_find? alike.paired (Sequence.named_eq name)
      fun _ _ same => same.1
  firstInScope_rel := fun scope => by
    cases scope with
    | none => exact .none
    | some scope =>
        rw [alike.leftRepresents.agrees.firstInScope_some,
          alike.rightRepresents.agrees.firstInScope_some]
        exact Sequence.rel_find? alike.paired (fun _ _ same => by rw [same.2])
          fun _ _ same => same.1
  iter_take := fun count => by
    rw [alike.leftRepresents.agrees.iter_take, alike.rightRepresents.agrees.iter_take]
    exact List.forall₂_take count alike.paired
  scopeIter_take := fun scope count => by
    rw [alike.leftRepresents.scopeIter_take, alike.rightRepresents.scopeIter_take]
    exact List.forall₂_take count (Sequence.forall₂_ofScope alike.paired _)
  count_eq := by
    rw [alike.leftRepresents.count_eq, alike.rightRepresents.count_eq,
      alike.paired.length_eq]
  isEmpty_eq := by
    rw [alike.leftRepresents.isEmpty_eq, alike.rightRepresents.isEmpty_eq]
    cases alike.paired <;> rfl

theorem execute (alike : Alike pairing left right leftItems rightItems)
    {leftCommand rightCommand : Command}
    (same : Command.Paired pairing leftCommand rightCommand) :
    let leftOutcome := (left.execute leftCommand).value
    let rightOutcome := (right.execute rightCommand).value
    let after := joined pairing leftOutcome.1 rightOutcome.1
    Reply.Paired after leftOutcome.1 rightOutcome.1 ∧
      ∃ leftAfter rightAfter,
        Alike after leftOutcome.2 rightOutcome.2 leftAfter rightAfter := by
  intro leftOutcome rightOutcome after
  rcases alike.leftRepresents.execute leftCommand with
    ⟨leftAfter, ⟨leftFresh, _, leftExecuted⟩, leftRepresents⟩
  rcases alike.rightRepresents.execute rightCommand with
    ⟨rightAfter, ⟨rightFresh, _, rightExecuted⟩, rightRepresents⟩
  have together := forall₂_execute alike.paired alike.oneToOne same leftFresh rightFresh
  rw [leftExecuted, rightExecuted] at together
  have handles := IssuedPairs.execute alike.issued alike.oneToOne
    alike.leftRepresents.tidy alike.rightRepresents.tidy leftCommand rightCommand
  refine ⟨together.1, leftAfter, rightAfter, ?_⟩
  exact {
    leftRepresents
    rightRepresents
    paired := together.2
    oneToOne := handles.1
    issued := handles.2 }

theorem agreeOn (alike : Alike pairing left right leftItems rightItems)
    (calls : List (Command × Command)) : AgreeOn pairing left right calls := by
  induction calls generalizing pairing left right leftItems rightItems with
  | nil => exact alike.answersAlike
  | cons call calls induction =>
      refine ⟨alike.answersAlike, fun same => ?_⟩
      rcases alike.execute same with ⟨replies, _, _, alikeAfter⟩
      exact ⟨replies, induction alikeAfter⟩

end Alike

/-! ## Runs -/

/-- Stores that list equal variables answer alike for ever, however they came to
list them. A store that lists nothing, in particular after everything was
destroyed, is as good as the empty store. -/
theorem answers_depend_on_variables_only (commands others : List Command)
    (calls : List (Command × Command)) :
    let left := (empty.run commands).value.2
    let right := (empty.run others).value.2
    (left.toList.map Prod.snd = right.toList.map Prod.snd →
      AgreeOn ((ids left.toList).zip (ids right.toList)) left right calls) ∧
    (left.toList = [] → AgreeOn [] left empty calls) ∧
    AgreeOn [] left.destroyAll.value empty calls := by
  intro left right
  have represents : left.Represents left.toList := represents_run commands
  refine ⟨fun sameVars => ?_, fun listsNothing => ?_, ?_⟩
  · exact (Alike.of_vars_eq represents (represents_run others) sameVars).agreeOn calls
  · rw [listsNothing] at represents
    exact (Alike.of_vars_eq represents represents_empty rfl).agreeOn calls
  · exact (Alike.of_vars_eq represents.destroyAll represents_empty rfl).agreeOn calls

/-- The left store has used its first slot twice, and the right store lists the
same variables from slots that are used once. The calls remove a variable, use
its slots again and go on with the stale handles. -/
theorem answers_alike_in_other_slots :
    let x : Variable := ⟨"x", some .global, .scalar, ⟨0⟩, [.empty], none⟩
    let y : Variable := ⟨"y", none, .array 1, ⟨0⟩, [.empty], none⟩
    let commands : List Command := [.add x, .add y, .remove ⟨0, 0⟩, .add x]
    let others : List Command := [.add y, .add x]
    let emptying : List Command := [.add x, .remove ⟨0, 0⟩]
    let left := (empty.run commands).value.2
    let right := (empty.run others).value.2
    let emptied := (empty.run emptying).value.2
    let calls : List (Command × Command) :=
      [(.remove ⟨1, 0⟩, .remove ⟨0, 0⟩), (.add y, .add y),
        (.write ⟨1, 0⟩ .takeInternal, .write ⟨0, 0⟩ .takeInternal),
        (.remove ⟨1, 1⟩, .remove ⟨0, 1⟩)]
    let additions : List (Command × Command) :=
      [(.add x, .add x), (.remove ⟨0, 1⟩, .remove ⟨0, 0⟩)]
    left.toList.map Prod.snd = right.toList.map Prod.snd ∧
      AgreeOn [(⟨1, 0⟩, ⟨0, 0⟩), (⟨0, 1⟩, ⟨1, 0⟩)] left right calls ∧
      emptied.toList = [] ∧ AgreeOn [] emptied empty additions := by
  intro x y commands others emptying left right emptied calls additions
  have sameVars : left.toList.map Prod.snd = right.toList.map Prod.snd := by decide
  have pairs : (ids left.toList).zip (ids right.toList) =
      [(⟨1, 0⟩, ⟨0, 0⟩), (⟨0, 1⟩, ⟨1, 0⟩)] := by decide
  have listsNothing : emptied.toList = [] := by decide
  have agree := (answers_depend_on_variables_only commands others calls).1 sameVars
  rw [pairs] at agree
  exact ⟨sameVars, agree, listsNothing,
    (answers_depend_on_variables_only emptying [] additions).2.1 listsNothing⟩

end Store

end ScopedVariables
