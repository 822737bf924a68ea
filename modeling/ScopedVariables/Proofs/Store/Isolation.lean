import Mathlib.Data.List.ReduceOption
import ScopedVariables.Proofs.Store.Independence

/-! # Scopes do not interfere

The variables of all scopes share slots, free list and sequence. Still, what
becomes of the variables of one scope does not depend on the others. Take from
a run on a store what concerns one scope: its additions, what is done through
the handles that these returned, and its removals. A second store that is given
nothing else lists the same variables of the scope, and answers alike. -/

namespace ScopedVariables

open Sequence (ids)

namespace Store

/-! ## The part of a run that concerns a scope -/

/-- The command to be given to a store of one scope alone, if `command` concerns
that scope. What goes through a handle concerns it if the handle is paired with
one of that store. -/
def Command.inScope? (scope : ScopeId) (pairing : Pairing) :
    Command → Option Command
  | .add var => if var.scope = some scope then some (.add var) else none
  | .remove id => (pairing.lookup id).map .remove
  | .removeByName _ => none
  | .removeScope other => if other = scope then some (.removeScope scope) else none
  | .destroyAll => some .destroyAll
  | .write id change => (pairing.lookup id).map (.write · change)

/-- Run commands on one store, and what concerns `scope` on another one. Tell for
each command what the second store is given, if anything, and in the end which
handles the two stores returned for the same additions. -/
def project (scope : ScopeId) (full own : Store) (pairing : Pairing) :
    List Command → List (Option Command) × Pairing
  | [] => ([], pairing)
  | command :: commands =>
      let (fullReply, full) := (full.execute command).value
      match command.inScope? scope pairing with
      | none =>
          let (calls, pairing) := project scope full own pairing commands
          (none :: calls, pairing)
      | some kept =>
          let (ownReply, own) := (own.execute kept).value
          let (calls, pairing) :=
            project scope full own (joined pairing fullReply ownReply) commands
          (some kept :: calls, pairing)

def keptReplies : List (Option Command) → List Reply → List Reply
  | some _ :: calls, reply :: replies => reply :: keptReplies calls replies
  | none :: calls, _ :: replies => keptReplies calls replies
  | _, _ => []

theorem project_cons_of_none {scope : ScopeId} {pairing : Pairing}
    {command : Command} (dropped : command.inScope? scope pairing = none)
    (full own : Store) (commands : List Command) :
    project scope full own pairing (command :: commands) =
      (none :: (project scope (full.execute command).value.2 own pairing commands).1,
        (project scope (full.execute command).value.2 own pairing commands).2) := by
  rw [project, dropped]

theorem project_cons_of_some {scope : ScopeId} {pairing : Pairing}
    {command kept : Command} (isKept : command.inScope? scope pairing = some kept)
    (full own : Store) (commands : List Command) :
    let after := joined pairing (full.execute command).value.1 (own.execute kept).value.1
    let rest := project scope (full.execute command).value.2 (own.execute kept).value.2
      after commands
    project scope full own pairing (command :: commands) = (some kept :: rest.1, rest.2) := by
  rw [project, isKept]

theorem pairs_joined {pairing : Pairing} {leftReply rightReply : Reply}
    {left right : VarId} (pair : (joined pairing leftReply rightReply).Pairs left right) :
    pairing.Pairs left right ∨ leftReply = .added left := by
  unfold joined at pair
  split at pair
  · rcases List.mem_cons.mp pair with isNew | pair
    · cases isNew
      exact .inr rfl
    · exact .inl pair
  · exact .inl pair

theorem subset_joined (pairing : Pairing) (leftReply rightReply : Reply) :
    pairing ⊆ joined pairing leftReply rightReply := by
  unfold joined
  split
  · exact List.subset_cons_self _ _
  · exact List.Subset.refl pairing

theorem subset_project (scope : ScopeId) (full own : Store) (pairing : Pairing)
    (commands : List Command) :
    pairing ⊆ (project scope full own pairing commands).2 := by
  induction commands generalizing full own pairing with
  | nil => exact List.Subset.refl pairing
  | cons command commands induction =>
      cases concerned : command.inScope? scope pairing with
      | none =>
          rw [project_cons_of_none concerned]
          exact induction _ _ pairing
      | some kept =>
          rw [project_cons_of_some concerned]
          exact List.Subset.trans (subset_joined pairing _ _) (induction _ _ _)

theorem Reply.Paired.mono {pairing larger : Pairing} (grows : pairing ⊆ larger)
    {leftReply rightReply : Reply} (same : Reply.Paired pairing leftReply rightReply) :
    Reply.Paired larger leftReply rightReply := by
  cases same with
  | added pair => exact .added (grows pair)
  | removed var => exact .removed var
  | found found => exact .found found
  | removedCount count => exact .removedCount count
  | done => exact .done
  | written replaced => exact .written replaced

/-! ## One scope of a sequence -/

section Projected

variable {scope : ScopeId} {pairing : Pairing} {items ownItems : Sequence}
  {command kept : Command}

theorem Command.paired_of_inScope?
    (isKept : command.inScope? scope pairing = some kept) :
    Command.Paired pairing command kept := by
  cases command with
  | add var =>
      rw [inScope?] at isKept
      split at isKept
      · cases isKept
        exact .add var
      · cases isKept
  | remove id =>
      rcases Option.map_eq_some_iff.mp isKept with ⟨own, found, rfl⟩
      exact .remove (Pairing.pairs_of_lookup found)
  | removeByName name => cases isKept
  | removeScope other =>
      rw [inScope?] at isKept
      split at isKept
      · rename_i same
        cases isKept
        rw [same]
        exact .removeScope scope
      · cases isKept
  | destroyAll =>
      cases isKept
      exact .destroyAll
  | write id change =>
      rcases Option.map_eq_some_iff.mp isKept with ⟨own, found, rfl⟩
      exact .write change (Pairing.pairs_of_lookup found)

theorem execute_ofScope
    (inScope : ∀ item, item ∈ items → ∀ own, pairing.Pairs item.1 own →
      item.2.scope = some scope)
    (isKept : command.inScope? scope pairing = some kept) (fresh : VarId) :
    (items.ofScope (some scope)).execute fresh command =
      ((items.execute fresh command).1,
        (items.execute fresh command).2.ofScope (some scope)) := by
  have sameLookup : ∀ {id own}, pairing.lookup id = some own →
      (items.ofScope (some scope)).lookup id = items.lookup id := by
    intro id own found
    apply Sequence.lookup_ofScope
    intro var member
    exact inScope (id, var) member own (Pairing.pairs_of_lookup found)
  cases command with
  | add var =>
      rw [Command.inScope?] at isKept
      split at isKept
      · rename_i belongs
        simp only [Sequence.execute, Sequence.ofScope_concat, if_pos belongs]
      · cases isKept
  | remove id =>
      rcases Option.map_eq_some_iff.mp isKept with ⟨own, found, _⟩
      simp only [Sequence.execute, Sequence.ofScope_without, sameLookup found]
  | removeByName name => cases isKept
  | removeScope other =>
      rw [Command.inScope?] at isKept
      split at isKept
      · rename_i same
        simp only [Sequence.execute, Sequence.ofScope_withoutScope, same,
          Sequence.ofScope_ofScope]
      · cases isKept
  | destroyAll => rfl
  | write id change =>
      rcases Option.map_eq_some_iff.mp isKept with ⟨own, found, _⟩
      simp only [Sequence.execute, sameLookup found]
      rw [Sequence.ofScope_update fun var => var.scope_write change]

theorem ofScope_execute_of_dropped
    (paired : List.Forall₂ pairing.Matches (items.ofScope (some scope)) ownItems)
    (dropped : command.inScope? scope pairing = none)
    (handlesOnly : ∀ name, command ≠ .removeByName name) (fresh : VarId) :
    (items.execute fresh command).2.ofScope (some scope) =
      items.ofScope (some scope) := by
  -- every variable of the scope goes by a paired handle
  have notListed : ∀ {id}, pairing.lookup id = none →
      id ∉ (items.ofScope (some scope)).ids := by
    intro id unpaired member
    rcases Sequence.exists_pairs_of_mem paired member with ⟨own, pair⟩
    exact Pairing.not_pairs_of_lookup unpaired own pair
  cases command with
  | add var =>
      rw [Command.inScope?] at dropped
      split at dropped
      · cases dropped
      · rename_i elsewhere
        simp only [Sequence.execute, Sequence.ofScope_concat, if_neg elsewhere]
  | remove id =>
      have absent := notListed (Option.map_eq_none_iff.mp dropped)
      simp only [Sequence.execute, Sequence.ofScope_without]
      exact Sequence.without_of_not_mem absent
  | removeByName name => exact absurd rfl (handlesOnly name)
  | removeScope other =>
      rw [Command.inScope?] at dropped
      split at dropped
      · cases dropped
      · rename_i different
        apply Sequence.ofScope_withoutScope_of_ne
        exact fun same => different (Option.some.inj same).symm
  | destroyAll => cases dropped
  | write id change =>
      have absent := notListed (Option.map_eq_none_iff.mp dropped)
      simp only [Sequence.execute]
      rw [Sequence.ofScope_update fun var => var.scope_write change]
      exact Sequence.update_of_not_mem absent _

end Projected

/-! ## What the two stores keep -/

/-- The second store lists what the first one lists of `scope`, under paired
handles. A paired handle never leads elsewhere than to that scope. -/
structure Mirrors (scope : ScopeId) (pairing : Pairing) (full own : Store)
    (fullItems ownItems : Sequence) : Prop where
  fullRepresents : full.Represents fullItems
  ownRepresents : own.Represents ownItems
  paired : List.Forall₂ pairing.Matches (fullItems.ofScope (some scope)) ownItems
  inScope : ∀ item, item ∈ fullItems → ∀ own, pairing.Pairs item.1 own →
    item.2.scope = some scope
  oneToOne : pairing.OneToOne
  issued : IssuedPairs pairing full own

namespace Mirrors

variable {scope : ScopeId} {pairing : Pairing} {full own : Store}
  {fullItems ownItems : Sequence}
  (mirrors : Mirrors scope pairing full own fullItems ownItems)
  {command kept : Command}

include mirrors

theorem inScope_joined {fullReply : Reply} {fullAfter : Sequence}
    (step : fullItems.Step command fullReply fullAfter)
    (isKept : command.inScope? scope pairing = some kept) (ownReply : Reply) :
    ∀ item, item ∈ fullAfter → ∀ own,
      (joined pairing fullReply ownReply).Pairs item.1 own →
        item.2.scope = some scope := by
  intro item member own pair
  rcases step.listed_before_or_added item member with
    ⟨var, before, sameScope⟩ | ⟨var, isAdd, _, sameScope⟩
  · rw [← sameScope]
    rcases pairs_joined pair with pair | isNew
    · exact mirrors.inScope (item.1, var) before own pair
    · rw [isNew] at step
      exact absurd (Sequence.mem_ids before) step.fresh_of_added
  · rw [← sameScope]
    rw [isAdd, Command.inScope?] at isKept
    split at isKept
    · assumption
    · cases isKept

theorem inScope_dropped {fullAfter : Sequence}
    (step : fullItems.Step command (full.execute command).value.1 fullAfter) :
    ∀ item, item ∈ fullAfter → ∀ own, pairing.Pairs item.1 own →
      item.2.scope = some scope := by
  intro item member own pair
  rcases step.listed_before_or_added item member with
    ⟨var, before, sameScope⟩ | ⟨var, isAdd, isNew, _⟩
  · rw [← sameScope]
    exact mirrors.inScope (item.1, var) before own pair
  · rw [isAdd, value_execute_add] at isNew
    rw [← Reply.added.inj isNew] at pair
    exact absurd (mirrors.issued pair).1
      (mirrors.fullRepresents.tidy.not_issued_link var)

theorem execute_kept (isKept : command.inScope? scope pairing = some kept) :
    let fullOutcome := (full.execute command).value
    let ownOutcome := (own.execute kept).value
    let after := joined pairing fullOutcome.1 ownOutcome.1
    Reply.Paired after fullOutcome.1 ownOutcome.1 ∧
      ∃ fullAfter ownAfter,
        Mirrors scope after fullOutcome.2 ownOutcome.2 fullAfter ownAfter := by
  rcases mirrors.fullRepresents.execute command with ⟨fullAfter, fullStep, fullRepresents⟩
  rcases mirrors.ownRepresents.execute kept with ⟨ownAfter, ownStep, ownRepresents⟩
  have inScope := mirrors.inScope_joined fullStep isKept (own.execute kept).value.1
  rcases fullStep with ⟨fullFresh, _, fullExecuted⟩
  rcases ownStep with ⟨ownFresh, _, ownExecuted⟩
  have together := forall₂_execute mirrors.paired mirrors.oneToOne
    (Command.paired_of_inScope? isKept) fullFresh ownFresh
  rw [execute_ofScope mirrors.inScope isKept, fullExecuted, ownExecuted] at together
  have handles := IssuedPairs.execute mirrors.issued mirrors.oneToOne
    mirrors.fullRepresents.tidy mirrors.ownRepresents.tidy command kept
  refine ⟨together.1, fullAfter, ownAfter, ?_⟩
  exact {
    fullRepresents
    ownRepresents
    paired := together.2
    inScope
    oneToOne := handles.1
    issued := handles.2 }

theorem execute_dropped (dropped : command.inScope? scope pairing = none)
    (handlesOnly : ∀ name, command ≠ .removeByName name) :
    ∃ fullAfter,
      Mirrors scope pairing (full.execute command).value.2 own fullAfter ownItems := by
  rcases mirrors.fullRepresents.execute command with ⟨fullAfter, step, fullRepresents⟩
  have inScope := mirrors.inScope_dropped step
  rcases step with ⟨fresh, _, executed⟩
  have untouched :=
    ofScope_execute_of_dropped mirrors.paired dropped handlesOnly fresh
  rw [executed] at untouched
  refine ⟨fullAfter, ?_⟩
  exact {
    fullRepresents
    ownRepresents := mirrors.ownRepresents
    paired := by
      rw [untouched]
      exact mirrors.paired
    inScope
    oneToOne := mirrors.oneToOne
    issued := IssuedPairs.remembers mirrors.issued
      (Remembers.execute mirrors.fullRepresents.tidy command) (Remembers.refl own) }

omit mirrors

theorem run (mirrors : Mirrors scope pairing full own fullItems ownItems)
    {commands : List Command}
    (handlesOnly : ∀ name, .removeByName name ∉ commands) :
    let projection := project scope full own pairing commands
    let fullOutcome := (full.run commands).value
    let ownOutcome := (own.run projection.1.reduceOption).value
    List.Forall₂ (Reply.Paired projection.2)
        (keptReplies projection.1 fullOutcome.1) ownOutcome.1 ∧
      ∃ fullAfter ownAfter,
        Mirrors scope projection.2 fullOutcome.2 ownOutcome.2 fullAfter ownAfter := by
  induction commands generalizing pairing full own fullItems ownItems with
  | nil => exact ⟨.nil, fullItems, ownItems, mirrors⟩
  | cons command commands induction =>
      have restHandlesOnly : ∀ name, .removeByName name ∉ commands :=
        fun name member => handlesOnly name (List.mem_cons_of_mem _ member)
      cases concerned : command.inScope? scope pairing with
      | none =>
          rcases mirrors.execute_dropped concerned (by
            rintro name rfl
            exact handlesOnly name List.mem_cons_self) with ⟨_, mirrorsAfter⟩
          rw [project_cons_of_none concerned, value_run_cons]
          dsimp only
          rw [List.reduceOption_cons_of_none]
          exact induction mirrorsAfter restHandlesOnly
      | some kept =>
          rcases mirrors.execute_kept concerned with ⟨reply, _, _, mirrorsAfter⟩
          rw [project_cons_of_some concerned, value_run_cons]
          dsimp only
          rw [List.reduceOption_cons_of_some, value_run_cons]
          rcases induction mirrorsAfter restHandlesOnly with ⟨replies, final⟩
          exact ⟨.cons (reply.mono (subset_project ..)) replies, final⟩

end Mirrors

/-! ## Runs -/

/-- However additions, removals and writes of all scopes are interleaved, a scope
lists the variables that it lists without the other scopes, and what concerns it
is answered alike. -/
theorem scopes_do_not_interfere (scope : ScopeId) {commands : List Command}
    (handlesOnly : ∀ name, .removeByName name ∉ commands) :
    let projection := project scope empty empty [] commands
    let full := (empty.run commands).value
    let own := (empty.run projection.1.reduceOption).value
    (full.2.scopeList scope).map Prod.snd = (own.2.scopeList scope).map Prod.snd ∧
      projection.2.OneToOne ∧
      List.Forall₂ (Reply.Paired projection.2) (keptReplies projection.1 full.1) own.1 ∧
      List.Forall₂ projection.2.Matches (full.2.scopeList scope)
        (own.2.scopeList scope) := by
  intro projection full own
  have start : Mirrors scope [] empty empty [] [] := {
    fullRepresents := represents_empty
    ownRepresents := represents_empty
    paired := .nil
    inScope := fun _ member => nomatch member
    oneToOne := fun _ _ _ _ pair => nomatch pair
    issued := fun pair => nomatch pair }
  rcases start.run handlesOnly with ⟨replies, fullItems, ownItems, mirrors⟩
  have listed : List.Forall₂ projection.2.Matches (full.2.scopeList scope)
      (own.2.scopeList scope) := by
    rw [mirrors.fullRepresents.scopeList_eq, mirrors.ownRepresents.scopeList_eq,
      ← Sequence.ofScope_ofScope fullItems]
    exact Sequence.forall₂_ofScope mirrors.paired (some scope)
  exact ⟨Sequence.vars_eq listed, mirrors.oneToOne, replies, listed⟩

/-- Variables of an inner scope and of none come and go between those of the
global scope, and one of the latter gets a slot that was used before. -/
theorem global_scope_undisturbed :
    let x : Variable := ⟨"x", some .global, .scalar, ⟨0⟩, [.empty], none⟩
    let y : Variable := ⟨"y", some .global, .array 1, ⟨0⟩, [.empty], none⟩
    let inner : Variable := ⟨"x", some ⟨1⟩, .scalar, ⟨0⟩, [.empty], none⟩
    let builtin : Variable := ⟨"x", none, .scalar, ⟨0⟩, [.empty], none⟩
    let commands : List Command :=
      [.add x, .add inner, .add builtin, .remove ⟨1, 0⟩, .add y, .removeScope ⟨1⟩,
        .remove ⟨2, 0⟩, .add inner, .write ⟨1, 1⟩ .takeInternal, .remove ⟨0, 0⟩]
    let calls : List (Option Command) :=
      [some (.add x), none, none, none, some (.add y), none,
        none, none, some (.write ⟨1, 0⟩ .takeInternal), some (.remove ⟨0, 0⟩)]
    let pairing : Pairing := [(⟨1, 1⟩, ⟨1, 0⟩), (⟨0, 0⟩, ⟨0, 0⟩)]
    let full := (empty.run commands).value
    let own := (empty.run calls.reduceOption).value
    (∀ name, .removeByName name ∉ commands) ∧
      (full.2.scopeList .global).map Prod.snd = (own.2.scopeList .global).map Prod.snd ∧
      pairing.OneToOne ∧
      List.Forall₂ (Reply.Paired pairing) (keptReplies calls full.1) own.1 ∧
      List.Forall₂ pairing.Matches (full.2.scopeList .global)
        (own.2.scopeList .global) := by
  intro x y inner builtin commands calls pairing full own
  have handlesOnly : ∀ name, .removeByName name ∉ commands := by
    simp [commands]
  have projection : project .global empty empty [] commands = (calls, pairing) := by
    decide
  have isolated := scopes_do_not_interfere .global handlesOnly
  rw [projection] at isolated
  exact ⟨handlesOnly, isolated⟩

end Store

end ScopedVariables
