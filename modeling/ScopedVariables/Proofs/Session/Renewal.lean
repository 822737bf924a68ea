import ScopedVariables.Proofs.Session.Definitions
import ScopedVariables.Proofs.Session.Discipline
import ScopedVariables.Proofs.Session.Issue
import ScopedVariables.Proofs.Session.Resolution
import ScopedVariables.Proofs.Store.Independence

/-! # A session that was shut down is as good as new

Shutting down takes away the variables and the live scopes, but neither the used
slots nor the scopes that were issued. None of this shows: from then on a session
answers as a new one does that has the same types, up to handles and up to the
number of scopes issued before. -/

namespace ScopedVariables

open Sequence (ids)

private theorem rel_head? {α : Type u} {β : Type v} {Same : α → β → Prop}
    {lefts : List α} {rights : List β} (same : List.Forall₂ Same lefts rights) :
    Option.Rel Same lefts.head? rights.head? := by
  cases same with
  | nil => exact .none
  | cons first _ => exact .some first

private theorem rel_or {α : Type u} {β : Type v} {Same : α → β → Prop}
    {left otherLeft : Option α} {right otherRight : Option β}
    (first : Option.Rel Same left right)
    (second : Option.Rel Same otherLeft otherRight) :
    Option.Rel Same (left.or otherLeft) (right.or otherRight) := by
  cases first with
  | none => exact second
  | some same => exact .some same

namespace Pairing

/-- Variables under paired handles that differ in their scopes only, the left one
`count` scopes later. -/
structure Renews (pairing : Pairing) (count : Nat)
    (left right : VarId × Variable) : Prop where
  pairs : pairing.Pairs left.1 right.1
  scopes : Option.Rel (ScopeId.Later count) left.2.scope right.2.scope
  var_eq : left.2 = { right.2 with scope := left.2.scope }

namespace Renews

variable {pairing after : Pairing} {count : Nat} {left right : VarId × Variable}

theorem name_eq (renews : pairing.Renews count left right) :
    left.2.name = right.2.name := by
  rw [renews.var_eq]

theorem mono (grows : pairing ⊆ after) (renews : pairing.Renews count left right) :
    after.Renews count left right :=
  ⟨grows renews.pairs, renews.scopes, renews.var_eq⟩

theorem named_eq (renews : pairing.Renews count left right) (name : String) :
    Sequence.named name left = Sequence.named name right := by
  rw [Sequence.named, Sequence.named, renews.name_eq]

theorem scope_eq_iff (renews : pairing.Renews count left right)
    {leftScope rightScope : Option ScopeId}
    (later : Option.Rel (ScopeId.Later count) leftScope rightScope) :
    left.2.scope = leftScope ↔ right.2.scope = rightScope :=
  ScopeId.Later.option_eq_iff renews.scopes later

end Renews

end Pairing

namespace Declaration

theorem build_eq_map (declaration : Declaration) (current other : ScopeId)
    (descriptor : TypeDescriptor) :
    declaration.build current descriptor =
      (declaration.build other descriptor).map fun var =>
        { var with scope := declaration.scope current } := by
  have ofValues : ∀ name scope otherScope shape values,
      Variable.ofValues name scope descriptor shape values =
        (Variable.ofValues name otherScope descriptor shape values).map fun var =>
          { var with scope } := by
    intro name scope otherScope shape values
    rw [Variable.ofValues, Variable.ofValues]
    split
    · rfl
    · split
      · rfl
      · split <;> rfl
  cases declaration <;> exact ofValues ..

theorem scope_later {count : Nat} {left right : ScopeId}
    (later : ScopeId.Later count left right) (declaration : Declaration) :
    Option.Rel (ScopeId.Later count) (declaration.scope left)
      (declaration.scope right) := by
  cases declaration with
  | scalar | array => exact .some later
  | builtin => exact .none

end Declaration

namespace Session

theorem represents_shutdown {session : Session} {items : Sequence}
    (represents : session.store.Represents items) :
    session.shutdown.value.store.Represents [] := by
  rw [value_shutdown]
  change (if session.store.isEmpty then session.store
    else session.store.destroyAll.value).Represents []
  split
  · rename_i isEmpty
    rw [represents.isEmpty_eq, List.isEmpty_iff] at isEmpty
    rwa [← isEmpty]
  · exact represents.destroyAll

/-! ## Sessions in step -/

def Command.Direct : Command → Prop
  | .store _ => False
  | _ => True

instance : DecidablePred Command.Direct
  | .store _ => .isFalse id
  | .defineType _ _ | .enterScope | .leaveScope | .declare _ | .lookup _ | .remove _
  | .shutdown => .isTrue trivial

inductive Reply.Renews (pairing : Pairing) (count : Nat) : Reply → Reply → Prop
  | defined (outcome) : Renews pairing count (.defined outcome) (.defined outcome)
  | entered {left right} : ScopeId.Later count left right →
      Renews pairing count (.entered (.ok left)) (.entered (.ok right))
  | notEntered (error) :
      Renews pairing count (.entered (.error error)) (.entered (.error error))
  | left {left right} (removed) : ScopeId.Later count left right →
      Renews pairing count (.left (some (left, removed))) (.left (some (right, removed)))
  | notLeft : Renews pairing count (.left none) (.left none)
  | declared {left right} : pairing.Pairs left right →
      Renews pairing count (.declared (.ok left)) (.declared (.ok right))
  | notDeclared (error) :
      Renews pairing count (.declared (.error error)) (.declared (.error error))
  | found {left right} : Option.Rel pairing.Pairs left right →
      Renews pairing count (.found left) (.found right)
  | removed (found) : Renews pairing count (.removed found) (.removed found)
  | done : Renews pairing count .done .done

theorem Reply.Renews.mono {pairing after : Pairing} {count : Nat}
    (grows : pairing ⊆ after) {left right : Reply}
    (renews : Reply.Renews pairing count left right) :
    Reply.Renews after count left right := by
  cases renews with
  | defined outcome => exact .defined outcome
  | entered later => exact .entered later
  | notEntered error => exact .notEntered error
  | left removed later => exact .left removed later
  | notLeft => exact .notLeft
  | declared pair => exact .declared (grows pair)
  | notDeclared error => exact .notDeclared error
  | @found leftId rightId same =>
      cases same with
      | none => exact .found .none
      | some pair => exact .found (.some (grows pair))
  | removed found => exact .removed found
  | done => exact .done

/-- The left session is in step with the right one, which was new when the left one
had issued `count` scopes. -/
structure Renews (pairing : Pairing) (count : Nat) (left right : Session) : Prop where
  config_eq : left.config = right.config
  types_eq : left.types = right.types
  scopes : ScopeStack.Renews count left.scopes right.scopes
  leftRepresents : left.store.Represents left.store.toList
  rightRepresents : right.store.Represents right.store.toList
  same : List.Forall₂ (pairing.Renews count) left.store.toList right.store.toList
  oneToOne : pairing.OneToOne
  issued : Store.IssuedPairs pairing left.store right.store

namespace Renews

variable {pairing : Pairing} {count : Nat} {left right : Session}

/-! ## Queries -/

theorem forall₂_ofScope (renews : Renews pairing count left right)
    {leftScope rightScope : Option ScopeId}
    (later : Option.Rel (ScopeId.Later count) leftScope rightScope) :
    List.Forall₂ (pairing.Renews count)
      (Sequence.ofScope left.store.toList leftScope)
      (Sequence.ofScope right.store.toList rightScope) :=
  Sequence.forall₂_filter renews.same fun _ _ same =>
    decide_eq_decide.mpr (same.scope_eq_iff later)

theorem forall₂_withoutScope (renews : Renews pairing count left right)
    {leftScope rightScope : ScopeId} (later : ScopeId.Later count leftScope rightScope) :
    List.Forall₂ (pairing.Renews count)
      (Sequence.withoutScope left.store.toList leftScope)
      (Sequence.withoutScope right.store.toList rightScope) :=
  Sequence.forall₂_filter renews.same fun _ _ same =>
    decide_eq_decide.mpr (not_congr (same.scope_eq_iff (.some later)))

theorem isDeclared_eq (renews : Renews pairing count left right)
    {leftScope rightScope : Option ScopeId}
    (later : Option.Rel (ScopeId.Later count) leftScope rightScope) (name : String) :
    left.isDeclared leftScope name = right.isDeclared rightScope name := by
  rw [isDeclared, isDeclared, variablesOf_eq renews.leftRepresents,
    variablesOf_eq renews.rightRepresents]
  apply Sequence.any_eq (renews.forall₂_ofScope later)
  intro leftItem rightItem same
  change decide (leftItem.2.name = name) = decide (rightItem.2.name = name)
  rw [same.name_eq]

theorem lookupIn (renews : Renews pairing count left right) (name : String)
    {leftScope rightScope : ScopeId} (later : ScopeId.Later count leftScope rightScope) :
    Option.Rel pairing.Pairs (left.lookupIn name leftScope)
      (right.lookupIn name rightScope) := by
  rw [lookupIn_eq renews.leftRepresents, lookupIn_eq renews.rightRepresents]
  refine Sequence.rel_find? renews.same ?_ fun _ _ same => same.pairs
  intro leftItem rightItem same
  rw [decide_eq_decide, same.scope_eq_iff (.some later), same.name_eq]

theorem findSome?_lookupIn (renews : Renews pairing count left right) (name : String)
    {leftScopes rightScopes : List ScopeId}
    (later : List.Forall₂ (ScopeId.Later count) leftScopes rightScopes) :
    Option.Rel pairing.Pairs (leftScopes.findSome? (left.lookupIn name))
      (rightScopes.findSome? (right.lookupIn name)) := by
  rw [← List.head?_filterMap, ← List.head?_filterMap]
  exact rel_head? (List.rel_filterMap (fun _ _ here => renews.lookupIn name here) later)

theorem lookup (renews : Renews pairing count left right) (name : String) :
    Option.Rel pairing.Pairs (left.lookup name) (right.lookup name) := by
  refine rel_or (renews.findSome?_lookupIn name renews.scopes.innermostFirst) ?_
  rw [renews.leftRepresents.findByName_eq_find?,
    renews.rightRepresents.findByName_eq_find?]
  exact Sequence.rel_find? renews.same (fun _ _ same => same.named_eq name)
    fun _ _ same => same.pairs

/-! ## Commands -/

theorem prepare (renews : Renews pairing count left right) (declaration : Declaration) :
    (∃ error, left.prepare declaration = .error error ∧
        right.prepare declaration = .error error) ∨
      ∃ leftVar rightVar, left.prepare declaration = .ok leftVar ∧
        right.prepare declaration = .ok rightVar ∧
        Option.Rel (ScopeId.Later count) leftVar.scope rightVar.scope ∧
        leftVar = { rightVar with scope := leftVar.scope } := by
  have later := declaration.scope_later renews.scopes.current
  rw [Session.prepare, Session.prepare, renews.isDeclared_eq later, renews.types_eq]
  split
  · exact .inl ⟨_, rfl, rfl⟩
  · cases right.types.lookup declaration.typeName with
    | none => exact .inl ⟨_, rfl, rfl⟩
    | some descriptor =>
        dsimp only
        rw [declaration.build_eq_map left.scopes.current right.scopes.current]
        cases built : declaration.build right.scopes.current descriptor with
        | error error => exact .inl ⟨_, rfl, rfl⟩
        | ok var =>
            refine .inr ⟨_, var, rfl, rfl, ?_, rfl⟩
            rw [(Declaration.name_and_scope_of_build built).2]
            exact later

def Steps (pairing : Pairing) (count : Nat) (left right : Session)
    (command : Command) : Prop :=
  Reply.Renews pairing count (left.execute command).value.1
      (right.execute command).value.1 ∧
    Renews pairing count (left.execute command).value.2 (right.execute command).value.2

section Outcomes

variable {command : Command} {leftReply rightReply : Reply}
  {leftAfter rightAfter : Session}

theorem steps (renews : Renews pairing count left right)
    (leftOutcome : (left.execute command).value = (leftReply, leftAfter))
    (rightOutcome : (right.execute command).value = (rightReply, rightAfter))
    (reply : Reply.Renews pairing count leftReply rightReply)
    (types_eq : leftAfter.types = rightAfter.types)
    (scopes : ScopeStack.Renews count leftAfter.scopes rightAfter.scopes)
    {leftItems rightItems : Sequence}
    (leftRepresents : leftAfter.store.Represents leftItems)
    (rightRepresents : rightAfter.store.Represents rightItems)
    (same : List.Forall₂ (pairing.Renews count) leftItems rightItems) :
    Steps pairing count left right command := by
  have leftConfig := config_execute left command
  have rightConfig := config_execute right command
  have leftRemembers := remembers_execute renews.leftRepresents command
  have rightRemembers := remembers_execute renews.rightRepresents command
  rw [leftOutcome] at leftConfig leftRemembers
  rw [rightOutcome] at rightConfig rightRemembers
  rw [Steps, leftOutcome, rightOutcome]
  refine ⟨reply, ?_, types_eq, scopes, ?_, ?_, ?_, renews.oneToOne,
    Store.IssuedPairs.remembers renews.issued leftRemembers rightRemembers⟩
  · rw [leftConfig, rightConfig, renews.config_eq]
  · exact leftRepresents.represents_toList
  · exact rightRepresents.represents_toList
  · rwa [leftRepresents.toList_eq, rightRepresents.toList_eq]

theorem steps_unchanged (renews : Renews pairing count left right)
    (leftOutcome : (left.execute command).value = (leftReply, left))
    (rightOutcome : (right.execute command).value = (rightReply, right))
    (reply : Reply.Renews pairing count leftReply rightReply) :
    Steps pairing count left right command :=
  renews.steps leftOutcome rightOutcome reply renews.types_eq renews.scopes
    renews.leftRepresents renews.rightRepresents renews.same

end Outcomes

theorem defineType (renews : Renews pairing count left right) (name : String)
    (members : List Member) :
    Steps pairing count left right (.defineType name members) := by
  have sameTypes := renews.types_eq
  cases registered : left.types.register name members with
  | error error =>
      have alsoRefused := registered
      rw [sameTypes] at alsoRefused
      apply renews.steps_unchanged _ _ (.defined (.error (.invalidType error)))
      · rw [value_execute_defineType, defineType_of_error registered]
      · rw [value_execute_defineType, defineType_of_error alsoRefused]
  | ok outcome =>
      rcases outcome with ⟨id, types⟩
      have alsoRegistered := registered
      rw [sameTypes] at alsoRegistered
      have leftOutcome : (left.execute (.defineType name members)).value =
          (.defined (.ok id), { left with types }) := by
        rw [value_execute_defineType, defineType_of_ok registered]
      have rightOutcome : (right.execute (.defineType name members)).value =
          (.defined (.ok id), { right with types }) := by
        rw [value_execute_defineType, defineType_of_ok alsoRegistered]
      exact renews.steps leftOutcome rightOutcome (.defined (.ok id)) rfl renews.scopes
        renews.leftRepresents renews.rightRepresents renews.same

theorem enterScope (renews : Renews pairing count left right)
    (supplied : Reply.refusal? (.entered left.enterScope.value.1) ≠
      some .scopesExhausted) :
    Steps pairing count left right .enterScope := by
  have limit_eq : left.config.maxScopeDepth = right.config.maxScopeDepth := by
    rw [renews.config_eq]
  have depth_eq := renews.scopes.depth_eq
  rcases Nat.lt_or_ge left.scopes.depth left.config.maxScopeDepth with shallow | deep
  · have alsoShallow := shallow
    rw [limit_eq, depth_eq] at alsoShallow
    cases enters : left.scopes.enter with
    | none =>
        rw [enterScope_of_none shallow enters] at supplied
        exact absurd rfl supplied
    | some entered =>
        rcases entered with ⟨scope, scopes⟩
        rcases renews.scopes.enter enters with
          ⟨other, otherScopes, alsoEnters, later, inStep⟩
        have leftOutcome : (left.execute .enterScope).value =
            (.entered (.ok scope), { left with scopes }) := by
          rw [value_execute_enterScope, value_enterScope_of_some shallow enters]
        have rightOutcome : (right.execute .enterScope).value =
            (.entered (.ok other), { right with scopes := otherScopes }) := by
          rw [value_execute_enterScope, value_enterScope_of_some alsoShallow alsoEnters]
        exact renews.steps leftOutcome rightOutcome (.entered later) renews.types_eq
          inStep renews.leftRepresents renews.rightRepresents renews.same
  · have alsoDeep := deep
    rw [limit_eq, depth_eq] at alsoDeep
    apply renews.steps_unchanged _ _
      (.notEntered (.scopeDepth left.config.maxScopeDepth))
    · rw [value_execute_enterScope, enterScope_of_deep deep]
      rfl
    · rw [value_execute_enterScope, enterScope_of_deep alsoDeep, limit_eq]
      rfl

theorem leaveScope (renews : Renews pairing count left right) :
    Steps pairing count left right .leaveScope := by
  rcases renews.scopes.leave with
    ⟨outermost, alsoOutermost⟩ |
      ⟨scope, scopes, other, otherScopes, leaves, alsoLeaves, later, inStep⟩
  · apply renews.steps_unchanged _ _ .notLeft
    · rw [value_execute_leaveScope, leaveScope_of_none outermost]
      rfl
    · rw [value_execute_leaveScope, leaveScope_of_none alsoOutermost]
      rfl
  · rcases renews.leftRepresents.removeScope scope with ⟨leftAnswer, leftAfter⟩
    rcases renews.rightRepresents.removeScope other with ⟨rightAnswer, rightAfter⟩
    have answer := (renews.forall₂_ofScope (.some later)).length_eq
    have leftOutcome : (left.execute .leaveScope).value =
        (.left (some (scope, (left.store.removeScope scope).value.1)),
          { left with scopes, store := (left.store.removeScope scope).value.2 }) := by
      rw [value_execute_leaveScope, value_leaveScope_of_some leaves]
    have rightOutcome : (right.execute .leaveScope).value =
        (.left (some (other, (left.store.removeScope scope).value.1)),
          { right with
            scopes := otherScopes, store := (right.store.removeScope other).value.2 }) := by
      rw [value_execute_leaveScope, value_leaveScope_of_some alsoLeaves, leftAnswer,
        rightAnswer, answer]
    exact renews.steps leftOutcome rightOutcome (.left _ later) renews.types_eq inStep
      leftAfter rightAfter (renews.forall₂_withoutScope later)

theorem remove (renews : Renews pairing count left right) (name : String) :
    Steps pairing count left right (.remove name) := by
  rcases renews.leftRepresents.removeByName name with ⟨leftAnswer, leftAfter⟩
  rcases renews.rightRepresents.removeByName name with ⟨rightAnswer, rightAfter⟩
  have named : ∀ leftItem rightItem, pairing.Renews count leftItem rightItem →
      Sequence.named name leftItem = Sequence.named name rightItem :=
    fun _ _ same => same.named_eq name
  have answer := Sequence.any_eq renews.same named
  have leftOutcome : (left.execute (.remove name)).value =
      (.removed (right.store.toList.any (Sequence.named name)),
        { left with store := (left.store.removeByName name).value.2 }) := by
    rw [value_execute_remove, value_remove, leftAnswer, answer]
  have rightOutcome : (right.execute (.remove name)).value =
      (.removed (right.store.toList.any (Sequence.named name)),
        { right with store := (right.store.removeByName name).value.2 }) := by
    rw [value_execute_remove, value_remove, rightAnswer]
  exact renews.steps leftOutcome rightOutcome (.removed _) renews.types_eq
    renews.scopes leftAfter rightAfter (Sequence.forall₂_eraseP renews.same named)

theorem shutdown (renews : Renews pairing count left right) :
    Steps pairing count left right .shutdown :=
  renews.steps (value_execute_shutdown left) (value_execute_shutdown right) .done
    (by rw [value_shutdown, value_shutdown, renews.types_eq])
    (by rw [value_shutdown, value_shutdown]; exact renews.scopes.leaveAll)
    (represents_shutdown renews.leftRepresents)
    (represents_shutdown renews.rightRepresents) .nil

theorem declare (renews : Renews pairing count left right) (declaration : Declaration) :
    ∃ after : Pairing, pairing ⊆ after ∧
      Steps after count left right (.declare declaration) := by
  rcases renews.prepare declaration with
    ⟨error, refused, alsoRefused⟩ |
      ⟨leftVar, rightVar, prepared, alsoPrepared, scopes, var_eq⟩
  · refine ⟨pairing, List.Subset.refl pairing, ?_⟩
    apply renews.steps_unchanged _ _ (.notDeclared error)
    · rw [value_execute_declare, declare_of_error refused]
      rfl
    · rw [value_execute_declare, declare_of_error alsoRefused]
      rfl
  · have leftTidy := renews.leftRepresents.tidy
    have rightTidy := renews.rightRepresents.tidy
    have leftAfter := renews.leftRepresents.link leftVar
    have rightAfter := renews.rightRepresents.link rightVar
    have grows := List.subset_cons_self
      ((left.store.link leftVar).1, (right.store.link rightVar).1) pairing
    refine ⟨_, grows, ?_⟩
    rw [Steps, value_execute_declare, value_execute_declare,
      value_declare_of_ok prepared, value_declare_of_ok alsoPrepared]
    refine ⟨.declared List.mem_cons_self, renews.config_eq, renews.types_eq,
      renews.scopes, ?_, ?_, ?_, ?_, ?_⟩
    · exact leftAfter.represents_toList
    · exact rightAfter.represents_toList
    · rw [leftAfter.toList_eq, rightAfter.toList_eq]
      refine List.rel_append ?_ (.cons ⟨List.mem_cons_self, scopes, var_eq⟩ .nil)
      exact renews.same.imp fun _ _ same => same.mono grows
    · exact Store.IssuedPairs.oneToOne_link renews.issued leftTidy rightTidy leftVar
        rightVar renews.oneToOne
    · exact Store.IssuedPairs.link renews.issued leftTidy rightTidy leftVar rightVar

/-! ## Runs -/

theorem execute (renews : Renews pairing count left right) {command : Command}
    (direct : command.Direct)
    (supplied : (left.execute command).value.1.refusal? ≠ some .scopesExhausted) :
    ∃ after : Pairing, pairing ⊆ after ∧
      Steps after count left right command := by
  have stays : Steps pairing count left right command →
      ∃ after : Pairing, pairing ⊆ after ∧
        Steps after count left right command :=
    fun steps => ⟨pairing, List.Subset.refl pairing, steps⟩
  cases command with
  | defineType name members => exact stays (renews.defineType name members)
  | enterScope => exact stays (renews.enterScope supplied)
  | leaveScope => exact stays renews.leaveScope
  | declare declaration => exact renews.declare declaration
  | lookup name =>
      exact stays (renews.steps_unchanged (value_execute_lookup left name)
        (value_execute_lookup right name) (.found (renews.lookup name)))
  | remove name => exact stays (renews.remove name)
  | shutdown => exact stays renews.shutdown
  | store command => exact direct.elim

theorem run (renews : Renews pairing count left right) {commands : List Command}
    (direct : ∀ command, command ∈ commands → command.Direct)
    (supplied : some .scopesExhausted ∉
      (left.run commands).value.1.map Reply.refusal?) :
    ∃ after : Pairing, pairing ⊆ after ∧
      List.Forall₂ (Reply.Renews after count) (left.run commands).value.1
        (right.run commands).value.1 ∧
      Renews after count (left.run commands).value.2 (right.run commands).value.2 := by
  induction commands generalizing pairing left right with
  | nil => exact ⟨pairing, List.Subset.refl pairing, .nil, renews⟩
  | cons command commands induction =>
      rw [value_run_cons, List.map_cons, List.mem_cons, not_or] at supplied
      rw [value_run_cons, value_run_cons]
      rcases renews.execute (direct command List.mem_cons_self) (Ne.symm supplied.1) with
        ⟨middle, grows, reply, inStep⟩
      rcases induction inStep
          (fun other member => direct other (List.mem_cons_of_mem _ member)) supplied.2 with
        ⟨after, growsLater, replies, renewsAfter⟩
      exact ⟨after, List.Subset.trans grows growsLater, .cons (reply.mono growsLater) replies,
        renewsAfter⟩

end Renews

/-! ## The main statement -/

structure Ended (before ended : Session) : Prop where
  toList_eq : ended.store.toList = []
  count_eq : ended.store.count = 0
  isEmpty_eq : ended.store.isEmpty = true
  live_eq : ended.scopes.innermostFirst = [.global]
  types_eq : ended.types = before.types
  config_eq : ended.config = before.config
  stale : ∀ id, ended.store.Stale id
  shutdown_eq : ended.shutdown = pure ended

theorem ended_shutdown {session : Session}
    (represents : session.store.Represents session.store.toList) :
    Ended session session.shutdown.value := by
  have nothing := represents_shutdown represents
  have isEmpty : session.shutdown.value.store.isEmpty = true := nothing.isEmpty_eq
  refine ⟨nothing.toList_eq, nothing.count_eq, isEmpty, ?_, ?_, ?_, ?_, ?_⟩
  · rw [value_shutdown]
    exact session.scopes.innermostFirst_leaveAll
  · rw [value_shutdown]
  · rw [value_shutdown]
  · intro id
    exact Store.stale_of_resolve?_eq_none (nothing.resolve?_eq id)
  · have alone : session.shutdown.value.scopes.leaveAll =
        session.shutdown.value.scopes := by
      rw [value_shutdown, ScopeStack.leaveAll_eq, ScopeStack.leaveAll_eq]
    rw [shutdown, alone]
    exact if_pos isEmpty

theorem renews_shutdown {session : Session} {count : Nat}
    (represents : session.store.Represents session.store.toList)
    (issued : session.scopes.HasIssued count) :
    Renews [] count session.shutdown.value
      { start session.config with types := session.types } := by
  have nothing := represents_shutdown represents
  have representsNew := represents_start session.config
  have ended := ended_shutdown represents
  have startsEmpty : (start session.config).store.toList = [] := by
    rw [store_start]
    exact Store.represents_empty.toList_eq
  refine ⟨ended.config_eq, ended.types_eq, ?_, ?_, representsNew, ?_, ?_, ?_⟩
  · rw [value_shutdown]
    exact issued.renews
  · rwa [nothing.toList_eq]
  · rw [nothing.toList_eq, startsEmpty]
    exact .nil
  · exact fun _ _ _ _ pair => nomatch pair
  · exact fun pair => nomatch pair

/-- Shutting down leaves no variable and no scope but the global one. Types and
configuration stay, and neither a handle nor a scope issued before comes back.
As long as scopes can be issued, the session then answers as a new one that was
given the same definitions, up to a renaming of handles and up to the number of
scopes entered before. -/
theorem shutdown_renews (config : SessionConfig) (commands later : List Command) :
    let before := ((start config).run commands).value
    let ended := before.2.shutdown.value
    let renewed := ((start config).run (definitions ended.types)).value.2
    let outcome := (ended.run later).value
    let newOutcome := (renewed.run later).value
    let entered := enteredBy before.1
    Ended before.2 ended ∧
      (∀ id, id ∈ issuedBy before.1 → outcome.2.store.Stale id) ∧
      (∀ scope, scope ∈ entered → scope ∉ enteredBy outcome.1) ∧
      renewed = { start config with types := ended.types } ∧
      ((∀ command, command ∈ later → command.Direct) →
        some .scopesExhausted ∉ outcome.1.map Reply.refusal? →
        ∃ pairing : Pairing, pairing.OneToOne ∧
          List.Forall₂ (Reply.Renews pairing entered.length) outcome.1 newOutcome.1 ∧
          List.Forall₂ (pairing.Renews entered.length) outcome.2.store.toList
            newOutcome.2.store.toList) := by
  intro before ended renewed outcome newOutcome entered
  have represents : before.2.store.Represents before.2.store.toList :=
    represents_run (represents_start config) commands
  have isEnded : Ended before.2 ended := ended_shutdown represents
  have issuedInitially : (start config).scopes.HasIssued 0 :=
    ScopeStack.hasIssued_initial
  have issued : before.2.scopes.HasIssued entered.length := by
    rw [← Nat.zero_add entered.length]
    exact (hasIssued_run issuedInitially commands).2
  have config_eq : before.2.config = config := config_run (start config) commands
  have renewed_eq : renewed = { start config with types := ended.types } := by
    apply run_definitions
    rw [isEnded.types_eq]
    exact registered_run .empty commands
  refine ⟨isEnded, ?_, ?_, renewed_eq, ?_⟩
  · intro id member
    have known : ended.store.Issued id :=
      remembers_execute represents .shutdown id
        (issued_run (represents_start config) member)
    exact stale_run (represents_execute represents .shutdown) known
      ((represents_shutdown represents).resolve?_eq id) later
  · intro scope earlier again
    have atMost : scope.raw.toNat ≤ 0 + entered.length :=
      (number_of_mem_enteredBy issuedInitially earlier).2
    have moreThan := (number_of_mem_enteredBy (hasIssued_shutdown issued) again).1
    omega
  · intro direct supplied
    have inStep := renews_shutdown represents issued
    rw [config_eq, ← isEnded.types_eq, ← renewed_eq] at inStep
    rcases inStep.run direct supplied with ⟨pairing, _, replies, renewsFinally⟩
    exact ⟨pairing, renewsFinally.oneToOne, replies, renewsFinally.same⟩

/-- A scope is entered and left before the shutdown and another is live then, in
which an array was declared. An evaluator has linked a variable in a scope yet to
come. The session uses its slots again for what a new session puts in fresh ones. -/
theorem shutdown_renews_used_slots :
    let float : TypeDescriptor := ⟨⟨0⟩, "float", [⟨"value", 4⟩]⟩
    let stray : Variable := ⟨"x", some ⟨3⟩, .scalar, float.id, [.empty], none⟩
    let commands : List Command :=
      [.defineType float.name float.members, .enterScope, .leaveScope, .enterScope,
        .declare (.array "x" "float" 2), .store (.add stray)]
    let later : List Command :=
      [.enterScope, .lookup "x", .declare (.scalar "x" "float"), .lookup "x", .leaveScope]
    let ended := ((start {}).run commands).value.2.shutdown.value
    let renewed := ((start {}).run (definitions ended.types)).value.2
    let outcome := (ended.run later).value
    let newOutcome := (renewed.run later).value
    enteredBy ((start {}).run commands).value.1 = [⟨1⟩, ⟨2⟩] ∧
      (∀ command, command ∈ later → command.Direct) ∧
      some .scopesExhausted ∉ outcome.1.map Reply.refusal? ∧
      (enteredBy outcome.1 = [⟨3⟩] ∧ issuedBy outcome.1 = [⟨1, 1⟩]) ∧
      (enteredBy newOutcome.1 = [⟨1⟩] ∧ issuedBy newOutcome.1 = [⟨0, 0⟩]) ∧
      ∃ pairing : Pairing, pairing.OneToOne ∧
        List.Forall₂ (Reply.Renews pairing 2) outcome.1 newOutcome.1 ∧
        List.Forall₂ (pairing.Renews 2) outcome.2.store.toList
          newOutcome.2.store.toList := by
  intro float stray commands later ended renewed outcome newOutcome
  have entered : enteredBy ((start {}).run commands).value.1 = [⟨1⟩, ⟨2⟩] := by decide
  have direct : ∀ command, command ∈ later → command.Direct := by decide
  have supplied : some .scopesExhausted ∉ outcome.1.map Reply.refusal? := by
    decide +kernel
  have issued : enteredBy outcome.1 = [⟨3⟩] ∧ issuedBy outcome.1 = [⟨1, 1⟩] := by
    decide +kernel
  have issuedAnew : enteredBy newOutcome.1 = [⟨1⟩] ∧ issuedBy newOutcome.1 = [⟨0, 0⟩] := by
    decide
  -- from here on the commands need not be run again
  clear_value commands later
  have renews := (shutdown_renews {} commands later).2.2.2.2 direct supplied
  rw [entered] at renews
  exact ⟨entered, direct, supplied, issued, issuedAnew, renews⟩

end Session

end ScopedVariables
