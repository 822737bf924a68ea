import Mathlib.Data.List.Forall2
import ScopedVariables.Proofs.Session.Reachable

/-! # What a configuration decides

The capacity for variables and the choice to announce removals are tunables:
whatever they are, a session does and answers the same, and reports the same
apart from the announcements. The limit on the depth of scopes decides only
whether a scope is entered, so raising it matters to no one who is not refused. -/

namespace ScopedVariables

open Log

def Log.Record.announces : Record → Bool
  | .event (.removing ..) => true
  | _ => false

namespace Session

/-! ## Outcomes, command by command -/

def trace (session : Session) : List Command → List (Logged (Reply × Session))
  | [] => []
  | command :: commands =>
      session.execute command :: (session.execute command).value.2.trace commands

theorem replies_trace (session : Session) (commands : List Command) :
    (session.trace commands).map (·.value.1) = (session.run commands).value.1 := by
  induction commands generalizing session with
  | nil => rfl
  | cons command commands induction =>
      rw [value_run_cons, trace, List.map_cons, induction]

def configured (session : Session) (config : SessionConfig) : Session :=
  { session with config }

def reconfigured (config : SessionConfig) (outcome : Logged (α × Session)) :
    Logged (α × Session) :=
  ⟨(outcome.value.1, outcome.value.2.configured config), outcome.log⟩

/-- Outcomes that differ in the configuration and in announcements only. -/
structure SameMeaning (left right : Logged (Reply × Session)) : Prop where
  reply_eq : left.value.1 = right.value.1
  types_eq : left.value.2.types = right.value.2.types
  scopes_eq : left.value.2.scopes = right.value.2.scopes
  store_eq : left.value.2.store = right.value.2.store
  log_eq : left.log.filter (!·.announces) = right.log.filter (!·.announces)

theorem start_configured (config other : SessionConfig) :
    (start config).configured other = start other := by
  have sameStore := (store_start config).trans (store_start other).symm
  exact congrArg (fun store => { start other with store }) sameStore

variable {session : Session} {config : SessionConfig}

/-! ## One command under two configurations -/

def SameLimit (session : Session) (config : SessionConfig) : Prop :=
  config.maxScopeDepth = session.config.maxScopeDepth ∨
    session.scopes.depth < session.config.maxScopeDepth ∧
      session.scopes.depth < config.maxScopeDepth

theorem enterScope_configured (same : session.SameLimit config) :
    (session.configured config).enterScope =
      reconfigured config session.enterScope := by
  have scopes : (session.configured config).scopes = session.scopes := rfl
  have limit : (session.configured config).config.maxScopeDepth =
      config.maxScopeDepth := rfl
  rw [enterScope, enterScope, scopes, limit]
  cases same with
  | inl sameLimit =>
      rw [sameLimit]
      split
      · rfl
      · cases session.scopes.enter <;> rfl
  | inr shallow =>
      rw [if_neg (Nat.not_le.mpr shallow.1), if_neg (Nat.not_le.mpr shallow.2)]
      cases session.scopes.enter <;> rfl

theorem log_leaveScope_of_some {scope : ScopeId} {scopes : ScopeStack}
    (left : session.scopes.leave = some (scope, scopes)) :
    session.leaveScope.log =
      (if session.config.logScopeRemovals then
        (session.store.scopeList scope).map fun item =>
          .event (.removing scope item.1 item.2.name)
      else []) ++
        (session.store.removeScope scope).log ++
        [.event (.scopeLeft scope (session.store.removeScope scope).value.1)] := by
  rw [leaveScope, left]
  cases session.config.logScopeRemovals <;> simp

theorem leaveScope_configured
    (sameChoice : config.logScopeRemovals = session.config.logScopeRemovals) :
    (session.configured config).leaveScope =
      reconfigured config session.leaveScope := by
  have scopes : (session.configured config).scopes = session.scopes := rfl
  have choice : (session.configured config).config.logScopeRemovals =
      session.config.logScopeRemovals := sameChoice
  rw [leaveScope, leaveScope, scopes, choice]
  cases session.scopes.leave with
  | none => rfl
  | some outcome => cases session.config.logScopeRemovals <;> rfl

theorem value_leaveScope_configured (session : Session) (config : SessionConfig) :
    (session.configured config).leaveScope.value =
      (reconfigured config session.leaveScope).value := by
  cases left : session.scopes.leave with
  | none =>
      have outermost : (session.configured config).scopes.leave = none := left
      rw [leaveScope_of_none left, leaveScope_of_none outermost]
      rfl
  | some outcome =>
      have leaves : (session.configured config).scopes.leave = some outcome := left
      rw [reconfigured, value_leaveScope_of_some left, value_leaveScope_of_some leaves]
      rfl

theorem filter_log_leaveScope (session : Session) :
    session.leaveScope.log.filter (!·.announces) =
      match session.scopes.leave with
      | none => []
      | some (scope, _) =>
          ((session.store.removeScope scope).log ++
            [Record.event (.scopeLeft scope
              (session.store.removeScope scope).value.1)]).filter (!·.announces) := by
  cases left : session.scopes.leave with
  | none =>
      rw [leaveScope_of_none left]
      rfl
  | some outcome =>
      have announcements : ((session.store.scopeList outcome.1).map fun item =>
          Record.event (.removing outcome.1 item.1 item.2.name)).filter
            (!·.announces) = [] := by
        rw [List.filter_eq_nil_iff]
        intro record member
        rcases List.mem_map.mp member with ⟨item, _, rfl⟩
        simp [Record.announces]
      rw [log_leaveScope_of_some left, List.append_assoc, List.filter_append]
      split
      · rw [announcements, List.nil_append]
      · rfl

theorem execute_configured {command : Command}
    (limits : command = .enterScope → session.SameLimit config)
    (announces : command = .leaveScope →
      config.logScopeRemovals = session.config.logScopeRemovals) :
    (session.configured config).execute command =
      reconfigured config (session.execute command) := by
  cases command with
  | enterScope =>
      rw [execute, enterScope_configured (limits rfl)]
      rfl
  | leaveScope =>
      rw [execute, leaveScope_configured (announces rfl)]
      rfl
  | defineType name members =>
      have sameTypes : (session.configured config).types = session.types := rfl
      rw [execute, execute, defineType, defineType, sameTypes]
      cases session.types.register name members <;> rfl
  | declare declaration =>
      have samePrepared : (session.configured config).prepare declaration =
          session.prepare declaration := rfl
      rw [execute, execute, declare, declare, samePrepared]
      cases session.prepare declaration <;> rfl
  | shutdown =>
      have sameStore : (session.configured config).store = session.store := rfl
      rw [execute, execute, shutdown, shutdown, sameStore]
      dsimp only
      cases session.store.isEmpty <;> rfl
  | lookup name => rfl
  | remove name => rfl
  | store command => rfl

theorem execute_configured_quietly (session : Session)
    (sameLimit : config.maxScopeDepth = session.config.maxScopeDepth)
    (command : Command) :
    ((session.configured config).execute command).value =
        (reconfigured config (session.execute command)).value ∧
      ((session.configured config).execute command).log.filter (!·.announces) =
        (session.execute command).log.filter (!·.announces) := by
  rcases Decidable.eq_or_ne command .leaveScope with rfl | other
  · have value := value_leaveScope_configured session config
    have log : ∀ left : Session,
        (left.execute .leaveScope).log = left.leaveScope.log :=
      fun left => List.append_nil left.leaveScope.log
    rw [log, log, filter_log_leaveScope, filter_log_leaveScope]
    refine ⟨?_, rfl⟩
    exact congrArg (fun outcome => (Reply.left outcome.1, outcome.2)) value
  · rw [execute_configured (fun _ => .inl sameLimit) fun isLeave => absurd isLeave other]
    exact ⟨rfl, rfl⟩

/-! ## Runs under two configurations -/

theorem sameMeaning_trace (session : Session)
    (sameLimit : config.maxScopeDepth = session.config.maxScopeDepth)
    (commands : List Command) :
    List.Forall₂ SameMeaning (session.trace commands)
      ((session.configured config).trace commands) := by
  induction commands generalizing session with
  | nil => exact .nil
  | cons command commands induction =>
      rcases execute_configured_quietly session sameLimit command with ⟨value, log⟩
      have sameAfter : ((session.configured config).execute command).value.2 =
          (session.execute command).value.2.configured config :=
        congrArg Prod.snd value
      refine .cons ⟨?_, ?_, ?_, ?_, log.symm⟩ ?_
      · exact (congrArg Prod.fst value).symm
      · rw [sameAfter]
        rfl
      · rw [sameAfter]
        rfl
      · rw [sameAfter]
        rfl
      · rw [sameAfter]
        apply induction
        rw [sameLimit, config_execute]

theorem shallow_of_not_refused {command : Command}
    (allowed : ∀ limit, (session.execute command).value.1.refusal? ≠
      some (.scopeDepth limit)) (isEnter : command = .enterScope) :
    session.scopes.depth < session.config.maxScopeDepth := by
  subst isEnter
  apply Nat.lt_of_not_le
  intro deep
  apply allowed session.config.maxScopeDepth
  rw [value_execute_enterScope, enterScope_of_deep deep]
  rfl

theorem trace_configured (session : Session)
    (sameChoice : config.logScopeRemovals = session.config.logScopeRemovals)
    (atLeast : session.config.maxScopeDepth ≤ config.maxScopeDepth)
    {commands : List Command}
    (allowed : ∀ limit, some (.scopeDepth limit) ∉
      ((session.trace commands).map (·.value.1)).map Reply.refusal?) :
    (session.configured config).trace commands =
      (session.trace commands).map (reconfigured config) := by
  induction commands generalizing session with
  | nil => rfl
  | cons command commands induction =>
      have outcome : (session.configured config).execute command =
          reconfigured config (session.execute command) := by
        apply execute_configured _ fun _ => sameChoice
        intro isEnter
        have shallow : session.scopes.depth < session.config.maxScopeDepth :=
          shallow_of_not_refused
            (fun limit refused => allowed limit (refused ▸ List.mem_cons_self)) isEnter
        exact .inr ⟨shallow, Nat.lt_of_lt_of_le shallow atLeast⟩
      rw [trace, trace, List.map_cons, outcome]
      congr 1
      apply induction
      · rw [sameChoice, config_execute]
      · rw [config_execute]
        exact atLeast
      · exact fun limit refused => allowed limit (List.mem_cons_of_mem _ refused)

/-! ## The main statement -/

/-- Sessions that differ in capacity and announcements answer the same, command
by command, leave the same state and report the same but for the announcements.
A limit on depth that refuses no scope can be raised without any difference. -/
theorem tunables_keep_meaning (session : Session) (commands : List Command) :
    (∀ config other, (start config).configured other = start other) ∧
      (∀ capacity announce, List.Forall₂ SameMeaning (session.trace commands)
        ((session.configured
          { session.config with
            variableCapacity := capacity
            logScopeRemovals := announce }).trace commands)) ∧
      ((∀ limit, some (.scopeDepth limit) ∉
          (session.run commands).value.1.map Reply.refusal?) →
        ∀ limit, session.config.maxScopeDepth ≤ limit →
          let config := { session.config with maxScopeDepth := limit }
          (session.configured config).trace commands =
            (session.trace commands).map (reconfigured config)) := by
  refine ⟨start_configured, ?_, ?_⟩
  · intro capacity announce
    apply sameMeaning_trace
    rfl
  · intro allowed limit atLeast config
    rw [← replies_trace] at allowed
    refine trace_configured session ?_ atLeast allowed
    rfl

/-- One scope at a time is entered inside the global one, so a limit of two does
for it what any higher limit does. -/
theorem tunables_keep_meaning_in_shallow_scopes :
    let session := start { maxScopeDepth := 2 }
    let commands : List Command :=
      [.defineType "float" [⟨"value", 4⟩], .enterScope,
        .declare (.scalar "x" "float"), .leaveScope, .enterScope, .lookup "x"]
    (∀ limit, some (.scopeDepth limit) ∉
        (session.run commands).value.1.map Reply.refusal?) ∧
      session.config.maxScopeDepth ≤ 256 ∧
      (session.configured {}).trace commands =
        (session.trace commands).map (reconfigured {}) := by
  intro session commands
  have refusals : (session.run commands).value.1.map Reply.refusal? =
      List.replicate 6 none := by decide
  have allowed : ∀ limit, some (.scopeDepth limit) ∉
      (session.run commands).value.1.map Reply.refusal? := by
    intro limit
    rw [refusals]
    simp
  have atLeast : session.config.maxScopeDepth ≤ 256 := by decide
  exact ⟨allowed, atLeast,
    (tunables_keep_meaning session commands).2.2 allowed 256 atLeast⟩

end Session

end ScopedVariables
