import ScopedVariables.Proofs.Session.Issue
import ScopedVariables.Proofs.Session.Tuning
import ScopedVariables.Proofs.Store.Report

/-! # The depth of scopes

A session nests no more scopes than its configuration allows, though the global
scope is live in any case. A scope that would be too deep is refused without a
trace, so the scopes of a session are numbered without gaps, and the log tells
for each of them how deep it lies. -/

namespace ScopedVariables

open Log

/-! ## Entered scopes in a log

An entrance is a scope that is reported as entered, with the depth that is
reported. -/

def Log.Record.entrance? : Record → Option (ScopeId × Nat)
  | .event (.scopeEntered scope depth) => some (scope, depth)
  | _ => none

def Log.entrances (log : List Record) : List (ScopeId × Nat) :=
  log.filterMap Record.entrance?

theorem Log.entrances_append (earlier later : List Record) :
    entrances (earlier ++ later) = entrances earlier ++ entrances later :=
  List.filterMap_append

theorem Log.entrances_map {α : Type} {record : α → Record}
    (others : ∀ item, (record item).entrance? = none) (items : List α) :
    entrances (items.map record) = [] := by
  rw [entrances, List.filterMap_map]
  exact List.filterMap_eq_nil_iff.mpr fun item _ => others item

namespace Store

theorem entrances_departures (count : Nat) (vars : List Variable) :
    entrances (departures count vars) = [] := by
  induction vars generalizing count with
  | nil => rfl
  | cons var vars induction => exact induction (count - 1)

theorem Reported.entrances_eq {store : Store} {command : Command} {reply : Reply}
    {log : List Record} (reported : store.Reported command reply log) :
    entrances log = [] := by
  cases reported with
  | firstOfScope | added | removed | stale | named | unnamed | written => rfl
  | @scopeRemoved scope vars listed =>
      change entrances (departures store.count vars ++ [.exit (.removeScope scope)]) = []
      rw [entrances_append, entrances_departures]
      rfl
  | destroyed =>
      change entrances (store.toList.map _ ++ [.exit (.destroyAll store.count)]) = []
      rw [entrances_append, entrances_map fun _ => rfl]
      rfl

end Store

namespace ScopeStack

theorem depth_pos (stack : ScopeStack) : 1 ≤ stack.depth :=
  Nat.le_add_left 1 stack.entered.length

theorem depth_of_enter {stack after : ScopeStack} {scope : ScopeId}
    (enters : stack.enter = some (scope, after)) :
    after.depth = stack.depth + 1 := by
  rcases enter_eq_some_iff.mp enters with ⟨_, rfl⟩
  rfl

theorem depth_of_leave {stack after : ScopeStack} {scope : ScopeId}
    (leaves : stack.leave = some (scope, after)) :
    stack.depth = after.depth + 1 := by
  rw [depth, (leave_eq_some_iff.mp leaves).1]
  rfl

end ScopeStack

namespace Session

variable {session : Session}

/-! ## One attempt to enter a scope -/

theorem enterScope_cases (session : Session) :
    (session.config.maxScopeDepth ≤ session.scopes.depth ∧
        session.enterScope =
          pure (.error (.scopeDepth session.config.maxScopeDepth), session)) ∨
      session.scopes.depth < session.config.maxScopeDepth ∧
        ((session.scopes.enter = none ∧
            session.enterScope = pure (.error .scopesExhausted, session)) ∨
          ∃ scope scopes, session.scopes.enter = some (scope, scopes) ∧
            session.enterScope = ⟨(.ok scope, { session with scopes }),
              [.event (.scopeEntered scope scopes.depth)]⟩) := by
  rcases Nat.lt_or_ge session.scopes.depth session.config.maxScopeDepth with
    shallow | deep
  · refine .inr ⟨shallow, ?_⟩
    cases enters : session.scopes.enter with
    | none => exact .inl ⟨rfl, enterScope_of_none shallow enters⟩
    | some entered =>
        refine .inr ⟨entered.1, entered.2, rfl, ?_⟩
        rw [enterScope, if_neg (Nat.not_le.mpr shallow), enters]
        rfl
  · exact .inl ⟨deep, enterScope_of_deep deep⟩

/-- What a session answers to the wish to enter a scope, after it has entered
`count` scopes. -/
structure Entering (session : Session) (count : Nat) : Prop where
  refused_iff : ∀ limit, session.enterScope.value.1 = .error (.scopeDepth limit) ↔
    limit = session.config.maxScopeDepth ∧ limit ≤ session.scopes.depth
  refused_eq : session.config.maxScopeDepth ≤ session.scopes.depth →
    session.enterScope =
      pure (.error (.scopeDepth session.config.maxScopeDepth), session)
  /-- A limit of zero or one leaves the global scope alone. -/
  refused_of_low : session.config.maxScopeDepth ≤ 1 →
    session.enterScope.value.1 = .error (.scopeDepth session.config.maxScopeDepth)
  entered_eq : session.scopes.depth < session.config.maxScopeDepth →
    count + 1 < UInt32.size →
      ∃ scope scopes, scope.raw.toNat = count + 1 ∧
        scopes.innermostFirst = scope :: session.scopes.innermostFirst ∧
        session.enterScope = ⟨(.ok scope, { session with scopes }),
          [.event (.scopeEntered scope (session.scopes.depth + 1))]⟩

theorem entering {count : Nat} (issued : session.scopes.HasIssued count) :
    session.Entering count where
  refused_iff := by
    intro limit
    rcases enterScope_cases session with
      ⟨deep, outcome⟩ | ⟨shallow, ⟨_, outcome⟩ | ⟨scope, scopes, _, outcome⟩⟩
    · rw [outcome]
      constructor
      · intro refused
        cases refused
        exact ⟨rfl, deep⟩
      · rintro ⟨rfl, _⟩
        rfl
    · rw [outcome]
      refine iff_of_false (by simp) ?_
      rintro ⟨rfl, deep⟩
      exact Nat.not_le.mpr shallow deep
    · rw [outcome]
      refine iff_of_false (by simp) ?_
      rintro ⟨rfl, deep⟩
      exact Nat.not_le.mpr shallow deep
  refused_eq := enterScope_of_deep
  refused_of_low := by
    intro low
    rw [enterScope_of_deep (Nat.le_trans low session.scopes.depth_pos)]
    rfl
  entered_eq := by
    intro shallow fits
    rcases issued.exists_enter fits with ⟨scope, number, enters⟩
    rcases enterScope_cases session with
      ⟨deep, _⟩ | ⟨_, ⟨exhausted, _⟩ | ⟨_, scopes, enters', outcome⟩⟩
    · exact absurd deep (Nat.not_le.mpr shallow)
    · rw [enters] at exhausted
      cases exhausted
    · rw [enters] at enters'
      cases enters'
      refine ⟨scope, _, number, ScopeStack.innermostFirst_enter enters, ?_⟩
      rw [outcome, ScopeStack.depth_of_enter enters]

/-! ## What a command keeps -/

def WithinLimit (session : Session) : Prop :=
  session.scopes.depth ≤ max 1 session.config.maxScopeDepth

theorem shallow_of_entered {command : Command} {scope : ScopeId}
    (entered : (session.execute command).value.1.entered? = some scope) :
    session.scopes.depth < session.config.maxScopeDepth := by
  cases command with
  | enterScope =>
      rcases enterScope_cases session with ⟨_, outcome⟩ | ⟨shallow, _⟩
      · rw [value_execute_enterScope, outcome] at entered
        cases entered
      · exact shallow
  | _ => cases entered

theorem Alters.depth_le {types : TypeTable} {scopes : ScopeStack}
    (alters : session.Alters none types scopes) :
    scopes.depth ≤ session.scopes.depth := by
  cases alters with
  | kept | defined => exact Nat.le_refl _
  | left leaves =>
      rw [ScopeStack.depth_of_leave leaves]
      exact Nat.le_succ _
  | ended =>
      rw [ScopeStack.leaveAll_eq]
      exact session.scopes.depth_pos

theorem Alters.depth_eq {types : TypeTable} {scopes : ScopeStack} {scope : ScopeId}
    (alters : session.Alters (some scope) types scopes) :
    scopes.depth = session.scopes.depth + 1 := by
  cases alters with
  | entered enters => exact ScopeStack.depth_of_enter enters

theorem withinLimit_execute (within : session.WithinLimit) (command : Command) :
    (session.execute command).value.2.WithinLimit := by
  rcases alters_execute session command with ⟨sameConfig, alters⟩
  rw [WithinLimit] at within ⊢
  rw [sameConfig]
  cases entered : (session.execute command).value.1.entered? with
  | none =>
      rw [entered] at alters
      exact Nat.le_trans alters.depth_le within
  | some scope =>
      have shallow := shallow_of_entered entered
      rw [entered] at alters
      rw [alters.depth_eq]
      exact Nat.le_trans shallow (Nat.le_max_right 1 _)

theorem withinLimit_run (within : session.WithinLimit) (commands : List Command) :
    (session.run commands).value.2.WithinLimit := by
  induction commands generalizing session with
  | nil => exact within
  | cons command commands induction =>
      rw [value_run_cons]
      exact induction (withinLimit_execute within command)

/-! ## What is reported of entered scopes -/

def entranceBy (step : Logged (Reply × Session)) : Option (ScopeId × Nat) :=
  step.value.1.entered?.map fun scope => (scope, step.value.2.scopes.depth)

section Reports

variable (represents : session.store.Represents session.store.toList)

include represents

theorem entrances_execute (command : Command) :
    entrances (session.execute command).log =
      (entranceBy (session.execute command)).toList := by
  cases command with
  | defineType | lookup => rfl
  | enterScope =>
      rw [execute]
      rcases enterScope_cases session with
        ⟨_, outcome⟩ | ⟨_, ⟨_, outcome⟩ | ⟨scope, scopes, _, outcome⟩⟩
      all_goals rw [outcome]; rfl
  | leaveScope =>
      have sameLog : (session.execute .leaveScope).log = session.leaveScope.log :=
        List.append_nil _
      change entrances (session.execute .leaveScope).log = []
      rw [sameLog]
      cases leaves : session.scopes.leave with
      | none =>
          rw [leaveScope_of_none leaves]
          rfl
      | some left =>
          have removed := (represents.reported_removeScope left.1).entrances_eq
          rw [log_leaveScope_of_some leaves, entrances_append, entrances_append, removed]
          split
          · rw [entrances_map fun _ => rfl]
            rfl
          · rfl
  | declare declaration =>
      change entrances ((session.declare declaration).log ++ []) = []
      rw [List.append_nil]
      cases prepared : session.prepare declaration with
      | error error =>
          rw [declare_of_error prepared]
          rfl
      | ok var =>
          have sameLog : (session.declare declaration).log = (session.store.add var).log := by
            rw [declare, prepared]
            exact List.append_nil _
          rw [sameLog]
          exact (represents.reported_add var).entrances_eq
  | remove name =>
      have reported := (represents.reported_removeByName name).entrances_eq
      change entrances (((session.store.removeByName name).log ++ []) ++ []) = []
      rw [List.append_nil, List.append_nil, reported]
  | shutdown =>
      have reported := represents.reported_destroyAll.entrances_eq
      change entrances (session.shutdown.log ++ []) = []
      rw [List.append_nil, shutdown]
      dsimp only
      split
      · rfl
      · change entrances ((session.store.destroyAll).log ++ []) = []
        rw [List.append_nil, reported]
  | store command =>
      have reported := (represents.reported command).entrances_eq
      change entrances ((session.store.execute command).log ++ []) = []
      rw [List.append_nil, reported]

theorem entrances_run (commands : List Command) :
    entrances (session.run commands).log =
      (session.trace commands).filterMap entranceBy := by
  induction commands generalizing session with
  | nil => rfl
  | cons command commands induction =>
      have sameLog : (session.run (command :: commands)).log =
          (session.execute command).log ++
            ((session.execute command).value.2.run commands).log :=
        congrArg ((session.execute command).log ++ ·) (List.append_nil _)
      rw [sameLog, entrances_append, entrances_execute represents,
        induction (represents_execute represents command), trace]
      cases entered : entranceBy (session.execute command) with
      | none => rw [List.filterMap_cons_none entered]; rfl
      | some entrance => rw [List.filterMap_cons_some entered]; rfl

end Reports

/-! ## The main statement -/

/-- The scopes of a session lie no deeper than its limit, whatever it is asked to do.
A scope is refused for its depth exactly if the limit is reached, and then nothing
happens. The scopes that are entered bear the numbers from one on, and the log
reports each of them with its depth. -/
theorem scopes_stay_within_limit (config : SessionConfig) (commands : List Command) :
    let outcome := (start config).run commands
    let session := outcome.value.2
    let entered := enteredBy outcome.value.1
    session.config = config ∧
      1 ≤ session.scopes.depth ∧ session.scopes.depth ≤ max 1 config.maxScopeDepth ∧
      session.Entering entered.length ∧
      entered.map (·.raw.toNat) = List.range' 1 entered.length ∧
      entrances outcome.log = ((start config).trace commands).filterMap entranceBy := by
  intro outcome session entered
  have sameConfig : session.config = config := config_run (start config) commands
  have withinInitially : (start config).WithinLimit := Nat.le_max_left 1 _
  have issuedInitially : (start config).scopes.HasIssued 0 := ScopeStack.hasIssued_initial
  have within : session.WithinLimit := withinLimit_run withinInitially commands
  rcases hasIssued_run issuedInitially commands with ⟨numbers, issued⟩
  rw [Nat.zero_add] at numbers issued
  rw [WithinLimit, sameConfig] at within
  exact ⟨sameConfig, session.scopes.depth_pos, within, entering issued, numbers,
    entrances_run (represents_start config) commands⟩

end Session

end ScopedVariables
