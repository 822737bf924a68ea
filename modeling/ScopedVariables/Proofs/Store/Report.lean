import ScopedVariables.Proofs.Log.Reading
import ScopedVariables.Proofs.Store.Refinement

/-! # What commands report

What a command writes to the log is determined by its reply and by the variables
that are listed when it is given. A reader who keeps count of the variables is
therefore never contradicted, and after each command knows how many are linked. -/

namespace ScopedVariables.Store

open Log
open Sequence (ids)

/-- The records of variables that are removed and destroyed one after another,
the first of them while `count` variables are linked. -/
def departures : (count : Nat) → List Variable → List Record
  | _, [] => []
  | count, var :: vars =>
      .event (.unlinked var.name (count - 1)) ::
        .event (.destroying var.name var.payloadCount var.internal.isSome) ::
          departures (count - 1) vars

inductive Reported (store : Store) : Command → Reply → List Record → Prop
  | firstOfScope {var : Variable} {id : VarId} :
      (∀ item, item ∈ store.toList → item.2.scope ≠ var.scope) →
      Reported store (.add var) (.added id)
        [.enter (.add var.name), .event (.chainStarted var.scope),
          .event (.linked id (store.count + 1)), .exit (.add var.name)]
  | added {var : Variable} {id : VarId} {item : VarId × Variable} :
      item ∈ store.toList → item.2.scope = var.scope →
      Reported store (.add var) (.added id)
        [.enter (.add var.name), .event (.linked id (store.count + 1)),
          .exit (.add var.name)]
  | removed {id : VarId} {var : Variable} :
      store.get? id = some var →
      Reported store (.remove id) (.removed (some var))
        [.event (.unlinked var.name (store.count - 1))]
  | stale {id : VarId} :
      store.get? id = none →
      Reported store (.remove id) (.removed none) []
  | named {name : String} {id : VarId} {var : Variable} :
      store.findByName name = some id → store.get? id = some var →
      Reported store (.removeByName name) (.found true)
        (.enter (.removeByName name) :: departures store.count [var] ++
          [.exit (.removeByName name)])
  | unnamed {name : String} :
      store.findByName name = none →
      Reported store (.removeByName name) (.found false)
        [.enter (.removeByName name), .event .nameMissing,
          .exit (.removeByName name)]
  | scopeRemoved {scope : ScopeId} {vars : List Variable} :
      (store.scopeList scope).map Prod.snd = vars →
      Reported store (.removeScope scope) (.removedCount vars.length)
        (.enter (.removeScope scope) :: departures store.count vars ++
          [.exit (.removeScope scope)])
  | destroyed :
      Reported store .destroyAll .done
        (.enter (.destroyAll store.count) ::
          store.toList.map (fun item => .event (.destroying item.2.name
            item.2.payloadCount item.2.internal.isSome)) ++
          [.exit (.destroyAll store.count)])
  | written {id : VarId} {write : Variable.Write}
      {replaced : Option (Option ByteArray)} :
      Reported store (.write id write) (.written replaced) []

/-! ## The records of each command -/

theorem log_execute_add (store : Store) (var : Variable) :
    (store.execute (.add var)).log = (store.add var).log := List.append_nil _

theorem log_execute_remove (store : Store) (id : VarId) :
    (store.execute (.remove id)).log = (store.remove id).log := List.append_nil _

theorem log_execute_removeByName (store : Store) (name : String) :
    (store.execute (.removeByName name)).log = (store.removeByName name).log :=
  List.append_nil _

theorem log_execute_removeScope (store : Store) (scope : ScopeId) :
    (store.execute (.removeScope scope)).log = (store.removeScope scope).log :=
  List.append_nil _

theorem log_execute_destroyAll (store : Store) :
    (store.execute .destroyAll).log = store.destroyAll.log := List.append_nil _

theorem log_run_cons (store : Store) (command : Command) (commands : List Command) :
    (store.run (command :: commands)).log =
      (store.execute command).log ++
        ((store.execute command).value.2.run commands).log :=
  congrArg ((store.execute command).log ++ ·) (List.append_nil _)

namespace Represents

variable {store : Store} {items : Sequence}

theorem log_remove (represents : store.Represents items) {id : VarId}
    {var : Variable} (listed : items.lookup id = some var) :
    (store.remove id).log = [.event (.unlinked var.name (store.count - 1))] := by
  rcases represents.unlink listed with ⟨after, unlinked, representsAfter⟩
  have counted : after.count = store.count - 1 := by
    rw [representsAfter.count_eq, represents.count_eq,
      Sequence.length_without represents.nodup (Sequence.mem_ids_of_lookup listed)]
  rw [remove_of_unlink_eq_some unlinked, counted]

theorem log_discard (represents : store.Represents items) {leaving : Sequence}
    (nodup : leaving.ids.Nodup)
    (listed : ∀ item, item ∈ leaving → items.lookup item.1 = some item.2) :
    (store.discard leaving.ids).log =
      departures store.count (leaving.map Prod.snd) := by
  induction leaving generalizing store items with
  | nil => rfl
  | cons first rest induction =>
      have parts := List.nodup_cons.mp nodup
      have firstListed := listed first List.mem_cons_self
      rcases represents.remove first.1 with ⟨handedOut, representsAfter⟩
      rw [firstListed] at handedOut
      have counted : (store.remove first.1).value.2.count = store.count - 1 := by
        rw [representsAfter.count_eq, represents.count_eq, Sequence.length_without
          represents.nodup (Sequence.mem_ids_of_lookup firstListed)]
      have restListed : ∀ item, item ∈ rest →
          (items.without first.1).lookup item.1 = some item.2 := by
        intro item member
        have different : item.1 ≠ first.1 := fun same =>
          parts.1 (same ▸ Sequence.mem_ids member)
        rw [Sequence.lookup_without, if_neg different]
        exact listed item (List.mem_cons_of_mem _ member)
      rw [Sequence.ids_cons, discard_cons, handedOut, represents.log_remove firstListed,
        induction representsAfter parts.2 restListed, counted]
      rfl

theorem reported_add (represents : store.Represents items) (var : Variable) :
    store.Reported (.add var) (.added (store.link var).1) (store.add var).log := by
  have counted : (store.link var).2.count = store.count + 1 := by
    rw [(represents.link var).count_eq, represents.count_eq]
    simp
  rw [log_add, counted, represents.scopeTail?_eq]
  cases members : items.members var.scope with
  | nil =>
      apply Reported.firstOfScope
      intro item member same
      rw [represents.toList_eq] at member
      have inScope : item.1 ∈ items.members var.scope :=
        List.mem_map_of_mem (List.mem_filter.mpr ⟨member, decide_eq_true same⟩)
      rw [members] at inScope
      cases inScope
  | cons first others =>
      have inScope : first ∈ items.members var.scope := by simp [members]
      rcases List.mem_map.mp inScope with ⟨item, selected, _⟩
      rcases List.mem_filter.mp selected with ⟨member, same⟩
      rw [← represents.toList_eq] at member
      exact .added member (of_decide_eq_true same)

theorem reported_remove (represents : store.Represents items) (id : VarId) :
    store.Reported (.remove id) (.removed (store.remove id).value.1)
      (store.remove id).log := by
  have get?_eq := represents.get?_eq id
  cases listed : items.lookup id with
  | none =>
      rw [represents.remove_stale (Sequence.lookup_eq_none_iff.mp listed)]
      exact .stale (get?_eq.trans listed)
  | some var =>
      rw [(represents.remove id).1, listed, represents.log_remove listed]
      exact .removed (get?_eq.trans listed)

theorem reported_removeByName (represents : store.Represents items)
    (name : String) :
    store.Reported (.removeByName name) (.found (store.removeByName name).value.1)
      (store.removeByName name).log := by
  rw [Store.removeByName]
  cases found : store.findByName name with
  | none => exact .unnamed found
  | some id =>
      have search := represents.findByName_eq_find? name
      rw [found] at search
      rcases Option.map_eq_some_iff.mp search.symm with ⟨⟨target, var⟩, first, rfl⟩
      have listed := Sequence.lookup_of_mem represents.nodup
        (List.mem_of_find?_eq_some first)
      have get?_eq : store.get? target = some var := by rw [represents.get?_eq, listed]
      have removed : (store.remove target).value.1 = some var := by
        rw [(represents.remove target).1, listed]
      have reported := Reported.named found get?_eq
      simpa [represents.log_remove listed, removed, departures] using reported

theorem log_removeScope_eq (represents : store.Represents items)
    (scope : ScopeId) :
    (store.removeScope scope).log =
      .enter (.removeScope scope) ::
        departures store.count ((store.scopeList scope).map Prod.snd) ++
        [.exit (.removeScope scope)] := by
  have departed : (store.discard ((store.scopeList scope).map Prod.fst)).log =
      departures store.count ((store.scopeList scope).map Prod.snd) := by
    rw [represents.scopeList_eq]
    apply represents.log_discard (Sequence.nodup_members represents.nodup _)
    intro item member
    exact Sequence.lookup_of_mem represents.nodup (List.mem_filter.mp member).1
  rw [log_removeScope, departed]

theorem reported_removeScope (represents : store.Represents items)
    (scope : ScopeId) :
    store.Reported (.removeScope scope)
      (.removedCount (store.removeScope scope).value.1)
      (store.removeScope scope).log := by
  have counted : ((store.scopeList scope).map Prod.snd).length =
      (store.scopeList scope).length := List.length_map _
  rw [represents.log_removeScope_eq, value_removeScope, ← counted]
  exact .scopeRemoved rfl

theorem reported_destroyAll (represents : store.Represents items) :
    store.Reported .destroyAll .done store.destroyAll.log := by
  have cleared : store.clear.1 = store.toList.map Prod.snd := by
    rw [represents.clear.1, represents.toList_eq]
  rw [log_destroyAll, cleared, List.map_map]
  exact .destroyed

theorem reported (represents : store.Represents items) (command : Command) :
    store.Reported command (store.execute command).value.1
      (store.execute command).log := by
  cases command with
  | add var =>
      rw [log_execute_add, value_execute_add]
      exact represents.reported_add var
  | remove id =>
      rw [log_execute_remove, value_execute_remove]
      exact represents.reported_remove id
  | removeByName name =>
      rw [log_execute_removeByName, value_execute_removeByName]
      exact represents.reported_removeByName name
  | removeScope scope =>
      rw [log_execute_removeScope, value_execute_removeScope]
      exact represents.reported_removeScope scope
  | destroyAll =>
      rw [log_execute_destroyAll, value_execute_destroyAll]
      exact represents.reported_destroyAll
  | write id write => exact .written

end Represents

/-! ## What a reader learns -/

theorem read_departures {span : Span}
    (unlinks : ∀ reported, span ≠ .destroyAll reported) {count : Nat}
    {vars : List Variable} (linked : vars.length ≤ count) :
    Reading.read ⟨count, [span]⟩ (departures count vars) =
      some ⟨count - vars.length, [span]⟩ := by
  induction vars generalizing count with
  | nil => rfl
  | cons var vars induction =>
      rw [List.length_cons] at linked
      have destroyed : Reading.next? ⟨count - 1, [span]⟩
          (.event (.destroying var.name var.payloadCount var.internal.isSome)) =
            some ⟨count - 1, [span]⟩ := by
        cases span with
        | destroyAll reported => exact absurd rfl (unlinks reported)
        | _ => rfl
      have rest : Reading.read ⟨count - 1, [span]⟩ (departures (count - 1) vars) =
          some ⟨count - 1 - vars.length, [span]⟩ := induction (by omega)
      rw [departures, Reading.read_cons, Reading.next?_unlinked (by omega),
        Option.bind_some, Reading.read_cons, destroyed, Option.bind_some, rest]
      simp only [List.length_cons, Nat.sub_sub, Nat.add_comm 1]

theorem read_span {span : Span} (unlinks : ∀ reported, span ≠ .destroyAll reported)
    {count : Nat} {vars : List Variable} (linked : vars.length ≤ count) :
    Reading.read ⟨count, []⟩
        (.enter span :: departures count vars ++ [.exit span]) =
      some ⟨count - vars.length, []⟩ := by
  have opened : Reading.next? ⟨count, []⟩ (.enter span) = some ⟨count, [span]⟩ := by
    cases span with
    | destroyAll reported => exact absurd rfl (unlinks reported)
    | _ => rfl
  have closed : Reading.next? ⟨count - vars.length, [span]⟩ (.exit span) =
      some ⟨count - vars.length, []⟩ := by
    cases span with
    | destroyAll reported => exact absurd rfl (unlinks reported)
    | _ => simp [Reading.next?, Reading.clears]
  rw [List.cons_append, Reading.read_cons, opened, Option.bind_some,
    Reading.read_append, read_departures unlinks linked, Option.bind_some,
    Reading.read_cons, closed]
  rfl

theorem read_endings (items : Sequence) (reported : Nat) (spans : List Span) :
    Reading.read ⟨items.length, .destroyAll reported :: spans⟩
        (items.map fun item => .event (.destroying item.2.name
          item.2.payloadCount item.2.internal.isSome)) =
      some ⟨0, .destroyAll reported :: spans⟩ := by
  induction items with
  | nil => rfl
  | cons item items induction =>
      rw [List.map_cons, Reading.read_cons]
      exact induction

theorem Reported.read {store : Store} {items after : Sequence} {command : Command}
    {reply : Reply} {log : List Record}
    (reported : store.Reported command reply log)
    (represents : store.Represents items)
    (step : items.Step command reply after) :
    Reading.read ⟨store.count, []⟩ log = some ⟨after.length, []⟩ := by
  rcases step with ⟨fresh, _, executed⟩
  have counted := represents.count_eq
  cases reported with
  | firstOfScope | added =>
      cases executed
      simp [Reading.read, Reading.next?, Reading.clears, counted]
  | @removed id var =>
      rw [Sequence.execute, Prod.mk.injEq, Reply.removed.injEq] at executed
      rcases executed with ⟨listed, rfl⟩
      have member := Sequence.mem_ids_of_lookup listed
      have linked : 0 < items.length := by
        simpa [ids] using List.length_pos_of_mem member
      rw [Sequence.length_without represents.nodup member, counted,
        Reading.read_cons, Reading.next?_unlinked linked]
      rfl
  | stale =>
      rw [Sequence.execute, Prod.mk.injEq, Reply.removed.injEq] at executed
      rcases executed with ⟨unlisted, rfl⟩
      rw [Sequence.without_of_not_mem (Sequence.lookup_eq_none_iff.mp unlisted),
        counted]
      rfl
  | @named name id var =>
      rw [Sequence.execute, Prod.mk.injEq, Reply.found.injEq] at executed
      rcases executed with ⟨found, rfl⟩
      have linked : 0 < items.length := by
        rcases List.any_eq_true.mp found with ⟨item, member, _⟩
        exact List.length_pos_of_mem member
      have departs : [var].length ≤ store.count := by
        rw [List.length_singleton]
        omega
      rw [List.length_eraseP, if_pos found, ← counted]
      exact read_span (by simp) departs
  | @unnamed name =>
      rw [Sequence.execute, Prod.mk.injEq, Reply.found.injEq] at executed
      rcases executed with ⟨missing, rfl⟩
      rw [List.length_eraseP, missing, counted]
      simp [Reading.read, Reading.next?, Reading.clears]
  | @scopeRemoved scope vars listed =>
      rw [represents.scopeList_eq] at listed
      rw [Sequence.execute, Prod.mk.injEq] at executed
      rcases executed with ⟨_, rfl⟩
      have parts : (items.ofScope (some scope)).length +
          (items.withoutScope scope).length = items.length := by
        simpa [Sequence.ofScope, Sequence.withoutScope] using
          (List.filter_append_perm (fun item => item.2.scope = some scope) items).length_eq
      have departed : vars.length = (items.ofScope (some scope)).length := by
        rw [← listed, List.length_map]
      rw [read_span (by simp) (by omega)]
      simp
      omega
  | destroyed =>
      cases executed
      rw [represents.toList_eq, counted]
      have opened : Reading.next? ⟨items.length, []⟩
          (.enter (.destroyAll items.length)) =
            some ⟨items.length, [.destroyAll items.length]⟩ := if_pos rfl
      rw [List.cons_append, Reading.read_cons, opened, Option.bind_some,
        Reading.read_append, read_endings, Option.bind_some]
      simp [Reading.read, Reading.next?]
  | written =>
      cases executed
      rw [Sequence.update, List.length_map, counted]
      rfl

theorem Represents.read_run {store : Store} {items : Sequence}
    (represents : store.Represents items) (commands : List Command) :
    Reading.read ⟨store.count, []⟩ (store.run commands).log =
      some ⟨(store.run commands).value.2.count, []⟩ := by
  induction commands generalizing store items with
  | nil => rfl
  | cons command commands induction =>
      rcases represents.execute command with ⟨after, step, representsAfter⟩
      have first := (represents.reported command).read represents step
      rw [← representsAfter.count_eq] at first
      rw [log_run_cons, Reading.read_append, first, Option.bind_some,
        induction representsAfter]
      rfl

/-- The log of a run accounts for the variables that are linked at its end and
leaves no span open, and so does the log of each further command. What a command
reports is fixed by its reply and by the variables linked before it. -/
theorem log_accounts_for_variables (commands : List Command) :
    let outcome := empty.run commands
    let store := outcome.value.2
    Reading.start.read outcome.log = some ⟨store.count, []⟩ ∧
      ∀ command,
        let step := store.execute command
        Reading.read ⟨store.count, []⟩ step.log = some ⟨step.value.2.count, []⟩ ∧
          store.Reported command step.value.1 step.log := by
  intro outcome store
  have represents : store.Represents store.toList := represents_run commands
  constructor
  · exact represents_empty.read_run commands
  · intro command step
    have reported := represents.reported command
    rcases represents.execute command with ⟨after, executed, representsAfter⟩
    constructor
    · rw [representsAfter.count_eq]
      exact reported.read represents executed
    · exact reported

end ScopedVariables.Store
