import ScopedVariables.Proofs.Scope.Order
import ScopedVariables.Proofs.Session.Declarative
import ScopedVariables.Proofs.Session.Resolution

/-! # The discipline of declarations

Declarations link variables in the current scope only, and leaving a scope
removes what it holds. So every variable that has a scope lies in a live one,
no scope holds a name twice, and along the sequence scopes never go outwards.
Each of the three rests on scopes and names alone, which writes do not touch. -/

namespace ScopedVariables

open Sequence (ids)

namespace Sequence

/-! Scope and name of a variable are its key. -/

def keys (items : Sequence) : List (Option ScopeId × String) :=
  items.map fun item => (item.2.scope, item.2.name)

variable {items : Sequence}

theorem mem_keys {item : VarId × Variable} (member : item ∈ items) :
    (item.2.scope, item.2.name) ∈ items.keys := List.mem_map_of_mem member

theorem keys_concat (id : VarId) (var : Variable) :
    keys (items ++ [(id, var)]) = items.keys ++ [(var.scope, var.name)] :=
  List.map_append

theorem keys_sublist {part : Sequence} (sublist : part.Sublist items) :
    part.keys.Sublist items.keys := sublist.map _

theorem keys_update (id : VarId) (write : Variable.Write) :
    (items.update id (·.write write)).keys = items.keys := by
  rw [keys, keys, update, List.map_map]
  apply List.map_congr_left
  intro item _
  simp only [Function.comp_apply]
  split
  · rw [Variable.scope_write, Variable.name_write]
  · rfl

end Sequence

/-- The second scope, where both are defined, does not lie outside the first. -/
def ScopeId.NotOutwards (first second : Option ScopeId) : Prop :=
  ∀ outer inner, first = some outer → second = some inner → outer ≤ inner

structure Disciplined (scopes : ScopeStack) (items : Sequence) : Prop where
  ordered : scopes.Ordered
  live : ∀ key, key ∈ items.keys → key.1 = none ∨ scopes.IsLive key.1
  distinct : items.keys.Nodup
  inwards : items.keys.Pairwise fun earlier later =>
    ScopeId.NotOutwards earlier.1 later.1

namespace Disciplined

variable {scopes : ScopeStack} {items : Sequence}

theorem mem_innermostFirst (disciplined : Disciplined scopes items)
    {key : Option ScopeId × String} (listed : key ∈ items.keys) {scope : ScopeId}
    (isScope : key.1 = some scope) : scope ∈ scopes.innermostFirst := by
  rcases disciplined.live key listed with unscoped | ⟨live, inStack, isLive⟩
  · rw [isScope] at unscoped
    cases unscoped
  · rw [isScope] at isLive
    cases isLive
    exact inStack

theorem initial : Disciplined .initial [] where
  ordered := ScopeStack.ordered_initial
  live := fun _ member => nomatch member
  distinct := .nil
  inwards := .nil

theorem sublist (disciplined : Disciplined scopes items) {part : Sequence}
    (included : part.Sublist items) : Disciplined scopes part where
  ordered := disciplined.ordered
  live := fun key member =>
    disciplined.live key ((Sequence.keys_sublist included).subset member)
  distinct := (Sequence.keys_sublist included).nodup disciplined.distinct
  inwards := disciplined.inwards.sublist (Sequence.keys_sublist included)

theorem write (disciplined : Disciplined scopes items) (id : VarId)
    (write : Variable.Write) :
    Disciplined scopes (items.update id (·.write write)) := by
  rcases disciplined with ⟨ordered, live, distinct, inwards⟩
  rw [← Sequence.keys_update id write] at live distinct inwards
  exact ⟨ordered, live, distinct, inwards⟩

theorem enter (disciplined : Disciplined scopes items) {scope : ScopeId}
    {after : ScopeStack} (entered : scopes.enter = some (scope, after)) :
    Disciplined after items where
  ordered := disciplined.ordered.enter entered
  live := by
    intro key member
    refine (disciplined.live key member).imp_right ?_
    rintro ⟨live, inStack, isScope⟩
    refine ⟨live, ?_, isScope⟩
    rw [ScopeStack.innermostFirst_enter entered]
    exact List.mem_cons_of_mem _ inStack
  distinct := disciplined.distinct
  inwards := disciplined.inwards

theorem leave (disciplined : Disciplined scopes items) {scope : ScopeId}
    {after : ScopeStack} (left : scopes.leave = some (scope, after)) :
    Disciplined after (items.withoutScope scope) where
  ordered := disciplined.ordered.leave left
  live := by
    intro key member
    rcases List.mem_map.mp member with ⟨item, kept, rfl⟩
    rcases List.mem_filter.mp kept with ⟨inItems, elsewhere⟩
    refine (disciplined.live _ (Sequence.mem_keys inItems)).imp_right ?_
    rintro ⟨live, inStack, isScope⟩
    refine ⟨live, ?_, isScope⟩
    rw [ScopeStack.innermostFirst_leave left] at inStack
    refine (List.mem_cons.mp inStack).resolve_left fun same => ?_
    exact of_decide_eq_true elsewhere (same ▸ isScope)
  distinct := (Sequence.keys_sublist List.filter_sublist).nodup disciplined.distinct
  inwards := disciplined.inwards.sublist (Sequence.keys_sublist List.filter_sublist)

theorem declare (disciplined : Disciplined scopes items) {id : VarId}
    {var : Variable}
    (place : var.scope = none ∨ var.scope = some scopes.current)
    (fresh : (var.scope, var.name) ∉ items.keys) :
    Disciplined scopes (items ++ [(id, var)]) where
  ordered := disciplined.ordered
  live := by
    intro key member
    rw [Sequence.keys_concat] at member
    rcases List.mem_append.mp member with member | member
    · exact disciplined.live key member
    · rw [List.mem_singleton.mp member]
      exact place.imp_right fun current =>
        ⟨scopes.current, scopes.current_mem_innermostFirst, current⟩
  distinct := by
    rw [Sequence.keys_concat]
    refine List.nodup_append.mpr ⟨disciplined.distinct, by simp, ?_⟩
    intro key member other isNew same
    rw [List.mem_singleton.mp isNew] at same
    exact fresh (same ▸ member)
  inwards := by
    rw [Sequence.keys_concat]
    refine List.pairwise_append.mpr
      ⟨disciplined.inwards, List.pairwise_singleton _ _, ?_⟩
    intro earlier member later isNew outer inner hasScope isInner
    rw [List.mem_singleton.mp isNew] at isInner
    -- the new variable lies in the greatest live scope
    have isCurrent : inner = scopes.current := by
      rcases place with unscoped | current
      · rw [unscoped] at isInner
        cases isInner
      · rw [current] at isInner
        cases isInner
        rfl
    rw [isCurrent]
    exact disciplined.ordered.le_current
      (disciplined.mem_innermostFirst member hasScope)

theorem shutdown (disciplined : Disciplined scopes items) :
    Disciplined scopes.leaveAll [] where
  ordered := disciplined.ordered.leaveAll
  live := fun _ member => nomatch member
  distinct := .nil
  inwards := .nil

end Disciplined

namespace Session

variable {session : Session}

theorem variablesOf_eq (represents : session.store.Represents session.store.toList)
    (scope : Option ScopeId) :
    session.variablesOf scope = Sequence.ofScope session.store.toList scope := by
  cases scope with
  | none => rfl
  | some scope => exact represents.scopeList_eq scope

theorem isDeclared_iff (represents : session.store.Represents session.store.toList)
    {scope : Option ScopeId} {name : String} :
    session.isDeclared scope name = true ↔
      (scope, name) ∈ Sequence.keys session.store.toList := by
  rw [isDeclared, variablesOf_eq represents, List.any_eq_true, Sequence.keys, List.mem_map]
  constructor
  · rintro ⟨item, member, isNamed⟩
    rcases List.mem_filter.mp member with ⟨inItems, belongs⟩
    refine ⟨item, inItems, ?_⟩
    rw [of_decide_eq_true belongs, of_decide_eq_true isNamed]
  · rintro ⟨item, inItems, equal⟩
    cases equal
    exact ⟨item, List.mem_filter.mpr ⟨inItems, decide_eq_true rfl⟩,
      decide_eq_true rfl⟩

theorem Effect.disciplined {scopes : ScopeStack} {items : Sequence}
    (effect : session.Effect scopes items)
    (represents : session.store.Represents session.store.toList)
    (disciplined : Disciplined session.scopes session.store.toList) :
    Disciplined scopes items := by
  cases effect with
  | entered enters => exact disciplined.enter enters
  | left leaves => exact disciplined.leave leaves
  | declared prepared _ =>
      rcases prepare_eq_ok prepared with ⟨_, scope, unused⟩
      apply disciplined.declare
      · rw [scope]
        exact Declaration.scope_cases _ _
      · intro member
        rw [(isDeclared_iff represents).mpr member] at unused
        cases unused
  | removed included => exact disciplined.sublist included
  | written id write => exact disciplined.write id write
  | ended => exact disciplined.shutdown

theorem Declarative.disciplined (declarative : session.Declarative) :
    Disciplined session.scopes session.store.toList := by
  induction declarative with
  | start config =>
      rw [store_start]
      exact .initial
  | execute command declarative induction =>
      exact (effect_execute declarative.represents command).disciplined
        declarative.represents induction

end Session

end ScopedVariables
