import ScopedVariables.Proofs.Session.Discipline
import ScopedVariables.Proofs.Store.Aliasing

/-! # A block leaves no trace

A block enters a scope, runs its body and leaves the scope again. The body may
enter and leave scopes of its own, declare and look up. All the while, what
was linked before the block stays at the front of the sequence, and whatever
the body adds lies in the scope of the block or inside it. Leaving the block
takes just that away. -/

namespace ScopedVariables

open Sequence (ids)

theorem Sequence.update_append_of_not_mem {front rest : Sequence} {id : VarId}
    (elsewhere : id ∉ front.ids) (change : Variable → Variable) :
    Sequence.update (front ++ rest) id change = front ++ rest.update id change := by
  rw [update, List.map_append]
  exact congrArg (· ++ rest.update id change) (update_of_not_mem elsewhere change)

namespace Session

/-! ## Bodies -/

structure Progress where
  /-- The number of scopes that the body has entered and not left. -/
  depth : Nat := 0
  /-- The handles of the variables declared in the body. -/
  declared : List VarId := []

/-- The progress that a command with its reply makes in a body. A body leaves
only scopes that it has entered, declares no built-ins, and of the store it
uses nothing but writes to its own variables. -/
def Progress.advance (progress : Progress) : Command → Reply → Option Progress
  | .defineType _ _, _ | .lookup _, _ => some progress
  | .enterScope, .entered (.ok _) =>
      some { progress with depth := progress.depth + 1 }
  | .enterScope, _ => some progress
  | .leaveScope, _ =>
      match progress.depth with
      | 0 => none
      | depth + 1 => some { progress with depth }
  | .declare (.builtin _ _), _ => none
  | .declare _, .declared (.ok id) =>
      some { progress with declared := id :: progress.declared }
  | .declare _, _ => some progress
  | .store (.write id _), _ =>
      if id ∈ progress.declared then some progress else none
  | .store _, _ | .remove _, _ | .shutdown, _ => none

def advance (session : Session) (progress : Progress) :
    List Command → Option Progress
  | [] => some progress
  | command :: commands =>
      let (reply, after) := (session.execute command).value
      (progress.advance command reply).bind fun progress =>
        after.advance progress commands

/-- The commands are a body: in the end every scope that they enter is left. -/
def IsBody (session : Session) (commands : List Command) : Prop :=
  (session.advance {} commands).map Progress.depth = some 0

instance (session : Session) (commands : List Command) :
    Decidable (session.IsBody commands) :=
  inferInstanceAs (Decidable (_ = some 0))

/-- No query tells the two sessions apart, as far as variables and live scopes
are concerned. -/
structure LooksLike (after before : Session) : Prop where
  iter_take : ∀ count, (after.store.iter.take after.store count).1 =
    (before.store.iter.take before.store count).1
  toList_eq : after.store.toList = before.store.toList
  get?_eq : ∀ id, after.store.get? id = before.store.get? id
  next?_eq : ∀ id, after.store.next? id = before.store.next? id
  nextInScope?_eq : ∀ id,
    after.store.nextInScope? id = before.store.nextInScope? id
  count_eq : after.store.count = before.store.count
  live_eq : after.scopes.innermostFirst = before.scopes.innermostFirst
  lookup_eq : ∀ name, after.lookup name = before.lookup name

theorem Declarative.looksLike {before after : Session}
    (declarativeBefore : before.Declarative) (declarativeAfter : after.Declarative)
    (toList_eq : after.store.toList = before.store.toList)
    (live_eq : after.scopes.innermostFirst = before.scopes.innermostFirst) :
    after.LooksLike before := by
  have representsBefore := declarativeBefore.represents
  have representsAfter := declarativeAfter.represents
  rw [toList_eq] at representsAfter
  refine ⟨?_, toList_eq, ?_, ?_, ?_, ?_, live_eq, ?_⟩
  · intro count
    rw [representsAfter.agrees.iter_take, representsBefore.agrees.iter_take]
  · intro id
    rw [representsAfter.get?_eq, representsBefore.get?_eq]
  · intro id
    rw [representsAfter.next?_eq, representsBefore.next?_eq]
  · intro id
    rw [representsAfter.nextInScope?_eq, representsBefore.nextInScope?_eq]
  · rw [representsAfter.count_eq, representsBefore.count_eq]
  · intro name
    have sameLookupIn : after.lookupIn name = before.lookupIn name := by
      funext scope
      rw [lookupIn, lookupIn, representsAfter.scopeList_eq,
        representsBefore.scopeList_eq]
    rw [lookup, lookup, live_eq, sameLookupIn, representsAfter.findByName_eq_find?,
      representsBefore.findByName_eq_find?]

/-! ## Inside a block -/

/-- The state of scopes and variables inside a block of `scope`, which was
entered in the session `before`. -/
structure Inside (before : Session) (scope : ScopeId) (progress : Progress)
    (scopes : ScopeStack) (items : Sequence) : Prop where
  /-- What was linked before does not lie in the block. -/
  outside : ∀ item, item ∈ before.store.toList →
    ∀ other, item.2.scope = some other → other < scope
  entered : ∃ inner : List ScopeId, inner.length = progress.depth ∧
    scopes.entered = inner ++ scope :: before.scopes.entered
  /-- The block has only added variables, and these lie in it. -/
  added : ∃ locals : Sequence, items = before.store.toList ++ locals ∧
    ∀ item, item ∈ locals → ∃ other, item.2.scope = some other ∧ scope ≤ other
  fresh : ∀ id, id ∈ progress.declared → id ∉ ids before.store.toList

namespace Inside

variable {before : Session} {scope : ScopeId} {progress : Progress}
  {scopes : ScopeStack} {items : Sequence}

theorem start (declarative : before.Declarative)
    (enters : before.scopes.enter = some (scope, scopes)) :
    Inside before scope {} scopes before.store.toList where
  outside := by
    intro item member other isOther
    have disciplined := declarative.disciplined
    rcases ScopeStack.enter_eq_some_iff.mp enters with ⟨issued, _⟩
    exact disciplined.ordered.below_next scope issued other
      (disciplined.mem_innermostFirst (Sequence.mem_keys member) isOther)
  entered := by
    rcases ScopeStack.enter_eq_some_iff.mp enters with ⟨_, rfl⟩
    exact ⟨[], rfl, rfl⟩
  added := ⟨[], (List.append_nil _).symm, fun _ member => nomatch member⟩
  fresh := fun _ member => nomatch member

theorem scope_mem_innermostFirst
    (inside : Inside before scope progress scopes items) :
    scope ∈ scopes.innermostFirst := by
  rcases inside.entered with ⟨inner, _, split⟩
  rw [ScopeStack.innermostFirst, split]
  exact List.mem_append_left _ (List.mem_append_right _ List.mem_cons_self)

theorem enter (inside : Inside before scope progress scopes items)
    {innermost : ScopeId} {after : ScopeStack}
    (enters : scopes.enter = some (innermost, after)) :
    Inside before scope { progress with depth := progress.depth + 1 } after items where
  outside := inside.outside
  entered := by
    rcases inside.entered with ⟨inner, length, split⟩
    rcases ScopeStack.enter_eq_some_iff.mp enters with ⟨_, rfl⟩
    refine ⟨innermost :: inner, ?_, ?_⟩
    · rw [List.length_cons, length]
    · rw [split, List.cons_append]
  added := inside.added
  fresh := inside.fresh

theorem withoutScope_eq (inside : Inside before scope progress scopes items)
    {inner : ScopeId} (notOutside : scope ≤ inner) {locals : Sequence}
    (split : items = before.store.toList ++ locals) :
    items.withoutScope inner = before.store.toList ++ locals.withoutScope inner := by
  rw [split, Sequence.withoutScope, List.filter_append]
  congr 1
  apply List.filter_eq_self.mpr
  intro item member
  apply decide_eq_true
  intro isInner
  exact not_lt_of_ge notOutside (inside.outside item member inner isInner)

theorem leave (inside : Inside before scope progress scopes items)
    (ordered : scopes.Ordered) {depth : Nat} (isOpen : progress.depth = depth + 1)
    {innermost : ScopeId} {after : ScopeStack}
    (leaves : scopes.leave = some (innermost, after)) :
    Inside before scope { progress with depth } after
      (items.withoutScope innermost) := by
  rcases inside.entered with ⟨inner, length, live⟩
  rw [isOpen] at length
  cases inner with
  | nil => cases length
  | cons first rest =>
      rw [(ScopeStack.leave_eq_some_iff.mp leaves).1] at live
      rcases List.cons.inj live with ⟨rfl, liveAfter⟩
      have notOutside : scope ≤ innermost := by
        have isCurrent : scopes.current = innermost := by
          rw [ScopeStack.current, (ScopeStack.leave_eq_some_iff.mp leaves).1]
          rfl
        rw [← isCurrent]
        exact ordered.le_current inside.scope_mem_innermostFirst
      refine ⟨inside.outside, ⟨rest, Nat.succ.inj length, liveAfter⟩, ?_, inside.fresh⟩
      rcases inside.added with ⟨locals, split, within⟩
      exact ⟨_, inside.withoutScope_eq notOutside split,
        fun item member => within item (List.mem_filter.mp member).1⟩

theorem declare (inside : Inside before scope progress scopes items)
    (ordered : scopes.Ordered) {id : VarId} {var : Variable}
    (current : var.scope = some scopes.current) (unused : id ∉ items.ids) :
    Inside before scope { progress with declared := id :: progress.declared }
      scopes (items ++ [(id, var)]) where
  outside := inside.outside
  entered := inside.entered
  added := by
    rcases inside.added with ⟨locals, rfl, within⟩
    refine ⟨locals ++ [(id, var)], List.append_assoc _ _ _, ?_⟩
    intro item member
    rcases List.mem_append.mp member with member | member
    · exact within item member
    · rw [List.mem_singleton.mp member]
      exact ⟨scopes.current, current,
        ordered.le_current inside.scope_mem_innermostFirst⟩
  fresh := by
    rcases inside.added with ⟨locals, rfl, _⟩
    intro other member
    rcases List.mem_cons.mp member with rfl | member
    · rw [Sequence.ids_append] at unused
      exact fun listed => unused (List.mem_append_left _ listed)
    · exact inside.fresh other member

theorem write (inside : Inside before scope progress scopes items) {id : VarId}
    (own : id ∈ progress.declared) (write : Variable.Write) :
    Inside before scope progress scopes (items.update id (·.write write)) where
  outside := inside.outside
  entered := inside.entered
  added := by
    rcases inside.added with ⟨locals, rfl, within⟩
    refine ⟨_, Sequence.update_append_of_not_mem (inside.fresh id own) _, ?_⟩
    intro item member
    rcases List.mem_map.mp member with ⟨listed, inLocals, rfl⟩
    split
    · rw [Variable.scope_write]
      exact within listed inLocals
    · exact within listed inLocals
  fresh := inside.fresh

theorem leave_block (inside : Inside before scope progress scopes items)
    (disciplined : Disciplined scopes items) (isClosed : progress.depth = 0) :
    ∃ after, scopes.leave = some (scope, after) ∧
      after.entered = before.scopes.entered ∧
      items.withoutScope scope = before.store.toList := by
  rcases inside.entered with ⟨inner, length, live⟩
  rw [isClosed] at length
  rw [List.length_eq_zero_iff.mp length, List.nil_append] at live
  refine ⟨⟨before.scopes.entered, scopes.next⟩,
    ScopeStack.leave_eq_some_iff.mpr ⟨live, rfl⟩, rfl, ?_⟩
  rcases inside.added with ⟨locals, split, within⟩
  have noneLeft : locals.withoutScope scope = [] := by
    apply List.filter_eq_nil_iff.mpr
    intro item member elsewhere
    rcases within item member with ⟨other, isOther, notOutside⟩
    have inItems : item ∈ items := split ▸ List.mem_append_right _ member
    have isCurrent : scopes.current = scope := by
      rw [ScopeStack.current, live]
      rfl
    have notInside := disciplined.ordered.le_current
      (disciplined.mem_innermostFirst (Sequence.mem_keys inItems) isOther)
    rw [isCurrent] at notInside
    rw [le_antisymm notInside notOutside] at isOther
    exact of_decide_eq_true elsewhere isOther
  rw [inside.withoutScope_eq (le_refl scope) split, noneLeft, List.append_nil]

end Inside

/-! ## The body -/

theorem Progress.declarative_of_advance {progress next : Progress}
    {command : Command} {reply : Reply}
    (advanced : progress.advance command reply = some next) :
    command.Declarative := by
  cases command with
  | store command =>
      cases command with
      | add var => cases advanced
      | _ => trivial
  | _ => trivial

section Body

variable {before session : Session} {scope : ScopeId} {progress next : Progress}

private theorem Inside.step_declare
    (inside : Inside before scope progress session.scopes session.store.toList)
    (declarative : session.Declarative) {declaration : Declaration}
    (advanced : progress.advance (.declare declaration)
      (.declared (session.declare declaration).value.1) = some next) :
    Inside before scope next (session.declare declaration).value.2.scopes
        (session.declare declaration).value.2.store.toList ∧
      ∀ id, (session.declare declaration).value.1 = .ok id → id ∈ next.declared := by
  cases prepared : session.prepare declaration with
  | error error =>
      rw [declare_of_error prepared] at advanced ⊢
      have unchanged : next = progress := by
        cases declaration <;> cases advanced <;> rfl
      rw [unchanged]
      exact ⟨inside, fun id answered => nomatch answered⟩
  | ok var =>
      have represents := declarative.represents
      rw [value_declare_of_ok prepared] at advanced ⊢
      rw [(represents.link var).toList_eq]
      have inBody : var.scope = some session.scopes.current ∧
          next = { progress with
            declared := (session.store.link var).1 :: progress.declared } := by
        have place := (prepare_eq_ok prepared).2.1
        cases declaration with
        | scalar | array =>
            cases advanced
            exact ⟨place, rfl⟩
        | builtin => cases advanced
      rw [inBody.2]
      refine ⟨inside.declare declarative.disciplined.ordered inBody.1
        (represents.place_fresh var), ?_⟩
      intro id answered
      cases answered
      exact List.mem_cons_self

private theorem Inside.step_enterScope
    (inside : Inside before scope progress session.scopes session.store.toList)
    (advanced : progress.advance .enterScope (.entered session.enterScope.value.1) =
      some next) :
    Inside before scope next session.enterScope.value.2.scopes
      session.enterScope.value.2.store.toList := by
  cases outcome : session.enterScope.value.1 with
  | error error =>
      rw [outcome] at advanced
      cases advanced
      rw [enterScope_eq_error outcome]
      exact inside
  | ok innermost =>
      rw [outcome] at advanced
      cases advanced
      rcases enterScope_eq_ok outcome with ⟨scopes, enters, after⟩
      rw [after]
      exact inside.enter enters

private theorem Inside.step_leaveScope
    (inside : Inside before scope progress session.scopes session.store.toList)
    (declarative : session.Declarative)
    (advanced : progress.advance .leaveScope (.left session.leaveScope.value.1) =
      some next) :
    Inside before scope next session.leaveScope.value.2.scopes
      session.leaveScope.value.2.store.toList := by
  cases isOpen : progress.depth with
  | zero => simp [Progress.advance, isOpen] at advanced
  | succ depth =>
      simp only [Progress.advance, isOpen, Option.some.injEq] at advanced
      cases advanced
      cases left : session.scopes.leave with
      | none =>
          rcases inside.entered with ⟨inner, _, live⟩
          rw [ScopeStack.leave, live] at left
          cases inner <;> cases left
      | some outcome =>
          rw [value_leaveScope_of_some left,
            (declarative.represents.removeScope _).2.toList_eq]
          exact inside.leave declarative.disciplined.ordered isOpen left

/-- Each command of the body keeps the session inside the block, and answers a
declaration with a handle that was not linked before the block. -/
theorem Inside.step
    (inside : Inside before scope progress session.scopes session.store.toList)
    (declarative : session.Declarative) {command : Command}
    (advanced : progress.advance command (session.execute command).value.1 =
      some next) :
    Inside before scope next (session.execute command).value.2.scopes
        (session.execute command).value.2.store.toList ∧
      ∀ id, (session.execute command).value.1 = .declared (.ok id) →
        id ∉ ids before.store.toList := by
  cases command with
  | defineType name members =>
      cases advanced
      refine ⟨?_, by simp⟩
      change Inside before scope progress (session.defineType name members).2.scopes
        (session.defineType name members).2.store.toList
      rw [defineType]
      split <;> exact inside
  | enterScope => exact ⟨inside.step_enterScope advanced, by simp⟩
  | leaveScope => exact ⟨inside.step_leaveScope declarative advanced, by simp⟩
  | declare declaration =>
      rcases inside.step_declare declarative advanced with ⟨insideAfter, joins⟩
      refine ⟨insideAfter, fun id answered => ?_⟩
      exact insideAfter.fresh id (joins id (Reply.declared.inj answered))
  | lookup name =>
      cases advanced
      exact ⟨inside, by simp⟩
  | remove name => cases advanced
  | shutdown => cases advanced
  | store command =>
      refine ⟨?_, by simp⟩
      cases command with
      | write id write =>
          change (if id ∈ progress.declared then some progress else none) =
            some next at advanced
          rcases Option.ite_none_right_eq_some.mp advanced with ⟨own, equal⟩
          cases equal
          change Inside before scope progress session.scopes
            (session.store.write id write).2.toList
          rw [(declarative.represents.write id write).2.toList_eq]
          exact inside.write own write
      | add | remove | removeByName | removeScope | destroyAll => cases advanced

theorem Inside.run
    (inside : Inside before scope progress session.scopes session.store.toList)
    (declarative : session.Declarative) {commands : List Command} {final : Progress}
    (advanced : session.advance progress commands = some final) :
    let outcome := (session.run commands).value
    Inside before scope final outcome.2.scopes outcome.2.store.toList ∧
      outcome.2.Declarative ∧
      ∀ id, .declared (.ok id) ∈ outcome.1 → id ∉ ids before.store.toList := by
  induction commands generalizing session progress with
  | nil =>
      cases advanced
      exact ⟨inside, declarative, fun id answered => nomatch answered⟩
  | cons command rest induction =>
      rcases Option.bind_eq_some_iff.mp advanced with ⟨next, first, later⟩
      rcases inside.step declarative first with ⟨insideNext, freshFirst⟩
      have declarativeNext : (session.execute command).value.2.Declarative :=
        .execute (Progress.declarative_of_advance first) declarative
      rcases induction insideNext declarativeNext later with
        ⟨insideFinal, declarativeFinal, freshLater⟩
      rw [value_run_cons]
      refine ⟨insideFinal, declarativeFinal, fun id answered => ?_⟩
      rcases List.mem_cons.mp answered with answered | answered
      · exact freshFirst id answered.symm
      · exact freshLater id answered

end Body

/-! ## The block -/

/-- Entering a scope, running a body in it and leaving it again leaves the session
as it was to look at, and every handle issued on the way is stale. -/
theorem block_leaves_no_trace {before : Session} (declarative : before.Declarative)
    {scope : ScopeId} (enters : before.enterScope.value.1 = .ok scope)
    {body : List Command} (isBody : before.enterScope.value.2.IsBody body) :
    let outcome := (before.enterScope.value.2.run body).value
    let after := outcome.2.leaveScope.value.2
    after.LooksLike before ∧
      ∀ id, .declared (.ok id) ∈ outcome.1 → after.store.Stale id := by
  intro outcome after
  have declarativeStart : (before.execute .enterScope).value.2.Declarative :=
    .execute trivial declarative
  rcases enterScope_eq_ok enters with ⟨scopes, issued, started⟩
  have start : Inside before scope {} before.enterScope.value.2.scopes
      before.enterScope.value.2.store.toList := by
    rw [started]
    exact .start declarative issued
  rcases Option.map_eq_some_iff.mp isBody with ⟨progress, advanced, isClosed⟩
  rcases start.run declarativeStart advanced with ⟨inside, declarativeEnd, fresh⟩
  rcases inside.leave_block declarativeEnd.disciplined isClosed with
    ⟨outer, left, live, restored⟩
  have leaving : (outcome.2.execute .leaveScope).value.2.Declarative :=
    .execute trivial declarativeEnd
  have declarativeAfter : after.Declarative := leaving
  have toList_eq : after.store.toList = before.store.toList := by
    change outcome.2.leaveScope.value.2.store.toList = _
    rw [value_leaveScope_of_some left,
      (declarativeEnd.represents.removeScope scope).2.toList_eq, restored]
  have live_eq : after.scopes.innermostFirst = before.scopes.innermostFirst := by
    change outcome.2.leaveScope.value.2.scopes.innermostFirst = _
    rw [value_leaveScope_of_some left, ScopeStack.innermostFirst, live]
    rfl
  refine ⟨declarative.looksLike declarativeAfter toList_eq live_eq, ?_⟩
  intro id answered
  apply Store.stale_of_resolve?_eq_none
  rw [declarativeAfter.represents.resolve?_eq_none_iff, toList_eq]
  exact fresh id answered

/-- The body uses a free slot, hides an outer name, is refused a scope and a
declaration, and uses the slot of a first inner scope again in a second one. -/
theorem nested_block_leaves_no_trace :
    let before := ((start { maxScopeDepth := 3 }).run
      [.defineType "float" [⟨"value", 4⟩], .declare (.scalar "gone" "float"),
        .declare (.scalar "x" "float"), .remove "gone"]).value.2
    let body : List Command :=
      [.declare (.array "x" "float" 2), .enterScope, .declare (.scalar "y" "float"),
        .store (.write ⟨2, 0⟩ .takeInternal), .enterScope, .leaveScope, .enterScope,
        .declare (.scalar "y" "float"), .declare (.scalar "z" "int"), .lookup "x",
        .leaveScope]
    before.Declarative ∧ before.enterScope.value.1 = .ok ⟨1⟩ ∧
      before.enterScope.value.2.IsBody body ∧
      let outcome := (before.enterScope.value.2.run body).value
      let after := outcome.2.leaveScope.value.2
      after.LooksLike before ∧
        ∀ id, .declared (.ok id) ∈ outcome.1 → after.store.Stale id := by
  intro before body
  have declarative : before.Declarative :=
    (Declarative.start { maxScopeDepth := 3 }).run (by decide)
  have enters : before.enterScope.value.1 = .ok ⟨1⟩ := rfl
  have isBody : before.enterScope.value.2.IsBody body := by decide
  exact ⟨declarative, enters, isBody,
    block_leaves_no_trace declarative enters isBody⟩

end Session

end ScopedVariables
