import ScopedVariables.Proofs.Session.Reachable

/-! # What a name means

Two searches make up the look-up of a name: one along each live scope from the
innermost out, and one over all variables. Together they find the variable that
comes first in a single order: by the position of its scope among the live
ones, every other scope behind them, and then by its place in the sequence. -/

namespace ScopedVariables

open Sequence (ids)

/-! ## The rank of a scope -/

namespace ScopeStack

def IsLive (stack : ScopeStack) (scope : Option ScopeId) : Prop :=
  ∃ live, live ∈ stack.innermostFirst ∧ scope = some live

/-- The position of a scope among the live ones, the innermost first. Scopes
that are not live, like the undefined one, come behind the global scope. -/
def rank (stack : ScopeStack) : Option ScopeId → Nat
  | none => stack.depth
  | some scope => stack.innermostFirst.idxOf scope

variable {stack : ScopeStack}

theorem rank_of_not_live {scope : Option ScopeId}
    (dead : ¬stack.IsLive scope) : stack.rank scope = stack.depth := by
  cases scope with
  | none => rfl
  | some scope =>
      have absent : scope ∉ stack.innermostFirst := fun member =>
        dead ⟨scope, member, rfl⟩
      rw [rank, List.idxOf_eq_length absent, length_innermostFirst]

section Split

variable {inner outer : List ScopeId} {scope : ScopeId}

theorem rank_of_split (split : stack.innermostFirst = inner ++ scope :: outer)
    (absent : scope ∉ inner) : stack.rank (some scope) = inner.length := by
  rw [rank, split, List.idxOf_append, if_neg absent, List.idxOf_cons_self,
    Nat.zero_add]

theorem lt_rank_of_split (split : stack.innermostFirst = inner ++ scope :: outer)
    {other : Option ScopeId} (different : other ≠ some scope)
    (skipped : ∀ live, live ∈ inner → other ≠ some live) :
    inner.length < stack.rank other := by
  cases other with
  | none =>
      rw [rank, ← length_innermostFirst, split, List.length_append]
      exact Nat.lt_add_of_pos_right (Nat.succ_pos _)
  | some other =>
      have absent : other ∉ inner := fun member => skipped other member rfl
      have later : scope ≠ other := fun same => different (same ▸ rfl)
      rw [rank, split, List.idxOf_append, if_neg absent, List.idxOf_cons,
        beq_eq_false_iff_ne.mpr later, cond_false]
      omega

end Split

end ScopeStack

namespace Session

/-! ## The order of variables -/

/-- Of two places in the sequence, the one in the inner scope comes first, and
in scopes of equal rank the earlier one. -/
def ComesFirst (session : Session) (left right : Nat × Variable) : Prop :=
  session.scopes.rank left.2.scope < session.scopes.rank right.2.scope ∨
    session.scopes.rank left.2.scope = session.scopes.rank right.2.scope ∧
      left.1 ≤ right.1

/-- `id` stands for the first of the variables that have the name. -/
def Means (session : Session) (name : String) (id : VarId) : Prop :=
  ∃ position var, session.store.toList[position]? = some (id, var) ∧
    var.name = name ∧
    ∀ otherPosition otherId otherVar,
      session.store.toList[otherPosition]? = some (otherId, otherVar) →
      otherVar.name = name →
      session.ComesFirst (position, var) (otherPosition, otherVar)

variable {session : Session} {name : String}

theorem Means.listed {id : VarId} (means : session.Means name id) :
    ∃ var, (id, var) ∈ session.store.toList ∧ var.name = name := by
  rcases means with ⟨_, var, atPosition, isNamed, _⟩
  exact ⟨var, List.mem_of_getElem? atPosition, isNamed⟩

theorem Means.unique {left right : VarId} (meansLeft : session.Means name left)
    (meansRight : session.Means name right) : left = right := by
  rcases meansLeft with ⟨leftPosition, leftVar, leftAt, leftNamed, leftFirst⟩
  rcases meansRight with ⟨rightPosition, rightVar, rightAt, rightNamed, rightFirst⟩
  have leftBefore := leftFirst _ _ _ rightAt rightNamed
  have rightBefore := rightFirst _ _ _ leftAt leftNamed
  have samePosition : leftPosition = rightPosition := by
    simp only [ComesFirst] at leftBefore rightBefore
    omega
  rw [samePosition, rightAt] at leftAt
  cases leftAt
  rfl

/-! ## The two searches -/

theorem earliest_of_find? {items : Sequence} {wanted : VarId × Variable → Bool}
    {id : VarId} (found : (items.find? wanted).map Prod.fst = some id) :
    ∃ (position : Nat) (var : Variable), items[position]? = some (id, var) ∧
      wanted (id, var) = true ∧
      ∀ (otherPosition : Nat) other, items[otherPosition]? = some other →
        wanted other = true → position ≤ otherPosition := by
  rcases Option.map_eq_some_iff.mp found with ⟨⟨_, var⟩, first, rfl⟩
  rcases List.find?_eq_some_iff_getElem.mp first with
    ⟨isWanted, position, inRange, atPosition, unwanted⟩
  refine ⟨position, var, List.getElem?_eq_some_iff.mpr ⟨inRange, atPosition⟩,
    isWanted, ?_⟩
  intro otherPosition other atOther otherWanted
  rcases List.getElem?_eq_some_iff.mp atOther with ⟨otherInRange, rfl⟩
  apply Nat.le_of_not_lt
  intro earlier
  have refused := unwanted otherPosition earlier
  rw [otherWanted] at refused
  cases refused

section Searches

variable (represents : session.store.Represents session.store.toList)

include represents

theorem lookupIn_eq (name : String) (scope : ScopeId) :
    session.lookupIn name scope =
      (session.store.toList.find? fun item =>
        decide (item.2.scope = some scope ∧ item.2.name = name)).map Prod.fst := by
  rw [lookupIn, represents.scopeList_eq, Sequence.ofScope, List.find?_filter]
  simp only [decide_eq_true_eq]

theorem lookupIn_eq_none_iff {scope : ScopeId} :
    session.lookupIn name scope = none ↔
      ∀ item, item ∈ session.store.toList → item.2.name = name →
        item.2.scope ≠ some scope := by
  rw [lookupIn_eq represents, Option.map_eq_none_iff, List.find?_eq_none]
  constructor
  · intro refused item member isNamed belongs
    exact refused item member (decide_eq_true ⟨belongs, isNamed⟩)
  · intro different item member both
    rcases of_decide_eq_true both with ⟨belongs, isNamed⟩
    exact different item member isNamed belongs

theorem means_of_lookupIn {id : VarId}
    (found : session.scopes.innermostFirst.findSome? (session.lookupIn name) =
      some id) : session.Means name id := by
  rcases List.findSome?_eq_some_iff.mp found with
    ⟨inner, scope, outer, split, answer, silent⟩
  have absent : scope ∉ inner := by
    intro member
    rw [silent scope member] at answer
    cases answer
  rw [lookupIn_eq represents] at answer
  rcases earliest_of_find? answer with ⟨position, var, atPosition, wanted, earliest⟩
  rcases of_decide_eq_true wanted with ⟨belongs, isNamed⟩
  refine ⟨position, var, atPosition, isNamed, ?_⟩
  intro otherPosition otherId otherVar atOther otherNamed
  have skipped : ∀ live, live ∈ inner → otherVar.scope ≠ some live :=
    fun live member => (lookupIn_eq_none_iff represents).mp (silent live member)
      (otherId, otherVar) (List.mem_of_getElem? atOther) otherNamed
  cases Decidable.em (otherVar.scope = some scope) with
  | inl sameScope =>
      right
      constructor
      · rw [belongs, sameScope]
      · exact earliest otherPosition _ atOther
          (decide_eq_true ⟨sameScope, otherNamed⟩)
  | inr different =>
      left
      rw [belongs, ScopeStack.rank_of_split split absent]
      exact ScopeStack.lt_rank_of_split split different skipped

theorem not_live_of_silent
    (silent : session.scopes.innermostFirst.findSome? (session.lookupIn name) = none)
    {item : VarId × Variable} (member : item ∈ session.store.toList)
    (isNamed : item.2.name = name) : ¬session.scopes.IsLive item.2.scope := by
  intro isLive
  rcases isLive with ⟨live, inStack, belongs⟩
  have unanswered := List.findSome?_eq_none_iff.mp silent live inStack
  exact (lookupIn_eq_none_iff represents).mp unanswered item member isNamed belongs

theorem means_of_findByName
    (silent : session.scopes.innermostFirst.findSome? (session.lookupIn name) = none)
    {id : VarId} (found : session.store.findByName name = some id) :
    session.Means name id := by
  rw [represents.findByName_eq_find?] at found
  rcases earliest_of_find? found with ⟨position, var, atPosition, wanted, earliest⟩
  rcases of_decide_eq_true wanted with ⟨isName, isNamed⟩
  refine ⟨position, var, atPosition, isNamed, ?_⟩
  intro otherPosition otherId otherVar atOther otherNamed
  right
  constructor
  · have dead := not_live_of_silent represents silent
      (List.mem_of_getElem? atPosition) isNamed
    have otherDead := not_live_of_silent represents silent
      (List.mem_of_getElem? atOther) otherNamed
    exact (ScopeStack.rank_of_not_live dead).trans
      (ScopeStack.rank_of_not_live otherDead).symm
  · exact earliest otherPosition _ atOther (decide_eq_true ⟨isName, otherNamed⟩)

/-! ## The look-up -/

theorem means_of_lookup {id : VarId} (found : session.lookup name = some id) :
    session.Means name id := by
  rw [lookup] at found
  cases search : session.scopes.innermostFirst.findSome? (session.lookupIn name) with
  | none =>
      rw [search, Option.none_or] at found
      exact means_of_findByName represents search found
  | some inScope =>
      rw [search, Option.some_or] at found
      rw [found] at search
      exact means_of_lookupIn represents search

theorem no_name_of_lookup_eq_none (built : Sequence.Built session.store.toList)
    (missing : session.lookup name = none) {item : VarId × Variable}
    (member : item ∈ session.store.toList) : item.2.name ≠ name := by
  intro isNamed
  rw [lookup, Option.or_eq_none_iff, represents.findByName_eq_find?,
    Option.map_eq_none_iff, List.find?_eq_none] at missing
  have isName : name ≠ "" := isNamed ▸ (built item member).name_ne
  exact missing.2 item member (decide_eq_true ⟨isName, isNamed⟩)

end Searches

/-- A name means the variable of the innermost live scope that has the name,
and there the earliest. Variables of other scopes, the undefined one included,
are meant only if no live scope has the name. -/
theorem lookup_resolves_name (reachable : session.Reachable) (name : String) :
    (∀ id, session.lookup name = some id ↔ session.Means name id) ∧
      (session.lookup name = none ↔
        ∀ item, item ∈ session.store.toList → item.2.name ≠ name) ∧
      (session.scopes.innermostFirst.findSome? (session.lookupIn name) = none →
        ∀ id, session.store.findByName name = some id →
          ∃ var, session.store.get? id = some var ∧
            ¬session.scopes.IsLive var.scope) := by
  rcases reachable.represents with ⟨represents, built⟩
  refine ⟨?_, ?_, ?_⟩
  · intro id
    constructor
    · exact means_of_lookup represents
    · intro means
      cases found : session.lookup name with
      | none =>
          rcases means.listed with ⟨var, member, isNamed⟩
          exact absurd isNamed
            (no_name_of_lookup_eq_none represents built found member)
      | some answer =>
          rw [(means_of_lookup represents found).unique means]
  · constructor
    · intro missing item member
      exact no_name_of_lookup_eq_none represents built missing member
    · intro unnamed
      cases found : session.lookup name with
      | none => rfl
      | some answer =>
          rcases (means_of_lookup represents found).listed with
            ⟨var, member, isNamed⟩
          exact absurd isNamed (unnamed _ member)
  · intro silent id found
    rcases (means_of_findByName represents silent found).listed with
      ⟨var, member, isNamed⟩
    refine ⟨var, ?_, not_live_of_silent represents silent member isNamed⟩
    rw [represents.get?_eq]
    exact Sequence.lookup_of_mem represents.nodup member

/-- An array in a scope hides a scalar outside it, a built-in, and a variable
that an evaluator linked before them in a scope never entered. -/
theorem lookup_resolves_hidden_name :
    let float : TypeDescriptor := ⟨⟨0⟩, "float", [⟨"value", 4⟩]⟩
    let stray : Variable := ⟨"x", some ⟨7⟩, .scalar, float.id, [.empty], none⟩
    let session := ((start {}).run
      [.store (.add stray), .defineType float.name float.members,
        .declare (.builtin "x" "float"), .declare (.scalar "x" "float"),
        .enterScope, .declare (.array "x" "float" 2)]).value.2
    session.Reachable ∧ session.store.findByName "x" = some ⟨0, 0⟩ ∧
      session.Means "x" ⟨3, 0⟩ := by
  intro float stray session
  have built : stray.Built :=
    have success : Variable.ofValues "x" (some ⟨7⟩) float .scalar [.empty] =
      .ok stray := rfl
    .ofValues success
  have reachable : session.Reachable := by
    apply (Reachable.start {}).run
    intro command member
    simp only [List.mem_cons, List.not_mem_nil, or_false] at member
    rcases member with rfl | rfl | rfl | rfl | rfl | rfl
    · exact built
    all_goals trivial
  refine ⟨reachable, by decide, ?_⟩
  exact ((lookup_resolves_name reachable "x").1 ⟨3, 0⟩).mp (by decide)

end Session

end ScopedVariables
