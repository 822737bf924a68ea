import Mathlib.Data.List.Basic
import ScopedVariables.Proofs.Session.Discipline

/-! # Variables nest like their scopes

Nothing in the store sorts variables by scope. All the same, while variables
are linked by declaring only, those that have a scope appear in the sequence
scope by scope, from the global one inwards. A search through the scopes from
the innermost out is then one search through the sequence from its end. -/

namespace ScopedVariables

open Sequence (ids)

private theorem filter_append_filter_not {α : Type u} {items : List α}
    {fits : α → Bool}
    (fitsFirst : items.Pairwise fun earlier later =>
      fits later = true → fits earlier = true) :
    items.filter fits ++ items.filter (!fits ·) = items := by
  induction items with
  | nil => rfl
  | cons head rest induction =>
      rcases List.pairwise_cons.mp fitsFirst with ⟨headFirst, restFirst⟩
      cases fitsHead : fits head with
      | true =>
          rw [List.filter_cons_of_pos fitsHead, List.filter_cons_of_neg (by simp [fitsHead]),
            List.cons_append, induction restFirst]
      | false =>
          have noneFits : rest.filter fits = [] :=
            List.filter_eq_nil_iff.mpr fun item member isFit => by
              rw [headFirst item member isFit] at fitsHead
              cases fitsHead
          have restKept := induction restFirst
          rw [noneFits, List.nil_append] at restKept
          rw [List.filter_cons_of_neg (by simp [fitsHead]), noneFits,
            List.filter_cons_of_pos (by simp [fitsHead]), restKept, List.nil_append]

namespace Sequence

/-! A name means the last of the variables that have a scope or, if none of
them has the name, the first of the others, the built-ins. -/

def inScopes (items : Sequence) : Sequence :=
  items.filter fun item => item.2.scope ≠ none

def lastScoped (items : Sequence) (name : String) : Option VarId :=
  (items.inScopes.filter fun item => item.2.name = name).getLast?.map Prod.fst

def builtin (items : Sequence) (name : String) : Option VarId :=
  ((items.ofScope none).find? fun item => item.2.name = name).map Prod.fst

variable {items : Sequence}

/-! ## Scope by scope -/

theorem inScopes_eq_append {scope : ScopeId}
    (inwards : items.keys.Pairwise fun earlier later =>
      ScopeId.NotOutwards earlier.1 later.1)
    (outermost : ∀ item, item ∈ items → ∀ other, item.2.scope = some other →
      other ≤ scope → other = scope) :
    items.inScopes = items.ofScope (some scope) ++ (items.withoutScope scope).inScopes := by
  have scopeFirst : items.inScopes.Pairwise fun earlier later =>
      decide (later.2.scope = some scope) = true →
        decide (earlier.2.scope = some scope) = true := by
    apply ((List.pairwise_map.mp inwards).sublist List.filter_sublist).imp_of_mem
    intro earlier later earlierMember _ notOutwards isScope
    rcases List.mem_filter.mp earlierMember with ⟨inItems, hasScope⟩
    rcases Option.ne_none_iff_exists'.mp (of_decide_eq_true hasScope) with
      ⟨other, isOther⟩
    have outside := notOutwards other scope isOther (of_decide_eq_true isScope)
    rw [isOther, outermost earlier inItems other isOther outside]
    exact decide_eq_true rfl
  rw [← filter_append_filter_not scopeFirst, inScopes, inScopes, withoutScope, ofScope,
    List.filter_filter, List.filter_filter, List.filter_filter]
  congr 1
  · apply List.filter_congr
    intro item _
    rcases Decidable.eq_or_ne item.2.scope (some scope) with inside | outside
    · simp [inside]
    · simp [outside]
  · apply List.filter_congr
    intro item _
    rw [Bool.and_comm]
    simp

theorem inScopes_eq_flatMap {scopes : List ScopeId}
    (ascending : scopes.Pairwise fun outer inner => outer < inner)
    (inwards : items.keys.Pairwise fun earlier later =>
      ScopeId.NotOutwards earlier.1 later.1)
    (covered : ∀ item, item ∈ items → ∀ scope, item.2.scope = some scope →
      scope ∈ scopes) :
    items.inScopes = scopes.flatMap fun scope => items.ofScope (some scope) := by
  induction scopes generalizing items with
  | nil =>
      apply List.filter_eq_nil_iff.mpr
      intro item member hasScope
      rcases Option.ne_none_iff_exists'.mp (of_decide_eq_true hasScope) with
        ⟨scope, isScope⟩
      cases covered item member scope isScope
  | cons scope rest induction =>
      rcases List.pairwise_cons.mp ascending with ⟨below, restAscending⟩
      have outermost : ∀ item, item ∈ items → ∀ other,
          item.2.scope = some other → other ≤ scope → other = scope := by
        intro item member other isOther notInside
        refine (List.mem_cons.mp (covered item member other isOther)).resolve_right ?_
        intro inRest
        exact not_lt_of_ge notInside (below other inRest)
      have restCovered : ∀ item, item ∈ items.withoutScope scope → ∀ other,
          item.2.scope = some other → other ∈ rest := by
        intro item member other isOther
        rcases List.mem_filter.mp member with ⟨inItems, elsewhere⟩
        refine (List.mem_cons.mp (covered item inItems other isOther)).resolve_left ?_
        intro same
        exact of_decide_eq_true elsewhere (same ▸ isOther)
      have restInwards : (items.withoutScope scope).keys.Pairwise
          fun earlier later => ScopeId.NotOutwards earlier.1 later.1 :=
        inwards.sublist (keys_sublist List.filter_sublist)
      rw [inScopes_eq_append inwards outermost, List.flatMap_cons,
        induction restAscending restInwards restCovered]
      congr 1
      apply List.flatMap_congr
      intro other inRest
      apply ofScope_withoutScope_of_ne
      intro same
      exact lt_irrefl scope (Option.some.inj same ▸ below other inRest)

/-! ## Distinct names -/

/-- A scope has one variable of a name at most, so a search from its end finds
what a search from its beginning does. -/
theorem find?_reverse_ofScope (distinct : items.keys.Nodup)
    (scope : Option ScopeId) (name : String) :
    (items.ofScope scope).reverse.find? (fun item => item.2.name = name) =
      (items.ofScope scope).find? (fun item => item.2.name = name) := by
  have sameKey : ∀ item,
      item ∈ (items.ofScope scope).filter (fun item => item.2.name = name) →
        (item.2.scope, item.2.name) = (scope, name) := by
    intro item member
    rcases List.mem_filter.mp member with ⟨inScope, isNamed⟩
    have belongs := (List.mem_filter.mp inScope).2
    rw [of_decide_eq_true isNamed, of_decide_eq_true belongs]
  have nodup : (keys ((items.ofScope scope).filter fun item =>
      item.2.name = name)).Nodup :=
    (keys_sublist (List.filter_sublist.trans List.filter_sublist)).nodup distinct
  rw [← List.head?_filter, ← List.head?_filter, List.filter_reverse]
  cases selected : (items.ofScope scope).filter fun item => item.2.name = name with
  | nil => rfl
  | cons first others =>
      cases others with
      | nil => rfl
      | cons second rest =>
          rw [selected] at sameKey nodup
          have equal := (sameKey first List.mem_cons_self).trans
            (sameKey second (List.mem_cons_of_mem _ List.mem_cons_self)).symm
          exact absurd equal ((List.pairwise_cons.mp nodup).1 _ List.mem_cons_self)

end Sequence

namespace Session

variable {session : Session}

theorem Declarative.inScopes_eq (declarative : session.Declarative) :
    Sequence.inScopes session.store.toList =
      session.scopes.innermostFirst.reverse.flatMap fun scope =>
        Sequence.ofScope session.store.toList (some scope) := by
  have disciplined := declarative.disciplined
  apply Sequence.inScopes_eq_flatMap
  · exact List.pairwise_reverse.mpr disciplined.ordered.descending
  · exact disciplined.inwards
  · intro item member scope isScope
    exact List.mem_reverse.mpr
      (disciplined.mem_innermostFirst (Sequence.mem_keys member) isScope)

/-! ## The two searches -/

theorem Declarative.findSome?_lookupIn_eq (declarative : session.Declarative)
    (name : String) :
    session.scopes.innermostFirst.findSome? (session.lookupIn name) =
      Sequence.lastScoped session.store.toList name := by
  let named (item : VarId × Variable) : Bool := item.2.name = name
  let listed (scope : ScopeId) := Sequence.ofScope session.store.toList (some scope)
  have lookupIn_eq (scope : ScopeId) : session.lookupIn name scope =
      ((listed scope).reverse.find? named).map Prod.fst := by
    rw [lookupIn, declarative.represents.scopeList_eq,
      Sequence.find?_reverse_ofScope declarative.disciplined.distinct]
  calc session.scopes.innermostFirst.findSome? (session.lookupIn name)
    _ = (session.scopes.innermostFirst.findSome? fun scope =>
          (listed scope).reverse.find? named).map Prod.fst := by
        rw [List.map_findSome?, funext lookupIn_eq]
        rfl
    _ = ((session.scopes.innermostFirst.flatMap fun scope =>
          (listed scope).reverse).find? named).map Prod.fst := by
        rw [List.find?_flatMap]
    _ = ((session.scopes.innermostFirst.reverse.flatMap listed).reverse.find?
          named).map Prod.fst := by
        rw [List.reverse_flatMap, List.reverse_reverse]
        rfl
    _ = Sequence.lastScoped session.store.toList name := by
        rw [Sequence.lastScoped, declarative.inScopes_eq, List.getLast?_filter]

theorem Declarative.findByName_eq_builtin (declarative : session.Declarative)
    {name : String}
    (silent : Sequence.lastScoped session.store.toList name = none) :
    session.store.findByName name = Sequence.builtin session.store.toList name := by
  rw [Sequence.lastScoped, Option.map_eq_none_iff, List.getLast?_eq_none_iff,
    List.filter_eq_nil_iff] at silent
  rw [declarative.represents.findByName_eq_find?, Sequence.builtin,
    Sequence.ofScope, List.find?_filter, ← List.head?_filter, ← List.head?_filter]
  congr 2
  apply List.filter_congr
  intro item member
  rcases Decidable.eq_or_ne item.2.name name with isNamed | otherwise
  · have isName := (declarative.reachable.represents.2 item member).name_ne
    have unscoped : item.2.scope = none := Decidable.byContradiction fun hasScope =>
      silent item (List.mem_filter.mpr ⟨member, decide_eq_true hasScope⟩)
        (decide_eq_true isNamed)
    rw [isNamed] at isName
    simp [Sequence.named, isNamed, isName, unscoped]
  · simp [Sequence.named, otherwise]

/-- The variables that have a scope are those of the live scopes, one scope after
the other from the global one inwards. A name therefore means the last of them
that has it, or else the built-in that has it. -/
theorem scoped_variables_nest (declarative : session.Declarative) :
    Sequence.inScopes session.store.toList =
        session.scopes.innermostFirst.reverse.flatMap session.store.scopeList ∧
      ∀ name, session.lookup name =
        (Sequence.lastScoped session.store.toList name).or
          (Sequence.builtin session.store.toList name) := by
  refine ⟨?_, ?_⟩
  · rw [declarative.inScopes_eq]
    congr 1
    funext scope
    exact (declarative.represents.scopeList_eq scope).symm
  · intro name
    rw [lookup, declarative.findSome?_lookupIn_eq]
    cases silent : Sequence.lastScoped session.store.toList name with
    | none => rw [Option.none_or, Option.none_or, declarative.findByName_eq_builtin silent]
    | some id => rfl

/-- A slot that is used again by an inner scope holds the last variable of its
name, and a built-in that is hidden in the global scope stays first. -/
theorem scoped_variables_nest_in_used_slots :
    let session := ((start {}).run
      [.defineType "float" [⟨"value", 4⟩], .declare (.scalar "x" "float"),
        .declare (.builtin "y" "float"), .declare (.scalar "y" "float"),
        .store (.remove ⟨0, 0⟩), .enterScope,
        .declare (.array "y" "float" 2)]).value.2
    session.Declarative ∧
      ids (Sequence.inScopes session.store.toList) = [⟨2, 0⟩, ⟨0, 1⟩] ∧
      Sequence.inScopes session.store.toList =
        session.scopes.innermostFirst.reverse.flatMap session.store.scopeList ∧
      session.lookup "y" =
        (Sequence.lastScoped session.store.toList "y").or
          (Sequence.builtin session.store.toList "y") ∧
      session.lookup "y" = some ⟨0, 1⟩ := by
  intro session
  have declarative : session.Declarative := (Declarative.start {}).run (by decide)
  rcases scoped_variables_nest declarative with ⟨nested, meaning⟩
  exact ⟨declarative, by decide, nested, meaning "y", by decide⟩

end Session

end ScopedVariables
