import ScopedVariables.Store.Chain
import ScopedVariables.Proofs.Store.Following

/-! # Plain sequences

A store stands for a plain list of variables under their handles. The list
alone says which entry each handle has: its variable, and as links what follows
it in the list and among the variables of its scope. -/

namespace ScopedVariables

abbrev Sequence := List (VarId × Variable)

namespace Sequence

def ids (items : Sequence) : List VarId := items.map Prod.fst

def ofScope (items : Sequence) (scope : Option ScopeId) : Sequence :=
  items.filter fun item => item.2.scope = scope

def members (items : Sequence) (scope : Option ScopeId) : List VarId :=
  (items.ofScope scope).ids

def without (items : Sequence) (target : VarId) : Sequence :=
  items.filter fun item => item.1 ≠ target

def update (items : Sequence) (target : VarId)
    (change : Variable → Variable) : Sequence :=
  items.map fun item =>
    if item.1 = target then (item.1, change item.2) else item

/-- The entry of `id` in a store that stands for `items`. -/
def entryOf (items : Sequence) (id : VarId) : Option Store.Entry :=
  (items.lookup id).map fun var =>
    { var
      next := following? items.ids id
      nextInScope := following? (items.members var.scope) id }

/-! ## Looking up a handle -/

variable {items : Sequence}

@[simp] theorem ids_cons (item : VarId × Variable) (rest : Sequence) :
    ids (item :: rest) = item.1 :: rest.ids := rfl

@[simp] theorem ids_append (left right : Sequence) :
    ids (left ++ right) = left.ids ++ right.ids := List.map_append

theorem mem_ids {item : VarId × Variable} (member : item ∈ items) :
    item.1 ∈ items.ids := List.mem_map_of_mem member

theorem lookup_cons (item : VarId × Variable) (rest : Sequence) (id : VarId) :
    List.lookup id (item :: rest) =
      if id = item.1 then some item.2 else rest.lookup id := by
  rw [List.lookup_cons]
  split
  · rename_i same
    rw [if_pos (beq_iff_eq.mp same)]
  · rename_i different
    rw [if_neg (beq_eq_false_iff_ne.mp different)]

theorem lookup_eq_none_iff {id : VarId} :
    items.lookup id = none ↔ id ∉ items.ids := by
  rw [List.lookup_eq_none_iff]
  constructor
  · intro different member
    rcases List.mem_map.mp member with ⟨item, inItems, rfl⟩
    simpa using different item inItems
  · intro absent item member
    have different : id ≠ item.1 := fun same => absent (same ▸ mem_ids member)
    simpa using different

theorem mem_of_lookup {id : VarId} {var : Variable}
    (found : items.lookup id = some var) : (id, var) ∈ items := by
  rcases List.lookup_eq_some_iff.mp found with ⟨before, after, rfl, _⟩
  simp

theorem mem_ids_of_lookup {id : VarId} {var : Variable}
    (found : items.lookup id = some var) : id ∈ items.ids :=
  mem_ids (mem_of_lookup found)

theorem lookup_of_mem (nodup : items.ids.Nodup) {id : VarId} {var : Variable}
    (member : (id, var) ∈ items) : items.lookup id = some var := by
  induction items with
  | nil => cases member
  | cons first rest induction =>
      have parts := List.nodup_cons.mp nodup
      rcases List.mem_cons.mp member with equal | member
      · subst equal
        simp
      · have different : id ≠ first.1 := fun same =>
          parts.1 (same ▸ mem_ids member)
        rw [lookup_cons, if_neg different]
        exact induction parts.2 member

/-! ## The variables of a scope -/

theorem nodup_members (nodup : items.ids.Nodup) (scope : Option ScopeId) :
    (items.members scope).Nodup :=
  (List.filter_sublist.map Prod.fst).nodup nodup

theorem mem_ids_of_mem_members {id : VarId} {scope : Option ScopeId}
    (member : id ∈ items.members scope) : id ∈ items.ids :=
  (List.filter_sublist.map Prod.fst).subset member

theorem mem_members_iff (nodup : items.ids.Nodup) {id : VarId}
    {scope : Option ScopeId} :
    id ∈ items.members scope ↔
      ∃ var, items.lookup id = some var ∧ var.scope = scope := by
  constructor
  · intro member
    rcases List.mem_map.mp member with ⟨⟨_, var⟩, selected, rfl⟩
    rcases List.mem_filter.mp selected with ⟨inItems, inScope⟩
    exact ⟨var, lookup_of_mem nodup inItems, of_decide_eq_true inScope⟩
  · rintro ⟨var, found, inScope⟩
    apply List.mem_map.mpr
    exact ⟨(id, var), List.mem_filter.mpr
      ⟨mem_of_lookup found, decide_eq_true inScope⟩, rfl⟩

theorem scope_eq_of_mem_members (nodup : items.ids.Nodup) {id : VarId}
    {scope : Option ScopeId} (member : id ∈ items.members scope)
    {var : Variable} (found : items.lookup id = some var) : var.scope = scope := by
  rcases (mem_members_iff nodup).mp member with ⟨other, alsoFound, inScope⟩
  rw [found] at alsoFound
  cases alsoFound
  exact inScope

theorem ofScope_ofScope (items : Sequence) (scope : Option ScopeId) :
    (items.ofScope scope).ofScope scope = items.ofScope scope := by
  rw [ofScope, ofScope, List.filter_filter]
  simp only [Bool.and_self]

theorem lookup_ofScope {id : VarId} {scope : Option ScopeId}
    (inside : ∀ var, (id, var) ∈ items → var.scope = scope) :
    (items.ofScope scope).lookup id = items.lookup id := by
  induction items with
  | nil => rfl
  | cons first rest induction =>
      have restInside : ∀ var, (id, var) ∈ rest → var.scope = scope :=
        fun var member => inside var (List.mem_cons_of_mem _ member)
      rw [ofScope] at induction ⊢
      rcases Decidable.eq_or_ne first.2.scope scope with selected | elsewhere
      · rw [List.filter_cons_of_pos (by simp [selected]), lookup_cons,
          lookup_cons, induction restInside]
      · have different : id ≠ first.1 := by
          rintro rfl
          exact elsewhere (inside first.2 List.mem_cons_self)
        rw [List.filter_cons_of_neg (by simp [elsewhere]), lookup_cons,
          if_neg different, induction restInside]

/-! ## A new last variable -/

theorem lookup_concat {id : VarId} (fresh : id ∉ items.ids) (var : Variable)
    (other : VarId) :
    (items ++ [(id, var)]).lookup other =
      if other = id then some var else items.lookup other := by
  rw [List.lookup_append, lookup_cons]
  rcases Decidable.eq_or_ne other id with rfl | different
  · rw [if_pos rfl, if_pos rfl, lookup_eq_none_iff.mpr fresh]
    rfl
  · rw [if_neg different, if_neg different]
    exact Option.or_none

theorem ofScope_concat (id : VarId) (var : Variable) (scope : Option ScopeId) :
    ofScope (items ++ [(id, var)]) scope =
      if var.scope = scope then items.ofScope scope ++ [(id, var)]
      else items.ofScope scope := by
  rw [ofScope, ofScope, List.filter_append]
  split
  · rename_i inScope
    simp [inScope]
  · rename_i elsewhere
    simp [elsewhere]

theorem members_concat (id : VarId) (var : Variable) (scope : Option ScopeId) :
    members (items ++ [(id, var)]) scope =
      if var.scope = scope then items.members scope ++ [id]
      else items.members scope := by
  rw [members, members, ofScope_concat]
  split
  · exact ids_append ..
  · rfl

theorem nodup_concat (nodup : items.ids.Nodup) {id : VarId}
    (fresh : id ∉ items.ids) (var : Variable) :
    (ids (items ++ [(id, var)])).Nodup := by
  rw [ids_append]
  exact List.nodup_append.mpr ⟨nodup, by simp [ids], by
    intro left leftMember right rightMember same
    have equal : right = id := List.mem_singleton.mp rightMember
    exact fresh (equal ▸ same ▸ leftMember)⟩

theorem entryOf_concat_self {id : VarId} (fresh : id ∉ items.ids)
    (var : Variable) :
    entryOf (items ++ [(id, var)]) id = some { var } := by
  have sequenceStep : following? (ids (items ++ [(id, var)])) id = none := by
    rw [ids_append]
    exact following?_append_cons fresh []
  have scopeStep : following? (members (items ++ [(id, var)]) var.scope) id = none := by
    rw [members_concat, if_pos rfl]
    exact following?_append_cons (fun member => fresh (mem_ids_of_mem_members member)) []
  rw [entryOf, lookup_concat fresh, if_pos rfl, Option.map_some, sequenceStep, scopeStep]

theorem entryOf_concat_of_ne (nodup : items.ids.Nodup) {id other : VarId}
    (fresh : id ∉ items.ids) (different : other ≠ id) (var : Variable) :
    entryOf (items ++ [(id, var)]) other =
      (items.entryOf other).map fun entry =>
        { entry with
          next := if items.ids.getLast? = some other then some id
            else entry.next
          nextInScope :=
            if (items.members var.scope).getLast? = some other then some id
            else entry.nextInScope } := by
  rw [entryOf, entryOf, lookup_concat fresh, if_neg different, Option.map_map]
  apply Option.map_congr
  intro listedVar listed
  have freshMember : id ∉ items.members listedVar.scope := fun member =>
    fresh (mem_ids_of_mem_members member)
  have sequenceStep : following? (ids (items ++ [(id, var)])) other =
      if items.ids.getLast? = some other then some id
      else following? items.ids other := by
    rw [ids_append]
    exact following?_concat nodup fresh other
  have scopeStep :
      following? (members (items ++ [(id, var)]) listedVar.scope) other =
        if (items.members var.scope).getLast? = some other then some id
        else following? (items.members listedVar.scope) other := by
    rw [members_concat]
    split
    · rename_i sameScope
      rw [sameScope]
      exact following?_concat (nodup_members nodup _) freshMember other
    · rename_i elsewhere
      have notLast : (items.members var.scope).getLast? ≠ some other := by
        intro last
        have member := List.mem_of_getLast? last
        exact elsewhere (scope_eq_of_mem_members nodup member listed).symm
      rw [if_neg notLast]
  rw [sequenceStep, scopeStep]
  rfl

/-! ## The loss of a variable -/

theorem ids_without (target : VarId) :
    (items.without target).ids = items.ids.filter (· ≠ target) := by
  rw [ids, ids, List.filter_map]
  rfl

theorem ofScope_without (target : VarId) (scope : Option ScopeId) :
    (items.without target).ofScope scope = (items.ofScope scope).without target := by
  rw [ofScope, ofScope, without, without, List.filter_filter, List.filter_filter]
  simp only [Bool.and_comm]

theorem members_without (target : VarId) (scope : Option ScopeId) :
    (items.without target).members scope =
      (items.members scope).filter (· ≠ target) := by
  rw [members, members, ← ids_without, ofScope_without]

theorem nodup_without (nodup : items.ids.Nodup) (target : VarId) :
    (items.without target).ids.Nodup := by
  rw [ids_without]
  exact nodup.filter _

theorem lookup_without (target other : VarId) :
    (items.without target).lookup other =
      if other = target then none else items.lookup other := by
  split
  · rename_i same
    rw [lookup_eq_none_iff, ids_without, same]
    simp
  · rename_i different
    induction items with
    | nil => rfl
    | cons first rest induction =>
        rw [without] at induction ⊢
        rcases Decidable.eq_or_ne first.1 target with atTarget | kept
        · rw [List.filter_cons_of_neg (by simp [atTarget]), induction,
            lookup_cons, if_neg (atTarget ▸ different)]
        · rw [List.filter_cons_of_pos (by simp [kept]), lookup_cons,
            lookup_cons, induction]

theorem without_of_not_mem {target : VarId} (absent : target ∉ items.ids) :
    items.without target = items := by
  apply List.filter_eq_self.mpr
  intro item member
  exact decide_eq_true fun same => absent (same ▸ mem_ids member)

theorem without_concat {id : VarId} (fresh : id ∉ items.ids) (var : Variable) :
    without (items ++ [(id, var)]) id = items := by
  rw [without, List.filter_append, ← without, without_of_not_mem fresh]
  simp

theorem length_without (nodup : items.ids.Nodup) {target : VarId}
    (member : target ∈ items.ids) :
    (items.without target).length = items.length - 1 := by
  have counted : ((items.ids).filter (· ≠ target)).length = items.ids.length - 1 := by
    rw [← List.length_erase_of_mem member, nodup.erase_eq_filter]
    simp only [ne_eq, decide_not]
    rfl
  rw [← ids_without] at counted
  simpa [ids] using counted

theorem entryOf_without_self (target : VarId) :
    (items.without target).entryOf target = none := by
  rw [entryOf, lookup_without, if_pos rfl]
  rfl

theorem entryOf_without_of_ne (nodup : items.ids.Nodup) {target other : VarId}
    {lost : Variable} (listed : items.lookup target = some lost)
    (different : other ≠ target) :
    (items.without target).entryOf other =
      (items.entryOf other).map fun entry =>
        { entry with
          next := if entry.next = some target then following? items.ids target
            else entry.next
          nextInScope := if entry.nextInScope = some target then
              following? (items.members lost.scope) target
            else entry.nextInScope } := by
  rw [entryOf, entryOf, lookup_without, if_neg different, Option.map_map]
  apply Option.map_congr
  intro var _
  have scopeStep :
      following? ((items.without target).members var.scope) other =
        if following? (items.members var.scope) other = some target then
          following? (items.members lost.scope) target
        else following? (items.members var.scope) other := by
    rw [members_without, following?_filter_ne (nodup_members nodup _) different]
    split
    · rename_i leads
      rw [scope_eq_of_mem_members nodup (mem_of_eq_some_following? leads) listed]
    · rfl
  rw [scopeStep, ids_without, following?_filter_ne nodup different]
  rfl

/-! ## A change of one variable -/

theorem ids_update (target : VarId) (change : Variable → Variable) :
    (items.update target change).ids = items.ids := by
  rw [ids, ids, update, List.map_map]
  apply List.map_congr_left
  intro item _
  change (if item.1 = target then (item.1, change item.2) else item).1 = item.1
  split <;> rfl

theorem lookup_update (target other : VarId) (change : Variable → Variable) :
    (items.update target change).lookup other =
      if other = target then (items.lookup other).map change
      else items.lookup other := by
  induction items with
  | nil => simp [update]
  | cons first rest induction =>
      rw [update] at induction ⊢
      rw [List.map_cons, lookup_cons, lookup_cons, induction]
      rcases Decidable.eq_or_ne first.1 target with atTarget | elsewhere
      · rw [if_pos atTarget, atTarget]
        split <;> rfl
      · rw [if_neg elsewhere]
        rcases Decidable.eq_or_ne other first.1 with rfl | different
        · rw [if_pos rfl, if_neg elsewhere, if_pos rfl]
        · rw [if_neg different, if_neg different]

theorem update_of_not_mem {target : VarId} (absent : target ∉ items.ids)
    (change : Variable → Variable) : items.update target change = items := by
  rw [update, List.map_congr_left, List.map_id]
  intro item member
  have different : item.1 ≠ target := fun same => absent (same ▸ mem_ids member)
  rw [if_neg different]
  rfl

theorem ofScope_update {change : Variable → Variable}
    (keeps : ∀ var, (change var).scope = var.scope) (target : VarId)
    (scope : Option ScopeId) :
    (items.update target change).ofScope scope =
      (items.ofScope scope).update target change := by
  have sameScope : ∀ item : VarId × Variable,
      (if item.1 = target then (item.1, change item.2) else item).2.scope =
        item.2.scope := by
    intro item
    split
    · exact keeps item.2
    · rfl
  rw [ofScope, ofScope, update, update, List.filter_map]
  simp only [Function.comp_def, sameScope]

theorem members_update {change : Variable → Variable}
    (keeps : ∀ var, (change var).scope = var.scope) (target : VarId)
    (scope : Option ScopeId) :
    (items.update target change).members scope = items.members scope := by
  rw [members, members, ofScope_update keeps, ids_update]

end Sequence

end ScopedVariables
