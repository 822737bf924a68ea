import Mathlib.Logic.Basic

/-! # What follows an element of a list

A chain shows a list one step at a time: from each element to the element
directly behind it. In a list without duplicates these steps determine the
order. The two changes that chains see are a new last element and the loss of
one element; both touch the step of a single other element. -/

namespace ScopedVariables

variable {α : Type u} [DecidableEq α]

/-- The element directly behind `item` in a list, if there is one. -/
def following? : List α → α → Option α
  | [], _ => none
  | first :: rest, item =>
      if first = item then rest.head? else following? rest item

@[simp] theorem following?_nil (item : α) :
    following? [] item = none := rfl

@[simp] theorem following?_cons_self (item : α) (rest : List α) :
    following? (item :: rest) item = rest.head? := by
  simp [following?]

theorem following?_cons_of_ne {first item : α} (different : first ≠ item)
    (rest : List α) :
    following? (first :: rest) item = following? rest item := by
  simp [following?, different]

theorem following?_of_not_mem {items : List α} {item : α}
    (absent : item ∉ items) : following? items item = none := by
  induction items with
  | nil => rfl
  | cons first rest induction =>
      have different : first ≠ item := fun equal =>
        absent (equal ▸ List.mem_cons_self)
      rw [following?_cons_of_ne different]
      apply induction
      intro member
      exact absent (List.mem_cons_of_mem _ member)

theorem mem_of_following?_eq_some {items : List α} {item next : α}
    (follows : following? items item = some next) : item ∈ items :=
  Decidable.byContradiction fun absent => by
    simp [following?_of_not_mem absent] at follows

theorem mem_tail_of_following?_eq_some {items : List α} {item next : α}
    (follows : following? items item = some next) : next ∈ items.tail := by
  induction items with
  | nil => cases follows
  | cons first rest induction =>
      rcases Decidable.eq_or_ne first item with rfl | different
      · rw [following?_cons_self] at follows
        exact List.mem_of_head? follows
      · rw [following?_cons_of_ne different] at follows
        exact List.mem_of_mem_tail (induction follows)

theorem mem_of_eq_some_following? {items : List α} {item next : α}
    (follows : following? items item = some next) : next ∈ items :=
  List.mem_of_mem_tail (mem_tail_of_following?_eq_some follows)

theorem pair_sublist_of_following?_eq_some {items : List α} {item next : α}
    (follows : following? items item = some next) :
    [item, next].Sublist items := by
  induction items with
  | nil => cases follows
  | cons first rest induction =>
      rcases Decidable.eq_or_ne first item with rfl | different
      · rw [following?_cons_self] at follows
        exact (List.singleton_sublist.mpr (List.mem_of_head? follows)).cons_cons first
      · rw [following?_cons_of_ne different] at follows
        exact (induction follows).cons first

theorem following?_append_cons {before : List α} {item : α}
    (absent : item ∉ before) (rest : List α) :
    following? (before ++ item :: rest) item = rest.head? := by
  induction before with
  | nil => simp
  | cons first before induction =>
      have different : first ≠ item := fun equal =>
        absent (equal ▸ List.mem_cons_self)
      rw [List.cons_append, following?_cons_of_ne different]
      apply induction
      intro member
      exact absent (List.mem_cons_of_mem _ member)

/-! ## Lists without duplicates -/

section Nodup

variable {items : List α}

theorem following?_ne_self (nodup : items.Nodup) (item : α) :
    following? items item ≠ some item := by
  induction items with
  | nil => simp
  | cons first rest induction =>
      have parts := List.nodup_cons.mp nodup
      intro follows
      rcases Decidable.eq_or_ne first item with rfl | different
      · rw [following?_cons_self] at follows
        exact parts.1 (List.mem_of_head? follows)
      · rw [following?_cons_of_ne different] at follows
        exact induction parts.2 follows

theorem following?_ne_head? (nodup : items.Nodup) {item next : α}
    (follows : following? items item = some next) : items.head? ≠ some next := by
  cases items with
  | nil => simp
  | cons first rest =>
      intro isHead
      have member := mem_tail_of_following?_eq_some follows
      cases isHead
      exact (List.nodup_cons.mp nodup).1 member

theorem following?_injective (nodup : items.Nodup) {left right next : α}
    (followsLeft : following? items left = some next)
    (followsRight : following? items right = some next) : left = right := by
  induction items with
  | nil => cases followsLeft
  | cons first rest induction =>
      have parts := List.nodup_cons.mp nodup
      rcases Decidable.eq_or_ne first left with rfl | notLeft
      · rcases Decidable.eq_or_ne first right with same | notRight
        · exact same
        · rw [following?_cons_self] at followsLeft
          rw [following?_cons_of_ne notRight] at followsRight
          exact absurd followsLeft (following?_ne_head? parts.2 followsRight)
      · rw [following?_cons_of_ne notLeft] at followsLeft
        rcases Decidable.eq_or_ne first right with rfl | notRight
        · rw [following?_cons_self] at followsRight
          exact absurd followsRight (following?_ne_head? parts.2 followsLeft)
        · rw [following?_cons_of_ne notRight] at followsRight
          exact induction parts.2 followsLeft followsRight

theorem idxOf_lt_idxOf_of_pair_sublist (nodup : items.Nodup) {left right : α}
    (ordered : [left, right].Sublist items) :
    items.idxOf left < items.idxOf right := by
  have places : items.Pairwise fun earlier later =>
      items.idxOf earlier < items.idxOf later := by
    apply List.pairwise_iff_getElem.mpr
    intro i j iBound jBound less
    rw [nodup.idxOf_getElem i iBound, nodup.idxOf_getElem j jBound]
    exact less
  exact List.rel_of_pairwise_cons (places.sublist ordered) List.mem_cons_self

theorem following?_eq_none_iff (nodup : items.Nodup) {item : α}
    (member : item ∈ items) :
    following? items item = none ↔ items.getLast? = some item := by
  induction items with
  | nil => cases member
  | cons first rest induction =>
      have parts := List.nodup_cons.mp nodup
      cases rest with
      | nil =>
          have equal : item = first := List.mem_singleton.mp member
          simp [equal]
      | cons second rest =>
          rw [List.getLast?_cons_cons]
          rcases Decidable.eq_or_ne first item with rfl | different
          · have notLast := mt List.mem_of_getLast? parts.1
            simp [notLast]
          · rw [following?_cons_of_ne different]
            exact induction parts.2 ((List.mem_cons.mp member).resolve_left different.symm)

theorem following?_concat (nodup : items.Nodup) {new : α} (fresh : new ∉ items)
    (item : α) :
    following? (items ++ [new]) item =
      if items.getLast? = some item then some new else following? items item := by
  induction items with
  | nil =>
      rcases Decidable.eq_or_ne new item with rfl | different
      · simp
      · simp [following?_cons_of_ne different]
  | cons first rest induction =>
      have parts := List.nodup_cons.mp nodup
      have freshRest : new ∉ rest := fun member =>
        fresh (List.mem_cons_of_mem _ member)
      rw [List.cons_append]
      cases rest with
      | nil =>
          rcases Decidable.eq_or_ne first item with rfl | different
          · simp
          · rw [following?_cons_of_ne different, induction parts.2 freshRest,
              following?_cons_of_ne different]
            simp [different]
      | cons second rest =>
          rw [List.getLast?_cons_cons]
          rcases Decidable.eq_or_ne first item with rfl | different
          · have notLast := mt List.mem_of_getLast? parts.1
            simp [notLast]
          · rw [following?_cons_of_ne different, following?_cons_of_ne different]
            exact induction parts.2 freshRest

private theorem filter_ne_cons_self {first : α} {rest : List α}
    (absent : first ∉ rest) :
    (first :: rest).filter (· ≠ first) = rest := by
  rw [List.filter_cons_of_neg (by simp)]
  apply List.filter_eq_self.mpr
  intro other member
  exact decide_eq_true fun equal => absent (equal ▸ member)

theorem head?_filter_ne (nodup : items.Nodup) (target : α) :
    (items.filter (· ≠ target)).head? =
      if items.head? = some target then following? items target
      else items.head? := by
  cases items with
  | nil => rfl
  | cons first rest =>
      rcases Decidable.eq_or_ne first target with rfl | different
      · rw [filter_ne_cons_self (List.nodup_cons.mp nodup).1]
        simp
      · rw [List.filter_cons_of_pos (by simp [different])]
        simp [different]

/-- Without `target`, whatever led to it leads on to what followed it. -/
theorem following?_filter_ne (nodup : items.Nodup) {target item : α}
    (different : item ≠ target) :
    following? (items.filter (· ≠ target)) item =
      if following? items item = some target then following? items target
      else following? items item := by
  induction items with
  | nil => simp
  | cons first rest induction =>
      have parts := List.nodup_cons.mp nodup
      rcases Decidable.eq_or_ne first target with rfl | notTarget
      · have notLinked : following? rest item ≠ some first := fun follows =>
          parts.1 (mem_of_eq_some_following? follows)
        rw [filter_ne_cons_self parts.1, following?_cons_of_ne different.symm,
          if_neg notLinked]
      · rw [List.filter_cons_of_pos (by simp [notTarget]),
          following?_cons_of_ne notTarget]
        rcases Decidable.eq_or_ne first item with rfl | notItem
        · rw [following?_cons_self, following?_cons_self]
          exact head?_filter_ne parts.2 target
        · rw [following?_cons_of_ne notItem, following?_cons_of_ne notItem]
          exact induction parts.2

end Nodup

end ScopedVariables
