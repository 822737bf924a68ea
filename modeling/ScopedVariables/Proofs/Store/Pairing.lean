import Mathlib.Data.List.Forall2
import Mathlib.Data.List.Nodup
import ScopedVariables.Proofs.Store.Operations

/-! # Paired sequences

Two sequences may list the same variables under different handles. If their
handles are paired one to one, position by position, then a question about the
one has the same answer in the other, up to the pairing, and a change made to
both keeps them paired. -/

namespace ScopedVariables

open Sequence (ids)

abbrev Pairing := List (VarId × VarId)

namespace Pairing

def Pairs (pairing : Pairing) (left right : VarId) : Prop :=
  (left, right) ∈ pairing

/-- Equal variables under paired handles. -/
def Matches (pairing : Pairing) (left right : VarId × Variable) : Prop :=
  pairing.Pairs left.1 right.1 ∧ left.2 = right.2

def OneToOne (pairing : Pairing) : Prop :=
  ∀ left right otherLeft otherRight, pairing.Pairs left right →
    pairing.Pairs otherLeft otherRight → (left = otherLeft ↔ right = otherRight)

variable {pairing : Pairing}

theorem Pairs.cons {left right : VarId} (pair : VarId × VarId)
    (paired : pairing.Pairs left right) : Pairs (pair :: pairing) left right :=
  List.mem_cons_of_mem _ paired

theorem Matches.cons {left right : VarId × Variable} (pair : VarId × VarId)
    (same : pairing.Matches left right) : Matches (pair :: pairing) left right :=
  ⟨same.1.cons pair, same.2⟩

theorem pairs_of_lookup {left right : VarId}
    (found : pairing.lookup left = some right) : pairing.Pairs left right := by
  rcases List.lookup_eq_some_iff.mp found with ⟨before, after, equal, _⟩
  rw [Pairs, equal]
  simp

theorem not_pairs_of_lookup {left : VarId} (missing : pairing.lookup left = none)
    (right : VarId) : ¬pairing.Pairs left right := by
  intro pair
  simpa using List.lookup_eq_none_iff.mp missing (left, right) pair

theorem OneToOne.cons (oneToOne : pairing.OneToOne) {newLeft newRight : VarId}
    (leftUnpaired : ∀ other, ¬pairing.Pairs newLeft other)
    (rightUnpaired : ∀ other, ¬pairing.Pairs other newRight) :
    OneToOne ((newLeft, newRight) :: pairing) := by
  have joins : ∀ left right, pairing.Pairs left right →
      left ≠ newLeft ∧ right ≠ newRight := by
    intro left right pair
    exact ⟨fun same => leftUnpaired right (same ▸ pair),
      fun same => rightUnpaired left (same ▸ pair)⟩
  intro left right otherLeft otherRight pair otherPair
  rcases List.mem_cons.mp pair with isNew | pair <;>
    rcases List.mem_cons.mp otherPair with otherIsNew | otherPair
  · cases isNew
    cases otherIsNew
    exact iff_of_true rfl rfl
  · cases isNew
    rcases joins _ _ otherPair with ⟨leftDiffers, rightDiffers⟩
    exact iff_of_false leftDiffers.symm rightDiffers.symm
  · cases otherIsNew
    rcases joins _ _ pair with ⟨leftDiffers, rightDiffers⟩
    exact iff_of_false leftDiffers rightDiffers
  · exact oneToOne _ _ _ _ pair otherPair

theorem oneToOne_zip {lefts rights : List VarId} (leftNodup : lefts.Nodup)
    (rightNodup : rights.Nodup) : OneToOne (lefts.zip rights) := by
  intro left right otherLeft otherRight pair otherPair
  rcases List.mem_iff_getElem.mp pair with ⟨position, bound, here⟩
  rcases List.mem_iff_getElem.mp otherPair with ⟨otherPosition, otherBound, there⟩
  rw [List.getElem_zip] at here there
  cases here
  cases there
  rw [List.Nodup.getElem_inj_iff leftNodup, List.Nodup.getElem_inj_iff rightNodup]

end Pairing

namespace Sequence

variable {pairing : Pairing} {leftItems rightItems : Sequence}

theorem forall₂_matches_zip
    (sameVars : leftItems.map Prod.snd = rightItems.map Prod.snd) :
    List.Forall₂ (Pairing.Matches (leftItems.ids.zip rightItems.ids))
      leftItems rightItems := by
  rw [List.forall₂_iff_zip]
  constructor
  · simpa using congrArg List.length sameVars
  · intro left right member
    constructor
    · rw [Pairing.Pairs, ids, ids, List.zip_map]
      exact List.mem_map.mpr ⟨(left, right), member, rfl⟩
    · have atOnePlace : (left.2, right.2) ∈
          (leftItems.map Prod.snd).zip (rightItems.map Prod.snd) := by
        rw [List.zip_map]
        exact List.mem_map.mpr ⟨(left, right), member, rfl⟩
      rw [sameVars] at atOnePlace
      rcases List.mem_iff_getElem.mp atOnePlace with ⟨position, bound, here⟩
      rw [List.getElem_zip, Prod.mk.injEq] at here
      exact here.1.symm.trans here.2

theorem named_eq (name : String) (left right : VarId × Variable)
    (same : pairing.Matches left right) : named name left = named name right := by
  rw [named, named, same.2]

/-! ## Selections -/

section Selection

variable {Same : VarId × Variable → VarId × Variable → Prop}
  (same : List.Forall₂ Same leftItems rightItems)
  {fits otherFits : VarId × Variable → Bool}
  (agree : ∀ left right, Same left right → fits left = otherFits right)

include same agree

theorem forall₂_filter :
    List.Forall₂ Same (leftItems.filter fits) (rightItems.filter otherFits) := by
  refine List.rel_filter ?_ same
  intro left right together
  exact Bool.eq_iff_iff.mp (agree left right together)

theorem forall₂_eraseP :
    List.Forall₂ Same (leftItems.eraseP fits) (rightItems.eraseP otherFits) := by
  induction same with
  | nil => exact .nil
  | @cons left right lefts rights together rest induction =>
      rw [List.eraseP_cons, List.eraseP_cons, agree left right together]
      cases otherFits right with
      | true => exact rest
      | false => exact .cons together induction

theorem any_eq : leftItems.any fits = rightItems.any otherFits := by
  induction same with
  | nil => rfl
  | @cons left right lefts rights together _ induction =>
      rw [List.any_cons, List.any_cons, agree left right together, induction]

theorem rel_find? (pairs : ∀ left right, Same left right →
      pairing.Pairs left.1 right.1) :
    Option.Rel pairing.Pairs ((leftItems.find? fits).map Prod.fst)
      ((rightItems.find? otherFits).map Prod.fst) := by
  induction same with
  | nil => exact .none
  | @cons left right lefts rights together _ induction =>
      rw [List.find?_cons, List.find?_cons, agree left right together]
      cases otherFits right with
      | true => exact .some (pairs left right together)
      | false => exact induction

end Selection

section Paired

variable (paired : List.Forall₂ pairing.Matches leftItems rightItems)

include paired

theorem forall₂_ids : List.Forall₂ pairing.Pairs leftItems.ids rightItems.ids := by
  rw [ids, ids, List.forall₂_map_left_iff, List.forall₂_map_right_iff]
  exact paired.imp fun _ _ same => same.1

theorem exists_pairs_of_mem {left : VarId} (member : left ∈ leftItems.ids) :
    ∃ right, pairing.Pairs left right := by
  induction paired with
  | nil => cases member
  | cons same _ induction =>
      rcases List.mem_cons.mp member with rfl | member
      · exact ⟨_, same.1⟩
      · exact induction member

theorem vars_eq : leftItems.map Prod.snd = rightItems.map Prod.snd := by
  induction paired with
  | nil => rfl
  | cons same _ induction => rw [List.map_cons, List.map_cons, same.2, induction]

theorem forall₂_ofScope (scope : Option ScopeId) :
    List.Forall₂ pairing.Matches (leftItems.ofScope scope)
      (rightItems.ofScope scope) :=
  forall₂_filter paired fun _ _ same => by rw [same.2]

theorem forall₂_withoutScope (scope : ScopeId) :
    List.Forall₂ pairing.Matches (leftItems.withoutScope scope)
      (rightItems.withoutScope scope) :=
  forall₂_filter paired fun _ _ same => by rw [same.2]

/-! ## Handles -/

section Handles

variable (oneToOne : pairing.OneToOne) {left right : VarId}
  (pair : pairing.Pairs left right)

include oneToOne pair

theorem lookup_eq_of_pairs : leftItems.lookup left = rightItems.lookup right := by
  induction paired with
  | nil => rfl
  | @cons leftItem rightItem lefts rights same _ induction =>
      rw [lookup_cons, lookup_cons, same.2, induction]
      simp only [oneToOne _ _ _ _ pair same.1]

theorem forall₂_without :
    List.Forall₂ pairing.Matches (leftItems.without left)
      (rightItems.without right) := by
  apply forall₂_filter paired
  intro leftItem rightItem same
  simp only [ne_eq, oneToOne _ _ _ _ same.1 pair]

theorem forall₂_update (change : Variable → Variable) :
    List.Forall₂ pairing.Matches (leftItems.update left change)
      (rightItems.update right change) := by
  rw [update, update, List.forall₂_map_left_iff, List.forall₂_map_right_iff]
  apply paired.imp
  intro leftItem rightItem same
  simp only [oneToOne _ _ _ _ same.1 pair]
  split
  · exact ⟨same.1, congrArg change same.2⟩
  · exact same

end Handles

end Paired

theorem rel_following? (oneToOne : pairing.OneToOne) {left right : VarId}
    (pair : pairing.Pairs left right) {lefts rights : List VarId}
    (paired : List.Forall₂ pairing.Pairs lefts rights) :
    Option.Rel pairing.Pairs (following? lefts left) (following? rights right) := by
  induction paired with
  | nil => exact .none
  | @cons leftFirst rightFirst lefts rights same rest induction =>
      have together := oneToOne _ _ _ _ same pair
      rcases Decidable.eq_or_ne leftFirst left with atLeft | elsewhere
      · rw [atLeft, together.mp atLeft, following?_cons_self, following?_cons_self]
        cases rest with
        | nil => exact .none
        | cons next _ => exact .some next
      · rw [following?_cons_of_ne elsewhere,
          following?_cons_of_ne (mt together.mpr elsewhere)]
        exact induction

end Sequence

end ScopedVariables
