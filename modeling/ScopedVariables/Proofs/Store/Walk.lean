import Mathlib.Data.List.Basic
import ScopedVariables.Store.Link
import ScopedVariables.Proofs.Store.Sequence
import ScopedVariables.Proofs.Store.Slots

/-! # Walking a chain

A chain shows a list of variables if each handle resolves to its variable and
the links lead from one to the next. Every way to walk the chain then meets
exactly the list, and ends with it. -/

namespace ScopedVariables.Store

open Sequence (ids)

variable {store : Store} {chain : Chain} {items : Sequence}

def Shows (store : Store) (chain : Chain) : Sequence → Prop
  | [] => True
  | (id, var) :: rest =>
      (∃ entry, store.resolve? id = some entry ∧ entry.var = var ∧
        entry.link chain = (ids rest).head?) ∧ store.Shows chain rest

private theorem shows_of_following?_append (before : Sequence) {rest : Sequence}
    (nodup : (ids (before ++ rest)).Nodup)
    (links : ∀ item, item ∈ rest → ∃ entry,
      store.resolve? item.1 = some entry ∧ entry.var = item.2 ∧
        entry.link chain = following? (ids (before ++ rest)) item.1) :
    store.Shows chain rest := by
  induction rest generalizing before with
  | nil => trivial
  | cons first rest induction =>
      constructor
      · rcases links first List.mem_cons_self with ⟨entry, found, var, link⟩
        refine ⟨entry, found, var, ?_⟩
        rw [Sequence.ids_append] at nodup link
        have absent : first.1 ∉ before.ids := fun member =>
          (List.nodup_append.mp nodup).2.2 first.1 member first.1
            List.mem_cons_self rfl
        rw [link, Sequence.ids_cons, following?_append_cons absent]
      · have shifted : before ++ first :: rest = (before ++ [first]) ++ rest := by
          simp
        rw [shifted] at nodup links
        apply induction _ nodup
        intro item member
        exact links item (List.mem_cons_of_mem _ member)

theorem shows_of_following? (nodup : items.ids.Nodup)
    (links : ∀ item, item ∈ items → ∃ entry,
      store.resolve? item.1 = some entry ∧ entry.var = item.2 ∧
        entry.link chain = following? items.ids item.1) :
    store.Shows chain items :=
  shows_of_following?_append [] nodup links

theorem Shows.resolves (shows : store.Shows chain items)
    {item : VarId × Variable} (member : item ∈ items) :
    (store.resolve? item.1).isSome := by
  induction items with
  | nil => cases member
  | cons first rest induction =>
      rcases shows with ⟨⟨entry, found, _⟩, later⟩
      rcases List.mem_cons.mp member with equal | member
      · rw [equal, found]
        rfl
      · exact induction later member

theorem Shows.from_mem (shows : store.Shows chain items) {id : VarId}
    (member : id ∈ items.ids) :
    ∃ rest : Sequence, rest.ids.head? = some id ∧ rest <:+ items ∧
      store.Shows chain rest := by
  induction items with
  | nil => cases member
  | cons first rest induction =>
      rcases List.mem_cons.mp member with rfl | member
      · exact ⟨first :: rest, rfl, List.suffix_rfl, shows⟩
      · rcases induction shows.2 member with ⟨left, begins, ending, showsLeft⟩
        exact ⟨left, begins, ending.trans (List.suffix_cons first rest), showsLeft⟩

theorem Shows.congr {other : Store} (shows : store.Shows chain items)
    (same : ∀ id, id ∈ items.ids → other.resolve? id = store.resolve? id) :
    other.Shows chain items := by
  induction items with
  | nil => trivial
  | cons first rest induction =>
      rcases shows with ⟨⟨entry, found, links⟩, later⟩
      refine ⟨⟨entry, ?_, links⟩, ?_⟩
      · rw [same first.1 List.mem_cons_self]
        exact found
      · exact induction later fun id member => same id (List.mem_cons_of_mem _ member)

/-! ## What a walk meets -/

theorem Shows.follow (shows : store.Shows chain items) (steps : Nat) :
    (store.follow chain steps items.ids.head?).map
        (fun (id, entry) => (id, entry.var)) = items.take steps := by
  induction items generalizing steps with
  | nil => simp [Sequence.ids]
  | cons first rest induction =>
      rcases first with ⟨id, var⟩
      rcases shows with ⟨⟨entry, found, same, link⟩, later⟩
      cases steps with
      | zero => rfl
      | succ steps =>
          rw [Sequence.ids_cons, List.head?_cons, follow_some found, link,
            List.map_cons, induction later, List.take_succ_cons]
          simp [same]

theorem Shows.take (shows : store.Shows chain items) (count : Nat) :
    (Cursor.take store count ⟨chain, items.ids.head?⟩).1 = items.take count := by
  rw [Cursor.take_eq_follow]
  exact shows.follow count

theorem length_le_size {handles : List VarId} (nodup : handles.Nodup)
    (resolves : ∀ id, id ∈ handles → (store.resolve? id).isSome) :
    handles.length ≤ store.slots.size := by
  have indices : (handles.map VarId.index).Nodup := by
    rw [List.Nodup, List.pairwise_map]
    apply nodup.imp_of_mem
    intro left right leftMember rightMember different same
    exact different (eq_of_index_eq (resolves _ leftMember) (resolves _ rightMember) same)
  have bounded : handles.map VarId.index ⊆ List.range store.slots.size := by
    intro index member
    rcases List.mem_map.mp member with ⟨id, listed, rfl⟩
    exact List.mem_range.mpr (index_lt_size (resolves id listed))
  simpa using indices.length_le_of_subset bounded

theorem Shows.length_le_size (shows : store.Shows chain items)
    (nodup : items.ids.Nodup) : items.length ≤ store.slots.size := by
  have enough : items.ids.length ≤ store.slots.size :=
    Store.length_le_size nodup fun id member => by
      rcases List.mem_map.mp member with ⟨item, inItems, rfl⟩
      exact shows.resolves inItems
  rw [Sequence.ids, List.length_map] at enough
  exact enough

theorem Shows.rest (shows : store.Shows chain items) (nodup : items.ids.Nodup) :
    Cursor.rest store ⟨chain, items.ids.head?⟩ = items := by
  have walked := shows.follow store.slots.size
  rw [List.take_of_length_le (shows.length_le_size nodup)] at walked
  exact walked

theorem Shows.toList (shows : store.Shows .sequence items)
    (nodup : items.ids.Nodup) (head : store.head = items.ids.head?) :
    store.toList = items := by
  rw [← rest_iter, iter, head]
  exact shows.rest nodup

/-! ## Rows -/

theorem ids_toList (store : Store) :
    ids store.toList = store.rows.map Prod.fst := by
  simp [Sequence.ids, toList, Function.comp_def]

theorem mem_rows_iff {id : VarId} {entry : Entry} :
    (id, entry) ∈ store.rows ↔
      id ∈ ids store.toList ∧ store.resolve? id = some entry := by
  rw [ids_toList]
  constructor
  · intro member
    exact ⟨List.mem_map_of_mem member, resolve?_of_mem_follow member⟩
  · rintro ⟨listed, found⟩
    rcases List.mem_map.mp listed with ⟨⟨_, other⟩, member, rfl⟩
    have same : store.resolve? _ = some other := resolve?_of_mem_follow member
    rw [found] at same
    cases same
    exact member

theorem rows_eq_filterMap (store : Store) :
    store.rows =
      (ids store.toList).filterMap fun id => (store.resolve? id).map (id, ·) := by
  rw [ids_toList, List.filterMap_map]
  calc store.rows
    _ = store.rows.filterMap some := List.filterMap_some.symm
    _ = store.rows.filterMap fun row => (store.resolve? row.1).map (row.1, ·) := by
        apply List.filterMap_congr
        intro row member
        rw [resolve?_of_mem_follow member, Option.map_some]

theorem tail?_eq (store : Store) :
    store.tail? = (ids store.toList).getLast? := by
  rw [tail?, ids_toList, List.getLast?_map]

theorem scopeTail?_eq (store : Store) (scope : Option ScopeId) :
    store.scopeTail? scope =
      (Sequence.members store.toList scope).getLast? := by
  simp only [scopeTail?, Sequence.members, Sequence.ofScope, Sequence.ids, toList,
    List.filter_map, List.map_map, List.getLast?_map]
  rfl

end ScopedVariables.Store
