import ScopedVariables.Proofs.Store.Represents

/-! # Linking a variable

A new entry is placed in the arena and appended to both chains. Only the last
entries of the two chains change, each in one link, and the store then stands
for the sequence with the new variable at its end. -/

namespace ScopedVariables.Store

open Sequence (ids)

/-! ## Appending to a chain -/

theorem resolve?_setLink (store : Store) (chain : Chain) (id other : VarId)
    (target : Option VarId) :
    (store.setLink chain id target).resolve? other =
      if other = id then (store.resolve? other).map (·.setLink chain target)
      else store.resolve? other :=
  resolve?_modify store id other _

theorem resolve?_append (store : Store) (chain : Chain) (tail : Option VarId)
    (id other : VarId) :
    (store.append chain tail id).resolve? other =
      if tail = some other then
        (store.resolve? other).map (·.setLink chain (some id))
      else store.resolve? other := by
  cases tail with
  | none => cases chain <;> rfl
  | some last =>
      change (store.setLink chain last (some id)).resolve? other = _
      rw [resolve?_setLink]
      simp only [Option.some.injEq, eq_comm]

theorem Tidy.append {store : Store} (tidy : store.Tidy) (chain : Chain)
    (tail : Option VarId) (id : VarId) : (store.append chain tail id).Tidy := by
  cases tail with
  | none =>
      cases chain with
      | sequence => exact tidy.of_arena_eq rfl rfl
      | scope => exact tidy
  | some last => exact tidy.modify last _

@[simp] theorem count_append (store : Store) (chain : Chain)
    (tail : Option VarId) (id : VarId) :
    (store.append chain tail id).count = store.count := by
  cases tail with
  | none => cases chain <;> rfl
  | some last => rfl

@[simp] theorem free_append (store : Store) (chain : Chain)
    (tail : Option VarId) (id : VarId) :
    (store.append chain tail id).free = store.free := by
  cases tail with
  | none => cases chain <;> rfl
  | some last => rfl

theorem head_append_sequence (store : Store) (tail : Option VarId) (id : VarId) :
    (store.append .sequence tail id).head =
      if tail = none then some id else store.head := by
  cases tail <;> rfl

@[simp] theorem head_append_scope (store : Store) (tail : Option VarId)
    (id : VarId) : (store.append .scope tail id).head = store.head := by
  cases tail <;> rfl

/-! ## The new entry -/

def place (store : Store) (var : Variable) : VarId × Store :=
  let (id, after) := store.allocate { var }
  (id, { after with count := after.count + 1 })

theorem link_eq (store : Store) (var : Variable) :
    store.link var =
      ((store.place var).1,
        ((store.place var).2.append .sequence store.tail?
          (store.place var).1).append .scope (store.scopeTail? var.scope)
            (store.place var).1) := rfl

theorem resolve?_place {store : Store} (tidy : store.Tidy) (var : Variable)
    (id : VarId) :
    (store.place var).2.resolve? id =
      if id = (store.place var).1 then some { var } else store.resolve? id :=
  tidy.resolve?_allocate { var } id

theorem Tidy.place {store : Store} (tidy : store.Tidy) (var : Variable) :
    (store.place var).2.Tidy :=
  (tidy.allocate { var }).of_arena_eq rfl rfl

namespace Represents

variable {store : Store} {items : Sequence}

theorem place_fresh (represents : store.Represents items) (var : Variable) :
    (store.place var).1 ∉ items.ids := by
  rw [← represents.resolve?_eq_none_iff]
  exact represents.tidy.resolve?_allocate_fresh { var }

private theorem resolve?_link (represents : store.Represents items)
    (var : Variable) (id : VarId) :
    (store.link var).2.resolve? id =
      Sequence.entryOf (items ++ [((store.link var).1, var)]) id := by
  have fresh := represents.place_fresh var
  rw [link_eq, resolve?_append, resolve?_append, resolve?_place represents.tidy,
    represents.tail?_eq, represents.scopeTail?_eq]
  rcases Decidable.eq_or_ne id (store.place var).1 with isNew | listed
  · have notTail : items.ids.getLast? ≠ some id := fun last =>
      fresh (isNew ▸ List.mem_of_getLast? last)
    have notScopeTail : (items.members var.scope).getLast? ≠ some id := fun last =>
      fresh (isNew ▸ Sequence.mem_ids_of_mem_members (List.mem_of_getLast? last))
    rw [if_neg notTail, if_neg notScopeTail, if_pos isNew, isNew]
    exact (Sequence.entryOf_concat_self fresh var).symm
  · rw [if_neg listed, Sequence.entryOf_concat_of_ne represents.nodup fresh listed,
      represents.resolve?_eq]
    cases items.entryOf id with
    | none => split <;> split <;> rfl
    | some entry => split <;> split <;> simp_all [Entry.setLink]

private theorem head_link (represents : store.Represents items)
    (var : Variable) :
    (store.link var).2.head = (ids (items ++ [((store.link var).1, var)])).head? := by
  rw [link_eq, head_append_scope, head_append_sequence, represents.tail?_eq]
  cases items with
  | nil => rfl
  | cons first rest =>
      rw [if_neg (by simp [ids])]
      exact (head_allocate store { var }).trans represents.head_eq

theorem link (represents : store.Represents items) (var : Variable) :
    (store.link var).2.Represents (items ++ [((store.link var).1, var)]) where
  nodup := Sequence.nodup_concat represents.nodup (represents.place_fresh var) var
  resolve?_eq := represents.resolve?_link var
  head_eq := represents.head_link var
  count_eq := by
    have counted := count_allocate store { var }
    rw [link_eq, count_append, count_append, List.length_append,
      ← represents.count_eq]
    exact congrArg (· + 1) counted
  tidy := (represents.tidy.place var).append .sequence _ _ |>.append .scope _ _

end Represents

end ScopedVariables.Store
