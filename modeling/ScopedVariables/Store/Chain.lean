import ScopedVariables.Store.Arena

/-! # The chains of a store

Two kinds of chain run through the entries of a store. The sequence visits all
variables in the order in which they were linked. The chain of a scope visits
the variables of that scope in the same order; the variables of the undefined
scope have a chain of their own. Only the sequence has a stored beginning. -/

namespace ScopedVariables.Store

inductive Chain where
  | sequence
  | scope
  deriving DecidableEq, Repr

namespace Entry

def link (entry : Entry) : Chain → Option VarId
  | .sequence => entry.next
  | .scope => entry.nextInScope

def setLink (chain : Chain) (target : Option VarId) (entry : Entry) : Entry :=
  match chain with
  | .sequence => { entry with next := target }
  | .scope => { entry with nextInScope := target }

@[simp] theorem var_setLink (chain : Chain) (target : Option VarId)
    (entry : Entry) : (entry.setLink chain target).var = entry.var := by
  cases chain <;> rfl

theorem link_setLink (chain other : Chain) (target : Option VarId)
    (entry : Entry) :
    (entry.setLink chain target).link other =
      if other = chain then target else entry.link other := by
  cases chain <;> cases other <;> rfl

end Entry

/-! A walk meets the entries along a chain, at most `steps` of them. A chain
never meets a slot twice, so the size of the arena is enough steps for all of
it. -/

def follow (store : Store) (chain : Chain) :
    (steps : Nat) → (position : Option VarId) → List (VarId × Entry)
  | 0, _ => []
  | _, none => []
  | steps + 1, some id =>
      match store.resolve? id with
      | none => []
      | some entry => (id, entry) :: store.follow chain steps (entry.link chain)

def rows (store : Store) : List (VarId × Entry) :=
  store.follow .sequence store.slots.size store.head

def toList (store : Store) : List (VarId × Variable) :=
  store.rows.map fun (id, entry) => (id, entry.var)

def setLink (store : Store) (chain : Chain) (id : VarId)
    (target : Option VarId) : Store :=
  store.modify id (·.setLink chain target)

/-! ## Following a chain -/

@[simp] theorem follow_none (store : Store) (chain : Chain) (steps : Nat) :
    store.follow chain steps none = [] := by
  cases steps <;> rfl

theorem follow_some {store : Store} {id : VarId} {entry : Entry}
    (found : store.resolve? id = some entry) (chain : Chain) (steps : Nat) :
    store.follow chain (steps + 1) (some id) =
      (id, entry) :: store.follow chain steps (entry.link chain) := by
  simp [follow, found]

theorem resolve?_of_mem_follow {store : Store} {chain : Chain} {steps : Nat}
    {position : Option VarId} {row : VarId × Entry}
    (member : row ∈ store.follow chain steps position) :
    store.resolve? row.1 = some row.2 := by
  induction steps generalizing position with
  | zero => simp [follow] at member
  | succ steps induction =>
      cases position with
      | none => simp at member
      | some id =>
          cases found : store.resolve? id with
          | none => simp [follow, found] at member
          | some entry =>
              rw [follow_some found] at member
              rcases List.mem_cons.mp member with rfl | member
              · exact found
              · exact induction member

end ScopedVariables.Store
