import ScopedVariables.Store.Chain

/-! Finding variables by name or scope, and walking a chain step by step. The
first match in the sequence wins. An empty name and the undefined scope are
never found. -/

namespace ScopedVariables.Store

def isEmpty (store : Store) : Bool := store.head.isNone

def findByName (store : Store) (name : String) : Option VarId :=
  if name = "" then none
  else (store.toList.find? fun (_, var) => var.name = name).map Prod.fst

def firstInScope (store : Store) (scope : Option ScopeId) : Option VarId :=
  match scope with
  | none => none
  | some scope =>
      (store.toList.find? fun (_, var) => var.scope = some scope).map Prod.fst

/-! ## Cursors

A cursor is a position in a chain of the store that it was made for. -/

structure Cursor where
  chain : Chain
  position : Option VarId
  deriving DecidableEq, Repr

def iter (store : Store) : Cursor := ⟨.sequence, store.head⟩

def scopeIter (store : Store) (scope : ScopeId) : Cursor :=
  ⟨.scope, store.firstInScope (some scope)⟩

namespace Cursor

def advance (store : Store) (cursor : Cursor) :
    Option ((VarId × Variable) × Cursor) :=
  match cursor.position with
  | none => none
  | some id =>
      match store.resolve? id with
      | none => none
      | some entry =>
          some ((id, entry.var), { cursor with position := entry.link cursor.chain })

def take (store : Store) :
    (count : Nat) → Cursor → List (VarId × Variable) × Cursor
  | 0, cursor => ([], cursor)
  | count + 1, cursor =>
      match cursor.advance store with
      | none => ([], cursor)
      | some (item, cursor) =>
          let (items, cursor) := take store count cursor
          (item :: items, cursor)

def rest (store : Store) (cursor : Cursor) : List (VarId × Variable) :=
  (store.follow cursor.chain store.slots.size cursor.position).map
    fun (id, entry) => (id, entry.var)

theorem take_eq_follow (store : Store) (count : Nat) (cursor : Cursor) :
    (cursor.take store count).1 =
      (store.follow cursor.chain count cursor.position).map
        fun (id, entry) => (id, entry.var) := by
  induction count generalizing cursor with
  | zero => rfl
  | succ count induction =>
      obtain ⟨chain, position⟩ := cursor
      cases position with
      | none => rfl
      | some id =>
          cases found : store.resolve? id with
          | none => simp [take, advance, follow, found]
          | some entry => simp [take, advance, follow, found, induction]

end Cursor

def scopeList (store : Store) (scope : ScopeId) : List (VarId × Variable) :=
  (store.scopeIter scope).rest store

@[simp] theorem rest_iter (store : Store) :
    store.iter.rest store = store.toList := rfl

end ScopedVariables.Store
