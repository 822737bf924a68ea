import ScopedVariables.Store.Lookup

/-! # Linking and unlinking

A variable is linked behind the last variable of the sequence and behind the
last one of its scope. Unlinking joins its neighbours in both chains. No table
of chain ends is kept: both operations find the neighbours by scanning the
sequence. -/

namespace ScopedVariables.Store

/-! ## Linking -/

/-! An addition looks for the last variable of the sequence and for the last
one of the scope, the undefined one included, before it makes the new entry. -/

def tail? (store : Store) : Option VarId :=
  store.rows.getLast?.map Prod.fst

def scopeTail? (store : Store) (scope : Option ScopeId) : Option VarId :=
  (store.rows.filter fun (_, entry) => entry.var.scope = scope).getLast?.map
    Prod.fst

def append (store : Store) (chain : Chain) (tail : Option VarId)
    (id : VarId) : Store :=
  -- A tail that no longer resolves would count as none: id would become the head,
  -- or be reported as the first of its scope. In the stores that commands make, the
  -- tail is linked, and stays so while the new entry is placed.
  match tail, chain with
  | some tail, _ => store.setLink chain tail (some id)
  | none, .sequence => { store with head := some id }
  | none, .scope => store

def link (store : Store) (var : Variable) : VarId × Store :=
  let sequenceTail := store.tail?
  let scopeTail := store.scopeTail? var.scope
  let (id, store) := store.allocate { var }
  let store := { store with count := store.count + 1 }
  (id, (store.append .sequence sequenceTail id).append .scope scopeTail id)

/-! ## Unlinking -/

def predecessor? (store : Store) (chain : Chain) (target : VarId) :
    Option VarId :=
  (store.rows.find? fun (_, entry) => entry.link chain = some target).map
    Prod.fst

def bypass (store : Store) (chain : Chain) (target : VarId)
    (following : Option VarId) : Store :=
  match store.predecessor? chain target with
  | none => store
  | some predecessor => store.setLink chain predecessor following

/-- Unlink the variable of `target` from both chains and hand it out. The
scope's chain is repaired in the sequence that is already repaired. -/
def unlink (store : Store) (target : VarId) : Option (Variable × Store) :=
  match store.resolve? target with
  | none => none
  | some entry =>
      let store :=
        if store.head = some target then { store with head := entry.next }
        else store.bypass .sequence target entry.next
      let store := store.bypass .scope target entry.nextInScope
      (store.release target).map fun (entry, store) => (entry.var, store)

/-! ## Emptying the whole store

All variables are released along the sequence and handed out in its order.
Links need no repair. -/

def drain (store : Store) :
    (steps : Nat) → (position : Option VarId) → List Variable × Store
  | 0, _ => ([], store)
  | _, none => ([], store)
  | steps + 1, some id =>
      match store.release id with
      | none => ([], store)
      | some (entry, store) =>
          let (vars, store) := store.drain steps entry.next
          (entry.var :: vars, store)

def clear (store : Store) : List Variable × Store :=
  { store with head := none }.drain store.slots.size store.head

end ScopedVariables.Store
