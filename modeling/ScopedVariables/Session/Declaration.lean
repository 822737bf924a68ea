import ScopedVariables.Session.Basic
import ScopedVariables.Session.Error

/-! # Declarations

A declaration names a variable and its element type. Scalars and arrays are
declared in the current scope, built-ins in the undefined one. -/

namespace ScopedVariables

inductive Declaration where
  | scalar (name typeName : String)
  | array (name typeName : String) (length : Nat)
  | builtin (name typeName : String)
  deriving DecidableEq, Repr

namespace Declaration

def name : Declaration → String
  | .scalar name _ | .array name _ _ | .builtin name _ => name

def typeName : Declaration → String
  | .scalar _ typeName | .array _ typeName _ | .builtin _ typeName => typeName

def scope (current : ScopeId) : Declaration → Option ScopeId
  | .scalar .. | .array .. => some current
  | .builtin .. => none

def build (declaration : Declaration) (current : ScopeId)
    (descriptor : TypeDescriptor) : Except VariableError Variable :=
  let scope := declaration.scope current
  match declaration with
  | .scalar name _ | .builtin name _ => Variable.scalar name scope descriptor
  | .array name _ length => Variable.array name scope descriptor length

end Declaration

namespace Session

open Logged

/-- The variable that a declaration adds, or why it is refused. A name taken in
the scope is reported first, then an unknown type, then a fault of the variable
itself. -/
def prepare (session : Session) (declaration : Declaration) :
    Except SessionError Variable :=
  let current := session.scopes.current
  if session.isDeclared (declaration.scope current) declaration.name then
    .error (.redeclared declaration.name)
  else
    match session.types.lookup declaration.typeName with
    | none => .error (.unknownType declaration.typeName)
    | some descriptor =>
        (declaration.build current descriptor).mapError .invalidVariable

def declare (session : Session) (declaration : Declaration) :
    Logged (Except SessionError VarId × Session) :=
  match session.prepare declaration with
  | .error error => pure (.error error, session)
  | .ok var => do
      let (id, store) ← session.store.add var
      pure (.ok id, { session with store })

def defineType (session : Session) (name : String) (members : List Member) :
    Except SessionError TypeId × Session :=
  match session.types.register name members with
  | .error error => (.error (.invalidType error), session)
  | .ok (id, types) => (.ok id, { session with types })

/-! ## What a definition yields -/

theorem defineType_of_error {session : Session} {name : String}
    {members : List Member} {error : TypeTableError}
    (refused : session.types.register name members = .error error) :
    session.defineType name members = (.error (.invalidType error), session) := by
  rw [defineType, refused]

theorem defineType_of_ok {session : Session} {name : String}
    {members : List Member} {id : TypeId} {types : TypeTable}
    (registered : session.types.register name members = .ok (id, types)) :
    session.defineType name members = (.ok id, { session with types }) := by
  rw [defineType, registered]

/-! ## What a declaration yields -/

theorem declare_of_error {session : Session} {declaration : Declaration}
    {error : SessionError} (refused : session.prepare declaration = .error error) :
    session.declare declaration = pure (.error error, session) := by
  rw [declare, refused]

theorem value_declare_of_ok {session : Session} {declaration : Declaration}
    {var : Variable} (prepared : session.prepare declaration = .ok var) :
    (session.declare declaration).value =
      (.ok (session.store.link var).1,
        { session with store := (session.store.link var).2 }) := by
  rw [declare, prepared, ← Store.value_add]
  rfl

end Session

end ScopedVariables
