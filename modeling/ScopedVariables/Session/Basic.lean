import ScopedVariables.ElementType.Table
import ScopedVariables.Scope.Stack
import ScopedVariables.Store.Operation

/-! # Sessions

A session holds what one run of an interpreter declares: element types, live
scopes and variables. Leaving a scope removes its variables, and ending the
session destroys the rest. -/

namespace ScopedVariables

structure SessionConfig where
  /-- The number of variables for which room is made at the start. -/
  variableCapacity : Nat := 64
  /-- The number of scopes that may be live at a time. -/
  maxScopeDepth : Nat := 256
  /-- Whether each variable is reported that goes with its scope. -/
  logScopeRemovals : Bool := false
  deriving DecidableEq, Repr, Inhabited

structure Session where
  config : SessionConfig
  types : TypeTable
  scopes : ScopeStack
  store : Store

namespace Session

def start (config : SessionConfig) : Session where
  config := config
  types := .empty
  scopes := .initial
  store := .withCapacity config.variableCapacity

theorem store_start (config : SessionConfig) : (start config).store = .empty :=
  Store.withCapacity_eq config.variableCapacity

def variablesOf (session : Session) :
    Option ScopeId → List (VarId × Variable)
  | some scope => session.store.scopeList scope
  | none => session.store.toList.filter fun (_, var) => var.scope = none

def isDeclared (session : Session) (scope : Option ScopeId)
    (name : String) : Bool :=
  (session.variablesOf scope).any fun (_, var) => var.name = name

/-! ## Resolving names

The live scopes are searched from the innermost out, and after them all
variables in the order of the sequence. -/

def lookupIn (session : Session) (name : String) (scope : ScopeId) :
    Option VarId :=
  ((session.store.scopeList scope).find? fun (_, var) => var.name = name).map
    Prod.fst

def lookup (session : Session) (name : String) : Option VarId :=
  (session.scopes.innermostFirst.findSome? (session.lookupIn name)).or
    (session.store.findByName name)

end Session

end ScopedVariables
