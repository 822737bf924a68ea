import ScopedVariables.Handle

/-! # Log records

Every operation that changes a store or a session reports what it does. A
report is data: a record is an event, or the entry into or the exit from a span
that encloses the records of one operation. -/

namespace ScopedVariables.Log

inductive Level where
  | trace
  | debug
  deriving DecidableEq, Repr

inductive Component where
  | store
  | session
  deriving DecidableEq, Repr

inductive Event where
  /-- The variable about to be linked is the first of its scope. -/
  | chainStarted (scope : Option ScopeId)
  /-- A variable is linked, and `count` variables are linked now. -/
  | linked (id : VarId) (count : Nat)
  /-- No variable has the name to be removed. -/
  | nameMissing
  /-- A variable is unlinked, and `count` variables remain linked. -/
  | unlinked (name : String) (count : Nat)
  /-- A variable ends with its payloads and its internal value, if any. -/
  | destroying (name : String) (payloads : Nat) (internal : Bool)
  /-- A scope is entered, and `depth` scopes are live now. -/
  | scopeEntered (scope : ScopeId) (depth : Nat)
  /-- A variable is about to be removed with its scope. -/
  | removing (scope : ScopeId) (id : VarId) (name : String)
  /-- A scope is left, and `removed` variables went with it. -/
  | scopeLeft (scope : ScopeId) (removed : Nat)
  /-- A session ends while `count` variables are linked. -/
  | sessionEnding (count : Nat)
  deriving DecidableEq, Repr

inductive Span where
  | add (name : String)
  | removeByName (name : String)
  | removeScope (scope : ScopeId)
  | destroyAll (count : Nat)
  deriving DecidableEq, Repr

inductive Record where
  | event (event : Event)
  | enter (span : Span)
  | exit (span : Span)
  deriving DecidableEq, Repr

end ScopedVariables.Log
