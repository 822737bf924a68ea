import ScopedVariables.Log.Record

/-! How records are presented to a reader of the log: level, component,
message or operation, and named fields. -/

namespace ScopedVariables.Log

def Component.text : Component → String
  | .store => "rivl_vars::store"
  | .session => "rivl_session::session"

inductive FieldValue where
  | text (value : String)
  | count (value : Nat)
  | flag (value : Bool)
  deriving DecidableEq, Repr

abbrev Fields := List (String × FieldValue)

namespace Event

def level : Event → Level
  | .unlinked .. | .removing .. | .sessionEnding .. => .debug
  | _ => .trace

def component : Event → Component
  | .scopeEntered .. | .removing .. | .scopeLeft .. | .sessionEnding .. => .session
  | _ => .store

def message : Event → String
  | .chainStarted .. => "new scope chain"
  | .linked .. => "variable linked"
  | .nameMissing => "no such variable"
  | .unlinked .. => "variable unlinked"
  | .destroying .. => "destroying variable"
  | .scopeEntered .. => "entered scope"
  | .removing .. => "removing scoped variable"
  | .scopeLeft .. => "left scope"
  | .sessionEnding .. => "destroying session variables"

def fields : Event → Fields
  | .chainStarted scope => [("scope", .text (ScopeId.optionText scope))]
  | .linked id count => [("id", .text id.text), ("len", .count count)]
  | .nameMissing => []
  | .unlinked name count => [("name", .text name), ("len", .count count)]
  | .destroying name payloads internal =>
      [("name", .text name), ("payloads", .count payloads),
        ("internal", .flag internal)]
  | .scopeEntered scope depth =>
      [("scope", .text scope.text), ("depth", .count depth)]
  | .removing scope id name =>
      [("scope", .text scope.text), ("id", .text id.text), ("name", .text name)]
  | .scopeLeft scope removed =>
      [("scope", .text scope.text), ("removed", .count removed)]
  | .sessionEnding count => [("len", .count count)]

end Event

namespace Span

-- work on a single variable is traced, work on many is for debugging
def level : Span → Level
  | .add .. | .removeByName .. => .trace
  | .removeScope .. | .destroyAll .. => .debug

def component : Span → Component := fun _ => .store

def operation : Span → String
  | .add .. => "add"
  | .removeByName .. => "remove_by_name"
  | .removeScope .. => "remove_scope"
  | .destroyAll .. => "destroy_all"

def fields : Span → Fields
  | .add name | .removeByName name => [("name", .text name)]
  | .removeScope scope => [("scope", .text scope.text)]
  | .destroyAll count => [("len", .count count)]

end Span

end ScopedVariables.Log
