import ScopedVariables.ElementType.Table
import ScopedVariables.Variable.Basic

/-! Why a session refuses a request. Errors of variables and of the type table
pass through with their own wording. -/

namespace ScopedVariables

inductive SessionError where
  | unknownType (name : String)
  | redeclared (name : String)
  | scopeDepth (limit : Nat)
  | scopesExhausted
  | invalidVariable (error : VariableError)
  | invalidType (error : TypeTableError)
  deriving DecidableEq, Repr

def SessionError.message : SessionError → String
  | .unknownType name => "unknown type `" ++ name ++ "`"
  | .redeclared name =>
      "variable `" ++ name ++ "` is already declared in this scope"
  | .scopeDepth limit =>
      "scope nesting exceeds " ++ toString limit ++ " levels"
  | .scopesExhausted => "session ran out of scope handles"
  | .invalidVariable error => error.message
  | .invalidType error => error.message

end ScopedVariables
