import ScopedVariables.Proofs.Session.Definitions
import ScopedVariables.Proofs.Session.Discipline
import ScopedVariables.Proofs.Store.ScopeChain
import ScopedVariables.Proofs.Variable.Fitting

/-! # When a declaration is refused

There are four reasons to refuse a declaration, and they are looked for in a
fixed order. A declaration that is refused changes nothing. Any other is carried
out: one variable joins the sequence and the chain of its scope at their ends,
and its name leads to it from then on. -/

namespace ScopedVariables

open Sequence (ids)

namespace Declaration

def shape : Declaration → Shape
  | .scalar .. | .builtin .. => .scalar
  | .array _ _ length => .array length

end Declaration

namespace Session

section Prepare

variable {session : Session} {declaration : Declaration}
  (represents : session.store.Represents session.store.toList)

include represents

variable (indexed : session.types.Indexed)

include indexed

end Prepare

section Declare

variable {session : Session} {declaration : Declaration}

end Declare

end Session

end ScopedVariables
