import ScopedVariables.Session.Declaration
import ScopedVariables.Session.Lifecycle
import ScopedVariables.Store.Command

/-! # Commands of a session

The calls that a client makes of a session, as data. An evaluator may also
reach into the session's store. -/

namespace ScopedVariables.Session

inductive Command where
  | defineType (name : String) (members : List Member)
  | enterScope
  | leaveScope
  | declare (declaration : Declaration)
  | lookup (name : String)
  | remove (name : String)
  | shutdown
  | store (command : Store.Command)
  deriving DecidableEq

inductive Reply where
  | defined (outcome : Except SessionError TypeId)
  | entered (outcome : Except SessionError ScopeId)
  | left (scope : Option (ScopeId × Nat))
  | declared (outcome : Except SessionError VarId)
  | found (id : Option VarId)
  | removed (found : Bool)
  | done
  | store (reply : Store.Reply)

def Reply.refusal? : Reply → Option SessionError
  | .entered (.error error) => some error
  | _ => none

def execute (session : Session) : Command → Logged (Reply × Session)
  | .defineType name members =>
      let (outcome, session) := session.defineType name members
      pure (.defined outcome, session)
  | .enterScope => do
      let (outcome, session) ← session.enterScope
      pure (.entered outcome, session)
  | .leaveScope => do
      let (scope, session) ← session.leaveScope
      pure (.left scope, session)
  | .declare declaration => do
      let (outcome, session) ← session.declare declaration
      pure (.declared outcome, session)
  | .lookup name => pure (.found (session.lookup name), session)
  | .remove name => do
      let (found, session) ← session.remove name
      pure (.removed found, session)
  | .shutdown => do
      let session ← session.shutdown
      pure (.done, session)
  | .store command => do
      let (reply, store) ← session.store.execute command
      pure (.store reply, { session with store })

def run (session : Session) : List Command → Logged (List Reply × Session)
  | [] => pure ([], session)
  | command :: commands => do
      let (reply, session) ← session.execute command
      let (replies, session) ← session.run commands
      pure (reply :: replies, session)

/-! ## What a command yields -/

@[simp] theorem value_execute_defineType (session : Session) (name : String)
    (members : List Member) :
    (session.execute (.defineType name members)).value =
      (.defined (session.defineType name members).1,
        (session.defineType name members).2) := rfl

@[simp] theorem value_execute_enterScope (session : Session) :
    (session.execute .enterScope).value =
      (.entered session.enterScope.value.1, session.enterScope.value.2) := rfl

@[simp] theorem value_execute_leaveScope (session : Session) :
    (session.execute .leaveScope).value =
      (.left session.leaveScope.value.1, session.leaveScope.value.2) := rfl

@[simp] theorem value_execute_declare (session : Session)
    (declaration : Declaration) :
    (session.execute (.declare declaration)).value =
      (.declared (session.declare declaration).value.1,
        (session.declare declaration).value.2) := rfl

@[simp] theorem value_execute_lookup (session : Session) (name : String) :
    (session.execute (.lookup name)).value =
      (.found (session.lookup name), session) := rfl

@[simp] theorem value_execute_remove (session : Session) (name : String) :
    (session.execute (.remove name)).value =
      (.removed (session.remove name).value.1, (session.remove name).value.2) := rfl

@[simp] theorem value_execute_shutdown (session : Session) :
    (session.execute .shutdown).value = (.done, session.shutdown.value) := rfl

@[simp] theorem value_execute_store (session : Session) (command : Store.Command) :
    (session.execute (.store command)).value =
      (.store (session.store.execute command).value.1,
        { session with store := (session.store.execute command).value.2 }) := rfl

/-! ## What a run yields -/

@[simp] theorem value_run_nil (session : Session) :
    (session.run []).value = ([], session) := rfl

theorem value_run_cons (session : Session) (command : Command)
    (commands : List Command) :
    (session.run (command :: commands)).value =
      ((session.execute command).value.1 ::
          ((session.execute command).value.2.run commands).value.1,
        ((session.execute command).value.2.run commands).value.2) := rfl

end ScopedVariables.Session
