import ScopedVariables.Handle
import ScopedVariables.ElementType.Descriptor
import ScopedVariables.ElementType.Table
import ScopedVariables.Variable.Payload
import ScopedVariables.Variable.Basic
import ScopedVariables.Variable.Write
import ScopedVariables.Log.Record
import ScopedVariables.Log.Text
import ScopedVariables.Log.Logged
import ScopedVariables.Store.Arena
import ScopedVariables.Store.Chain
import ScopedVariables.Store.Lookup
import ScopedVariables.Store.Link
import ScopedVariables.Store.Operation
import ScopedVariables.Store.Command
import ScopedVariables.Scope.Stack
import ScopedVariables.Session.Error
import ScopedVariables.Session.Basic
import ScopedVariables.Session.Declaration
import ScopedVariables.Session.Lifecycle
import ScopedVariables.Session.Command
import ScopedVariables.Proofs.Log.Reading
import ScopedVariables.Proofs.ElementType.Registration
import ScopedVariables.Proofs.Variable.Fitting
import ScopedVariables.Proofs.Store.Following
import ScopedVariables.Proofs.Store.Slots
import ScopedVariables.Proofs.Store.Sequence
import ScopedVariables.Proofs.Store.Walk
import ScopedVariables.Proofs.Store.Represents
import ScopedVariables.Proofs.Store.Linking
import ScopedVariables.Proofs.Store.Unlinking
import ScopedVariables.Proofs.Store.Clearing
import ScopedVariables.Proofs.Store.Operations
import ScopedVariables.Proofs.Store.Refinement
import ScopedVariables.Proofs.Store.ScopeChain
import ScopedVariables.Proofs.Store.Issue
import ScopedVariables.Proofs.Store.Aliasing
import ScopedVariables.Proofs.Store.Pairing
import ScopedVariables.Proofs.Store.Independence
import ScopedVariables.Proofs.Store.Isolation
import ScopedVariables.Proofs.Store.Report
import ScopedVariables.Proofs.Store.Ownership
import ScopedVariables.Proofs.Scope.Order
import ScopedVariables.Proofs.Scope.Renewal
import ScopedVariables.Proofs.Session.Reachable
import ScopedVariables.Proofs.Session.Resolution
import ScopedVariables.Proofs.Session.Declarative
import ScopedVariables.Proofs.Session.Discipline
import ScopedVariables.Proofs.Session.ScopeEnd
import ScopedVariables.Proofs.Session.Nesting
import ScopedVariables.Proofs.Session.Block
import ScopedVariables.Proofs.Session.Issue
import ScopedVariables.Proofs.Session.Definitions
import ScopedVariables.Proofs.Session.Workspace
import ScopedVariables.Proofs.Session.Refusal
import ScopedVariables.Proofs.Session.Renewal
import ScopedVariables.Proofs.Session.Tuning
import ScopedVariables.Proofs.Session.Departure
import ScopedVariables.Proofs.Scope.Brackets
import ScopedVariables.Proofs.Store.Neighbours
import ScopedVariables.Proofs.Store.Contents
import ScopedVariables.Proofs.Store.RemovalOrder
import ScopedVariables.Proofs.ElementType.Indexes
import ScopedVariables.Proofs.Session.Depth
import ScopedVariables.Proofs.Store.Turns
import ScopedVariables.Proofs.Store.Accounting
import ScopedVariables.Proofs.Store.Reuse
import ScopedVariables.Proofs.Store.Loop
