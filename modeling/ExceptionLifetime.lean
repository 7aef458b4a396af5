import ExceptionLifetime.Count
import ExceptionLifetime.Handle.Set
import ExceptionLifetime.Hierarchy.Catching
import ExceptionLifetime.Storage.Bump
import ExceptionLifetime.Storage.Heap
import ExceptionLifetime.Step
import ExceptionLifetime.Context.Operation
import ExceptionLifetime.Control
import ExceptionLifetime.Slot
import ExceptionLifetime.Proofs.Nesting
import ExceptionLifetime.Proofs.Lifetime
import ExceptionLifetime.Proofs.InFlight
import ExceptionLifetime.Proofs.Naming
import ExceptionLifetime.Proofs.Uncaught
import ExceptionLifetime.Proofs.Endings
import ExceptionLifetime.Proofs.Rethrow
import ExceptionLifetime.Proofs.Matched
import ExceptionLifetime.Proofs.Builds
import ExceptionLifetime.Proofs.Replay
import ExceptionLifetime.Proofs.Restore
import ExceptionLifetime.Proofs.Cleanup
import ExceptionLifetime.Hierarchy.Declaration
import ExceptionLifetime.Proofs.Inheritance
import ExceptionLifetime.Proofs.Sizes
import ExceptionLifetime.Proofs.Blocks
import ExceptionLifetime.Proofs.Lending
import ExceptionLifetime.Proofs.Unwinding
import ExceptionLifetime.Proofs.Subobject
import ExceptionLifetime.Proofs.Selection
import ExceptionLifetime.Proofs.LandingPads
import ExceptionLifetime.Proofs.CutShort
import ExceptionLifetime.Proofs.Catchability
import ExceptionLifetime.Proofs.Interning
import ExceptionLifetime.Proofs.Binding
import ExceptionLifetime.Proofs.Interleaving
