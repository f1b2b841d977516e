import Rdmalib2.Memory.SliceBounds
import Rdmalib2.Memory.SubSlices
import Rdmalib2.Verb.Coherence
import Rdmalib2.Verb.AtomicGate
import Rdmalib2.Verb.Lengths
import Rdmalib2.Verb.Copies
import Rdmalib2.Shared.Linked
import Rdmalib2.Verb.Batch
import Rdmalib2.Verb.Rejects
import Rdmalib2.Verb.Chain
import Rdmalib2.Verb.Refusing
import Rdmalib2.Shared.LastWrite
import Rdmalib2.Verb.History
import Rdmalib2.Verb.Mismatch
import Rdmalib2.Cq.Poll
import Rdmalib2.Cq.Turns
import Rdmalib2.Cq.Accounting
import Rdmalib2.Cq.Answers
import Rdmalib2.Cq.PollBounds
import Rdmalib2.Cq.Completions
import Rdmalib2.Cq.Taking
import Rdmalib2.Cq.Agreement
import Rdmalib2.Cq.Failing
import Rdmalib2.Cq.Stopping
import Rdmalib2.Cq.Waiting
import Rdmalib2.Cq.Simulation
import Rdmalib2.Session.Adapter
import Rdmalib2.Session.Session
import Rdmalib2.Session.Delivery
import Rdmalib2.Session.Waiting
import Rdmalib2.Qp.Context
import Rdmalib2.Qp.Qp
import Rdmalib2.Qp.Ports
import Rdmalib2.Qp.Ladder
import Rdmalib2.Shared.Ownership
import Rdmalib2.Objects.Classes
import Rdmalib2.Objects.World
import Rdmalib2.Objects.Ownership
import Rdmalib2.Objects.Lifecycle
import Rdmalib2.Objects.Moving
import Rdmalib2.Objects.Steps
import Rdmalib2.Objects.Frame
import Rdmalib2.Objects.Slices
import Rdmalib2.Shared.Refines
import Rdmalib2.Objects.References
import Rdmalib2.Objects.Issued
import Rdmalib2.Shared.Precedes
import Rdmalib2.Cm.Protocol
import Rdmalib2.Cm.Parties
import Rdmalib2.Cm.Invariant
import Rdmalib2.Cm.Pairing
import Rdmalib2.Shared.Progress
import Rdmalib2.Cm.Steps
import Rdmalib2.Cm.Progress
import Rdmalib2.Cm.Liveness
import Rdmalib2.Cm.Handler
import Rdmalib2.Cm.Sequential
import Rdmalib2.Cm.Stops
import Rdmalib2.Cm.Lifetimes
import Rdmalib2.Shared.Trial
import Rdmalib2.Process.Exit
import Rdmalib2.Process.Construct
import Rdmalib2.Process.PortTable
import Rdmalib2.Process.Operations
import Rdmalib2.Shared.Piled
import Rdmalib2.Process.Attributes
import Rdmalib2.Process.Handed
import Rdmalib2.Process.Scopes
import Rdmalib2.Process.Destruction
import Rdmalib2.Process.Orderly
import Rdmalib2.Process.Callback
