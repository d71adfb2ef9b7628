import AtomicBlobStore.Lib.BigEndian
import AtomicBlobStore.Lib.Source
import AtomicBlobStore.Lib.Transition
import AtomicBlobStore.Lib.History
import AtomicBlobStore.Lib.KeyedQueues
import AtomicBlobStore.Lib.FeedbackRegister
import AtomicBlobStore.Lib.Prog
import AtomicBlobStore.Lib.Channel
import AtomicBlobStore.Lib.Loop
import AtomicBlobStore.Lib.KeyedMachine
import AtomicBlobStore.Config
import AtomicBlobStore.Error
import AtomicBlobStore.Format
import AtomicBlobStore.Decoding
import AtomicBlobStore.Robustness
import AtomicBlobStore.Names
import AtomicBlobStore.WidePath
import AtomicBlobStore.Operation
import AtomicBlobStore.Namespace
import AtomicBlobStore.Filesystem
import AtomicBlobStore.Engine
import AtomicBlobStore.Scheduler
import AtomicBlobStore.Moves
import AtomicBlobStore.Ledger
import AtomicBlobStore.Invariants
import AtomicBlobStore.Lawful
import AtomicBlobStore.Runs
import AtomicBlobStore.Guarantees
import AtomicBlobStore.LastHandle
import AtomicBlobStore.Unwinding
import AtomicBlobStore.CoordinatorLoss
import AtomicBlobStore.CloseCallers
import AtomicBlobStore.StreamEnvelope
import AtomicBlobStore.OldOrNew
import AtomicBlobStore.Jobs
import AtomicBlobStore.Quarantine
import AtomicBlobStore.Initialize
import AtomicBlobStore.Durability
import AtomicBlobStore.Facade
import AtomicBlobStore.SaveFrom
import AtomicBlobStore.StreamingSave
import AtomicBlobStore.SaveResults
import AtomicBlobStore.StreamRetry
import AtomicBlobStore.LoadInto
import AtomicBlobStore.StreamingLoad
import AtomicBlobStore.LoadResults
import AtomicBlobStore.FacadesAgree
import AtomicBlobStore.Presence
import AtomicBlobStore.DispatchLoops
import AtomicBlobStore.Registry
import AtomicBlobStore.Workers
import AtomicBlobStore.Cleanup
import AtomicBlobStore.Entries
import AtomicBlobStore.Store
import AtomicBlobStore.Isolation
import AtomicBlobStore.JobErrors
import AtomicBlobStore.OpenSends
import AtomicBlobStore.Reference
import AtomicBlobStore.Refinement
import AtomicBlobStore.Overlap
import AtomicBlobStore.Outcomes
import AtomicBlobStore.Sessions
import AtomicBlobStore.Answers
import AtomicBlobStore.Litter
import AtomicBlobStore.Footprint
import AtomicBlobStore.Progress
