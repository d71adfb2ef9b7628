/-
  Operations and their results (`engine/operation.rs`, `engine/event.rs`).

  A reply channel is a `Ticket`: a fresh number per call.  A channel is single-use, so everything
  there is to know about it is which values were sent under its ticket; those sends are entries of
  the history kept by the engine, and whether anybody still listens changes nothing.  Streaming
  operations name their chunk channel by a `StreamId`.

  `run_owned_operation` always pairs an operation with a result of its own kind, and `deliver` has
  an `unreachable!` arm for every other pair.  `Finished` carries that fact, so `deliver` is total.
-/
import AtomicBlobStore.Error

namespace AtomicBlobStore

/-- The identity of a single-use reply channel. -/
abbrev Ticket := Nat

/-- The identity of a chunk channel. -/
abbrev StreamId := Nat

/-- `SaveStreamMessage`: what a streaming save is fed.  A stream that ends without `complete` was given
    up by its sender, which is how the worker tells an end of input from a caller that is gone. -/
inductive SaveStreamMessage
  /-- More of the payload. -/
  | chunk (bytes : List UInt8)
  /-- The payload has ended. -/
  | complete
  deriving DecidableEq, Repr

/-- `Operation`: a request on one key, with the sender of its reply channel.  The two streaming
    operations also hold an end of their chunk channel; what goes through it is the business of their
    job and its caller, and the coordinator never looks at it. -/
inductive Operation
  /-- `load`, answered with the payload. -/
  | load (sender : Ticket)
  /-- `load_into`, with the sender of the chunks and the receiver of an acknowledgement. -/
  | loadStream (chunks acknowledgement : Option StreamId) (sender : Ticket)
  /-- `save`, with the payload at hand. -/
  | save (payload : List UInt8) (sender : Ticket)
  /-- `save_from`, with the receiver of the chunks. -/
  | saveStream (declaredLen : Nat) (chunks : StreamId) (sender : Ticket)
  /-- `clear`. -/
  | clear (sender : Ticket)
  /-- `inspect`. -/
  | inspect (sender : Ticket)
  /-- `quarantine`. -/
  | quarantine (sender : Ticket)
  deriving DecidableEq, Repr

/-- The reply channel of an operation. -/
def Operation.sender : Operation → Ticket
  | .load sender => sender
  | .loadStream _ _ sender => sender
  | .save _ sender => sender
  | .saveStream _ _ sender => sender
  | .clear sender => sender
  | .inspect sender => sender
  | .quarantine sender => sender

/-- `BlockingResult`: the result of an operation that ran on a worker. -/
inductive BlockingResult
  | load (result : Except AtomicBlobStoreError (Option (List UInt8)))
  | loadStream (result : Except AtomicBlobStoreError (Option BlobMetadata))
  | save (result : Except AtomicBlobStoreError Unit)
  | saveStream (result : Except AtomicBlobStoreError Unit)
  | clear (result : Except AtomicBlobStoreError Unit)
  | inspect (result : Except AtomicBlobStoreError BlobInspection)
  | quarantine (result : Except AtomicBlobStoreError QuarantineInfo)

/-- The pairs that `deliver` has an arm for. -/
def Operation.accepts : Operation → BlockingResult → Bool
  | .load .., .load _ => true
  | .loadStream .., .loadStream _ => true
  | .save .., .save _ => true
  | .saveStream .., .saveStream _ => true
  | .clear .., .clear _ => true
  | .inspect .., .inspect _ => true
  | .quarantine .., .quarantine _ => true
  | _, _ => false

/-- What `deliver_error` sends on the reply channel of an operation. -/
def Operation.failure (e : AtomicBlobStoreError) : Operation → BlockingResult
  | .load .. => .load (.error e)
  | .loadStream .. => .loadStream (.error e)
  | .save .. => .save (.error e)
  | .saveStream .. => .saveStream (.error e)
  | .clear .. => .clear (.error e)
  | .inspect .. => .inspect (.error e)
  | .quarantine .. => .quarantine (.error e)

/-- An operation that ran, with a result of its own kind.  The proof is made where the operation is run
    (`Concludes`), so the arm that the source calls unreachable cannot be written down. -/
structure Finished where
  /-- The operation, which still holds its reply sender. -/
  operation : Operation
  /-- What it came to. -/
  result : BlockingResult
  /-- The result is one of its own kind. -/
  kinds : operation.accepts result = true

/-- The value sent on a reply channel. -/
inductive Reply
  /-- To an operation. -/
  | operation (result : BlockingResult)
  /-- To a maintenance request. -/
  | cleanup (result : Except AtomicBlobStoreError CleanupReport)
  /-- To a flush or a close. -/
  | unit (result : Except AtomicBlobStoreError Unit)

/-! ## Events

  Everything the coordinator hears of comes through one channel: the requests of callers, and the ends
  of jobs, which workers send themselves.  A request that has to wait is kept as a `PendingEvent`; the
  end of a job never waits. -/

/-- `Submission`.  Its `completion_sender` is a clone of the sender of the event channel; what
    depends on it is only that the channel stays connected (`Engine.Disconnected`). -/
structure Submission where
  /-- The hash of the key. -/
  keyHash : KeyHash
  /-- What is to be done with it. -/
  operation : Operation
  deriving DecidableEq, Repr

/-- `MaintenanceSubmission`; `minimumAge` is in ticks. -/
structure MaintenanceSubmission where
  /-- The least age of a file that may be cleaned up; without one there is nothing to do. -/
  minimumAge : Option Nat
  /-- The reply channel. -/
  sender : Ticket
  deriving DecidableEq, Repr

/-- `CloseSubmission`. -/
structure CloseSubmission where
  sender : Ticket
  deriving DecidableEq, Repr

/-- `PendingEvent`: a request that waits for the coordinator.  The model also uses it for a request on
    its way there: `PendingEvent.event` is the event that carries it. -/
inductive PendingEvent
  | submission (submission : Submission)
  | maintenance (submission : MaintenanceSubmission)
  | flush (sender : Ticket)
  | close (submission : CloseSubmission)
  deriving DecidableEq, Repr

/-- `Completion`: the end of a job.  `outcome` is absent when the operation panicked. -/
structure Completion where
  keyHash : KeyHash
  outcome : Option Finished

/-- `MaintenanceOutcome`. -/
structure MaintenanceOutcome where
  sender : Ticket
  result : Except AtomicBlobStoreError CleanupReport

/-- `MaintenanceCompletion`. -/
structure MaintenanceCompletion where
  outcome : Option MaintenanceOutcome

/-- `CoordinatorEvent`. -/
inductive CoordinatorEvent
  | submission (submission : Submission)
  | completion (completion : Completion)
  | maintenance (submission : MaintenanceSubmission)
  | maintenanceCompletion (completion : MaintenanceCompletion)
  | flush (sender : Ticket)
  | close (submission : CloseSubmission)

/-- The event that carries a request. -/
def PendingEvent.event : PendingEvent → CoordinatorEvent
  | .submission sub => .submission sub
  | .maintenance sub => .maintenance sub
  | .flush sender => .flush sender
  | .close sub => .close sub

/-- The request an event carries, if it is not the end of a job. -/
def CoordinatorEvent.request? : CoordinatorEvent → Option PendingEvent
  | .submission sub => some (.submission sub)
  | .maintenance sub => some (.maintenance sub)
  | .flush sender => some (.flush sender)
  | .close sub => some (.close sub)
  | .completion _ => none
  | .maintenanceCompletion _ => none

/-- `matches!(event, PendingEvent::Close(_))`. -/
def PendingEvent.isClose : PendingEvent → Bool
  | .close _ => true
  | _ => false

/-- Flush and maintenance are barriers. -/
def PendingEvent.isBarrier : PendingEvent → Bool
  | .maintenance _ => true
  | .flush _ => true
  | _ => false

/-! ## Who is waiting

  The history speaks of requests by their origin, which stays the same while the request is an event, a
  pending event, a queued operation, a job and the outcome of a job. -/

/-- Who asked: the reply channel, and for an operation the key it is about. -/
structure Origin where
  /-- The key, unless the request is about the whole store. -/
  key : Option KeyHash
  /-- The reply channel, which is nobody else's. -/
  sender : Ticket
  deriving DecidableEq, Repr

/-- The origin of an operation on a key. -/
def Operation.origin (key : KeyHash) (op : Operation) : Origin := ⟨some key, op.sender⟩

/-- The origin of a request. -/
def PendingEvent.origin : PendingEvent → Origin
  | .submission sub => sub.operation.origin sub.keyHash
  | .maintenance sub => ⟨none, sub.sender⟩
  | .flush sender => ⟨none, sender⟩
  | .close sub => ⟨none, sub.sender⟩

/-- Whose outcome the end of a job carries. -/
def CoordinatorEvent.outcome? : CoordinatorEvent → Option Origin
  | .completion done => done.outcome.map fun f => f.operation.origin done.keyHash
  | .maintenanceCompletion done => done.outcome.map fun o => ⟨none, o.sender⟩
  | _ => none

@[simp] theorem PendingEvent.request?_event (r : PendingEvent) : r.event.request? = some r := by
  cases r <;> rfl

@[simp] theorem PendingEvent.outcome?_event (r : PendingEvent) : r.event.outcome? = none := by
  cases r <;> rfl

section Requests

variable (sub : Submission) (maintenance : MaintenanceSubmission) (sender : Ticket)
  (last : CloseSubmission) (done : Completion) (cleaned : MaintenanceCompletion)

@[simp] theorem request?_submission :
    (CoordinatorEvent.submission sub).request? = some (.submission sub) := rfl
@[simp] theorem request?_maintenance :
    (CoordinatorEvent.maintenance maintenance).request? = some (.maintenance maintenance) := rfl
@[simp] theorem request?_flush :
    (CoordinatorEvent.flush sender).request? = some (.flush sender) := rfl
@[simp] theorem request?_close :
    (CoordinatorEvent.close last).request? = some (.close last) := rfl
@[simp] theorem request?_completion : (CoordinatorEvent.completion done).request? = none := rfl
@[simp] theorem request?_maintenanceCompletion :
    (CoordinatorEvent.maintenanceCompletion cleaned).request? = none := rfl

@[simp] theorem outcome?_submission : (CoordinatorEvent.submission sub).outcome? = none := rfl
@[simp] theorem outcome?_close : (CoordinatorEvent.close last).outcome? = none := rfl
@[simp] theorem outcome?_completion : (CoordinatorEvent.completion done).outcome? =
    done.outcome.map fun f => f.operation.origin done.keyHash := rfl
@[simp] theorem outcome?_maintenanceCompletion :
    (CoordinatorEvent.maintenanceCompletion cleaned).outcome? =
      cleaned.outcome.map fun o => ⟨none, o.sender⟩ := rfl

end Requests

end AtomicBlobStore
