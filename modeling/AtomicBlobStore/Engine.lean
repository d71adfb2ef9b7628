/-
  The state of one open store (`engine/mod.rs`, `engine/lifecycle.rs`, `engine/workers.rs`).

  `Engine` holds what the threads share (the lifecycle under its lock, the event channel, the
  number of live handles), what the coordinator thread owns (the queues, the active keys, the
  pending list, the maintenance flag, the worker pool) and a history of what became visible.  The
  history is written and never read.

  A dispatch depends on things outside the program: whether a thread can be spawned, whether the
  test hook of `prepare_dispatch` lets it pass, and which idle key the hash map yields first.  Each
  attempt draws one `Fate`; a run is given the sequence of fates and `clock` counts the draws, so a
  statement about every sequence is a statement about every choice.
-/
import AtomicBlobStore.Operation
import AtomicBlobStore.Lib.KeyedQueues

namespace AtomicBlobStore

/-- `Lifecycle`.  It is `opened` until the coordinator handles the first close, then `closing`, and in
    the end `closed` or `shutdownFailed`, by how the workers were joined; `failed` after the coordinator
    panicked.  Callers read it under its lock before they send anything. -/
inductive Lifecycle
  /-- Calls are accepted. -/
  | opened
  /-- A close was handled: other calls are refused, and what was accepted goes on. -/
  | closing
  /-- The workers were joined, and none of them had panicked. -/
  | closed
  /-- The workers were joined, and one of them had panicked. -/
  | shutdownFailed
  /-- The coordinator panicked. -/
  | failed
  deriving DecidableEq, Repr

/-! ## Workers

  The pool has a job channel, a number of threads and a bound on it.  Threads are spawned when a
  dispatch needs one more than there are, and never end before the channel is closed.  Which thread runs
  which job cannot be told from outside, so the threads are a number and the jobs two lists. -/

/-- `WorkerJob`: what a boxed closure was built from. -/
inductive WorkerJob
  | operation (keyHash : KeyHash) (operation : Operation)
  | maintenance (submission : MaintenanceSubmission)
  deriving DecidableEq, Repr

/-- Who waits for a job. -/
def WorkerJob.origin : WorkerJob → Origin
  | .operation keyHash op => op.origin keyHash
  | .maintenance sub => ⟨none, sub.sender⟩

/-- The key a job works on. -/
def WorkerJob.key? : WorkerJob → Option KeyHash
  | .operation keyHash _ => some keyHash
  | .maintenance _ => none

/-- `WorkerPool`: `sender` says whether the job channel is still open for sending, `jobs` is what is
    in it, `running` is what the `handles` threads are executing. -/
structure WorkerPool where
  /-- The job channel can be sent to. -/
  sender : Bool
  /-- The threads that were spawned. -/
  handles : Nat
  /-- How many there may be. -/
  capacity : Nat
  /-- The job channel. -/
  jobs : List WorkerJob
  /-- The jobs that threads have taken, at most one each. -/
  running : List WorkerJob

namespace WorkerPool

/-- `WorkerPool::new`. -/
def new (capacity : Nat) : WorkerPool := ⟨true, 0, capacity, [], []⟩

/-- The loop of `prepare`, by the number of threads still missing. -/
def spawnMissing (spawn : Nat → Bool) : Nat → WorkerPool → Except AtomicBlobStoreError Unit × WorkerPool
  | 0, pool => (.ok (), pool)
  | missing + 1, pool =>
    if spawn pool.handles then spawnMissing spawn missing { pool with handles := pool.handles + 1 }
    else (.error .workerUnavailable, pool)

/-- `prepare`: spawn threads until there are as many as required, or as the capacity allows. -/
def prepare (pool : WorkerPool) (spawn : Nat → Bool) (requiredWorkers : Nat) :
    Except AtomicBlobStoreError Unit × WorkerPool :=
  spawnMissing spawn (min requiredWorkers pool.capacity - pool.handles) pool

/-- `prepare_dispatch`. -/
def prepareDispatch (dispatch : Bool) : Except AtomicBlobStoreError Unit :=
  if dispatch then .ok () else .error .workerUnavailable

/-- `execute`: the pool keeps a receiver of its own job channel, so sending fails only once the
    sender has been taken. -/
def execute (pool : WorkerPool) (job : WorkerJob) : Except AtomicBlobStoreError WorkerPool :=
  if pool.sender then .ok { pool with jobs := pool.jobs ++ [job] } else .error .workerUnavailable

end WorkerPool

/-- The luck of one dispatch: which threads can be spawned, whether `prepare_dispatch` passes, and
    which of the idle keys the hash map yields. -/
structure Fate where
  /-- Which of the threads a dispatch asks for can be spawned. -/
  spawn : Nat → Bool
  /-- Whether the dispatch itself works out. -/
  dispatch : Bool
  /-- Which of the idle keys the hash map yields first. -/
  pick : Nat

/-! ## What becomes visible

  The history is what properties of runs are stated about: when an event entered and left the channel,
  when a request was released to its queue, dispatched, executed and answered, and by whom.  Nothing in
  the model reads it, so leaving it out would leave every run as it is. -/

/-- One entry of the history.  Requests appear under their origin from the moment they are queued,
    since what they ask for plays no part any more. -/
inductive Observation
  /-- A request's event was sent on the event channel. -/
  | entered (r : PendingEvent)
  /-- The coordinator took a request's event from the channel. -/
  | received (r : PendingEvent)
  /-- An accepted operation reached its key's queue, or an accepted barrier took effect. -/
  | released (r : PendingEvent)
  /-- An operation was taken from its queue, or a maintenance job prepared, for dispatch. -/
  | begun (o : Origin)
  /-- A worker thread started a job. -/
  | executed (o : Origin)
  /-- The coordinator sent the outcome of a job. -/
  | delivered (o : Origin) (reply : Reply)
  /-- The coordinator sent an error of its own instead. -/
  | rejected (o : Origin) (e : AtomicBlobStoreError)
  /-- The coordinator answered a flush or a close. -/
  | answered (o : Origin) (result : Except AtomicBlobStoreError Unit)
  /-- A job dropped the reply sender without a value. -/
  | lost (o : Origin)
  /-- A call was resolved by the calling thread, without an event. -/
  | resolved (r : PendingEvent) (result : Except AtomicBlobStoreError Unit)
  /-- The worker pool was shut down. -/
  | stopped (ok : Bool)
  /-- The lifecycle changed. -/
  | moved (lifecycle : Lifecycle)

/-! ## The state

  One record for all threads.  What a lock guards is read and written in one step of `Step`; what the
  coordinator thread owns changes in its steps only. -/

/-- Where the coordinator thread is: in its loop, joining the workers, answering what is left in the
    channel, out of `run_scheduler` with the receiver still alive, or gone together with it. -/
inductive Phase
  /-- In the loop of `run_scheduler`. -/
  | running
  /-- Out of the loop, with closes to answer: it waits for the workers. -/
  | joining
  /-- The closes are answered, with `ok`, and the channel is being emptied. -/
  | draining (ok : Bool)
  /-- `run_scheduler` has returned. -/
  | returned
  /-- The thread has ended, and the receiver is gone. -/
  | dropped
  deriving DecidableEq, Repr

/-- One open store.

    Reply channels are one-shot and are numbered by `issued` in the order in which calls create them, so
    a request is told from every other one by its ticket.  `abandoned` are those whose future was
    dropped: a reply is sent to them as to any other, and is lost. -/
structure Engine where
  /-- The lifecycle, under its lock. -/
  lifecycle : Lifecycle
  /-- The event channel. -/
  channel : List CoordinatorEvent
  /-- Live `EngineHandle`s. -/
  handles : Nat
  /-- The next unused reply channel. -/
  issued : Ticket
  /-- Reply channels nobody listens to any more. -/
  abandoned : List Ticket
  /-- Where the coordinator is. -/
  phase : Phase
  /-- `queues`: what is waiting for its key. -/
  queues : KeyedQueues KeyHash Operation
  /-- `active`: the keys with a job. -/
  active : Finset KeyHash
  /-- `pending`: what is waiting behind a barrier. -/
  pending : List PendingEvent
  /-- `maintenance_active`. -/
  maintenanceActive : Bool
  /-- `worker_pool`. -/
  pool : WorkerPool
  /-- The `outcome` local to the `Completion` arm; absent between two events. -/
  outcome : Option (KeyHash × Finished)
  /-- How many fates have been drawn. -/
  clock : Nat
  /-- What has happened so far. -/
  log : List Observation

/-- The state `EngineHandle::from_config` leaves: one handle, everything empty.  The thread of the
    coordinator waits for its first event, and no worker was spawned. -/
def Engine.initial (config : StoreConfig) : Engine where
  lifecycle := .opened
  channel := []
  handles := 1
  issued := 0
  abandoned := []
  phase := .running
  queues := ∅
  active := ∅
  pending := []
  maintenanceActive := false
  pool := .new config.maxConcurrentOperations
  outcome := none
  clock := 0
  log := []

/-- `!active.is_empty() || queues.values().any(|queue| !queue.is_empty())`. -/
def Engine.busy (s : Engine) : Bool := decide (s.active ≠ ∅) || !s.queues.allEmpty

theorem Engine.busy_eq_false {s : Engine} :
    s.busy = false ↔ s.active = ∅ ∧ ∀ k, s.queues.queue k = [] := by
  unfold Engine.busy
  rw [Bool.or_eq_false_iff, decide_eq_false_iff_not, not_not, Bool.not_eq_false',
    KeyedQueues.allEmpty_iff]

end AtomicBlobStore
