/-
  The LEDGER of a store: where every request is.

  A request that entered the channel is in one of these places until it is resolved: its event in
  the channel, the pending list, the queue of its key, a job that waits for a worker or runs, or the
  outcome on its way back.  `Engine.places` and `queuedIn` list them, and the history gives the
  order in which requests passed each stage.  `Inv` relates the two:

    entered   = received ++ (the requests still in the channel)
    accepted  = released ++ (what is pending)          where accepted is everything before a close
    released  = begun ++ (the queue), key by key
    entered   = the sum over all places, counted by origin

  together with what ties jobs to the active set and the maintenance flag.
-/
import AtomicBlobStore.Moves
import AtomicBlobStore.Lib.History

namespace AtomicBlobStore

/-! ## Reading the history

  Each view below shows one kind of entry.  A property of runs is stated by comparing views, and a move
  is described by what it appends to each of them. -/

namespace Observation

@[simp] def entered? : Observation → Option PendingEvent
  | .entered r => some r
  | _ => none

@[simp] def received? : Observation → Option PendingEvent
  | .received r => some r
  | _ => none

@[simp] def released? : Observation → Option PendingEvent
  | .released r => some r
  | _ => none

@[simp] def begun? : Observation → Option Origin
  | .begun o => some o
  | _ => none

@[simp] def executed? : Observation → Option Origin
  | .executed o => some o
  | _ => none

/-- Whose request an entry resolves. -/
@[simp] def resolves? : Observation → Option Origin
  | .delivered o _ => some o
  | .rejected o _ => some o
  | .answered o _ => some o
  | .lost o => some o
  | _ => none

/-- Whose job an entry shows to have ended. -/
@[simp] def ended? : Observation → Option Origin
  | .delivered o _ => some o
  | .lost o => some o
  | _ => none

@[simp] def moved? : Observation → Option Lifecycle
  | .moved lifecycle => some lifecycle
  | _ => none

end Observation

/-- The requests whose events entered the channel, in order. -/
abbrev entered (log : List Observation) : List PendingEvent := log.filterMap Observation.entered?
/-- The requests the coordinator took from the channel, in order. -/
abbrev received (log : List Observation) : List PendingEvent := log.filterMap Observation.received?
/-- The requests that left the pending stage, in order. -/
abbrev released (log : List Observation) : List PendingEvent := log.filterMap Observation.released?
/-- Whose operations and maintenance jobs were taken for dispatch, in order. -/
abbrev begun (log : List Observation) : List Origin := log.filterMap Observation.begun?
/-- Whose jobs a worker started, in order. -/
abbrev executed (log : List Observation) : List Origin := log.filterMap Observation.executed?
/-- Whose requests were resolved, in order. -/
abbrev resolutions (log : List Observation) : List Origin := log.filterMap Observation.resolves?
/-- Whose jobs ended, in order. -/
abbrev ended (log : List Observation) : List Origin := log.filterMap Observation.ended?
/-- The changes of the lifecycle, in order. -/
abbrev moved (log : List Observation) : List Lifecycle := log.filterMap Observation.moved?

section Append

variable (log more : List Observation)

theorem entered_append : entered (log ++ more) = entered log ++ entered more :=
  List.filterMap_append
theorem received_append : received (log ++ more) = received log ++ received more :=
  List.filterMap_append
theorem released_append : released (log ++ more) = released log ++ released more :=
  List.filterMap_append
theorem begun_append : begun (log ++ more) = begun log ++ begun more := List.filterMap_append
theorem resolutions_append : resolutions (log ++ more) = resolutions log ++ resolutions more :=
  List.filterMap_append

end Append

/-- Everything before the first close. -/
abbrev beforeClose (rs : List PendingEvent) : List PendingEvent := rs.takeWhile fun r => !r.isClose
/-- The first close and everything after it. -/
abbrev afterClose (rs : List PendingEvent) : List PendingEvent := rs.dropWhile fun r => !r.isClose

/-- The origin of a request that is an operation on the key. -/
def PendingEvent.on? (k : KeyHash) : PendingEvent → Option Origin
  | .submission sub => if sub.keyHash = k then some (sub.operation.origin sub.keyHash) else none
  | _ => none

/-! ## Places

  A request in the channel, in a list or in a job is a value there, and counting origins over all places
  says that it is neither lost nor doubled.  Queues are counted apart, since they are a map. -/

/-- The key whose job an event ends. -/
def CoordinatorEvent.key? : CoordinatorEvent → Option KeyHash
  | .completion done => some done.keyHash
  | _ => none

/-- The event ends a maintenance job. -/
def CoordinatorEvent.isMaintenanceCompletion : CoordinatorEvent → Bool
  | .maintenanceCompletion _ => true
  | _ => false

/-- The job is a maintenance job. -/
@[simp] def WorkerJob.isMaintenance : WorkerJob → Bool
  | .maintenance _ => true
  | .operation .. => false

@[simp] theorem PendingEvent.key?_event (r : PendingEvent) : r.event.key? = none := by
  cases r <;> rfl

@[simp] theorem PendingEvent.isMaintenanceCompletion_event (r : PendingEvent) :
    r.event.isMaintenanceCompletion = false := by
  cases r <;> rfl

/-- How often an origin is queued under its key. -/
def queuedIn (queues : KeyedQueues KeyHash Operation) (o : Origin) : Nat :=
  match o.key with
  | none => 0
  | some k => ((queues.queue k).map (Operation.origin k)).count o

namespace Engine

/-- How often an origin is queued under its key. -/
abbrev queued (s : Engine) (o : Origin) : Nat := queuedIn s.queues o

/-- The requests in the channel. -/
abbrev requests (s : Engine) : List PendingEvent := s.channel.filterMap CoordinatorEvent.request?

/-- Whose outcomes are in the channel. -/
abbrev outcomes (s : Engine) : List Origin := s.channel.filterMap CoordinatorEvent.outcome?

/-- Every place but the queues, from the channel over the pending list, the two lists of jobs, the
    channel again and the outcome in the coordinator's hands to the history of what was resolved. -/
def places (s : Engine) : List Origin :=
  s.requests.map PendingEvent.origin ++ s.pending.map PendingEvent.origin
    ++ s.pool.jobs.map WorkerJob.origin ++ s.pool.running.map WorkerJob.origin ++ s.outcomes
    ++ s.outcome.toList.map (fun p => p.2.operation.origin p.1) ++ resolutions s.log

/-- The keys of all jobs whose completion has not been handled. -/
def outstanding (s : Engine) : List KeyHash :=
  s.pool.jobs.filterMap WorkerJob.key? ++ s.pool.running.filterMap WorkerJob.key?
    ++ s.channel.filterMap CoordinatorEvent.key?

/-- How many maintenance jobs there are whose completion has not been handled. -/
def maintenanceOutstanding (s : Engine) : Nat :=
  s.pool.jobs.countP WorkerJob.isMaintenance + s.pool.running.countP WorkerJob.isMaintenance
    + s.channel.countP CoordinatorEvent.isMaintenanceCompletion

end Engine

/-- The worker pool was shut down. -/
def Stopped (log : List Observation) : Prop := ∃ ok, .stopped ok ∈ log

/-- The lifecycle and the moves that led to it.  These are all the paths of a store that does not panic;
    the last one is that of a store whose handles were all dropped. -/
inductive LifecyclePath : List Lifecycle → Lifecycle → Prop
  /-- It has not moved. -/
  | opened : LifecyclePath [] .opened
  /-- The first close was handled. -/
  | closing : LifecyclePath [.closing] .closing
  /-- The shutdown is over. -/
  | ended (ok : Bool) : LifecyclePath [.closing, endLifecycle ok] (endLifecycle ok)
  /-- The last handle was dropped, and no close was ever handled. -/
  | dropped : LifecyclePath [.closed] .closed

/-! ## The invariant

  Four groups of facts, and the condition on the history.  They are proved together, one move at a time,
  because each is used for the others: the order of stages for the justification of an answer, the phase
  for the order, the bound on jobs for the phase. -/

/-- The order of requests at each stage.  Each field follows the requests through one place, from what
    came in to what went out. -/
structure Ordered (s : Engine) : Prop where
  /-- The channel is first in, first out. -/
  order : entered s.log = received s.log ++ s.requests
  /-- So is the pending list, for what came before the first close. -/
  accepted : beforeClose (received s.log) = released s.log ++ s.pending.filter fun r => !r.isClose
  /-- Closes are at the end of the pending list. -/
  suffix : s.pending = (s.pending.filter fun r => !r.isClose) ++ s.pending.filter fun r => r.isClose
  /-- So is the queue of each key. -/
  perKey : ∀ k, (released s.log).filterMap (PendingEvent.on? k) =
    (begun s.log).filter (fun o => o.key = some k) ++ (s.queues.queue k).map (Operation.origin k)
  /-- Workers take jobs in the order in which they were prepared. -/
  started : (executed s.log ++ s.pool.jobs.map WorkerJob.origin).Sublist (begun s.log)
  /-- Tickets grow, -/
  fresh : ((entered s.log).map fun r => r.origin.sender).Pairwise (· < ·)
  /-- and are below the next one to be issued, -/
  issued : ∀ r ∈ entered s.log, r.origin.sender < s.issued
  /-- those of calls that were resolved at once included. -/
  callers : ∀ r result, .resolved r result ∈ s.log → r.origin.sender < s.issued ∧
    ∀ r' ∈ entered s.log, r'.origin.sender ≠ r.origin.sender

/-- The lifecycle and the phase of the coordinator.  The phase says what the coordinator does, and the
    lifecycle what callers may do. -/
structure Phased (s : Engine) : Prop where
  /-- The lifecycle took one of the paths there are. -/
  path : LifecyclePath (moved s.log) s.lifecycle
  /-- The lifecycle ends when the pool does. -/
  stopped : Stopped s.log ↔ s.lifecycle = .closed ∨ s.lifecycle = .shutdownFailed
  /-- Until then every close that was received is pending, -/
  running : s.phase = .running ∨ s.phase = .joining →
    s.pending.filter (fun r => r.isClose) = (received s.log).filter fun r => r.isClose
  /-- and the first of them is what closes the store. -/
  alive : s.phase = .running ∨ s.phase = .joining →
    s.lifecycle = if (received s.log).any PendingEvent.isClose then .closing else .opened
  /-- The coordinator leaves its loop for a close. -/
  joining : s.phase = .joining → (received s.log).any PendingEvent.isClose = true
  /-- In the final drain all closes are answered. -/
  draining : ∀ ok, s.phase = .draining ok → s.lifecycle = endLifecycle ok ∧
    (received s.log).any PendingEvent.isClose = true ∧ s.pending = []
  /-- A coordinator that has returned has left nothing behind. -/
  gone : s.phase = .returned ∨ s.phase = .dropped → (s.lifecycle = .closed ∨
    s.lifecycle = .shutdownFailed) ∧ s.channel = [] ∧ s.pending = []
  /-- As long as the coordinator is in its loop, jobs reach the workers. -/
  sender : s.phase = .running → s.pool.sender = true
  /-- It leaves the loop with nothing to do but closes. -/
  idle : s.phase ≠ .running → s.busy = false ∧ s.maintenanceActive = false ∧ s.outcome = none ∧
    s.pending.filter (fun r => !r.isClose) = []

variable (config : StoreConfig) in
/-- Jobs, the active set and the maintenance flag.  These are the coordinator's own records, compared
    with the jobs that there are. -/
structure Scheduled (s : Engine) : Prop where
  /-- A key is active as long as there is a job on it whose completion was not handled: one job, no
      more. -/
  active : ∀ k, s.outstanding.count k = if k ∈ s.active then 1 else 0
  /-- The maintenance flag is the same for maintenance jobs. -/
  maintenance : s.maintenanceOutstanding = s.maintenanceActive.toNat
  /-- Maintenance has the store to itself. -/
  exclusive : s.maintenanceActive = true → s.busy = false
  /-- There are no more active keys than the configuration allows. -/
  bounded : s.active.card ≤ config.maxConcurrentOperations
  /-- The pool was made for as many. -/
  capacity : s.pool.capacity = config.maxConcurrentOperations
  /-- There is a thread for every job. -/
  threads : s.pool.jobs.length + s.pool.running.length ≤ s.pool.handles

/-- Every request is accounted for.  The sums run over the places in which a request can be, and over
    those in which a job can be. -/
structure Accounted (s : Engine) : Prop where
  /-- What entered is in one place. -/
  conserved : ∀ o, s.places.count o + s.queued o = ((entered s.log).map PendingEvent.origin).count o
  /-- A job that was started runs, is on its way back, or has ended. -/
  jobs : ∀ o, (executed s.log).count o = (s.pool.running.map WorkerJob.origin).count o +
    s.outcomes.count o + (s.outcome.toList.map fun p => p.2.operation.origin p.1).count o +
    (ended s.log).count o
  begunReleased : ∀ o ∈ begun s.log, ∃ r ∈ released s.log, r.origin = o
  /-- The coordinator refuses for two reasons only: the pool, or a close that came first. -/
  rejections : ∀ o e, .rejected o e ∈ s.log → e = .workerUnavailable ∧ o ∈ begun s.log ∨
    e = .storeClosed ∧ ∃ r ∈ afterClose (received s.log), r.isClose = false ∧ r.origin = o
  /-- What comes after a close is refused. -/
  dismissed : ∀ r ∈ afterClose (received s.log), r.isClose = false →
    .rejected r.origin .storeClosed ∈ s.log

/-! ## What the history justifies

  An entry may only be written when the history before it allows it.  This is how a property such as "a
  flush is answered after everything ahead of it" becomes an invariant: the answer is an entry, and what
  it waits for are earlier ones. -/

/-- A barrier takes effect: everything ahead of it is resolved, and nothing else has begun. -/
def TakesEffect (log : List Observation) (o : Origin) : Prop :=
  ∃ before r after, entered log = before ++ r :: after ∧ r.origin = o ∧
    (∀ r' ∈ before, r'.origin ∈ resolutions log) ∧
    ∀ m ∈ begun log, m ∈ before.map PendingEvent.origin

/-- Everything ahead of the first close is resolved. -/
def Drained (log : List Observation) : Prop :=
  ∀ r ∈ beforeClose (entered log), r.origin ∈ resolutions log

/-- When an entry may be written.  The entries without a condition are those that only the invariant of
    the state speaks about. -/
def Lawful (log : List Observation) : Observation → Prop
  | .entered _ => ¬Stopped log
  | .begun o =>
    if o.key = none then TakesEffect log o
    else ∀ m ∈ begun log, m.key = none → m ∈ resolutions log
  | .executed o => o ∈ begun log
  | .answered o _ =>
    ∃ r ∈ entered log, r.origin = o ∧ if r.isClose then Stopped log else TakesEffect log o
  | .stopped _ => Drained log
  | .resolved r result =>
    if r.isClose then Stopped log else moved log ≠ [] → result = .error .storeClosed
  | _ => True

variable (config : StoreConfig) in
/-- The invariant of the moves. -/
structure Inv (s : Engine) : Prop extends Ordered s, Phased s, Scheduled config s, Accounted s where
  lawful : Justified Lawful s.log

end AtomicBlobStore
