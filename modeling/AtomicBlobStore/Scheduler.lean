/-
  The coordinator (`engine/scheduler.rs`) and its callers (`engine/mod.rs`).

  Handling one event is one function on the state.  While it runs, the only thing the coordinator
  shares with anybody is the event channel, which the others only append to, and the lifecycle,
  which only the coordinator writes; it appends to the channel itself at most once an event.  The
  shutdown is cut where callers can interfere: joining the workers, the locked change of the
  lifecycle, and each event of the final drain are separate steps.
-/
import AtomicBlobStore.Engine
import AtomicBlobStore.Lib.Transition

namespace AtomicBlobStore

/-! ## Replies

  Sending on a reply channel is an entry of the history and nothing else: a single-use channel takes the
  value whether anybody waits for it or not. -/

/-- Append to the history. -/
def Engine.observe (s : Engine) (entries : List Observation) : Engine :=
  { s with log := s.log ++ entries }

/-- `deliver`: send the outcome of an operation on its reply channel. -/
def deliver (keyHash : KeyHash) (f : Finished) (s : Engine) : Engine :=
  s.observe [.delivered (f.operation.origin keyHash) (.operation f.result)]

/-- `deliver_error`: send an error on the reply channel of an operation. -/
def deliverError (keyHash : KeyHash) (op : Operation) (e : AtomicBlobStoreError) (s : Engine) :
    Engine :=
  s.observe [.rejected (op.origin keyHash) e]

section Scheduler

variable (config : StoreConfig) (fates : Nat → Fate)

/-! ## Dispatching

  An operation is dispatched when its key is not active and fewer keys are active than the store allows.
  It is taken from its queue BEFORE it is known that a worker can run it, so a failure of the pool is
  told to this caller, and the key is left for the next operation to try. -/

/-- `dispatch_if_idle`.  Four ways out: the key has to wait, there is nothing to dispatch, the pool
    refuses (no thread can be spawned, or `prepare_dispatch` fails), or the job is handed over.  The
    last `match` has a branch for a pool that is shut down already, which sends a completion for the job
    that never was: the key must not stay active. -/
def dispatchIfIdle (keyHash : KeyHash) (s : Engine) : Engine :=
  if keyHash ∈ s.active ∨ s.active.card ≥ config.maxConcurrentOperations then s
  else match s.queues.popFront keyHash with
  | none => s
  | some (operation, queues) =>
    let fate := fates s.clock
    let (prepared, pool) := s.pool.prepare fate.spawn (s.active.card + 1)
    let s := { s.observe [.begun (operation.origin keyHash)] with
      queues := queues, pool := pool, clock := s.clock + 1 }
    match prepared with
    | .error e => deliverError keyHash operation e { s with queues := s.queues.removeIfEmpty keyHash }
    | .ok () =>
      match WorkerPool.prepareDispatch fate.dispatch with
      | .error e =>
        deliverError keyHash operation e { s with queues := s.queues.removeIfEmpty keyHash }
      | .ok () =>
        let s := { s with active := insert keyHash s.active }
        match s.pool.execute (.operation keyHash operation) with
        | .ok pool => { s with pool := pool }
        | .error _ =>
          -- the closure is dropped, and the operation with it
          { s.observe [.lost (operation.origin keyHash)] with
            channel := s.channel ++ [.completion ⟨keyHash, none⟩] }

/-- The key `dispatch_available` finds: whichever idle one the hash map yields.  The source iterates
    over a `HashMap`, whose order is random; the pick is part of the fate. -/
def findIdle (s : Engine) : Option KeyHash :=
  let idle := s.queues.idle s.active
  idle[(fates s.clock).pick % idle.length]?

/-- The loop of `dispatch_available`; every turn takes an operation from a queue, so what is queued in
    all is fuel enough, and the loop never stops for want of it (`DispatchLoops`). -/
def dispatchAvailableLoop : Nat → Engine → Engine
  | 0, s => s
  | fuel + 1, s =>
    if s.active.card < config.maxConcurrentOperations then
      match findIdle fates s with
      | none => s
      | some keyHash =>
        dispatchAvailableLoop fuel
          (dispatchIfIdle config fates keyHash { s with clock := s.clock + 1 })
    else s

/-- `dispatch_available`. -/
def dispatchAvailable (s : Engine) : Engine :=
  dispatchAvailableLoop config fates s.queues.total s

/-- `dispatch_maintenance`.  A request that cannot be dispatched is answered here, and a completion
    without an outcome is sent all the same, because only a completion clears the maintenance flag. -/
def dispatchMaintenance (submission : MaintenanceSubmission) (s : Engine) : Engine :=
  let fate := fates s.clock
  let origin : Origin := ⟨none, submission.sender⟩
  let (prepared, pool) := s.pool.prepare fate.spawn 1
  let s := { s.observe [.begun origin] with pool := pool, clock := s.clock + 1 }
  match prepared with
  | .error e =>
    { s.observe [.rejected origin e] with
      channel := s.channel ++ [.maintenanceCompletion ⟨none⟩] }
  | .ok () =>
    match WorkerPool.prepareDispatch fate.dispatch with
    | .error e =>
      { s.observe [.rejected origin e] with
        channel := s.channel ++ [.maintenanceCompletion ⟨none⟩] }
    | .ok () =>
      match s.pool.execute (.maintenance submission) with
      | .ok pool => { s with pool := pool }
      | .error _ =>
        { s.observe [.lost origin] with
          channel := s.channel ++ [.maintenanceCompletion ⟨none⟩] }

/-- The body of the loop of `advance_pending_if_ready`, by recursion on the pending list.  Submissions
    go to their queues; a barrier at the front stops the loop until the store is idle, a maintenance
    request stops it in any case, since it makes the store busy, and a close stops it for good. -/
def advancePending : List PendingEvent → Engine → Engine
  | [], s => s
  | .maintenance submission :: rest, s =>
    if s.busy then s
    else dispatchMaintenance fates submission
      { s.observe [.released (.maintenance submission)] with
        pending := rest, maintenanceActive := true }
  | .submission submission :: rest, s =>
    advancePending rest (dispatchIfIdle config fates submission.keyHash
      { s.observe [.released (.submission submission)] with
        pending := rest, queues := s.queues.pushBack submission.keyHash submission.operation })
  | .flush sender :: rest, s =>
    if s.busy then s
    else advancePending rest
      { s.observe [.released (.flush sender), .answered ⟨none, sender⟩ (.ok ())] with
        pending := rest }
  | .close _ :: _, s => s

/-- `advance_pending_if_ready`. -/
def advancePendingIfReady (s : Engine) : Engine :=
  if s.maintenanceActive then s else advancePending config fates s.pending s

/-! ## The event loop

  One function for each arm of the `match` in `run_scheduler`, with what the loop does after each of
  them (`shutdownIfDrained`) at the end.  An arm reads the lifecycle afresh: a request may have been
  sent while the store was open and be handled when it no longer is. -/

/-- The check after an event: a close at the front of an idle store takes the pool's sender and goes
    on to join the workers. -/
def shutdownIfDrained (s : Engine) : Engine :=
  if s.pending.head?.any PendingEvent.isClose && !s.busy && !s.maintenanceActive then
    { s with phase := .joining, pool := { s.pool with sender := false } }
  else s

/-- The `Submission` arm. -/
def onSubmission (submission : Submission) (s : Engine) : Engine :=
  let s := s.observe [.received (.submission submission)]
  if s.lifecycle ≠ .opened then
    deliverError submission.keyHash submission.operation .storeClosed s
  else if s.maintenanceActive || !s.pending.isEmpty then
    { s with pending := s.pending ++ [.submission submission] }
  else
    let s := { s.observe [.released (.submission submission)] with
      queues := s.queues.pushBack submission.keyHash submission.operation }
    shutdownIfDrained (dispatchAvailable config fates
      (dispatchIfIdle config fates submission.keyHash s))

/-- The `Completion` arm.  The key is released and its next operation dispatched BEFORE the outcome is
    delivered: whoever sees the reply finds the next operation of the key dispatched, if it could be. -/
def onCompletion (completion : Completion) (s : Engine) : Engine :=
  let keyHash := completion.keyHash
  let s := { s with
    outcome := completion.outcome.map fun f => (keyHash, f)
    active := s.active.erase keyHash }
  let s := dispatchIfIdle config fates keyHash s
  let s := dispatchAvailable config fates s
  let s := if keyHash ∉ s.active then { s with queues := s.queues.removeIfEmpty keyHash } else s
  let s := match s.outcome with
    | some (key, f) => deliver key f { s with outcome := none }
    | none => s
  shutdownIfDrained (advancePendingIfReady config fates s)

/-- The `Maintenance` arm. -/
def onMaintenance (submission : MaintenanceSubmission) (s : Engine) : Engine :=
  let s := s.observe [.received (.maintenance submission)]
  if s.lifecycle ≠ .opened then s.observe [.rejected ⟨none, submission.sender⟩ .storeClosed]
  else shutdownIfDrained (advancePendingIfReady config fates
    { s with pending := s.pending ++ [.maintenance submission] })

/-- The `MaintenanceCompletion` arm. -/
def onMaintenanceCompletion (completion : MaintenanceCompletion) (s : Engine) : Engine :=
  let s := { s with maintenanceActive := false }
  let s := match completion.outcome with
    | some o => s.observe [.delivered ⟨none, o.sender⟩ (.cleanup o.result)]
    | none => s
  shutdownIfDrained (advancePendingIfReady config fates s)

/-- The `Flush` arm. -/
def onFlush (sender : Ticket) (s : Engine) : Engine :=
  let s := s.observe [.received (.flush sender)]
  if s.lifecycle ≠ .opened then s.observe [.rejected ⟨none, sender⟩ .storeClosed]
  else shutdownIfDrained (advancePendingIfReady config fates
    { s with pending := s.pending ++ [.flush sender] })

/-- The answer to a close once it is known how the pool went down. -/
def closeResult (ok : Bool) : Except AtomicBlobStoreError Unit :=
  if ok then .ok () else .error .shutdownFailure

/-- The `Close` arm.  The first close moves the lifecycle; later ones join it in the pending list, to be
    answered together (`finishShutdown`). -/
def onClose (submission : CloseSubmission) (s : Engine) : Engine :=
  let s := s.observe [.received (.close submission)]
  let s := match s.lifecycle with
    | .opened => { s.observe [.moved .closing] with
        lifecycle := .closing, pending := s.pending ++ [.close submission] }
    | .closing => { s with pending := s.pending ++ [.close submission] }
    | .closed => s.observe [.answered ⟨none, submission.sender⟩ (.ok ())]
    | .shutdownFailed => s.observe [.answered ⟨none, submission.sender⟩ (closeResult false)]
    | .failed => s.observe [.answered ⟨none, submission.sender⟩ (closeResult false)]
  shutdownIfDrained (advancePendingIfReady config fates s)

/-- One turn of the loop of `run_scheduler`, for an event already taken from the channel. -/
def onEvent : CoordinatorEvent → Engine → Engine
  | .submission sub, s => onSubmission config fates sub s
  | .completion done, s => onCompletion config fates done s
  | .maintenance sub, s => onMaintenance config fates sub s
  | .maintenanceCompletion done, s => onMaintenanceCompletion config fates done s
  | .flush sender, s => onFlush config fates sender s
  | .close sub, s => onClose config fates sub s

/-! ## The shutdown

  `shutdownIfDrained` takes the pool's sender, so the workers end when the job channel is empty; the
  coordinator waits for them (`Phase.joining`), sets the lifecycle under its lock and then empties the
  event channel.  Nothing can enter it any more, because callers check the lifecycle under that lock. -/

/-- The lifecycle a shutdown of the pool ends in. -/
def endLifecycle (ok : Bool) : Lifecycle := if ok then .closed else .shutdownFailed

/-- All workers are joined: set the lifecycle and answer the closes at the front of the list. -/
def finishShutdown (ok : Bool) (s : Engine) : Engine :=
  let closes := s.pending.takeWhile PendingEvent.isClose
  { s.observe ([.stopped ok, .moved (endLifecycle ok)]
      ++ closes.map fun r => .answered r.origin (closeResult ok)) with
    lifecycle := endLifecycle ok
    pending := s.pending.dropWhile PendingEvent.isClose
    pool := { s.pool with handles := 0 }
    phase := .draining ok }

/-- One turn of the final `try_recv` loop.  What is still in the channel was sent before the lifecycle
    changed; it is refused as it would have been at the lock.  Ends of jobs find nobody to tell. -/
def drainEvent (ok : Bool) : CoordinatorEvent → Engine → Engine
  | .close sub, s => s.observe [.received (.close sub),
      .answered ⟨none, sub.sender⟩ (closeResult ok)]
  | .submission sub, s => deliverError sub.keyHash sub.operation .storeClosed
      (s.observe [.received (.submission sub)])
  | .maintenance sub, s => s.observe [.received (.maintenance sub),
      .rejected ⟨none, sub.sender⟩ .storeClosed]
  | .flush sender, s => s.observe [.received (.flush sender),
      .rejected ⟨none, sender⟩ .storeClosed]
  | .completion _, s => s
  | .maintenanceCompletion _, s => s

/-- `recv` fails: every handle is dropped and nobody else holds a sender, that is, no submission or
    maintenance request waits anywhere and no job exists. -/
structure Engine.Disconnected (s : Engine) : Prop where
  /-- Every handle has a sender of the event channel. -/
  handles : s.handles = 0
  /-- Nothing that is in the channel could carry one. -/
  channel : s.channel = []
  /-- Every queued operation carries one, -/
  queues : s.queues.allEmpty = true
  /-- and so does every pending one, -/
  pending : ∀ r ∈ s.pending, ∀ sub, r ≠ .submission sub
  /-- every maintenance request, -/
  barriers : ∀ r ∈ s.pending, ∀ sub, r ≠ .maintenance sub
  /-- and every job, until it has sent its completion. -/
  jobs : s.pool.jobs = []
  running : s.pool.running = []

/-- The end of `run_scheduler` after the last handle is gone.  Nobody is left to ask about the result,
    so a worker that panicked changes nothing here but the history. -/
def finishDisconnected (ok : Bool) (s : Engine) : Engine :=
  let s := { s.observe [.stopped ok] with
    pool := { s.pool with sender := false, handles := 0 }, phase := .returned }
  if s.lifecycle ≠ .closed then { s.observe [.moved .closed] with lifecycle := .closed } else s

/-! ## The callers

  A method checks its arguments and the lifecycle without the lock first (`precheck`), for a quick
  refusal, and then again under the lock, where it sends.  Only the second check counts: between the two
  the store may have been closed. -/

/-- `ensure_open`. -/
def ensureOpen (s : Engine) : Except AtomicBlobStoreError Unit :=
  match s.lifecycle with
  | .opened => .ok ()
  | .closing => .error .storeClosed
  | .closed => .error .storeClosed
  | .shutdownFailed => .error .storeClosed
  | .failed => .error .engineFailed

/-- Resolve a call on the calling thread. -/
def resolve (r : PendingEvent) (result : Except AtomicBlobStoreError Unit) (s : Engine) : Engine :=
  { s.observe [.resolved r result] with issued := r.origin.sender + 1 }

/-- Send a request's event. -/
def enter (r : PendingEvent) (s : Engine) : Engine :=
  { s.observe [.entered r] with
    channel := s.channel ++ [r.event], issued := r.origin.sender + 1 }

/-- What the methods check of their arguments: the declared length of a streaming save
    (`start_save_stream`) and the age of a cleanup (`cleanup_stale_temporary_files`). -/
def validate : PendingEvent → Except AtomicBlobStoreError Unit
  | .submission ⟨_, .saveStream declaredLen _ _⟩ =>
    if declaredLen > config.maximum then .error (.blobTooLarge declaredLen config.maximum) else .ok ()
  | .maintenance ⟨minimumAge, _⟩ =>
    if minimumAge = some 0 then .error .invalidCleanupAge else .ok ()
  | _ => .ok ()

/-- The part of a method before it takes the lifecycle lock. -/
def precheck (r : PendingEvent) (s : Engine) : Engine :=
  match ensureOpen s with
  | .error e => resolve r (.error e) s
  | .ok () =>
    match validate config r with
    | .error e => resolve r (.error e) s
    | .ok () => s

/-- What a failed send is reported as: the receiver is gone. -/
def sendError : PendingEvent → AtomicBlobStoreError
  | .submission _ => .engineFailed
  | _ => .maintenanceCoordinationFailure

/-- `submit`, `submit_operation`, and the locked parts of `cleanup_stale_temporary_files` and
    `flush`.  Checking the lifecycle and sending are one step, since the lock is held for both. -/
def submit (r : PendingEvent) (s : Engine) : Engine :=
  match s.lifecycle with
  | .opened =>
    if s.phase = .dropped then resolve r (.error (sendError r)) s else enter r s
  | .failed => resolve r (.error .engineFailed) s
  | .closing => resolve r (.error .storeClosed) s
  | .closed => resolve r (.error .storeClosed) s
  | .shutdownFailed => resolve r (.error .storeClosed) s

/-- `close`.  It is not refused by a store that is closing or closed: every close is told how the store
    came to its end. -/
def close (sub : CloseSubmission) (s : Engine) : Engine :=
  match s.lifecycle with
  | .closed => resolve (.close sub) (.ok ()) s
  | .shutdownFailed => resolve (.close sub) (closeResult false) s
  | .failed => resolve (.close sub) (closeResult false) s
  | .opened =>
    if s.phase = .dropped then resolve (.close sub) (.error .engineFailed) s
    else enter (.close sub) s
  | .closing =>
    if s.phase = .dropped then resolve (.close sub) (.error .engineFailed) s
    else enter (.close sub) s

/-! ## Steps

  Every interleaving of callers, coordinator and workers is a sequence of these steps.  The steps of a
  worker leave open what its job does: it starts, and some time later it ends in one of the ways of
  `JobEnd`. -/

/-- How a job ends: with the outcome of what it ran, or without one after a panic.  A panic drops the
    reply sender before the completion is sent. -/
inductive JobEnd : WorkerJob → CoordinatorEvent → List Observation → Prop
  /-- The program of an operation returned: its outcome goes with the completion. -/
  | operation (keyHash : KeyHash) (op : Operation) (f : Finished)
      (hop : f.operation.sender = op.sender) :
      JobEnd (.operation keyHash op) (.completion ⟨keyHash, some f⟩) []
  /-- It panicked: the completion goes without, and the reply sender is dropped. -/
  | operationPanic (keyHash : KeyHash) (op : Operation) :
      JobEnd (.operation keyHash op) (.completion ⟨keyHash, none⟩) [.lost (op.origin keyHash)]
  /-- So for maintenance that returned, -/
  | maintenance (sub : MaintenanceSubmission) (result : Except AtomicBlobStoreError CleanupReport) :
      JobEnd (.maintenance sub) (.maintenanceCompletion ⟨some ⟨sub.sender, result⟩⟩) []
  /-- and for maintenance that panicked. -/
  | maintenancePanic (sub : MaintenanceSubmission) :
      JobEnd (.maintenance sub) (.maintenanceCompletion ⟨none⟩) [.lost ⟨none, sub.sender⟩]

/-- One step of any thread.  Tickets are fresh (`hfresh`), and any number of calls can be under way: a
    call is a step when it takes effect, and what the caller does before and after is no part of the
    engine. -/
inductive Step : Engine → Engine → Prop
  /-- A caller runs a method up to the lifecycle lock. -/
  | precheck {s : Engine} (r : PendingEvent) (hhandle : 0 < s.handles) (hclose : r.isClose = false)
      (hfresh : s.issued ≤ r.origin.sender) : Step s (precheck config r s)
  /-- A caller takes the lock and sends. -/
  | submit {s : Engine} (r : PendingEvent) (hhandle : 0 < s.handles) (hclose : r.isClose = false)
      (hvalid : validate config r = .ok ()) (hfresh : s.issued ≤ r.origin.sender) :
      Step s (submit r s)
  /-- A caller closes the store. -/
  | close {s : Engine} (sub : CloseSubmission) (hhandle : 0 < s.handles)
      (hfresh : s.issued ≤ sub.sender) : Step s (close sub s)
  /-- A handle is cloned, -/
  | cloneHandle {s : Engine} (hhandle : 0 < s.handles) :
      Step s { s with handles := s.handles + 1 }
  /-- or dropped. -/
  | dropHandle {s : Engine} (hhandle : 0 < s.handles) :
      Step s { s with handles := s.handles - 1 }
  /-- A caller stops waiting for a reply. -/
  | dropWaiter {s : Engine} (ticket : Ticket) :
      Step s { s with abandoned := ticket :: s.abandoned }
  /-- The coordinator handles the next event. -/
  | event {s : Engine} (ev : CoordinatorEvent) (rest : List CoordinatorEvent)
      (hphase : s.phase = .running) (hchannel : s.channel = ev :: rest) :
      Step s (onEvent config fates ev { s with channel := rest })
  /-- An idle worker thread takes the next job. -/
  | startJob {s : Engine} (job : WorkerJob) (rest : List WorkerJob) (hjobs : s.pool.jobs = job :: rest)
      (hthread : s.pool.running.length < s.pool.handles) :
      Step s { s.observe [.executed job.origin] with
        pool := { s.pool with jobs := rest, running := s.pool.running ++ [job] } }
  /-- Any of the running jobs ends. -/
  | finishJob {s : Engine} (front back : List WorkerJob) (job : WorkerJob) (ev : CoordinatorEvent)
      (entries : List Observation) (hrunning : s.pool.running = front ++ job :: back)
      (hend : JobEnd job ev entries) :
      Step s { s.observe entries with
        channel := s.channel ++ [ev], pool := { s.pool with running := front ++ back } }
  /-- The coordinator has joined every worker; `ok` says that none of them panicked. -/
  | finishShutdown {s : Engine} (ok : Bool) (hphase : s.phase = .joining) (hjobs : s.pool.jobs = [])
      (hrunning : s.pool.running = []) : Step s (finishShutdown ok s)
  /-- After the closes were answered, an event that came late is answered too. -/
  | drainEvent {s : Engine} (ok : Bool) (ev : CoordinatorEvent) (rest : List CoordinatorEvent)
      (hphase : s.phase = .draining ok) (hchannel : s.channel = ev :: rest) :
      Step s (drainEvent ok ev { s with channel := rest })
  /-- The last `try_recv` finds the channel empty. -/
  | leave {s : Engine} (ok : Bool) (hphase : s.phase = .draining ok) (hchannel : s.channel = []) :
      Step s { s with phase := .returned }
  /-- The last handle is gone and nothing is left to do. -/
  | disconnect {s : Engine} (ok : Bool) (hphase : s.phase = .running) (hgone : s.Disconnected) :
      Step s (finishDisconnected ok s)
  /-- The coordinator thread ends and drops the receiver with what is in the channel. -/
  | dropReceiver {s : Engine} (hphase : s.phase = .returned) :
      Step s { s with phase := .dropped, channel := [] }

/-- The store as a transition system. -/
def engineSystem : System Engine where
  init s := s = .initial config
  step := Step config fates

end Scheduler

end AtomicBlobStore
