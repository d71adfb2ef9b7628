/-
  A coordinator that PANICS (`engine/mod.rs` `from_config`, `engine/scheduler.rs`
  `fail_queued_after_coordinator_panic`, `engine/workers.rs` `WorkerPool::drop`).

  The thread catches a panic of `run_scheduler`.  Until then the stack is unwound: the event that
  was being handled is dropped, then the locals in the reverse order of their declaration (the
  pending list, the queues), then the worker pool, which takes its sender and joins the workers.
  Only then is the lifecycle set to failed and what is left in the channel answered.

  A dropped reply sender is an answer of its own: the waiting caller sees its channel disconnect.
  `Aftermath` records these, and the errors sent at the end, in order.

  Before the panic a store does what `Step` says, and afterwards callers and workers go on with the
  same steps (`Bystander`); only what the coordinator does is new.
-/
import AtomicBlobStore.Guarantees

namespace AtomicBlobStore

/-! ## What a panic leaves

  A request is a value that somebody owns: the event being handled, an element of a list, a job, what is
  in the channel.  Unwinding drops owners one after another, in an order that the language fixes, and
  what it does not drop is left to the code behind `catch_unwind`. -/

/-- What happens to a reply channel after a panic. -/
inductive Aftermath
  /-- Its sender is dropped without a value. -/
  | disconnected (o : Origin)
  /-- An error is sent. -/
  | failed (o : Origin) (e : AtomicBlobStoreError)
  deriving DecidableEq

/-- Where the unwinding coordinator is. -/
inductive Unwinding
  /-- The event that was being handled is still held. -/
  | event (ev : CoordinatorEvent)
  /-- Next `pending` is dropped. -/
  | pending
  /-- Next `queues` is dropped. -/
  | queues
  /-- Next `worker_pool` is dropped. -/
  | pool
  /-- `shutdown` joins the workers. -/
  | joining
  /-- The panic is caught. -/
  | caught
  /-- The lifecycle is failed, the channel is being emptied. -/
  | draining
  /-- `run_scheduler`'s thread has nothing more to do. -/
  | returned
  /-- The thread has ended, and the receiver is gone. -/
  | dropped

/-- A store whose coordinator may panic.  `before` is the history up to the panic: what had been
    released and begun by then decides what becomes of a request. -/
structure FailingStore where
  /-- The engine, as long as it goes on and as it was found by the panic. -/
  engine : Engine
  /-- How far the unwinding has come, if there was a panic. -/
  unwinding : Option Unwinding
  /-- The history up to the panic. -/
  before : List Observation
  /-- What became of reply senders after it. -/
  aftermath : List Aftermath

/-- A store that has just been opened. -/
def FailingStore.initial (config : StoreConfig) : FailingStore := ⟨.initial config, none, [], []⟩

/-- Whose reply sender an event holds: that of its request, or of the job it ends. -/
def CoordinatorEvent.holder? (ev : CoordinatorEvent) : Option Origin :=
  match ev.request? with
  | some r => some r.origin
  | none => ev.outcome?

/-- Drop reply senders. -/
def disconnect (origins : List Origin) : List Aftermath := origins.map .disconnected

/-- One turn of `fail_queued_after_coordinator_panic`.  Even an outcome that came back is replaced by an
    error: the job has run, but nobody is left to say so. -/
def failEvent : CoordinatorEvent → List Aftermath
  | .submission sub => [.failed (sub.operation.origin sub.keyHash) .engineFailed]
  | .maintenance sub => [.failed ⟨none, sub.sender⟩ .engineFailed]
  | .maintenanceCompletion done =>
    done.outcome.toList.map fun o => .failed ⟨none, o.sender⟩ .engineFailed
  | .flush sender => [.failed ⟨none, sender⟩ .engineFailed]
  | .close sub => [.failed ⟨none, sub.sender⟩ .shutdownFailure]
  | .completion done =>
    done.outcome.toList.map fun f => .failed (f.operation.origin done.keyHash) .engineFailed

/-! ## Steps -/

section Steps

variable (config : StoreConfig) (fates : Nat → Fate)

/-- The steps of callers and workers. -/
inductive Bystander : Engine → Engine → Prop
  /-- A call is checked without the lock. -/
  | precheck {s : Engine} (r : PendingEvent) (hhandle : 0 < s.handles) (hclose : r.isClose = false)
      (hfresh : s.issued ≤ r.origin.sender) : Bystander s (precheck config r s)
  /-- A call takes the lock and sends. -/
  | submit {s : Engine} (r : PendingEvent) (hhandle : 0 < s.handles) (hclose : r.isClose = false)
      (hvalid : validate config r = .ok ()) (hfresh : s.issued ≤ r.origin.sender) :
      Bystander s (submit r s)
  /-- A close takes the lock and sends. -/
  | close {s : Engine} (sub : CloseSubmission) (hhandle : 0 < s.handles)
      (hfresh : s.issued ≤ sub.sender) : Bystander s (close sub s)
  /-- A handle is cloned, -/
  | cloneHandle {s : Engine} (hhandle : 0 < s.handles) :
      Bystander s { s with handles := s.handles + 1 }
  /-- or dropped. -/
  | dropHandle {s : Engine} (hhandle : 0 < s.handles) :
      Bystander s { s with handles := s.handles - 1 }
  /-- A caller stops waiting. -/
  | dropWaiter {s : Engine} (ticket : Ticket) :
      Bystander s { s with abandoned := ticket :: s.abandoned }
  /-- A worker takes the next job. -/
  | startJob {s : Engine} (job : WorkerJob) (rest : List WorkerJob) (hjobs : s.pool.jobs = job :: rest)
      (hthread : s.pool.running.length < s.pool.handles) :
      Bystander s { s.observe [.executed job.origin] with
        pool := { s.pool with jobs := rest, running := s.pool.running ++ [job] } }
  /-- A job ends. -/
  | finishJob {s : Engine} (front back : List WorkerJob) (job : WorkerJob) (ev : CoordinatorEvent)
      (entries : List Observation) (hrunning : s.pool.running = front ++ job :: back)
      (hend : JobEnd job ev entries) :
      Bystander s { s.observe entries with
        channel := s.channel ++ [ev], pool := { s.pool with running := front ++ back } }

/-- They are steps of the store. -/
theorem Bystander.step {s s' : Engine} (h : Bystander config s s') : Step config fates s s' := by
  cases h with
  | precheck r hhandle hclose hfresh => exact .precheck r hhandle hclose hfresh
  | submit r hhandle hclose hvalid hfresh => exact .submit r hhandle hclose hvalid hfresh
  | close sub hhandle hfresh => exact .close sub hhandle hfresh
  | cloneHandle hhandle => exact .cloneHandle hhandle
  | dropHandle hhandle => exact .dropHandle hhandle
  | dropWaiter ticket => exact .dropWaiter ticket
  | startJob job rest hjobs hthread => exact .startJob job rest hjobs hthread
  | finishJob front back job ev entries hrunning hend =>
    exact .finishJob front back job ev entries hrunning hend

/-- One step of a store whose coordinator may panic.  As long as it has not, these are the steps of the
    store; afterwards the coordinator's steps are those of the unwinding, one dropped owner at a time. -/
inductive FailingStep : FailingStore → FailingStore → Prop
  /-- Nothing has gone wrong yet. -/
  | step {f : FailingStore} (s' : Engine) (hup : f.unwinding = none)
      (h : Step config fates f.engine s') : FailingStep f { f with engine := s' }
  /-- The coordinator panics over the event it has just received. -/
  | panic {f : FailingStore} (ev : CoordinatorEvent) (rest : List CoordinatorEvent)
      (hup : f.unwinding = none) (hphase : f.engine.phase = .running)
      (hchannel : f.engine.channel = ev :: rest) :
      FailingStep f { f with
        engine := { f.engine with channel := rest }
        unwinding := some (.event ev), before := f.engine.log }
  /-- Callers and workers go on. -/
  | bystander {f : FailingStore} (s' : Engine) (u : Unwinding) (hdown : f.unwinding = some u)
      (h : Bystander config f.engine s') : FailingStep f { f with engine := s' }
  /-- The event goes first, -/
  | dropEvent {f : FailingStore} (ev : CoordinatorEvent) (hdown : f.unwinding = some (.event ev)) :
      FailingStep f { f with
        unwinding := some .pending, aftermath := f.aftermath ++ disconnect ev.holder?.toList }
  /-- then the locals of `run_scheduler`, the last declared one first: the pending list, -/
  | dropPending {f : FailingStore} (hdown : f.unwinding = some .pending) :
      FailingStep f { f with
        unwinding := some .queues, engine := { f.engine with pending := [] }
        aftermath := f.aftermath ++ disconnect (f.engine.pending.map PendingEvent.origin) }
  /-- the queues, -/
  | dropQueues {f : FailingStore} (hdown : f.unwinding = some .queues) :
      FailingStep f { f with
        unwinding := some .pool, engine := { f.engine with active := ∅, queues := ∅ }
        aftermath := f.aftermath ++
          disconnect (f.engine.queues.elements.map fun e => e.2.origin e.1) }
  /-- and then the parameter `worker_pool`, whose sender of jobs goes before the workers are joined. -/
  | dropPool {f : FailingStore} (hdown : f.unwinding = some .pool) :
      FailingStep f { f with
        unwinding := some .joining
        engine := { f.engine with pool := { f.engine.pool with sender := false } } }
  /-- Every worker has been joined; whether one of them panicked is ignored. -/
  | caught {f : FailingStore} (hdown : f.unwinding = some .joining)
      (hjobs : f.engine.pool.jobs = []) (hrunning : f.engine.pool.running = []) :
      FailingStep f { f with
        unwinding := some .caught
        engine := { f.engine with pool := { f.engine.pool with handles := 0 } } }
  /-- The lifecycle is set to failed. -/
  | fail {f : FailingStore} (hdown : f.unwinding = some .caught) :
      FailingStep f { f with
        unwinding := some .draining
        engine := { f.engine.observe [.moved .failed] with lifecycle := .failed } }
  /-- An event of the channel is answered with the failure. -/
  | drainEvent {f : FailingStore} (ev : CoordinatorEvent) (rest : List CoordinatorEvent)
      (hdown : f.unwinding = some .draining) (hchannel : f.engine.channel = ev :: rest) :
      FailingStep f { f with
        engine := { f.engine with channel := rest }, aftermath := f.aftermath ++ failEvent ev }
  /-- `try_recv` finds the channel empty. -/
  | leave {f : FailingStore} (hdown : f.unwinding = some .draining)
      (hchannel : f.engine.channel = []) : FailingStep f { f with unwinding := some .returned }
  /-- The receiver goes last. -/
  | dropReceiver {f : FailingStore} (hdown : f.unwinding = some .returned) :
      FailingStep f { f with
        unwinding := some .dropped, engine := { f.engine with phase := .dropped, channel := [] } }

/-- A store whose coordinator may panic, as a transition system. -/
def failingSystem : System FailingStore where
  init f := f = .initial config
  step := FailingStep config fates

end Steps

end AtomicBlobStore
