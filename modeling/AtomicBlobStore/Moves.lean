/-
  The coordinator in small MOVES.

  Handling an event is a sequence of moves, each of which shifts at most one request from one place
  to the next: into the channel, to the pending list or a queue, into a job, back as an outcome, to
  its answer.  `Move` lists them with the guards under which the code makes them; `moves_of_step`
  says that every step of the store is a run of moves.  What holds across single moves therefore
  holds across all histories, and is proved one move at a time in `Invariants`.

  What depends on where a handler stops, rather than on its moves, is `Settled`: after an event no
  key that could start is left waiting, and nothing is pending in an idle store.
-/
import AtomicBlobStore.Scheduler

namespace AtomicBlobStore

open Relation

/-! ## Worker pools

  A dispatch asks the pool for threads and may be refused; whatever happens, the pool has at least the
  threads that it had. -/

/-- `pool'` is `pool` with possibly more threads. -/
def Grown (pool pool' : WorkerPool) : Prop :=
  ∃ h, pool.handles ≤ h ∧ pool' = { pool with handles := h }

theorem Grown.refl (pool : WorkerPool) : Grown pool pool := ⟨pool.handles, Nat.le_refl _, rfl⟩

theorem Grown.sender {pool pool' : WorkerPool} (h : Grown pool pool') :
    pool'.sender = pool.sender := by
  obtain ⟨h, -, rfl⟩ := h
  rfl

/-- As long as the pool keeps its sender, a job reaches the workers. -/
theorem execute_ok {pool : WorkerPool} {job : WorkerJob} (h : pool.sender = true) :
    pool.execute job = .ok { pool with jobs := pool.jobs ++ [job] } := if_pos h

theorem spawnMissing_spec (spawn : Nat → Bool) : ∀ (missing : Nat) (pool : WorkerPool),
    Grown pool (WorkerPool.spawnMissing spawn missing pool).2 ∧
      ((WorkerPool.spawnMissing spawn missing pool).1 = .ok () ∧
          pool.handles + missing ≤ (WorkerPool.spawnMissing spawn missing pool).2.handles ∨
        (WorkerPool.spawnMissing spawn missing pool).1 = .error .workerUnavailable) := by
  intro missing
  induction missing with
  | zero => exact fun pool => ⟨.refl pool, Or.inl ⟨rfl, Nat.le_refl _⟩⟩
  | succ missing ih =>
    intro pool
    unfold WorkerPool.spawnMissing
    split
    · obtain ⟨⟨h, hle, heq⟩, hres⟩ := ih { pool with handles := pool.handles + 1 }
      refine ⟨⟨h, Nat.le_trans (Nat.le_succ _) hle, heq⟩, ?_⟩
      rcases hres with ⟨hok, hhandles⟩ | herr
      · refine Or.inl ⟨hok, ?_⟩
        have : pool.handles + 1 + missing ≤ _ := hhandles
        omega
      · exact Or.inr herr
    · exact ⟨.refl pool, Or.inr rfl⟩

/-- `prepare` only spawns threads; it succeeds with enough of them, or reports that it cannot. -/
theorem prepare_spec (pool : WorkerPool) (spawn : Nat → Bool) (required : Nat) :
    Grown pool (pool.prepare spawn required).2 ∧
      ((pool.prepare spawn required).1 = .ok () ∧
          min required pool.capacity ≤ (pool.prepare spawn required).2.handles ∨
        (pool.prepare spawn required).1 = .error .workerUnavailable) := by
  obtain ⟨hgrown, hres⟩ :=
    spawnMissing_spec spawn (min required pool.capacity - pool.handles) pool
  refine ⟨hgrown, ?_⟩
  rcases hres with ⟨hok, hle⟩ | herr
  · exact Or.inl ⟨hok, Nat.le_trans (by omega) hle⟩
  · exact Or.inr herr

section Moves

variable (config : StoreConfig)

/-! ## The moves

  A handler does several things, and an invariant need not hold between two lines of it.  The moves are
  cut so that it holds between any two of them: each takes a request out of one place and puts it into
  another, and writes into the history what it did. -/

/-- One move of one request, or of nothing at all.

    The premises of a move are what the code has checked when it makes it, and no more; they are what an
    invariant may use.  A place that a move does not mention stays as it is. -/
inductive Move : Engine → Engine → Prop
  /-- Handles, waiters and draws of luck. -/
  | quiet {s : Engine} (handles clock : Nat) (abandoned : List Ticket) :
      Move s { s with handles := handles, clock := clock, abandoned := abandoned }
  /-- A call is answered by the calling thread. -/
  | resolve {s : Engine} (r : PendingEvent) (result : Except AtomicBlobStoreError Unit)
      (hfresh : s.issued ≤ r.origin.sender)
      (hclose : r.isClose = true → s.lifecycle = .closed ∨ s.lifecycle = .shutdownFailed)
      (hclosed : r.isClose = false → s.lifecycle ≠ .opened → result = .error .storeClosed) :
      Move s (resolve r result s)
  /-- A call sends its event. -/
  | enter {s : Engine} (r : PendingEvent) (hfresh : s.issued ≤ r.origin.sender)
      (hphase : s.phase ≠ .dropped)
      (hlock : s.lifecycle = .opened ∨ s.lifecycle = .closing ∧ r.isClose = true) :
      Move s (enter r s)
  /-- A request that was sent before the store closed is handled after it. -/
  | dismiss {s : Engine} (r : PendingEvent) (rest : List CoordinatorEvent)
      (hchannel : s.channel = r.event :: rest) (hclose : r.isClose = false)
      (hlock : s.lifecycle ≠ .opened) :
      Move s { s.observe [.received r, .rejected r.origin .storeClosed] with channel := rest }
  /-- A request has to wait behind a barrier, or is one. -/
  | park {s : Engine} (r : PendingEvent) (rest : List CoordinatorEvent)
      (hchannel : s.channel = r.event :: rest) (hclose : r.isClose = false)
      (hphase : s.phase = .running) (hlock : s.lifecycle = .opened) :
      Move s { s.observe [.received r] with channel := rest, pending := s.pending ++ [r] }
  /-- A submission with nothing ahead of it goes to its queue. -/
  | accept {s : Engine} (sub : Submission) (rest : List CoordinatorEvent)
      (hchannel : s.channel = .submission sub :: rest) (hphase : s.phase = .running)
      (hlock : s.lifecycle = .opened)
      (hpending : s.pending = []) (hmaintenance : s.maintenanceActive = false) :
      Move s { s.observe [.received (.submission sub), .released (.submission sub)] with
        channel := rest, queues := s.queues.pushBack sub.keyHash sub.operation }
  /-- The first close, later ones, and one that comes when the pool is down. -/
  | closeFirst {s : Engine} (sub : CloseSubmission) (rest : List CoordinatorEvent)
      (hchannel : s.channel = .close sub :: rest) (hphase : s.phase = .running)
      (hlock : s.lifecycle = .opened) :
      Move s { s.observe [.received (.close sub), .moved .closing] with
        channel := rest, lifecycle := .closing, pending := s.pending ++ [.close sub] }
  /-- A later close waits with the first. -/
  | closeMore {s : Engine} (sub : CloseSubmission) (rest : List CoordinatorEvent)
      (hchannel : s.channel = .close sub :: rest) (hphase : s.phase = .running)
      (hlock : s.lifecycle = .closing) :
      Move s { s.observe [.received (.close sub)] with
        channel := rest, pending := s.pending ++ [.close sub] }
  /-- A close that is found by the drain is answered as the others were. -/
  | closeLate {s : Engine} (ok : Bool) (sub : CloseSubmission) (rest : List CoordinatorEvent)
      (hchannel : s.channel = .close sub :: rest) (hphase : s.phase = .draining ok) :
      Move s { s.observe [.received (.close sub), .answered ⟨none, sub.sender⟩ (closeResult ok)]
        with channel := rest }
  /-- A job has ended: its key is free, and its outcome is kept until it is delivered. -/
  | takeCompletion {s : Engine} (done : Completion) (rest : List CoordinatorEvent)
      (hchannel : s.channel = .completion done :: rest) (hphase : s.phase = .running)
      (houtcome : s.outcome = none) :
      Move s { s with
        channel := rest, outcome := done.outcome.map fun f => (done.keyHash, f)
        active := s.active.erase done.keyHash }
  /-- The outcome that was kept is delivered. -/
  | deliver {s : Engine} (key : KeyHash) (f : Finished) (hphase : s.phase = .running)
      (houtcome : s.outcome = some (key, f)) :
      Move s (deliver key f { s with outcome := none })
  /-- A maintenance job has ended: its caller is told, and the flag is cleared. -/
  | takeMaintenance {s : Engine} (done : MaintenanceCompletion) (rest : List CoordinatorEvent)
      (hchannel : s.channel = .maintenanceCompletion done :: rest) (hphase : s.phase = .running) :
      Move s { s.observe (done.outcome.toList.map fun o =>
          .delivered ⟨none, o.sender⟩ (.cleanup o.result)) with
        channel := rest, maintenanceActive := false }
  /-- The pool refuses a job, and the caller of the operation is told. -/
  | beginFailed {s : Engine} (key : KeyHash) (op : Operation) (queues : KeyedQueues KeyHash Operation)
      (pool : WorkerPool) (clock : Nat) (hphase : s.phase = .running)
      (hidle : key ∉ s.active) (hbound : s.active.card < config.maxConcurrentOperations)
      (hfree : s.maintenanceActive = false) (hpop : s.queues.popFront key = some (op, queues))
      (hpool : Grown s.pool pool) :
      Move s { s.observe [.begun (op.origin key), .rejected (op.origin key) .workerUnavailable] with
        queues := queues.removeIfEmpty key, pool := pool, clock := clock }
  /-- An operation becomes a job, and its key active. -/
  | begin {s : Engine} (key : KeyHash) (op : Operation) (queues : KeyedQueues KeyHash Operation)
      (pool : WorkerPool) (clock : Nat) (hphase : s.phase = .running)
      (hidle : key ∉ s.active) (hbound : s.active.card < config.maxConcurrentOperations)
      (hfree : s.maintenanceActive = false) (hpop : s.queues.popFront key = some (op, queues))
      (hpool : Grown s.pool pool) (hthreads : min (s.active.card + 1) s.pool.capacity ≤ pool.handles) :
      Move s { s.observe [.begun (op.origin key)] with
        queues := queues, active := insert key s.active, clock := clock
        pool := { pool with jobs := pool.jobs ++ [.operation key op] } }
  /-- A submission at the front of the pending list goes to its queue. -/
  | release {s : Engine} (sub : Submission) (rest : List PendingEvent)
      (hpending : s.pending = .submission sub :: rest) (hphase : s.phase = .running)
      (hfree : s.maintenanceActive = false) :
      Move s { s.observe [.released (.submission sub)] with
        pending := rest, queues := s.queues.pushBack sub.keyHash sub.operation }
  /-- A flush at the front of an idle store is answered. -/
  | flush {s : Engine} (sender : Ticket) (rest : List PendingEvent)
      (hpending : s.pending = .flush sender :: rest) (hphase : s.phase = .running)
      (hfree : s.maintenanceActive = false) (hidle : s.busy = false) (houtcome : s.outcome = none) :
      Move s { s.observe [.released (.flush sender), .answered ⟨none, sender⟩ (.ok ())] with
        pending := rest }
  /-- A maintenance request at the front of an idle store: refused by the pool, or made a job. -/
  | maintainFailed {s : Engine} (sub : MaintenanceSubmission) (rest : List PendingEvent)
      (pool : WorkerPool) (clock : Nat) (hpending : s.pending = .maintenance sub :: rest)
      (hphase : s.phase = .running)
      (hfree : s.maintenanceActive = false) (hidle : s.busy = false) (houtcome : s.outcome = none)
      (hpool : Grown s.pool pool) :
      Move s { s.observe [.released (.maintenance sub), .begun ⟨none, sub.sender⟩,
          .rejected ⟨none, sub.sender⟩ .workerUnavailable] with
        pending := rest, maintenanceActive := true, pool := pool, clock := clock
        channel := s.channel ++ [.maintenanceCompletion ⟨none⟩] }
  /-- A maintenance request becomes a job. -/
  | maintain {s : Engine} (sub : MaintenanceSubmission) (rest : List PendingEvent)
      (pool : WorkerPool) (clock : Nat) (hpending : s.pending = .maintenance sub :: rest)
      (hphase : s.phase = .running)
      (hfree : s.maintenanceActive = false) (hidle : s.busy = false) (houtcome : s.outcome = none)
      (hpool : Grown s.pool pool) (hthreads : min 1 s.pool.capacity ≤ pool.handles) :
      Move s { s.observe [.released (.maintenance sub), .begun ⟨none, sub.sender⟩] with
        pending := rest, maintenanceActive := true, clock := clock
        pool := { pool with jobs := pool.jobs ++ [.maintenance sub] } }
  /-- The entry of a key without operations is removed, which no queue shows. -/
  | tidy {s : Engine} (key : KeyHash) (hphase : s.phase = .running) :
      Move s { s with queues := s.queues.removeIfEmpty key }
  /-- A worker takes the next job. -/
  | startJob {s : Engine} (job : WorkerJob) (rest : List WorkerJob) (hjobs : s.pool.jobs = job :: rest)
      (hthread : s.pool.running.length < s.pool.handles) :
      Move s { s.observe [.executed job.origin] with
        pool := { s.pool with jobs := rest, running := s.pool.running ++ [job] } }
  /-- A job ends. -/
  | finishJob {s : Engine} (front back : List WorkerJob) (job : WorkerJob) (ev : CoordinatorEvent)
      (entries : List Observation) (hrunning : s.pool.running = front ++ job :: back)
      (hend : JobEnd job ev entries) :
      Move s { s.observe entries with
        channel := s.channel ++ [ev], pool := { s.pool with running := front ++ back } }
  /-- A close at the front of an idle store ends the loop, and the workers with it. -/
  | stop {s : Engine} (sub : CloseSubmission) (rest : List PendingEvent)
      (hpending : s.pending = .close sub :: rest) (hphase : s.phase = .running)
      (hfree : s.maintenanceActive = false) (hidle : s.busy = false) (houtcome : s.outcome = none) :
      Move s { s with phase := .joining, pool := { s.pool with sender := false } }
  /-- The workers are joined, and the closes are answered. -/
  | finishShutdown {s : Engine} (ok : Bool) (hphase : s.phase = .joining) :
      Move s { s.observe (.stopped ok :: .moved (endLifecycle ok) ::
          s.pending.map fun r => .answered r.origin (closeResult ok)) with
        lifecycle := endLifecycle ok, pending := [], phase := .draining ok
        pool := { s.pool with handles := 0 } }
  /-- The drain finds the channel empty. -/
  | leave {s : Engine} (ok : Bool) (hphase : s.phase = .draining ok) (hchannel : s.channel = []) :
      Move s { s with phase := .returned }
  /-- The last handle is gone, and with it everything that could still be asked for. -/
  | disconnect {s : Engine} (ok : Bool) (hphase : s.phase = .running) (hchannel : s.channel = [])
      (hpending : s.pending = []) (hfree : s.maintenanceActive = false) (hidle : s.busy = false)
      (houtcome : s.outcome = none) (hlock : s.lifecycle = .opened) :
      Move s { s.observe [.stopped ok, .moved .closed] with
        lifecycle := .closed, phase := .returned
        pool := { s.pool with sender := false, handles := 0 } }
  /-- The receiver goes, with nothing in the channel. -/
  | dropReceiver {s : Engine} (hphase : s.phase = .returned) (hchannel : s.channel = []) :
      Move s { s with phase := .dropped }

/-! ## Dispatching in moves

  `dispatch_if_idle` is called in four places.  Its inversion (`dispatchIfIdle_attempt`) says once what
  it can do, and every later proof uses the three cases and not the function. -/

/-- What `dispatch_if_idle` can do for a key: nothing, because the key is active, the bound is
    reached or nothing is queued; fail and answer the operation; or start its job. -/
inductive Attempt (key : KeyHash) (s : Engine) : Engine → Prop
  /-- There is nothing to do, or not now. -/
  | skip (h : key ∈ s.active ∨ config.maxConcurrentOperations ≤ s.active.card ∨
      s.queues.queue key = []) : Attempt key s s
  /-- The operation was taken, and could not be made a job. -/
  | failed (op : Operation) (queues : KeyedQueues KeyHash Operation) (pool : WorkerPool) (clock : Nat)
      (hidle : key ∉ s.active) (hbound : s.active.card < config.maxConcurrentOperations)
      (hpop : s.queues.popFront key = some (op, queues)) (hpool : Grown s.pool pool) :
      Attempt key s { s.observe [.begun (op.origin key),
          .rejected (op.origin key) .workerUnavailable] with
        queues := queues.removeIfEmpty key, pool := pool, clock := clock }
  /-- The operation became a job. -/
  | started (op : Operation) (queues : KeyedQueues KeyHash Operation) (pool : WorkerPool)
      (clock : Nat) (hidle : key ∉ s.active)
      (hbound : s.active.card < config.maxConcurrentOperations)
      (hpop : s.queues.popFront key = some (op, queues)) (hpool : Grown s.pool pool)
      (hthreads : min (s.active.card + 1) s.pool.capacity ≤ pool.handles) :
      Attempt key s { s.observe [.begun (op.origin key)] with
        queues := queues, active := insert key s.active, clock := clock
        pool := { pool with jobs := pool.jobs ++ [.operation key op] } }

variable (fates : Nat → Fate)

/-- **The inversion of `dispatch_if_idle`.**  While the pool can be sent to, a prepared job always
    reaches it. -/
theorem dispatchIfIdle_attempt (key : KeyHash) {s : Engine} (hsender : s.pool.sender = true) :
    Attempt config key s (dispatchIfIdle config fates key s) := by
  unfold dispatchIfIdle
  split
  · rename_i h
    refine .skip ?_
    rcases h with h | h
    · exact Or.inl h
    · exact Or.inr (Or.inl h)
  rename_i hguard
  rw [not_or] at hguard
  obtain ⟨hidle, hbound⟩ := hguard
  split
  · rename_i hnone
    exact .skip (Or.inr (Or.inr ((KeyedQueues.popFront_eq_none s.queues).mp hnone)))
  rename_i op queues hpop
  obtain ⟨hgrown, hres⟩ :=
    prepare_spec s.pool (fates s.clock).spawn (s.active.card + 1)
  simp only []
  generalize s.pool.prepare (fates s.clock).spawn (s.active.card + 1) = prep at hgrown hres ⊢
  obtain ⟨prepared, pool⟩ := prep
  rcases hres with ⟨hok, hthreads⟩ | herr
  · obtain rfl : prepared = .ok () := hok
    simp only []
    cases hdispatch : (fates s.clock).dispatch with
    | false =>
      simp only [WorkerPool.prepareDispatch, deliverError, Engine.observe, List.append_assoc]
      exact .failed op queues pool _ hidle (Nat.not_le.mp hbound) hpop hgrown
    | true =>
      have hopen : pool.sender = true := hgrown.sender.trans hsender
      simp only [WorkerPool.prepareDispatch, execute_ok hopen, if_true]
      exact .started op queues pool _ hidle (Nat.not_le.mp hbound) hpop hgrown hthreads
  · obtain rfl : prepared = .error .workerUnavailable := herr
    simp only [deliverError, Engine.observe, List.append_assoc]
    exact .failed op queues pool _ hidle (Nat.not_le.mp hbound) hpop hgrown

variable {config}

/-- An attempt made while no maintenance runs is at most one move. -/
theorem Attempt.moves {key : KeyHash} {s s' : Engine} (h : Attempt config key s s')
    (hphase : s.phase = .running) (hfree : s.maintenanceActive = false) :
    ReflTransGen (Move config) s s' := by
  cases h with
  | skip => exact .refl
  | failed op queues pool clock hidle hbound hpop hpool =>
    exact .single (.beginFailed key op queues pool clock hphase hidle hbound hfree hpop hpool)
  | started op queues pool clock hidle hbound hpop hpool hthreads =>
    exact .single (.begin key op queues pool clock hphase hidle hbound hfree hpop hpool hthreads)

/-- What no attempt touches. -/
structure Frame (s s' : Engine) : Prop where
  /-- A dispatch has nothing to do with phases, -/
  phase : s'.phase = s.phase
  /-- the lifecycle, -/
  lifecycle : s'.lifecycle = s.lifecycle
  /-- the pending list, -/
  pending : s'.pending = s.pending
  /-- maintenance, -/
  maintenanceActive : s'.maintenanceActive = s.maintenanceActive
  /-- the outcome that is to be delivered, -/
  outcome : s'.outcome = s.outcome
  /-- the event channel, -/
  channel : s'.channel = s.channel
  /-- or whether there is a job channel. -/
  sender : s'.pool.sender = s.pool.sender

theorem Frame.refl (s : Engine) : Frame s s := ⟨rfl, rfl, rfl, rfl, rfl, rfl, rfl⟩

theorem Frame.trans {s s' s'' : Engine} (h : Frame s s') (h' : Frame s' s'') : Frame s s'' :=
  ⟨h'.phase.trans h.phase, h'.lifecycle.trans h.lifecycle, h'.pending.trans h.pending,
    h'.maintenanceActive.trans h.maintenanceActive, h'.outcome.trans h.outcome,
    h'.channel.trans h.channel, h'.sender.trans h.sender⟩

theorem Attempt.frame {key : KeyHash} {s s' : Engine} (h : Attempt config key s s') : Frame s s' := by
  cases h with
  | skip => exact .refl s
  | failed op queues pool clock hidle hbound hpop hpool =>
    obtain ⟨h, -, rfl⟩ := hpool
    exact ⟨rfl, rfl, rfl, rfl, rfl, rfl, rfl⟩
  | started op queues pool clock hidle hbound hpop hpool =>
    obtain ⟨h, -, rfl⟩ := hpool
    exact ⟨rfl, rfl, rfl, rfl, rfl, rfl, rfl⟩

/-! ## No key that could start is left waiting

  `dispatch_available` stops at the bound, or when no idle key has anything queued: the store is
  SATURATED. The measure of its loop is what is queued, since every turn takes an operation whether the
  pool accepts its job or not. -/

variable (config) in
/-- The bound is reached, or every key with something queued is active. -/
def Saturated (s : Engine) : Prop :=
  config.maxConcurrentOperations ≤ s.active.card ∨ ∀ k, s.queues.queue k ≠ [] → k ∈ s.active

/-- An idle key the hash map yields can start; when it yields none, the store is saturated. -/
theorem findIdle_none {s : Engine} (h : findIdle fates s = none) :
    ∀ k, s.queues.queue k ≠ [] → k ∈ s.active := by
  intro k hk
  by_contra hidle
  have hmem : k ∈ s.queues.idle s.active := s.queues.mem_idle.mpr ⟨hk, hidle⟩
  have hpos := List.length_pos_iff.mpr (List.ne_nil_of_mem hmem)
  unfold findIdle at h
  rw [List.getElem?_eq_none_iff] at h
  have := Nat.mod_lt (fates s.clock).pick hpos
  omega

theorem findIdle_some {s : Engine} {k : KeyHash} (h : findIdle fates s = some k) :
    s.queues.queue k ≠ [] ∧ k ∉ s.active :=
  s.queues.mem_idle.mp (List.mem_of_getElem? h)

/-- A dispatch for a key that could start takes one operation from its queue. -/
theorem Attempt.total_lt {key : KeyHash} {s s' : Engine} (h : Attempt config key s s')
    (hidle : key ∉ s.active) (hbound : s.active.card < config.maxConcurrentOperations)
    (hqueue : s.queues.queue key ≠ []) : s'.queues.total < s.queues.total := by
  cases h with
  | skip h =>
    rcases h with h | h | h
    · exact absurd h hidle
    · exact absurd hbound (Nat.not_lt.mpr h)
    · exact absurd h hqueue
  | failed op queues pool clock _ _ hpop =>
    have := s.queues.total_popFront hpop
    have : (queues.removeIfEmpty key).total = queues.total := queues.total_removeIfEmpty key
    show (queues.removeIfEmpty key).total < _
    omega
  | started op queues pool clock _ _ hpop =>
    have := s.queues.total_popFront hpop
    show queues.total < _
    omega

/-- The loop of `dispatch_available` is a run of moves, and with enough fuel it saturates. -/
theorem dispatchAvailableLoop_spec : ∀ (fuel : Nat) (s : Engine), s.queues.total ≤ fuel →
    s.phase = .running → s.maintenanceActive = false → s.pool.sender = true →
    ReflTransGen (Move config) s (dispatchAvailableLoop config fates fuel s) ∧
      Frame s (dispatchAvailableLoop config fates fuel s) ∧
      Saturated config (dispatchAvailableLoop config fates fuel s) := by
  intro fuel
  induction fuel with
  | zero =>
    intro s hfuel _ _ _
    refine ⟨.refl, .refl s, Or.inr fun k hk => ?_⟩
    exact absurd (s.queues.queue_of_total_eq_zero (Nat.le_zero.mp hfuel) k) hk
  | succ fuel ih =>
    intro s hfuel hphase hfree hsender
    unfold dispatchAvailableLoop
    split
    · rename_i hbound
      split
      · rename_i hnone
        exact ⟨.refl, .refl s, Or.inr (findIdle_none fates hnone)⟩
      · rename_i key hsome
        obtain ⟨hqueue, hidle⟩ := findIdle_some fates hsome
        have hattempt := dispatchIfIdle_attempt config fates key
          (s := { s with clock := s.clock + 1 }) hsender
        generalize dispatchIfIdle config fates key { s with clock := s.clock + 1 } = s₁ at hattempt ⊢
        have hlt : s₁.queues.total < s.queues.total := hattempt.total_lt hidle hbound hqueue
        have hframe := hattempt.frame
        obtain ⟨hmoves, hframe', hsat⟩ := ih s₁ (by omega) (hframe.phase.trans hphase)
          (hframe.maintenanceActive.trans hfree) (hframe.sender.trans hsender)
        have hdraw : Move config s { s with clock := s.clock + 1 } := .quiet _ _ _
        refine ⟨?_, ?_, hsat⟩
        · exact (ReflTransGen.single hdraw).trans ((hattempt.moves hphase hfree).trans hmoves)
        · exact Frame.trans ⟨hframe.phase, hframe.lifecycle, hframe.pending,
            hframe.maintenanceActive, hframe.outcome, hframe.channel, hframe.sender⟩ hframe'
    · rename_i hbound
      exact ⟨.refl, .refl s, Or.inl (Nat.not_lt.mp hbound)⟩

theorem dispatchAvailable_spec {s : Engine} (hphase : s.phase = .running)
    (hfree : s.maintenanceActive = false) (hsender : s.pool.sender = true) :
    ReflTransGen (Move config) s (dispatchAvailable config fates s) ∧
      Frame s (dispatchAvailable config fates s) ∧
      Saturated config (dispatchAvailable config fates s) :=
  dispatchAvailableLoop_spec fates _ s (Nat.le_refl _) hphase hfree hsender

/-! ## Advancing the pending list in moves

  Submissions leave the list one after another, and each may be dispatched at once, so saturation has to
  be carried along: queueing one operation and then trying its key keeps it. -/

/-- Queueing an operation and then trying its key leaves a saturated store saturated. -/
theorem Saturated.push_attempt {s s₁ s₂ : Engine} {key : KeyHash} {op : Operation}
    (h : Saturated config s) (hactive : s₁.active = s.active)
    (hqueues : s₁.queues = s.queues.pushBack key op) (hattempt : Attempt config key s₁ s₂) :
    Saturated config s₂ := by
  have hpush : ∀ k, s₁.queues.queue k
      = if k = key then s.queues.queue key ++ [op] else s.queues.queue k := by
    intro k
    rw [hqueues, KeyedQueues.queue_pushBack]
  -- below the bound only the queue of an idle key can be taken from, and it was empty before
  have htaken : key ∉ s₁.active → s₁.active.card < config.maxConcurrentOperations →
      ∀ first queues, s₁.queues.popFront key = some (first, queues) →
      ∀ k, queues.queue k ≠ [] → k ∈ s₁.active := by
    intro hidle hbound first queues hpop k hk
    rw [hactive] at hidle hbound ⊢
    have hwaiting := h.resolve_left (Nat.not_le.mpr hbound)
    obtain ⟨hfront, hothers⟩ := s₁.queues.queue_popFront hpop
    have hempty : s.queues.queue key = [] := by
      by_contra hne
      exact hidle (hwaiting key hne)
    by_cases hkey : k = key
    · subst hkey
      rw [hpush, if_pos rfl, hempty] at hfront
      exact absurd (List.cons.inj hfront).2.symm hk
    · rw [hothers k hkey, hpush, if_neg hkey] at hk
      exact hwaiting k hk
  cases hattempt with
  | skip hskip =>
    rcases hskip with hkey | hbound | hempty
    · rcases h with hfull | hwaiting
      · exact Or.inl (by rw [hactive]; exact hfull)
      · refine Or.inr fun k hk => ?_
        by_cases hk' : k = key
        · rw [hk']
          exact hkey
        · rw [hpush, if_neg hk'] at hk
          rw [hactive]
          exact hwaiting k hk
    · exact Or.inl hbound
    · rw [hpush, if_pos rfl] at hempty
      exact absurd hempty (by simp)
  | failed first queues pool clock hidle hbound hpop hpool =>
    refine Or.inr fun k hk => ?_
    have hk' : (queues.removeIfEmpty key).queue k ≠ [] := hk
    rw [queues.queue_removeIfEmpty] at hk'
    exact htaken hidle hbound first queues hpop k hk'
  | started first queues pool clock hidle hbound hpop hpool =>
    refine Or.inr fun k hk => ?_
    exact Finset.mem_insert_of_mem (htaken hidle hbound first queues hpop k hk)

/-- `dispatch_maintenance`, entered from an idle store, is one move: it takes the barrier at the
    front into effect. -/
theorem dispatchMaintenance_move {s : Engine} {sub : MaintenanceSubmission} {rest : List PendingEvent}
    (hpending : s.pending = .maintenance sub :: rest) (hphase : s.phase = .running)
    (hfree : s.maintenanceActive = false) (hidle : s.busy = false) (houtcome : s.outcome = none)
    (hsender : s.pool.sender = true) :
    ∃ s', dispatchMaintenance fates sub { s.observe [.released (.maintenance sub)] with
        pending := rest, maintenanceActive := true } = s' ∧ Move config s s' ∧
      s'.maintenanceActive = true ∧ s'.phase = .running ∧ s'.queues = s.queues ∧
      s'.active = s.active ∧ s'.outcome = s.outcome := by
  refine ⟨_, rfl, ?_⟩
  unfold dispatchMaintenance
  obtain ⟨hgrown, hres⟩ := prepare_spec s.pool (fates s.clock).spawn 1
  simp only [Engine.observe]
  generalize s.pool.prepare (fates s.clock).spawn 1 = prep at hgrown hres ⊢
  obtain ⟨prepared, pool⟩ := prep
  rcases hres with ⟨hok, hthreads⟩ | herr
  · obtain rfl : prepared = .ok () := hok
    simp only []
    cases hdispatch : (fates s.clock).dispatch with
    | false =>
      simp only [WorkerPool.prepareDispatch, List.append_assoc]
      exact ⟨.maintainFailed sub rest pool _ hpending hphase hfree hidle houtcome hgrown, rfl, hphase,
        rfl, rfl, rfl⟩
    | true =>
      have hopen : pool.sender = true := hgrown.sender.trans hsender
      simp only [WorkerPool.prepareDispatch, execute_ok hopen, if_true, List.append_assoc]
      exact ⟨.maintain sub rest pool _ hpending hphase hfree hidle houtcome hgrown hthreads, trivial,
        hphase, trivial, trivial, trivial⟩
  · obtain rfl : prepared = .error .workerUnavailable := herr
    simp only [List.append_assoc]
    exact ⟨.maintainFailed sub rest pool _ hpending hphase hfree hidle houtcome hgrown, trivial, hphase,
      trivial, trivial, trivial⟩

variable (config) in
/-- How `advance_pending_if_ready` leaves the store: saturated, and with nothing pending unless a
    close is next or something has to finish first. -/
structure Advanced (s : Engine) : Prop where
  /-- No idle key could be dispatched. -/
  saturated : Saturated config s
  /-- What is at the front of the pending list has a reason to wait. -/
  waits : s.pending = [] ∨ (∃ sub rest, s.pending = .close sub :: rest) ∨ s.busy = true ∨
    s.maintenanceActive = true
  /-- The coordinator is in its loop, -/
  running : s.phase = .running
  /-- and has delivered what it had. -/
  delivered : s.outcome = none

theorem advancePending_spec : ∀ (pending : List PendingEvent) (s : Engine), s.pending = pending →
    s.phase = .running → s.maintenanceActive = false → s.outcome = none →
    s.pool.sender = true → Saturated config s →
    ReflTransGen (Move config) s (advancePending config fates pending s) ∧
      Advanced config (advancePending config fates pending s) := by
  intro pending
  induction pending with
  | nil =>
    intro s hpending hphase hfree houtcome hsender hsat
    exact ⟨.refl, hsat, Or.inl hpending, hphase, houtcome⟩
  | cons r rest ih =>
    intro s hpending hphase hfree houtcome hsender hsat
    cases r with
    | submission sub =>
      unfold advancePending
      -- the release is one move, and the attempt to dispatch adds those of its own
      have hrelease : Move config s { s.observe [.released (.submission sub)] with
          pending := rest, queues := s.queues.pushBack sub.keyHash sub.operation } :=
        .release sub rest hpending hphase hfree
      generalize hs₁ : ({ s.observe [.released (.submission sub)] with
        pending := rest, queues := s.queues.pushBack sub.keyHash sub.operation } : Engine) = s₁
        at hrelease ⊢
      have hattempt : Attempt config sub.keyHash s₁ (dispatchIfIdle config fates sub.keyHash s₁) := by
        refine dispatchIfIdle_attempt config fates _ ?_
        rw [← hs₁]
        exact hsender
      have hsat' := hsat.push_attempt (by rw [← hs₁]; rfl) (by rw [← hs₁]) hattempt
      have hframe := hattempt.frame
      have hphase₁ : s₁.phase = .running := by rw [← hs₁]; exact hphase
      have hfree₁ : s₁.maintenanceActive = false := by rw [← hs₁]; exact hfree
      obtain ⟨hmoves, hadvanced⟩ := ih (dispatchIfIdle config fates sub.keyHash s₁)
        (hframe.pending.trans (by rw [← hs₁])) (hframe.phase.trans hphase₁)
        (hframe.maintenanceActive.trans hfree₁)
        (hframe.outcome.trans (by rw [← hs₁]; exact houtcome))
        (hframe.sender.trans (by rw [← hs₁]; exact hsender)) hsat'
      exact ⟨(ReflTransGen.single hrelease).trans ((hattempt.moves hphase₁ hfree₁).trans hmoves),
        hadvanced⟩
    | maintenance sub =>
      unfold advancePending
      split
      · rename_i hbusy
        exact ⟨.refl, hsat, Or.inr (Or.inr (Or.inl hbusy)), hphase, houtcome⟩
      · rename_i hidle
        -- maintenance that starts ends the loop
        obtain ⟨s', heq, hmove, hactive, hphase', hq, ha, ho⟩ := dispatchMaintenance_move fates
          hpending hphase hfree (by simpa using hidle) houtcome hsender
        rw [heq]
        refine ⟨.single hmove, ?_, Or.inr (Or.inr (Or.inr hactive)), hphase', ho.trans houtcome⟩
        unfold Saturated
        rw [hq, ha]
        exact hsat
    | flush sender =>
      unfold advancePending
      split
      · rename_i hbusy
        exact ⟨.refl, hsat, Or.inr (Or.inr (Or.inl hbusy)), hphase, houtcome⟩
      · rename_i hidle
        have hmove : Move config s { s.observe [.released (.flush sender),
            .answered ⟨none, sender⟩ (.ok ())] with pending := rest } :=
          .flush sender rest hpending hphase hfree (by simpa using hidle) houtcome
        obtain ⟨hmoves, hadvanced⟩ := ih { s.observe [.released (.flush sender),
          .answered ⟨none, sender⟩ (.ok ())] with pending := rest } rfl hphase hfree houtcome
          hsender hsat
        exact ⟨(ReflTransGen.single hmove).trans hmoves, hadvanced⟩
    | close sub =>
      -- a close waits for all before it
      exact ⟨.refl, hsat, Or.inr (Or.inl ⟨sub, rest, hpending⟩), hphase, houtcome⟩

/-- `advance_pending_if_ready` from any state a handler calls it in. -/
theorem advancePendingIfReady_spec {s : Engine} (hphase : s.phase = .running)
    (houtcome : s.outcome = none) (hsender : s.pool.sender = true) (hsat : Saturated config s) :
    ReflTransGen (Move config) s (advancePendingIfReady config fates s) ∧
      Advanced config (advancePendingIfReady config fates s) := by
  unfold advancePendingIfReady
  split
  · rename_i hactive
    exact ⟨.refl, hsat, Or.inr (Or.inr (Or.inr hactive)), hphase, houtcome⟩
  · rename_i hfree
    exact advancePending_spec fates s.pending s rfl hphase (by simpa using hfree) houtcome hsender hsat

/-! ## Handling an event in moves

  One lemma for each arm, all of the same form: from a settled store, the arm is a run of moves to a
  settled store.  What an arm relies on (`Ready`) is part of the invariant, so the lemmas can be used in
  any reachable state. -/

variable (config) in
/-- The store between two events. -/
structure Settled (s : Engine) : Prop where
  /-- No idle key could be dispatched. -/
  saturated : Saturated config s
  /-- What is pending waits for something that is active. -/
  waits : s.phase = .running → s.pending ≠ [] → s.maintenanceActive = true ∨ s.active.Nonempty
  /-- Nothing is kept for delivery. -/
  delivered : s.outcome = none

/-- In a saturated store whatever is busy has a key active. -/
theorem Saturated.active_of_busy {s : Engine} (h : Saturated config s) (hbusy : s.busy = true) :
    s.active.Nonempty := by
  by_contra hempty
  rw [Finset.not_nonempty_iff_eq_empty] at hempty
  have hidle : s.busy = false := by
    rw [Engine.busy_eq_false]
    refine ⟨hempty, fun k => ?_⟩
    by_contra hk
    rcases h with hfull | hwaiting
    · rw [hempty, Finset.card_empty] at hfull
      exact absurd config.concurrency_pos (Nat.not_lt.mpr hfull)
    · have := hwaiting k hk
      rw [hempty] at this
      exact absurd this (Finset.notMem_empty k)
  rw [hidle] at hbusy
  nomatch hbusy

theorem exists_close_of_head {pending : List PendingEvent}
    (h : pending.head?.any PendingEvent.isClose = true) :
    ∃ sub rest, pending = .close sub :: rest := by
  cases pending with
  | nil => nomatch h
  | cons r rest =>
    cases r with
    | close sub => exact ⟨sub, rest, rfl⟩
    | submission sub => nomatch h
    | maintenance sub => nomatch h
    | flush sender => nomatch h

/-- The check after an event, from the state a handler leaves. -/
theorem shutdownIfDrained_spec {s : Engine} (h : Advanced config s) :
    ReflTransGen (Move config) s (shutdownIfDrained s) ∧ Settled config (shutdownIfDrained s) := by
  unfold shutdownIfDrained
  split
  · rename_i hcond
    simp only [Bool.and_eq_true, Bool.not_eq_true'] at hcond
    obtain ⟨⟨hhead, hidle⟩, hfree⟩ := hcond
    obtain ⟨sub, rest, hpending⟩ := exists_close_of_head hhead
    exact ⟨.single (.stop sub rest hpending h.running hfree hidle h.delivered), h.saturated,
      fun hphase => (nomatch hphase), h.delivered⟩
  · rename_i hcond
    refine ⟨.refl, h.saturated, fun _ hne => ?_, h.delivered⟩
    rcases h.waits with hnil | ⟨sub, rest, hclose⟩ | hbusy | hactive
    · exact absurd hnil hne
    · cases hactive : s.maintenanceActive with
      | true => exact Or.inl rfl
      | false =>
        refine Or.inr (h.saturated.active_of_busy ?_)
        simpa [hclose, PendingEvent.isClose, hactive] using hcond
    · exact Or.inr (h.saturated.active_of_busy hbusy)
    · exact Or.inl hactive

/-- What the handlers rely on. -/
structure Ready (s : Engine) : Prop where
  /-- The coordinator is in its loop, -/
  running : s.phase = .running
  /-- jobs can be sent, -/
  sender : s.pool.sender = true
  /-- the store has not ended, -/
  lifecycle : s.lifecycle = .opened ∨ s.lifecycle = .closing
  /-- and no operation has run beside maintenance. -/
  exclusive : ∀ done, .completion done ∈ s.channel → s.maintenanceActive = false

variable {s : Engine} {rest : List CoordinatorEvent}

/-- Advance the pending list and check for the shutdown. -/
theorem advance_spec (hphase : s.phase = .running) (houtcome : s.outcome = none)
    (hsender : s.pool.sender = true) (hsat : Saturated config s) :
    ReflTransGen (Move config) s (shutdownIfDrained (advancePendingIfReady config fates s)) ∧
      Settled config (shutdownIfDrained (advancePendingIfReady config fates s)) := by
  obtain ⟨hmoves, hadvanced⟩ := advancePendingIfReady_spec fates hphase houtcome hsender hsat
  obtain ⟨hmoves', hsettled⟩ := shutdownIfDrained_spec hadvanced
  exact ⟨hmoves.trans hmoves', hsettled⟩

theorem onSubmission_spec (h : Ready s) (hs : Settled config s) (sub : Submission)
    (hchannel : s.channel = .submission sub :: rest) :
    ReflTransGen (Move config) s (onSubmission config fates sub { s with channel := rest }) ∧
      Settled config (onSubmission config fates sub { s with channel := rest }) := by
  unfold onSubmission
  simp only [Engine.observe, deliverError, List.append_assoc]
  split
  · rename_i hlock
    exact ⟨.single (.dismiss (.submission sub) rest hchannel rfl hlock), hs.saturated, hs.waits,
      hs.delivered⟩
  rename_i hlock
  replace hlock : s.lifecycle = .opened := Decidable.not_not.mp hlock
  split
  · rename_i hwait
    refine ⟨.single (.park (.submission sub) rest hchannel rfl h.running hlock), hs.saturated,
      fun _ _ => ?_, hs.delivered⟩
    rcases Bool.or_eq_true_iff.mp hwait with hactive | hne
    · exact Or.inl hactive
    · exact hs.waits h.running (by simpa using hne)
  · rename_i hwait
    obtain ⟨hfree, hpending⟩ : s.maintenanceActive = false ∧ s.pending = [] := by
      simpa using hwait
    have haccept : Move config s { s.observe [.received (.submission sub),
        .released (.submission sub)] with
        channel := rest, queues := s.queues.pushBack sub.keyHash sub.operation } :=
      .accept sub rest hchannel h.running hlock hpending hfree
    simp only [Engine.observe, List.cons_append, List.nil_append] at haccept ⊢
    generalize hs₁ : ({ s with channel := rest, log := s.log ++ [.received (.submission sub),
      .released (.submission sub)], queues := s.queues.pushBack sub.keyHash sub.operation } : Engine)
      = s₁ at haccept ⊢
    have hphase₁ : s₁.phase = .running := by rw [← hs₁]; exact h.running
    have hfree₁ : s₁.maintenanceActive = false := by rw [← hs₁]; exact hfree
    have hsender₁ : s₁.pool.sender = true := by rw [← hs₁]; exact h.sender
    have hattempt := dispatchIfIdle_attempt config fates sub.keyHash hsender₁
    generalize dispatchIfIdle config fates sub.keyHash s₁ = s₂ at hattempt ⊢
    have hframe := hattempt.frame
    obtain ⟨hmoves, hframe', hsat⟩ := dispatchAvailable_spec fates (hframe.phase.trans hphase₁)
      (hframe.maintenanceActive.trans hfree₁) (hframe.sender.trans hsender₁)
    have hall := hframe.trans hframe'
    obtain ⟨hmoves', hsettled⟩ := shutdownIfDrained_spec
      ⟨hsat, Or.inl (hall.pending.trans (by rw [← hs₁]; exact hpending)), hall.phase.trans hphase₁,
        hall.outcome.trans (by rw [← hs₁]; exact hs.delivered)⟩
    exact ⟨(ReflTransGen.single haccept).trans
      ((hattempt.moves hphase₁ hfree₁).trans (hmoves.trans hmoves')), hsettled⟩

theorem onCompletion_spec (h : Ready s) (hs : Settled config s) (done : Completion)
    (hchannel : s.channel = .completion done :: rest) :
    ReflTransGen (Move config) s (onCompletion config fates done { s with channel := rest }) ∧
      Settled config (onCompletion config fates done { s with channel := rest }) := by
  unfold onCompletion
  have hfree : s.maintenanceActive = false := h.exclusive done (by rw [hchannel]; simp)
  have htake : Move config s { s with
      channel := rest, outcome := done.outcome.map fun f => (done.keyHash, f)
      active := s.active.erase done.keyHash } :=
    .takeCompletion done rest hchannel h.running hs.delivered
  simp only []
  generalize hs₁ : ({ s with
    channel := rest, outcome := done.outcome.map fun f => (done.keyHash, f)
    active := s.active.erase done.keyHash } : Engine) = s₁ at htake ⊢
  have hphase₁ : s₁.phase = .running := by rw [← hs₁]; exact h.running
  have hfree₁ : s₁.maintenanceActive = false := by rw [← hs₁]; exact hfree
  have hsender₁ : s₁.pool.sender = true := by rw [← hs₁]; exact h.sender
  have hattempt := dispatchIfIdle_attempt config fates done.keyHash hsender₁
  generalize dispatchIfIdle config fates done.keyHash s₁ = s₂ at hattempt ⊢
  have hframe := hattempt.frame
  obtain ⟨hmoves, hframe', hsat⟩ := dispatchAvailable_spec fates (hframe.phase.trans hphase₁)
    (hframe.maintenanceActive.trans hfree₁) (hframe.sender.trans hsender₁)
  generalize dispatchAvailable config fates s₂ = s₃ at hmoves hframe' hsat ⊢
  have hall := hframe.trans hframe'
  have hto₃ : ReflTransGen (Move config) s s₃ :=
    (ReflTransGen.single htake).trans ((hattempt.moves hphase₁ hfree₁).trans hmoves)
  -- drop an empty entry, or leave everything as it is
  obtain ⟨s₄, hs₄, htidy, hsat₄, hframe₄⟩ : ∃ s₄, (if done.keyHash ∉ s₃.active then
      { s₃ with queues := s₃.queues.removeIfEmpty done.keyHash } else s₃) = s₄ ∧
      ReflTransGen (Move config) s₃ s₄ ∧ Saturated config s₄ ∧ Frame s₃ s₄ := by
    refine ⟨_, rfl, ?_⟩
    split
    · refine ⟨.single (.tidy done.keyHash (hall.phase.trans hphase₁)), ?_, ⟨rfl, rfl, rfl, rfl, rfl, rfl, rfl⟩⟩
      rcases hsat with hfull | hwaiting
      · exact Or.inl hfull
      · refine Or.inr fun k hk => hwaiting k ?_
        have hk' : (s₃.queues.removeIfEmpty done.keyHash).queue k ≠ [] := hk
        rwa [KeyedQueues.queue_removeIfEmpty] at hk'
    · exact ⟨.refl, hsat, .refl s₃⟩
  rw [hs₄]
  have hall₄ := hall.trans hframe₄
  have hphase₄ := hall₄.phase.trans hphase₁
  have hsender₄ := hall₄.sender.trans hsender₁
  -- send the outcome
  split
  · rename_i key f houtcome
    have hdeliver : Move config s₄ (deliver key f { s₄ with outcome := none }) :=
      .deliver key f hphase₄ houtcome
    obtain ⟨hmoves', hsettled⟩ := advance_spec fates (s := deliver key f { s₄ with outcome := none })
      hphase₄ rfl hsender₄ hsat₄
    exact ⟨hto₃.trans (htidy.trans ((ReflTransGen.single hdeliver).trans hmoves')), hsettled⟩
  · rename_i houtcome
    obtain ⟨hmoves', hsettled⟩ := advance_spec fates hphase₄ houtcome hsender₄ hsat₄
    exact ⟨hto₃.trans (htidy.trans hmoves'), hsettled⟩

/-- A barrier is refused, or put at the end of the pending list, which is then advanced. -/
theorem barrier_spec (h : Ready s) (hs : Settled config s) (r : PendingEvent)
    (hchannel : s.channel = r.event :: rest) (hclose : r.isClose = false)
    (hlock : s.lifecycle = .opened) :
    ReflTransGen (Move config) s (shutdownIfDrained (advancePendingIfReady config fates
        { s.observe [.received r] with channel := rest, pending := s.pending ++ [r] })) ∧
      Settled config (shutdownIfDrained (advancePendingIfReady config fates
        { s.observe [.received r] with channel := rest, pending := s.pending ++ [r] })) := by
  have hpark : Move config s
      { s.observe [.received r] with channel := rest, pending := s.pending ++ [r] } :=
    .park r rest hchannel hclose h.running hlock
  obtain ⟨hmoves, hsettled⟩ := advance_spec fates
    (s := { s.observe [.received r] with channel := rest, pending := s.pending ++ [r] })
    h.running hs.delivered h.sender hs.saturated
  exact ⟨(ReflTransGen.single hpark).trans hmoves, hsettled⟩

theorem onMaintenance_spec (h : Ready s) (hs : Settled config s) (sub : MaintenanceSubmission)
    (hchannel : s.channel = .maintenance sub :: rest) :
    ReflTransGen (Move config) s (onMaintenance config fates sub { s with channel := rest }) ∧
      Settled config (onMaintenance config fates sub { s with channel := rest }) := by
  unfold onMaintenance
  simp only [Engine.observe, List.append_assoc]
  split
  · rename_i hlock
    exact ⟨.single (.dismiss (.maintenance sub) rest hchannel rfl hlock), hs.saturated, hs.waits,
      hs.delivered⟩
  · rename_i hlock
    exact barrier_spec fates h hs (.maintenance sub) hchannel rfl (Decidable.not_not.mp hlock)

theorem onFlush_spec (h : Ready s) (hs : Settled config s) (sender : Ticket)
    (hchannel : s.channel = .flush sender :: rest) :
    ReflTransGen (Move config) s (onFlush config fates sender { s with channel := rest }) ∧
      Settled config (onFlush config fates sender { s with channel := rest }) := by
  unfold onFlush
  simp only [Engine.observe, List.append_assoc]
  split
  · rename_i hlock
    exact ⟨.single (.dismiss (.flush sender) rest hchannel rfl hlock), hs.saturated, hs.waits,
      hs.delivered⟩
  · rename_i hlock
    exact barrier_spec fates h hs (.flush sender) hchannel rfl (Decidable.not_not.mp hlock)

theorem onMaintenanceCompletion_spec (h : Ready s) (hs : Settled config s)
    (done : MaintenanceCompletion) (hchannel : s.channel = .maintenanceCompletion done :: rest) :
    ReflTransGen (Move config) s
        (onMaintenanceCompletion config fates done { s with channel := rest }) ∧
      Settled config (onMaintenanceCompletion config fates done { s with channel := rest }) := by
  have htake : Move config s { s.observe (done.outcome.toList.map fun o =>
      .delivered ⟨none, o.sender⟩ (.cleanup o.result)) with
      channel := rest, maintenanceActive := false } :=
    .takeMaintenance done rest hchannel h.running
  have hheq : onMaintenanceCompletion config fates done { s with channel := rest } =
      shutdownIfDrained (advancePendingIfReady config fates { s.observe (done.outcome.toList.map
        fun o => .delivered ⟨none, o.sender⟩ (.cleanup o.result)) with
        channel := rest, maintenanceActive := false }) := by
    unfold onMaintenanceCompletion
    cases done.outcome with
    | none => simp [Engine.observe]
    | some o => rfl
  rw [hheq]
  obtain ⟨hmoves, hsettled⟩ := advance_spec fates (s := { s.observe (done.outcome.toList.map fun o =>
      .delivered ⟨none, o.sender⟩ (.cleanup o.result)) with
      channel := rest, maintenanceActive := false })
    h.running hs.delivered h.sender hs.saturated
  exact ⟨(ReflTransGen.single htake).trans hmoves, hsettled⟩

theorem onClose_spec (h : Ready s) (hs : Settled config s) (sub : CloseSubmission)
    (hchannel : s.channel = .close sub :: rest) :
    ReflTransGen (Move config) s (onClose config fates sub { s with channel := rest }) ∧
      Settled config (onClose config fates sub { s with channel := rest }) := by
  unfold onClose
  rcases h.lifecycle with hlock | hlock
  · have hmove : Move config s { s.observe [.received (.close sub), .moved .closing] with
        channel := rest, lifecycle := .closing, pending := s.pending ++ [.close sub] } :=
      .closeFirst sub rest hchannel h.running hlock
    obtain ⟨hmoves, hsettled⟩ := advance_spec fates
      (s := { s.observe [.received (.close sub), .moved .closing] with
        channel := rest, lifecycle := .closing, pending := s.pending ++ [.close sub] })
      h.running hs.delivered h.sender hs.saturated
    simp only [Engine.observe, List.append_assoc, hlock] at hmove hmoves hsettled ⊢
    exact ⟨(ReflTransGen.single hmove).trans hmoves, hsettled⟩
  · have hmove : Move config s { s.observe [.received (.close sub)] with
        channel := rest, pending := s.pending ++ [.close sub] } :=
      .closeMore sub rest hchannel h.running hlock
    obtain ⟨hmoves, hsettled⟩ := advance_spec fates
      (s := { s.observe [.received (.close sub)] with
        channel := rest, pending := s.pending ++ [.close sub] })
      h.running hs.delivered h.sender hs.saturated
    simp only [Engine.observe, hlock] at hmove hmoves hsettled ⊢
    exact ⟨(ReflTransGen.single hmove).trans hmoves, hsettled⟩

/-- **Handling an event is a run of moves that settles the store again.** -/
theorem onEvent_spec (h : Ready s) (hs : Settled config s) (ev : CoordinatorEvent)
    (hchannel : s.channel = ev :: rest) :
    ReflTransGen (Move config) s (onEvent config fates ev { s with channel := rest }) ∧
      Settled config (onEvent config fates ev { s with channel := rest }) := by
  cases ev with
  | submission sub => exact onSubmission_spec fates h hs sub hchannel
  | completion done => exact onCompletion_spec fates h hs done hchannel
  | maintenance sub => exact onMaintenance_spec fates h hs sub hchannel
  | maintenanceCompletion done => exact onMaintenanceCompletion_spec fates h hs done hchannel
  | flush sender => exact onFlush_spec fates h hs sender hchannel
  | close sub => exact onClose_spec fates h hs sub hchannel

end Moves

end AtomicBlobStore
