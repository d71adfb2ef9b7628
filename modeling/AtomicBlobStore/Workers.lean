/-
  The WORKER POOL (`engine/workers.rs`, and where `engine/scheduler.rs` uses it).

  Threads are started when a job is about to be dispatched, as many as there are active keys and one
  more; a start that fails leaves those that were started.  Whether a job is unfinished can only be
  read off the coordinator's side with a delay, because a completion may still be in the channel.

  1. **Threads**: nothing but `prepare` makes threads, and it stops at the capacity.  `Within` is
     kept by whatever the coordinator does to the pool (`onEvent_pool`, the rule for properties of
     the pool alone).

  2. **Unfinished jobs** (`Engine.unfinished`): the active keys whose completion was not sent, and
     the maintenance job while it is active; these are the jobs in the pool (`unfinished_eq`), so the
     bound of `Inv` on the jobs is one on them.

  3. **Nobody waits** (`starts_all`): every job in the job channel can be started without any running
     job coming to an end.

  Source and model agree on what a thread does only up to the completion it sends: here the end of a
  job and the sending of its completion are one step, so a thread is idle as soon as its completion is
  in the channel.  The coordinator reacts to the completion, and by then the thread is on its way back
  to the job channel, where nothing keeps it from taking the next job.
-/
import AtomicBlobStore.DispatchLoops
import AtomicBlobStore.Guarantees

namespace AtomicBlobStore

open Relation

section Workers

variable {config : StoreConfig} {fates : Nat → Fate} {s s' : Engine}

/-! ## What an event does to the pool

  The coordinator touches the pool in three ways: it asks for threads, it sends a job, and it closes
  the channel.  A property that each of them keeps is kept by every arm, whatever the arm does
  besides. -/

/-- A property of the pool that the three things the coordinator does to it keep. -/
structure PoolRule (P : WorkerPool → Prop) : Prop where
  /-- Asking for threads keeps it, -/
  prepare : ∀ pool spawn required, P pool → P (pool.prepare spawn required).2
  /-- sending a job keeps it, -/
  execute : ∀ pool job pool', pool.execute job = .ok pool' → P pool → P pool'
  /-- and closing the channel keeps it. -/
  stop : ∀ pool, P pool → P { pool with sender := false }

section Rule

variable {P : WorkerPool → Prop} (hP : PoolRule P)
include hP

/-- A dispatch asks for threads and sends, or stops at either. -/
theorem dispatchIfIdle_pool (key : KeyHash) (h : P s.pool) :
    P (dispatchIfIdle config fates key s).pool := by
  unfold dispatchIfIdle
  split
  · exact h
  split
  · exact h
  have hprepared := hP.prepare s.pool (fates s.clock).spawn (s.active.card + 1) h
  simp only []
  generalize s.pool.prepare (fates s.clock).spawn (s.active.card + 1) = prep at hprepared ⊢
  obtain ⟨prepared, pool⟩ := prep
  cases prepared with
  | error e => exact hprepared
  | ok u =>
    simp only []
    cases WorkerPool.prepareDispatch (fates s.clock).dispatch with
    | error e => exact hprepared
    | ok u =>
      simp only []
      split
      · rename_i pool' hexecute
        exact hP.execute pool _ pool' hexecute hprepared
      · exact hprepared

/-- So does the dispatch of a maintenance job. -/
theorem dispatchMaintenance_pool (sub : MaintenanceSubmission) (h : P s.pool) :
    P (dispatchMaintenance fates sub s).pool := by
  unfold dispatchMaintenance
  have hprepared := hP.prepare s.pool (fates s.clock).spawn 1 h
  simp only []
  generalize s.pool.prepare (fates s.clock).spawn 1 = prep at hprepared ⊢
  obtain ⟨prepared, pool⟩ := prep
  cases prepared with
  | error e => exact hprepared
  | ok u =>
    simp only []
    cases WorkerPool.prepareDispatch (fates s.clock).dispatch with
    | error e => exact hprepared
    | ok u =>
      simp only []
      split
      · rename_i pool' hexecute
        exact hP.execute pool _ pool' hexecute hprepared
      · exact hprepared

theorem dispatchAvailable_pool (h : P s.pool) : P (dispatchAvailable config fates s).pool :=
  dispatchAvailable_keeps (P := fun s => P s.pool) fates
    (fun _ key ht => dispatchIfIdle_pool hP key ht) h

theorem advance_pool (h : P s.pool) : P (advancePendingIfReady config fates s).pool :=
  advancePendingIfReady_keeps (P := fun s => P s.pool) fates
    (fun _ _ _ _ ht => dispatchIfIdle_pool hP _ ht)
    (fun _ _ _ _ ht => dispatchMaintenance_pool hP _ ht) (fun _ _ _ _ ht => ht) h

/-- The check at the end of an arm closes the channel, or does nothing. -/
theorem shutdown_pool (h : P s.pool) : P (shutdownIfDrained s).pool := by
  unfold shutdownIfDrained
  split
  · exact hP.stop _ h
  · exact h

/-- **The rule for the pool**: an event keeps what each use of the pool keeps. -/
theorem onEvent_pool (ev : CoordinatorEvent) (h : P s.pool) :
    P (onEvent config fates ev s).pool := by
  obtain ⟨s', hhandles⟩ := exists_handles config fates ev s
  rw [← hhandles.onEvent]
  cases hhandles with
  | submissionRefused sub hlock => exact h
  | submissionParked sub hlock hwait => exact h
  | submission sub hlock hwait hfills =>
    rw [(fills_iff fates).mp hfills]
    exact shutdown_pool hP (dispatchAvailable_pool hP (dispatchIfIdle_pool hP _ h))
  | completion done hfills hadvances =>
    rw [(advances_iff fates).mp hadvances, (fills_iff fates).mp hfills]
    refine shutdown_pool hP (advance_pool hP ?_)
    have hconclude : ∀ t : Engine, (concludeCompletion done.keyHash t).pool = t.pool := by
      intro t
      unfold concludeCompletion
      simp only []
      split <;> split <;> rfl
    rw [hconclude]
    exact dispatchAvailable_pool hP (dispatchIfIdle_pool hP _ h)
  | maintenanceRefused sub hlock => exact h
  | maintenance sub hlock hadvances =>
    rw [(advances_iff fates).mp hadvances]
    exact shutdown_pool hP (advance_pool hP h)
  | maintenanceCompletion done hadvances =>
    rw [(advances_iff fates).mp hadvances]
    exact shutdown_pool hP (advance_pool hP h)
  | flushRefused sender hlock => exact h
  | flush sender hlock hadvances =>
    rw [(advances_iff fates).mp hadvances]
    exact shutdown_pool hP (advance_pool hP h)
  | close sub hadvances =>
    rw [(advances_iff fates).mp hadvances]
    refine shutdown_pool hP (advance_pool hP ?_)
    unfold recordClose
    split <;> exact h

end Rule

/-! ## Threads -/

/-- There are no more threads than the capacity allows. -/
def Within (pool : WorkerPool) : Prop := pool.handles ≤ pool.capacity

/-- The loop of `prepare` makes no more threads than are missing, whether they can be spawned or not. -/
theorem within_spawnMissing (spawn : Nat → Bool) : ∀ (missing : Nat) (pool : WorkerPool),
    pool.handles + missing ≤ pool.capacity → Within (pool.spawnMissing spawn missing).2 := by
  intro missing
  induction missing with
  | zero => exact fun pool h => h
  | succ missing ih =>
    intro pool h
    unfold WorkerPool.spawnMissing
    split
    · refine ih _ ?_
      show pool.handles + 1 + missing ≤ pool.capacity
      omega
    · show pool.handles ≤ pool.capacity
      omega

/-- `prepare` stops at the capacity, and the rest makes no threads. -/
theorem within_rule : PoolRule Within where
  prepare pool spawn required h := by
    refine within_spawnMissing spawn _ pool ?_
    have : pool.handles ≤ pool.capacity := h
    omega
  execute pool job pool' hexecute h := by
    unfold WorkerPool.execute at hexecute
    split at hexecute
    · obtain rfl := Except.ok.inj hexecute
      exact h
    · nomatch hexecute
  stop pool h := h

/-- Callers do not reach the pool. -/
theorem precheck_pool (r : PendingEvent) : (precheck config r s).pool = s.pool := by
  unfold precheck
  split
  · rfl
  · split <;> rfl

theorem submit_pool (r : PendingEvent) : (submit r s).pool = s.pool := by
  unfold submit
  split
  · split <;> rfl
  all_goals rfl

theorem close_pool (sub : CloseSubmission) : (close sub s).pool = s.pool := by
  unfold close
  split
  · rfl
  · rfl
  · rfl
  · split <;> rfl
  · split <;> rfl

/-- Only events reach the pool, and the workers' own steps leave its threads. -/
theorem within_step (h : Within s.pool) (hstep : Step config fates s s') : Within s'.pool := by
  cases hstep with
  | event ev rest hphase hchannel => exact onEvent_pool within_rule ev h
  | precheck r hhandle hclose hfresh =>
    rw [precheck_pool r]
    exact h
  | submit r hhandle hclose hvalid hfresh =>
    rw [submit_pool r]
    exact h
  | close sub hhandle hfresh =>
    rw [close_pool sub]
    exact h
  | finishShutdown ok hphase hjobs hrunning => exact Nat.zero_le _
  | disconnect ok hphase hgone =>
    unfold finishDisconnected
    simp only []
    split
    · exact Nat.zero_le _
    · exact Nat.zero_le _
  | drainEvent ok ev rest hphase hchannel =>
    cases ev with
    | close sub => exact h
    | submission sub => exact h
    | maintenance sub => exact h
    | flush sender => exact h
    | completion done => exact h
    | maintenanceCompletion done => exact h
  | cloneHandle hhandle => exact h
  | dropHandle hhandle => exact h
  | dropWaiter ticket => exact h
  | startJob job rest hjobs hthread => exact h
  | finishJob front back job ev entries hrunning hend => exact h
  | leave ok hphase hchannel => exact h
  | dropReceiver hphase => exact h

/-- So no run of the store has more threads than its capacity. -/
theorem within_reachable (h : (engineSystem config fates).Reachable s) : Within s.pool := by
  refine System.Reachable.invariant (P := fun s => Within s.pool) ?_
    (fun s s' _ hs hstep => within_step hs hstep) h
  rintro s rfl
  exact Nat.zero_le _

/-! ## Unfinished jobs

  The bound on threads is useful only if it is the number of jobs that may be unfinished at one time.
  A job whose completion is in the channel has left its worker, although its key is still active. -/

/-- The keys whose completion was sent and not handled. -/
abbrev Engine.completing (s : Engine) : List KeyHash := s.channel.filterMap CoordinatorEvent.key?

/-- The dispatched jobs that are not finished, as the coordinator could count them: one for each
    active key whose completion was not sent, and one for active maintenance. -/
def Engine.unfinished (s : Engine) : Nat :=
  (s.active.filter fun k => k ∉ s.completing).card +
    if s.maintenanceActive && !s.channel.any CoordinatorEvent.isMaintenanceCompletion then 1 else 0

/-- The jobs in the pool. -/
abbrev Engine.poolJobs (s : Engine) : List WorkerJob := s.pool.jobs ++ s.pool.running

/-- A job is on a key or maintenance. -/
theorem length_jobs (jobs : List WorkerJob) :
    jobs.length = (jobs.filterMap WorkerJob.key?).length + jobs.countP WorkerJob.isMaintenance := by
  induction jobs with
  | nil => rfl
  | cons job jobs ih =>
    cases job with
    | operation key op =>
      have hkey : (WorkerJob.operation key op).key? = some key := rfl
      rw [List.filterMap_cons_some hkey, List.countP_cons_of_neg Bool.false_ne_true,
        List.length_cons, List.length_cons, ih]
      omega
    | maintenance sub =>
      have hkey : (WorkerJob.maintenance sub).key? = none := rfl
      rw [List.filterMap_cons_none hkey, List.countP_cons_of_pos rfl, List.length_cons, ih]
      omega

/-- The jobs on keys are those of the active keys whose completion was not sent. -/
theorem keys_unfinished (h : Inv config s) : (s.poolJobs.filterMap WorkerJob.key?).length =
    (s.active.filter fun k => k ∉ s.completing).card := by
  have hcount : ∀ k, (s.poolJobs.filterMap WorkerJob.key?).count k + s.completing.count k =
      if k ∈ s.active then 1 else 0 := by
    intro k
    rw [← h.active k]
    unfold Engine.outstanding
    rw [← List.filterMap_append, List.count_append]
  have hnodup : (s.poolJobs.filterMap WorkerJob.key?).Nodup := by
    rw [List.nodup_iff_count_le_one]
    intro k
    have := hcount k
    split at this <;> omega
  rw [← List.toFinset_card_of_nodup hnodup]
  congr 1
  ext k
  rw [List.mem_toFinset, Finset.mem_filter, ← List.count_pos_iff, ← List.count_eq_zero]
  have := hcount k
  by_cases hk : k ∈ s.active
  · rw [if_pos hk] at this
    constructor
    · intro hpos
      exact ⟨hk, by omega⟩
    · rintro ⟨-, hzero⟩
      omega
  · rw [if_neg hk] at this
    constructor
    · intro hpos
      omega
    · rintro ⟨hk', -⟩
      exact absurd hk' hk

/-- The maintenance job is in the pool while it is active and its completion was not sent. -/
theorem maintenance_unfinished (h : Inv config s) : s.poolJobs.countP WorkerJob.isMaintenance =
    if s.maintenanceActive && !s.channel.any CoordinatorEvent.isMaintenanceCompletion then 1 else 0 := by
  have hcount : s.poolJobs.countP WorkerJob.isMaintenance +
      s.channel.countP CoordinatorEvent.isMaintenanceCompletion = s.maintenanceActive.toNat := by
    rw [← h.maintenance, List.countP_append]
    rfl
  have hany : s.channel.any CoordinatorEvent.isMaintenanceCompletion = true ↔
      0 < s.channel.countP CoordinatorEvent.isMaintenanceCompletion := by
    rw [List.any_eq_true, List.countP_pos_iff]
  cases hactive : s.maintenanceActive with
  | false =>
    rw [hactive] at hcount
    have : (false : Bool).toNat = 0 := rfl
    rw [Bool.false_and, if_neg Bool.false_ne_true]
    omega
  | true =>
    rw [hactive] at hcount
    have hone : (true : Bool).toNat = 1 := rfl
    cases hsent : s.channel.any CoordinatorEvent.isMaintenanceCompletion with
    | true =>
      have := hany.mp hsent
      rw [if_neg (by decide)]
      omega
    | false =>
      have : ¬ 0 < s.channel.countP CoordinatorEvent.isMaintenanceCompletion := fun hpos => by
        rw [hany.mpr hpos] at hsent
        nomatch hsent
      rw [if_pos (by decide)]
      omega

/-- **The unfinished jobs are those in the pool.** -/
theorem unfinished_eq (h : Inv config s) :
    s.unfinished = s.pool.jobs.length + s.pool.running.length := by
  unfold Engine.unfinished
  rw [← keys_unfinished h, ← maintenance_unfinished h, ← length_jobs, List.length_append]

/-! ## Nobody waits

  The threads outnumber the jobs, and idle threads take from the channel.  So a long job never keeps
  another one waiting, and a run in which no job ends shows it. -/

/-- Idle threads take the waiting jobs, one after the other, while the running ones go on. -/
theorem starts_all : ∀ (waiting : List WorkerJob) (s : Engine), s.pool.jobs = waiting →
    s.pool.jobs.length + s.pool.running.length ≤ s.pool.handles →
    ∃ s', ReflTransGen (Step config fates) s s' ∧ s'.pool.jobs = [] ∧
      s'.pool.running = s.pool.running ++ waiting ∧
      s'.log = s.log ++ waiting.map fun job => .executed job.origin := by
  intro waiting
  induction waiting with
  | nil =>
    intro s hjobs _
    exact ⟨s, .refl, hjobs, (List.append_nil _).symm, (List.append_nil _).symm⟩
  | cons job rest ih =>
    intro s hjobs hthreads
    have hlength : s.pool.jobs.length = rest.length + 1 := by
      rw [hjobs]
      rfl
    have hstart : Step config fates s { s.observe [.executed job.origin] with
        pool := { s.pool with jobs := rest, running := s.pool.running ++ [job] } } :=
      .startJob job rest hjobs (by omega)
    obtain ⟨s', hrun, hempty, hrunning, hlog⟩ := ih { s.observe [.executed job.origin] with
        pool := { s.pool with jobs := rest, running := s.pool.running ++ [job] } } rfl (by
      show rest.length + (s.pool.running ++ [job]).length ≤ s.pool.handles
      rw [List.length_append, List.length_singleton]
      omega)
    refine ⟨s', .head hstart hrun, hempty, ?_, ?_⟩
    · rw [hrunning]
      show s.pool.running ++ [job] ++ rest = _
      rw [List.append_assoc]
      rfl
    · rw [hlog]
      show s.log ++ [.executed job.origin] ++ _ = _
      rw [List.append_assoc]
      rfl

/-! ## The result -/

/-- What a dispatched job may rely on.  It is a statement about one state, and the run in `starts`
    leads on from there. -/
structure WorkersSuffice (config : StoreConfig) (fates : Nat → Fate) (s : Engine) : Prop where
  /-- The unfinished jobs are those in the pool, and there is a thread for each of them. -/
  unfinished : s.unfinished = s.pool.jobs.length + s.pool.running.length
  /-- There are threads for all of them, -/
  threads : s.unfinished ≤ s.pool.handles
  /-- and no more threads than operations may run at a time. -/
  capacity : s.pool.handles ≤ config.maxConcurrentOperations
  /-- Where a job waits a thread is idle. -/
  idle : s.pool.jobs ≠ [] → s.pool.running.length < s.pool.handles
  /-- All waiting jobs can start although none of the running ones ends. -/
  starts : ∃ s', ReflTransGen (Step config fates) s s' ∧ s'.pool.jobs = [] ∧
    s'.pool.running = s.pool.running ++ s.pool.jobs ∧
    s'.log = s.log ++ s.pool.jobs.map fun job => .executed job.origin
  /-- Once the pool is shut down no job is unfinished. -/
  shutdown : s.pool.sender = false → s.unfinished = 0 ∧ s.pool.jobs = [] ∧ s.pool.running = []

/-- **A dispatched job has a worker of its own**, in every reachable state.  The threads are counted
    by the coordinator when it dispatches, from what it believes to be active.  That this is enough
    needs the unfinished jobs to be no more than the coordinator counts. -/
theorem workers_suffice (h : (engineSystem config fates).Reachable s) :
    WorkersSuffice config fates s := by
  obtain ⟨hinv, hs⟩ := inv_reachable h
  have heq := unfinished_eq hinv
  have hthreads := hinv.threads
  refine ⟨heq, by omega, ?_, fun hwaiting => ?_, starts_all s.pool.jobs s rfl hthreads, ?_⟩
  · rw [← hinv.capacity]
    exact within_reachable h
  · have := List.length_pos_iff.mpr hwaiting
    omega
  · intro hsender
    have hphase : s.phase ≠ .running := fun hphase => by
      rw [hinv.sender hphase] at hsender
      nomatch hsender
    obtain ⟨hidle, hfree, -, -⟩ := hinv.idle hphase
    obtain ⟨hactive, -⟩ := Engine.busy_eq_false.mp hidle
    have hzero : s.unfinished = 0 := by
      unfold Engine.unfinished
      rw [hactive, hfree]
      rfl
    refine ⟨hzero, List.length_eq_zero_iff.mp (by omega), List.length_eq_zero_iff.mp (by omega)⟩

/-- A store with one job out. -/
theorem workers_suffice_sample : WorkersSuffice sampleConfig sampleFates sampleBusy :=
  workers_suffice sampleBusy_reachable

end Workers

end AtomicBlobStore
