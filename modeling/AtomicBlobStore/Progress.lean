/-
  PROGRESS: the store is never stuck, and it is never busy for nothing.

  `Guarantees` says that somebody can always take a step of the engine; what a job does meanwhile, and
  whether all these steps lead anywhere, it leaves open.

  1. **What is left to do** (`Engine.remaining`) — a request in the channel takes four more steps: its
     own event, the start and the end of its job, and the event of the completion.  One that is pending,
     queued or waits for a worker takes three.  Nothing but a request that enters adds to it
     (`remaining_step`), and every step of the coordinator, and every start and end of a job, takes
     something off it (`remaining_works`).

  2. **`work_is_bounded`** — so in any run, with callers coming and going, the coordinator and the
     workers take at most four such steps for each request, and four to shut down: no livelock.

  3. **`ends_or_proceeds`** — a running job has come to its end or can go on: `Answers` says so of a job
     alone, and in company it sees the same.

  4. **`never_stuck`** — as long as a request is unresolved, a job can go on, or the engine can, with
     less left to do: no deadlock.

  The measure has to fall with every step of the coordinator, but a request changes hands without
  getting any nearer to its end by itself.  So a request is worth as many steps as its place is away
  from its answer, and a step that only moves it along is paid for by the difference.
-/
import AtomicBlobStore.Answers
import AtomicBlobStore.Overlap

namespace AtomicBlobStore

/-! ## What is left to do

  The measure counts steps and not requests, so that every step of the coordinator can be charged: a
  request is worth as many steps as it still needs from where it is. -/

/-- How many steps an event in the channel still takes. -/
def CoordinatorEvent.steps (ev : CoordinatorEvent) : Nat := if ev.request?.isSome then 4 else 1

/-- How many steps the coordinator is from its end. -/
def Phase.steps : Phase → Nat
  | .running => 4
  | .joining => 3
  | .draining _ => 2
  | .returned => 1
  | .dropped => 0

/-- How many steps are left to the coordinator and its workers, if nothing more enters. -/
def Engine.remaining (s : Engine) : Nat :=
  (s.channel.map CoordinatorEvent.steps).sum +
    3 * (s.pending.length + s.queues.total + s.pool.jobs.length) +
    2 * s.pool.running.length + s.phase.steps

/-- A request that enters needs four steps. -/
theorem steps_event (r : PendingEvent) : r.event.steps = 4 := by
  unfold CoordinatorEvent.steps
  rw [PendingEvent.request?_event]
  rfl

theorem steps_jobEnd {job : WorkerJob} {ev : CoordinatorEvent} {entries : List Observation}
    (h : JobEnd job ev entries) : ev.steps = 1 := by
  cases h <;> rfl

section Handling

variable {config : StoreConfig} {fates : Nat → Fate} {s s' : Engine}

/-- What is dispatched was queued. -/
theorem remaining_dispatchIfIdle (key : KeyHash) (s : Engine) :
    (dispatchIfIdle config fates key s).remaining ≤ s.remaining := by
  unfold dispatchIfIdle
  split
  · exact Nat.le_refl _
  split
  · exact Nat.le_refl _
  rename_i op queues hpop
  have htotal := s.queues.total_popFront hpop
  obtain ⟨⟨handles, -, hpool⟩, -⟩ := prepare_spec s.pool (fates s.clock).spawn (s.active.card + 1)
  simp only []
  cases hprepare : s.pool.prepare (fates s.clock).spawn (s.active.card + 1) with
  | mk prepared pool =>
    rw [hprepare] at hpool
    simp only [] at hpool
    subst hpool
    cases prepared with
    | error e =>
      show Engine.remaining { s with queues := queues.removeIfEmpty key } ≤ s.remaining
      unfold Engine.remaining
      simp only [KeyedQueues.total_removeIfEmpty]
      omega
    | ok u =>
      simp only []
      cases WorkerPool.prepareDispatch (fates s.clock).dispatch with
      | error e =>
        show Engine.remaining { s with queues := queues.removeIfEmpty key } ≤ s.remaining
        unfold Engine.remaining
        simp only [KeyedQueues.total_removeIfEmpty]
        omega
      | ok u =>
        simp only []
        split
        · rename_i pool' hexecute
          unfold WorkerPool.execute at hexecute
          split at hexecute
          · rw [← Except.ok.inj hexecute]
            unfold Engine.remaining
            simp only [Engine.observe, List.length_append, List.length_singleton]
            omega
          · cases hexecute
        · unfold Engine.remaining
          simp only [Engine.observe, List.map_append, List.sum_append, List.map_singleton,
            List.sum_singleton, CoordinatorEvent.steps, CoordinatorEvent.request?, Option.isSome_none,
            Bool.false_eq_true, if_false]
          omega

/-- Maintenance that is dispatched was pending. -/
theorem remaining_dispatchMaintenance (sub : MaintenanceSubmission) (s : Engine) :
    (dispatchMaintenance fates sub s).remaining ≤ s.remaining + 3 := by
  have hposted : ∀ t : Engine, t.channel = s.channel ++ [.maintenanceCompletion ⟨none⟩] →
      t.pending = s.pending → t.queues = s.queues → t.pool.jobs = s.pool.jobs →
      t.pool.running = s.pool.running → t.phase = s.phase → t.remaining ≤ s.remaining + 3 := by
    intro t hchannel hpending hqueues hjobs hrunning hphase
    unfold Engine.remaining
    rw [hchannel, hpending, hqueues, hjobs, hrunning, hphase, List.map_append, List.sum_append]
    simp only [List.map_singleton, List.sum_singleton, CoordinatorEvent.steps,
      CoordinatorEvent.request?, Option.isSome_none, Bool.false_eq_true, if_false]
    omega
  unfold dispatchMaintenance
  obtain ⟨⟨handles, -, hpool⟩, -⟩ := prepare_spec s.pool (fates s.clock).spawn 1
  simp only []
  cases hprepare : s.pool.prepare (fates s.clock).spawn 1 with
  | mk prepared pool =>
    rw [hprepare] at hpool
    simp only [] at hpool
    subst hpool
    cases prepared with
    | error e => exact hposted _ rfl rfl rfl rfl rfl rfl
    | ok u =>
      simp only []
      cases WorkerPool.prepareDispatch (fates s.clock).dispatch with
      | error e => exact hposted _ rfl rfl rfl rfl rfl rfl
      | ok u =>
        simp only []
        split
        · rename_i pool' hexecute
          unfold WorkerPool.execute at hexecute
          split at hexecute
          · rw [← Except.ok.inj hexecute]
            unfold Engine.remaining
            simp only [Engine.observe, List.length_append, List.length_singleton]
            omega
          · cases hexecute
        · exact hposted _ rfl rfl rfl rfl rfl rfl

/-- The loop of `dispatch_available` adds nothing, -/
theorem remaining_dispatchAvailable (s : Engine) :
    (dispatchAvailable config fates s).remaining ≤ s.remaining := by
  refine dispatchAvailable_keeps fates (P := fun t => t.remaining ≤ s.remaining) ?_ (Nat.le_refl _)
  intro t key ht
  have hdispatched : (dispatchIfIdle config fates key { t with clock := t.clock + 1 }).remaining ≤
      Engine.remaining { t with clock := t.clock + 1 } := remaining_dispatchIfIdle key _
  have hsame : Engine.remaining { t with clock := t.clock + 1 } = t.remaining := rfl
  omega

/-- What leaves the pending list for a queue has its steps left. -/
theorem remaining_release {r : PendingEvent} (hpending : s.pending = r :: s'.pending)
    (hchannel : s'.channel = s.channel) (hpool : s'.pool = s.pool) (hphase : s'.phase = s.phase)
    (htotal : s'.queues.total = s.queues.total + 1) : s'.remaining ≤ s.remaining := by
  unfold Engine.remaining
  rw [hpending, hchannel, hpool, hphase, htotal, List.length_cons]
  omega

/-- What leaves it for good has none. -/
theorem remaining_answer {r : PendingEvent} (hpending : s.pending = r :: s'.pending)
    (hchannel : s'.channel = s.channel) (hpool : s'.pool = s.pool) (hphase : s'.phase = s.phase)
    (hqueues : s'.queues = s.queues) : s'.remaining + 3 ≤ s.remaining := by
  unfold Engine.remaining
  rw [hpending, hchannel, hpool, hphase, hqueues, List.length_cons]
  omega

/-- nor does that of the pending list. -/
theorem remaining_advance (s : Engine) :
    (advancePendingIfReady config fates s).remaining ≤ s.remaining := by
  refine advancePendingIfReady_keeps fates (P := fun t => t.remaining ≤ s.remaining) ?_ ?_ ?_
    (Nat.le_refl _)
  · intro t sub rest hpending ht
    refine Nat.le_trans (remaining_dispatchIfIdle sub.keyHash _) (Nat.le_trans ?_ ht)
    exact remaining_release hpending rfl rfl rfl (t.queues.total_pushBack sub.keyHash sub.operation)
  · intro t sub rest hpending ht
    refine Nat.le_trans (remaining_dispatchMaintenance sub _) (Nat.le_trans ?_ ht)
    exact remaining_answer hpending rfl rfl rfl rfl
  · intro t sender rest hpending ht
    refine Nat.le_trans (Nat.le_add_right _ 3) (Nat.le_trans ?_ ht)
    exact remaining_answer hpending rfl rfl rfl rfl

/-- The decision to shut down is paid for by the phases that are left. -/
theorem remaining_shutdown (hphase : s.phase = .running) :
    (shutdownIfDrained s).remaining ≤ s.remaining := by
  unfold shutdownIfDrained
  split
  · unfold Engine.remaining
    simp only [hphase, Phase.steps]
    omega
  · exact Nat.le_refl _

/-- The end of a handler. -/
theorem remaining_conclude (hphase : s.phase = .running) :
    (shutdownIfDrained (advancePendingIfReady config fates s)).remaining ≤ s.remaining := by
  have hadvanced : (advancePendingIfReady config fates s).phase = .running :=
    (advancePendingIfReady_phase s).trans hphase
  exact Nat.le_trans (remaining_shutdown hadvanced) (remaining_advance s)

/-- A completion that was taken is delivered. -/
theorem remaining_concludeCompletion (key : KeyHash) (hphase : s.phase = .running) :
    (concludeCompletion key s).phase = .running ∧
      (concludeCompletion key s).remaining = s.remaining := by
  generalize htidy : (if key ∉ s.active then { s with queues := s.queues.removeIfEmpty key } else s :
    Engine) = t
  have hsame : t.phase = .running ∧ t.remaining = s.remaining := by
    rw [← htidy]
    split
    · refine ⟨hphase, ?_⟩
      unfold Engine.remaining
      rw [KeyedQueues.total_removeIfEmpty]
    · exact ⟨hphase, rfl⟩
  unfold concludeCompletion
  simp only [htidy]
  split
  · exact hsame
  · exact hsame

/-- What a request of the channel becomes has three steps left. -/
theorem remaining_park {r : PendingEvent} (hpending : s'.pending = s.pending ++ [r])
    (hchannel : s'.channel = s.channel) (hpool : s'.pool = s.pool) (hphase : s'.phase = s.phase)
    (hqueues : s'.queues = s.queues) : s'.remaining = s.remaining + 3 := by
  unfold Engine.remaining
  rw [hpending, hchannel, hpool, hphase, hqueues, List.length_append, List.length_singleton]
  omega

/-- **Handling an event takes one step off what is left.** -/
theorem remaining_onEvent (ev : CoordinatorEvent) (hphase : s.phase = .running) :
    (onEvent config fates ev s).remaining < s.remaining + ev.steps := by
  have hdispatch : ∀ (t : Engine) (key : KeyHash), t.phase = .running →
      (dispatchAvailable config fates (dispatchIfIdle config fates key t)).phase = .running ∧
      (dispatchAvailable config fates (dispatchIfIdle config fates key t)).remaining ≤ t.remaining := by
    intro t key ht
    constructor
    · unfold dispatchAvailable
      rw [dispatchAvailableLoop_phase, dispatchIfIdle_phase]
      exact ht
    · exact Nat.le_trans (remaining_dispatchAvailable _) (remaining_dispatchIfIdle key t)
  have hconclude : ∀ t : Engine, t.phase = .running →
      (shutdownIfDrained (advancePendingIfReady config fates t)).remaining ≤ t.remaining :=
    fun t ht => remaining_conclude ht
  -- a request is parked, and the handler goes on from there
  have hparked : ∀ (t : Engine) (r : PendingEvent), t.pending = s.pending ++ [r] →
      t.channel = s.channel → t.pool = s.pool → t.phase = s.phase → t.queues = s.queues →
      (shutdownIfDrained (advancePendingIfReady config fates t)).remaining < s.remaining + 4 := by
    intro t r hpending hchannel hpool hsame hqueues
    have hpark := remaining_park hpending hchannel hpool hsame hqueues
    have hconclude := hconclude t (hsame.trans hphase)
    omega
  obtain ⟨s', hhandles⟩ := exists_handles config fates ev s
  rw [← hhandles.onEvent]
  cases hhandles with
  | submissionRefused sub hlock =>
    show s.remaining < s.remaining + 4
    omega
  | submissionParked sub hlock hwait =>
    refine Nat.lt_of_le_of_lt (Nat.le_of_eq (remaining_park rfl rfl rfl rfl rfl)) ?_
    show s.remaining + 3 < s.remaining + 4
    omega
  | submission sub hlock hwait hfills =>
    rw [(fills_iff fates).mp hfills]
    generalize hqueued : ({ (s.observe [.received (.submission sub)]).observe
      [.released (.submission sub)] with
      queues := s.queues.pushBack sub.keyHash sub.operation } : Engine) = t
    have hmore : t.remaining = s.remaining + 3 := by
      rw [← hqueued]
      unfold Engine.remaining
      simp only [Engine.observe, KeyedQueues.total_pushBack]
      omega
    obtain ⟨hrunning, hless⟩ := hdispatch t sub.keyHash (hqueued ▸ hphase)
    have hshutdown := remaining_shutdown hrunning
    show _ < s.remaining + 4
    omega
  | completion done hfills hadvances =>
    rw [(advances_iff fates).mp hadvances, (fills_iff fates).mp hfills]
    generalize htaken : ({ s with
      outcome := done.outcome.map fun f => (done.keyHash, f)
      active := s.active.erase done.keyHash } : Engine) = t
    have hsame : t.remaining = s.remaining := by
      rw [← htaken]
      rfl
    obtain ⟨hrunning, hless⟩ := hdispatch t done.keyHash (htaken ▸ hphase)
    obtain ⟨hphase', hconcluded⟩ := remaining_concludeCompletion done.keyHash hrunning
    have hconclude := hconclude _ hphase'
    show _ < s.remaining + 1
    omega
  | maintenanceRefused sub hlock =>
    show s.remaining < s.remaining + 4
    omega
  | maintenance sub hlock hadvances =>
    rw [(advances_iff fates).mp hadvances]
    exact hparked _ (.maintenance sub) rfl rfl rfl rfl rfl
  | maintenanceCompletion done hadvances =>
    rw [(advances_iff fates).mp hadvances]
    apply Nat.lt_succ_of_le
    exact remaining_conclude hphase
  | flushRefused sender hlock =>
    show s.remaining < s.remaining + 4
    omega
  | flush sender hlock hadvances =>
    rw [(advances_iff fates).mp hadvances]
    exact hparked _ (.flush sender) rfl rfl rfl rfl rfl
  | close sub hadvances =>
    rw [(advances_iff fates).mp hadvances]
    have hquiet : ∀ t : Engine, t.phase = .running → t.remaining = s.remaining →
        (shutdownIfDrained (advancePendingIfReady config fates t)).remaining < s.remaining + 4 := by
      intro t ht hsame
      have hconclude := hconclude t ht
      omega
    unfold recordClose
    simp only []
    show _ < s.remaining + 4
    split
    · exact hparked _ (.close sub) rfl rfl rfl rfl rfl
    · exact hparked _ (.close sub) rfl rfl rfl rfl rfl
    · exact hquiet _ hphase rfl
    · exact hquiet _ hphase rfl
    · exact hquiet _ hphase rfl

end Handling

/-! ## Every step

  One lemma for each step of the coordinator and of the workers, and one for the steps of everybody
  else. -/

section Stepping

variable {config : StoreConfig} {fates : Nat → Fate} {s s' : Engine}

/-- An event that was taken from the channel had its steps left. -/
theorem remaining_take {ev : CoordinatorEvent} {rest : List CoordinatorEvent}
    (hchannel : s.channel = ev :: rest) :
    s.remaining = ({ s with channel := rest } : Engine).remaining + ev.steps := by
  unfold Engine.remaining
  simp only [hchannel, List.map_cons, List.sum_cons]
  omega

theorem remaining_event {ev : CoordinatorEvent} {rest : List CoordinatorEvent}
    (hphase : s.phase = .running) (hchannel : s.channel = ev :: rest) :
    (onEvent config fates ev { s with channel := rest }).remaining < s.remaining := by
  rw [remaining_take hchannel]
  exact remaining_onEvent ev hphase

/-- A job that starts has one step less to go; -/
theorem remaining_startJob {job : WorkerJob} {rest : List WorkerJob}
    (hjobs : s.pool.jobs = job :: rest) : (s.startJob job rest).remaining < s.remaining := by
  unfold Engine.remaining Engine.startJob
  rw [hjobs]
  simp only [Engine.observe, List.length_append, List.length_cons, List.length_nil]
  omega

/-- so has one that ends: its completion is left; -/
theorem remaining_finishJob {front back : List WorkerJob} {job : WorkerJob} {ev : CoordinatorEvent}
    {entries : List Observation} (hrunning : s.pool.running = front ++ job :: back)
    (hend : JobEnd job ev entries) :
    (s.finishJob front back ev entries).remaining < s.remaining := by
  have hsteps := steps_jobEnd hend
  unfold Engine.remaining Engine.finishJob
  rw [hrunning]
  simp only [Engine.observe, List.map_append, List.sum_append, List.map_singleton,
    List.sum_singleton, List.length_append, List.length_cons, hsteps]
  omega

/-- the end of a shutdown is a phase further on, -/
theorem remaining_finishShutdown (ok : Bool) (hphase : s.phase = .joining) :
    (finishShutdown ok s).remaining < s.remaining := by
  have hfewer : (s.pending.dropWhile PendingEvent.isClose).length ≤ s.pending.length :=
    (List.dropWhile_sublist _).length_le
  unfold Engine.remaining finishShutdown
  simp only [Engine.observe, hphase, Phase.steps]
  omega

/-- the drain takes an event off the channel in each turn, -/
theorem remaining_drainEvent (ok : Bool) {ev : CoordinatorEvent} {rest : List CoordinatorEvent}
    (hchannel : s.channel = ev :: rest) :
    (drainEvent ok ev { s with channel := rest }).remaining < s.remaining := by
  have hpos : 0 < ev.steps := by
    unfold CoordinatorEvent.steps
    split <;> omega
  rw [remaining_take hchannel]
  have hsame : (drainEvent ok ev { s with channel := rest }).remaining =
      ({ s with channel := rest } : Engine).remaining := by
    cases ev <;> rfl
  omega

/-- and the end of a store without handles is the last step of all. -/
theorem remaining_finishDisconnected (ok : Bool) (hphase : s.phase = .running) :
    (finishDisconnected ok s).remaining < s.remaining := by
  have hsame : (finishDisconnected ok s).remaining =
      ({ s with phase := .returned } : Engine).remaining := by
    unfold finishDisconnected
    simp only []
    split <;> rfl
  rw [hsame]
  unfold Engine.remaining
  simp only [hphase, Phase.steps]
  omega

/-- A request that enters adds four steps, and a call that is resolved on its own thread none. -/
theorem remaining_call {r : PendingEvent} (h : s' = enter r s ∨ ∃ result, s' = resolve r result s) :
    s'.remaining + 4 * (entered s.log).length ≤ s.remaining + 4 * (entered s'.log).length := by
  rcases h with rfl | ⟨result, rfl⟩
  · have hone : (entered (enter r s).log).length = (entered s.log).length + 1 := by
      show (entered (s.log ++ [.entered r])).length = _
      rw [entered_append, List.length_append]
      rfl
    have hfour : (enter r s).remaining = s.remaining + 4 := by
      unfold Engine.remaining enter
      simp only [Engine.observe, List.map_append, List.sum_append, List.map_singleton,
        List.sum_singleton, steps_event]
      omega
    omega
  · have hnone : (entered (resolve r result s).log).length = (entered s.log).length := by
      show (entered (s.log ++ [.resolved r result])).length = _
      rw [entered_append, List.length_append]
      rfl
    have hsame : (resolve r result s).remaining = s.remaining := rfl
    omega

/-- The history only grows. -/
theorem entered_step (hs : Settled config s) (hstep : Step config fates s s') :
    (entered s.log).length ≤ (entered s'.log).length := by
  have hmore : ∀ {entries : List Observation}, s'.log = s.log ++ entries →
      (entered s.log).length ≤ (entered s'.log).length := by
    intro entries hlog
    rw [hlog, entered_append, List.length_append]
    omega
  rcases step_cases hs hstep with ⟨job, rest, hjobs, rfl⟩ |
    ⟨front, job, back, ev, entries, hrunning, hend, rfl⟩ | hstill
  · exact hmore rfl
  · exact hmore rfl
  · obtain ⟨entries, hlog, -⟩ := hstill.log
    exact hmore hlog

variable (config fates) in
/-- The steps of the coordinator, and those in which a worker takes or ends a job.  What is left out are
    the steps of callers and what a running job does meanwhile. -/
inductive Works : Engine → Engine → Prop
  /-- The coordinator handles an event. -/
  | event {s : Engine} (ev : CoordinatorEvent) (rest : List CoordinatorEvent)
      (hphase : s.phase = .running) (hchannel : s.channel = ev :: rest) :
      Works s (onEvent config fates ev { s with channel := rest })
  /-- A worker takes a job. -/
  | startJob {s : Engine} (job : WorkerJob) (rest : List WorkerJob)
      (hjobs : s.pool.jobs = job :: rest) : Works s (s.startJob job rest)
  /-- A job ends, in any way. -/
  | finishJob {s : Engine} (front back : List WorkerJob) (job : WorkerJob) (ev : CoordinatorEvent)
      (entries : List Observation) (hrunning : s.pool.running = front ++ job :: back)
      (hend : JobEnd job ev entries) : Works s (s.finishJob front back ev entries)
  /-- The workers are joined, and the closes are answered. -/
  | finishShutdown {s : Engine} (ok : Bool) (hphase : s.phase = .joining) :
      Works s (finishShutdown ok s)
  /-- One event of the drain. -/
  | drainEvent {s : Engine} (ok : Bool) (ev : CoordinatorEvent) (rest : List CoordinatorEvent)
      (hphase : s.phase = .draining ok) (hchannel : s.channel = ev :: rest) :
      Works s (drainEvent ok ev { s with channel := rest })
  /-- The drain is over. -/
  | leave {s : Engine} (ok : Bool) (hphase : s.phase = .draining ok) :
      Works s { s with phase := .returned }
  /-- The last handle is gone, and so is the coordinator's loop. -/
  | disconnect {s : Engine} (ok : Bool) (hphase : s.phase = .running) :
      Works s (finishDisconnected ok s)
  /-- The receiver is dropped. -/
  | dropReceiver {s : Engine} (hphase : s.phase = .returned) :
      Works s { s with phase := .dropped, channel := [] }

/-- **Every such step takes something off what is left.** -/
theorem remaining_works (h : Works config fates s s') : s'.remaining < s.remaining := by
  cases h with
  | event ev rest hphase hchannel => exact remaining_event hphase hchannel
  | startJob job rest hjobs => exact remaining_startJob hjobs
  | finishJob front back job ev entries hrunning hend => exact remaining_finishJob hrunning hend
  | finishShutdown ok hphase => exact remaining_finishShutdown ok hphase
  | drainEvent ok ev rest hphase hchannel => exact remaining_drainEvent ok hchannel
  | leave ok hphase =>
    unfold Engine.remaining
    simp only [hphase, Phase.steps]
    omega
  | disconnect ok hphase => exact remaining_finishDisconnected ok hphase
  | dropReceiver hphase =>
    unfold Engine.remaining
    simp only [hphase, Phase.steps, List.map_nil, List.sum_nil]
    omega

/-- **Every other step is a caller's**: a request enters, a call is resolved on the caller's own thread,
    or somebody clones or drops a handle or stops waiting. -/
theorem works_or_calls (hstep : Step config fates s s') : Works config fates s s' ∨
    (∃ r, s' = enter r s ∨ ∃ result, s' = resolve r result s) ∨
    ∃ handles abandoned, s' = { s with handles := handles, abandoned := abandoned } := by
  cases hstep with
  | precheck r hhandle hclose hfresh =>
    right
    unfold precheck
    split
    · exact Or.inl ⟨r, Or.inr ⟨_, rfl⟩⟩
    · split
      · exact Or.inl ⟨r, Or.inr ⟨_, rfl⟩⟩
      · exact Or.inr ⟨_, _, rfl⟩
  | submit r hhandle hclose hvalid hfresh =>
    right
    left
    refine ⟨r, ?_⟩
    unfold submit
    split
    · split
      · exact Or.inr ⟨_, rfl⟩
      · exact Or.inl rfl
    · exact Or.inr ⟨_, rfl⟩
    · exact Or.inr ⟨_, rfl⟩
    · exact Or.inr ⟨_, rfl⟩
    · exact Or.inr ⟨_, rfl⟩
  | close sub hhandle hfresh =>
    right
    left
    refine ⟨.close sub, ?_⟩
    unfold close
    split
    · exact Or.inr ⟨_, rfl⟩
    · exact Or.inr ⟨_, rfl⟩
    · exact Or.inr ⟨_, rfl⟩
    · split
      · exact Or.inr ⟨_, rfl⟩
      · exact Or.inl rfl
    · split
      · exact Or.inr ⟨_, rfl⟩
      · exact Or.inl rfl
  | cloneHandle hhandle => exact Or.inr (Or.inr ⟨_, _, rfl⟩)
  | dropHandle hhandle => exact Or.inr (Or.inr ⟨_, _, rfl⟩)
  | dropWaiter ticket => exact Or.inr (Or.inr ⟨_, _, rfl⟩)
  | event ev rest hphase hchannel => exact Or.inl (.event ev rest hphase hchannel)
  | startJob job rest hjobs hthread => exact Or.inl (.startJob job rest hjobs)
  | finishJob front back job ev entries hrunning hend =>
    exact Or.inl (.finishJob front back job ev entries hrunning hend)
  | finishShutdown ok hphase hjobs hrunning => exact Or.inl (.finishShutdown ok hphase)
  | drainEvent ok ev rest hphase hchannel => exact Or.inl (.drainEvent ok ev rest hphase hchannel)
  | leave ok hphase hchannel => exact Or.inl (.leave ok hphase)
  | disconnect ok hphase hgone => exact Or.inl (.disconnect ok hphase)
  | dropReceiver hphase => exact Or.inl (.dropReceiver hphase)

/-- **Only a request that enters adds to what is left**, and it adds four steps. -/
theorem remaining_step (hs : Settled config s) (hstep : Step config fates s s') :
    s'.remaining + 4 * (entered s.log).length ≤ s.remaining + 4 * (entered s'.log).length := by
  have hmore := entered_step hs hstep
  rcases works_or_calls hstep with hworks | ⟨r, hcall⟩ | ⟨handles, abandoned, rfl⟩
  · have hless := remaining_works hworks
    omega
  · exact remaining_call hcall
  · exact Nat.le_refl _

end Stepping

/-! ## Bounded work

  The library pays for steps of a kind from a measure and an income.  Here the kind is `Works`, and
  the income is four for each request. -/

section Bounded

variable {crc32c : Crc32c} {config : StoreConfig} {platform : Platform} {fates : Nat → Fate}
  {fault : FsCall → IoError → Prop} {panics : Prop} {disk : Disk} {s s' : Store}

theorem remaining_storeStep
    (h : (storeSystem crc32c config platform fates fault panics disk).Reachable s)
    (hstep : StoreStep crc32c config platform fates fault panics s s') :
    (entered s.engine.log).length ≤ (entered s'.engine.log).length ∧
      s'.engine.remaining + 4 * (entered s.engine.log).length ≤
        s.engine.remaining + 4 * (entered s'.engine.log).length := by
  obtain ⟨-, hs⟩ := inv_reachable (reachable_engine h)
  have hengine : ∀ {e : Engine}, Step config fates s.engine e →
      (entered s.engine.log).length ≤ (entered e.log).length ∧
        e.remaining + 4 * (entered s.engine.log).length ≤
          s.engine.remaining + 4 * (entered e.log).length :=
    fun hstep => ⟨entered_step hs hstep, remaining_step hs hstep⟩
  cases hstep with
  | engine hstep hsame => exact hengine hstep
  | start job rest hjobs hthread => exact hengine (.startJob job rest hjobs hthread)
  | call front back e c k r w hexecutions hrunning hcall henv => exact ⟨Nat.le_refl _, Nat.le_refl _⟩
  | turn front back e body x k hexecutions hrunning hloop => exact ⟨Nat.le_refl _, Nat.le_refl _⟩
  | finish front back e outcome ev entries hexecution hrunning hret hend =>
    exact hengine (.finishJob front back e.job ev entries hrunning hend.jobEnd)
  | panic front back job ev entries hpanics hrunning hend =>
    exact hengine (.finishJob front back job ev entries hrunning hend.jobEnd)

/-- **No livelock.**  Whatever callers do meanwhile, whatever fails and whoever panics: the steps of a
    run in which the coordinator handles an event or goes on to its next phase, and those in which a
    worker takes or ends a job, are paid for by what was left, and by four for each request that
    entered.  From the start they are at most four for each request and four to shut down. -/
theorem work_is_bounded
    (h : (storeSystem crc32c config platform fates fault panics disk).Reachable s) {n : Nat}
    (hrun : (storeSystem crc32c config platform fates fault panics disk).Counted
      (fun s s' => Works config fates s.engine s'.engine) n s s') :
    s'.engine.remaining + n + 4 * (entered s.engine.log).length ≤
        s.engine.remaining + 4 * (entered s'.engine.log).length ∧
      (s.engine = .initial config → n ≤ 4 * (entered s'.engine.log).length + 4) := by
  have hpaid : s'.engine.remaining + n + 4 * (entered s.engine.log).length ≤
      s.engine.remaining + 4 * (entered s'.engine.log).length := by
    refine System.Counted.le (μ := fun s : Store => s.engine.remaining)
      (fun s : Store => 4 * (entered s.engine.log).length)
      (fun s s' hs hstep => ?_) (fun s s' hs hstep => ?_) (fun s s' hs hworks => ?_) h hrun
    · have hgrows := (remaining_storeStep hs hstep).1
      show 4 * (entered s.engine.log).length ≤ 4 * (entered s'.engine.log).length
      omega
    · exact (remaining_storeStep hs hstep).2
    · exact remaining_works hworks
  refine ⟨hpaid, fun hinitial => ?_⟩
  have hfour : (Engine.initial config).remaining = 4 := rfl
  rw [hinitial, hfour] at hpaid
  omega

end Bounded

/-- Two jobs are started. -/
theorem work_is_bounded_sample :
    pairRunning.engine.remaining + 2 + 4 * (entered pairBusy.log).length ≤
      pairBusy.remaining + 4 * (entered pairRunning.engine.log).length := by
  have hfirst : StoreStep crc32cReference pairConfig .unix sampleFates Faultless False
      ⟨pairBusy, .directory fun _ => none, []⟩ _ :=
    .start (.operation sampleKey sampleSave) [.operation pairKey (.load 1)] rfl (by decide)
  have hsecond : StoreStep crc32cReference pairConfig .unix sampleFates Faultless False
      ⟨pairBusy.startJob (.operation sampleKey sampleSave) [.operation pairKey (.load 1)],
        .directory fun _ => none, [.begin crc32cReference pairConfig .unix
          (.operation sampleKey sampleSave) (.directory fun _ => none)]⟩ pairRunning :=
    .start (.operation pairKey (.load 1)) [] rfl (by decide)
  exact (work_is_bounded pairBusy_reachable
    (.counted (.counted .refl hfirst (.startJob _ _ rfl)) hsecond (.startJob _ _ rfl))).1

/-! ## Never stuck

  The engine alone is never stuck, but one of its steps is the end of a job, which it leaves to the
  job.  What a job waits for on its channels comes from outside, and may not come; that it can be
  answered is what counts. -/

section Unstuck

variable {crc32c : Crc32c} {config : StoreConfig} {platform : Platform} {fates : Nat → Fate}
  {fault : FsCall → IoError → Prop} {panics : Prop} {disk : Disk} {s s' : Store}

/-- What a job returns is what its completion can carry. -/
theorem concludes_of_returns {job : WorkerJob} {outcome : Except Abort TaskResult} {w w' : JobWorld}
    (h : Returns (Fs fault) (job.program crc32c config platform) w outcome w') :
    ∃ ev entries, Concludes job outcome ev entries := by
  cases job with
  | operation key op =>
    cases outcome with
    | error abort => exact ⟨_, _, .operationPanic key op abort⟩
    | ok t =>
      obtain ⟨result, rfl, hresult⟩ := returns_of_map h
      refine ⟨_, _, .operation key op result ?_⟩
      cases op with
      | load sender => obtain ⟨y, rfl, -⟩ := returns_of_map hresult; rfl
      | loadStream chunks acknowledgement sender => obtain ⟨y, rfl, -⟩ := returns_of_map hresult; rfl
      | save payload sender => obtain ⟨y, rfl, -⟩ := returns_of_map hresult; rfl
      | saveStream declaredLen chunks sender => obtain ⟨y, rfl, -⟩ := returns_of_map hresult; rfl
      | clear sender => obtain ⟨y, rfl, -⟩ := returns_of_map hresult; rfl
      | inspect sender => obtain ⟨y, rfl, -⟩ := returns_of_map hresult; rfl
      | quarantine sender => obtain ⟨y, rfl, -⟩ := returns_of_map hresult; rfl
  | maintenance sub =>
    cases outcome with
    | error abort => exact ⟨_, _, .maintenancePanic sub abort⟩
    | ok t =>
      obtain ⟨minimumAge, sender⟩ := sub
      cases minimumAge with
      | none =>
        obtain ⟨heq, -⟩ := Returns.of_ret h
        cases heq
        exact ⟨_, _, .maintenance ⟨none, sender⟩ _⟩
      | some age =>
        obtain ⟨result, rfl, -⟩ := returns_of_map h
        exact ⟨_, _, .maintenance ⟨some age, sender⟩ result⟩

/-- **Whoever runs has come to its end, or can go on**: the call it has come to is answered, in company
    as it is alone. -/
theorem ends_or_proceeds (hmove : Windows.Unmoved fault)
    (h : (storeSystem crc32c config platform fates fault panics disk).Reachable s) {e : Execution}
    (he : e ∈ s.executions) (hrunning : e.job ∈ s.engine.pool.running) :
    (∃ outcome, e.program = .ret outcome) ∨ ∃ e' d, Proceeds fault s.disk e e' d := by
  obtain ⟨hisolated, hcurrent⟩ := isolated_current h
  have hknown := known_reachable h
  cases hprogram : e.program with
  | ret outcome => exact Or.inl ⟨outcome, rfl⟩
  | loop body x k => exact Or.inr ⟨_, _, .turn body x k hprogram⟩
  | call c k =>
    right
    obtain ⟨n, v, hrun, hsame, hv⟩ := hisolated.alone e he
    obtain ⟨r, v', henv⟩ := unstuck_job hmove crc32c config platform e.job n _ v hrun c k hprogram
    have hasks := hknown.asks e he
    rw [hprogram] at hasks
    cases hasks with
    | call hc hk =>
      have hwriter : ∀ name content, v.writer = some (name, content) → e.job.Sees name := by
        intro name content hopen
        rw [hv] at hopen
        cases hjob : e.job with
        | maintenance sub => exact trivial
        | operation key op =>
          have hname := hknown.writer e he key (by rw [hjob]; rfl) name content hopen
          exact hname ▸ owns_blobFilename config.format key
      -- alone and in company, the job sees the same
      have hsees : SameOn e.job.Sees v.disk s.disk := by
        have hboth := (hcurrent e he hrunning).trans hsame
        exact ⟨hboth.directory.symm, fun name hname => (hboth.entry name hname).symm⟩
      obtain ⟨d, henv', -⟩ := fs_sameOn (within_asks hc) hwriter hsees henv
      rw [hv] at henv'
      exact ⟨_, _, .call c k r _ hprogram henv'⟩

variable (crc32c config platform fates fault panics) in
/-- A step can be taken that is worth it: a job goes on, or there is less left to do. -/
def Store.CanGoOn (s : Store) : Prop :=
  ∃ s', StoreStep crc32c config platform fates fault panics s s' ∧
    (s'.engine.remaining < s.engine.remaining ∨ s'.engine = s.engine ∧
      ∃ e ∈ s.executions, ∃ e' ∈ s'.executions, Proceeds fault s.disk e e' s'.disk)

/-- A running job goes on, or ends. -/
theorem canGoOn_of_running (hmove : Windows.Unmoved fault)
    (h : (storeSystem crc32c config platform fates fault panics disk).Reachable s)
    (hrunning : s.engine.pool.running ≠ []) :
    s.CanGoOn crc32c config platform fates fault panics := by
  have hknown := known_reachable h
  obtain ⟨job, hjob⟩ := List.exists_mem_of_ne_nil _ hrunning
  obtain ⟨e, he, rfl⟩ := hknown.running job hjob
  rcases ends_or_proceeds hmove h he hjob with ⟨outcome, hret⟩ | ⟨e', d, hproceeds⟩
  · obtain ⟨hisolated, -⟩ := isolated_current h
    obtain ⟨v, hreturns, -⟩ := (hisolated.alone e he).returns hret
    obtain ⟨ev, entries, hend⟩ := concludes_of_returns hreturns
    obtain ⟨front, back, hsplit⟩ := List.append_of_mem hjob
    refine ⟨_, .finish front back e outcome ev entries he hsplit hret hend, Or.inl ?_⟩
    exact remaining_finishJob hsplit hend.jobEnd
  · obtain ⟨front, back, hsplit⟩ := List.append_of_mem he
    obtain ⟨g, d₀, executions⟩ := s
    obtain rfl : executions = front ++ e :: back := hsplit
    exact ⟨_, hproceeds.step hjob, Or.inr ⟨rfl, e, he, e', by simp, hproceeds⟩⟩

/-- **No deadlock.**  As long as an accepted request is unresolved, the store can go on: whatever keys
    are busy, however few the workers, whatever waits in front of it, and whether or not the store is
    shutting down. -/
theorem never_stuck (hmove : Windows.Unmoved fault)
    (h : (storeSystem crc32c config platform fates fault panics disk).Reachable s) {r : PendingEvent}
    (hr : r ∈ entered s.engine.log) (hunresolved : r.origin ∉ resolutions s.engine.log) :
    s.CanGoOn crc32c config platform fates fault panics := by
  obtain ⟨hinv, hs⟩ := inv_reachable (reachable_engine h)
  rcases canAdvance_of_unresolved hinv hs hr hunresolved with ⟨hphase, hchannel⟩ | ⟨hjobs, hthread⟩ |
    hrunning | ⟨hphase, hjobs, hrunning⟩ | ⟨ok, hphase, hchannel⟩
  · -- the coordinator takes the next event
    obtain ⟨ev, rest, hevent⟩ := List.exists_cons_of_ne_nil hchannel
    have hsame : (onEvent config fates ev { s.engine with channel := rest }).pool.running =
        s.engine.pool.running :=
      (onEvent_records ev (s := { s.engine with channel := rest }) hs.delivered).running
    exact ⟨_, .engine (.event ev rest hphase hevent) hsame, Or.inl (remaining_event hphase hevent)⟩
  · -- a worker takes the next job
    obtain ⟨job, rest, hnext⟩ := List.exists_cons_of_ne_nil hjobs
    exact ⟨_, .start job rest hnext hthread, Or.inl (remaining_startJob hnext)⟩
  · exact canGoOn_of_running hmove h hrunning
  · -- the workers have been joined
    exact ⟨_, .engine (.finishShutdown true hphase hjobs hrunning) rfl,
      Or.inl (remaining_finishShutdown true hphase)⟩
  · -- what is left in the channel is refused
    obtain ⟨ev, rest, hevent⟩ := List.exists_cons_of_ne_nil hchannel
    refine ⟨_, .engine (.drainEvent ok ev rest hphase hevent) ?_,
      Or.inl (remaining_drainEvent ok hevent)⟩
    cases ev <;> rfl

end Unstuck

/-- Two jobs run, and neither request is resolved. -/
theorem never_stuck_sample :
    pairRunning.CanGoOn crc32cReference pairConfig .unix sampleFates Faultless False :=
  never_stuck (fun _ _ _ _ hfault => hfault.elim) pairRunning_reachable
    (r := .submission ⟨sampleKey, sampleSave⟩) (by decide) (by decide)

end AtomicBlobStore
