/-
  Coordinator loss is TERMINAL, and answers everyone.

  The state a panic interrupts satisfies everything `Runs` knows about a reachable state.  From there
  on the invariant is `Lost`: the history only gains what callers and workers write, every request
  is still in one of the places the unwinding has not reached, in the channel, in a job, or has been
  answered, and each place is empty once the unwinding is past it.

  * `Bystander.effect` — what a step of a caller or a worker can do, by the lifecycle it finds;
  * `Lost.panic`, `Lost.effect`, `Lost.unwind` — the invariant begins, and is kept;
  * `Resolves` — what the caller who waits for a reply gets to see;
  * `coordinator_loss_terminal` — the guarantee.

  Why nobody is missed: the lifecycle becomes failed under its lock before the channel is drained, so
  whoever sent did so before the drain, and whoever comes later is refused at the lock.  The invariant
  has to hold in between as well, while calls still enter a store that will never serve them: such a
  request is in the channel, and the channel is one of the places the unwinding has not reached.

  Why nobody is answered twice: a reply sender is a value, and unwinding moves it from the
  coordinator's hands into the aftermath.  A request that was answered before the panic has no sender
  left to drop.
-/
import AtomicBlobStore.Unwinding

namespace AtomicBlobStore

/-! ## Steps of callers and workers

  The unwinding takes time, and nobody else waits for it: calls are made, jobs start and end.
  `Effect` lists what such a step can do to a store that nobody shuts down any more. -/

/-- What a call that finds the store failed is resolved to. -/
def PendingEvent.failure (r : PendingEvent) : AtomicBlobStoreError :=
  if r.isClose then .shutdownFailure else .engineFailed

/-- What a step of a caller or a worker can do to a store that is open, closing or failed.  It is
    coarser than `Bystander`: what a call was about no longer matters, only whether it sends. -/
inductive Effect : Engine → Engine → Prop
  /-- Handles and waiters come and go. -/
  | quiet {s : Engine} (handles : Nat) (abandoned : List Ticket) :
      Effect s { s with handles := handles, abandoned := abandoned }
  /-- A call is resolved on its own thread; once the store has failed, with the failure. -/
  | resolve {s : Engine} (r : PendingEvent) (result : Except AtomicBlobStoreError Unit)
      (hfresh : s.issued ≤ r.origin.sender) (hclose : r.isClose = true → s.lifecycle = .failed)
      (hfailed : s.lifecycle = .failed → result = .error r.failure) : Effect s (resolve r result s)
  /-- A call sends, as long as the store has not failed. -/
  | enter {s : Engine} (r : PendingEvent) (hfresh : s.issued ≤ r.origin.sender)
      (hlock : s.lifecycle ≠ .failed) : Effect s (enter r s)
  /-- A worker takes the next job. -/
  | startJob {s : Engine} (job : WorkerJob) (rest : List WorkerJob)
      (hjobs : s.pool.jobs = job :: rest) :
      Effect s { s.observe [.executed job.origin] with
        pool := { s.pool with jobs := rest, running := s.pool.running ++ [job] } }
  /-- A job ends. -/
  | finishJob {s : Engine} (front back : List WorkerJob) (job : WorkerJob) (ev : CoordinatorEvent)
      (entries : List Observation) (hrunning : s.pool.running = front ++ job :: back)
      (hend : JobEnd job ev entries) :
      Effect s { s.observe entries with
        channel := s.channel ++ [ev], pool := { s.pool with running := front ++ back } }

/-- The lifecycle of a store that was not shut down. -/
def Engine.Unstopped (s : Engine) : Prop :=
  s.lifecycle = .opened ∨ s.lifecycle = .closing ∨ s.lifecycle = .failed

section Loss

variable {config : StoreConfig} {fates : Nat → Fate} {s s' : Engine}

/-- A call that looks at a failed store is refused with the failure, -/
theorem precheck_failed (hlock : s.lifecycle = .failed) (r : PendingEvent) :
    precheck config r s = resolve r (.error .engineFailed) s := by
  unfold precheck ensureOpen
  rw [hlock]

/-- and so is one that sends. -/
theorem submit_failed (hlock : s.lifecycle = .failed) (r : PendingEvent) :
    submit r s = resolve r (.error .engineFailed) s := by
  unfold submit
  rw [hlock]

theorem failure_of_not_close {r : PendingEvent} (h : r.isClose = false) :
    r.failure = .engineFailed := by
  unfold PendingEvent.failure
  rw [h]
  rfl

/-- **The inversion of a step of a caller or a worker.** -/
theorem Bystander.effect (h : Bystander config s s') (hlock : s.Unstopped)
    (hphase : s.phase = .dropped → s.lifecycle = .failed) : Effect s s' := by
  have hreceiver : s.lifecycle ≠ .failed → s.phase ≠ .dropped := fun hne hdropped =>
    hne (hphase hdropped)
  cases h with
  | precheck r hhandle hclose hfresh =>
    have hnot : r.isClose = true → s.lifecycle = .failed := by simp [hclose]
    rcases hlock with hlock | hlock | hlock
    · unfold AtomicBlobStore.precheck ensureOpen
      simp only [hlock]
      split
      · exact .resolve r _ hfresh hnot fun hfailed => by simp [hlock] at hfailed
      · exact .quiet s.handles s.abandoned
    · unfold AtomicBlobStore.precheck ensureOpen
      simp only [hlock]
      exact .resolve r _ hfresh hnot fun hfailed => by simp [hlock] at hfailed
    · rw [precheck_failed hlock]
      exact .resolve r _ hfresh hnot fun _ => by rw [failure_of_not_close hclose]
  | submit r hhandle hclose hvalid hfresh =>
    have hnot : r.isClose = true → s.lifecycle = .failed := by simp [hclose]
    rcases hlock with hlock | hlock | hlock
    · unfold AtomicBlobStore.submit
      simp only [hlock, if_neg (hreceiver (by simp [hlock]))]
      exact .enter r hfresh (by simp [hlock])
    · unfold AtomicBlobStore.submit
      simp only [hlock]
      exact .resolve r _ hfresh hnot fun hfailed => by simp [hlock] at hfailed
    · rw [submit_failed hlock]
      exact .resolve r _ hfresh hnot fun _ => by rw [failure_of_not_close hclose]
  | close sub hhandle hfresh =>
    rcases hlock with hlock | hlock | hlock
    · unfold AtomicBlobStore.close
      simp only [hlock, if_neg (hreceiver (by simp [hlock]))]
      exact .enter (.close sub) hfresh (by simp [hlock])
    · unfold AtomicBlobStore.close
      simp only [hlock, if_neg (hreceiver (by simp [hlock]))]
      exact .enter (.close sub) hfresh (by simp [hlock])
    · unfold AtomicBlobStore.close
      simp only [hlock]
      exact .resolve (.close sub) _ hfresh (fun _ => hlock) fun _ => rfl
  | cloneHandle hhandle => exact .quiet _ s.abandoned
  | dropHandle hhandle => exact .quiet _ s.abandoned
  | dropWaiter ticket => exact .quiet s.handles _
  | startJob job rest hjobs hthread => exact .startJob job rest hjobs
  | finishJob front back job ev entries hrunning hend =>
    exact .finishJob front back job ev entries hrunning hend

/-- What such a step appends to the history. -/
def Observation.outside : Observation → Bool
  | .entered _ => true
  | .executed _ => true
  | .lost _ => true
  | .resolved _ _ => true
  | _ => false

theorem Observation.sends_of_outside {entry : Observation} (h : entry.outside = true) :
    entry.sends? = none := by
  cases entry <;> first | rfl | nomatch h

theorem Observation.begun_of_outside {entry : Observation} (h : entry.outside = true) :
    entry.begun? = none := by
  cases entry <;> first | rfl | nomatch h

/-- Callers and workers add entries of their own and move no lifecycle. -/
theorem Effect.history (h : Effect s s') : ∃ more, s'.log = s.log ++ more ∧
    ∀ entry ∈ more, entry.outside = true := by
  cases h with
  | quiet handles abandoned => exact ⟨[], (List.append_nil _).symm, fun _ hmem => nomatch hmem⟩
  | resolve r result => exact ⟨[_], rfl, fun entry hmem => by rw [List.mem_singleton.mp hmem]; rfl⟩
  | enter r => exact ⟨[_], rfl, fun entry hmem => by rw [List.mem_singleton.mp hmem]; rfl⟩
  | startJob job rest => exact ⟨[_], rfl, fun entry hmem => by rw [List.mem_singleton.mp hmem]; rfl⟩
  | finishJob front back job ev entries hrunning hend =>
    refine ⟨entries, rfl, fun entry hmem => ?_⟩
    rcases hend.entries with ⟨rfl, -⟩ | ⟨rfl, -⟩
    · nomatch hmem
    · rw [List.mem_singleton.mp hmem]
      rfl

/-! ## The invariant of the unwinding

  The ledger of `Inv` counts, and after a panic there is nothing to count: senders are dropped in
  heaps.  Here a request has whereabouts instead, the places the unwinding has not reached, and
  `Unwinding.rank` says which places those are. -/

/-- How far the unwinding has come. -/
def Unwinding.rank : Unwinding → Nat
  | .event _ => 0
  | .pending => 1
  | .queues => 2
  | .pool => 3
  | .joining => 4
  | .caught => 5
  | .draining => 6
  | .returned => 7
  | .dropped => 8

/-- Whose reply channel an entry is about. -/
def Aftermath.origin : Aftermath → Origin
  | .disconnected o => o
  | .failed o _ => o

/-- Whose jobs there are, or are on their way back. -/
def Engine.work (s : Engine) : List Origin :=
  s.pool.jobs.map WorkerJob.origin ++ s.pool.running.map WorkerJob.origin ++ s.outcomes

/-- Everything in the coordinator's own hands that holds a reply sender. -/
def Engine.locals (s : Engine) : List Origin :=
  s.pending.map PendingEvent.origin ++ s.queues.elements.map fun e => e.2.origin e.1

/-- The event that is still held. -/
def Unwinding.held : Unwinding → List Origin
  | .event ev => ev.holder?.toList
  | _ => []

/-- Where a request can be after the panic. -/
def FailingStore.whereabouts (f : FailingStore) (u : Unwinding) : List Origin :=
  resolutions f.engine.log ++ f.aftermath.map Aftermath.origin
    ++ f.engine.requests.map PendingEvent.origin ++ f.engine.work ++ f.engine.locals ++ u.held

/-- The whereabouts, one after the other. -/
theorem FailingStore.mem_whereabouts {f : FailingStore} {u : Unwinding} {o : Origin} :
    o ∈ f.whereabouts u ↔ o ∈ resolutions f.engine.log ∨ o ∈ f.aftermath.map Aftermath.origin ∨
      o ∈ f.engine.requests.map PendingEvent.origin ∨ o ∈ f.engine.work ∨ o ∈ f.engine.locals ∨
      o ∈ u.held := by
  simp only [whereabouts, List.mem_append, or_assoc]

/-- A call that is resolved once the store has failed, or a close that is resolved without an event,
    reports the failure. -/
def Late (log : List Observation) : Observation → Prop
  | .resolved r result => r.isClose = true ∨ .moved .failed ∈ log → result = .error r.failure
  | _ => True

/-- The invariant after the panic.  It replaces `Inv` from the panic on.  Counting is given up: a
    request is somewhere, and being answered once follows from the order of the drops. -/
structure Lost (f : FailingStore) (u : Unwinding) : Prop where
  /-- The history goes on with what callers and workers write, and with the failure. -/
  history : ∃ more, f.engine.log = f.before ++ more ∧ ∀ entry ∈ more, entry.outside = true ∨
    entry = .moved .failed
  /-- No request gets lost, -/
  conserved : ∀ r ∈ entered f.engine.log, r.origin ∈ f.whereabouts u
  /-- no job is started that was not dispatched before, -/
  started : (executed f.engine.log ++ f.engine.pool.jobs.map WorkerJob.origin).Sublist
    (begun f.engine.log)
  fresh : ((entered f.engine.log).map fun r => r.origin.sender).Pairwise (· < ·)
  issued : ∀ r ∈ entered f.engine.log, r.origin.sender < f.engine.issued
  requests : ∀ r ∈ f.engine.requests, r ∈ entered f.engine.log
  /-- and every job belongs to a request. -/
  work : ∀ o ∈ f.engine.work, ∃ r ∈ entered f.engine.log, r.isClose = false ∧ r.origin = o
  /-- What is sent after the panic is the failure that fits the request. -/
  failures : ∀ o e, .failed o e ∈ f.aftermath →
    ∃ r ∈ entered f.engine.log, r.origin = o ∧ e = r.failure
  /-- Until the workers are joined there is a thread for every job, so all jobs come to their end. -/
  threads : u.rank ≤ 4 →
    f.engine.pool.jobs.length + f.engine.pool.running.length ≤ f.engine.pool.handles
  /-- What the unwinding is past is empty. -/
  pending : 2 ≤ u.rank → f.engine.pending = []
  queues : 3 ≤ u.rank → f.engine.queues = ∅
  jobs : 5 ≤ u.rank → f.engine.pool.jobs = [] ∧ f.engine.pool.running = []
  channel : 7 ≤ u.rank → f.engine.channel = []
  phase : f.engine.phase = .dropped → u.rank = 8
  /-- The lifecycle is failed as soon as the panic has been caught, -/
  lifecycle : if u.rank < 6 then f.engine.lifecycle = .opened ∨ f.engine.lifecycle = .closing
    else f.engine.lifecycle = .failed
  moved : u.rank < 6 → .moved .failed ∉ f.engine.log
  /-- and calls that come later are told so. -/
  late : Justified Late f.engine.log
  /-- The pool is not shut down in the normal way any more, and no close is answered. -/
  stopped : ¬Stopped f.engine.log
  answers : ∀ o result, .answered o result ∈ f.engine.log →
    ∃ r ∈ entered f.engine.log, r.isClose = false ∧ r.origin = o

/-- After the panic the store is open, closing or failed. -/
theorem Lost.unstopped {f : FailingStore} {u : Unwinding} (h : Lost f u) : f.engine.Unstopped := by
  have hlock := h.lifecycle
  split at hlock
  · rcases hlock with hlock | hlock
    · exact Or.inl hlock
    · exact Or.inr (Or.inl hlock)
  · exact Or.inr (Or.inr hlock)

/-- The lifecycle is failed exactly when the panic has been caught and dealt with. -/
theorem Lost.failed_iff {f : FailingStore} {u : Unwinding} (h : Lost f u) :
    f.engine.lifecycle = .failed ↔ 6 ≤ u.rank := by
  have hlock := h.lifecycle
  constructor
  · intro hfailed
    by_contra hlt
    rw [if_pos (by omega)] at hlock
    rcases hlock with hlock | hlock <;> simp [hlock] at hfailed
  · intro hle
    rwa [if_neg (by omega)] at hlock

/-- Two requests that entered with one origin are one request. -/
theorem Lost.eq_of_origin {f : FailingStore} {u : Unwinding} (h : Lost f u) {r r' : PendingEvent}
    (hr : r ∈ entered f.engine.log) (hr' : r' ∈ entered f.engine.log)
    (heq : r.origin = r'.origin) : r = r' := by
  have hsenders : ((entered f.engine.log).map fun r => r.origin.sender).Nodup :=
    h.fresh.imp fun hlt => Nat.ne_of_lt hlt
  refine List.inj_on_of_nodup_map hsenders hr hr' ?_
  rw [heq]

/-! ## The panic

  The event being handled is in the hands of the coordinator, and everything else is where the
  invariant of a running store says it is. -/

/-- Taking an event from the channel takes its reply sender, whatever kind of event it is. -/
theorem requests_take {ev : CoordinatorEvent} {rest : List CoordinatorEvent} {o : Origin}
    (hchannel : s.channel = ev :: rest) (h : o ∈ s.requests.map PendingEvent.origin) :
    o ∈ ev.holder?.toList ∨
      o ∈ (rest.filterMap CoordinatorEvent.request?).map PendingEvent.origin := by
  rw [Engine.requests, hchannel, List.filterMap_cons] at h
  unfold CoordinatorEvent.holder?
  cases hrequest : ev.request? with
  | none =>
    rw [hrequest] at h
    exact Or.inr h
  | some r =>
    rw [hrequest] at h
    simpa using h

/-- The same for the outcome a completion carries. -/
theorem outcomes_take {ev : CoordinatorEvent} {rest : List CoordinatorEvent} {o : Origin}
    (hchannel : s.channel = ev :: rest) (h : o ∈ s.outcomes) :
    o ∈ ev.holder?.toList ∨ o ∈ rest.filterMap CoordinatorEvent.outcome? := by
  rw [Engine.outcomes, hchannel, List.filterMap_cons] at h
  cases houtcome : ev.outcome? with
  | none =>
    rw [houtcome] at h
    exact Or.inr h
  | some o' =>
    rw [houtcome] at h
    rcases List.mem_cons.mp h with rfl | h
    · refine Or.inl ?_
      cases ev with
      | completion done => exact Option.mem_toList.mpr houtcome
      | maintenanceCompletion done => exact Option.mem_toList.mpr houtcome
      | submission sub => cases houtcome
      | maintenance sub => cases houtcome
      | flush sender => cases houtcome
      | close sub => cases houtcome
    · exact Or.inr h

/-- What is queued for any key is among the elements of the queues. -/
theorem mem_elements_of_queued {queues : KeyedQueues KeyHash Operation} {o : Origin}
    (h : 0 < queuedIn queues o) : o ∈ queues.elements.map fun e => e.2.origin e.1 := by
  unfold queuedIn at h
  split at h
  · exact absurd h (Nat.lt_irrefl 0)
  · rename_i k hk
    obtain ⟨op, hop, rfl⟩ := List.mem_map.mp (List.count_pos_iff.mp h)
    exact List.mem_map.mpr ⟨(k, op), queues.mem_elements.mpr hop, rfl⟩

/-- In a running store the jobs and their outcomes are those of accepted requests. -/
theorem work_of_inv (h : Inv config s) : ∀ o ∈ s.work, ∃ r ∈ entered s.log,
    r.isClose = false ∧ r.origin = o := by
  have hbegun : ∀ o ∈ begun s.log, ∃ r ∈ entered s.log, r.isClose = false ∧ r.origin = o := by
    intro o ho
    obtain ⟨r, hr, horigin⟩ := h.begunReleased o ho
    exact ⟨r, received_subset h (released_received h hr),
      not_close_of_beforeClose (released_before h hr), horigin⟩
  have hexecuted : ∀ o, 0 < (executed s.log).count o → o ∈ begun s.log := fun o hpos =>
    executed_begun h.lawful (List.count_pos_iff.mp hpos)
  intro o ho
  have hjobs := h.jobs o
  rcases List.mem_append.mp ho with ho | ho
  · rcases List.mem_append.mp ho with ho | ho
    · exact hbegun o (h.started.subset (List.mem_append_right _ ho))
    · have := List.count_pos_iff.mpr ho
      exact hbegun o (hexecuted o (by omega))
  · have := List.count_pos_iff.mpr ho
    exact hbegun o (hexecuted o (by omega))

/-- A store that is open or closing has never failed. -/
theorem not_failed_of_inv (h : Inv config s) (hlock : s.lifecycle = .opened ∨ s.lifecycle = .closing) :
    .moved .failed ∉ s.log := by
  intro hmem
  have hpath := h.path
  have hmoved : Lifecycle.failed ∈ moved s.log := List.mem_filterMap.mpr ⟨_, hmem, rfl⟩
  rcases hlock with hlock | hlock
  · rw [hlock] at hpath
    rw [hpath.of_opened] at hmoved
    nomatch hmoved
  · rw [hlock] at hpath
    rw [hpath.of_closing] at hmoved
    simp at hmoved

/-- **The panic.** -/
theorem Lost.panic {f : FailingStore} (h : Inv config f.engine) (hs : Settled config f.engine)
    (ev : CoordinatorEvent) (rest : List CoordinatorEvent) (hphase : f.engine.phase = .running)
    (hchannel : f.engine.channel = ev :: rest) (haftermath : f.aftermath = []) :
    Lost { f with
      engine := { f.engine with channel := rest }
      unwinding := some (.event ev), before := f.engine.log } (.event ev) := by
  have hlock : f.engine.lifecycle = .opened ∨ f.engine.lifecycle = .closing :=
    (h.ready hphase).lifecycle
  have hstopped : ¬Stopped f.engine.log := by
    intro hstopped
    rcases h.stopped.mp hstopped with hlock' | hlock' <;> simp [hlock'] at hlock
  have hrest : ∀ o, o ∈ rest.filterMap CoordinatorEvent.outcome? → o ∈ f.engine.outcomes := by
    intro o ho
    rw [Engine.outcomes, hchannel, List.filterMap_cons]
    split
    · exact ho
    · exact List.mem_cons_of_mem _ ho
  refine ⟨⟨[], (List.append_nil _).symm, List.forall_mem_nil _⟩, fun r hr => ?_, h.started,
    h.fresh, h.issued, fun r hr => ?_, fun o ho => ?_, ?_, fun _ => h.threads,
    fun hrank => absurd hrank (by simp [Unwinding.rank]),
    fun hrank => absurd hrank (by simp [Unwinding.rank]),
    fun hrank => absurd hrank (by simp [Unwinding.rank]),
    fun hrank => absurd hrank (by simp [Unwinding.rank]), fun hdropped => ?_, hlock, ?_, ?_, hstopped,
    fun o result hmem => ?_⟩
  · -- the ledger at the moment of the panic
    have hpos : 0 < ((entered f.engine.log).map PendingEvent.origin).count r.origin :=
      List.count_pos_iff.mpr (List.mem_map_of_mem hr)
    rw [← h.conserved] at hpos
    by_cases hqueued : 0 < f.engine.queued r.origin
    · rw [FailingStore.mem_whereabouts]
      refine Or.inr (Or.inr (Or.inr (Or.inr (Or.inl ?_))))
      exact List.mem_append_right _ (mem_elements_of_queued hqueued)
    · have hplace : r.origin ∈ f.engine.places := List.count_pos_iff.mp (by omega)
      simp only [Engine.places, hs.delivered, Option.toList_none, List.map_nil, List.append_nil,
        List.mem_append] at hplace
      rw [FailingStore.mem_whereabouts]
      rcases hplace with ((((hplace | hplace) | hplace) | hplace) | hplace) | hplace
      · rcases requests_take hchannel hplace with hheld | hplace
        · exact Or.inr (Or.inr (Or.inr (Or.inr (Or.inr hheld))))
        · exact Or.inr (Or.inr (Or.inl hplace))
      · exact Or.inr (Or.inr (Or.inr (Or.inr (Or.inl (List.mem_append_left _ hplace)))))
      · refine Or.inr (Or.inr (Or.inr (Or.inl ?_)))
        exact List.mem_append_left _ (List.mem_append_left _ hplace)
      · refine Or.inr (Or.inr (Or.inr (Or.inl ?_)))
        exact List.mem_append_left _ (List.mem_append_right _ hplace)
      · rcases outcomes_take hchannel hplace with hheld | hplace
        · exact Or.inr (Or.inr (Or.inr (Or.inr (Or.inr hheld))))
        · exact Or.inr (Or.inr (Or.inr (Or.inl (List.mem_append_right _ hplace))))
      · exact Or.inl hplace
  · have hmem : r ∈ f.engine.requests := by
      rw [Engine.requests, hchannel, List.filterMap_cons]
      split
      · exact hr
      · exact List.mem_cons_of_mem _ hr
    rw [h.order]
    exact List.mem_append_right _ hmem
  · refine work_of_inv h o ?_
    simp only [Engine.work, List.mem_append] at ho ⊢
    exact ho.imp_right (hrest o)
  · intro o e hmem
    rw [haftermath] at hmem
    exact absurd hmem List.not_mem_nil
  · rw [show _ = Phase.running from hphase] at hdropped
    cases hdropped
  · exact fun _ => not_failed_of_inv (s := f.engine) h hlock
  · -- no close was resolved on its own thread before, since the store was running
    intro front entry back hlog
    cases entry with
    | resolved r result =>
      rintro (hclose | hmem)
      · have hlawful : if r.isClose then Stopped front else _ := h.lawful front _ back hlog
        rw [if_pos hclose] at hlawful
        refine absurd ?_ hstopped
        rw [show f.engine.log = _ from hlog]
        exact hlawful.append _
      · refine absurd ?_ (not_failed_of_inv h hlock)
        rw [show f.engine.log = _ from hlog]
        exact List.mem_append_left _ hmem
    | _ => trivial
  · -- and none was answered
    obtain ⟨front, back, hlog⟩ := List.append_of_mem hmem
    obtain ⟨r, hr, horigin, hlawful⟩ := h.lawful front _ back hlog
    have hentered : r ∈ entered f.engine.log := by
      rw [show f.engine.log = _ from hlog, entered_append]
      exact List.mem_append_left _ hr
    refine ⟨r, hentered, ?_, horigin⟩
    by_contra hclose
    rw [if_pos (by simpa using hclose)] at hlawful
    refine absurd ?_ hstopped
    rw [show f.engine.log = _ from hlog]
    exact hlawful.append _

/-! ## Callers and workers

  Their steps do not depend on how far the unwinding is, except through the lifecycle: until it is
  failed a call may still send, and what it sends will be found by the drain. -/

/-- Calls that are resolved late report the failure, and the others came before it. -/
theorem Lost.late_effect {f : FailingStore} {u : Unwinding} (h : Lost f u)
    (he : Effect f.engine s') : Justified Late s'.log := by
  have hlate := h.late
  cases he with
  | resolve r result hfresh hclose hfailed =>
    refine justified_concat.mpr ⟨hlate, ?_⟩
    rintro (hr | hmem)
    · exact hfailed (hclose hr)
    · refine hfailed (h.failed_iff.mpr ?_)
      by_contra hlt
      exact h.moved (by omega) hmem
  | quiet handles abandoned => exact hlate
  | enter r => exact justified_concat.mpr ⟨hlate, trivial⟩
  | startJob job rest => exact justified_concat.mpr ⟨hlate, trivial⟩
  | finishJob front back job ev entries hrunning hend =>
    refine hlate.append_free fun l entry hmem => ?_
    rcases hend.entries with ⟨rfl, -⟩ | ⟨rfl, -⟩
    · nomatch hmem
    · rw [List.mem_singleton.mp hmem]
      trivial

-- what a step writes, read off the record
attribute [local simp] Engine.observe Engine.requests Engine.outcomes Engine.work resolve enter
  entered executed begun resolutions List.filterMap_cons

/-- The order in which requests entered, and in which jobs were dispatched. -/
theorem Lost.order_effect {f : FailingStore} {u : Unwinding} (h : Lost f u)
    (he : Effect f.engine s') :
    (executed s'.log ++ s'.pool.jobs.map WorkerJob.origin).Sublist (begun s'.log) ∧
      ((entered s'.log).map fun r => r.origin.sender).Pairwise (· < ·) ∧
      ∀ r ∈ entered s'.log, r.origin.sender < s'.issued := by
  have hstarted := h.started
  have hfresh := h.fresh
  have hissued := h.issued
  cases he with
  | quiet handles abandoned => exact ⟨hstarted, hfresh, hissued⟩
  | resolve r result hnew =>
    refine ⟨by simpa using hstarted, by simpa using hfresh, fun r' hr' => ?_⟩
    exact Nat.lt_of_lt_of_le (hissued r' (by simpa using hr')) (Nat.le_succ_of_le hnew)
  | enter r hnew =>
    have hentered : entered (enter r f.engine).log = entered f.engine.log ++ [r] := by simp
    rw [hentered]
    refine ⟨by simpa using hstarted, ?_, fun r' hr' => ?_⟩
    · rw [List.map_append, List.pairwise_append]
      refine ⟨hfresh, by simp, fun a ha b hb => ?_⟩
      obtain ⟨r', hr', rfl⟩ := List.mem_map.mp ha
      obtain rfl : b = r.origin.sender := by simpa using hb
      exact Nat.lt_of_lt_of_le (hissued r' hr') hnew
    · rcases List.mem_append.mp hr' with hr' | hr'
      · exact Nat.lt_of_lt_of_le (hissued r' hr') (Nat.le_succ_of_le hnew)
      · obtain rfl := List.mem_singleton.mp hr'
        exact Nat.lt_succ_self _
  | startJob job rest hjobs =>
    exact ⟨by simpa [hjobs] using hstarted, by simpa using hfresh, by simpa using hissued⟩
  | finishJob front back job ev entries hrunning hend =>
    rcases hend.entries with ⟨rfl, -⟩ | ⟨rfl, -⟩
    · exact ⟨by simpa using hstarted, by simpa using hfresh, by simpa using hissued⟩
    · exact ⟨by simpa using hstarted, by simpa using hfresh, by simpa using hissued⟩

/-- What a step of a caller or a worker does to the ledger: a new request is in the channel, a job
    moves on or hands its origin to the channel or to the history. -/
theorem Effect.ledger (he : Effect s s') :
    (∀ r ∈ entered s'.log, r ∈ entered s.log ∨ r ∈ s'.requests) ∧
      (∀ r ∈ entered s.log, r ∈ entered s'.log) ∧
      (∀ r ∈ s.requests, r ∈ s'.requests) ∧ (∀ r ∈ s'.requests, r ∈ s.requests ∨ r ∈ entered s'.log) ∧
      (∀ o ∈ s'.work, o ∈ s.work) ∧ (∀ o ∈ s.work, o ∈ s'.work ∨ o ∈ resolutions s'.log) ∧
      (∀ o ∈ resolutions s.log, o ∈ resolutions s'.log) := by
  have hold : ∀ r ∈ s.requests, r ∈ s.requests ∨ r ∈ entered s.log := fun r hr => Or.inl hr
  cases he with
  | quiet handles abandoned =>
    exact ⟨fun r hr => Or.inl hr, fun r hr => hr, fun r hr => hr, hold, fun o ho => ho,
      fun o ho => Or.inl ho, fun o ho => ho⟩
  | resolve r result =>
    refine ⟨fun r hr => Or.inl (by simpa using hr), fun r hr => ?_, fun r hr => hr,
      fun r hr => Or.inl hr, fun o ho => ho, fun o ho => Or.inl ho, fun o ho => ?_⟩
    · simpa using hr
    · simpa using ho
  | enter r =>
    -- the one step that adds to the requests
    refine ⟨fun r' hr' => ?_, fun r' hr' => ?_, fun r' hr' => ?_, fun r' hr' => ?_, fun o ho => ?_,
      fun o ho => Or.inl ?_, fun o ho => ?_⟩
    · rcases List.mem_append.mp (show r' ∈ entered s.log ++ [r] by simpa using hr')
        with hr' | hr'
      · exact Or.inl hr'
      · obtain rfl := List.mem_singleton.mp hr'
        exact Or.inr (by simp)
    · simpa using Or.inl hr'
    · simpa using Or.inl hr'
    · rcases List.mem_append.mp (show r' ∈ s.requests ++ [r] by
        simpa using hr') with hr' | hr'
      · exact Or.inl hr'
      · obtain rfl := List.mem_singleton.mp hr'
        exact Or.inr (by simp)
    · simpa using ho
    · simpa using ho
    · simpa using ho
  | startJob job rest hjobs =>
    refine ⟨fun r hr => Or.inl (by simpa using hr), fun r hr => by simpa using hr, fun r hr => hr,
      fun r hr => Or.inl hr, fun o ho => ?_, fun o ho => Or.inl ?_, fun o ho => by simpa using ho⟩
    · simp only [Engine.work, hjobs, List.map_append, List.map_cons, List.map_nil, List.mem_append,
        List.mem_cons, List.not_mem_nil, or_false] at ho ⊢
      tauto
    · simp only [Engine.work, hjobs, List.map_append, List.map_cons, List.map_nil, List.mem_append,
        List.mem_cons, List.not_mem_nil, or_false] at ho ⊢
      tauto
  | finishJob front back job ev entries hrunning hend =>
    have hrequest := hend.event.1
    -- a job that ends hands its outcome to the channel, or answers its caller itself
    rcases hend.entries with ⟨rfl, houtcome⟩ | ⟨rfl, houtcome⟩
    · refine ⟨fun r hr => Or.inl (by simpa using hr), fun r hr => by simpa using hr, fun r hr => ?_,
        fun r hr => Or.inl ?_, fun o ho => ?_, fun o ho => Or.inl ?_, fun o ho => by simpa using ho⟩
      · simpa [hrequest] using hr
      · simpa [hrequest] using hr
      · simp only [Engine.work, Engine.outcomes, hrunning, houtcome,
          List.filterMap_append, List.filterMap_cons, List.filterMap_nil,
          List.map_append, List.map_cons, List.mem_append, List.mem_cons, List.not_mem_nil,
          or_false] at ho ⊢
        tauto
      · simp only [Engine.work, Engine.outcomes, hrunning, houtcome,
          List.filterMap_append, List.filterMap_cons, List.filterMap_nil,
          List.map_append, List.map_cons, List.mem_append, List.mem_cons, List.not_mem_nil,
          or_false] at ho ⊢
        tauto
    · refine ⟨fun r hr => Or.inl (by simpa using hr), fun r hr => by simpa using hr, fun r hr => ?_,
        fun r hr => Or.inl ?_, fun o ho => ?_, fun o ho => ?_, fun o ho => ?_⟩
      · simpa [hrequest] using hr
      · simpa [hrequest] using hr
      · simp only [Engine.work, Engine.outcomes, hrunning, houtcome,
          List.filterMap_append, List.filterMap_cons, List.filterMap_nil,
          List.map_append, List.map_cons, List.mem_append, List.mem_cons, List.not_mem_nil,
          or_false] at ho ⊢
        tauto
      · simp only [Engine.work, Engine.outcomes, hrunning, houtcome, resolutions,
          List.filterMap_append, List.filterMap_cons, List.filterMap_nil, Observation.resolves?,
          List.map_append, List.map_cons, List.mem_append, List.mem_cons, List.not_mem_nil,
          or_false, Engine.observe] at ho ⊢
        tauto
      · simp [ho]

/-- What no step of a caller or a worker touches. -/
structure Untouched (s s' : Engine) : Prop where
  /-- Neither the pending list, -/
  pending : s'.pending = s.pending
  /-- nor the queues, -/
  queues : s'.queues = s.queues
  /-- the lifecycle, -/
  lifecycle : s'.lifecycle = s.lifecycle
  /-- the phase, -/
  phase : s'.phase = s.phase
  /-- or the threads are touched, -/
  handles : s'.pool.handles = s.pool.handles
  /-- and there are no more jobs than before. -/
  jobs : s'.pool.jobs.length + s'.pool.running.length ≤
    s.pool.jobs.length + s.pool.running.length

/-- Callers and workers reach neither the coordinator's locals nor its phase. -/
theorem Effect.untouched (he : Effect s s') : Untouched s s' := by
  cases he with
  | quiet handles abandoned => exact ⟨rfl, rfl, rfl, rfl, rfl, Nat.le_refl _⟩
  | resolve r result => exact ⟨rfl, rfl, rfl, rfl, rfl, Nat.le_refl _⟩
  | enter r => exact ⟨rfl, rfl, rfl, rfl, rfl, Nat.le_refl _⟩
  | startJob job rest hjobs =>
    refine ⟨rfl, rfl, rfl, rfl, rfl, ?_⟩
    show rest.length + (s.pool.running ++ [job]).length ≤ _
    simp only [hjobs, List.length_append, List.length_cons, List.length_nil]
    omega
  | finishJob front back job ev entries hrunning hend =>
    refine ⟨rfl, rfl, rfl, rfl, rfl, ?_⟩
    show s.pool.jobs.length + (front ++ back).length ≤ _
    rw [hrunning, List.length_append, List.length_append, List.length_cons]
    omega

/-- **Once the store has failed and its workers are joined, nothing is sent any more.** -/
theorem Effect.silent (he : Effect s s') (hlock : s.lifecycle = .failed)
    (hrunning : s.pool.running = []) : s'.channel = s.channel := by
  cases he with
  | quiet handles abandoned => rfl
  | resolve r result => rfl
  | enter r hfresh hnot => exact absurd hlock hnot
  | startJob job rest hjobs => rfl
  | finishJob front back job ev entries hrunning' hend =>
    rw [hrunning] at hrunning'
    exact absurd hrunning'.symm (by simp)

/-- **Callers and workers keep the invariant.** -/
theorem Lost.effect {f : FailingStore} {u : Unwinding} (h : Lost f u) (he : Effect f.engine s') :
    Lost { f with engine := s' } u := by
  obtain ⟨more, hlog, hmore⟩ := he.history
  obtain ⟨hentered, hgrows, hrequests, hsent, hwork, hmoves, hresolved⟩ := he.ledger
  obtain ⟨hstarted, hfresh, hissued⟩ := h.order_effect he
  have hframe := he.untouched
  have hlate := h.late_effect he
  -- what a step outside the coordinator records is never the coordinator's
  have hnotin : ∀ entry, entry.outside = false → entry ∈ s'.log → entry ∈ f.engine.log := by
    intro entry hout hmem
    rw [hlog] at hmem
    rcases List.mem_append.mp hmem with hmem | hmem
    · exact hmem
    · rw [hmore entry hmem] at hout
      nomatch hout
  exact {
    history := by
      obtain ⟨old, hold, hkind⟩ := h.history
      refine ⟨old ++ more, ?_, fun entry hmem => ?_⟩
      · rw [show _ = s'.log from rfl, hlog, hold, List.append_assoc]
      · rcases List.mem_append.mp hmem with hmem | hmem
        · exact hkind entry hmem
        · exact Or.inl (hmore entry hmem)
    conserved := fun r hr => by
      rw [FailingStore.mem_whereabouts]
      rcases hentered r hr with hr | hr
      · rcases FailingStore.mem_whereabouts.mp (h.conserved r hr) with
          hplace | hplace | hplace | hplace | hplace | hplace
        · exact Or.inl (hresolved _ hplace)
        · exact Or.inr (Or.inl hplace)
        · obtain ⟨r', hr', horigin⟩ := List.mem_map.mp hplace
          exact Or.inr (Or.inr (Or.inl (List.mem_map.mpr ⟨r', hrequests r' hr', horigin⟩)))
        · -- a job that ended is resolved, and any other stays where it was
          rcases hmoves _ hplace with hplace | hplace
          · exact Or.inr (Or.inr (Or.inr (Or.inl hplace)))
          · exact Or.inl hplace
        · refine Or.inr (Or.inr (Or.inr (Or.inr (Or.inl ?_))))
          unfold Engine.locals at hplace ⊢
          rwa [hframe.pending, hframe.queues]
        · exact Or.inr (Or.inr (Or.inr (Or.inr (Or.inr hplace))))
      · exact Or.inr (Or.inr (Or.inl (List.mem_map_of_mem hr)))
    started := hstarted
    fresh := hfresh
    issued := hissued
    requests := fun r hr => (hsent r hr).elim (fun hr => hgrows r (h.requests r hr)) id
    work := fun o ho => by
      obtain ⟨r, hr, hclose, horigin⟩ := h.work o (hwork o ho)
      exact ⟨r, hgrows r hr, hclose, horigin⟩
    failures := fun o e hmem => by
      obtain ⟨r, hr, horigin, hfailure⟩ := h.failures o e hmem
      exact ⟨r, hgrows r hr, horigin, hfailure⟩
    threads := fun hrank => by
      rw [hframe.handles]
      exact Nat.le_trans hframe.jobs (h.threads hrank)
    pending := fun hrank => hframe.pending.trans (h.pending hrank)
    queues := fun hrank => hframe.queues.trans (h.queues hrank)
    jobs := fun hrank => by
      obtain ⟨hjobs, hrunning⟩ := h.jobs hrank
      have hle := hframe.jobs
      rw [hjobs, hrunning] at hle
      -- there are no more jobs than before, and there were none
      have hzero : s'.pool.jobs.length + s'.pool.running.length ≤ 0 := hle
      have hnone : s'.pool.jobs = [] ∧ s'.pool.running = [] := by
        constructor
        · exact List.length_eq_zero_iff.mp (by omega)
        · exact List.length_eq_zero_iff.mp (by omega)
      exact hnone
    channel := fun hrank => by
      -- the last sender is gone: callers are refused, and no worker is left
      have hlock := h.failed_iff.mpr (by omega)
      exact (he.silent hlock (h.jobs (by omega)).2).trans (h.channel hrank)
    phase := fun hdropped => h.phase (hframe.phase.symm.trans hdropped)
    lifecycle := by
      have hlock := h.lifecycle
      rw [← hframe.lifecycle] at hlock
      exact hlock
    moved := fun hrank hmem => h.moved hrank (hnotin _ rfl hmem)
    late := hlate
    stopped := fun ⟨ok, hmem⟩ => h.stopped ⟨ok, hnotin _ rfl hmem⟩
    answers := fun o result hmem => by
      obtain ⟨r, hr, hclose, horigin⟩ := h.answers o result (hnotin _ rfl hmem)
      exact ⟨r, hgrows r hr, hclose, horigin⟩ }

/-! ## The coordinator unwinds

  One lemma for each step of the unwinding, in the order of the drops.  Each of them empties one place
  and hands those who were there to the aftermath: to a dropped sender, or to a failure that is sent. -/

@[simp] theorem map_disconnect (origins : List Origin) :
    (disconnect origins).map Aftermath.origin = origins := by
  simp [disconnect, Function.comp_def, Aftermath.origin]

/-- Dropping a sender sends nothing. -/
theorem not_failed_of_disconnect {origins : List Origin} {o : Origin} {e : AtomicBlobStoreError} :
    .failed o e ∉ disconnect origins := by
  simp [disconnect]

/-- Dropping reply senders moves their requests from the coordinator's hands to the aftermath. -/
theorem Lost.drop {f : FailingStore} {u : Unwinding} (h : Lost f u) (f' : FailingStore)
    (u' : Unwinding) (origins : List Origin)
    (haftermath : f'.aftermath = f.aftermath ++ disconnect origins)
    (hlog : f'.engine.log = f.engine.log) (hchannel : f'.engine.channel = f.engine.channel)
    (hpool : f'.engine.pool = f.engine.pool)
    (hdropped : ∀ o, o ∈ f.engine.locals ∨ o ∈ u.held →
      o ∈ f'.engine.locals ∨ o ∈ u'.held ∨ o ∈ origins) :
    (∀ r ∈ entered f'.engine.log, r.origin ∈ f'.whereabouts u') ∧
      ∀ o e, .failed o e ∈ f'.aftermath →
        ∃ r ∈ entered f'.engine.log, r.origin = o ∧ e = r.failure := by
  constructor
  · intro r hr
    rw [hlog] at hr
    rw [FailingStore.mem_whereabouts, haftermath, List.map_append, map_disconnect, List.mem_append,
      Engine.requests, Engine.work, Engine.outcomes, hlog, hchannel, hpool]
    have hplace := FailingStore.mem_whereabouts.mp (h.conserved r hr)
    have hlast := hdropped r.origin
    rw [Engine.requests, Engine.work, Engine.outcomes] at hplace
    tauto
  · intro o e hmem
    rw [haftermath] at hmem
    rw [hlog]
    rcases List.mem_append.mp hmem with hmem | hmem
    · exact h.failures o e hmem
    · exact absurd hmem not_failed_of_disconnect

/-- The event that was being handled goes first; its reply sender goes with it. -/
theorem Lost.dropEvent {f : FailingStore} {ev : CoordinatorEvent} (h : Lost f (.event ev)) :
    Lost { f with
      unwinding := some .pending
      aftermath := f.aftermath ++ disconnect ev.holder?.toList } .pending := by
  obtain ⟨hconserved, hfailures⟩ := h.drop { f with
    unwinding := some .pending, aftermath := f.aftermath ++ disconnect ev.holder?.toList }
    .pending ev.holder?.toList rfl rfl rfl rfl fun o ho => ho.imp_right Or.inr
  exact { h with
    conserved := hconserved
    failures := hfailures
    threads := fun _ => h.threads (by simp [Unwinding.rank])
    pending := fun hrank => absurd hrank (by simp [Unwinding.rank])
    queues := fun hrank => absurd hrank (by simp [Unwinding.rank])
    jobs := fun hrank => absurd hrank (by simp [Unwinding.rank])
    channel := fun hrank => absurd hrank (by simp [Unwinding.rank])
    phase := fun hdropped => nomatch h.phase hdropped
    lifecycle := h.lifecycle
    moved := fun _ => h.moved (by simp [Unwinding.rank]) }

/-- Then the pending list, -/
theorem Lost.dropPending {f : FailingStore} (h : Lost f .pending) :
    Lost { f with
      unwinding := some .queues, engine := { f.engine with pending := [] }
      aftermath := f.aftermath ++ disconnect (f.engine.pending.map PendingEvent.origin) }
      .queues := by
  obtain ⟨hconserved, hfailures⟩ := h.drop { f with
    unwinding := some .queues, engine := { f.engine with pending := [] }
    aftermath := f.aftermath ++ disconnect (f.engine.pending.map PendingEvent.origin) } .queues
    (f.engine.pending.map PendingEvent.origin) rfl rfl rfl rfl fun o ho => by
      rcases ho with ho | ho
      · rcases List.mem_append.mp ho with ho | ho
        · exact Or.inr (Or.inr ho)
        · exact Or.inl ho
      · nomatch ho
  exact { h with
    conserved := hconserved
    failures := hfailures
    threads := fun _ => h.threads (by simp [Unwinding.rank])
    pending := fun _ => rfl
    queues := fun hrank => absurd hrank (by simp [Unwinding.rank])
    jobs := fun hrank => absurd hrank (by simp [Unwinding.rank])
    channel := fun hrank => absurd hrank (by simp [Unwinding.rank])
    phase := fun hdropped => nomatch h.phase hdropped
    lifecycle := h.lifecycle
    moved := fun _ => h.moved (by simp [Unwinding.rank]) }

/-- the queues of all keys, -/
theorem Lost.dropQueues {f : FailingStore} (h : Lost f .queues) :
    Lost { f with
      unwinding := some .pool, engine := { f.engine with active := ∅, queues := ∅ }
      aftermath := f.aftermath ++
        disconnect (f.engine.queues.elements.map fun e => e.2.origin e.1) } .pool := by
  obtain ⟨hconserved, hfailures⟩ := h.drop { f with
    unwinding := some .pool, engine := { f.engine with active := ∅, queues := ∅ }
    aftermath := f.aftermath ++
      disconnect (f.engine.queues.elements.map fun e => e.2.origin e.1) } .pool
    (f.engine.queues.elements.map fun e => e.2.origin e.1) rfl rfl rfl rfl fun o ho => by
      rcases ho with ho | ho
      · rcases List.mem_append.mp ho with ho | ho
        · exact Or.inl (List.mem_append_left _ ho)
        · exact Or.inr (Or.inr ho)
      · nomatch ho
  exact { h with
    conserved := hconserved
    failures := hfailures
    threads := fun _ => h.threads (by simp [Unwinding.rank])
    pending := fun _ => h.pending (by simp [Unwinding.rank])
    queues := fun _ => rfl
    jobs := fun hrank => absurd hrank (by simp [Unwinding.rank])
    channel := fun hrank => absurd hrank (by simp [Unwinding.rank])
    phase := fun hdropped => nomatch h.phase hdropped
    lifecycle := h.lifecycle
    moved := fun _ => h.moved (by simp [Unwinding.rank]) }

/-- and the pool, which drops the job channel's sender: the workers finish what is in it and end. -/
theorem Lost.dropPool {f : FailingStore} (h : Lost f .pool) :
    Lost { f with
      unwinding := some .joining
      engine := { f.engine with pool := { f.engine.pool with sender := false } } } .joining :=
  { h with
    conserved := h.conserved
    threads := fun _ => h.threads (by simp [Unwinding.rank])
    pending := fun _ => h.pending (by simp [Unwinding.rank])
    queues := fun _ => h.queues (by simp [Unwinding.rank])
    jobs := fun hrank => absurd hrank (by simp [Unwinding.rank])
    channel := fun hrank => absurd hrank (by simp [Unwinding.rank])
    phase := fun hdropped => nomatch h.phase hdropped
    lifecycle := h.lifecycle
    moved := fun _ => h.moved (by simp [Unwinding.rank]) }

/-- The workers are joined, so no job is left when the panic is caught. -/
theorem Lost.caught {f : FailingStore} (h : Lost f .joining) (hjobs : f.engine.pool.jobs = [])
    (hrunning : f.engine.pool.running = []) :
    Lost { f with
      unwinding := some .caught
      engine := { f.engine with pool := { f.engine.pool with handles := 0 } } } .caught :=
  { h with
    conserved := h.conserved
    threads := fun hrank => absurd hrank (by simp [Unwinding.rank])
    pending := fun _ => h.pending (by simp [Unwinding.rank])
    queues := fun _ => h.queues (by simp [Unwinding.rank])
    jobs := fun _ => ⟨hjobs, hrunning⟩
    channel := fun hrank => absurd hrank (by simp [Unwinding.rank])
    phase := fun hdropped => nomatch h.phase hdropped
    lifecycle := h.lifecycle
    moved := fun _ => h.moved (by simp [Unwinding.rank]) }

/-- The lifecycle becomes failed under its lock.  From here on no call sends. -/
theorem Lost.fail {f : FailingStore} (h : Lost f .caught) :
    Lost { f with
      unwinding := some .draining
      engine := { f.engine.observe [.moved .failed] with lifecycle := .failed } } .draining := by
  obtain ⟨more, hlog, hkind⟩ := h.history
  exact {
    history := by
      refine ⟨more ++ [.moved .failed], ?_, fun entry hmem => ?_⟩
      · show f.engine.log ++ [_] = _
        rw [hlog, List.append_assoc]
      · rcases List.mem_append.mp hmem with hmem | hmem
        · exact hkind entry hmem
        · exact Or.inr (List.mem_singleton.mp hmem)
    conserved := fun r hr => by
      have hplace := h.conserved r (by simpa using hr)
      rw [FailingStore.mem_whereabouts] at hplace ⊢
      simpa [Engine.locals, Unwinding.held] using hplace
    started := by simpa using h.started
    fresh := by simpa using h.fresh
    issued := by simpa using h.issued
    requests := by simpa using h.requests
    work := by simpa using h.work
    failures := by simpa using h.failures
    threads := fun hrank => absurd hrank (by simp [Unwinding.rank])
    pending := fun _ => h.pending (by simp [Unwinding.rank])
    queues := fun _ => h.queues (by simp [Unwinding.rank])
    jobs := fun _ => h.jobs (by simp [Unwinding.rank])
    channel := fun hrank => absurd hrank (by simp [Unwinding.rank])
    phase := fun hdropped => nomatch h.phase hdropped
    lifecycle := rfl
    moved := fun hrank => absurd hrank (by simp [Unwinding.rank])
    late := justified_concat.mpr ⟨h.late, trivial⟩
    stopped := fun ⟨ok, hmem⟩ => h.stopped ⟨ok, by simpa using hmem⟩
    answers := fun o result hmem => by
      obtain ⟨r, hr, hkind⟩ := h.answers o result (by simpa using hmem)
      exact ⟨r, by simpa using hr, hkind⟩ }

/-- Every reply sender an event holds is answered. -/
theorem map_failEvent (ev : CoordinatorEvent) :
    (failEvent ev).map Aftermath.origin = ev.holder?.toList := by
  cases ev with
  | completion done => cases hdone : done.outcome <;> simp [failEvent, CoordinatorEvent.holder?,
      hdone, Aftermath.origin]
  | maintenanceCompletion done => cases hdone : done.outcome <;> simp [failEvent,
      CoordinatorEvent.holder?, hdone, Aftermath.origin]
  | submission sub => rfl
  | maintenance sub => rfl
  | flush sender => rfl
  | close sub => rfl

/-- What is sent is the failure of the request, or of the job the event ends. -/
theorem mem_failEvent {ev : CoordinatorEvent} {o : Origin} {e : AtomicBlobStoreError}
    (h : .failed o e ∈ failEvent ev) :
    (∃ r, ev.request? = some r ∧ r.origin = o ∧ e = r.failure) ∨
      ev.outcome? = some o ∧ e = .engineFailed := by
  cases ev with
  | submission sub =>
    obtain ⟨rfl, rfl⟩ : o = _ ∧ e = _ := by simpa [failEvent] using h
    exact Or.inl ⟨_, rfl, rfl, rfl⟩
  | maintenance sub =>
    obtain ⟨rfl, rfl⟩ : o = _ ∧ e = _ := by simpa [failEvent] using h
    exact Or.inl ⟨_, rfl, rfl, rfl⟩
  | flush sender =>
    obtain ⟨rfl, rfl⟩ : o = _ ∧ e = _ := by simpa [failEvent] using h
    exact Or.inl ⟨_, rfl, rfl, rfl⟩
  | close sub =>
    obtain ⟨rfl, rfl⟩ : o = _ ∧ e = _ := by simpa [failEvent] using h
    exact Or.inl ⟨_, rfl, rfl, rfl⟩
  | completion done =>
    obtain ⟨f, hf, heq⟩ := List.mem_map.mp h
    obtain ⟨rfl, rfl⟩ := Aftermath.failed.inj heq
    exact Or.inr ⟨by rw [outcome?_completion, Option.mem_toList.mp hf]; rfl, rfl⟩
  | maintenanceCompletion done =>
    obtain ⟨f, hf, heq⟩ := List.mem_map.mp h
    obtain ⟨rfl, rfl⟩ := Aftermath.failed.inj heq
    exact Or.inr ⟨by rw [outcome?_maintenanceCompletion, Option.mem_toList.mp hf]; rfl, rfl⟩

/-- What is left in the channel is answered with the failure, one event after the other. -/
theorem Lost.drainEvent {f : FailingStore} (h : Lost f .draining) (ev : CoordinatorEvent)
    (rest : List CoordinatorEvent) (hchannel : f.engine.channel = ev :: rest) :
    Lost { f with
      engine := { f.engine with channel := rest }
      aftermath := f.aftermath ++ failEvent ev } .draining := by
  have hrequests : ∀ r ∈ rest.filterMap CoordinatorEvent.request?, r ∈ f.engine.requests := by
    intro r hr
    rw [Engine.requests, hchannel, List.filterMap_cons]
    split
    · exact hr
    · exact List.mem_cons_of_mem _ hr
  have houtcomes : ∀ o ∈ rest.filterMap CoordinatorEvent.outcome?, o ∈ f.engine.outcomes := by
    intro o ho
    rw [Engine.outcomes, hchannel, List.filterMap_cons]
    split
    · exact ho
    · exact List.mem_cons_of_mem _ ho
  exact { h with
    conserved := fun r hr => by
      rw [FailingStore.mem_whereabouts]
      show _ ∨ r.origin ∈ (f.aftermath ++ failEvent ev).map Aftermath.origin ∨ _
      rw [List.map_append, map_failEvent, List.mem_append]
      -- whoever was in the event is now in the aftermath, and the others are where they were
      rcases FailingStore.mem_whereabouts.mp (h.conserved r hr) with
        hplace | hplace | hplace | hplace | hplace | hplace
      · exact Or.inl hplace
      · exact Or.inr (Or.inl (Or.inl hplace))
      · rcases requests_take hchannel hplace with hplace | hplace
        · exact Or.inr (Or.inl (Or.inr hplace))
        · exact Or.inr (Or.inr (Or.inl hplace))
      · rcases List.mem_append.mp hplace with hplace | hplace
        · exact Or.inr (Or.inr (Or.inr (Or.inl (List.mem_append_left _ hplace))))
        · rcases outcomes_take hchannel hplace with hplace | hplace
          · exact Or.inr (Or.inl (Or.inr hplace))
          · exact Or.inr (Or.inr (Or.inr (Or.inl (List.mem_append_right _ hplace))))
      · exact Or.inr (Or.inr (Or.inr (Or.inr (Or.inl hplace))))
      · exact Or.inr (Or.inr (Or.inr (Or.inr (Or.inr hplace))))
    requests := fun r hr => h.requests r (hrequests r hr)
    work := fun o ho => h.work o (by
      rcases List.mem_append.mp ho with ho | ho
      · exact List.mem_append_left _ ho
      · exact List.mem_append_right _ (houtcomes o ho))
    failures := fun o e hmem => by
      rcases List.mem_append.mp hmem with hmem | hmem
      · exact h.failures o e hmem
      rcases mem_failEvent hmem with ⟨r, hr, horigin, hfailure⟩ | ⟨ho, rfl⟩
      · refine ⟨r, h.requests r ?_, horigin, hfailure⟩
        rw [Engine.requests, hchannel]
        exact List.mem_filterMap.mpr ⟨ev, List.mem_cons_self .., hr⟩
      · obtain ⟨r, hr, hclose, horigin⟩ := h.work o (List.mem_append_right _ (by
          rw [Engine.outcomes, hchannel]
          exact List.mem_filterMap.mpr ⟨ev, List.mem_cons_self .., ho⟩))
        exact ⟨r, hr, horigin, (failure_of_not_close hclose).symm⟩
    channel := fun hrank => absurd hrank (by simp [Unwinding.rank])
    phase := h.phase
    lifecycle := h.lifecycle }

/-- The drain ends when the channel is empty. -/
theorem Lost.leave {f : FailingStore} (h : Lost f .draining) (hchannel : f.engine.channel = []) :
    Lost { f with unwinding := some .returned } .returned :=
  { h with
    conserved := h.conserved
    threads := fun hrank => absurd hrank (by simp [Unwinding.rank])
    pending := fun _ => h.pending (by simp [Unwinding.rank])
    queues := fun _ => h.queues (by simp [Unwinding.rank])
    jobs := fun _ => h.jobs (by simp [Unwinding.rank])
    channel := fun _ => hchannel
    phase := fun hdropped => nomatch h.phase hdropped
    lifecycle := h.lifecycle
    moved := fun hrank => absurd hrank (by simp [Unwinding.rank]) }

/-- Dropping the receiver of an empty channel changes nothing for anybody. -/
theorem Lost.dropReceiver {f : FailingStore} (h : Lost f .returned) :
    Lost { f with
      unwinding := some .dropped
      engine := { f.engine with phase := .dropped, channel := [] } } .dropped := by
  have hchannel := h.channel (by simp [Unwinding.rank])
  have hconserved : ∀ r ∈ entered f.engine.log, r.origin ∈ FailingStore.whereabouts { f with
      unwinding := some .dropped
      engine := { f.engine with phase := .dropped, channel := [] } } .dropped := by
    intro r hr
    have hplace := h.conserved r hr
    rw [FailingStore.mem_whereabouts] at hplace ⊢
    simpa only [Engine.requests, Engine.work, Engine.outcomes, Engine.locals, Unwinding.held,
      hchannel] using hplace
  exact { h with
    conserved := hconserved
    requests := fun r hr => nomatch hr
    work := fun o ho => h.work o (by
      unfold Engine.work Engine.outcomes
      rwa [hchannel])
    threads := fun hrank => absurd hrank (by simp [Unwinding.rank])
    pending := fun _ => h.pending (by simp [Unwinding.rank])
    queues := fun _ => h.queues (by simp [Unwinding.rank])
    jobs := fun _ => h.jobs (by simp [Unwinding.rank])
    channel := fun _ => rfl
    phase := fun _ => rfl
    lifecycle := h.lifecycle
    moved := fun hrank => absurd hrank (by simp [Unwinding.rank]) }

/-! ## Every reachable state

  The unwinding can begin in any state of a running store, so reachability is that of the store that
  may panic, and its invariant has two halves. -/

/-- **Every step after the panic keeps the invariant.** -/
theorem Lost.step {f f' : FailingStore} {u : Unwinding} (h : Lost f u) (hu : f.unwinding = some u)
    (hstep : FailingStep config fates f f') : ∃ u', f'.unwinding = some u' ∧ Lost f' u' := by
  -- the step of the unwinding names where it is
  have hat : ∀ v, f.unwinding = some v → u = v := fun v hv => Option.some.inj (hu.symm.trans hv)
  cases hstep with
  | step s' hup => rw [hu] at hup; nomatch hup
  | panic ev rest hup => rw [hu] at hup; nomatch hup
  | bystander s' v hdown hby =>
    refine ⟨u, hu, h.effect (hby.effect h.unstopped fun hdropped => h.failed_iff.mpr ?_)⟩
    rw [h.phase hdropped]
    decide
  | dropEvent ev hdown => obtain rfl := hat _ hdown; exact ⟨_, rfl, h.dropEvent⟩
  | dropPending hdown => obtain rfl := hat _ hdown; exact ⟨_, rfl, h.dropPending⟩
  | dropQueues hdown => obtain rfl := hat _ hdown; exact ⟨_, rfl, h.dropQueues⟩
  | dropPool hdown => obtain rfl := hat _ hdown; exact ⟨_, rfl, h.dropPool⟩
  | caught hdown hjobs hrunning =>
    obtain rfl := hat _ hdown
    exact ⟨_, rfl, h.caught hjobs hrunning⟩
  | fail hdown => obtain rfl := hat _ hdown; exact ⟨_, rfl, h.fail⟩
  | drainEvent ev rest hdown hchannel =>
    obtain rfl := hat _ hdown
    exact ⟨_, hdown, h.drainEvent ev rest hchannel⟩
  | leave hdown hchannel => obtain rfl := hat _ hdown; exact ⟨_, rfl, h.leave hchannel⟩
  | dropReceiver hdown => obtain rfl := hat _ hdown; exact ⟨_, rfl, h.dropReceiver⟩

/-- What holds of a store whose coordinator may panic: before the panic it is a store like any
    other, after it the invariant of the unwinding holds. -/
def Sound (config : StoreConfig) (fates : Nat → Fate) (f : FailingStore) : Prop :=
  match f.unwinding with
  | none => (engineSystem config fates).Reachable f.engine ∧ f.aftermath = []
  | some u => Lost f u

/-- Both halves are kept, and a panic leads from the first to the second. -/
theorem sound_reachable {f : FailingStore} (h : (failingSystem config fates).Reachable f) :
    Sound config fates f := by
  refine System.Reachable.invariant (P := Sound config fates) ?_ ?_ h
  · rintro f rfl
    exact ⟨.init rfl, rfl⟩
  · intro f f' _ hsound hstep
    unfold Sound at hsound ⊢
    cases hu : f.unwinding with
    | none =>
      rw [hu] at hsound
      obtain ⟨hreach, haftermath⟩ := hsound
      cases hstep with
      | step s' hup hs =>
        simp only [hu]
        exact ⟨hreach.step hs, haftermath⟩
      | panic ev rest hup hphase hchannel =>
        obtain ⟨hinv, hsettled⟩ := inv_reachable hreach
        exact Lost.panic hinv hsettled ev rest hphase hchannel haftermath
      | bystander s' u hdown => rw [hu] at hdown; nomatch hdown
      | dropEvent ev hdown => rw [hu] at hdown; nomatch hdown
      | dropPending hdown => rw [hu] at hdown; nomatch hdown
      | dropQueues hdown => rw [hu] at hdown; nomatch hdown
      | dropPool hdown => rw [hu] at hdown; nomatch hdown
      | caught hdown => rw [hu] at hdown; nomatch hdown
      | fail hdown => rw [hu] at hdown; nomatch hdown
      | drainEvent ev rest hdown => rw [hu] at hdown; nomatch hdown
      | leave hdown => rw [hu] at hdown; nomatch hdown
      | dropReceiver hdown => rw [hu] at hdown; nomatch hdown
    | some u =>
      rw [hu] at hsound
      obtain ⟨u', hu', hlost⟩ := Lost.step hsound hu hstep
      rw [hu']
      exact hlost

/-- After a panic the invariant of the unwinding holds. -/
theorem lost_reachable {f : FailingStore} {u : Unwinding}
    (h : (failingSystem config fates).Reachable f) (hu : f.unwinding = some u) : Lost f u := by
  have hsound := sound_reachable h
  unfold Sound at hsound
  rwa [hu] at hsound

/-! ## What the callers see

  A caller waits on a one-shot channel.  It gets the value, or an error when the sender is dropped,
  and the engine turns that error into `EngineFailed`.  The two ways are not told apart by the caller,
  and `Resolves` does not tell them apart either. -/

/-- A reply without its value. -/
def Reply.verdict : Reply → Except AtomicBlobStoreError Unit
  | .operation (.load result) => result.map fun _ => ()
  | .operation (.loadStream result) => result.map fun _ => ()
  | .operation (.save result) => result
  | .operation (.saveStream result) => result
  | .operation (.clear result) => result
  | .operation (.inspect result) => result.map fun _ => ()
  | .operation (.quarantine result) => result.map fun _ => ()
  | .cleanup result => result.map fun _ => ()
  | .unit result => result

/-- What the caller who waits for the reply of an operation, a flush or a maintenance request sees:
    the value that was sent, or `EngineFailed` when the sender was dropped (`Pending::new`). -/
inductive Resolves (f : FailingStore) (o : Origin) : Except AtomicBlobStoreError Unit → Prop
  /-- The outcome of its job was delivered, -/
  | delivered (reply : Reply) (h : .delivered o reply ∈ f.engine.log) : Resolves f o reply.verdict
  /-- it was refused, -/
  | rejected (e : AtomicBlobStoreError) (h : .rejected o e ∈ f.engine.log) : Resolves f o (.error e)
  /-- or answered by the coordinator; -/
  | answered (result : Except AtomicBlobStoreError Unit) (h : .answered o result ∈ f.engine.log) :
      Resolves f o result
  /-- its reply sender was dropped by a job that panicked, -/
  | lost (h : .lost o ∈ f.engine.log) : Resolves f o (.error .engineFailed)
  /-- or by the unwinding, -/
  | disconnected (h : .disconnected o ∈ f.aftermath) : Resolves f o (.error .engineFailed)
  /-- or the drain after the panic sent an error. -/
  | failed (e : AtomicBlobStoreError) (h : .failed o e ∈ f.aftermath) : Resolves f o (.error e)

/-- After the panic no value but a failure is sent. -/
theorem Lost.sends_before {f : FailingStore} {u : Unwinding} (h : Lost f u) {entry : Observation}
    {o : Origin} (hmem : entry ∈ f.engine.log) (hsends : entry.sends? = some o) :
    o ∈ sends f.before := by
  obtain ⟨more, hlog, hkind⟩ := h.history
  rw [hlog] at hmem
  rcases List.mem_append.mp hmem with hmem | hmem
  · exact List.mem_filterMap.mpr ⟨entry, hmem, hsends⟩
  · rcases hkind entry hmem with hout | rfl
    · rw [Observation.sends_of_outside hout] at hsends
      nomatch hsends
    · nomatch hsends

/-- **Whoever was not answered before the panic sees `EngineFailed`, and nothing else.** -/
theorem Lost.resolves {f : FailingStore} {u : Unwinding} (h : Lost f u) {r : PendingEvent}
    (hr : r ∈ entered f.engine.log) (hclose : r.isClose = false)
    (hunanswered : r.origin ∉ sends f.before) {result : Except AtomicBlobStoreError Unit}
    (hresult : Resolves f r.origin result) : result = .error .engineFailed := by
  cases hresult with
  | delivered reply hmem => exact absurd (h.sends_before hmem rfl) hunanswered
  | rejected e hmem => exact absurd (h.sends_before hmem rfl) hunanswered
  | answered result hmem => exact absurd (h.sends_before hmem rfl) hunanswered
  | lost hmem => rfl
  | disconnected hmem => rfl
  | failed e hmem =>
    obtain ⟨r', hr', horigin, rfl⟩ := h.failures _ e hmem
    obtain rfl := h.eq_of_origin hr' hr horigin
    rw [failure_of_not_close hclose]

/-- **Once the drain has finished, everybody is answered.** -/
theorem Lost.answered {f : FailingStore} {u : Unwinding} (h : Lost f u) (hdone : 7 ≤ u.rank)
    {r : PendingEvent} (hr : r ∈ entered f.engine.log) (hclose : r.isClose = false)
    (hunanswered : r.origin ∉ sends f.before) : Resolves f r.origin (.error .engineFailed) := by
  have hchannel := h.channel hdone
  obtain ⟨hjobs, hrunning⟩ := h.jobs (by omega)
  rcases FailingStore.mem_whereabouts.mp (h.conserved r hr) with
    hplace | hplace | hplace | hplace | hplace | hplace
  · have hsends : r.origin ∉ sends f.engine.log := by
      intro hmem
      obtain ⟨entry, hentry, hsends⟩ := List.mem_filterMap.mp hmem
      exact hunanswered (h.sends_before hentry hsends)
    exact .lost (lost_of_no_send hplace hsends)
  · obtain ⟨entry, hentry, horigin⟩ := List.mem_map.mp hplace
    cases entry with
    | disconnected o => obtain rfl : o = r.origin := horigin; exact .disconnected hentry
    | failed o e =>
      obtain rfl : o = r.origin := horigin
      have hresolves : Resolves f r.origin (.error e) := .failed e hentry
      rw [h.resolves hr hclose hunanswered hresolves] at hresolves
      exact hresolves
  · simp [hchannel] at hplace
  · simp [hchannel, hjobs, hrunning] at hplace
  · rw [Engine.locals, h.pending (by omega), h.queues (by omega)] at hplace
    nomatch hplace
  · cases u with
    | event ev => exact absurd hdone (by simp [Unwinding.rank])
    | _ => nomatch hplace

/-! ## The guarantee

  Progress is a matter of a measure on the unwinding, the jobs and the channel; callers cannot hold it
  up, since their calls are refused once the store has failed. -/

/-- What the workers still have to do: every job counts until it is started, and until it ends. -/
def Engine.load (s : Engine) : Nat := 2 * s.pool.jobs.length + s.pool.running.length

/-- A store is nearer to the end of its unwinding: further on, or with less left for the workers, or
    with less in the channel. -/
def Nearer (f : FailingStore) (u : Unwinding) (f' : FailingStore) (u' : Unwinding) : Prop :=
  u.rank < u'.rank ∨ u.rank = u'.rank ∧ (f'.engine.load < f.engine.load ∨
    f'.engine.load = f.engine.load ∧ f'.engine.channel.length < f.engine.channel.length)

/-- What a caller may rely on after a coordinator panic.  What has been answered before the panic
    stays answered, so only the others are spoken of. -/
structure Terminal (config : StoreConfig) (fates : Nat → Fate) (f : FailingStore) (u : Unwinding) :
    Prop where
  /-- A request whose event was sent and that was not answered before the panic resolves to
      `EngineFailed` only, -/
  resolves : ∀ r ∈ entered f.engine.log, r.isClose = false → r.origin ∉ sends f.before →
    ∀ result, Resolves f r.origin result → result = .error .engineFailed
  /-- and does so by the time the drain has finished. -/
  answered : u = .returned ∨ u = .dropped → ∀ r ∈ entered f.engine.log, r.isClose = false →
    r.origin ∉ sends f.before → Resolves f r.origin (.error .engineFailed)
  /-- Until the receiver is gone, some step of the coordinator or of a worker leads nearer to the
      end, -/
  progress : u = .dropped ∨
    ∃ f' u', FailingStep config fates f f' ∧ f'.unwinding = some u' ∧ Nearer f u f' u'
  /-- and no step leads back or gives the workers more to do. -/
  steady : ∀ f' u', FailingStep config fates f f' → f'.unwinding = some u' →
    u.rank ≤ u'.rank ∧ f'.engine.load ≤ f.engine.load
  /-- Nothing is in the channel once the drain has finished, and no step sends anything after the
      lifecycle became failed. -/
  silent : u = .returned ∨ u = .dropped → f.engine.channel = []
  closed : f.engine.lifecycle = .failed → ∀ f', FailingStep config fates f f' →
    ∃ taken, f.engine.channel = taken ++ f'.engine.channel
  /-- Only what had been dispatched before the panic is executed. -/
  executed : ∀ o ∈ executed f.engine.log, o ∈ begun f.before
  /-- Failure is final, and every later call of an operation, a flush or a cleanup returns
      `EngineFailed`. -/
  final : f.engine.lifecycle = .failed → ∀ f', FailingStep config fates f f' →
    f'.engine.lifecycle = .failed
  /-- So does a call that looks at the store now, -/
  later : f.engine.lifecycle = .failed → ∀ r : PendingEvent, r.isClose = false →
    precheck config r f.engine = resolve r (.error .engineFailed) f.engine ∧
      submit r f.engine = resolve r (.error .engineFailed) f.engine
  /-- and every call that was resolved after the failure has got this answer. -/
  laterResult : ∀ front r result back, f.engine.log = front ++ .resolved r result :: back →
    .moved .failed ∈ front → r.isClose = false → result = .error .engineFailed

/-- Any job can end, if only by panicking. -/
theorem exists_jobEnd (job : WorkerJob) : ∃ ev entries, JobEnd job ev entries := by
  cases job with
  | operation keyHash op => exact ⟨_, _, .operationPanic keyHash op⟩
  | maintenance sub => exact ⟨_, _, .maintenancePanic sub⟩

/-- Each rank has its own next step, of a worker where the unwinding waits for one and of the
    coordinator otherwise. -/
theorem Lost.progress {f : FailingStore} {u : Unwinding} (h : Lost f u) (hu : f.unwinding = some u) :
    u = .dropped ∨
      ∃ f' u', FailingStep config fates f f' ∧ f'.unwinding = some u' ∧ Nearer f u f' u' := by
  cases u with
  | event ev => exact Or.inr ⟨_, _, .dropEvent ev hu, rfl, Or.inl (by simp [Unwinding.rank])⟩
  | pending => exact Or.inr ⟨_, _, .dropPending hu, rfl, Or.inl (by simp [Unwinding.rank])⟩
  | queues => exact Or.inr ⟨_, _, .dropQueues hu, rfl, Or.inl (by simp [Unwinding.rank])⟩
  | pool => exact Or.inr ⟨_, _, .dropPool hu, rfl, Or.inl (by simp [Unwinding.rank])⟩
  | joining =>
    have hthreads := h.threads (by simp [Unwinding.rank])
    cases hrunning : f.engine.pool.running with
    | nil =>
      cases hjobs : f.engine.pool.jobs with
      | nil =>
        exact Or.inr ⟨_, _, .caught hu hjobs hrunning, rfl, Or.inl (by simp [Unwinding.rank])⟩
      | cons job rest =>
        -- a thread is idle, and takes the next job
        have hthread : f.engine.pool.running.length < f.engine.pool.handles := by
          rw [hjobs, List.length_cons] at hthreads
          omega
        refine Or.inr ⟨_, _, .bystander _ _ hu (.startJob job rest hjobs hthread), hu,
          Or.inr ⟨rfl, Or.inl ?_⟩⟩
        show 2 * rest.length + (f.engine.pool.running ++ [job]).length < f.engine.load
        rw [Engine.load, hjobs, List.length_append, List.length_cons, List.length_cons,
          List.length_nil]
        omega
    | cons job back =>
      obtain ⟨ev, entries, hend⟩ := exists_jobEnd job
      refine Or.inr ⟨_, _, .bystander _ _ hu (.finishJob [] back job ev entries hrunning hend), hu,
        Or.inr ⟨rfl, Or.inl ?_⟩⟩
      show 2 * f.engine.pool.jobs.length + back.length < f.engine.load
      rw [Engine.load, hrunning, List.length_cons]
      omega
  | caught => exact Or.inr ⟨_, _, .fail hu, rfl, Or.inl (by simp [Unwinding.rank])⟩
  | draining =>
    cases hchannel : f.engine.channel with
    | nil => exact Or.inr ⟨_, _, .leave hu hchannel, rfl, Or.inl (by simp [Unwinding.rank])⟩
    | cons ev rest =>
      refine Or.inr ⟨_, _, .drainEvent ev rest hu hchannel, hu, Or.inr ⟨rfl, Or.inr ⟨rfl, ?_⟩⟩⟩
      rw [hchannel]
      exact Nat.lt_succ_self _
  | returned => exact Or.inr ⟨_, _, .dropReceiver hu, rfl, Or.inl (by simp [Unwinding.rank])⟩
  | dropped => exact Or.inl rfl

/-- Callers give the workers nothing to do, and workers only less. -/
theorem Effect.load_le (he : Effect s s') : s'.load ≤ s.load := by
  unfold Engine.load
  cases he with
  | quiet handles abandoned => exact Nat.le_refl _
  | resolve r result => exact Nat.le_refl _
  | enter r => exact Nat.le_refl _
  | startJob job rest hjobs =>
    simp only [hjobs, List.length_append, List.length_cons, List.length_nil]
    omega
  | finishJob front back job ev entries hrunning hend =>
    simp only [hrunning, List.length_append, List.length_cons]
    omega

/-- No step leads back. -/
theorem Lost.steady {f f' : FailingStore} {u u' : Unwinding} (h : Lost f u)
    (hu : f.unwinding = some u) (hstep : FailingStep config fates f f')
    (hu' : f'.unwinding = some u') : u.rank ≤ u'.rank ∧ f'.engine.load ≤ f.engine.load := by
  -- where the step starts, and where it ends
  have hmoves : ∀ v v', f.unwinding = some v → some v' = f'.unwinding → v.rank ≤ v'.rank →
      u.rank ≤ u'.rank := fun v v' hv hv' hle => by
    obtain rfl := Option.some.inj (hu.symm.trans hv)
    obtain rfl := Option.some.inj (hv'.trans hu')
    exact hle
  cases hstep with
  | step s' hup => rw [hu] at hup; nomatch hup
  | panic ev rest hup => rw [hu] at hup; nomatch hup
  | bystander s' v hdown hby =>
    have heffect := hby.effect h.unstopped fun hdropped => h.failed_iff.mpr (by
      rw [h.phase hdropped]
      decide)
    exact ⟨hmoves v v hdown hdown.symm (Nat.le_refl _), heffect.load_le⟩
  | dropEvent ev hdown => exact ⟨hmoves _ _ hdown rfl (by simp [Unwinding.rank]), Nat.le_refl _⟩
  | dropPending hdown => exact ⟨hmoves _ _ hdown rfl (by simp [Unwinding.rank]), Nat.le_refl _⟩
  | dropQueues hdown => exact ⟨hmoves _ _ hdown rfl (by simp [Unwinding.rank]), Nat.le_refl _⟩
  | dropPool hdown => exact ⟨hmoves _ _ hdown rfl (by simp [Unwinding.rank]), Nat.le_refl _⟩
  | caught hdown => exact ⟨hmoves _ _ hdown rfl (by simp [Unwinding.rank]), Nat.le_refl _⟩
  | fail hdown => exact ⟨hmoves _ _ hdown rfl (by simp [Unwinding.rank]), Nat.le_refl _⟩
  | drainEvent ev rest hdown => exact ⟨hmoves _ _ hdown hdown.symm (Nat.le_refl _), Nat.le_refl _⟩
  | leave hdown => exact ⟨hmoves _ _ hdown rfl (by simp [Unwinding.rank]), Nat.le_refl _⟩
  | dropReceiver hdown => exact ⟨hmoves _ _ hdown rfl (by simp [Unwinding.rank]), Nat.le_refl _⟩

/-- After the lifecycle became failed the channel only gets shorter, and the lifecycle stays. -/
theorem Lost.closed {f f' : FailingStore} {u : Unwinding} (h : Lost f u) (hu : f.unwinding = some u)
    (hfailed : f.engine.lifecycle = .failed) (hstep : FailingStep config fates f f') :
    (∃ taken, f.engine.channel = taken ++ f'.engine.channel) ∧ f'.engine.lifecycle = .failed := by
  have hrank := h.failed_iff.mp hfailed
  have hat : ∀ v, f.unwinding = some v → u = v := fun v hv => Option.some.inj (hu.symm.trans hv)
  have hearly : ∀ v, f.unwinding = some v → ¬v.rank < 6 := fun v hv => by
    rw [← hat v hv]
    omega
  cases hstep with
  | step s' hup => rw [hu] at hup; nomatch hup
  | panic ev rest hup => rw [hu] at hup; nomatch hup
  | bystander s' v hdown hby =>
    have heffect := hby.effect h.unstopped fun _ => hfailed
    refine ⟨⟨[], ?_⟩, heffect.untouched.lifecycle.trans hfailed⟩
    rw [List.nil_append]
    exact (heffect.silent hfailed (h.jobs (by omega)).2).symm
  | dropEvent ev hdown => exact absurd (by simp [Unwinding.rank]) (hearly _ hdown)
  | dropPending hdown => exact absurd (by simp [Unwinding.rank]) (hearly _ hdown)
  | dropQueues hdown => exact absurd (by simp [Unwinding.rank]) (hearly _ hdown)
  | dropPool hdown => exact absurd (by simp [Unwinding.rank]) (hearly _ hdown)
  | caught hdown => exact absurd (by simp [Unwinding.rank]) (hearly _ hdown)
  | fail hdown => exact absurd (by simp [Unwinding.rank]) (hearly _ hdown)
  | drainEvent ev rest hdown hchannel => exact ⟨⟨[ev], hchannel⟩, hfailed⟩
  | leave hdown hchannel => exact ⟨⟨[], rfl⟩, hfailed⟩
  | dropReceiver hdown => exact ⟨⟨f.engine.channel, (List.append_nil _).symm⟩, hfailed⟩

/-- **Coordinator loss is terminal and answers everyone**, whatever event the coordinator panics over,
    and however callers and workers interleave with the unwinding.  It holds in every state after the
    panic.  That somebody is answered is said of the end of the drain, and that the drain comes to its
    end of every state before: some step leads nearer, and none leads back. -/
theorem coordinator_loss_terminal {f : FailingStore} {u : Unwinding}
    (h : (failingSystem config fates).Reachable f) (hu : f.unwinding = some u) :
    Terminal config fates f u := by
  have hlost := lost_reachable h hu
  have hdone : u = .returned ∨ u = .dropped → 7 ≤ u.rank := by
    rintro (rfl | rfl) <;> decide
  obtain ⟨more, hlog, hkind⟩ := hlost.history
  refine ⟨fun r hr hclose hun result hresult => hlost.resolves hr hclose hun hresult,
    fun hend r hr hclose hun => hlost.answered (hdone hend) hr hclose hun, hlost.progress hu,
    fun f' u' hstep hu' => hlost.steady hu hstep hu',
    fun hend => hlost.channel (hdone hend), fun hfailed f' hstep => (hlost.closed hu hfailed hstep).1,
    fun o ho => ?_, fun hfailed f' hstep => (hlost.closed hu hfailed hstep).2,
    fun hfailed r _ => ⟨precheck_failed hfailed r, submit_failed hfailed r⟩,
    fun front r result back hfront hmem hclose => ?_⟩
  · have hbegun : o ∈ begun f.engine.log :=
      hlost.started.subset (List.mem_append_left _ ho)
    rw [hlog, begun_append] at hbegun
    refine (List.mem_append.mp hbegun).resolve_right fun hmem => ?_
    obtain ⟨entry, hentry, heq⟩ := List.mem_filterMap.mp hmem
    rcases hkind entry hentry with hout | rfl
    · rw [Observation.begun_of_outside hout] at heq
      nomatch heq
    · nomatch heq
  · have hlate : Late front (.resolved r result) := hlost.late front _ back hfront
    rw [hlate (Or.inr hmem), failure_of_not_close hclose]

end Loss

/-- The coordinator panics over a save; the flush behind it is failed by the drain. -/
theorem coordinator_loss_terminal_sample : ∃ f,
    f.aftermath = [.disconnected ⟨some sampleKey, 0⟩, .failed ⟨none, 1⟩ .engineFailed] ∧
      Terminal sampleConfig sampleFates f .dropped := by
  have hinit : (failingSystem sampleConfig sampleFates).Reachable (.initial sampleConfig) := .init rfl
  have hcalls := (hinit.step (.step _ rfl
    (.submit (.submission ⟨sampleKey, sampleSave⟩) (by decide) rfl rfl (by decide)))).step
    (.step _ rfl (.submit (.flush 1) (by decide) rfl rfl (by decide)))
  have hpanic := hcalls.step (.panic (.submission ⟨sampleKey, sampleSave⟩) [.flush 1] rfl rfl rfl)
  have hunwound := ((((hpanic.step (.dropEvent _ rfl)).step (.dropPending rfl)).step
    (.dropQueues rfl)).step (.dropPool rfl)).step (.caught rfl rfl rfl)
  have hdrained := ((hunwound.step (.fail rfl)).step (.drainEvent (.flush 1) [] rfl rfl)).step
    (.leave rfl rfl)
  exact ⟨_, rfl, coordinator_loss_terminal (hdrained.step (.dropReceiver rfl)) rfl⟩

end AtomicBlobStore
