/-
  What the coordinator guarantees, in every state that any run can reach.

  Each section turns the invariant into the words of a caller: where a request is and how often it
  is answered, why no work is left behind, what a key may rely on, what a barrier separates, and
  what a close cuts.  The runs are arbitrary: callers, waiters, worker threads, failing spawns and
  dispatches, panicking jobs and the choice of the next idle key are all steps or fates of
  `engineSystem`.

  What a caller can see of the coordinator is its replies, and what a maintainer can see is its state.
  The sections speak of both, and connect them by the history: a reply is an entry, and an entry has a
  place in the order of all that happened.  No statement is about fairness.  Where something is to
  happen, it is said who can take the step; whether the operating system lets that thread run is not
  for the store to decide.
-/
import AtomicBlobStore.Runs
import Mathlib.Data.Multiset.Count

namespace AtomicBlobStore

section Guarantees

variable {config : StoreConfig} {fates : Nat → Fate} {s : Engine}

/-! ## One place, one answer -/

/-- Where a request can be. -/
inductive Place
  /-- In the event channel. -/
  | channel
  /-- Behind a barrier. -/
  | pending
  /-- Queued for its key. -/
  | queue
  /-- In a job. -/
  | job
  /-- On its way back. -/
  | completion
  /-- Answered, or without anybody to answer it. -/
  | resolved
  deriving DecidableEq, Repr

/-- How often a request is in a place. -/
def Engine.occupancy (s : Engine) (o : Origin) : Place → Nat
  | .channel => (s.requests.map PendingEvent.origin).count o
  | .pending => (s.pending.map PendingEvent.origin).count o
  | .queue => s.queued o
  | .job => (s.pool.jobs.map WorkerJob.origin).count o +
      (s.pool.running.map WorkerJob.origin).count o
  | .completion => s.outcomes.count o
  | .resolved => (resolutions s.log).count o

/-- Whose reply channel an entry sends a value on. -/
@[simp] def Observation.sends? : Observation → Option Origin
  | .delivered o _ => some o
  | .rejected o _ => some o
  | .answered o _ => some o
  | _ => none

/-- Every value sent on a reply channel, by its channel. -/
abbrev sends (log : List Observation) : List Origin := log.filterMap Observation.sends?

/-- A send resolves the request. -/
theorem Observation.resolves_of_sends (entry : Observation) (o : Origin)
    (h : entry.sends? = some o) : entry.resolves? = some o := by
  cases entry <;> first | exact h | nomatch h

/-- So does the end of its job. -/
theorem Observation.resolves_of_ended (entry : Observation) (o : Origin)
    (h : entry.ended? = some o) : entry.resolves? = some o := by
  cases entry <;> first | exact h | nomatch h

/-- Between two steps no outcome is held by the coordinator. -/
theorem occupancy_sum (h : Inv config s) (hs : Settled config s) (o : Origin) :
    s.occupancy o .channel + s.occupancy o .pending + s.occupancy o .queue + s.occupancy o .job +
      s.occupancy o .completion + s.occupancy o .resolved =
        ((entered s.log).map PendingEvent.origin).count o := by
  rw [← h.conserved o]
  simp only [Engine.occupancy, Engine.places, hs.delivered, List.count_append, Option.toList_none,
    List.map_nil, List.count_nil]
  omega

theorem entered_count (h : Inv config s) {r : PendingEvent} (hr : r ∈ entered s.log) :
    ((entered s.log).map PendingEvent.origin).count r.origin = 1 :=
  List.count_eq_one_of_mem (entered_origins_nodup h) (List.mem_map_of_mem hr)

/-- A request that entered is in one place, once. -/
theorem place_unique (h : Inv config s) (hs : Settled config s) {r : PendingEvent}
    (hr : r ∈ entered s.log) : ∃ place, s.occupancy r.origin place = 1 ∧
      ∀ other, other ≠ place → s.occupancy r.origin other = 0 := by
  have hsum := occupancy_sum h hs r.origin
  rw [entered_count h hr] at hsum
  have hplace : ∃ place, 0 < s.occupancy r.origin place := by
    by_contra hnone
    have hzero : ∀ place, s.occupancy r.origin place = 0 := fun place =>
      Nat.eq_zero_of_not_pos fun hpos => hnone ⟨place, hpos⟩
    simp only [hzero] at hsum
    omega
  obtain ⟨place, hpos⟩ := hplace
  refine ⟨place, ?_, fun other hother => ?_⟩
  · cases place <;> omega
  · cases place <;> cases other <;> first | exact absurd rfl hother | omega

/-- Every resolution is one of a request that entered, and of no other. -/
theorem resolutions_le (h : Inv config s) :
    (resolutions s.log : Multiset Origin) ≤ ((entered s.log).map PendingEvent.origin : Multiset Origin) := by
  rw [Multiset.le_iff_count]
  intro o
  rw [Multiset.coe_count, Multiset.coe_count, ← h.conserved o]
  simp only [Engine.places, List.count_append]
  omega

/-- **A reply channel carries at most one value.** -/
theorem sends_le_one (h : Inv config s) (sender : Ticket) :
    ((sends s.log).map Origin.sender).count sender ≤ 1 := by
  have hsends : (sends s.log : Multiset Origin) ≤ (resolutions s.log : Multiset Origin) :=
    Multiset.coe_le.mpr (filterMap_sublist Observation.resolves_of_sends s.log).subperm
  have hsenders := Multiset.map_le_map (hsends.trans (resolutions_le h)) (f := Origin.sender)
  have hcount := Multiset.count_le_of_le sender hsenders
  rw [Multiset.map_coe, Multiset.map_coe, Multiset.coe_count, Multiset.coe_count, List.map_map]
    at hcount
  have hnodup : ((entered s.log).map (Origin.sender ∘ PendingEvent.origin)).Nodup :=
    h.fresh.imp fun hlt => Nat.ne_of_lt hlt
  exact Nat.le_trans hcount (List.nodup_iff_count_le_one.mp hnodup sender)

/-- One entry resolves by ending a job or by an error of the coordinator, not both. -/
theorem ended_rejected_le (log : List Observation) (o : Origin) (e : AtomicBlobStoreError)
    (hmem : .rejected o e ∈ log) : (ended log).count o + 1 ≤ (resolutions log).count o := by
  obtain ⟨before, after, rfl⟩ := List.append_of_mem hmem
  have hbefore := (filterMap_sublist Observation.resolves_of_ended before).count_le o
  have hafter := (filterMap_sublist Observation.resolves_of_ended after).count_le o
  simp only [ended, resolutions, List.filterMap_append, List.filterMap_cons, Observation.ended?,
    Observation.resolves?, List.count_append, List.count_cons_self] at hbefore hafter ⊢
  omega

/-- **What the coordinator answered with an error of its own was not executed.** -/
theorem not_executed_of_rejected (h : Inv config s) (hs : Settled config s) {r : PendingEvent}
    (hr : r ∈ entered s.log) {e : AtomicBlobStoreError} (hmem : .rejected r.origin e ∈ s.log) :
    r.origin ∉ executed s.log := by
  have hsum := occupancy_sum h hs r.origin
  rw [entered_count h hr] at hsum
  have hle := ended_rejected_le s.log r.origin e hmem
  have hjobs := h.jobs r.origin
  simp only [hs.delivered, Option.toList_none, List.map_nil, List.count_nil] at hjobs
  simp only [Engine.occupancy] at hsum
  rw [← List.count_eq_zero]
  omega

/-- A resolution without a value is the end of a job without an outcome. -/
theorem lost_of_no_send {log : List Observation} {o : Origin} (hresolved : o ∈ resolutions log)
    (hsend : o ∉ sends log) : .lost o ∈ log := by
  obtain ⟨entry, hmem, hentry⟩ := List.mem_filterMap.mp hresolved
  cases hvalue : entry.sends? with
  | some o' =>
    have := entry.resolves_of_sends o' hvalue
    obtain rfl : o' = o := Option.some.inj (this.symm.trans hentry)
    exact absurd (List.mem_filterMap.mpr ⟨entry, hmem, hvalue⟩) hsend
  | none =>
    cases entry with
    | lost o' =>
      obtain rfl : o' = o := Option.some.inj hentry
      exact hmem
    | delivered o' reply => nomatch hvalue
    | rejected o' e => nomatch hvalue
    | answered o' result => nomatch hvalue
    | _ => nomatch hentry

theorem executed_of_lost (h : Inv config s) {o : Origin} (hmem : .lost o ∈ s.log) :
    o ∈ executed s.log := by
  have hended : o ∈ ended s.log := List.mem_filterMap.mpr ⟨_, hmem, rfl⟩
  have hpos := List.count_pos_iff.mpr hended
  have hjobs := h.jobs o
  rw [← List.count_pos_iff]
  omega

/-- The errors of the coordinator itself. -/
theorem rejected_kind (h : Inv config s) {o : Origin} {e : AtomicBlobStoreError}
    (hmem : .rejected o e ∈ s.log) : e = .workerUnavailable ∨ e = .storeClosed := by
  rcases h.rejections o e hmem with ⟨rfl, -⟩ | ⟨rfl, -⟩
  · exact Or.inl rfl
  · exact Or.inr rfl

/-- What a request may rely on once its event entered the channel.  The four fields are about its
    place, its reply, and the two ways of getting none of the job's own. -/
structure Conserved (s : Engine) (r : PendingEvent) : Prop where
  /-- It is in exactly one place. -/
  place : ∃ place, s.occupancy r.origin place = 1 ∧
    ∀ other, other ≠ place → s.occupancy r.origin other = 0
  /-- Its reply channel is used at most once. -/
  reply : ((sends s.log).map Origin.sender).count r.origin.sender ≤ 1
  /-- When the coordinator answers it with an error of its own, it was never executed. -/
  rejected : ∀ e, .rejected r.origin e ∈ s.log →
    (e = .workerUnavailable ∨ e = .storeClosed) ∧ r.origin ∉ executed s.log
  /-- When it is resolved without a value, its job was started and ended without an outcome. -/
  lost : r.origin ∈ resolutions s.log → r.origin ∉ sends s.log →
    .lost r.origin ∈ s.log ∧ r.origin ∈ executed s.log

theorem conserved (h : Inv config s) (hs : Settled config s) {r : PendingEvent}
    (hr : r ∈ entered s.log) : Conserved s r := by
  refine ⟨place_unique h hs hr, sends_le_one h _, fun e hmem => ?_, fun hresolved hsend => ?_⟩
  · exact ⟨rejected_kind h hmem, not_executed_of_rejected h hs hr hmem⟩
  · have hlost := lost_of_no_send hresolved hsend
    exact ⟨hlost, executed_of_lost h hlost⟩

/-- **Conservation and exactly-once reply**, for every request in every reachable state.  It holds of
    each request that ever entered, whatever became of its caller, and in every state of every run:
    while it is on its way, while it is executed, and after it was answered. -/
theorem request_conserved (h : (engineSystem config fates).Reachable s) :
    ∀ r ∈ entered s.log, Conserved s r := by
  obtain ⟨hinv, hs⟩ := inv_reachable h
  exact fun r hr => conserved hinv hs hr

/-! ## No stranded work -/

/-- The jobs whose end has not been handled: waiting for a worker, running, or with their completion
    in the channel. -/
def Engine.outstandingJobs (s : Engine) : Nat :=
  s.pool.jobs.length + s.pool.running.length + s.channel.countP fun ev => ev.request?.isNone

/-- The coordinator or a worker can do something. -/
def Engine.CanAdvance (s : Engine) : Prop :=
  s.phase = .running ∧ s.channel ≠ [] ∨
  s.pool.jobs ≠ [] ∧ s.pool.running.length < s.pool.handles ∨
  s.pool.running ≠ [] ∨
  s.phase = .joining ∧ s.pool.jobs = [] ∧ s.pool.running = [] ∨
  ∃ ok, s.phase = .draining ok ∧ s.channel ≠ []

/-- Whatever is counted in a place comes from a job that is outstanding. -/
theorem outstandingJobs_pos_of_key (s : Engine) {k : KeyHash} (hk : k ∈ s.outstanding) :
    0 < s.outstandingJobs := by
  unfold Engine.outstandingJobs
  rcases List.mem_append.mp hk with hk | hk
  · rcases List.mem_append.mp hk with hk | hk
    · obtain ⟨job, hjob, -⟩ := List.mem_filterMap.mp hk
      have := List.length_pos_of_mem hjob
      omega
    · obtain ⟨job, hjob, -⟩ := List.mem_filterMap.mp hk
      have := List.length_pos_of_mem hjob
      omega
  · obtain ⟨ev, hev, hkey⟩ := List.mem_filterMap.mp hk
    have hpos : 0 < s.channel.countP fun ev => ev.request?.isNone := by
      refine List.countP_pos_iff.mpr ⟨ev, hev, ?_⟩
      cases ev <;> first | rfl | nomatch hkey
    omega

theorem outstandingJobs_pos_of_maintenance (s : Engine) (h : 0 < s.maintenanceOutstanding) :
    0 < s.outstandingJobs := by
  unfold Engine.maintenanceOutstanding at h
  unfold Engine.outstandingJobs
  have hjobs := s.pool.jobs.countP_le_length (p := WorkerJob.isMaintenance)
  have hrunning := s.pool.running.countP_le_length (p := WorkerJob.isMaintenance)
  have hchannel : s.channel.countP CoordinatorEvent.isMaintenanceCompletion ≤
      s.channel.countP fun ev => ev.request?.isNone := by
    refine List.countP_mono_left fun ev _ hev => ?_
    cases ev <;> first | rfl | nomatch hev
  omega

/-- An active key or an active maintenance has its job outstanding. -/
theorem outstandingJobs_pos (h : Inv config s)
    (hwork : s.maintenanceActive = true ∨ s.active.Nonempty) : 0 < s.outstandingJobs := by
  rcases hwork with hactive | ⟨k, hk⟩
  · refine outstandingJobs_pos_of_maintenance s ?_
    rw [h.maintenance, hactive]
    exact Nat.one_pos
  · refine outstandingJobs_pos_of_key s (k := k) (List.count_pos_iff.mp ?_)
    rw [h.active, if_pos hk]
    exact Nat.one_pos

/-- **Whatever waits, waits for a job.** -/
theorem outstanding_of_waiting (h : Inv config s) (hs : Settled config s)
    (hphase : s.phase = .running)
    (hwaits : (∃ k, s.queues.queue k ≠ []) ∨ s.pending ≠ [] ∨ s.maintenanceActive = true) :
    0 < s.outstandingJobs := by
  refine outstandingJobs_pos h ?_
  rcases hwaits with ⟨k, hk⟩ | hpending | hactive
  · refine Or.inr (hs.saturated.active_of_busy ?_)
    by_contra hidle
    exact hk ((Engine.busy_eq_false.mp (by simpa using hidle)).2 k)
  · exact hs.waits hphase hpending
  · exact Or.inl hactive

/-- **Without an outstanding job everything is empty.** -/
theorem quiescent_of_no_jobs (h : Inv config s) (hs : Settled config s) (hphase : s.phase = .running)
    (hjobs : s.outstandingJobs = 0) : (∀ k, s.queues.queue k = []) ∧ s.pending = [] ∧ s.active = ∅ ∧
      s.maintenanceActive = false := by
  have hnone : ¬(0 < s.outstandingJobs) := by omega
  refine ⟨fun k => ?_, ?_, ?_, ?_⟩
  · by_contra hk
    exact hnone (outstanding_of_waiting h hs hphase (Or.inl ⟨k, hk⟩))
  · by_contra hpending
    exact hnone (outstanding_of_waiting h hs hphase (Or.inr (Or.inl hpending)))
  · by_contra hactive
    exact hnone (outstandingJobs_pos h (Or.inr (Finset.nonempty_iff_ne_empty.mpr hactive)))
  · by_contra hactive
    exact hnone (outstandingJobs_pos h (Or.inl (by simpa using hactive)))

/-- A running store with an outstanding job can do something. -/
theorem canAdvance_of_outstanding (h : Inv config s) (hphase : s.phase = .running)
    (hpos : 0 < s.outstandingJobs) : s.CanAdvance := by
  have hthreads := h.threads
  by_cases hrunning : s.pool.running = []
  · by_cases hjobs : s.pool.jobs = []
    · refine Or.inl ⟨hphase, fun hchannel => ?_⟩
      simp [Engine.outstandingJobs, hrunning, hjobs, hchannel] at hpos
    · have := List.length_pos_iff.mpr hjobs
      exact Or.inr (Or.inl ⟨hjobs, by omega⟩)
  · exact Or.inr (Or.inr (Or.inl hrunning))

/-- A request that is in the channel or pending is there because somebody will come for it. -/
theorem canAdvance_of_waiting (h : Inv config s) (hs : Settled config s)
    (hwaits : s.channel ≠ [] ∨ s.pending ≠ []) : s.CanAdvance := by
  cases hphase : s.phase with
  | running =>
    rcases hwaits with hchannel | hpending
    · exact Or.inl ⟨hphase, hchannel⟩
    · exact canAdvance_of_outstanding h hphase
        (outstanding_of_waiting h hs hphase (Or.inr (Or.inl hpending)))
  | joining =>
    obtain ⟨hidle, hfree, -⟩ := h.idle (by simp [hphase])
    obtain ⟨hjobs, hrunning, -⟩ := quiet_of_idle h hidle hfree
    exact Or.inr (Or.inr (Or.inr (Or.inl ⟨hphase, hjobs, hrunning⟩)))
  | draining ok =>
    refine Or.inr (Or.inr (Or.inr (Or.inr ⟨ok, hphase, hwaits.resolve_right ?_⟩)))
    exact fun hpending => hpending (h.draining ok hphase).2.2
  | returned =>
    obtain ⟨-, hchannel, hpending⟩ := h.gone (Or.inl hphase)
    exact absurd hwaits (by simp [hchannel, hpending])
  | dropped =>
    obtain ⟨-, hchannel, hpending⟩ := h.gone (Or.inr hphase)
    exact absurd hwaits (by simp [hchannel, hpending])

/-- **No accepted request waits for an event that will never come.** -/
theorem canAdvance_of_unresolved (h : Inv config s) (hs : Settled config s) {r : PendingEvent}
    (hr : r ∈ entered s.log) (hunresolved : r.origin ∉ resolutions s.log) : s.CanAdvance := by
  obtain ⟨place, hplace, -⟩ := place_unique h hs hr
  have hthreads := h.threads
  cases place with
  | channel =>
    refine canAdvance_of_waiting h hs (Or.inl fun hchannel => ?_)
    simp [Engine.occupancy, Engine.requests, hchannel] at hplace
  | pending =>
    refine canAdvance_of_waiting h hs (Or.inr fun hpending => ?_)
    simp [Engine.occupancy, hpending] at hplace
  | queue =>
    have hbusy : s.busy = true := by
      by_contra hidle
      have hzero := queuedIn_idle r.origin (Engine.busy_eq_false.mp (by simpa using hidle)).2
      simp [Engine.occupancy, Engine.queued, hzero] at hplace
    have hphase : s.phase = .running := by
      by_contra hphase
      rw [(h.idle hphase).1] at hbusy
      nomatch hbusy
    exact canAdvance_of_outstanding h hphase
      (outstandingJobs_pos h (Or.inr (hs.saturated.active_of_busy hbusy)))
  | job =>
    by_cases hrunning : s.pool.running = []
    · have hjobs : s.pool.jobs ≠ [] := by
        intro hjobs
        simp [Engine.occupancy, hjobs, hrunning] at hplace
      have := List.length_pos_iff.mpr hjobs
      exact Or.inr (Or.inl ⟨hjobs, by omega⟩)
    · exact Or.inr (Or.inr (Or.inl hrunning))
  | completion =>
    refine canAdvance_of_waiting h hs (Or.inl fun hchannel => ?_)
    simp [Engine.occupancy, Engine.outcomes, hchannel] at hplace
  | resolved =>
    have hzero := List.count_eq_zero.mpr hunresolved
    simp only [Engine.occupancy] at hplace
    omega

/-- Nothing is left behind.  Progress is possible and not promised: it is a matter of the scheduler of
    the operating system. -/
structure Unstranded (s : Engine) : Prop where
  /-- Between two events, whatever waits has a job outstanding. -/
  waits : s.phase = .running →
    (∃ k, s.queues.queue k ≠ []) ∨ s.pending ≠ [] ∨ s.maintenanceActive = true →
    0 < s.outstandingJobs
  /-- Without an outstanding job, and hence with nothing in the channel but requests, everything is
      empty. -/
  quiescent : s.phase = .running → s.outstandingJobs = 0 →
    (∀ k, s.queues.queue k = []) ∧ s.pending = [] ∧ s.active = ∅ ∧ s.maintenanceActive = false
  /-- As long as an accepted request is unresolved, the coordinator or a worker can go on. -/
  progress : ∀ r ∈ entered s.log, r.origin ∉ resolutions s.log → s.CanAdvance

/-- **No stranded work**, in every reachable state.  There is no step in the engine that waits for
    something which only a later call could bring: whatever waits in the coordinator waits for a job,
    and a job is with a worker. -/
theorem no_stranded_work (h : (engineSystem config fates).Reachable s) : Unstranded s := by
  obtain ⟨hinv, hs⟩ := inv_reachable h
  exact ⟨outstanding_of_waiting hinv hs, quiescent_of_no_jobs hinv hs,
    fun r hr hunresolved => canAdvance_of_unresolved hinv hs hr hunresolved⟩

/-! ## Keys -/

/-- A prefix of the requests that entered: those that were released, up to the first close. -/
theorem prefix_released (h : Inv config s) : released s.log <+: entered s.log := by
  have hreleased : released s.log <+: beforeClose (received s.log) := by
    rw [h.accepted]
    exact List.prefix_append _ _
  have hreceived : received s.log <+: entered s.log := by
    rw [h.order]
    exact List.prefix_append _ _
  exact hreleased.trans ((List.takeWhile_prefix _).trans hreceived)

/-- **The operations of a key begin in the order in which they entered.** -/
theorem prefix_begun (h : Inv config s) (k : KeyHash) :
    (begun s.log).filter (fun o => o.key = some k) <+:
      (entered s.log).filterMap (PendingEvent.on? k) := by
  have hreleased : (begun s.log).filter (fun o => o.key = some k) <+:
      (released s.log).filterMap (PendingEvent.on? k) := by
    rw [h.perKey k]
    exact List.prefix_append _ _
  exact hreleased.trans ((prefix_released h).filterMap _)

/-- What a key may rely on. -/
structure KeyDiscipline (config : StoreConfig) (s : Engine) : Prop where
  /-- At most one job of the key is outstanding, and the key is active exactly while one is. -/
  exclusive : ∀ k, s.outstanding.count k ≤ 1 ∧ (k ∈ s.active ↔ k ∈ s.outstanding)
  bounded : s.active.card ≤ config.maxConcurrentOperations
  /-- The operations of the key begin in the order in which their events entered. -/
  fifo : ∀ k, (begun s.log).filter (fun o => o.key = some k) <+:
    (entered s.log).filterMap (PendingEvent.on? k)
  /-- Those that reach a worker are executed in that order. -/
  executes : ∀ k, ((executed s.log).filter fun o => o.key = some k).Sublist
    ((begun s.log).filter fun o => o.key = some k)

/-- **Per-key exclusion, FIFO and the concurrency bound**, in every reachable state.  It holds across
    both ways into a queue, directly and by way of the pending list, and whichever idle key the hash
    map yields first. -/
theorem key_discipline (h : (engineSystem config fates).Reachable s) : KeyDiscipline config s := by
  obtain ⟨hinv, -⟩ := inv_reachable h
  refine ⟨fun k => ?_, hinv.bounded, prefix_begun hinv, fun k => ?_⟩
  · have hcount := hinv.active k
    by_cases hk : k ∈ s.active
    · rw [if_pos hk] at hcount
      exact ⟨by omega, fun _ => List.count_pos_iff.mp (by omega), fun _ => hk⟩
    · rw [if_neg hk] at hcount
      exact ⟨by omega, fun hk' => absurd hk' hk, fun hout => absurd hout (List.count_eq_zero.mp hcount)⟩
  · exact ((List.sublist_append_left _ _).trans hinv.started).filter _

/-! ## Barriers -/

/-- What a worker started had begun. -/
theorem executed_begun {log : List Observation} (h : Justified Lawful log) {o : Origin}
    (ho : o ∈ executed log) : o ∈ begun log := by
  obtain ⟨entry, hmem, hentry⟩ := List.mem_filterMap.mp ho
  cases entry with
  | executed o' =>
    obtain rfl : o' = o := Option.some.inj hentry
    obtain ⟨before, after, rfl⟩ := List.append_of_mem hmem
    rw [begun_append]
    exact List.mem_append_left _ (h before _ after rfl)
  | _ => nomatch hentry

/-- A barrier cuts the history of what entered into what is resolved and what has not begun, at the
    point where it takes effect. -/
theorem barrier_cuts (h : Inv config s) {before after : List Observation} {entry : Observation}
    (hlog : s.log = before ++ entry :: after) {o : Origin} (heffect : TakesEffect before o)
    {ahead behind : List PendingEvent} {r : PendingEvent}
    (hentered : entered s.log = ahead ++ r :: behind) (horigin : r.origin = o) :
    (∀ r' ∈ ahead, r'.origin ∈ resolutions before) ∧
      ∀ r' ∈ behind, r'.origin ∉ begun before ∧ r'.origin ∉ executed before := by
  obtain ⟨ahead', r', behind', hsplit, horigin', hresolved, hbegun⟩ := heffect
  -- the barrier is the same, so what is ahead of it is the same
  have hwhole : entered s.log = ahead' ++ r' :: (behind' ++ entered (entry :: after)) := by
    rw [hlog, entered_append, hsplit, List.append_assoc, List.cons_append]
  have hnodup := entered_nodup h
  have hr : r ∈ entered s.log := by simp [hentered]
  have hr' : r' ∈ entered s.log := by simp [hwhole]
  obtain rfl := eq_of_origin h hr hr' (horigin.trans horigin'.symm)
  rw [hentered] at hnodup
  obtain ⟨-, htail, hdisjoint⟩ := List.nodup_append.mp hnodup
  obtain ⟨rfl, -, -⟩ : ahead = ahead' ∧ r = r ∧ behind = behind' ++ entered (entry :: after) := by
    refine (List.append_cons_inj_of_notMem ?_ ?_).mp (hentered.symm.trans hwhole)
    · exact fun hmem => hdisjoint r hmem r List.mem_cons_self rfl
    · exact (List.nodup_cons.mp htail).1
  have hwaiting : ∀ r' ∈ behind, r'.origin ∉ begun before := by
    intro r' hr' hmem
    obtain ⟨r'', hr'', heq⟩ := List.mem_map.mp (hbegun _ hmem)
    have hmem' : r' ∈ entered s.log := by simp [hentered, hr']
    have hmem'' : r'' ∈ entered s.log := by simp [hentered, hr'']
    obtain rfl := eq_of_origin h hmem'' hmem' heq
    exact hdisjoint r'' hr'' r'' (List.mem_cons_of_mem _ hr') rfl
  have hlawful : Justified Lawful before := by
    have hall := h.lawful
    rw [hlog] at hall
    exact hall.of_append
  exact ⟨hresolved, fun r' hr' => ⟨hwaiting r' hr', fun hmem =>
    hwaiting r' hr' (executed_begun hlawful hmem)⟩⟩

/-- The entries by which a barrier takes effect: the answer to a flush, the start of a maintenance. -/
def Observation.TakesEffectOf (r : PendingEvent) : Observation → Prop
  | .answered o _ => r.isBarrier = true ∧ o = r.origin
  | .begun o => r.isBarrier = true ∧ o = r.origin
  | _ => False

/-- A barrier has no key. -/
theorem PendingEvent.key_of_barrier {r : PendingEvent} (h : r.isBarrier = true) :
    r.origin.key = none := by
  cases r <;> first | rfl | nomatch h

theorem PendingEvent.not_close_of_barrier {r : PendingEvent} (h : r.isBarrier = true) :
    r.isClose = false := by
  cases r <;> first | rfl | nomatch h

/-- Such an entry is only written when the barrier may take effect. -/
theorem takesEffect_of_entry (h : Inv config s) {before after : List Observation}
    {entry : Observation} (hlog : s.log = before ++ entry :: after) {r : PendingEvent}
    (hr : r ∈ entered s.log) (hentry : entry.TakesEffectOf r) : TakesEffect before r.origin := by
  have hlawful := h.lawful before entry after hlog
  cases entry with
  | answered o result =>
    obtain ⟨hbarrier, rfl⟩ := hentry
    obtain ⟨r', hr', horigin, heffect⟩ := hlawful
    have hr'' : r' ∈ entered s.log := by
      rw [hlog, entered_append]
      exact List.mem_append_left _ hr'
    obtain rfl := eq_of_origin h hr'' hr horigin
    rwa [if_neg (by simp [PendingEvent.not_close_of_barrier hbarrier])] at heffect
  | begun o =>
    obtain ⟨hbarrier, rfl⟩ := hentry
    have heffect : if r.origin.key = none then TakesEffect before r.origin else _ := hlawful
    rwa [if_pos (PendingEvent.key_of_barrier hbarrier)] at heffect
  | _ => exact hentry.elim

/-- While a maintenance job is outstanding, nothing else is. -/
theorem maintenance_alone (h : Inv config s) (hpos : 0 < s.maintenanceOutstanding) :
    s.active = ∅ ∧ (∀ k, s.queues.queue k = []) ∧ s.outstanding = [] := by
  have hactive : s.maintenanceActive = true := by
    rw [h.maintenance] at hpos
    cases hflag : s.maintenanceActive with
    | true => rfl
    | false =>
      rw [hflag] at hpos
      exact absurd hpos (Nat.lt_irrefl 0)
  obtain ⟨hnone, hqueues⟩ := Engine.busy_eq_false.mp (h.exclusive hactive)
  refine ⟨hnone, hqueues, List.eq_nil_iff_forall_not_mem.mpr fun k hk => ?_⟩
  have hcount := List.count_pos_iff.mpr hk
  rw [h.active, hnone] at hcount
  simp at hcount

/-- What a barrier separates.  A barrier is a flush or a maintenance request. -/
structure BarrierOrder (s : Engine) : Prop where
  /-- When a flush is answered or a maintenance job begins, everything that entered before it is
      resolved, and nothing that entered after it has begun. -/
  separates : ∀ before entry after, s.log = before ++ entry :: after →
    ∀ ahead r behind, entered s.log = ahead ++ r :: behind → entry.TakesEffectOf r →
      (∀ r' ∈ ahead, r'.origin ∈ resolutions before) ∧
        ∀ r' ∈ behind, r'.origin ∉ begun before ∧ r'.origin ∉ executed before
  /-- At most one maintenance job is outstanding, and it is alone. -/
  single : s.maintenanceOutstanding ≤ 1
  alone : 0 < s.maintenanceOutstanding →
    s.active = ∅ ∧ (∀ k, s.queues.queue k = []) ∧ s.outstanding = []
  /-- An operation begins only when every maintenance job begun before it is resolved. -/
  afterMaintenance : ∀ before o after, s.log = before ++ .begun o :: after → o.key ≠ none →
    ∀ m ∈ begun before, m.key = none → m ∈ resolutions before
  /-- Barriers take effect in the order in which they entered. -/
  inOrder : (released s.log).filter PendingEvent.isBarrier <+:
    (entered s.log).filter PendingEvent.isBarrier

/-- **Barrier ordering**, in every reachable state.  Whether anybody still waits plays no part.  The
    order is that in which events entered the channel, so it is the order of the calls as far as one
    call came after another. -/
theorem barriers_ordered (h : (engineSystem config fates).Reachable s) : BarrierOrder s := by
  obtain ⟨hinv, -⟩ := inv_reachable h
  refine ⟨fun before entry after hlog ahead r behind hentered hentry => ?_, ?_,
    maintenance_alone hinv, fun before o after hlog hkey => ?_, (prefix_released hinv).filter _⟩
  · have hr : r ∈ entered s.log := by simp [hentered]
    exact barrier_cuts hinv hlog (takesEffect_of_entry hinv hlog hr hentry) hentered rfl
  · rw [hinv.maintenance]
    exact Bool.toNat_le _
  · have hlawful : if o.key = none then _ else _ := hinv.lawful before _ after hlog
    rwa [if_neg hkey] at hlawful

/-! ## Close -/

/-- The requests ahead of the first close are never refused as too late. -/
theorem not_refused (h : Inv config s) {r : PendingEvent} (hr : r ∈ beforeClose (entered s.log)) :
    .rejected r.origin .storeClosed ∉ s.log := by
  intro hmem
  rcases h.rejections _ _ hmem with ⟨hkind, -⟩ | ⟨-, r', hr', -, horigin⟩
  · cases hkind
  -- the request behind the close would be the same one
  have hr'mem : r' ∈ received s.log := (List.dropWhile_sublist _).subset hr'
  obtain rfl := eq_of_origin h (received_subset h hr'mem) (beforeClose_subset hr) horigin
  have hany : (received s.log).any PendingEvent.isClose = true := by
    by_contra hnone
    rw [afterClose_of_none (by simpa using hnone)] at hr'
    exact List.not_mem_nil hr'
  have hbefore : r' ∈ beforeClose (received s.log) := by
    rwa [h.order, beforeClose_append hany] at hr
  have hnodup := entered_nodup h
  rw [h.order] at hnodup
  have hreceived := (List.nodup_append.mp hnodup).1
  rw [← beforeClose_append_afterClose (received s.log)] at hreceived
  exact (List.nodup_append.mp hreceived).2.2 r' hbefore r' hr' rfl

/-- Nothing enters once the pool is shut down. -/
theorem entered_of_stopped (h : Inv config s) {before after : List Observation}
    (hlog : s.log = before ++ after) (hstopped : Stopped before) : entered s.log = entered before := by
  rw [hlog, entered_append]
  have hnone : entered after = [] := by
    rw [List.filterMap_eq_nil_iff]
    intro entry hentry
    obtain ⟨front, back, rfl⟩ := List.append_of_mem hentry
    cases entry with
    | entered r =>
      have hopen : ¬Stopped (before ++ front) :=
        h.lawful (before ++ front) (.entered r) back (by rw [hlog]; simp)
      exact absurd (hstopped.append front) hopen
    | _ => rfl
  rw [hnone, List.append_nil]

/-- Once the pool is shut down, everything ahead of the first close is resolved. -/
theorem resolved_of_stopped (h : Inv config s) {before after : List Observation}
    (hlog : s.log = before ++ after) (hstopped : Stopped before) {r : PendingEvent}
    (hr : r ∈ beforeClose (entered s.log)) : r.origin ∈ resolutions before := by
  obtain ⟨ok, hok⟩ := hstopped
  obtain ⟨front, back, rfl⟩ := List.append_of_mem hok
  have hdrained : Drained front := by
    refine h.lawful front (.stopped ok) (back ++ after) ?_
    rw [hlog, List.append_assoc, List.cons_append]
  have hentered : entered s.log = entered (front ++ [.stopped ok]) := by
    have hsplit : s.log = front ++ [.stopped ok] ++ (back ++ after) := by simp [hlog]
    exact entered_of_stopped h hsplit ⟨ok, by simp⟩
  rw [hentered, entered_append, show entered [.stopped ok] = [] from rfl, List.append_nil] at hr
  rw [resolutions_append]
  exact List.mem_append_left _ (hdrained r hr)

/-- The entries that end the store for a caller: the pool goes down, a close is answered. -/
def Observation.Ends (closes : List PendingEvent) : Observation → Prop
  | .stopped _ => True
  | .answered o _ => ∃ r ∈ closes, r.isClose = true ∧ r.origin = o
  | .resolved r _ => r.isClose = true
  | _ => False

/-- **What precedes the first close is resolved before the store ends for anybody.** -/
theorem resolved_before_end (h : Inv config s) {before after : List Observation}
    {entry : Observation} (hlog : s.log = before ++ entry :: after)
    (hends : entry.Ends (entered s.log)) {r : PendingEvent} (hr : r ∈ beforeClose (entered s.log)) :
    r.origin ∈ resolutions before := by
  have hlawful := h.lawful before entry after hlog
  cases entry with
  | stopped ok =>
    have hdrained : Drained before := hlawful
    have hsplit : s.log = before ++ [.stopped ok] ++ after := by simp [hlog]
    have hentered := entered_of_stopped h hsplit ⟨ok, by simp⟩
    rw [hentered, entered_append, show entered [.stopped ok] = [] from rfl, List.append_nil] at hr
    exact hdrained r hr
  | answered o result =>
    obtain ⟨r₁, hr₁, hclose, rfl⟩ := hends
    obtain ⟨r₂, hr₂, horigin, hstopped⟩ := hlawful
    have hr₂' : r₂ ∈ entered s.log := by
      rw [hlog, entered_append]
      exact List.mem_append_left _ hr₂
    obtain rfl := eq_of_origin h hr₂' hr₁ horigin
    rw [if_pos hclose] at hstopped
    exact resolved_of_stopped h hlog hstopped hr
  | resolved r₁ result =>
    have hstopped : if r₁.isClose then Stopped before else _ := hlawful
    have hclose : r₁.isClose = true := hends
    rw [if_pos hclose] at hstopped
    exact resolved_of_stopped h hlog hstopped hr
  | _ => exact hends.elim

/-- What has begun entered ahead of the first close. -/
theorem beforeClose_of_begun (h : Inv config s) {o : Origin} (ho : o ∈ begun s.log) :
    ∃ r ∈ beforeClose (entered s.log), r.origin = o := by
  obtain ⟨r, hr, rfl⟩ := h.begunReleased o ho
  refine ⟨r, ?_, rfl⟩
  have hprefix : beforeClose (received s.log) <+: beforeClose (entered s.log) := by
    rw [h.order]
    by_cases hany : (received s.log).any PendingEvent.isClose = true
    · rw [beforeClose_append hany]
    · have hnone : (received s.log).any PendingEvent.isClose = false := by simpa using hany
      rw [beforeClose_of_none hnone]
      refine ⟨beforeClose s.requests, ?_⟩
      rw [List.any_eq_false] at hnone
      exact (List.takeWhile_append_of_pos fun r hr => by simpa using hnone r hr).symm
  exact hprefix.subset (released_before h hr)

/-- **What follows the first close is never executed**, and is refused when it is taken from the
    channel. -/
theorem refused_after_close (h : Inv config s) {r : PendingEvent}
    (hr : r ∈ afterClose (entered s.log)) (hclose : r.isClose = false) :
    r.origin ∉ begun s.log ∧ r.origin ∉ executed s.log ∧
      (r ∈ s.requests ∨ .rejected r.origin .storeClosed ∈ s.log) := by
  have hbegun : r.origin ∉ begun s.log := by
    intro hmem
    obtain ⟨r', hr', horigin⟩ := beforeClose_of_begun h hmem
    obtain rfl := eq_of_origin h (beforeClose_subset hr') ((List.dropWhile_sublist _).subset hr) horigin
    have hnodup := entered_nodup h
    rw [← beforeClose_append_afterClose (entered s.log)] at hnodup
    exact (List.nodup_append.mp hnodup).2.2 r' hr' r' hr rfl
  refine ⟨hbegun, fun hmem => hbegun (executed_begun h.lawful hmem), ?_⟩
  have hsplit : r ∈ afterClose (received s.log) ∨ r ∈ s.requests := by
    rw [h.order] at hr
    by_cases hany : (received s.log).any PendingEvent.isClose = true
    · rw [afterClose_append hany] at hr
      exact List.mem_append.mp hr
    · have hnone : (received s.log).any PendingEvent.isClose = false := by simpa using hany
      rw [List.any_eq_false] at hnone
      rw [afterClose, List.dropWhile_append_of_pos fun r hr => by simpa using hnone r hr] at hr
      exact Or.inr ((List.dropWhile_sublist _).subset hr)
  rcases hsplit with hr | hr
  · exact Or.inr (h.dismissed r hr hclose)
  · exact Or.inl hr

/-- A call that its own thread resolved is never executed. -/
theorem not_executed_of_resolved (h : Inv config s) {r : PendingEvent}
    {result : Except AtomicBlobStoreError Unit} (hmem : .resolved r result ∈ s.log) :
    r.origin ∉ executed s.log := by
  intro hexecuted
  obtain ⟨r', hr', horigin⟩ := h.begunReleased _ (executed_begun h.lawful hexecuted)
  refine (h.callers r result hmem).2 r' (received_subset h (released_received h hr')) ?_
  rw [horigin]

/-- A call that finds the lifecycle moved on is resolved at once, to `StoreClosed`. -/
theorem refused_when_not_opened (h : Inv config s) (hlock : s.lifecycle ≠ .opened) (r : PendingEvent) :
    precheck config r s = resolve r (.error .storeClosed) s ∧
      submit r s = resolve r (.error .storeClosed) s := by
  have hcases := lifecycle_cases h
  constructor
  · unfold precheck
    rcases ensureOpen_cases h with ⟨hlock', -⟩ | ⟨-, hopen⟩
    · exact absurd hlock' hlock
    · rw [hopen]
  · unfold submit
    rcases hcases with hlock' | hlock' | hlock' | hlock'
    · exact absurd hlock' hlock
    all_goals rw [hlock']

/-- The lifecycle is closing exactly while a close is pending. -/
theorem closing_iff (h : Inv config s) :
    s.lifecycle = .closing ↔ s.pending.filter (fun r => r.isClose) ≠ [] := by
  have halive : s.phase = .running ∨ s.phase = .joining →
      (s.lifecycle = .closing ↔ s.pending.filter (fun r => r.isClose) ≠ []) := by
    intro hphase
    rw [h.alive hphase, h.running hphase]
    by_cases hany : (received s.log).any PendingEvent.isClose = true
    · rw [if_pos hany]
      obtain ⟨r, hr, hclose⟩ := List.any_eq_true.mp hany
      exact ⟨fun _ => List.ne_nil_of_mem (List.mem_filter.mpr ⟨hr, hclose⟩), fun _ => rfl⟩
    · rw [if_neg hany]
      have hnone : (received s.log).any PendingEvent.isClose = false := by simpa using hany
      rw [List.any_eq_false] at hnone
      have hnil := List.filter_eq_nil_iff.mpr hnone
      exact iff_of_false Lifecycle.noConfusion (absurd hnil)
  have hgone : (s.lifecycle = .closed ∨ s.lifecycle = .shutdownFailed) → s.pending = [] →
      (s.lifecycle = .closing ↔ s.pending.filter (fun r => r.isClose) ≠ []) := by
    intro hlock hpending
    rcases hlock with hlock | hlock <;> simp [hlock, hpending]
  cases hphase : s.phase with
  | running => exact halive (Or.inl hphase)
  | joining => exact halive (Or.inr hphase)
  | draining ok =>
    obtain ⟨hlock, -, hpending⟩ := h.draining ok hphase
    exact hgone (by rw [hlock]; exact endLifecycle_cases ok) hpending
  | returned =>
    obtain ⟨hlock, -, hpending⟩ := h.gone (Or.inl hphase)
    exact hgone hlock hpending
  | dropped =>
    obtain ⟨hlock, -, hpending⟩ := h.gone (Or.inr hphase)
    exact hgone hlock hpending

/-- **A coordinator that has returned leaves nothing unanswered.** -/
theorem resolved_of_over (h : Inv config s) (hs : Settled config s)
    (hphase : s.phase = .returned ∨ s.phase = .dropped) :
    s.channel = [] ∧ ∀ r ∈ entered s.log, r.origin ∈ resolutions s.log := by
  obtain ⟨-, hchannel, -⟩ := h.gone hphase
  refine ⟨hchannel, fun r hr => ?_⟩
  by_contra hunresolved
  have hnot : s.phase ≠ .running := by rcases hphase with hphase | hphase <;> simp [hphase]
  obtain ⟨hidle, hfree, -⟩ := h.idle hnot
  obtain ⟨hjobs, hrunning, -⟩ := quiet_of_idle h hidle hfree
  rcases canAdvance_of_unresolved h hs hr hunresolved with
    ⟨hrun, -⟩ | ⟨hne, -⟩ | hne | ⟨hjoin, -⟩ | ⟨ok, hdrain, -⟩
  · exact hnot hrun
  · exact hne hjobs
  · exact hne hrunning
  · rcases hphase with hphase | hphase <;> simp [hphase] at hjoin
  · rcases hphase with hphase | hphase <;> simp [hphase] at hdrain

/-- What a close cuts, in a state of the store.  The fields go through what precedes the first close,
    what follows it, and the closes themselves. -/
structure OrderedCut (config : StoreConfig) (s : Engine) : Prop where
  /-- What precedes the first close is accepted. -/
  accepted : ∀ r ∈ beforeClose (entered s.log), .rejected r.origin .storeClosed ∉ s.log
  /-- It is resolved before the pool is shut down and before any close is answered. -/
  resolvedFirst : ∀ before entry after, s.log = before ++ entry :: after →
    entry.Ends (entered s.log) → ∀ r ∈ beforeClose (entered s.log), r.origin ∈ resolutions before
  /-- What follows it is never executed: it waits in the channel to be refused, or was. -/
  refused : ∀ r ∈ afterClose (entered s.log), r.isClose = false →
    r.origin ∉ begun s.log ∧ r.origin ∉ executed s.log ∧
      (r ∈ s.requests ∨ .rejected r.origin .storeClosed ∈ s.log)
  /-- A call made after the lifecycle left open is refused by its own thread. -/
  late : s.lifecycle ≠ .opened → ∀ r,
    precheck config r s = resolve r (.error .storeClosed) s ∧
      submit r s = resolve r (.error .storeClosed) s
  /-- The answer to such a call is on record as that error, -/
  lateResult : ∀ before r result after, s.log = before ++ .resolved r result :: after →
    r.isClose = false → moved before ≠ [] → result = .error .storeClosed
  /-- and a call that was resolved on its own thread is never executed. -/
  lateUnexecuted : ∀ r result, .resolved r result ∈ s.log → r.origin ∉ executed s.log
  /-- The closes are a suffix of the pending list, and make the lifecycle closing. -/
  suffix : ∃ others closes, s.pending = others ++ closes ∧ (∀ r ∈ others, r.isClose = false) ∧
    (∀ r ∈ closes, r.isClose = true) ∧ (s.lifecycle = .closing ↔ closes ≠ [])
  /-- The lifecycle moves from open over closing to its end, or is dropped. -/
  path : LifecyclePath (moved s.log) s.lifecycle
  /-- A coordinator that has returned leaves nothing unanswered. -/
  answered : s.phase = .returned ∨ s.phase = .dropped →
    s.channel = [] ∧ ∀ r ∈ entered s.log, r.origin ∈ resolutions s.log

/-- **Close is an ordered cut.**  The first close cuts the sequence of events in two.  What is ahead
    of it is served as if no close had come, and what is behind it as if it had been made too late;
    closes themselves are the exception, and are all answered. -/
theorem close_cuts (h : (engineSystem config fates).Reachable s) : OrderedCut config s := by
  obtain ⟨hinv, hs⟩ := inv_reachable h
  refine ⟨fun r hr => not_refused hinv hr, fun before entry after hlog hends r hr =>
    resolved_before_end hinv hlog hends hr, fun r hr hclose => refused_after_close hinv hr hclose,
    fun hlock r => refused_when_not_opened hinv hlock r, fun before r result after hlog hclose => ?_,
    fun r result hmem => not_executed_of_resolved hinv hmem, ?_, hinv.path, resolved_of_over hinv hs⟩
  · have hlawful : if r.isClose then _ else _ := hinv.lawful before _ after hlog
    rwa [if_neg (by simp [hclose])] at hlawful
  · refine ⟨_, _, hinv.suffix, fun r hr => ?_, fun r hr => ?_, closing_iff hinv⟩
    · simpa using (List.mem_filter.mp hr).2
    · exact (List.mem_filter.mp hr).2

end Guarantees

/-! ## A run

  A store with one worker takes a save, a flush and a close, and returns. -/

/-- The smallest store. -/
def sampleConfig : StoreConfig := ⟨testFormat, 16, 1, by decide, by decide⟩
/-- Everything can be spawned and dispatched. -/
def sampleFates : Nat → Fate := fun _ => ⟨fun _ => true, true, 0⟩
/-- A key. -/
def sampleKey : KeyHash := Vector.replicate 32 0
/-- A save of two bytes. -/
def sampleSave : Operation := .save [1, 2] 0
/-- Its outcome. -/
def sampleFinished : Finished := ⟨sampleSave, .save (.ok ()), rfl⟩

/-- Three calls, and their events: the save has its job, the flush and the close are pending. -/
def sampleBusy : Engine :=
  let called := close ⟨2⟩ (submit (.flush 1)
    (submit (.submission ⟨sampleKey, sampleSave⟩) (.initial sampleConfig)))
  let first := onEvent sampleConfig sampleFates (.submission ⟨sampleKey, sampleSave⟩)
    { called with channel := [.flush 1, .close ⟨2⟩] }
  let second := onEvent sampleConfig sampleFates (.flush 1) { first with channel := [.close ⟨2⟩] }
  onEvent sampleConfig sampleFates (.close ⟨2⟩) { second with channel := [] }

theorem sampleBusy_reachable : (engineSystem sampleConfig sampleFates).Reachable sampleBusy := by
  have hinit : (engineSystem sampleConfig sampleFates).Reachable (.initial sampleConfig) := .init rfl
  have hcalls := ((hinit.step
    (.submit (.submission ⟨sampleKey, sampleSave⟩) (by decide) rfl rfl (by decide))).step
    (.submit (.flush 1) (by decide) rfl rfl (by decide))).step
    (.close ⟨2⟩ (by decide) (by decide))
  exact ((hcalls.step
    (.event (.submission ⟨sampleKey, sampleSave⟩) [.flush 1, .close ⟨2⟩] rfl rfl)).step
    (.event (.flush 1) [.close ⟨2⟩] rfl rfl)).step
    (.event (.close ⟨2⟩) [] rfl rfl)

/-- The state in which the store returns. -/
def sampleEnd : Engine where
  lifecycle := .closed
  channel := []
  handles := 1
  issued := 3
  abandoned := []
  phase := .returned
  queues := ∅
  active := ∅
  pending := []
  maintenanceActive := false
  pool := ⟨false, 0, 1, [], []⟩
  outcome := none
  clock := 1
  log := [
    .entered (.submission ⟨sampleKey, sampleSave⟩), .entered (.flush 1), .entered (.close ⟨2⟩),
    .received (.submission ⟨sampleKey, sampleSave⟩), .released (.submission ⟨sampleKey, sampleSave⟩),
    .begun ⟨some sampleKey, 0⟩, .received (.flush 1), .received (.close ⟨2⟩), .moved .closing,
    .executed ⟨some sampleKey, 0⟩, .delivered ⟨some sampleKey, 0⟩ (.operation (.save (.ok ()))),
    .released (.flush 1), .answered ⟨none, 1⟩ (.ok ()), .stopped true, .moved .closed,
    .answered ⟨none, 2⟩ (.ok ())]

/-- The worker runs the job, its completion answers everybody, and the pool goes down. -/
theorem sampleEnd_reachable : (engineSystem sampleConfig sampleFates).Reachable sampleEnd := by
  have hjob := (sampleBusy_reachable.step
    (.startJob (.operation sampleKey sampleSave) [] rfl (by decide))).step
    (.finishJob [] [] (.operation sampleKey sampleSave) _ _ rfl
      (.operation sampleKey sampleSave sampleFinished rfl))
  have hdone := hjob.step (.event (.completion ⟨sampleKey, some sampleFinished⟩) [] rfl rfl)
  exact (hdone.step (.finishShutdown true rfl rfl rfl)).step (.leave true rfl rfl)

theorem request_conserved_sample :
    Conserved sampleEnd (.submission ⟨sampleKey, sampleSave⟩) ∧ Conserved sampleEnd (.flush 1) :=
  ⟨request_conserved sampleEnd_reachable _ (by simp [sampleEnd]),
    request_conserved sampleEnd_reachable _ (by simp [sampleEnd])⟩

theorem no_stranded_work_sample :
    sampleBusy.pending = [.flush 1, .close ⟨2⟩] ∧ Unstranded sampleBusy :=
  ⟨rfl, no_stranded_work sampleBusy_reachable⟩

theorem key_discipline_sample :
    sampleBusy.outstanding = [sampleKey] ∧ KeyDiscipline sampleConfig sampleBusy :=
  ⟨rfl, key_discipline sampleBusy_reachable⟩

theorem barriers_ordered_sample : BarrierOrder sampleEnd := barriers_ordered sampleEnd_reachable

theorem close_cuts_sample : OrderedCut sampleConfig sampleEnd := close_cuts sampleEnd_reachable

end AtomicBlobStore
