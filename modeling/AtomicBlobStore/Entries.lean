/-
  ENTRIES: what each step of the store writes, and where it comes from.

  `Moves` says what a step can shift; here it is said which entries of the history a step may add
  while no job starts or ends.

  1. **`Noted`** — the entries that callers and the coordinator write.  An outcome is delivered only
     from a completion that is in the channel, and a request is refused for want of a worker only in
     an unlucky dispatch.

  2. **`Records`** — one lemma for each part of a handler, composed by transitivity; `onEvent_records`
     is the whole of it.

  3. **`step_cases`** — every step starts one job, ends one job, or only writes such entries.

  4. **Provenance** — `Genuine`: whatever is queued, waits for a worker or runs is the request of
     that name that entered; and `begun_prompt`: where nothing was refused for want of a worker,
     whatever has begun was started or waits for a worker.
-/
import AtomicBlobStore.CloseCallers
import AtomicBlobStore.Workers

namespace AtomicBlobStore

open Relation

/-! ## What is noted

  An entry is written for a reason, and the reason is in the state before it: an event in the channel,
  or the luck of the dispatch. -/

/-- A dispatch in which everything works. -/
structure Fate.Lucky (fate : Fate) : Prop where
  /-- Every thread can be spawned, -/
  spawn : ∀ index, fate.spawn index = true
  /-- and the dispatch works out. -/
  dispatch : fate.dispatch = true

/-- What may be written while no job starts or ends; `due` are the events that outcomes come from.  A
    job that starts or ends writes entries too; they are the business of `step_cases`. -/
inductive Noted (fates : Nat → Fate) (due : List CoordinatorEvent) : Observation → Prop
  /-- A call was sent, -/
  | entered (r : PendingEvent) : Noted fates due (.entered r)
  /-- its event was received, -/
  | received (r : PendingEvent) : Noted fates due (.received r)
  /-- it was released to its queue, -/
  | released (r : PendingEvent) : Noted fates due (.released r)
  /-- and dispatched. -/
  | begun (o : Origin) : Noted fates due (.begun o)
  /-- A flush or a close was answered by the coordinator. -/
  | answered (o : Origin) (result : Except AtomicBlobStoreError Unit) :
      Noted fates due (.answered o result)
  /-- A reply sender was dropped. -/
  | lost (o : Origin) : Noted fates due (.lost o)
  /-- A call was answered on its own thread. -/
  | resolved (r : PendingEvent) (result : Except AtomicBlobStoreError Unit) :
      Noted fates due (.resolved r result)
  /-- The pool was shut down. -/
  | stopped (ok : Bool) : Noted fates due (.stopped ok)
  /-- The lifecycle moved. -/
  | moved (lifecycle : Lifecycle) : Noted fates due (.moved lifecycle)
  /-- A refusal because of the lifecycle needs no more reason than that. -/
  | closed (o : Origin) : Noted fates due (.rejected o .storeClosed)
  /-- A refusal for want of a worker needs a dispatch that went wrong. -/
  | unlucky (o : Origin) (h : ∃ clock, ¬(fates clock).Lucky) :
      Noted fates due (.rejected o .workerUnavailable)
  /-- An outcome is delivered from a completion, -/
  | delivered (key : KeyHash) (f : Finished) (h : .completion ⟨key, some f⟩ ∈ due) :
      Noted fates due (.delivered (f.operation.origin key) (.operation f.result))
  /-- and what a cleanup found from that of a maintenance job. -/
  | cleaned (o : MaintenanceOutcome) (h : .maintenanceCompletion ⟨some o⟩ ∈ due) :
      Noted fates due (.delivered ⟨none, o.sender⟩ (.cleanup o.result))

section Entries

variable {config : StoreConfig} {fates : Nat → Fate} {due : List CoordinatorEvent}

/-- More events are more reasons. -/
theorem Noted.mono {more : List CoordinatorEvent} (hsub : ∀ ev ∈ due, ev ∈ more)
    {entry : Observation} (h : Noted fates due entry) : Noted fates more entry := by
  cases h with
  | delivered key f h => exact .delivered key f (hsub _ h)
  | cleaned o h => exact .cleaned o (hsub _ h)
  | unlucky o h => exact .unlucky o h
  | _ => constructor

/-- No job starts with it. -/
theorem Noted.not_executed {entry : Observation} (h : Noted fates due entry) :
    entry.executed? = none := by
  cases h <;> rfl

/-! ## Writing

  A handler is a composition of parts that each write a little, and `Records` is closed under
  composition. -/

variable (fates due) in
/-- No job starts or ends, no outcome is put into the channel, and the history grows by what may be
    noted. -/
structure Records (s s' : Engine) : Prop where
  /-- What runs goes on. -/
  running : s'.pool.running = s.pool.running
  /-- Nothing is taken or delivered. -/
  outcome : s'.outcome = s.outcome
  /-- What is sent carries no outcome. -/
  channel : ∃ evs, s'.channel = s.channel ++ evs ∧ ∀ ev ∈ evs, ev.outcome? = none
  /-- What is written may be written. -/
  log : ∃ entries, s'.log = s.log ++ entries ∧ ∀ entry ∈ entries, Noted fates due entry

theorem Records.refl (s : Engine) : Records fates due s s where
  running := rfl
  outcome := rfl
  channel := ⟨[], (List.append_nil _).symm, by simp⟩
  log := ⟨[], (List.append_nil _).symm, by simp⟩

/-- One part after another. -/
theorem Records.trans {s s' s'' : Engine} (h : Records fates due s s')
    (h' : Records fates due s' s'') : Records fates due s s'' := by
  obtain ⟨evs, hchannel, hevs⟩ := h.channel
  obtain ⟨evs', hchannel', hevs'⟩ := h'.channel
  obtain ⟨entries, hlog, hentries⟩ := h.log
  obtain ⟨entries', hlog', hentries'⟩ := h'.log
  refine ⟨h'.running.trans h.running, h'.outcome.trans h.outcome, ⟨evs ++ evs', ?_, ?_⟩,
    ⟨entries ++ entries', ?_, ?_⟩⟩
  · rw [hchannel', hchannel, List.append_assoc]
  · intro ev hev
    rcases List.mem_append.mp hev with hev | hev
    · exact hevs ev hev
    · exact hevs' ev hev
  · rw [hlog', hlog, List.append_assoc]
  · intro entry hentry
    rcases List.mem_append.mp hentry with hentry | hentry
    · exact hentries entry hentry
    · exact hentries' entry hentry

/-- Entries are written, and nothing else that counts. -/
theorem Records.note {s s' : Engine} (entries : List Observation)
    (hrunning : s'.pool.running = s.pool.running) (houtcome : s'.outcome = s.outcome)
    (hchannel : s'.channel = s.channel) (hlog : s'.log = s.log ++ entries)
    (hentries : ∀ entry ∈ entries, Noted fates due entry) : Records fates due s s' :=
  ⟨hrunning, houtcome, ⟨[], by rw [hchannel, List.append_nil], by simp⟩, ⟨entries, hlog, hentries⟩⟩

/-- An event without an outcome is sent as well. -/
theorem Records.post {s s' : Engine} (entries : List Observation) (ev : CoordinatorEvent)
    (hrunning : s'.pool.running = s.pool.running) (houtcome : s'.outcome = s.outcome)
    (hchannel : s'.channel = s.channel ++ [ev]) (hev : ev.outcome? = none)
    (hlog : s'.log = s.log ++ entries)
    (hentries : ∀ entry ∈ entries, Noted fates due entry) : Records fates due s s' := by
  refine ⟨hrunning, houtcome, ⟨[ev], hchannel, ?_⟩, ⟨entries, hlog, hentries⟩⟩
  intro ev' hev'
  rw [List.mem_singleton.mp hev']
  exact hev

/-- A part that writes one entry, -/
theorem noted_one {entry : Observation} (h : Noted fates due entry) :
    ∀ entry' ∈ [entry], Noted fates due entry' := by
  intro entry' hmem
  rw [List.mem_singleton.mp hmem]
  exact h

/-- and one that writes two. -/
theorem noted_two {first second : Observation} (h : Noted fates due first)
    (h' : Noted fates due second) : ∀ entry ∈ [first, second], Noted fates due entry := by
  intro entry hmem
  rcases List.mem_cons.mp hmem with rfl | hmem
  · exact h
  · exact noted_one h' entry hmem

/-! ## Dispatching

  A dispatch may fail at two places, and both depend on luck and not on the state. -/

/-- Where every thread can be spawned, `prepare` succeeds. -/
theorem spawnMissing_lucky {spawn : Nat → Bool} (hspawn : ∀ index, spawn index = true) :
    ∀ (missing : Nat) (pool : WorkerPool), (pool.spawnMissing spawn missing).1 = .ok () := by
  intro missing
  induction missing with
  | zero => exact fun pool => rfl
  | succ missing ih =>
    intro pool
    unfold WorkerPool.spawnMissing
    rw [if_pos (hspawn pool.handles)]
    exact ih _

/-- A failing `prepare` or `prepare_dispatch` is bad luck, and says so. -/
theorem prepare_unlucky {clock : Nat} {pool pool' : WorkerPool} {required : Nat}
    {e : AtomicBlobStoreError}
    (h : pool.prepare (fates clock).spawn required = (.error e, pool')) (o : Origin) :
    Noted fates due (.rejected o e) := by
  obtain ⟨-, hres⟩ := prepare_spec pool (fates clock).spawn required
  rw [h] at hres
  rcases hres with ⟨hok, -⟩ | herror
  · cases hok
  · obtain rfl := Except.error.inj herror
    refine .unlucky o ⟨clock, fun hlucky => ?_⟩
    have hok := spawnMissing_lucky hlucky.spawn (min required pool.capacity - pool.handles) pool
    have hprepare : (pool.prepare (fates clock).spawn required).1 = .ok () := hok
    rw [h] at hprepare
    cases hprepare

/-- So does a failure to dispatch. -/
theorem prepareDispatch_unlucky {clock : Nat} {e : AtomicBlobStoreError}
    (h : WorkerPool.prepareDispatch (fates clock).dispatch = .error e) (o : Origin) :
    Noted fates due (.rejected o e) := by
  cases hdispatch : (fates clock).dispatch with
  | true =>
    rw [hdispatch] at h
    cases h
  | false =>
    rw [hdispatch] at h
    obtain rfl := Except.error.inj h
    refine .unlucky o ⟨clock, fun hlucky => ?_⟩
    rw [hlucky.dispatch] at hdispatch
    cases hdispatch

/-- `prepare` leaves what runs alone. -/
theorem prepare_running (pool : WorkerPool) (spawn : Nat → Bool) (required : Nat) :
    (pool.prepare spawn required).2.running = pool.running := by
  obtain ⟨⟨handles, -, heq⟩, -⟩ := prepare_spec pool spawn required
  rw [heq]

theorem execute_running {pool pool' : WorkerPool} {job : WorkerJob}
    (h : pool.execute job = .ok pool') : pool'.running = pool.running := by
  unfold WorkerPool.execute at h
  split at h
  · rw [← Except.ok.inj h]
  · cases h

theorem dispatchIfIdle_records (key : KeyHash) (s : Engine) :
    Records fates due s (dispatchIfIdle config fates key s) := by
  unfold dispatchIfIdle
  split
  · exact .refl s
  split
  · exact .refl s
  rename_i op queues hpop
  have hrunning := prepare_running s.pool (fates s.clock).spawn (s.active.card + 1)
  simp only []
  cases hprepare : s.pool.prepare (fates s.clock).spawn (s.active.card + 1) with
  | mk prepared pool =>
    rw [hprepare] at hrunning
    cases prepared with
    | error e =>
      refine .note [.begun (op.origin key), .rejected (op.origin key) e] hrunning rfl rfl
        (List.append_assoc _ _ _) ?_
      exact noted_two (.begun _) (prepare_unlucky hprepare _)
    | ok u =>
      simp only []
      cases hdispatch : WorkerPool.prepareDispatch (fates s.clock).dispatch with
      | error e =>
        refine .note [.begun (op.origin key), .rejected (op.origin key) e] hrunning rfl rfl
          (List.append_assoc _ _ _) ?_
        exact noted_two (.begun _) (prepareDispatch_unlucky hdispatch _)
      | ok u =>
        simp only []
        split
        · rename_i pool' hexecute
          exact .note [.begun (op.origin key)] ((execute_running hexecute).trans hrunning) rfl rfl rfl
            (noted_one (.begun _))
        · exact .post [.begun (op.origin key), .lost (op.origin key)] _ hrunning rfl rfl rfl
            (List.append_assoc _ _ _) (noted_two (.begun _) (.lost _))

theorem dispatchMaintenance_records (sub : MaintenanceSubmission) (s : Engine) :
    Records fates due s (dispatchMaintenance fates sub s) := by
  unfold dispatchMaintenance
  have hrunning := prepare_running s.pool (fates s.clock).spawn 1
  simp only []
  cases hprepare : s.pool.prepare (fates s.clock).spawn 1 with
  | mk prepared pool =>
    rw [hprepare] at hrunning
    cases prepared with
    | error e =>
      refine .post [.begun ⟨none, sub.sender⟩, .rejected ⟨none, sub.sender⟩ e] _ hrunning rfl rfl rfl
        (List.append_assoc _ _ _) ?_
      exact noted_two (.begun _) (prepare_unlucky hprepare _)
    | ok u =>
      simp only []
      cases hdispatch : WorkerPool.prepareDispatch (fates s.clock).dispatch with
      | error e =>
        refine .post [.begun ⟨none, sub.sender⟩, .rejected ⟨none, sub.sender⟩ e] _ hrunning rfl rfl
          rfl (List.append_assoc _ _ _) ?_
        exact noted_two (.begun _) (prepareDispatch_unlucky hdispatch _)
      | ok u =>
        simp only []
        split
        · rename_i pool' hexecute
          exact .note [.begun ⟨none, sub.sender⟩] ((execute_running hexecute).trans hrunning) rfl rfl
            rfl (noted_one (.begun _))
        · exact .post [.begun ⟨none, sub.sender⟩, .lost ⟨none, sub.sender⟩] _ hrunning rfl rfl rfl
            (List.append_assoc _ _ _) (noted_two (.begun _) (.lost _))

theorem dispatchAvailable_records (s : Engine) :
    Records fates due s (dispatchAvailable config fates s) := by
  refine dispatchAvailable_keeps fates ?_ (.refl s)
  intro t key ht
  have hdraw : Records fates due t { t with clock := t.clock + 1 } :=
    .note [] rfl rfl rfl (List.append_nil _).symm (by simp)
  exact (ht.trans hdraw).trans (dispatchIfIdle_records key _)

theorem advance_records (s : Engine) :
    Records fates due s (advancePendingIfReady config fates s) := by
  refine advancePendingIfReady_keeps fates ?_ ?_ ?_ (.refl s)
  · intro t sub rest _ ht
    refine (ht.trans ?_).trans (dispatchIfIdle_records sub.keyHash _)
    exact .note [.released (.submission sub)] rfl rfl rfl rfl (noted_one (.released _))
  · intro t sub rest _ ht
    refine (ht.trans ?_).trans (dispatchMaintenance_records sub _)
    exact .note [.released (.maintenance sub)] rfl rfl rfl rfl (noted_one (.released _))
  · intro t sender rest _ ht
    refine ht.trans (.note [.released (.flush sender), .answered ⟨none, sender⟩ (.ok ())] rfl rfl rfl
      rfl ?_)
    exact noted_two (.released _) (.answered _ _)

theorem shutdown_records (s : Engine) : Records fates due s (shutdownIfDrained s) := by
  unfold shutdownIfDrained
  split
  · exact .note [] rfl rfl rfl (List.append_nil _).symm (by simp)
  · exact .refl s

/-- The end of a handler. -/
theorem conclude_records (s : Engine) :
    Records fates due s (shutdownIfDrained (advancePendingIfReady config fates s)) :=
  (advance_records s).trans (shutdown_records _)

/-! ## Handling an event

  The outcome of a completion is taken from the channel with its event, so it is due only while the
  event is being handled. -/

/-- What is held for delivery does not matter to what is written. -/
theorem Records.forget {s s' : Engine} (h : Records fates due s s') :
    Records fates due { s with outcome := none } { s' with outcome := none } :=
  ⟨h.running, rfl, h.channel, h.log⟩

/-- The outcome of a completion is delivered, and is gone. -/
theorem concludeCompletion_records (key : KeyHash) (done : Option Finished) (s : Engine)
    (houtcome : s.outcome = done.map fun f => (key, f)) :
    Records fates [.completion ⟨key, done⟩] { s with outcome := none } (concludeCompletion key s) := by
  have htidy : Records fates [.completion ⟨key, done⟩] { s with outcome := none }
      { s with
        outcome := none
        queues := if key ∉ s.active then s.queues.removeIfEmpty key else s.queues } :=
    .note [] rfl rfl rfl (List.append_nil _).symm (by simp)
  cases done with
  | none =>
    have hconclude : concludeCompletion key s = { s with
        outcome := none
        queues := if key ∉ s.active then s.queues.removeIfEmpty key else s.queues } := by
      have hnone : s.outcome = none := houtcome
      unfold concludeCompletion
      by_cases hidle : key ∉ s.active
      · simp only [if_pos hidle, hnone]
      · simp only [if_neg hidle, hnone]
        rw [← hnone]
    rw [hconclude]
    exact htidy
  | some f =>
    have hconclude : concludeCompletion key s = deliver key f { s with
        outcome := none
        queues := if key ∉ s.active then s.queues.removeIfEmpty key else s.queues } := by
      have hsome : s.outcome = some (key, f) := houtcome
      unfold concludeCompletion
      by_cases hidle : key ∉ s.active
      · simp only [if_pos hidle, hsome]
      · simp only [if_neg hidle, hsome]
    rw [hconclude]
    refine htidy.trans (.note [.delivered (f.operation.origin key) (.operation f.result)] rfl rfl rfl
      rfl (noted_one (.delivered key f ?_)))
    exact List.mem_singleton.mpr rfl

/-- **What handling an event writes.** -/
theorem onEvent_records (ev : CoordinatorEvent) {s : Engine} (hout : s.outcome = none) :
    Records fates [ev] s (onEvent config fates ev s) := by
  obtain ⟨s', hhandles⟩ := exists_handles config fates ev s
  rw [← hhandles.onEvent]
  cases hhandles with
  | submissionRefused sub hlock =>
    exact .note [.received (.submission sub), .rejected (sub.operation.origin sub.keyHash)
      .storeClosed] rfl rfl rfl (List.append_assoc _ _ _) (noted_two (.received _) (.closed _))
  | submissionParked sub hlock hwait =>
    exact .note [.received (.submission sub)] rfl rfl rfl rfl (noted_one (.received _))
  | submission sub hlock hwait hfills =>
    rw [(fills_iff fates).mp hfills]
    refine .trans ?_ ((dispatchIfIdle_records sub.keyHash _).trans
      ((dispatchAvailable_records _).trans (shutdown_records _)))
    exact .note [.received (.submission sub), .released (.submission sub)] rfl rfl rfl
      (List.append_assoc _ _ _) (noted_two (.received _) (.released _))
  | completion done hfills hadvances =>
    rw [(advances_iff fates).mp hadvances, (fills_iff fates).mp hfills]
    obtain ⟨key, done⟩ := done
    refine .trans ?_ (conclude_records _)
    have hdispatched : Records fates [.completion ⟨key, done⟩]
        { s with outcome := done.map fun f => (key, f), active := s.active.erase key }
        (dispatchAvailable config fates (dispatchIfIdle config fates key
          { s with outcome := done.map fun f => (key, f), active := s.active.erase key })) :=
      (dispatchIfIdle_records key _).trans (dispatchAvailable_records _)
    -- the completion is taken first, and what it carries is delivered at the end
    have htaken : Records fates [.completion ⟨key, done⟩] s
        { s with outcome := none, active := s.active.erase key } :=
      .note [] rfl hout.symm rfl (List.append_nil _).symm (by simp)
    exact (htaken.trans hdispatched.forget).trans
      (concludeCompletion_records key done _ hdispatched.outcome)
  | maintenanceRefused sub hlock =>
    exact .note [.received (.maintenance sub), .rejected ⟨none, sub.sender⟩ .storeClosed] rfl rfl rfl
      (List.append_assoc _ _ _) (noted_two (.received _) (.closed _))
  | maintenance sub hlock hadvances =>
    rw [(advances_iff fates).mp hadvances]
    refine .trans ?_ (conclude_records _)
    exact .note [.received (.maintenance sub)] rfl rfl rfl rfl (noted_one (.received _))
  | maintenanceCompletion done hadvances =>
    rw [(advances_iff fates).mp hadvances]
    obtain ⟨done⟩ := done
    refine .trans ?_ (conclude_records _)
    refine .note _ rfl rfl rfl rfl fun entry hentry => ?_
    obtain ⟨o, ho, rfl⟩ := List.mem_map.mp hentry
    obtain rfl : done = some o := Option.mem_toList.mp ho
    exact .cleaned o (List.mem_singleton.mpr rfl)
  | flushRefused sender hlock =>
    exact .note [.received (.flush sender), .rejected ⟨none, sender⟩ .storeClosed] rfl rfl rfl
      (List.append_assoc _ _ _) (noted_two (.received _) (.closed _))
  | flush sender hlock hadvances =>
    rw [(advances_iff fates).mp hadvances]
    refine .trans ?_ (conclude_records _)
    exact .note [.received (.flush sender)] rfl rfl rfl rfl (noted_one (.received _))
  | close sub hadvances =>
    rw [(advances_iff fates).mp hadvances]
    refine .trans ?_ (conclude_records _)
    unfold recordClose
    split
    · exact .note [.received (.close sub), .moved .closing] rfl rfl rfl (List.append_assoc _ _ _)
        (noted_two (.received _) (.moved _))
    · exact .note [.received (.close sub)] rfl rfl rfl rfl (noted_one (.received _))
    all_goals
      exact .note [.received (.close sub), .answered ⟨none, sub.sender⟩ _] rfl rfl rfl
        (List.append_assoc _ _ _) (noted_two (.received _) (.answered _ _))

/-! ## Every step -/

variable (fates) in
/-- A step in which no job starts or ends. -/
structure Still (s s' : Engine) : Prop where
  /-- What runs goes on. -/
  running : s'.pool.running = s.pool.running
  /-- Every outcome in the channel was there. -/
  channel : ∀ ev ∈ s'.channel, ev.outcome? ≠ none → ev ∈ s.channel
  /-- What is written may be written. -/
  log : ∃ entries, s'.log = s.log ++ entries ∧ ∀ entry ∈ entries, Noted fates s.channel entry

/-- Whatever is written by itself is still. -/
theorem Records.still {s s' : Engine} (h : Records fates s.channel s s') : Still fates s s' := by
  refine ⟨h.running, fun ev hev hsome => ?_, h.log⟩
  obtain ⟨evs, hchannel, hevs⟩ := h.channel
  rw [hchannel] at hev
  rcases List.mem_append.mp hev with hev | hev
  · exact hev
  · exact absurd (hevs ev hev) hsome

/-- So is what follows an event that was taken from the channel. -/
theorem Records.still_of_rest {s s' : Engine} {ev : CoordinatorEvent} {rest : List CoordinatorEvent}
    (hchannel : s.channel = ev :: rest) (h : Records fates [ev] { s with channel := rest } s') :
    Still fates s s' := by
  obtain ⟨evs, hchannel', hevs⟩ := h.channel
  obtain ⟨entries, hlog, hentries⟩ := h.log
  refine ⟨h.running, fun ev' hev' hsome => ?_, entries, hlog, fun entry hentry => ?_⟩
  · rw [hchannel'] at hev'
    rcases List.mem_append.mp hev' with hev' | hev'
    · rw [hchannel]
      exact List.mem_cons_of_mem _ hev'
    · exact absurd (hevs ev' hev') hsome
  · refine (hentries entry hentry).mono fun ev' hev' => ?_
    rw [List.mem_singleton.mp hev', hchannel]
    exact List.mem_cons_self

theorem still_of_same {s s' : Engine} (hpool : s'.pool = s.pool) (hchannel : s'.channel = s.channel)
    (hlog : s'.log = s.log) : Still fates s s' := by
  refine ⟨by rw [hpool], fun ev hev _ => ?_, [], ?_, by simp⟩
  · rwa [hchannel] at hev
  · rw [hlog, List.append_nil]

theorem resolve_records (r : PendingEvent) (result : Except AtomicBlobStoreError Unit) (s : Engine) :
    Records fates due s (resolve r result s) :=
  .note [.resolved r result] rfl rfl rfl rfl (noted_one (.resolved _ _))

theorem enter_records (r : PendingEvent) (s : Engine) : Records fates due s (enter r s) :=
  .post [.entered r] r.event rfl rfl rfl r.outcome?_event rfl (noted_one (.entered _))

theorem precheck_records (r : PendingEvent) (s : Engine) :
    Records fates due s (precheck config r s) := by
  unfold precheck
  split
  · exact resolve_records r _ s
  · split
    · exact resolve_records r _ s
    · exact .refl s

theorem submit_records (r : PendingEvent) (s : Engine) : Records fates due s (submit r s) := by
  unfold submit
  split
  · split
    · exact resolve_records r _ s
    · exact enter_records r s
  all_goals exact resolve_records r _ s

theorem close_records (sub : CloseSubmission) (s : Engine) : Records fates due s (close sub s) := by
  unfold close
  split
  · exact resolve_records _ _ s
  · exact resolve_records _ _ s
  · exact resolve_records _ _ s
  · split
    · exact resolve_records _ _ s
    · exact enter_records _ s
  · split
    · exact resolve_records _ _ s
    · exact enter_records _ s

theorem finishShutdown_records (ok : Bool) (s : Engine) :
    Records fates due s (finishShutdown ok s) := by
  refine .note _ rfl rfl rfl rfl fun entry hentry => ?_
  rcases List.mem_append.mp hentry with hentry | hentry
  · exact noted_two (.stopped _) (.moved _) entry hentry
  · obtain ⟨r, -, rfl⟩ := List.mem_map.mp hentry
    exact .answered _ _

theorem drainEvent_records (ok : Bool) (ev : CoordinatorEvent) (s : Engine) :
    Records fates due s (drainEvent ok ev s) := by
  cases ev with
  | submission sub =>
    exact .note [.received (.submission sub), .rejected (sub.operation.origin sub.keyHash)
      .storeClosed] rfl rfl rfl (List.append_assoc _ _ _) (noted_two (.received _) (.closed _))
  | maintenance sub => exact .note [_, _] rfl rfl rfl rfl (noted_two (.received _) (.closed _))
  | flush sender => exact .note [_, _] rfl rfl rfl rfl (noted_two (.received _) (.closed _))
  | close sub => exact .note [_, _] rfl rfl rfl rfl (noted_two (.received _) (.answered _ _))
  | completion done => exact .refl s
  | maintenanceCompletion done => exact .refl s

theorem finishDisconnected_records (ok : Bool) (s : Engine) :
    Records fates due s (finishDisconnected ok s) := by
  have hstopped : Records fates due s { s.observe [.stopped ok] with
      pool := { s.pool with sender := false, handles := 0 }, phase := .returned } :=
    .note [.stopped ok] rfl rfl rfl rfl (noted_one (.stopped _))
  unfold finishDisconnected
  simp only []
  split
  · exact hstopped.trans (.note [.moved .closed] rfl rfl rfl rfl (noted_one (.moved _)))
  · exact hstopped

/-- **What a step can do**: start the next job, end a job that runs, or only write. -/
theorem step_cases {s s' : Engine} (hs : Settled config s) (hstep : Step config fates s s') :
    (∃ job rest, s.pool.jobs = job :: rest ∧ s' = { s.observe [.executed job.origin] with
      pool := { s.pool with jobs := rest, running := s.pool.running ++ [job] } }) ∨
    (∃ front job back ev entries, s.pool.running = front ++ job :: back ∧ JobEnd job ev entries ∧
      s' = { s.observe entries with
        channel := s.channel ++ [ev], pool := { s.pool with running := front ++ back } }) ∨
    Still fates s s' := by
  cases hstep with
  | startJob job rest hjobs hthread => exact Or.inl ⟨job, rest, hjobs, rfl⟩
  | finishJob front back job ev entries hrunning hend =>
    exact Or.inr (Or.inl ⟨front, job, back, ev, entries, hrunning, hend, rfl⟩)
  | precheck r hhandle hclose hfresh => exact Or.inr (Or.inr (precheck_records r s).still)
  | submit r hhandle hclose hvalid hfresh => exact Or.inr (Or.inr (submit_records r s).still)
  | close sub hhandle hfresh => exact Or.inr (Or.inr (close_records sub s).still)
  | cloneHandle hhandle =>
    exact Or.inr (Or.inr (still_of_same rfl rfl rfl))
  | dropHandle hhandle =>
    exact Or.inr (Or.inr (still_of_same rfl rfl rfl))
  | dropWaiter ticket =>
    exact Or.inr (Or.inr (still_of_same rfl rfl rfl))
  | event ev rest hphase hchannel =>
    have hrecords : Records fates [ev] { s with channel := rest }
        (onEvent config fates ev { s with channel := rest }) := onEvent_records ev hs.delivered
    exact Or.inr (Or.inr (hrecords.still_of_rest hchannel))
  | finishShutdown ok hphase hjobs hrunning =>
    exact Or.inr (Or.inr (finishShutdown_records ok s).still)
  | drainEvent ok ev rest hphase hchannel =>
    exact Or.inr (Or.inr ((drainEvent_records ok ev _).still_of_rest hchannel))
  | leave ok hphase hchannel =>
    exact Or.inr (Or.inr (still_of_same rfl rfl rfl))
  | disconnect ok hphase hgone => exact Or.inr (Or.inr (finishDisconnected_records ok s).still)
  | dropReceiver hphase =>
    refine Or.inr (Or.inr ⟨rfl, fun ev hev => ?_, [], (List.append_nil _).symm, by simp⟩)
    exact absurd hev List.not_mem_nil

end Entries

/-! ## Provenance

  Between its call and its execution a request is rebuilt several times: an event becomes a pending
  one, then an operation in a queue, then a job.  It remains the same request. -/

/-- The request that a job was built from. -/
def WorkerJob.request : WorkerJob → PendingEvent
  | .operation key op => .submission ⟨key, op⟩
  | .maintenance sub => .maintenance sub

@[simp] theorem WorkerJob.origin_request (job : WorkerJob) : job.request.origin = job.origin := by
  cases job <;> rfl

/-- Whatever is queued, waits for a worker or runs is a request that entered. -/
structure Genuine (s : Engine) : Prop where
  /-- What is queued has entered, -/
  queued : ∀ key, ∀ op ∈ s.queues.queue key, .submission ⟨key, op⟩ ∈ entered s.log
  /-- and so has what is a job. -/
  jobs : ∀ job ∈ s.pool.jobs ++ s.pool.running, job.request ∈ entered s.log

section Provenance

variable {config : StoreConfig} {fates : Nat → Fate} {s s' : Engine}

/-- Nothing is queued or made into a job that did not enter. -/
theorem Genuine.of_grows (h : Genuine s) (hlog : s.log <+: s'.log)
    (hqueued : ∀ key, ∀ op ∈ s'.queues.queue key,
      op ∈ s.queues.queue key ∨ .submission ⟨key, op⟩ ∈ entered s.log)
    (hjobs : ∀ job ∈ s'.pool.jobs ++ s'.pool.running,
      job ∈ s.pool.jobs ++ s.pool.running ∨ job.request ∈ entered s.log) : Genuine s' := by
  have hgrows : ∀ r ∈ entered s.log, r ∈ entered s'.log := (hlog.filterMap _).subset
  constructor
  · intro key op hop
    apply hgrows
    exact (hqueued key op hop).elim (h.queued key op) id
  · intro job hjob
    apply hgrows
    exact (hjobs job hjob).elim (h.jobs job) id

/-- What is in a queue after a push was there before, or is what was pushed, -/
theorem mem_pushBack {queues : KeyedQueues KeyHash Operation} {key k : KeyHash}
    {op op' : Operation} (h : op' ∈ (queues.pushBack key op).queue k) :
    op' ∈ queues.queue k ∨ k = key ∧ op' = op := by
  rw [KeyedQueues.queue_pushBack] at h
  split at h
  · rename_i hk
    rw [hk]
    exact (List.mem_append.mp h).imp id fun hlast => ⟨rfl, List.mem_singleton.mp hlast⟩
  · exact Or.inl h

/-- and what is in it after a pop was there before. -/
theorem mem_popFront {queues queues' : KeyedQueues KeyHash Operation} {key k : KeyHash}
    {op op' : Operation} (hpop : queues.popFront key = some (op, queues'))
    (h : op' ∈ queues'.queue k) : op' ∈ queues.queue k := by
  obtain ⟨hfront, hothers⟩ := queues.queue_popFront hpop
  by_cases hk : k = key
  · rw [hk] at h ⊢
    rw [hfront]
    exact List.mem_cons_of_mem _ h
  · rwa [← hothers k hk]

/-- One move. -/
theorem Genuine.move (h : Genuine s) (hinv : Inv config s) (hm : Move config s s') :
    Genuine s' := by
  -- what a move queues or starts comes from the channel or from the pending list
  have hlog := hm.log_grows
  have hpending : ∀ r ∈ s.pending, r ∈ entered s.log :=
    fun r hr => received_subset hinv (pending_received hinv hr)
  have hchannel : ∀ r, r.event ∈ s.channel → r ∈ entered s.log := by
    intro r hr
    rw [hinv.order]
    apply List.mem_append_right
    exact List.mem_filterMap.mpr ⟨_, hr, r.request?_event⟩
  cases hm with
  | accept sub rest hchan =>
    refine h.of_grows hlog (fun key op hop => ?_) fun job hjob => Or.inl hjob
    refine (mem_pushBack hop).imp id ?_
    rintro ⟨rfl, rfl⟩
    exact hchannel (.submission sub) (by rw [hchan]; exact List.mem_cons_self)
  | release sub rest hpend =>
    refine h.of_grows hlog (fun key op hop => ?_) fun job hjob => Or.inl hjob
    refine (mem_pushBack hop).imp id ?_
    rintro ⟨rfl, rfl⟩
    exact hpending (.submission sub) (by rw [hpend]; exact List.mem_cons_self)
  | beginFailed key op queues pool clock hphase hidle hbound hfree hpop hpool =>
    obtain ⟨handles, -, rfl⟩ := hpool
    refine h.of_grows hlog (fun k op' hop => Or.inl ?_) fun job hjob => Or.inl hjob
    have hop : op' ∈ (queues.removeIfEmpty key).queue k := hop
    rw [KeyedQueues.queue_removeIfEmpty] at hop
    exact mem_popFront hpop hop
  | begin key op queues pool clock hphase hidle hbound hfree hpop hpool hthreads =>
    obtain ⟨handles, -, rfl⟩ := hpool
    refine h.of_grows hlog (fun k op' hop => Or.inl (mem_popFront hpop hop)) fun job hjob => ?_
    simp only [List.mem_append, List.mem_singleton] at hjob
    rcases hjob with (hjob | rfl) | hjob
    · exact Or.inl (List.mem_append_left _ hjob)
    · refine Or.inr (h.queued key op ?_)
      rw [(s.queues.queue_popFront hpop).1]
      exact List.mem_cons_self
    · exact Or.inl (List.mem_append_right _ hjob)
  | maintain sub rest pool clock hpend hphase hfree hidle houtcome hpool hthreads =>
    obtain ⟨handles, -, rfl⟩ := hpool
    refine h.of_grows hlog (fun k op' hop => Or.inl hop) fun job hjob => ?_
    simp only [List.mem_append, List.mem_singleton] at hjob
    rcases hjob with (hjob | rfl) | hjob
    · exact Or.inl (List.mem_append_left _ hjob)
    · exact Or.inr (hpending (.maintenance sub) (by rw [hpend]; exact List.mem_cons_self))
    · exact Or.inl (List.mem_append_right _ hjob)
  | maintainFailed sub rest pool clock hpend hphase hfree hidle houtcome hpool =>
    obtain ⟨handles, -, rfl⟩ := hpool
    exact h.of_grows hlog (fun k op' hop => Or.inl hop) fun job hjob => Or.inl hjob
  | tidy key hphase =>
    refine h.of_grows hlog (fun k op hop => Or.inl ?_) fun job hjob => Or.inl hjob
    have hop : op ∈ (s.queues.removeIfEmpty key).queue k := hop
    rwa [KeyedQueues.queue_removeIfEmpty] at hop
  | startJob job rest hjobs hthread =>
    refine h.of_grows hlog (fun k op hop => Or.inl hop) fun job' hjob => Or.inl ?_
    rw [hjobs]
    simp only [List.mem_append, List.mem_cons] at hjob ⊢
    rcases hjob with hjob | hjob | rfl | hjob
    · exact Or.inl (Or.inr hjob)
    · exact Or.inr hjob
    · exact Or.inl (Or.inl rfl)
    · exact absurd hjob List.not_mem_nil
  | finishJob front back job ev entries hrunning hend =>
    refine h.of_grows hlog (fun k op hop => Or.inl hop) fun job' hjob => Or.inl ?_
    rw [hrunning]
    simp only [List.mem_append, List.mem_cons] at hjob ⊢
    rcases hjob with hjob | hjob | hjob
    · exact Or.inl hjob
    · exact Or.inr (Or.inl hjob)
    · exact Or.inr (Or.inr (Or.inr hjob))
  | _ => exact h.of_grows hlog (fun k op hop => Or.inl hop) fun job hjob => Or.inl hjob

/-! ## Nothing is held back -/

/-- Whatever has begun was started or waits for a worker, unless something was refused for want of
    one. -/
def Prompt (s : Engine) : Prop := (∀ o, .rejected o .workerUnavailable ∉ s.log) →
  begun s.log = executed s.log ++ s.pool.jobs.map WorkerJob.origin

attribute [local simp] Engine.observe resolve enter deliver begun executed Observation.begun?
  Observation.executed? List.filterMap_cons WorkerJob.origin in
/-- A move that refuses nobody for want of a worker. -/
theorem Prompt.move (h : Prompt s) (hm : Move config s s') : Prompt s' := by
  intro hnone
  have hbefore : begun s.log = executed s.log ++ s.pool.jobs.map WorkerJob.origin :=
    h fun o hmem => hnone o (hm.log_grows.subset hmem)
  cases hm with
  | beginFailed key op queues pool clock hphase hidle hbound hfree hpop hpool =>
    exact absurd (List.mem_append_right _ (by simp)) (hnone (op.origin key))
  | maintainFailed sub rest pool clock hpend hphase hfree hidle houtcome hpool =>
    exact absurd (List.mem_append_right _ (by simp)) (hnone ⟨none, sub.sender⟩)
  | begin key op queues pool clock hphase hidle hbound hfree hpop hpool hthreads =>
    obtain ⟨handles, -, rfl⟩ := hpool
    simp [hbefore]
  | maintain sub rest pool clock hpend hphase hfree hidle houtcome hpool hthreads =>
    obtain ⟨handles, -, rfl⟩ := hpool
    simp [hbefore]
  | startJob job rest hjobs hthread =>
    simp [hbefore, hjobs]
  | finishJob front back job ev entries hrunning hend =>
    rcases hend.entries with ⟨rfl, -⟩ | ⟨rfl, -⟩ <;>
      simp [hbefore]
  | takeMaintenance done rest hchannel =>
    cases done.outcome <;> simp [hbefore]
  | finishShutdown ok hphase =>
    simp [hbefore, List.filterMap_map, Function.comp_def]
  | _ => simp [hbefore]

/-- **What holds of every store that can be reached**, besides the invariant. -/
theorem genuine_prompt (h : (engineSystem config fates).Reachable s) : Genuine s ∧ Prompt s := by
  refine System.Reachable.invariant (P := fun s => Genuine s ∧ Prompt s) ?_ ?_ h
  · rintro s rfl
    refine ⟨⟨fun key op hop => ?_, fun job hjob => ?_⟩, fun _ => rfl⟩
    · exact absurd hop (by simp [Engine.initial])
    · exact absurd hjob (by simp [Engine.initial, WorkerPool.new])
  · intro s s' hreach hs hstep
    obtain ⟨hinv, hsettled⟩ := inv_reachable hreach
    have hmoves := (moves_of_step hinv hsettled hstep).1
    refine (keep_run (P := fun s => Inv config s ∧ Genuine s ∧ Prompt s) ?_
      ⟨hinv, hs⟩ hmoves).2
    rintro t t' ⟨hinv, hgenuine, hprompt⟩ hm
    exact ⟨hinv.move hm, hgenuine.move hinv hm, hprompt.move hm⟩

/-- Only flushes and closes are answered by the coordinator itself, and a flush with `Ok`. -/
def Candid (s : Engine) : Prop := ∀ o result, .answered o result ∈ s.log →
  ∃ r ∈ entered s.log, r.origin = o ∧
    (r.isClose = true ∨ (∃ sender, r = .flush sender) ∧ result = .ok ())

attribute [local simp] Engine.observe resolve enter deliver in
/-- The entries of a move are such answers. -/
theorem Candid.move (h : Candid s) (hinv : Inv config s) (hm : Move config s s') : Candid s' := by
  intro o result hmem
  have hgrows : ∀ r ∈ entered s.log, r ∈ entered s'.log := (hm.log_grows.filterMap _).subset
  have hold (hmem : .answered o result ∈ s.log) : ∃ r ∈ entered s'.log, r.origin = o ∧
      (r.isClose = true ∨ (∃ sender, r = .flush sender) ∧ result = .ok ()) := by
    obtain ⟨r, hr, horigin, hkind⟩ := h o result hmem
    exact ⟨r, hgrows r hr, horigin, hkind⟩
  cases hm with
  | closeLate ok sub rest hchannel hphase =>
    rcases List.mem_append.mp hmem with hmem | hmem
    · exact hold hmem
    · obtain ⟨rfl, -⟩ : o = ⟨none, sub.sender⟩ ∧ result = closeResult ok := by simpa using hmem
      refine ⟨.close sub, hgrows _ ?_, rfl, Or.inl rfl⟩
      rw [hinv.order]
      apply List.mem_append_right
      rw [Engine.requests, hchannel]
      exact List.mem_cons_self
  | finishShutdown ok hphase =>
    rcases List.mem_append.mp hmem with hmem | hmem
    · exact hold hmem
    · -- whatever is still pending is a close
      have hclosed : s.pending.filter (fun r => !r.isClose) = [] :=
        (hinv.idle (by rw [hphase]; exact Phase.noConfusion)).2.2.2
      obtain ⟨r, hr, horigin, -⟩ : ∃ r ∈ s.pending, r.origin = o ∧ closeResult ok = result := by
        simpa using hmem
      refine ⟨r, hgrows r (received_subset hinv (pending_received hinv hr)), horigin, Or.inl ?_⟩
      by_contra hnot
      have hin : r ∈ s.pending.filter fun r => !r.isClose :=
        List.mem_filter.mpr ⟨hr, by simpa using hnot⟩
      rw [hclosed] at hin
      exact List.not_mem_nil hin
  | flush sender rest hpending hphase hfree hidle houtcome =>
    rcases List.mem_append.mp hmem with hmem | hmem
    · exact hold hmem
    · obtain ⟨rfl, rfl⟩ : o = ⟨none, sender⟩ ∧ result = .ok () := by simpa using hmem
      have hin : .flush sender ∈ s.pending := by rw [hpending]; exact List.mem_cons_self
      exact ⟨.flush sender, hgrows _ (received_subset hinv (pending_received hinv hin)), rfl,
        Or.inr ⟨⟨sender, rfl⟩, rfl⟩⟩
  | finishJob front back job ev entries hrunning hend =>
    apply hold
    rcases hend.entries with ⟨rfl, -⟩ | ⟨rfl, -⟩ <;> simpa using hmem
  | takeMaintenance done rest hchannel =>
    apply hold
    cases done.outcome <;> simpa using hmem
  | _ => exact hold (by simpa using hmem)

/-- So in every reachable state. -/
theorem candid_reachable (h : (engineSystem config fates).Reachable s) : Candid s := by
  refine System.Reachable.invariant ?_ ?_ h
  · rintro s rfl
    exact fun o result hmem => absurd hmem List.not_mem_nil
  · intro s s' hreach hs hstep
    obtain ⟨hinv, hsettled⟩ := inv_reachable hreach
    have hmoves := (moves_of_step hinv hsettled hstep).1
    refine (keep_run (P := fun s => Inv config s ∧ Candid s) ?_ ⟨hinv, hs⟩ hmoves).2
    rintro t t' ⟨hinv, hcandid⟩ hm
    exact ⟨hinv.move hm, hcandid.move hinv hm⟩

/-- **Where every dispatch is lucky, nobody is refused for want of a worker.** -/
theorem never_unlucky (hlucky : ∀ clock, (fates clock).Lucky)
    (h : (engineSystem config fates).Reachable s) (o : Origin) :
    .rejected o .workerUnavailable ∉ s.log := by
  refine System.Reachable.invariant (P := fun s => .rejected o .workerUnavailable ∉ s.log) ?_ ?_ h
  · rintro s rfl
    exact List.not_mem_nil
  · intro s s' hreach hs hstep hmem
    rcases step_cases (inv_reachable hreach).2 hstep with ⟨job, rest, -, rfl⟩ |
      ⟨front, job, back, ev, entries, -, hend, rfl⟩ | hstill
    · rcases List.mem_append.mp hmem with hmem | hmem
      · exact hs hmem
      · exact absurd hmem (by simp)
    · rcases List.mem_append.mp hmem with hmem | hmem
      · exact hs hmem
      · rcases hend.entries with ⟨rfl, -⟩ | ⟨rfl, -⟩
        · exact List.not_mem_nil hmem
        · exact absurd hmem (by simp)
    · obtain ⟨entries, hlog, hentries⟩ := hstill.log
      rw [hlog] at hmem
      rcases List.mem_append.mp hmem with hmem | hmem
      · exact hs hmem
      · cases hentries _ hmem with
        | unlucky o h =>
          obtain ⟨clock, hnot⟩ := h
          exact hnot (hlucky clock)

end Provenance

end AtomicBlobStore
