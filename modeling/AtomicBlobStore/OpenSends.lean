/-
  SENDING under an open lifecycle (`engine/mod.rs` `submit`, `cleanup_stale_temporary_files`,
  `flush`, `close`; `engine/scheduler.rs` `run_scheduler`).

  A caller checks the lifecycle and sends under one lock; the coordinator changes the lifecycle under
  that lock before it empties the channel, and drops its receiver last, however it comes to its end:
  the normal shutdown, a worker that failed to join, the last handle, or a panic.

  1. **The receiver outlives the open lifecycle** (`receiver_alive`), on every path, so a caller that
     finds the lifecycle open sends.

  2. **Nothing sent is lost** (`FailingStep.channel`): a step takes the front of the channel, which is
     what it means to receive it (`Receives`), or leaves the channel but for what it appends.  So a
     run that ends with the receiver dropped has received what was in the channel
     (`received_by_end`), and from every state it still can be received (`can_receive`).

  3. **No send failure is reported** (`spotless_reachable`): every answer that is not the outcome of a
     job has another cause, and no job ends with this error (`endsWith_job`).

  What makes this worth proving is that the two sides never talk to each other: a caller looks at a
  lock and a coordinator drops a receiver, and it is the order of the coordinator's last steps alone
  that keeps a caller from being told of a failure that is none of its business.
-/
import AtomicBlobStore.CloseCallers
import AtomicBlobStore.DispatchLoops
import AtomicBlobStore.JobErrors

namespace AtomicBlobStore

open Relation

/-! ## Receiving

  An event is received where the coordinator takes it from the channel, and there are four such
  places. Nothing else counts: an event that is dropped with the receiver was never received. -/

section Receiving

variable (config : StoreConfig) (fates : Nat → Fate)

/-- The coordinator receives an event: in its loop, in the loop just before it panics over it, in the
    drain of a shutdown, or in the drain after a panic. -/
inductive Receives (ev : CoordinatorEvent) : FailingStore → FailingStore → Prop
  /-- In its loop. -/
  | loop {f : FailingStore} (rest : List CoordinatorEvent) (hup : f.unwinding = none)
      (hphase : f.engine.phase = .running) (hchannel : f.engine.channel = ev :: rest) :
      Receives ev f { f with engine := onEvent config fates ev { f.engine with channel := rest } }
  /-- In its loop, and then it panics over it. -/
  | interrupted {f : FailingStore} (rest : List CoordinatorEvent) (hup : f.unwinding = none)
      (hphase : f.engine.phase = .running) (hchannel : f.engine.channel = ev :: rest) :
      Receives ev f { f with
        engine := { f.engine with channel := rest }
        unwinding := some (.event ev), before := f.engine.log }
  /-- In the drain at the end of a shutdown. -/
  | shutdownDrain {f : FailingStore} (ok : Bool) (rest : List CoordinatorEvent)
      (hup : f.unwinding = none) (hphase : f.engine.phase = .draining ok)
      (hchannel : f.engine.channel = ev :: rest) :
      Receives ev f { f with engine := drainEvent ok ev { f.engine with channel := rest } }
  /-- In the drain after a panic. -/
  | panicDrain {f : FailingStore} (rest : List CoordinatorEvent) (hdown : f.unwinding = some .draining)
      (hchannel : f.engine.channel = ev :: rest) :
      Receives ev f { f with
        engine := { f.engine with channel := rest }, aftermath := f.aftermath ++ failEvent ev }

/-- Receiving an event is a step of the store. -/
theorem Receives.step {ev : CoordinatorEvent} {f f' : FailingStore}
    (h : Receives config fates ev f f') : FailingStep config fates f f' := by
  cases h with
  | loop rest hup hphase hchannel => exact .step _ hup (.event ev rest hphase hchannel)
  | interrupted rest hup hphase hchannel => exact .panic ev rest hup hphase hchannel
  | shutdownDrain ok rest hup hphase hchannel =>
    exact .step _ hup (.drainEvent ok ev rest hphase hchannel)
  | panicDrain rest hdown hchannel => exact .drainEvent ev rest hdown hchannel

end Receiving

/-! ## What the coordinator says on its own account

  The error of a failed send could reach a caller as the answer to a call or as a reply.  Replies that
  carry the outcome of a job are the job's own words, and are looked at separately. -/

/-- The result an entry reports to a caller, unless it is the outcome of a job. -/
def Observation.reports? : Observation → Option (Except AtomicBlobStoreError Unit)
  | .resolved _ result => some result
  | .rejected _ e => some (.error e)
  | .answered _ result => some result
  | _ => none

/-- It reports no failed send of a maintenance request. -/
def Observation.Spotless (entry : Observation) : Prop :=
  entry.reports? ≠ some (.error .maintenanceCoordinationFailure)

/-- Nothing in the channel or in the history is taken back, and what is added to the history reports
    no failed send. -/
structure Continues (s s' : Engine) : Prop where
  /-- Nothing is taken from the channel. -/
  channel : ∃ more, s'.channel = s.channel ++ more
  /-- What is added to the history reports no failed send. -/
  log : ∃ more, s'.log = s.log ++ more ∧ ∀ entry ∈ more, entry.Spotless

section Continuing

variable {config : StoreConfig} {fates : Nat → Fate} {s s' s'' : Engine}

theorem Continues.refl (s : Engine) : Continues s s :=
  ⟨⟨[], (List.append_nil _).symm⟩, [], (List.append_nil _).symm, fun _ hmem => nomatch hmem⟩

/-- Taking nothing back is transitive, which is what makes it useful for an arm that does several
    things. -/
theorem Continues.trans (h : Continues s s') (h' : Continues s' s'') : Continues s s'' := by
  obtain ⟨⟨events, hchannel⟩, entries, hlog, hspotless⟩ := h
  obtain ⟨⟨events', hchannel'⟩, entries', hlog', hspotless'⟩ := h'
  refine ⟨⟨events ++ events', ?_⟩, entries ++ entries', ?_, fun entry hmem => ?_⟩
  · rw [hchannel', hchannel, List.append_assoc]
  · rw [hlog', hlog, List.append_assoc]
  · rcases List.mem_append.mp hmem with hmem | hmem
    · exact hspotless entry hmem
    · exact hspotless' entry hmem

/-- Entries are added one way or another; nothing else about the state matters. -/
theorem Continues.add (events : List CoordinatorEvent) (entries : List Observation)
    (hchannel : s'.channel = s.channel ++ events) (hlog : s'.log = s.log ++ entries)
    (hspotless : ∀ entry ∈ entries, entry.Spotless) : Continues s s' :=
  ⟨⟨events, hchannel⟩, entries, hlog, hspotless⟩

/-- One entry. -/
theorem Continues.addOne (entry : Observation) (hchannel : s'.channel = s.channel)
    (hlog : s'.log = s.log ++ [entry]) (hspotless : entry.Spotless) : Continues s s' := by
  refine .add [] [entry] (hchannel.trans (List.append_nil _).symm) hlog fun entry' hmem => ?_
  rw [List.mem_singleton.mp hmem]
  exact hspotless

/-- No entry. -/
theorem Continues.same (hchannel : s'.channel = s.channel) (hlog : s'.log = s.log) :
    Continues s s' :=
  .add [] [] (hchannel.trans (List.append_nil _).symm) (hlog.trans (List.append_nil _).symm)
    fun _ hmem => nomatch hmem

/-- An entry that reports nothing reports no failed send. -/
theorem spotless_of_none {entry : Observation} (h : entry.reports? = none) : entry.Spotless := by
  unfold Observation.Spotless
  rw [h]
  exact fun h => nomatch h

/-- An error is spotless if it is any other error. -/
theorem spotless_error {entry : Observation} {e : AtomicBlobStoreError}
    (h : entry.reports? = some (.error e)) (hne : e ≠ .maintenanceCoordinationFailure) :
    entry.Spotless := by
  unfold Observation.Spotless
  rw [h]
  intro heq
  exact hne (Except.error.inj (Option.some.inj heq))

theorem spotless_closeResult {entry : Observation} {ok : Bool}
    (h : entry.reports? = some (closeResult ok)) : entry.Spotless := by
  unfold Observation.Spotless
  rw [h]
  cases ok with
  | true => exact fun heq => nomatch Option.some.inj heq
  | false => exact fun heq => nomatch Except.error.inj (Option.some.inj heq)

/-! ## Handling an event

  The lemmas follow the arms, as those about the pool and the registry do.  The errors that can occur
  are those of spawning a thread, of a dispatch, and of a store that is closed. -/

/-- The errors of preparing a dispatch. -/
theorem prepare_error {pool pool' : WorkerPool} {spawn : Nat → Bool} {required : Nat}
    {e : AtomicBlobStoreError} (h : pool.prepare spawn required = (.error e, pool')) :
    e = .workerUnavailable := by
  obtain ⟨-, hres⟩ := prepare_spec pool spawn required
  rw [h] at hres
  rcases hres with ⟨hok, -⟩ | herror
  · nomatch hok
  · exact Except.error.inj herror

/-- So are those of a dispatch that could not be prepared at all. -/
theorem prepareDispatch_error {dispatch : Bool} {e : AtomicBlobStoreError}
    (h : WorkerPool.prepareDispatch dispatch = .error e) : e = .workerUnavailable := by
  cases dispatch with
  | true => nomatch h
  | false => exact (Except.error.inj h).symm

/-- A dispatch that fails answers its request with one of these errors. -/
theorem continues_dispatchIfIdle (key : KeyHash) (s : Engine) :
    Continues s (dispatchIfIdle config fates key s) := by
  have hbegun : ∀ o : Origin, (Observation.begun o).Spotless := fun o => spotless_of_none rfl
  -- the dispatch is answered with an error of the pool
  have hfailed : ∀ (o : Origin) (s' : Engine), s'.channel = s.channel →
      s'.log = s.log ++ [.begun o] ++ [.rejected o .workerUnavailable] → Continues s s' := by
    intro o s' hchannel hlog
    refine .add [] [.begun o, .rejected o .workerUnavailable]
      (hchannel.trans (List.append_nil _).symm) (hlog.trans (List.append_assoc _ _ _)) ?_
    intro entry hmem
    rcases List.mem_cons.mp hmem with rfl | hmem
    · exact hbegun o
    · rw [List.mem_singleton.mp hmem]
      exact spotless_error rfl (by decide)
  unfold dispatchIfIdle
  split
  · exact .refl s
  split
  · exact .refl s
  simp only []
  cases hprepare : s.pool.prepare (fates s.clock).spawn (s.active.card + 1) with
  | mk prepared pool =>
    cases prepared with
    | error e =>
      rw [prepare_error hprepare]
      exact hfailed _ _ rfl rfl
    | ok u =>
      simp only []
      cases hdispatch : WorkerPool.prepareDispatch (fates s.clock).dispatch with
      | error e =>
        rw [prepareDispatch_error hdispatch]
        exact hfailed _ _ rfl rfl
      | ok u =>
        simp only []
        split
        · exact .addOne _ rfl rfl (hbegun _)
        · refine .add [_] [_, _] rfl (List.append_assoc _ _ _) fun entry hmem => ?_
          rcases List.mem_cons.mp hmem with rfl | hmem
          · exact hbegun _
          · rw [List.mem_singleton.mp hmem]
            exact spotless_of_none rfl

/-- So does the dispatch of a maintenance request. -/
theorem continues_dispatchMaintenance (sub : MaintenanceSubmission) (s : Engine) :
    Continues s (dispatchMaintenance fates sub s) := by
  have hbegun : ∀ o : Origin, (Observation.begun o).Spotless := fun o => spotless_of_none rfl
  have hadded : ∀ (o : Origin) (entry : Observation) (s' : Engine) (ev : CoordinatorEvent),
      entry.Spotless → s'.channel = s.channel ++ [ev] → s'.log = s.log ++ [.begun o] ++ [entry] →
      Continues s s' := by
    intro o entry s' ev hentry hchannel hlog
    refine .add [ev] [.begun o, entry] hchannel (hlog.trans (List.append_assoc _ _ _)) ?_
    intro entry' hmem
    rcases List.mem_cons.mp hmem with rfl | hmem
    · exact hbegun o
    · rw [List.mem_singleton.mp hmem]
      exact hentry
  unfold dispatchMaintenance
  simp only []
  cases hprepare : s.pool.prepare (fates s.clock).spawn 1 with
  | mk prepared pool =>
    cases prepared with
    | error e =>
      rw [prepare_error hprepare]
      exact hadded _ _ _ _ (spotless_error rfl (by decide)) rfl rfl
    | ok u =>
      simp only []
      cases hdispatch : WorkerPool.prepareDispatch (fates s.clock).dispatch with
      | error e =>
        rw [prepareDispatch_error hdispatch]
        exact hadded _ _ _ _ (spotless_error rfl (by decide)) rfl rfl
      | ok u =>
        simp only []
        split
        · exact .addOne _ rfl rfl (hbegun _)
        · exact hadded _ _ _ _ (spotless_of_none rfl) rfl rfl

theorem continues_dispatchAvailable (s : Engine) :
    Continues s (dispatchAvailable config fates s) := by
  refine dispatchAvailable_keeps fates ?_ (.refl s)
  intro t key ht
  have hdraw : Continues t { t with clock := t.clock + 1 } := .same rfl rfl
  exact (ht.trans hdraw).trans (continues_dispatchIfIdle key _)

theorem continues_advance (s : Engine) : Continues s (advancePendingIfReady config fates s) := by
  refine advancePendingIfReady_keeps fates ?_ ?_ ?_ (.refl s)
  · intro t sub rest _ ht
    refine (ht.trans ?_).trans (continues_dispatchIfIdle sub.keyHash _)
    exact .addOne _ rfl rfl (spotless_of_none rfl)
  · intro t sub rest _ ht
    refine (ht.trans ?_).trans (continues_dispatchMaintenance sub _)
    exact .addOne _ rfl rfl (spotless_of_none rfl)
  · intro t sender rest _ ht
    refine ht.trans (.add [] [_, _] (List.append_nil _).symm rfl fun entry hmem => ?_)
    rcases List.mem_cons.mp hmem with rfl | hmem
    · exact spotless_of_none rfl
    · rw [List.mem_singleton.mp hmem]
      exact fun heq => nomatch Option.some.inj heq

theorem continues_shutdown (s : Engine) : Continues s (shutdownIfDrained s) := by
  unfold shutdownIfDrained
  split
  · exact .same rfl rfl
  · exact .refl s

/-- **Handling an event takes nothing back**, and reports no failed send. -/
theorem continues_onEvent (ev : CoordinatorEvent) (s : Engine) :
    Continues s (onEvent config fates ev s) := by
  have hnote : ∀ (t t' : Engine) (entry : Observation), entry.reports? = none →
      t'.channel = t.channel → t'.log = t.log ++ [entry] → Continues t t' :=
    fun t t' entry hnone hchannel hlog => .addOne entry hchannel hlog (spotless_of_none hnone)
  have hrefused : ∀ (o : Origin) (entry : Observation) (t t' : Engine), entry.reports? = none →
      t'.channel = t.channel → t'.log = t.log ++ [entry] ++ [.rejected o .storeClosed] →
      Continues t t' := by
    intro o entry t t' hnone hchannel hlog
    refine .add [] [entry, .rejected o .storeClosed] (hchannel.trans (List.append_nil _).symm)
      (hlog.trans (List.append_assoc _ _ _)) fun entry' hmem => ?_
    rcases List.mem_cons.mp hmem with rfl | hmem
    · exact spotless_of_none hnone
    · rw [List.mem_singleton.mp hmem]
      exact spotless_error rfl (by decide)
  have hadvance : ∀ t : Engine,
      Continues t (shutdownIfDrained (advancePendingIfReady config fates t)) := fun t =>
    (continues_advance t).trans (continues_shutdown _)
  -- every way of handling is a composition of parts that take nothing back
  obtain ⟨s', hhandles⟩ := exists_handles config fates ev s
  rw [← hhandles.onEvent]
  cases hhandles with
  | submissionRefused sub hlock => exact hrefused _ _ _ _ rfl rfl rfl
  | submissionParked sub hlock hwait => exact hnote _ _ (.received (.submission sub)) rfl rfl rfl
  | submission sub hlock hwait hfills =>
    rw [(fills_iff fates).mp hfills]
    refine .trans ?_ ((continues_dispatchIfIdle sub.keyHash _).trans
      ((continues_dispatchAvailable _).trans (continues_shutdown _)))
    refine .add [] [_, _] (List.append_nil _).symm (List.append_assoc _ _ _) fun entry hmem => ?_
    rcases List.mem_cons.mp hmem with rfl | hmem
    · exact spotless_of_none rfl
    · rw [List.mem_singleton.mp hmem]
      exact spotless_of_none rfl
  | completion done hfills hadvances =>
    rw [(advances_iff fates).mp hadvances, (fills_iff fates).mp hfills]
    -- what a completion delivers is the outcome of an operation: it reports no failed send
    have hconclude : ∀ t : Engine, Continues t (concludeCompletion done.keyHash t) := by
      intro t
      unfold concludeCompletion
      simp only []
      split
      · rename_i key f houtcome
        refine .addOne (.delivered (f.operation.origin key) (.operation f.result)) ?_ ?_
          (spotless_of_none rfl)
        · show (if _ then _ else _ : Engine).channel = _
          split <;> rfl
        · show (if _ then _ else _ : Engine).log ++ _ = _
          split <;> rfl
      · split
        · exact .same rfl rfl
        · exact .refl t
    refine .trans ?_ ((continues_dispatchIfIdle done.keyHash _).trans
      ((continues_dispatchAvailable _).trans ((hconclude _).trans (hadvance _))))
    exact .same rfl rfl
  | maintenanceRefused sub hlock => exact hrefused _ _ _ _ rfl rfl rfl
  | maintenance sub hlock hadvances =>
    rw [(advances_iff fates).mp hadvances]
    refine Continues.trans ?_ (hadvance _)
    exact hnote _ _ (.received (.maintenance sub)) rfl rfl rfl
  | maintenanceCompletion done hadvances =>
    rw [(advances_iff fates).mp hadvances]
    refine Continues.trans ?_ (hadvance _)
    refine .add [] _ (List.append_nil _).symm rfl fun entry hmem => ?_
    obtain ⟨o, -, rfl⟩ := List.mem_map.mp hmem
    exact spotless_of_none rfl
  | flushRefused sender hlock => exact hrefused _ _ _ _ rfl rfl rfl
  | flush sender hlock hadvances =>
    rw [(advances_iff fates).mp hadvances]
    refine Continues.trans ?_ (hadvance _)
    exact hnote _ _ (.received (.flush sender)) rfl rfl rfl
  | close sub hadvances =>
    rw [(advances_iff fates).mp hadvances]
    refine .trans (hnote _ (s.observe [.received (.close sub)]) (.received (.close sub)) rfl rfl rfl)
      (.trans ?_ (hadvance _))
    unfold recordClose
    split
    · exact hnote _ _ (.moved .closing) rfl rfl rfl
    · exact .same rfl rfl
    · exact .addOne _ rfl rfl fun heq => nomatch Option.some.inj heq
    · exact .addOne _ rfl rfl (spotless_closeResult rfl)
    · exact .addOne _ rfl rfl (spotless_closeResult rfl)

/-! ## Callers and workers -/

/-- The lifecycle refuses with errors of its own. -/
theorem ensureOpen_error {e : AtomicBlobStoreError} (h : ensureOpen s = .error e) :
    e ≠ .maintenanceCoordinationFailure := by
  unfold ensureOpen at h
  split at h
  · nomatch h
  all_goals
    rw [← Except.error.inj h]
    decide

/-- So do the checks of the arguments. -/
theorem validate_error {r : PendingEvent} {e : AtomicBlobStoreError}
    (h : validate config r = .error e) : e ≠ .maintenanceCoordinationFailure := by
  unfold validate at h
  split at h
  · split at h
    · rw [← Except.error.inj h]
      exact fun heq => nomatch heq
    · nomatch h
  · split at h
    · rw [← Except.error.inj h]
      decide
    · nomatch h
  · nomatch h

/-- A call is resolved with an error of its own. -/
theorem continues_resolve (r : PendingEvent) {e : AtomicBlobStoreError}
    (he : e ≠ .maintenanceCoordinationFailure) : Continues s (resolve r (.error e) s) :=
  .addOne _ rfl rfl (spotless_error rfl he)

theorem continues_enter (r : PendingEvent) : Continues s (enter r s) :=
  .add [r.event] [.entered r] rfl rfl fun entry hmem => by
    rw [List.mem_singleton.mp hmem]
    exact spotless_of_none rfl

/-- A caller or a worker takes nothing back; the receiver that is there while the lifecycle is open
    is what keeps a failed send from being reported. -/
theorem Bystander.continues (h : Bystander config s s')
    (halive : s.lifecycle = .opened → s.phase ≠ .dropped) : Continues s s' := by
  cases h with
  | precheck r hhandle hclose hfresh =>
    unfold AtomicBlobStore.precheck
    split
    · rename_i e herror
      exact continues_resolve r (ensureOpen_error herror)
    · split
      · rename_i e herror
        exact continues_resolve r (validate_error herror)
      · exact .refl s
  | submit r hhandle hclose hvalid hfresh =>
    unfold AtomicBlobStore.submit
    split
    · rename_i hlock
      rw [if_neg (halive hlock)]
      exact continues_enter r
    all_goals exact continues_resolve r (by decide)
  | close sub hhandle hfresh =>
    unfold AtomicBlobStore.close
    split
    · exact .addOne _ rfl rfl fun heq => nomatch Option.some.inj heq
    · exact continues_resolve _ (by decide)
    · exact continues_resolve _ (by decide)
    · split
      · exact continues_resolve _ (by decide)
      · exact continues_enter _
    · split
      · exact continues_resolve _ (by decide)
      · exact continues_enter _
  | cloneHandle hhandle => exact .same rfl rfl
  | dropHandle hhandle => exact .same rfl rfl
  | dropWaiter ticket => exact .same rfl rfl
  | startJob job rest hjobs hthread => exact .addOne _ rfl rfl (spotless_of_none rfl)
  | finishJob front back job ev entries hrunning hend =>
    refine .add [ev] entries rfl rfl fun entry hmem => ?_
    rcases hend.entries with ⟨rfl, -⟩ | ⟨rfl, -⟩
    · nomatch hmem
    · rw [List.mem_singleton.mp hmem]
      exact spotless_of_none rfl

/-! ## Every step

  A step of the store is one of the coordinator, of a caller or of a worker, and after a panic the
  coordinator's steps are those of the unwinding.  In each case what matters is the channel and what
  the step says. -/

variable (config fates) in
/-- A step of the coordinator that receives `ev`, or a step that takes nothing from the channel. -/
inductive Flows (f f' : FailingStore) : Prop
  /-- Nothing was taken from the channel. -/
  | kept (h : Continues f.engine f'.engine)
  /-- The event at the front was received. -/
  | taken (ev : CoordinatorEvent) (rest : List CoordinatorEvent)
      (hchannel : f.engine.channel = ev :: rest)
      (h : Continues { f.engine with channel := rest } f'.engine)
      (hreceives : Receives config fates ev f f')

/-- One turn of the drain of a shutdown. -/
theorem continues_drainEvent (ok : Bool) (ev : CoordinatorEvent) (s : Engine) :
    Continues s (drainEvent ok ev s) := by
  have htwo : ∀ first second : Observation, first.reports? = none → second.Spotless →
      Continues s (s.observe [first, second]) := by
    intro first second hfirst hsecond
    refine .add [] _ (List.append_nil _).symm rfl fun entry hmem => ?_
    rcases List.mem_cons.mp hmem with rfl | hmem
    · exact spotless_of_none hfirst
    · rw [List.mem_singleton.mp hmem]
      exact hsecond
  cases ev with
  | close sub => exact htwo _ _ rfl (spotless_closeResult rfl)
  | submission sub =>
    refine .add [] [_, _] (List.append_nil _).symm (List.append_assoc _ _ _) fun entry hmem => ?_
    rcases List.mem_cons.mp hmem with rfl | hmem
    · exact fun heq => nomatch heq
    · rw [List.mem_singleton.mp hmem]
      exact spotless_error rfl (by decide)
  | maintenance sub => exact htwo _ _ rfl (spotless_error rfl (by decide))
  | flush sender => exact htwo _ _ rfl (spotless_error rfl (by decide))
  | completion done => exact .refl s
  | maintenanceCompletion done => exact .refl s

theorem Step.flows {f : FailingStore} (hup : f.unwinding = none) (hinv : Inv config f.engine)
    (h : Step config fates f.engine s') : Flows config fates f { f with engine := s' } := by
  have halive : f.engine.lifecycle = .opened → f.engine.phase ≠ .dropped := fun hlock =>
    not_dropped hinv (Or.inl hlock)
  have hby : ∀ t, Bystander config f.engine t → Flows config fates f { f with engine := t } :=
    fun t hby => .kept (hby.continues halive)
  cases h with
  | precheck r hhandle hclose hfresh => exact hby _ (.precheck r hhandle hclose hfresh)
  | submit r hhandle hclose hvalid hfresh => exact hby _ (.submit r hhandle hclose hvalid hfresh)
  | close sub hhandle hfresh => exact hby _ (.close sub hhandle hfresh)
  | cloneHandle hhandle => exact hby _ (.cloneHandle hhandle)
  | dropHandle hhandle => exact hby _ (.dropHandle hhandle)
  | dropWaiter ticket => exact hby _ (.dropWaiter ticket)
  | startJob job rest hjobs hthread => exact hby _ (.startJob job rest hjobs hthread)
  | finishJob front back job ev entries hrunning hend =>
    exact hby _ (.finishJob front back job ev entries hrunning hend)
  | event ev rest hphase hchannel =>
    exact .taken ev rest hchannel (continues_onEvent ev _) (.loop rest hup hphase hchannel)
  | drainEvent ok ev rest hphase hchannel =>
    exact .taken ev rest hchannel (continues_drainEvent ok ev _)
      (.shutdownDrain ok rest hup hphase hchannel)
  | finishShutdown ok hphase hjobs hrunning =>
    refine .kept (.add [] _ (List.append_nil _).symm rfl fun entry hmem => ?_)
    rcases List.mem_append.mp hmem with hmem | hmem
    · rcases List.mem_cons.mp hmem with rfl | hmem
      · exact spotless_of_none rfl
      · rw [List.mem_singleton.mp hmem]
        exact spotless_of_none rfl
    · obtain ⟨r, -, rfl⟩ := List.mem_map.mp hmem
      exact spotless_closeResult rfl
  | leave ok hphase hchannel => exact .kept (.same rfl rfl)
  | disconnect ok hphase hgone =>
    refine .kept ?_
    unfold finishDisconnected
    simp only []
    split
    · refine .add [] [_, _] (List.append_nil _).symm (List.append_assoc _ _ _) fun entry hmem => ?_
      rcases List.mem_cons.mp hmem with rfl | hmem
      · exact fun heq => nomatch heq
      · rw [List.mem_singleton.mp hmem]
        exact spotless_of_none rfl
    · exact .addOne _ rfl rfl (spotless_of_none rfl)
  | dropReceiver hphase =>
    -- the channel was empty already
    exact .kept (.same (hinv.gone (Or.inl hphase)).2.1.symm rfl)

/-- A store whose coordinator has not panicked is a store like any other. -/
theorem inv_of_up {f : FailingStore} (h : (failingSystem config fates).Reachable f)
    (hup : f.unwinding = none) : Inv config f.engine := by
  have hsound := sound_reachable h
  unfold Sound at hsound
  rw [hup] at hsound
  exact (inv_reachable hsound.1).1

/-- **While the lifecycle is open or closing there is a receiver**, on every path to the end. -/
theorem receiver_alive {f : FailingStore} (h : (failingSystem config fates).Reachable f)
    (hlock : f.engine.lifecycle = .opened ∨ f.engine.lifecycle = .closing) :
    f.engine.phase ≠ .dropped := by
  cases hu : f.unwinding with
  | none => exact not_dropped (inv_of_up h hu) hlock
  | some u =>
    have hlost := lost_reachable h hu
    intro hphase
    have hfailed : f.engine.lifecycle = .failed := by
      rw [hlost.failed_iff, hlost.phase hphase]
      decide
    rcases hlock with hlock | hlock
    · rw [hfailed] at hlock
      nomatch hlock
    · rw [hfailed] at hlock
      nomatch hlock

/-- **Nothing sent is lost**: a step receives the front of the channel or leaves what is there. -/
theorem FailingStep.flows {f f' : FailingStore} (h : (failingSystem config fates).Reachable f)
    (hstep : FailingStep config fates f f') : Flows config fates f f' := by
  cases hstep with
  | step s' hup hs => exact hs.flows hup (inv_of_up h hup)
  | panic ev rest hup hphase hchannel =>
    exact .taken ev rest hchannel (.refl _) (.interrupted rest hup hphase hchannel)
  | bystander s' u hdown hby =>
    exact .kept (hby.continues fun hlock => receiver_alive h (Or.inl hlock))
  | dropEvent ev hdown => exact .kept (.refl _)
  | dropPending hdown => exact .kept (.same rfl rfl)
  | dropQueues hdown => exact .kept (.same rfl rfl)
  | dropPool hdown => exact .kept (.same rfl rfl)
  | caught hdown hjobs hrunning => exact .kept (.same rfl rfl)
  | fail hdown => exact .kept (.addOne _ rfl rfl (spotless_of_none rfl))
  | drainEvent ev rest hdown hchannel =>
    exact .taken ev rest hchannel (.refl _) (.panicDrain rest hdown hchannel)
  | leave hdown hchannel => exact .kept (.refl _)
  | dropReceiver hdown =>
    exact .kept (.same ((lost_reachable h hdown).channel (by decide)).symm rfl)

/-! ## Being received

  That an event is received on every run to the end is not enough to say that it will be: the end may
  never come, if callers go on for ever.  `Receivable` says that nothing but the choice of steps
  stands in the way. -/

/-- What a step leaves of an event in the channel: it received it, or it is still there. -/
theorem Flows.mem {f f' : FailingStore} (h : Flows config fates f f') {ev : CoordinatorEvent}
    (hmem : ev ∈ f.engine.channel) : Receives config fates ev f f' ∨ ev ∈ f'.engine.channel := by
  cases h with
  | kept h =>
    obtain ⟨more, hchannel⟩ := h.channel
    rw [hchannel]
    exact Or.inr (List.mem_append_left _ hmem)
  | taken ev' rest hchannel h hreceives =>
    rw [hchannel] at hmem
    rcases List.mem_cons.mp hmem with rfl | hmem
    · exact Or.inl hreceives
    · obtain ⟨more, hmore⟩ := h.channel
      rw [hmore]
      exact Or.inr (List.mem_append_left _ hmem)

/-- A dropped receiver leaves nothing behind. -/
theorem channel_of_dropped {f : FailingStore} (h : (failingSystem config fates).Reachable f)
    (hphase : f.engine.phase = .dropped) : f.engine.channel = [] := by
  cases hu : f.unwinding with
  | none => exact ((inv_of_up h hu).gone (Or.inr hphase)).2.1
  | some u =>
    have hlost := lost_reachable h hu
    refine hlost.channel ?_
    rw [hlost.phase hphase]
    decide

/-- **The run lemma**: a run to the coordinator's end receives whatever was in the channel. -/
theorem received_by_end {f f' : FailingStore} (h : (failingSystem config fates).Reachable f)
    {ev : CoordinatorEvent} (hmem : ev ∈ f.engine.channel)
    (hrun : ReflTransGen (FailingStep config fates) f f') (hend : f'.engine.phase = .dropped) :
    ∃ g g', ReflTransGen (FailingStep config fates) f g ∧ Receives config fates ev g g' ∧
      ReflTransGen (FailingStep config fates) g' f' := by
  induction hrun using ReflTransGen.head_induction_on with
  | refl =>
    rw [channel_of_dropped h hend] at hmem
    nomatch hmem
  | @head f f₁ hstep hrest ih =>
    rcases (hstep.flows h).mem hmem with hreceives | hmem'
    · exact ⟨f, f₁, .refl, hreceives, hrest⟩
    · obtain ⟨g, g', hto, hreceives, hfrom⟩ := ih (h.step hstep) hmem'
      exact ⟨g, g', .head hstep hto, hreceives, hfrom⟩

variable (config fates) in
/-- From here the event can still be received. -/
def Receivable (ev : CoordinatorEvent) (f : FailingStore) : Prop :=
  ∃ g g', ReflTransGen (FailingStep config fates) f g ∧ Receives config fates ev g g'

/-- What can be received after a step can be received before it. -/
theorem Receivable.head {ev : CoordinatorEvent} {f f' : FailingStore}
    (hstep : FailingStep config fates f f') (h : Receivable config fates ev f') :
    Receivable config fates ev f := by
  obtain ⟨g, g', hrun, hreceives⟩ := h
  exact ⟨g, g', .head hstep hrun, hreceives⟩

/-- The drain answers, and touches no other event. -/
theorem drainEvent_keeps (ok : Bool) (ev : CoordinatorEvent) (s : Engine) :
    (drainEvent ok ev s).phase = s.phase ∧ (drainEvent ok ev s).channel = s.channel := by
  cases ev <;> exact ⟨rfl, rfl⟩

/-- In the drain of a shutdown the events come one after the other. -/
theorem receivable_draining {ev : CoordinatorEvent} (ok : Bool) :
    ∀ (front back : List CoordinatorEvent) (f : FailingStore), f.unwinding = none →
    f.engine.phase = .draining ok → f.engine.channel = front ++ ev :: back →
    Receivable config fates ev f := by
  intro front
  induction front with
  | nil =>
    intro back f hup hphase hchannel
    exact ⟨f, _, .refl, .shutdownDrain ok back hup hphase hchannel⟩
  | cons first front ih =>
    intro back f hup hphase hchannel
    obtain ⟨hphase', hchannel'⟩ :=
      drainEvent_keeps ok first { f.engine with channel := front ++ ev :: back }
    exact Receivable.head (.step _ hup (.drainEvent ok first (front ++ ev :: back) hphase hchannel))
      (ih back _ hup (hphase'.trans hphase) hchannel')

/-- A coordinator that shuts down joins the workers, who have nothing left to do. -/
theorem receivable_joining {ev : CoordinatorEvent} (front back : List CoordinatorEvent)
    (f : FailingStore) (h : (failingSystem config fates).Reachable f) (hup : f.unwinding = none)
    (hphase : f.engine.phase = .joining) (hchannel : f.engine.channel = front ++ ev :: back) :
    Receivable config fates ev f := by
  have hinv := inv_of_up h hup
  obtain ⟨hidle, hfree, -⟩ := hinv.idle (by rw [hphase]; decide)
  obtain ⟨hjobs, hrunning, -⟩ := quiet_of_idle hinv hidle hfree
  refine Receivable.head (.step _ hup (.finishShutdown true hphase hjobs hrunning)) ?_
  exact receivable_draining true front back _ hup rfl hchannel

/-- In its loop the coordinator comes to the event, unless it decides to shut down; then it comes to
    it in the drain. -/
theorem receivable_running {ev : CoordinatorEvent} :
    ∀ (front back : List CoordinatorEvent) (f : FailingStore),
    (failingSystem config fates).Reachable f → f.unwinding = none → f.engine.phase = .running →
    f.engine.channel = front ++ ev :: back → Receivable config fates ev f := by
  intro front
  induction front with
  | nil =>
    intro back f _ hup hphase hchannel
    exact ⟨f, _, .refl, .loop back hup hphase hchannel⟩
  | cons first front ih =>
    intro back f h hup hphase hchannel
    have hstep : FailingStep config fates f { f with
        engine := onEvent config fates first { f.engine with channel := front ++ ev :: back } } :=
      .step _ hup (.event first (front ++ ev :: back) hphase hchannel)
    have hreach := h.step hstep
    have hcontinues : Continues { f.engine with channel := front ++ ev :: back }
        (onEvent config fates first { f.engine with channel := front ++ ev :: back }) :=
      continues_onEvent first _
    have hphases : (onEvent config fates first
        { f.engine with channel := front ++ ev :: back }).phase = .running ∨ (onEvent config fates
        first { f.engine with channel := front ++ ev :: back }).phase = .joining :=
      onEvent_phase first _ hphase
    obtain ⟨more, hmore⟩ := hcontinues.channel
    have hnext : (onEvent config fates first
        { f.engine with channel := front ++ ev :: back }).channel = front ++ ev :: (back ++ more) := by
      rw [hmore]
      show front ++ ev :: back ++ more = _
      rw [List.append_assoc]
      rfl
    refine Receivable.head hstep ?_
    rcases hphases with hrunning | hjoining
    · exact ih (back ++ more) _ hreach hup hrunning hnext
    · exact receivable_joining front (back ++ more) _ hreach hup hjoining hnext

theorem Unwinding.rank_le (u : Unwinding) : u.rank ≤ 8 := by
  cases u with
  | event ev => exact Nat.zero_le 8
  | _ => decide

/-- After a panic every step of the unwinding leads nearer to the drain, and the drain comes to the
    event. -/
theorem receivable_unwinding {ev : CoordinatorEvent} (f : FailingStore) (u : Unwinding)
    (h : (failingSystem config fates).Reachable f) (hu : f.unwinding = some u)
    (hmem : ev ∈ f.engine.channel) : Receivable config fates ev f := by
  have hlost := lost_reachable h hu
  have hprogress : u = .dropped ∨ ∃ f' u', FailingStep config fates f f' ∧ f'.unwinding = some u' ∧
      Nearer f u f' u' := hlost.progress hu
  rcases hprogress with rfl | ⟨f', u', hstep, hu', hnearer⟩
  · rw [hlost.channel (by decide)] at hmem
    nomatch hmem
  · rcases (hstep.flows h).mem hmem with hreceives | hmem'
    · exact ⟨f, f', .refl, hreceives⟩
    · exact Receivable.head hstep (receivable_unwinding f' u' (h.step hstep) hu' hmem')
termination_by (8 - u.rank, f.engine.load, f.engine.channel.length)
decreasing_by
  have hle := u'.rank_le
  rcases hnearer with hlt | ⟨heq, hlt | ⟨hload, hlt⟩⟩
  · exact Prod.Lex.left _ _ (by omega)
  · rw [heq]
    exact Prod.Lex.right _ (Prod.Lex.left _ _ hlt)
  · rw [heq, hload]
    exact Prod.Lex.right _ (Prod.Lex.right _ hlt)

/-- **Whatever is in the channel can be received**, wherever the coordinator is. -/
theorem can_receive {f : FailingStore} (h : (failingSystem config fates).Reachable f)
    {ev : CoordinatorEvent} (hmem : ev ∈ f.engine.channel) : Receivable config fates ev f := by
  cases hu : f.unwinding with
  | some u => exact receivable_unwinding f u h hu hmem
  | none =>
    have hinv := inv_of_up h hu
    obtain ⟨front, back, hchannel⟩ := List.append_of_mem hmem
    cases hphase : f.engine.phase with
    | running => exact receivable_running front back f h hu hphase hchannel
    | joining => exact receivable_joining front back f h hu hphase hchannel
    | draining ok => exact receivable_draining ok front back f hu hphase hchannel
    | returned =>
      rw [(hinv.gone (Or.inl hphase)).2.1] at hmem
      nomatch hmem
    | dropped =>
      rw [channel_of_dropped h hphase] at hmem
      nomatch hmem

/-! ## What is reported -/

/-- Nothing reports a failed send: no entry of the history, and no error sent after a panic. -/
structure Spotless (f : FailingStore) : Prop where
  /-- No entry says so, -/
  log : ∀ entry ∈ f.engine.log, entry.Spotless
  /-- and nothing that was sent after a panic. -/
  aftermath : ∀ o e, .failed o e ∈ f.aftermath → e ≠ .maintenanceCoordinationFailure

/-- What the drain after a panic sends is the failure of the engine or of the shutdown. -/
theorem spotless_failEvent {ev : CoordinatorEvent} {o : Origin} {e : AtomicBlobStoreError}
    (h : .failed o e ∈ failEvent ev) : e ≠ .maintenanceCoordinationFailure := by
  unfold failEvent at h
  split at h
  · rw [(Aftermath.failed.inj (List.mem_singleton.mp h)).2]
    decide
  · rw [(Aftermath.failed.inj (List.mem_singleton.mp h)).2]
    decide
  · obtain ⟨out, -, heq⟩ := List.mem_map.mp h
    rw [← (Aftermath.failed.inj heq).2]
    decide
  · rw [(Aftermath.failed.inj (List.mem_singleton.mp h)).2]
    decide
  · rw [(Aftermath.failed.inj (List.mem_singleton.mp h)).2]
    decide
  · obtain ⟨out, -, heq⟩ := List.mem_map.mp h
    rw [← (Aftermath.failed.inj heq).2]
    decide

/-- What a step sends after a panic. -/
theorem FailingStep.aftermath {f f' : FailingStore} (hstep : FailingStep config fates f f') :
    ∃ more, f'.aftermath = f.aftermath ++ more ∧
      ∀ o e, .failed o e ∈ more → e ≠ .maintenanceCoordinationFailure := by
  have hdropped : ∀ origins : List Origin, ∀ o e, .failed o e ∈ disconnect origins →
      e ≠ .maintenanceCoordinationFailure := fun origins o e hmem =>
    absurd hmem not_failed_of_disconnect
  cases hstep with
  | dropEvent ev hdown => exact ⟨_, rfl, hdropped _⟩
  | dropPending hdown => exact ⟨_, rfl, hdropped _⟩
  | dropQueues hdown => exact ⟨_, rfl, hdropped _⟩
  | drainEvent ev rest hdown hchannel => exact ⟨_, rfl, fun o e hmem => spotless_failEvent hmem⟩
  | _ => exact ⟨[], (List.append_nil _).symm, fun _ _ hmem => nomatch hmem⟩

/-- Along a step the history only grows. -/
theorem Flows.log {f f' : FailingStore} (h : Flows config fates f f') :
    ∃ more, f'.engine.log = f.engine.log ++ more ∧ ∀ entry ∈ more, entry.Spotless := by
  cases h with
  | kept h => exact h.log
  | taken ev rest hchannel h hreceives => exact h.log

/-- So nowhere in any run is a failed send reported. -/
theorem spotless_reachable {f : FailingStore} (h : (failingSystem config fates).Reachable f) :
    Spotless f := by
  refine System.Reachable.invariant (P := Spotless) ?_ ?_ h
  · rintro f rfl
    exact ⟨fun _ hmem => (nomatch hmem), fun _ _ hmem => (nomatch hmem)⟩
  · intro f f' hreach hspotless hstep
    obtain ⟨more, hlog, hentries⟩ := (hstep.flows hreach).log
    obtain ⟨more', haftermath, hfailures⟩ := hstep.aftermath
    constructor
    · intro entry hmem
      rw [hlog] at hmem
      rcases List.mem_append.mp hmem with hmem | hmem
      · exact hspotless.log entry hmem
      · exact hentries entry hmem
    · intro o e hmem
      rw [haftermath] at hmem
      rcases List.mem_append.mp hmem with hmem | hmem
      · exact hspotless.aftermath o e hmem
      · exact hfailures o e hmem

/-- Whoever is told of a failed send was told so by a job. -/
theorem Spotless.told {f : FailingStore} (h : Spotless f) {o : Origin}
    (htold : Resolves f o (.error .maintenanceCoordinationFailure)) :
    ∃ reply, .delivered o reply ∈ f.engine.log ∧
      reply.verdict = .error .maintenanceCoordinationFailure := by
  generalize hresult : (.error .maintenanceCoordinationFailure : Except AtomicBlobStoreError Unit)
    = result at htold
  cases htold with
  | delivered reply hmem => exact ⟨reply, hmem, rfl⟩
  | rejected e hmem =>
    refine absurd ?_ (h.log _ hmem)
    rw [hresult]
    rfl
  | answered result hmem =>
    refine absurd ?_ (h.log _ hmem)
    rw [hresult]
    rfl
  | lost hmem => exact nomatch Except.error.inj hresult
  | disconnected hmem => exact nomatch Except.error.inj hresult
  | failed e hmem => exact absurd (Except.error.inj hresult).symm (h.aftermath o e hmem)

/-! ## The result -/

/-- What callers may rely on, in one state of a store whose coordinator may panic. -/
structure OpenSends (config : StoreConfig) (fates : Nat → Fate) (f : FailingStore) : Prop where
  /-- Whoever finds the lifecycle open finds the receiver alive, and so does a close that finds it
      closing. -/
  alive : f.engine.lifecycle = .opened ∨ f.engine.lifecycle = .closing →
    f.engine.phase ≠ .dropped
  /-- So a call under an open lifecycle sends its event, -/
  submits : f.engine.lifecycle = .opened → ∀ r, submit r f.engine = enter r f.engine
  /-- and a close does, as long as the store has not come to its end. -/
  closes : f.engine.lifecycle = .opened ∨ f.engine.lifecycle = .closing →
    ∀ sub, close sub f.engine = enter (.close sub) f.engine
  /-- What was sent is received on every run to the coordinator's end, -/
  received : ∀ ev ∈ f.engine.channel, ∀ f', ReflTransGen (FailingStep config fates) f f' →
    f'.engine.phase = .dropped → ∃ g g', ReflTransGen (FailingStep config fates) f g ∧
      Receives config fates ev g g' ∧ ReflTransGen (FailingStep config fates) g' f'
  /-- and as long as it was not, it can be. -/
  receivable : ∀ ev ∈ f.engine.channel, Receivable config fates ev f
  /-- No call returns `MaintenanceCoordinationFailure`, -/
  returned : ∀ r result, .resolved r result ∈ f.engine.log →
    result ≠ .error .maintenanceCoordinationFailure
  /-- nor does a caller who waits for a reply see it, unless the outcome of a job says so, -/
  replied : ∀ o, Resolves f o (.error .maintenanceCoordinationFailure) →
    ∃ reply, .delivered o reply ∈ f.engine.log ∧
      reply.verdict = .error .maintenanceCoordinationFailure
  /-- and no job says so, whatever the filesystem answers: not the program of an operation or of a
      maintenance request, -/
  jobs : ∀ (crc32c : Crc32c) (platform : Platform) (job : WorkerJob) (W : Type)
    (env : Environment FsInterface W) (w w' : W) (result : TaskResult),
    Returns env (job.program crc32c config platform) w (.ok result) w' →
    result.reply.verdict ≠ .error .maintenanceCoordinationFailure
  /-- and not the loop of a cleanup. -/
  cleanup : ∀ (platform : Platform) (minimumAge : Nat) (W : Type)
    (env : Environment FsInterface W) (w w' : W) (abort : Abort),
    Returns env (cleanupStaleFiles config platform minimumAge).run w (.error abort) w' →
    abort ≠ .error .maintenanceCoordinationFailure

/-- **Sending under an open lifecycle never fails**, in every reachable state of a store whose
    coordinator shuts down, loses its last handle, fails to join a worker or panics.  A call that
    fails to send would be told of a failed coordination; that this is told to nobody is part of it,
    and jobs never say it either. -/
theorem open_sends_never_fail {f : FailingStore} (h : (failingSystem config fates).Reachable f) :
    OpenSends config fates f where
  alive hlock := receiver_alive h hlock
  submits hlock r := by
    unfold submit
    simp only [hlock, if_neg (receiver_alive h (Or.inl hlock))]
  closes hlock sub := by
    have halive := receiver_alive h hlock
    unfold close
    rcases hlock with hlock | hlock
    · simp only [hlock, if_neg halive]
    · simp only [hlock, if_neg halive]
  received ev hmem f' hrun hend := received_by_end h hmem hrun hend
  receivable ev hmem := can_receive h hmem
  returned r result hmem heq := (spotless_reachable h).log _ hmem (congrArg some heq)
  replied o htold := (spotless_reachable h).told htold
  jobs crc32c platform job W env w w' result hreturns hverdict := by
    obtain ⟨n, hrun⟩ := hreturns
    nomatch (endsWith_job crc32c config platform job n _ w' hrun).2 _ rfl _ hverdict
  cleanup platform minimumAge W env w w' abort hreturns := by
    rintro rfl
    nomatch (own_cleanupStaleFiles config platform minimumAge).returns hreturns

end Continuing

/-- A flush has been sent and not received. -/
theorem open_sends_never_fail_sample : ∃ f : FailingStore, f.engine.channel = [.flush 0] ∧
    OpenSends sampleConfig sampleFates f := by
  have hinit : (failingSystem sampleConfig sampleFates).Reachable (.initial sampleConfig) := .init rfl
  have hsent := hinit.step (.step _ rfl (.submit (.flush 0) (by decide) rfl rfl (by decide)))
  exact ⟨_, rfl, open_sends_never_fail hsent⟩

end AtomicBlobStore
