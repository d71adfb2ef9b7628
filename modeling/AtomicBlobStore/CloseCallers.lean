/-
  The callers of CLOSE (`engine/mod.rs` `close`, `closed_pending`, `CoordinatorJoin::finish`).

  A close call learns its result in one of three ways: it finds the lifecycle at its end, it receives
  a reply, or it sees its reply channel disconnect and then reads the lifecycle.  Whatever it learnt,
  it then takes the join mutex and waits for the coordinator thread.  `ClosingStore` adds the
  callers and the join state to a store whose coordinator may panic.

  A panic drops the reply senders of the pending closes while the stack is unwound, and the lifecycle
  is set to failed only afterwards.  A caller that reads the lifecycle in between takes `EngineFailed`
  for its result, and joining a thread that caught its panic does not change it.

  * `Verdict`, `verdict_reachable` — what the answers to closes say as long as nothing panics;
  * `Called` — what every caller has learnt;
  * `close_panics_early` — a run in which a close returns `EngineFailed`;
  * `close_callers_agree` — all callers agree exactly as long as nobody reads too early.

  The difficulty is that a caller acts on what it read some time ago.  A result that was given by the
  store stays true, because it is on record (`Grows`); a lifecycle that was read need not be true any
  more when the call returns.  So the state of a call remembers which of the two its result came from,
  and the theorem can say exactly when they differ.
-/
import AtomicBlobStore.CoordinatorLoss

namespace AtomicBlobStore

open Relation

/-! ## Joining the coordinator

  The engine keeps the join handle of the coordinator thread behind a mutex, next to the outcome of
  having joined it.  The first close call to come so far takes the handle and stores the outcome;
  later ones read it. -/

/-- `CoordinatorJoinOutcome`. -/
inductive CoordinatorJoinOutcome
  | joined
  | panicked
  deriving DecidableEq, Repr

/-- `CoordinatorJoin`; `handle` says whether the join handle is still there. -/
structure CoordinatorJoin where
  /-- The join handle has not been taken. -/
  handle : Bool
  /-- How the thread ended, once somebody knows. -/
  outcome : Option CoordinatorJoinOutcome
  deriving DecidableEq, Repr

/-- `CoordinatorJoin::new`. -/
def CoordinatorJoin.new : CoordinatorJoin := ⟨true, none⟩

/-- `finish`, given how the thread ended.  There is no value when the handle is gone although no
    outcome was stored (the `expect` of the source). -/
def CoordinatorJoin.finish (join : CoordinatorJoin) (thread : CoordinatorJoinOutcome)
    (result : Except AtomicBlobStoreError Unit) :
    Option (Except AtomicBlobStoreError Unit × CoordinatorJoin) :=
  let finished := match join.outcome with
    | some outcome => some (outcome, join)
    | none => if join.handle then some (thread, ⟨false, some thread⟩) else none
  finished.map fun (outcome, join) =>
    match outcome with
    | .joined => (result, join)
    | .panicked => (.error .shutdownFailure, join)

/-! ## The callers

  A close call goes through three stages of its own, and each is a step: any number of calls can be
  under way at once, at different stages, while the store goes on. -/

/-- Where a close call is: on its way to a result, on its way to the coordinator's end with a result,
    or back.  `seen` is the lifecycle it read when its reply channel was disconnected. -/
inductive Closer
  /-- The close was made, and its result is not known to the caller. -/
  | waiting
  /-- The caller has a result, and waits for the coordinator thread. -/
  | finishing (seen : Option Lifecycle) (result : Except AtomicBlobStoreError Unit)
  /-- The call has returned. -/
  | returned (seen : Option Lifecycle) (result : Except AtomicBlobStoreError Unit)

/-- A store with its close calls, by the ticket of their reply channel; `owner` holds the join
    mutex. -/
structure ClosingStore where
  /-- The store. -/
  store : FailingStore
  /-- Where every close call is. -/
  closers : Ticket → Closer
  /-- The coordinator's join handle. -/
  join : CoordinatorJoin
  /-- The call that holds the mutex of the handle. -/
  owner : Option Ticket

/-- What a close call makes of a disconnected reply channel. -/
def disconnectedResult : Lifecycle → Except AtomicBlobStoreError Unit
  | .closed => .ok ()
  | .shutdownFailed => .error .shutdownFailure
  | .failed => .error .shutdownFailure
  | .opened => .error .engineFailed
  | .closing => .error .engineFailed

/-- The result a close call is given: by the lifecycle it found, by the coordinator's answer, or by
    the drain after a panic. -/
inductive Heard (f : FailingStore) (t : Ticket) : Except AtomicBlobStoreError Unit → Prop
  /-- The call found the lifecycle at its end. -/
  | resolved (result : Except AtomicBlobStoreError Unit)
      (h : .resolved (.close ⟨t⟩) result ∈ f.engine.log) : Heard f t result
  /-- The coordinator answered it. -/
  | answered (result : Except AtomicBlobStoreError Unit) (hcall : .close ⟨t⟩ ∈ entered f.engine.log)
      (h : .answered ⟨none, t⟩ result ∈ f.engine.log) : Heard f t result
  /-- The drain after a panic answered it. -/
  | failed (e : AtomicBlobStoreError) (hcall : .close ⟨t⟩ ∈ entered f.engine.log)
      (h : .failed ⟨none, t⟩ e ∈ f.aftermath) : Heard f t (.error e)

section Closing

variable (config : StoreConfig) (fates : Nat → Fate)

/-- One step of the store or of a close call.  The coordinator thread has ended when its receiver is
    dropped, and it always ends well: it catches the panic of `run_scheduler`.  The owner of the mutex
    is the only one to join; the others find the outcome when their turn comes. -/
inductive CloseStep : ClosingStore → ClosingStore → Prop
  /-- The store takes a step; the callers do not. -/
  | store {c : ClosingStore} (f : FailingStore) (h : FailingStep config fates c.store f) :
      CloseStep c { c with store := f }
  /-- A call is told its result. -/
  | reply {c : ClosingStore} (t : Ticket) (result : Except AtomicBlobStoreError Unit)
      (hwait : c.closers t = .waiting) (h : Heard c.store t result) :
      CloseStep c { c with closers := Function.update c.closers t (.finishing none result) }
  /-- A call finds its reply channel disconnected, and makes its result from the lifecycle it reads at
      this moment. -/
  | disconnected {c : ClosingStore} (t : Ticket) (hwait : c.closers t = .waiting)
      (hcall : .close ⟨t⟩ ∈ entered c.store.engine.log)
      (h : .disconnected ⟨none, t⟩ ∈ c.store.aftermath) :
      CloseStep c { c with
        closers := Function.update c.closers t (.finishing (some c.store.engine.lifecycle)
          (disconnectedResult c.store.engine.lifecycle)) }
  /-- A call takes the join mutex. -/
  | lock {c : ClosingStore} (t : Ticket) (seen : Option Lifecycle)
      (result : Except AtomicBlobStoreError Unit) (hfinish : c.closers t = .finishing seen result)
      (hfree : c.owner = none) : CloseStep c { c with owner := some t }
  /-- Its owner joins the coordinator, waiting for it if nobody has joined it yet, and returns. -/
  | finish {c : ClosingStore} (t : Ticket) (seen : Option Lifecycle)
      (result result' : Except AtomicBlobStoreError Unit) (join : CoordinatorJoin)
      (howner : c.owner = some t) (hfinish : c.closers t = .finishing seen result)
      (hended : c.join.outcome ≠ none ∨ c.store.engine.phase = .dropped)
      (hjoin : c.join.finish .joined result = some (result', join)) :
      CloseStep c { c with
        closers := Function.update c.closers t (.returned seen result'), join := join, owner := none }

/-- The store with its close calls, as a transition system. -/
def closingSystem : System ClosingStore where
  init c := c = ⟨.initial config, fun _ => .waiting, .new, none⟩
  step := CloseStep config fates

/-- A caller whose reply channel was disconnected goes on only when the lifecycle is no longer open or
    closing: after the unwinding has set it to failed. -/
def ReadsLate (c c' : ClosingStore) : Prop :=
  ∀ t, .disconnected ⟨none, t⟩ ∈ c.store.aftermath → c.closers t = .waiting → c'.closers t ≠ .waiting →
    c.store.engine.lifecycle ≠ .opened ∧ c.store.engine.lifecycle ≠ .closing

/-- The runs in which every step reads late. -/
def patientSystem : System ClosingStore where
  init := (closingSystem config fates).init
  step c c' := CloseStep config fates c c' ∧ ReadsLate c c'

end Closing

/-! ## Closes of a store that does not panic

  Everything a close can be told is decided when the pool goes down: joining the workers has one
  result, and the lifecycle and the answers are made from it. -/

/-- What the history of a store says about its end: how the pool went down decides the lifecycle and
    every answer to a close. -/
structure Verdict (s : Engine) : Prop where
  /-- The pool is down by the time of the drain. -/
  draining : ∀ ok, s.phase = .draining ok → .stopped ok ∈ s.log
  /-- The lifecycle ends as the pool went down, unless there was nobody to be told. -/
  lifecycle : s.lifecycle = .closed ∨ s.lifecycle = .shutdownFailed →
    (∃ ok, .stopped ok ∈ s.log ∧ s.lifecycle = endLifecycle ok) ∨ s.handles = 0
  /-- The pool goes down once. -/
  unique : ∀ ok ok', .stopped ok ∈ s.log → .stopped ok' ∈ s.log → ok = ok'
  /-- Closes that were answered were told how it went down, -/
  answered : ∀ t result, .close ⟨t⟩ ∈ entered s.log → .answered ⟨none, t⟩ result ∈ s.log →
    ∃ ok, .stopped ok ∈ s.log ∧ result = closeResult ok
  /-- and so were those that came late. -/
  resolved : ∀ t result, .resolved (.close ⟨t⟩) result ∈ s.log →
    ∃ ok, .stopped ok ∈ s.log ∧ result = closeResult ok

section Verdict

variable {config : StoreConfig} {fates : Nat → Fate} {s s' : Engine}

/-- Before the pool is shut down no close is answered. -/
theorem closes_unanswered (h : Inv config s) (hstopped : ¬Stopped s.log) (t : Ticket)
    (result : Except AtomicBlobStoreError Unit) :
    (.close ⟨t⟩ ∈ entered s.log → .answered ⟨none, t⟩ result ∉ s.log) ∧
      .resolved (.close ⟨t⟩) result ∉ s.log := by
  refine ⟨fun hcall hmem => ?_, fun hmem => ?_⟩
  · obtain ⟨front, back, hlog⟩ := List.append_of_mem hmem
    obtain ⟨r, hr, horigin, hlawful⟩ := h.lawful front _ back hlog
    have hr' : r ∈ entered s.log := by
      rw [hlog, entered_append]
      exact List.mem_append_left _ hr
    obtain rfl := eq_of_origin h hr' hcall horigin
    rw [if_pos (show (PendingEvent.close ⟨t⟩).isClose = true from rfl)] at hlawful
    exact hstopped (by rw [hlog]; exact hlawful.append _)
  · obtain ⟨front, back, hlog⟩ := List.append_of_mem hmem
    have hlawful : Stopped front := h.lawful front _ back hlog
    exact hstopped (by rw [hlog]; exact hlawful.append _)

/-- Nor has the store ended. -/
theorem Verdict.of_unstopped (h : Inv config s) (hstopped : ¬Stopped s.log) : Verdict s where
  draining ok hphase := by
    refine absurd (h.stopped.mpr ?_) hstopped
    rw [(h.draining ok hphase).1]
    exact endLifecycle_cases ok
  lifecycle hlock := absurd (h.stopped.mpr hlock) hstopped
  unique ok ok' hmem := absurd ⟨ok, hmem⟩ hstopped
  answered t result hcall hmem := absurd hmem ((closes_unanswered h hstopped t result).1 hcall)
  resolved t result hmem := absurd hmem (closes_unanswered h hstopped t result).2

/-- A running store has not been shut down. -/
theorem unstopped_of_alive (h : Inv config s) (hphase : s.phase = .running ∨ s.phase = .joining) :
    ¬Stopped s.log := by
  intro hstopped
  have hlock := h.alive hphase
  rcases h.stopped.mp hstopped with hlock' | hlock'
  · rw [hlock'] at hlock
    split at hlock <;> nomatch hlock
  · rw [hlock'] at hlock
    split at hlock <;> nomatch hlock

/-- Entries that are about neither the pool nor a close leave the verdict. -/
theorem Verdict.grow (h : Verdict s) (more : List Observation) (hlog : s'.log = s.log ++ more)
    (hphase : ∀ ok, s'.phase = .draining ok → s.phase = .draining ok)
    (hlock : s'.lifecycle = s.lifecycle) (hhandles : s.handles = 0 → s'.handles = 0)
    (hstopped : ∀ ok, .stopped ok ∉ more) (hentered : entered more = [])
    (hanswered : ∀ t result, .close ⟨t⟩ ∈ entered s.log → .answered ⟨none, t⟩ result ∈ more →
      ∃ ok, .stopped ok ∈ s.log ∧ result = closeResult ok)
    (hresolved : ∀ t result, .resolved (.close ⟨t⟩) result ∈ more →
      ∃ ok, .stopped ok ∈ s.log ∧ result = closeResult ok) : Verdict s' := by
  have hold : ∀ ok, .stopped ok ∈ s'.log ↔ .stopped ok ∈ s.log := by
    intro ok
    rw [hlog, List.mem_append]
    exact or_iff_left (hstopped ok)
  have hsame : entered s'.log = entered s.log := by
    rw [hlog, entered_append, hentered, List.append_nil]
  refine ⟨fun ok hphase' => ?_, fun hlock' => ?_, fun ok ok' hok hok' => ?_,
    fun t result hcall hmem => ?_, fun t result hmem => ?_⟩
  · rw [hold]
    exact h.draining ok (hphase ok hphase')
  · rw [hlock] at hlock' ⊢
    rcases h.lifecycle hlock' with ⟨ok, hok, heq⟩ | hnone
    · exact Or.inl ⟨ok, (hold ok).mpr hok, heq⟩
    · exact Or.inr (hhandles hnone)
  · exact h.unique ok ok' ((hold ok).mp hok) ((hold ok').mp hok')
  · simp only [hold]
    rw [hsame] at hcall
    rw [hlog] at hmem
    rcases List.mem_append.mp hmem with hmem | hmem
    · exact h.answered t result hcall hmem
    · exact hanswered t result hcall hmem
  · simp only [hold]
    rw [hlog] at hmem
    rcases List.mem_append.mp hmem with hmem | hmem
    · exact h.resolved t result hmem
    · exact hresolved t result hmem

/-- A call resolved by its own thread reports the lifecycle it found. -/
theorem Verdict.resolve (h : Verdict s) (r : PendingEvent) (result : Except AtomicBlobStoreError Unit)
    (hclose : r.isClose = true → ∃ ok, .stopped ok ∈ s.log ∧ result = closeResult ok) :
    Verdict (resolve r result s) := by
  refine h.grow [.resolved r result] rfl (fun ok hphase => hphase) rfl id (by simp) rfl ?_ ?_
  · intro t result' _ hmem
    simp at hmem
  · intro t result' hmem
    obtain ⟨rfl, rfl⟩ : PendingEvent.close ⟨t⟩ = r ∧ result' = result := by simpa using hmem
    exact hclose rfl

/-! ## Phases while the coordinator runs

  Handling an event never brings the coordinator to its end.  This is needed because a verdict has to
  be final: a step that changes it would have to come from a store that has already stopped. -/

/-- Dispatching knows nothing of phases, whatever it finds. -/
theorem dispatchIfIdle_phase (key : KeyHash) (s : Engine) :
    (dispatchIfIdle config fates key s).phase = s.phase := by
  unfold dispatchIfIdle
  split
  · rfl
  split
  · rfl
  rename_i op queues hpop
  simp only []
  generalize s.pool.prepare (fates s.clock).spawn (s.active.card + 1) = prep
  obtain ⟨prepared, pool⟩ := prep
  cases prepared with
  | error e => rfl
  | ok u =>
    simp only []
    cases WorkerPool.prepareDispatch (fates s.clock).dispatch with
    | error e => rfl
    | ok u =>
      simp only []
      split <;> rfl

theorem dispatchAvailableLoop_phase : ∀ (fuel : Nat) (s : Engine),
    (dispatchAvailableLoop config fates fuel s).phase = s.phase := by
  intro fuel
  induction fuel with
  | zero => exact fun s => rfl
  | succ fuel ih =>
    intro s
    unfold dispatchAvailableLoop
    split
    · split
      · rfl
      · rw [ih, dispatchIfIdle_phase]
    · rfl

theorem dispatchMaintenance_phase (sub : MaintenanceSubmission) (s : Engine) :
    (dispatchMaintenance fates sub s).phase = s.phase := by
  unfold dispatchMaintenance
  simp only []
  generalize s.pool.prepare (fates s.clock).spawn 1 = prep
  obtain ⟨prepared, pool⟩ := prep
  cases prepared with
  | error e => rfl
  | ok u =>
    simp only []
    cases WorkerPool.prepareDispatch (fates s.clock).dispatch with
    | error e => rfl
    | ok u =>
      simp only []
      split <;> rfl

/-- The loop over the pending list only removes from it. -/
theorem advancePending_phase : ∀ (pending : List PendingEvent) (s : Engine),
    (advancePending config fates pending s).phase = s.phase := by
  intro pending
  induction pending with
  | nil => exact fun s => rfl
  | cons r rest ih =>
    intro s
    cases r with
    | maintenance sub =>
      unfold advancePending
      split
      · rfl
      · rw [dispatchMaintenance_phase]
        rfl
    | submission sub =>
      unfold advancePending
      rw [ih, dispatchIfIdle_phase]
      rfl
    | flush sender =>
      unfold advancePending
      split
      · rfl
      · rw [ih]
        rfl
    | close sub => rfl

theorem advancePendingIfReady_phase (s : Engine) :
    (advancePendingIfReady config fates s).phase = s.phase := by
  unfold advancePendingIfReady
  split
  · rfl
  · exact advancePending_phase _ _

/-- The check at the end of every arm decides whether the loop is left. -/
theorem shutdownIfDrained_phase (s : Engine) (hphase : s.phase = .running) :
    (shutdownIfDrained s).phase = .running ∨ (shutdownIfDrained s).phase = .joining := by
  unfold shutdownIfDrained
  split
  · exact Or.inr rfl
  · exact Or.inl hphase

/-- Handling an event leaves the coordinator in its loop, or about to join the workers. -/
theorem onEvent_phase (ev : CoordinatorEvent) (s : Engine) (hphase : s.phase = .running) :
    (onEvent config fates ev s).phase = .running ∨ (onEvent config fates ev s).phase = .joining := by
  have hadvance : ∀ s : Engine, s.phase = .running →
      (shutdownIfDrained (advancePendingIfReady config fates s)).phase = .running ∨
        (shutdownIfDrained (advancePendingIfReady config fates s)).phase = .joining := fun s hs =>
    shutdownIfDrained_phase _ ((advancePendingIfReady_phase s).trans hs)
  cases ev with
  | submission sub =>
    unfold onEvent onSubmission
    simp only []
    split
    · exact Or.inl hphase
    split
    · exact Or.inl hphase
    · refine shutdownIfDrained_phase _ ?_
      unfold dispatchAvailable
      rw [dispatchAvailableLoop_phase, dispatchIfIdle_phase]
      exact hphase
  | completion done =>
    unfold onEvent onCompletion
    simp only []
    refine hadvance _ ?_
    have hdispatched : ∀ s : Engine, s.phase = .running →
        (dispatchAvailable config fates (dispatchIfIdle config fates done.keyHash s)).phase =
          .running := by
      intro s hs
      unfold dispatchAvailable
      rw [dispatchAvailableLoop_phase, dispatchIfIdle_phase]
      exact hs
    split
    · simp only [deliver, Engine.observe]
      split <;> exact hdispatched _ hphase
    · split <;> exact hdispatched _ hphase
  | maintenance sub =>
    unfold onEvent onMaintenance
    simp only []
    split
    · exact Or.inl hphase
    · exact hadvance _ hphase
  | maintenanceCompletion done =>
    unfold onEvent onMaintenanceCompletion
    simp only []
    refine hadvance _ ?_
    split <;> exact hphase
  | flush sender =>
    unfold onEvent onFlush
    simp only []
    split
    · exact Or.inl hphase
    · exact hadvance _ hphase
  | close sub =>
    unfold onEvent onClose
    simp only []
    refine hadvance _ ?_
    split <;> exact hphase

/-! ## Every step keeps the verdict

  Before the pool is shut down there is nothing to be decided, and one step decides it.  Afterwards
  the steps of callers repeat what the lifecycle says. -/

/-- A call that is no close says nothing about closes. -/
theorem Verdict.submit (h : Verdict s) (hinv : Inv config s) (hstopped : Stopped s.log)
    (r : PendingEvent) (hclose : r.isClose = false) : Verdict (submit r s) := by
  have hnot : r.isClose = true → ∃ ok, .stopped ok ∈ s.log ∧ (Except.error
      AtomicBlobStoreError.storeClosed : Except AtomicBlobStoreError Unit) = closeResult ok := by
    simp [hclose]
  unfold AtomicBlobStore.submit
  rcases hinv.stopped.mp hstopped with hlock | hlock
  · rw [hlock]
    exact h.resolve r _ hnot
  · rw [hlock]
    exact h.resolve r _ hnot

theorem Verdict.precheck (h : Verdict s) (hinv : Inv config s) (hstopped : Stopped s.log)
    (r : PendingEvent) (hclose : r.isClose = false) : Verdict (precheck config r s) := by
  have hnot : r.isClose = true → ∃ ok, .stopped ok ∈ s.log ∧ (Except.error
      AtomicBlobStoreError.storeClosed : Except AtomicBlobStoreError Unit) = closeResult ok := by
    simp [hclose]
  unfold AtomicBlobStore.precheck ensureOpen
  rcases hinv.stopped.mp hstopped with hlock | hlock
  · rw [hlock]
    exact h.resolve r _ hnot
  · rw [hlock]
    exact h.resolve r _ hnot

/-- **A close that finds the store shut down reports how it went down.** -/
theorem Verdict.close (h : Verdict s) (hinv : Inv config s) (hstopped : Stopped s.log)
    (sub : CloseSubmission) (hhandle : 0 < s.handles) : Verdict (close sub s) := by
  unfold AtomicBlobStore.close
  have hlock := hinv.stopped.mp hstopped
  rcases h.lifecycle hlock with ⟨ok, hok, hend⟩ | hnone
  · cases ok with
    | true =>
      rw [show s.lifecycle = .closed from hend]
      exact h.resolve (.close sub) _ fun _ => ⟨true, hok, rfl⟩
    | false =>
      rw [show s.lifecycle = .shutdownFailed from hend]
      exact h.resolve (.close sub) _ fun _ => ⟨false, hok, rfl⟩
  · omega

/-- **The decision**: the pool goes down, the lifecycle is set, and all pending closes are answered,
    all with one value. -/
theorem Verdict.finishShutdown (hinv : Inv config s) (ok : Bool) (hphase : s.phase = .joining) :
    Verdict (finishShutdown ok s) := by
  have hstopped := unstopped_of_alive hinv (Or.inr hphase)
  have hnew : ∀ ok', .stopped ok' ∈ (AtomicBlobStore.finishShutdown ok s).log ↔ ok' = ok := by
    intro ok'
    constructor
    · intro hmem
      rcases List.mem_append.mp hmem with hmem | hmem
      · exact absurd ⟨ok', hmem⟩ hstopped
      · simpa using hmem
    · rintro rfl
      exact List.mem_append_right _ (by simp)
  refine ⟨fun ok' hphase' => ?_, fun _ => Or.inl ⟨ok, (hnew ok).mpr rfl, rfl⟩,
    fun a b ha hb => ((hnew a).mp ha).trans ((hnew b).mp hb).symm,
    fun t result hcall hmem => ⟨ok, (hnew ok).mpr rfl, ?_⟩, fun t result hmem => ?_⟩
  · exact (hnew ok').mpr (Phase.draining.inj hphase').symm
  · have hcall' : PendingEvent.close ⟨t⟩ ∈ entered s.log := by
      simpa [AtomicBlobStore.finishShutdown, Engine.observe, List.filterMap_map,
        Function.comp_def] using hcall
    rcases List.mem_append.mp hmem with hmem | hmem
    · exact absurd hmem ((closes_unanswered hinv hstopped t result).1 hcall')
    · rcases List.mem_append.mp hmem with hmem | hmem
      · simp at hmem
      · obtain ⟨r, -, heq⟩ := List.mem_map.mp hmem
        exact (Observation.answered.inj heq).2.symm
  · rcases List.mem_append.mp hmem with hmem | hmem
    · exact absurd hmem (closes_unanswered hinv hstopped t result).2
    · simp at hmem

/-- A close that was sent before the lifecycle moved, and is found by the drain, is answered with the
    same value. -/
theorem Verdict.drainEvent (h : Verdict s) (ok : Bool) (ev : CoordinatorEvent)
    (rest : List CoordinatorEvent) (hphase : s.phase = .draining ok) :
    Verdict (drainEvent ok ev { s with channel := rest }) := by
  have hok := h.draining ok hphase
  cases ev with
  | close sub =>
    refine h.grow [.received (.close sub), .answered ⟨none, sub.sender⟩ (closeResult ok)] rfl
      (fun ok hphase => hphase) rfl id (by simp) rfl ?_ ?_
    · intro t result _ hmem
      obtain ⟨-, rfl⟩ : t = sub.sender ∧ result = closeResult ok := by simpa using hmem
      exact ⟨ok, hok, rfl⟩
    · intro t result hmem
      simp at hmem
  | submission sub =>
    refine h.grow [.received (.submission sub), .rejected (sub.operation.origin sub.keyHash) .storeClosed]
      (by simp [AtomicBlobStore.drainEvent, deliverError, Engine.observe])
      (fun ok hphase => hphase) rfl id (by simp) rfl ?_ ?_
    · intro t result _ hmem
      simp at hmem
    · intro t result hmem
      simp at hmem
  | maintenance sub =>
    refine h.grow [.received (.maintenance sub), .rejected ⟨none, sub.sender⟩ .storeClosed] rfl
      (fun ok hphase => hphase) rfl id (by simp) rfl ?_ ?_
    · intro t result _ hmem
      simp at hmem
    · intro t result hmem
      simp at hmem
  | flush sender =>
    refine h.grow [.received (.flush sender), .rejected ⟨none, sender⟩ .storeClosed] rfl
      (fun ok hphase => hphase) rfl id (by simp) rfl ?_ ?_
    · intro t result _ hmem
      simp at hmem
    · intro t result hmem
      simp at hmem
  | completion done => exact ⟨h.draining, h.lifecycle, h.unique, h.answered, h.resolved⟩
  | maintenanceCompletion done => exact ⟨h.draining, h.lifecycle, h.unique, h.answered, h.resolved⟩

/-- A store whose last handle is gone decides too, though nobody is left to be told. -/
theorem Verdict.disconnect (hinv : Inv config s) (ok : Bool) (hphase : s.phase = .running)
    (hgone : s.Disconnected) : Verdict (finishDisconnected ok s) := by
  have hstopped := unstopped_of_alive hinv (Or.inl hphase)
  have hlock : s.lifecycle ≠ .closed := fun hlock => hstopped (hinv.stopped.mpr (Or.inl hlock))
  have hstate : finishDisconnected ok s = { s.observe [.stopped ok, .moved .closed] with
      lifecycle := .closed, phase := .returned
      pool := { s.pool with sender := false, handles := 0 } } := by
    unfold finishDisconnected
    simp [Engine.observe, hlock]
  rw [hstate]
  have hnew : ∀ ok', .stopped ok' ∈ s.log ++ [.stopped ok, .moved .closed] ↔ ok' = ok := by
    intro ok'
    constructor
    · intro hmem
      rcases List.mem_append.mp hmem with hmem | hmem
      · exact absurd ⟨ok', hmem⟩ hstopped
      · simpa using hmem
    · rintro rfl
      exact List.mem_append_right _ (by simp)
  refine ⟨fun ok' hphase' => (nomatch hphase'), fun _ => Or.inr hgone.handles,
    fun a b ha hb => ((hnew a).mp ha).trans ((hnew b).mp hb).symm,
    fun t result hcall hmem => ?_, fun t result hmem => ?_⟩
  · have hcall' : PendingEvent.close ⟨t⟩ ∈ entered s.log := by
      simpa [Engine.observe] using hcall
    rcases List.mem_append.mp hmem with hmem | hmem
    · exact absurd hmem ((closes_unanswered hinv hstopped t result).1 hcall')
    · simp at hmem
  · rcases List.mem_append.mp hmem with hmem | hmem
    · exact absurd hmem (closes_unanswered hinv hstopped t result).2
    · simp at hmem

/-- The steps one after another. -/
theorem Verdict.step (h : Verdict s) (hinv : Inv config s) (hinv' : Inv config s')
    (hstep : Step config fates s s') : Verdict s' := by
  by_cases hstopped' : Stopped s'.log
  swap
  · exact .of_unstopped hinv' hstopped'
  -- a step that only touches other things
  have hsame : ∀ more : List Observation, s'.log = s.log ++ more → s'.phase = s.phase →
      s'.lifecycle = s.lifecycle → (s.handles = 0 → s'.handles = 0) →
      (∀ entry ∈ more, entry.outside = true ∧ entered more = [] ∧
        ∀ r result, entry ≠ .resolved r result) → Verdict s' := by
    intro more hlog hphase hlock hhandles hmore
    refine h.grow more hlog (fun ok hok => hphase ▸ hok) hlock hhandles ?_ ?_ ?_ ?_
    · intro ok hmem
      cases (hmore _ hmem).1
    · cases more with
      | nil => rfl
      | cons entry more => exact (hmore entry (List.mem_cons_self ..)).2.1
    · intro t result _ hmem
      cases (hmore _ hmem).1
    · intro t result hmem
      exact absurd rfl ((hmore _ hmem).2.2 _ _)
  cases hstep with
  | precheck r hhandle hclose hfresh =>
    by_cases hstopped : Stopped s.log
    · exact h.precheck hinv hstopped r hclose
    · -- before the end nothing a caller does shuts the pool down
      obtain ⟨ok, hmem⟩ := hstopped'
      refine absurd ⟨ok, ?_⟩ hstopped
      unfold AtomicBlobStore.precheck at hmem
      split at hmem
      · simpa [AtomicBlobStore.resolve, Engine.observe] using hmem
      · split at hmem
        · simpa [AtomicBlobStore.resolve, Engine.observe] using hmem
        · exact hmem
  | submit r hhandle hclose hvalid hfresh =>
    by_cases hstopped : Stopped s.log
    · exact h.submit hinv hstopped r hclose
    · obtain ⟨ok, hmem⟩ := hstopped'
      refine absurd ⟨ok, ?_⟩ hstopped
      unfold AtomicBlobStore.submit at hmem
      split at hmem
      · split at hmem <;> simpa [AtomicBlobStore.resolve, enter, Engine.observe] using hmem
      all_goals simpa [AtomicBlobStore.resolve, Engine.observe] using hmem
  | close sub hhandle hfresh =>
    by_cases hstopped : Stopped s.log
    · exact h.close hinv hstopped sub hhandle
    · obtain ⟨ok, hmem⟩ := hstopped'
      refine absurd ⟨ok, ?_⟩ hstopped
      unfold AtomicBlobStore.close at hmem
      split at hmem
      · simpa [AtomicBlobStore.resolve, Engine.observe] using hmem
      · simpa [AtomicBlobStore.resolve, Engine.observe] using hmem
      · simpa [AtomicBlobStore.resolve, Engine.observe] using hmem
      all_goals split at hmem <;> simpa [AtomicBlobStore.resolve, enter, Engine.observe] using hmem
  | cloneHandle hhandle =>
    exact hsame [] (List.append_nil _).symm rfl rfl (fun hzero => by omega) (by simp)
  | dropHandle hhandle =>
    refine hsame [] (List.append_nil _).symm rfl rfl (fun hzero => ?_) (by simp)
    show s.handles - 1 = 0
    omega
  | dropWaiter ticket => exact hsame [] (List.append_nil _).symm rfl rfl id (by simp)
  | event ev rest hphase hchannel =>
    refine absurd hstopped' (unstopped_of_alive hinv' (onEvent_phase ev _ ?_))
    exact hphase
  | startJob job rest hjobs hthread =>
    exact hsame [.executed job.origin] rfl rfl rfl id (by simp [Observation.outside])
  | finishJob front back job ev entries hrunning hend =>
    rcases hend.entries with ⟨rfl, -⟩ | ⟨rfl, -⟩
    · exact hsame [] rfl rfl rfl id (by simp)
    · exact hsame [.lost job.origin] rfl rfl rfl id (by simp [Observation.outside])
  | finishShutdown ok hphase hjobs hrunning => exact .finishShutdown hinv ok hphase
  | drainEvent ok ev rest hphase hchannel => exact h.drainEvent ok ev rest hphase
  | leave ok hphase hchannel =>
    exact ⟨fun ok' hphase' => Phase.noConfusion hphase', h.lifecycle, h.unique, h.answered, h.resolved⟩
  | disconnect ok hphase hgone => exact .disconnect hinv ok hphase hgone
  | dropReceiver hphase =>
    exact ⟨fun ok' hphase' => Phase.noConfusion hphase', h.lifecycle, h.unique, h.answered, h.resolved⟩

/-- **In a store that does not panic, how the pool went down decides every close.** -/
theorem verdict_reachable (h : (engineSystem config fates).Reachable s) : Verdict s := by
  refine System.Reachable.invariant (P := Verdict) ?_ ?_ h
  · rintro s rfl
    exact .of_unstopped (.initial config) (by simp [Stopped, Engine.initial])
  · intro s s' hreach hverdict hstep
    exact hverdict.step (inv_reachable hreach).1 (inv_reachable (hreach.step hstep)).1 hstep

end Verdict

section Callers

variable {config : StoreConfig} {fates : Nat → Fate} {s s' : Engine}

/-! ## What grows

  What a caller has heard stays true, because it was heard from things that only grow: the history,
  the aftermath of a panic, and the end of the coordinator thread. -/

theorem Move.log_grows (hm : Move config s s') : s.log <+: s'.log := by
  cases hm <;> first
    | exact List.prefix_refl _
    | exact List.prefix_append _ _

theorem Step.log_grows (h : (engineSystem config fates).Reachable s) (hstep : Step config fates s s') :
    s.log <+: s'.log := by
  obtain ⟨hinv, hs⟩ := inv_reachable h
  have hmoves := (moves_of_step hinv hs hstep).1
  clear hstep
  induction hmoves with
  | refl => exact List.prefix_refl _
  | tail _ hm ih => exact ih.trans hm.log_grows

/-- A step keeps the history, the aftermath, and the end of the coordinator thread. -/
structure Grows (f f' : FailingStore) : Prop where
  /-- The history, -/
  log : f.engine.log <+: f'.engine.log
  /-- what was sent after a panic, -/
  aftermath : f.aftermath <+: f'.aftermath
  /-- and the end of the coordinator. -/
  ended : f.engine.phase = .dropped → f'.engine.phase = .dropped

theorem Bystander.ended (h : Bystander config s s') (hphase : s.phase = .dropped) :
    s'.phase = .dropped := by
  cases h with
  | precheck r hhandle hclose hfresh =>
    unfold AtomicBlobStore.precheck
    split
    · exact hphase
    · split <;> exact hphase
  | submit r hhandle hclose hvalid hfresh =>
    unfold AtomicBlobStore.submit
    split
    · split <;> exact hphase
    all_goals exact hphase
  | close sub hhandle hfresh =>
    unfold AtomicBlobStore.close
    split
    · exact hphase
    · exact hphase
    · exact hphase
    all_goals split <;> exact hphase
  | cloneHandle hhandle => exact hphase
  | dropHandle hhandle => exact hphase
  | dropWaiter ticket => exact hphase
  | startJob job rest hjobs hthread => exact hphase
  | finishJob front back job ev entries hrunning hend => exact hphase

/-- Once the coordinator is gone only callers and workers take steps. -/
theorem Step.bystander (h : Step config fates s s') (hphase : s.phase = .dropped) :
    Bystander config s s' := by
  cases h with
  | precheck r hhandle hclose hfresh => exact .precheck r hhandle hclose hfresh
  | submit r hhandle hclose hvalid hfresh => exact .submit r hhandle hclose hvalid hfresh
  | close sub hhandle hfresh => exact .close sub hhandle hfresh
  | cloneHandle hhandle => exact .cloneHandle hhandle
  | dropHandle hhandle => exact .dropHandle hhandle
  | dropWaiter ticket => exact .dropWaiter ticket
  | startJob job rest hjobs hthread => exact .startJob job rest hjobs hthread
  | finishJob front back job ev entries hrunning hend =>
    exact .finishJob front back job ev entries hrunning hend
  | event ev rest hphase' => rw [hphase] at hphase'; nomatch hphase'
  | finishShutdown ok hphase' => rw [hphase] at hphase'; nomatch hphase'
  | drainEvent ok ev rest hphase' => rw [hphase] at hphase'; nomatch hphase'
  | leave ok hphase' => rw [hphase] at hphase'; nomatch hphase'
  | disconnect ok hphase' => rw [hphase] at hphase'; nomatch hphase'
  | dropReceiver hphase' => rw [hphase] at hphase'; nomatch hphase'

/-- No step takes any of them back. -/
theorem FailingStep.grows {f f' : FailingStore} (h : (failingSystem config fates).Reachable f)
    (hstep : FailingStep config fates f f') : Grows f f' := by
  cases hstep with
  | step s' hup hs =>
    have hsound := sound_reachable h
    unfold Sound at hsound
    rw [hup] at hsound
    exact ⟨hs.log_grows hsound.1, List.prefix_refl _,
      fun hphase => (hs.bystander hphase).ended hphase⟩
  | bystander s' u hdown hby =>
    have hlost := lost_reachable h hdown
    have heffect := hby.effect hlost.unstopped fun hdropped => hlost.failed_iff.mpr (by
      rw [hlost.phase hdropped]
      decide)
    obtain ⟨more, hlog, -⟩ := heffect.history
    exact ⟨⟨more, hlog.symm⟩, List.prefix_refl _, hby.ended⟩
  | panic ev rest hup hphase => exact ⟨List.prefix_refl _, List.prefix_refl _, id⟩
  | dropEvent ev hdown => exact ⟨List.prefix_refl _, List.prefix_append _ _, id⟩
  | dropPending hdown => exact ⟨List.prefix_refl _, List.prefix_append _ _, id⟩
  | dropQueues hdown => exact ⟨List.prefix_refl _, List.prefix_append _ _, id⟩
  | dropPool hdown => exact ⟨List.prefix_refl _, List.prefix_refl _, id⟩
  | caught hdown => exact ⟨List.prefix_refl _, List.prefix_refl _, id⟩
  | fail hdown => exact ⟨List.prefix_append _ _, List.prefix_refl _, id⟩
  | drainEvent ev rest hdown => exact ⟨List.prefix_refl _, List.prefix_append _ _, id⟩
  | leave hdown => exact ⟨List.prefix_refl _, List.prefix_refl _, id⟩
  | dropReceiver hdown => exact ⟨List.prefix_refl _, List.prefix_refl _, fun _ => rfl⟩

/-- So what was heard stays heard. -/
theorem Heard.grow {f f' : FailingStore} (hgrows : Grows f f') {t : Ticket}
    {result : Except AtomicBlobStoreError Unit} (h : Heard f t result) : Heard f' t result := by
  have hentered : ∀ r, r ∈ entered f.engine.log → r ∈ entered f'.engine.log := fun r hr =>
    (hgrows.log.sublist.filterMap _).subset hr
  cases h with
  | resolved result h => exact .resolved result (hgrows.log.subset h)
  | answered result hcall h => exact .answered result (hentered _ hcall) (hgrows.log.subset h)
  | failed e hcall h => exact .failed e (hentered _ hcall) (hgrows.aftermath.subset h)

/-! ## What the callers have learnt

  A result a call was given is the outcome of the store, except where it was read off a lifecycle that
  the unwinding had not reached.  `Called` keeps the lifecycle it was read off, so that the exception
  is visible. -/

/-- The coordinator drained, and all workers were joined without a panic. -/
def Drains (f : FailingStore) : Prop := f.unwinding = none ∧ .stopped true ∈ f.engine.log

/-- The one outcome that every close reports. -/
def Outcome (f : FailingStore) (result : Except AtomicBlobStoreError Unit) : Prop :=
  Drains f ∧ result = .ok () ∨ ¬Drains f ∧ result = .error .shutdownFailure

/-- **What a close call is told is the outcome.** -/
theorem outcome_of_heard {f : FailingStore} (h : (failingSystem config fates).Reachable f)
    {t : Ticket} {result : Except AtomicBlobStoreError Unit} (hheard : Heard f t result) :
    Outcome f result := by
  have hsound := sound_reachable h
  unfold Sound at hsound
  cases hu : f.unwinding with
  | none =>
    rw [hu] at hsound
    obtain ⟨hreach, haftermath⟩ := hsound
    have hverdict := verdict_reachable hreach
    have hclosed : ∃ ok, .stopped ok ∈ f.engine.log ∧ result = closeResult ok := by
      cases hheard with
      | resolved result hmem => exact hverdict.resolved t result hmem
      | answered result hcall hmem => exact hverdict.answered t result hcall hmem
      | failed e hcall hmem =>
        rw [haftermath] at hmem
        nomatch hmem
    obtain ⟨ok, hok, rfl⟩ := hclosed
    cases ok with
    | true => exact Or.inl ⟨⟨hu, hok⟩, rfl⟩
    | false =>
      refine Or.inr ⟨fun hdrains => ?_, rfl⟩
      nomatch hverdict.unique _ _ hok hdrains.2
  | some u =>
    rw [hu] at hsound
    have hlost : Lost f u := hsound
    refine Or.inr ⟨fun hdrains => ?_, ?_⟩
    · rw [hdrains.1] at hu
      nomatch hu
    · cases hheard with
      | resolved result hmem =>
        obtain ⟨front, back, hlog⟩ := List.append_of_mem hmem
        have hlate : Late front (.resolved (.close ⟨t⟩) result) := hlost.late front _ back hlog
        exact hlate (Or.inl rfl)
      | answered result hcall hmem =>
        obtain ⟨r, hr, hclose, horigin⟩ := hlost.answers _ result hmem
        obtain rfl := hlost.eq_of_origin hr hcall horigin
        nomatch hclose
      | failed e hcall hmem =>
        obtain ⟨r, hr, horigin, rfl⟩ := hlost.failures _ e hmem
        obtain rfl := hlost.eq_of_origin hr hcall horigin
        rfl

/-- The result a close call has, whether or not it still waits for the coordinator. -/
def Closer.Has (seen : Option Lifecycle) (result : Except AtomicBlobStoreError Unit)
    (closer : Closer) : Prop := closer = .finishing seen result ∨ closer = .returned seen result

/-- What is known of the close calls. -/
structure Called (config : StoreConfig) (fates : Nat → Fate) (c : ClosingStore) : Prop where
  /-- The store is one that can be reached. -/
  store : (failingSystem config fates).Reachable c.store
  /-- A result that was not read off the lifecycle was heard, -/
  heard : ∀ t result, (c.closers t).Has none result → Heard c.store t result
  /-- and one that was read off it is what it says; by then there was a panic. -/
  read : ∀ t l result, (c.closers t).Has (some l) result →
    result = disconnectedResult l ∧ c.store.unwinding ≠ none ∧
      (l = .opened ∨ l = .closing ∨ l = .failed)
  /-- A call that has returned did so after the coordinator had ended. -/
  returned : ∀ t seen result, c.closers t = .returned seen result → c.store.engine.phase = .dropped
  /-- The join handle was not taken, or the coordinator was joined. -/
  join : c.join = .new ∨ c.join = ⟨false, some .joined⟩ ∧ c.store.engine.phase = .dropped

theorem has_finishing {seen seen' : Option Lifecycle}
    {result result' : Except AtomicBlobStoreError Unit}
    (h : (Closer.finishing seen result).Has seen' result') : seen' = seen ∧ result' = result := by
  rcases h with h | h
  · obtain ⟨rfl, rfl⟩ := Closer.finishing.inj h
    exact ⟨rfl, rfl⟩
  · nomatch h

theorem has_returned {seen seen' : Option Lifecycle}
    {result result' : Except AtomicBlobStoreError Unit}
    (h : (Closer.returned seen result).Has seen' result') : seen' = seen ∧ result' = result := by
  rcases h with h | h
  · nomatch h
  · obtain ⟨rfl, rfl⟩ := Closer.returned.inj h
    exact ⟨rfl, rfl⟩

/-- One caller moves on, the others stay where they are. -/
theorem has_update {closers : Ticket → Closer} {t t' : Ticket} {closer : Closer}
    {seen : Option Lifecycle} {result : Except AtomicBlobStoreError Unit}
    (h : (Function.update closers t closer t').Has seen result) :
    t' = t ∧ closer.Has seen result ∨ t' ≠ t ∧ (closers t').Has seen result := by
  by_cases heq : t' = t
  · subst heq
    rw [Function.update_self] at h
    exact Or.inl ⟨rfl, h⟩
  · rw [Function.update_of_ne heq] at h
    exact Or.inr ⟨heq, h⟩

theorem returned_update {closers : Ticket → Closer} {t t' : Ticket} {closer : Closer}
    {seen : Option Lifecycle} {result : Except AtomicBlobStoreError Unit}
    (h : Function.update closers t closer t' = .returned seen result) :
    t' = t ∧ closer = .returned seen result ∨ closers t' = .returned seen result := by
  by_cases heq : t' = t
  · subst heq
    rw [Function.update_self] at h
    exact Or.inl ⟨rfl, h⟩
  · rw [Function.update_of_ne heq] at h
    exact Or.inr h

/-- The unwinding is not undone. -/
theorem unwinding_kept {f f' : FailingStore} (h : (failingSystem config fates).Reachable f)
    (hstep : FailingStep config fates f f') (hdown : f.unwinding ≠ none) : f'.unwinding ≠ none := by
  obtain ⟨u, hu⟩ := Option.ne_none_iff_exists'.mp hdown
  obtain ⟨u', hu', -⟩ := (lost_reachable h hu).step hu hstep
  rw [hu']
  exact Option.some_ne_none u'

/-- Joining a coordinator that caught its panic changes no result. -/
theorem finish_joined {join join' : CoordinatorJoin} {result result' : Except AtomicBlobStoreError Unit}
    (hjoin : join = .new ∨ join = ⟨false, some .joined⟩)
    (h : join.finish .joined result = some (result', join')) :
    result' = result ∧ join' = ⟨false, some .joined⟩ := by
  rcases hjoin with rfl | rfl
  · obtain ⟨rfl, rfl⟩ := Prod.mk.inj (Option.some.inj h)
    exact ⟨rfl, rfl⟩
  · obtain ⟨rfl, rfl⟩ := Prod.mk.inj (Option.some.inj h)
    exact ⟨rfl, rfl⟩

/-- One caller moves at a time, and the store never makes a result false. -/
theorem Called.step {c c' : ClosingStore} (h : Called config fates c)
    (hstep : CloseStep config fates c c') : Called config fates c' := by
  cases hstep with
  | store f hf =>
    have hgrows := hf.grows h.store
    refine ⟨h.store.step hf, fun t result hhas => (h.heard t result hhas).grow hgrows,
      fun t l result hhas => ?_, fun t seen result hret => hgrows.ended (h.returned t seen result hret),
      h.join.imp_right fun hjoin => ⟨hjoin.1, hgrows.ended hjoin.2⟩⟩
    obtain ⟨hresult, hdown, hlock⟩ := h.read t l result hhas
    exact ⟨hresult, unwinding_kept h.store hf hdown, hlock⟩
  | reply t result hwait hheard =>
    refine ⟨h.store, fun t' result' hhas => ?_, fun t' l result' hhas => ?_,
      fun t' seen result' hret => ?_, h.join⟩
    · rcases has_update hhas with ⟨rfl, hnew⟩ | ⟨-, hold⟩
      · obtain ⟨-, rfl⟩ := has_finishing hnew
        exact hheard
      · exact h.heard t' result' hold
    · rcases has_update hhas with ⟨rfl, hnew⟩ | ⟨-, hold⟩
      · nomatch (has_finishing hnew).1
      · exact h.read t' l result' hold
    · rcases returned_update hret with ⟨-, hnew⟩ | hold
      · nomatch hnew
      · exact h.returned t' seen result' hold
  | disconnected t hwait hcall hdisconnected =>
    refine ⟨h.store, fun t' result' hhas => ?_, fun t' l result' hhas => ?_,
      fun t' seen result' hret => ?_, h.join⟩
    · rcases has_update hhas with ⟨rfl, hnew⟩ | ⟨-, hold⟩
      · nomatch (has_finishing hnew).1
      · exact h.heard t' result' hold
    · rcases has_update hhas with ⟨rfl, hnew⟩ | ⟨-, hold⟩
      · obtain ⟨hl, rfl⟩ := has_finishing hnew
        obtain rfl := Option.some.inj hl
        -- a disconnected reply channel tells of a panic
        have hsound := sound_reachable h.store
        unfold Sound at hsound
        cases hu : c.store.unwinding with
        | none =>
          rw [hu] at hsound
          rw [hsound.2] at hdisconnected
          nomatch hdisconnected
        | some u =>
          exact ⟨rfl, Option.some_ne_none u, (lost_reachable h.store hu).unstopped⟩
      · exact h.read t' l result' hold
    · rcases returned_update hret with ⟨-, hnew⟩ | hold
      · nomatch hnew
      · exact h.returned t' seen result' hold
  | lock t seen result hfinish hfree => exact ⟨h.store, h.heard, h.read, h.returned, h.join⟩
  | finish t seen result result' join howner hfinish hended hjoin =>
    obtain ⟨rfl, rfl⟩ := finish_joined (h.join.imp_right And.left) hjoin
    have hphase : c.store.engine.phase = .dropped := by
      rcases hended with houtcome | hphase
      · rcases h.join with hnew | hjoined
        · rw [hnew] at houtcome
          exact absurd rfl houtcome
        · exact hjoined.2
      · exact hphase
    -- the caller returns with the result it had
    have hkeep : ∀ t' seen' result'', (Function.update c.closers t (.returned seen result') t').Has
        seen' result'' → (c.closers t').Has seen' result'' := by
      intro t' seen' result'' hhas
      rcases has_update hhas with ⟨rfl, hnew⟩ | ⟨-, hold⟩
      · obtain ⟨rfl, rfl⟩ := has_returned hnew
        exact Or.inl hfinish
      · exact hold
    refine ⟨h.store, fun t' result'' hhas => h.heard t' result'' (hkeep _ _ _ hhas),
      fun t' l result'' hhas => h.read t' l result'' (hkeep _ _ _ hhas),
      fun t' seen' result'' hret => hphase, Or.inr ⟨rfl, hphase⟩⟩

theorem called_reachable {c : ClosingStore} (h : (closingSystem config fates).Reachable c) :
    Called config fates c := by
  refine System.Reachable.invariant (P := Called config fates) ?_ ?_ h
  · rintro c rfl
    refine ⟨.init rfl, fun t result hhas => ?_, fun t l result hhas => ?_,
      fun t seen result hret => (nomatch hret), Or.inl rfl⟩
    · rcases hhas with hhas | hhas <;> nomatch hhas
    · rcases hhas with hhas | hhas <;> nomatch hhas
  · exact fun c c' _ hcalled hstep => hcalled.step hstep

/-! ## The callers agree

  `Concordant` speaks of the calls that have returned, and so of what programs can see.  Where it
  fails there is one reason only, and `ReadEarly` is that reason. -/

/-- Every close call that returned did so after the coordinator thread had ended, and reports the
    one outcome. -/
structure Concordant (c : ClosingStore) : Prop where
  /-- The coordinator thread has ended, -/
  ended : ∀ t seen result, c.closers t = .returned seen result → c.store.engine.phase = .dropped
  /-- and this is what became of the store. -/
  outcome : ∀ t seen result, c.closers t = .returned seen result → Outcome c.store result

/-- The call returned what it read from a lifecycle that the unwinding had not yet set to failed. -/
def ReadEarly (c : ClosingStore) (t : Ticket) : Prop :=
  ∃ l result, c.closers t = .returned (some l) result ∧ (l = .opened ∨ l = .closing)

/-- The calls that have returned agree exactly when none of them has read early. -/
theorem concordant_iff {c : ClosingStore} (h : (closingSystem config fates).Reachable c) :
    Concordant c ↔ ∀ t, ¬ReadEarly c t := by
  have hcalled := called_reachable h
  constructor
  · rintro hagree t ⟨l, result, hret, hl⟩
    obtain ⟨rfl, hdown, -⟩ := hcalled.read t l result (Or.inr hret)
    rcases hagree.outcome t _ _ hret with ⟨hdrains, -⟩ | ⟨-, hresult⟩
    · exact hdown hdrains.1
    · rcases hl with rfl | rfl <;> nomatch hresult
  · intro hlate
    refine ⟨hcalled.returned, fun t seen result hret => ?_⟩
    cases seen with
    | none => exact outcome_of_heard hcalled.store (hcalled.heard t result (Or.inr hret))
    | some l =>
      obtain ⟨rfl, hdown, hl⟩ := hcalled.read t l result (Or.inr hret)
      refine Or.inr ⟨fun hdrains => hdown hdrains.1, ?_⟩
      rcases hl with rfl | rfl | rfl
      · exact absurd ⟨_, _, hret, Or.inl rfl⟩ (hlate t)
      · exact absurd ⟨_, _, hret, Or.inr rfl⟩ (hlate t)
      · rfl

/-- In a run in which every step reads late, nobody has read early. -/
theorem late_of_patient {c : ClosingStore} (h : (patientSystem config fates).Reachable c) :
    (closingSystem config fates).Reachable c ∧
      ∀ t l result, (c.closers t).Has (some l) result → l ≠ .opened ∧ l ≠ .closing := by
  refine System.Reachable.invariant (P := fun c => (closingSystem config fates).Reachable c ∧
    ∀ t l result, (c.closers t).Has (some l) result → l ≠ .opened ∧ l ≠ .closing) ?_ ?_ h
  · rintro c rfl
    refine ⟨.init rfl, fun t l result hhas => ?_⟩
    rcases hhas with hhas | hhas <;> nomatch hhas
  · rintro c c' _ ⟨hreach, hlate⟩ ⟨hstep, hreads⟩
    refine ⟨hreach.step hstep, fun t l result hhas => ?_⟩
    cases hstep with
    | store f hf => exact hlate t l result hhas
    | lock t' seen result' hfinish hfree => exact hlate t l result hhas
    | reply t' result' hwait hheard =>
      rcases has_update hhas with ⟨rfl, hnew⟩ | ⟨-, hold⟩
      · nomatch (has_finishing hnew).1
      · exact hlate t l result hold
    | disconnected t' hwait hcall hdisconnected =>
      rcases has_update hhas with ⟨rfl, hnew⟩ | ⟨-, hold⟩
      · obtain ⟨hl, rfl⟩ := has_finishing hnew
        obtain rfl := Option.some.inj hl
        -- the caller that read is one whose reply channel was disconnected
        refine hreads t hdisconnected hwait fun hwaiting => ?_
        have hmoved : Function.update c.closers t (.finishing _ _) t = .waiting := hwaiting
        rw [Function.update_self] at hmoved
        nomatch hmoved
      · exact hlate t l result hold
    | finish t' seen result₁ result₂ join howner hfinish hended hjoin =>
      rcases has_update hhas with ⟨rfl, hnew⟩ | ⟨-, hold⟩
      · obtain ⟨rfl, -⟩ := has_returned hnew
        exact hlate t l _ (Or.inl hfinish)
      · exact hlate t l result hold

/-- Where the coordinator has not panicked, nobody has read early. -/
theorem late_of_up {c : ClosingStore} (h : (closingSystem config fates).Reachable c)
    (hup : c.store.unwinding = none) (t : Ticket) : ¬ReadEarly c t := by
  rintro ⟨l, result, hret, -⟩
  obtain ⟨-, hdown, -⟩ := (called_reachable h).read t l result (Or.inr hret)
  exact hdown hup

/-- **All close callers agree exactly as long as nobody reads too early.**  In particular they agree
    in every state of every run whose steps all read late, and in every state that is reached without a
    panic of the coordinator. -/
theorem close_callers_agree (config : StoreConfig) (fates : Nat → Fate) :
    (∀ c, (closingSystem config fates).Reachable c → (Concordant c ↔ ∀ t, ¬ReadEarly c t)) ∧
      (∀ c, (patientSystem config fates).Reachable c → Concordant c) ∧
      ∀ c, (closingSystem config fates).Reachable c → c.store.unwinding = none → Concordant c := by
  refine ⟨fun c h => concordant_iff h, fun c h => ?_,
    fun c h hup => (concordant_iff h).mpr (late_of_up h hup)⟩
  obtain ⟨hreach, hlate⟩ := late_of_patient h
  refine (concordant_iff hreach).mpr ?_
  rintro t ⟨l, result, hret, hl⟩
  obtain ⟨hopened, hclosing⟩ := hlate t l result (Or.inr hret)
  rcases hl with rfl | rfl
  · exact hopened rfl
  · exact hclosing rfl

end Callers

/-- The coordinator panics over the only close.  Its caller sees the reply channel disconnect while
    the stack is still being unwound, reads a lifecycle that is still open, and returns
    `EngineFailed` after the coordinator thread has ended. -/
theorem close_panics_early : ¬∀ (config : StoreConfig) (fates : Nat → Fate) (c : ClosingStore),
    (closingSystem config fates).Reachable c → Concordant c := by
  intro hall
  have hinit : (closingSystem sampleConfig sampleFates).Reachable
      ⟨.initial sampleConfig, fun _ => .waiting, .new, none⟩ := .init rfl
  have hpanic := (hinit.step (.store _ (.step _ rfl (.close ⟨0⟩ (by decide) (by decide))))).step
    (.store _ (.panic (.close ⟨0⟩) [] rfl rfl rfl))
  have hread := (hpanic.step (.store _ (.dropEvent _ rfl))).step
    (.disconnected 0 rfl (by decide) (by decide))
  have hunwound := (((((((hread.step (.store _ (.dropPending rfl))).step
    (.store _ (.dropQueues rfl))).step (.store _ (.dropPool rfl))).step
    (.store _ (.caught rfl rfl rfl))).step (.store _ (.fail rfl))).step
    (.store _ (.leave rfl rfl))).step (.store _ (.dropReceiver rfl)))
  have hreturned := (hunwound.step (.lock 0 (some .opened) (.error .engineFailed) rfl rfl)).step
    (.finish 0 (some .opened) (.error .engineFailed) _ _ rfl rfl (Or.inr rfl) rfl)
  rcases (hall _ _ _ hreturned).outcome 0 (some .opened) (.error .engineFailed) rfl with
    ⟨-, hresult⟩ | ⟨-, hresult⟩
  · nomatch hresult
  · nomatch hresult

/-- A step of the store moves no caller. -/
theorem patient_store {config : StoreConfig} {fates : Nat → Fate} {c : ClosingStore}
    (h : (patientSystem config fates).Reachable c) {f : FailingStore}
    (hstep : FailingStep config fates c.store f) :
    (patientSystem config fates).Reachable { c with store := f } :=
  h.step ⟨.store f hstep, fun _ _ hwait hmoved => absurd hwait hmoved⟩

/-- A caller that goes on when the lifecycle is failed reads late. -/
theorem patient_caller {config : StoreConfig} {fates : Nat → Fate} {c c' : ClosingStore}
    (h : (patientSystem config fates).Reachable c) (hstep : CloseStep config fates c c')
    (hfailed : c.store.engine.lifecycle = .failed) : (patientSystem config fates).Reachable c' := by
  refine h.step ⟨hstep, fun t _ _ _ => ?_⟩
  rw [hfailed]
  exact ⟨fun heq => (nomatch heq), fun heq => nomatch heq⟩

/-- Two closes, and the coordinator panics over the first.  Its caller is disconnected and waits until
    the lifecycle is failed; the second close is still in the channel and is answered by the drain.
    Both report a failed shutdown. -/
theorem close_callers_agree_sample : ∃ c, (patientSystem sampleConfig sampleFates).Reachable c ∧
    c.closers 0 = .returned (some .failed) (.error .shutdownFailure) ∧
    c.closers 1 = .returned none (.error .shutdownFailure) ∧ Concordant c := by
  have hinit : (patientSystem sampleConfig sampleFates).Reachable
      ⟨.initial sampleConfig, fun _ => .waiting, .new, none⟩ := .init rfl
  have hcalled := patient_store (patient_store hinit
    (.step _ rfl (.close ⟨0⟩ (by decide) (by decide))))
    (.step _ rfl (.close ⟨1⟩ (by decide) (by decide)))
  have hpanic := patient_store (patient_store hcalled (.panic (.close ⟨0⟩) [.close ⟨1⟩] rfl rfl rfl))
    (.dropEvent _ rfl)
  have hfailed := patient_store (patient_store (patient_store (patient_store (patient_store hpanic
    (.dropPending rfl)) (.dropQueues rfl)) (.dropPool rfl)) (.caught rfl rfl rfl)) (.fail rfl)
  have hended := patient_store (patient_store (patient_store hfailed
    (.drainEvent (.close ⟨1⟩) [] rfl rfl)) (.leave rfl rfl)) (.dropReceiver rfl)
  -- the callers learn their results, and join the coordinator one after the other
  have hread := patient_caller hended (.disconnected 0 rfl (by decide) (by decide)) rfl
  have hheard := patient_caller hread
    (.reply 1 (.error .shutdownFailure) rfl (.failed _ (by decide) (by decide))) rfl
  have hfirst := patient_caller (patient_caller hheard
    (.lock 0 (some .failed) (.error .shutdownFailure) rfl rfl) rfl)
    (.finish 0 (some .failed) (.error .shutdownFailure) _ _ rfl rfl (Or.inr rfl) rfl) rfl
  have hsecond := patient_caller (patient_caller hfirst
    (.lock 1 none (.error .shutdownFailure) rfl rfl) rfl)
    (.finish 1 none (.error .shutdownFailure) _ _ rfl rfl (Or.inr rfl) rfl) rfl
  exact ⟨_, hsecond, rfl, rfl, (close_callers_agree sampleConfig sampleFates).2.1 _ hsecond⟩

end AtomicBlobStore
