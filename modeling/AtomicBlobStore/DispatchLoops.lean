/-
  The LOOPS of the coordinator (`engine/scheduler.rs` `dispatch_available`,
  `advance_pending_if_ready`; `engine/workers.rs` `prepare`).

  1. **The turns**: `availableTurn`, `advanceTurn` and `prepareTurn` are the bodies of the three
     loops as the source has them, on any state whatsoever: any queues, any active set, any pending
     list, a pool that can be sent to or not, and every luck with threads and dispatches.

  2. **What a dispatch can do** (`dispatchIfIdle_spec`): nothing, for one of the three reasons it
     checks, or take exactly one operation from the queue of the key.  The key the search of
     `dispatch_available` yields passes all three checks, so its turns never do nothing.

  3. **Termination**: each turn that goes round pays with one queued operation, one pending entry or
     one missing thread (`availableTurn_again`, `advanceTurn_again`, `prepareTurn_again`), so each
     loop leaves, and leaves where the functions of `Scheduler` say.

  `Handles` puts the loops back into the handling of one event; `dispatch_loops_terminate` is the
  result.

  The functions of `Scheduler` are recursive, and a recursive function of Lean always returns: that
  they do says nothing about the loops of the source.  Hence the turns, which contain no recursion,
  and the relation `Exits`, which has no proof for a loop that goes round for ever.
-/
import AtomicBlobStore.Moves
import AtomicBlobStore.Lib.Loop

namespace AtomicBlobStore

section Turns

variable (config : StoreConfig) (fates : Nat → Fate)

/-! ## The turns

  The loops of the source have no bound and no counter.  A turn is what they do between two tests, and
  it is defined here without the functions of `Scheduler`, which already have a measure built into
  them. -/

/-- The loop of `dispatch_available`. -/
def availableTurn (s : Engine) : Turn Engine :=
  if s.active.card < config.maxConcurrentOperations then
    match findIdle fates s with
    | none => .leave s
    | some keyHash => .again (dispatchIfIdle config fates keyHash { s with clock := s.clock + 1 })
  else .leave s

/-- The loop of `advance_pending_if_ready`.  A close at the front stops the loop, and maintenance
    leaves it after it was dispatched. -/
def advanceTurn (s : Engine) : Turn Engine :=
  match s.pending with
  | [] => .leave s
  | .maintenance submission :: rest =>
    if s.busy then .leave s
    else .leave (dispatchMaintenance fates submission
      { s.observe [.released (.maintenance submission)] with
        pending := rest, maintenanceActive := true })
  | .submission submission :: rest =>
    .again (dispatchIfIdle config fates submission.keyHash
      { s.observe [.released (.submission submission)] with
        pending := rest, queues := s.queues.pushBack submission.keyHash submission.operation })
  | .flush sender :: rest =>
    if s.busy then .leave s
    else .again { s.observe [.released (.flush sender), .answered ⟨none, sender⟩ (.ok ())] with
      pending := rest }
  | .close _ :: _ => .leave s

/-- The loop of `WorkerPool::prepare`, with what it returns. -/
def prepareTurn (spawn : Nat → Bool) (requiredWorkers : Nat) :
    Except AtomicBlobStoreError Unit × WorkerPool → Turn (Except AtomicBlobStoreError Unit × WorkerPool)
  | (result, pool) =>
    if pool.handles < min requiredWorkers pool.capacity then
      if spawn pool.handles then .again (result, { pool with handles := pool.handles + 1 })
      else .leave (.error .workerUnavailable, pool)
    else .leave (result, pool)

/-! ## What a dispatch can do

  An operation leaves its queue before the pool is asked, so even a dispatch that fails makes the loop
  shorter. -/

/-- `dispatch_if_idle`, as far as the queues and the active keys go.  The guard names the three
    reasons to do nothing; an operation that was taken is either answered at once, and then its
    queue's entry is dropped if it is empty, or its key is active. -/
inductive Dispatched (key : KeyHash) (s s' : Engine) : Prop
  /-- Nothing is dispatched. -/
  | nothing (h : key ∈ s.active ∨ config.maxConcurrentOperations ≤ s.active.card ∨
      s.queues.queue key = []) (hs : s' = s)
  /-- The operation could not be made a job. -/
  | refused (op : Operation) (queues : KeyedQueues KeyHash Operation) (hidle : key ∉ s.active)
      (hpop : s.queues.popFront key = some (op, queues))
      (hqueues : s'.queues = queues.removeIfEmpty key) (hactive : s'.active = s.active)
      (hpending : s'.pending = s.pending)
  /-- The key is active. -/
  | activated (op : Operation) (queues : KeyedQueues KeyHash Operation) (hidle : key ∉ s.active)
      (hpop : s.queues.popFront key = some (op, queues)) (hqueues : s'.queues = queues)
      (hactive : s'.active = insert key s.active) (hpending : s'.pending = s.pending)

/-- **The inversion of `dispatch_if_idle`**, from any state. -/
theorem dispatchIfIdle_spec (key : KeyHash) (s : Engine) :
    Dispatched config key s (dispatchIfIdle config fates key s) := by
  unfold dispatchIfIdle
  split
  · rename_i h
    refine .nothing ?_ rfl
    exact h.imp_right Or.inl
  rename_i hguard
  have hidle : key ∉ s.active := fun h => hguard (Or.inl h)
  split
  · rename_i hnone
    exact .nothing (Or.inr (Or.inr ((KeyedQueues.popFront_eq_none s.queues).mp hnone))) rfl
  rename_i op queues hpop
  simp only []
  generalize s.pool.prepare (fates s.clock).spawn (s.active.card + 1) = prep
  obtain ⟨prepared, pool⟩ := prep
  cases prepared with
  | error e => exact .refused op queues hidle hpop rfl rfl rfl
  | ok u =>
    simp only []
    cases WorkerPool.prepareDispatch (fates s.clock).dispatch with
    | error e => exact .refused op queues hidle hpop rfl rfl rfl
    | ok u =>
      simp only []
      split
      · exact .activated op queues hidle hpop rfl rfl rfl
      · exact .activated op queues hidle hpop rfl rfl rfl

variable {config}

/-- It leaves the pending list. -/
theorem Dispatched.pending {key : KeyHash} {s s' : Engine} (h : Dispatched config key s s') :
    s'.pending = s.pending := by
  cases h with
  | nothing h hs => rw [hs]
  | refused op queues hidle hpop hqueues hactive hpending => exact hpending
  | activated op queues hidle hpop hqueues hactive hpending => exact hpending

/-- One operation is taken, from the front of the queue of one key. -/
def TakesOne (s s' : Engine) : Prop :=
  ∃ key op, s.queues.queue key = op :: s'.queues.queue key ∧
    (∀ k, k ≠ key → s'.queues.queue k = s.queues.queue k) ∧ s.queues.total = s'.queues.total + 1

/-- A dispatch that passes the checks takes one operation. -/
theorem Dispatched.takesOne {key : KeyHash} {s s' : Engine} (h : Dispatched config key s s')
    (hidle : key ∉ s.active) (hbound : s.active.card < config.maxConcurrentOperations)
    (hqueue : s.queues.queue key ≠ []) : TakesOne s s' := by
  cases h with
  | nothing h hs =>
    rcases h with h | h | h
    · exact absurd h hidle
    · exact absurd hbound (Nat.not_lt.mpr h)
    · exact absurd h hqueue
  | refused op queues _ hpop hqueues =>
    obtain ⟨hfront, hothers⟩ := s.queues.queue_popFront hpop
    refine ⟨key, op, ?_, fun k hk => ?_, ?_⟩
    · rw [hqueues, queues.queue_removeIfEmpty, hfront]
    · rw [hqueues, queues.queue_removeIfEmpty, hothers k hk]
    · rw [hqueues, queues.total_removeIfEmpty, s.queues.total_popFront hpop]
  | activated op queues _ hpop hqueues =>
    obtain ⟨hfront, hothers⟩ := s.queues.queue_popFront hpop
    refine ⟨key, op, ?_, fun k hk => ?_, ?_⟩
    · rw [hqueues, hfront]
    · rw [hqueues, hothers k hk]
    · rw [hqueues, s.queues.total_popFront hpop]

/-! ## `dispatch_available` -/

/-- **A turn that goes round takes exactly one operation**: the search asks for the three things
    `dispatch_if_idle` checks. -/
theorem availableTurn_again {s s' : Engine} (h : availableTurn config fates s = .again s') :
    TakesOne s s' := by
  unfold availableTurn at h
  split at h
  · rename_i hbound
    split at h
    · nomatch h
    · rename_i key hsome
      obtain ⟨hqueue, hidle⟩ := findIdle_some fates hsome
      have hspec := dispatchIfIdle_spec config fates key { s with clock := s.clock + 1 }
      rw [Turn.again.inj h] at hspec
      exact hspec.takesOne hidle hbound hqueue
  · nomatch h

/-- A turn that leaves changes nothing, and finds nothing to start. -/
theorem availableTurn_leave {s s' : Engine} (h : availableTurn config fates s = .leave s') :
    s' = s ∧ Saturated config s := by
  unfold availableTurn at h
  split at h
  · split at h
    · rename_i hnone
      exact ⟨(Turn.leave.inj h).symm, Or.inr (findIdle_none fates hnone)⟩
    · nomatch h
  · rename_i hbound
    exact ⟨(Turn.leave.inj h).symm, Or.inl (Nat.not_lt.mp hbound)⟩

/-- With fuel left, the loop takes a turn. -/
theorem dispatchAvailableLoop_succ (fuel : Nat) (s : Engine) :
    dispatchAvailableLoop config fates (fuel + 1) s =
      match availableTurn config fates s with
      | .leave s' => s'
      | .again s' => dispatchAvailableLoop config fates fuel s' := by
  rw [dispatchAvailableLoop, availableTurn]
  by_cases hbound : s.active.card < config.maxConcurrentOperations
  · rw [if_pos hbound, if_pos hbound]
    cases findIdle fates s with
    | none => rfl
    | some key => rfl
  · rw [if_neg hbound, if_neg hbound]

/-- The loop with fuel to spare follows the turns. -/
theorem exits_availableLoop : ∀ (fuel : Nat) (s : Engine), s.queues.total ≤ fuel →
    ∃ n ≤ s.queues.total,
      Exits (availableTurn config fates) n s (dispatchAvailableLoop config fates fuel s) := by
  intro fuel
  induction fuel with
  | zero =>
    intro s hfuel
    -- nothing is queued, so the turn cannot go round
    refine ⟨0, Nat.zero_le _, .leave ?_⟩
    show availableTurn config fates s = .leave s
    cases hturn : availableTurn config fates s with
    | leave s' => rw [(availableTurn_leave fates hturn).1]
    | again s' =>
      obtain ⟨key, op, hfront, -, htotal⟩ := availableTurn_again fates hturn
      omega
  | succ fuel ih =>
    intro s hfuel
    rw [dispatchAvailableLoop_succ]
    cases hturn : availableTurn config fates s with
    | leave s' => exact ⟨0, Nat.zero_le _, .leave hturn⟩
    | again s' =>
      obtain ⟨key, op, hfront, -, htotal⟩ := availableTurn_again fates hturn
      obtain ⟨n, hn, hexits⟩ := ih s' (by omega)
      exact ⟨n + 1, by omega, .again hturn hexits⟩

variable (config) in
/-- The loop leaves after at most as many turns as there is something queued for. -/
theorem exits_dispatchAvailable (s : Engine) : ∃ n ≤ s.queues.total,
    Exits (availableTurn config fates) n s (dispatchAvailable config fates s) :=
  exits_availableLoop fates s.queues.total s (Nat.le_refl _)

/-- What a dispatch keeps, the loop keeps. -/
theorem dispatchAvailable_keeps {P : Engine → Prop}
    (hdispatch : ∀ t key, P t → P (dispatchIfIdle config fates key { t with clock := t.clock + 1 }))
    {s : Engine} (h : P s) : P (dispatchAvailable config fates s) := by
  obtain ⟨n, -, hexits⟩ := exits_dispatchAvailable config fates s
  refine hexits.keeps ?_ ?_ h
  · intro t t' hturn ht
    unfold availableTurn at hturn
    split at hturn
    · split at hturn
      · nomatch hturn
      · rw [← Turn.again.inj hturn]
        exact hdispatch t _ ht
    · nomatch hturn
  · intro t t' hturn ht
    rw [(availableTurn_leave fates hturn).1]
    exact ht

/-! ## `advance_pending_if_ready` -/

/-- **A turn that goes round removes the front of the pending list.** -/
theorem advanceTurn_again {s s' : Engine} (h : advanceTurn config fates s = .again s') :
    ∃ r, s.pending = r :: s'.pending := by
  unfold advanceTurn at h
  split at h
  · nomatch h
  · split at h
    · nomatch h
    · nomatch h
  · rename_i sub rest hpending
    obtain rfl := Turn.again.inj h
    exact ⟨.submission sub, by rw [hpending, (dispatchIfIdle_spec config fates _ _).pending]⟩
  · rename_i sender rest hpending
    split at h
    · nomatch h
    · obtain rfl := Turn.again.inj h
      exact ⟨.flush sender, hpending⟩
  · nomatch h

variable (config) in
/-- `advance_pending_if_ready` follows the turns. -/
theorem exits_advancePending (s : Engine) : ∃ n ≤ s.pending.length,
    Exits (advanceTurn config fates) n s (advancePending config fates s.pending s) := by
  refine exits_of_follows (fun s => s.pending.length)
    (fun s => advancePending config fates s.pending s) ?_ ?_ ?_ s
  · intro s s' h
    -- a turn that goes on has taken one event off the list
    obtain ⟨r, hpending⟩ := advanceTurn_again fates h
    show s'.pending.length < s.pending.length
    rw [hpending]
    exact Nat.lt_succ_self _
  · intro s s' h
    -- a turn that leaves ends in what the function computes there
    unfold advanceTurn at h
    show advancePending config fates s.pending s = s'
    split at h
    · rename_i hpending
      rw [hpending]
      exact Turn.leave.inj h
    · rename_i sub rest hpending
      rw [hpending]
      unfold advancePending
      split at h
      · rename_i hbusy
        rw [if_pos hbusy]
        exact Turn.leave.inj h
      · rename_i hbusy
        rw [if_neg hbusy]
        exact Turn.leave.inj h
    · cases h
    · rename_i sender rest hpending
      rw [hpending]
      unfold advancePending
      split at h
      · rename_i hbusy
        rw [if_pos hbusy]
        exact Turn.leave.inj h
      · cases h
    · rename_i sub rest hpending
      rw [hpending]
      exact Turn.leave.inj h
  · intro s s' h
    -- a turn that goes on does not change what the function computes
    have hturn := h
    unfold advanceTurn at h
    show advancePending config fates s.pending s = advancePending config fates s'.pending s'
    obtain ⟨r, hr⟩ := advanceTurn_again fates hturn
    split at h
    · cases h
    · split at h
      · cases h
      · cases h
    · rename_i sub rest hpending
      have hrest : rest = s'.pending := (List.cons.inj (hpending.symm.trans hr)).2
      rw [hpending, ← hrest]
      exact congrArg (advancePending config fates rest) (Turn.again.inj h)
    · rename_i sender rest hpending
      have hrest : rest = s'.pending := (List.cons.inj (hpending.symm.trans hr)).2
      rw [hpending, ← hrest]
      split at h
      · cases h
      · rename_i hbusy
        exact (if_neg hbusy).trans (congrArg (advancePending config fates rest) (Turn.again.inj h))
    · cases h

/-- What releasing each kind of entry keeps, `advance_pending_if_ready` keeps. -/
theorem advancePendingIfReady_keeps {P : Engine → Prop}
    (hsubmission : ∀ t sub rest, t.pending = .submission sub :: rest → P t →
      P (dispatchIfIdle config fates sub.keyHash { t.observe [.released (.submission sub)] with
        pending := rest, queues := t.queues.pushBack sub.keyHash sub.operation }))
    (hmaintenance : ∀ t sub rest, t.pending = .maintenance sub :: rest → P t →
      P (dispatchMaintenance fates sub { t.observe [.released (.maintenance sub)] with
        pending := rest, maintenanceActive := true }))
    (hflush : ∀ t sender rest, t.pending = .flush sender :: rest → P t →
      P { t.observe [.released (.flush sender), .answered ⟨none, sender⟩ (.ok ())] with
        pending := rest })
    {s : Engine} (h : P s) : P (advancePendingIfReady config fates s) := by
  unfold advancePendingIfReady
  split
  · exact h
  obtain ⟨n, -, hexits⟩ := exits_advancePending config fates s
  refine hexits.keeps ?_ ?_ h
  · intro t t' hturn ht
    unfold advanceTurn at hturn
    split at hturn
    · nomatch hturn
    · split at hturn <;> nomatch hturn
    · rename_i sub rest hpending
      rw [← Turn.again.inj hturn]
      exact hsubmission t sub rest hpending ht
    · rename_i sender rest hpending
      split at hturn
      · nomatch hturn
      · rw [← Turn.again.inj hturn]
        exact hflush t sender rest hpending ht
    · nomatch hturn
  · intro t t' hturn ht
    unfold advanceTurn at hturn
    split at hturn
    · rw [← Turn.leave.inj hturn]
      exact ht
    · rename_i sub rest hpending
      split at hturn
      · rw [← Turn.leave.inj hturn]
        exact ht
      · rw [← Turn.leave.inj hturn]
        exact hmaintenance t sub rest hpending ht
    · nomatch hturn
    · split at hturn
      · rw [← Turn.leave.inj hturn]
        exact ht
      · nomatch hturn
    · rw [← Turn.leave.inj hturn]
      exact ht

/-! ## `prepare` -/

/-- `prepare` follows the turns. -/
theorem exits_spawnMissing (spawn : Nat → Bool) (required : Nat) :
    ∀ (missing : Nat) (pool : WorkerPool),
    missing = min required pool.capacity - pool.handles → ∃ n ≤ missing,
      Exits (prepareTurn spawn required) n (.ok (), pool) (pool.spawnMissing spawn missing) := by
  intro missing
  induction missing with
  | zero =>
    intro pool hmissing
    refine ⟨0, Nat.le_refl 0, .leave ?_⟩
    exact if_neg (show ¬ pool.handles < min required pool.capacity by omega)
  | succ missing ih =>
    intro pool hmissing
    have hlt : pool.handles < min required pool.capacity := by omega
    cases hspawn : spawn pool.handles with
    | false =>
      refine ⟨0, Nat.zero_le _, .leave ?_⟩
      show (if pool.handles < min required pool.capacity then _ else _) = _
      rw [if_pos hlt, hspawn]
      unfold WorkerPool.spawnMissing
      rw [hspawn]
      rfl
    | true =>
      obtain ⟨n, hn, hexits⟩ := ih { pool with handles := pool.handles + 1 }
        (by show missing = min required pool.capacity - (pool.handles + 1); omega)
      have hturn : prepareTurn spawn required (.ok (), pool)
          = .again (.ok (), { pool with handles := pool.handles + 1 }) := by
        show (if pool.handles < min required pool.capacity then _ else _) = _
        rw [if_pos hlt, hspawn]
        rfl
      refine ⟨n + 1, by omega, .again hturn ?_⟩
      unfold WorkerPool.spawnMissing
      rw [hspawn]
      exact hexits

theorem exits_prepare (spawn : Nat → Bool) (required : Nat) (pool : WorkerPool) :
    ∃ n ≤ required, Exits (prepareTurn spawn required) n (.ok (), pool)
      (pool.prepare spawn required) := by
  obtain ⟨n, hn, hexits⟩ := exits_spawnMissing spawn required _ pool rfl
  exact ⟨n, by omega, hexits⟩

/-! ## Handling one event

  An arm of the `match` runs up to two loops, and between them it changes the queues or the pending
  list, so that the second starts from what the first left. -/

variable (config)

/-- The loop of `dispatch_available` leaves. -/
def Fills (s s' : Engine) : Prop := ∃ n, Exits (availableTurn config fates) n s s'

/-- `advance_pending_if_ready`, with its loop. -/
def Advances (s s' : Engine) : Prop :=
  (s.maintenanceActive = true ∧ s' = s) ∨
    (s.maintenanceActive = false ∧ ∃ n, Exits (advanceTurn config fates) n s s')

/-- What the `Completion` arm does between the two loops. -/
def concludeCompletion (keyHash : KeyHash) (s : Engine) : Engine :=
  let s := if keyHash ∉ s.active then { s with queues := s.queues.removeIfEmpty keyHash } else s
  match s.outcome with
  | some (key, f) => deliver key f { s with outcome := none }
  | none => s

/-- What the `Close` arm does before its loop. -/
def recordClose (submission : CloseSubmission) (s : Engine) : Engine :=
  match s.lifecycle with
  | .opened => { s.observe [.moved .closing] with
      lifecycle := .closing, pending := s.pending ++ [.close submission] }
  | .closing => { s with pending := s.pending ++ [.close submission] }
  | .closed => s.observe [.answered ⟨none, submission.sender⟩ (.ok ())]
  | .shutdownFailed => s.observe [.answered ⟨none, submission.sender⟩ (closeResult false)]
  | .failed => s.observe [.answered ⟨none, submission.sender⟩ (closeResult false)]

/-- One turn of `run_scheduler` for an event, with the loops it runs as loops.  Each constructor is
    one way through an arm.  Where the arm runs a loop there is a premise that the loop leaves, and
    the state that it leaves in. -/
inductive Handles : CoordinatorEvent → Engine → Engine → Prop
  /-- An operation in a store that is no longer open. -/
  | submissionRefused {s : Engine} (sub : Submission) (hlock : s.lifecycle ≠ .opened) :
      Handles (.submission sub) s (deliverError sub.keyHash sub.operation .storeClosed
        (s.observe [.received (.submission sub)]))
  /-- It waits behind maintenance, or behind what is pending. -/
  | submissionParked {s : Engine} (sub : Submission) (hlock : s.lifecycle = .opened)
      (hwait : (s.maintenanceActive || !s.pending.isEmpty) = true) :
      Handles (.submission sub) s { s.observe [.received (.submission sub)] with
        pending := s.pending ++ [.submission sub] }
  /-- It is queued and dispatched, and then whatever else can be. -/
  | submission {s s' : Engine} (sub : Submission) (hlock : s.lifecycle = .opened)
      (hwait : (s.maintenanceActive || !s.pending.isEmpty) = false)
      (hfills : Fills config fates (dispatchIfIdle config fates sub.keyHash
        { (s.observe [.received (.submission sub)]).observe [.released (.submission sub)] with
          queues := s.queues.pushBack sub.keyHash sub.operation }) s') :
      Handles (.submission sub) s (shutdownIfDrained s')
  /-- The key is free again: it comes first, then the other keys, then the pending list. -/
  | completion {s s₁ s₂ : Engine} (done : Completion)
      (hfills : Fills config fates (dispatchIfIdle config fates done.keyHash { s with
        outcome := done.outcome.map fun f => (done.keyHash, f)
        active := s.active.erase done.keyHash }) s₁)
      (hadvances : Advances config fates (concludeCompletion done.keyHash s₁) s₂) :
      Handles (.completion done) s (shutdownIfDrained s₂)
  /-- A maintenance request in a store that is no longer open. -/
  | maintenanceRefused {s : Engine} (sub : MaintenanceSubmission) (hlock : s.lifecycle ≠ .opened) :
      Handles (.maintenance sub) s ((s.observe [.received (.maintenance sub)]).observe
        [.rejected ⟨none, sub.sender⟩ .storeClosed])
  /-- It is put at the end of the pending list. -/
  | maintenance {s s' : Engine} (sub : MaintenanceSubmission) (hlock : s.lifecycle = .opened)
      (hadvances : Advances config fates { s.observe [.received (.maintenance sub)] with
        pending := s.pending ++ [.maintenance sub] } s') :
      Handles (.maintenance sub) s (shutdownIfDrained s')
  /-- The store is free again. -/
  | maintenanceCompletion {s s' : Engine} (done : MaintenanceCompletion)
      (hadvances : Advances config fates (({ s with maintenanceActive := false } : Engine).observe
        (done.outcome.toList.map fun o => .delivered ⟨none, o.sender⟩ (.cleanup o.result))) s') :
      Handles (.maintenanceCompletion done) s (shutdownIfDrained s')
  /-- A flush in a store that is no longer open. -/
  | flushRefused {s : Engine} (sender : Ticket) (hlock : s.lifecycle ≠ .opened) :
      Handles (.flush sender) s ((s.observe [.received (.flush sender)]).observe
        [.rejected ⟨none, sender⟩ .storeClosed])
  /-- It is put at the end of the pending list. -/
  | flush {s s' : Engine} (sender : Ticket) (hlock : s.lifecycle = .opened)
      (hadvances : Advances config fates { s.observe [.received (.flush sender)] with
        pending := s.pending ++ [.flush sender] } s') :
      Handles (.flush sender) s (shutdownIfDrained s')
  /-- The lifecycle follows the first close, and later ones only wait. -/
  | close {s s' : Engine} (sub : CloseSubmission)
      (hadvances : Advances config fates
        (recordClose sub (s.observe [.received (.close sub)])) s') :
      Handles (.close sub) s (shutdownIfDrained s')

variable {config}

/-- The loop of the source and the function of the model end in the same state. -/
theorem fills_iff {s s' : Engine} :
    Fills config fates s s' ↔ s' = dispatchAvailable config fates s := by
  obtain ⟨n, -, hexits⟩ := exits_dispatchAvailable config fates s
  constructor
  · rintro ⟨m, h⟩
    exact (h.unique hexits).2
  · rintro rfl
    exact ⟨n, hexits⟩

/-- The same for the pending list, whose loop is entered only when the store is ready. -/
theorem advances_iff {s s' : Engine} :
    Advances config fates s s' ↔ s' = advancePendingIfReady config fates s := by
  obtain ⟨n, -, hexits⟩ := exits_advancePending config fates s
  unfold Advances advancePendingIfReady
  cases s.maintenanceActive with
  | true => simp
  | false =>
    rw [if_neg Bool.false_ne_true]
    constructor
    · rintro (⟨h, -⟩ | ⟨-, m, h⟩)
      · nomatch h
      · exact (h.unique hexits).2
    · rintro rfl
      exact Or.inr ⟨rfl, n, hexits⟩

/-- Handling an event comes to the state `onEvent` computes. -/
theorem Handles.onEvent {ev : CoordinatorEvent} {s s' : Engine} (h : Handles config fates ev s s') :
    s' = onEvent config fates ev s := by
  cases h with
  | submissionRefused sub hlock => exact (if_pos hlock).symm
  | submissionParked sub hlock hwait =>
    exact ((if_neg (not_not.mpr hlock)).trans (if_pos hwait)).symm
  | submission sub hlock hwait hfills =>
    rw [(fills_iff fates).mp hfills]
    exact ((if_neg (not_not.mpr hlock)).trans (if_neg (Bool.eq_false_iff.mp hwait))).symm
  | completion done hfills hadvances =>
    rw [(advances_iff fates).mp hadvances, (fills_iff fates).mp hfills]
    rfl
  | maintenanceRefused sub hlock => exact (if_pos hlock).symm
  | maintenance sub hlock hadvances =>
    rw [(advances_iff fates).mp hadvances]
    exact (if_neg (not_not.mpr hlock)).symm
  | maintenanceCompletion done hadvances =>
    rw [(advances_iff fates).mp hadvances]
    obtain ⟨outcome⟩ := done
    cases outcome with
    | some o => rfl
    | none =>
      show shutdownIfDrained (advancePendingIfReady config fates
        { s with maintenanceActive := false, log := s.log ++ [] }) = _
      rw [List.append_nil]
      rfl
  | flushRefused sender hlock => exact (if_pos hlock).symm
  | flush sender hlock hadvances =>
    rw [(advances_iff fates).mp hadvances]
    exact (if_neg (not_not.mpr hlock)).symm
  | close sub hadvances =>
    rw [(advances_iff fates).mp hadvances]
    rfl

variable (config) in
/-- Handling an event terminates: every loop it runs leaves. -/
theorem exists_handles (ev : CoordinatorEvent) (s : Engine) :
    ∃ s', Handles config fates ev s s' := by
  cases ev with
  | submission sub =>
    by_cases hlock : s.lifecycle = .opened
    · cases hwait : s.maintenanceActive || !s.pending.isEmpty with
      | true => exact ⟨_, .submissionParked sub hlock hwait⟩
      | false => exact ⟨_, .submission sub hlock hwait ((fills_iff fates).mpr rfl)⟩
    · exact ⟨_, .submissionRefused sub hlock⟩
  | completion done =>
    exact ⟨_, .completion done ((fills_iff fates).mpr rfl) ((advances_iff fates).mpr rfl)⟩
  | maintenance sub =>
    by_cases hlock : s.lifecycle = .opened
    · exact ⟨_, .maintenance sub hlock ((advances_iff fates).mpr rfl)⟩
    · exact ⟨_, .maintenanceRefused sub hlock⟩
  | maintenanceCompletion done =>
    exact ⟨_, .maintenanceCompletion done ((advances_iff fates).mpr rfl)⟩
  | flush sender =>
    by_cases hlock : s.lifecycle = .opened
    · exact ⟨_, .flush sender hlock ((advances_iff fates).mpr rfl)⟩
    · exact ⟨_, .flushRefused sender hlock⟩
  | close sub => exact ⟨_, .close sub ((advances_iff fates).mpr rfl)⟩

/-! ## The result

  No invariant is assumed: the loops end from any state at all, also from those that no run reaches. -/

/-- What there is to say about the loops, from any state and for any luck.  Each loop is given by its
    turns, with a bound on how many there can be and what holds when there are no more. -/
structure LoopsTerminate (config : StoreConfig) (fates : Nat → Fate) (s : Engine) : Prop where
  /-- A turn of `dispatch_available` that goes round takes exactly one queued operation. -/
  takes : ∀ s', availableTurn config fates s = .again s' → TakesOne s s'
  /-- Its loop leaves after as many turns as operations are queued, or fewer, in a state where the
      bound is reached or every key with something queued is active. -/
  fills : ∃ n s', n ≤ s.queues.total ∧ Exits (availableTurn config fates) n s s' ∧
    Saturated config s' ∧ s' = dispatchAvailable config fates s
  /-- A turn of `advance_pending_if_ready` that goes round removes exactly one pending entry. -/
  removes : ∀ s', advanceTurn config fates s = .again s' → ∃ r, s.pending = r :: s'.pending
  /-- Its loop leaves after as many turns as there are pending entries, or fewer. -/
  advances : ∃ n s', n ≤ s.pending.length ∧ Exits (advanceTurn config fates) n s s' ∧
    s' = advancePending config fates s.pending s
  /-- The loop of `prepare` leaves after as many turns as workers are asked for, or fewer. -/
  prepares : ∀ spawn required, ∃ n ≤ required, Exits (prepareTurn spawn required) n
    (.ok (), s.pool) (s.pool.prepare spawn required)
  /-- Handling an event terminates, in one state. -/
  handles : ∀ ev, ∃ s', Handles config fates ev s s' ∧
    (∀ s'', Handles config fates ev s s'' → s'' = s') ∧ s' = onEvent config fates ev s

/-- **The dispatch loops terminate** for every state and every outcome of every dispatch.  Handling an
    event comes to one state, whichever it is: the loops have no choice but the fates, and these are
    given. -/
theorem dispatch_loops_terminate (config : StoreConfig) (fates : Nat → Fate) (s : Engine) :
    LoopsTerminate config fates s where
  takes s' h := availableTurn_again fates h
  fills := by
    obtain ⟨n, hn, hexits⟩ := exits_dispatchAvailable config fates s
    refine ⟨n, _, hn, hexits, ?_, rfl⟩
    refine hexits.leaves fun s₀ s' hleave => ?_
    obtain ⟨rfl, hsaturated⟩ := availableTurn_leave fates hleave
    exact hsaturated
  removes s' h := advanceTurn_again fates h
  advances := by
    obtain ⟨n, hn, hexits⟩ := exits_advancePending config fates s
    exact ⟨n, _, hn, hexits, rfl⟩
  prepares spawn required := exits_prepare spawn required s.pool
  handles ev := by
    obtain ⟨s', h⟩ := exists_handles config fates ev s
    refine ⟨s', h, fun s'' h'' => ?_, h.onEvent⟩
    rw [h''.onEvent, h.onEvent]

end Turns

end AtomicBlobStore
