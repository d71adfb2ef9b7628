/-
  Every step of the store is a run of moves.

  `moves_of_step` takes the steps one at a time.  Most are a single move; handling an event is the
  run that `onEvent_spec` found, from a state that the invariant makes `Ready`; the steps of a
  shutdown and of the last handle rely on what the invariant says about an idle store.
  `inv_reachable` is what everything after this module starts from.

  Nothing in this module looks at an individual field of the invariant for its own sake.  A change of
  a handler in the source is met in `Moves`, where its run is found again; as long as the run is one
  of known moves, what stands here and below stays as it is.
-/
import AtomicBlobStore.Lawful

namespace AtomicBlobStore

open Relation

section Runs

variable {config : StoreConfig} {fates : Nat → Fate} {s s' : Engine}

/-! ## The initial state

  Nothing has entered, nothing is active, and the pool has no threads: every field is an equation
  between empty lists. -/

theorem Inv.initial (config : StoreConfig) : Inv config (.initial config) where
  order := rfl
  accepted := rfl
  suffix := rfl
  perKey _ := rfl
  fresh := .nil
  started := List.Sublist.refl _
  issued r hr := nomatch hr
  callers r result hmem := nomatch hmem
  path := .opened
  stopped := by simp [Stopped, Engine.initial]
  running _ := rfl
  alive _ := rfl
  joining h := nomatch h
  draining ok h := nomatch h
  gone h := by rcases h with h | h <;> nomatch h
  sender _ := rfl
  idle h := absurd rfl h
  active _ := rfl
  maintenance := rfl
  exclusive h := nomatch h
  bounded := Nat.zero_le _
  capacity := rfl
  threads := Nat.le_refl 0
  conserved o := by
    unfold Engine.queued queuedIn
    cases o.key <;> rfl
  jobs _ := rfl
  begunReleased o ho := nomatch ho
  rejections o e h := nomatch h
  dismissed r hr := nomatch hr
  lawful := justified_nil _

theorem Settled.initial (config : StoreConfig) : Settled config (.initial config) where
  saturated := Or.inr fun _ hk => absurd rfl hk
  waits _ h := absurd rfl h
  delivered := rfl

/-! ## What the handlers rely on

  The handlers were specified in a state that is `Ready`.  This is where the invariant pays for it. -/

/-- A running store is ready for its next event. -/
theorem Inv.ready (h : Inv config s) (hphase : s.phase = .running) : Ready s where
  running := hphase
  sender := h.sender hphase
  lifecycle := by
    rw [h.alive (Or.inl hphase)]
    split
    · exact Or.inr rfl
    · exact Or.inl rfl
  exclusive done hdone := by
    -- the key of the completion is active, so no maintenance runs
    by_contra hfree
    have hidle := h.exclusive (by simpa using hfree)
    have hpos : 0 < s.outstanding.count done.keyHash := by
      rw [List.count_pos_iff]
      exact List.mem_append_right _ (List.mem_filterMap.mpr ⟨_, hdone, rfl⟩)
    rw [h.active, (Engine.busy_eq_false.mp hidle).1] at hpos
    simp at hpos

/-! ## The callers

  A call takes effect in two steps of its own thread, a check without the lock and the send under it.
  Either is at most one move: the request enters, or the call is resolved where it stands. -/

/-- The lifecycle of a store whose coordinator does not panic. -/
theorem lifecycle_cases (h : Inv config s) : s.lifecycle = .opened ∨ s.lifecycle = .closing ∨
    s.lifecycle = .closed ∨ s.lifecycle = .shutdownFailed := by
  have hpath := h.path
  generalize moved s.log = moves, s.lifecycle = lock at hpath
  cases hpath with
  | opened => exact Or.inl rfl
  | closing => exact Or.inr (Or.inl rfl)
  | ended ok => exact Or.inr (Or.inr (endLifecycle_cases ok))
  | dropped => exact Or.inr (Or.inr (Or.inl rfl))

/-- While the lifecycle lets a request pass, there is a receiver. -/
theorem not_dropped (h : Inv config s) (hlock : s.lifecycle = .opened ∨ s.lifecycle = .closing) :
    s.phase ≠ .dropped := by
  intro hphase
  rcases (h.gone (Or.inr hphase)).1 with hlock' | hlock' <;> simp [hlock'] at hlock

/-- The check of a call, by what the lifecycle is. -/
theorem ensureOpen_cases (h : Inv config s) : s.lifecycle = .opened ∧ ensureOpen s = .ok () ∨
    s.lifecycle ≠ .opened ∧ ensureOpen s = .error .storeClosed := by
  unfold ensureOpen
  rcases lifecycle_cases h with hlock | hlock | hlock | hlock <;> simp [hlock]

/-- A call that is resolved by its own thread is one move. -/
theorem resolve_spec (hs : Settled config s) (r : PendingEvent)
    (result : Except AtomicBlobStoreError Unit) (hfresh : s.issued ≤ r.origin.sender)
    (hclose : r.isClose = true → s.lifecycle = .closed ∨ s.lifecycle = .shutdownFailed)
    (hclosed : r.isClose = false → s.lifecycle ≠ .opened → result = .error .storeClosed) :
    ReflTransGen (Move config) s (resolve r result s) ∧ Settled config (resolve r result s) :=
  ⟨.single (.resolve r result hfresh hclose hclosed), hs.saturated, hs.waits, hs.delivered⟩

/-- So is one that sends its event; it needs a receiver, and a lifecycle that lets it pass. -/
theorem enter_spec (hs : Settled config s) (r : PendingEvent) (hfresh : s.issued ≤ r.origin.sender)
    (hphase : s.phase ≠ .dropped)
    (hlock : s.lifecycle = .opened ∨ s.lifecycle = .closing ∧ r.isClose = true) :
    ReflTransGen (Move config) s (enter r s) ∧ Settled config (enter r s) :=
  ⟨.single (.enter r hfresh hphase hlock), hs.saturated, hs.waits, hs.delivered⟩

/-- The check without the lock does nothing, or refuses. -/
theorem precheck_spec (h : Inv config s) (hs : Settled config s) (r : PendingEvent)
    (hclose : r.isClose = false) (hfresh : s.issued ≤ r.origin.sender) :
    ReflTransGen (Move config) s (precheck config r s) ∧ Settled config (precheck config r s) := by
  have hnot : r.isClose = true → s.lifecycle = .closed ∨ s.lifecycle = .shutdownFailed := by
    simp [hclose]
  unfold precheck
  rcases ensureOpen_cases h with ⟨hlock, hopen⟩ | ⟨hlock, hopen⟩
  · rw [hopen]
    simp only []
    split
    · exact resolve_spec hs r _ hfresh hnot fun _ hne => absurd hlock hne
    · exact ⟨.refl, hs⟩
  · rw [hopen]
    exact resolve_spec hs r _ hfresh hnot fun _ _ => rfl

/-- The send of a request: it enters an open store, and is refused by any other. -/
theorem submit_spec (h : Inv config s) (hs : Settled config s) (r : PendingEvent)
    (hclose : r.isClose = false) (hfresh : s.issued ≤ r.origin.sender) :
    ReflTransGen (Move config) s (submit r s) ∧ Settled config (submit r s) := by
  have hnot : r.isClose = true → s.lifecycle = .closed ∨ s.lifecycle = .shutdownFailed := by
    simp [hclose]
  unfold submit
  rcases lifecycle_cases h with hlock | hlock | hlock | hlock
  · have hphase := not_dropped h (Or.inl hlock)
    simp only [hlock, if_neg hphase]
    exact enter_spec hs r hfresh hphase (Or.inl hlock)
  all_goals
    simp only [hlock]
    exact resolve_spec hs r _ hfresh hnot fun _ _ => rfl

/-- The send of a close.  A store that is closing takes further closes, and one that has ended answers
    from its lifecycle. -/
theorem close_spec (h : Inv config s) (hs : Settled config s) (sub : CloseSubmission)
    (hfresh : s.issued ≤ sub.sender) :
    ReflTransGen (Move config) s (close sub s) ∧ Settled config (close sub s) := by
  unfold close
  rcases lifecycle_cases h with hlock | hlock | hlock | hlock
  · have hphase := not_dropped h (Or.inl hlock)
    simp only [hlock, if_neg hphase]
    exact enter_spec hs (.close sub) hfresh hphase (Or.inl hlock)
  · have hphase := not_dropped h (Or.inr hlock)
    simp only [hlock, if_neg hphase]
    exact enter_spec hs (.close sub) hfresh hphase (Or.inr ⟨hlock, rfl⟩)
  · simp only [hlock]
    exact resolve_spec hs (.close sub) _ hfresh (fun _ => Or.inl hlock) fun hr => nomatch hr
  · simp only [hlock]
    exact resolve_spec hs (.close sub) _ hfresh (fun _ => Or.inr hlock) fun hr => nomatch hr

/-! ## The shutdown

  The coordinator has left its loop, idle and with closes pending.  It joins the workers, answers the
  closes under the lock, and then empties its channel of what was sent in the meantime. -/

/-- The pool goes down and all closes are answered: one move. -/
theorem finishShutdown_spec (h : Inv config s) (hs : Settled config s) (ok : Bool)
    (hphase : s.phase = .joining) : ReflTransGen (Move config) s (finishShutdown ok s) ∧
      Settled config (finishShutdown ok s) := by
  -- by now the pending list holds closes only
  have honly := (h.idle (by simp [hphase])).2.2.2
  have hclose : ∀ r ∈ s.pending, r.isClose = true := by
    intro r hr
    by_contra hne
    have hmem : r ∈ s.pending.filter fun r => !r.isClose :=
      List.mem_filter.mpr ⟨hr, by simpa using hne⟩
    rw [honly] at hmem
    nomatch hmem
  have hmove : Move config s _ := .finishShutdown ok hphase
  unfold finishShutdown
  rw [List.takeWhile_eq_self_iff.mpr hclose, List.dropWhile_eq_nil_iff.mpr hclose]
  exact ⟨.single hmove, hs.saturated, fun hrunning => (nomatch hrunning), hs.delivered⟩

/-- What was sent before the lifecycle moved is answered in the drain.  Idle workers send nothing, so
    these are requests, and all of them came behind the first close. -/
theorem drainEvent_spec (h : Inv config s) (hs : Settled config s) (ok : Bool)
    (ev : CoordinatorEvent) (rest : List CoordinatorEvent) (hphase : s.phase = .draining ok)
    (hchannel : s.channel = ev :: rest) :
    ReflTransGen (Move config) s (drainEvent ok ev { s with channel := rest }) ∧
      Settled config (drainEvent ok ev { s with channel := rest }) := by
  have hlock : s.lifecycle ≠ .opened := by
    rw [(h.draining ok hphase).1]
    cases ok <;> exact fun h => (nomatch h)
  obtain ⟨hidle, hfree, -⟩ := h.idle (by simp [hphase])
  obtain ⟨r, rfl⟩ := requests_only h hidle hfree ev (by simp [hchannel])
  have hnot : s.phase ≠ .running := by simp [hphase]
  cases r with
  | close sub =>
    exact ⟨.single (.closeLate ok sub rest hchannel hphase), hs.saturated,
      fun hrunning => absurd hrunning hnot, hs.delivered⟩
  | submission sub =>
    have hmove : Move config s _ := .dismiss (.submission sub) rest hchannel rfl hlock
    simp only [drainEvent, PendingEvent.event, deliverError, Engine.observe, List.append_assoc]
    exact ⟨.single hmove, hs.saturated, fun hrunning => absurd hrunning hnot, hs.delivered⟩
  | maintenance sub =>
    exact ⟨.single (.dismiss (.maintenance sub) rest hchannel rfl hlock), hs.saturated,
      fun hrunning => absurd hrunning hnot, hs.delivered⟩
  | flush sender =>
    exact ⟨.single (.dismiss (.flush sender) rest hchannel rfl hlock), hs.saturated,
      fun hrunning => absurd hrunning hnot, hs.delivered⟩

/-- **When the channel disconnects, nothing is left to do.** -/
theorem quiet_of_disconnected (h : Inv config s) (hs : Settled config s)
    (hphase : s.phase = .running) (hgone : s.Disconnected) :
    s.busy = false ∧ s.maintenanceActive = false ∧ s.pending = [] ∧ s.lifecycle = .opened := by
  have hactive : s.active = ∅ := by
    rw [Finset.eq_empty_iff_forall_notMem]
    intro k hk
    have hcount := h.active k
    unfold Engine.outstanding at hcount
    rw [hgone.jobs, hgone.running, hgone.channel, if_pos hk] at hcount
    nomatch hcount
  have hfree : s.maintenanceActive = false := by
    have hmaintenance := h.maintenance
    unfold Engine.maintenanceOutstanding at hmaintenance
    rw [hgone.jobs, hgone.running, hgone.channel] at hmaintenance
    cases hflag : s.maintenanceActive with
    | false => rfl
    | true =>
      rw [hflag] at hmaintenance
      nomatch hmaintenance
  have hpending : s.pending = [] := by
    by_contra hne
    rcases hs.waits hphase hne with hflag | ⟨k, hk⟩
    · rw [hfree] at hflag
      nomatch hflag
    · rw [hactive] at hk
      exact absurd hk (Finset.notMem_empty k)
  refine ⟨Engine.busy_eq_false.mpr ⟨hactive, fun k => ?_⟩, hfree, hpending, ?_⟩
  · exact s.queues.allEmpty_iff.mp hgone.queues k
  · have hcloses := h.running (Or.inl hphase)
    rw [hpending, List.filter_nil] at hcloses
    have hnone : (received s.log).any PendingEvent.isClose = false := by
      rw [List.any_eq_false]
      exact List.filter_eq_nil_iff.mp hcloses.symm
    rw [h.alive (Or.inl hphase), hnone]
    rfl

/-- The end of a store whose last handle is gone: nobody is waiting, and only the workers are joined. -/
theorem finishDisconnected_spec (h : Inv config s) (hs : Settled config s) (ok : Bool)
    (hphase : s.phase = .running) (hgone : s.Disconnected) :
    ReflTransGen (Move config) s (finishDisconnected ok s) ∧
      Settled config (finishDisconnected ok s) := by
  obtain ⟨hidle, hfree, hpending, hlock⟩ := quiet_of_disconnected h hs hphase hgone
  have hmove : Move config s _ :=
    .disconnect ok hphase hgone.channel hpending hfree hidle hs.delivered hlock
  unfold finishDisconnected
  simp only [Engine.observe, hlock, ne_eq, reduceCtorEq, not_false_eq_true, if_true,
    List.append_assoc]
  exact ⟨.single hmove, hs.saturated, fun hrunning => (nomatch hrunning), hs.delivered⟩

/-- A coordinator that has returned drops an empty channel. -/
theorem dropReceiver_spec (h : Inv config s) (hs : Settled config s) (hphase : s.phase = .returned) :
    ReflTransGen (Move config) s { s with phase := .dropped, channel := [] } ∧
      Settled config { s with phase := .dropped, channel := [] } := by
  have hchannel := (h.gone (Or.inl hphase)).2.1
  have hmove : Move config s _ := .dropReceiver hphase hchannel
  rw [← hchannel]
  exact ⟨.single hmove, hs.saturated, fun hrunning => (nomatch hrunning), hs.delivered⟩

/-! ## Every step

  The steps are those of callers, of waiters that give up, of workers and of the coordinator. -/

/-- **Every step of the store is a run of moves, and leaves it settled.** -/
theorem moves_of_step (h : Inv config s) (hs : Settled config s) (hstep : Step config fates s s') :
    ReflTransGen (Move config) s s' ∧ Settled config s' := by
  cases hstep with
  | precheck r hhandle hclose hfresh => exact precheck_spec h hs r hclose hfresh
  | submit r hhandle hclose hvalid hfresh => exact submit_spec h hs r hclose hfresh
  | close sub hhandle hfresh => exact close_spec h hs sub hfresh
  | cloneHandle hhandle =>
    exact ⟨.single (.quiet _ s.clock s.abandoned), hs.saturated, hs.waits, hs.delivered⟩
  | dropHandle hhandle =>
    exact ⟨.single (.quiet _ s.clock s.abandoned), hs.saturated, hs.waits, hs.delivered⟩
  | dropWaiter ticket =>
    exact ⟨.single (.quiet s.handles s.clock _), hs.saturated, hs.waits, hs.delivered⟩
  | event ev rest hphase hchannel => exact onEvent_spec fates (h.ready hphase) hs ev hchannel
  | startJob job rest hjobs hthread =>
    exact ⟨.single (.startJob job rest hjobs hthread), hs.saturated, hs.waits, hs.delivered⟩
  | finishJob front back job ev entries hrunning hend =>
    exact ⟨.single (.finishJob front back job ev entries hrunning hend), hs.saturated, hs.waits,
      hs.delivered⟩
  | finishShutdown ok hphase hjobs hrunning => exact finishShutdown_spec h hs ok hphase
  | drainEvent ok ev rest hphase hchannel => exact drainEvent_spec h hs ok ev rest hphase hchannel
  | leave ok hphase hchannel =>
    exact ⟨.single (.leave ok hphase hchannel), hs.saturated, fun hrunning => (nomatch hrunning),
      hs.delivered⟩
  | disconnect ok hphase hgone => exact finishDisconnected_spec h hs ok hphase hgone
  | dropReceiver hphase => exact dropReceiver_spec h hs hphase

/-- **In every state the store can reach, the invariant holds and the store is settled.** -/
theorem inv_reachable (h : (engineSystem config fates).Reachable s) :
    Inv config s ∧ Settled config s := by
  have hinit : ∀ s, (engineSystem config fates).init s → Inv config s ∧ Settled config s := by
    rintro s rfl
    exact ⟨.initial config, .initial config⟩
  refine System.Reachable.invariant hinit ?_ h
  rintro s s' - ⟨hinv, hs⟩ hstep
  obtain ⟨hmoves, hs'⟩ := moves_of_step hinv hs hstep
  exact ⟨keep_run (fun _ _ h hm => h.move hm) hinv hmoves, hs'⟩

end Runs

end AtomicBlobStore
