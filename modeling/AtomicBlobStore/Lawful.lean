/-
  Every move keeps the phases and writes a lawful history.

  What the coordinator checks is small (a flag and two emptiness tests), and what it promises is
  large (everything ahead of a barrier is resolved).  The bridge is the ledger: when nothing is
  active, queued or running, `released_resolved` finds every released request in the only place that
  is left, the resolved one.  `takesEffect_front` and `drained` draw the two conclusions the history
  needs, for a barrier at the front of the pending list and for a store that stops.

  The direction matters.  The coordinator tests before it acts, so at the moment of an entry the tests
  are known to have come out well; what is needed is a statement about the history before the entry,
  and only the invariant of the state in front of the move can supply it.  This is why `Justified`
  looks back and never forward.
-/
import AtomicBlobStore.Invariants

namespace AtomicBlobStore

open Relation

section Keep

variable {config : StoreConfig} {s s' : Engine}

/-! ## Requests are known by their origin

  The history speaks of origins (a key and a ticket) where a request is queued, dispatched and
  resolved, and of whole requests where it enters and is received.  Tickets are fresh, so the two can
  be exchanged. -/

/-- Tickets grow, so no two requests have the same origin. -/
theorem entered_origins_nodup (h : Inv config s) :
    ((entered s.log).map PendingEvent.origin).Nodup := by
  have hsenders : ((entered s.log).map fun r => r.origin.sender).Nodup :=
    h.fresh.imp fun hlt => Nat.ne_of_lt hlt
  rw [show (fun r : PendingEvent => r.origin.sender) = Origin.sender ∘ PendingEvent.origin from rfl,
    ← List.map_map] at hsenders
  exact hsenders.of_map

theorem entered_nodup (h : Inv config s) : (entered s.log).Nodup := (entered_origins_nodup h).of_map

/-- Two requests that entered with one origin are one request. -/
theorem eq_of_origin (h : Inv config s) {r r' : PendingEvent} (hr : r ∈ entered s.log)
    (hr' : r' ∈ entered s.log) (heq : r.origin = r'.origin) : r = r' :=
  List.inj_on_of_nodup_map (entered_origins_nodup h) hr hr' heq

/-- What was received had entered. -/
theorem received_subset (h : Inv config s) {r : PendingEvent} (hr : r ∈ received s.log) :
    r ∈ entered s.log := by
  rw [h.order]
  exact List.mem_append_left _ hr

theorem beforeClose_subset {rs : List PendingEvent} {r : PendingEvent} (hr : r ∈ beforeClose rs) :
    r ∈ rs := (List.takeWhile_sublist _).subset hr

theorem not_close_of_beforeClose {rs : List PendingEvent} {r : PendingEvent}
    (hr : r ∈ beforeClose rs) : r.isClose = false := by
  simpa using List.mem_takeWhile_imp hr

/-- Only what precedes the first close is ever released: a close is answered and not released, and
    what follows it is refused. -/
theorem released_before (h : Inv config s) {r : PendingEvent} (hr : r ∈ released s.log) :
    r ∈ beforeClose (received s.log) := by
  rw [h.accepted]
  exact List.mem_append_left _ hr

theorem released_received (h : Inv config s) {r : PendingEvent} (hr : r ∈ released s.log) :
    r ∈ received s.log := beforeClose_subset (released_before h hr)

/-- What is pending was received: accepted requests and closes are looked for in the two halves of the
    list. -/
theorem pending_received (h : Inv config s) {r : PendingEvent} (hr : r ∈ s.pending) :
    r ∈ received s.log := by
  cases hclose : r.isClose with
  | false =>
    refine beforeClose_subset ?_
    rw [h.accepted]
    exact List.mem_append_right _ (List.mem_filter.mpr ⟨hr, by simp [hclose]⟩)
  | true =>
    have halive : s.phase = .running ∨ s.phase = .joining := by
      cases hphase : s.phase with
      | running => exact Or.inl rfl
      | joining => exact Or.inr rfl
      | draining ok => rw [(h.draining ok hphase).2.2] at hr; nomatch hr
      | returned => rw [(h.gone (Or.inl hphase)).2.2] at hr; nomatch hr
      | dropped => rw [(h.gone (Or.inr hphase)).2.2] at hr; nomatch hr
    have hmem : r ∈ s.pending.filter fun r => r.isClose := List.mem_filter.mpr ⟨hr, hclose⟩
    rw [h.running halive] at hmem
    exact (List.mem_filter.mp hmem).1

/-- A released request is neither in the channel nor pending any more. -/
theorem released_elsewhere (h : Inv config s) {r : PendingEvent} (hr : r ∈ released s.log) :
    r.origin ∉ s.requests.map PendingEvent.origin ∧
      r.origin ∉ s.pending.map PendingEvent.origin := by
  have hreceived := released_received h hr
  have hnodup := entered_nodup h
  rw [h.order] at hnodup
  constructor
  · intro hmem
    obtain ⟨r', hr', heq⟩ := List.mem_map.mp hmem
    obtain rfl := eq_of_origin h (by rw [h.order]; exact List.mem_append_right _ hr')
      (received_subset h hreceived) heq
    exact (List.nodup_append.mp hnodup).2.2 r' hreceived r' hr' rfl
  · intro hmem
    obtain ⟨r', hr', heq⟩ := List.mem_map.mp hmem
    obtain rfl := eq_of_origin h (received_subset h (pending_received h hr'))
      (received_subset h hreceived) heq
    have hclose := not_close_of_beforeClose (released_before h hr)
    have hbefore : (beforeClose (received s.log)).Nodup :=
      (List.takeWhile_sublist _).nodup (List.nodup_append.mp hnodup).1
    rw [h.accepted] at hbefore
    exact (List.nodup_append.mp hbefore).2.2 r' hr r'
      (List.mem_filter.mpr ⟨hr', by simp [hclose]⟩) rfl

/-- The ledger for a released request: it is queued, in a job, on its way back, or resolved. -/
theorem released_resolved_of (h : Inv config s) {r : PendingEvent} (hr : r ∈ released s.log)
    (hqueued : s.queued r.origin = 0) (hjobs : r.origin ∉ s.pool.jobs.map WorkerJob.origin)
    (hrunning : r.origin ∉ s.pool.running.map WorkerJob.origin) (houtcomes : r.origin ∉ s.outcomes)
    (houtcome : r.origin ∉ s.outcome.toList.map fun p => p.2.operation.origin p.1) :
    r.origin ∈ resolutions s.log := by
  obtain ⟨hrequests, hpending⟩ := released_elsewhere h hr
  have hpos : 0 < ((entered s.log).map PendingEvent.origin).count r.origin :=
    List.count_pos_iff.mpr (List.mem_map.mpr ⟨r, received_subset h (released_received h hr), rfl⟩)
  rw [← h.conserved, hqueued, Nat.add_zero, List.count_pos_iff] at hpos
  simp only [Engine.places, List.mem_append] at hpos
  rcases hpos with (((((hpos | hpos) | hpos) | hpos) | hpos) | hpos) | hpos
  · exact absurd hpos hrequests
  · exact absurd hpos hpending
  · exact absurd hpos hjobs
  · exact absurd hpos hrunning
  · exact absurd hpos houtcomes
  · exact absurd hpos houtcome
  · exact hpos

/-- **In an idle store everything released is resolved.** -/
theorem released_resolved (h : Inv config s) (hidle : s.busy = false)
    (hfree : s.maintenanceActive = false) (houtcome : s.outcome = none) {r : PendingEvent}
    (hr : r ∈ released s.log) : r.origin ∈ resolutions s.log := by
  obtain ⟨hjobs, hrunning, houtcomes⟩ := quiet_of_idle h hidle hfree
  refine released_resolved_of h hr (queuedIn_idle _ (Engine.busy_eq_false.mp hidle).2) ?_ ?_ ?_ ?_
  · simp [hjobs]
  · simp [hrunning]
  · simp [houtcomes]
  · simp [houtcome]

/-- A job without a key is a maintenance job. -/
theorem keyless_absent {jobs : List WorkerJob} {o : Origin} (ho : o.key = none)
    (h : jobs.countP WorkerJob.isMaintenance = 0) : o ∉ jobs.map WorkerJob.origin := by
  intro hmem
  obtain ⟨job, hjob, rfl⟩ := List.mem_map.mp hmem
  cases job with
  | operation key op => nomatch ho
  | maintenance sub =>
    have := List.countP_pos_iff.mpr ⟨_, hjob, (rfl : WorkerJob.isMaintenance (.maintenance sub) = true)⟩
    omega

/-- **While no maintenance runs, every maintenance job that has begun is resolved.** -/
theorem maintenance_resolved (h : Inv config s) (hfree : s.maintenanceActive = false) :
    ∀ m ∈ begun s.log, m.key = none → m ∈ resolutions s.log := by
  intro m hm hkey
  obtain ⟨r, hr, rfl⟩ := h.begunReleased m hm
  have hmaintenance := h.maintenance
  rw [hfree, Bool.toNat_false] at hmaintenance
  unfold Engine.maintenanceOutstanding at hmaintenance
  refine released_resolved_of h hr ?_ (keyless_absent hkey (by omega))
    (keyless_absent hkey (by omega)) ?_ ?_
  · unfold Engine.queued queuedIn
    rw [hkey]
  · intro hmem
    obtain ⟨ev, hev, hout⟩ := List.mem_filterMap.mp hmem
    cases ev with
    | completion done =>
      rw [outcome?_completion] at hout
      obtain ⟨f, -, hf⟩ := Option.map_eq_some_iff.mp hout
      rw [← hf] at hkey
      nomatch hkey
    | maintenanceCompletion done =>
      have := List.countP_pos_iff.mpr
        ⟨_, hev, (rfl : CoordinatorEvent.isMaintenanceCompletion (.maintenanceCompletion done) = true)⟩
      omega
    | submission sub => nomatch hout
    | maintenance sub => nomatch hout
    | flush sender => nomatch hout
    | close sub => nomatch hout
  · intro hmem
    obtain ⟨p, -, hp⟩ := List.mem_map.mp hmem
    rw [← hp] at hkey
    nomatch hkey

/-! ## Barriers and the end

  A barrier at the front of the pending list waits for an idle store.  Idleness is a test of the
  coordinator's own fields, and the two theorems say what it is worth in terms of the history. -/

/-- **A barrier at the front of an idle store may take effect.** -/
theorem takesEffect_front (h : Inv config s) (hidle : s.busy = false)
    (hfree : s.maintenanceActive = false) (houtcome : s.outcome = none) {r : PendingEvent}
    {rest : List PendingEvent} (hpending : s.pending = r :: rest) (hclose : r.isClose = false) :
    TakesEffect s.log r.origin := by
  have haccepted := h.accepted
  rw [hpending, List.filter_cons_of_pos (by simp [hclose])] at haccepted
  -- the history of what entered, cut at the barrier
  refine ⟨released s.log, r, rest.filter (fun r => !r.isClose) ++ afterClose (received s.log) ++
    s.requests, ?_, rfl, fun r' hr' => released_resolved h hidle hfree houtcome hr', fun m hm => ?_⟩
  · rw [h.order]
    nth_rewrite 1 [← beforeClose_append_afterClose (received s.log)]
    rw [haccepted]
    simp
  · obtain ⟨r', hr', rfl⟩ := h.begunReleased m hm
    exact List.mem_map_of_mem hr'

/-- **A store that is idle with only closes pending has drained what came before the first close.** -/
theorem drained (h : Inv config s) (hidle : s.busy = false) (hfree : s.maintenanceActive = false)
    (houtcome : s.outcome = none) (hpending : s.pending.filter (fun r => !r.isClose) = [])
    (hcut : (received s.log).any PendingEvent.isClose = true ∨ s.channel = []) : Drained s.log := by
  intro r hr
  have hbefore : r ∈ beforeClose (received s.log) := by
    rw [h.order] at hr
    rcases hcut with hany | hchannel
    · rwa [beforeClose_append hany] at hr
    · simpa [Engine.requests, hchannel] using hr
  have hreleased : r ∈ released s.log := by
    rwa [h.accepted, hpending, List.append_nil] at hbefore
  exact released_resolved h hidle hfree houtcome hreleased

/-! ## Phases

  Most phases have one thing to say, and one move leads to each of them.  The lemmas go through the
  moves for one field of `Phased` at a time. -/

/-- A store that is open never was anything else, -/
theorem LifecyclePath.of_opened {l : List Lifecycle} (h : LifecyclePath l .opened) : l = [] := by
  generalize hlock : Lifecycle.opened = lock at h
  cases h with
  | opened => rfl
  | closing => nomatch hlock
  | ended ok => cases ok <;> nomatch hlock
  | dropped => nomatch hlock

/-- and one that is closing was open before. -/
theorem LifecyclePath.of_closing {l : List Lifecycle} (h : LifecyclePath l .closing) :
    l = [.closing] := by
  generalize hlock : Lifecycle.closing = lock at h
  cases h with
  | opened => nomatch hlock
  | closing => rfl
  | ended ok => cases ok <;> nomatch hlock
  | dropped => nomatch hlock

theorem endLifecycle_cases (ok : Bool) :
    endLifecycle ok = .closed ∨ endLifecycle ok = .shutdownFailed := by
  cases ok
  · exact Or.inr rfl
  · exact Or.inl rfl

/-- A coordinator that joins its workers is closing. -/
theorem closing_of_joining (h : Inv config s) (hphase : s.phase = .joining) :
    s.lifecycle = .closing := by
  rw [h.alive (Or.inr hphase), if_pos (h.joining hphase)]

attribute [local simp] Engine.observe resolve enter deliver entered received released begun moved
  List.filterMap_cons

/-- The lifecycle takes only the steps of `LifecyclePath`: a close received first, the end of a
    shutdown, and the end of a store whose last handle is gone. -/
theorem path_move (h : Inv config s) (hm : Move config s s') :
    LifecyclePath (moved s'.log) s'.lifecycle := by
  have hpath := h.path
  cases hm with
  | closeFirst sub rest hchannel hphase hlock =>
    rw [hlock] at hpath
    simpa [hpath.of_opened] using LifecyclePath.closing
  | finishShutdown ok hphase =>
    rw [closing_of_joining h hphase] at hpath
    have hend := LifecyclePath.ended ok
    simpa [hpath.of_closing, List.filterMap_map, Function.comp_def] using hend
  | disconnect ok hphase hchannel hpending hfree hidle houtcome hlock =>
    rw [hlock] at hpath
    simpa [hpath.of_opened] using LifecyclePath.dropped
  | finishJob front back job ev entries hrunning hend =>
    rcases hend.entries with ⟨rfl, -⟩ | ⟨rfl, -⟩ <;> simpa using hpath
  | takeMaintenance done rest hchannel => cases hd : done.outcome <;> simpa [hd] using hpath
  | _ => simpa using hpath

/-- A pool that was shut down stays so. -/
theorem Stopped.append {log : List Observation} (h : Stopped log) (more : List Observation) :
    Stopped (log ++ more) := by
  obtain ⟨ok, hok⟩ := h
  exact ⟨ok, List.mem_append_left _ hok⟩

/-- The pool is shut down and the lifecycle set to its end by one move. -/
theorem stopped_move (h : Inv config s) (hm : Move config s s') :
    Stopped s'.log ↔ s'.lifecycle = .closed ∨ s'.lifecycle = .shutdownFailed := by
  have hstopped := h.stopped
  unfold Stopped at hstopped ⊢
  cases hm with
  | finishShutdown ok hphase => exact ⟨fun _ => endLifecycle_cases ok, fun _ => ⟨ok, by simp⟩⟩
  | disconnect ok hphase => exact ⟨fun _ => Or.inl rfl, fun _ => ⟨ok, by simp⟩⟩
  | closeFirst sub rest hchannel hphase hlock =>
    rw [hlock] at hstopped
    simpa using hstopped
  | finishJob front back job ev entries hrunning hend =>
    rcases hend.entries with ⟨rfl, -⟩ | ⟨rfl, -⟩ <;> simpa using hstopped
  | takeMaintenance done rest hchannel => cases hd : done.outcome <;> simpa [hd] using hstopped
  | _ => simpa using hstopped

/-- In the loop and while it joins its workers, the coordinator keeps all closes it received: they are
    answered together when the workers are gone. -/
theorem running_move (h : Inv config s) (hm : Move config s s')
    (hphase' : s'.phase = .running ∨ s'.phase = .joining) :
    s'.pending.filter (fun r => r.isClose) = (received s'.log).filter fun r => r.isClose := by
  have hrunning := h.running
  cases hm with
  | closeLate ok sub rest hchannel hphase => simp_all
  | finishShutdown ok hphase => simp at hphase'
  | leave ok hphase => simp at hphase'
  | disconnect ok hphase => simp at hphase'
  | dropReceiver hphase => simp at hphase'
  | stop sub rest hpending hphase => simpa using hrunning (Or.inl hphase)
  | finishJob front back job ev entries hrunning' hend =>
    rcases hend.entries with ⟨rfl, -⟩ | ⟨rfl, -⟩ <;> simpa using hrunning hphase'
  | takeMaintenance done rest hchannel =>
    cases hd : done.outcome <;> simpa [hd] using hrunning hphase'
  | closeFirst sub rest => simpa [PendingEvent.isClose] using hrunning hphase'
  | closeMore sub rest => simpa [PendingEvent.isClose] using hrunning hphase'
  | accept sub rest => simpa [PendingEvent.isClose] using hrunning hphase'
  | release sub rest hpending => simpa [hpending, PendingEvent.isClose] using hrunning hphase'
  | flush sender rest hpending => simpa [hpending, PendingEvent.isClose] using hrunning hphase'
  | maintain sub rest pool clock hpending =>
    simpa [hpending, PendingEvent.isClose] using hrunning hphase'
  | maintainFailed sub rest pool clock hpending =>
    simpa [hpending, PendingEvent.isClose] using hrunning hphase'
  | park r rest hchannel hclose => simpa [hclose] using hrunning hphase'
  | dismiss r rest hchannel hclose => simpa [hclose] using hrunning hphase'
  | _ => simpa using hrunning hphase'

/-- The lifecycle follows the first close at once, and no later one changes it. -/
theorem alive_move (h : Inv config s) (hm : Move config s s')
    (hphase' : s'.phase = .running ∨ s'.phase = .joining) :
    s'.lifecycle = if (received s'.log).any PendingEvent.isClose then .closing else .opened := by
  have halive := h.alive
  cases hm with
  | closeLate ok sub rest hchannel hphase => simp_all
  | finishShutdown ok hphase => simp at hphase'
  | leave ok hphase => simp at hphase'
  | disconnect ok hphase => simp at hphase'
  | dropReceiver hphase => simp at hphase'
  | stop sub rest hpending hphase => simpa using halive (Or.inl hphase)
  | finishJob front back job ev entries hrunning' hend =>
    rcases hend.entries with ⟨rfl, -⟩ | ⟨rfl, -⟩ <;> simpa using halive hphase'
  | takeMaintenance done rest hchannel =>
    cases hd : done.outcome <;> simpa [hd] using halive hphase'
  | closeFirst sub rest => simp [PendingEvent.isClose]
  | closeMore sub rest hchannel hphase hlock => simpa [PendingEvent.isClose] using hlock
  | accept sub rest => simpa [PendingEvent.isClose] using halive hphase'
  | park r rest hchannel hclose => simpa [hclose] using halive hphase'
  | dismiss r rest hchannel hclose => simpa [hclose] using halive hphase'
  | _ => simpa using halive hphase'

/-- A first close stays received. -/
theorem any_close_move (hm : Move config s s')
    (hany : (received s.log).any PendingEvent.isClose = true) :
    (received s'.log).any PendingEvent.isClose = true := by
  have hgrow : ∀ more : List Observation,
      (received (s.log ++ more)).any PendingEvent.isClose = true := by
    intro more
    rw [received_append, List.any_append, hany, Bool.true_or]
  cases hm with
  | quiet => exact hany
  | takeCompletion => exact hany
  | tidy => exact hany
  | stop => exact hany
  | leave => exact hany
  | dropReceiver => exact hany
  | _ => exact hgrow _

/-- The loop is left for a shutdown only with a close pending. -/
theorem joining_move (h : Inv config s) (hm : Move config s s') (hphase' : s'.phase = .joining) :
    (received s'.log).any PendingEvent.isClose = true := by
  by_cases hphase : s.phase = .joining
  · exact any_close_move hm (h.joining hphase)
  cases hm with
  | stop sub rest hpending hrunning =>
    have hcloses := h.running (Or.inl hrunning)
    rw [hpending] at hcloses
    have hmem : PendingEvent.close sub ∈ (received s.log).filter fun r => r.isClose := by
      rw [← hcloses]
      simp [PendingEvent.isClose]
    obtain ⟨hmem, hclose⟩ := List.mem_filter.mp hmem
    exact List.any_eq_true.mpr ⟨_, hmem, hclose⟩
  | finishShutdown ok => cases hphase'
  | leave ok => cases hphase'
  | disconnect ok => cases hphase'
  | dropReceiver => cases hphase'
  | _ => exact absurd hphase' hphase

/-- The workers are joined before the closes are answered, and after that nothing is left pending. -/
theorem draining_move (h : Inv config s) (hm : Move config s s') (ok : Bool)
    (hphase' : s'.phase = .draining ok) : s'.lifecycle = endLifecycle ok ∧
      (received s'.log).any PendingEvent.isClose = true ∧ s'.pending = [] := by
  have hstays := any_close_move hm
  by_cases hphase : s.phase = .draining ok
  · obtain ⟨hlock, hany, hpending⟩ := h.draining ok hphase
    refine ⟨?_, hstays hany, ?_⟩
    · cases hm <;> simp_all
    · cases hm <;> simp_all
  cases hm with
  | finishShutdown ok' hjoining =>
    obtain rfl : ok' = ok := by injection hphase'
    exact ⟨rfl, hstays (h.joining hjoining), rfl⟩
  | stop => cases hphase'
  | leave ok => cases hphase'
  | disconnect ok => cases hphase'
  | dropReceiver => cases hphase'
  | _ => exact absurd hphase' hphase

/-- A store that has stopped runs nothing. -/
theorem running_nil (h : Inv config s) (hphase : s.phase ≠ .running) : s.pool.running = [] := by
  obtain ⟨hidle, hfree, -⟩ := h.idle hphase
  exact (quiet_of_idle h hidle hfree).2.1

/-- The coordinator returns when its channel is empty.  A store that is not open lets no request in,
    so the channel stays empty. -/
theorem gone_move (h : Inv config s) (hm : Move config s s')
    (hphase' : s'.phase = .returned ∨ s'.phase = .dropped) :
    (s'.lifecycle = .closed ∨ s'.lifecycle = .shutdownFailed) ∧ s'.channel = [] ∧
      s'.pending = [] := by
  have hgone := h.gone
  cases hm with
  | leave ok hphase hchannel =>
    obtain ⟨hlock, -, hpending⟩ := h.draining ok hphase
    exact ⟨by rw [show s.lifecycle = _ from hlock]; exact endLifecycle_cases ok, hchannel, hpending⟩
  | disconnect ok hphase hchannel hpending => exact ⟨Or.inl rfl, hchannel, hpending⟩
  | dropReceiver hphase hchannel => exact hgone (Or.inl hphase)
  | finishShutdown ok hphase => simp at hphase'
  | stop => simp at hphase'
  | enter r hnew hphase hlock =>
    rcases (hgone hphase').1 with hlock' | hlock' <;> simp [hlock'] at hlock
  | finishJob front back job ev entries hrunning hend =>
    have hphase : s.phase ≠ .running := by
      rcases hphase' with h' | h' <;> exact fun heq => by simp [heq] at h'
    rw [running_nil h hphase] at hrunning
    exact absurd hrunning (by simp)
  | dismiss r rest hchannel => rw [(hgone hphase').2.1] at hchannel; nomatch hchannel
  | closeLate ok sub rest hchannel => rw [(hgone hphase').2.1] at hchannel; nomatch hchannel
  | park r rest hchannel => rw [(hgone hphase').2.1] at hchannel; nomatch hchannel
  | accept sub rest hchannel => rw [(hgone hphase').2.1] at hchannel; nomatch hchannel
  | closeFirst sub rest hchannel => rw [(hgone hphase').2.1] at hchannel; nomatch hchannel
  | closeMore sub rest hchannel => rw [(hgone hphase').2.1] at hchannel; nomatch hchannel
  | takeCompletion done rest hchannel => rw [(hgone hphase').2.1] at hchannel; nomatch hchannel
  | takeMaintenance done rest hchannel => rw [(hgone hphase').2.1] at hchannel; nomatch hchannel
  | release sub rest hpending => rw [(hgone hphase').2.2] at hpending; nomatch hpending
  | flush sender rest hpending => rw [(hgone hphase').2.2] at hpending; nomatch hpending
  | maintain sub rest pool clock hpending => rw [(hgone hphase').2.2] at hpending; nomatch hpending
  | maintainFailed sub rest pool clock hpending =>
    rw [(hgone hphase').2.2] at hpending
    nomatch hpending
  | _ => exact hgone hphase'

/-- The job channel is closed on the way out of the loop, and nowhere else. -/
theorem sender_move (h : Inv config s) (hm : Move config s s') (hphase' : s'.phase = .running) :
    s'.pool.sender = true := by
  have hsender := h.sender
  cases hm with
  | begin key op queues pool clock hphase hidle hbound hfree hpop hpool =>
    exact hpool.sender.trans (hsender hphase)
  | beginFailed key op queues pool clock hphase hidle hbound hfree hpop hpool =>
    exact hpool.sender.trans (hsender hphase)
  | maintain sub rest pool clock hpending hphase hfree hidle houtcome hpool =>
    exact hpool.sender.trans (hsender hphase)
  | maintainFailed sub rest pool clock hpending hphase hfree hidle houtcome hpool =>
    exact hpool.sender.trans (hsender hphase)
  | stop => nomatch hphase'
  | finishShutdown ok => nomatch hphase'
  | leave ok => nomatch hphase'
  | disconnect ok => nomatch hphase'
  | dropReceiver => nomatch hphase'
  | _ => exact hsender hphase'

/-- A close at the front leaves only closes. -/
theorem only_closes (h : Inv config s) {sub : CloseSubmission} {rest : List PendingEvent}
    (hpending : s.pending = .close sub :: rest) : s.pending.filter (fun r => !r.isClose) = [] := by
  have hsuffix := h.suffix
  cases hnonclose : s.pending.filter fun r => !r.isClose with
  | nil => rfl
  | cons r rs =>
    rw [hnonclose, hpending, List.cons_append] at hsuffix
    obtain rfl := (List.cons.inj hsuffix).1
    have hmem : PendingEvent.close sub ∈ s.pending.filter fun r => !r.isClose := by simp [hnonclose]
    simp [PendingEvent.isClose] at hmem

/-- The coordinator leaves its loop when it is idle and only closes wait, or when nobody is left to
    send; after that no request becomes active any more. -/
theorem idle_move (h : Inv config s) (hm : Move config s s') (hphase' : s'.phase ≠ .running) :
    s'.busy = false ∧ s'.maintenanceActive = false ∧ s'.outcome = none ∧
      s'.pending.filter (fun r => !r.isClose) = [] := by
  have hidle := h.idle
  cases hm with
  | stop sub rest hpending hphase hfree hquiet houtcome =>
    have hnone := only_closes h hpending
    exact ⟨hquiet, hfree, houtcome, hnone⟩
  | disconnect ok hphase hchannel hpending hfree hquiet houtcome =>
    exact ⟨hquiet, hfree, houtcome, by simp [hpending]⟩
  | finishShutdown ok hphase =>
    obtain ⟨hquiet, hfree, houtcome, -⟩ := hidle (by simp [hphase])
    exact ⟨hquiet, hfree, houtcome, rfl⟩
  | leave ok hphase => exact hidle (by simp [hphase])
  | dropReceiver hphase => exact hidle (by simp [hphase])
  | park r rest hchannel hclose hphase => exact absurd hphase hphase'
  | accept sub rest hchannel hphase => exact absurd hphase hphase'
  | closeFirst sub rest hchannel hphase => exact absurd hphase hphase'
  | closeMore sub rest hchannel hphase => exact absurd hphase hphase'
  | takeCompletion done rest hchannel hphase => exact absurd hphase hphase'
  | deliver key f hphase => exact absurd hphase hphase'
  | takeMaintenance done rest hchannel hphase => exact absurd hphase hphase'
  | beginFailed key op queues pool clock hphase => exact absurd hphase hphase'
  | begin key op queues pool clock hphase => exact absurd hphase hphase'
  | release sub rest hpending hphase => exact absurd hphase hphase'
  | flush sender rest hpending hphase => exact absurd hphase hphase'
  | maintain sub rest pool clock hpending hphase => exact absurd hphase hphase'
  | maintainFailed sub rest pool clock hpending hphase => exact absurd hphase hphase'
  | tidy key hphase => exact absurd hphase hphase'
  | _ => exact hidle hphase'

/-- Every move keeps the phases. -/
theorem Phased.move (h : Inv config s) (hm : Move config s s') : Phased s' where
  path := path_move h hm
  stopped := stopped_move h hm
  running := running_move h hm
  alive := alive_move h hm
  joining := joining_move h hm
  draining := draining_move h hm
  gone := gone_move h hm
  sender := sender_move h hm
  idle := idle_move h hm

/-! ## The history is lawful

  An entry is judged by the history before it, so a move has to justify the entries it appends and
  nothing else.  Those of most moves need no justification, or repeat the guard of the move. -/

/-- Entries that enter or begin nothing leave a barrier in effect. -/
theorem TakesEffect.append {log more : List Observation} {o : Origin} (h : TakesEffect log o)
    (hentered : entered more = []) (hbegun : begun more = []) : TakesEffect (log ++ more) o := by
  obtain ⟨before, r, after, hsplit, horigin, hresolved, hahead⟩ := h
  refine ⟨before, r, after, ?_, horigin, fun r' hr' => ?_, fun m hm => ?_⟩
  · rw [entered_append, hentered, List.append_nil, hsplit]
  · rw [resolutions_append]
    exact List.mem_append_left _ (hresolved r' hr')
  · rw [begun_append, hbegun, List.append_nil] at hm
    exact hahead m hm

/-- A barrier at the front of an idle store is released and takes effect. -/
theorem takesEffect_release (h : Inv config s) (hidle : s.busy = false)
    (hfree : s.maintenanceActive = false) (houtcome : s.outcome = none) {r : PendingEvent}
    {rest : List PendingEvent} (hpending : s.pending = r :: rest) (hclose : r.isClose = false) :
    TakesEffect (s.log ++ [.released r]) r.origin :=
  (takesEffect_front h hidle hfree houtcome hpending hclose).append rfl rfl

/-- A close may be answered once the pool has been shut down. -/
theorem lawful_close {r : PendingEvent} (hr : r ∈ entered s.log) (hclose : r.isClose = true)
    {more : List Observation} (hstopped : Stopped (s.log ++ more))
    (result : Except AtomicBlobStoreError Unit) :
    Lawful (s.log ++ more) (.answered r.origin result) := by
  refine ⟨r, ?_, rfl, ?_⟩
  · rw [entered_append]
    exact List.mem_append_left _ hr
  · rw [if_pos hclose]
    exact hstopped

/-- The lifecycle has moved when it is not open. -/
theorem not_opened_of_moved (h : Inv config s) (hmoved : moved s.log ≠ []) : s.lifecycle ≠ .opened := by
  intro hlock
  have hpath := h.path
  rw [hlock] at hpath
  exact hmoved hpath.of_opened

/-- The cases with an argument are those in which the coordinator answers: a flush, a maintenance that
    begins, an operation that is dispatched, the closes, and the end of the pool. -/
theorem lawful_move (h : Inv config s) (hm : Move config s s') : Justified Lawful s'.log := by
  have hlawful := h.lawful
  -- two entries at once
  have hpair : ∀ first second : Observation, Lawful s.log first →
      Lawful (s.log ++ [first]) second → Justified Lawful (s.log ++ [first, second]) := by
    intro first second hfirst hsecond
    have hboth := justified_concat.mpr ⟨justified_concat.mpr ⟨hlawful, hfirst⟩, hsecond⟩
    rwa [List.append_assoc] at hboth
  cases hm with
  | begin key op queues pool clock hphase hidle hbound hfree =>
    exact justified_concat.mpr ⟨hlawful, maintenance_resolved h hfree⟩
  | beginFailed key op queues pool clock hphase hidle hbound hfree =>
    exact hpair _ _ (maintenance_resolved h hfree) trivial
  | flush sender rest hpending hphase hfree hidle houtcome =>
    have heffect := takesEffect_release h hidle hfree houtcome hpending rfl
    have hmem : PendingEvent.flush sender ∈ entered s.log :=
      received_subset h (pending_received h (by simp [hpending]))
    refine hpair (.released _) _ trivial ⟨.flush sender, ?_, rfl, heffect⟩
    rw [entered_append]
    exact List.mem_append_left _ hmem
  | maintain sub rest pool clock hpending hphase hfree hidle houtcome =>
    exact hpair (.released _) _ trivial (takesEffect_release h hidle hfree houtcome hpending rfl)
  | maintainFailed sub rest pool clock hpending hphase hfree hidle houtcome =>
    have hbegun := hpair (.released _) (.begun ⟨none, sub.sender⟩) trivial
      (takesEffect_release h hidle hfree houtcome hpending rfl)
    have hrejected : Lawful (s.log ++ [.released (.maintenance sub), .begun ⟨none, sub.sender⟩])
        (.rejected ⟨none, sub.sender⟩ .workerUnavailable) := trivial
    have hall := justified_concat.mpr ⟨hbegun, hrejected⟩
    rwa [List.append_assoc] at hall
  | finishShutdown ok hphase =>
    obtain ⟨hidle, hfree, houtcome, honly⟩ := h.idle (by simp [hphase])
    have hdrained := drained h hidle hfree houtcome honly (Or.inl (h.joining hphase))
    have hstopped := hpair (.stopped ok) (.moved (endLifecycle ok)) hdrained trivial
    -- the remaining entries answer the closes in the pending list
    suffices hanswers : Justified Lawful (s.log ++ [.stopped ok, .moved (endLifecycle ok)] ++
        s.pending.map fun r => .answered r.origin (closeResult ok)) by
      rwa [List.append_assoc] at hanswers
    refine hstopped.append fun before entry after hsplit => ?_
    obtain ⟨closes, others, hcloses, rfl, hrest⟩ := List.map_eq_append_iff.mp hsplit
    obtain ⟨r, others, rfl, rfl, -⟩ := List.map_eq_cons_iff.mp hrest
    have hr : r ∈ s.pending := by simp [hcloses]
    have hclose : r.isClose = true := by
      by_contra hne
      have hmem : r ∈ s.pending.filter fun r => !r.isClose :=
        List.mem_filter.mpr ⟨hr, by simpa using hne⟩
      rw [honly] at hmem
      nomatch hmem
    rw [List.append_assoc]
    exact lawful_close (received_subset h (pending_received h hr)) hclose ⟨ok, by simp⟩ _
  | closeLate ok sub rest hchannel hphase =>
    have hstopped : Stopped s.log := by
      rw [h.stopped, (h.draining ok hphase).1]
      exact endLifecycle_cases ok
    have hmem : PendingEvent.close sub ∈ entered s.log := by
      rw [h.order]
      exact List.mem_append_right _ (by simp [Engine.requests, hchannel])
    exact hpair _ _ trivial (lawful_close hmem rfl (hstopped.append _) _)
  | disconnect ok hphase hchannel hpending hfree hidle houtcome =>
    exact hpair _ _ (drained h hidle hfree houtcome (by simp [hpending]) (Or.inr hchannel)) trivial
  | quiet => exact hlawful
  | takeCompletion => exact hlawful
  | tidy => exact hlawful
  | stop => exact hlawful
  | leave => exact hlawful
  | dropReceiver => exact hlawful
  | finishJob front back job ev entries hrunning hend =>
    refine hlawful.append_free fun l entry hmem => ?_
    rcases hend.entries with ⟨rfl, -⟩ | ⟨rfl, -⟩
    · nomatch hmem
    · obtain rfl := List.mem_singleton.mp hmem
      trivial
  | takeMaintenance done rest hchannel =>
    refine hlawful.append_free fun l entry hmem => ?_
    obtain ⟨o, -, rfl⟩ := List.mem_map.mp hmem
    trivial
  | resolve r result hfresh hclose hclosed =>
    refine justified_concat.mpr ⟨hlawful, ?_⟩
    show if r.isClose then _ else _
    split
    · rename_i hr
      exact h.stopped.mpr (hclose hr)
    · rename_i hr
      exact fun hmoved => hclosed (by simpa using hr) (not_opened_of_moved h hmoved)
  | enter r hfresh hphase hlock =>
    refine justified_concat.mpr ⟨hlawful, fun hstopped => ?_⟩
    rcases h.stopped.mp hstopped with hlock' | hlock' <;> simp [hlock'] at hlock
  | startJob job rest hjobs =>
    refine justified_concat.mpr ⟨hlawful, h.started.subset (List.mem_append_right _ ?_)⟩
    simp [hjobs]
  | park r => exact justified_concat.mpr ⟨hlawful, trivial⟩
  | closeMore sub => exact justified_concat.mpr ⟨hlawful, trivial⟩
  | deliver key f => exact justified_concat.mpr ⟨hlawful, trivial⟩
  | release sub => exact justified_concat.mpr ⟨hlawful, trivial⟩
  | dismiss r => exact hpair _ _ trivial trivial
  | accept sub => exact hpair _ _ trivial trivial
  | closeFirst sub => exact hpair _ _ trivial trivial

/-- **Every move keeps the invariant.** -/
theorem Inv.move (h : Inv config s) (hm : Move config s s') : Inv config s' where
  toOrdered := Ordered.move h hm
  toPhased := Phased.move h hm
  toScheduled := Scheduled.move h hm
  toAccounted := Accounted.move h hm
  lawful := lawful_move h hm

end Keep

end AtomicBlobStore
