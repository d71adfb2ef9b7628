/-
  Dropping the LAST HANDLE.

  Nobody closes a store whose handles are simply dropped: the coordinator goes on until `recv` finds
  the event channel empty and without a sender.  A sender is held by every handle, and by every
  submission and maintenance request wherever it is: in the channel, the pending list, a queue or a
  job.  A flush or a close holds none.

  * `disconnected_iff_senders` — `recv` fails exactly when no sender is left and the channel is
    empty;
  * `Accountable`, `accountable_reachable` — what an answer in the history says about the request it
    answers, kept by every move;
  * `served_of_drained` — a request that is resolved before the pool is shut down was executed, or
    refused by its own dispatch, or is a flush that was answered with success;
  * `last_handle_drains` — the three together, in every reachable state.
-/
import AtomicBlobStore.Guarantees

namespace AtomicBlobStore

/-! ## Counting senders

  A channel is disconnected when its last sender is gone, and the model says where senders are instead
  of counting them.  So that `recv` fails when it should is a theorem: the places that `Disconnected`
  lists are all the places a sender can be in. -/

/-- The request carries a sender of the event channel (`completion_sender`). -/
def PendingEvent.carriesSender : PendingEvent → Bool
  | .submission _ => true
  | .maintenance _ => true
  | .flush _ => false
  | .close _ => false

/-- The event carries a sender of the event channel: a completion was sent over one, and holds
    none. -/
def CoordinatorEvent.carriesSender (ev : CoordinatorEvent) : Bool :=
  ev.request?.any PendingEvent.carriesSender

/-- The senders of the event channel. -/
def Engine.senders (s : Engine) : Nat :=
  s.handles + s.channel.countP CoordinatorEvent.carriesSender
    + s.pending.countP PendingEvent.carriesSender + s.queues.total
    + s.pool.jobs.length + s.pool.running.length

/-- **`recv` fails exactly when no sender is left.** -/
theorem disconnected_iff_senders (s : Engine) :
    s.Disconnected ↔ s.senders = 0 ∧ s.channel = [] := by
  unfold Engine.senders
  constructor
  · intro h
    refine ⟨?_, h.channel⟩
    have hpending : s.pending.countP PendingEvent.carriesSender = 0 := by
      rw [List.countP_eq_zero]
      intro r hr
      cases r with
      | submission sub => exact absurd rfl (h.pending _ hr sub)
      | maintenance sub => exact absurd rfl (h.barriers _ hr sub)
      | flush sender => exact Bool.false_ne_true
      | close sub => exact Bool.false_ne_true
    rw [h.handles, h.channel, h.jobs, h.running, hpending, s.queues.total_eq_zero_iff.mpr h.queues]
    rfl
  · rintro ⟨hsenders, hchannel⟩
    have hpending : s.pending.countP PendingEvent.carriesSender = 0 := by omega
    rw [List.countP_eq_zero] at hpending
    exact {
      handles := by omega
      channel := hchannel
      queues := s.queues.total_eq_zero_iff.mp (by omega)
      pending := fun r hr sub heq => hpending r hr (by rw [heq]; rfl)
      barriers := fun r hr sub heq => hpending r hr (by rw [heq]; rfl)
      jobs := List.length_eq_zero_iff.mp (by omega)
      running := List.length_eq_zero_iff.mp (by omega) }

/-! ## What an answer says

  The history tells that a request was answered, and `Accountable` adds what the answer says about the
  request: good news that no job brought goes to a close or to a flush, and only maintenance becomes a
  job without a key. -/

/-- When an entry may be written, for the request it is about: an outcome belongs to a job that was
    started, a job without a key to a maintenance request, and an answer to a close or, when it is
    good news, to a flush. -/
def Accountable (log : List Observation) : Observation → Prop
  | .delivered o _ => o ∈ executed log
  | .lost o => o ∈ executed log
  | .begun o => o.key = none → ∃ sub, .maintenance sub ∈ entered log ∧ o = ⟨none, sub.sender⟩
  | .answered o result => ∃ r ∈ entered log, r.origin = o ∧
      (r.isClose = true ∨ (∃ sender, r = .flush sender) ∧ result = .ok ())
  | _ => True

section Keep

variable {config : StoreConfig} {s s' : Engine}

/-- A job that runs, or whose outcome is on its way, was started. -/
theorem executed_of_outcome (h : Inv config s) {o : Origin}
    (ho : o ∈ s.pool.running.map WorkerJob.origin ∨ o ∈ s.outcomes ∨
      o ∈ s.outcome.toList.map fun p => p.2.operation.origin p.1) : o ∈ executed s.log := by
  have hjobs := h.jobs o
  rw [← List.count_pos_iff]
  rcases ho with ho | ho | ho
  all_goals
    have := List.count_pos_iff.mpr ho
    omega

/-- The closes of a drained store are answered. -/
theorem accountable_closes (h : Inv config s) (hphase : s.phase = .joining)
    (result : Except AtomicBlobStoreError Unit) (l : List Observation) :
    ∀ r ∈ s.pending, Accountable (s.log ++ l) (.answered r.origin result) := by
  intro r hr
  refine ⟨r, ?_, rfl, Or.inl ?_⟩
  · rw [entered_append]
    exact List.mem_append_left _ (received_subset h (pending_received h hr))
  · by_contra hne
    have hmem : r ∈ s.pending.filter fun r => !r.isClose :=
      List.mem_filter.mpr ⟨hr, by simpa using hne⟩
    rw [(h.idle (by simp [hphase])).2.2.2] at hmem
    nomatch hmem

/-- Each entry is justified when it is written; most moves write none that is about a request. -/
theorem accountable_move (h : Inv config s) (hlog : Justified Accountable s.log)
    (hm : Move config s s') : Justified Accountable s'.log := by
  -- two entries at once
  have hpair : ∀ first second : Observation, Accountable s.log first →
      Accountable (s.log ++ [first]) second → Justified Accountable (s.log ++ [first, second]) := by
    intro first second hfirst hsecond
    have hboth := justified_concat.mpr ⟨justified_concat.mpr ⟨hlog, hfirst⟩, hsecond⟩
    rwa [List.append_assoc] at hboth
  -- a maintenance request at the front of the pending list
  have hmaintenance : ∀ sub rest, s.pending = .maintenance sub :: rest →
      Accountable (s.log ++ [.released (.maintenance sub)]) (.begun ⟨none, sub.sender⟩) := by
    intro sub rest hpending _
    refine ⟨sub, ?_, rfl⟩
    rw [entered_append]
    exact List.mem_append_left _ (received_subset h (pending_received h (by simp [hpending])))
  cases hm with
  | deliver key f hphase houtcome =>
    exact justified_concat.mpr ⟨hlog, executed_of_outcome h (Or.inr (Or.inr (by simp [houtcome])))⟩
  | takeMaintenance done rest hchannel =>
    refine hlog.append fun before entry after hsplit => ?_
    obtain ⟨o, ho, rfl⟩ := List.mem_map.mp (show entry ∈ _ by rw [hsplit]; simp)
    have hexecuted : (⟨none, o.sender⟩ : Origin) ∈ executed s.log := by
      refine executed_of_outcome h (Or.inr (Or.inl ?_))
      simp [Engine.outcomes, hchannel, Option.mem_toList.mp ho]
    show _ ∈ executed (s.log ++ before)
    rw [executed, List.filterMap_append]
    exact List.mem_append_left _ hexecuted
  | finishJob front back job ev entries hrunning hend =>
    rcases hend.entries with ⟨rfl, -⟩ | ⟨rfl, -⟩
    · show Justified Accountable (s.log ++ [])
      rwa [List.append_nil]
    · exact justified_concat.mpr ⟨hlog, executed_of_outcome h (Or.inl (by simp [hrunning]))⟩
  | begin key op => exact justified_concat.mpr ⟨hlog, fun hkey => nomatch hkey⟩
  | beginFailed key op => exact hpair _ _ (fun hkey => nomatch hkey) trivial
  | maintain sub rest pool clock hpending =>
    exact hpair _ _ trivial (hmaintenance sub rest hpending)
  | maintainFailed sub rest pool clock hpending =>
    have hbegun := hpair (.released (.maintenance sub)) (.begun ⟨none, sub.sender⟩) trivial
      (hmaintenance sub rest hpending)
    have hrejected : Accountable (s.log ++ [.released (.maintenance sub), .begun ⟨none, sub.sender⟩])
        (.rejected ⟨none, sub.sender⟩ .workerUnavailable) := trivial
    have hall := justified_concat.mpr ⟨hbegun, hrejected⟩
    rwa [List.append_assoc] at hall
  | flush sender rest hpending =>
    refine hpair (.released _) _ trivial ⟨.flush sender, ?_, rfl, Or.inr ⟨⟨sender, rfl⟩, rfl⟩⟩
    rw [entered_append]
    exact List.mem_append_left _ (received_subset h (pending_received h (by simp [hpending])))
  | closeLate ok sub rest hchannel hphase =>
    refine hpair _ _ trivial ⟨.close sub, ?_, rfl, Or.inl rfl⟩
    rw [entered_append, h.order]
    exact List.mem_append_left _ (List.mem_append_right _ (by simp [Engine.requests, hchannel]))
  | finishShutdown ok hphase =>
    have hstopped := hpair (.stopped ok) (.moved (endLifecycle ok)) trivial trivial
    suffices hanswers : Justified Accountable (s.log ++ [.stopped ok, .moved (endLifecycle ok)] ++
        s.pending.map fun r => .answered r.origin (closeResult ok)) by
      rwa [List.append_assoc] at hanswers
    refine hstopped.append fun before entry after hsplit => ?_
    obtain ⟨r, hr, rfl⟩ := List.mem_map.mp (show entry ∈ _ by rw [hsplit]; simp)
    rw [List.append_assoc]
    exact accountable_closes h hphase _ _ r hr
  | disconnect ok => exact hpair _ _ trivial trivial
  | resolve r result => exact justified_concat.mpr ⟨hlog, trivial⟩
  | enter r => exact justified_concat.mpr ⟨hlog, trivial⟩
  | startJob job rest => exact justified_concat.mpr ⟨hlog, trivial⟩
  | park r => exact justified_concat.mpr ⟨hlog, trivial⟩
  | closeMore sub => exact justified_concat.mpr ⟨hlog, trivial⟩
  | release sub => exact justified_concat.mpr ⟨hlog, trivial⟩
  | dismiss r => exact hpair _ _ trivial trivial
  | accept sub => exact hpair _ _ trivial trivial
  | closeFirst sub => exact hpair _ _ trivial trivial
  | quiet => exact hlog
  | takeCompletion => exact hlog
  | tidy => exact hlog
  | stop => exact hlog
  | leave => exact hlog
  | dropReceiver => exact hlog

variable {fates : Nat → Fate}

/-- So the history of every reachable state is accountable. -/
theorem accountable_reachable (h : (engineSystem config fates).Reachable s) :
    Justified Accountable s.log := by
  refine System.Reachable.invariant (P := fun s => Justified Accountable s.log) ?_ ?_ h
  · rintro s rfl
    exact justified_nil _
  · intro s s' hreach hlog hstep
    obtain ⟨hinv, hs⟩ := inv_reachable hreach
    have hkeep : Inv config s' ∧ Justified Accountable s'.log :=
      keep_run (P := fun s => Inv config s ∧ Justified Accountable s.log)
        (fun _ _ hold hm => ⟨hold.1.move hm, accountable_move hold.1 hold.2 hm⟩) ⟨hinv, hlog⟩
        (moves_of_step hinv hs hstep).1
    exact hkeep.2

/-! ## How a request is served

  `Served` is the expectation of a caller who closed nothing: an operation or a maintenance was
  executed to its end or refused by the pool, and a flush was answered with success. -/

/-- A job was started and has ended. -/
def Done (log : List Observation) (o : Origin) : Prop := o ∈ executed log ∧ o ∈ ended log

/-- What a caller may expect of a request that the store accepted. -/
def Served (log : List Observation) : PendingEvent → Prop
  | .submission sub => Done log (sub.operation.origin sub.keyHash) ∨
      .rejected (sub.operation.origin sub.keyHash) .workerUnavailable ∈ log
  | .maintenance sub => Done log ⟨none, sub.sender⟩ ∨
      .rejected ⟨none, sub.sender⟩ .workerUnavailable ∈ log
  | .flush sender => .answered ⟨none, sender⟩ (.ok ()) ∈ log
  | .close _ => True

/-- The reasons a resolved request can have: its job ended, the coordinator refused it, or it was
    answered as a close or as a flush. -/
theorem resolved_cases (h : Inv config s) (hacc : Justified Accountable s.log)
    {before after : List Observation} (hlog : s.log = before ++ after) {r : PendingEvent}
    (hr : r ∈ entered s.log) (hresolved : r.origin ∈ resolutions before) :
    Done before r.origin ∨ (∃ e, .rejected r.origin e ∈ before) ∨ r.isClose = true ∨
      ∃ sender, r = .flush sender ∧ .answered r.origin (.ok ()) ∈ before := by
  obtain ⟨entry, hmem, hentry⟩ := List.mem_filterMap.mp hresolved
  obtain ⟨front, back, rfl⟩ := List.append_of_mem hmem
  have hreason : Accountable front entry := hacc front entry (back ++ after) (by simp [hlog])
  have hended : entry.ended? = some r.origin → r.origin ∈ executed front →
      Done (front ++ entry :: back) r.origin := by
    intro hend hexecuted
    refine ⟨?_, List.mem_filterMap.mpr ⟨entry, hmem, hend⟩⟩
    rw [executed, List.filterMap_append]
    exact List.mem_append_left _ hexecuted
  cases entry with
  | delivered o reply =>
    obtain rfl := Option.some.inj hentry
    exact Or.inl (hended rfl hreason)
  | lost o =>
    obtain rfl := Option.some.inj hentry
    exact Or.inl (hended rfl hreason)
  | rejected o e =>
    obtain rfl := Option.some.inj hentry
    exact Or.inr (Or.inl ⟨e, hmem⟩)
  | answered o result =>
    obtain rfl := Option.some.inj hentry
    obtain ⟨r', hr', horigin, hkind⟩ := hreason
    have hr'' : r' ∈ entered s.log := by
      rw [hlog, entered_append, entered_append]
      exact List.mem_append_left _ (List.mem_append_left _ hr')
    obtain rfl := eq_of_origin h hr'' hr horigin
    rcases hkind with hclose | ⟨⟨sender, hflush⟩, rfl⟩
    · exact Or.inr (Or.inr (Or.inl hclose))
    · exact Or.inr (Or.inr (Or.inr ⟨sender, hflush, hmem⟩))
  | _ => nomatch hentry

/-- A flush never becomes a job. -/
theorem flush_not_begun (h : Inv config s) (hacc : Justified Accountable s.log) {sender : Ticket}
    (hr : .flush sender ∈ entered s.log) : (⟨none, sender⟩ : Origin) ∉ begun s.log := by
  intro hmem
  obtain ⟨entry, hentry, hbegun⟩ := List.mem_filterMap.mp hmem
  obtain ⟨front, back, hlog⟩ := List.append_of_mem hentry
  have hreason : Accountable front entry := hacc front entry back hlog
  cases entry with
  | begun o =>
    obtain rfl := Option.some.inj hbegun
    obtain ⟨sub, hsub, horigin⟩ := hreason rfl
    have hsub' : PendingEvent.maintenance sub ∈ entered s.log := by
      rw [hlog, entered_append]
      exact List.mem_append_left _ hsub
    nomatch eq_of_origin h hsub' hr horigin.symm
  | _ => nomatch hbegun

/-- **What is ahead of the first close and resolved was served.** -/
theorem served_of_drained (h : Inv config s) (hacc : Justified Accountable s.log)
    {before after : List Observation} (hlog : s.log = before ++ after) {r : PendingEvent}
    (hr : r ∈ beforeClose (entered s.log)) (hresolved : r.origin ∈ resolutions before) :
    Served before r := by
  have hentered := beforeClose_subset hr
  have hclose := not_close_of_beforeClose hr
  have hsubset : ∀ entry, entry ∈ before → entry ∈ s.log := fun entry hmem => by
    rw [hlog]
    exact List.mem_append_left _ hmem
  -- a refusal ahead of the first close comes from the dispatch
  have hrefused : ∀ e, .rejected r.origin e ∈ before → e = .workerUnavailable := by
    intro e hmem
    rcases rejected_kind h (hsubset _ hmem) with rfl | rfl
    · rfl
    · exact absurd (hsubset _ hmem) (not_refused h hr)
  rcases resolved_cases h hacc hlog hentered hresolved with hdone | ⟨e, hmem⟩ | hclosed |
    ⟨sender, rfl, hmem⟩
  · cases r with
    | submission sub => exact Or.inl hdone
    | maintenance sub => exact Or.inl hdone
    | flush sender =>
      have hexecuted : (⟨none, sender⟩ : Origin) ∈ executed s.log := by
        rw [hlog, executed, List.filterMap_append]
        exact List.mem_append_left _ hdone.1
      exact absurd (executed_begun h.lawful hexecuted) (flush_not_begun h hacc hentered)
    | close sub => trivial
  · obtain rfl := hrefused e hmem
    cases r with
    | submission sub => exact Or.inr hmem
    | maintenance sub => exact Or.inr hmem
    | flush sender =>
      rcases h.rejections _ _ (hsubset _ hmem) with ⟨-, hbegun⟩ | ⟨hkind, -⟩
      · exact absurd hbegun (flush_not_begun h hacc hentered)
      · nomatch hkind
    | close sub => trivial
  · rw [hclose] at hclosed
    nomatch hclosed
  · exact hmem

/-! ## The last handle

  Without a sender the coordinator's own fields must be empty: whatever is queued, active or under
  maintenance has a job, and the job holds a sender until its completion is in the channel. -/

/-- What dropping every handle may rely on, in a state of the store.  The first three fields are about
    the moment at which the last handle goes, and the last one about the history as a whole. -/
structure LastHandle (s : Engine) : Prop where
  /-- `recv` fails exactly when every sender is gone and the channel is empty. -/
  disconnected : s.Disconnected ↔ s.senders = 0 ∧ s.channel = []
  /-- Then nothing is pending, queued, active or maintained: while anything waits, some request
      ahead of it still holds a sender. -/
  quiet : s.phase = .running → s.senders = 0 → s.channel = [] →
    s.pending = [] ∧ (∀ k, s.queues.queue k = []) ∧ s.active = ∅ ∧ s.maintenanceActive = false
  /-- The pool is still up by then, no close was accepted, and every request was served. -/
  served : s.phase = .running → s.Disconnected →
    ¬Stopped s.log ∧ ∀ r ∈ entered s.log, r.isClose = false ∧ Served s.log r
  /-- Whenever the pool is shut down, what was accepted had been served before. -/
  shutdown : ∀ before ok after, s.log = before ++ .stopped ok :: after →
    ∀ r ∈ beforeClose (entered s.log), Served before r

/-- **Dropping the last handle drains the store.**  No close is made, and none is needed: a request
    keeps the channel connected by the sender it carries, so the coordinator stays until the last one
    is served, and then leaves with nothing behind it. -/
theorem last_handle_drains (h : (engineSystem config fates).Reachable s) : LastHandle s := by
  obtain ⟨hinv, hs⟩ := inv_reachable h
  have hacc := accountable_reachable h
  refine ⟨disconnected_iff_senders s, fun hphase hsenders hchannel => ?_, fun hphase hgone => ?_,
    fun before ok after hlog r hr => ?_⟩
  · have hgone := (disconnected_iff_senders s).mpr ⟨hsenders, hchannel⟩
    obtain ⟨hidle, hfree, hpending, -⟩ := quiet_of_disconnected hinv hs hphase hgone
    obtain ⟨hactive, hqueues⟩ := Engine.busy_eq_false.mp hidle
    exact ⟨hpending, hqueues, hactive, hfree⟩
  · obtain ⟨hidle, hfree, hpending, hlock⟩ := quiet_of_disconnected hinv hs hphase hgone
    have hnone := no_close_of_opened hinv hphase hlock
    have hall : entered s.log = received s.log := by
      rw [hinv.order]
      simp [Engine.requests, hgone.channel]
    have hbefore : beforeClose (entered s.log) = entered s.log := by
      rw [hall]
      exact beforeClose_of_none hnone
    have hdrained := drained hinv hidle hfree hs.delivered (by simp [hpending]) (Or.inr hgone.channel)
    refine ⟨fun hstopped => ?_, fun r hr => ?_⟩
    · rcases hinv.stopped.mp hstopped with hlock' | hlock' <;> simp [hlock] at hlock'
    · rw [← hbefore] at hr
      exact ⟨not_close_of_beforeClose hr, served_of_drained hinv hacc (List.append_nil _).symm hr
        (hdrained r hr)⟩
  · exact served_of_drained hinv hacc hlog hr
      (resolved_before_end hinv hlog trivial hr)

end Keep

/-- The only handle is dropped behind a save and a flush; the save runs, and then the flush is answered. -/
def sampleDropped : Engine :=
  let called := submit (.flush 1)
    (submit (.submission ⟨sampleKey, sampleSave⟩) (.initial sampleConfig))
  let first := onEvent sampleConfig sampleFates (.submission ⟨sampleKey, sampleSave⟩)
    { called with handles := 0, channel := [.flush 1] }
  let second := onEvent sampleConfig sampleFates (.flush 1) { first with channel := [] }
  let started := { second.observe [.executed ⟨some sampleKey, 0⟩] with
    pool := { second.pool with jobs := [], running := [] } }
  onEvent sampleConfig sampleFates (.completion ⟨sampleKey, some sampleFinished⟩) started

/-- The calls are made while there is a handle; afterwards the worker and the coordinator are the only
    ones to take steps. -/
theorem sampleDropped_reachable :
    (engineSystem sampleConfig sampleFates).Reachable sampleDropped := by
  have hinit : (engineSystem sampleConfig sampleFates).Reachable (.initial sampleConfig) := .init rfl
  have hcalls := ((hinit.step
    (.submit (.submission ⟨sampleKey, sampleSave⟩) (by decide) rfl rfl (by decide))).step
    (.submit (.flush 1) (by decide) rfl rfl (by decide))).step (.dropHandle (by decide))
  have hevents := (hcalls.step
    (.event (.submission ⟨sampleKey, sampleSave⟩) [.flush 1] rfl rfl)).step
    (.event (.flush 1) [] rfl rfl)
  have hjob := (hevents.step (.startJob (.operation sampleKey sampleSave) [] rfl (by decide))).step
    (.finishJob [] [] (.operation sampleKey sampleSave) _ _ rfl
      (.operation sampleKey sampleSave sampleFinished rfl))
  exact hjob.step (.event (.completion ⟨sampleKey, some sampleFinished⟩) [] rfl rfl)

/-- The theorem at the end of that run. -/
theorem last_handle_drains_sample :
    sampleDropped.senders = 0 ∧ sampleDropped.channel = [] ∧ LastHandle sampleDropped :=
  ⟨rfl, rfl, last_handle_drains sampleDropped_reachable⟩

end AtomicBlobStore
