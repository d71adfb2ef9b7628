/-
  The QUEUE REGISTRY (`queues` of `run_scheduler`, `engine/scheduler.rs`).

  An entry is made where an operation is queued, and dropped where a dispatch fails and at the end
  of the `Completion` arm, for the completed key only.  `dispatch_available` empties queues of other
  keys and drops nothing, because the keys it empties become active.

  1. **The invariant** (`Registered`): every active key has an entry, and every entry is needed: its
     key is active or its queue is not empty.  While a completion is handled the completed key is
     spared.

  2. **The steps**: a dispatch keeps the invariant whatever it does (`Dispatched.registered`), so both
     loops do, turn by turn; the end of the `Completion` arm removes the spared entry if nothing came
     of it (`registered_conclude`).

  3. **The count**: an active key stands for a job that has not been reported back and a queue that
     is not empty for what it holds, so there are at most as many entries as unresolved operations.

  An entry that is never dropped is a leak that no test of an operation shows: every operation still
  does what it should.  The invariant makes it visible, because it asks of every entry for whom it is
  there.
-/
import AtomicBlobStore.DispatchLoops
import AtomicBlobStore.Guarantees

namespace AtomicBlobStore

/-! ## The invariant

  The source drops entries in two places, and `spared` is what makes the invariant true between them:
  the key that was just completed may have an entry that nobody needs, until the end of the arm. -/

/-- Active keys have an entry, and entries are needed, except perhaps that of one key. -/
structure Registered (spared : Option KeyHash) (s : Engine) : Prop where
  /-- Every active key has an entry. -/
  active : ∀ k ∈ s.active, k ∈ s.queues.keys
  /-- Every entry is needed, or spared. -/
  needed : ∀ k ∈ s.queues.keys, k ∈ s.active ∨ s.queues.queue k ≠ [] ∨ spared = some k

section Registry

variable {config : StoreConfig} {fates : Nat → Fate} {s s' : Engine} {spared : Option KeyHash}

/-- Only the queues and the active keys matter. -/
theorem Registered.congr (h : Registered spared s) (hqueues : s'.queues = s.queues)
    (hactive : s'.active = s.active) : Registered spared s' := by
  constructor
  · rw [hqueues, hactive]
    exact h.active
  · rw [hqueues, hactive]
    exact h.needed

/-- Queueing an operation makes the entry it needs. -/
theorem Registered.pushBack (h : Registered spared s) {key : KeyHash} {op : Operation}
    (hqueues : s'.queues = s.queues.pushBack key op) (hactive : s'.active = s.active) :
    Registered spared s' := by
  constructor
  · intro k hk
    rw [hqueues, KeyedQueues.mem_keys_pushBack]
    exact Or.inr (h.active k (hactive ▸ hk))
  · intro k hk
    rw [hqueues, KeyedQueues.mem_keys_pushBack] at hk
    rw [hqueues, hactive, KeyedQueues.queue_pushBack]
    by_cases hkey : k = key
    · rw [if_pos hkey]
      exact Or.inr (Or.inl (List.concat_ne_nil _ _))
    · rw [if_neg hkey]
      exact h.needed k (hk.resolve_left hkey)

/-- **A dispatch keeps the registry**, whether it does nothing, fails or starts a job. -/
theorem Dispatched.registered {key : KeyHash} (hd : Dispatched config key s s')
    (h : Registered spared s) : Registered spared s' := by
  cases hd with
  | nothing _ hs =>
    rw [hs]
    exact h
  | refused op queues hidle hpop hqueues hactive hpending =>
    obtain ⟨hfront, hothers⟩ := s.queues.queue_popFront hpop
    have hmem : ∀ k, k ∈ s'.queues.keys ↔ k ∈ s.queues.keys ∧ (k = key → queues.queue key ≠ []) := by
      intro k
      rw [hqueues, KeyedQueues.mem_keys_removeIfEmpty, s.queues.mem_keys_popFront hpop]
    constructor
    · intro k hk
      rw [hactive] at hk
      exact (hmem k).mpr ⟨h.active k hk, fun hkey => absurd (hkey ▸ hk) hidle⟩
    · intro k hk
      obtain ⟨hk, hrest⟩ := (hmem k).mp hk
      rw [hqueues, hactive, KeyedQueues.queue_removeIfEmpty]
      by_cases hkey : k = key
      · rw [hkey]
        exact Or.inr (Or.inl (hrest hkey))
      · rw [hothers k hkey]
        exact h.needed k hk
  | activated op queues hidle hpop hqueues hactive hpending =>
    obtain ⟨hfront, hothers⟩ := s.queues.queue_popFront hpop
    have hkey : key ∈ s.queues.keys := s.queues.mem_of_queue (by rw [hfront]; exact List.cons_ne_nil _ _)
    constructor
    · intro k hk
      rw [hqueues, s.queues.mem_keys_popFront hpop]
      rw [hactive] at hk
      rcases Finset.mem_insert.mp hk with rfl | hk
      · exact hkey
      · exact h.active k hk
    · intro k hk
      rw [hqueues, s.queues.mem_keys_popFront hpop] at hk
      rw [hqueues, hactive, Finset.mem_insert]
      by_cases hsame : k = key
      · exact Or.inl (Or.inl hsame)
      · rw [hothers k hsame]
        exact (h.needed k hk).imp_left Or.inr

/-! ## The loops

  Both loops dispatch, and `dispatch_available` goes over keys that are not the completed one.
  Whatever they empty has just become active. -/

/-- So the first loop keeps the invariant, -/
theorem registered_dispatchAvailable (h : Registered spared s) :
    Registered spared (dispatchAvailable config fates s) :=
  dispatchAvailable_keeps fates
    (fun _ key ht => (dispatchIfIdle_spec config fates key _).registered (ht.congr rfl rfl)) h

variable (fates) in
/-- A maintenance job is not in the registry. -/
theorem dispatchMaintenance_registry (sub : MaintenanceSubmission) (s : Engine) :
    (dispatchMaintenance fates sub s).queues = s.queues ∧
      (dispatchMaintenance fates sub s).active = s.active := by
  unfold dispatchMaintenance
  simp only []
  generalize s.pool.prepare (fates s.clock).spawn 1 = prep
  obtain ⟨prepared, pool⟩ := prep
  cases prepared with
  | error e => exact ⟨rfl, rfl⟩
  | ok u =>
    simp only []
    cases WorkerPool.prepareDispatch (fates s.clock).dispatch with
    | error e => exact ⟨rfl, rfl⟩
    | ok u =>
      simp only []
      split
      · exact ⟨rfl, rfl⟩
      · exact ⟨rfl, rfl⟩

/-- and so does the second, which also queues. -/
theorem registered_advance (h : Registered spared s) :
    Registered spared (advancePendingIfReady config fates s) := by
  refine advancePendingIfReady_keeps fates ?_ ?_ ?_ h
  · intro t sub rest _ ht
    exact (dispatchIfIdle_spec config fates _ _).registered (ht.pushBack rfl rfl)
  · intro t sub rest _ ht
    obtain ⟨hqueues, hactive⟩ := dispatchMaintenance_registry fates sub
      { t.observe [.released (.maintenance sub)] with pending := rest, maintenanceActive := true }
    exact ht.congr hqueues hactive
  · intro t sender rest _ ht
    exact ht.congr rfl rfl

theorem registered_shutdown (h : Registered spared s) : Registered spared (shutdownIfDrained s) := by
  unfold shutdownIfDrained
  split
  · exact h.congr rfl rfl
  · exact h

/-! ## Events

  Only the `Completion` arm makes an entry superfluous, and it ends by looking at this very entry. -/

/-- Taking a key out of the active set spares its entry. -/
theorem Registered.complete (h : Registered none s) {key : KeyHash} (hqueues : s'.queues = s.queues)
    (hactive : s'.active = s.active.erase key) : Registered (some key) s' := by
  constructor
  · intro k hk
    rw [hactive] at hk
    rw [hqueues]
    exact h.active k (Finset.mem_of_mem_erase hk)
  · intro k hk
    rw [hqueues] at hk ⊢
    rw [hactive, Finset.mem_erase]
    by_cases hkey : k = key
    · exact Or.inr (Or.inr (congrArg some hkey.symm))
    · rcases h.needed k hk with hk | hk | hk
      · exact Or.inl ⟨hkey, hk⟩
      · exact Or.inr (Or.inl hk)
      · nomatch hk

/-- **The end of the `Completion` arm** drops the spared entry, if the key did not become active
    again and nothing is queued under it. -/
theorem registered_conclude {key : KeyHash} (h : Registered (some key) s) :
    Registered none (concludeCompletion key s) := by
  have hremoved : Registered none
      (if key ∉ s.active then { s with queues := s.queues.removeIfEmpty key } else s) := by
    split
    · rename_i hidle
      constructor
      · intro k hk
        show k ∈ (s.queues.removeIfEmpty key).keys
        rw [KeyedQueues.mem_keys_removeIfEmpty]
        exact ⟨h.active k hk, fun hkey => absurd (hkey ▸ hk) hidle⟩
      · intro k hk
        show k ∈ s.active ∨ (s.queues.removeIfEmpty key).queue k ≠ [] ∨ _
        rw [KeyedQueues.queue_removeIfEmpty]
        obtain ⟨hmem, hrest⟩ := (s.queues.mem_keys_removeIfEmpty key k).mp hk
        rcases h.needed k hmem with hk | hk | hk
        · exact Or.inl hk
        · exact Or.inr (Or.inl hk)
        · obtain rfl := Option.some.inj hk
          exact Or.inr (Or.inl (hrest rfl))
    · rename_i hactive
      refine ⟨h.active, fun k hk => ?_⟩
      rcases h.needed k hk with hk | hk | hk
      · exact Or.inl hk
      · exact Or.inr (Or.inl hk)
      · obtain rfl := Option.some.inj hk
        exact Or.inl (not_not.mp hactive)
  unfold concludeCompletion
  simp only []
  split
  · exact hremoved.congr rfl rfl
  · exact hremoved

/-- Every arm starts and ends with no entry spared. -/
theorem registered_onEvent (ev : CoordinatorEvent) (h : Registered none s) :
    Registered none (onEvent config fates ev s) := by
  obtain ⟨s', hhandles⟩ := exists_handles config fates ev s
  rw [← hhandles.onEvent]
  cases hhandles with
  | submissionRefused sub hlock => exact h.congr rfl rfl
  | submissionParked sub hlock hwait => exact h.congr rfl rfl
  | submission sub hlock hwait hfills =>
    rw [(fills_iff fates).mp hfills]
    refine registered_shutdown (registered_dispatchAvailable ?_)
    exact (dispatchIfIdle_spec config fates _ _).registered (h.pushBack rfl rfl)
  | completion done hfills hadvances =>
    rw [(advances_iff fates).mp hadvances, (fills_iff fates).mp hfills]
    refine registered_shutdown (registered_advance (registered_conclude ?_))
    refine registered_dispatchAvailable ?_
    exact (dispatchIfIdle_spec config fates _ _).registered (h.complete rfl rfl)
  | maintenanceRefused sub hlock => exact h.congr rfl rfl
  | maintenance sub hlock hadvances =>
    rw [(advances_iff fates).mp hadvances]
    exact registered_shutdown (registered_advance (h.congr rfl rfl))
  | maintenanceCompletion done hadvances =>
    rw [(advances_iff fates).mp hadvances]
    exact registered_shutdown (registered_advance (h.congr rfl rfl))
  | flushRefused sender hlock => exact h.congr rfl rfl
  | flush sender hlock hadvances =>
    rw [(advances_iff fates).mp hadvances]
    exact registered_shutdown (registered_advance (h.congr rfl rfl))
  | close sub hadvances =>
    rw [(advances_iff fates).mp hadvances]
    refine registered_shutdown (registered_advance (h.congr ?_ ?_))
    · unfold recordClose
      split <;> rfl
    · unfold recordClose
      split <;> rfl

/-! ## Runs

  Nobody but the coordinator has access to the queues; for everybody else the lemma is that they are
  left as they are. -/

/-- Callers do not reach the coordinator's own state. -/
theorem resolve_registry (r : PendingEvent) (result : Except AtomicBlobStoreError Unit) :
    (resolve r result s).queues = s.queues ∧ (resolve r result s).active = s.active := ⟨rfl, rfl⟩

theorem precheck_registry (r : PendingEvent) :
    (precheck config r s).queues = s.queues ∧ (precheck config r s).active = s.active := by
  unfold precheck
  split
  · exact resolve_registry r _
  · split
    · exact resolve_registry r _
    · exact ⟨rfl, rfl⟩

theorem submit_registry (r : PendingEvent) :
    (submit r s).queues = s.queues ∧ (submit r s).active = s.active := by
  unfold submit
  split
  · split
    · exact resolve_registry r _
    · exact ⟨rfl, rfl⟩
  all_goals exact resolve_registry r _

theorem close_registry (sub : CloseSubmission) :
    (close sub s).queues = s.queues ∧ (close sub s).active = s.active := by
  unfold close
  split
  · exact resolve_registry _ _
  · exact resolve_registry _ _
  · exact resolve_registry _ _
  · split
    · exact resolve_registry _ _
    · exact ⟨rfl, rfl⟩
  · split
    · exact resolve_registry _ _
    · exact ⟨rfl, rfl⟩

/-- **The step lemma**: only an event reaches the registry. -/
theorem Registered.step (h : Registered none s) (hstep : Step config fates s s') :
    Registered none s' := by
  cases hstep with
  | event ev rest hphase hchannel =>
    exact registered_onEvent ev (h.congr rfl rfl)
  | precheck r hhandle hclose hfresh =>
    exact h.congr (precheck_registry r).1 (precheck_registry r).2
  | submit r hhandle hclose hvalid hfresh => exact h.congr (submit_registry r).1 (submit_registry r).2
  | close sub hhandle hfresh => exact h.congr (close_registry sub).1 (close_registry sub).2
  | drainEvent ok ev rest hphase hchannel =>
    cases ev with
    | close sub => exact h.congr rfl rfl
    | submission sub => exact h.congr rfl rfl
    | maintenance sub => exact h.congr rfl rfl
    | flush sender => exact h.congr rfl rfl
    | completion done => exact h.congr rfl rfl
    | maintenanceCompletion done => exact h.congr rfl rfl
  | disconnect ok hphase hgone =>
    unfold finishDisconnected
    simp only []
    split
    · exact h.congr rfl rfl
    · exact h.congr rfl rfl
  | cloneHandle hhandle => exact h.congr rfl rfl
  | dropHandle hhandle => exact h.congr rfl rfl
  | dropWaiter ticket => exact h.congr rfl rfl
  | startJob job rest hjobs hthread => exact h.congr rfl rfl
  | finishJob front back job ev entries hrunning hend => exact h.congr rfl rfl
  | finishShutdown ok hphase hjobs hrunning => exact h.congr rfl rfl
  | leave ok hphase hchannel => exact h.congr rfl rfl
  | dropReceiver hphase => exact h.congr rfl rfl

/-- So in every reachable state all entries are needed. -/
theorem registered_reachable (h : (engineSystem config fates).Reachable s) : Registered none s := by
  refine System.Reachable.invariant (P := fun s => Registered none s) ?_
    (fun s s' _ hs hstep => hs.step hstep) h
  rintro s rfl
  exact ⟨fun k hk => absurd hk (Finset.notMem_empty k), fun k hk => nomatch hk⟩

/-! ## Counting entries

  The registry may not grow with the number of keys ever used.  What bounds it is what is accepted and
  unfinished. -/

/-- The operations the coordinator has accepted and not seen the end of: what is queued, and the
    jobs that have not been reported back. -/
def Engine.unresolved (s : Engine) : Nat := s.queues.total + s.outstanding.length

/-- **The bound**: entries of active keys on one side, entries with something queued on the other. -/
theorem Registered.entries_le (h : Registered none s) (hinv : Inv config s) :
    s.queues.keys.length ≤ s.unresolved := by
  have hsplit : s.queues.keys.length = s.queues.keys.countP (fun k => decide (k ∈ s.active))
      + s.queues.keys.countP (fun k => !decide (k ∈ s.active)) := by
    simpa only [decide_eq_true_eq, decide_not] using
      List.length_eq_countP_add_countP (fun k => decide (k ∈ s.active)) (l := s.queues.keys)
  have hactive : s.queues.keys.countP (fun k => decide (k ∈ s.active)) ≤ s.active.card := by
    have hnodup : (s.queues.keys.filter fun k => decide (k ∈ s.active)).Nodup :=
      (AList.keys_nodup s.queues).filter _
    rw [List.countP_eq_length_filter, ← List.toFinset_card_of_nodup hnodup]
    refine Finset.card_le_card fun k hk => ?_
    have hkept := List.mem_filter.mp (List.mem_toFinset.mp hk)
    exact of_decide_eq_true hkept.2
  have hqueued : s.queues.keys.countP (fun k => !decide (k ∈ s.active)) ≤ s.queues.total := by
    have hle : s.queues.keys.countP (fun k => !decide (k ∈ s.active)) ≤
        s.queues.keys.countP (fun k => !(s.queues.queue k).isEmpty) := by
      refine List.countP_mono_left fun k hk hidle => ?_
      have hidle' : k ∉ s.active := by simpa using hidle
      rcases h.needed k hk with hk' | hk' | hk'
      · exact absurd hk' hidle'
      · simpa using hk'
      · cases hk'
    exact hle.trans (s.queues.countP_queued_le _ fun k hk => by simpa using hk)
  unfold Engine.unresolved
  rw [outstanding_length hinv]
  omega

/-- A request that is anywhere but resolved has entered, and is not resolved. -/
theorem unresolved_of_place (h : Inv config s) (hs : Settled config s) {o : Origin} {place : Place}
    (hplace : place ≠ .resolved) (hpos : 0 < s.occupancy o place) :
    (∃ r ∈ entered s.log, r.origin = o) ∧ o ∉ resolutions s.log := by
  have hsum := occupancy_sum h hs o
  have hentered : ∃ r ∈ entered s.log, r.origin = o := by
    have hmem : o ∈ (entered s.log).map PendingEvent.origin := by
      rw [← List.count_pos_iff, ← hsum]
      cases place <;> omega
    obtain ⟨r, hr, ho⟩ := List.mem_map.mp hmem
    exact ⟨r, hr, ho⟩
  refine ⟨hentered, fun hresolved => ?_⟩
  obtain ⟨r, hr, rfl⟩ := hentered
  rw [entered_count h hr] at hsum
  have hcount : 0 < s.occupancy r.origin .resolved := List.count_pos_iff.mpr hresolved
  cases place with
  | resolved => exact hplace rfl
  | channel => omega
  | pending => omega
  | queue => omega
  | job => omega
  | completion => omega

/-- Whom an entry is there for. -/
theorem Registered.served (h : Registered none s) (hinv : Inv config s) (hs : Settled config s)
    {k : KeyHash} (hk : k ∈ s.queues.keys) :
    (∃ r ∈ entered s.log, r.origin.key = some k ∧ r.origin ∉ resolutions s.log) ∨
      .completion ⟨k, none⟩ ∈ s.channel := by
  have hfound : ∀ o : Origin, o.key = some k → ∀ place, place ≠ Place.resolved →
      0 < s.occupancy o place →
      ∃ r ∈ entered s.log, r.origin.key = some k ∧ r.origin ∉ resolutions s.log := by
    intro o ho place hplace hpos
    obtain ⟨⟨r, hr, rfl⟩, hunresolved⟩ := unresolved_of_place hinv hs hplace hpos
    exact ⟨r, hr, ho, hunresolved⟩
  rcases h.needed k hk with hactive | hqueue | hnone
  · have hcount := hinv.active k
    rw [if_pos hactive] at hcount
    have hout : k ∈ s.outstanding := List.count_pos_iff.mp (by omega)
    rcases List.mem_append.mp hout with hout | hout
    · refine Or.inl ?_
      have hjob : ∃ job ∈ s.pool.jobs ++ s.pool.running, job.key? = some k := by
        rw [← List.filterMap_append] at hout
        obtain ⟨job, hjob, hkey⟩ := List.mem_filterMap.mp hout
        exact ⟨job, hjob, hkey⟩
      obtain ⟨job, hjob, hkey⟩ := hjob
      have horigin : job.origin.key = some k := by
        cases job with
        | operation key op => exact hkey
        | maintenance sub => nomatch hkey
      refine hfound job.origin horigin .job (by decide) ?_
      show 0 < (s.pool.jobs.map WorkerJob.origin).count job.origin +
        (s.pool.running.map WorkerJob.origin).count job.origin
      rw [← List.count_append, ← List.map_append]
      exact List.count_pos_iff.mpr (List.mem_map_of_mem hjob)
    · obtain ⟨ev, hev, hkey⟩ := List.mem_filterMap.mp hout
      cases ev with
      | completion done =>
        obtain ⟨keyHash, outcome⟩ := done
        obtain rfl : keyHash = k := Option.some.inj hkey
        cases outcome with
        | none => exact Or.inr hev
        | some f =>
          refine Or.inl (hfound (f.operation.origin keyHash) rfl .completion (by decide) ?_)
          exact List.count_pos_iff.mpr (List.mem_filterMap.mpr ⟨_, hev, rfl⟩)
      | submission sub => nomatch hkey
      | maintenance sub => nomatch hkey
      | maintenanceCompletion done => nomatch hkey
      | flush sender => nomatch hkey
      | close sub => nomatch hkey
  · obtain ⟨op, rest, hfront⟩ := List.exists_cons_of_ne_nil hqueue
    refine Or.inl (hfound (op.origin k) rfl .queue (by decide) ?_)
    show 0 < ((s.queues.queue k).map (Operation.origin k)).count (op.origin k)
    rw [hfront]
    exact List.count_pos_iff.mpr (List.mem_map_of_mem (.head _))
  · nomatch hnone

/-! ## The result -/

/-- What may be relied on between two events.  It is meant for states between two events, and all
    states of `engineSystem` are. -/
structure RegistryTight (s : Engine) : Prop where
  /-- Every active key has an entry. -/
  active : ∀ k ∈ s.active, k ∈ s.queues.keys
  /-- Every entry belongs to an active key or has something queued. -/
  needed : ∀ k ∈ s.queues.keys, k ∈ s.active ∨ s.queues.queue k ≠ []
  /-- There are at most as many entries as unresolved operations. -/
  bounded : s.queues.keys.length ≤ s.unresolved
  /-- An entry is there for a request of its key that is not resolved, or for a job that panicked
      and whose completion has not been handled. -/
  served : ∀ k ∈ s.queues.keys,
    (∃ r ∈ entered s.log, r.origin.key = some k ∧ r.origin ∉ resolutions s.log) ∨
      .completion ⟨k, none⟩ ∈ s.channel
  /-- Nothing queued and nothing active leaves nothing in the registry. -/
  empty : s.busy = false → s.queues.keys = []

/-- **The registry does not leak**, in every reachable state.  Between two events an entry is there
    for a request or a job that is not over, so the registry is no larger than what is queued and
    outstanding, and it is empty when the store is idle.  Nothing is said of the middle of an event,
    where the entry of the completed key may be superfluous for a moment. -/
theorem registry_tight (h : (engineSystem config fates).Reachable s) : RegistryTight s := by
  obtain ⟨hinv, hs⟩ := inv_reachable h
  have hreg := registered_reachable h
  have hneeded : ∀ k ∈ s.queues.keys, k ∈ s.active ∨ s.queues.queue k ≠ [] := by
    intro k hk
    rcases hreg.needed k hk with hk | hk | hk
    · exact Or.inl hk
    · exact Or.inr hk
    · nomatch hk
  refine ⟨hreg.active, hneeded, hreg.entries_le hinv, fun k hk => hreg.served hinv hs hk, ?_⟩
  intro hidle
  obtain ⟨hactive, hqueues⟩ := Engine.busy_eq_false.mp hidle
  rw [List.eq_nil_iff_forall_not_mem]
  intro k hk
  rcases hneeded k hk with hk | hk
  · rw [hactive] at hk
    exact absurd hk (Finset.notMem_empty k)
  · exact hk (hqueues k)

/-- A store with one job out. -/
theorem registry_tight_sample : RegistryTight sampleBusy := registry_tight sampleBusy_reachable

end Registry

end AtomicBlobStore
