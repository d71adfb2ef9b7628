/-
  REFINEMENT: the store is the reference machine, whatever overlaps.

  Operations on different keys run at the same time, others are parked behind barriers or queued
  behind their key, and the hash map picks the next key.  None of it shows.

  1. **The history of a key** (`history_prefix`, `history_eq`) — the executions of a key are those of
     its accepted requests, in the order in which they entered the channel, and where a stretch of
     requests is resolved they are all of it.

  2. **One execution** (`exists_suits`) — each execution ran as if alone, and alone it does what the
     reference does.

  3. **The relay** (`stored_of_ended`) — what the executions of a key hand on is what the reference
     makes of it.

  4. **`refines_reference`** — every reply is the reference's, and once everything has drained the
     canonical files are its map.

  5. **`flush_snapshot`** — a flush is answered when the canonical files are what the reference makes of
     the requests ahead of it, whatever waits behind it.

  The order in which requests enter the channel is the order of the reference, and not the order in
  which they are executed: operations on different keys overtake each other all the time.  What makes
  it right is that replies and files of a key depend on the requests of that key alone, and these are
  executed in order.

  What the reference cannot know is given to it: what came through a channel, who went away, which
  random identifier was drawn.  All of it is read off the execution itself, so the reference is not
  allowed to guess.
-/
import AtomicBlobStore.Isolation
import AtomicBlobStore.Reference

namespace AtomicBlobStore

/-! ## What was accepted

  The order of the reference is the order in which requests entered the channel.  It is fixed when a
  request is sent, long before it is executed. -/

/-- The requests that were accepted: those that entered ahead of the first close. -/
abbrev admitted (log : List Observation) : List PendingEvent := beforeClose (entered log)

/-- The requests on a key. -/
abbrev onKey (key : KeyHash) (rs : List PendingEvent) : List PendingEvent :=
  rs.filter fun r => r.origin.key = some key

@[simp] theorem WorkerJob.key_origin (job : WorkerJob) : job.origin.key = job.key? := by
  cases job <;> rfl

theorem PendingEvent.on?_eq (r : PendingEvent) (key : KeyHash) :
    r.on? key = if r.origin.key = some key then some r.origin else none := by
  cases r with
  | submission sub => simp [PendingEvent.on?, PendingEvent.origin, Operation.origin]
  | _ => rfl

/-- The operations of a key, read off the accepted requests. -/
theorem filterMap_on (key : KeyHash) (rs : List PendingEvent) :
    rs.filterMap (PendingEvent.on? key) = (onKey key rs).map PendingEvent.origin := by
  induction rs with
  | nil => rfl
  | cons r rs ih =>
    rw [List.filterMap_cons, PendingEvent.on?_eq]
    by_cases hkey : r.origin.key = some key
    · simp only [ih, onKey, List.filter_cons, hkey, decide_true, if_true, List.map_cons]
    · simp only [ih, onKey, List.filter_cons, hkey, decide_false, Bool.false_eq_true, if_false]

section Accepted

variable {config : StoreConfig} {fates : Nat → Fate} {s : Engine}

/-- What was released is a prefix of what was accepted. -/
theorem released_admitted (h : Inv config s) : released s.log <+: admitted s.log := by
  have hreceived : received s.log <+: entered s.log := by
    rw [h.order]
    exact List.prefix_append _ _
  have hreleased : released s.log <+: beforeClose (received s.log) := by
    rw [h.accepted]
    exact List.prefix_append _ _
  exact hreleased.trans (takeWhile_prefix_takeWhile hreceived)

/-- What has begun on a key is a prefix of what was accepted. -/
theorem begun_admitted (h : Inv config s) (key : KeyHash) :
    (begun s.log).filter (fun o => o.key = some key) <+:
      (onKey key (admitted s.log)).map PendingEvent.origin := by
  rw [← filterMap_on]
  refine List.IsPrefix.trans ?_ ((released_admitted h).filterMap _)
  rw [h.perKey key]
  exact List.prefix_append _ _

/-- What is resolved is nowhere else. -/
theorem elsewhere_zero (h : Inv config s) (hs : Settled config s) {r : PendingEvent}
    (hr : r ∈ entered s.log) (hresolved : r.origin ∈ resolutions s.log) {place : Place}
    (hplace : place ≠ .resolved) : s.occupancy r.origin place = 0 := by
  obtain ⟨place', hone, hothers⟩ := place_unique h hs hr
  have hpos : 0 < s.occupancy r.origin .resolved := List.count_pos_iff.mpr hresolved
  by_cases hsame : place' = .resolved
  · apply hothers
    rw [hsame]
    exact hplace
  · have hzero := hothers .resolved (Ne.symm hsame)
    omega

/-- **An accepted operation that is resolved was executed**, unless it was refused for want of a
    worker. -/
theorem executed_of_resolved (h : Inv config s) (hs : Settled config s) (hprompt : Prompt s)
    (hluck : ∀ o, .rejected o .workerUnavailable ∉ s.log) {r : PendingEvent}
    (hr : r ∈ admitted s.log) (hresolved : r.origin ∈ resolutions s.log) {key : KeyHash}
    (hkey : r.origin.key = some key) : r.origin ∈ executed s.log := by
  have hentered := beforeClose_subset hr
  have hzero {place : Place} (hplace : place ≠ .resolved) : s.occupancy r.origin place = 0 :=
    elsewhere_zero h hs hentered hresolved hplace
  have hchannel : r ∉ s.requests := by
    intro hmem
    have hnone : s.occupancy r.origin .channel = 0 := hzero Place.noConfusion
    exact absurd (List.mem_map_of_mem (f := PendingEvent.origin) hmem) (List.count_eq_zero.mp hnone)
  have hreceived : r ∈ beforeClose (received s.log) := by
    by_cases hany : (received s.log).any PendingEvent.isClose = true
    · have hr : r ∈ beforeClose (entered s.log) := hr
      rwa [h.order, beforeClose_append hany] at hr
    · rw [beforeClose_of_none (by simpa using hany)]
      rw [h.order] at hentered
      exact (List.mem_append.mp hentered).resolve_right hchannel
  -- it left the pending list, its queue and the job channel
  rw [h.accepted] at hreceived
  rcases List.mem_append.mp hreceived with hreleased | hpending
  · have hbegun : r.origin ∈ (released s.log).filterMap (PendingEvent.on? key) := by
      rw [filterMap_on]
      exact List.mem_map_of_mem (List.mem_filter.mpr ⟨hreleased, by simp [hkey]⟩)
    rw [h.perKey key] at hbegun
    rcases List.mem_append.mp hbegun with hbegun | hqueue
    · have hbegun := (List.mem_filter.mp hbegun).1
      rw [hprompt hluck] at hbegun
      rcases List.mem_append.mp hbegun with hexecuted | hjob
      · exact hexecuted
      · have hnone : s.occupancy r.origin .job = 0 := hzero Place.noConfusion
        have hpos := List.count_pos_iff.mpr hjob
        simp only [Engine.occupancy] at hnone
        omega
    · have hnone : s.occupancy r.origin .queue = 0 := hzero Place.noConfusion
      simp only [Engine.occupancy, Engine.queued, queuedIn, hkey] at hnone
      exact absurd hqueue (List.count_eq_zero.mp hnone)
  · have hnone : s.occupancy r.origin .pending = 0 := hzero Place.noConfusion
    have hmem := List.mem_map_of_mem (f := PendingEvent.origin) (List.mem_filter.mp hpending).1
    exact absurd hmem (List.count_eq_zero.mp hnone)

/-- What is resolved does not run. -/
theorem not_running_of_resolved (h : Inv config s) (hs : Settled config s) {job : WorkerJob}
    (hjob : job.request ∈ entered s.log) (hresolved : job.origin ∈ resolutions s.log) :
    job ∉ s.pool.running := by
  intro hmem
  have hnone : s.occupancy job.request.origin .job = 0 := by
    apply elsewhere_zero h hs hjob
    · rwa [WorkerJob.origin_request]
    · exact Place.noConfusion
  have hpos := List.count_pos_iff.mpr (List.mem_map_of_mem (f := WorkerJob.origin) hmem)
  simp only [Engine.occupancy, WorkerJob.origin_request] at hnone
  omega

end Accepted

/-! ## The history of a key

  Requests of a key are released, begun and executed in one order, and nothing else works on the key's
  files. -/

section History

variable {crc32c : Crc32c} {config : StoreConfig} {platform : Platform} {fates : Nat → Fate}
  {fault : FsCall → IoError → Prop} {panics : Prop} {disk : Disk} {s : Store}

/-- The requests of the executions of a key. -/
abbrev Store.served (s : Store) (key : KeyHash) : List PendingEvent :=
  (s.history key).map fun e => e.job.request

/-- The executions of a key are those of its requests. -/
theorem origins_served (hknown : Known config s) (key : KeyHash) :
    (s.served key).map PendingEvent.origin =
      (executed s.engine.log).filter fun o => o.key = some key := by
  rw [← hknown.recorded, List.filter_map, List.map_map]
  unfold Store.history
  simp only [Function.comp_def, WorkerJob.origin_request, WorkerJob.key_origin]

/-- **The executions of a key are a prefix of its accepted requests**, where nothing was refused for
    want of a worker. -/
theorem history_prefix (hinv : Inv config s.engine) (hknown : Known config s)
    (hprompt : Prompt s.engine) (hluck : ∀ o, .rejected o .workerUnavailable ∉ s.engine.log)
    (key : KeyHash) : s.served key <+: onKey key (admitted s.engine.log) := by
  apply prefix_of_map (f := PendingEvent.origin)
  · intro r hr r' hr' horigin
    obtain ⟨e, he, rfl⟩ := List.mem_map.mp hr
    refine eq_of_origin hinv (hknown.requested e (List.mem_filter.mp he).1) ?_ horigin
    exact beforeClose_subset (List.mem_filter.mp hr').1
  · rw [origins_served hknown]
    refine List.IsPrefix.trans ?_ (begun_admitted hinv key)
    rw [hprompt hluck, List.filter_append]
    exact List.prefix_append _ _

/-- **Where a stretch of requests is resolved and nothing behind it has run**, the executions of a key
    are those of the stretch. -/
theorem history_eq (hinv : Inv config s.engine) (hs : Settled config s.engine)
    (hknown : Known config s) (hprompt : Prompt s.engine)
    (hluck : ∀ o, .rejected o .workerUnavailable ∉ s.engine.log) {front back : List PendingEvent}
    (hsplit : admitted s.engine.log = front ++ back)
    (hfront : ∀ r ∈ front, r.origin ∈ resolutions s.engine.log)
    (hback : ∀ r ∈ back, r.origin ∉ executed s.engine.log) (key : KeyHash) :
    s.served key = onKey key front := by
  have hstart := history_prefix hinv hknown hprompt hluck key
  have hnodup : (admitted s.engine.log).Nodup :=
    (entered_nodup hinv).sublist (List.takeWhile_sublist _)
  have hserved {r : PendingEvent} (hr : r ∈ admitted s.engine.log) (hkey : r.origin.key = some key) :
      r ∈ s.served key ↔ r.origin ∈ executed s.engine.log := by
    constructor
    · intro hmem
      have horigin := List.mem_map_of_mem (f := PendingEvent.origin) hmem
      rw [origins_served hknown] at horigin
      exact (List.mem_filter.mp horigin).1
    · intro hmem
      have horigin : r.origin ∈ (s.served key).map PendingEvent.origin := by
        rw [origins_served hknown]
        exact List.mem_filter.mpr ⟨hmem, by simp [hkey]⟩
      obtain ⟨r', hr', heq⟩ := List.mem_map.mp horigin
      have hin' := beforeClose_subset (List.mem_filter.mp (hstart.subset hr')).1
      rwa [← eq_of_origin hinv hin' (beforeClose_subset hr) heq]
  rw [hsplit] at hstart hnodup
  unfold onKey at hstart
  rw [List.filter_append] at hstart
  refine eq_of_prefix hstart ((List.nodup_append.mp hnodup).1.filter _) (fun r hr => ?_)
    fun r hr => ?_
  · obtain ⟨hmem, hkey⟩ := List.mem_filter.mp hr
    have hkey : r.origin.key = some key := of_decide_eq_true hkey
    have hin : r ∈ admitted s.engine.log := by
      rw [hsplit]
      exact List.mem_append_left _ hmem
    apply (hserved hin hkey).mpr
    exact executed_of_resolved hinv hs hprompt hluck hin (hfront r hmem) hkey
  · obtain ⟨hmem, hkey⟩ := List.mem_filter.mp hr
    have hin : r ∈ admitted s.engine.log := by
      rw [hsplit]
      exact List.mem_append_right _ hmem
    rw [hserved hin (of_decide_eq_true hkey)]
    exact hback r hmem

/-- Where an execution is in the history of its key, its request is among those accepted. -/
theorem history_split (hinv : Inv config s.engine) (hknown : Known config s)
    (hprompt : Prompt s.engine) (hluck : ∀ o, .rejected o .workerUnavailable ∉ s.engine.log)
    {key : KeyHash} {e : Execution} (he : e ∈ s.history key) : ∃ items more front back,
      s.history key = items ++ e :: more ∧ admitted s.engine.log = front ++ e.job.request :: back ∧
        (items.map fun e => e.job.request) = onKey key front := by
  obtain ⟨items, more, hitems⟩ := List.append_of_mem he
  have hstart := history_prefix hinv hknown hprompt hluck key
  unfold Store.served at hstart
  rw [hitems, List.map_append, List.map_cons] at hstart
  obtain ⟨later, hlater⟩ := hstart
  rw [List.append_assoc, List.cons_append] at hlater
  obtain ⟨front, rest, hsplit, hfront, hrest⟩ := List.filter_eq_append_iff.mp hlater.symm
  obtain ⟨gap, back, rfl, hgap, -, -⟩ := List.filter_eq_cons_iff.mp hrest
  refine ⟨items, more, front ++ gap, back, hitems, ?_, ?_⟩
  · rw [hsplit, List.append_assoc]
  · rw [onKey, List.filter_append, hfront, List.filter_eq_nil_iff.mpr hgap, List.append_nil]

/-- Whoever of a key ran before another does not run any more. -/
theorem Known.over (h : Known config s) {key : KeyHash} {front back : List Execution} {e : Execution}
    (hsplit : s.history key = front ++ e :: back) : ∀ f ∈ front, f.job ∉ s.engine.pool.running := by
  intro f hf hrunning
  obtain ⟨front₁, front₂, rfl⟩ := List.append_of_mem hf
  -- both are found in the executions, in that order
  have hsub : [f, e].Sublist s.executions := by
    have hhistory : [f, e].Sublist (s.history key) := by
      rw [hsplit, List.append_assoc]
      refine List.Sublist.trans ?_ (List.sublist_append_right _ _)
      apply List.Sublist.cons_cons
      refine List.Sublist.trans ?_ (List.sublist_append_right _ _)
      exact (List.nil_sublist _).cons_cons _
    exact hhistory.trans List.filter_sublist
  obtain ⟨before, after, hexecutions, hbefore, hlater⟩ := List.cons_sublist_iff.mp hsub
  obtain ⟨left, right, rfl⟩ := List.append_of_mem hbefore
  have he : e ∈ right ++ after := List.mem_append_right _ (List.singleton_sublist.mp hlater)
  have hwhole : s.executions = left ++ f :: (right ++ after) := by
    rw [hexecutions]
    simp
  obtain ⟨k, k', hk, hk', hne⟩ := h.last left f _ hwhole hrunning e he
  have hkeyed {g : Execution} (hg : g ∈ s.history key) : g.job.key? = some key :=
    of_decide_eq_true (List.mem_filter.mp hg).2
  have hf' := hkeyed (g := f) (by rw [hsplit]; simp)
  have he' := hkeyed (g := e) (by rw [hsplit]; simp)
  exact hne (Option.some.inj (hk.symm.trans (hf'.trans (he'.symm.trans hk'))))

end History

/-! ## One execution

  An execution ran as if alone, so what was proved of a job alone applies to it.  What the outside
  decided is read off its world: it received what it received. -/

section Suited

variable (crc32c : Crc32c) (config : StoreConfig) (platform : Platform)

/-- What the outside decided about an execution: with it, what the program came to is what the
    reference does. -/
structure Suits (c : Circumstance) (e : Execution) : Prop where
  /-- What came through the channel is what it received, -/
  received : c.received = e.world.received
  /-- and whoever it found gone was gone. -/
  left : c.left = e.world.left
  /-- What an operation came to is what the reference does, -/
  operation : ∀ key op result, e.job = .operation key op → e.program = .ret (.ok result) →
    ∃ found, result = .operation found ∧ ∀ held : Held config.maximum,
      e.before.entry (blobFilename config.format key) = stored crc32c config held →
        Responds crc32c config key c held op found e.world
  /-- and so for maintenance. -/
  maintenance : ∀ sub result, e.job = .maintenance sub → e.program = .ret (.ok result) →
    result = .cleanup (respondMaintenance c platform sub)

variable {crc32c config platform} {fault : FsCall → IoError → Prop} {e : Execution}

/-- Who has returned has done so alone. -/
theorem Execution.Alone.returns (h : e.Alone crc32c config platform fault)
    {outcome : Except Abort TaskResult} (hret : e.program = .ret outcome) :
    ∃ v, Returns (Fs fault) (e.job.program crc32c config platform) (.start e.before) outcome v ∧
      Akin e.job.Sees e.world v := by
  obtain ⟨n, v, hrun, hakin⟩ := h
  rw [hret] at hrun
  exact ⟨v, ⟨n, hrun⟩, hakin⟩

/-- What an operation did alone it did in company. -/
theorem Responds.of_akin {key : KeyHash} {c : Circumstance} {held : Held config.maximum}
    {op : Operation} {result : BlockingResult} {w v : JobWorld} (hakin : Akin (Owns key) w v)
    (h : Responds crc32c config key c held op result v) :
    Responds crc32c config key c held op result w := by
  refine ⟨h.1, ?_⟩
  rw [← h.2]
  exact (hakin.1.entry _ (owns_blobFilename config.format key)).symm

/-- **Every execution did what the reference does**, where nothing fails. -/
theorem exists_suits (halone : e.Alone crc32c config platform Faultless)
    (hdirectory : e.before.isDirectory = true) : ∃ c, Suits crc32c config platform c e := by
  by_cases hret : ∃ result, e.program = .ret (.ok result)
  · obtain ⟨result, hret⟩ := hret
    obtain ⟨v, hreturns, hakin⟩ := halone.returns hret
    have hsame : ∀ {result'}, e.program = .ret (.ok result') → result' = result := by
      intro result' hret'
      rw [hret] at hret'
      exact (Except.ok.inj (Prog.ret.inj hret')).symm
    cases hjob : e.job with
    | operation key op =>
      rw [hjob] at hreturns hakin
      obtain ⟨found, rfl, hran⟩ := returns_of_map hreturns
      obtain ⟨c, hreceived, hleft, hresponds⟩ := responds hdirectory op hran
      rw [hakin.2] at hreceived hleft
      refine ⟨c, hreceived, hleft, ?_, ?_⟩
      · intro key' op' result' hjob' hret'
        obtain ⟨rfl, rfl⟩ := WorkerJob.operation.inj (hjob.symm.trans hjob')
        refine ⟨found, hsame hret', fun held hentry => ?_⟩
        exact (hresponds held hentry).of_akin hakin
      · intro sub result' hjob'
        cases hjob.symm.trans hjob'
    | maintenance sub =>
      rw [hjob] at hreturns
      have hreport : ∃ report : CleanupReport, ∀ c : Circumstance, c.report = report →
          result = .cleanup (respondMaintenance c platform sub) := by
        obtain ⟨minimumAge, sender⟩ := sub
        cases minimumAge with
        | none =>
          obtain ⟨hresult, -⟩ := Returns.of_ret hreturns
          exact ⟨⟨[], [], []⟩, fun c _ => Except.ok.inj hresult⟩
        | some minimumAge =>
          obtain ⟨y, rfl, hran⟩ := returns_of_result hreturns
          obtain ⟨report, hreport⟩ := responds_cleanup (w := .start e.before) hdirectory sender hran
          exact ⟨report, fun c hc => congrArg TaskResult.cleanup (hreport c hc)⟩
      obtain ⟨report, hreport⟩ := hreport
      refine ⟨⟨e.world.received, e.world.left, [], none, report⟩, rfl, rfl, ?_, ?_⟩
      · intro key op result' hjob'
        cases hjob.symm.trans hjob'
      · intro sub' result' hjob' hret'
        obtain rfl := WorkerJob.maintenance.inj (hjob.symm.trans hjob')
        rw [hsame hret']
        exact hreport _ rfl
  · refine ⟨⟨e.world.received, e.world.left, [], none, ⟨[], [], []⟩⟩, rfl, rfl, ?_, ?_⟩
    · exact fun key op result hjob hret' => absurd ⟨result, hret'⟩ hret
    · exact fun sub result hjob hret' => absurd ⟨result, hret'⟩ hret

end Suited

/-! ## The relay

  Each execution found what the one before it had left, and left what the reference leaves.  The rest
  is the library's theorem about machines that serve one request after another. -/

/-- No job that ran has panicked: each sent its outcome. -/
def Unharmed (s : Store) : Prop := ∀ o, .lost o ∉ s.engine.log

section Relay

variable {crc32c : Crc32c} {config : StoreConfig} {platform : Platform} {fates : Nat → Fate}
  {fault : FsCall → IoError → Prop} {panics : Prop} {disk : Disk} {s : Store}

/-- The outside decided about all executions at once: every reply channel is used once. -/
theorem exists_luck (hinv : Inv config s.engine) (hs : Settled config s.engine)
    (hknown : Known config s) (hisolated : Isolated crc32c config platform Faultless disk s)
    (hdirectory : disk.isDirectory = true) : ∃ luck : Ticket → Circumstance,
      ∀ e ∈ s.executions, Suits crc32c config platform (luck e.job.origin.sender) e := by
  have hchoice : ∀ sender : Ticket, ∃ c : Circumstance, ∀ e ∈ s.executions,
      e.job.origin.sender = sender → Suits crc32c config platform c e := by
    intro sender
    by_cases hsome : ∃ e ∈ s.executions, e.job.origin.sender = sender
    · obtain ⟨e, he, hsender⟩ := hsome
      obtain ⟨c, hc⟩ := exists_suits (hisolated.alone e he) ((hisolated.entered e he).trans hdirectory)
      refine ⟨c, fun e' he' hsender' => ?_⟩
      -- two executions with one reply channel are one
      have hsenders : ((entered s.engine.log).map fun r => r.origin.sender).Nodup :=
        hinv.fresh.imp fun hlt => Nat.ne_of_lt hlt
      have hrequest : e'.job.request = e.job.request := by
        refine List.inj_on_of_nodup_map hsenders (hknown.requested e' he') (hknown.requested e he) ?_
        simp only [WorkerJob.origin_request]
        exact hsender'.trans hsender.symm
      have horigin := congrArg PendingEvent.origin hrequest
      simp only [WorkerJob.origin_request] at horigin
      rwa [hknown.eq_of_origin hinv hs he' he horigin]
    · exact ⟨⟨[], false, [], none, ⟨[], [], []⟩⟩, fun e he hsender => absurd ⟨e, he, hsender⟩ hsome⟩
  obtain ⟨luck, hluck⟩ := Classical.axiomOfChoice hchoice
  exact ⟨luck, fun e he => hluck _ e he rfl⟩

variable {κ : Type} (asked : Ticket → κ) {luck : Ticket → Circumstance} {key : KeyHash}
  {items : List Execution} {held : Held config.maximum} {now : Option Node}

/-- **What ended executions of a key hand on** is what the reference makes of what there was. -/
theorem stored_of_ended (hkeys : ∀ e ∈ items, e.job.key? = some key)
    (hsuits : ∀ e ∈ items, Suits crc32c config platform (luck e.job.origin.sender) e)
    (hended : ∀ e ∈ items, ∃ result : TaskResult, e.program = .ret (.ok result))
    (hhanded : Handed (Execution.found (blobFilename config.format key))
      (Execution.left (blobFilename config.format key)) (stored crc32c config held) items now) :
    now = stored crc32c config ((items.map fun e => e.job.request).foldl
      (fun v r => ((reference config platform asked luck).serve v r).2) held) := by
  rw [List.foldl_map]
  refine hhanded.foldl (stored crc32c config) _ (fun e he v hfound => ?_) held rfl
  have hkey := hkeys e he
  obtain ⟨result, hret⟩ := hended e he
  have hsuits := hsuits e he
  cases hjob : e.job with
  | maintenance sub =>
    rw [hjob] at hkey
    cases hkey
  | operation k op =>
    rw [hjob] at hkey hsuits
    obtain rfl : k = key := Option.some.inj hkey
    obtain ⟨found, -, hresponds⟩ := hsuits.operation k op result hjob hret
    exact (hresponds v hfound).2

end Relay

/-! ## Refinement

  The reference has no threads, no queues and no files.  It is compared by what a client sees, the
  replies, and by what is left when everything is done. -/

/-- What the coordinator sends on the reply channel of a request that it accepted. -/
inductive Replied (log : List Observation) : Origin → Reply → Prop
  /-- The outcome of a job was delivered, -/
  | delivered {o : Origin} {reply : Reply} (h : .delivered o reply ∈ log) : Replied log o reply
  /-- or the coordinator answered. -/
  | answered {o : Origin} {result : Except AtomicBlobStoreError Unit} (h : .answered o result ∈ log) :
      Replied log o (.unit result)

section Refinement

variable {κ : Type} (hash : κ → KeyHash) (asked : Ticket → κ)

/-- The keys that requests which entered are about. -/
def usedKeys (log : List Observation) : Set κ :=
  {k | ∃ sub, .submission sub ∈ entered log ∧ asked sub.operation.sender = k}

/-- Requests are submitted under the hashes of their keys, and the hash tells the keys in use apart. -/
structure Hashed (log : List Observation) : Prop where
  /-- A request comes under the hash of its key, -/
  hashes : ∀ sub, .submission sub ∈ entered log → sub.keyHash = hash (asked sub.operation.sender)
  /-- which no other key in use has. -/
  injective : Set.InjOn hash (usedKeys asked log)

variable (crc32c : Crc32c) (config : StoreConfig) [DecidableEq κ]
  (m : KeyedMachine κ (Held config.maximum) PendingEvent (Option Reply))

/-- **The store is the machine**, started on `held` in the directory `disk`.  The first two fields are
    about replies and the last two about files. -/
structure Refines (held : κ → Held config.maximum) (disk : Disk) (s : Store) : Prop where
  /-- Every reply to an accepted request is the one of the machine, which serves them in the order in
      which they entered the channel. -/
  replies : ∀ r ∈ admitted s.engine.log, ∀ reply, Replied s.engine.log r.origin reply →
    (r, some reply) ∈ m.answers held (admitted s.engine.log)
  /-- Every outcome that is delivered is of an accepted request, and none of these is refused. -/
  accepted : ∀ o reply, .delivered o reply ∈ s.engine.log →
    ∃ r ∈ admitted s.engine.log, r.origin = o
  unrefused : ∀ r ∈ admitted s.engine.log, ∀ e, .rejected r.origin e ∉ s.engine.log
  /-- Once everything has drained, the canonical files are the envelopes of the map. -/
  drained : Drained s.engine.log → ∀ k ∈ usedKeys asked s.engine.log,
    s.disk.entry (blobFilename config.format (hash k)) =
      stored crc32c config (m.final held (admitted s.engine.log) k)
  /-- Canonical files of other keys are never touched. -/
  others : ∀ key, (∀ k ∈ usedKeys asked s.engine.log, hash k ≠ key) →
    s.disk.entry (blobFilename config.format key) = disk.entry (blobFilename config.format key)

end Refinement

section Reached

variable {crc32c : Crc32c} {config : StoreConfig} {platform : Platform} {fates : Nat → Fate}
  {panics : Prop} {disk : Disk} {s : Store} {κ : Type} [DecidableEq κ] {hash : κ → KeyHash}
  {asked : Ticket → κ} {luck : Ticket → Circumstance} {held : κ → Held config.maximum}

/-- Among requests that entered, those on a key are those on its hash. -/
theorem on_eq_onKey (hhashed : Hashed hash asked s.engine.log) {k : κ}
    (hk : k ∈ usedKeys asked s.engine.log) {rs : List PendingEvent}
    (hrs : ∀ r ∈ rs, r ∈ entered s.engine.log) :
    (reference config platform asked luck).on k rs = onKey (hash k) rs := by
  refine List.filter_congr fun r hr => ?_
  cases r with
  | submission sub =>
    have hentered := hrs _ hr
    have hkey : sub.keyHash = hash (asked sub.operation.sender) := hhashed.hashes sub hentered
    show decide (some (asked sub.operation.sender) = some k) = decide (some sub.keyHash = some (hash k))
    rw [hkey, decide_eq_decide, Option.some_inj, Option.some_inj]
    constructor
    · intro h
      rw [h]
    · exact fun h => hhashed.injective ⟨sub, hentered, rfl⟩ hk h
  | _ => rfl

/-! ## Runs in which all goes well

  Some replies depend on what the outside decides, such as a reader that goes away.  A `Smooth` state
  comes with these decisions, so that the reference can be given the same ones. -/

variable (crc32c config platform hash asked luck held disk s) in
/-- A state that was reached with nothing failing, and what the outside decided on the way. -/
structure Smooth : Prop where
  /-- What is known of every store that can be reached. -/
  inv : Inv config s.engine
  settled : Settled config s.engine
  known : Known config s
  honest : Honest s
  isolated : Isolated crc32c config platform Faultless disk s
  prompt : Prompt s.engine
  candid : Candid s.engine
  /-- Nobody was refused for want of a worker, -/
  lucky : ∀ o, .rejected o .workerUnavailable ∉ s.engine.log
  /-- nobody panicked, -/
  unharmed : Unharmed s
  /-- and what the outside decided is what the executions met. -/
  suits : ∀ e ∈ s.executions, Suits crc32c config platform (luck e.job.origin.sender) e
  /-- Requests came under the hashes of their keys. -/
  hashed : Hashed hash asked s.engine.log
  /-- The reference began with what was in the directory. -/
  before : ∀ k ∈ usedKeys asked s.engine.log,
    disk.entry (blobFilename config.format (hash k)) = stored crc32c config (held k)

variable (h : Smooth crc32c config platform disk s hash asked luck held)

include h

omit [DecidableEq κ] in
/-- Whoever runs no more has returned. -/
theorem Smooth.ended {e : Execution} (he : e ∈ s.executions) (hnot : e.job ∉ s.engine.pool.running) :
    ∃ result : TaskResult, e.program = .ret (.ok result) :=
  (h.honest.ended e he hnot).resolve_right (h.unharmed _)

omit [DecidableEq κ] in
/-- Whatever was executed had been accepted. -/
theorem Smooth.request_admitted {e : Execution} (he : e ∈ s.executions) :
    e.job.request ∈ admitted s.engine.log := by
  have hexecuted : e.job.origin ∈ executed s.engine.log := by
    rw [← h.known.recorded]
    exact List.mem_map_of_mem (f := fun e => e.job.origin) he
  obtain ⟨r, hr, horigin⟩ := beforeClose_of_begun h.inv (executed_begun h.inv.lawful hexecuted)
  rw [← WorkerJob.origin_request] at horigin
  rwa [← eq_of_origin h.inv (beforeClose_subset hr) (h.known.requested e he) horigin]

omit [DecidableEq κ] in
/-- The key of an execution is in use. -/
theorem Smooth.used {e : Execution} (he : e ∈ s.executions) {key : KeyHash} {op : Operation}
    (hjob : e.job = .operation key op) :
    asked op.sender ∈ usedKeys asked s.engine.log ∧ key = hash (asked op.sender) := by
  have hentered : .submission ⟨key, op⟩ ∈ entered s.engine.log := by
    have hrequest := h.known.requested e he
    rwa [hjob] at hrequest
  exact ⟨⟨⟨key, op⟩, hentered, rfl⟩, h.hashed.hashes _ hentered⟩

/-- **What the executions of a key have come to** is what the machine makes of their requests. -/
theorem Smooth.canonical {k : κ} {key : KeyHash} (hk : k ∈ usedKeys asked s.engine.log)
    (hkey : key = hash k) {items : List Execution} {front : List PendingEvent} {now : Option Node}
    (hitems : ∀ e ∈ items, e ∈ s.history key)
    (hover : ∀ e ∈ items, e.job ∉ s.engine.pool.running)
    (hfront : (items.map fun e => e.job.request) = onKey key front)
    (hin : ∀ r ∈ front, r ∈ entered s.engine.log)
    (hhanded : Handed (Execution.found (blobFilename config.format key))
      (Execution.left (blobFilename config.format key))
      (disk.entry (blobFilename config.format key)) items now) :
    now = stored crc32c config ((reference config platform asked luck).final held front k) := by
  subst hkey
  rw [KeyedMachine.final_apply, on_eq_onKey h.hashed hk hin, ← hfront]
  rw [h.before k hk] at hhanded
  have hkeys : ∀ e ∈ items, e.job.key? = some (hash k) := fun e he =>
    of_decide_eq_true (List.mem_filter.mp (hitems e he)).2
  refine stored_of_ended asked hkeys (fun e he => ?_) (fun e he => ?_) hhanded
  · exact h.suits e (List.mem_filter.mp (hitems e he)).1
  · exact h.ended (List.mem_filter.mp (hitems e he)).1 (hover e he)

/-- **What an execution returned** is what its request is answered. -/
theorem Smooth.answers {e : Execution} (he : e ∈ s.executions) {result : TaskResult}
    (hret : e.program = .ret (.ok result)) : (e.job.request, some result.reply) ∈
      (reference config platform asked luck).answers held (admitted s.engine.log) := by
  have hsuits := h.suits e he
  cases hjob : e.job with
  | maintenance sub =>
    have hin := h.request_admitted he
    rw [hjob] at hin hsuits
    obtain ⟨front, back, hsplit⟩ := List.append_of_mem hin
    rw [hsplit, hsuits.maintenance sub result hjob hret]
    exact KeyedMachine.mem_answers (m := reference config platform asked luck) held
  | operation key op =>
    obtain ⟨hused, hkey⟩ := h.used he hjob
    rw [hjob] at hsuits
    obtain ⟨found, rfl, hresponds⟩ := hsuits.operation key op result hjob hret
    have hhistory : e ∈ s.history key := List.mem_filter.mpr ⟨he, by simp [hjob, WorkerJob.key?]⟩
    obtain ⟨items, more, front, back, hitems, hsplit, hfront⟩ :=
      history_split h.inv h.known h.prompt h.lucky hhistory
    -- what it found is what the executions before it came to
    have hhanded := h.isolated.handed key _ (kept_blobFilename config.format key)
    rw [hitems] at hhanded
    obtain ⟨middle, hhanded, hfound, -⟩ := handed_append.mp hhanded
    have hcanonical : middle = stored crc32c config
        ((reference config platform asked luck).final held front (asked op.sender)) := by
      refine h.canonical hused hkey (fun f hf => ?_) (h.known.over hitems) hfront (fun r hr => ?_)
        hhanded
      · rw [hitems]
        exact List.mem_append_left _ hf
      · refine beforeClose_subset (?_ : r ∈ admitted s.engine.log)
        rw [hsplit]
        exact List.mem_append_left _ hr
    have hanswer : (reference config platform asked luck).answer
        ((reference config platform asked luck).final held front) e.job.request =
          some (.operation found) := by
      rw [hjob]
      exact congrArg (Option.map Reply.operation) (hresponds _ (hfound.trans hcanonical)).1.symm
    rw [hsplit, ← hjob, show TaskResult.reply (.operation found) = .operation found from rfl, ← hanswer]
    exact KeyedMachine.mem_answers (m := reference config platform asked luck) held

/-- **Where a stretch of requests is resolved and nothing behind it has run**, the canonical files are
    what the machine makes of the stretch. -/
theorem Smooth.canonical_of_resolved {front back : List PendingEvent}
    (hsplit : admitted s.engine.log = front ++ back)
    (hfront : ∀ r ∈ front, r.origin ∈ resolutions s.engine.log)
    (hback : ∀ r ∈ back, r.origin ∉ executed s.engine.log) {k : κ}
    (hk : k ∈ usedKeys asked s.engine.log) : s.disk.entry (blobFilename config.format (hash k)) =
      stored crc32c config ((reference config platform asked luck).final held front k) := by
  have hserved := history_eq h.inv h.settled h.known h.prompt h.lucky hsplit hfront hback (hash k)
  refine h.canonical hk rfl (fun e he => he) (fun e he => ?_) hserved (fun r hr => ?_)
    (h.isolated.handed (hash k) _ (kept_blobFilename config.format (hash k)))
  · have hmem : e.job.request ∈ onKey (hash k) front := by
      rw [← hserved]
      exact List.mem_map_of_mem (f := fun e => e.job.request) he
    apply not_running_of_resolved h.inv h.settled (h.known.requested e (List.mem_filter.mp he).1)
    rw [← WorkerJob.origin_request]
    exact hfront _ (List.mem_filter.mp hmem).1
  · refine beforeClose_subset (?_ : r ∈ admitted s.engine.log)
    rw [hsplit]
    exact List.mem_append_left _ hr

/-- **A state that was reached smoothly is one of the machine.** -/
theorem Smooth.refines :
    Refines hash asked crc32c config (reference config platform asked luck) held disk s := by
  constructor
  · intro r hr reply hreplied
    cases hreplied with
    | delivered hmem =>
      obtain ⟨e, he, horigin, -, result, hret, rfl⟩ := h.honest.delivered _ _ hmem
      rw [← WorkerJob.origin_request] at horigin
      rw [← eq_of_origin h.inv (h.known.requested e he) (beforeClose_subset hr) horigin]
      exact h.answers he hret
    | answered hmem =>
      -- a close is not accepted, so it is a flush
      obtain ⟨r', hr', horigin, hkind⟩ := h.candid _ _ hmem
      obtain rfl := eq_of_origin h.inv hr' (beforeClose_subset hr) horigin
      rcases hkind with hclose | ⟨⟨sender, rfl⟩, rfl⟩
      · rw [not_close_of_beforeClose hr] at hclose
        cases hclose
      · obtain ⟨front, back, hsplit⟩ := List.append_of_mem hr
        rw [hsplit]
        exact KeyedMachine.mem_answers (m := reference config platform asked luck) held
  · intro o reply hmem
    obtain ⟨e, he, horigin, -⟩ := h.honest.delivered o reply hmem
    exact ⟨_, h.request_admitted he, by rw [WorkerJob.origin_request, horigin]⟩
  · intro r hr e hmem
    rcases rejected_kind h.inv hmem with rfl | rfl
    · exact h.lucky _ hmem
    · exact not_refused h.inv hr hmem
  · intro hdrained k hk
    have hnone : ∀ r ∈ ([] : List PendingEvent), r.origin ∉ executed s.engine.log := by simp
    exact h.canonical_of_resolved (List.append_nil _).symm hdrained hnone hk
  · intro key hkey
    have hnone : s.history key = [] := by
      refine List.filter_eq_nil_iff.mpr fun e he hsome => ?_
      have hsome : e.job.key? = some key := of_decide_eq_true hsome
      cases hjob : e.job with
      | maintenance sub =>
        rw [hjob] at hsome
        cases hsome
      | operation key' op =>
        rw [hjob] at hsome
        obtain rfl := Option.some.inj hsome
        obtain ⟨hused, heq⟩ := h.used he hjob
        exact hkey _ hused heq.symm
    have hhanded := h.isolated.handed key _ (kept_blobFilename config.format key)
    rw [hnone] at hhanded
    exact hhanded

omit h [DecidableEq κ]

/-- **A state that was reached with nothing failing was reached smoothly.** -/
theorem exists_smooth (hlucky : ∀ clock, (fates clock).Lucky)
    (h : (storeSystem crc32c config platform fates Faultless panics disk).Reachable s)
    (hunharmed : Unharmed s) (hdirectory : disk.isDirectory = true)
    (hhashed : Hashed hash asked s.engine.log)
    (hbefore : ∀ k ∈ usedKeys asked s.engine.log,
      disk.entry (blobFilename config.format (hash k)) = stored crc32c config (held k)) :
    ∃ luck, Smooth crc32c config platform disk s hash asked luck held := by
  have hengine := reachable_engine h
  obtain ⟨hinv, hs⟩ := inv_reachable hengine
  have hknown := known_reachable h
  obtain ⟨hisolated, -⟩ := isolated_current h
  obtain ⟨luck, hsuits⟩ := exists_luck hinv hs hknown hisolated hdirectory
  refine ⟨luck, hinv, hs, hknown, honest_reachable h, hisolated, (genuine_prompt hengine).2,
    candid_reachable hengine, never_unlucky hlucky hengine, hunharmed, hsuits, hhashed, hbefore⟩

/-- **Refinement.**  Whatever the clients do, however the jobs overlap and whichever key the hash map
    picks: where nothing fails, the store is the reference machine, serving one accepted request at a
    time in the order in which they entered the channel.  What the outside decides about a request is
    what its execution received and whether its reader went away. -/
theorem refines_reference [DecidableEq κ] (hlucky : ∀ clock, (fates clock).Lucky)
    (h : (storeSystem crc32c config platform fates Faultless panics disk).Reachable s)
    (hunharmed : Unharmed s) (hdirectory : disk.isDirectory = true)
    (hhashed : Hashed hash asked s.engine.log)
    (hbefore : ∀ k ∈ usedKeys asked s.engine.log,
      disk.entry (blobFilename config.format (hash k)) = stored crc32c config (held k)) :
    ∃ luck : Ticket → Circumstance,
      (∀ e ∈ s.executions, (luck e.job.origin.sender).received = e.world.received ∧
        (luck e.job.origin.sender).left = e.world.left) ∧
      Refines hash asked crc32c config (reference config platform asked luck) held disk s := by
  obtain ⟨luck, hsmooth⟩ := exists_smooth hlucky h hunharmed hdirectory hhashed hbefore
  refine ⟨luck, fun e he => ?_, hsmooth.refines⟩
  exact ⟨(hsmooth.suits e he).received, (hsmooth.suits e he).left⟩

end Reached

/-! ## Flushes

  A flush is answered by the coordinator between two jobs.  What waits behind it has not been started,
  so the directory at this moment is a state of the reference. -/

section Flushes

variable {crc32c : Crc32c} {config : StoreConfig} {platform : Platform} {fates : Nat → Fate}
  {fault : FsCall → IoError → Prop} {panics : Prop} {disk : Disk} {s s' : Store}

theorem Concludes.not_answered {job : WorkerJob} {outcome : Except Abort TaskResult}
    {ev : CoordinatorEvent} {entries : List Observation} (h : Concludes job outcome ev entries)
    {o : Origin} {result : Except AtomicBlobStoreError Unit} : .answered o result ∉ entries := by
  intro hmem
  cases h with
  | operation key op result' kinds => cases hmem
  | operationPanic key op abort => cases List.mem_singleton.mp hmem
  | maintenance sub result' => cases hmem
  | maintenancePanic sub abort => cases List.mem_singleton.mp hmem

section Answered

variable (h : (storeSystem crc32c config platform fates fault panics disk).Reachable s)
  (hstep : StoreStep crc32c config platform fates fault panics s s')

include h hstep

theorem storeStep_grows : s.engine.log <+: s'.engine.log := by
  cases hstep with
  | engine hstep hsame => exact hstep.log_grows (reachable_engine h)
  | start job rest hjobs hthread => exact List.prefix_append _ _
  | call front back e c k r w hexecutions hrunning hcall henv => exact List.prefix_refl _
  | turn front back e body x k hexecutions hrunning hloop => exact List.prefix_refl _
  | finish front back e outcome ev entries hexecution hrunning hret hend => exact List.prefix_append _ _
  | panic front back job ev entries hpanics hrunning hend => exact List.prefix_append _ _

/-- Where a step answers somebody, the coordinator took it, and no job was started. -/
theorem executed_of_answer {o : Origin} {result : Except AtomicBlobStoreError Unit}
    (hnow : .answered o result ∈ s'.engine.log) (hnew : .answered o result ∉ s.engine.log) :
    executed s'.engine.log = executed s.engine.log := by
  obtain ⟨-, hs⟩ := inv_reachable (reachable_engine h)
  have hnoted {entries : List Observation} (hlog : s'.engine.log = s.engine.log ++ entries) :
      .answered o result ∈ entries := by
    rw [hlog] at hnow
    exact (List.mem_append.mp hnow).resolve_left hnew
  cases hstep with
  | engine hstep hsame => exact (still_of_running hs hstep hsame).executed_eq
  | start job rest hjobs hthread =>
    have hmem : Observation.answered o result ∈ [Observation.executed job.origin] := hnoted rfl
    cases List.mem_singleton.mp hmem
  | call front back e c k r w hexecutions hrunning hcall henv => exact absurd hnow hnew
  | turn front back e body x k hexecutions hrunning hloop => exact absurd hnow hnew
  | finish front back e outcome ev entries hexecution hrunning hret hend =>
    exact absurd (hnoted rfl) hend.not_answered
  | panic front back job ev entries hpanics hrunning hend =>
    exact absurd (hnoted rfl) hend.not_answered

/-- A barrier that is answered cuts what was accepted: all ahead of it is resolved, and nothing behind
    it was started. -/
theorem cut_of_answer {r : PendingEvent} (hbarrier : r.isBarrier = true) {front back : List PendingEvent}
    (hsplit : admitted s'.engine.log = front ++ r :: back)
    {result : Except AtomicBlobStoreError Unit} (hnow : .answered r.origin result ∈ s'.engine.log)
    (hnew : .answered r.origin result ∉ s.engine.log) :
    (∀ r' ∈ front ++ [r], r'.origin ∈ resolutions s'.engine.log) ∧
      ∀ r' ∈ back, r'.origin ∉ executed s'.engine.log := by
  have hexecuted := executed_of_answer h hstep hnow hnew
  obtain ⟨hinv, -⟩ := inv_reachable (reachable_engine (h.step hstep))
  obtain ⟨entries, hgrows⟩ := storeStep_grows h hstep
  rw [← hgrows] at hnow
  obtain ⟨first, last, rfl⟩ := List.append_of_mem ((List.mem_append.mp hnow).resolve_left hnew)
  have hlog : s'.engine.log = (s.engine.log ++ first) ++ .answered r.origin result :: last := by
    rw [← hgrows, List.append_assoc]
  -- the barrier among all that entered
  have hentered : entered s'.engine.log =
      front ++ r :: (back ++ afterClose (entered s'.engine.log)) := by
    have hall := beforeClose_append_afterClose (entered s'.engine.log)
    rw [show beforeClose (entered s'.engine.log) = front ++ r :: back from hsplit] at hall
    rw [List.append_assoc, List.cons_append] at hall
    exact hall.symm
  have hr : r ∈ entered s'.engine.log := by
    rw [hentered]
    simp
  obtain ⟨hahead, hbehind⟩ := barrier_cuts hinv hlog
    (takesEffect_of_entry hinv hlog hr ⟨hbarrier, rfl⟩) hentered rfl
  constructor
  · intro r' hr'
    rw [hlog]
    unfold resolutions
    rw [List.filterMap_append]
    rcases List.mem_append.mp hr' with hr' | hr'
    · exact List.mem_append_left _ (hahead r' hr')
    · rw [List.mem_singleton.mp hr']
      apply List.mem_append_right
      exact List.mem_cons_self
  · intro r' hr' hmem
    apply (hbehind r' (List.mem_append_left _ hr')).2
    rw [hexecuted] at hmem
    unfold executed at hmem ⊢
    rw [List.filterMap_append]
    exact List.mem_append_left _ hmem

end Answered

/-- **A flush is answered on a snapshot.**  Where nothing fails: at the moment at which a flush is
    answered, the canonical files are what the reference machine makes of the requests that were
    accepted ahead of it, and of no others. -/
theorem flush_snapshot {κ : Type} [DecidableEq κ] {hash : κ → KeyHash} {asked : Ticket → κ}
    {held : κ → Held config.maximum} (hlucky : ∀ clock, (fates clock).Lucky)
    (h : (storeSystem crc32c config platform fates Faultless panics disk).Reachable s)
    (hstep : StoreStep crc32c config platform fates Faultless panics s s')
    (hunharmed : Unharmed s') (hdirectory : disk.isDirectory = true)
    (hhashed : Hashed hash asked s'.engine.log)
    (hbefore : ∀ k ∈ usedKeys asked s'.engine.log,
      disk.entry (blobFilename config.format (hash k)) = stored crc32c config (held k))
    {sender : Ticket} {front back : List PendingEvent}
    (hsplit : admitted s'.engine.log = front ++ .flush sender :: back)
    {result : Except AtomicBlobStoreError Unit}
    (hnow : .answered ⟨none, sender⟩ result ∈ s'.engine.log)
    (hnew : .answered ⟨none, sender⟩ result ∉ s.engine.log) :
    ∃ luck : Ticket → Circumstance,
      (∀ e ∈ s'.executions, (luck e.job.origin.sender).received = e.world.received ∧
        (luck e.job.origin.sender).left = e.world.left) ∧
      ∀ k ∈ usedKeys asked s'.engine.log, s'.disk.entry (blobFilename config.format (hash k)) =
        stored crc32c config ((reference config platform asked luck).final held front k) := by
  obtain ⟨luck, hsmooth⟩ := exists_smooth hlucky (h.step hstep) hunharmed hdirectory hhashed hbefore
  obtain ⟨hahead, hbehind⟩ := cut_of_answer (r := .flush sender) h hstep rfl hsplit hnow hnew
  refine ⟨luck, fun e he => ⟨(hsmooth.suits e he).received, (hsmooth.suits e he).left⟩, fun k hk => ?_⟩
  have hsplit' : admitted s'.engine.log = (front ++ [.flush sender]) ++ back := by
    rw [hsplit, List.append_assoc]
    rfl
  have hsame : (reference config platform asked luck).final held (front ++ [.flush sender]) =
      (reference config platform asked luck).final held front := by
    unfold KeyedMachine.final
    rw [List.foldl_append]
    rfl
  rw [hsmooth.canonical_of_resolved hsplit' hahead hbehind hk, hsame]

end Flushes

/-! ## A run -/

section Sample

variable {crc32c : Crc32c} {config : StoreConfig} {key : KeyHash} {disk : Disk}

open FsM (ask fail ofResult)

/-- A save that fits can succeed on Unix. -/
theorem Unix.returns_saveBlob {payload : List UInt8} (hfits : payload.length ≤ config.maximum)
    (hdirectory : disk.isDirectory = true) (path : FileName) : ∃ w,
    Returns (Fs Faultless) (Unix.saveBlob crc32c config path payload).run (.start disk) (.ok ()) w := by
  unfold Unix.saveBlob
  rw [envelopeParts_eq crc32c config hfits]
  have hwrite (bytes content : List UInt8) : Returns (Fs Faultless) (Unix.writeAtomic bytes).run
      { JobWorld.start disk with writer := some (path, content) } (.ok ())
      { JobWorld.start disk with writer := some (path, content ++ bytes) } :=
    Returns.call (I := FsInterface) (c := .writeAtomic bytes) (r := .ok ())
      ⟨path, content, rfl, rfl⟩ returns_ret
  have hcommit (content : List UInt8) : ∃ w, Returns (Fs Faultless) Unix.commit.run
      { JobWorld.start disk with writer := some (path, content) } (.ok ()) w :=
    ⟨_, Returns.call (I := FsInterface) (c := .commit) (r := .ok ())
      ⟨path, content, rfl, hdirectory, rfl⟩ returns_ret⟩
  obtain ⟨w, hcommit⟩ := hcommit _
  refine ⟨w, returnsE_bind returns_ret (Returns.call (I := FsInterface) (c := .openAtomic path)
    (r := .ok ()) ⟨hdirectory, rfl⟩ (returnsE_bind returns_ret ?_))⟩
  exact returnsE_bind (hwrite _ []) (returnsE_bind (hwrite _ _) (returnsE_bind (hwrite _ _) hcommit))

/-- Three calls, and their events: the save has its job. -/
theorem sampleBusyStore_reachable (platform : Platform) (fault : FsCall → IoError → Prop)
    (panics : Prop) : (storeSystem crc32cReference sampleConfig platform sampleFates fault panics
      (.directory fun _ => none)).Reachable ⟨sampleBusy, .directory fun _ => none, []⟩ := by
  have hinit : (storeSystem crc32cReference sampleConfig platform sampleFates fault panics
      (.directory fun _ => none)).Reachable ⟨.initial sampleConfig, .directory fun _ => none, []⟩ :=
    .init rfl
  have hcalls := store_engine (store_engine (store_engine hinit
    (.submit (.submission ⟨sampleKey, sampleSave⟩) (by decide) rfl rfl (by decide)) rfl)
    (.submit (.flush 1) (by decide) rfl rfl (by decide)) rfl)
    (.close ⟨2⟩ (by decide) (by decide)) rfl
  exact store_event (store_event (store_event hcalls
    (.submission ⟨sampleKey, sampleSave⟩) [.flush 1, .close ⟨2⟩] rfl rfl)
    (.flush 1) [.close ⟨2⟩] rfl rfl) (.close ⟨2⟩) [] rfl rfl

/-- The save has come back. -/
def sampleSaved : Engine := (sampleBusy.startJob (.operation sampleKey sampleSave) []).finishJob [] []
  (.completion ⟨sampleKey, some sampleFinished⟩) []

/-- Its completion has answered the save and the flush, and the pool goes down. -/
def sampleDrained : Engine := onEvent sampleConfig sampleFates
  (.completion ⟨sampleKey, some sampleFinished⟩) { sampleSaved with channel := [] }

/-- The worker saves. -/
theorem sampleSaved_reachable : ∃ w, (storeSystem crc32cReference sampleConfig .unix sampleFates
    Faultless False (.directory fun _ => none)).Reachable ⟨sampleSaved, w.disk,
      [⟨.operation sampleKey sampleSave, .directory fun _ => none,
        .ret (.ok (.operation (.save (.ok ())))), w⟩]⟩ ∧
    Saved crc32cReference sampleConfig (.start (.directory fun _ => none)) sampleKey [1, 2] w := by
  have hsaves : ∃ w, Returns (Fs Faultless) (Unix.saveBlob crc32cReference sampleConfig
      (blobFilename sampleConfig.format sampleKey) [1, 2]).run (.start (.directory fun _ => none))
      (.ok ()) w := Unix.returns_saveBlob (by decide) rfl _
  obtain ⟨w, hsaves⟩ := hsaves
  have hprogram : Returns (Fs Faultless)
      ((WorkerJob.operation sampleKey sampleSave).program crc32cReference sampleConfig .unix)
      (.start (.directory fun _ => none)) (.ok (.operation (.save (.ok ())))) w :=
    returnsE_map (returnsE_map (returns_result hsaves))
  have hjob := store_executes (sampleBusyStore_reachable .unix Faultless False)
    (show sampleBusy.pool.jobs = [.operation sampleKey sampleSave] from rfl) (by decide) hprogram
  refine ⟨w, hjob.step (.finish [] [] ⟨.operation sampleKey sampleSave, .directory fun _ => none,
    .ret (.ok (.operation (.save (.ok ())))), w⟩ _ _ _ List.mem_cons_self rfl rfl
    (.operation sampleKey sampleSave (.save (.ok ())) rfl)), ?_⟩
  obtain ⟨n, hrun⟩ := hsaves
  exact (holds_saveBlob crc32cReference sampleConfig Faultless (.start (.directory fun _ => none))
    sampleKey .unix [1, 2] n _ w hrun).2 _ rfl

/-- The completion of the save answers everybody, and the pool goes down. -/
theorem sampleEnd_of_saved {platform : Platform} {disk d : Disk} {executions : List Execution}
    (h : (storeSystem crc32cReference sampleConfig platform sampleFates Faultless False disk).Reachable
      ⟨sampleSaved, d, executions⟩) :
    (storeSystem crc32cReference sampleConfig platform sampleFates Faultless False disk).Reachable
      ⟨sampleEnd, d, executions⟩ := by
  have hdrained : (storeSystem crc32cReference sampleConfig platform sampleFates Faultless False
      disk).Reachable ⟨sampleDrained, d, executions⟩ :=
    store_event h (.completion ⟨sampleKey, some sampleFinished⟩) [] rfl rfl
  have hstopped := store_engine hdrained (.finishShutdown true rfl rfl rfl) rfl
  exact store_engine hstopped (.leave true rfl rfl) rfl

theorem sampleStore_reachable : ∃ s, s.engine = sampleEnd ∧
    (storeSystem crc32cReference sampleConfig .unix sampleFates Faultless False
      (.directory fun _ => none)).Reachable s := by
  obtain ⟨w, hsaved, -⟩ := sampleSaved_reachable
  exact ⟨_, rfl, sampleEnd_of_saved hsaved⟩

/-- The theorem for that run: the save and the flush are answered as the machine does. -/
theorem refines_reference_sample : ∃ s luck, s.engine = sampleEnd ∧
    Refines (fun _ : Unit => sampleKey) (fun _ => ()) crc32cReference sampleConfig
      (reference sampleConfig .unix (fun _ => ()) luck) (fun _ => none) (.directory fun _ => none) s := by
  obtain ⟨s, hengine, hreach⟩ := sampleStore_reachable
  have hentered : entered s.engine.log =
      [.submission ⟨sampleKey, sampleSave⟩, .flush 1, .close ⟨2⟩] := by
    rw [hengine]
    rfl
  have hunharmed : Unharmed s := by
    intro o hmem
    rw [hengine] at hmem
    simp [sampleEnd] at hmem
  have hhashed : Hashed (fun _ : Unit => sampleKey) (fun _ => ()) s.engine.log := by
    refine ⟨fun sub hmem => ?_, fun k _ k' _ _ => rfl⟩
    rw [hentered] at hmem
    simp at hmem
    rw [hmem]
  have hbefore : ∀ k ∈ usedKeys (fun _ => ()) s.engine.log,
      (Disk.directory fun _ => none).entry (blobFilename sampleConfig.format sampleKey) =
        stored crc32cReference sampleConfig ((fun _ => none : Unit → Held sampleConfig.maximum) k) :=
    fun k _ => rfl
  obtain ⟨luck, -, hrefines⟩ := refines_reference (fun clock => ⟨fun _ => rfl, rfl⟩) hreach hunharmed
    rfl hhashed hbefore
  exact ⟨s, luck, hengine, hrefines⟩

/-- The flush of that run is answered with the completion of the save. -/
theorem flush_snapshot_sample : ∃ (s : Store) (luck : Ticket → Circumstance), s.engine = sampleDrained ∧
    s.disk.entry (blobFilename sampleConfig.format sampleKey) = stored crc32cReference sampleConfig
      ((reference sampleConfig .unix (fun _ : Ticket => ()) luck).final (fun _ : Unit => none)
        [.submission ⟨sampleKey, sampleSave⟩] ()) := by
  obtain ⟨w, hsaved, -⟩ := sampleSaved_reachable
  have hsavedLog : sampleSaved.log = sampleEnd.log.take 10 := rfl
  have hlog : sampleDrained.log = sampleEnd.log.take 13 := rfl
  have hentered : entered sampleDrained.log =
      [.submission ⟨sampleKey, sampleSave⟩, .flush 1, .close ⟨2⟩] := rfl
  have hrecords : Records sampleFates [.completion ⟨sampleKey, some sampleFinished⟩]
      { sampleSaved with channel := [] } sampleDrained :=
    onEvent_records _ (inv_reachable (reachable_engine hsaved)).2.delivered
  have hstep (executions : List Execution) : StoreStep crc32cReference sampleConfig .unix sampleFates
      Faultless False ⟨sampleSaved, w.disk, executions⟩ ⟨sampleDrained, w.disk, executions⟩ :=
    .engine (.event (.completion ⟨sampleKey, some sampleFinished⟩) [] rfl rfl) hrecords.running
  have hunharmed (executions : List Execution) : Unharmed ⟨sampleDrained, w.disk, executions⟩ := by
    intro o hmem
    have hmem : .lost o ∈ sampleDrained.log := hmem
    rw [hlog] at hmem
    simp [sampleEnd] at hmem
  have hhashed : Hashed (fun _ : Unit => sampleKey) (fun _ => ()) sampleDrained.log := by
    refine ⟨fun sub hmem => ?_, fun k _ k' _ _ => rfl⟩
    rw [hentered] at hmem
    simp at hmem
    rw [hmem]
  have hsplit : admitted sampleDrained.log =
      [.submission ⟨sampleKey, sampleSave⟩] ++ .flush 1 :: [] := rfl
  have hnow : .answered ⟨none, 1⟩ (.ok ()) ∈ sampleDrained.log := by
    rw [hlog]
    simp [sampleEnd]
  have hnew : .answered ⟨none, 1⟩ (.ok ()) ∉ sampleSaved.log := by
    rw [hsavedLog]
    simp [sampleEnd]
  have hbefore : ∀ k ∈ usedKeys (fun _ => ()) sampleDrained.log,
      (Disk.directory fun _ => none).entry (blobFilename sampleConfig.format sampleKey) =
        stored crc32cReference sampleConfig ((fun _ => none : Unit → Held sampleConfig.maximum) k) :=
    fun k _ => rfl
  obtain ⟨luck, -, hsnapshot⟩ := flush_snapshot (fun clock => ⟨fun _ => rfl, rfl⟩) hsaved (hstep _)
    (hunharmed _) rfl hhashed hbefore hsplit hnow hnew
  refine ⟨_, luck, rfl, hsnapshot () ⟨⟨sampleKey, sampleSave⟩, ?_, rfl⟩⟩
  rw [hentered]
  exact List.mem_cons_self

end Sample

end AtomicBlobStore
