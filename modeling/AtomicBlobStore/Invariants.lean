/-
  Every move keeps the ledger.

  One lemma a field of `Inv`, each by cases on the move.  A move changes few fields of the state and
  appends few entries to the history, so most cases are the old fact read through the new record;
  the cases that carry an argument are written out.  The phases and the justification of the history
  follow in `Lawful`.

  Why the ledger counts: that a request is somewhere would be kept by a move that leaves a copy
  behind, and that it is nowhere twice by a move that drops it.  As an equation between numbers,
  `conserved` says both, and every move is checked by adding up what it takes away and what it puts
  down.

  Why the order fields speak of prefixes and not of positions: a request changes its type on the way,
  and a position in one list says nothing about the next.  What stays is the sequence of origins.
-/
import AtomicBlobStore.Ledger
import Mathlib.Data.List.TakeWhile

namespace AtomicBlobStore

open Relation

/-! ## Cutting a list at the first close

  `beforeClose` and `afterClose` split a history at its first close.  A history only grows at its end,
  so there are three cases: no close yet, this very entry is the first one, or it lies behind. -/

section Cut

variable {rs more : List PendingEvent}

theorem beforeClose_of_none (h : rs.any PendingEvent.isClose = false) : beforeClose rs = rs := by
  rw [List.any_eq_false] at h
  exact List.takeWhile_eq_self_iff.mpr fun r hr => by simpa using h r hr

theorem afterClose_of_none (h : rs.any PendingEvent.isClose = false) : afterClose rs = [] := by
  rw [List.any_eq_false] at h
  exact List.dropWhile_eq_nil_iff.mpr fun r hr => by simpa using h r hr

/-- Behind a first close, more requests change nothing before it. -/
theorem beforeClose_append (h : rs.any PendingEvent.isClose = true) :
    beforeClose (rs ++ more) = beforeClose rs := by
  induction rs with
  | nil => nomatch h
  | cons r rs ih =>
    cases hr : r.isClose with
    | true => simp [beforeClose, hr]
    | false =>
      have h' : rs.any PendingEvent.isClose = true := by simpa [hr] using h
      simpa [beforeClose, hr] using ih h'

theorem afterClose_append (h : rs.any PendingEvent.isClose = true) :
    afterClose (rs ++ more) = afterClose rs ++ more := by
  induction rs with
  | nil => nomatch h
  | cons r rs ih =>
    cases hr : r.isClose with
    | true => simp [afterClose, hr]
    | false =>
      have h' : rs.any PendingEvent.isClose = true := by simpa [hr] using h
      simpa [afterClose, hr] using ih h'

/-- The first close itself. -/
theorem beforeClose_concat_close (h : rs.any PendingEvent.isClose = false) (sub : CloseSubmission) :
    beforeClose (rs ++ [.close sub]) = rs := by
  rw [List.any_eq_false] at h
  rw [beforeClose, List.takeWhile_append_of_pos fun r hr => by simpa using h r hr]
  simp [PendingEvent.isClose]

theorem afterClose_concat_close (h : rs.any PendingEvent.isClose = false) (sub : CloseSubmission) :
    afterClose (rs ++ [.close sub]) = [.close sub] := by
  rw [List.any_eq_false] at h
  rw [afterClose, List.dropWhile_append_of_pos fun r hr => by simpa using h r hr]
  simp [PendingEvent.isClose]

theorem beforeClose_append_afterClose (rs : List PendingEvent) :
    beforeClose rs ++ afterClose rs = rs := List.takeWhile_append_dropWhile

end Cut

/-! ## Queues

  The queues keep no order between keys, so they enter the ledger as a sum over the keys, and the
  lemmas say what pushing, popping and trying a key do to the count of one origin. -/

section Queued

variable (q : KeyedQueues KeyHash Operation) (key : KeyHash) (op : Operation) (o : Origin)

@[simp] theorem queuedIn_pushBack :
    queuedIn (q.pushBack key op) o = queuedIn q o + [op.origin key].count o := by
  unfold queuedIn
  split
  · rename_i hkey
    have : op.origin key ≠ o := by
      rintro rfl
      nomatch hkey
    simp [this]
  · rename_i k hkey
    rw [KeyedQueues.queue_pushBack]
    split
    · rename_i hk
      subst hk
      rw [List.map_append, List.count_append]
      rfl
    · rename_i hk
      have : op.origin key ≠ o := by
        rintro rfl
        exact hk (Option.some.inj hkey).symm
      simp [this]

@[simp] theorem queuedIn_removeIfEmpty : queuedIn (q.removeIfEmpty key) o = queuedIn q o := by
  unfold queuedIn
  split
  · rfl
  · rw [KeyedQueues.queue_removeIfEmpty]

variable {q key op}

theorem queuedIn_popFront {q' : KeyedQueues KeyHash Operation}
    (h : q.popFront key = some (op, q')) :
    queuedIn q o = queuedIn q' o + [op.origin key].count o := by
  obtain ⟨hfront, hothers⟩ := q.queue_popFront h
  unfold queuedIn
  split
  · rename_i hkey
    have : op.origin key ≠ o := by
      rintro rfl
      nomatch hkey
    simp [this]
  · rename_i k hkey
    by_cases hk : k = key
    · subst hk
      rw [hfront, List.map_cons, List.count_cons, List.count_singleton]
    · have : op.origin key ≠ o := by
        rintro rfl
        exact hk (Option.some.inj hkey).symm
      rw [hothers k hk]
      simp [this]

theorem queuedIn_idle (h : ∀ k, q.queue k = []) : queuedIn q o = 0 := by
  unfold queuedIn
  split
  · rfl
  · rw [h]
    rfl

end Queued

/-! ## Ends of jobs

  A job leaves the running list in one of the ways of `JobEnd`, and each of them leaves exactly one
  trace: an outcome in the channel, or an entry which says that the outcome was lost. -/

theorem JobEnd.event {job : WorkerJob} {ev : CoordinatorEvent} {entries : List Observation}
    (h : JobEnd job ev entries) :
    ev.request? = none ∧ ev.key? = job.key? ∧ ev.isMaintenanceCompletion = job.isMaintenance := by
  cases h <;> exact ⟨rfl, rfl, rfl⟩

/-- A job hands its origin on in its outcome, or reports it lost. -/
theorem JobEnd.entries {job : WorkerJob} {ev : CoordinatorEvent} {entries : List Observation}
    (h : JobEnd job ev entries) : entries = [] ∧ ev.outcome? = some job.origin ∨
      entries = [.lost job.origin] ∧ ev.outcome? = none := by
  cases h with
  | operation keyHash op f hop =>
    refine Or.inl ⟨rfl, ?_⟩
    simp [WorkerJob.origin, Operation.origin, hop]
  | operationPanic keyHash op => exact Or.inr ⟨rfl, rfl⟩
  | maintenance sub result => exact Or.inl ⟨rfl, rfl⟩
  | maintenancePanic sub => exact Or.inr ⟨rfl, rfl⟩

section Keep

variable {config : StoreConfig} {s s' : Engine}

-- what a move writes, read off the record
attribute [local simp] Engine.observe Engine.requests Engine.places Engine.outcomes Engine.queued
  resolve enter deliver entered received released begun executed resolutions ended moved
  List.filterMap_cons List.count_cons List.count_append WorkerJob.origin PendingEvent.origin

/-! ## Order

  A request moves from the channel to the pending list and from there to the queue of its key.  Each
  of the three is first in, first out, and the lemmas follow a request through them: what left a
  place, followed by what is in it, is what came into it, in the same order. -/

/-- The channel: only a call appends to it, and only the coordinator takes from it. -/
theorem order_move (h : Inv config s) (hm : Move config s s') :
    entered s'.log = received s'.log ++ s'.requests := by
  have horder := h.order
  cases hm with
  | finishJob front back job ev entries hrunning hend =>
    have hreq := hend.event.1
    rcases hend.entries with ⟨rfl, -⟩ | ⟨rfl, -⟩ <;> simpa [hreq] using horder
  | finishShutdown ok hphase => simpa [List.filterMap_map, Function.comp_def] using horder
  | takeMaintenance done rest hchannel =>
    cases hd : done.outcome <;> simpa [hchannel, hd] using horder
  | enter r => simpa using congrArg (· ++ [r]) horder
  | dismiss r rest hchannel => simpa [hchannel] using horder
  | park r rest hchannel => simpa [hchannel] using horder
  | accept sub rest hchannel => simpa [hchannel] using horder
  | closeFirst sub rest hchannel => simpa [hchannel] using horder
  | closeMore sub rest hchannel => simpa [hchannel] using horder
  | closeLate ok sub rest hchannel => simpa [hchannel] using horder
  | takeCompletion done rest hchannel => simpa [hchannel] using horder
  | dropReceiver hphase hchannel => simpa [hchannel] using horder
  | _ => simpa using horder

/-- While the lifecycle is open no close has been taken from the channel. -/
theorem no_close_of_opened (h : Inv config s) (hphase : s.phase = .running)
    (hlock : s.lifecycle = .opened) : (received s.log).any PendingEvent.isClose = false := by
  have halive := h.alive (Or.inl hphase)
  rw [hlock] at halive
  by_contra hany
  rw [if_pos (by simpa using hany)] at halive
  cases halive

/-- Once the lifecycle has left open, a close came before whatever is in the channel. -/
theorem close_of_not_opened (h : Inv config s) (hchannel : s.channel ≠ [])
    (hlock : s.lifecycle ≠ .opened) : (received s.log).any PendingEvent.isClose = true := by
  cases hphase : s.phase with
  | running =>
    have halive := h.alive (Or.inl hphase)
    by_contra hany
    rw [if_neg hany] at halive
    exact hlock halive
  | joining => exact h.joining hphase
  | draining ok => exact (h.draining ok hphase).2.1
  | returned => exact absurd (h.gone (Or.inl hphase)).2.1 hchannel
  | dropped => exact absurd (h.gone (Or.inr hphase)).2.1 hchannel

/-- While no close has been taken, nothing pending is one. -/
theorem pending_of_opened (h : Inv config s) (hphase : s.phase = .running)
    (hlock : s.lifecycle = .opened) : s.pending.filter (fun r => r.isClose) = [] := by
  have hnone := no_close_of_opened h hphase hlock
  rw [h.running (Or.inl hphase)]
  rw [List.any_eq_false] at hnone
  exact List.filter_eq_nil_iff.mpr fun r hr => by simpa using hnone r hr

/-- The pending list up to the first close.  A close that waits at its end is not counted, so the
    cases that matter are the arrival of the first close and of what comes behind it. -/
theorem accepted_move (h : Inv config s) (hm : Move config s s') :
    beforeClose (received s'.log) = released s'.log ++ s'.pending.filter fun r => !r.isClose := by
  have haccepted := h.accepted
  cases hm with
  | dismiss r rest hchannel hclose hlock =>
    have hany := close_of_not_opened h (by simp [hchannel]) hlock
    simpa [beforeClose_append hany] using haccepted
  | park r rest hchannel hclose hphase hlock =>
    have hnone := no_close_of_opened h hphase hlock
    have hnone' : (received s.log ++ [r]).any PendingEvent.isClose = false := by
      simpa [hclose] using hnone
    rw [beforeClose_of_none hnone] at haccepted
    have hgoal := beforeClose_of_none hnone'
    simp_all
  | accept sub rest hchannel hphase hlock hpending hmaintenance =>
    have hnone := no_close_of_opened h hphase hlock
    have hnone' : (received s.log ++ [PendingEvent.submission sub]).any PendingEvent.isClose = false := by
      simpa [PendingEvent.isClose] using hnone
    rw [beforeClose_of_none hnone] at haccepted
    have hgoal := beforeClose_of_none hnone'
    simp_all
  | closeFirst sub rest hchannel hphase hlock =>
    have hnone := no_close_of_opened h hphase hlock
    have hgoal := beforeClose_concat_close hnone sub
    rw [beforeClose_of_none hnone] at haccepted
    simp_all [PendingEvent.isClose]
  | closeMore sub rest hchannel hphase hlock =>
    have hany := close_of_not_opened h (by simp [hchannel]) (by simp [hlock])
    have hgoal : beforeClose (received s.log ++ [.close sub]) = _ := beforeClose_append hany
    simp_all [PendingEvent.isClose]
  | closeLate ok sub rest hchannel hphase =>
    have hany := (h.draining ok hphase).2.1
    have hgoal : beforeClose (received s.log ++ [.close sub]) = _ := beforeClose_append hany
    simp_all
  | finishJob front back job ev entries hrunning hend =>
    rcases hend.entries with ⟨rfl, -⟩ | ⟨rfl, -⟩ <;> simp_all
  | finishShutdown ok hphase =>
    have hidle := (h.idle (by simp [hphase])).2.2.2
    simp_all [List.filterMap_map, Function.comp_def]
  | takeMaintenance done rest hchannel => cases hd : done.outcome <;> simp_all
  | _ => simp_all [PendingEvent.isClose]

/-- Closes stay at the end of the pending list, since whatever arrives behind one is refused. -/
theorem suffix_move (h : Inv config s) (hm : Move config s s') :
    s'.pending = (s'.pending.filter fun r => !r.isClose) ++
      s'.pending.filter fun r => r.isClose := by
  have hsuffix := h.suffix
  cases hm with
  | park r rest hchannel hclose hphase hlock =>
    have hnone := pending_of_opened h hphase hlock
    rw [hnone, List.append_nil] at hsuffix
    show s.pending ++ [r] = _
    rw [List.filter_append, List.filter_append, hnone, ← hsuffix]
    simp [hclose]
  | release sub rest hpending => simpa [hpending, PendingEvent.isClose] using hsuffix
  | flush sender rest hpending => simpa [hpending, PendingEvent.isClose] using hsuffix
  | maintain sub rest pool clock hpending => simpa [hpending, PendingEvent.isClose] using hsuffix
  | maintainFailed sub rest pool clock hpending =>
    simpa [hpending, PendingEvent.isClose] using hsuffix
  | closeFirst sub rest =>
    show s.pending ++ [_] = _
    rw [List.filter_append, List.filter_append]
    nth_rewrite 1 [hsuffix]
    simp [PendingEvent.isClose]
  | closeMore sub rest =>
    show s.pending ++ [_] = _
    rw [List.filter_append, List.filter_append]
    nth_rewrite 1 [hsuffix]
    simp [PendingEvent.isClose]
  | finishShutdown ok hphase => rfl
  | _ => exact hsuffix

/-- The queue of a key: a release pushes to its end and a dispatch pops its front, whichever other
    keys are served in between. -/
theorem perKey_move (h : Inv config s) (hm : Move config s s') (k : KeyHash) :
    (released s'.log).filterMap (PendingEvent.on? k) =
      (begun s'.log).filter (fun o => o.key = some k) ++
        (s'.queues.queue k).map (Operation.origin k) := by
  have hperKey := h.perKey k
  -- a queued operation moves from the front of its queue to the end of what has begun
  have hpopped : ∀ {key : KeyHash} {op : Operation} {q' : KeyedQueues KeyHash Operation},
      s.queues.popFront key = some (op, q') →
      (released s.log).filterMap (PendingEvent.on? k) =
        (begun s.log).filter (fun o => o.key = some k) ++
          ([op.origin key].filter (fun o => o.key = some k) ++
            (q'.queue k).map (Operation.origin k)) := by
    intro key op q' hpop
    obtain ⟨hfront, hothers⟩ := s.queues.queue_popFront hpop
    rw [hperKey]
    by_cases hk : k = key
    · subst hk
      rw [hfront]
      simp [Operation.origin]
    · rw [hothers k hk]
      simp [Operation.origin, Ne.symm hk]
  -- a released operation joins the end of its queue
  have hpushed : ∀ sub : Submission,
      (released s.log ++ [PendingEvent.submission sub]).filterMap (PendingEvent.on? k) =
        (begun s.log).filter (fun o => o.key = some k) ++
          (((s.queues.pushBack sub.keyHash sub.operation).queue k).map (Operation.origin k)) := by
    intro sub
    rw [List.filterMap_append, hperKey, KeyedQueues.queue_pushBack]
    by_cases hk : k = sub.keyHash
    · subst hk
      simp [PendingEvent.on?]
    · simp [PendingEvent.on?, hk, Ne.symm hk]
  cases hm with
  | begin key op queues pool clock hphase hidle hbound hfree hpop =>
    simpa using hpopped hpop
  | beginFailed key op queues pool clock hphase hidle hbound hfree hpop =>
    simpa [KeyedQueues.queue_removeIfEmpty] using hpopped hpop
  | release sub rest hpending => simpa using hpushed sub
  | accept sub rest hchannel => simpa using hpushed sub
  | tidy key => simpa [KeyedQueues.queue_removeIfEmpty] using hperKey
  | finishJob front back job ev entries hrunning hend =>
    rcases hend.entries with ⟨rfl, -⟩ | ⟨rfl, -⟩ <;> simp_all
  | finishShutdown ok hphase => simp_all [List.filterMap_map, Function.comp_def]
  | takeMaintenance done rest hchannel => cases hd : done.outcome <;> simp_all
  | _ => simp_all [PendingEvent.on?]

/-- A call draws its ticket when it enters, and so later calls have larger ones. -/
theorem fresh_move (h : Inv config s) (hm : Move config s s') :
    ((entered s'.log).map fun r => r.origin.sender).Pairwise (· < ·) := by
  have hfresh := h.fresh
  have hissued := h.issued
  cases hm with
  | enter r hnew =>
    show ((entered (s.log ++ [.entered r])).map fun r => r.origin.sender).Pairwise (· < ·)
    rw [entered, List.filterMap_append, List.map_append, List.pairwise_append]
    refine ⟨hfresh, by simp, ?_⟩
    intro a ha b hb
    obtain ⟨r', hr', rfl⟩ := List.mem_map.mp ha
    obtain rfl : b = r.origin.sender := by simpa using hb
    exact Nat.lt_of_lt_of_le (hissued r' hr') hnew
  | finishJob front back job ev entries hrunning hend =>
    rcases hend.entries with ⟨rfl, -⟩ | ⟨rfl, -⟩ <;> simpa using hfresh
  | finishShutdown ok hphase => simpa [List.filterMap_map, Function.comp_def] using hfresh
  | takeMaintenance done rest hchannel => cases hd : done.outcome <;> simpa [hd] using hfresh
  | _ => simpa using hfresh

/-- No ticket is used before it is issued. -/
theorem issued_move (h : Inv config s) (hm : Move config s s') :
    ∀ r ∈ entered s'.log, r.origin.sender < s'.issued := by
  have hissued := h.issued
  cases hm with
  | enter r hnew =>
    intro r' hr'
    rcases List.mem_append.mp (show r' ∈ entered s.log ++ [r] by simpa using hr') with hr' | hr'
    · exact Nat.lt_of_lt_of_le (hissued r' hr') (Nat.le_succ_of_le hnew)
    · obtain rfl := List.mem_singleton.mp hr'
      exact Nat.lt_succ_self _
  | resolve r result hnew =>
    intro r' hr'
    exact Nat.lt_of_lt_of_le (hissued r' (by simpa using hr')) (Nat.le_succ_of_le hnew)
  | finishJob front back job ev entries hrunning hend =>
    rcases hend.entries with ⟨rfl, -⟩ | ⟨rfl, -⟩ <;> simpa using hissued
  | finishShutdown ok hphase => simpa [List.filterMap_map, Function.comp_def] using hissued
  | takeMaintenance done rest hchannel => cases hd : done.outcome <;> simpa [hd] using hissued
  | _ => simpa using hissued

/-- The job channel is a queue, so jobs start in the order in which they were dispatched. -/
theorem started_move (h : Inv config s) (hm : Move config s s') :
    (executed s'.log ++ s'.pool.jobs.map WorkerJob.origin).Sublist (begun s'.log) := by
  have hstarted := h.started
  -- what is dispatched joins the end of both lists
  have hpushed : ∀ o : Origin,
      (executed s.log ++ (s.pool.jobs.map WorkerJob.origin ++ [o])).Sublist (begun s.log ++ [o]) := by
    intro o
    rw [← List.append_assoc]
    exact hstarted.append (List.Sublist.refl _)
  cases hm with
  | begin key op queues pool clock hphase hidle hbound hfree hpop hpool =>
    obtain ⟨handles, -, rfl⟩ := hpool
    simpa [-List.map_append, List.map_append] using hpushed (op.origin key)
  | beginFailed key op queues pool clock hphase hidle hbound hfree hpop hpool =>
    obtain ⟨handles, -, rfl⟩ := hpool
    simpa using hstarted.trans (List.sublist_append_left _ [op.origin key])
  | maintain sub rest pool clock hpending hphase hfree hidle houtcome hpool =>
    obtain ⟨handles, -, rfl⟩ := hpool
    simpa using hpushed ⟨none, sub.sender⟩
  | maintainFailed sub rest pool clock hpending hphase hfree hidle houtcome hpool =>
    obtain ⟨handles, -, rfl⟩ := hpool
    simpa using hstarted.trans (List.sublist_append_left _ [⟨none, sub.sender⟩])
  | startJob job rest hjobs => simpa [hjobs] using hstarted
  | finishJob front back job ev entries hrunning hend =>
    rcases hend.entries with ⟨rfl, -⟩ | ⟨rfl, -⟩ <;> simpa using hstarted
  | finishShutdown ok hphase => simpa [List.filterMap_map, Function.comp_def] using hstarted
  | takeMaintenance done rest hchannel => cases hd : done.outcome <;> simpa [hd] using hstarted
  | _ => simpa using hstarted

/-- A call resolved by its own thread leaves no request behind, and its reply channel is not used
    again. -/
theorem callers_move (h : Inv config s) (hm : Move config s s') :
    ∀ r result, .resolved r result ∈ s'.log → r.origin.sender < s'.issued ∧
      ∀ r' ∈ entered s'.log, r'.origin.sender ≠ r.origin.sender := by
  have hold := h.callers
  -- entries of the coordinator and the workers
  have hgrow : ∀ more : List Observation, entered more = [] →
      (∀ r result, .resolved r result ∉ more) → ∀ r result, .resolved r result ∈ s.log ++ more →
        r.origin.sender < s.issued ∧
          ∀ r' ∈ entered (s.log ++ more), r'.origin.sender ≠ r.origin.sender := by
    intro more hentered hnone r result hmem
    rw [entered_append, hentered, List.append_nil]
    exact hold r result ((List.mem_append.mp hmem).resolve_right (hnone r result))
  cases hm with
  | enter r hnew =>
    intro r' result hmem
    obtain ⟨hlt, hne⟩ := hold r' result ((List.mem_append.mp hmem).resolve_right (by simp))
    refine ⟨Nat.lt_of_lt_of_le hlt (Nat.le_succ_of_le hnew), fun r'' hr'' => ?_⟩
    rcases List.mem_append.mp (show r'' ∈ entered s.log ++ [r] by simpa using hr'') with hr'' | hr''
    · exact hne r'' hr''
    · obtain rfl := List.mem_singleton.mp hr''
      exact Nat.ne_of_gt (Nat.lt_of_lt_of_le hlt hnew)
  | resolve r result hnew =>
    intro r' result' hmem
    have hentered : entered (s.log ++ [.resolved r result]) = entered s.log := by simp
    show _ ∧ ∀ r'' ∈ entered (s.log ++ [.resolved r result]), _
    rw [hentered]
    rcases List.mem_append.mp hmem with hmem | hmem
    · obtain ⟨hlt, hne⟩ := hold r' result' hmem
      exact ⟨Nat.lt_of_lt_of_le hlt (Nat.le_succ_of_le hnew), hne⟩
    · obtain ⟨rfl, -⟩ : r' = r ∧ result' = result := by simpa using hmem
      refine ⟨Nat.lt_succ_self _, fun r'' hr'' => ?_⟩
      exact Nat.ne_of_lt (Nat.lt_of_lt_of_le (h.issued r'' hr'') hnew)
  | finishJob front back job ev entries hrunning hend =>
    rcases hend.entries with ⟨rfl, -⟩ | ⟨rfl, -⟩
    · exact hgrow [] rfl (by simp)
    · exact hgrow [.lost job.origin] rfl (by simp)
  | finishShutdown ok hphase =>
    exact hgrow _ (by simp [List.filterMap_map, Function.comp_def]) (by simp)
  | takeMaintenance done rest hchannel =>
    refine hgrow _ ?_ ?_ <;> cases hd : done.outcome <;> simp
  | dismiss r rest => exact hgrow [_, _] rfl (by simp)
  | park r rest => exact hgrow [_] rfl (by simp)
  | accept sub rest => exact hgrow [_, _] rfl (by simp)
  | closeFirst sub rest => exact hgrow [_, _] rfl (by simp)
  | closeMore sub rest => exact hgrow [_] rfl (by simp)
  | closeLate ok sub rest => exact hgrow [_, _] rfl (by simp)
  | deliver key f => exact hgrow [_] rfl (by simp)
  | begin key op queues pool clock => exact hgrow [_] rfl (by simp)
  | beginFailed key op queues pool clock => exact hgrow [_, _] rfl (by simp)
  | release sub rest => exact hgrow [_] rfl (by simp)
  | flush sender rest => exact hgrow [_, _] rfl (by simp)
  | maintain sub rest pool clock => exact hgrow [_, _] rfl (by simp)
  | maintainFailed sub rest pool clock => exact hgrow [_, _, _] rfl (by simp)
  | startJob job rest => exact hgrow [_] rfl (by simp)
  | disconnect ok => exact hgrow [_, _] rfl (by simp)
  | quiet => exact hold
  | takeCompletion => exact hold
  | tidy => exact hold
  | stop => exact hold
  | leave => exact hold
  | dropReceiver => exact hold

/-- Every move keeps the order. -/
theorem Ordered.move (h : Inv config s) (hm : Move config s s') : Ordered s' where
  order := order_move h hm
  accepted := accepted_move h hm
  suffix := suffix_move h hm
  perKey := perKey_move h hm
  started := started_move h hm
  fresh := fresh_move h hm
  issued := issued_move h hm
  callers := callers_move h hm

/-! ## Conservation -/

/-- The ledger as a sum. -/
def Balanced (s : Engine) (o : Origin) : Prop :=
  (s.requests.map PendingEvent.origin).count o + (s.pending.map PendingEvent.origin).count o +
    (s.pool.jobs.map WorkerJob.origin).count o + (s.pool.running.map WorkerJob.origin).count o +
    s.outcomes.count o + (s.outcome.toList.map fun p => p.2.operation.origin p.1).count o +
    (resolutions s.log).count o + s.queued o = ((entered s.log).map PendingEvent.origin).count o

/-- `Balanced`, and the conservation field of `Accounted`, are the same equation with its sums written
    out. -/
theorem balanced_iff (s : Engine) (o : Origin) : Balanced s o ↔
    s.places.count o + s.queued o = ((entered s.log).map PendingEvent.origin).count o := by
  simp only [Balanced, Engine.places, List.count_append]

/-- A move takes a request out of one summand and puts it into another, or does both for several
    requests. Only `enter` puts one in from outside, and its ticket is fresh. -/
theorem balanced_move (h : Inv config s) (hm : Move config s s') (o : Origin) : Balanced s' o := by
  have hbalanced := (balanced_iff s o).mpr (h.conserved o)
  unfold Balanced at hbalanced ⊢
  cases hm with
  | finishJob front back job ev entries hrunning hend =>
    have hreq := hend.event.1
    rcases hend.entries with ⟨rfl, ho⟩ | ⟨rfl, ho⟩
    · simp [hrunning, hreq, ho] at hbalanced ⊢
      omega
    · simp [hrunning, hreq, ho] at hbalanced ⊢
      omega
  | finishShutdown ok hphase =>
    simp [List.filterMap_map, Function.comp_def, -PendingEvent.origin] at hbalanced ⊢
    omega
  | takeMaintenance done rest hchannel =>
    cases hd : done.outcome <;> simp [hchannel, hd] at hbalanced ⊢ <;> omega
  | takeCompletion done rest hchannel hphase houtcome =>
    cases hd : done.outcome <;> simp [hchannel, houtcome, hd] at hbalanced ⊢ <;> omega
  | beginFailed key op queues pool clock hphase hidle hbound hfree hpop hpool =>
    obtain ⟨handles, -, rfl⟩ := hpool
    rw [Engine.queued, queuedIn_popFront o hpop] at hbalanced
    simp at hbalanced ⊢
    omega
  | begin key op queues pool clock hphase hidle hbound hfree hpop hpool =>
    obtain ⟨handles, -, rfl⟩ := hpool
    rw [Engine.queued, queuedIn_popFront o hpop] at hbalanced
    simp at hbalanced ⊢
    omega
  | maintain sub rest pool clock hpending hphase hfree hidle houtcome hpool =>
    obtain ⟨handles, -, rfl⟩ := hpool
    simp [hpending] at hbalanced ⊢
    omega
  | maintainFailed sub rest pool clock hpending hphase hfree hidle houtcome hpool =>
    obtain ⟨handles, -, rfl⟩ := hpool
    simp [hpending] at hbalanced ⊢
    omega
  | resolve r result => simpa using hbalanced
  | enter r => simp at hbalanced ⊢; omega
  | dismiss r rest hchannel => simp [hchannel] at hbalanced ⊢; omega
  | park r rest hchannel => simp [hchannel] at hbalanced ⊢; omega
  | accept sub rest hchannel => simp [hchannel] at hbalanced ⊢; omega
  | closeFirst sub rest hchannel => simp [hchannel] at hbalanced ⊢; omega
  | closeMore sub rest hchannel => simp [hchannel] at hbalanced ⊢; omega
  | closeLate ok sub rest hchannel => simp [hchannel] at hbalanced ⊢; omega
  | deliver key f hphase houtcome => simp [houtcome] at hbalanced ⊢; omega
  | release sub rest hpending => simp [hpending] at hbalanced ⊢; omega
  | flush sender rest hpending => simp [hpending] at hbalanced ⊢; omega
  | startJob job rest hjobs => simp [hjobs] at hbalanced ⊢; omega
  | tidy key => simpa using hbalanced
  | disconnect ok => simpa using hbalanced
  | _ => exact hbalanced

/-- What entered is in one place, once. -/
theorem conserved_move (h : Inv config s) (hm : Move config s s') (o : Origin) :
    s'.places.count o + s'.queued o = ((entered s'.log).map PendingEvent.origin).count o :=
  (balanced_iff s' o).mp (balanced_move h hm o)

/-- The same ledger for the workers: a job that was started is running, on its way back or over. -/
theorem jobs_move (h : Inv config s) (hm : Move config s s') (o : Origin) :
    (executed s'.log).count o = (s'.pool.running.map WorkerJob.origin).count o +
      s'.outcomes.count o + (s'.outcome.toList.map fun p => p.2.operation.origin p.1).count o +
      (ended s'.log).count o := by
  have hjobs := h.jobs o
  cases hm with
  | finishJob front back job ev entries hrunning hend =>
    rcases hend.entries with ⟨rfl, ho⟩ | ⟨rfl, ho⟩
    · simp [hrunning, ho] at hjobs ⊢
      omega
    · simp [hrunning, ho] at hjobs ⊢
      omega
  | finishShutdown ok hphase => simpa [List.filterMap_map, Function.comp_def] using hjobs
  | takeMaintenance done rest hchannel =>
    cases hd : done.outcome <;> simp [hchannel, hd] at hjobs ⊢ <;> omega
  | takeCompletion done rest hchannel hphase houtcome =>
    cases hd : done.outcome <;> simp [hchannel, houtcome, hd] at hjobs ⊢ <;> omega
  | deliver key f hphase houtcome =>
    simp [houtcome] at hjobs ⊢
    omega
  | startJob job rest hjob =>
    simp at hjobs ⊢
    omega
  | beginFailed key op queues pool clock hphase hidle hbound hfree hpop hpool =>
    obtain ⟨handles, -, rfl⟩ := hpool
    simpa using hjobs
  | begin key op queues pool clock hphase hidle hbound hfree hpop hpool =>
    obtain ⟨handles, -, rfl⟩ := hpool
    simpa using hjobs
  | maintain sub rest pool clock hpending hphase hfree hidle houtcome hpool =>
    obtain ⟨handles, -, rfl⟩ := hpool
    simpa using hjobs
  | maintainFailed sub rest pool clock hpending hphase hfree hidle houtcome hpool =>
    obtain ⟨handles, -, rfl⟩ := hpool
    simpa using hjobs
  | dismiss r rest hchannel => simpa [hchannel] using hjobs
  | park r rest hchannel => simpa [hchannel] using hjobs
  | accept sub rest hchannel => simpa [hchannel] using hjobs
  | closeFirst sub rest hchannel => simpa [hchannel] using hjobs
  | closeMore sub rest hchannel => simpa [hchannel] using hjobs
  | closeLate ok sub rest hchannel => simpa [hchannel] using hjobs
  | _ => simpa using hjobs

/-- What is at the front of a queue was released. -/
theorem released_of_popFront (h : Inv config s) {key : KeyHash} {op : Operation}
    {q' : KeyedQueues KeyHash Operation} (hpop : s.queues.popFront key = some (op, q')) :
    ∃ r ∈ released s.log, r.origin = op.origin key := by
  have hmem : op.origin key ∈ (released s.log).filterMap (PendingEvent.on? key) := by
    rw [h.perKey key, (s.queues.queue_popFront hpop).1]
    simp
  obtain ⟨r, hr, hon⟩ := List.mem_filterMap.mp hmem
  refine ⟨r, hr, ?_⟩
  cases r with
  | submission sub =>
    have hon' : (if sub.keyHash = key then some (sub.operation.origin sub.keyHash) else none)
        = some (op.origin key) := hon
    split at hon'
    · exact Option.some.inj hon'
    · nomatch hon'
  | maintenance sub => nomatch hon
  | flush sender => nomatch hon
  | close sub => nomatch hon

/-- Nothing is begun that was not released. -/
theorem begunReleased_move (h : Inv config s) (hm : Move config s s') :
    ∀ o ∈ begun s'.log, ∃ r ∈ released s'.log, r.origin = o := by
  have hold := h.begunReleased
  -- the history of what was released only grows
  have hgrow : ∀ more : List Observation, begun more = [] →
      ∀ o ∈ begun (s.log ++ more), ∃ r ∈ released (s.log ++ more), r.origin = o := by
    intro more hmore o ho
    rw [begun_append, hmore, List.append_nil] at ho
    obtain ⟨r, hr, rfl⟩ := hold o ho
    exact ⟨r, by rw [released_append]; exact List.mem_append_left _ hr, rfl⟩
  cases hm with
  | begin key op queues pool clock hphase hidle hbound hfree hpop =>
    intro o ho
    rcases List.mem_append.mp (show o ∈ begun s.log ++ [op.origin key] by simpa using ho) with ho | ho
    · simpa using hold o ho
    · obtain rfl := List.mem_singleton.mp ho
      simpa using released_of_popFront h hpop
  | beginFailed key op queues pool clock hphase hidle hbound hfree hpop =>
    intro o ho
    rcases List.mem_append.mp (show o ∈ begun s.log ++ [op.origin key] by simpa using ho) with ho | ho
    · simpa using hold o ho
    · obtain rfl := List.mem_singleton.mp ho
      simpa using released_of_popFront h hpop
  | maintain sub rest pool clock hpending =>
    intro o ho
    show ∃ r ∈ released (s.log ++ [_, _]), r.origin = o
    rw [released_append]
    rcases List.mem_append.mp (show o ∈ begun s.log ++ [⟨none, sub.sender⟩] by simpa using ho)
      with ho | ho
    · obtain ⟨r, hr, rfl⟩ := hold o ho
      exact ⟨r, List.mem_append_left _ hr, rfl⟩
    · obtain rfl := List.mem_singleton.mp ho
      exact ⟨.maintenance sub, List.mem_append_right _ (by simp), rfl⟩
  | maintainFailed sub rest pool clock hpending =>
    intro o ho
    show ∃ r ∈ released (s.log ++ [_, _, _]), r.origin = o
    rw [released_append]
    rcases List.mem_append.mp (show o ∈ begun s.log ++ [⟨none, sub.sender⟩] by simpa using ho)
      with ho | ho
    · obtain ⟨r, hr, rfl⟩ := hold o ho
      exact ⟨r, List.mem_append_left _ hr, rfl⟩
    · obtain rfl := List.mem_singleton.mp ho
      exact ⟨.maintenance sub, List.mem_append_right _ (by simp), rfl⟩
  | finishJob front back job ev entries hrunning hend =>
    rcases hend.entries with ⟨rfl, -⟩ | ⟨rfl, -⟩
    · exact hgrow [] rfl
    · exact hgrow [.lost job.origin] rfl
  | finishShutdown ok hphase => exact hgrow _ (by simp [List.filterMap_map, Function.comp_def])
  | takeMaintenance done rest hchannel =>
    exact hgrow _ (by cases hd : done.outcome <;> simp)
  | resolve r result => exact hgrow [_] rfl
  | enter r => exact hgrow [_] rfl
  | dismiss r rest => exact hgrow [_, _] rfl
  | park r rest => exact hgrow [_] rfl
  | accept sub rest => exact hgrow [_, _] rfl
  | closeFirst sub rest => exact hgrow [_, _] rfl
  | closeMore sub rest => exact hgrow [_] rfl
  | closeLate ok sub rest => exact hgrow [_, _] rfl
  | deliver key f => exact hgrow [_] rfl
  | release sub rest => exact hgrow [_] rfl
  | flush sender rest => exact hgrow [_, _] rfl
  | startJob job rest => exact hgrow [_] rfl
  | disconnect ok => exact hgrow [_, _] rfl
  | quiet => exact hold
  | takeCompletion => exact hold
  | tidy => exact hold
  | stop => exact hold
  | leave => exact hold
  | dropReceiver => exact hold

/-- The coordinator's own errors: a failed dispatch, or a request behind a close. -/
def Rejections (log : List Observation) : Prop :=
  ∀ o e, .rejected o e ∈ log → e = .workerUnavailable ∧ o ∈ begun log ∨
    e = .storeClosed ∧ ∃ r ∈ afterClose (received log), r.isClose = false ∧ r.origin = o

theorem mem_afterClose_append {rs more : List PendingEvent} {r : PendingEvent}
    (h : r ∈ afterClose rs) : r ∈ afterClose (rs ++ more) := by
  by_cases hany : rs.any PendingEvent.isClose = true
  · rw [afterClose_append hany]
    exact List.mem_append_left _ h
  · rw [afterClose_of_none (by simpa using hany)] at h
    nomatch h

/-- More history keeps the reason for an old rejection; new ones need one of their own. -/
theorem Rejections.append {log more : List Observation} (h : Rejections log)
    (hmore : ∀ o e, .rejected o e ∈ more → e = .workerUnavailable ∧ o ∈ begun (log ++ more) ∨
      e = .storeClosed ∧ ∃ r ∈ afterClose (received (log ++ more)), r.isClose = false ∧
        r.origin = o) : Rejections (log ++ more) := by
  intro o e hmem
  rcases List.mem_append.mp hmem with hmem | hmem
  · rcases h o e hmem with ⟨rfl, ho⟩ | ⟨rfl, r, hr, hclose, horigin⟩
    · refine Or.inl ⟨rfl, ?_⟩
      rw [begun_append]
      exact List.mem_append_left _ ho
    · refine Or.inr ⟨rfl, r, ?_, hclose, horigin⟩
      rw [received_append]
      exact mem_afterClose_append hr
  · exact hmore o e hmem

/-- The two reasons to refuse, kept by every move. -/
theorem rejections_move (h : Inv config s) (hm : Move config s s') : Rejections s'.log := by
  have hold : Rejections s.log := h.rejections
  cases hm with
  | dismiss r rest hchannel hclose hlock =>
    have hany := close_of_not_opened h (by simp [hchannel]) hlock
    refine hold.append fun o e hmem => ?_
    obtain ⟨rfl, rfl⟩ : o = r.origin ∧ e = .storeClosed := by simpa using hmem
    refine Or.inr ⟨rfl, r, ?_, hclose, rfl⟩
    rw [received_append, afterClose_append hany]
    simp
  | beginFailed key op queues pool clock =>
    refine hold.append fun o e hmem => ?_
    obtain ⟨rfl, rfl⟩ : o = op.origin key ∧ e = .workerUnavailable := by simpa using hmem
    exact Or.inl ⟨rfl, by simp⟩
  | maintainFailed sub rest pool clock hpending =>
    refine hold.append fun o e hmem => ?_
    obtain ⟨rfl, rfl⟩ : o = ⟨none, sub.sender⟩ ∧ e = .workerUnavailable := by simpa using hmem
    exact Or.inl ⟨rfl, by simp⟩
  | finishJob front back job ev entries hrunning hend =>
    refine hold.append fun o e hmem => ?_
    rcases hend.entries with ⟨rfl, -⟩ | ⟨rfl, -⟩ <;> simp at hmem
  | takeMaintenance done rest hchannel =>
    refine hold.append fun o e hmem => ?_
    cases hd : done.outcome <;> simp [hd] at hmem
  | quiet => exact hold
  | takeCompletion => exact hold
  | tidy => exact hold
  | stop => exact hold
  | leave => exact hold
  | dropReceiver => exact hold
  | _ => exact hold.append fun o e hmem => by simp at hmem

/-- What comes behind the first close is refused when it is taken from the channel.  It is the one
    property of the account in which the moment counts: the close has been received and the request
    has not. -/
theorem dismissed_move (h : Inv config s) (hm : Move config s s') :
    ∀ r ∈ afterClose (received s'.log), r.isClose = false →
      .rejected r.origin .storeClosed ∈ s'.log := by
  have hold := h.dismissed
  -- entries that take no request from the channel
  have hgrow : ∀ more : List Observation, received more = [] →
      ∀ r ∈ afterClose (received (s.log ++ more)), r.isClose = false →
        .rejected r.origin .storeClosed ∈ s.log ++ more := by
    intro more hmore r hr hclose
    rw [received_append, hmore, List.append_nil] at hr
    exact List.mem_append_left _ (hold r hr hclose)
  cases hm with
  | dismiss r rest hchannel hclose hlock =>
    have hany := close_of_not_opened h (by simp [hchannel]) hlock
    intro r' hr' hclose'
    show _ ∈ s.log ++ [_, _]
    have hmem : r' ∈ afterClose (received s.log) ++ [r] := by
      rw [← afterClose_append hany]
      simpa using hr'
    rcases List.mem_append.mp hmem with hr' | hr'
    · exact List.mem_append_left _ (hold r' hr' hclose')
    · obtain rfl := List.mem_singleton.mp hr'
      exact List.mem_append_right _ (by simp)
  | park r rest hchannel hclose hphase hlock =>
    have hnone := no_close_of_opened h hphase hlock
    have hnone' : (received s.log ++ [r]).any PendingEvent.isClose = false := by
      simpa [hclose] using hnone
    intro r' hr'
    have hempty : afterClose (received (s.log ++ [.received r])) = [] := by
      rw [received_append]
      exact afterClose_of_none hnone'
    have hr'' : r' ∈ afterClose (received (s.log ++ [.received r])) := hr'
    rw [hempty] at hr''
    exact absurd hr'' List.not_mem_nil
  | accept sub rest hchannel hphase hlock =>
    have hnone := no_close_of_opened h hphase hlock
    have hnone' : (received s.log ++ [PendingEvent.submission sub]).any PendingEvent.isClose
        = false := by
      simpa [PendingEvent.isClose] using hnone
    intro r' hr'
    have hempty : afterClose (received (s.log ++ [.received (.submission sub),
        .released (.submission sub)])) = [] := by
      rw [received_append]
      exact afterClose_of_none hnone'
    have hr'' : r' ∈ afterClose (received (s.log ++ [.received (.submission sub),
        .released (.submission sub)])) := hr'
    rw [hempty] at hr''
    exact absurd hr'' List.not_mem_nil
  | closeFirst sub rest hchannel hphase hlock =>
    have hnone := no_close_of_opened h hphase hlock
    intro r' hr' hclose'
    have hlast : afterClose (received (s.log ++ [.received (.close sub), .moved .closing]))
        = [.close sub] := by
      rw [received_append]
      exact afterClose_concat_close hnone sub
    have hr'' : r' ∈ afterClose (received (s.log ++ [.received (.close sub), .moved .closing])) := hr'
    rw [hlast] at hr''
    obtain rfl := List.mem_singleton.mp hr''
    cases hclose'
  | closeMore sub rest hchannel hphase hlock =>
    have hany := close_of_not_opened h (by simp [hchannel]) (by simp [hlock])
    intro r' hr' hclose'
    have hmem : r' ∈ afterClose (received s.log) ++ [.close sub] := by
      rw [← afterClose_append hany]
      simpa using hr'
    rcases List.mem_append.mp hmem with hr' | hr'
    · exact List.mem_append_left _ (hold r' hr' hclose')
    · obtain rfl := List.mem_singleton.mp hr'
      cases hclose'
  | closeLate ok sub rest hchannel hphase =>
    have hany := (h.draining ok hphase).2.1
    intro r' hr' hclose'
    have hmem : r' ∈ afterClose (received s.log) ++ [.close sub] := by
      rw [← afterClose_append hany]
      simpa using hr'
    rcases List.mem_append.mp hmem with hr' | hr'
    · exact List.mem_append_left _ (hold r' hr' hclose')
    · obtain rfl := List.mem_singleton.mp hr'
      cases hclose'
  | finishJob front back job ev entries hrunning hend =>
    rcases hend.entries with ⟨rfl, -⟩ | ⟨rfl, -⟩
    · exact hgrow [] rfl
    · exact hgrow [.lost job.origin] rfl
  | finishShutdown ok hphase => exact hgrow _ (by simp [List.filterMap_map, Function.comp_def])
  | takeMaintenance done rest hchannel =>
    exact hgrow _ (by cases hd : done.outcome <;> simp)
  | resolve r result => exact hgrow [_] rfl
  | enter r => exact hgrow [_] rfl
  | deliver key f => exact hgrow [_] rfl
  | begin key op queues pool clock => exact hgrow [_] rfl
  | beginFailed key op queues pool clock => exact hgrow [_, _] rfl
  | release sub rest => exact hgrow [_] rfl
  | flush sender rest => exact hgrow [_, _] rfl
  | maintain sub rest pool clock => exact hgrow [_, _] rfl
  | maintainFailed sub rest pool clock => exact hgrow [_, _, _] rfl
  | startJob job rest => exact hgrow [_] rfl
  | disconnect ok => exact hgrow [_, _] rfl
  | quiet => exact hold
  | takeCompletion => exact hold
  | tidy => exact hold
  | stop => exact hold
  | leave => exact hold
  | dropReceiver => exact hold

/-- Every move keeps the account. -/
theorem Accounted.move (h : Inv config s) (hm : Move config s s') : Accounted s' where
  conserved := conserved_move h hm
  jobs := jobs_move h hm
  begunReleased := begunReleased_move h hm
  rejections := rejections_move h hm
  dismissed := dismissed_move h hm

/-! ## Jobs, the active set and the maintenance flag

  The coordinator keeps a set and a flag instead of the jobs themselves.  They are true as long as
  every dispatch sets them and every completion that is handled clears them, and these are different
  moves with the whole life of a job in between. -/

/-- A key becomes active with its dispatch and idle with its completion.  Neither the worker that
    takes the job nor the end of the job changes the count: the job goes from one of the three lists
    to the next. -/
theorem active_move (h : Inv config s) (hm : Move config s s') (k : KeyHash) :
    s'.outstanding.count k = if k ∈ s'.active then 1 else 0 := by
  have hactive := h.active k
  unfold Engine.outstanding at hactive ⊢
  -- the moves below leave the active set alone and only carry keys from one list to the next
  have hsame : ∀ n, n = (s.pool.jobs.filterMap WorkerJob.key? ++
      s.pool.running.filterMap WorkerJob.key? ++ s.channel.filterMap CoordinatorEvent.key?).count k →
      n = if k ∈ s.active then 1 else 0 := fun n hn => hn.trans hactive
  cases hm with
  | takeCompletion done rest hchannel hphase houtcome =>
    -- the only outstanding job of the key is the one whose completion is taken
    simp only [hchannel, List.count_append, List.filterMap_cons, CoordinatorEvent.key?,
      List.count_cons] at hactive
    simp only [List.count_append, Finset.mem_erase]
    by_cases hk : k = done.keyHash
    · subst hk
      simp only [beq_self_eq_true, if_true] at hactive
      split at hactive
      · simp
        omega
      · omega
    · have hne : (done.keyHash == k) = false := by simpa using Ne.symm hk
      simpa [hk, hne] using hactive
  | begin key op queues pool clock hphase hidle hbound hfree hpop hpool =>
    obtain ⟨handles, -, rfl⟩ := hpool
    simp only [Engine.observe, List.filterMap_append, List.count_append, WorkerJob.key?,
      List.filterMap_cons, List.filterMap_nil, Finset.mem_insert] at hactive ⊢
    by_cases hk : k = key
    · subst hk
      rw [if_neg hidle] at hactive
      simp
      omega
    · have hne : (key == k) = false := by simpa using Ne.symm hk
      simp [List.count_cons, hk, hne]
      simpa [Nat.add_assoc] using hactive
  | beginFailed key op queues pool clock hphase hidle hbound hfree hpop hpool =>
    obtain ⟨handles, -, rfl⟩ := hpool
    exact hactive
  | finishJob front back job ev entries hrunning hend =>
    refine hsame _ ?_
    have hkey := hend.event.2.1
    simp only [hrunning, List.filterMap_append, List.filterMap_cons,
      List.filterMap_nil, hkey, List.count_append]
    cases job.key? with
    | none => simp
    | some key =>
      simp
      omega
  | startJob job rest hjobs =>
    refine hsame _ ?_
    simp only [hjobs, Engine.observe, List.filterMap_append, List.filterMap_cons,
      List.filterMap_nil, List.count_append]
    cases job.key? with
    | none => simp
    | some key =>
      simp
      omega
  | maintain sub rest pool clock hpending hphase hfree hidle houtcome hpool =>
    obtain ⟨handles, -, rfl⟩ := hpool
    exact hsame _ (by simp [WorkerJob.key?])
  | maintainFailed sub rest pool clock hpending hphase hfree hidle houtcome hpool =>
    obtain ⟨handles, -, rfl⟩ := hpool
    exact hsame _ (by simp [CoordinatorEvent.key?])
  | enter r => exact hsame _ (by simp)
  | dismiss r rest hchannel => exact hsame _ (by simp [hchannel])
  | park r rest hchannel => exact hsame _ (by simp [hchannel])
  | accept sub rest hchannel => exact hsame _ (by simp [hchannel, CoordinatorEvent.key?])
  | closeFirst sub rest hchannel => exact hsame _ (by simp [hchannel, CoordinatorEvent.key?])
  | closeMore sub rest hchannel => exact hsame _ (by simp [hchannel, CoordinatorEvent.key?])
  | closeLate ok sub rest hchannel => exact hsame _ (by simp [hchannel, CoordinatorEvent.key?])
  | takeMaintenance done rest hchannel => exact hsame _ (by simp [hchannel, CoordinatorEvent.key?])
  | _ => exact hactive

/-- The same for the flag. -/
theorem maintenance_move (h : Inv config s) (hm : Move config s s') :
    s'.maintenanceOutstanding = s'.maintenanceActive.toNat := by
  have hmaintenance := h.maintenance
  unfold Engine.maintenanceOutstanding at hmaintenance ⊢
  cases hm with
  | takeMaintenance done rest hchannel =>
    have := Bool.toNat_le s.maintenanceActive
    simp only [hchannel, List.countP_cons, CoordinatorEvent.isMaintenanceCompletion, if_true]
      at hmaintenance
    show s.pool.jobs.countP _ + s.pool.running.countP _ + rest.countP _ = 0
    omega
  | finishJob front back job ev entries hrunning hend =>
    have hkind := hend.event.2.2
    simp only [hrunning, List.countP_append, List.countP_cons] at hmaintenance
    simp only [Engine.observe, List.countP_append, List.countP_cons, List.countP_nil, hkind]
    omega
  | startJob job rest hjobs =>
    simp only [hjobs, List.countP_cons] at hmaintenance
    simp only [Engine.observe, List.countP_append, List.countP_cons, List.countP_nil]
    omega
  | begin key op queues pool clock hphase hidle hbound hfree hpop hpool =>
    obtain ⟨handles, -, rfl⟩ := hpool
    simpa only [Engine.observe, List.countP_append, List.countP_cons, List.countP_nil,
      WorkerJob.isMaintenance, Bool.false_eq_true, if_false, Nat.add_zero] using hmaintenance
  | beginFailed key op queues pool clock hphase hidle hbound hfree hpop hpool =>
    obtain ⟨handles, -, rfl⟩ := hpool
    exact hmaintenance
  | maintain sub rest pool clock hpending hphase hfree hidle houtcome hpool =>
    obtain ⟨handles, -, rfl⟩ := hpool
    simp only [hfree, Bool.toNat_false] at hmaintenance
    simp only [Engine.observe, List.countP_append, List.countP_cons, List.countP_nil,
      WorkerJob.isMaintenance, if_true, Bool.toNat_true]
    omega
  | maintainFailed sub rest pool clock hpending hphase hfree hidle houtcome hpool =>
    obtain ⟨handles, -, rfl⟩ := hpool
    simp only [hfree, Bool.toNat_false] at hmaintenance
    simp only [List.countP_append, List.countP_cons, List.countP_nil,
      CoordinatorEvent.isMaintenanceCompletion, if_true, Bool.toNat_true]
    omega
  | enter r => simpa using hmaintenance
  | dismiss r rest hchannel => simpa [hchannel] using hmaintenance
  | park r rest hchannel => simpa [hchannel] using hmaintenance
  | takeCompletion done rest hchannel =>
    simpa [hchannel, CoordinatorEvent.isMaintenanceCompletion] using hmaintenance
  | accept sub rest hchannel =>
    simpa [hchannel, CoordinatorEvent.isMaintenanceCompletion] using hmaintenance
  | closeFirst sub rest hchannel =>
    simpa [hchannel, CoordinatorEvent.isMaintenanceCompletion] using hmaintenance
  | closeMore sub rest hchannel =>
    simpa [hchannel, CoordinatorEvent.isMaintenanceCompletion] using hmaintenance
  | closeLate ok sub rest hchannel =>
    simpa [hchannel, CoordinatorEvent.isMaintenanceCompletion] using hmaintenance
  | _ => exact hmaintenance

/-- Maintenance is dispatched to an idle store, and while its flag is set nothing else is dispatched. -/
theorem exclusive_move (h : Inv config s) (hm : Move config s s') :
    s'.maintenanceActive = true → s'.busy = false := by
  have hexclusive := h.exclusive
  cases hm with
  | accept sub rest hchannel hphase hlock hpending hfree =>
    intro hactive
    rw [show s.maintenanceActive = true from hactive] at hfree
    nomatch hfree
  | release sub rest hpending hphase hfree =>
    intro hactive
    rw [show s.maintenanceActive = true from hactive] at hfree
    nomatch hfree
  | begin key op queues pool clock hphase hidle hbound hfree =>
    intro hactive
    rw [show s.maintenanceActive = true from hactive] at hfree
    nomatch hfree
  | beginFailed key op queues pool clock hphase hidle hbound hfree =>
    intro hactive
    rw [show s.maintenanceActive = true from hactive] at hfree
    nomatch hfree
  | takeCompletion done rest hchannel =>
    intro hactive
    obtain ⟨hnone, hqueues⟩ := Engine.busy_eq_false.mp (hexclusive hactive)
    exact Engine.busy_eq_false.mpr ⟨by simp [hnone], hqueues⟩
  | tidy key =>
    intro hactive
    obtain ⟨hnone, hqueues⟩ := Engine.busy_eq_false.mp (hexclusive hactive)
    exact Engine.busy_eq_false.mpr ⟨hnone, fun k => by
      rw [KeyedQueues.queue_removeIfEmpty]
      exact hqueues k⟩
  | maintain sub rest pool clock hpending hphase hfree hidle => exact fun _ => hidle
  | maintainFailed sub rest pool clock hpending hphase hfree hidle => exact fun _ => hidle
  | takeMaintenance done rest hchannel => exact fun hactive => (nomatch hactive)
  | _ => exact hexclusive

/-- A key is only dispatched below the bound. -/
theorem bounded_move (h : Inv config s) (hm : Move config s s') :
    s'.active.card ≤ config.maxConcurrentOperations := by
  have hbounded := h.bounded
  cases hm with
  | begin key op queues pool clock hphase hidle hbound =>
    show (insert key s.active).card ≤ _
    rw [Finset.card_insert_of_notMem hidle]
    exact hbound
  | takeCompletion done rest =>
    exact Nat.le_trans (Finset.card_le_card (Finset.erase_subset _ _)) hbounded
  | _ => exact hbounded

/-- The capacity of the pool never changes. -/
theorem capacity_move (h : Inv config s) (hm : Move config s s') :
    s'.pool.capacity = config.maxConcurrentOperations := by
  have hcapacity := h.capacity
  cases hm with
  | begin key op queues pool clock hphase hidle hbound hfree hpop hpool =>
    obtain ⟨handles, -, rfl⟩ := hpool
    exact hcapacity
  | beginFailed key op queues pool clock hphase hidle hbound hfree hpop hpool =>
    obtain ⟨handles, -, rfl⟩ := hpool
    exact hcapacity
  | maintain sub rest pool clock hpending hphase hfree hidle houtcome hpool =>
    obtain ⟨handles, -, rfl⟩ := hpool
    exact hcapacity
  | maintainFailed sub rest pool clock hpending hphase hfree hidle houtcome hpool =>
    obtain ⟨handles, -, rfl⟩ := hpool
    exact hcapacity
  | _ => exact hcapacity

/-- Outstanding jobs of operations are counted by the active set. -/
theorem outstanding_length (h : Inv config s) : s.outstanding.length = s.active.card := by
  have hmem : ∀ k, k ∈ s.outstanding ↔ k ∈ s.active := by
    intro k
    rw [← List.count_pos_iff, h.active k]
    by_cases hk : k ∈ s.active
    · rw [if_pos hk]
      exact ⟨fun _ => hk, fun _ => Nat.one_pos⟩
    · rw [if_neg hk]
      exact ⟨fun hpos => absurd hpos (Nat.lt_irrefl 0), fun hk' => absurd hk' hk⟩
  have hnodup : s.outstanding.Nodup := by
    rw [List.nodup_iff_count_le_one]
    intro k
    rw [h.active k]
    split <;> omega
  rw [← List.toFinset_card_of_nodup hnodup]
  congr 1
  ext k
  rw [List.mem_toFinset, hmem k]

/-- Without maintenance every job is one of an operation. -/
theorem keys_length {jobs : List WorkerJob} (h : jobs.countP WorkerJob.isMaintenance = 0) :
    (jobs.filterMap WorkerJob.key?).length = jobs.length := by
  induction jobs with
  | nil => rfl
  | cons job jobs ih =>
    rw [List.countP_cons] at h
    cases job with
    | operation key op =>
      simp only [List.filterMap_cons, WorkerJob.key?, List.length_cons]
      rw [ih (by omega)]
    | maintenance sub => simp [WorkerJob.isMaintenance] at h

/-- So while no maintenance runs the active set bounds the jobs in the pool. -/
theorem jobs_le_active (h : Inv config s) (hfree : s.maintenanceActive = false) :
    s.pool.jobs.length + s.pool.running.length ≤ s.active.card := by
  have hmaintenance := h.maintenance
  rw [hfree, Bool.toNat_false] at hmaintenance
  unfold Engine.maintenanceOutstanding at hmaintenance
  have hlength := outstanding_length h
  unfold Engine.outstanding at hlength
  rw [List.length_append, List.length_append, keys_length (by omega), keys_length (by omega)]
    at hlength
  omega

/-- The channel of an idle store carries requests only. -/
theorem requests_only (h : Inv config s) (hidle : s.busy = false)
    (hfree : s.maintenanceActive = false) : ∀ ev ∈ s.channel, ∃ r : PendingEvent, ev = r.event := by
  intro ev hev
  cases ev with
  | completion done =>
    have hpos : 0 < s.outstanding.count done.keyHash := by
      rw [List.count_pos_iff]
      exact List.mem_append_right _ (List.mem_filterMap.mpr ⟨_, hev, rfl⟩)
    rw [h.active, (Engine.busy_eq_false.mp hidle).1] at hpos
    simp at hpos
  | maintenanceCompletion done =>
    have hmaintenance := h.maintenance
    rw [hfree, Bool.toNat_false] at hmaintenance
    have hpos : 0 < s.channel.countP CoordinatorEvent.isMaintenanceCompletion :=
      List.countP_pos_iff.mpr ⟨_, hev, rfl⟩
    unfold Engine.maintenanceOutstanding at hmaintenance
    omega
  | submission sub => exact ⟨.submission sub, rfl⟩
  | maintenance sub => exact ⟨.maintenance sub, rfl⟩
  | flush sender => exact ⟨.flush sender, rfl⟩
  | close sub => exact ⟨.close sub, rfl⟩

/-- **An idle store has no jobs**, and no outcome in its channel. -/
theorem quiet_of_idle (h : Inv config s) (hidle : s.busy = false)
    (hfree : s.maintenanceActive = false) :
    s.pool.jobs = [] ∧ s.pool.running = [] ∧ s.outcomes = [] := by
  obtain ⟨hactive, -⟩ := Engine.busy_eq_false.mp hidle
  have hjobs := jobs_le_active h hfree
  rw [hactive, Finset.card_empty] at hjobs
  refine ⟨List.length_eq_zero_iff.mp (by omega), List.length_eq_zero_iff.mp (by omega), ?_⟩
  rw [Engine.outcomes, List.filterMap_eq_nil_iff]
  intro ev hev
  obtain ⟨r, rfl⟩ := requests_only h hidle hfree ev hev
  exact r.outcome?_event

/-- A job is put into the channel only after `prepare` has made sure that there is a thread for it,
    and no thread ends before the channel is closed. -/
theorem threads_move (h : Inv config s) (hm : Move config s s') :
    s'.pool.jobs.length + s'.pool.running.length ≤ s'.pool.handles := by
  have hthreads := h.threads
  cases hm with
  | begin key op queues pool clock hphase hidle hbound hfree hpop hpool hspawned =>
    obtain ⟨handles, hle, rfl⟩ := hpool
    have hjobs := jobs_le_active h hfree
    rw [h.capacity] at hspawned
    have : min (s.active.card + 1) config.maxConcurrentOperations ≤ handles := hspawned
    show (s.pool.jobs ++ [_]).length + s.pool.running.length ≤ handles
    rw [List.length_append, List.length_singleton]
    omega
  | beginFailed key op queues pool clock hphase hidle hbound hfree hpop hpool =>
    obtain ⟨handles, hle, rfl⟩ := hpool
    exact Nat.le_trans hthreads hle
  | maintain sub rest pool clock hpending hphase hfree hidle houtcome hpool hspawned =>
    obtain ⟨handles, hle, rfl⟩ := hpool
    obtain ⟨hjobs, hrunning, -⟩ := quiet_of_idle h hidle hfree
    rw [h.capacity] at hspawned
    have : min 1 config.maxConcurrentOperations ≤ handles := hspawned
    have := config.concurrency_pos
    show (s.pool.jobs ++ [_]).length + s.pool.running.length ≤ handles
    rw [hjobs, hrunning]
    simp
    omega
  | maintainFailed sub rest pool clock hpending hphase hfree hidle houtcome hpool =>
    obtain ⟨handles, hle, rfl⟩ := hpool
    exact Nat.le_trans hthreads hle
  | startJob job rest hjobs =>
    rw [hjobs] at hthreads
    simp only [List.length_append, List.length_cons, List.length_nil] at hthreads ⊢
    omega
  | finishJob front back job ev entries hrunning =>
    rw [hrunning] at hthreads
    simp only [List.length_append, List.length_cons] at hthreads ⊢
    omega
  | finishShutdown ok hphase =>
    obtain ⟨hidle, hfree, -⟩ := h.idle (by simp [hphase])
    obtain ⟨hjobs, hrunning, -⟩ := quiet_of_idle h hidle hfree
    show s.pool.jobs.length + s.pool.running.length ≤ 0
    rw [hjobs, hrunning]
    exact Nat.le_refl 0
  | disconnect ok hphase hchannel hpending hfree hidle =>
    obtain ⟨hjobs, hrunning, -⟩ := quiet_of_idle h hidle hfree
    show s.pool.jobs.length + s.pool.running.length ≤ 0
    rw [hjobs, hrunning]
    exact Nat.le_refl 0
  | _ => exact hthreads

/-- Every move keeps the schedule. -/
theorem Scheduled.move (h : Inv config s) (hm : Move config s s') : Scheduled config s' where
  active := active_move h hm
  maintenance := maintenance_move h hm
  exclusive := exclusive_move h hm
  bounded := bounded_move h hm
  capacity := capacity_move h hm
  threads := threads_move h hm

end Keep

end AtomicBlobStore
