/-
  SESSIONS: what an answer is worth, whatever fails, whoever panics and however often the process dies.

  `Refinement` is about stores in which nothing fails.  Here any call may fail as `fault` allows, jobs
  may panic, threads may be missing, and at any moment the process may stop and open the directory
  again, with the jobs of the last session wherever they were.

  1. **Sessions** — runs of the store, one after another on one directory, with everything that was
     ever started.  `sessions_isolated` joins the relays of the sessions to one.

  2. **`sessions_old_or_new`** — the canonical file of a key is what was there first, or what the last
     job to change it was asked for.

  3. **`acknowledged_stays`** — what was acknowledged stays until somebody changes it who was not
     told that nothing changed.

  4. **`loads_are_whole`** — whatever is loaded was put there as one payload, and it is what was there
     when the load began.

  Nothing is remembered across a death of the process but the directory.  So whatever holds across
  sessions must be a property of what each job left there, from wherever it was stopped, and
  `Outcomes` supplies it.
-/
import AtomicBlobStore.Outcomes
import AtomicBlobStore.Refinement

namespace AtomicBlobStore

/-! ## Sessions

  A process that dies takes its engine along, and leaves the directory as its jobs had it at that
  moment.  The next session starts with an empty engine and knows nothing of the last one. -/

/-- A store, and what was started in the sessions before. -/
structure Sessions where
  /-- What was started before the directory was opened again. -/
  past : List Execution
  /-- The luck of this session. -/
  fates : Nat → Fate
  /-- The store of this session. -/
  store : Store

/-- Everything that was ever started. -/
def Sessions.executions (s : Sessions) : List Execution := s.past ++ s.store.executions

/-- The jobs of a key, in every session. -/
def Sessions.history (s : Sessions) (key : KeyHash) : List Execution :=
  s.executions.filter fun e => e.job.key? = some key

section System

variable (crc32c : Crc32c) (config : StoreConfig) (platform : Platform)
  (fault : FsCall → IoError → Prop) (panics : Prop)

/-- One step: of the store, or the process ends wherever it is and the directory is opened again. -/
inductive SessionStep : Sessions → Sessions → Prop
  /-- The store takes a step. -/
  | work {s : Sessions} {store : Store}
      (hstep : StoreStep crc32c config platform s.fates fault panics s.store store) :
      SessionStep s { s with store := store }
  /-- The process dies, and the directory is opened again. -/
  | reopen {s : Sessions} (fates : Nat → Fate) :
      SessionStep s ⟨s.executions, fates, ⟨.initial config, s.store.disk, []⟩⟩

/-- Sessions on a directory. -/
def sessionSystem (disk : Disk) : System Sessions where
  init s := s.past = [] ∧ s.store = ⟨.initial config, disk, []⟩
  step := SessionStep crc32c config platform fault panics

end System

section Joined

variable {crc32c : Crc32c} {config : StoreConfig} {platform : Platform}
  {fault : FsCall → IoError → Prop} {panics : Prop} {disk : Disk} {s : Sessions}

variable (crc32c config platform fault panics disk) in
/-- The store of this session was opened on what the sessions before it had left. -/
def Continued (s : Sessions) : Prop := ∃ opened : Disk,
  (storeSystem crc32c config platform s.fates fault panics opened).Reachable s.store ∧
  (∀ e ∈ s.past, e.Alone crc32c config platform fault) ∧
  ∀ key name, Kept key name → Handed (Execution.found name) (Execution.left name) (disk.entry name)
    (s.past.filter fun e => e.job.key? = some key) (opened.entry name)

/-- A session is a run of the store. -/
theorem Continued.isolated (h : Continued crc32c config platform fault panics disk s) :
    (∀ e ∈ s.executions, e.Alone crc32c config platform fault) ∧
      ∀ key name, Kept key name → Handed (Execution.found name) (Execution.left name)
        (disk.entry name) (s.history key) (s.store.disk.entry name) := by
  obtain ⟨opened, hreach, hpast, hhanded⟩ := h
  obtain ⟨hisolated, -⟩ := isolated_current hreach
  refine ⟨fun e he => ?_, fun key name hname => ?_⟩
  · rcases List.mem_append.mp he with he | he
    · exact hpast e he
    · exact hisolated.alone e he
  · unfold Sessions.history Sessions.executions
    rw [List.filter_append]
    exact handed_append.mpr ⟨_, hhanded key name hname, hisolated.handed key name hname⟩

/-- Every session begins where the last one stopped. -/
theorem continued_reachable
    (h : (sessionSystem crc32c config platform fault panics disk).Reachable s) :
    Continued crc32c config platform fault panics disk s := by
  refine System.Reachable.invariant
    (P := fun s => Continued crc32c config platform fault panics disk s) ?_ ?_ h
  · rintro s ⟨hpast, hstore⟩
    refine ⟨disk, .init hstore, ?_, fun key name hname => ?_⟩
    · rw [hpast]
      exact fun e he => absurd he List.not_mem_nil
    · rw [hpast]
      rfl
  · rintro s s' - hcontinued hstep
    cases hstep with
    | work hstep =>
      obtain ⟨opened, hreach, hpast, hhanded⟩ := hcontinued
      exact ⟨opened, hreach.step hstep, hpast, hhanded⟩
    | reopen fates =>
      obtain ⟨halone, hhanded⟩ := hcontinued.isolated
      exact ⟨s.store.disk, .init rfl, halone, hhanded⟩

/-- **Over all sessions every job ran as if alone, and the jobs of a key came one after another.** -/
theorem sessions_isolated
    (h : (sessionSystem crc32c config platform fault panics disk).Reachable s) :
    (∀ e ∈ s.executions, e.Alone crc32c config platform fault) ∧
      ∀ key name, Kept key name → Handed (Execution.found name) (Execution.left name)
        (disk.entry name) (s.history key) (s.store.disk.entry name) :=
  (continued_reachable h).isolated

end Joined

/-! ## One execution

  Whether an execution was stopped by the end of the process or is still running makes no difference
  to what it has done. -/

section Executed

variable {crc32c : Crc32c} {config : StoreConfig} {platform : Platform}
  {fault : FsCall → IoError → Prop} {key : KeyHash} {e : Execution} {op : Operation}

/-- What an operation left alone it left in company. -/
theorem Operation.New.of_akin {before : Disk} {w v : JobWorld} (hakin : Akin (Owns key) w v)
    (h : op.New crc32c config key before v) : op.New crc32c config key before w := by
  have hentry := hakin.1.entry _ (owns_blobFilename config.format key)
  have hreceived : v.received = w.received := field_eq JobWorld.received hakin.2 rfl
  cases op with
  | save payload sender => exact ⟨h.1, hentry.symm.trans h.2⟩
  | saveStream declaredLen chunks sender =>
    obtain ⟨payload, hlen, hmax, hsuffix, hwhole, hstored⟩ := h
    rw [hreceived] at hsuffix hwhole
    exact ⟨payload, hlen, hmax, hsuffix, hwhole, hentry.symm.trans hstored⟩
  | clear sender => exact hentry.symm.trans h
  | quarantine sender => exact hentry.symm.trans h
  | load sender => exact hentry.symm.trans h
  | loadStream chunks acknowledgement sender => exact hentry.symm.trans h
  | inspect sender => exact hentry.symm.trans h

/-- **An execution is old or new, and a result tells which.** -/
theorem Execution.Alone.tells (h : e.Alone crc32c config platform fault)
    (hjob : e.job = .operation key op) :
    (Operation.Old config key e.before e.world ∨ op.New crc32c config key e.before e.world) ∧
      ∀ result, e.program = .ret (.ok (.operation result)) →
        result.tale.Of (Operation.Old config key e.before) (op.New crc32c config key e.before)
          e.world := by
  obtain ⟨n, v, hrun, hakin⟩ := h
  rw [hjob] at hrun hakin
  have hold (hv : Operation.Old config key e.before v) : Operation.Old config key e.before e.world :=
    (hakin.1.entry _ (owns_blobFilename config.format key)).symm.trans hv
  obtain ⟨hnow, hend⟩ := holds_operation crc32c config platform key e.before op n _ v hrun
  refine ⟨hnow.imp hold fun hv => hv.of_akin hakin, fun result hret => ?_⟩
  exact (hend _ hret result rfl).imp hold fun hv => hv.of_akin hakin

/-- **What an execution reports is what it found.** -/
theorem Execution.Alone.reports (h : e.Alone crc32c config platform fault)
    (hjob : e.job = .operation key op) {result : BlockingResult}
    (hret : e.program = .ret (.ok (.operation result)))
    (hregular : e.before.entry (blobFilename config.format key) ≠ some .other) :
    result.Reports crc32c config key e.before e.world := by
  obtain ⟨n, v, hrun, hakin⟩ := h
  rw [hjob] at hrun
  have hreports := (holds_reports platform hregular op n _ v hrun).2 _ hret result rfl
  have hsent : v.sent = e.world.sent := field_eq JobWorld.sent hakin.2 rfl
  unfold BlockingResult.Reports at hreports ⊢
  rwa [hsent] at hreports

end Executed

/-! ## The history of a key

  The jobs of a key form one history across all sessions, although no store has ever seen all of it. -/

section Explaining

variable (crc32c : Crc32c) (config : StoreConfig) (key : KeyHash)

/-- A canonical file, explained by the jobs of its key.  The history is of one key, and over all
    sessions. -/
structure Explained (history : List Execution) (first now : Option Node) : Prop where
  /-- Every job found what the one before it had left. -/
  chain : Handed (Execution.found (blobFilename config.format key))
    (Execution.left (blobFilename config.format key)) first history now
  /-- Every job left what it found or what it was asked for, and its result, where there is one, tells
      which. -/
  truthful : ∀ e ∈ history, ∃ op, e.job = .operation key op ∧
    (Operation.Old config key e.before e.world ∨ op.New crc32c config key e.before e.world) ∧
    ∀ result, e.program = .ret (.ok (.operation result)) →
      result.tale.Of (Operation.Old config key e.before) (op.New crc32c config key e.before) e.world
  /-- What is there was there first, or the last job that changed anything was asked for it. -/
  source : now = first ∨ ∃ front e back op, history = front ++ e :: back ∧
    e.job = .operation key op ∧ op.New crc32c config key e.before e.world ∧
    now = e.left (blobFilename config.format key) ∧
    ∀ f ∈ back, f.left (blobFilename config.format key) = f.found (blobFilename config.format key)
  /-- It is never a part of an envelope. -/
  whole : now = first ∨ now = none ∨ ∃ payload : List UInt8, payload.length ≤ config.maximum ∧
    now = some (.file (envelope crc32c config.format payload))

variable {crc32c config key}

/-- What an operation leaves that changes the canonical file. -/
theorem Operation.New.whole {op : Operation} {before : Disk} {w : JobWorld}
    (h : op.New crc32c config key before w)
    (hchanged : w.disk.entry (blobFilename config.format key) ≠
      before.entry (blobFilename config.format key)) :
    w.disk.entry (blobFilename config.format key) = none ∨ ∃ payload : List UInt8,
      payload.length ≤ config.maximum ∧ w.disk.entry (blobFilename config.format key) =
        some (.file (envelope crc32c config.format payload)) := by
  cases op with
  | save payload sender => exact Or.inr ⟨payload, h⟩
  | saveStream declaredLen chunks sender =>
    obtain ⟨payload, hlen, hmax, -, -, hstored⟩ := h
    exact Or.inr ⟨payload, by omega, hstored⟩
  | clear sender => exact Or.inl h
  | quarantine sender => exact Or.inl h
  | load sender => exact absurd h hchanged
  | loadStream chunks acknowledgement sender => exact absurd h hchanged
  | inspect sender => exact absurd h hchanged

/-- The jobs of a key are operations on it. -/
theorem operation_of_key {job : WorkerJob} (h : job.key? = some key) :
    ∃ op, job = .operation key op := by
  cases job with
  | operation k op =>
    obtain rfl := Option.some.inj h
    exact ⟨op, rfl⟩
  | maintenance sub => cases h

/-- **Jobs that ran as if alone, one after another, explain the file.** -/
theorem explained {platform : Platform} {fault : FsCall → IoError → Prop} {history : List Execution}
    {first now : Option Node}
    (hhanded : Handed (Execution.found (blobFilename config.format key))
      (Execution.left (blobFilename config.format key)) first history now)
    (halone : ∀ e ∈ history, e.Alone crc32c config platform fault)
    (hkey : ∀ e ∈ history, e.job.key? = some key) : Explained crc32c config key history first now := by
  have htruthful (e : Execution) (he : e ∈ history) : ∃ op, e.job = .operation key op ∧
      (Operation.Old config key e.before e.world ∨ op.New crc32c config key e.before e.world) ∧
      ∀ result, e.program = .ret (.ok (.operation result)) →
        result.tale.Of (Operation.Old config key e.before) (op.New crc32c config key e.before)
          e.world := by
    obtain ⟨op, hop⟩ := operation_of_key (hkey e he)
    exact ⟨op, hop, (halone e he).tells hop⟩
  rcases hhanded.last_change with ⟨hnow, -⟩ | ⟨front, e, back, hsplit, hchanged, hnow, hkept⟩
  · exact ⟨hhanded, htruthful, Or.inl hnow, Or.inl hnow⟩
  · obtain ⟨op, hop, hcases, -⟩ := htruthful e (by rw [hsplit]; simp)
    have hnew : op.New crc32c config key e.before e.world := hcases.resolve_left hchanged
    refine ⟨hhanded, htruthful, Or.inr ⟨front, e, back, op, hsplit, hop, hnew, hnow, hkept⟩, ?_⟩
    rw [hnow]
    exact Or.inr (hnew.whole hchanged)

end Explaining

/-! ## A run of two sessions

  A save in one session and a load in the next. -/

section Sample

/-- A store that is opened on what was left goes on by itself. -/
theorem session_runs {crc32c : Crc32c} {config : StoreConfig} {platform : Platform}
    {fates : Nat → Fate} {fault : FsCall → IoError → Prop} {panics : Prop} {disk opened : Disk}
    {past : List Execution} {store : Store}
    (h : (sessionSystem crc32c config platform fault panics disk).Reachable
      ⟨past, fates, ⟨.initial config, opened, []⟩⟩)
    (hstore : (storeSystem crc32c config platform fates fault panics opened).Reachable store) :
    (sessionSystem crc32c config platform fault panics disk).Reachable ⟨past, fates, store⟩ := by
  refine System.Reachable.invariant
    (P := fun store => (sessionSystem crc32c config platform fault panics disk).Reachable
      ⟨past, fates, store⟩) ?_ ?_ hstore
  · rintro store rfl
    exact h
  · rintro store store' - hreach hstep
    exact hreach.step (.work hstep)

/-- A load was called after the directory was opened again, and its event was handled. -/
def sampleReloading : Engine :=
  let called := submit (.submission ⟨sampleKey, .load 0⟩) (.initial sampleConfig)
  onEvent sampleConfig sampleFates (.submission ⟨sampleKey, .load 0⟩) { called with channel := [] }

/-- A save that was answered; the process ends before anybody hears of it; and a load. -/
theorem sampleReloaded_reachable : ∃ (s : Sessions) (e f : Execution),
    (sessionSystem crc32cReference sampleConfig .unix Faultless False
      (.directory fun _ => none)).Reachable s ∧ s.history sampleKey = [e, f] ∧
    e.job = .operation sampleKey sampleSave ∧
    e.program = .ret (.ok (.operation (.save (.ok ())))) ∧
    f.job = .operation sampleKey (.load 0) ∧
    f.program = .ret (.ok (.operation (.load (.ok (some [1, 2]))))) := by
  obtain ⟨w, hsession, hsaved⟩ := sampleSaved_reachable
  have hinit : (sessionSystem crc32cReference sampleConfig .unix Faultless False
      (.directory fun _ => none)).Reachable
      ⟨[], sampleFates, ⟨.initial sampleConfig, .directory fun _ => none, []⟩⟩ := .init ⟨rfl, rfl⟩
  have hreopened := (session_runs hinit hsession).step (.reopen sampleFates)
  -- the second session
  have hopened : (storeSystem crc32cReference sampleConfig .unix sampleFates Faultless False
      w.disk).Reachable ⟨.initial sampleConfig, w.disk, []⟩ := .init rfl
  have hcalled := store_engine hopened
    (.submit (.submission ⟨sampleKey, .load 0⟩) (by decide) rfl rfl (by decide)) rfl
  have hhandled : (storeSystem crc32cReference sampleConfig .unix sampleFates Faultless False
      w.disk).Reachable ⟨sampleReloading, w.disk, []⟩ :=
    store_event hcalled (.submission ⟨sampleKey, .load 0⟩) [] rfl rfl
  have hstores : Stores crc32cReference sampleConfig sampleKey w.disk [1, 2] := ⟨by decide, hsaved.self⟩
  have hrepresentable : Allocates sampleConfig sampleKey w.disk := by
    intro content hcontent declared rest heq hle
    exact Nat.le_trans hle (by decide)
  obtain ⟨w', hloads⟩ := (hstores.loads hrepresentable _).mpr rfl
  have hprogram : Returns (Fs Faultless)
      ((WorkerJob.operation sampleKey (.load 0)).program crc32cReference sampleConfig .unix)
      (.start w.disk) (.ok (.operation (.load (.ok (some [1, 2]))))) w' :=
    returnsE_map (returnsE_map (returns_result hloads))
  have hloaded := store_executes hhandled
    (show sampleReloading.pool.jobs = [.operation sampleKey (.load 0)] from rfl)
    (show sampleReloading.pool.running.length < sampleReloading.pool.handles by decide) hprogram
  exact ⟨_, _, _, session_runs hreopened hloaded, rfl, rfl, rfl, rfl, rfl⟩

end Sample

/-! ## The guarantees

  Each of them reads the explanation of the file in a client's words. -/

section Guarantees

variable {crc32c : Crc32c} {config : StoreConfig} {platform : Platform}
  {fault : FsCall → IoError → Prop} {panics : Prop} {disk : Disk} {s : Sessions}

/-- Whoever is in the history of a key is on it. -/
theorem Sessions.key_of_history {key : KeyHash} {e : Execution} (h : e ∈ s.history key) :
    e.job.key? = some key := of_decide_eq_true (List.mem_filter.mp h).2

/-- **Old or new, over all sessions.**  However many jobs overlap, whatever fails, whoever panics and
    however often the process dies and the directory is opened again: a canonical file is what was
    there first, or what the last job that changed it was asked for, whole; and a job that was
    answered was told which of the two it left. -/
theorem sessions_old_or_new
    (h : (sessionSystem crc32c config platform fault panics disk).Reachable s) (key : KeyHash) :
    Explained crc32c config key (s.history key) (disk.entry (blobFilename config.format key))
      (s.store.disk.entry (blobFilename config.format key)) := by
  obtain ⟨halone, hhanded⟩ := sessions_isolated h
  exact explained (hhanded key _ (kept_blobFilename config.format key))
    (fun e he => halone e (List.mem_filter.mp he).1) fun e he => Sessions.key_of_history he

/-- The theorem for the two sessions. -/
theorem sessions_old_or_new_sample : ∃ (s : Sessions) (e f : Execution),
    s.history sampleKey = [e, f] ∧ Explained crc32cReference sampleConfig sampleKey [e, f] none
      (s.store.disk.entry (blobFilename sampleConfig.format sampleKey)) := by
  obtain ⟨s, e, f, hreach, hhistory, -⟩ := sampleReloaded_reachable
  have hexplained := sessions_old_or_new hreach sampleKey
  rw [hhistory] at hexplained
  exact ⟨s, e, f, hhistory, hexplained⟩

/-- The operations that only look. -/
def Operation.looks : Operation → Bool
  | .load _ => true
  | .loadStream .. => true
  | .inspect _ => true
  | _ => false

/-- A job that only looks, or was told that it changed nothing. -/
def Execution.Harmless (key : KeyHash) (e : Execution) : Prop := ∃ op, e.job = .operation key op ∧
  (op.looks = true ∨ ∃ result, e.program = .ret (.ok (.operation result)) ∧ result.tale = .old)

/-- A job that changes nothing leaves what it found. -/
theorem Explained.harmless {key : KeyHash} {history : List Execution} {first now : Option Node}
    (h : Explained crc32c config key history first now) {e : Execution} (he : e ∈ history)
    (hharmless : e.Harmless key) :
    e.left (blobFilename config.format key) = e.found (blobFilename config.format key) := by
  obtain ⟨op, hop, hcases, htells⟩ := h.truthful e he
  obtain ⟨op', hop', hwhy⟩ := hharmless
  obtain ⟨-, rfl⟩ := WorkerJob.operation.inj (hop.symm.trans hop')
  rcases hwhy with hlooks | ⟨result, hret, htale⟩
  · rcases hcases with hold | hnew
    · exact hold
    · cases op with
      | load sender => exact hnew
      | loadStream chunks acknowledgement sender => exact hnew
      | inspect sender => exact hnew
      | save payload sender => cases hlooks
      | saveStream declaredLen chunks sender => cases hlooks
      | clear sender => cases hlooks
      | quarantine sender => cases hlooks
  · have hsaid := htells result hret
    rw [htale] at hsaid
    exact hsaid

/-- **What was acknowledged stays.**  A job that was told that it left what it was asked for has done
    so; and as long as every later job of the key only looks, or was told that it changed nothing, that
    is what each of them finds and what is there, whatever happens to the process in between. -/
theorem acknowledged_stays
    (h : (sessionSystem crc32c config platform fault panics disk).Reachable s) {key : KeyHash}
    {front back : List Execution} {e : Execution} {op : Operation} {result : BlockingResult}
    (hhistory : s.history key = front ++ e :: back) (hjob : e.job = .operation key op)
    (hret : e.program = .ret (.ok (.operation result))) (htale : result.tale = .new)
    (hback : ∀ f ∈ back, f.Harmless key) :
    op.New crc32c config key e.before e.world ∧
      s.store.disk.entry (blobFilename config.format key) =
        e.left (blobFilename config.format key) ∧
      ∀ f ∈ back, f.found (blobFilename config.format key) =
        e.left (blobFilename config.format key) := by
  obtain ⟨halone, hhanded⟩ := sessions_isolated h
  have hchain := hhanded key _ (kept_blobFilename config.format key)
  have hexplained := explained hchain (fun e he => halone e (List.mem_filter.mp he).1)
    fun e he => Sessions.key_of_history he
  obtain ⟨op', hop, -, htells⟩ := hexplained.truthful e (by rw [hhistory]; simp)
  obtain ⟨-, rfl⟩ := WorkerJob.operation.inj (hop.symm.trans hjob)
  have hsaid := htells result hret
  rw [htale] at hsaid
  rw [hhistory] at hchain
  obtain ⟨middle, -, -, hlater⟩ := handed_append.mp hchain
  obtain ⟨hnow, hall⟩ := hlater.constant fun f hf =>
    hexplained.harmless (by rw [hhistory]; simp [hf]) (hback f hf)
  exact ⟨hsaid, hnow, hall⟩

/-- The save of the first session is what the load of the second finds. -/
theorem acknowledged_stays_sample : ∃ (s : Sessions) (e f : Execution),
    s.history sampleKey = [e, f] ∧
    s.store.disk.entry (blobFilename sampleConfig.format sampleKey) =
      some (.file (envelope crc32cReference testFormat [1, 2])) ∧
    f.before.entry (blobFilename sampleConfig.format sampleKey) =
      some (.file (envelope crc32cReference testFormat [1, 2])) := by
  obtain ⟨s, e, f, hreach, hhistory, hjob, hret, hload, -⟩ := sampleReloaded_reachable
  have hharmless : ∀ g ∈ [f], g.Harmless sampleKey := by
    intro g hg
    rw [List.mem_singleton.mp hg]
    exact ⟨.load 0, hload, Or.inl rfl⟩
  have hsplit : s.history sampleKey = [] ++ e :: [f] := hhistory
  obtain ⟨hnew, hnow, hall⟩ := acknowledged_stays hreach hsplit hjob hret rfl hharmless
  have hleft : e.left (blobFilename sampleConfig.format sampleKey) =
      some (.file (envelope crc32cReference testFormat [1, 2])) := hnew.2
  exact ⟨s, e, f, hhistory, hnow.trans hleft, (hall f (List.mem_singleton.mpr rfl)).trans hleft⟩

/-- The operation was asked to store the payload: it was given, or came through the channel, where it is
    all that came unless more came than was declared. -/
def Operation.Supplies (payload : List UInt8) (received : List (Option SaveStreamMessage)) :
    Operation → Prop
  | .save given _ => given = payload
  | .saveStream declaredLen _ _ => payload.length = declaredLen ∧ payload <:+ payloadOf received ∧
      ((payloadOf received).length ≤ declaredLen → payload = payloadOf received)
  | _ => False

/-- What an operation left that is an envelope is the envelope of what it was asked to store. -/
theorem Operation.New.supplies {key : KeyHash} {op : Operation} {before after : Disk} {w : JobWorld}
    {payload : List UInt8} (h : op.New crc32c config key before w)
    (hafter : after.entry (blobFilename config.format key) =
      w.disk.entry (blobFilename config.format key))
    (hchanged : ¬Operation.Old config key before w)
    (hstores : Stores crc32c config key after payload) : op.Supplies payload w.received := by
  have hsame {payload' : List UInt8} (hle : payload'.length ≤ config.maximum)
      (hstored : w.disk.entry (blobFilename config.format key) =
        some (.file (envelope crc32c config.format payload'))) : payload' = payload :=
    hstores.unique ⟨hle, hafter.trans hstored⟩
  have hgone (hnone : w.disk.entry (blobFilename config.format key) = none) : False := by
    have hfile := hafter.symm.trans hstores.2
    rw [hnone] at hfile
    cases hfile
  cases op with
  | save given sender => exact hsame h.1 h.2
  | saveStream declaredLen chunks sender =>
    obtain ⟨payload', hlen, hmax, hsuffix, hwhole, hstored⟩ := h
    obtain rfl := hsame (by omega) hstored
    exact ⟨hlen, hsuffix, hwhole⟩
  | clear sender => exact hgone h
  | quarantine sender => exact hgone h
  | load sender => exact absurd h hchanged
  | loadStream chunks acknowledgement sender => exact absurd h hchanged
  | inspect sender => exact absurd h hchanged

/-- **Whatever is loaded is whole.**  However jobs overlap, fail, panic and are cut short: a load, a
    streaming load or an inspection that succeeds reports what was there when it began; and a payload
    that was there had been there first, or an earlier job of the key was asked to store it. -/
theorem loads_are_whole
    (h : (sessionSystem crc32c config platform fault panics disk).Reachable s) {key : KeyHash}
    (hregular : disk.entry (blobFilename config.format key) ≠ some .other)
    {front back : List Execution} {e : Execution} {op : Operation} {result : BlockingResult}
    (hhistory : s.history key = front ++ e :: back) (hjob : e.job = .operation key op)
    (hret : e.program = .ret (.ok (.operation result))) :
    result.Reports crc32c config key e.before e.world ∧
      ∀ payload, Stores crc32c config key e.before payload → Stores crc32c config key disk payload ∨
        ∃ f ∈ front, ∃ earlier, f.job = .operation key earlier ∧
          earlier.Supplies payload f.world.received := by
  obtain ⟨halone, hhanded⟩ := sessions_isolated h
  have hmem {f : Execution} (hf : f ∈ s.history key) : f ∈ s.executions := (List.mem_filter.mp hf).1
  have hchain := hhanded key _ (kept_blobFilename config.format key)
  rw [hhistory] at hchain
  obtain ⟨middle, hfront, hfound, -⟩ := handed_append.mp hchain
  have hfound : e.before.entry (blobFilename config.format key) = middle := hfound
  -- what the jobs before it explain
  have hexplained := explained hfront (fun f hf => halone f (hmem (by rw [hhistory]; simp [hf])))
    (fun f hf => Sessions.key_of_history (s := s) (by rw [hhistory]; simp [hf]))
  refine ⟨(halone e (hmem (by rw [hhistory]; simp))).reports hjob hret ?_, fun payload hstores => ?_⟩
  · rw [hfound]
    rcases hexplained.whole with hfirst | hnone | ⟨payload, -, hstored⟩
    · rw [hfirst]
      exact hregular
    · rw [hnone]
      simp
    · rw [hstored]
      simp
  · rcases hfront.last_change with ⟨hnow, -⟩ | ⟨first, f, later, hsplit, hchanged, hnow, -⟩
    · refine Or.inl ⟨hstores.1, ?_⟩
      rw [← hnow, ← hfound]
      exact hstores.2
    · have hf : f ∈ front := by rw [hsplit]; simp
      obtain ⟨earlier, hearlier, hcases, -⟩ := hexplained.truthful f hf
      refine Or.inr ⟨f, hf, earlier, hearlier, ?_⟩
      exact (hcases.resolve_left hchanged).supplies (hfound.trans hnow) hchanged hstores

/-- The load of the second session. -/
theorem loads_are_whole_sample : ∃ (s : Sessions) (e f : Execution),
    s.history sampleKey = [e, f] ∧
    (BlockingResult.load (.ok (some [1, 2]))).Reports crc32cReference sampleConfig sampleKey f.before
      f.world ∧
    ∀ payload, Stores crc32cReference sampleConfig sampleKey f.before payload →
      Stores crc32cReference sampleConfig sampleKey (.directory fun _ => none) payload ∨
        ∃ g ∈ [e], ∃ earlier, g.job = .operation sampleKey earlier ∧
          earlier.Supplies payload g.world.received := by
  obtain ⟨s, e, f, hreach, hhistory, -, -, hload, hret⟩ := sampleReloaded_reachable
  have hregular : (Disk.directory fun _ => none).entry
      (blobFilename sampleConfig.format sampleKey) ≠ some .other := by
    intro h
    cases h
  have hsplit : s.history sampleKey = [e] ++ f :: [] := hhistory
  exact ⟨s, e, f, hhistory, loads_are_whole hreach hregular hsplit hload hret⟩

end Guarantees

end AtomicBlobStore
