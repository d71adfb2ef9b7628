/-
  THE STORE: the coordinator, its workers and the directory that they share.

  `Engine` says when a job starts and ends, and leaves open what it does; `Jobs` says what a job
  does, and leaves open when.  Here both are one system.

  1. **Executions** — every job that a worker ever started, in that order, with the directory it
     found, what is left of its program and its own part of the world.

  2. **Steps** (`StoreStep`) — a step of the engine in which no job starts or ends; the start of a
     job; one call of a running job on the shared directory, or one turn of a loop; and the end of a
     job, by the result of its program or by a panic.  Calls may fail as `fault` allows, jobs may
     panic anywhere if `panics` says so.  Stopping a run anywhere is a crash.

  3. **Two levels** — `reachable_engine`: whatever the store does is a run of the engine.

  4. **What is kept** — jobs that wait or run are for different keys (`jobs_disjoint`), and
     `Known`: the executions are those the history tells of, and whoever runs is the last of its key.
-/
import AtomicBlobStore.Entries
import AtomicBlobStore.Jobs

namespace AtomicBlobStore

open Relation

/-! ## The program of a job

  A worker runs a closure that catches panics, and what it sends afterwards depends only on how the
  program has ended. -/

section Program

variable (crc32c : Crc32c) (config : StoreConfig) (platform : Platform)

/-- What a worker runs for a job.  Maintenance without an age reports that it did nothing. -/
def WorkerJob.program : WorkerJob → Prog FsInterface (Except Abort TaskResult)
  | .operation keyHash op => (Task.operation keyHash op).program crc32c config platform
  | .maintenance sub => match sub.minimumAge with
    | some minimumAge => (Task.cleanup minimumAge).program crc32c config platform
    | none => .ret (.ok (.cleanup (.ok ⟨[], [], []⟩)))

/-- What a job may ask for. -/
def WorkerJob.Asks (format : BlobFormatIdentity) : WorkerJob → FsCall → Prop
  | .operation keyHash _ => OperationCalls format keyHash
  | .maintenance _ => CleanupCalls format

theorem calls_job (job : WorkerJob) :
    (job.program crc32c config platform).Calls (job.Asks config.format) := by
  rcases job with ⟨keyHash, op⟩ | ⟨minimumAge, sender⟩
  · exact calls_task crc32c config platform (.operation keyHash op)
  · cases minimumAge with
    | some minimumAge => exact calls_task crc32c config platform (.cleanup minimumAge)
    | none => exact .ret _

end Program

/-- How the closure of a job ends, by how its program did: `catch_unwind`, the completion that is
    sent, and what is noted of a reply that nobody will get. -/
inductive Concludes : WorkerJob → Except Abort TaskResult → CoordinatorEvent → List Observation → Prop
  /-- The program of an operation returned. -/
  | operation (keyHash : KeyHash) (op : Operation) (result : BlockingResult)
      (kinds : op.accepts result = true) :
      Concludes (.operation keyHash op) (.ok (.operation result))
        (.completion ⟨keyHash, some ⟨op, result, kinds⟩⟩) []
  /-- It panicked. -/
  | operationPanic (keyHash : KeyHash) (op : Operation) (abort : Abort) :
      Concludes (.operation keyHash op) (.error abort) (.completion ⟨keyHash, none⟩)
        [.lost (op.origin keyHash)]
  /-- That of a maintenance job returned. -/
  | maintenance (sub : MaintenanceSubmission) (result : Except AtomicBlobStoreError CleanupReport) :
      Concludes (.maintenance sub) (.ok (.cleanup result))
        (.maintenanceCompletion ⟨some ⟨sub.sender, result⟩⟩) []
  /-- It panicked. -/
  | maintenancePanic (sub : MaintenanceSubmission) (abort : Abort) :
      Concludes (.maintenance sub) (.error abort) (.maintenanceCompletion ⟨none⟩)
        [.lost ⟨none, sub.sender⟩]

theorem Concludes.jobEnd {job : WorkerJob} {outcome : Except Abort TaskResult} {ev : CoordinatorEvent}
    {entries : List Observation} (h : Concludes job outcome ev entries) : JobEnd job ev entries := by
  cases h with
  | operation keyHash op result kinds => exact .operation keyHash op _ rfl
  | operationPanic keyHash op abort => exact .operationPanic keyHash op
  | maintenance sub result => exact .maintenance sub result
  | maintenancePanic sub abort => exact .maintenancePanic sub

/-! ## The system

  The engine and the jobs meet in three kinds of steps.  A job that starts gets the directory as it
  is, a job that runs calls on it, and a job that ends hands its result to the engine. -/

/-- A job that a worker started: the directory it found, and how far it is. -/
structure Execution where
  /-- The job. -/
  job : WorkerJob
  /-- The directory that it found. -/
  before : Disk
  /-- What is left of its program. -/
  program : Prog FsInterface (Except Abort TaskResult)
  /-- Its own part of the world, with the directory as it saw it last. -/
  world : JobWorld

/-- The engine, the directory and every job ever started. -/
structure Store where
  /-- The coordinator, its workers and its callers. -/
  engine : Engine
  /-- The directory. -/
  disk : Disk
  /-- Every job that was ever started. -/
  executions : List Execution

/-- The engine after a worker took a job. -/
def Engine.startJob (job : WorkerJob) (rest : List WorkerJob) (s : Engine) : Engine :=
  { s.observe [.executed job.origin] with
    pool := { s.pool with jobs := rest, running := s.pool.running ++ [job] } }

/-- The engine after a job ended. -/
def Engine.finishJob (front back : List WorkerJob) (ev : CoordinatorEvent)
    (entries : List Observation) (s : Engine) : Engine :=
  { s.observe entries with
    channel := s.channel ++ [ev], pool := { s.pool with running := front ++ back } }

section System

variable (crc32c : Crc32c) (config : StoreConfig) (platform : Platform) (fates : Nat → Fate)
  (fault : FsCall → IoError → Prop) (panics : Prop)

/-- The execution of a job that starts. -/
def Execution.begin (job : WorkerJob) (disk : Disk) : Execution :=
  ⟨job, disk, job.program crc32c config platform, JobWorld.start disk⟩

/-- One step of the store.  Steps of the engine in which a job starts or ends are replaced by steps
    that say what the job does. -/
inductive StoreStep : Store → Store → Prop
  /-- Callers and the coordinator. -/
  | engine {s : Store} {e : Engine} (hstep : Step config fates s.engine e)
      (hsame : e.pool.running = s.engine.pool.running) : StoreStep s { s with engine := e }
  /-- An idle worker thread takes the next job. -/
  | start {s : Store} (job : WorkerJob) (rest : List WorkerJob)
      (hjobs : s.engine.pool.jobs = job :: rest)
      (hthread : s.engine.pool.running.length < s.engine.pool.handles) :
      StoreStep s { s with
        engine := s.engine.startJob job rest
        executions := s.executions ++ [.begin crc32c config platform job s.disk] }
  /-- A running job makes a call on the shared directory. -/
  | call {s : Store} (front back : List Execution) (e : Execution) (c : FsCall)
      (k : c.Answer → Prog FsInterface (Except Abort TaskResult)) (r : c.Answer) (w : JobWorld)
      (hexecutions : s.executions = front ++ e :: back) (hrunning : e.job ∈ s.engine.pool.running)
      (hcall : e.program = .call c k) (henv : Fs fault c { e.world with disk := s.disk } r w) :
      StoreStep s { s with
        disk := w.disk
        executions := front ++ { e with program := k r, world := w } :: back }
  /-- A running job goes round a loop. -/
  | turn {s : Store} (front back : List Execution) (e : Execution) {σ β : Type}
      (body : σ → Prog FsInterface (σ ⊕ β)) (x : σ)
      (k : β → Prog FsInterface (Except Abort TaskResult))
      (hexecutions : s.executions = front ++ e :: back) (hrunning : e.job ∈ s.engine.pool.running)
      (hloop : e.program = .loop body x k) :
      StoreStep s { s with
        executions := front ++ { e with program := (body x).bind (Prog.unroll body k) } :: back }
  /-- A job ends with its program. -/
  | finish {s : Store} (front back : List WorkerJob) (e : Execution)
      (outcome : Except Abort TaskResult) (ev : CoordinatorEvent) (entries : List Observation)
      (hexecution : e ∈ s.executions) (hrunning : s.engine.pool.running = front ++ e.job :: back)
      (hret : e.program = .ret outcome) (hend : Concludes e.job outcome ev entries) :
      StoreStep s { s with engine := s.engine.finishJob front back ev entries }
  /-- A job panics, wherever it is. -/
  | panic {s : Store} (front back : List WorkerJob) (job : WorkerJob) (ev : CoordinatorEvent)
      (entries : List Observation) (hpanics : panics)
      (hrunning : s.engine.pool.running = front ++ job :: back)
      (hend : Concludes job (.error .panic) ev entries) :
      StoreStep s { s with engine := s.engine.finishJob front back ev entries }

/-- The store, opened on a directory. -/
def storeSystem (disk : Disk) : System Store where
  init s := s = ⟨.initial config, disk, []⟩
  step := StoreStep crc32c config platform fates fault panics

end System

section Levels

variable {crc32c : Crc32c} {config : StoreConfig} {platform : Platform} {fates : Nat → Fate}
  {fault : FsCall → IoError → Prop} {panics : Prop} {disk : Disk} {s s' : Store}

/-- **Whatever the store does, the engine can do.** -/
theorem reachable_engine
    (h : (storeSystem crc32c config platform fates fault panics disk).Reachable s) :
    (engineSystem config fates).Reachable s.engine := by
  refine System.Reachable.of_simulation Store.engine ?_ ?_ h
  · rintro s rfl
    rfl
  · intro s s' _ _ hstep
    cases hstep with
    | engine hstep hsame => exact .single hstep
    | start job rest hjobs hthread => exact .single (.startJob job rest hjobs hthread)
    | call front back e c k r w hexecutions hrunning hcall henv => exact .refl
    | turn front back e body x k hexecutions hrunning hloop => exact .refl
    | finish front back e outcome ev entries hexecution hrunning hret hend =>
      exact .single (.finishJob front back e.job ev entries hrunning hend.jobEnd)
    | panic front back job ev entries hpanics hrunning hend =>
      exact .single (.finishJob front back job ev entries hrunning hend.jobEnd)

end Levels

/-! ## Jobs that wait or run

  The coordinator's discipline was stated by counting.  For jobs that share a directory it is needed
  as a statement about pairs. -/

/-- Two jobs on different keys. -/
def WorkerJob.Disjoint (job job' : WorkerJob) : Prop :=
  ∃ k k', job.key? = some k ∧ job'.key? = some k' ∧ k ≠ k'

/-- Neither job comes first. -/
theorem WorkerJob.Disjoint.symm {job job' : WorkerJob} (h : job.Disjoint job') :
    job'.Disjoint job := by
  obtain ⟨k, k', hk, hk', hne⟩ := h
  exact ⟨k', k, hk', hk, hne.symm⟩

/-- No job is on another key than its own. -/
theorem WorkerJob.Disjoint.irrefl {job : WorkerJob} : ¬job.Disjoint job := by
  rintro ⟨k, k', hk, hk', hne⟩
  exact hne (Option.some.inj (hk.symm.trans hk'))

/-- At most one job a key, and maintenance alone, make them pairwise disjoint. -/
theorem pairwise_disjoint {jobs : List WorkerJob}
    (hcount : ∀ k, (jobs.filterMap WorkerJob.key?).count k ≤ 1)
    (hsingle : jobs.countP WorkerJob.isMaintenance ≤ 1)
    (halone : 0 < jobs.countP WorkerJob.isMaintenance → jobs.filterMap WorkerJob.key? = []) :
    jobs.Pairwise WorkerJob.Disjoint := by
  have hkeyed {job : WorkerJob} {k : KeyHash} (hmem : job ∈ jobs) (hk : job.key? = some k) :
      jobs.countP WorkerJob.isMaintenance = 0 := by
    by_contra hpos
    have hnone := halone (Nat.pos_of_ne_zero hpos)
    exact absurd (hnone ▸ List.mem_filterMap.mpr ⟨job, hmem, hk⟩) List.not_mem_nil
  rw [List.pairwise_iff_getElem]
  intro i j hi hj hij
  -- the two jobs, with what is before, between and after them
  have hsplit : jobs.take i ++ jobs[i] :: jobs.drop (i + 1) = jobs := by
    rw [List.getElem_cons_drop, List.take_append_drop]
  have hmem : jobs[j] ∈ jobs.drop (i + 1) := by
    rw [List.mem_iff_getElem]
    refine ⟨j - (i + 1), by rw [List.length_drop]; omega, ?_⟩
    rw [List.getElem_drop]
    congr 1
    omega
  generalize jobs[i] = job at hsplit
  generalize jobs[j] = job' at hmem
  obtain ⟨between, after, hdrop⟩ := List.append_of_mem hmem
  rw [hdrop] at hsplit
  have hin : job ∈ jobs := by rw [← hsplit]; simp
  have hin' : job' ∈ jobs := by rw [← hsplit]; simp
  rcases job with ⟨k, op⟩ | sub
  · rcases job' with ⟨k', op'⟩ | sub'
    · refine ⟨k, k', rfl, rfl, ?_⟩
      rintro rfl
      have hle := hcount k
      rw [← hsplit] at hle
      simp [WorkerJob.key?] at hle
      omega
    · have hzero := hkeyed hin rfl
      rw [List.countP_eq_zero] at hzero
      exact absurd rfl (hzero _ hin')
  · rcases job' with ⟨k', op'⟩ | sub'
    · have hzero := hkeyed hin' rfl
      rw [List.countP_eq_zero] at hzero
      exact absurd rfl (hzero _ hin)
    · rw [← hsplit] at hsingle
      simp [List.countP_cons] at hsingle
      omega

section Jobs

variable {config : StoreConfig} {fates : Nat → Fate} {s : Engine}

/-- **Jobs that wait for a worker or run are for different keys**, and maintenance is alone. -/
theorem jobs_disjoint (h : Inv config s) :
    (s.pool.jobs ++ s.pool.running).Pairwise WorkerJob.Disjoint := by
  have hsub : ((s.pool.jobs ++ s.pool.running).filterMap WorkerJob.key?).Sublist s.outstanding := by
    rw [List.filterMap_append]
    exact List.sublist_append_left _ _
  apply pairwise_disjoint
  · intro k
    apply Nat.le_trans (hsub.count_le k)
    rw [h.active]
    split <;> omega
  · have hflag := Bool.toNat_le s.maintenanceActive
    have hmaintenance := h.maintenance
    unfold Engine.maintenanceOutstanding at hmaintenance
    rw [List.countP_append]
    omega
  · intro hpos
    have halone := (maintenance_alone h (by
      unfold Engine.maintenanceOutstanding
      rw [List.countP_append] at hpos
      omega)).2.2
    rw [halone] at hsub
    exact List.sublist_nil.mp hsub

/-- A request waits for a worker or has started, and either only once. -/
theorem waiting_executed_le (h : Inv config s) (hs : Settled config s) (o : Origin) :
    (s.pool.jobs.map WorkerJob.origin).count o + (executed s.log).count o ≤ 1 := by
  have hsum := occupancy_sum h hs o
  have hle := List.nodup_iff_count_le_one.mp (entered_origins_nodup h) o
  have hended : (ended s.log).count o ≤ (resolutions s.log).count o :=
    (filterMap_sublist Observation.resolves_of_ended s.log).count_le o
  have hjobs := h.jobs o
  simp only [hs.delivered, Option.toList_none, List.map_nil, List.count_nil] at hjobs
  simp only [Engine.occupancy] at hsum
  omega

/-- A job is started once. -/
theorem executed_nodup (h : Inv config s) (hs : Settled config s) : (executed s.log).Nodup := by
  apply List.nodup_iff_count_le_one.mpr
  intro o
  have := waiting_executed_le h hs o
  omega

/-- Whoever waits for a worker has not started. -/
theorem not_executed_of_waiting (h : Inv config s) (hs : Settled config s) {job : WorkerJob}
    (hjob : job ∈ s.pool.jobs) : job.origin ∉ executed s.log := by
  have hpos := List.count_pos_iff.mpr (List.mem_map_of_mem (f := WorkerJob.origin) hjob)
  have hle := waiting_executed_le h hs job.origin
  rw [← List.count_eq_zero]
  omega

end Jobs

/-! ## What is known of executions -/

variable {crc32c : Crc32c} {config : StoreConfig} {platform : Platform} {fates : Nat → Fate}
  {fault : FsCall → IoError → Prop} {panics : Prop} {disk : Disk} {s s' : Store}

/-- Where no job starts or ends, none is noted to start. -/
theorem Still.executed_eq {e e' : Engine} (h : Still fates e e') : executed e'.log = executed e.log := by
  obtain ⟨entries, hlog, hentries⟩ := h.log
  have hnone : entries.filterMap Observation.executed? = [] :=
    List.filterMap_eq_nil_iff.mpr fun entry hentry => (hentries entry hentry).not_executed
  rw [hlog]
  unfold executed
  rw [List.filterMap_append, hnone, List.append_nil]

/-- A step that leaves what runs alone is still. -/
theorem still_of_running {e e' : Engine} (hs : Settled config e) (hstep : Step config fates e e')
    (hsame : e'.pool.running = e.pool.running) : Still fates e e' := by
  have hlength := congrArg List.length hsame
  rcases step_cases hs hstep with ⟨job, rest, -, rfl⟩ |
    ⟨front, job, back, ev, entries, hrunning, -, rfl⟩ | hstill
  · simp at hlength
  · rw [hrunning] at hlength
    simp at hlength
  · exact hstill

variable (config) in
/-- The executions are those that the history tells of, each of a request that entered; each asks only
    for what its job may ask, and whoever runs is the last of its key. -/
structure Known (s : Store) : Prop where
  /-- The executions are those that the history tells of, -/
  recorded : s.executions.map (fun e => e.job.origin) = executed s.engine.log
  /-- each of a request that entered. -/
  requested : ∀ e ∈ s.executions, e.job.request ∈ entered s.engine.log
  /-- Whatever runs is among them. -/
  running : ∀ job ∈ s.engine.pool.running, ∃ e ∈ s.executions, e.job = job
  /-- A job only ever asks for what it may ask. -/
  asks : ∀ e ∈ s.executions, e.program.Calls (e.job.Asks config.format)
  /-- The atomic writer that it has open is for its own canonical file. -/
  writer : ∀ e ∈ s.executions, ∀ key, e.job.key? = some key → WriterOf config.format key e.world
  /-- No job of a key is started while one runs. -/
  last : ∀ front e back, s.executions = front ++ e :: back → e.job ∈ s.engine.pool.running →
    ∀ e' ∈ back, e.job.Disjoint e'.job

/-- No job starts. -/
theorem Known.of_engine (h : Known config s) {e : Engine} (hlog : s.engine.log <+: e.log)
    (hexecuted : executed e.log = executed s.engine.log)
    (hrunning : ∀ job ∈ e.pool.running, job ∈ s.engine.pool.running) :
    Known config { s with engine := e } where
  recorded := h.recorded.trans hexecuted.symm
  requested e he := (hlog.filterMap _).subset (h.requested e he)
  running job hjob := h.running job (hrunning job hjob)
  asks := h.asks
  writer := h.writer
  last front e' back heq he := h.last front e' back heq (hrunning _ he)

/-- A job goes on. -/
theorem Known.advance (h : Known config s) {front back : List Execution} {e f : Execution}
    (hexecutions : s.executions = front ++ e :: back) (hjob : f.job = e.job)
    (hasks : f.program.Calls (f.job.Asks config.format))
    (hwriter : ∀ key, f.job.key? = some key → WriterOf config.format key f.world) (d : Disk) :
    Known config ⟨s.engine, d, front ++ f :: back⟩ := by
  -- every execution is the old one, but for the one that went on
  have hold {g : Execution} (hg : g ∈ front ++ f :: back) : g = f ∨ g ∈ s.executions := by
    rw [hexecutions]
    simp only [List.mem_append, List.mem_cons] at hg ⊢
    rcases hg with hg | rfl | hg
    · exact Or.inr (Or.inl hg)
    · exact Or.inl rfl
    · exact Or.inr (Or.inr (Or.inr hg))
  have hjobs : (front ++ f :: back).map Execution.job = s.executions.map Execution.job := by
    rw [hexecutions]
    simp [hjob]
  constructor
  · rw [← h.recorded]
    have horigins := congrArg (List.map WorkerJob.origin) hjobs
    rwa [List.map_map, List.map_map] at horigins
  · intro g hg
    have hmem : g.job ∈ s.executions.map Execution.job := by
      rw [← hjobs]
      exact List.mem_map_of_mem hg
    obtain ⟨g', hg', hsame⟩ := List.mem_map.mp hmem
    rw [← hsame]
    exact h.requested g' hg'
  · intro job hrun
    obtain ⟨g, hg, rfl⟩ := h.running job hrun
    have hmem : g.job ∈ (front ++ f :: back).map Execution.job := by
      rw [hjobs]
      exact List.mem_map_of_mem hg
    obtain ⟨g', hg', hsame⟩ := List.mem_map.mp hmem
    exact ⟨g', hg', hsame⟩
  · intro g hg
    rcases hold hg with rfl | hg
    · exact hasks
    · exact h.asks g hg
  · intro g hg
    rcases hold hg with rfl | hg
    · exact hwriter
    · exact h.writer g hg
  · intro front' g back' heq hrun g' hg'
    -- the split of the jobs is a split of the old ones
    have hsplit : s.executions.map Execution.job =
        front'.map Execution.job ++ g.job :: back'.map Execution.job := by
      have hmap := congrArg (List.map Execution.job) heq
      simp only [List.map_append, List.map_cons] at hmap
      rw [← hjobs, List.map_append, List.map_cons]
      exact hmap
    obtain ⟨front₀, rest₀, hfront, -, hrest⟩ := List.map_eq_append_iff.mp hsplit
    obtain ⟨g₀, back₀, rfl, hg₀, hback⟩ := List.map_eq_cons_iff.mp hrest
    have hin : g'.job ∈ back₀.map Execution.job := by
      rw [hback]
      exact List.mem_map_of_mem hg'
    obtain ⟨g₁, hg₁, hsame⟩ := List.mem_map.mp hin
    rw [← hg₀, ← hsame]
    exact h.last front₀ g₀ back₀ hfront (by rw [hg₀]; exact hrun) g₁ hg₁

/-- The split of a list with one element more. -/
theorem split_concat {α : Type*} {front back l : List α} {x y : α}
    (h : l ++ [y] = front ++ x :: back) :
    (back = [] ∧ x = y) ∨ ∃ back', back = back' ++ [y] ∧ l = front ++ x :: back' := by
  rcases concat_cases h with ⟨hback, hx, -⟩ | ⟨rest, hrest, hl⟩
  · exact Or.inl ⟨hback, hx⟩
  · exact Or.inr ⟨rest, hrest, hl⟩

/-- A job starts. -/
theorem Known.start (h : Known config s) (hinv : Inv config s.engine) (hs : Settled config s.engine)
    (hgenuine : Genuine s.engine) {job : WorkerJob} {rest : List WorkerJob} (hjobs : s.engine.pool.jobs = job :: rest) :
    Known config ⟨s.engine.startJob job rest, s.disk,
      s.executions ++ [.begin crc32c config platform job s.disk]⟩ := by
  have hdisjoint := jobs_disjoint hinv
  rw [hjobs, List.cons_append, List.pairwise_cons] at hdisjoint
  -- a job that waits has no execution yet, so the new one is its only one
  have hfresh : job.origin ∉ executed s.engine.log :=
    not_executed_of_waiting hinv hs (by rw [hjobs]; exact List.mem_cons_self)
  have hrun {f : Execution} (hf : f ∈ s.executions)
      (hmem : f.job ∈ s.engine.pool.running ++ [job]) : f.job ∈ s.engine.pool.running := by
    rcases List.mem_append.mp hmem with hmem | hmem
    · exact hmem
    · refine absurd ?_ hfresh
      rw [← h.recorded, ← List.mem_singleton.mp hmem]
      exact List.mem_map_of_mem (f := fun e => e.job.origin) hf
  constructor
  · show List.map _ (s.executions ++ _) = executed (s.engine.log ++ [.executed job.origin])
    unfold executed
    rw [List.map_append, h.recorded, List.filterMap_append]
    rfl
  · intro f hf
    have hentered : entered (s.engine.startJob job rest).log = entered s.engine.log := by
      simp [Engine.startJob, Engine.observe, entered]
    rw [hentered]
    rcases List.mem_append.mp hf with hf | hf
    · exact h.requested f hf
    · rw [List.mem_singleton.mp hf]
      apply hgenuine.jobs
      rw [hjobs]
      exact List.mem_cons_self
  · intro job' hjob'
    rcases List.mem_append.mp hjob' with hjob' | hjob'
    · obtain ⟨f, hf, rfl⟩ := h.running job' hjob'
      exact ⟨f, List.mem_append_left _ hf, rfl⟩
    · refine ⟨.begin crc32c config platform job s.disk, by simp, ?_⟩
      exact (List.mem_singleton.mp hjob').symm
  · intro f hf
    rcases List.mem_append.mp hf with hf | hf
    · exact h.asks f hf
    · rw [List.mem_singleton.mp hf]
      exact calls_job crc32c config platform job
  · intro f hf key hkey
    rcases List.mem_append.mp hf with hf | hf
    · exact h.writer f hf key hkey
    · rw [List.mem_singleton.mp hf]
      intro name content hwriter
      cases hwriter
  · intro front f back heq hmem f' hf'
    rcases split_concat heq with ⟨rfl, -⟩ | ⟨back', rfl, hl⟩
    · exact absurd hf' List.not_mem_nil
    · -- the new execution is the last of its key: no job of the same key was running
      have hold : f.job ∈ s.engine.pool.running := hrun (by rw [hl]; simp) hmem
      rcases List.mem_append.mp hf' with hf' | hf'
      · exact h.last front f back' hl hold f' hf'
      · rw [List.mem_singleton.mp hf']
        exact (hdisjoint.1 f.job (List.mem_append_right _ hold)).symm

/-- What a running job may ask keeps the writer of its key on the canonical file. -/
theorem Known.writer_call (h : Known config s) {e : Execution} (he : e ∈ s.executions) {c : FsCall}
    {r : c.Answer} {w : JobWorld} (hc : e.job.Asks config.format c)
    (henv : Fs fault c { e.world with disk := s.disk } r w) (key : KeyHash)
    (hkey : e.job.key? = some key) : WriterOf config.format key w := by
  have hold : WriterOf config.format key { e.world with disk := s.disk } := h.writer e he key hkey
  cases hjob : e.job with
  | operation k op =>
    rw [hjob] at hc hkey
    obtain rfl : k = key := Option.some.inj hkey
    exact fs_writerOf hc hold henv
  | maintenance sub =>
    rw [hjob] at hkey
    cases hkey

/-- **What is known holds of every store.** -/
theorem known_reachable
    (h : (storeSystem crc32c config platform fates fault panics disk).Reachable s) :
    Known config s := by
  refine System.Reachable.invariant ?_ ?_ h
  · rintro s rfl
    constructor
    · rfl
    · exact fun e he => absurd he List.not_mem_nil
    · exact fun job hjob => absurd hjob List.not_mem_nil
    · exact fun e he => absurd he List.not_mem_nil
    · exact fun e he => absurd he List.not_mem_nil
    · intro front e back heq
      exact absurd heq (by simp)
  · intro s s' hreach hknown hstep
    obtain ⟨hinv, hs⟩ := inv_reachable (reachable_engine hreach)
    cases hstep with
    | engine hstep hsame =>
      refine hknown.of_engine (hstep.log_grows (reachable_engine hreach)) (still_of_running hs hstep hsame).executed_eq
        fun job hjob => ?_
      rwa [← hsame]
    | start job rest hjobs hthread =>
      exact hknown.start hinv hs (genuine_prompt (reachable_engine hreach)).1 hjobs
    | call front back e c k r w hexecutions hrunning hcall henv =>
      have he : e ∈ s.executions := by rw [hexecutions]; simp
      have hasks := hknown.asks e he
      rw [hcall] at hasks
      cases hasks with
      | call hc hk =>
        exact hknown.advance (f := { e with program := k r, world := w }) hexecutions rfl (hk r)
          (hknown.writer_call he hc henv) _
    | turn front back e body x k hexecutions hrunning hloop =>
      have he : e ∈ s.executions := by rw [hexecutions]; simp
      have hasks := hknown.asks e he
      rw [hloop] at hasks
      cases hasks with
      | loop hbody hk =>
        exact hknown.advance (f := { e with program := (body x).bind (Prog.unroll body k) })
          hexecutions rfl ((hbody x).bind (Prog.Calls.unroll hbody hk)) (hknown.writer e he) _
    | finish front back e outcome ev entries hexecution hrunning hret hend =>
      refine hknown.of_engine (List.prefix_append _ _) ?_ fun job hjob => ?_
      · rcases hend.jobEnd.entries with ⟨rfl, -⟩ | ⟨rfl, -⟩ <;>
          simp [Engine.finishJob, Engine.observe, executed]
      · rw [hrunning]
        exact (List.sublist_cons_self _ _).append_left front |>.subset hjob
    | panic front back job ev entries hpanics hrunning hend =>
      refine hknown.of_engine (List.prefix_append _ _) ?_ fun job' hjob => ?_
      · rcases hend.jobEnd.entries with ⟨rfl, -⟩ | ⟨rfl, -⟩ <;>
          simp [Engine.finishJob, Engine.observe, executed]
      · rw [hrunning]
        exact (List.sublist_cons_self _ _).append_left front |>.subset hjob

/-- An execution is found by its origin. -/
theorem Known.eq_of_origin (h : Known config s) (hinv : Inv config s.engine)
    (hs : Settled config s.engine) {e e' : Execution} (he : e ∈ s.executions)
    (he' : e' ∈ s.executions) (horigin : e.job.origin = e'.job.origin) : e = e' := by
  have hnodup := executed_nodup hinv hs
  rw [← h.recorded] at hnodup
  exact List.inj_on_of_nodup_map hnodup he he' horigin

/-! ## Replies

  A reply is sent by the worker, waits in the channel with the completion, and is delivered by the
  coordinator. That it is the program's own result has to be kept through all three. -/

/-- The reply that an event carries, and to whom. -/
def CoordinatorEvent.reply? : CoordinatorEvent → Option (Origin × Reply)
  | .completion done =>
    done.outcome.map fun f => (f.operation.origin done.keyHash, .operation f.result)
  | .maintenanceCompletion done => done.outcome.map fun o => (⟨none, o.sender⟩, .cleanup o.result)
  | _ => none

theorem CoordinatorEvent.outcome?_of_reply {ev : CoordinatorEvent} {o : Origin} {reply : Reply}
    (h : ev.reply? = some (o, reply)) : ev.outcome? ≠ none := by
  cases ev with
  | completion done =>
    obtain ⟨f, hf, -⟩ := Option.map_eq_some_iff.mp h
    simp [hf]
  | maintenanceCompletion done =>
    obtain ⟨f, hf, -⟩ := Option.map_eq_some_iff.mp h
    simp [hf]
  | _ => cases h

/-- What is sent back of a result. -/
def TaskResult.reply : TaskResult → Reply
  | .operation result => .operation result
  | .cleanup result => .cleanup result

/-- A job has ended, and what its program returned is the reply. -/
def Told (s : Store) (o : Origin) (reply : Reply) : Prop :=
  ∃ e ∈ s.executions, e.job.origin = o ∧ e.job ∉ s.engine.pool.running ∧
    ∃ result : TaskResult, e.program = .ret (.ok result) ∧ result.reply = reply

/-- Outcomes in the channel and replies are what programs returned; and whoever runs no more has
    ended, by its program or without an outcome. -/
structure Honest (s : Store) : Prop where
  /-- Outcomes in the channel are what programs returned, -/
  sent : ∀ ev ∈ s.engine.channel, ∀ o reply, ev.reply? = some (o, reply) → Told s o reply
  /-- and so are those that were delivered. -/
  delivered : ∀ o reply, .delivered o reply ∈ s.engine.log → Told s o reply
  /-- Whoever runs no more has returned, or was noted as lost. -/
  ended : ∀ e ∈ s.executions, e.job ∉ s.engine.pool.running →
    (∃ result : TaskResult, e.program = .ret (.ok result)) ∨ .lost e.job.origin ∈ s.engine.log

/-- An execution that does not go on stays. -/
theorem Told.keep {o : Origin} {reply : Reply} (h : Told s o reply)
    (hexecutions : ∀ e ∈ s.executions, e.job ∉ s.engine.pool.running →
      e ∈ s'.executions ∧ e.job ∉ s'.engine.pool.running) : Told s' o reply := by
  obtain ⟨e, he, horigin, hnot, hresult⟩ := h
  obtain ⟨he', hnot'⟩ := hexecutions e he hnot
  exact ⟨e, he', horigin, hnot', hresult⟩

/-- Nothing new is sent or delivered. -/
theorem Honest.keep (h : Honest s) (hchannel : s'.engine.channel = s.engine.channel)
    (hlog : ∀ o reply, .delivered o reply ∈ s'.engine.log → .delivered o reply ∈ s.engine.log)
    (hgrows : s.engine.log <+: s'.engine.log)
    (hexecutions : ∀ e ∈ s.executions, e.job ∉ s.engine.pool.running →
      e ∈ s'.executions ∧ e.job ∉ s'.engine.pool.running)
    (hended : ∀ e ∈ s'.executions, e.job ∉ s'.engine.pool.running →
      e ∈ s.executions ∧ e.job ∉ s.engine.pool.running) : Honest s' where
  sent ev hev o reply hreply := by
    rw [hchannel] at hev
    exact (h.sent ev hev o reply hreply).keep hexecutions
  delivered o reply hmem := (h.delivered o reply (hlog o reply hmem)).keep hexecutions
  ended e he hnot := by
    obtain ⟨he', hnot'⟩ := hended e he hnot
    exact (h.ended e he' hnot').imp id fun hlost => hgrows.subset hlost

/-- No job starts or ends. -/
theorem Honest.of_still (h : Honest s) {e : Engine} (hstill : Still fates s.engine e) :
    Honest { s with engine := e } := by
  have hkeep {o : Origin} {reply : Reply} (ht : Told s o reply) :
      Told { s with engine := e } o reply :=
    ht.keep fun f hf hnot => ⟨hf, by rwa [hstill.running]⟩
  obtain ⟨entries, hlog, hentries⟩ := hstill.log
  constructor
  · intro ev hev o reply hreply
    have hold := hstill.channel ev hev (CoordinatorEvent.outcome?_of_reply hreply)
    exact hkeep (h.sent ev hold o reply hreply)
  · intro o reply hmem
    have hmem : .delivered o reply ∈ e.log := hmem
    rw [hlog] at hmem
    rcases List.mem_append.mp hmem with hmem | hmem
    · exact hkeep (h.delivered o reply hmem)
    · cases hentries _ hmem with
      | delivered key f hdue => exact hkeep (h.sent _ hdue _ _ rfl)
      | cleaned done hdue => exact hkeep (h.sent _ hdue _ _ rfl)
  · intro f hf hnot
    have hold : f.job ∉ s.engine.pool.running := by rwa [← hstill.running]
    refine (h.ended f hf hold).imp id fun hlost => ?_
    show _ ∈ e.log
    rw [hlog]
    exact List.mem_append_left _ hlost

/-- A running job goes on. -/
theorem Honest.advance (h : Honest s) {front back : List Execution} {e f : Execution}
    (hexecutions : s.executions = front ++ e :: back) (hrunning : e.job ∈ s.engine.pool.running)
    (hjob : f.job = e.job) (d : Disk) : Honest ⟨s.engine, d, front ++ f :: back⟩ := by
  refine h.keep rfl (fun o reply hmem => hmem) (List.prefix_refl _) (fun g hg hnot => ⟨?_, hnot⟩)
    fun g hg hnot => ⟨?_, hnot⟩
  · rw [hexecutions] at hg
    rcases List.mem_append.mp hg with hg | hg
    · exact List.mem_append_left _ hg
    · rcases List.mem_cons.mp hg with rfl | hg
      · exact absurd hrunning hnot
      · exact List.mem_append_right _ (List.mem_cons_of_mem _ hg)
  · rw [hexecutions]
    rcases List.mem_append.mp hg with hg | hg
    · exact List.mem_append_left _ hg
    · rcases List.mem_cons.mp hg with rfl | hg
      · rw [hjob] at hnot
        exact absurd hrunning hnot
      · exact List.mem_append_right _ (List.mem_cons_of_mem _ hg)

/-- A job starts. -/
theorem Honest.start (h : Honest s) (hknown : Known config s) {job : WorkerJob}
    {rest : List WorkerJob} (hfresh : job.origin ∉ executed s.engine.log) (e : Execution)
    (he : e.job = job) :
    Honest ⟨s.engine.startJob job rest, s.disk, s.executions ++ [e]⟩ := by
  refine h.keep rfl (fun o reply hmem => ?_) (List.prefix_append _ _) (fun f hf hnot => ?_)
    fun f hf hnot => ?_
  · rcases List.mem_append.mp hmem with hmem | hmem
    · exact hmem
    · exact absurd hmem (by simp)
  · refine ⟨List.mem_append_left _ hf, fun hmem => ?_⟩
    rcases List.mem_append.mp hmem with hmem | hmem
    · exact hnot hmem
    · apply hfresh
      rw [← hknown.recorded, ← List.mem_singleton.mp hmem]
      exact List.mem_map_of_mem (f := fun e => e.job.origin) hf
  · have hnot : f.job ∉ s.engine.pool.running ++ [job] := hnot
    rcases List.mem_append.mp hf with hf | hf
    · exact ⟨hf, fun hmem => hnot (List.mem_append_left _ hmem)⟩
    · refine absurd (List.mem_append_right _ ?_) hnot
      rw [List.mem_singleton.mp hf, he]
      exact List.mem_singleton.mpr rfl

/-- A job that ends without an outcome is noted as lost. -/
theorem Concludes.ended {job : WorkerJob} {ev : CoordinatorEvent} {entries : List Observation}
    {outcome : Except Abort TaskResult} (h : Concludes job outcome ev entries) :
    (∃ result, outcome = .ok result) ∨ .lost job.origin ∈ entries := by
  cases h with
  | operation keyHash op result kinds => exact Or.inl ⟨_, rfl⟩
  | maintenance sub result => exact Or.inl ⟨_, rfl⟩
  | operationPanic keyHash op abort => exact Or.inr List.mem_cons_self
  | maintenancePanic sub abort => exact Or.inr List.mem_cons_self

/-- A job ends. -/
theorem Honest.finishJob (h : Honest s) (hinv : Inv config s.engine)
    {front back : List WorkerJob} {job : WorkerJob} {ev : CoordinatorEvent}
    {entries : List Observation} {outcome : Except Abort TaskResult}
    (hrunning : s.engine.pool.running = front ++ job :: back)
    (hend : Concludes job outcome ev entries)
    (hret : outcome = .error .panic ∨
      ∀ e ∈ s.executions, e.job = job → e.program = .ret outcome)
    (hmem : ∃ e ∈ s.executions, e.job = job) :
    Honest { s with engine := s.engine.finishJob front back ev entries } := by
  have hsub : ∀ j ∈ front ++ back, j ∈ s.engine.pool.running := by
    rw [hrunning]
    exact ((List.sublist_cons_self _ _).append_left front).subset
  have hgone : job ∉ front ++ back := by
    have hpair := (List.pairwise_append.mp (jobs_disjoint hinv)).2.1
    rw [hrunning] at hpair
    intro hmem
    obtain ⟨-, hcons, hcross⟩ := List.pairwise_append.mp hpair
    rcases List.mem_append.mp hmem with hmem | hmem
    · exact WorkerJob.Disjoint.irrefl (hcross job hmem job List.mem_cons_self)
    · exact WorkerJob.Disjoint.irrefl ((List.pairwise_cons.mp hcons).1 job hmem)
  have hkeep {o : Origin} {reply : Reply} (ht : Told s o reply) :
      Told { s with engine := s.engine.finishJob front back ev entries } o reply :=
    ht.keep fun f hf hnot => ⟨hf, fun hmem => hnot (hsub _ hmem)⟩
  constructor
  · intro ev' hev' o reply hreply
    rcases List.mem_append.mp hev' with hev' | hev'
    · exact hkeep (h.sent ev' hev' o reply hreply)
    · rw [List.mem_singleton.mp hev'] at hreply
      -- the reply is what the program of the job returned
      have htold {result : TaskResult} (houtcome : outcome = .ok result) :
          Told { s with engine := s.engine.finishJob front back ev entries } job.origin
            result.reply := by
        subst houtcome
        obtain ⟨e, he, rfl⟩ := hmem
        rcases hret with hpanic | hret
        · cases hpanic
        · exact ⟨e, he, rfl, hgone, result, hret e he rfl, rfl⟩
      cases hend with
      | operation keyHash op result kinds =>
        obtain ⟨rfl, rfl⟩ := Prod.mk.inj (Option.some.inj hreply)
        exact htold rfl
      | maintenance sub result =>
        obtain ⟨rfl, rfl⟩ := Prod.mk.inj (Option.some.inj hreply)
        exact htold rfl
      | operationPanic keyHash op abort => cases hreply
      | maintenancePanic sub abort => cases hreply
  · intro o reply hmem
    rcases List.mem_append.mp hmem with hmem | hmem
    · exact hkeep (h.delivered o reply hmem)
    · rcases hend.jobEnd.entries with ⟨rfl, -⟩ | ⟨rfl, -⟩
      · exact absurd hmem List.not_mem_nil
      · exact absurd hmem (by simp)
  · intro e he hnot
    by_cases hjob : e.job = job
    · rcases hend.ended with ⟨result, rfl⟩ | hlost
      · rcases hret with hpanic | hret
        · cases hpanic
        · exact Or.inl ⟨result, hret e he hjob⟩
      · rw [hjob]
        exact Or.inr (List.mem_append_right _ hlost)
    · have hold : e.job ∉ s.engine.pool.running := by
        rw [hrunning]
        intro hmem
        rcases List.mem_append.mp hmem with hmem | hmem
        · exact hnot (List.mem_append_left _ hmem)
        · rcases List.mem_cons.mp hmem with hmem | hmem
          · exact hjob hmem
          · exact hnot (List.mem_append_right _ hmem)
      exact (h.ended e he hold).imp id fun hlost => List.mem_append_left _ hlost

/-- **Every reply is what the program of its job returned.** -/
theorem honest_reachable
    (h : (storeSystem crc32c config platform fates fault panics disk).Reachable s) : Honest s := by
  refine System.Reachable.invariant ?_ ?_ h
  · rintro s rfl
    constructor
    · exact fun ev hev => absurd hev List.not_mem_nil
    · exact fun o reply hmem => absurd hmem List.not_mem_nil
    · exact fun e he => absurd he List.not_mem_nil
  · intro s s' hreach hhonest hstep
    obtain ⟨hinv, hs⟩ := inv_reachable (reachable_engine hreach)
    have hknown := known_reachable hreach
    cases hstep with
    | engine hstep hsame => exact hhonest.of_still (still_of_running hs hstep hsame)
    | start job rest hjobs hthread =>
      refine hhonest.start hknown (not_executed_of_waiting hinv hs ?_) _ rfl
      rw [hjobs]
      exact List.mem_cons_self
    | call front back e c k r w hexecutions hrunning hcall henv =>
      exact hhonest.advance (f := { e with program := k r, world := w }) hexecutions hrunning rfl _
    | turn front back e body x k hexecutions hrunning hloop =>
      exact hhonest.advance (f := { e with program := (body x).bind (Prog.unroll body k) })
        hexecutions hrunning rfl _
    | finish front back e outcome ev entries hexecution hrunning hret hend =>
      refine hhonest.finishJob hinv hrunning hend (Or.inr fun e' he' hjob => ?_) ⟨e, hexecution, rfl⟩
      rw [hknown.eq_of_origin hinv hs he' hexecution (congrArg WorkerJob.origin hjob)]
      exact hret
    | panic front back job ev entries hpanics hrunning hend =>
      refine hhonest.finishJob hinv hrunning hend (Or.inl rfl) (hknown.running job ?_)
      rw [hrunning]
      simp

/-! ## Undisturbed jobs

  To give a concrete run of the store, one runs the engine and the jobs separately. -/

/-- Callers and the coordinator go on as they do without the directory. -/
theorem store_engine {e e' : Engine} {d : Disk} {executions : List Execution}
    (h : (storeSystem crc32c config platform fates fault panics disk).Reachable ⟨e, d, executions⟩)
    (hstep : Step config fates e e') (hsame : e'.pool.running = e.pool.running) :
    (storeSystem crc32c config platform fates fault panics disk).Reachable ⟨e', d, executions⟩ :=
  h.step (.engine hstep hsame)

/-- The coordinator handles its next event. -/
theorem store_event {e : Engine} {d : Disk} {executions : List Execution}
    (h : (storeSystem crc32c config platform fates fault panics disk).Reachable ⟨e, d, executions⟩)
    (ev : CoordinatorEvent) (rest : List CoordinatorEvent) (hphase : e.phase = .running)
    (hchannel : e.channel = ev :: rest) :
    (storeSystem crc32c config platform fates fault panics disk).Reachable
      ⟨onEvent config fates ev { e with channel := rest }, d, executions⟩ := by
  have hrecords : Records fates [ev] { e with channel := rest }
      (onEvent config fates ev { e with channel := rest }) :=
    onEvent_records ev (inv_reachable (reachable_engine h)).2.delivered
  exact store_engine h (.event ev rest hphase hchannel) hrecords.running

/-- A running job can go on undisturbed: what its program does alone, it does in the store. -/
theorem store_run {n : Nat} {p q : Prog FsInterface (Except Abort TaskResult)} {w v : JobWorld}
    (hrun : Run (Fs fault) n p w q v) {e : Engine} {front back : List Execution} {job : WorkerJob}
    {before : Disk} (hrunning : job ∈ e.pool.running)
    (h : (storeSystem crc32c config platform fates fault panics disk).Reachable
      ⟨e, w.disk, front ++ ⟨job, before, p, w⟩ :: back⟩) :
    (storeSystem crc32c config platform fates fault panics disk).Reachable
      ⟨e, v.disk, front ++ ⟨job, before, q, v⟩ :: back⟩ := by
  induction hrun with
  | nil => exact h
  | @cons n p p' q w w' v hstep _ ih =>
    cases hstep with
    | @call c k _ _ r henv =>
      exact ih (h.step (.call front back ⟨job, before, .call c k, w⟩ c k r w' rfl hrunning rfl henv))
    | @loop σ β body x k _ =>
      exact ih (h.step (.turn front back ⟨job, before, .loop body x k, w⟩ body x k rfl hrunning rfl))

/-- A job that waits can start, and come to the end that its program has alone. -/
theorem store_executes {job : WorkerJob} {rest : List WorkerJob}
    (h : (storeSystem crc32c config platform fates fault panics disk).Reachable s)
    (hjobs : s.engine.pool.jobs = job :: rest)
    (hthread : s.engine.pool.running.length < s.engine.pool.handles)
    {outcome : Except Abort TaskResult} {w : JobWorld}
    (hreturns : Returns (Fs fault) (job.program crc32c config platform) (.start s.disk) outcome w) :
    (storeSystem crc32c config platform fates fault panics disk).Reachable
      ⟨s.engine.startJob job rest, w.disk, s.executions ++ [⟨job, s.disk, .ret outcome, w⟩]⟩ := by
  obtain ⟨n, hrun⟩ := hreturns
  refine store_run hrun ?_ (h.step (.start job rest hjobs hthread))
  show job ∈ s.engine.pool.running ++ [job]
  simp

end AtomicBlobStore
