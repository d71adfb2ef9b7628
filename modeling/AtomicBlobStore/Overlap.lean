/-
  OVERLAP: jobs that run at the same time do not race.

  `Isolation` looks back at what a job has done; here are two jobs that can both go on now.

  1. **One job goes on** (`Proceeds`) — a call on the shared directory, or one turn of a loop, and
     the directory that it leaves.  It is a step of the store (`Proceeds.step`).

  2. **After another** (`Proceeds.after`) — where a job goes on first, the other can still do what it
     could have done before, with the same answer, and comes to the same.

  3. **`overlap_commutes`** — so two jobs can go on in either order, and the directory is the same:
     what a store does to its files never depends on how the threads are scheduled against each
     other.

  4. **`replies_alone`** — every reply is what the job comes to when it is run alone, in the directory
     that the job before it on its key had left.

  Commuting steps are what one would need to reorder a run until its jobs do not overlap at all.
  Stated for single steps it is stronger than a statement about results, since it also covers runs
  that are stopped, or in which somebody panics.
-/
import AtomicBlobStore.Refinement

namespace AtomicBlobStore

/-! ## Directories -/

/-- A path that is no directory is left as it is. -/
theorem Disk.set_of_not_directory {disk : Disk} (h : disk.isDirectory = false) (name : FileName)
    (node : Option Node) : disk.set name node = disk := by
  cases disk with
  | directory entries => cases h
  | missing => rfl
  | notDirectory => rfl

theorem Disk.move_of_not_directory {disk : Disk} (h : disk.isDirectory = false)
    (source destination : FileName) : disk.move source destination = disk := by
  unfold Disk.move
  rw [Disk.set_of_not_directory h, Disk.set_of_not_directory h]

/-- A directory is its entries. -/
theorem Disk.ext_entry {d d' : Disk} (h : d.isDirectory = true) (h' : d'.isDirectory = true)
    (hentry : ∀ name, d'.entry name = d.entry name) : d' = d := by
  cases d with
  | missing => cases h
  | notDirectory => cases h
  | directory entries =>
    cases d' with
    | missing => cases h'
    | notDirectory => cases h'
    | directory entries' => exact congrArg Disk.directory (funext hentry)

section Call

variable {fault : FsCall → IoError → Prop} {w w' : JobWorld}

/-- What a move may do to a directory, -/
theorem disk_of_moves {c : FsCall} {source destination : FileName} {r : Except IoError Unit}
    (h : w.disk.isDirectory = false) (henv : Moves fault c source destination w r w') :
    w'.disk = w.disk := by
  cases r with
  | ok u =>
    obtain ⟨node, -, -, rfl⟩ := henv
    exact Disk.move_of_not_directory h source destination
  | error e =>
    obtain ⟨rfl, -⟩ := henv
    rfl

/-- and what a removal may do. -/
theorem disk_of_removes {c : FsCall} {name : FileName} {r : Except IoError Unit}
    (h : w.disk.isDirectory = false) (henv : Removes fault c name w r w') : w'.disk = w.disk := by
  cases r with
  | ok u =>
    obtain ⟨-, rfl⟩ := henv
    exact Disk.set_of_not_directory h name none
  | error e =>
    obtain ⟨rfl, -⟩ := henv
    rfl

/-- Where there is no directory, a call changes nothing. -/
theorem disk_of_not_directory {c : FsCall} {r : c.Answer} (h : w.disk.isDirectory = false)
    (henv : Fs fault c w r w') : w'.disk = w.disk := by
  -- setting an entry of a directory that is not there does nothing
  have hset (name : FileName) (node : Option Node) : w.disk.set name node = w.disk :=
    Disk.set_of_not_directory h name node
  cases c with
  | recv => exact field_eq JobWorld.disk (henv : w' = _) rfl
  | send chunk =>
    have henv : w' = if r then _ else _ := henv
    rw [henv]
    split <;> rfl
  | recvAcknowledgement =>
    have henv : w' = if r then _ else _ := henv
    rw [henv]
    split <;> rfl
  | openAtomic path =>
    cases r with
    | ok u => exact field_eq JobWorld.disk henv.2 rfl
    | error e => exact field_eq JobWorld.disk henv.1 rfl
  | writeAtomic bytes =>
    obtain ⟨path, content, -, henv⟩ := henv
    cases r with
    | ok u => exact field_eq JobWorld.disk henv rfl
    | error e =>
      obtain ⟨-, content', henv⟩ := henv
      exact field_eq JobWorld.disk henv rfl
  | commit =>
    obtain ⟨path, content, hwriter, henv⟩ := henv
    cases r with
    | ok u => exact (field_eq JobWorld.disk henv.2 rfl).trans (hset path _)
    | error e =>
      rcases henv.2 with henv | ⟨-, henv⟩
      · exact field_eq JobWorld.disk henv rfl
      · exact (field_eq JobWorld.disk henv rfl).trans (hset path _)
  | removeFile path => exact disk_of_removes h henv
  | deleteFile path => exact disk_of_removes h henv
  | renameNoReplace source destination => exact disk_of_moves h henv
  | moveFile source destination => exact disk_of_moves h henv
  | createNew path =>
    cases r with
    | ok u => exact (field_eq JobWorld.disk henv.2.2 rfl).trans (hset path _)
    | error e => exact field_eq JobWorld.disk henv.1 rfl
  | writeFile path bytes =>
    obtain ⟨content, -, henv⟩ := henv
    cases r with
    | ok u => exact (field_eq JobWorld.disk henv rfl).trans (hset path _)
    | error e =>
      obtain ⟨-, content', henv⟩ := henv
      exact (field_eq JobWorld.disk henv rfl).trans (hset path _)
  | moveSaveFile source destination replace =>
    have hmove := Disk.move_of_not_directory h source destination
    cases r with
    | ok u =>
      obtain ⟨node, -, -, henv⟩ := henv
      exact (field_eq JobWorld.disk henv rfl).trans hmove
    | error e =>
      rcases henv with ⟨henv, -⟩ | ⟨-, henv | ⟨node, -, henv⟩⟩
      · exact field_eq JobWorld.disk henv rfl
      · exact field_eq JobWorld.disk henv rfl
      · exact (field_eq JobWorld.disk henv rfl).trans hmove
  | now => exact field_eq JobWorld.disk (henv : w' = w) rfl
  | _ => exact field_eq JobWorld.disk henv.1 rfl

end Call

/-! ## One job goes on

  Going on is described without the store around the job, in order to be used for one job after
  another. -/

/-- A job sees what it touches. -/
theorem touches_sees {job : WorkerJob} {name : FileName} (h : job.Touches name) : job.Sees name := by
  cases job with
  | operation key op => exact h
  | maintenance sub => trivial

/-- An execution goes on in a directory: with a call, or round a loop. -/
inductive Proceeds (fault : FsCall → IoError → Prop) (d : Disk) (e : Execution) :
    Execution → Disk → Prop
  /-- A call is answered. -/
  | call (c : FsCall) (k : c.Answer → Prog FsInterface (Except Abort TaskResult)) (r : c.Answer)
      (w : JobWorld) (hcall : e.program = .call c k) (henv : Fs fault c { e.world with disk := d } r w) :
      Proceeds fault d e { e with program := k r, world := w } w.disk
  /-- A turn of a loop begins. -/
  | turn {σ β : Type} (body : σ → Prog FsInterface (σ ⊕ β)) (x : σ)
      (k : β → Prog FsInterface (Except Abort TaskResult)) (hloop : e.program = .loop body x k) :
      Proceeds fault d e { e with program := (body x).bind (Prog.unroll body k) } d

/-- Two executions of a job that have come equally far, and differ only in what the job cannot see. -/
structure Execution.Like (e e' : Execution) : Prop where
  /-- They are of one job, -/
  job : e'.job = e.job
  /-- which found one directory, -/
  before : e'.before = e.before
  /-- have the same left to do, -/
  program : e'.program = e.program
  /-- and have seen the same. -/
  world : Akin e.job.Sees e.world e'.world

section Overlapping

variable {crc32c : Crc32c} {config : StoreConfig} {platform : Platform} {fates : Nat → Fate}
  {fault : FsCall → IoError → Prop} {panics : Prop} {disk : Disk} {s : Store}

/-- Going on is a step of the store. -/
theorem Proceeds.step {front back : List Execution} {e e' : Execution} {g : Engine} {d d' : Disk}
    (h : Proceeds fault d e e' d') (hrunning : e.job ∈ g.pool.running) :
    StoreStep crc32c config platform fates fault panics ⟨g, d, front ++ e :: back⟩
      ⟨g, d', front ++ e' :: back⟩ := by
  cases h with
  | call c k r w hcall henv => exact .call front back e c k r w rfl hrunning hcall henv
  | turn body x k hloop => exact .turn front back e body x k rfl hrunning hloop

section Pair

variable {e e' f f' : Execution} {d d' d₁ d₂ : Disk}

/-- What a job that goes on does not touch stays; and so does a path that is no directory. -/
theorem Proceeds.frame (h : Proceeds fault d e e' d') (hknown : Known config s)
    (he : e ∈ s.executions) : d'.isDirectory = d.isDirectory ∧
      (∀ name, ¬e.job.Touches name → d'.entry name = d.entry name) ∧
      (d.isDirectory = false → d' = d) := by
  cases h with
  | turn body x k hloop => exact ⟨rfl, fun name _ => rfl, fun _ => rfl⟩
  | call c k r w hcall henv =>
    have hasks := hknown.asks e he
    rw [hcall] at hasks
    cases hasks with
    | call hc hk =>
      obtain ⟨hdirectory, hentry⟩ := fs_framed henv
      refine ⟨hdirectory, fun name hname => hentry name fun hchanges => ?_, fun hnot => ?_⟩
      · exact hname (touches_asks (w := { e.world with disk := d }) hc (hknown.writer e he) hchanges)
      · exact disk_of_not_directory (w := { e.world with disk := d }) hnot henv

/-- **A job can go on in any directory that it cannot tell from this one**, and comes to the same. -/
theorem Proceeds.after (h : Proceeds fault d e e' d') (hknown : Known config s)
    (he : e ∈ s.executions) (hsame : SameOn e.job.Sees d d₁) : ∃ e'' d'',
      Proceeds fault d₁ e e'' d'' ∧ e'.Like e'' ∧ SameOn e.job.Sees d' d'' := by
  cases h with
  | turn body x k hloop =>
    exact ⟨_, d₁, .turn body x k hloop, ⟨rfl, rfl, rfl, sameOn_refl, rfl⟩, hsame⟩
  | call c k r w hcall henv =>
    have hwriter : ∀ name content, e.world.writer = some (name, content) → e.job.Sees name := by
      intro name content hopen
      cases hjob : e.job with
      | maintenance sub => exact trivial
      | operation key op =>
        have hname := hknown.writer e he key (by rw [hjob]; rfl) name content hopen
        exact hname ▸ owns_blobFilename config.format key
    have hasks := hknown.asks e he
    rw [hcall] at hasks
    cases hasks with
    | call hc hk =>
      obtain ⟨d'', henv', hsame'⟩ := fs_sameOn (w := { e.world with disk := d }) (P := e.job.Sees)
        (d := d₁) (within_asks hc) hwriter hsame henv
      exact ⟨_, d'', .call c k r { w with disk := d'' } hcall henv', ⟨rfl, rfl, rfl, hsame', rfl⟩, hsame'⟩

/-- **Jobs that run at the same time can go on in either order.**  What each is answered and where it
    comes to does not depend on the other, and the directory is the same in the end. -/
theorem Known.commutes (hknown : Known config s) (he : e ∈ s.executions) (hf : f ∈ s.executions)
    (hdisjoint : e.job.Disjoint f.job) (h₁ : Proceeds fault s.disk e e' d₁)
    (h₂ : Proceeds fault s.disk f f' d₂) : ∃ f'' e'' d,
      Proceeds fault d₁ f f'' d ∧ Proceeds fault d₂ e e'' d ∧ f'.Like f'' ∧ e'.Like e'' := by
  obtain ⟨hdirectory₁, hentry₁, hnot₁⟩ := h₁.frame hknown he
  obtain ⟨hdirectory₂, hentry₂, hnot₂⟩ := h₂.frame hknown hf
  -- what either does the other cannot tell
  have hsame₁ : SameOn f.job.Sees s.disk d₁ :=
    ⟨hdirectory₁, fun name hname => hentry₁ name fun ht => hdisjoint.untouched ht hname⟩
  have hsame₂ : SameOn e.job.Sees s.disk d₂ :=
    ⟨hdirectory₂, fun name hname => hentry₂ name fun ht => hdisjoint.symm.untouched ht hname⟩
  obtain ⟨f'', d, hf'', hlike, hsees⟩ := h₂.after hknown hf hsame₁
  obtain ⟨e'', d', he'', hlike', hsees'⟩ := h₁.after hknown he hsame₂
  obtain ⟨hdirectory, hentry, hnot⟩ := hf''.frame hknown hf
  obtain ⟨hdirectory', hentry', hnot'⟩ := he''.frame hknown he
  -- the two directories are one
  have heq : d' = d := by
    cases his : s.disk.isDirectory with
    | false =>
      have hfirst := hnot₁ his
      have hsecond := hnot₂ his
      rw [hnot (by rw [hdirectory₁, his]), hnot' (by rw [hdirectory₂, his]), hfirst, hsecond]
    | true =>
      apply Disk.ext_entry
      · rw [hdirectory, hdirectory₁, his]
      · rw [hdirectory', hdirectory₂, his]
      · intro name
        by_cases htouches : f.job.Touches name
        · have hunseen : ¬e.job.Touches name := fun ht => hdisjoint.untouched ht (touches_sees htouches)
          rw [hentry' name hunseen, hsees.entry name (touches_sees htouches)]
        · rw [hentry name htouches]
          by_cases htouches' : e.job.Touches name
          · exact hsees'.entry name (touches_sees htouches')
          · rw [hentry' name htouches', hentry₁ name htouches', hentry₂ name htouches]
  rw [heq] at he''
  exact ⟨f'', e'', d, hf'', he'', hlike, hlike'⟩

end Pair

/-- **No races.**  Take two jobs that run at the same time, in any store that can be reached, whatever
    fails and whoever panics: if each can go on, they can do so in either order, each to the same
    answer as if the other were not there, and both orders leave the same directory. -/
theorem overlap_commutes
    (h : (storeSystem crc32c config platform fates fault panics disk).Reachable s)
    {front middle back : List Execution} {e e' f f' : Execution} {d₁ d₂ : Disk}
    (hexecutions : s.executions = front ++ e :: (middle ++ f :: back))
    (hrun : e.job ∈ s.engine.pool.running) (hrun' : f.job ∈ s.engine.pool.running)
    (h₁ : Proceeds fault s.disk e e' d₁) (h₂ : Proceeds fault s.disk f f' d₂) :
    ∃ f'' e'' d, f'.Like f'' ∧ e'.Like e'' ∧
      StoreStep crc32c config platform fates fault panics
        ⟨s.engine, d₁, front ++ e' :: (middle ++ f :: back)⟩
        ⟨s.engine, d, front ++ e' :: (middle ++ f'' :: back)⟩ ∧
      StoreStep crc32c config platform fates fault panics
        ⟨s.engine, d₂, front ++ e :: (middle ++ f' :: back)⟩
        ⟨s.engine, d, front ++ e'' :: (middle ++ f' :: back)⟩ := by
  have hknown := known_reachable h
  have he : e ∈ s.executions := by rw [hexecutions]; simp
  have hf : f ∈ s.executions := by rw [hexecutions]; simp
  have hdisjoint := hknown.last front e _ hexecutions hrun f (by simp)
  obtain ⟨f'', e'', d, hf'', he'', hlike, hlike'⟩ := hknown.commutes he hf hdisjoint h₁ h₂
  refine ⟨f'', e'', d, hlike, hlike', ?_, he''.step hrun⟩
  have hstep : StoreStep crc32c config platform fates fault panics
      ⟨s.engine, d₁, (front ++ e' :: middle) ++ f :: back⟩
      ⟨s.engine, d, (front ++ e' :: middle) ++ f'' :: back⟩ := hf''.step hrun'
  simpa only [List.append_assoc, List.cons_append] using hstep

end Overlapping

/-! ## Two jobs -/

section Sample

/-- Two jobs at a time. -/
def pairConfig : StoreConfig :=
  { sampleConfig with maxConcurrentOperations := 2, concurrency_pos := Nat.two_pos }

/-- Another key. -/
def pairKey : KeyHash := Vector.replicate 32 1

/-- A save and a load were called, on different keys, and their events were handled. -/
def pairBusy : Engine :=
  let called := submit (.submission ⟨pairKey, .load 1⟩)
    (submit (.submission ⟨sampleKey, sampleSave⟩) (.initial pairConfig))
  let first := onEvent pairConfig sampleFates (.submission ⟨sampleKey, sampleSave⟩)
    { called with channel := [.submission ⟨pairKey, .load 1⟩] }
  onEvent pairConfig sampleFates (.submission ⟨pairKey, .load 1⟩) { first with channel := [] }

/-- Both run, and neither has made a call. -/
def pairRunning : Store where
  engine := (pairBusy.startJob (.operation sampleKey sampleSave) [.operation pairKey (.load 1)]).startJob
    (.operation pairKey (.load 1)) []
  disk := .directory fun _ => none
  executions := [
    .begin crc32cReference pairConfig .unix (.operation sampleKey sampleSave) (.directory fun _ => none),
    .begin crc32cReference pairConfig .unix (.operation pairKey (.load 1)) (.directory fun _ => none)]

theorem pairBusy_reachable : (storeSystem crc32cReference pairConfig .unix sampleFates Faultless
    False (.directory fun _ => none)).Reachable ⟨pairBusy, .directory fun _ => none, []⟩ := by
  have hinit : (storeSystem crc32cReference pairConfig .unix sampleFates Faultless False
      (.directory fun _ => none)).Reachable ⟨.initial pairConfig, .directory fun _ => none, []⟩ :=
    .init rfl
  have hcalls := store_engine (store_engine hinit
    (.submit (.submission ⟨sampleKey, sampleSave⟩) (by decide) rfl rfl (by decide)) rfl)
    (.submit (.submission ⟨pairKey, .load 1⟩) (by decide) rfl rfl (by decide)) rfl
  exact store_event (store_event hcalls (.submission ⟨sampleKey, sampleSave⟩)
    [.submission ⟨pairKey, .load 1⟩] rfl rfl) (.submission ⟨pairKey, .load 1⟩) [] rfl rfl

theorem pairRunning_reachable : (storeSystem crc32cReference pairConfig .unix sampleFates Faultless
    False (.directory fun _ => none)).Reachable pairRunning := by
  have hfirst := pairBusy_reachable.step (.start (.operation sampleKey sampleSave)
    [.operation pairKey (.load 1)] rfl (by decide))
  exact hfirst.step (.start (.operation pairKey (.load 1)) [] rfl (by decide))

/-- A save on Unix that has written its envelope: the commit is all that is left. -/
theorem Unix.saves_up_to_commit (crc32c : Crc32c) (config : StoreConfig) (key : KeyHash) (disk : Disk)
    (payload : List UInt8) (sender : Ticket) (hfits : payload.length ≤ config.maximum)
    (hdirectory : disk.isDirectory = true) :
    ∃ n k content, Run (Fs Faultless) n
      ((WorkerJob.operation key (.save payload sender)).program crc32c config .unix) (.start disk)
      (.call (I := FsInterface) .commit k)
      { JobWorld.start disk with writer := some (blobFilename config.format key, content) } := by
  have hopen : Fs Faultless (.openAtomic (blobFilename config.format key)) (.start disk) (.ok ())
      { JobWorld.start disk with writer := some (blobFilename config.format key, []) } :=
    ⟨hdirectory, rfl⟩
  have hwrite (content bytes : List UInt8) : Fs Faultless (.writeAtomic bytes)
      { JobWorld.start disk with writer := some (blobFilename config.format key, content) } (.ok ())
      { JobWorld.start disk with writer := some (blobFilename config.format key, content ++ bytes) } :=
    ⟨_, content, rfl, rfl⟩
  show ∃ n k content, Run (Fs Faultless) n
    (TaskResult.operation <$> BlockingResult.save <$> (Unix.saveBlob crc32c config
      (blobFilename config.format key) payload).result : FsM TaskResult).run _ _ _
  unfold Unix.saveBlob
  rw [envelopeParts_eq crc32c config hfits]
  exact ⟨_, _, _, .cons (.call hopen) (.cons (.call (hwrite [] _)) (.cons (.call (hwrite _ _))
    (.cons (.call (hwrite _ _)) .nil)))⟩

/-- The load of the sample, which has not looked yet. -/
def pairLoad : Execution :=
  .begin crc32cReference pairConfig .unix (.operation pairKey (.load 1)) (.directory fun _ => none)

/-- The theorem where the save commits and the load finds no file: `d₁` has the blob of the save, and
    when the load has looked, before or after, the directory is the same. -/
theorem overlap_commutes_sample : ∃ (e e' f' f'' e'' : Execution) (d₁ d : Disk),
    d₁.entry (blobFilename testFormat sampleKey) ≠ none ∧ f'.Like f'' ∧ e'.Like e'' ∧
    StoreStep crc32cReference pairConfig .unix sampleFates Faultless False
      ⟨pairRunning.engine, d₁, [e', pairLoad]⟩ ⟨pairRunning.engine, d, [e', f'']⟩ ∧
    StoreStep crc32cReference pairConfig .unix sampleFates Faultless False
      ⟨pairRunning.engine, .directory fun _ => none, [e, f']⟩ ⟨pairRunning.engine, d, [e'', f']⟩ := by
  obtain ⟨n, k, content, hrun⟩ := Unix.saves_up_to_commit crc32cReference pairConfig sampleKey
    (.directory fun _ => none) [1, 2] 0 (by decide) rfl
  let e : Execution := ⟨.operation sampleKey sampleSave, .directory fun _ => none, .call .commit k,
    { JobWorld.start (.directory fun _ => none) with
      writer := some (blobFilename testFormat sampleKey, content) }⟩
  have hreach : (storeSystem crc32cReference pairConfig .unix sampleFates Faultless False
      (.directory fun _ => none)).Reachable
      ⟨pairRunning.engine, .directory fun _ => none, [] ++ e :: [pairLoad]⟩ :=
    store_run hrun (by simp [pairRunning, Engine.startJob]) pairRunning_reachable
  have hcommit : Proceeds Faultless (.directory fun _ => none) e _
      ((Disk.directory fun _ => none).set (blobFilename testFormat sampleKey) (some (.file content))) :=
    .call .commit k (.ok ()) _ rfl ⟨_, content, rfl, rfl, rfl⟩
  have habsent : Fs Faultless (.openFile (blobFilename testFormat pairKey))
      (.start (.directory fun _ => none)) (.error ⟨.notFound, 0⟩) (.start (.directory fun _ => none)) := by
    refine ⟨rfl, ?_⟩
    show LookupError Faultless _ _ _ _
    unfold LookupError
    rw [if_pos rfl]
    rfl
  have hload : Proceeds Faultless (.directory fun _ => none) pairLoad _ (.directory fun _ => none) :=
    .call (.openFile (blobFilename testFormat pairKey)) _ (.error ⟨.notFound, 0⟩)
      (.start (.directory fun _ => none)) rfl habsent
  obtain ⟨f'', e'', d, hlike, hlike', hfirst, hsecond⟩ :=
    overlap_commutes hreach (show [] ++ e :: [pairLoad] = [] ++ e :: ([] ++ pairLoad :: []) from rfl)
      (by simp [e, pairRunning, Engine.startJob])
      (by simp [pairLoad, pairRunning, Engine.startJob, Execution.begin]) hcommit hload
  refine ⟨e, _, _, f'', e'', _, d, ?_, hlike, hlike', hfirst, hsecond⟩
  rw [Disk.entry_set_self rfl]
  exact Option.some_ne_none _

end Sample

/-! ## Replies

  A reply can be judged without the others: what the program of its job returns alone is all there is
  to know. -/

section Replies

variable {crc32c : Crc32c} {config : StoreConfig} {platform : Platform} {fates : Nat → Fate}
  {fault : FsCall → IoError → Prop} {panics : Prop} {disk : Disk} {s : Store}

/-- **Every reply is that of a job run alone.**  Whatever overlaps, whatever fails and whoever panics:
    a reply that was delivered is what the program of its job returns when nobody else is about, in a
    directory where everything that is kept for the key of the job is what the job before it on that
    key had left there. -/
theorem replies_alone
    (h : (storeSystem crc32c config platform fates fault panics disk).Reachable s) {o : Origin}
    {reply : Reply} (hdelivered : .delivered o reply ∈ s.engine.log) :
    ∃ e ∈ s.executions, e.job.origin = o ∧
      (∃ result w, Returns (Fs fault) (e.job.program crc32c config platform) (.start e.before)
        (.ok result) w ∧ result.reply = reply ∧ Akin e.job.Sees e.world w) ∧
      ∀ key, e.job.key? = some key → ∃ front back, s.history key = front ++ e :: back ∧
        ∀ name, Kept key name →
          e.before.entry name = front.getLast?.elim (disk.entry name) (Execution.left name) := by
  obtain ⟨hisolated, -⟩ := isolated_current h
  obtain ⟨e, he, horigin, -, result, hret, hreply⟩ := (honest_reachable h).delivered o reply hdelivered
  refine ⟨e, he, horigin, ?_, fun key hkey => ?_⟩
  · obtain ⟨n, w, hrun, hakin⟩ := hisolated.alone e he
    rw [hret] at hrun
    exact ⟨result, w, ⟨n, hrun⟩, hreply, hakin⟩
  · have hin : e ∈ s.history key := List.mem_filter.mpr ⟨he, decide_eq_true hkey⟩
    obtain ⟨front, back, hsplit⟩ := List.append_of_mem hin
    refine ⟨front, back, hsplit, fun name hname => ?_⟩
    have hhanded := hisolated.handed key name hname
    rw [hsplit] at hhanded
    obtain ⟨middle, hfront, hfound, -⟩ := handed_append.mp hhanded
    exact (show e.before.entry name = middle from hfound).trans hfront.now_eq

end Replies

/-- The save of the sample run. -/
theorem replies_alone_sample : ∃ s : Store, s.engine = sampleEnd ∧ ∃ e ∈ s.executions,
    e.job.origin = ⟨some sampleKey, 0⟩ ∧
    (∃ result w, Returns (Fs Faultless) (e.job.program crc32cReference sampleConfig .unix)
      (.start e.before) (.ok result) w ∧ result.reply = .operation (.save (.ok ())) ∧
        Akin e.job.Sees e.world w) ∧
    ∀ key, e.job.key? = some key → ∃ front back, s.history key = front ++ e :: back ∧
      ∀ name, Kept key name → e.before.entry name = front.getLast?.elim none (Execution.left name) := by
  obtain ⟨s, hengine, hreach⟩ := sampleStore_reachable
  refine ⟨s, hengine, replies_alone hreach ?_⟩
  rw [hengine]
  simp [sampleEnd]

end AtomicBlobStore
