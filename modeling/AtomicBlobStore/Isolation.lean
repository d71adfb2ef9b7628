/-
  ISOLATION: every job does on its key what it would have done alone.

  Any number of jobs work on one directory, their calls interleaved; some of the calls fail, some of
  the jobs panic, threads cannot be spawned.  The coordinator keeps the jobs of a key apart, and the
  names of two keys have nothing in common.

  1. **What a call depends on** (`fs_sameOn`) — two directories that agree on the names a call may
     look at are the same to it, and agree on them afterwards.

  2. **Alone** — `Isolated.alone`: the program of each job, run from the directory that the job found
     and with nobody else about, gets the same answers and comes to the same.

  3. **In order** — `Isolated.handed`: under every canonical or diagnostic name of a key, each job of
     the key found what the job before it had left, the first what was there at first, and what is
     there now is what the last one left.  Cleanup removes only staging files.

  `isolated` is all of it, for every store that can be reached.

  The argument is the usual one for disjoint footprints, with two complications.  Jobs of one key do
  follow each other, so what a job finds has to be handed on; and cleanup looks at names of every key,
  so it is kept apart in time and not in space.
-/
import AtomicBlobStore.Lib.KeyedMachine
import AtomicBlobStore.Store

namespace AtomicBlobStore

/-! ## Directories that agree -/

/-- Two directories agree on some names. -/
structure SameOn (P : FileName → Prop) (d d' : Disk) : Prop where
  /-- Both are directories, or neither is. -/
  directory : d'.isDirectory = d.isDirectory
  /-- The names have the same entries. -/
  entry : ∀ name, P name → d'.entry name = d.entry name

/-- The names that decide the answer of a call.  A call with a name looks at the entry of the name; a
    move looks at two. -/
def FsCall.Within (P : FileName → Prop) : FsCall → Prop
  | .symlinkMetadata name => P name
  | .openFile name => P name
  | .openAtomic name => P name
  | .removeFile name => P name
  | .deleteFile name => P name
  | .createNew name => P name
  | .writeFile name _ => P name
  | .openExisting name => P name
  | .renameNoReplace source destination => P source ∧ P destination
  | .moveFile source destination => P source ∧ P destination
  | .moveSaveFile source destination _ => P source ∧ P destination
  | _ => True

theorem Disk.entry_set (disk : Disk) (name n : FileName) (node : Option Node) :
    (disk.set name node).entry n =
      if n = name then (if disk.isDirectory then node else none) else disk.entry n := by
  cases disk with
  | directory entries => rfl
  | missing => exact (ite_self _).symm
  | notDirectory => exact (ite_self _).symm

section Agreeing

variable {P Q : FileName → Prop} {d d' d'' : Disk}

theorem sameOn_refl : SameOn P d d := ⟨rfl, fun _ _ => rfl⟩

theorem SameOn.trans (h : SameOn P d d') (h' : SameOn P d' d'') : SameOn P d d'' where
  directory := h'.directory.trans h.directory
  entry name hname := (h'.entry name hname).trans (h.entry name hname)

/-- A change under one name keeps the agreement, -/
theorem SameOn.set (h : SameOn P d d') (name : FileName) (node : Option Node) :
    SameOn P (d.set name node) (d'.set name node) where
  directory := by rw [Disk.isDirectory_set, Disk.isDirectory_set, h.directory]
  entry n hn := by rw [Disk.entry_set, Disk.entry_set, h.directory, h.entry n hn]

/-- and so does a move between two names that are agreed on. -/
theorem SameOn.move (h : SameOn P d d') {source : FileName} (hsource : P source)
    (destination : FileName) : SameOn P (d.move source destination) (d'.move source destination) := by
  unfold Disk.move
  rw [h.entry source hsource]
  exact (h.set source none).set destination _

variable {fault : FsCall → IoError → Prop}

/-- A lookup fails alike in both. -/
theorem SameOn.lookupError (h : SameOn P d d') {c : FsCall} {name : FileName} (hname : P name)
    {e : IoError} (herror : LookupError fault c d name e) : LookupError fault c d' name e := by
  unfold LookupError at herror ⊢
  rwa [h.entry name hname, h.directory]

end Agreeing

/-! ## One call

  A job in company makes the same calls as alone as long as it gets the same answers.  Whether it does
  is a question about a single call, and it is settled here for all of them. -/

section Call

variable {fault : FsCall → IoError → Prop} {P : FileName → Prop} {w w' : JobWorld} {d : Disk}

/-- A call comes to the same in the other directory. -/
def Matched (fault : FsCall → IoError → Prop) (P : FileName → Prop) (c : FsCall) (d : Disk)
    (w : JobWorld) (r : c.Answer) (w' : JobWorld) : Prop :=
  ∃ d', Fs fault c { w with disk := d } r { w' with disk := d' } ∧ SameOn P w'.disk d'

theorem matched_moves {c : FsCall} {source destination : FileName} {r : Except IoError Unit}
    (hsource : P source) (hdestination : P destination) (hsame : SameOn P w.disk d)
    (henv : Moves fault c source destination w r w') :
    ∃ d', Moves fault c source destination { w with disk := d } r { w' with disk := d' } ∧
      SameOn P w'.disk d' := by
  cases r with
  | ok u =>
    obtain ⟨node, hnode, hvacant, rfl⟩ := henv
    refine ⟨d.move source destination, ⟨node, ?_, ?_, rfl⟩, hsame.move hsource destination⟩
    · exact (hsame.entry source hsource).trans hnode
    · exact (hsame.entry destination hdestination).trans hvacant
  | error e =>
    obtain ⟨rfl, herror⟩ := henv
    refine ⟨d, ⟨rfl, herror.imp (hsame.lookupError hsource) fun h => ⟨h.1, ?_⟩⟩, hsame⟩
    rw [hsame.entry destination hdestination]
    exact h.2

theorem matched_removes {c : FsCall} {name : FileName} {r : Except IoError Unit} (hname : P name)
    (hsame : SameOn P w.disk d) (henv : Removes fault c name w r w') :
    ∃ d', Removes fault c name { w with disk := d } r { w' with disk := d' } ∧
      SameOn P w'.disk d' := by
  cases r with
  | ok u =>
    obtain ⟨hentry, rfl⟩ := henv
    refine ⟨d.set name none, ⟨?_, rfl⟩, hsame.set name none⟩
    rw [hsame.entry name hname]
    exact hentry
  | error e =>
    obtain ⟨rfl, herror⟩ := henv
    exact ⟨d, ⟨rfl, hsame.lookupError hname herror⟩, hsame⟩

/-- A call that does not look at the directory. -/
theorem matched_blind {c : FsCall} {r : c.Answer} (hdisk : w'.disk = w.disk)
    (hsame : SameOn P w.disk d) (henv : Fs fault c { w with disk := d } r { w' with disk := d }) :
    Matched fault P c d w r w' := by
  refine ⟨d, henv, ?_⟩
  rw [hdisk]
  exact hsame

/-- **What a call does depends on the names it looks at, and changes no others.** -/
theorem fs_sameOn {c : FsCall} {r : c.Answer} (hc : c.Within P)
    (hwriter : ∀ name content, w.writer = some (name, content) → P name)
    (hsame : SameOn P w.disk d) (henv : Fs fault c w r w') : Matched fault P c d w r w' := by
  have hdirectory := hsame.directory
  cases c with
  | metadata =>
    -- a call that asks about the directory as a whole
    obtain ⟨rfl, henv⟩ := henv
    refine ⟨d, ⟨rfl, ?_⟩, hsame⟩
    cases r with
    | ok isDirectory => exact hdirectory.trans henv
    | error e =>
      show if e.kind = .notFound then d.isDirectory = false else fault .metadata e
      rw [hdirectory]
      exact henv
  | symlinkMetadata name =>
    -- here the call looks at one entry, on which the two agree
    obtain ⟨rfl, henv⟩ := henv
    refine ⟨d, ⟨rfl, ?_⟩, hsame⟩
    cases r with
    | ok found =>
      simp only [hsame.entry name hc]
      exact henv
    | error e => exact hsame.lookupError hc henv
  | openFile name =>
    obtain ⟨rfl, henv⟩ := henv
    refine ⟨d, ⟨rfl, ?_⟩, hsame⟩
    cases r with
    | ok file =>
      simp only [hsame.entry name hc]
      exact henv
    | error e => exact hsame.lookupError hc henv
  -- calls that do not look at the directory come to the same in both
  | seek file position => exact matched_blind (by rw [henv.1]) hsame ⟨by rw [henv.1], henv.2⟩
  | fill => exact matched_blind (by rw [henv.1]) hsame ⟨by rw [henv.1], henv.2⟩
  | recv =>
    obtain rfl : w' = _ := henv
    exact matched_blind rfl hsame rfl
  | send chunk =>
    cases r with
    | true =>
      obtain rfl : w' = { w with sent := w.sent ++ [chunk] } := henv
      exact matched_blind rfl hsame rfl
    | false =>
      obtain rfl : w' = { w with left := true } := henv
      exact matched_blind rfl hsame rfl
  | recvAcknowledgement =>
    cases r with
    | true =>
      obtain rfl : w' = w := henv
      exact matched_blind rfl hsame rfl
    | false =>
      obtain rfl : w' = { w with left := true } := henv
      exact matched_blind rfl hsame rfl
  | openAtomic name =>
    cases r with
    | ok u =>
      obtain ⟨hdir, rfl⟩ := henv
      exact matched_blind rfl hsame ⟨hdirectory.trans hdir, rfl⟩
    | error e =>
      obtain ⟨rfl, herror⟩ := henv
      exact matched_blind rfl hsame ⟨rfl, herror.imp id hdirectory.trans⟩
  | writeAtomic bytes =>
    obtain ⟨name, content, hopen, henv⟩ := henv
    cases r with
    | ok u =>
      obtain rfl : w' = _ := henv
      exact matched_blind rfl hsame ⟨name, content, hopen, rfl⟩
    | error e =>
      obtain ⟨herror, content', rfl⟩ := henv
      exact matched_blind rfl hsame ⟨name, content, hopen, herror, content', rfl⟩
  | commit =>
    -- the one call of Unix that puts a file in place
    obtain ⟨name, content, hopen, henv⟩ := henv
    have hset := hsame.set name (some (.file content))
    cases r with
    | ok u =>
      obtain ⟨hdir, rfl⟩ := henv
      exact ⟨_, ⟨name, content, hopen, hdirectory.trans hdir, rfl⟩, hset⟩
    | error e =>
      obtain ⟨herror, rfl | ⟨hdir, rfl⟩⟩ := henv
      · exact ⟨d, ⟨name, content, hopen, herror.imp id hdirectory.trans, Or.inl rfl⟩, hsame⟩
      · refine ⟨_, ⟨name, content, hopen, herror.imp id hdirectory.trans, Or.inr ⟨?_, rfl⟩⟩, hset⟩
        exact hdirectory.trans hdir
  | removeFile name => exact matched_removes hc hsame henv
  | deleteFile name => exact matched_removes hc hsame henv
  | openDirectory =>
    obtain ⟨rfl, henv⟩ := henv
    refine ⟨d, ⟨rfl, ?_⟩, hsame⟩
    cases r with
    | ok u => trivial
    | error e => exact henv.imp id hdirectory.trans
  | syncDirectory => exact matched_blind (by rw [henv.1]) hsame ⟨by rw [henv.1], henv.2⟩
  | renameNoReplace source destination => exact matched_moves hc.1 hc.2 hsame henv
  | moveFile source destination => exact matched_moves hc.1 hc.2 hsame henv
  | createNew name =>
    cases r with
    | ok u =>
      obtain ⟨hdir, hvacant, rfl⟩ := henv
      refine ⟨_, ⟨hdirectory.trans hdir, ?_, rfl⟩, hsame.set name _⟩
      exact (hsame.entry name hc).trans hvacant
    | error e =>
      obtain ⟨rfl, herror⟩ := henv
      refine ⟨d, ⟨rfl, herror.imp (fun h => ⟨h.1, ?_⟩) fun h => h.imp id hdirectory.trans⟩, hsame⟩
      rw [hsame.entry name hc]
      exact h.2
  | writeFile name bytes =>
    obtain ⟨content, hentry, henv⟩ := henv
    have hentry' := (hsame.entry name hc).trans hentry
    cases r with
    | ok u =>
      obtain rfl : w' = _ := henv
      exact ⟨_, ⟨content, hentry', rfl⟩, hsame.set name _⟩
    | error e =>
      obtain ⟨herror, content', rfl⟩ := henv
      exact ⟨_, ⟨content, hentry', herror, content', rfl⟩, hsame.set name _⟩
  | flushFile name => exact matched_blind (by rw [henv.1]) hsame ⟨by rw [henv.1], henv.2⟩
  | moveSaveFile source destination replace =>
    have hmove := hsame.move hc.1 destination
    have hentry := hsame.entry source hc.1
    cases r with
    | ok u =>
      obtain ⟨node, hnode, hvacant, rfl⟩ := henv
      refine ⟨_, ⟨node, hentry.trans hnode, fun h => ?_, rfl⟩, hmove⟩
      exact (hsame.entry destination hc.2).trans (hvacant h)
    | error e =>
      rcases henv with ⟨rfl, hreplace, hexists, hpresent⟩ | ⟨herror, rfl | ⟨node, hnode, rfl⟩⟩
      · refine ⟨d, Or.inl ⟨rfl, hreplace, hexists, ?_⟩, hsame⟩
        rw [hsame.entry destination hc.2]
        exact hpresent
      · exact ⟨d, Or.inr ⟨herror, Or.inl rfl⟩, hsame⟩
      · exact ⟨_, Or.inr ⟨herror, Or.inr ⟨node, hentry.trans hnode, rfl⟩⟩, hmove⟩
  | openExisting name =>
    obtain ⟨rfl, henv⟩ := henv
    refine ⟨d, ⟨rfl, ?_⟩, hsame⟩
    cases r with
    | ok u =>
      show d.entry name ≠ none
      rw [hsame.entry name hc]
      exact henv
    | error e => exact hsame.lookupError hc henv
  | sinceEpoch => exact matched_blind (by rw [henv.1]) hsame ⟨by rw [henv.1], henv.2⟩
  | setFileTime name ticks => exact matched_blind (by rw [henv.1]) hsame ⟨by rw [henv.1], henv.2⟩
  | now =>
    obtain rfl : w' = w := henv
    exact matched_blind rfl hsame rfl
  | readDirectory =>
    obtain ⟨rfl, henv⟩ := henv
    refine ⟨d, ⟨rfl, ?_⟩, hsame⟩
    cases r with
    | ok listing => exact hdirectory.trans henv
    | error e => exact henv.imp id hdirectory.trans

end Call

/-! ## What a job sees and what it touches

  A job on a key looks at the names of this key, and cleanup looks at the names it recognises.  The
  names that both could be interested in are staging files, and maintenance has the store to itself. -/

/-- The names that decide what happens to a job. -/
def WorkerJob.Sees : WorkerJob → FileName → Prop
  | .operation key _, name => Owns key name
  | .maintenance _, _ => True

/-- The names whose entries a job may change. -/
def WorkerJob.Touches : WorkerJob → FileName → Prop
  | .operation key _, name => Owns key name
  | .maintenance _, name => 4 ≤ dots name

/-- A job asks about what it sees, -/
theorem within_asks {format : BlobFormatIdentity} {job : WorkerJob} {c : FsCall}
    (hc : job.Asks format c) : c.Within job.Sees := by
  cases job with
  | maintenance sub => cases c <;> first | exact trivial | exact ⟨trivial, trivial⟩
  | operation key op =>
    have hblob : Owns key (blobFilename format key) := owns_blobFilename format key
    cases c with
    | symlinkMetadata name => exact (hc : name = _) ▸ hblob
    | openFile name => exact (hc : name = _) ▸ hblob
    | openAtomic name => exact (hc : name = _) ▸ hblob
    | removeFile name => exact (hc : name = _) ▸ hblob
    | openExisting name => exact (hc : name = _) ▸ hblob
    | createNew name => exact Staging.owns hc
    | writeFile name bytes => exact Staging.owns hc
    | deleteFile name => exact Staging.owns hc
    | moveSaveFile source destination replace => exact ⟨hc.1.owns, hc.2 ▸ hblob⟩
    | renameNoReplace source destination => exact ⟨hc.1 ▸ hblob, hc.2.owns⟩
    | moveFile source destination =>
      exact ⟨hc.1 ▸ hblob, hc.2.elim Staging.owns Diagnostic.owns⟩
    | _ => trivial

/-- and changes only what it touches. -/
theorem touches_asks {format : BlobFormatIdentity} {job : WorkerJob} {c : FsCall} {w : JobWorld}
    {name : FileName} (hc : job.Asks format c)
    (hwriter : ∀ key, job.key? = some key → WriterOf format key w) (h : Changes c w name) :
    job.Touches name := by
  cases job with
  | maintenance sub =>
    cases c with
    | deleteFile path =>
      obtain rfl : name = path := h
      exact dots_owned hc
    | now => exact h.elim
    | readDirectory => exact h.elim
    | symlinkMetadata path => exact h.elim
    | _ => exact hc.elim
  | operation key op =>
    have hblob : Owns key (blobFilename format key) := owns_blobFilename format key
    cases c with
    | commit =>
      obtain ⟨content, hopen⟩ := h
      exact hwriter key rfl name content hopen ▸ hblob
    | removeFile path =>
      obtain rfl : name = path := h
      exact (hc : name = _) ▸ hblob
    | createNew path =>
      obtain rfl : name = path := h
      exact Staging.owns hc
    | writeFile path bytes =>
      obtain rfl : name = path := h
      exact Staging.owns hc
    | deleteFile path =>
      obtain rfl : name = path := h
      exact Staging.owns hc
    | moveSaveFile source destination replace =>
      rcases h with rfl | rfl
      · exact hc.1.owns
      · exact hc.2 ▸ hblob
    | renameNoReplace source destination =>
      rcases h with rfl | rfl
      · exact hc.1 ▸ hblob
      · exact hc.2.owns
    | moveFile source destination =>
      rcases h with rfl | rfl
      · exact hc.1 ▸ hblob
      · exact hc.2.elim Staging.owns Diagnostic.owns
    | _ => exact h.elim

/-- Jobs on different keys touch nothing that the other sees. -/
theorem WorkerJob.Disjoint.untouched {job job' : WorkerJob} (h : job.Disjoint job')
    {name : FileName} (htouches : job.Touches name) : ¬job'.Sees name := by
  obtain ⟨k, k', hk, hk', hne⟩ := h
  cases job with
  | maintenance sub => cases hk
  | operation key op =>
    cases job' with
    | maintenance sub => cases hk'
    | operation key' op' =>
      obtain rfl := Option.some.inj hk
      obtain rfl := Option.some.inj hk'
      exact fun hsees => hne (Owns.key_eq htouches hsees)

/-- A name of a key that no cleanup takes away. -/
def Kept (key : KeyHash) (name : FileName) : Prop := Owns key name ∧ dots name ≤ 3

/-- The canonical file is kept. -/
theorem kept_blobFilename (format : BlobFormatIdentity) (key : KeyHash) :
    Kept key (blobFilename format key) := by
  refine ⟨owns_blobFilename format key, ?_⟩
  rw [dots_blobFilename]
  omega

/-- Only jobs of a key touch what is kept for it. -/
theorem key_of_touches {job : WorkerJob} {key : KeyHash} {name : FileName} (hname : Kept key name)
    (h : job.Touches name) : job.key? = some key := by
  cases job with
  | maintenance sub =>
    have hdots : 4 ≤ dots name := h
    have := hname.2
    omega
  | operation k op => exact congrArg some (Owns.key_eq h hname.1)

/-! ## Isolation

  The invariant speaks of executions that are over as well as of those that run: a later job of a key
  begins with what the earlier ones have left. -/

/-- The jobs of a key that were ever started, in that order. -/
def Store.history (s : Store) (key : KeyHash) : List Execution :=
  s.executions.filter fun e => e.job.key? = some key

/-- What a job found under a name. -/
def Execution.found (name : FileName) (e : Execution) : Option Node := e.before.entry name

/-- What a job saw last under a name. -/
def Execution.left (name : FileName) (e : Execution) : Option Node := e.world.disk.entry name

/-- The worlds of a job that agree on some names and on all that is the job's own. -/
def Akin (P : FileName → Prop) (w v : JobWorld) : Prop :=
  SameOn P w.disk v.disk ∧ v = { w with disk := v.disk }

section Isolated

variable (crc32c : Crc32c) (config : StoreConfig) (platform : Platform)
  (fault : FsCall → IoError → Prop)

/-- The job, run alone in the directory that it found, can come to where it is. -/
def Execution.Alone (e : Execution) : Prop :=
  ∃ n v, Run (Fs fault) n (e.job.program crc32c config platform) (.start e.before) e.program v ∧
    Akin e.job.Sees e.world v

/-- Nobody is disturbed, and the jobs of a key come one after another. -/
structure Isolated (disk : Disk) (s : Store) : Prop where
  /-- Every job is where it could have come alone. -/
  alone : ∀ e ∈ s.executions, e.Alone crc32c config platform fault
  /-- Every job of a key found what the one before it had left. -/
  handed : ∀ key name, Kept key name → Handed (Execution.found name) (Execution.left name)
    (disk.entry name) (s.history key) (s.disk.entry name)
  /-- The directory is still one, or still none, -/
  directory : s.disk.isDirectory = disk.isDirectory
  /-- and was so for every job. -/
  entered : ∀ e ∈ s.executions, e.before.isDirectory = disk.isDirectory

/-- Whoever runs has seen the directory as it is, where it looks. -/
def Current (s : Store) : Prop := ∀ e ∈ s.executions, e.job ∈ s.engine.pool.running →
  SameOn e.job.Sees s.disk e.world.disk

end Isolated

section Steps

variable {crc32c : Crc32c} {config : StoreConfig} {platform : Platform} {fates : Nat → Fate}
  {fault : FsCall → IoError → Prop} {panics : Prop} {disk : Disk} {s s' : Store}

/-- A call of a running job leaves alone what others see. -/
theorem call_sameOn (hknown : Known config s) {e : Execution} (he : e ∈ s.executions) {c : FsCall}
    {r : c.Answer} {w : JobWorld} (hc : e.job.Asks config.format c)
    (henv : Fs fault c { e.world with disk := s.disk } r w) {P : FileName → Prop}
    (hP : ∀ name, e.job.Touches name → ¬P name) : SameOn P s.disk w.disk := by
  obtain ⟨hdirectory, hentry⟩ := fs_framed henv
  refine ⟨hdirectory, fun name hname => hentry name fun hchanges => ?_⟩
  exact hP name (touches_asks (w := { e.world with disk := s.disk }) hc (hknown.writer e he) hchanges)
    hname

/-- **A call in company is a call alone.** -/
theorem Execution.Alone.call {e : Execution} (h : e.Alone crc32c config platform fault)
    (hknown : Known config s) (he : e ∈ s.executions) (hcurrent : SameOn e.job.Sees s.disk e.world.disk)
    {c : FsCall} {k : c.Answer → Prog FsInterface (Except Abort TaskResult)} {r : c.Answer}
    {w : JobWorld} (hcall : e.program = .call c k) (hc : e.job.Asks config.format c)
    (henv : Fs fault c { e.world with disk := s.disk } r w) :
    Execution.Alone crc32c config platform fault { e with program := k r, world := w } := by
  obtain ⟨n, v, hrun, hsame, hv⟩ := h
  have hwriter : ∀ name content, e.world.writer = some (name, content) → e.job.Sees name := by
    intro name content hopen
    cases hjob : e.job with
    | maintenance sub => exact trivial
    | operation key op =>
      have hname := hknown.writer e he key (by rw [hjob]; rfl) name content hopen
      exact hname ▸ owns_blobFilename config.format key
  obtain ⟨d', henv', hsame'⟩ := fs_sameOn (w := { e.world with disk := s.disk }) (P := e.job.Sees)
    (d := v.disk) (within_asks hc) hwriter (hcurrent.trans hsame) henv
  have hstart : ({ e.world with disk := v.disk } : JobWorld) = v := hv.symm
  have henv' : Fs fault c v r { w with disk := d' } := by
    rw [← hstart]
    exact henv'
  rw [hcall] at hrun
  obtain ⟨m, hrun⟩ := hrun.append (.cons (.call henv') .nil)
  exact ⟨m, _, hrun, hsame', rfl⟩

theorem Execution.Alone.turn {e : Execution} (h : e.Alone crc32c config platform fault) {σ β : Type}
    {body : σ → Prog FsInterface (σ ⊕ β)} {x : σ} {k : β → Prog FsInterface (Except Abort TaskResult)}
    (hloop : e.program = .loop body x k) :
    Execution.Alone crc32c config platform fault
      { e with program := (body x).bind (Prog.unroll body k) } := by
  obtain ⟨n, v, hrun, hakin⟩ := h
  rw [hloop] at hrun
  obtain ⟨m, hrun⟩ := hrun.append (.cons .loop .nil)
  exact ⟨m, v, hrun, hakin⟩

/-- A key's history, when one of the executions goes on. -/
theorem filter_advance {front back : List Execution} {e f : Execution} (hjob : f.job = e.job)
    (key : KeyHash) :
    (front ++ f :: back).filter (fun e => e.job.key? = some key) =
      front.filter (fun e => e.job.key? = some key) ++
        (if e.job.key? = some key then [f] else []) ++
        back.filter (fun e => e.job.key? = some key) := by
  rw [List.filter_append, List.filter_cons, hjob]
  by_cases hkey : e.job.key? = some key <;> simp [hkey]

/-- Behind a running job of a key there is none. -/
theorem Known.filter_back (h : Known config s) {front back : List Execution} {e : Execution}
    (hexecutions : s.executions = front ++ e :: back) (hrunning : e.job ∈ s.engine.pool.running)
    {key : KeyHash} (hkey : e.job.key? = some key) :
    back.filter (fun e => e.job.key? = some key) = [] := by
  refine List.filter_eq_nil_iff.mpr fun e' he' hkey' => ?_
  obtain ⟨k, k', hk, hk', hne⟩ := h.last front e back hexecutions hrunning e' he'
  obtain rfl := Option.some.inj (hk.symm.trans hkey)
  exact hne (Option.some.inj ((of_decide_eq_true hkey').symm.trans hk'))

/-- A call of a running job. -/
theorem Isolated.call (h : Isolated crc32c config platform fault disk s) (hcurrent : Current s)
    (hknown : Known config s) {front back : List Execution} {e : Execution} {c : FsCall}
    {k : c.Answer → Prog FsInterface (Except Abort TaskResult)}
    {r : c.Answer} {w : JobWorld} (hexecutions : s.executions = front ++ e :: back)
    (hrunning : e.job ∈ s.engine.pool.running) (hcall : e.program = .call c k)
    (henv : Fs fault c { e.world with disk := s.disk } r w) :
    Isolated crc32c config platform fault disk
      ⟨s.engine, w.disk, front ++ { e with program := k r, world := w } :: back⟩ := by
  have he : e ∈ s.executions := by rw [hexecutions]; simp
  have hc : e.job.Asks config.format c := by
    have hasks := hknown.asks e he
    rw [hcall] at hasks
    cases hasks with
    | call hc hk => exact hc
  constructor
  · intro f hf
    simp only [List.mem_append, List.mem_cons] at hf
    rcases hf with hf | rfl | hf
    · exact h.alone f (by rw [hexecutions]; exact List.mem_append_left _ hf)
    · exact (h.alone e he).call hknown he (hcurrent e he hrunning) hcall hc henv
    · exact h.alone f (by rw [hexecutions]; exact List.mem_append_right _ (List.mem_cons_of_mem _ hf))
  · intro key name hname
    have hhanded := h.handed key name hname
    unfold Store.history at hhanded ⊢
    rw [hexecutions, filter_advance rfl] at hhanded
    show Handed _ _ _ (List.filter _ (front ++ { e with program := k r, world := w } :: back))
      (w.disk.entry name)
    rw [filter_advance (e := e) (f := { e with program := k r, world := w }) rfl]
    by_cases hkey : e.job.key? = some key
    · -- the last job of the key leaves something else
      rw [if_pos hkey, hknown.filter_back hexecutions hrunning hkey, List.append_nil] at hhanded ⊢
      exact hhanded.replace rfl
    · -- a job of another key does not touch the name
      rw [if_neg hkey] at hhanded ⊢
      have hsame := call_sameOn hknown he hc henv (P := fun n => n = name) fun n htouches hn =>
        hkey (key_of_touches hname (hn ▸ htouches))
      rw [hsame.entry name rfl]
      exact hhanded
  · exact (fs_framed henv).1.trans h.directory
  · intro f hf
    simp only [List.mem_append, List.mem_cons] at hf
    rcases hf with hf | rfl | hf
    · exact h.entered f (by rw [hexecutions]; exact List.mem_append_left _ hf)
    · exact h.entered e he
    · exact h.entered f (by
        rw [hexecutions]
        exact List.mem_append_right _ (List.mem_cons_of_mem _ hf))

/-- Whoever runs still sees the directory as it is. -/
theorem Current.call (hcurrent : Current s) (hknown : Known config s) {front back : List Execution}
    {e : Execution} {c : FsCall} {p : Prog FsInterface (Except Abort TaskResult)}
    {r : c.Answer} {w : JobWorld} (hexecutions : s.executions = front ++ e :: back)
    (hrunning : e.job ∈ s.engine.pool.running) (hc : e.job.Asks config.format c)
    (henv : Fs fault c { e.world with disk := s.disk } r w) :
    Current ⟨s.engine, w.disk, front ++ { e with program := p, world := w } :: back⟩ := by
  have he : e ∈ s.executions := by rw [hexecutions]; simp
  intro f hf hrun
  have hother (hf : f ∈ s.executions) (hdisjoint : e.job.Disjoint f.job) :
      SameOn f.job.Sees w.disk f.world.disk := by
    have hsame := call_sameOn hknown he hc henv (P := f.job.Sees) fun n => hdisjoint.untouched
    refine ⟨?_, fun name hname => ?_⟩
    · exact (hcurrent f hf hrun).directory.trans hsame.directory.symm
    · exact ((hcurrent f hf hrun).entry name hname).trans (hsame.entry name hname).symm
  simp only [List.mem_append, List.mem_cons] at hf
  rcases hf with hf | rfl | hf
  · obtain ⟨front₁, front₂, rfl⟩ := List.append_of_mem hf
    have hsplit : s.executions = front₁ ++ f :: (front₂ ++ e :: back) := by rw [hexecutions]; simp
    exact hother (by rw [hsplit]; simp) (hknown.last _ _ _ hsplit hrun e (by simp)).symm
  · exact sameOn_refl
  · exact hother (by rw [hexecutions]; simp [hf]) (hknown.last _ _ _ hexecutions hrunning f hf)

/-- A job starts. -/
theorem Isolated.start (h : Isolated crc32c config platform fault disk s) (job : WorkerJob)
    (e : Engine) : Isolated crc32c config platform fault disk
      ⟨e, s.disk, s.executions ++ [.begin crc32c config platform job s.disk]⟩ := by
  constructor
  · intro f hf
    rcases List.mem_append.mp hf with hf | hf
    · exact h.alone f hf
    · rw [List.mem_singleton.mp hf]
      exact ⟨0, _, .nil, sameOn_refl, rfl⟩
  · intro key name hname
    have hhanded := h.handed key name hname
    unfold Store.history at hhanded ⊢
    rw [List.filter_append]
    by_cases hkey : job.key? = some key
    · rw [List.filter_cons_of_pos (by simp [Execution.begin, hkey]), List.filter_nil]
      exact hhanded.concat (a := .begin crc32c config platform job s.disk) rfl
    · rw [List.filter_cons_of_neg (by simp [Execution.begin, hkey]), List.filter_nil,
        List.append_nil]
      exact hhanded
  · exact h.directory
  · intro f hf
    rcases List.mem_append.mp hf with hf | hf
    · exact h.entered f hf
    · rw [List.mem_singleton.mp hf]
      exact h.directory

/-- **Isolation, in every store that can be reached.** -/
theorem isolated_current
    (h : (storeSystem crc32c config platform fates fault panics disk).Reachable s) :
    Isolated crc32c config platform fault disk s ∧ Current s := by
  refine System.Reachable.invariant
    (P := fun s => Isolated crc32c config platform fault disk s ∧ Current s) ?_ ?_ h
  · rintro s rfl
    refine ⟨⟨fun e he => absurd he List.not_mem_nil, fun key name hname => rfl, rfl, fun e he =>
      absurd he List.not_mem_nil⟩, ?_⟩
    exact fun e he => absurd he List.not_mem_nil
  · rintro s s' hreach ⟨hisolated, hcurrent⟩ hstep
    obtain ⟨hinv, hs⟩ := inv_reachable (reachable_engine hreach)
    have hknown := known_reachable hreach
    cases hstep with
    | engine hstep hsame =>
      -- the engine touches no execution
      refine ⟨⟨hisolated.alone, hisolated.handed, hisolated.directory, hisolated.entered⟩, fun e he hrun => ?_⟩
      have hrun : e.job ∈ _ := hrun
      rw [hsame] at hrun
      exact hcurrent e he hrun
    | start job rest hjobs hthread =>
      refine ⟨hisolated.start job _, fun e he hrun => ?_⟩
      rcases List.mem_append.mp he with he | he
      · rcases List.mem_append.mp hrun with hrun | hrun
        · exact hcurrent e he hrun
        · -- the job that starts had not started before
          have hwaits : job ∈ s.engine.pool.jobs := by rw [hjobs]; exact List.mem_cons_self
          refine absurd ?_ (not_executed_of_waiting hinv hs hwaits)
          rw [← hknown.recorded, ← List.mem_singleton.mp hrun]
          exact List.mem_map_of_mem (f := fun e => e.job.origin) he
      · rw [List.mem_singleton.mp he]
        exact sameOn_refl
    | call front back e c k r w hexecutions hrunning hcall henv =>
      -- the directory changes under one job only, and the others see none of its names
      refine ⟨hisolated.call hcurrent hknown hexecutions hrunning hcall henv, ?_⟩
      have hasks := hknown.asks e (by rw [hexecutions]; simp)
      rw [hcall] at hasks
      cases hasks with
      | call hc hk => exact hcurrent.call hknown hexecutions hrunning hc henv
    | turn front back e body x k hexecutions hrunning hloop =>
      have he : e ∈ s.executions := by rw [hexecutions]; simp
      -- one execution moved on, and neither its job nor its directory changed
      have hold {P : Execution → Prop} (hall : ∀ f ∈ s.executions, P f)
          (hthis : P { e with program := (body x).bind (Prog.unroll body k) }) :
          ∀ f ∈ front ++ { e with program := (body x).bind (Prog.unroll body k) } :: back, P f := by
        intro f hf
        simp only [List.mem_append, List.mem_cons] at hf
        rcases hf with hf | rfl | hf
        · exact hall f (by rw [hexecutions]; exact List.mem_append_left _ hf)
        · exact hthis
        · exact hall f (by
            rw [hexecutions]
            exact List.mem_append_right _ (List.mem_cons_of_mem _ hf))
      refine ⟨⟨?_, fun key name hname => ?_, hisolated.directory, ?_⟩, ?_⟩
      · exact hold hisolated.alone ((hisolated.alone e he).turn hloop)
      · have hhanded := hisolated.handed key name hname
        unfold Store.history at hhanded ⊢
        rw [hexecutions, filter_advance rfl] at hhanded
        show Handed _ _ _ (List.filter _
          (front ++ { e with program := (body x).bind (Prog.unroll body k) } :: back)) _
        rw [filter_advance (e := e)
          (f := { e with program := (body x).bind (Prog.unroll body k) }) rfl]
        by_cases hkey : e.job.key? = some key
        · rw [if_pos hkey, hknown.filter_back hexecutions hrunning hkey, List.append_nil]
            at hhanded ⊢
          obtain ⟨middle, hfront, hlast, hnow⟩ := handed_append.mp hhanded
          exact handed_append.mpr ⟨middle, hfront, hlast, hnow⟩
        · rw [if_neg hkey] at hhanded ⊢
          exact hhanded
      · exact hold hisolated.entered (hisolated.entered e he)
      · exact hold (P := fun f => f.job ∈ s.engine.pool.running → SameOn f.job.Sees s.disk f.world.disk)
          hcurrent (hcurrent e he)
    | finish front back e outcome ev entries hexecution hrunning hret hend =>
      refine ⟨⟨hisolated.alone, hisolated.handed, hisolated.directory, hisolated.entered⟩, fun f hf hrun => ?_⟩
      -- fewer jobs are running, so there is less to show
      apply hcurrent f hf
      rw [hrunning]
      exact ((List.sublist_cons_self _ _).append_left front).subset hrun
    | panic front back job ev entries hpanics hrunning hend =>
      refine ⟨⟨hisolated.alone, hisolated.handed, hisolated.directory, hisolated.entered⟩, fun f hf hrun => ?_⟩
      apply hcurrent f hf
      rw [hrunning]
      exact ((List.sublist_cons_self _ _).append_left front).subset hrun

end Steps

end AtomicBlobStore
