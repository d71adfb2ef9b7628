/-
  QUARANTINE never loses or alters a blob.

  A workshop (`Jobs`) runs any number of operations and cleanups on any keys against one directory,
  their calls interleaved in any order, with any faults.

  1. **One call** — whatever a job may ask for, an entry under a diagnostic name stays as it is
     (`fs_keeps`): the other calls are for names with fewer or more dots, and the moves that go to
     a diagnostic name refuse one that exists.

  2. **One quarantine** — seen from inside, its calls leave the directory alone but for one move to
     a name where nothing was; the error of a failed sync comes after it, every other error before
     (`holds_quarantine`).  The other jobs may do anything between two of its calls (`Traced`).

  3. **All of them** — both along a run of the workshop: `Tidy` is the invariant, and
     `quarantine_loses_nothing` the result.

  It would be easier to prove this of one quarantine after another.  But cleanup and operations on other
  keys do run at the same time, and the one thing that must not be destroyed, a blob that was set aside,
  belongs to no running job at all.  So the statement is about every call of every job.
-/
import AtomicBlobStore.Jobs

namespace AtomicBlobStore

open FsM (ask fail ofResult)

/-! ## One call

  An operation and a cleanup ask for canonical names, staging names and diagnostic ones, and the three
  differ in their dots.  Only a quarantine asks for a diagnostic name, and it asks for a move that
  refuses a name which is taken. -/

section Keeping

variable {format : BlobFormatIdentity} {key : KeyHash} {fault : FsCall → IoError → Prop}
  {w w' : JobWorld}

/-- A diagnostic name is no canonical name, of any key, -/
theorem Diagnostic.ne_blobFilename {key' : KeyHash} {name : FileName}
    (h : Diagnostic format key name) : name ≠ blobFilename format key' := by
  rintro rfl
  have := h.dots
  rw [dots_blobFilename] at this
  omega

/-- no staging name, -/
theorem Diagnostic.ne_staging {key' : KeyHash} {name name' : FileName}
    (h : Diagnostic format key name) (h' : Staging format key' name') : name ≠ name' := by
  rintro rfl
  have := h.dots
  have := h'.dots
  omega

/-- and nothing that cleanup would take for one. -/
theorem Diagnostic.ne_owned {name name' : FileName} (h : Diagnostic format key name)
    (h' : isOwnedTemporaryFilename name' format.filenameSuffix = true) : name ≠ name' := by
  rintro rfl
  have := h.dots
  have := dots_owned h'
  omega

/-- A move without replacing keeps every entry but the one it moves. -/
theorem moves_keeps {c : FsCall} {source destination name : FileName} {r : Except IoError Unit}
    {node : Node} (henv : Moves fault c source destination w r w') (hsource : name ≠ source)
    (hentry : w.disk.entry name = some node) : w'.disk.entry name = some node := by
  cases r with
  | ok u =>
    obtain ⟨moved, -, hdestination, rfl⟩ := henv
    have hne : name ≠ destination := by
      rintro rfl
      rw [hdestination] at hentry
      nomatch hentry
    show (w.disk.move source destination).entry name = some node
    rw [Disk.entry_move_ne hsource hne, hentry]
  | error e =>
    obtain ⟨rfl, -⟩ := henv
    exact hentry

/-- **What is under a diagnostic name stays there**, whatever call a job makes. -/
theorem fs_keeps {task : Task} {c : FsCall} {r : c.Answer} (hc : task.Asks format c)
    (hwriter : ∀ k op, task = .operation k op → WriterOf format k w) (henv : Fs fault c w r w')
    {name : FileName} {node : Node} (hname : Diagnostic format key name)
    (hentry : w.disk.entry name = some node) : w'.disk.entry name = some node := by
  have hkeep : ¬Changes c w name → w'.disk.entry name = some node := fun h =>
    ((fs_framed henv).2 name h).trans hentry
  cases task with
  | cleanup minimumAge =>
    cases c with
    | deleteFile path => exact hkeep (hname.ne_owned hc)
    | now => exact hkeep id
    | readDirectory => exact hkeep id
    | symlinkMetadata path => exact hkeep id
    | _ => exact hc.elim
  | operation k op =>
    cases c with
    | commit =>
      apply hkeep
      rintro ⟨content, hopen⟩
      exact hname.ne_blobFilename (hwriter k op rfl name content hopen)
    | removeFile path => exact hkeep fun h => hname.ne_blobFilename (h.trans hc)
    | createNew path => exact hkeep (hname.ne_staging hc)
    | writeFile path bytes => exact hkeep (hname.ne_staging hc)
    | deleteFile path => exact hkeep (hname.ne_staging hc)
    | renameNoReplace source destination =>
      exact moves_keeps henv (fun h => hname.ne_blobFilename (h.trans hc.1)) hentry
    | moveFile source destination =>
      exact moves_keeps henv (fun h => hname.ne_blobFilename (h.trans hc.1)) hentry
    | moveSaveFile source destination replace =>
      apply hkeep
      rintro (h | h)
      · exact hname.ne_staging hc.1 h
      · exact hname.ne_blobFilename (h.trans hc.2)
    | _ => exact hkeep id

end Keeping

/-! ## One quarantine

  Between two calls of a quarantine the directory may become anything, so what it can say of the
  directory is what its own calls did to it.  `Traced` notes these, and nothing else. -/

/-- A call that leaves the directory alone. -/
def Change.Idle (change : Change) : Prop := change.after = change.before

/-- The call that moves what is canonical for a key to a path where nothing was. -/
structure Change.Moves (format : BlobFormatIdentity) (key : KeyHash) (path : FileName)
    (change : Change) : Prop where
  /-- Nothing was under the path, -/
  vacant : change.before.entry path = none
  /-- what was canonical is there now, -/
  same : ∃ node, change.before.entry (blobFilename format key) = some node ∧
    change.after.entry path = some node
  /-- and is canonical no more. -/
  gone : change.after.entry (blobFilename format key) = none
  /-- Nothing else has changed. -/
  others : ∀ name, name ≠ blobFilename format key → name ≠ path →
    change.after.entry name = change.before.entry name

/-- Every call left the directory alone. -/
def Quiet (trace : List Change) : Prop := ∀ change ∈ trace, change.Idle

/-- One call moved the blob to the path that a quarantine reports; the others changed nothing. -/
def MovedTo (format : BlobFormatIdentity) (key : KeyHash) (quarantine : QuarantineInfo)
    (trace : List Change) : Prop :=
  Diagnostic format key quarantine.diagnosticPath ∧
    ∃ front change later, trace = front ++ change :: later ∧ Quiet front ∧ Quiet later ∧
      change.Moves format key quarantine.diagnosticPath

/-- What a quarantine may say of what its calls did. -/
def QuarantineEnd (format : BlobFormatIdentity) (key : KeyHash) (trace : List Change) :
    Except AtomicBlobStoreError QuarantineInfo → Prop
  | .ok quarantine => MovedTo format key quarantine trace
  | .error (.quarantineNamespaceSync quarantine _) => MovedTo format key quarantine trace
  | .error _ => Quiet trace

/-- The environment of one job among others: the directory may be any at each call, and what the
    call does to it is noted. -/
def Traced (fault : FsCall → IoError → Prop) (id : Nat) :
    Environment FsInterface (JobWorld × List Change) := fun c v r v' =>
  ∃ disk, Fs fault c { v.1 with disk := disk } r v'.1 ∧ v'.2 = v.2 ++ [⟨id, disk, v'.1.disk⟩]

/-- One more call that leaves the directory alone, -/
theorem Quiet.concat {trace : List Change} {change : Change} (h : Quiet trace)
    (hidle : change.Idle) : Quiet (trace ++ [change]) := by
  intro e he
  rcases List.mem_append.mp he with he | he
  · exact h e he
  · obtain rfl := List.mem_singleton.mp he
    exact hidle

/-- before or after the move. -/
theorem MovedTo.concat {format : BlobFormatIdentity} {key : KeyHash} {quarantine : QuarantineInfo}
    {trace : List Change} {change : Change} (h : MovedTo format key quarantine trace)
    (hidle : change.Idle) : MovedTo format key quarantine (trace ++ [change]) := by
  obtain ⟨hname, front, moved, later, rfl, hfront, hlater, hmoves⟩ := h
  refine ⟨hname, front, moved, later ++ [change], ?_, hfront, hlater.concat hidle, hmoves⟩
  rw [List.append_assoc, List.cons_append]

section One

variable {fault : FsCall → IoError → Prop} {id : Nat} {format : BlobFormatIdentity} {key : KeyHash}
  {w : JobWorld} {trace : List Change}

/-- The rule of a call. -/
theorem holds_traced {α : Type} {Q : α → JobWorld × List Change → Prop}
    {C : JobWorld × List Change → Prop} {c : FsCall} {k : c.Answer → Prog FsInterface α}
    (hC : C (w, trace))
    (hk : ∀ r disk w', Fs fault c { w with disk := disk } r w' →
      Holds (Traced fault id) (k r) Q C (w', trace ++ [⟨id, disk, w'.disk⟩])) :
    Holds (Traced fault id) (.call c k) Q C (w, trace) := by
  refine holds_call hC fun r v henv => ?_
  obtain ⟨w', trace'⟩ := v
  obtain ⟨disk, henv, htrace⟩ := henv
  obtain rfl : trace' = trace ++ [⟨id, disk, w'.disk⟩] := htrace
  exact hk r disk w' henv

variable {C : JobWorld × List Change → Prop} {P : List Change → Prop}

/-- A property of the trace that calls which leave the directory alone keep. -/
def Steady (P : List Change → Prop) : Prop :=
  ∀ trace change, Change.Idle change → P trace → P (trace ++ [change])

theorem steady_quiet : Steady Quiet := fun _ _ hidle h => h.concat hidle

/-- That a blob was moved stays so, as long as the calls that follow leave the directory alone. -/
theorem steady_movedTo {quarantine : QuarantineInfo} :
    Steady (MovedTo format key quarantine) := fun _ _ hidle h => h.concat hidle

section Looking

variable (hsteady : Steady P) (hC : ∀ w trace, P trace → C (w, trace)) (htrace : P trace)

include hsteady hC htrace

/-- The rule of a call that only looks. -/
theorem holds_look {α : Type} {Q : α → JobWorld × List Change → Prop} {c : FsCall}
    {k : c.Answer → Prog FsInterface α} (hc : Looks c)
    (hk : ∀ r w trace, P trace → Holds (Traced fault id) (k r) Q C (w, trace)) :
    Holds (Traced fault id) (.call c k) Q C (w, trace) := by
  refine holds_traced (hC w trace htrace) fun r disk w' henv => ?_
  have hidle : Change.Idle ⟨id, disk, w'.disk⟩ := by
    show w'.disk = disk
    rw [looks_idle hc henv]
  exact hk r w' _ (hsteady _ _ hidle htrace)

variable {E : Abort → JobWorld × List Change → Prop}
  (hE : ∀ (e : AtomicBlobStoreError) w trace, e.tells = .old → P trace → E (.error e) (w, trace))

include hE

/-- The check of the namespace only looks. -/
theorem traced_ensureNamespaceAvailable {Q : Unit → JobWorld × List Change → Prop}
    (hQ : ∀ w trace, P trace → Q () (w, trace)) :
    HoldsE (Traced fault id) ensureNamespaceAvailable Q E C (w, trace) := by
  refine holds_look hsteady hC htrace trivial fun r w trace htrace => ?_
  rcases r with source | _ | _
  · exact holds_ret (hC _ _ htrace) (hE _ _ _ rfl htrace)
  · exact holds_ret (hC _ _ htrace) (hE _ _ _ rfl htrace)
  · exact holds_ret (hC _ _ htrace) (hQ _ _ htrace)

/-- Drawing a name does not touch the directory. -/
theorem traced_randomIdentifier {Q : List Char → JobWorld × List Change → Prop}
    (hQ : ∀ (bytes : Vector UInt8 32) w trace, P trace → Q (toHex bytes.toList) (w, trace)) :
    HoldsE (Traced fault id) randomIdentifier Q E C (w, trace) := by
  refine holds_look hsteady hC htrace trivial fun r w trace htrace => ?_
  cases r with
  | ok bytes => exact holds_ret (hC _ _ htrace) (hQ bytes _ _ htrace)
  | error code => exact holds_ret (hC _ _ htrace) (hE _ _ _ rfl htrace)

omit hE

/-- `sync_windows_directory` only looks. -/
theorem traced_syncWindowsDirectory {Q : Unit → JobWorld × List Change → Prop}
    {E : IoError → JobWorld × List Change → Prop}
    (hQ : ∀ w trace, P trace → Q () (w, trace)) (hE : ∀ e w trace, P trace → E e (w, trace)) :
    HoldsE (Traced fault id) Windows.syncWindowsDirectory Q E C (w, trace) := by
  refine holds_look hsteady hC htrace trivial fun r w trace htrace => ?_
  cases r with
  | error source => exact holds_ret (hC _ _ htrace) (hE _ _ _ htrace)
  | ok u =>
    refine holds_look hsteady hC htrace trivial fun r w trace htrace => ?_
    cases r with
    | error source => exact holds_ret (hC _ _ htrace) (hE _ _ _ htrace)
    | ok u => exact holds_ret (hC _ _ htrace) (hQ _ _ htrace)

end Looking

/-- How a quarantine that fails fails. -/
def QuarantineFails (format : BlobFormatIdentity) (key : KeyHash) :
    Abort → JobWorld × List Change → Prop
  | .error e, v => QuarantineEnd format key v.2 (.error e)
  | .panic, _ => False

/-- Where a quarantine can be stopped. -/
def Quarantining (format : BlobFormatIdentity) (key : KeyHash) (v : JobWorld × List Change) : Prop :=
  Quiet v.2 ∨ ∃ quarantine, MovedTo format key quarantine v.2

/-- A quarantine can be stopped before its move, -/
theorem quarantining_quiet (w : JobWorld) (trace : List Change) (h : Quiet trace) :
    Quarantining format key (w, trace) := Or.inl h

/-- and after it. -/
theorem quarantining_moved {quarantine : QuarantineInfo} (w : JobWorld) (trace : List Change)
    (h : MovedTo format key quarantine trace) : Quarantining format key (w, trace) :=
  Or.inr ⟨quarantine, h⟩

/-- An error that tells of the old state is one from before the move. -/
theorem quarantineFails_old (e : AtomicBlobStoreError) (w : JobWorld) (trace : List Change)
    (htells : e.tells = .old) (h : Quiet trace) :
    QuarantineFails format key (.error e) (w, trace) := by
  cases e with
  | quarantineNamespaceSync => nomatch htells
  | _ => exact h

/-- The answers of the call that moves. -/
theorem traced_moves {c : FsCall} {bytes : Vector UInt8 32} {r : Except IoError Unit}
    {w' : JobWorld} (henv : Moves fault c (blobFilename format key)
      (quarantineFilename (toHex key.toList) format.filenameSuffix (toHex bytes.toList)) w r w')
    (h : Quiet trace) :
    (r = .ok () ∧ MovedTo format key ⟨toHex bytes.toList,
        quarantineFilename (toHex key.toList) format.filenameSuffix (toHex bytes.toList)⟩
        (trace ++ [⟨id, w.disk, w'.disk⟩])) ∨
      (∃ e, r = .error e) ∧ Quiet (trace ++ [⟨id, w.disk, w'.disk⟩]) := by
  have hname : Diagnostic format key (quarantineFilename (toHex key.toList) format.filenameSuffix
      (toHex bytes.toList)) := ⟨bytes, rfl⟩
  cases r with
  | ok u =>
    obtain ⟨node, hnode, hvacant, rfl⟩ := henv
    have hnone : Quiet [] := fun change hchange => nomatch hchange
    refine Or.inl ⟨rfl, hname, trace, _, [], rfl, h, hnone, ?_⟩
    constructor
    · exact hvacant
    · exact ⟨node, hnode, Disk.entry_move_destination hnode⟩
    · exact Disk.entry_move_source hname.ne_blobFilename.symm
    · exact fun name hsource hdestination => Disk.entry_move_ne hsource hdestination
  | error e =>
    obtain ⟨rfl, -⟩ := henv
    exact Or.inr ⟨⟨e, rfl⟩, h.concat rfl⟩

end One

section Platforms

variable {fault : FsCall → IoError → Prop} {id : Nat} {config : StoreConfig} {key : KeyHash}
  {w : JobWorld} {trace : List Change}

/-- What follows a move that was refused. -/
theorem traced_refused (e : IoError) (h : Quiet trace) :
    HoldsE (Traced fault id)
      (if e.kind = .notFound then do
        ensureNamespaceAvailable
        fail .quarantineSourceMissing
      else if e.kind = .alreadyExists then pure (.inl ())
      else fail (.quarantineCommit e) : FsM (Unit ⊕ QuarantineInfo))
      (fun r v => r.elim (fun _ => Quiet v.2) fun q => MovedTo config.format key q v.2)
      (QuarantineFails config.format key) (Quarantining config.format key) (w, trace) := by
  split
  · refine holdsE_bind (traced_ensureNamespaceAvailable steady_quiet quarantining_quiet h quarantineFails_old ?_)
    intro w trace h
    exact holds_ret (quarantining_quiet _ _ h) h
  · split
    · exact holds_ret (quarantining_quiet _ _ h) h
    · exact holds_ret (quarantining_quiet _ _ h) h

/-- One turn on Unix. -/
theorem Unix.traced_quarantineTurn (h : Quiet trace) :
    HoldsE (Traced fault id)
      (Unix.quarantineTurn config (blobFilename config.format key) (toHex key.toList))
      (fun r v => r.elim (fun _ => Quiet v.2) fun q => MovedTo config.format key q v.2)
      (QuarantineFails config.format key) (Quarantining config.format key) (w, trace) := by
  unfold quarantineTurn
  refine holdsE_bind (traced_randomIdentifier steady_quiet quarantining_quiet h quarantineFails_old ?_)
  intro bytes w trace h
  refine holds_traced (quarantining_quiet _ _ h) fun r disk w' henv => ?_
  rcases traced_moves henv h with ⟨rfl, hmoved⟩ | ⟨⟨e, rfl⟩, hquiet⟩
  · -- the move is done: what is left is to sync, and to say where the blob is
    refine holds_look steady_movedTo quarantining_moved hmoved trivial fun r w trace hmoved => ?_
    cases r with
    | error source => exact holds_ret (quarantining_moved _ _ hmoved) hmoved
    | ok u =>
      refine holds_look steady_movedTo quarantining_moved hmoved trivial fun r w trace hmoved => ?_
      cases r with
      | error source => exact holds_ret (quarantining_moved _ _ hmoved) hmoved
      | ok u => exact holds_ret (quarantining_moved _ _ hmoved) hmoved
  · exact traced_refused e hquiet

/-- One turn on Windows. -/
theorem Windows.traced_quarantineTurn (h : Quiet trace) :
    HoldsE (Traced fault id)
      (Windows.quarantineTurn config (blobFilename config.format key) (toHex key.toList))
      (fun r v => r.elim (fun _ => Quiet v.2) fun q => MovedTo config.format key q v.2)
      (QuarantineFails config.format key) (Quarantining config.format key) (w, trace) := by
  unfold quarantineTurn
  refine holdsE_bind (traced_randomIdentifier steady_quiet quarantining_quiet h quarantineFails_old ?_)
  intro bytes w trace h
  refine holds_traced (quarantining_quiet _ _ h) fun r disk w' henv => ?_
  rcases traced_moves henv h with ⟨rfl, hmoved⟩ | ⟨⟨e, rfl⟩, hquiet⟩
  · refine holdsE_bind (holdsE_attempt (traced_syncWindowsDirectory steady_movedTo
      quarantining_moved hmoved (fun w trace hmoved => ?_) fun e w trace hmoved => ?_))
    · exact holds_ret (quarantining_moved _ _ hmoved) hmoved
    · exact holds_ret (quarantining_moved _ _ hmoved) hmoved
  · exact traced_refused e hquiet

/-- **One quarantine**: it says what its calls did. -/
theorem traced_quarantineBlob (platform : Platform) (h : Quiet trace) :
    HoldsE (Traced fault id) (quarantineBlob config platform (blobFilename config.format key))
      (fun q v => MovedTo config.format key q v.2) (QuarantineFails config.format key)
      (Quarantining config.format key) (w, trace) := by
  cases platform with
  | unix =>
    show HoldsE _ (Unix.quarantineBlob config (blobFilename config.format key)) _ _ _ _
    unfold Unix.quarantineBlob
    rw [stem_blobFilename]
    refine holdsE_bind (holdsE_pure (Or.inl h) ?_)
    exact holdsE_iterate (fun _ v => Quiet v.2) h (fun _ v => quarantining_quiet v.1 v.2)
      fun _ v h => Unix.traced_quarantineTurn h
  | windows =>
    show HoldsE _ (Windows.quarantineBlob config (blobFilename config.format key)) _ _ _ _
    unfold Windows.quarantineBlob
    rw [stem_blobFilename]
    refine holdsE_bind (holdsE_pure (Or.inl h) ?_)
    exact holdsE_iterate (fun _ v => Quiet v.2) h (fun _ v => quarantining_quiet v.1 v.2)
      fun _ v h => Windows.traced_quarantineTurn h

end Platforms

/-! ## All of them

  The trace of a quarantine is the part of the workshop's history that is its own, and the directory
  between its calls is what the others made of it. -/

/-- How the job of a quarantine may end. -/
def QuarantineJobEnd (format : BlobFormatIdentity) (key : KeyHash) (trace : List Change) :
    Except Abort TaskResult → Prop
  | .ok (.operation (.quarantine result)) => QuarantineEnd format key trace result
  | _ => False

/-- The calls of one job. -/
def Workshop.callsOf (s : Workshop) (id : Nat) : List Change := s.trace.filter (·.job = id)

/-- A quarantine moved the blob of a key to a path where nothing was, touched nothing else, and the
    blob has been there ever since. -/
def Rests (format : BlobFormatIdentity) (s : Workshop) (id : Nat) (key : KeyHash)
    (path : FileName) : Prop :=
  ∃ front change later node, s.trace = front ++ change :: later ∧ change.job = id ∧
    change.Moves format key path ∧ (∀ c ∈ front ++ later, c.job = id → c.Idle) ∧
    change.after.entry path = some node ∧ (∀ c ∈ later, c.after.entry path = some node) ∧
    s.disk.entry path = some node

section Workshop

variable {crc32c : Crc32c} {config : StoreConfig} {fault : FsCall → IoError → Prop}
  {platform : Platform}

/-- The task of a quarantine, from its start. -/
theorem traced_task {id : Nat} {key : KeyHash} {sender : Ticket} {w : JobWorld} :
    Holds (Traced fault id)
      ((Task.operation key (.quarantine sender)).program crc32c config platform)
      (fun r v => QuarantineJobEnd config.format key v.2 r) (Quarantining config.format key)
      (w, []) := by
  have hnone : Quiet [] := fun change hchange => nomatch hchange
  have hblob : HoldsE (Traced fault id)
      (quarantineBlob config platform (blobFilename config.format key)) _ _ _ (w, []) :=
    traced_quarantineBlob platform hnone
  have htask : HoldsE (Traced fault id) (TaskResult.operation <$> runOwnedOperation crc32c config
      platform (blobFilename config.format key) (.quarantine sender))
      (fun a v => QuarantineJobEnd config.format key v.2 (.ok a)) (fun _ _ => False)
      (Quarantining config.format key) (w, []) := by
    refine holdsE_map (holdsE_map (holds_result (hblob.mono ?_ ?_ ?_)))
    · exact fun q v _ h => h
    · intro abort v _ h
      cases abort with
      | error e => exact h
      | panic => exact h
    · exact fun v h => h
  refine Holds.mono htask (fun r v _ h => ?_) fun v h => h
  cases r with
  | ok a => exact h
  | error abort => exact h.elim

variable (config fault) in
/-- What holds of every workshop.  The first three fields keep the others going. -/
structure Tidy (s : Workshop) : Prop where
  /-- Jobs ask for what their tasks may ask for. -/
  asks : ∀ id job, s.jobs id = some job → job.program.Calls (job.task.Asks config.format)
  /-- Whoever writes through an atomic writer writes the canonical file of its key. -/
  writes : ∀ id job key op, s.jobs id = some job → job.task = .operation key op →
    WriterOf config.format key job.world
  /-- Whatever was called was called by a job that is still there. -/
  known : ∀ c ∈ s.trace, s.jobs c.job ≠ none
  /-- What is under a diagnostic name after one call is there after every later one, and now. -/
  kept : ∀ front change later key name node, s.trace = front ++ change :: later →
    Diagnostic config.format key name → change.after.entry name = some node →
    (∀ c ∈ later, c.after.entry name = some node) ∧ s.disk.entry name = some node
  /-- A quarantine will say what its calls did, from wherever it is. -/
  tells : ∀ id job key sender, s.jobs id = some job → job.task = .operation key (.quarantine sender) →
    Holds (Traced fault id) job.program (fun r v => QuarantineJobEnd config.format key v.2 r)
      (Quarantining config.format key) (job.world, s.callsOf id)

/-- A job that was there is there after an update. -/
theorem jobs_update_known {s : Workshop} {id i : Nat} {job : Job} (h : i ≠ id → s.jobs i ≠ none) :
    (s.update id job).jobs i ≠ none := by
  by_cases hi : i = id
  · rw [hi, Workshop.jobs_update_self]
    exact fun hnone => nomatch hnone
  · rw [Workshop.jobs_update_ne hi]
    exact h hi

/-- A job's own calls are noted with it, -/
theorem callsOf_change_self {s : Workshop} {id : Nat} {disk : Disk} {job : Job} :
    ((s.change id disk).update id job).callsOf id = s.callsOf id ++ [⟨id, s.disk, disk⟩] := by
  show (s.trace ++ _).filter _ = _
  rw [List.filter_append]
  refine congrArg _ (List.filter_eq_self.mpr fun c hc => ?_)
  obtain rfl := List.mem_singleton.mp hc
  exact decide_eq_true rfl

/-- and no others are. -/
theorem callsOf_change_ne {s : Workshop} {id i : Nat} {disk : Disk} {job : Job} (h : i ≠ id) :
    ((s.change id disk).update id job).callsOf i = s.callsOf i := by
  have hnone : [(⟨id, s.disk, disk⟩ : Change)].filter (·.job = i) = [] := by
    refine List.filter_eq_nil_iff.mpr fun c hc heq => ?_
    obtain rfl := List.mem_singleton.mp hc
    exact h (of_decide_eq_true heq).symm
  show (s.trace ++ _).filter _ = _
  rw [List.filter_append, hnone, List.append_nil]
  rfl

/-- **One step keeps a workshop tidy.** -/
theorem Tidy.step {s s' : Workshop} (h : Tidy config fault s)
    (hstep : WorkshopStep crc32c config fault platform s s') : Tidy config fault s' := by
  cases hstep with
  | @start id hfresh task =>
    -- a fresh job has made no call, so its record starts empty
    have hnone : s.callsOf id = [] := by
      refine List.filter_eq_nil_iff.mpr fun c hc heq => h.known c hc ?_
      rw [of_decide_eq_true heq, hfresh]
    constructor
    · intro i job hjob
      rcases Workshop.jobs_update hjob with ⟨-, rfl⟩ | ⟨-, hjob⟩
      · exact calls_task crc32c config platform task
      · exact h.asks i job hjob
    · intro i job key op hjob htask
      rcases Workshop.jobs_update hjob with ⟨-, rfl⟩ | ⟨-, hjob⟩
      · exact fun name content hwriter => nomatch hwriter
      · exact h.writes i job key op hjob htask
    · exact fun c hc => jobs_update_known fun _ => h.known c hc
    · exact h.kept
    · intro i job key sender hjob htask
      rcases Workshop.jobs_update hjob with ⟨rfl, rfl⟩ | ⟨-, hjob⟩
      · obtain rfl : task = _ := htask
        show Holds _ _ _ _ (_, s.callsOf i)
        rw [hnone]
        exact traced_task
      · exact h.tells i job key sender hjob htask
  | @call id task c k w w' r hjob henv =>
    -- the call is one its task may make, so a diagnostic name keeps what is under it
    have hcall : task.Asks config.format c := by
      have hcalls := h.asks id _ hjob
      cases hcalls with
      | call hc hk => exact hc
    have hwriter : ∀ key op, task = .operation key op →
        WriterOf config.format key { w with disk := s.disk } :=
      fun key op htask => h.writes id _ key op hjob htask
    constructor
    · intro i job hjob'
      rcases Workshop.jobs_update hjob' with ⟨-, rfl⟩ | ⟨-, hjob'⟩
      · have hcalls := h.asks id _ hjob
        cases hcalls with
        | call hc hk => exact hk r
      · exact h.asks i job hjob'
    · intro i job key op hjob' htask
      rcases Workshop.jobs_update hjob' with ⟨-, rfl⟩ | ⟨-, hjob'⟩
      · obtain rfl : task = _ := htask
        exact fs_writerOf hcall (hwriter key op rfl) henv
      · exact h.writes i job key op hjob' htask
    · refine fun c' hc' => jobs_update_known fun hid => ?_
      rcases List.mem_append.mp hc' with hc' | hc'
      · exact h.known c' hc'
      · obtain rfl := List.mem_singleton.mp hc'
        exact absurd rfl hid
    · intro front change later key name node htrace hname hentry
      -- the change is the call just made, or it was there before and is kept once more
      rcases concat_cases htrace with ⟨rfl, rfl, -⟩ | ⟨rest, rfl, hrest⟩
      · exact ⟨fun c hc => (nomatch hc), hentry⟩
      · obtain ⟨hlater, hdisk⟩ := h.kept front change rest key name node hrest hname hentry
        have hafter : w'.disk.entry name = some node := fs_keeps hcall hwriter henv hname hdisk
        refine ⟨fun c' hc' => ?_, hafter⟩
        rcases List.mem_append.mp hc' with hc' | hc'
        · exact hlater c' hc'
        · obtain rfl := List.mem_singleton.mp hc'
          exact hafter
    · intro i job key sender hjob' htask
      rcases Workshop.jobs_update hjob' with ⟨rfl, rfl⟩ | ⟨hne, hjob'⟩
      · rw [callsOf_change_self]
        exact (h.tells i _ key sender hjob htask).step (.call ⟨s.disk, henv, rfl⟩)
      · rw [callsOf_change_ne hne]
        exact h.tells i job key sender hjob' htask
  | @turn id task σ β body x k w hjob =>
    constructor
    · intro i job hjob'
      rcases Workshop.jobs_update hjob' with ⟨-, rfl⟩ | ⟨-, hjob'⟩
      · -- unrolling a loop makes no call
        have hturn : ProgStep (Fs fault) (.loop body x k) w ((body x).bind (Prog.unroll body k)) w :=
          .loop
        exact hturn.calls (h.asks id _ hjob)
      · exact h.asks i job hjob'
    · intro i job key op hjob' htask
      rcases Workshop.jobs_update hjob' with ⟨-, rfl⟩ | ⟨-, hjob'⟩
      · have hwrites := h.writes id _ key op hjob htask
        exact hwrites
      · exact h.writes i job key op hjob' htask
    · exact fun c hc => jobs_update_known fun _ => h.known c hc
    · exact h.kept
    · intro i job key sender hjob' htask
      rcases Workshop.jobs_update hjob' with ⟨rfl, rfl⟩ | ⟨-, hjob'⟩
      · exact (h.tells i _ key sender hjob htask).step .loop
      · exact h.tells i job key sender hjob' htask

/-- **Every workshop is tidy.** -/
theorem tidy {s : Workshop} (h : (workshop crc32c config fault platform).Reachable s) :
    Tidy config fault s := by
  refine h.invariant (fun s hinit => ?_) fun s s' _ hs hstep => hs.step hstep
  obtain ⟨hjobs, htrace⟩ := hinit
  have hnone : ∀ {id job}, s.jobs id ≠ some job := by
    intro id job
    rw [hjobs]
    exact fun h => nomatch h
  constructor
  · exact fun id job hjob => absurd hjob hnone
  · exact fun id job key op hjob => absurd hjob hnone
  · intro c hc
    rw [htrace] at hc
    nomatch hc
  · intro front change later key name node hsplit
    rw [htrace] at hsplit
    exact absurd hsplit.symm (List.append_ne_nil_of_right_ne_nil _ (List.cons_ne_nil _ _))
  · exact fun id job key sender hjob => absurd hjob hnone

/-- The blob that a quarantine moved rests where it says. -/
theorem Tidy.rests {s : Workshop} (h : Tidy config fault s) {id : Nat} {key : KeyHash}
    {quarantine : QuarantineInfo} (hmoved : MovedTo config.format key quarantine (s.callsOf id)) :
    Rests config.format s id key quarantine.diagnosticPath := by
  obtain ⟨hname, front, change, later, hcalls, hfront, hlater, hmoves⟩ := hmoved
  obtain ⟨l₁, l₂, htrace, rfl, hl₂⟩ := List.filter_eq_append_iff.mp hcalls
  obtain ⟨l₃, l₄, rfl, hl₃, hid, rfl⟩ := List.filter_eq_cons_iff.mp hl₂
  have htrace : s.trace = (l₁ ++ l₃) ++ change :: l₄ := by rw [htrace, List.append_assoc]
  obtain ⟨node, -, hentry⟩ := hmoves.same
  obtain ⟨hkept, hdisk⟩ := h.kept _ _ _ key _ node htrace hname hentry
  refine ⟨l₁ ++ l₃, change, l₄, node, htrace, of_decide_eq_true hid, hmoves, ?_, hentry, hkept, hdisk⟩
  intro c hc hcid
  rcases List.mem_append.mp hc with hc | hc
  · rcases List.mem_append.mp hc with hc | hc
    · exact hfront c (List.mem_filter.mpr ⟨hc, decide_eq_true hcid⟩)
    · exact absurd (decide_eq_true hcid) (hl₃ c hc)
  · exact hlater c (List.mem_filter.mpr ⟨hc, decide_eq_true hcid⟩)

/-- **Quarantine never loses or alters a blob.**  In every workshop, a quarantine that reports a
    path moved the blob there and it rests there; one that fails otherwise moved nothing; and what
    is under a diagnostic name after any call is there after every later one. -/
theorem quarantine_loses_nothing {s : Workshop}
    (h : (workshop crc32c config fault platform).Reachable s) :
    (∀ id job key sender r, s.jobs id = some job →
      job.task = .operation key (.quarantine sender) → job.program = .ret r →
      ∃ result, r = .ok (.operation (.quarantine result)) ∧
        (∀ quarantine, (result = .ok quarantine ∨
            ∃ source, result = .error (.quarantineNamespaceSync quarantine source)) →
          Rests config.format s id key quarantine.diagnosticPath) ∧
        ∀ e, result = .error e → (∀ quarantine source, e ≠ .quarantineNamespaceSync quarantine source) →
          ∀ c ∈ s.trace, c.job = id → c.Idle) ∧
    ∀ front change later key name node, s.trace = front ++ change :: later →
      Diagnostic config.format key name → change.after.entry name = some node →
      (∀ c ∈ later, c.after.entry name = some node) ∧ s.disk.entry name = some node := by
  have htidy := tidy h
  refine ⟨fun id job key sender r hjob htask hend => ?_, htidy.kept⟩
  have htells := htidy.tells id job key sender hjob htask
  rw [hend] at htells
  have hresult := htells.result
  obtain ⟨result, rfl⟩ : ∃ result, r = .ok (.operation (.quarantine result)) := by
    match r, hresult with
    | .ok (.operation (.quarantine result)), _ => exact ⟨result, rfl⟩
  have hresult : QuarantineEnd config.format key (s.callsOf id) result := hresult
  refine ⟨result, rfl, ?_, ?_⟩
  · rintro quarantine (rfl | ⟨source, rfl⟩)
    · exact htidy.rests hresult
    · exact htidy.rests hresult
  · rintro e rfl hother c hc hid
    have hquiet : Quiet (s.callsOf id) := by
      cases e with
      | quarantineNamespaceSync quarantine source => exact absurd rfl (hother quarantine source)
      | _ => exact hresult
    exact hquiet c (List.mem_filter.mpr ⟨hc, decide_eq_true hid⟩)

/-- A quarantine that nothing disturbs moves the blob that is there. -/
theorem returns_quarantineBlob {key : KeyHash} {w : JobWorld} {node : Node} (bytes : Vector UInt8 32)
    {destination : FileName} (hname : destination = quarantineFilename (toHex key.toList)
      config.format.filenameSuffix (toHex bytes.toList))
    (hsource : w.disk.entry (blobFilename config.format key) = some node)
    (hdestination : w.disk.entry destination = none) :
    Returns (Fs fault) (quarantineBlob config .unix (blobFilename config.format key)).run w
      (.ok ⟨toHex bytes.toList, destination⟩)
      { w with
        disk := w.disk.move (blobFilename config.format key) destination
        published := w.published ++ [(destination, node)] } := by
  subst hname
  have hfill : Returns (Fs fault) randomIdentifier.run w (.ok (toHex bytes.toList)) w :=
    Returns.call (r := (.ok bytes : Except Nat (Vector UInt8 32))) ⟨rfl, trivial⟩ returns_ret
  have hmove : Fs fault (.renameNoReplace (blobFilename config.format key) _) w (.ok ()) _ :=
    ⟨node, hsource, hdestination, rfl⟩
  have hopen : ∀ w, Fs fault .openDirectory w (.ok ()) w := fun w => ⟨rfl, trivial⟩
  have hsync : ∀ w, Fs fault .syncDirectory w (.ok ()) w := fun w => ⟨rfl, trivial⟩
  show Returns _ (Unix.quarantineBlob config (blobFilename config.format key)).run _ _ _
  unfold Unix.quarantineBlob
  rw [stem_blobFilename]
  refine returnsE_bind returns_ret (returnsE_last (returnsE_bind hfill (Returns.call hmove ?_)))
  refine returnsE_bind (a := ()) ?_ returns_ret
  exact Returns.call (hopen _) (Returns.call (hsync _) returns_ret)

/-- Some workshop has a quarantine that moved a blob. -/
theorem reachable_quarantined (crc32c : Crc32c) (config : StoreConfig)
    (fault : FsCall → IoError → Prop) (key : KeyHash) (node : Node) (bytes : Vector UInt8 32)
    (sender : Ticket) {destination : FileName}
    (hname : destination = quarantineFilename (toHex key.toList) config.format.filenameSuffix
      (toHex bytes.toList)) :
    ∃ s w, (workshop crc32c config fault .unix).Reachable s ∧
      s.jobs 0 = some ⟨.operation key (.quarantine sender), .ret (.ok (.operation (.quarantine
        (.ok ⟨toHex bytes.toList, destination⟩)))), w⟩ := by
  -- a directory with the blob and nothing else
  obtain ⟨disk, hsource, hdestination⟩ : ∃ disk : Disk,
      disk.entry (blobFilename config.format key) = some node ∧ disk.entry destination = none := by
    have hdiagnostic : Diagnostic config.format key destination := ⟨bytes, hname⟩
    refine ⟨.directory fun name => if name = blobFilename config.format key then some node else none,
      if_pos rfl, ?_⟩
    exact if_neg hdiagnostic.ne_blobFilename
  have hblob : Returns (Fs fault) _ (JobWorld.start disk) _ _ :=
    returns_quarantineBlob bytes hname hsource hdestination
  obtain ⟨n, hrun⟩ := returnsE_map (f := TaskResult.operation)
    (returnsE_map (f := BlockingResult.quarantine) (returns_result hblob))
  have hinit : (workshop crc32c config fault .unix).Reachable ⟨disk, fun _ => none, []⟩ :=
    .init ⟨rfl, rfl⟩
  have hfresh : (⟨disk, fun _ => none, []⟩ : Workshop).jobs 0 = none := rfl
  have hstart := hinit.step (.start hfresh (.operation key (.quarantine sender)))
  obtain ⟨s, hs, hjob⟩ := workshop_run hrun Workshop.jobs_update_self rfl hstart
  exact ⟨s, _, hs, hjob⟩

/-- The theorem for one blob that a quarantine moves. -/
theorem quarantine_loses_nothing_sample :
    ∃ (s : Workshop) (path : FileName), path ≠ blobFilename testFormat (Vector.replicate 32 0) ∧
      Rests testFormat s 0 (Vector.replicate 32 0) path := by
  have hname : Diagnostic testFormat (Vector.replicate 32 0) (quarantineFilename
      (toHex (Vector.replicate 32 0).toList) testFormat.filenameSuffix
      (toHex (Vector.replicate 32 1).toList)) := ⟨Vector.replicate 32 1, rfl⟩
  obtain ⟨s, w, hs, hjob⟩ := reachable_quarantined crc32cReference
    ⟨testFormat, 16, 1, by decide, by decide⟩ Faultless (Vector.replicate 32 0) (.file [7])
    (Vector.replicate 32 1) 0 rfl
  obtain ⟨result, hresult, hrests, -⟩ := (quarantine_loses_nothing hs).1 0 _ _ 0 _ hjob rfl rfl
  cases hresult
  exact ⟨s, _, hname.ne_blobFilename, hrests _ (Or.inl rfl)⟩

end Workshop

end AtomicBlobStore
