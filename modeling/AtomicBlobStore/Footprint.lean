/-
  FOOTPRINT: which names of the directory a store ever changes.

  The directory may hold files of others.  Whatever fails and whoever panics, the store keeps off them.
  A name here is one that the store gives or that others have given: until it commits, the writer
  dependency of the Unix saves keeps a temporary file under a private name of its own, which may be left
  over when the process is stopped, and these names are not in the directory of `Namespace`.

  1. **Calls** (`named_of_changes`) — an operation changes the names of its key only: the canonical one,
     those under which it stages and those to which it quarantines.  Loads and inspections change none
     (`calls_blind`).

  2. **`footprint`** — so in every run a name is as it was, or is one of a key for which a change was
     requested, or was a temporary file that a cleanup took away.
-/
import AtomicBlobStore.Refinement

namespace AtomicBlobStore

/-! ## Calls -/

/-- The names of a key. -/
def NameOf (format : BlobFormatIdentity) (key : KeyHash) (name : FileName) : Prop :=
  name = blobFilename format key ∨ Staging format key name ∨ Diagnostic format key name

/-- **An operation changes names of its key.** -/
theorem named_of_changes {format : BlobFormatIdentity} {key : KeyHash} {c : FsCall} {w : JobWorld}
    {name : FileName} (hc : OperationCalls format key c) (hwriter : WriterOf format key w)
    (h : Changes c w name) : NameOf format key name := by
  cases c with
  | commit =>
    obtain ⟨content, hopen⟩ := h
    exact Or.inl (hwriter name content hopen)
  | removeFile path =>
    obtain rfl : name = path := h
    exact Or.inl hc
  | createNew path =>
    obtain rfl : name = path := h
    exact Or.inr (Or.inl hc)
  | writeFile path bytes =>
    obtain rfl : name = path := h
    exact Or.inr (Or.inl hc)
  | deleteFile path =>
    obtain rfl : name = path := h
    exact Or.inr (Or.inl hc)
  | renameNoReplace source destination =>
    rcases h with rfl | rfl
    · exact Or.inl hc.1
    · exact Or.inr (Or.inr hc.2)
  | moveSaveFile source destination replace =>
    rcases h with rfl | rfl
    · exact Or.inr (Or.inl hc.1)
    · exact Or.inl hc.2
  | moveFile source destination =>
    rcases h with rfl | rfl
    · exact Or.inl hc.1
    · exact Or.inr hc.2
  | _ => exact h.elim

/-- The operations that ask for a change. -/
def Operation.Alters : Operation → Prop
  | .load _ => False
  | .loadStream .. => False
  | .inspect _ => False
  | _ => True

/-- What changes nothing in the directory, whatever it is like. -/
def Blind (c : FsCall) : Prop := ∀ w name, ¬Changes c w name

/-- **Loads and inspections change nothing.** -/
theorem calls_blind (crc32c : Crc32c) (config : StoreConfig) (platform : Platform) (key : KeyHash)
    {op : Operation} (h : ¬op.Alters) :
    ((WorkerJob.operation key op).program crc32c config platform).Calls Blind := by
  apply calls_map
  cases op with
  | load sender =>
    exact calls_map (calls_result (calls_loadBlob crc32c config (fun _ _ h => h) fun _ _ h => h))
  | loadStream chunks acknowledgement sender =>
    exact calls_map (calls_result (calls_loadBlobIntoSender crc32c config (fun _ _ h => h)
      (fun _ _ h => h) (fun _ _ _ _ h => h) (fun _ _ _ h => h) fun _ _ h => h))
  | inspect sender => exact calls_map (calls_result (calls_inspectBlob (fun _ _ h => h) fun _ _ h => h))
  | save payload sender => exact absurd trivial h
  | saveStream declaredLen chunks sender => exact absurd trivial h
  | clear sender => exact absurd trivial h
  | quarantine sender => exact absurd trivial h

/-! ## Runs

  A name of the directory is changed by a call of some job, and the job is that of a request that
  entered.  This is followed back along the run. -/

section Runs

variable {crc32c : Crc32c} {config : StoreConfig} {platform : Platform} {fates : Nat → Fate}
  {fault : FsCall → IoError → Prop} {panics : Prop} {disk : Disk} {s s' : Store}

/-- Why a name may differ from what it was. -/
inductive Footprint (format : BlobFormatIdentity) (disk : Disk) (s : Store) (name : FileName) : Prop
  /-- It is as it was. -/
  | untouched (h : s.disk.entry name = disk.entry name)
  /-- It belongs to a key for which a change was asked for. -/
  | altered (sub : Submission) (hentered : .submission sub ∈ entered s.engine.log)
      (halters : sub.operation.Alters) (hname : NameOf format sub.keyHash name)
  /-- It was a temporary file, and a cleanup was asked for. -/
  | cleaned (sub : MaintenanceSubmission) (hentered : .maintenance sub ∈ entered s.engine.log)
      (howned : isOwnedTemporaryFilename name format.filenameSuffix = true)
      (hgone : s.disk.entry name = none)

/-- More requests are more reasons. -/
theorem Footprint.grows {format : BlobFormatIdentity} {name : FileName}
    (h : Footprint format disk s name) (hlog : s.engine.log <+: s'.engine.log)
    (hsame : s'.disk.entry name = s.disk.entry name) : Footprint format disk s' name := by
  have hentered : ∀ r ∈ entered s.engine.log, r ∈ entered s'.engine.log := (hlog.filterMap _).subset
  cases h with
  | untouched h => exact .untouched (hsame.trans h)
  | altered sub hmem halters hname => exact .altered sub (hentered _ hmem) halters hname
  | cleaned sub hmem howned hgone => exact .cleaned sub (hentered _ hmem) howned (hsame.trans hgone)

/-- A call accounts for what it changes. -/
theorem Footprint.call {name : FileName}
    (h : Footprint config.format disk s name)
    (hreach : (storeSystem crc32c config platform fates fault panics disk).Reachable s) {e : Execution}
    (he : e ∈ s.executions) {c : FsCall} {k : c.Answer → Prog FsInterface (Except Abort TaskResult)}
    {r : c.Answer} {w : JobWorld} (hcall : e.program = .call c k)
    (henv : Fs fault c { e.world with disk := s.disk } r w) {executions : List Execution} :
    Footprint config.format disk ⟨s.engine, w.disk, executions⟩ name := by
  have hknown := known_reachable hreach
  obtain ⟨hisolated, -⟩ := isolated_current hreach
  have hsubset : s.engine.log <+: s.engine.log := List.prefix_refl _
  by_cases hchanges : Changes c { e.world with disk := s.disk } name
  · have hrequested := hknown.requested e he
    have hasks := hknown.asks e he
    rw [hcall] at hasks
    cases hasks with
    | call hc hk =>
      cases hjob : e.job with
      | operation key op =>
        rw [hjob] at hc hrequested
        refine .altered ⟨key, op⟩ hrequested ?_ ?_
        · -- a load or an inspection would not have come to this call
          by_contra hreads
          obtain ⟨n, v, hrun, -⟩ := hisolated.alone e he
          rw [hjob, hcall] at hrun
          have hblind := hrun.calls (calls_blind crc32c config platform key hreads)
          cases hblind with
          | call hblind _ => exact hblind _ name hchanges
        · have hwriter := hknown.writer e he key (by rw [hjob]; rfl)
          exact named_of_changes (w := { e.world with disk := s.disk }) hc hwriter hchanges
      | maintenance sub =>
        rw [hjob] at hc hrequested
        have hc : CleanupCalls config.format c := hc
        cases c with
        | now => exact hchanges.elim
        | readDirectory => exact hchanges.elim
        | symlinkMetadata path => exact hchanges.elim
        | deleteFile path =>
          obtain rfl : name = path := hchanges
          cases r with
          | ok u =>
            refine .cleaned sub hrequested hc ?_
            rw [show w = _ from henv.2]
            exact Disk.entry_set_none
          | error error =>
            refine h.grows hsubset ?_
            rw [henv.1]
        | _ => exact hc.elim
  · exact h.grows hsubset ((fs_framed henv).2 name hchanges)

/-- **The footprint of a store.**  In every run, whatever fails and whoever panics: a name is as it was
    when the store was opened; or it is a name of a key for which a save, a clear or a quarantine
    entered; or it was recognised as a temporary file and taken away, and a cleanup was requested.  The
    private temporary names of the Unix writer are exempt. -/
theorem footprint (h : (storeSystem crc32c config platform fates fault panics disk).Reachable s)
    (name : FileName) : Footprint config.format disk s name := by
  refine System.Reachable.invariant (P := fun s => Footprint config.format disk s name) ?_ ?_ h
  · rintro s rfl
    exact .untouched rfl
  · intro s s' hreach hfootprint hstep
    have hgrows := storeStep_grows hreach hstep
    cases hstep with
    | call front back e c k r w hexecutions hrunning hcall henv =>
      exact hfootprint.call hreach (by rw [hexecutions]; simp) hcall henv
    | engine hstep hsame => exact hfootprint.grows hgrows rfl
    | start job rest hjobs hthread => exact hfootprint.grows hgrows rfl
    | turn front back e body x k hexecutions hrunning hloop => exact hfootprint.grows hgrows rfl
    | finish front back e outcome ev entries hexecution hrunning hret hend =>
      exact hfootprint.grows hgrows rfl
    | panic front back job ev entries hpanics hrunning hend => exact hfootprint.grows hgrows rfl

end Runs

/-- In the sample run the save has changed its canonical file, or nothing. -/
theorem footprint_sample : ∃ s : Store, s.engine = sampleEnd ∧ ∀ name,
    Footprint sampleConfig.format (.directory fun _ => none) s name := by
  obtain ⟨s, hengine, hreach⟩ := sampleStore_reachable
  exact ⟨s, hengine, fun name => footprint hreach name⟩

end AtomicBlobStore
