/-
  PRESENCE: what the five entry points say of one key.

  A canonical file may be there or not, and what should be the namespace may be a directory, missing, or
  something else.  `load`, `load_into`, `inspect`, `quarantine` and `clear` each find out for
  themselves, from a `NotFound` and a second look at the namespace, and they say the same.

  1. **What is not there** (`Missing`, from `LoadResults`): each operation ends with its answer for an
     absence where there is a directory, and with an error that says nothing of the blob elsewhere.
     Where the source loops, every turn starts in the directory of the first.

  2. **What is there** is never reported as absent: `load` and `load_into` decode it, `inspect` measures
     it, `quarantine` and `clear` take it away.

  3. **Who only looks changes nothing** (`looks_only`): `load`, `load_into` and `inspect`, wherever they
     are stopped.

  `presence_agrees` puts them together.

  An entry point that takes `NotFound` at its word reports a blob as absent when its namespace was
  unmounted. The source takes a second look, in five places.  The theorem is that they all do, and all
  alike.
-/
import AtomicBlobStore.LoadResults
import AtomicBlobStore.OldOrNew

namespace AtomicBlobStore

open FsM (ask fail)

/-! ## What is not there

  A `NotFound` has two readings: the blob is absent, or the namespace is.  Each of the programs looks at
  the namespace again before it reports an absence, and the lemmas follow each to this second look. -/

section Missing

variable {crc32c : Crc32c} {config : StoreConfig} {key : KeyHash} {disk : Disk} {path : FileName}

/-- `inspect_blob` of what is not there. -/
theorem missing_inspectBlob (hnone : disk.entry path = none) :
    Holds (Fs Faultless) (inspectBlob path).run (Missing disk (.ok ⟨.absent, none, none⟩))
      (fun w => w = .start disk) (.start disk) := by
  refine holds_call (I := FsInterface) (c := .symlinkMetadata _) rfl fun r w henv => ?_
  obtain ⟨rfl, henv⟩ := henv
  cases r with
  | ok found =>
    simp only [JobWorld.start, hnone] at henv
  | error source =>
    show Holds _ (ExceptT.run (if source.kind = .notFound then _ else _)) _ _ _
    split
    · exact missing_answer rfl
    · rename_i hkind
      exact holds_ret rfl (missing_of_lookup henv hkind (by simp))

/-- `clear_blob` of what is not there. -/
theorem Unix.missing_clearBlob (hnone : disk.entry path = none) :
    Holds (Fs Faultless) (Unix.clearBlob path).run (Missing disk (.ok ())) (fun w => w = .start disk)
      (.start disk) := by
  refine holds_call (I := FsInterface) (c := .removeFile _) rfl fun r w henv => ?_
  cases r with
  | ok u => exact absurd hnone henv.1
  | error source =>
    obtain ⟨rfl, hlookup⟩ := henv
    show Holds _ (ExceptT.run (if source.kind = .notFound then _ else _)) _ _ _
    split
    · exact missing_ensureNamespaceAvailable
    · rename_i hkind
      exact holds_ret rfl (missing_of_lookup hlookup hkind nofun)

/-- What is not there cannot be opened, whatever follows. -/
theorem Windows.missing_openExisting {rest : IoM Unit} (hnone : disk.entry path = none) :
    HoldsE (Fs Faultless) (do
      IoM.io (← IoM.ask (.openExisting path))
      rest) (fun _ _ => False)
      (fun e w => w = .start disk ∧
        LookupError Faultless (.openExisting path) (JobWorld.start disk).disk path e)
      (fun w => w = .start disk) (.start disk) := by
  refine holds_call (I := FsInterface) (c := .openExisting _) rfl fun r w henv => ?_
  obtain ⟨rfl, henv⟩ := henv
  cases r with
  | ok u => exact absurd hnone henv
  | error e => exact holds_ret rfl ⟨rfl, henv⟩

/-- So its age cannot be set. -/
theorem Windows.missing_refreshWindowsClearAge (hnone : disk.entry path = none) :
    HoldsE (Fs Faultless) (Windows.refreshWindowsClearAge path) (fun _ _ => False)
      (fun e w => w = .start disk ∧
        LookupError Faultless (.openExisting path) (JobWorld.start disk).disk path e)
      (fun w => w = .start disk) (.start disk) := by
  unfold refreshWindowsClearAge
  refine holdsE_bind (holdsE_ask rfl fun r w henv => ?_)
  obtain ⟨rfl, henv⟩ := henv
  refine ⟨rfl, ?_⟩
  cases r with
  | error e => exact henv.2.elim
  | ok elapsed =>
    refine holdsE_bind (holdsE_pure rfl ?_)
    obtain ⟨seconds, nanoseconds⟩ := elapsed
    dsimp only
    cases hticks : fileTimeTicks seconds nanoseconds with
    | error e =>
      rcases henv with hfits | ⟨e', hfault⟩
      · obtain ⟨ticks, hok⟩ := fileTimeTicks_ok hfits
        nomatch hticks.symm.trans hok
      · exact hfault.elim
    | ok ticks => exact holdsE_bind (holdsE_pure rfl (missing_openExisting hnone))

theorem Windows.missing_clearBlob
    (hnone : disk.entry (blobFilename config.format key) = none) :
    Holds (Fs Faultless) (Windows.clearBlob config (blobFilename config.format key)).run
      (Missing disk (.ok ())) (fun w => w = .start disk) (.start disk) := by
  unfold Windows.clearBlob
  rw [stem_blobFilename]
  refine holds_bind (holds_ret rfl ?_)
  refine holds_bind (Holds.mono (holdsE_attempt (φ := Abort) (E := fun _ _ => False) (Q := fun r w =>
    w = .start disk ∧ ∃ e, r = .error e ∧ LookupError Faultless
      (.openExisting (blobFilename config.format key)) (JobWorld.start disk).disk
      (blobFilename config.format key) e)
    ((missing_refreshWindowsClearAge hnone).mono (fun _ _ _ h => h.elim)
      (fun e w _ h => ⟨h.1, e, rfl, h.2⟩) fun _ hc => hc)) (fun r w hw hr => ?_) fun _ hc => hc)
  cases r with
  | error abort => exact hr.elim
  | ok attempt =>
    obtain ⟨rfl, source, rfl, hlookup⟩ := hr
    show Holds _ (ExceptT.run (if source.kind = .notFound then _ else _)) _ _ _
    split
    · exact missing_ensureNamespaceAvailable
    · rename_i hkind
      exact holds_ret rfl (missing_of_lookup hlookup hkind nofun)

/-- `clear_blob` of what is not there. -/
theorem missing_clearBlob (platform : Platform)
    (hnone : disk.entry (blobFilename config.format key) = none) :
    Holds (Fs Faultless) (clearBlob config platform (blobFilename config.format key)).run
      (Missing disk (.ok ())) (fun w => w = .start disk) (.start disk) := by
  cases platform with
  | unix => exact Unix.missing_clearBlob hnone
  | windows => exact Windows.missing_clearBlob hnone

/-- How `quarantine_blob` fails where there is nothing to move. -/
abbrev SourceMissing (disk : Disk) (abort : Abort) (w : JobWorld) : Prop :=
  Missing disk (.error (.error .quarantineSourceMissing) : Except Abort QuarantineInfo)
    (.error abort) w

/-- How a turn of `quarantine_blob` ends that could not move the file; with `AlreadyExists` it is tried
    again. -/
theorem missing_refused {source : IoError} {c : FsCall}
    (hreason : LookupError Faultless c (JobWorld.start disk).disk path source ∨
      source.kind = .alreadyExists) :
    HoldsE (Fs Faultless) (if source.kind = .notFound then do
        ensureNamespaceAvailable
        fail .quarantineSourceMissing
      else if source.kind = .alreadyExists then pure (.inl ())
      else fail (.quarantineCommit source) : FsM (Unit ⊕ QuarantineInfo))
      (fun next w => next.elim (fun _ => w = .start disk) fun _ => False)
      (SourceMissing disk) (fun w => w = .start disk) (.start disk) := by
  split
  · refine holdsE_bind (Holds.mono missing_ensureNamespaceAvailable (fun r w hw hr => ?_)
      fun _ hc => hc)
    obtain ⟨-, ⟨hdirectory, rfl⟩ | ⟨hnot, e, hother, rfl⟩⟩ := hr
    · exact holds_ret hw ⟨hw, Or.inl ⟨hdirectory, rfl⟩⟩
    · exact ⟨hw, Or.inr ⟨hnot, e, hother, rfl⟩⟩
  · rename_i hkind
    split
    · exact holds_ret rfl rfl
    · rename_i hother
      have hlookup := hreason.resolve_right hother
      exact holds_ret rfl (missing_of_lookup hlookup hkind nofun)

/-- The random generator works. -/
theorem missing_randomIdentifier {α : Type} {f : List Char → FsM α} {Q : α → JobWorld → Prop}
    {E : Abort → JobWorld → Prop}
    (hf : ∀ identifier, HoldsE (Fs Faultless) (f identifier) Q E (fun w => w = .start disk)
      (.start disk)) :
    HoldsE (Fs Faultless) (do
      let identifier ← randomIdentifier
      f identifier) Q E (fun w => w = .start disk) (.start disk) := by
  refine holdsE_bind (holds_call (I := FsInterface) (c := .fill) rfl fun r w henv => ?_)
  obtain ⟨rfl, henv⟩ := henv
  cases r with
  | ok bytes => exact holds_ret rfl (hf _)
  | error code =>
    obtain ⟨kind, hfault⟩ := henv
    exact hfault.elim

/-- `quarantine_blob` of what is not there. -/
theorem missing_quarantineBlob (platform : Platform)
    (hnone : disk.entry (blobFilename config.format key) = none) :
    Holds (Fs Faultless) (quarantineBlob config platform (blobFilename config.format key)).run
      (Missing disk (.error (.error .quarantineSourceMissing))) (fun w => w = .start disk)
      (.start disk) := by
  -- a move of what is not there is refused, so every turn starts in the directory of the first
  have hmoves {c : FsCall} {destination : FileName} {r : Except IoError Unit} {w : JobWorld}
      (henv : Moves Faultless c (blobFilename config.format key) destination (.start disk) r w) :
      w = .start disk ∧ ∃ source, r = .error source ∧
        (LookupError Faultless c (JobWorld.start disk).disk (blobFilename config.format key) source ∨
          source.kind = .alreadyExists) := by
    cases r with
    | ok u =>
      obtain ⟨node, hsource, -⟩ := henv
      exact absurd (hsource.symm.trans hnone) nofun
    | error source =>
      obtain ⟨rfl, hreason⟩ := henv
      exact ⟨rfl, source, rfl, hreason.imp id And.left⟩
  have hended {p : FsM QuarantineInfo}
      (h : HoldsE (Fs Faultless) p (fun _ _ => False) (SourceMissing disk)
        (fun w => w = .start disk) (.start disk)) :
      Holds (Fs Faultless) p.run (Missing disk (.error (.error .quarantineSourceMissing)))
        (fun w => w = .start disk) (.start disk) := by
    refine Holds.mono h (fun r w _ hr => ?_) fun _ hc => hc
    cases r with
    | ok quarantine => exact hr.elim
    | error abort => exact hr
  cases platform with
  | unix =>
    show Holds _ (Unix.quarantineBlob config _).run _ _ _
    unfold Unix.quarantineBlob
    rw [stem_blobFilename]
    refine hended (holdsE_bind (holdsE_pure rfl (holdsE_iterate (fun _ w => w = .start disk) rfl
      (fun _ _ h => h) ?_)))
    rintro - w rfl
    refine missing_randomIdentifier fun identifier => ?_
    refine holds_call (I := FsInterface) (c := .renameNoReplace _ _) rfl fun r w henv => ?_
    obtain ⟨rfl, source, rfl, hreason⟩ := hmoves henv
    exact missing_refused hreason
  | windows =>
    show Holds _ (Windows.quarantineBlob config _).run _ _ _
    unfold Windows.quarantineBlob
    rw [stem_blobFilename]
    refine hended (holdsE_bind (holdsE_pure rfl (holdsE_iterate (fun _ w => w = .start disk) rfl
      (fun _ _ h => h) ?_)))
    rintro - w rfl
    refine missing_randomIdentifier fun identifier => ?_
    refine holds_call (I := FsInterface) (c := .moveFile _ _) rfl fun r w henv => ?_
    obtain ⟨rfl, source, rfl, hreason⟩ := hmoves henv
    exact missing_refused hreason

/-- A look for the namespace comes to its end. -/
theorem returns_available (disk : Disk) : ∃ x,
    Returns (Fs Faultless) ensureNamespaceAvailable.run (.start disk) x (.start disk) := by
  cases hdirectory : disk.isDirectory with
  | true =>
    have hmetadata : Fs Faultless .metadata (.start disk) (.ok true) (.start disk) :=
      ⟨rfl, hdirectory⟩
    exact ⟨_, Returns.call hmetadata returns_ret⟩
  | false =>
    have hmetadata : Fs Faultless .metadata (.start disk) (.ok false) (.start disk) :=
      ⟨rfl, hdirectory⟩
    exact ⟨_, Returns.call hmetadata returns_ret⟩

/-- So does what follows it. -/
theorem returns_answer (disk : Disk) {α : Type} {p : FsM α} {answer : Except Abort α}
    (h : p.run = .ret answer) :
    ∃ x, Returns (Fs Faultless) (do
      ensureNamespaceAvailable
      p : FsM α).run (.start disk) x (.start disk) := by
  obtain ⟨x, hreturns⟩ := returns_available disk
  cases x with
  | ok u =>
    have hret : Returns (Fs Faultless) p.run (.start disk) answer (.start disk) := by
      rw [h]
      exact returns_ret
    exact ⟨answer, returnsE_bind hreturns hret⟩
  | error abort => exact ⟨_, returnsE_bind_error hreturns⟩

/-- `NotFound`. -/
def notFound : IoError := ⟨.notFound, 2⟩

/-- A lookup of what is not there may answer `NotFound`. -/
theorem lookup_notFound (c : FsCall) (hnone : disk.entry path = none) :
    LookupError Faultless c disk path notFound := (if_pos rfl).mpr hnone

/-- An inspection comes to its end, -/
theorem returns_inspectBlob (hnone : disk.entry path = none) :
    ∃ x, Returns (Fs Faultless) (inspectBlob path).run (.start disk) x (.start disk) := by
  obtain ⟨x, hreturns⟩ := returns_answer disk (p := pure (⟨.absent, none, none⟩ : BlobInspection)) rfl
  have hlook : Fs Faultless (.symlinkMetadata path) (.start disk) (.error notFound) (.start disk) :=
    ⟨rfl, lookup_notFound _ hnone⟩
  exact ⟨x, Returns.call hlook hreturns⟩

/-- so does a clear, -/
theorem returns_clearBlob (platform : Platform)
    (hnone : disk.entry (blobFilename config.format key) = none) :
    ∃ x, Returns (Fs Faultless) (clearBlob config platform (blobFilename config.format key)).run
      (.start disk) x (.start disk) := by
  obtain ⟨x, hreturns⟩ := returns_available disk
  cases platform with
  | unix =>
    have hremove : Fs Faultless (.removeFile (blobFilename config.format key)) (.start disk)
        (.error notFound) (.start disk) := ⟨rfl, lookup_notFound _ hnone⟩
    exact ⟨x, Returns.call hremove hreturns⟩
  | windows =>
    have hclock : Fs Faultless .sinceEpoch (.start disk) (.ok (0, 0)) (.start disk) :=
      ⟨rfl, Or.inl (by unfold FileTimeFits; decide)⟩
    have hopen : Fs Faultless (.openExisting (blobFilename config.format key)) (.start disk)
        (.error notFound) (.start disk) := ⟨rfl, lookup_notFound _ hnone⟩
    have hrefresh : Returns (Fs Faultless)
        (Windows.refreshWindowsClearAge (blobFilename config.format key)).run (.start disk)
        (.error notFound) (.start disk) := by
      obtain ⟨ticks, hticks⟩ : ∃ ticks, Windows.fileTimeTicks 0 0 = .ok ticks :=
        Windows.fileTimeTicks_ok (by unfold FileTimeFits; decide)
      refine Returns.call hclock (returnsE_bind (a := (0, 0)) returns_ret ?_)
      dsimp only
      rw [hticks]
      exact returnsE_bind returns_ret (Returns.call hopen returns_ret)
    refine ⟨x, ?_⟩
    show Returns _ (Windows.clearBlob config _).run _ _ _
    unfold Windows.clearBlob
    rw [stem_blobFilename]
    exact returnsE_bind returns_ret (returnsE_bind (returnsE_attempt hrefresh) hreturns)

/-- and so does a quarantine that has nothing to move. -/
theorem returns_quarantineBlob_missing (platform : Platform)
    (hnone : disk.entry (blobFilename config.format key) = none) :
    ∃ x, Returns (Fs Faultless) (quarantineBlob config platform (blobFilename config.format key)).run
      (.start disk) x (.start disk) := by
  have hfill : Returns (Fs Faultless) randomIdentifier.run (.start disk)
      (.ok (toHex (Vector.replicate 32 0).toList)) (.start disk) :=
    Returns.call (r := (.ok (Vector.replicate 32 0) : Except Nat (Vector UInt8 32))) ⟨rfl, trivial⟩
      returns_ret
  obtain ⟨x, hreturns⟩ := returns_answer disk
    (p := (fail .quarantineSourceMissing : FsM (Unit ⊕ QuarantineInfo))) rfl
  -- the turn ends with an error, since `ensure_namespace_available` does or is followed by one
  obtain ⟨abort, rfl⟩ : ∃ abort, x = .error abort := by
    obtain ⟨y, w, -, hend⟩ := Returns.of_bind hreturns
    cases y with
    | ok u => exact ⟨_, (Returns.of_ret hend).1⟩
    | error abort => exact ⟨_, (Returns.of_ret hend).1⟩
  refine ⟨.error abort, ?_⟩
  cases platform with
  | unix =>
    have hmove (destination : FileName) : Fs Faultless
        (.renameNoReplace (blobFilename config.format key) destination) (.start disk)
        (.error notFound) (.start disk) := ⟨rfl, Or.inl (lookup_notFound _ hnone)⟩
    show Returns _ (Unix.quarantineBlob config _).run _ _ _
    unfold Unix.quarantineBlob
    rw [stem_blobFilename]
    exact returnsE_bind returns_ret (returnsE_stop (returnsE_bind hfill
      (Returns.call (hmove _) hreturns)))
  | windows =>
    have hmove (destination : FileName) : Fs Faultless
        (.moveFile (blobFilename config.format key) destination) (.start disk)
        (.error notFound) (.start disk) := ⟨rfl, Or.inl (lookup_notFound _ hnone)⟩
    show Returns _ (Windows.quarantineBlob config _).run _ _ _
    unfold Windows.quarantineBlob
    rw [stem_blobFilename]
    exact returnsE_bind returns_ret (returnsE_stop (returnsE_bind hfill
      (Returns.call (hmove _) hreturns)))

end Missing

/-! ## The five entry points

  Each of them says in its own way that a blob is absent.  The definitions below name these answers,
  so that the agreement can be stated as one. -/

section Entries

variable (crc32c : Crc32c) (config : StoreConfig) (platform : Platform) (key : KeyHash) (disk : Disk)

/-- How an operation may end, and which directory it then leaves, where no file operation fails. -/
def Ends {α : Type} (p : FsM α) (disk : Disk) (x : Except Abort α) (after : Disk) : Prop :=
  ∃ w, Returns (Fs Faultless) p.run (.start disk) x w ∧ w.disk = after

/-- What `load_into` may return, and how it then has called its writer, where nothing else fails. -/
def LoadsInto (facade : Facade) (writer : WriteRule) (r : LoadResult) (writes : Writes) : Prop :=
  ∃ s, (streamingLoad crc32c config Faultless writer False facade key disk).Reachable s ∧
    s.caller = some (.ret r) ∧ s.desk.writes = writes

/-- Every entry point says that the blob is absent: it can end, and only so, and changes nothing.  It
    is said as an equivalence: the answer is possible, and no other one is. -/
structure SaysAbsent : Prop where
  /-- `load` finds nothing, -/
  load : ∀ x after, Ends (loadBlob crc32c config (blobFilename config.format key)) disk x after ↔
    x = .ok none ∧ after = disk
  /-- nor does `load_into`, which writes nothing either. -/
  loadInto : ∀ facade writer r writes,
    LoadsInto crc32c config key disk facade writer r writes ↔ r = .ok none ∧ writes = []
  /-- `inspect` says so in as many words. -/
  inspect : ∀ x after, Ends (inspectBlob (blobFilename config.format key)) disk x after ↔
    x = .ok ⟨.absent, none, none⟩ ∧ after = disk
  /-- `quarantine` has nothing to move, which is an error. -/
  quarantine : ∀ x after,
    Ends (quarantineBlob config platform (blobFilename config.format key)) disk x after ↔
      x = .error (.error .quarantineSourceMissing) ∧ after = disk
  /-- `clear` has nothing to do, which is a success. -/
  clear : ∀ x after,
    Ends (clearBlob config platform (blobFilename config.format key)) disk x after ↔
      x = .ok () ∧ after = disk

/-- No entry point says so.  What they do say depends on the file. -/
structure NeverSaysAbsent : Prop where
  /-- `load` does not answer that there is nothing, -/
  load : ∀ after, ¬Ends (loadBlob crc32c config (blobFilename config.format key)) disk (.ok none) after
  /-- nor does `load_into`. -/
  loadInto : ∀ facade writer writes,
    ¬LoadsInto crc32c config key disk facade writer (.ok none) writes
  /-- `inspect` sees it. -/
  inspect : ∀ inspection after,
    Ends (inspectBlob (blobFilename config.format key)) disk (.ok inspection) after →
      inspection.state = .present
  /-- `quarantine` does not miss it. -/
  quarantine : ∀ after,
    ¬Ends (quarantineBlob config platform (blobFilename config.format key)) disk
      (.error (.error .quarantineSourceMissing)) after
  /-- A `clear` that succeeds has taken it away. -/
  clear : ¬Ends (clearBlob config platform (blobFilename config.format key)) disk (.ok ()) disk

/-- An operation can end, and only with an error. -/
def Fails {α : Type} (p : FsM α) (disk : Disk) : Prop :=
  (∃ e after, Ends p disk (.error (.error e)) after) ∧
    ∀ x after, Ends p disk x after → ∃ e, x = .error (.error e)

/-- Every entry point fails. -/
structure AllFail : Prop where
  /-- `load` fails, -/
  load : Fails (loadBlob crc32c config (blobFilename config.format key)) disk
  /-- `load_into` fails, and writes nothing, -/
  loadInto : ∀ facade writer, (∃ e, LoadsInto crc32c config key disk facade writer (.error e) []) ∧
    ∀ r writes, LoadsInto crc32c config key disk facade writer r writes →
      (∃ e, r = .error e) ∧ writes = []
  /-- `inspect` fails, -/
  inspect : Fails (inspectBlob (blobFilename config.format key)) disk
  /-- `quarantine` fails, -/
  quarantine : Fails (quarantineBlob config platform (blobFilename config.format key)) disk
  /-- and `clear` fails. -/
  clear : Fails (clearBlob config platform (blobFilename config.format key)) disk

/-- What the entry points that look say of a file.  Inspecting opens no file, so it cannot tell an
    envelope from anything else. -/
structure Reports (content : List UInt8) : Prop where
  /-- `inspect` reports the size of the file, whatever is in it. -/
  inspect : ∀ x after, Ends (inspectBlob (blobFilename config.format key)) disk x after ↔
    (∃ modified, x = .ok ⟨.present, some content.length, modified⟩) ∧ after = disk
  /-- An envelope is loaded as its payload; a writer that fails is not asked for more. -/
  valid : ∀ payload, encodeEnvelope crc32c config.format payload config.maximum = .ok content →
    (∀ x after, Ends (loadBlob crc32c config (blobFilename config.format key)) disk x after ↔
      x = .ok (some payload) ∧ after = disk) ∧
    (∀ facade writer r writes, LoadsInto crc32c config key disk facade writer r writes →
      writeFailure facade.retries writes = none →
        r = .ok (some ⟨payload.length⟩) ∧ takenBytes writes = payload) ∧
    ∀ facade, ∃ writes,
      LoadsInto crc32c config key disk facade acceptsAll (.ok (some ⟨payload.length⟩)) writes
  /-- Anything else is refused, with one error. -/
  invalid : (∀ payload, encodeEnvelope crc32c config.format payload config.maximum ≠ .ok content) →
    ∃ e, (∀ x after, Ends (loadBlob crc32c config (blobFilename config.format key)) disk x after ↔
      x = .error (.error e) ∧ after = disk) ∧
    ∀ facade writer r writes, LoadsInto crc32c config key disk facade writer r writes ↔
      r = .error e ∧ writes = []

/-- Who only looks changes nothing, wherever it is stopped and whatever fails. -/
structure LooksOnly : Prop where
  /-- `load`, -/
  load : ∀ fault n p w, Run (Fs fault) n (loadBlob crc32c config (blobFilename config.format key)).run
    (.start disk) p w → w.disk = disk
  /-- `load_into`, among the other parties, -/
  loadInto : ∀ fault writer fails facade s,
    (streamingLoad crc32c config fault writer fails facade key disk).Reachable s → s.world.disk = disk
  /-- and `inspect`. -/
  inspect : ∀ fault n p w, Run (Fs fault) n (inspectBlob (blobFilename config.format key)).run
    (.start disk) p w → w.disk = disk

variable {crc32c config platform key disk}

/-- The calls that leave the directory as it is. -/
def Leaves (c : FsCall) : Prop :=
  ∀ fault w r w', Fs fault c w r w' → w'.disk = w.disk

/-- What only makes such calls leaves the directory as it is. -/
theorem leaves_program {α : Type} {p : Prog FsInterface α} (h : p.Calls Leaves)
    (fault : FsCall → IoError → Prop) (n : Nat) (q : Prog FsInterface α) (w : JobWorld)
    (hrun : Run (Fs fault) n p (.start disk) q w) : w.disk = disk :=
  (holds_of_calls (C := fun w => w.disk = disk) h
    (fun _ hc w r w' henv hw => (hc fault w r w' henv).trans hw) rfl n q w hrun).1

theorem leaves_metadata : Leaves .metadata := fun _ _ _ _ henv => congrArg JobWorld.disk henv.1

theorem leaves_openFile (path : FileName) : Leaves (.openFile path) :=
  fun _ _ _ _ henv => congrArg JobWorld.disk henv.1

theorem leaves_symlinkMetadata (path : FileName) : Leaves (.symlinkMetadata path) :=
  fun _ _ _ _ henv => congrArg JobWorld.disk henv.1

/-- **Who only looks changes nothing.** -/
theorem looks_only (hregular : disk.entry (blobFilename config.format key) ≠ some .other) :
    LooksOnly crc32c config key disk where
  load := leaves_program (calls_loadBlob crc32c config leaves_metadata (leaves_openFile _))
  loadInto _ _ _ _ _ hs := (loadInv_of_reachable hregular hs).streamed.1
  inspect := leaves_program (calls_inspectBlob leaves_metadata (leaves_symlinkMetadata _))

/-- `load` ends as `Loads` has it. -/
theorem ends_load (hregular : disk.entry (blobFilename config.format key) ≠ some .other)
    (x : Except Abort (Option (List UInt8))) (after : Disk) :
    Ends (loadBlob crc32c config (blobFilename config.format key)) disk x after ↔
      Loads crc32c config key disk x ∧ after = disk := by
  constructor
  · rintro ⟨w, ⟨n, hrun⟩, rfl⟩
    exact ⟨⟨w, n, hrun⟩, (looks_only hregular).load _ _ _ _ hrun⟩
  · rintro ⟨⟨w, n, hrun⟩, rfl⟩
    exact ⟨w, ⟨n, hrun⟩, (looks_only hregular).load _ _ _ _ hrun⟩

/-- An operation on what is not there, in a directory. -/
theorem ends_missing {α : Type} {p : FsM α} {answer : Except Abort α}
    (hholds : Holds (Fs Faultless) p.run (Missing disk answer) (fun w => w = .start disk)
      (.start disk))
    (hreturns : ∃ x, Returns (Fs Faultless) p.run (.start disk) x (.start disk))
    (hdirectory : disk.isDirectory = true) (x : Except Abort α) (after : Disk) :
    Ends p disk x after ↔ x = answer ∧ after = disk := by
  have hends {x : Except Abort α} {w : JobWorld}
      (h : Returns (Fs Faultless) p.run (.start disk) x w) : x = answer ∧ w.disk = disk := by
    obtain ⟨n, hrun⟩ := h
    obtain ⟨rfl, ⟨-, rfl⟩ | ⟨hnot, -⟩⟩ := (hholds n _ w hrun).2 x rfl
    · exact ⟨rfl, rfl⟩
    · exact absurd (hdirectory.symm.trans hnot) Bool.noConfusion
  constructor
  · rintro ⟨w, h, rfl⟩
    exact hends h
  · rintro ⟨rfl, rfl⟩
    obtain ⟨x, hx⟩ := hreturns
    obtain ⟨rfl, -⟩ := hends hx
    exact ⟨_, hx, rfl⟩

/-- An operation where there is no directory: its error says nothing of the blob. -/
theorem ends_unavailable {α : Type} {p : FsM α} {answer : Except Abort α}
    (hholds : Holds (Fs Faultless) p.run (Missing disk answer) (fun w => w = .start disk)
      (.start disk)) (hnot : disk.isDirectory = false) {x : Except Abort α} {after : Disk}
    (h : Ends p disk x after) :
    ∃ e : AtomicBlobStoreError, e ≠ .quarantineSourceMissing ∧ x = .error (.error e) := by
  obtain ⟨w, ⟨n, hrun⟩, rfl⟩ := h
  obtain ⟨-, ⟨hdirectory, -⟩ | ⟨-, hx⟩⟩ := (hholds n _ w hrun).2 x rfl
  · exact absurd (hdirectory.symm.trans hnot) Bool.noConfusion
  · exact hx

/-- Where there is no directory, it fails. -/
theorem fails_missing {α : Type} {p : FsM α} {answer : Except Abort α}
    (hholds : Holds (Fs Faultless) p.run (Missing disk answer) (fun w => w = .start disk)
      (.start disk))
    (hreturns : ∃ x, Returns (Fs Faultless) p.run (.start disk) x (.start disk))
    (hnot : disk.isDirectory = false) : Fails p disk := by
  refine ⟨?_, fun x after h => ?_⟩
  · obtain ⟨x, hx⟩ := hreturns
    obtain ⟨e, -, rfl⟩ := ends_unavailable hholds hnot ⟨_, hx, rfl⟩
    exact ⟨e, _, _, hx, rfl⟩
  · obtain ⟨e, -, rfl⟩ := ends_unavailable hholds hnot h
    exact ⟨e, rfl⟩

section Streaming

variable {facade : Facade} {writer : WriteRule} {r : LoadResult} {writes : Writes}

/-- What `load_into` may return where there is a directory. -/
theorem LoadsInto.finished (h : LoadsInto crc32c config key disk facade writer r writes)
    (hregular : disk.entry (blobFilename config.format key) ≠ some .other) :
    LoadFinished crc32c config Faultless False facade.retries writer key disk writes r := by
  obtain ⟨s, hs, hret, rfl⟩ := h
  exact (loadInv_of_reachable hregular hs).finished hret

/-- It writes nothing but payloads. -/
theorem LoadsInto.idle (h : LoadsInto crc32c config key disk facade writer r writes)
    (hregular : disk.entry (blobFilename config.format key) ≠ some .other)
    (hnot : ∀ payload, ¬Stores crc32c config key disk payload) : writes = [] := by
  obtain ⟨s, hs, -, rfl⟩ := h
  by_contra hne
  obtain ⟨payload, hstores, -⟩ := (loadInv_of_reachable hregular hs).validated hne
  exact hnot payload hstores

/-- It returns what the worker makes of the namespace. -/
theorem loadsInto_verdict {chunks : List (List UInt8)} {reply : LoadResult}
    (h : LoadVerdict crc32c config key disk chunks reply)
    (hcopies : Copies facade.retries writer [] [] chunks writes none) :
    LoadsInto crc32c config key disk facade writer reply writes := by
  obtain ⟨s, hs, hret, hwrites⟩ := streamingLoad_returns crc32c config Faultless writer False key facade
    h hcopies
  exact ⟨s, hs, hret, hwrites⟩

/-- In a directory nothing fails. -/
theorem not_mayFail_load (hdirectory : disk.isDirectory = true) : ¬MayFail Faultless False disk :=
  fun h => h.elim id (not_trouble hdirectory)

end Streaming

/-- **What is absent is absent for all.** -/
theorem says_absent (hdirectory : disk.isDirectory = true)
    (hnone : disk.entry (blobFilename config.format key) = none) :
    SaysAbsent crc32c config platform key disk := by
  have hregular : disk.entry (blobFilename config.format key) ≠ some .other := by
    rw [hnone]
    nofun
  exact {
    load := fun x after => (ends_load hregular x after).trans
      (and_congr_left' (loads_absent hdirectory hnone x))
    loadInto := fun facade writer r writes => by
      constructor
      · intro h
        cases h.finished hregular with
        | loaded hstores => exact absurd (hnone.symm.trans hstores.2) nofun
        | absent _ _ hwrites => exact ⟨rfl, hwrites⟩
        | rejected hrejects =>
          obtain ⟨content, hentry, -⟩ := hrejects
          exact absurd (hnone.symm.trans hentry) nofun
        | output hstores => exact absurd (hnone.symm.trans hstores.2) nofun
        | failed hfails => exact absurd hfails (not_mayFail_load hdirectory)
      · rintro ⟨rfl, rfl⟩
        exact loadsInto_verdict (.absent hdirectory hnone) .finished
    inspect := ends_missing (missing_inspectBlob hnone) (returns_inspectBlob hnone) hdirectory
    quarantine := ends_missing (missing_quarantineBlob platform hnone)
      (returns_quarantineBlob_missing platform hnone) hdirectory
    clear := ends_missing (missing_clearBlob platform hnone) (returns_clearBlob platform hnone)
      hdirectory }

/-- **Without a directory all fail.** -/
theorem all_fail (hnot : disk.isDirectory = false) : AllFail crc32c config platform key disk := by
  have hnone := entry_of_not_directory hnot (blobFilename config.format key)
  have hregular : disk.entry (blobFilename config.format key) ≠ some .other := by
    rw [hnone]
    nofun
  have hstores (payload : List UInt8) : ¬Stores crc32c config key disk payload :=
    fun h => absurd (hnone.symm.trans h.2) nofun
  obtain ⟨⟨e, hload⟩, hloads⟩ := loads_unavailable crc32c config key hnot
  exact {
    load := ⟨⟨e, disk, (ends_load hregular _ _).mpr ⟨hload, rfl⟩⟩,
      fun x after h => hloads x ((ends_load hregular x after).mp h).1⟩
    loadInto := fun facade writer => by
      refine ⟨⟨_, loadsInto_verdict (.unavailable hnot) .finished⟩, fun r writes h => ?_⟩
      refine ⟨?_, h.idle hregular hstores⟩
      cases h.finished hregular with
      | loaded hloaded => exact absurd hloaded (hstores _)
      | absent _ hdirectory => exact absurd (hdirectory.symm.trans hnot) Bool.noConfusion
      | rejected hrejects => exact ⟨_, rfl⟩
      | output hloaded => exact absurd hloaded (hstores _)
      | failed hfails => exact ⟨_, rfl⟩
    inspect := fails_missing (missing_inspectBlob hnone) (returns_inspectBlob hnone) hnot
    quarantine := fails_missing (missing_quarantineBlob platform hnone)
      (returns_quarantineBlob_missing platform hnone) hnot
    clear := fails_missing (missing_clearBlob platform hnone) (returns_clearBlob platform hnone) hnot }

/-- What is there says so: `inspect` and the two loads look at it. -/
theorem ends_inspect {content : List UInt8}
    (hentry : disk.entry (blobFilename config.format key) = some (.file content))
    (x : Except Abort BlobInspection) (after : Disk) :
    Ends (inspectBlob (blobFilename config.format key)) disk x after ↔
      (∃ modified, x = .ok ⟨.present, some content.length, modified⟩) ∧ after = disk := by
  constructor
  · rintro ⟨w, ⟨n, hrun⟩, rfl⟩
    have hholds : Holds (Fs Faultless) (inspectBlob (blobFilename config.format key)).run
        (fun x w => w = .start disk ∧ ∃ modified, x = .ok ⟨.present, some content.length, modified⟩)
        (fun w => w = .start disk) (.start disk) := by
      refine holds_call (I := FsInterface) (c := .symlinkMetadata _) rfl fun r w henv => ?_
      obtain ⟨rfl, henv⟩ := henv
      cases r with
      | ok found =>
        simp only [JobWorld.start, hentry] at henv
        obtain ⟨hfile, hlen⟩ := henv
        show Holds _ (ExceptT.run (if found.isFile = true then _ else _)) _ _ _
        rw [if_pos hfile, hlen]
        exact holds_ret rfl ⟨rfl, found.modified, rfl⟩
      | error source =>
        have hlookup : LookupError Faultless (.symlinkMetadata (blobFilename config.format key)) disk
            (blobFilename config.format key) source := henv
        unfold LookupError at hlookup
        split at hlookup
        · exact absurd (hentry.symm.trans hlookup) (by simp)
        · rcases hlookup with hfault | hnot
          · exact hfault.elim
          · exact absurd ((Disk.isDirectory_of_entry hentry).symm.trans hnot) Bool.noConfusion
    obtain ⟨rfl, hx⟩ := (hholds n _ w hrun).2 x rfl
    exact ⟨hx, rfl⟩
  · rintro ⟨⟨modified, rfl⟩, rfl⟩
    have hlook : Fs Faultless (.symlinkMetadata (blobFilename config.format key)) (.start after)
        (.ok ⟨true, content.length, modified⟩) (.start after) := by
      refine ⟨rfl, ?_⟩
      simp only [JobWorld.start, hentry, and_self]
    exact ⟨_, Returns.call hlook returns_ret, rfl⟩

/-- A safe maximum can be allocated. -/
theorem allocates_of_safe (hmax : SafeMaximum config.maximum) : Allocates config key disk := by
  have hbound : config.maximum + 22 ≤ isizeMax := hmax
  intro content hentry declared rest heq hle
  omega

/-- **A file is told as what it is.** -/
theorem reports (hmax : SafeMaximum config.maximum) {content : List UInt8}
    (hentry : disk.entry (blobFilename config.format key) = some (.file content)) :
    Reports crc32c config key disk content := by
  have hregular : disk.entry (blobFilename config.format key) ≠ some .other := by
    rw [hentry]
    nofun
  have hdirectory : disk.isDirectory = true := Disk.isDirectory_of_entry hentry
  have halloc : Allocates config key disk := allocates_of_safe hmax
  have hstores_iff (payload : List UInt8) : Stores crc32c config key disk payload ↔
      encodeEnvelope crc32c config.format payload config.maximum = .ok content := by
    rw [encodeEnvelope_ok_iff crc32c config.format hmax, Stores, hentry]
    exact and_congr_right' ⟨fun h => Node.file.inj (Option.some.inj h), fun h => h ▸ rfl⟩
  exact {
    inspect := ends_inspect hentry
    valid := fun payload hencodes => by
      have hstores := (hstores_iff payload).mpr hencodes
      refine ⟨fun x after => (ends_load hregular x after).trans
        (and_congr_left' (hstores.loads halloc x)), fun facade writer r writes h hgoing => ?_,
        fun facade => ?_⟩
      · cases h.finished hregular with
        | loaded hloaded hcopies =>
          obtain rfl := hloaded.unique hstores
          exact ⟨rfl, hcopies.all.trans (flatten_streamChunks _)⟩
        | absent hnone => exact absurd (hentry.symm.trans hnone) nofun
        | rejected hrejects => exact absurd hstores (hrejects.not_stores payload)
        | output hloaded hcopies => exact absurd ((hcopies.outcome_eq rfl).trans hgoing) nofun
        | failed hfails => exact absurd hfails (not_mayFail_load hdirectory)
      · obtain ⟨writes, hcopies⟩ := copies_acceptsAll facade.retries (streamChunks payload) [] []
        exact ⟨writes, loadsInto_verdict (.stored hstores) hcopies⟩
    invalid := fun hno => by
      have hnot (payload : List UInt8) : ¬Stores crc32c config key disk payload :=
        fun hstores => hno payload ((hstores_iff payload).mp hstores)
      obtain ⟨e, hrejects⟩ : ∃ e, Rejects crc32c config key disk e :=
        (stores_or_rejects crc32c hentry).resolve_left fun ⟨payload, hstores⟩ => hnot payload hstores
      have hloads := hrejects.loads halloc
      refine ⟨e, fun x after => (ends_load hregular x after).trans (and_congr_left' (hloads x)),
        fun facade writer r writes => ⟨fun h => ⟨?_, h.idle hregular hnot⟩, ?_⟩⟩
      · cases h.finished hregular with
        | loaded hloaded => exact absurd hloaded (hnot _)
        | absent hnone => exact absurd (hentry.symm.trans hnone) nofun
        | rejected hrejected =>
          exact congrArg Except.error (Abort.error.inj
            (Except.error.inj ((hrejected.loads halloc).unique hloads)))
        | output hloaded => exact absurd hloaded (hnot _)
        | failed hfails => exact absurd hfails (not_mayFail_load hdirectory)
      · rintro ⟨rfl, rfl⟩
        exact loadsInto_verdict (.rejected hrejects) .finished }

variable (platform) in
/-- What is there is not reported as missing by the operations that take it away. -/
theorem takes_present {content : List UInt8}
    (hentry : disk.entry (blobFilename config.format key) = some (.file content)) :
    (∀ after, ¬Ends (quarantineBlob config platform (blobFilename config.format key)) disk
      (.error (.error .quarantineSourceMissing)) after) ∧
    ¬Ends (clearBlob config platform (blobFilename config.format key)) disk (.ok ()) disk := by
  constructor
  · rintro after ⟨w, ⟨n, hrun⟩, rfl⟩
    have hholds : HoldsE (Fs Faultless)
        (quarantineBlob config platform (blobFilename config.format key))
        (Quarantined config (.start disk) key) (FailedQuarantine config Faultless (.start disk) key) _
        (.start disk) := holds_quarantineBlob config Faultless _ key platform
    obtain ⟨-, -, htrouble | ⟨-, hnone⟩⟩ := (hholds n _ w hrun).2 _ rfl
    · exact not_trouble (Disk.isDirectory_of_entry hentry) htrouble
    · exact absurd (hentry.symm.trans hnone) nofun
  · rintro ⟨w, ⟨n, hrun⟩, hsame⟩
    have hholds : HoldsE (Fs Faultless) (clearBlob config platform (blobFilename config.format key))
        (fun _ => Cleared config (.start disk) key) _ _ (.start disk) :=
      holds_clearBlob config Faultless _ key platform
    obtain ⟨moved, hseen⟩ := (hholds n _ w hrun).2 _ rfl
    have hgone := hseen.canonical key
    rw [if_pos rfl, hsame, hentry] at hgone
    nomatch hgone

/-- **What is not absent is absent for none.** -/
theorem never_says_absent (hmax : SafeMaximum config.maximum)
    (hregular : disk.entry (blobFilename config.format key) ≠ some .other)
    (hnot : ¬(disk.isDirectory = true ∧ disk.entry (blobFilename config.format key) = none)) :
    NeverSaysAbsent crc32c config platform key disk := by
  cases hentry : disk.entry (blobFilename config.format key) with
  | none =>
    have hdirectory : disk.isDirectory = false :=
      (Bool.eq_false_or_eq_true _).resolve_left fun hdirectory => hnot ⟨hdirectory, hentry⟩
    have hfail : AllFail crc32c config platform key disk := all_fail hdirectory
    exact {
      load := fun after h => by
        obtain ⟨e, he⟩ := hfail.load.2 _ _ h
        nomatch he
      loadInto := fun facade writer writes h => by
        obtain ⟨⟨e, he⟩, -⟩ := (hfail.loadInto facade writer).2 _ _ h
        nomatch he
      inspect := fun inspection after h => by
        obtain ⟨e, he⟩ := hfail.inspect.2 _ _ h
        nomatch he
      quarantine := fun after h => by
        obtain ⟨e, hother, he⟩ := ends_unavailable (missing_quarantineBlob platform hentry) hdirectory h
        exact hother (Abort.error.inj (Except.error.inj he)).symm
      clear := fun h => by
        obtain ⟨e, he⟩ := hfail.clear.2 _ _ h
        nomatch he }
  | some node =>
    obtain ⟨content, rfl⟩ : ∃ content, node = .file content := by
      cases node with
      | file content => exact ⟨content, rfl⟩
      | other => exact absurd hentry hregular
    have hreports : Reports crc32c config key disk content := reports hmax hentry
    obtain ⟨hquarantine, hclear⟩ := takes_present platform hentry
    exact {
      load := fun after h => by
        by_cases hvalid : ∃ payload,
          encodeEnvelope crc32c config.format payload config.maximum = .ok content
        · obtain ⟨payload, hencodes⟩ := hvalid
          nomatch (((hreports.valid payload hencodes).1 _ _).mp h).1
        · obtain ⟨e, hload, -⟩ := hreports.invalid fun payload hencodes => hvalid ⟨payload, hencodes⟩
          nomatch ((hload _ _).mp h).1
      loadInto := fun facade writer writes h => by
        cases h.finished hregular with
        | absent hnone => exact absurd (hentry.symm.trans hnone) nofun
      inspect := fun inspection after h => by
        obtain ⟨⟨modified, heq⟩, -⟩ := (hreports.inspect _ _).mp h
        rw [Except.ok.inj heq]
      quarantine := hquarantine
      clear := hclear }

/-- **Every entry point agrees on presence**: the blob is absent for all exactly where the namespace
    is a directory without its file, the loads and `inspect` tell what a file holds, all fail where
    there is no directory, and who only looks changes nothing. -/
theorem presence_agrees (crc32c : Crc32c) (config : StoreConfig) (platform : Platform) (key : KeyHash)
    (disk : Disk) (hmax : SafeMaximum config.maximum)
    (hregular : disk.entry (blobFilename config.format key) ≠ some .other) :
    (disk.isDirectory = true ∧ disk.entry (blobFilename config.format key) = none →
      SaysAbsent crc32c config platform key disk) ∧
    (¬(disk.isDirectory = true ∧ disk.entry (blobFilename config.format key) = none) →
      NeverSaysAbsent crc32c config platform key disk) ∧
    (∀ content, disk.entry (blobFilename config.format key) = some (.file content) →
      Reports crc32c config key disk content) ∧
    (disk.isDirectory = false → AllFail crc32c config platform key disk) ∧
    LooksOnly crc32c config key disk :=
  ⟨fun h => says_absent h.1 h.2, never_says_absent hmax hregular, fun _ => reports hmax,
    all_fail, looks_only hregular⟩

/-- The theorem for a file that is no envelope: it is present for all. -/
theorem presence_agrees_sample :
    Reports crc32cReference ⟨testFormat, 16, 1, by decide, by decide⟩ (Vector.replicate 32 0)
      (oneFile (blobFilename testFormat (Vector.replicate 32 0)) [7]) [7] ∧
    NeverSaysAbsent crc32cReference ⟨testFormat, 16, 1, by decide, by decide⟩ .windows
      (Vector.replicate 32 0) (oneFile (blobFilename testFormat (Vector.replicate 32 0)) [7]) := by
  have hentry := entry_oneFile (blobFilename testFormat (Vector.replicate 32 0)) [7]
  have hagrees := presence_agrees crc32cReference ⟨testFormat, 16, 1, by decide, by decide⟩ .windows
    (Vector.replicate 32 0) (oneFile (blobFilename testFormat (Vector.replicate 32 0)) [7])
    (by decide) (by
      rw [hentry]
      nofun)
  refine ⟨hagrees.2.2.1 [7] hentry, hagrees.2.1 ?_⟩
  rintro ⟨-, hnone⟩
  exact absurd (hentry.symm.trans hnone) nofun

end Entries

end AtomicBlobStore
