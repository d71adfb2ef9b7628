/-
  The filesystem backends (`filesystem/mod.rs`, and the streaming halves of `format.rs`).

  Each function of the source is a program over `FsInterface`, in the source's order of steps.
  A job may end with a typed error or a panic (`FsM`); the Windows helpers that return a bare
  `io::Error` are programs of their own (`IoM`), and their callers look at how they ended.  What the
  platforms share comes first, then `Unix`, then `Windows`; `runOwnedOperation` picks the function
  that the operation asks for.
-/
import AtomicBlobStore.Format
import AtomicBlobStore.Names
import AtomicBlobStore.Namespace

namespace AtomicBlobStore

open BigEndian

/-- A job: it may stop with a typed error, or panic. -/
abbrev FsM (α : Type) := ProgE FsInterface Abort α

/-- A helper that stops with an `io::Error`. -/
abbrev IoM (α : Type) := ProgE FsInterface IoError α

namespace FsM

variable {α : Type}

/-- One call. -/
def ask (c : FsCall) : FsM c.Answer := ProgE.ask (I := FsInterface) c

/-- Return a typed error. -/
def fail (e : AtomicBlobStoreError) : FsM α := throw (.error e)

/-- `?` on a result of the store. -/
def ofResult : Except AtomicBlobStoreError α → FsM α
  | .ok a => pure a
  | .error e => fail e

/-- `map_err(|source| AtomicBlobStoreError::Io { operation, source })?`. -/
def io (operation : StoreOperation) : Except IoError α → FsM α
  | .ok a => pure a
  | .error source => fail (.io operation source)

/-- Look at the result of a function; a panic goes through. -/
def result (p : FsM α) : FsM (Except AtomicBlobStoreError α) := do
  match ← ProgE.attempt p with
  | .ok a => pure (.ok a)
  | .error (.error e) => pure (.error e)
  | .error .panic => throw .panic

end FsM

namespace IoM

/-- A call, and `?` on its answer. -/
def io {α : Type} : Except IoError α → IoM α
  | .ok a => pure a
  | .error e => throw e

/-- One call. -/
def ask (c : FsCall) : IoM c.Answer := ProgE.ask (I := FsInterface) c

end IoM

open FsM (ask fail ofResult)

/-! ## What the platforms share

  A path that is not found may be missing because the blob is absent, or because the whole namespace is
  gone.  Only the first is an answer; `ensureNamespaceAvailable` is asked before it is given. -/

/-- `ensure_namespace_available`. -/
def ensureNamespaceAvailable : FsM Unit := do
  match ← ask .metadata with
  | .ok true => pure ()
  | .ok false => fail .namespacePathIsNotDirectory
  | .error source => fail (.io .inspectNamespace source)

/-- `inspect_blob`. -/
def inspectBlob (path : FileName) : FsM BlobInspection := do
  match ← ask (.symlinkMetadata path) with
  | .ok metadata =>
    if metadata.isFile then pure ⟨.present, some metadata.len, metadata.modified⟩
    else fail .unexpectedFileType
  | .error source =>
    if source.kind = .notFound then do
      ensureNamespaceAvailable
      pure ⟨.absent, none, none⟩
    else fail (.io .inspectBlob source)

/-- `random_identifier`: 32 random bytes in lowercase hexadecimal. -/
def randomIdentifier : FsM (List Char) := do
  match ← ask .fill with
  | .ok bytes => pure (toHex bytes.toList)
  | .error code => fail (.identifierGeneration code)

section Backends

variable (crc32c : Crc32c) (config : StoreConfig)

/-- What follows a successful `File::open`: a decoder over the file, whose state is dropped. -/
def FsM.decode {α : Type} (file : OpenFile) (m : DecodeM Nat α) : FsM α :=
  ProgE.ofExcept (m.run file.position).1

/-- `load_blob`. -/
def loadBlob (path : FileName) : FsM (Option (List UInt8)) := do
  match ← ask (.openFile path) with
  | .ok file => do
    let payload ← FsM.decode file (decodeReader crc32c config.format file.source config.maximum)
    pure (some payload)
  | .error source =>
    if source.kind = .notFound then do
      ensureNamespaceAvailable
      pure none
    else fail (.io .openBlob source)

/-- One turn of the sending loop of `load_blob_into_sender`, with what remains and where the file
    stands. -/
def sendTurn (source : Source IoError Nat) : Nat × Nat → FsM (Nat × Nat ⊕ Unit)
  | (remaining, position) =>
    if remaining = 0 then pure (.inr ())
    else do
      let requested := min remaining streamChunkSize
      let (outcome, position) := (readSection source requested .payload).run position
      let chunk ← (ProgE.ofExcept outcome : FsM (List UInt8))
      if ← ask (.send chunk) then pure (.inl (remaining - requested, position))
      else fail .streamCancelled

/-- `load_blob_into_sender`.  Two passes over one open file: the first checks the whole envelope, and
    only a payload that passed is sent in the second, after a seek back behind the header. -/
def loadBlobIntoSender (path : FileName) : FsM (Option BlobMetadata) := do
  match ← ask (.openFile path) with
  | .ok file => do
    let metadata ← FsM.decode file
      (validateEnvelopeReader crc32c config.format file.source config.maximum)
    let file ← FsM.io .readEnvelope (← ask (.seek file headerLen))
    ProgE.iterate (sendTurn file.source) (metadata.payloadLen, file.position)
    if ← ask .recvAcknowledgement then pure (some metadata) else fail .streamCancelled
  | .error source =>
    if source.kind = .notFound then do
      ensureNamespaceAvailable
      pure none
    else fail (.io .openBlob source)

/-- One turn of the loop of `write_stream_envelope`, with the running checksum and the number of
    bytes written; `write` is `write_all` on the writer. -/
def streamTurn (write : List UInt8 → FsM Unit) (declaredLen : Nat) :
    UInt32 × Nat → FsM (UInt32 × Nat ⊕ Unit)
  | (checksum, written) => do
    match ← ask .recv with
    | some (.chunk chunk) =>
      let count := chunk.length
      -- `checked_add` fails, or the total is larger than declared
      if written + count ≥ u64Limit ∨ written + count > declaredLen then
        fail (.inputHasTrailingData declaredLen)
      else do
        write chunk
        pure (.inl (crc32c.append checksum chunk, written + count))
    | some .complete =>
      if written ≠ declaredLen then fail (.inputEndedEarly declaredLen written)
      else do
        write (toBeBytes 4 checksum.toNat)
        pure (.inr ())
    | none => fail .streamCancelled

/-- `write_stream_envelope`.  The header promises `declaredLen` before any of the payload has arrived;
    the loop refuses the chunk that would exceed it, and the end of a stream that falls short of it. -/
def writeStreamEnvelope (write : List UInt8 → FsM Unit) (declaredLen : Nat) : FsM Unit := do
  let header ← ofResult (envelopeHeader config.format declaredLen config.maximum)
  write header
  ProgE.iterate (streamTurn crc32c write declaredLen) (crc32c.checksum header, 0)

/-! ## Unix

  A save writes to a file that has none of the store's names until it is committed; a third-party writer
  opens it and commits it.  What is left to the store is to sync the directory after it changed an entry
  itself. -/

namespace Unix

/-- `write_all` on the atomic writer. -/
def writeAtomic (bytes : List UInt8) : FsM Unit := do
  FsM.io .writeEnvelope (← ask (.writeAtomic bytes))

/-- `commit`. -/
def commit : FsM Unit := do
  match ← ask .commit with
  | .ok () => pure ()
  | .error source => fail (.atomicCommit source)

/-- `save_blob`. -/
def saveBlob (path : FileName) (payload : List UInt8) : FsM Unit := do
  let (header, checksum) ← ofResult (envelopeParts crc32c config.format payload config.maximum)
  FsM.io .openAtomicWriter (← ask (.openAtomic path))
  writeAtomic header
  writeAtomic payload
  writeAtomic checksum
  commit

/-- `save_blob_from_receiver`. -/
def saveBlobFromReceiver (path : FileName) (declaredLen : Nat) : FsM Unit := do
  let _ ← ofResult (envelopeHeader config.format declaredLen config.maximum)
  FsM.io .openAtomicWriter (← ask (.openAtomic path))
  writeStreamEnvelope crc32c config writeAtomic declaredLen
  commit

/-- `sync_directory`. -/
def syncDirectory (openOperation syncOperation : StoreOperation) : FsM Unit := do
  FsM.io openOperation (← ask .openDirectory)
  FsM.io syncOperation (← ask .syncDirectory)

/-- `clear_blob`. -/
def clearBlob (path : FileName) : FsM Unit := do
  match ← ask (.removeFile path) with
  | .ok () => syncDirectory .openNamespaceDirectory .syncNamespaceDirectory
  | .error source =>
    if source.kind = .notFound then ensureNamespaceAvailable
    else fail (.io .removeBlob source)

/-- `sync_quarantine_namespace`. -/
def syncQuarantineNamespace (quarantine : QuarantineInfo) : FsM Unit := do
  match ← ask .openDirectory with
  | .error source => fail (.quarantineNamespaceSync quarantine source)
  | .ok () =>
    match ← ask .syncDirectory with
    | .error source => fail (.quarantineNamespaceSync quarantine source)
    | .ok () => pure ()

/-- One turn of the loop of `quarantine_blob`.  `NOENT` and `EXIST` are the only error numbers of
    their kinds. -/
def quarantineTurn (path hash : FileName) : FsM (Unit ⊕ QuarantineInfo) := do
  let identifier ← randomIdentifier
  let destination := quarantineFilename hash config.format.filenameSuffix identifier
  match ← ask (.renameNoReplace path destination) with
  | .ok () => do
    let quarantine : QuarantineInfo := ⟨identifier, destination⟩
    syncQuarantineNamespace quarantine
    pure (.inr quarantine)
  | .error error =>
    if error.kind = .notFound then do
      ensureNamespaceAvailable
      fail .quarantineSourceMissing
    else if error.kind = .alreadyExists then pure (.inl ())
    else fail (.quarantineCommit error)

/-- `path.file_stem().and_then(OsStr::to_str).ok_or(UnexpectedFileType)?`. -/
def stem (path : FileName) : FsM FileName :=
  match fileStem path with
  | some hash => pure hash
  | none => fail .unexpectedFileType

/-- `quarantine_blob`. -/
def quarantineBlob (path : FileName) : FsM QuarantineInfo := do
  let hash ← stem path
  ProgE.iterate (fun _ => quarantineTurn config path hash) ()

/-- `std::env::consts::OS`, where the crate is built for Linux. -/
def os : List Char := "linux".toList

/-- `cleanup_stale_files`. -/
def cleanupStaleFiles (_minimumAge : Nat) : FsM CleanupReport := fail (.cleanupUnsupported os)

end Unix

/-! ## Windows

  There is no such writer here, so the store stages its files itself, under names of its own with a
  random part.  A save writes a staging file and moves it into place; a clear moves the blob to a
  staging name and deletes it there.  A name that is taken is answered by drawing another one. -/

namespace Windows

open Unix (stem)

/-- The error of a retry: `Err(Io { source, .. }) if source.kind() == AlreadyExists`. -/
def isAlreadyExists : Abort → Bool
  | .error (.io _ source) => source.kind == .alreadyExists
  | _ => false

/-- `commit_windows_staging`. -/
def commitWindowsStaging (staging destination : FileName) : FsM Unit := do
  match ← ask (.moveSaveFile staging destination false) with
  | .ok () => pure ()
  | .error source =>
    if source.isFileExists then do
      match ← ask (.moveSaveFile staging destination true) with
      | .ok () => pure ()
      | .error source => fail (.atomicCommit source)
    else fail (.atomicCommit source)

/-- `sync_windows_directory`. -/
def syncWindowsDirectory : IoM Unit := do
  IoM.io (← IoM.ask .openDirectory)
  IoM.io (← IoM.ask .syncDirectory)

/-- `write_all` on a staging file. -/
def writeStaging (path : FileName) (bytes : List UInt8) : FsM Unit := do
  FsM.io .writeEnvelope (← ask (.writeFile path bytes))

/-- `create_windows_staging`. -/
def createWindowsStaging (path : FileName) (header payload checksum : List UInt8) : FsM Unit := do
  FsM.io .openAtomicWriter (← ask (.createNew path))
  writeStaging path header
  writeStaging path payload
  writeStaging path checksum
  FsM.io .writeEnvelope (← ask (.flushFile path))

/-- `create_windows_streaming_staging`. -/
def createWindowsStreamingStaging (path : FileName) (declaredLen : Nat) : FsM Unit := do
  FsM.io .openAtomicWriter (← ask (.createNew path))
  writeStreamEnvelope crc32c config (writeStaging path) declaredLen
  FsM.io .writeEnvelope (← ask (.flushFile path))

/-- The error of a time that no file can have. -/
def fileTimeError : IoError :=
  .withMessage "current time cannot be represented as a Windows file time".toList

/-- The current time as a Windows file time, in 100 ns since 1601. -/
def fileTimeTicks (seconds nanoseconds : Nat) : Except IoError Nat :=
  let ticks := seconds * 10000000
  if ticks ≥ u64Limit then .error fileTimeError
  else if ticks + nanoseconds / 100 ≥ u64Limit then .error fileTimeError
  else if ticks + nanoseconds / 100 + 116444736000000000 ≥ u64Limit then .error fileTimeError
  else .ok (ticks + nanoseconds / 100 + 116444736000000000)

/-- `refresh_windows_clear_age`. -/
def refreshWindowsClearAge (path : FileName) : IoM Unit := do
  let (seconds, nanoseconds) ← IoM.io (← IoM.ask .sinceEpoch)
  let ticks ← IoM.io (fileTimeTicks seconds nanoseconds)
  IoM.io (← IoM.ask (.openExisting path))
  IoM.io (← IoM.ask (.setFileTime path ticks))
  IoM.io (← IoM.ask (.flushFile path))

/-- What follows a complete staging file: move it into place and sync the directory. -/
def publish (staging path : FileName) : FsM Unit := do
  commitWindowsStaging staging path
  FsM.io .syncNamespaceDirectory (← ProgE.attempt syncWindowsDirectory)

/-- One turn of the loop of `save_blob`. -/
def saveTurn (path hash : FileName) (header payload checksum : List UInt8) :
    FsM (Unit ⊕ Unit) := do
  let identifier ← randomIdentifier
  let staging := stagingFilename hash config.format.filenameSuffix .save identifier
  match ← ProgE.attempt (createWindowsStaging staging header payload checksum) with
  | .ok () => do
    publish staging path
    pure (.inr ())
  | .error abort => if isAlreadyExists abort then pure (.inl ()) else throw abort

/-- `save_blob`. -/
def saveBlob (path : FileName) (payload : List UInt8) : FsM Unit := do
  let (header, checksum) ← ofResult (envelopeParts crc32c config.format payload config.maximum)
  let hash ← stem path
  ProgE.iterate (fun _ => saveTurn config path hash header payload checksum) ()

/-- One turn of the loop of `save_blob_from_receiver`: unlike `save_blob`, it removes the staging
    file it gives up. -/
def saveStreamTurn (path hash : FileName) (declaredLen : Nat) : FsM (Unit ⊕ Unit) := do
  let identifier ← randomIdentifier
  let staging := stagingFilename hash config.format.filenameSuffix .save identifier
  match ← ProgE.attempt (createWindowsStreamingStaging crc32c config staging declaredLen) with
  | .ok () => do
    publish staging path
    pure (.inr ())
  | .error abort =>
    if isAlreadyExists abort then pure (.inl ())
    else do
      let _ ← ask (.deleteFile staging)
      throw abort

/-- `save_blob_from_receiver`.  The stream is not rewound when an attempt is given up: the next one goes
    on receiving where it stopped. -/
def saveBlobFromReceiver (path : FileName) (declaredLen : Nat) : FsM Unit := do
  let _ ← ofResult (envelopeHeader config.format declaredLen config.maximum)
  let hash ← stem path
  ProgE.iterate (fun _ => saveStreamTurn crc32c config path hash declaredLen) ()

/-- One turn of the loop of `clear_blob`.  The blob is gone as soon as it has been moved; what comes
    after is deleting the file under its staging name, and a failure there leaves a file for a
    cleanup. -/
def clearTurn (path hash : FileName) : FsM (Unit ⊕ Unit) := do
  let identifier ← randomIdentifier
  let staging := stagingFilename hash config.format.filenameSuffix .clear identifier
  match ← ask (.moveFile path staging) with
  | .ok () => do
    FsM.io .syncNamespaceDirectory (← ProgE.attempt syncWindowsDirectory)
    FsM.io .removeTemporaryFile (← ask (.deleteFile staging))
    pure (.inr ())
  | .error error =>
    if error.kind = .notFound then do
      ensureNamespaceAvailable
      pure (.inr ())
    else if error.kind = .alreadyExists then pure (.inl ())
    else fail (.io .removeBlob error)

/-- `clear_blob`.  The file time is set to the present before the move: cleanup judges a staging file by
    its age, and an old blob must not look like an old staging file. -/
def clearBlob (path : FileName) : FsM Unit := do
  let hash ← stem path
  match ← ProgE.attempt (refreshWindowsClearAge path) with
  | .ok () => ProgE.iterate (fun _ => clearTurn config path hash) ()
  | .error source =>
    if source.kind = .notFound then ensureNamespaceAvailable
    else fail (.io .refreshClearStagingAge source)

/-- One turn of the loop of `quarantine_blob`. -/
def quarantineTurn (path hash : FileName) : FsM (Unit ⊕ QuarantineInfo) := do
  let identifier ← randomIdentifier
  let destination := quarantineFilename hash config.format.filenameSuffix identifier
  match ← ask (.moveFile path destination) with
  | .ok () => do
    let quarantine : QuarantineInfo := ⟨identifier, destination⟩
    match ← ProgE.attempt syncWindowsDirectory with
    | .ok () => pure (.inr quarantine)
    | .error source => fail (.quarantineNamespaceSync quarantine source)
  | .error error =>
    if error.kind = .notFound then do
      ensureNamespaceAvailable
      fail .quarantineSourceMissing
    else if error.kind = .alreadyExists then pure (.inl ())
    else fail (.quarantineCommit error)

/-- `quarantine_blob`. -/
def quarantineBlob (path : FileName) : FsM QuarantineInfo := do
  let hash ← stem path
  ProgE.iterate (fun _ => quarantineTurn config path hash) ()

/-- A report with one more failure. -/
def addFailure (report : CleanupReport) (identifier : FileName) (source : IoError) : CleanupReport :=
  { report with failures := report.failures ++ [⟨identifier, source⟩] }

/-- One turn of the loop of `cleanup_stale_files`, with the report so far.  It never fails: whatever
    goes wrong is put into the report. -/
def cleanupEntry (now minimumAge : Nat) (report : CleanupReport) :
    Except IoError FileName → FsM CleanupReport
  | .error source => pure (addFailure report "<directory-entry>".toList source)
  | .ok name =>
    if !isOwnedTemporaryFilename name config.format.filenameSuffix then pure report
    else do
      match ← ask (.symlinkMetadata name) with
      | .error source => pure (addFailure report name source)
      | .ok metadata =>
        if !metadata.isFile then
          pure (addFailure report name
            (.withMessage "owned staging name is not a regular file".toList))
        -- an unreadable time and one in the future are never old enough
        else if !metadata.modified.any fun time => time ≤ now && minimumAge ≤ now - time then
          pure { report with skipped := report.skipped ++ [name] }
        else do
          match ← ask (.deleteFile name) with
          | .ok () => pure { report with removed := report.removed ++ [name] }
          | .error source => pure (addFailure report name source)

/-- The loop of `cleanup_stale_files`, by recursion on the listing.  Every entry is dealt with on its
    own: what goes wrong with one is written into the report, and the loop goes on. -/
def cleanupEntries (now minimumAge : Nat) :
    List (Except IoError FileName) → CleanupReport → FsM CleanupReport
  | [], report => pure report
  | entry :: entries, report => do
    let report ← cleanupEntry config now minimumAge report entry
    cleanupEntries now minimumAge entries report

/-- `cleanup_stale_files`. -/
def cleanupStaleFiles (minimumAge : Nat) : FsM CleanupReport := do
  let now ← ask .now
  let entries ← FsM.io .enumerateTemporaryFiles (← ask .readDirectory)
  cleanupEntries config now minimumAge entries ⟨[], [], []⟩

end Windows

/-! ## Running an operation

  The source compiles one backend or the other.  Here the platform is an argument, so that a statement
  can be about both. -/

/-- The two backends. -/
inductive Platform
  /-- `cfg(unix)` -/
  | unix
  /-- `cfg(windows)` -/
  | windows
  deriving DecidableEq, Repr

/-- `save_blob`, as the platform has it. -/
def saveBlob (platform : Platform) (path : FileName) (payload : List UInt8) : FsM Unit :=
  match platform with
  | .unix => Unix.saveBlob crc32c config path payload
  | .windows => Windows.saveBlob crc32c config path payload

/-- `save_blob_from_receiver`, as the platform has it. -/
def saveBlobFromReceiver (platform : Platform) (path : FileName) (declaredLen : Nat) : FsM Unit :=
  match platform with
  | .unix => Unix.saveBlobFromReceiver crc32c config path declaredLen
  | .windows => Windows.saveBlobFromReceiver crc32c config path declaredLen

/-- `clear_blob`, as the platform has it. -/
def clearBlob (platform : Platform) (path : FileName) : FsM Unit :=
  match platform with
  | .unix => Unix.clearBlob path
  | .windows => Windows.clearBlob config path

/-- `quarantine_blob`, as the platform has it. -/
def quarantineBlob (platform : Platform) (path : FileName) : FsM QuarantineInfo :=
  match platform with
  | .unix => Unix.quarantineBlob config path
  | .windows => Windows.quarantineBlob config path

/-- `cleanup_stale_files`, as the platform has it. -/
def cleanupStaleFiles (platform : Platform) (minimumAge : Nat) : FsM CleanupReport :=
  match platform with
  | .unix => Unix.cleanupStaleFiles minimumAge
  | .windows => Windows.cleanupStaleFiles config minimumAge

/-- `run_owned_operation`: run an operation on the blob at a path. -/
def runOwnedOperation (platform : Platform) (path : FileName) : Operation → FsM BlockingResult
  | .load _ => BlockingResult.load <$> (loadBlob crc32c config path).result
  | .loadStream .. => BlockingResult.loadStream <$> (loadBlobIntoSender crc32c config path).result
  | .save payload _ => BlockingResult.save <$> (saveBlob crc32c config platform path payload).result
  | .saveStream declaredLen _ _ =>
    BlockingResult.saveStream <$> (saveBlobFromReceiver crc32c config platform path declaredLen).result
  | .clear _ => BlockingResult.clear <$> (clearBlob config platform path).result
  | .inspect _ => BlockingResult.inspect <$> (inspectBlob path).result
  | .quarantine _ => BlockingResult.quarantine <$> (quarantineBlob config platform path).result

end Backends

end AtomicBlobStore
