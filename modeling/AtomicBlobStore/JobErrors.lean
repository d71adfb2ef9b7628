/-
  JOB ERRORS: what a job reports is its own.

  A caller is told of a failure by the coordinator, by a handle that looks at the lifecycle, or by the
  outcome of a job.  The errors of the first two (`AtomicBlobStoreError.ofEngine`) are never those of
  the third.

  1. **Programs** (`Own`) — none of the filesystem functions stops with an error of the engine, whatever
     it is answered: one lemma for each function, in the order of `Filesystem`.

  2. **Jobs** (`endsWith_job`) — so the job of an operation or a cleanup ends with a reply whose error,
     if there is one, is its own, or it panics.

  3. **The store** (`own_delivered`) — so does every outcome that is delivered, in every run.
-/
import AtomicBlobStore.CoordinatorLoss
import AtomicBlobStore.Isolation

namespace AtomicBlobStore

open FsM (ask fail ofResult)

/-! ## Errors of the engine

  The error type is one for all parts of the store.  Which part an error comes from is not recorded in
  it, but the variants fall into two classes. -/

/-- The errors that say something about the coordinator, its workers or the lifecycle. -/
def AtomicBlobStoreError.ofEngine : AtomicBlobStoreError → Bool
  | .storeClosed => true
  | .engineFailed => true
  | .workerUnavailable => true
  | .shutdownFailure => true
  | .maintenanceCoordinationFailure => true
  | _ => false

/-- A job that stops so does not speak for the engine. -/
def Abort.Own : Abort → Prop
  | .error e => e.ofEngine = false
  | .panic => True

/-! ## Programs -/

section Own

variable {α β : Type}

/-- A program that never stops with an error of the engine. -/
abbrev Own (p : FsM α) : Prop := FailsOnly Abort.Own p

theorem own_fail {e : AtomicBlobStoreError} (h : e.ofEngine = false) : Own (fail e : FsM α) :=
  failsOnly_throw (E := Abort.Own) h

theorem own_ask {c : FsCall} {f : c.Answer → FsM β} (hf : ∀ r, Own (f r)) : Own (ask c >>= f) :=
  failsOnly_ask hf

/-- An error of a system call is the job's own. -/
theorem own_io {operation : StoreOperation} (r : Except IoError α) : Own (FsM.io operation r) := by
  cases r with
  | ok a => exact failsOnly_pure a
  | error source => exact own_fail rfl

/-- A call, and `?` on its answer. -/
theorem own_askIo {c : FsCall} {operation : StoreOperation} {g : c.Answer → Except IoError α}
    {k : α → FsM β} (hk : ∀ a, Own (k a)) :
    Own (ask c >>= fun r => FsM.io operation (g r) >>= k) :=
  own_ask fun _ => failsOnly_bind (own_io _) hk

theorem own_ofResult {r : Except AtomicBlobStoreError α} (h : ∀ e, r = .error e → e.ofEngine = false) :
    Own (ofResult r) := by
  cases r with
  | ok a => exact failsOnly_pure a
  | error e => exact own_fail (h e rfl)

/-- What follows a helper of the filesystem looks at its result. -/
theorem own_attempt {p : IoM α} {f : Except IoError α → FsM β} (hf : ∀ r, Own (f r)) :
    Own (ProgE.attempt p >>= f) :=
  failsOnly_attempt (failsOnly_any p) (fun a => hf (.ok a)) fun e _ => hf (.error e)

end Own

section Backends

variable (crc32c : Crc32c) (config : StoreConfig)

/-! ### Decoding -/

section Decoding

variable {σ : Type} (source : Source IoError σ)

theorem own_readSection (n : Nat) (envelopeSection : EnvelopeSection) :
    Reader.FailsOnly Abort.Own (readSection source n envelopeSection) := by
  refine Reader.failsOnly_exactly source (fun e => ?_) n
  unfold sectionError
  split
  · exact rfl
  · exact rfl

theorem own_throwError {α : Type} {e : AtomicBlobStoreError} (h : e.ofEngine = false) :
    Reader.FailsOnly Abort.Own (DecodeM.throwError e : DecodeM σ α) := Reader.failsOnly_fail h

theorem own_expectEof : Reader.FailsOnly Abort.Own (expectEof source) := by
  refine Reader.failsOnly_bind (Reader.failsOnly_probe source) fun r => ?_
  rcases r with e | _ | _
  · exact own_throwError rfl
  · exact Reader.failsOnly_pure _
  · exact own_throwError rfl

theorem own_allocate (n : Nat) : Reader.FailsOnly Abort.Own (allocate n : DecodeM σ Unit) :=
  Reader.failsOnly_ite (Reader.failsOnly_fail trivial) (Reader.failsOnly_pure _)

theorem own_decodeReader : Reader.FailsOnly Abort.Own
    (decodeReader crc32c config.format source config.maximum) := by
  refine Reader.failsOnly_bind (own_readSection source _ _) fun magic => ?_
  refine Reader.failsOnly_ite (own_throwError rfl) ?_
  refine Reader.failsOnly_bind (own_readSection source _ _) fun version => ?_
  refine Reader.failsOnly_ite (own_throwError rfl) ?_
  refine Reader.failsOnly_bind (own_readSection source _ _) fun length => ?_
  refine Reader.failsOnly_ite (own_throwError rfl) ?_
  refine Reader.failsOnly_ite (own_throwError rfl) ?_
  refine Reader.failsOnly_ite (own_throwError rfl) ?_
  refine Reader.failsOnly_bind (own_allocate _) fun _ => ?_
  refine Reader.failsOnly_bind (own_readSection source _ _) fun payload => ?_
  refine Reader.failsOnly_bind (own_readSection source _ _) fun checksum => ?_
  refine Reader.failsOnly_bind (own_expectEof source) fun _ => ?_
  exact Reader.failsOnly_ite (own_throwError rfl) (Reader.failsOnly_pure _)

theorem own_validatePayload (actual : UInt32) (remaining : Nat) :
    Reader.FailsOnly Abort.Own (validatePayload crc32c source actual remaining) := by
  fun_induction validatePayload crc32c source actual remaining with
  | case1 actual => exact Reader.failsOnly_pure _
  | case2 actual remaining hremaining requested ih =>
    exact Reader.failsOnly_bind (own_readSection source _ _) fun block => ih block

theorem own_validateEnvelopeReader : Reader.FailsOnly Abort.Own
    (validateEnvelopeReader crc32c config.format source config.maximum) := by
  refine Reader.failsOnly_bind (own_readSection source _ _) fun tag => ?_
  refine Reader.failsOnly_ite (own_throwError rfl) ?_
  refine Reader.failsOnly_bind (own_readSection source _ _) fun version => ?_
  refine Reader.failsOnly_ite (own_throwError rfl) ?_
  refine Reader.failsOnly_bind (own_readSection source _ _) fun length => ?_
  refine Reader.failsOnly_ite (own_throwError rfl) ?_
  refine Reader.failsOnly_bind (own_validatePayload crc32c source _ _) fun actual => ?_
  refine Reader.failsOnly_bind (own_readSection source _ _) fun checksum => ?_
  refine Reader.failsOnly_bind (own_expectEof source) fun _ => ?_
  exact Reader.failsOnly_ite (own_throwError rfl) (Reader.failsOnly_pure _)

end Decoding

/-- What a decoder makes of a file. -/
theorem own_decode {α : Type} {m : DecodeM Nat α} (hm : Reader.FailsOnly Abort.Own m) (file : OpenFile) :
    Own (FsM.decode file m) := failsOnly_ofExcept fun e he => hm file.position e he

/-! ### What the platforms share -/

theorem own_ensureNamespaceAvailable : Own ensureNamespaceAvailable := by
  refine own_ask fun r => ?_
  rcases r with source | _ | _
  · exact own_fail rfl
  · exact own_fail rfl
  · exact failsOnly_pure _

/-- A missing file: the namespace is looked at before anything is said. -/
theorem own_missing {α : Type} {p : FsM α} (hp : Own p) :
    Own (ensureNamespaceAvailable >>= fun _ => p) :=
  failsOnly_bind own_ensureNamespaceAvailable fun _ => hp

theorem own_ite {α : Type} {c : Prop} [Decidable c] {p q : FsM α} (hp : Own p) (hq : Own q) :
    Own (if c then p else q) := by
  split
  · exact hp
  · exact hq

theorem own_randomIdentifier : Own randomIdentifier := by
  refine own_ask fun r => ?_
  cases r with
  | ok bytes => exact failsOnly_pure _
  | error code => exact own_fail rfl

theorem own_inspectBlob (path : FileName) : Own (inspectBlob path) := by
  refine own_ask fun r => ?_
  cases r with
  | ok metadata => exact own_ite (failsOnly_pure _) (own_fail rfl)
  | error source => exact own_ite (own_missing (failsOnly_pure _)) (own_fail rfl)

theorem own_loadBlob (path : FileName) : Own (loadBlob crc32c config path) := by
  refine own_ask fun r => ?_
  cases r with
  | ok file =>
    exact failsOnly_bind (own_decode (own_decodeReader crc32c config file.source) file)
      fun _ => failsOnly_pure _
  | error source => exact own_ite (own_missing (failsOnly_pure _)) (own_fail rfl)

theorem own_sendTurn (source : Source IoError Nat) (s : Nat × Nat) : Own (sendTurn source s) := by
  refine own_ite (failsOnly_pure _) ?_
  refine failsOnly_bind (failsOnly_ofExcept fun e he => ?_) fun chunk => own_ask fun sent => ?_
  · exact own_readSection source _ _ s.2 e he
  · exact own_ite (failsOnly_pure _) (own_fail rfl)

theorem own_loadBlobIntoSender (path : FileName) : Own (loadBlobIntoSender crc32c config path) := by
  refine own_ask fun r => ?_
  cases r with
  | ok file =>
    refine failsOnly_bind (own_decode (own_validateEnvelopeReader crc32c config file.source) file)
      fun metadata => own_askIo fun file' => ?_
    refine failsOnly_bind (failsOnly_iterate (own_sendTurn _)) fun _ => own_ask fun received => ?_
    exact own_ite (failsOnly_pure _) (own_fail rfl)
  | error source => exact own_ite (own_missing (failsOnly_pure _)) (own_fail rfl)

theorem envelopeHeader_error {size : Nat} {e : AtomicBlobStoreError}
    (h : envelopeHeader config.format size config.maximum = .error e) : e.ofEngine = false := by
  unfold envelopeHeader at h
  split at h
  · rw [← Except.error.inj h]
    rfl
  · nomatch h

theorem own_envelopeHeader (size : Nat) :
    Own (ofResult (envelopeHeader config.format size config.maximum)) :=
  own_ofResult fun _ he => envelopeHeader_error config he

theorem own_envelopeParts (payload : List UInt8) :
    Own (ofResult (envelopeParts crc32c config.format payload config.maximum)) := by
  refine own_ofResult fun e he => ?_
  unfold envelopeParts at he
  cases hsize : payloadSize payload with
  | error e' =>
    rw [hsize] at he
    obtain rfl : e' = e := Except.error.inj he
    unfold payloadSize at hsize
    split at hsize
    · nomatch hsize
    · rw [← Except.error.inj hsize]
      rfl
  | ok size =>
    rw [hsize] at he
    cases hheader : envelopeHeader config.format size config.maximum with
    | error e' =>
      simp only [bind, Except.bind, hheader] at he
      obtain rfl : e' = e := Except.error.inj he
      exact envelopeHeader_error config hheader
    | ok header =>
      simp only [bind, Except.bind, hheader] at he
      nomatch he

theorem own_streamTurn {write : List UInt8 → FsM Unit} (hwrite : ∀ bytes, Own (write bytes))
    (declaredLen : Nat) (s : UInt32 × Nat) : Own (streamTurn crc32c write declaredLen s) := by
  refine own_ask fun message => ?_
  rcases message with _ | chunk | _
  · exact own_fail rfl
  · exact own_ite (own_fail rfl) (failsOnly_bind (hwrite _) fun _ => failsOnly_pure _)
  · exact own_ite (own_fail rfl) (failsOnly_bind (hwrite _) fun _ => failsOnly_pure _)

theorem own_writeStreamEnvelope {write : List UInt8 → FsM Unit} (hwrite : ∀ bytes, Own (write bytes))
    (declaredLen : Nat) : Own (writeStreamEnvelope crc32c config write declaredLen) :=
  failsOnly_bind (own_envelopeHeader config _) fun _ => failsOnly_bind (hwrite _) fun _ =>
    failsOnly_iterate (own_streamTurn crc32c hwrite declaredLen)

/-! ### Unix -/

namespace Unix

theorem own_writeAtomic (bytes : List UInt8) : Own (writeAtomic bytes) := own_ask fun r => own_io r

theorem own_commit : Own commit := by
  refine own_ask fun r => ?_
  cases r with
  | ok u => exact failsOnly_pure _
  | error source => exact own_fail rfl

theorem own_saveBlob (path : FileName) (payload : List UInt8) :
    Own (saveBlob crc32c config path payload) :=
  failsOnly_bind (own_envelopeParts crc32c config payload) fun _ => own_askIo fun _ =>
    failsOnly_bind (own_writeAtomic _) fun _ => failsOnly_bind (own_writeAtomic _) fun _ =>
      failsOnly_bind (own_writeAtomic _) fun _ => own_commit

theorem own_saveBlobFromReceiver (path : FileName) (declaredLen : Nat) :
    Own (saveBlobFromReceiver crc32c config path declaredLen) :=
  failsOnly_bind (own_envelopeHeader config _) fun _ => own_askIo fun _ =>
    failsOnly_bind (own_writeStreamEnvelope crc32c config own_writeAtomic declaredLen) fun _ =>
      own_commit

theorem own_clearBlob (path : FileName) : Own (clearBlob path) := by
  refine own_ask fun r => ?_
  cases r with
  | ok u => exact own_askIo fun _ => own_ask fun r => own_io r
  | error source => exact own_ite own_ensureNamespaceAvailable (own_fail rfl)

theorem own_syncQuarantineNamespace (quarantine : QuarantineInfo) :
    Own (syncQuarantineNamespace quarantine) := by
  refine own_ask fun r => ?_
  cases r with
  | error source => exact own_fail rfl
  | ok u =>
    refine own_ask fun r => ?_
    cases r with
    | error source => exact own_fail rfl
    | ok u => exact failsOnly_pure _

theorem own_quarantineTurn (path hash : FileName) : Own (quarantineTurn config path hash) := by
  refine failsOnly_bind own_randomIdentifier fun identifier => own_ask fun r => ?_
  cases r with
  | ok u => exact failsOnly_bind (own_syncQuarantineNamespace _) fun _ => failsOnly_pure _
  | error error =>
    exact own_ite (own_missing (own_fail rfl)) (own_ite (failsOnly_pure _) (own_fail rfl))

theorem own_stem (path : FileName) : Own (stem path) := by
  unfold stem
  split
  · exact failsOnly_pure _
  · exact own_fail rfl

theorem own_quarantineBlob (path : FileName) : Own (quarantineBlob config path) :=
  failsOnly_bind (own_stem path) fun hash =>
    failsOnly_iterate fun _ => own_quarantineTurn config path hash

end Unix

/-! ### Windows -/

namespace Windows

theorem own_commitWindowsStaging (staging destination : FileName) :
    Own (commitWindowsStaging staging destination) := by
  refine own_ask fun r => ?_
  cases r with
  | ok u => exact failsOnly_pure _
  | error source =>
    refine own_ite (own_ask fun r => ?_) (own_fail rfl)
    cases r with
    | ok u => exact failsOnly_pure _
    | error source => exact own_fail rfl

theorem own_publish (staging path : FileName) : Own (publish staging path) :=
  failsOnly_bind (own_commitWindowsStaging staging path) fun _ => own_attempt fun r => own_io r

theorem own_writeStaging (path : FileName) (bytes : List UInt8) : Own (writeStaging path bytes) :=
  own_ask fun r => own_io r

theorem own_createWindowsStaging (path : FileName) (header payload checksum : List UInt8) :
    Own (createWindowsStaging path header payload checksum) :=
  own_askIo fun _ => failsOnly_bind (own_writeStaging _ _) fun _ =>
    failsOnly_bind (own_writeStaging _ _) fun _ => failsOnly_bind (own_writeStaging _ _) fun _ =>
      own_ask fun r => own_io r

theorem own_createWindowsStreamingStaging (path : FileName) (declaredLen : Nat) :
    Own (createWindowsStreamingStaging crc32c config path declaredLen) :=
  own_askIo fun _ => failsOnly_bind
    (own_writeStreamEnvelope crc32c config (own_writeStaging path) declaredLen) fun _ =>
      own_ask fun r => own_io r

theorem own_saveTurn (path hash : FileName) (header payload checksum : List UInt8) :
    Own (saveTurn config path hash header payload checksum) := by
  refine failsOnly_bind own_randomIdentifier fun identifier => ?_
  refine failsOnly_attempt (own_createWindowsStaging _ _ _ _) (fun _ => ?_) fun abort habort => ?_
  · exact failsOnly_bind (own_publish _ _) fun _ => failsOnly_pure _
  · exact own_ite (failsOnly_pure _) (failsOnly_throw habort)

theorem own_saveBlob (path : FileName) (payload : List UInt8) :
    Own (saveBlob crc32c config path payload) :=
  failsOnly_bind (own_envelopeParts crc32c config payload) fun _ =>
    failsOnly_bind (Unix.own_stem path) fun hash =>
      failsOnly_iterate fun _ => own_saveTurn config path hash _ _ _

theorem own_saveStreamTurn (path hash : FileName) (declaredLen : Nat) :
    Own (saveStreamTurn crc32c config path hash declaredLen) := by
  refine failsOnly_bind own_randomIdentifier fun identifier => ?_
  refine failsOnly_attempt (own_createWindowsStreamingStaging crc32c config _ declaredLen)
    (fun _ => ?_) fun abort habort => ?_
  · exact failsOnly_bind (own_publish _ _) fun _ => failsOnly_pure _
  · exact own_ite (failsOnly_pure _) (own_ask fun _ => failsOnly_throw habort)

theorem own_saveBlobFromReceiver (path : FileName) (declaredLen : Nat) :
    Own (saveBlobFromReceiver crc32c config path declaredLen) :=
  failsOnly_bind (own_envelopeHeader config _) fun _ =>
    failsOnly_bind (Unix.own_stem path) fun hash =>
      failsOnly_iterate fun _ => own_saveStreamTurn crc32c config path hash declaredLen

theorem own_clearTurn (path hash : FileName) : Own (clearTurn config path hash) := by
  refine failsOnly_bind own_randomIdentifier fun identifier => own_ask fun r => ?_
  cases r with
  | ok u =>
    exact own_attempt fun r => failsOnly_bind (own_io r) fun _ => own_askIo fun _ => failsOnly_pure _
  | error error =>
    exact own_ite (own_missing (failsOnly_pure _)) (own_ite (failsOnly_pure _) (own_fail rfl))

theorem own_clearBlob (path : FileName) : Own (clearBlob config path) := by
  refine failsOnly_bind (Unix.own_stem path) fun hash => own_attempt fun r => ?_
  cases r with
  | ok u => exact failsOnly_iterate fun _ => own_clearTurn config path hash
  | error source => exact own_ite own_ensureNamespaceAvailable (own_fail rfl)

theorem own_quarantineTurn (path hash : FileName) : Own (quarantineTurn config path hash) := by
  refine failsOnly_bind own_randomIdentifier fun identifier => own_ask fun r => ?_
  cases r with
  | ok u =>
    refine own_attempt fun r => ?_
    cases r with
    | ok u => exact failsOnly_pure _
    | error source => exact own_fail rfl
  | error error =>
    exact own_ite (own_missing (own_fail rfl)) (own_ite (failsOnly_pure _) (own_fail rfl))

theorem own_quarantineBlob (path : FileName) : Own (quarantineBlob config path) :=
  failsOnly_bind (Unix.own_stem path) fun hash =>
    failsOnly_iterate fun _ => own_quarantineTurn config path hash

theorem own_cleanupEntry (now minimumAge : Nat) (report : CleanupReport)
    (entry : Except IoError FileName) : Own (cleanupEntry config now minimumAge report entry) := by
  cases entry with
  | error source => exact failsOnly_pure _
  | ok name =>
    refine own_ite (failsOnly_pure _) (own_ask fun r => ?_)
    cases r with
    | error source => exact failsOnly_pure _
    | ok metadata =>
      refine own_ite (failsOnly_pure _) (own_ite (failsOnly_pure _) (own_ask fun r => ?_))
      cases r with
      | ok u => exact failsOnly_pure _
      | error source => exact failsOnly_pure _

theorem own_cleanupEntries (now minimumAge : Nat) (entries : List (Except IoError FileName)) :
    ∀ report, Own (cleanupEntries config now minimumAge entries report) := by
  induction entries with
  | nil => exact fun report => failsOnly_pure _
  | cons entry entries ih =>
    exact fun report => failsOnly_bind (own_cleanupEntry config now minimumAge report entry) ih

end Windows

/-! ## Jobs -/

theorem own_saveBlob (platform : Platform) (path : FileName) (payload : List UInt8) :
    Own (saveBlob crc32c config platform path payload) := by
  cases platform with
  | unix => exact Unix.own_saveBlob crc32c config path payload
  | windows => exact Windows.own_saveBlob crc32c config path payload

theorem own_saveBlobFromReceiver (platform : Platform) (path : FileName) (declaredLen : Nat) :
    Own (saveBlobFromReceiver crc32c config platform path declaredLen) := by
  cases platform with
  | unix => exact Unix.own_saveBlobFromReceiver crc32c config path declaredLen
  | windows => exact Windows.own_saveBlobFromReceiver crc32c config path declaredLen

theorem own_clearBlob (platform : Platform) (path : FileName) :
    Own (clearBlob config platform path) := by
  cases platform with
  | unix => exact Unix.own_clearBlob path
  | windows => exact Windows.own_clearBlob config path

theorem own_quarantineBlob (platform : Platform) (path : FileName) :
    Own (quarantineBlob config platform path) := by
  cases platform with
  | unix => exact Unix.own_quarantineBlob config path
  | windows => exact Windows.own_quarantineBlob config path

theorem own_cleanupStaleFiles (platform : Platform) (minimumAge : Nat) :
    Own (cleanupStaleFiles config platform minimumAge) := by
  cases platform with
  | unix => exact own_fail rfl
  | windows =>
    exact own_ask fun now => own_askIo fun entries =>
      Windows.own_cleanupEntries config now minimumAge entries _

/-! ### What is reported -/

section Jobs

variable {W : Type} {env : Environment FsInterface W} {w w' : W}

/-- The error of a reply, if it has one, is not the engine's. -/
def Reply.Own (reply : Reply) : Prop := ∀ e, reply.verdict = .error e → e.ofEngine = false

/-- The judgement of a program that only panics, or ends with a result as `R` says. -/
abbrev EndsWith (env : Environment FsInterface W) {α : Type} (R : α → Prop) (p : FsM α) (w : W) : Prop :=
  HoldsE env p (fun result _ => R result) (fun abort _ => abort = .panic) (fun _ => True) w

/-- What is sent of a result carries the error of the function, or none. -/
theorem endsWith_result {α β : Type} {p : FsM α} (hp : Own p) {R : β → Prop}
    {f : Except AtomicBlobStoreError α → β} (hok : ∀ a, R (f (.ok a)))
    (herror : ∀ e, e.ofEngine = false → R (f (.error e))) : EndsWith env R (f <$> p.result) w := by
  refine holdsE_map (holds_result ((hp W env w).mono (fun a _ _ _ => hok a) (fun abort _ _ habort => ?_)
    fun _ h => h))
  cases abort with
  | panic => exact rfl
  | error e => exact herror e habort

theorem own_error {reply : Reply} {e : AtomicBlobStoreError} (h : reply.verdict = .error e)
    (he : e.ofEngine = false) : reply.Own := by
  intro e' he'
  rw [h] at he'
  rw [← Except.error.inj he']
  exact he

theorem own_ok {reply : Reply} (h : reply.verdict = .ok ()) : reply.Own := by
  intro e he
  rw [h] at he
  nomatch he

/-- **An operation speaks for itself**, on both platforms and whatever the filesystem answers. -/
theorem endsWith_runOwnedOperation (platform : Platform) (path : FileName) (op : Operation) :
    EndsWith env (fun result => (Reply.operation result).Own)
      (runOwnedOperation crc32c config platform path op) w := by
  cases op with
  | load sender =>
    exact endsWith_result (own_loadBlob crc32c config path) (fun _ => own_ok rfl) fun _ => own_error rfl
  | loadStream chunks acknowledgement sender =>
    exact endsWith_result (own_loadBlobIntoSender crc32c config path) (fun _ => own_ok rfl)
      fun _ => own_error rfl
  | save payload sender =>
    exact endsWith_result (own_saveBlob crc32c config platform path payload) (fun _ => own_ok rfl)
      fun _ => own_error rfl
  | saveStream declaredLen chunks sender =>
    exact endsWith_result (own_saveBlobFromReceiver crc32c config platform path declaredLen)
      (fun _ => own_ok rfl) fun _ => own_error rfl
  | clear sender =>
    exact endsWith_result (own_clearBlob config platform path) (fun _ => own_ok rfl) fun _ => own_error rfl
  | inspect sender =>
    exact endsWith_result (own_inspectBlob path) (fun _ => own_ok rfl) fun _ => own_error rfl
  | quarantine sender =>
    exact endsWith_result (own_quarantineBlob config platform path) (fun _ => own_ok rfl)
      fun _ => own_error rfl

/-- **A job never reports an error of the engine**, and stops short of a result only by a panic. -/
theorem endsWith_job (platform : Platform) (job : WorkerJob) :
    Holds env (job.program crc32c config platform)
      (Ended (fun result _ => result.reply.Own) (fun abort _ => abort = .panic)) (fun _ => True) w := by
  rcases job with ⟨keyHash, op⟩ | ⟨minimumAge, sender⟩
  · exact holdsE_map (endsWith_runOwnedOperation crc32c config platform _ op)
  · cases minimumAge with
    | some minimumAge =>
      exact endsWith_result (own_cleanupStaleFiles config platform minimumAge) (f := TaskResult.cleanup)
        (R := fun result => result.reply.Own) (fun _ => own_ok rfl) fun _ => own_error rfl
    | none => exact holds_ret trivial (own_ok rfl)

end Jobs

end Backends

/-! ## The store -/

section System

variable {crc32c : Crc32c} {config : StoreConfig} {platform : Platform} {fates : Nat → Fate}
  {fault : FsCall → IoError → Prop} {panics : Prop} {disk : Disk} {s : Store}

/-- **What is delivered is the job's own.**  Whatever overlaps, fails or panics, no outcome of a job
    carries an error of the engine. -/
theorem own_delivered
    (h : (storeSystem crc32c config platform fates fault panics disk).Reachable s) {o : Origin}
    {reply : Reply} (hdelivered : .delivered o reply ∈ s.engine.log) : reply.Own := by
  obtain ⟨hisolated, -⟩ := isolated_current h
  obtain ⟨e, he, -, -, result, hret, rfl⟩ := (honest_reachable h).delivered o reply hdelivered
  obtain ⟨n, w, hrun, -⟩ := hisolated.alone e he
  rw [hret] at hrun
  exact (endsWith_job crc32c config platform e.job n _ _ hrun).2 _ rfl

end System

end AtomicBlobStore
