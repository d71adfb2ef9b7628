/-
  JOBS: the programs that workers run, and what they can touch.

  1. **Kinds of names** — canonical, staging and diagnostic names of a key, which are told apart by
     their dots: 1, at least 4, and 3.

  2. **Calls** — `OperationCalls format key` is everything an operation on `key` may ask of its
     environment, with the kinds of names it asks it for (`calls_runOwnedOperation`).  Cleanup asks
     to delete only what its recogniser accepts (`calls_cleanupStaleFiles`).

  3. **Tasks** — what a worker is given, with its program, and `Workshop`: any number of jobs that
     run against one directory, their calls interleaved in any order.  Nothing keeps two jobs off
     one key here, so what holds of every workshop holds under any scheduler.

  Everything that is said here about calls is read off the programs once, by walking through their
  text.  This is why later modules can speak of a job without knowing which operation it is: what it
  may touch is known from its key.
-/
import AtomicBlobStore.Lib.Transition
import AtomicBlobStore.OldOrNew

namespace AtomicBlobStore

open FsM (ask fail ofResult)

/-! ## Kinds of names

  An operation is given a key, and every name it ever asks for is made from the key's digits.  Which
  of the three kinds a name is can be counted off its dots. -/

section Names

variable (format : BlobFormatIdentity) (key : KeyHash)

/-- A name under which a save or a clear of the key stages a file. -/
def Staging (name : FileName) : Prop := ∃ (kind : StagingKind) (bytes : Vector UInt8 32),
  name = stagingFilename (toHex key.toList) format.filenameSuffix kind (toHex bytes.toList)

/-- A name to which a quarantine of the key moves a blob. -/
def Diagnostic (name : FileName) : Prop := ∃ bytes : Vector UInt8 32,
  name = quarantineFilename (toHex key.toList) format.filenameSuffix (toHex bytes.toList)

variable {format key}

/-- A staging name has a kind, an identifier and a second suffix behind the canonical name. -/
theorem Staging.dots {name : FileName} (h : Staging format key name) : 4 ≤ dots name := by
  obtain ⟨kind, bytes, rfl⟩ := h
  exact dots_stagingFilename format key kind _

/-- A diagnostic name has an identifier besides its suffix. -/
theorem Diagnostic.dots {name : FileName} (h : Diagnostic format key name) : dots name = 3 := by
  obtain ⟨bytes, rfl⟩ := h
  have hmarker : AtomicBlobStore.dots ".quarantine-v1.".toList = 2 := by decide
  simp only [quarantineFilename, dots_append, dots_toHex, dots_suffix, hmarker]

/-- Both begin with the digits of the key. -/
theorem Staging.owns {name : FileName} (h : Staging format key name) : Owns key name := by
  obtain ⟨kind, bytes, rfl⟩ := h
  exact owns_stagingFilename key _ kind _

theorem Diagnostic.owns {name : FileName} (h : Diagnostic format key name) : Owns key name := by
  obtain ⟨bytes, rfl⟩ := h
  exact owns_quarantineFilename key _ _

end Names

/-- What the recogniser of cleanup accepts has at least four dots. -/
theorem dots_owned {format : BlobFormatIdentity} {name : FileName}
    (h : isOwnedTemporaryFilename name format.filenameSuffix = true) : 4 ≤ dots name := by
  unfold isOwnedTemporaryFilename at h
  have hmarker : dots ".tmp-v1.".toList = 2 := by decide
  have hdot : dots ".".toList = 1 := by decide
  split at h
  · nomatch h
  · rename_i hash rest hsplit
    rw [Bool.and_eq_true] at h
    obtain ⟨-, h⟩ := h
    split at h
    · nomatch h
    · rename_i kind identifier hsplit'
      rw [splitOnce_eq hsplit, splitOnce_eq hsplit']
      simp only [dots_append, dots_suffix, hmarker, hdot]
      omega

/-! ## Calls

  The programs are walked once for each function, with the names that a call is about as the only
  thing looked at.  Answers play no part, so this holds in every environment, a hostile one included. -/

/-- What an operation on a key may ask for.  Names are restricted to those of the key, by their kind;
    calls without a name are all allowed, but for those that only a cleanup makes. -/
def OperationCalls (format : BlobFormatIdentity) (key : KeyHash) : FsCall → Prop
  | .symlinkMetadata name => name = blobFilename format key
  | .openFile name => name = blobFilename format key
  | .openAtomic name => name = blobFilename format key
  | .removeFile name => name = blobFilename format key
  | .openExisting name => name = blobFilename format key
  | .setFileTime name _ => name = blobFilename format key
  | .flushFile name => Staging format key name ∨ name = blobFilename format key
  | .createNew name => Staging format key name
  | .writeFile name _ => Staging format key name
  | .deleteFile name => Staging format key name
  | .moveSaveFile source destination _ =>
    Staging format key source ∧ destination = blobFilename format key
  | .renameNoReplace source destination =>
    source = blobFilename format key ∧ Diagnostic format key destination
  | .moveFile source destination => source = blobFilename format key ∧
    (Staging format key destination ∨ Diagnostic format key destination)
  | .now => False
  | .readDirectory => False
  | _ => True

/-- What a cleanup may ask for. -/
def CleanupCalls (format : BlobFormatIdentity) : FsCall → Prop
  | .now => True
  | .readDirectory => True
  | .symlinkMetadata name => isOwnedTemporaryFilename name format.filenameSuffix = true
  | .deleteFile name => isOwnedTemporaryFilename name format.filenameSuffix = true
  | _ => False

/-- What needs neither an open writer nor a file that is there: whatever the world is like, there is an
    answer to it. -/
def FsCall.Free : FsCall → Prop
  | .writeAtomic _ => False
  | .commit => False
  | .writeFile .. => False
  | .moveSaveFile .. => False
  | _ => True

/-- What puts nothing under a temporary name, whatever the world is like. -/
def FsCall.Tidy : FsCall → Prop
  | .commit => False
  | .createNew _ => False
  | .writeFile .. => False
  | .moveFile _ destination => dots destination ≤ 3
  | .renameNoReplace _ destination => dots destination ≤ 3
  | .moveSaveFile _ destination _ => dots destination ≤ 3
  | _ => True

section Calls

variable {α β : Type} {P : FsCall → Prop}

/-- A result that is there asks for nothing. -/
theorem calls_ofResult (r : Except AtomicBlobStoreError α) : (ofResult r).run.Calls P := by
  cases r <;> exact .ret _

theorem calls_io {operation : StoreOperation} (r : Except IoError α) :
    (FsM.io operation r).run.Calls P := by
  cases r <;> exact .ret _

theorem calls_ioM (r : Except IoError α) : (IoM.io r).run.Calls P := by
  cases r <;> exact .ret _

/-- A program that starts with a call makes it, and then what follows may ask for the rest. -/
theorem calls_ask {c : FsCall} {f : c.Answer → FsM β} (hc : P c) (hf : ∀ r, (f r).run.Calls P) :
    (ask c >>= f).run.Calls P := ProgE.calls_bind (ProgE.calls_ask hc) hf

/-- A call, and `?` on its answer. -/
theorem calls_askIo {c : FsCall} {operation : StoreOperation} {g : c.Answer → Except IoError α}
    {k : α → FsM β} (hc : P c) (hk : ∀ a, (k a).run.Calls P) :
    (ask c >>= fun r => FsM.io operation (g r) >>= k).run.Calls P :=
  calls_ask hc fun _ => ProgE.calls_bind (calls_io _) hk

/-- Looking at a result asks for nothing more. -/
theorem calls_result {p : FsM α} (hp : p.run.Calls P) : p.result.run.Calls P := by
  refine ProgE.calls_bind (ProgE.calls_attempt hp) fun r => ?_
  rcases r with (e | _) | a <;> exact .ret _

theorem calls_map {f : α → β} {p : FsM α} (hp : p.run.Calls P) : (f <$> p).run.Calls P := by
  refine Prog.Calls.bind hp fun r => ?_
  cases r <;> exact .ret _

end Calls

/-- A result is looked at; a panic goes through. -/
theorem holds_result {W α : Type} {env : Environment FsInterface W} {p : FsM α}
    {Q : Except AtomicBlobStoreError α → W → Prop} {E : Abort → W → Prop} {C : W → Prop} {w : W}
    (h : HoldsE env p (fun a w => Q (.ok a) w) (fun abort w => match abort with
      | .error e => Q (.error e) w
      | .panic => E .panic w) C w) : HoldsE env p.result Q E C w := by
  refine holdsE_bind (holdsE_attempt (h.mono (fun a w hc hq => ?_) (fun abort w hc he => ?_)
    fun _ hc => hc))
  · exact holds_ret hc hq
  · cases abort with
    | error e => exact holds_ret hc he
    | panic => exact holds_ret hc he

/-- The result of a function that returns. -/
theorem returns_result {W α : Type} {env : Environment FsInterface W} {p : FsM α} {a : α} {w w' : W}
    (h : Returns env p.run w (.ok a) w') : Returns env p.result.run w (.ok (.ok a)) w' :=
  returnsE_bind (Returns.bind h returns_ret) returns_ret

/-- The result of a function that fails. -/
theorem returns_result_error {W α : Type} {env : Environment FsInterface W} {p : FsM α}
    {e : AtomicBlobStoreError} {w w' : W} (h : Returns env p.run w (.error (.error e)) w') :
    Returns env p.result.run w (.ok (.error e)) w' :=
  returnsE_bind (Returns.bind h returns_ret) returns_ret

section Operations

variable (crc32c : Crc32c) (config : StoreConfig) (key : KeyHash)

/-- The check of the namespace asks for its metadata. -/
theorem calls_ensureNamespaceAvailable {P : FsCall → Prop} (h : P .metadata) :
    ensureNamespaceAvailable.run.Calls P := by
  refine calls_ask h fun r => ?_
  rcases r with e | _ | _ <;> exact .ret _

/-- What follows a random identifier gets the digits of 32 bytes. -/
theorem calls_withIdentifier {β : Type} {P : FsCall → Prop} {f : List Char → FsM β} (hfill : P .fill)
    (hf : ∀ bytes : Vector UInt8 32, (f (toHex bytes.toList)).run.Calls P) :
    (randomIdentifier >>= f).run.Calls P := by
  refine Prog.Calls.call hfill fun r => ?_
  cases r with
  | ok bytes => exact hf bytes
  | error code => exact .ret _

/-- What follows the stem of a canonical name gets the digits of the key. -/
theorem calls_withStem {β : Type} {P : FsCall → Prop} {f : FileName → FsM β}
    (hf : (f (toHex key.toList)).run.Calls P) :
    (Unix.stem (blobFilename config.format key) >>= f).run.Calls P := by
  rw [stem_blobFilename]
  exact hf

section Reading

variable {P : FsCall → Prop} {path : FileName} (hmetadata : P .metadata)

include hmetadata

theorem calls_inspectBlob (hlook : P (.symlinkMetadata path)) : (inspectBlob path).run.Calls P := by
  refine calls_ask hlook fun r => ?_
  cases r with
  | ok metadata =>
    show Prog.Calls _ (ExceptT.run (if _ then _ else _))
    split <;> exact .ret _
  | error source =>
    show Prog.Calls _ (ExceptT.run (if _ then _ else _))
    split
    · exact ProgE.calls_bind (calls_ensureNamespaceAvailable hmetadata) fun _ => .ret _
    · exact .ret _

theorem calls_loadBlob (hopen : P (.openFile path)) : (loadBlob crc32c config path).run.Calls P := by
  refine calls_ask hopen fun r => ?_
  cases r with
  | ok file => exact ProgE.calls_bind (ProgE.calls_ofExcept _) fun _ => .ret _
  | error source =>
    show Prog.Calls _ (ExceptT.run (if _ then _ else _))
    split
    · exact ProgE.calls_bind (calls_ensureNamespaceAvailable hmetadata) fun _ => .ret _
    · exact .ret _

omit hmetadata in
theorem calls_sendTurn (hsend : ∀ chunk, P (.send chunk)) (source : Source IoError Nat)
    (s : Nat × Nat) : (sendTurn source s).run.Calls P := by
  obtain ⟨remaining, position⟩ := s
  show Prog.Calls _ (ExceptT.run (if _ then _ else _))
  split
  · exact .ret _
  · refine ProgE.calls_bind (ProgE.calls_ofExcept _) fun chunk => calls_ask (hsend _) fun r => ?_
    cases r <;> exact .ret _

theorem calls_loadBlobIntoSender (hopen : P (.openFile path)) (hseek : ∀ f n, P (.seek f n))
    (hsend : ∀ chunk, P (.send chunk)) (hreceive : P .recvAcknowledgement) :
    (loadBlobIntoSender crc32c config path).run.Calls P := by
  refine calls_ask hopen fun r => ?_
  cases r with
  | ok file =>
    refine ProgE.calls_bind (ProgE.calls_ofExcept _) fun metadata => ?_
    refine calls_askIo (hseek _ _) fun file' => ?_
    refine ProgE.calls_bind (ProgE.calls_iterate (calls_sendTurn hsend _)) fun _ => ?_
    refine calls_ask hreceive fun r => ?_
    cases r <;> exact .ret _
  | error source =>
    show Prog.Calls _ (ExceptT.run (if _ then _ else _))
    split
    · exact ProgE.calls_bind (calls_ensureNamespaceAvailable hmetadata) fun _ => .ret _
    · exact .ret _

end Reading

/-- The encoder receives and writes. -/
theorem calls_encoder {P : FsCall → Prop} {write : List UInt8 → FsM Unit}
    (declaredLen : Nat) (hreceive : P .recv) (hwrite : ∀ bytes, (write bytes).run.Calls P) :
    (writeStreamEnvelope crc32c config write declaredLen).run.Calls P := by
  refine ProgE.calls_bind (calls_ofResult _) fun header => ?_
  refine ProgE.calls_bind (hwrite _) fun _ => ProgE.calls_iterate fun s => ?_
  refine calls_ask hreceive fun r => ?_
  rcases r with _ | chunk | _
  · exact .ret _
  · show Prog.Calls _ (ExceptT.run (if _ then _ else _))
    split
    · exact .ret _
    · exact ProgE.calls_bind (hwrite _) fun _ => .ret _
  · show Prog.Calls _ (ExceptT.run (if _ then _ else _))
    split
    · exact .ret _
    · exact ProgE.calls_bind (hwrite _) fun _ => .ret _

namespace Unix

section Saving

variable {P : FsCall → Prop} {path : FileName} (hopen : P (.openAtomic path))
  (hwrite : ∀ bytes, P (.writeAtomic bytes)) (hcommit : P .commit)

include hopen hwrite hcommit

omit hopen hwrite in
/-- A commit is about the writer that is open. -/
theorem calls_commit : commit.run.Calls P := by
  refine calls_ask hcommit fun r => ?_
  cases r <;> exact .ret _

theorem calls_saveBlob (payload : List UInt8) : (saveBlob crc32c config path payload).run.Calls P := by
  refine ProgE.calls_bind (calls_ofResult _) fun parts => ?_
  refine calls_askIo hopen fun _ => ?_
  have hsection : ∀ bytes, (writeAtomic bytes).run.Calls P :=
    fun bytes => calls_ask (hwrite bytes) fun r => calls_io _
  refine ProgE.calls_bind (hsection _) fun _ => ProgE.calls_bind (hsection _) fun _ => ?_
  exact ProgE.calls_bind (hsection _) fun _ => calls_commit hcommit

theorem calls_saveBlobFromReceiver (hreceive : P .recv) (declaredLen : Nat) :
    (saveBlobFromReceiver crc32c config path declaredLen).run.Calls P := by
  refine ProgE.calls_bind (calls_ofResult _) fun header => ?_
  refine calls_askIo hopen fun _ => ?_
  have hsection : ∀ bytes, (writeAtomic bytes).run.Calls P :=
    fun bytes => calls_ask (hwrite bytes) fun r => calls_io _
  refine ProgE.calls_bind (calls_encoder crc32c config declaredLen hreceive hsection)
    fun _ => calls_commit hcommit

end Saving

section Tidy

variable {P : FsCall → Prop} (hP : ∀ c, OperationCalls config.format key c → c.Free → c.Tidy → P c)

include hP

theorem calls_clearBlob : (clearBlob (blobFilename config.format key)).run.Calls P := by
  refine calls_ask (hP _ rfl trivial trivial) fun r => ?_
  cases r with
  | ok u =>
    exact calls_askIo (hP _ trivial trivial trivial) fun _ =>
      calls_ask (hP _ trivial trivial trivial) fun r => calls_io _
  | error source =>
    show Prog.Calls _ (ExceptT.run (if _ then _ else _))
    split
    · exact calls_ensureNamespaceAvailable (hP _ trivial trivial trivial)
    · exact .ret _

theorem calls_quarantineBlob :
    (quarantineBlob config (blobFilename config.format key)).run.Calls P := by
  refine calls_withStem config key (ProgE.calls_iterate fun _ => ?_)
  unfold quarantineTurn
  refine calls_withIdentifier (hP _ trivial trivial trivial) fun bytes => ?_
  refine calls_ask (hP _ ⟨rfl, bytes, rfl⟩ trivial (Diagnostic.dots ⟨bytes, rfl⟩).le) fun r => ?_
  cases r with
  | ok u =>
    refine ProgE.calls_bind (calls_ask (hP _ trivial trivial trivial) fun r => ?_) fun _ => .ret _
    cases r with
    | error source => exact .ret _
    | ok u =>
      refine calls_ask (hP _ trivial trivial trivial) fun r => ?_
      cases r <;> exact .ret _
  | error error =>
    show Prog.Calls _ (ExceptT.run (if _ then _ else if _ then _ else _))
    split
    · exact ProgE.calls_bind (calls_ensureNamespaceAvailable (hP _ trivial trivial trivial)) fun _ => .ret _
    · split <;> exact .ret _

end Tidy

end Unix

namespace Windows

theorem calls_syncWindowsDirectory {P : FsCall → Prop} (hopen : P .openDirectory)
    (hsync : P .syncDirectory) : syncWindowsDirectory.run.Calls P := by
  refine ProgE.calls_bind (ProgE.calls_ask hopen) fun r => ?_
  refine ProgE.calls_bind (calls_ioM _) fun _ => ?_
  exact ProgE.calls_bind (ProgE.calls_ask hsync) fun r => calls_ioM _

theorem calls_publish {staging : FileName} (h : Staging config.format key staging) :
    (publish staging (blobFilename config.format key)).run.Calls
      (OperationCalls config.format key) := by
  refine ProgE.calls_bind ?_ fun _ => ?_
  · refine calls_ask ⟨h, rfl⟩ fun r => ?_
    cases r with
    | ok u => exact .ret _
    | error source =>
      show Prog.Calls _ (ExceptT.run (if _ then _ else _))
      split
      · refine calls_ask ⟨h, rfl⟩ fun r => ?_
        cases r <;> exact .ret _
      · exact .ret _
  · exact ProgE.calls_bind (ProgE.calls_attempt (calls_syncWindowsDirectory trivial trivial))
      fun r => calls_io _

theorem calls_saveBlob (payload : List UInt8) :
    (saveBlob crc32c config (blobFilename config.format key) payload).run.Calls
      (OperationCalls config.format key) := by
  refine ProgE.calls_bind (calls_ofResult _) fun parts => ?_
  refine calls_withStem config key (ProgE.calls_iterate fun _ => ?_)
  unfold saveTurn
  refine calls_withIdentifier trivial fun bytes => ?_
  have hstaging : Staging config.format key (stagingFilename (toHex key.toList)
      config.format.filenameSuffix .save (toHex bytes.toList)) := ⟨.save, bytes, rfl⟩
  have hwrite : ∀ content, (writeStaging (stagingFilename (toHex key.toList)
      config.format.filenameSuffix .save (toHex bytes.toList)) content).run.Calls
      (OperationCalls config.format key) := fun _ => calls_ask hstaging fun r => calls_io _
  refine ProgE.calls_bind (ProgE.calls_attempt ?_) fun r => ?_
  · refine calls_askIo hstaging fun _ => ProgE.calls_bind (hwrite _) fun _ => ?_
    refine ProgE.calls_bind (hwrite _) fun _ => ProgE.calls_bind (hwrite _) fun _ => ?_
    exact calls_ask (Or.inl hstaging) fun r => calls_io _
  · cases r with
    | ok u => exact ProgE.calls_bind (calls_publish config key hstaging) fun _ => .ret _
    | error abort =>
      show Prog.Calls _ (ExceptT.run (if _ then _ else _))
      split <;> exact .ret _

theorem calls_saveBlobFromReceiver (declaredLen : Nat) :
    (saveBlobFromReceiver crc32c config (blobFilename config.format key) declaredLen).run.Calls
      (OperationCalls config.format key) := by
  refine ProgE.calls_bind (calls_ofResult _) fun header => ?_
  refine calls_withStem config key (ProgE.calls_iterate fun _ => ?_)
  unfold saveStreamTurn
  refine calls_withIdentifier trivial fun bytes => ?_
  have hstaging : Staging config.format key (stagingFilename (toHex key.toList)
      config.format.filenameSuffix .save (toHex bytes.toList)) := ⟨.save, bytes, rfl⟩
  refine ProgE.calls_bind (ProgE.calls_attempt ?_) fun r => ?_
  · refine calls_askIo hstaging fun _ => ?_
    refine ProgE.calls_bind (calls_encoder crc32c config declaredLen trivial fun bytes => ?_)
      fun _ => calls_ask (Or.inl hstaging) fun r => calls_io _
    exact calls_ask hstaging fun r => calls_io _
  · cases r with
    | ok u => exact ProgE.calls_bind (calls_publish config key hstaging) fun _ => .ret _
    | error abort =>
      show Prog.Calls _ (ExceptT.run (if _ then _ else _))
      split
      · exact .ret _
      · exact calls_ask hstaging fun r => .ret _

section Tidy

variable {P : FsCall → Prop} (hP : ∀ c, OperationCalls config.format key c → c.Free → c.Tidy → P c)

include hP

theorem calls_refreshWindowsClearAge :
    (refreshWindowsClearAge (blobFilename config.format key)).run.Calls P := by
  refine ProgE.calls_bind (ProgE.calls_ask (hP _ trivial trivial trivial)) fun r => ?_
  refine ProgE.calls_bind (calls_ioM _) fun elapsed => ?_
  obtain ⟨seconds, nanoseconds⟩ := elapsed
  dsimp only
  refine ProgE.calls_bind (calls_ioM _) fun ticks => ?_
  refine ProgE.calls_bind (ProgE.calls_ask (hP _ rfl trivial trivial)) fun r => ?_
  refine ProgE.calls_bind (calls_ioM _) fun _ => ?_
  refine ProgE.calls_bind (ProgE.calls_ask (hP _ rfl trivial trivial)) fun r => ?_
  refine ProgE.calls_bind (calls_ioM _) fun _ => ?_
  exact ProgE.calls_bind (ProgE.calls_ask (hP _ (Or.inr rfl) trivial trivial)) fun r => calls_ioM _

theorem calls_quarantineBlob :
    (quarantineBlob config (blobFilename config.format key)).run.Calls P := by
  have hsync := calls_syncWindowsDirectory (hP _ trivial trivial trivial)
    (hP _ trivial trivial trivial)
  refine calls_withStem config key (ProgE.calls_iterate fun _ => ?_)
  unfold quarantineTurn
  refine calls_withIdentifier (hP _ trivial trivial trivial) fun bytes => ?_
  have hdots := (show Diagnostic config.format key _ from ⟨bytes, rfl⟩).dots.le
  refine calls_ask (hP _ ⟨rfl, Or.inr ⟨bytes, rfl⟩⟩ trivial hdots) fun r => ?_
  cases r with
  | ok u =>
    refine ProgE.calls_bind (ProgE.calls_attempt hsync) fun r => ?_
    cases r <;> exact .ret _
  | error error =>
    show Prog.Calls _ (ExceptT.run (if _ then _ else if _ then _ else _))
    split
    · exact ProgE.calls_bind (calls_ensureNamespaceAvailable (hP _ trivial trivial trivial)) fun _ => .ret _
    · split <;> exact .ret _

end Tidy

theorem calls_clearBlob {P : FsCall → Prop}
    (hP : ∀ c, OperationCalls config.format key c → c.Free → P c) :
    (clearBlob config (blobFilename config.format key)).run.Calls P := by
  have hsync := calls_syncWindowsDirectory (hP _ trivial trivial) (hP _ trivial trivial)
  refine calls_withStem config key ?_
  have hrefresh := calls_refreshWindowsClearAge config key fun c hc hfree _ => hP c hc hfree
  refine ProgE.calls_bind (ProgE.calls_attempt hrefresh) fun r => ?_
  cases r with
  | error source =>
    show Prog.Calls _ (ExceptT.run (if _ then _ else _))
    split
    · exact calls_ensureNamespaceAvailable (hP _ trivial trivial)
    · exact .ret _
  | ok u =>
    refine ProgE.calls_iterate fun _ => ?_
    unfold clearTurn
    refine calls_withIdentifier (hP _ trivial trivial) fun bytes => ?_
    refine calls_ask (hP _ ⟨rfl, Or.inl ⟨.clear, bytes, rfl⟩⟩ trivial) fun r => ?_
    cases r with
    | ok u =>
      refine ProgE.calls_bind (ProgE.calls_attempt hsync) fun r => ?_
      refine ProgE.calls_bind (calls_io _) fun _ => ?_
      exact calls_askIo (hP _ ⟨.clear, bytes, rfl⟩ trivial) fun _ => .ret _
    | error error =>
      show Prog.Calls _ (ExceptT.run (if _ then _ else if _ then _ else _))
      split
      · exact ProgE.calls_bind (calls_ensureNamespaceAvailable (hP _ trivial trivial)) fun _ => .ret _
      · split <;> exact .ret _

/-- Cleanup only asks about and deletes what its recogniser accepts. -/
theorem calls_cleanupEntries (now minimumAge : Nat) (entries : List (Except IoError FileName)) :
    ∀ report, (cleanupEntries config now minimumAge entries report).run.Calls
      (CleanupCalls config.format) := by
  induction entries with
  | nil => exact fun report => .ret _
  | cons entry entries ih =>
    intro report
    refine ProgE.calls_bind ?_ fun report => ih report
    cases entry with
    | error source => exact .ret _
    | ok name =>
      show Prog.Calls _ (ExceptT.run (if _ then _ else _))
      split
      · exact .ret _
      · rename_i howned
        have howned : isOwnedTemporaryFilename name config.format.filenameSuffix = true := by
          simpa using howned
        refine calls_ask howned fun r => ?_
        cases r with
        | error source => exact .ret _
        | ok metadata =>
          show Prog.Calls _ (ExceptT.run (if _ then _ else if _ then _ else _))
          split
          · exact .ret _
          · split
            · exact .ret _
            · refine calls_ask howned fun r => ?_
              cases r <;> exact .ret _

end Windows

/-- **What an operation may ask for**, on both platforms. -/
theorem calls_runOwnedOperation (platform : Platform) (op : Operation) :
    (runOwnedOperation crc32c config platform (blobFilename config.format key) op).run.Calls
      (OperationCalls config.format key) := by
  cases op with
  | load sender => exact calls_map (calls_result (calls_loadBlob crc32c config trivial rfl))
  | loadStream chunks acknowledgement sender =>
    exact calls_map (calls_result (calls_loadBlobIntoSender crc32c config trivial rfl
      (fun _ _ => trivial) (fun _ => trivial) trivial))
  | save payload sender =>
    refine calls_map (calls_result ?_)
    cases platform with
    | unix =>
      exact Unix.calls_saveBlob crc32c config (P := OperationCalls config.format key) rfl
        (fun _ => trivial) trivial payload
    | windows => exact Windows.calls_saveBlob crc32c config key payload
  | saveStream declaredLen chunks sender =>
    refine calls_map (calls_result ?_)
    cases platform with
    | unix =>
      exact Unix.calls_saveBlobFromReceiver crc32c config (P := OperationCalls config.format key)
        rfl (fun _ => trivial) trivial trivial declaredLen
    | windows => exact Windows.calls_saveBlobFromReceiver crc32c config key declaredLen
  | clear sender =>
    refine calls_map (calls_result ?_)
    cases platform with
    | unix => exact Unix.calls_clearBlob config key fun c hc _ _ => hc
    | windows => exact Windows.calls_clearBlob config key fun c hc _ => hc
  | inspect sender => exact calls_map (calls_result (calls_inspectBlob trivial rfl))
  | quarantine sender =>
    refine calls_map (calls_result ?_)
    cases platform with
    | unix => exact Unix.calls_quarantineBlob config key fun c hc _ _ => hc
    | windows => exact Windows.calls_quarantineBlob config key fun c hc _ _ => hc

theorem calls_cleanupStaleFiles (platform : Platform) (minimumAge : Nat) :
    (cleanupStaleFiles config platform minimumAge).run.Calls (CleanupCalls config.format) := by
  cases platform with
  | unix => exact .ret _
  | windows =>
    refine calls_ask trivial fun now => ?_
    exact calls_askIo trivial fun entries =>
      Windows.calls_cleanupEntries config now minimumAge entries _

end Operations

/-! ## What a call changes

  The frame of a call is what lets jobs run next to each other: what a call does not change is as
  every other job has left it. -/

/-- The names whose entries a call may change. -/
def Changes : FsCall → JobWorld → FileName → Prop
  | .commit, w, name => ∃ content, w.writer = some (name, content)
  | .removeFile path, _, name => name = path
  | .createNew path, _, name => name = path
  | .writeFile path _, _, name => name = path
  | .deleteFile path, _, name => name = path
  | .renameNoReplace source destination, _, name => name = source ∨ name = destination
  | .moveSaveFile source destination _, _, name => name = source ∨ name = destination
  | .moveFile source destination, _, name => name = source ∨ name = destination
  | _, _, _ => False

section Frame

variable {fault : FsCall → IoError → Prop} {w w' : JobWorld}

/-- What a call does to the directory: it stays one, and only some entries change. -/
def Framed (c : FsCall) (w w' : JobWorld) : Prop :=
  w'.disk.isDirectory = w.disk.isDirectory ∧
    ∀ name, ¬Changes c w name → w'.disk.entry name = w.disk.entry name

/-- A field of a world that is known. -/
theorem field_eq {β : Type} (f : JobWorld → β) {v : JobWorld} {b : β} (h : w' = v) (hb : f v = b) :
    f w' = b := by
  rw [h, hb]

theorem framed_of_disk {c : FsCall} (h : w'.disk = w.disk) : Framed c w w' := by
  constructor
  · rw [h]
  · intro name _
    rw [h]

theorem framed_set {c : FsCall} {path : FileName} {node : Option Node}
    (h : w'.disk = w.disk.set path node) (hc : Changes c w path) : Framed c w w' := by
  constructor
  · rw [h, Disk.isDirectory_set]
  · intro name hname
    rw [h, Disk.entry_set_ne]
    rintro rfl
    exact hname hc

theorem framed_move {c : FsCall} {source destination : FileName}
    (h : w'.disk = w.disk.move source destination) (hs : Changes c w source)
    (hd : Changes c w destination) : Framed c w w' := by
  constructor
  · rw [h, Disk.isDirectory_move]
  · intro name hname
    rw [h, Disk.entry_move_ne]
    · rintro rfl
      exact hname hs
    · rintro rfl
      exact hname hd

theorem framed_moves {c c' : FsCall} {source destination : FileName} {r : Except IoError Unit}
    (henv : Moves fault c' source destination w r w') (hs : Changes c w source)
    (hd : Changes c w destination) : Framed c w w' := by
  cases r with
  | ok u =>
    obtain ⟨node, -, -, rfl⟩ := henv
    exact framed_move rfl hs hd
  | error e => exact framed_of_disk (field_eq JobWorld.disk henv.1 rfl)

theorem framed_removes {c c' : FsCall} {path : FileName} {r : Except IoError Unit}
    (henv : Removes fault c' path w r w') (hc : Changes c w path) : Framed c w w' := by
  cases r with
  | ok u => exact framed_set (field_eq JobWorld.disk henv.2 rfl) hc
  | error e => exact framed_of_disk (field_eq JobWorld.disk henv.1 rfl)

/-- **The frame of a call.** -/
theorem fs_framed {c : FsCall} {r : c.Answer} (henv : Fs fault c w r w') : Framed c w w' := by
  cases c with
  | recv => exact framed_of_disk (field_eq JobWorld.disk (henv : w' = _) rfl)
  | send chunk =>
    refine framed_of_disk ?_
    have henv : w' = if r then _ else _ := henv
    rw [henv]
    split <;> rfl
  | recvAcknowledgement =>
    refine framed_of_disk ?_
    have henv : w' = if r then _ else _ := henv
    rw [henv]
    split <;> rfl
  | openAtomic path =>
    -- a writer that is opened or written to is not in the directory yet
    cases r with
    | ok u => exact framed_of_disk (field_eq JobWorld.disk henv.2 rfl)
    | error e => exact framed_of_disk (field_eq JobWorld.disk henv.1 rfl)
  | writeAtomic bytes =>
    obtain ⟨path, content, -, henv⟩ := henv
    cases r with
    | ok u => exact framed_of_disk (field_eq JobWorld.disk henv rfl)
    | error e =>
      obtain ⟨-, content', henv⟩ := henv
      exact framed_of_disk (field_eq JobWorld.disk henv rfl)
  | commit =>
    obtain ⟨path, content, hwriter, henv⟩ := henv
    cases r with
    | ok u => exact framed_set (field_eq JobWorld.disk henv.2 rfl) ⟨content, hwriter⟩
    | error e =>
      rcases henv.2 with henv | ⟨-, henv⟩
      · exact framed_of_disk (field_eq JobWorld.disk henv rfl)
      · exact framed_set (field_eq JobWorld.disk henv rfl) ⟨content, hwriter⟩
  | removeFile path => exact framed_removes henv rfl
  | deleteFile path => exact framed_removes henv rfl
  | renameNoReplace source destination => exact framed_moves henv (Or.inl rfl) (Or.inr rfl)
  | moveFile source destination => exact framed_moves henv (Or.inl rfl) (Or.inr rfl)
  | createNew path =>
    cases r with
    | ok u => exact framed_set (field_eq JobWorld.disk henv.2.2 rfl) rfl
    | error e => exact framed_of_disk (field_eq JobWorld.disk henv.1 rfl)
  | writeFile path bytes =>
    obtain ⟨content, -, henv⟩ := henv
    cases r with
    | ok u => exact framed_set (field_eq JobWorld.disk henv rfl) rfl
    | error e =>
      obtain ⟨-, content', henv⟩ := henv
      exact framed_set (field_eq JobWorld.disk henv rfl) rfl
  | moveSaveFile source destination replace =>
    cases r with
    | ok u =>
      obtain ⟨node, -, -, henv⟩ := henv
      -- publishing a staging file is a move
      exact framed_move (field_eq JobWorld.disk henv rfl) (Or.inl rfl) (Or.inr rfl)
    | error e =>
      rcases henv with ⟨henv, -⟩ | ⟨-, henv | ⟨node, -, henv⟩⟩
      · exact framed_of_disk (field_eq JobWorld.disk henv rfl)
      · exact framed_of_disk (field_eq JobWorld.disk henv rfl)
      · exact framed_move (field_eq JobWorld.disk henv rfl) (Or.inl rfl) (Or.inr rfl)
  | now => exact framed_of_disk (field_eq JobWorld.disk (henv : w' = w) rfl)
  | _ => exact framed_of_disk (field_eq JobWorld.disk henv.1 rfl)

/-- The calls that change nothing a program could see: they look, sync or draw random bytes. -/
def Looks : FsCall → Prop
  | .metadata => True
  | .fill => True
  | .openDirectory => True
  | .syncDirectory => True
  | _ => False

/-- Looking changes nothing. -/
theorem looks_idle {c : FsCall} (hc : Looks c) {r : c.Answer}
    (henv : Fs fault c w r w') : w' = w := by
  cases c with
  | metadata => exact henv.1
  | fill => exact henv.1
  | openDirectory => exact henv.1
  | syncDirectory => exact henv.1
  | _ => exact hc.elim

/-- The atomic writer that a job has open is for the canonical file of its key. -/
def WriterOf (format : BlobFormatIdentity) (key : KeyHash) (w : JobWorld) : Prop :=
  ∀ name content, w.writer = some (name, content) → name = blobFilename format key

theorem writerOf_of_eq {format : BlobFormatIdentity} {key : KeyHash}
    (h : WriterOf format key w) (heq : w'.writer = w.writer ∨ w'.writer = none) :
    WriterOf format key w' := by
  intro name content hwriter
  rcases heq with heq | heq
  · exact h name content (heq ▸ hwriter)
  · nomatch heq.symm.trans hwriter

/-- The calls of an operation keep its writer on the canonical file. -/
theorem fs_writerOf {format : BlobFormatIdentity} {key : KeyHash} {c : FsCall} {r : c.Answer}
    (hc : OperationCalls format key c) (h : WriterOf format key w) (henv : Fs fault c w r w') :
    WriterOf format key w' := by
  cases c with
  | recv => exact writerOf_of_eq h (Or.inl (field_eq JobWorld.writer (henv : w' = _) rfl))
  | send chunk =>
    refine writerOf_of_eq h (Or.inl ?_)
    have henv : w' = if r then _ else _ := henv
    rw [henv]
    split <;> rfl
  | recvAcknowledgement =>
    refine writerOf_of_eq h (Or.inl ?_)
    have henv : w' = if r then _ else _ := henv
    rw [henv]
    split <;> rfl
  | openAtomic path =>
    cases r with
    | ok u =>
      -- the one call that makes a writer, and it is for a name of the key
      obtain ⟨-, rfl⟩ := henv
      intro name content hwriter
      exact (Prod.mk.inj (Option.some.inj hwriter)).1 ▸ hc
    | error e => exact writerOf_of_eq h (Or.inl (field_eq JobWorld.writer henv.1 rfl))
  | writeAtomic bytes =>
    -- a write changes what the writer holds, not where it goes
    obtain ⟨path, content, hwriter, henv⟩ := henv
    have hpath := h path content hwriter
    cases r with
    | ok u =>
      obtain rfl : w' = _ := henv
      intro name content hwriter'
      exact (Prod.mk.inj (Option.some.inj hwriter')).1 ▸ hpath
    | error e =>
      obtain ⟨-, content', rfl⟩ := henv
      intro name content hwriter'
      exact (Prod.mk.inj (Option.some.inj hwriter')).1 ▸ hpath
  | commit =>
    -- a commit spends the writer
    obtain ⟨path, content, hwriter, henv⟩ := henv
    refine writerOf_of_eq h (Or.inr ?_)
    cases r with
    | ok u => exact field_eq JobWorld.writer henv.2 rfl
    | error e =>
      rcases henv.2 with henv | ⟨-, henv⟩
      · exact field_eq JobWorld.writer henv rfl
      · exact field_eq JobWorld.writer henv rfl
  | removeFile path =>
    cases r with
    | ok u => exact writerOf_of_eq h (Or.inl (field_eq JobWorld.writer henv.2 rfl))
    | error e => exact writerOf_of_eq h (Or.inl (field_eq JobWorld.writer henv.1 rfl))
  | deleteFile path =>
    cases r with
    | ok u => exact writerOf_of_eq h (Or.inl (field_eq JobWorld.writer henv.2 rfl))
    | error e => exact writerOf_of_eq h (Or.inl (field_eq JobWorld.writer henv.1 rfl))
  | renameNoReplace source destination =>
    cases r with
    | ok u =>
      obtain ⟨node, -, -, henv⟩ := henv
      exact writerOf_of_eq h (Or.inl (field_eq JobWorld.writer henv rfl))
    | error e => exact writerOf_of_eq h (Or.inl (field_eq JobWorld.writer henv.1 rfl))
  | moveFile source destination =>
    cases r with
    | ok u =>
      obtain ⟨node, -, -, henv⟩ := henv
      exact writerOf_of_eq h (Or.inl (field_eq JobWorld.writer henv rfl))
    | error e => exact writerOf_of_eq h (Or.inl (field_eq JobWorld.writer henv.1 rfl))
  | createNew path =>
    cases r with
    | ok u => exact writerOf_of_eq h (Or.inl (field_eq JobWorld.writer henv.2.2 rfl))
    | error e => exact writerOf_of_eq h (Or.inl (field_eq JobWorld.writer henv.1 rfl))
  | writeFile path bytes =>
    obtain ⟨content, -, henv⟩ := henv
    cases r with
    | ok u => exact writerOf_of_eq h (Or.inl (field_eq JobWorld.writer henv rfl))
    | error e =>
      obtain ⟨-, content', henv⟩ := henv
      exact writerOf_of_eq h (Or.inl (field_eq JobWorld.writer henv rfl))
  | moveSaveFile source destination replace =>
    cases r with
    | ok u =>
      obtain ⟨node, -, -, henv⟩ := henv
      exact writerOf_of_eq h (Or.inl (field_eq JobWorld.writer henv rfl))
    | error e =>
      rcases henv with ⟨henv, -⟩ | ⟨-, henv | ⟨node, -, henv⟩⟩
      · exact writerOf_of_eq h (Or.inl (field_eq JobWorld.writer henv rfl))
      · exact writerOf_of_eq h (Or.inl (field_eq JobWorld.writer henv rfl))
      · exact writerOf_of_eq h (Or.inl (field_eq JobWorld.writer henv rfl))
  | now => exact writerOf_of_eq h (Or.inl (field_eq JobWorld.writer (henv : w' = w) rfl))
  | _ => exact writerOf_of_eq h (Or.inl (field_eq JobWorld.writer henv.1 rfl))

/-- The calls that go to the other side of a stream. -/
def Converses : FsCall → Prop
  | .recv => True
  | .send _ => True
  | .recvAcknowledgement => True
  | _ => False

/-- Nothing came from the other side, nothing went there, and it was not found gone. -/
def Silent (w w' : JobWorld) : Prop :=
  w'.received = w.received ∧ w'.sent = w.sent ∧ w'.left = w.left

theorem silent_of_eq {v : JobWorld} (h : w' = v) (hv : Silent w v) : Silent w w' := by
  rw [h]
  exact hv

/-- **Only conversing is heard on the other side.** -/
theorem fs_silent {c : FsCall} {r : c.Answer} (henv : Fs fault c w r w') (hc : ¬Converses c) :
    Silent w w' := by
  have hsame : Silent w w := ⟨rfl, rfl, rfl⟩
  -- a move and a removal touch the directory only, on either platform
  have hmoves {c : FsCall} {source destination : FileName} {r : Except IoError Unit}
      (henv : Moves fault c source destination w r w') : Silent w w' := by
    cases r with
    | ok u =>
      obtain ⟨node, -, -, henv⟩ := henv
      exact silent_of_eq henv hsame
    | error e => exact silent_of_eq henv.1 hsame
  have hremoves {c : FsCall} {path : FileName} {r : Except IoError Unit}
      (henv : Removes fault c path w r w') : Silent w w' := by
    cases r with
    | ok u => exact silent_of_eq henv.2 hsame
    | error e => exact silent_of_eq henv.1 hsame
  cases c with
  | recv => exact absurd trivial hc
  | send chunk => exact absurd trivial hc
  | recvAcknowledgement => exact absurd trivial hc
  | openAtomic path =>
    cases r with
    | ok u => exact silent_of_eq henv.2 hsame
    | error e => exact silent_of_eq henv.1 hsame
  | writeAtomic bytes =>
    obtain ⟨path, content, -, henv⟩ := henv
    cases r with
    | ok u => exact silent_of_eq henv hsame
    | error e =>
      obtain ⟨-, content', henv⟩ := henv
      exact silent_of_eq henv hsame
  | commit =>
    obtain ⟨path, content, -, henv⟩ := henv
    cases r with
    | ok u => exact silent_of_eq henv.2 hsame
    | error e =>
      rcases henv.2 with henv | ⟨-, henv⟩
      · exact silent_of_eq henv hsame
      · exact silent_of_eq henv hsame
  | removeFile path => exact hremoves henv
  | deleteFile path => exact hremoves henv
  | renameNoReplace source destination => exact hmoves henv
  | moveFile source destination => exact hmoves henv
  | createNew path =>
    cases r with
    | ok u => exact silent_of_eq henv.2.2 hsame
    | error e => exact silent_of_eq henv.1 hsame
  | writeFile path bytes =>
    obtain ⟨content, -, henv⟩ := henv
    cases r with
    | ok u => exact silent_of_eq henv hsame
    | error e =>
      obtain ⟨-, content', henv⟩ := henv
      exact silent_of_eq henv hsame
  | moveSaveFile source destination replace =>
    cases r with
    | ok u =>
      obtain ⟨node, -, -, henv⟩ := henv
      exact silent_of_eq henv hsame
    | error e =>
      rcases henv with ⟨henv, -⟩ | ⟨-, henv | ⟨node, -, henv⟩⟩
      · exact silent_of_eq henv hsame
      · exact silent_of_eq henv hsame
      · exact silent_of_eq henv hsame
  | now => exact silent_of_eq (henv : w' = w) hsame
  | _ => exact silent_of_eq henv.1 hsame

/-- Only a receive is a receive. -/
theorem fs_received {c : FsCall} {r : c.Answer} (henv : Fs fault c w r w') (hc : c ≠ .recv) :
    w'.received = w.received := by
  cases c with
  | recv => exact absurd rfl hc
  | send chunk =>
    have henv : w' = if r then _ else _ := henv
    rw [henv]
    split <;> rfl
  | recvAcknowledgement =>
    have henv : w' = if r then _ else _ := henv
    rw [henv]
    split <;> rfl
  | _ => exact (fs_silent henv not_false).1

end Frame

/-! ## Tasks and workshops

  In a workshop jobs share the directory and nothing else: each has its own program, its own files and
  its own end of a stream.  A step of one job is a call on the directory as the others have left it. -/

/-- What a worker is given: an operation on a key, or the work of a maintenance request. -/
inductive Task
  /-- An operation on a key. -/
  | operation (key : KeyHash) (op : Operation)
  /-- A cleanup of what is older than an age. -/
  | cleanup (minimumAge : Nat)

/-- How a task ends. -/
inductive TaskResult
  | operation (result : BlockingResult)
  | cleanup (result : Except AtomicBlobStoreError CleanupReport)

/-- What a worker runs for a task. -/
def Task.program (crc32c : Crc32c) (config : StoreConfig) (platform : Platform) :
    Task → Prog FsInterface (Except Abort TaskResult)
  | .operation key op => (TaskResult.operation <$>
      runOwnedOperation crc32c config platform (blobFilename config.format key) op).run
  | .cleanup minimumAge =>
    (TaskResult.cleanup <$> (cleanupStaleFiles config platform minimumAge).result).run

/-- What a task may ask for. -/
def Task.Asks (format : BlobFormatIdentity) : Task → FsCall → Prop
  | .operation key _ => OperationCalls format key
  | .cleanup _ => CleanupCalls format

theorem calls_task (crc32c : Crc32c) (config : StoreConfig) (platform : Platform) (task : Task) :
    (task.program crc32c config platform).Calls (task.Asks config.format) := by
  cases task with
  | operation key op => exact calls_map (calls_runOwnedOperation crc32c config key platform op)
  | cleanup minimumAge =>
    exact calls_map (calls_result (calls_cleanupStaleFiles config platform minimumAge))

/-- A job: its task, what is left of its program, and its own part of the world; the `disk` in it is
    the one it saw last. -/
structure Job where
  /-- What it was given. -/
  task : Task
  /-- What is left of its program. -/
  program : Prog FsInterface (Except Abort TaskResult)
  /-- Its own part of the world. -/
  world : JobWorld

/-- The directory before and after a call of a job. -/
structure Change where
  /-- Whose call it was. -/
  job : Nat
  /-- The directory before, -/
  before : Disk
  /-- and after. -/
  after : Disk

/-- Any number of jobs that share a directory, and what their calls did to it. -/
structure Workshop where
  /-- The directory. -/
  disk : Disk
  /-- The jobs, by their number. -/
  jobs : Nat → Option Job
  /-- Every call so far. -/
  trace : List Change

/-- The workshop after a job went on. -/
def Workshop.update (s : Workshop) (id : Nat) (job : Job) : Workshop :=
  { s with jobs := fun i => if i = id then some job else s.jobs i }

/-- The workshop after a call of a job. -/
def Workshop.change (s : Workshop) (id : Nat) (disk : Disk) : Workshop :=
  { s with
    disk := disk
    trace := s.trace ++ [⟨id, s.disk, disk⟩] }

section Workshop

variable (crc32c : Crc32c) (config : StoreConfig) (fault : FsCall → IoError → Prop)
  (platform : Platform)

/-- One step: a job starts, makes a call on the shared directory, or goes round a loop.  Between two
    calls of one job any number of calls of others may come. -/
inductive WorkshopStep : Workshop → Workshop → Prop
  /-- A task is taken up, in the directory as it is. -/
  | start {s : Workshop} {id : Nat} (hfresh : s.jobs id = none) (task : Task) :
      WorkshopStep s
        (s.update id ⟨task, task.program crc32c config platform, JobWorld.start s.disk⟩)
  /-- A job makes a call on the directory as the others have left it. -/
  | call {s : Workshop} {id : Nat} {task : Task} {c : FsCall}
      {k : c.Answer → Prog FsInterface (Except Abort TaskResult)} {w w' : JobWorld} {r : c.Answer}
      (hjob : s.jobs id = some ⟨task, .call c k, w⟩)
      (henv : Fs fault c { w with disk := s.disk } r w') :
      WorkshopStep s ((s.change id w'.disk).update id ⟨task, k r, w'⟩)
  /-- A job goes round a loop. -/
  | turn {s : Workshop} {id : Nat} {task : Task} {σ β : Type}
      {body : σ → Prog FsInterface (σ ⊕ β)} {x : σ}
      {k : β → Prog FsInterface (Except Abort TaskResult)} {w : JobWorld}
      (hjob : s.jobs id = some ⟨task, .loop body x k, w⟩) :
      WorkshopStep s (s.update id ⟨task, (body x).bind (Prog.unroll body k), w⟩)

/-- Jobs over one directory, whatever is in it at first. -/
def workshop : System Workshop where
  init s := s.jobs = (fun _ => none) ∧ s.trace = []
  step := WorkshopStep crc32c config fault platform

end Workshop

section Solo

variable {crc32c : Crc32c} {config : StoreConfig} {fault : FsCall → IoError → Prop}
  {platform : Platform}

theorem Workshop.jobs_update_self {s : Workshop} {id : Nat} {job : Job} :
    (s.update id job).jobs id = some job := if_pos rfl

theorem Workshop.jobs_update_ne {s : Workshop} {id i : Nat} {job : Job} (h : i ≠ id) :
    (s.update id job).jobs i = s.jobs i := if_neg h

/-- The jobs after an update are the one updated and the others. -/
theorem Workshop.jobs_update {s : Workshop} {id i : Nat} {job job' : Job}
    (h : (s.update id job).jobs i = some job') :
    i = id ∧ job = job' ∨ i ≠ id ∧ s.jobs i = some job' := by
  by_cases hi : i = id
  · subst hi
    exact Or.inl ⟨rfl, Option.some.inj (jobs_update_self.symm.trans h)⟩
  · exact Or.inr ⟨hi, (jobs_update_ne hi).symm.trans h⟩

/-- **A job can run undisturbed**: what its program does alone, it does in the workshop. -/
theorem workshop_run {n : Nat} {p p' : Prog FsInterface (Except Abort TaskResult)} {w w' : JobWorld}
    (hrun : Run (Fs fault) n p w p' w') {s : Workshop} {id : Nat} {task : Task}
    (hjob : s.jobs id = some ⟨task, p, w⟩) (hdisk : s.disk = w.disk)
    (h : (workshop crc32c config fault platform).Reachable s) :
    ∃ s', (workshop crc32c config fault platform).Reachable s' ∧
      s'.jobs id = some ⟨task, p', w'⟩ := by
  induction hrun generalizing s with
  | nil => exact ⟨s, h, hjob⟩
  | @cons n p p₁ p' w w₁ w' hstep _ ih =>
    cases hstep with
    | call henv =>
      have hw : { w with disk := s.disk } = w := by rw [hdisk]
      exact ih Workshop.jobs_update_self rfl (h.step (.call hjob (hw ▸ henv)))
    | loop => exact ih Workshop.jobs_update_self hdisk (h.step (.turn hjob))

end Solo

end AtomicBlobStore
