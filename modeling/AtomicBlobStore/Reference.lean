/-
  THE REFERENCE: what every request is for, and that each job alone does just that.

  1. **`Blob`** — a payload within the configured maximum.  For every key the reference keeps
     `none` or a blob, so nothing that could not be stored can be held.

  2. **`respond`** — what an operation is answered and what it leaves, as a function of what is
     held and of what only the outside decides (`Circumstance`): what came through the chunk channel,
     whether the other side of a streaming load went away, the random identifier, the time of the file.
     A streaming save is only answered once what came decides it, so a job that has not received
     enough to know cannot return.

  3. **`responds`** — an operation, run alone where nothing fails, in a directory whose canonical file
     is the envelope of what is held: its result and the canonical file it leaves are those of
     `respond`.  One lemma for each operation comes before it.

  4. **`reference`** — the machine that serves requests one at a time.
-/
import AtomicBlobStore.Lib.KeyedMachine
import AtomicBlobStore.Presence

namespace AtomicBlobStore

/-! ## What is held -/

/-- A payload that may be stored. -/
structure Blob (maximum : Nat) where
  /-- The payload, -/
  payload : List UInt8
  /-- which is not too large. -/
  fits : payload.length ≤ maximum

/-- What is held for a key. -/
abbrev Held (maximum : Nat) := Option (Blob maximum)

/-- What only the outside decides about an operation. -/
structure Circumstance where
  /-- What came through the chunk channel of a streaming save. -/
  received : List (Option SaveStreamMessage)
  /-- The other side of a streaming load went away. -/
  left : Bool
  /-- The identifier that was drawn for a quarantine. -/
  identifier : List Char
  /-- The modification time that an inspection saw. -/
  modified : Option Nat
  /-- What a cleanup found. -/
  report : CleanupReport

/-- What a stream comes to, from the payload so far and the messages still to come: a blob when
    `Complete` finds it as long as declared, or the reason why there is none.  Messages that end
    before either come to nothing yet. -/
def collect {maximum : Nat} (declaredLen : Nat) (h : declaredLen ≤ maximum) :
    (payload : List UInt8) → payload.length ≤ declaredLen → List (Option SaveStreamMessage) →
      Option (Except AtomicBlobStoreError (Blob maximum))
  | payload, _, some (.chunk chunk) :: rest =>
    if hmore : payload.length + chunk.length ≤ declaredLen then
      collect declaredLen h (payload ++ chunk)
        (Nat.le_trans (Nat.le_of_eq List.length_append) hmore) rest
    else some (.error (.inputHasTrailingData declaredLen))
  | payload, hle, some .complete :: _ =>
    if payload.length < declaredLen then
      some (.error (.inputEndedEarly declaredLen payload.length))
    else some (.ok ⟨payload, Nat.le_trans hle h⟩)
  | _, _, none :: _ => some (.error .streamCancelled)
  | _, _, [] => none

/-- The blob that a streaming save is fed, or why it is refused, once either is decided.  A stream that
    is declared too long is refused before anything is received. -/
def assemble (maximum declaredLen : Nat) (received : List (Option SaveStreamMessage)) :
    Option (Except AtomicBlobStoreError (Blob maximum)) :=
  if h : declaredLen ≤ maximum then collect declaredLen h [] (Nat.zero_le _) received
  else some (.error (.blobTooLarge declaredLen maximum))

/-- Why a payload is refused: its length is no 64-bit number, or beyond the maximum. -/
def refusal (maximum : Nat) (payload : List UInt8) : AtomicBlobStoreError :=
  if payload.length < u64Limit then .blobTooLarge payload.length maximum
  else .invalidPayloadLength (u64Limit - 1)

section Reference

variable (config : StoreConfig) (keyHash : KeyHash) (c : Circumstance)

/-- **What an operation is answered, and what it leaves.**  Every operation is answered at once but a
    streaming save: it has no answer, and changes nothing, while its stream decides nothing. -/
def respond (held : Held config.maximum) : Operation → Option BlockingResult × Held config.maximum
  | .load _ => (some (.load (.ok (held.map Blob.payload))), held)
  | .loadStream .. => match held with
    | none => (some (.loadStream (.ok none)), none)
    | some blob => (some (.loadStream
        (if c.left then .error .streamCancelled else .ok (some ⟨blob.payload.length⟩))), some blob)
  | .save payload _ =>
    if h : payload.length ≤ config.maximum then (some (.save (.ok ())), some ⟨payload, h⟩)
    else (some (.save (.error (refusal config.maximum payload))), held)
  | .saveStream declaredLen _ _ => match assemble config.maximum declaredLen c.received with
    | none => (none, held)
    | some (.ok blob) => (some (.saveStream (.ok ())), some blob)
    | some (.error e) => (some (.saveStream (.error e)), held)
  | .clear _ => (some (.clear (.ok ())), none)
  | .inspect _ => match held with
    | none => (some (.inspect (.ok ⟨.absent, none, none⟩)), none)
    | some blob =>
      (some (.inspect (.ok ⟨.present, some (22 + blob.payload.length), c.modified⟩)), some blob)
  | .quarantine _ => match held with
    | none => (some (.quarantine (.error .quarantineSourceMissing)), none)
    | some _ => (some (.quarantine (.ok ⟨c.identifier,
        quarantineFilename (toHex keyHash.toList) config.format.filenameSuffix c.identifier⟩)), none)

/-- What a maintenance request is answered: a barrier alone finds nothing, Unix refuses to clean up, and
    what a cleanup found on Windows is for the outside to decide. -/
def respondMaintenance (platform : Platform) (sub : MaintenanceSubmission) :
    Except AtomicBlobStoreError CleanupReport :=
  match sub.minimumAge, platform with
  | none, _ => .ok ⟨[], [], []⟩
  | some _, .unix => .error (.cleanupUnsupported Unix.os)
  | some _, .windows => .ok c.report

end Reference

/-- **The reference machine**: `asked` names the key of each operation by its reply channel, `luck`
    is what the outside decides.  It has a reply for every request but a streaming save whose stream
    decides nothing. -/
def reference {κ : Type} (config : StoreConfig) (platform : Platform) (asked : Ticket → κ)
    (luck : Ticket → Circumstance) :
    KeyedMachine κ (Held config.maximum) PendingEvent (Option Reply) where
  key?
    | .submission sub => some (asked sub.operation.sender)
    | _ => none
  serve held
    | .submission sub =>
      let (result, left) := respond config sub.keyHash (luck sub.operation.sender) held sub.operation
      (result.map Reply.operation, left)
    | _ => (some (.unit (.ok ())), held)
  reply
    | .maintenance sub => some (.cleanup (respondMaintenance (luck sub.sender) platform sub))
    | _ => some (.unit (.ok ()))

/-! ## The canonical file -/

section Stored

variable (crc32c : Crc32c) (config : StoreConfig)

/-- The canonical file of what is held. -/
def stored (held : Held config.maximum) : Option Node :=
  held.map fun blob => .file (envelope crc32c config.format blob.payload)

end Stored

/-! ## Streams

  The encoder stops at the first message that decides, and `collect` reads the same list of messages.
  The two agree wherever the worker has received enough. -/

section Streams

variable {maximum declaredLen : Nat} {config : StoreConfig}

theorem collect_fed (h : declaredLen ≤ maximum) (later : List (Option SaveStreamMessage)) :
    ∀ (chunks : List (List UInt8)) (payload : List UInt8) (hle : payload.length ≤ declaredLen)
      (hall : (payload ++ chunks.flatten).length ≤ declaredLen),
      collect declaredLen h payload hle (fed chunks ++ later) =
        collect declaredLen h (payload ++ chunks.flatten) hall later := by
  intro chunks
  induction chunks with
  | nil =>
    intro payload hle hall
    simp [fed]
  | cons chunk chunks ih =>
    intro payload hle hall
    have hmore : payload.length + chunk.length ≤ declaredLen := by
      simp only [List.flatten_cons, List.length_append] at hall
      omega
    have hstep : collect declaredLen h payload hle (fed (chunk :: chunks) ++ later) =
        collect declaredLen h (payload ++ chunk)
          (Nat.le_trans (Nat.le_of_eq List.length_append) hmore) (fed chunks ++ later) := dif_pos hmore
    rw [hstep, ih]
    · simp only [List.flatten_cons, List.append_assoc]
    · rw [List.append_assoc]
      exact hall

/-- A stream that is as long as declared is taken. -/
theorem assemble_complete {chunks : List (List UInt8)} (hlen : chunks.flatten.length = declaredLen)
    (hmax : declaredLen ≤ maximum) : assemble maximum declaredLen (fed chunks ++ [some .complete]) =
      some (.ok ⟨chunks.flatten, by rw [hlen]; exact hmax⟩) := by
  unfold assemble
  rw [dif_pos hmax, collect_fed hmax _ chunks [] _ (by simp [hlen])]
  exact if_neg (by simp [hlen])

/-- What stops the encoder, where no write fails, stops the reference. -/
theorem assemble_stops (hmax : declaredLen ≤ config.maximum) {e : AtomicBlobStoreError}
    {log : List (Option SaveStreamMessage)} (h : Stops Faultless config declaredLen e log) :
    assemble config.maximum declaredLen log = some (.error e) := by
  unfold assemble
  rw [dif_pos hmax]
  cases h with
  | tooLarge h => omega
  | trailing chunks chunk hle hmore =>
    rw [collect_fed hmax _ chunks [] _ (by simpa using hle)]
    exact dif_neg (by simpa using hmore)
  | early chunks hlt =>
    rw [collect_fed hmax _ chunks [] _ (by simpa using Nat.le_of_lt hlt)]
    exact if_pos (by simpa using hlt)
  | cancelled chunks hle =>
    rw [collect_fed hmax _ chunks [] _ (by simpa using hle)]
    rfl
  | failed c source hfault chunks hle log hlog => exact hfault.2.elim

end Streams

/-! ## Refused requests

  A request can be refused for its size alone.  The directory is then neither looked at nor changed. -/

section Refused

variable (crc32c : Crc32c) {config : StoreConfig}

/-- A payload that is refused never reaches the directory. -/
theorem saveBlob_refused {payload : List UInt8} (h : ¬payload.length ≤ config.maximum)
    (platform : Platform) (path : FileName) :
    (saveBlob crc32c config platform path payload).run =
      .ret (.error (.error (refusal config.maximum payload))) := by
  have hparts : envelopeParts crc32c config.format payload config.maximum =
      .error (refusal config.maximum payload) := by
    unfold envelopeParts payloadSize refusal
    by_cases hfits : payload.length < u64Limit
    · rw [if_pos hfits, if_pos hfits]
      show (envelopeHeader config.format payload.length config.maximum >>= _) = _
      rw [envelopeHeader, if_pos (Nat.lt_of_not_le h)]
      rfl
    · rw [if_neg hfits, if_neg hfits]
      rfl
  cases platform with
  | unix =>
    show (Unix.saveBlob crc32c config path payload).run = _
    unfold Unix.saveBlob
    rw [hparts]
    rfl
  | windows =>
    show (Windows.saveBlob crc32c config path payload).run = _
    unfold Windows.saveBlob
    rw [hparts]
    rfl

/-- Neither does a stream that is declared too long. -/
theorem saveStream_refused {declaredLen : Nat} (h : ¬declaredLen ≤ config.maximum)
    (platform : Platform) (path : FileName) :
    (saveBlobFromReceiver crc32c config platform path declaredLen).run =
      .ret (.error (.error (.blobTooLarge declaredLen config.maximum))) := by
  have hheader : envelopeHeader config.format declaredLen config.maximum =
      .error (.blobTooLarge declaredLen config.maximum) := by
    rw [envelopeHeader, if_pos (Nat.lt_of_not_le h)]
  cases platform with
  | unix =>
    show (Unix.saveBlobFromReceiver crc32c config path declaredLen).run = _
    unfold Unix.saveBlobFromReceiver
    rw [hheader]
    rfl
  | windows =>
    show (Windows.saveBlobFromReceiver crc32c config path declaredLen).run = _
    unfold Windows.saveBlobFromReceiver
    rw [hheader]
    rfl

end Refused

/-! ## Who went away

  Whether a reader stays to the end is not for the store to decide, but what it reports must fit. -/

section Left

variable {crc32c : Crc32c} {config : StoreConfig} {fault : FsCall → IoError → Prop} {path : FileName}

/-- One turn of the sending loop: whoever goes away ends it. -/
theorem attended_sendTurn {source : Source IoError Nat} {s : Nat × Nat} {w : JobWorld}
    (h : w.left = false) : HoldsE (Fs fault) (sendTurn source s) (fun _ w => w.left = false)
      (fun _ _ => True) (fun _ => True) w := by
  obtain ⟨remaining, position⟩ := s
  show Holds _ (ExceptT.run (if _ then _ else _)) _ _ _
  split
  · exact holds_ret trivial h
  · refine holdsE_bind (holdsE_ofExcept trivial ?_)
    cases ((readSection source (min remaining streamChunkSize) .payload).run position).1 with
    | error abort => exact trivial
    | ok chunk =>
      refine holds_call (I := FsInterface) (c := .send chunk) trivial fun r w' henv => ?_
      cases r with
      | true =>
        obtain rfl : w' = { w with sent := w.sent ++ [chunk] } := henv
        exact holds_ret trivial h
      | false => exact holds_ret trivial trivial

/-- **A streaming load that succeeds was attended to its end.** -/
theorem attended_loadBlobIntoSender {w : JobWorld} (h : w.left = false) :
    HoldsE (Fs fault) (loadBlobIntoSender crc32c config path) (fun _ w => w.left = false)
      (fun _ _ => True) (fun _ => True) w := by
  refine holds_call (I := FsInterface) (c := .openFile path) trivial fun r w' henv => ?_
  obtain ⟨rfl, -⟩ := henv
  cases r with
  | error source =>
    show Holds _ (ExceptT.run (if _ then _ else _)) _ _ _
    split
    · refine holdsE_bind (holds_ensureNamespaceAvailable trivial (fun _ => ?_) fun _ _ _ => trivial)
      exact holds_ret trivial h
    · exact holds_ret trivial trivial
  | ok file =>
    refine holdsE_bind (holdsE_ofExcept trivial ?_)
    cases ((validateEnvelopeReader crc32c config.format file.source config.maximum).run
        file.position).1 with
    | error abort => exact trivial
    | ok metadata =>
      refine holds_call (I := FsInterface) (c := .seek file headerLen) trivial fun r w'' henv => ?_
      obtain ⟨rfl, -⟩ := henv
      cases r with
      | error source => exact holds_ret trivial trivial
      | ok moved =>
        refine holdsE_bind (p := FsM.io .readEnvelope (.ok moved)) (holdsE_pure trivial ?_)
        refine holdsE_bind (holdsE_iterate (fun _ w => w.left = false) h (fun _ _ _ => trivial)
          fun s w hw => ?_)
        refine (attended_sendTurn hw).mono (fun next w _ hnext => ?_) (fun _ _ _ he => he)
          fun _ hc => hc
        cases next with
        | inl s => exact hnext
        | inr u =>
          refine holds_call (I := FsInterface) (c := .recvAcknowledgement) trivial
            fun r w' henv => ?_
          cases r with
          | true =>
            obtain rfl : w' = w := henv
            exact holds_ret trivial hnext
          | false => exact holds_ret trivial trivial

end Left

/-! ## One operation

  For each operation the runs have been computed elsewhere; what remains is to read the result and the
  directory in terms of what is held. -/

/-- How a function that was looked at ended. -/
def looked {α : Type} (y : Except AtomicBlobStoreError α) : Except Abort α := y.mapError Abort.error

/-- A value that was returned through `<$>`. -/
theorem returns_of_map {W α β : Type} {env : Environment FsInterface W} {p : FsM α} {f : α → β} {b : β}
    {w w' : W} (h : Returns env (f <$> p).run w (.ok b) w') :
    ∃ a, b = f a ∧ Returns env p.run w (.ok a) w' := by
  obtain ⟨r, w₁, hr, hend⟩ := Returns.of_bind h
  cases r with
  | error abort => cases (Returns.of_ret hend).1
  | ok a =>
    obtain ⟨hb, rfl⟩ := Returns.of_ret hend
    exact ⟨a, Except.ok.inj hb, hr⟩

/-- A result that was delivered is one that a function returned. -/
theorem returns_of_result {W α β : Type} {env : Environment FsInterface W} {p : FsM α}
    {f : Except AtomicBlobStoreError α → β} {result : β} {w w' : W}
    (h : Returns env (f <$> p.result).run w (.ok result) w') :
    ∃ y, result = f y ∧ Returns env p.run w (looked y) w' := by
  obtain ⟨y, rfl, hr⟩ := returns_of_map h
  refine ⟨y, rfl, ?_⟩
  obtain ⟨r, w₂, hr, hend⟩ := Returns.of_bind hr
  obtain ⟨x, w₃, hx, hattempt⟩ := Returns.of_bind hr
  obtain ⟨rfl, rfl⟩ := Returns.of_ret hattempt
  rcases x with (e | _) | a
  · obtain ⟨hy, rfl⟩ := Returns.of_ret hend
    obtain rfl := Except.ok.inj hy
    exact hx
  · cases (Returns.of_ret hend).1
  · obtain ⟨hy, rfl⟩ := Returns.of_ret hend
    obtain rfl := Except.ok.inj hy
    exact hx

/-- A job runs alike whether its acknowledgement is noted or not. -/
theorem heeding_run {α : Type} {fault : FsCall → IoError → Prop} {n : Nat}
    {p q : Prog FsInterface α} {w w' : JobWorld} (h : Run (Fs fault) n p w q w') (noted : Bool) :
    ∃ noted', Run (Heeding fault) n p (w, noted) q (w', noted') := by
  have hmatch : ∀ c w (v : JobWorld × Bool) r w', v.1 = w → Fs fault c w r w' →
      ∃ v', Heeding fault c v r v' ∧ v'.1 = w' := by
    rintro c _ v r w' rfl henv
    exact ⟨(w', v.2 || acknowledges c r), ⟨henv, rfl⟩, rfl⟩
  obtain ⟨v, hrun, rfl⟩ := h.matched hmatch (v := (w, noted)) rfl
  exact ⟨v.2, hrun⟩

section Responding

variable {crc32c : Crc32c} {config : StoreConfig} {platform : Platform} {key : KeyHash} {disk : Disk}
  {held : Held config.maximum} {w : JobWorld} (hdirectory : disk.isDirectory = true)
  (hentry : disk.entry (blobFilename config.format key) = stored crc32c config held)

/-- An operation did what the reference does: its result is the reference's answer, so the reference has
    one, and the canonical file is the envelope of what the reference leaves. -/
def Responds (crc32c : Crc32c) (config : StoreConfig) (key : KeyHash) (c : Circumstance)
    (held : Held config.maximum) (op : Operation) (result : BlockingResult) (w : JobWorld) : Prop :=
  some result = (respond config key c held op).1 ∧
    w.disk.entry (blobFilename config.format key) = stored crc32c config (respond config key c held op).2

include hentry in
/-- What is stored is a regular file. -/
theorem stored_regular : disk.entry (blobFilename config.format key) ≠ some .other := by
  rw [hentry]
  cases held <;> simp [stored]

section Looking

variable {c : Circumstance}

include hdirectory hentry

/-- `load` answers what is held, -/
theorem responds_load (sender : Ticket) {y : Except AtomicBlobStoreError (Option (List UInt8))}
    (h : Returns (Fs Faultless) (loadBlob crc32c config (blobFilename config.format key)).run
      (.start disk) (looked y) w) :
    Responds crc32c config key c held (.load sender) (.load y) w := by
  have hloads : Loads crc32c config key disk (looked y) := ⟨w, h⟩
  obtain ⟨n, hrun⟩ := h
  have hlooks : LooksOnly crc32c config key disk := looks_only (stored_regular hentry)
  have hdisk := hlooks.load Faultless n _ w hrun
  refine ⟨congrArg (some ∘ BlockingResult.load) ?_, by rw [hdisk]; exact hentry⟩
  cases held with
  | none =>
    have hy := (loads_absent hdirectory hentry (looked y)).mp hloads
    cases y with
    | ok found => exact congrArg Except.ok (Except.ok.inj hy)
    | error e => cases hy
  | some blob =>
    have hstores : Stores crc32c config key disk blob.payload := ⟨blob.fits, hentry⟩
    by_cases halloc : Allocates config key disk
    · have hy := (hstores.loads halloc (looked y)).mp hloads
      cases y with
      | ok found => exact congrArg Except.ok (Except.ok.inj hy)
      | error e => cases hy
    · -- a load that cannot allocate panics
      have hpanics : LoadsTo crc32c config key disk (.error .panic) := loads_large halloc
      have hy := (hpanics (looked y)).mp hloads
      cases y <;> cases hy

/-- a streaming load sends it, or reports who went away, -/
theorem responds_loadStream (chunks acknowledgement : Option StreamId) (sender : Ticket)
    {y : Except AtomicBlobStoreError (Option BlobMetadata)} (hleft : c.left = w.left)
    (h : Returns (Fs Faultless)
      (loadBlobIntoSender crc32c config (blobFilename config.format key)).run
      (.start disk) (looked y) w) :
    Responds crc32c config key c held (.loadStream chunks acknowledgement sender) (.loadStream y) w := by
  obtain ⟨n, hrun⟩ := h
  obtain ⟨noted, hrun'⟩ := heeding_run hrun false
  obtain ⟨⟨hdisk, -⟩, hend⟩ := holds_loadBlobIntoSender (stored_regular hentry) n _ _ hrun'
  have hloaded := hend _ rfl
  have hattended := (attended_loadBlobIntoSender (w := .start disk) rfl n _ w hrun).2 _ rfl
  have hdisk : w.disk = disk := hdisk
  have hkept : w.disk.entry (blobFilename config.format key) = stored crc32c config held := by
    rw [hdisk]
    exact hentry
  cases held with
  | none =>
    refine ⟨congrArg (some ∘ BlockingResult.loadStream) ?_, hkept⟩
    have hnone {payload : List UInt8} : ¬Stores crc32c config key disk payload := fun h => by
      have := h.2
      rw [hentry] at this
      cases this
    rcases y with e | _ | metadata
    · rcases hloaded with htrouble | ⟨⟨content, hcontent, -⟩, -⟩ | ⟨-, -, payload, hstores⟩
      · exact absurd htrouble (not_trouble hdirectory)
      · rw [hentry] at hcontent
        cases hcontent
      · exact absurd hstores hnone
    · rfl
    · obtain ⟨-, payload, hstores, -⟩ := hloaded
      exact absurd hstores hnone
  | some blob =>
    refine ⟨congrArg (some ∘ BlockingResult.loadStream) ?_, hkept⟩
    have hstores : Stores crc32c config key disk blob.payload := ⟨blob.fits, hentry⟩
    rw [hleft]
    rcases y with e | _ | metadata
    · rcases hloaded with htrouble | ⟨hrejects, -⟩ | ⟨rfl, hgone, -⟩
      · exact absurd htrouble (not_trouble hdirectory)
      · exact absurd hstores (hrejects.not_stores blob.payload)
      · have hgone : w.left = true := hgone
        rw [if_pos hgone]
    · obtain ⟨hnone, -, -⟩ := hloaded
      rw [hentry] at hnone
      cases hnone
    · obtain ⟨-, payload, hstores', rfl, -⟩ := hloaded
      have hhere : w.left = false := hattended
      rw [if_neg (by rw [hhere]; exact Bool.false_ne_true), hstores.unique hstores']

/-- an inspection reports its size, -/
theorem responds_inspect (sender : Ticket) {y : Except AtomicBlobStoreError BlobInspection}
    (hmodified : ∀ found, y = .ok found → c.modified = found.modified)
    (h : Returns (Fs Faultless) (inspectBlob (blobFilename config.format key)).run
      (.start disk) (looked y) w) :
    Responds crc32c config key c held (.inspect sender) (.inspect y) w := by
  have hends : Ends (inspectBlob (blobFilename config.format key)) disk (looked y) w.disk :=
    ⟨w, h, rfl⟩
  cases held with
  | none =>
    have habsent : SaysAbsent crc32c config .unix key disk := says_absent hdirectory hentry
    obtain ⟨hy, hdisk⟩ := (habsent.inspect _ _).mp hends
    refine ⟨congrArg (some ∘ BlockingResult.inspect) ?_, by rw [hdisk]; exact hentry⟩
    cases y with
    | ok found => exact congrArg Except.ok (Except.ok.inj hy)
    | error e => cases hy
  | some blob =>
    obtain ⟨⟨modified, hy⟩, hdisk⟩ := (ends_inspect hentry _ _).mp hends
    refine ⟨congrArg (some ∘ BlockingResult.inspect) ?_, by rw [hdisk]; exact hentry⟩
    cases y with
    | error e => cases hy
    | ok found =>
      obtain rfl := Except.ok.inj hy
      rw [hmodified _ rfl, length_envelope]

end Looking

section Changing

variable {c : Circumstance}

include hdirectory hentry

/-- a save replaces it, -/
theorem responds_save (payload : List UInt8) (sender : Ticket)
    {y : Except AtomicBlobStoreError Unit}
    (h : Returns (Fs Faultless)
      (saveBlob crc32c config platform (blobFilename config.format key) payload).run
      (.start disk) (looked y) w) :
    Responds crc32c config key c held (.save payload sender) (.save y) w := by
  by_cases hfits : payload.length ≤ config.maximum
  · have hresponse : respond config key c held (.save payload sender) =
        (some (.save (.ok ())), some ⟨payload, hfits⟩) := dif_pos hfits
    unfold Responds
    rw [hresponse]
    obtain ⟨n, hrun⟩ := h
    have hend := (holds_saveBlob crc32c config Faultless (.start disk) key platform payload n _ w
      hrun).2 _ rfl
    cases y with
    | ok u =>
      have hsaved : Saved crc32c config (.start disk) key payload w := hend
      exact ⟨rfl, hsaved.self⟩
    | error e =>
      obtain ⟨-, htrouble | hrefused⟩ := hend
      · exact absurd htrouble (not_trouble hdirectory)
      · -- a payload that fits is not refused
        have hlimit := maximum_lt config
        have hencoded : encodeEnvelope crc32c config.format payload config.maximum = _ :=
          encodeEnvelope_eq crc32c config.format payload (by omega)
        rw [if_neg (by omega)] at hencoded
        cases hencoded.symm.trans hrefused
  · have hresponse : respond config key c held (.save payload sender) =
        (some (.save (.error (refusal config.maximum payload))), held) := dif_neg hfits
    unfold Responds
    rw [hresponse]
    rw [saveBlob_refused crc32c hfits] at h
    obtain ⟨hy, rfl⟩ := Returns.of_ret h
    refine ⟨congrArg (some ∘ BlockingResult.save) ?_, hentry⟩
    cases y with
    | ok u => cases hy
    | error e => rw [Abort.error.inj (Except.error.inj hy)]

/-- a streaming save does so once its stream decides, -/
theorem responds_saveStream (declaredLen : Nat) (chunks : StreamId) (sender : Ticket)
    {y : Except AtomicBlobStoreError Unit} (hreceived : c.received = w.received)
    (h : Returns (Fs Faultless)
      (saveBlobFromReceiver crc32c config platform (blobFilename config.format key) declaredLen).run
      (.start disk) (looked y) w) :
    Responds crc32c config key c held (.saveStream declaredLen chunks sender) (.saveStream y) w := by
  have hnever : ¬Retried Faultless := by
    rintro ⟨_, _, hfault, -⟩
    exact hfault
  have hlog {log : List (Option SaveStreamMessage)} (hall : Received Faultless (.start disk) log w) :
      w.received = log := by
    obtain ⟨front, hfront, hnone⟩ := hall
    rw [hfront, hnone.resolve_right hnever]
    rfl
  unfold Responds
  by_cases hmax : declaredLen ≤ config.maximum
  · obtain ⟨n, hrun⟩ := h
    have hend := (holds_saveBlobFromReceiver crc32c config Faultless (.start disk) key platform
      declaredLen n _ w hrun).2 _ rfl
    cases y with
    | ok u =>
      obtain ⟨fedChunks, hlen, -, hall, hsaved⟩ :
        SavedStream crc32c config Faultless (.start disk) key declaredLen w := hend
      have hassemble := assemble_complete hlen hmax
      rw [← hlog hall, ← hreceived] at hassemble
      have hresponse : respond config key c held (.saveStream declaredLen chunks sender) =
          (some (.saveStream (.ok ())), some ⟨fedChunks.flatten, by rw [hlen]; exact hmax⟩) := by
        simp only [respond, hassemble]
      rw [hresponse]
      exact ⟨rfl, hsaved.self⟩
    | error e =>
      obtain ⟨htells, htrouble | ⟨log, hstops, hall⟩⟩ := hend
      · exact absurd htrouble (not_trouble hdirectory)
      · have hassemble := assemble_stops hmax hstops
        rw [← hlog hall, ← hreceived] at hassemble
        have hresponse : respond config key c held (.saveStream declaredLen chunks sender) =
            (some (.saveStream (.error e)), held) := by
          simp only [respond, hassemble]
        rw [hresponse]
        rw [stops_tells hstops] at htells
        have hunseen : Unseen config.format (.start disk) key w := htells
        exact ⟨rfl, hunseen.self.trans hentry⟩
  · rw [saveStream_refused crc32c hmax] at h
    obtain ⟨hy, rfl⟩ := Returns.of_ret h
    have hassemble : assemble config.maximum declaredLen c.received =
        some (.error (.blobTooLarge declaredLen config.maximum)) := dif_neg hmax
    have hresponse : respond config key c held (.saveStream declaredLen chunks sender) =
        (some (.saveStream (.error (.blobTooLarge declaredLen config.maximum))), held) := by
      simp only [respond, hassemble]
    rw [hresponse]
    refine ⟨congrArg (some ∘ BlockingResult.saveStream) ?_, hentry⟩
    cases y with
    | ok u => cases hy
    | error e => rw [Abort.error.inj (Except.error.inj hy)]

omit hentry in
/-- a clear leaves nothing, -/
theorem responds_clear (sender : Ticket) {y : Except AtomicBlobStoreError Unit}
    (h : Returns (Fs Faultless) (clearBlob config platform (blobFilename config.format key)).run
      (.start disk) (looked y) w) :
    Responds crc32c config key c held (.clear sender) (.clear y) w := by
  obtain ⟨n, hrun⟩ := h
  have hend := (holds_clearBlob config Faultless (.start disk) key platform n _ w hrun).2 _ rfl
  cases y with
  | ok u =>
    obtain ⟨moved, hseen⟩ : Cleared config (.start disk) key w := hend
    exact ⟨rfl, hseen.self⟩
  | error e =>
    obtain ⟨-, htrouble | hno⟩ := hend
    · exact absurd htrouble (not_trouble hdirectory)
    · exact hno.elim

/-- and so does a quarantine, which reports where it went. -/
theorem responds_quarantine (sender : Ticket) {y : Except AtomicBlobStoreError QuarantineInfo}
    (hidentifier : ∀ quarantine, y = .ok quarantine → c.identifier = quarantine.identifier)
    (h : Returns (Fs Faultless)
      (quarantineBlob config platform (blobFilename config.format key)).run
      (.start disk) (looked y) w) :
    Responds crc32c config key c held (.quarantine sender) (.quarantine y) w := by
  obtain ⟨n, hrun⟩ := h
  have hend := (holds_quarantineBlob config Faultless (.start disk) key platform n _ w hrun).2 _ rfl
  cases y with
  | ok quarantine =>
    obtain ⟨hpath, -, node, hnode, -, hseen⟩ : Quarantined config (.start disk) key quarantine w := hend
    cases held with
    | none => cases hentry.symm.trans hnode
    | some blob =>
      refine ⟨congrArg (some ∘ BlockingResult.quarantine ∘ Except.ok) ?_, hseen.self⟩
      rw [hidentifier _ rfl, ← hpath]
  | error e =>
    have hreason : Unseen config.format (.start disk) key w ∧ e = .quarantineSourceMissing ∧
        disk.entry (blobFilename config.format key) = none := by
      have hend : FailedQuarantine config Faultless (.start disk) key (.error e) w := hend
      cases e with
      | quarantineNamespaceSync quarantine source =>
        exact absurd hend.2 (not_trouble hdirectory)
      | _ =>
        obtain ⟨-, hunseen, htrouble | hmissing⟩ := hend
        · exact absurd htrouble (not_trouble hdirectory)
        · exact ⟨hunseen, hmissing⟩
    obtain ⟨hunseen, rfl, hnone⟩ := hreason
    cases held with
    | none => exact ⟨rfl, hunseen.self.trans hnone⟩
    | some blob => cases hentry.symm.trans hnone

end Changing

include hdirectory in
omit hentry in
/-- **Whatever operation runs alone does what the reference does**, whatever is held. -/
theorem responds (op : Operation) {result : BlockingResult}
    (h : Returns (Fs Faultless)
      (runOwnedOperation crc32c config platform (blobFilename config.format key) op).run
      (.start disk) (.ok result) w) :
    ∃ c : Circumstance, c.received = w.received ∧ c.left = w.left ∧
      ∀ held : Held config.maximum,
        disk.entry (blobFilename config.format key) = stored crc32c config held →
        Responds crc32c config key c held op result w := by
  cases op with
  | load sender =>
    obtain ⟨y, rfl, hreturns⟩ := returns_of_result h
    exact ⟨⟨w.received, w.left, [], none, ⟨[], [], []⟩⟩, rfl, rfl, fun held hentry =>
      responds_load hdirectory hentry sender hreturns⟩
  | loadStream chunks acknowledgement sender =>
    obtain ⟨y, rfl, hreturns⟩ := returns_of_result h
    exact ⟨⟨w.received, w.left, [], none, ⟨[], [], []⟩⟩, rfl, rfl, fun held hentry =>
      responds_loadStream hdirectory hentry chunks acknowledgement sender rfl hreturns⟩
  | save payload sender =>
    obtain ⟨y, rfl, hreturns⟩ := returns_of_result h
    exact ⟨⟨w.received, w.left, [], none, ⟨[], [], []⟩⟩, rfl, rfl, fun held hentry =>
      responds_save hdirectory hentry payload sender hreturns⟩
  | saveStream declaredLen chunks sender =>
    obtain ⟨y, rfl, hreturns⟩ := returns_of_result h
    exact ⟨⟨w.received, w.left, [], none, ⟨[], [], []⟩⟩, rfl, rfl, fun held hentry =>
      responds_saveStream hdirectory hentry declaredLen chunks sender rfl hreturns⟩
  | clear sender =>
    obtain ⟨y, rfl, hreturns⟩ := returns_of_result h
    exact ⟨⟨w.received, w.left, [], none, ⟨[], [], []⟩⟩, rfl, rfl, fun held hentry =>
      responds_clear hdirectory sender hreturns⟩
  | inspect sender =>
    obtain ⟨y, rfl, hreturns⟩ := returns_of_result h
    cases y with
    | ok found =>
      refine ⟨⟨w.received, w.left, [], found.modified, ⟨[], [], []⟩⟩, rfl, rfl, fun held hentry =>
        responds_inspect hdirectory hentry sender ?_ hreturns⟩
      intro found' hfound
      rw [Except.ok.inj hfound]
    | error e =>
      refine ⟨⟨w.received, w.left, [], none, ⟨[], [], []⟩⟩, rfl, rfl, fun held hentry =>
        responds_inspect hdirectory hentry sender ?_ hreturns⟩
      intro found hfound
      cases hfound
  | quarantine sender =>
    obtain ⟨y, rfl, hreturns⟩ := returns_of_result h
    cases y with
    | ok quarantine =>
      refine ⟨⟨w.received, w.left, quarantine.identifier, none, ⟨[], [], []⟩⟩, rfl, rfl,
        fun held hentry => responds_quarantine hdirectory hentry sender ?_ hreturns⟩
      intro quarantine' hquarantine
      rw [Except.ok.inj hquarantine]
    | error e =>
      refine ⟨⟨w.received, w.left, [], none, ⟨[], [], []⟩⟩, rfl, rfl, fun held hentry =>
        responds_quarantine hdirectory hentry sender ?_ hreturns⟩
      intro quarantine hquarantine
      cases hquarantine

end Responding

/-! ## Maintenance

  Maintenance holds nothing and changes no canonical file.  A report of what was found is the
  outside's. -/

section Maintenance

variable {config : StoreConfig} {platform : Platform} {w w' : JobWorld}

/-- Cleaning up on Windows, once the directory is listed, comes to a report. -/
theorem reports_cleanupEntries (now minimumAge : Nat) : ∀ (entries : List (Except IoError FileName))
    (report : CleanupReport) (w : JobWorld),
    HoldsE (Fs Faultless) (Windows.cleanupEntries config now minimumAge entries report)
      (fun _ _ => True) (fun _ _ => False) (fun _ => True) w := by
  intro entries
  induction entries with
  | nil => exact fun report w => holds_ret trivial trivial
  | cons entry entries ih =>
    intro report w
    refine holdsE_bind (HoldsE.mono (Q := fun _ _ => True) ?_ (fun report w _ _ => ih report w)
      (fun _ _ _ he => he) fun _ hc => hc)
    cases entry with
    | error source => exact holds_ret trivial trivial
    | ok name =>
      show Holds _ (ExceptT.run (if _ then _ else _)) _ _ _
      split
      · exact holds_ret trivial trivial
      · refine holds_call (I := FsInterface) (c := .symlinkMetadata name) trivial fun r w' _ => ?_
        cases r with
        | error source => exact holds_ret trivial trivial
        | ok metadata =>
          show Holds _ (ExceptT.run (if _ then _ else if _ then _ else _)) _ _ _
          split
          · exact holds_ret trivial trivial
          · split
            · exact holds_ret trivial trivial
            · refine holds_call (I := FsInterface) (c := .deleteFile name) trivial fun r w'' _ => ?_
              cases r <;> exact holds_ret trivial trivial

/-- **A cleanup that runs alone does what the reference does.** -/
theorem responds_cleanup {minimumAge : Nat} (hdirectory : w.disk.isDirectory = true) (sender : Ticket)
    {y : Except AtomicBlobStoreError CleanupReport}
    (h : Returns (Fs Faultless) (cleanupStaleFiles config platform minimumAge).run w (looked y) w') :
    ∃ report : CleanupReport, ∀ c : Circumstance, c.report = report →
      y = respondMaintenance c platform ⟨some minimumAge, sender⟩ := by
  cases platform with
  | unix =>
    obtain ⟨hy, -⟩ := Returns.of_ret h
    refine ⟨⟨[], [], []⟩, fun c _ => ?_⟩
    cases y with
    | ok report => cases hy
    | error e => exact congrArg Except.error (Abort.error.inj (Except.error.inj hy))
  | windows =>
    have hholds : HoldsE (Fs Faultless) (Windows.cleanupStaleFiles config minimumAge)
        (fun _ _ => True) (fun _ _ => False) (fun _ => True) w := by
      refine holds_call (I := FsInterface) (c := .now) trivial fun now w₁ henv => ?_
      obtain rfl : w₁ = w := henv
      refine holds_call (I := FsInterface) (c := .readDirectory) trivial fun r w₂ henv => ?_
      obtain ⟨rfl, henv⟩ := henv
      cases r with
      | error source =>
        rcases henv with hfault | hnot
        · exact hfault.elim
        · exact absurd (hdirectory.symm.trans hnot) Bool.noConfusion
      | ok entries =>
        refine holdsE_bind (p := FsM.io .enumerateTemporaryFiles (.ok entries))
          (holdsE_pure trivial ?_)
        exact reports_cleanupEntries now minimumAge entries _ w₂
    obtain ⟨n, hrun⟩ := h
    have hend := (hholds n _ w' hrun).2 _ rfl
    cases y with
    | error e => exact hend.elim
    | ok report => exact ⟨report, fun c hc => by rw [← hc]; rfl⟩

end Maintenance

end AtomicBlobStore
