/-
  OLD OR NEW: what the four operations that change a canonical file leave behind, wherever they fail
  or are stopped.

  1. **What is seen** — `Seen w₀ key node moved w`: since the world `w₀` the canonical file of `key`
     has become `node`, no other canonical file has changed, and exactly `moved` was put in place.
     Staging and diagnostic names are not canonical, so nothing the operations do to them is seen.

  2. **What an error tells** — `AtomicBlobStoreError.tells`, from the error alone.

  3. **The steps** — one lemma for each helper of the backends, with the conditions that what follows
     it needs as hypotheses; every step either leaves what is seen, or is the one step of its
     operation that replaces, removes or moves the canonical file.

  4. **The operations** — `holds_saveBlob`, `holds_saveBlobFromReceiver`, `holds_clearBlob` and
     `holds_quarantineBlob`, on both platforms, and `old_or_new` from them.  An error also has a
     reason: either there is `Trouble`, or the request itself is refused.

  The property is one of every moment and not of the end, since a process may be killed between any
  two calls.  So it is proved with `Holds`, whose first part is about every state of a run; the last
  part, about results, is what makes it useful to a caller that survives.

  The two backends are proved separately from the same vocabulary, and differ in where the one step
  that is seen is taken: a commit, a removal or a move without replacing on Unix, and a move into or
  out of place on Windows.
-/
import AtomicBlobStore.StreamEnvelope

namespace AtomicBlobStore

open BigEndian
open FsM (ask fail ofResult)

/-! ## What is seen -/

/-- A name that is no key's canonical name. -/
def Hidden (format : BlobFormatIdentity) (name : FileName) : Prop :=
  ∀ key, blobFilename format key ≠ name

/-- Canonical names have one dot. -/
theorem hidden_of_dots {format : BlobFormatIdentity} {name : FileName} (h : 2 ≤ dots name) :
    Hidden format name := by
  intro key hname
  have := dots_blobFilename format key
  rw [hname] at this
  omega

/-- A staging name is no canonical name, -/
theorem hidden_stagingFilename (format : BlobFormatIdentity) (key : KeyHash) (kind : StagingKind)
    (identifier : List Char) :
    Hidden format (stagingFilename (toHex key.toList) format.filenameSuffix kind identifier) := by
  have := dots_stagingFilename format key kind identifier
  exact hidden_of_dots (by omega)

/-- nor is a diagnostic one. -/
theorem hidden_quarantineFilename (format : BlobFormatIdentity) (key : KeyHash)
    (identifier : List Char) :
    Hidden format (quarantineFilename (toHex key.toList) format.filenameSuffix identifier) := by
  have := dots_quarantineFilename format key identifier
  exact hidden_of_dots (by omega)

/-- Since `w₀`, the canonical file of `key` has become `node`, the others are what they were, and
    `moved` was put in place. -/
structure Seen (format : BlobFormatIdentity) (w₀ : JobWorld) (key : KeyHash) (node : Option Node)
    (moved : List (FileName × Node)) (w : JobWorld) : Prop where
  /-- The canonical files of other keys are as they were. -/
  canonical : ∀ k, w.disk.entry (blobFilename format k) =
    if k = key then node else w₀.disk.entry (blobFilename format k)
  /-- What was a directory is one. -/
  directory : w.disk.isDirectory = w₀.disk.isDirectory
  /-- What was put in place is this, and nothing else. -/
  published : w.published = w₀.published ++ moved

/-- Nothing is seen to have changed. -/
abbrev Unseen (format : BlobFormatIdentity) (w₀ : JobWorld) (key : KeyHash) (w : JobWorld) : Prop :=
  Seen format w₀ key (w₀.disk.entry (blobFilename format key)) [] w

section Seeing

variable {format : BlobFormatIdentity} {w₀ w w' : JobWorld} {key : KeyHash} {node : Option Node}
  {moved : List (FileName × Node)}

theorem Seen.self (h : Seen format w₀ key node moved w) :
    w.disk.entry (blobFilename format key) = node := (h.canonical key).trans (if_pos rfl)

theorem unseen_refl : Unseen format w₀ key w₀ where
  canonical k := by
    split
    · rename_i hk
      rw [hk]
    · rfl
  directory := rfl
  published := (List.append_nil _).symm

/-- Only the directory and what was put in place count. -/
theorem Seen.of_disk (h : Seen format w₀ key node moved w) (hdisk : w'.disk = w.disk)
    (hpublished : w'.published = w.published) : Seen format w₀ key node moved w' where
  canonical k := by rw [hdisk, h.canonical k]
  directory := by rw [hdisk, h.directory]
  published := by rw [hpublished, h.published]

/-- What happens under a hidden name is not seen. -/
theorem Seen.set_hidden (h : Seen format w₀ key node moved w) {name : FileName}
    (hname : Hidden format name) {x : Option Node} (hdisk : w'.disk = w.disk.set name x)
    (hpublished : w'.published = w.published) : Seen format w₀ key node moved w' where
  canonical k := by rw [hdisk, Disk.entry_set_ne (hname k), h.canonical k]
  directory := by rw [hdisk, Disk.isDirectory_set, h.directory]
  published := by rw [hpublished, h.published]

/-- The canonical file is replaced or removed. -/
theorem Seen.set_self (h : Seen format w₀ key node moved w) {x : Option Node}
    (hdirectory : x = none ∨ w.disk.isDirectory = true) {more : List (FileName × Node)}
    (hdisk : w'.disk = w.disk.set (blobFilename format key) x)
    (hpublished : w'.published = w.published ++ more) :
    Seen format w₀ key x (moved ++ more) w' where
  canonical k := by
    rw [hdisk]
    split
    · rename_i hk
      subst hk
      rcases hdirectory with rfl | hdirectory
      · exact Disk.entry_set_none
      · exact Disk.entry_set_self hdirectory
    · rename_i hk
      rw [Disk.entry_set_ne fun hname => hk (blobFilename_inj hname), h.canonical k, if_neg hk]
  directory := by rw [hdisk, Disk.isDirectory_set, h.directory]
  published := by rw [hpublished, h.published, List.append_assoc]

/-- The canonical file is moved away. -/
theorem Seen.move_away (h : Seen format w₀ key node moved w) {name : FileName}
    (hname : Hidden format name) {more : List (FileName × Node)}
    (hdisk : w'.disk = w.disk.move (blobFilename format key) name)
    (hpublished : w'.published = w.published ++ more) :
    Seen format w₀ key none (moved ++ more) w' where
  canonical k := by
    rw [hdisk]
    split
    · rename_i hk
      subst hk
      exact Disk.entry_move_source (hname k)
    · rename_i hk
      rw [Disk.entry_move_ne (fun h => hk (blobFilename_inj h)) (hname k), h.canonical k, if_neg hk]
  directory := by rw [hdisk, Disk.isDirectory_move, h.directory]
  published := by rw [hpublished, h.published, List.append_assoc]

/-- A staging file is moved into place. -/
theorem Seen.move_in (h : Seen format w₀ key node moved w) {name : FileName}
    (hname : Hidden format name) {x : Node} (hx : w.disk.entry name = some x)
    {more : List (FileName × Node)}
    (hdisk : w'.disk = w.disk.move name (blobFilename format key))
    (hpublished : w'.published = w.published ++ more) :
    Seen format w₀ key (some x) (moved ++ more) w' where
  canonical k := by
    rw [hdisk]
    split
    · rename_i hk
      subst hk
      exact Disk.entry_move_destination hx
    · rename_i hk
      rw [Disk.entry_move_ne (hname k) fun h => hk (blobFilename_inj h), h.canonical k, if_neg hk]
  directory := by rw [hdisk, Disk.isDirectory_move, h.directory]
  published := by rw [hpublished, h.published, List.append_assoc]

/-- Writing to a writer that is hidden is not seen. -/
theorem Seen.after (h : Seen format w₀ key node moved w) {writer : Writer}
    (hname : ∀ path, writer = .staging path → Hidden format path) (content : List UInt8)
    (log : List (Option SaveStreamMessage)) :
    Seen format w₀ key node moved (writer.after w content log) := by
  cases writer with
  | atomic destination => exact h.of_disk rfl rfl
  | staging path => exact h.set_hidden (hname path rfl) rfl rfl

end Seeing

/-! ## What an error tells

  A caller that gets an error wants to know whether the blob was changed.  The store does not say so
  in so many words, but the error says which step has failed, and each step is before or after the
  change. -/

/-- What can be known of the canonical file. -/
inductive Tale
  /-- It is as it was. -/
  | old
  /-- It is as it was to be. -/
  | new
  /-- It is one of the two. -/
  | either
  deriving DecidableEq, Repr

/-- What an error tells about the canonical file of the key. -/
def AtomicBlobStoreError.tells : AtomicBlobStoreError → Tale
  | .io .openNamespaceDirectory _ => .new
  | .io .syncNamespaceDirectory _ => .new
  | .io .removeTemporaryFile _ => .new
  | .quarantineNamespaceSync .. => .new
  | .atomicCommit _ => .either
  | _ => .old

/-- What a tale says, given what holds before and after. -/
def Tale.Of (old new : JobWorld → Prop) (w : JobWorld) : Tale → Prop
  | .old => old w
  | .new => new w
  | .either => old w ∨ new w

/-- There is a reason for an error: a step fails, or the namespace is no directory. -/
def Trouble (fault : FsCall → IoError → Prop) (w : JobWorld) : Prop :=
  (∃ c e, fault c e) ∨ w.disk.isDirectory = false

/-- How an operation fails: the error tells the truth, and it has a reason. -/
def Failed (fault : FsCall → IoError → Prop) (w₀ : JobWorld) (old new : JobWorld → Prop)
    (refused : AtomicBlobStoreError → JobWorld → Prop) : Abort → JobWorld → Prop
  | .error e, w => e.tells.Of old new w ∧ (Trouble fault w₀ ∨ refused e w)
  | .panic, _ => False

/-! ## The steps that both platforms share -/

section Steps

variable {fault : FsCall → IoError → Prop} {w : JobWorld} {C : JobWorld → Prop}
  {E : Abort → JobWorld → Prop}

/-- A lookup fails with a fault, or because the namespace is no directory, unless it reports
    `NotFound`. -/
theorem trouble_of_lookup {c : FsCall} {name : FileName} {e : IoError}
    (h : LookupError fault c w.disk name e) (hkind : e.kind ≠ .notFound) : Trouble fault w := by
  unfold LookupError at h
  rw [if_neg hkind] at h
  rcases h with h | h
  · exact Or.inl ⟨c, e, h⟩
  · exact Or.inr h

/-- `NotFound` is reported of a name that is not there. -/
theorem absent_of_lookup {c : FsCall} {name : FileName} {e : IoError}
    (h : LookupError fault c w.disk name e) (hkind : e.kind = .notFound) :
    w.disk.entry name = none := by
  unfold LookupError at h
  rwa [if_pos hkind] at h

/-- A typed error. -/
theorem holds_fail {α : Type} {Q : α → JobWorld → Prop} {e : AtomicBlobStoreError} (hC : C w)
    (hE : E (.error e) w) : HoldsE (Fs fault) (fail e) Q E C w := holds_ret hC hE

/-- `ensure_namespace_available` changes nothing, and its errors tell so. -/
theorem holds_ensureNamespaceAvailable {Q : Unit → JobWorld → Prop} (hC : C w)
    (hQ : w.disk.isDirectory = true → Q () w)
    (hE : ∀ e : AtomicBlobStoreError, e.tells = .old → Trouble fault w → E (.error e) w) :
    HoldsE (Fs fault) ensureNamespaceAvailable Q E C w := by
  refine holds_call hC fun r w' henv => ?_
  obtain ⟨rfl, henv⟩ := henv
  cases r with
  | ok isDirectory =>
    cases isDirectory with
    | true => exact holds_ret hC (hQ henv)
    | false => exact holds_ret hC (hE _ rfl (Or.inr henv))
  | error source =>
    refine holds_ret hC (hE _ rfl ?_)
    have henv : if source.kind = .notFound then w'.disk.isDirectory = false
        else fault .metadata source := henv
    split at henv
    · exact Or.inr henv
    · exact Or.inl ⟨_, _, henv⟩

/-- `random_identifier` changes nothing. -/
theorem holds_randomIdentifier {Q : List Char → JobWorld → Prop} (hC : C w)
    (hQ : ∀ bytes : Vector UInt8 32, Q (toHex bytes.toList) w)
    (hE : ∀ e : AtomicBlobStoreError, e.tells = .old → Trouble fault w → E (.error e) w) :
    HoldsE (Fs fault) randomIdentifier Q E C w := by
  refine holds_call hC fun r w' henv => ?_
  obtain ⟨rfl, henv⟩ := henv
  cases r with
  | ok bytes => exact holds_ret hC (hQ bytes)
  | error code =>
    obtain ⟨kind, hfault⟩ := henv
    exact holds_ret hC (hE _ rfl (Or.inl ⟨_, _, hfault⟩))

/-- The stem of a canonical name. -/
theorem stem_blobFilename (format : BlobFormatIdentity) (key : KeyHash) :
    Unix.stem (blobFilename format key) = pure (toHex key.toList) := by
  rw [Unix.stem, fileStem_blobFilename]

/-- Removing a hidden name is not seen. -/
theorem Seen.removes {format : BlobFormatIdentity} {w₀ w' : JobWorld} {key : KeyHash}
    {node : Option Node} {moved : List (FileName × Node)} {c : FsCall} {name : FileName}
    {r : Except IoError Unit} (h : Seen format w₀ key node moved w) (hname : Hidden format name)
    (henv : Removes fault c name w r w') :
    Seen format w₀ key node moved w' ∧ w'.received = w.received := by
  cases r with
  | ok u =>
    obtain ⟨-, rfl⟩ := henv
    exact ⟨h.set_hidden hname rfl rfl, rfl⟩
  | error source =>
    obtain ⟨rfl, -⟩ := henv
    exact ⟨h, rfl⟩

end Steps

/-! ## What the operations leave

  These are the states that an operation may leave behind, in terms of what the directory was at
  first.  Each operation has a state of its own for success, and all of them share the one in which
  nothing has changed. -/

section Goals

variable (crc32c : Crc32c) (config : StoreConfig) (fault : FsCall → IoError → Prop) (w₀ : JobWorld)
  (key : KeyHash)

/-- A payload is canonical: its complete envelope was put in place, once. -/
def Saved (payload : List UInt8) : JobWorld → Prop :=
  Seen config.format w₀ key (some (.file (envelope crc32c config.format payload)))
    [(blobFilename config.format key, .file (envelope crc32c config.format payload))]

/-- A streaming save may have started again: a write was reported as `AlreadyExists`. -/
def Retried : Prop := ∃ c e, fault c e ∧ e.kind = .alreadyExists

/-- What was received is `log`, after what an abandoned attempt received. -/
def Received (log : List (Option SaveStreamMessage)) (w : JobWorld) : Prop :=
  ∃ front, w.received = w₀.received ++ front ++ log ∧ (front = [] ∨ Retried fault)

/-- The chunks received are canonical: they are as long as declared, and were completed. -/
def SavedStream (declaredLen : Nat) (w : JobWorld) : Prop :=
  ∃ chunks : List (List UInt8), chunks.flatten.length = declaredLen ∧
    declaredLen ≤ config.maximum ∧ Received fault w₀ (fed chunks ++ [some .complete]) w ∧
    Saved crc32c config w₀ key chunks.flatten w

/-- The request for a payload is refused. -/
def RefusesSave (payload : List UInt8) (e : AtomicBlobStoreError) (_ : JobWorld) : Prop :=
  encodeEnvelope crc32c config.format payload config.maximum = .error e

/-- A stream is refused for what was received. -/
def RefusesStream (declaredLen : Nat) (e : AtomicBlobStoreError) (w : JobWorld) : Prop :=
  ∃ log, Stops fault config declaredLen e log ∧ Received fault w₀ log w

/-- The canonical file is gone. -/
def Cleared (w : JobWorld) : Prop := ∃ moved, Seen config.format w₀ key none moved w

/-- The canonical file was moved to a diagnostic path, where nothing was. -/
def Quarantined (quarantine : QuarantineInfo) (w : JobWorld) : Prop :=
  quarantine.diagnosticPath =
      quarantineFilename (toHex key.toList) config.format.filenameSuffix quarantine.identifier ∧
  w₀.disk.entry quarantine.diagnosticPath = none ∧
  ∃ node, w₀.disk.entry (blobFilename config.format key) = some node ∧
    w.disk.entry quarantine.diagnosticPath = some node ∧
    Seen config.format w₀ key none [(quarantine.diagnosticPath, node)] w

/-- How a quarantine fails: only a failed sync comes after the move, and it says where to. -/
def FailedQuarantine : Abort → JobWorld → Prop
  | .error (.quarantineNamespaceSync quarantine _), w =>
    Quarantined config w₀ key quarantine w ∧ Trouble fault w₀
  | .error e, w => e.tells = .old ∧ Unseen config.format w₀ key w ∧
    (Trouble fault w₀ ∨
      e = .quarantineSourceMissing ∧ w₀.disk.entry (blobFilename config.format key) = none)
  | .panic, _ => False

end Goals

/-- A payload above the maximum is refused with one error, whichever way it would be encoded. -/
theorem envelopeParts_error (crc32c : Crc32c) {config : StoreConfig} {payload : List UInt8}
    (h : ¬payload.length ≤ config.maximum) : ∃ e : AtomicBlobStoreError, e.tells = .old ∧
      envelopeParts crc32c config.format payload config.maximum = .error e ∧
      encodeEnvelope crc32c config.format payload config.maximum = .error e := by
  by_cases hfits : payload.length < u64Limit
  · have hparts : envelopeParts crc32c config.format payload config.maximum =
        .error (.blobTooLarge payload.length config.maximum) := by
      unfold envelopeParts payloadSize
      rw [if_pos hfits]
      show (envelopeHeader config.format payload.length config.maximum >>= _) = _
      rw [envelopeHeader, if_pos (Nat.lt_of_not_le h)]
      rfl
    refine ⟨_, rfl, hparts, ?_⟩
    rw [encodeEnvelope, hparts]
    rfl
  · have hparts : envelopeParts crc32c config.format payload config.maximum =
        .error (.invalidPayloadLength (u64Limit - 1)) := by
      unfold envelopeParts payloadSize
      rw [if_neg hfits]
      rfl
    refine ⟨_, rfl, hparts, ?_⟩
    rw [encodeEnvelope, hparts]
    rfl

/-- An error of a call that looks up no name is a fault. -/
theorem plain_trouble {fault : FsCall → IoError → Prop} {w : JobWorld} {c : FsCall} {e : IoError}
    (h : PlainError fault c e) : Trouble fault w := Or.inl ⟨c, e, h.2⟩

section Shared

variable {config : StoreConfig} {fault : FsCall → IoError → Prop} {w₀ w : JobWorld} {key : KeyHash}

/-- A failure before the canonical file is touched. -/
theorem failed_old {old new : JobWorld → Prop} {refused : AtomicBlobStoreError → JobWorld → Prop}
    {e : AtomicBlobStoreError} (htells : e.tells = .old) (hold : old w)
    (hwhy : Trouble fault w₀ ∨ refused e w) : Failed fault w₀ old new refused (.error e) w := by
  refine ⟨?_, hwhy⟩
  rw [htells]
  exact hold

/-- The stops of the encoder tell that the canonical file is as it was. -/
theorem stops_tells {declaredLen : Nat} {e : AtomicBlobStoreError}
    {log : List (Option SaveStreamMessage)} (h : Stops fault config declaredLen e log) :
    e.tells = .old := by
  cases h <;> rfl

/-- A failure that tells of the new state. -/
theorem failed_new {old new : JobWorld → Prop} {refused : AtomicBlobStoreError → JobWorld → Prop}
    {e : AtomicBlobStoreError} (htells : e.tells = .new) (hnew : new w)
    (hwhy : Trouble fault w₀) : Failed fault w₀ old new refused (.error e) w := by
  refine ⟨?_, Or.inl hwhy⟩
  rw [htells]
  exact hnew

/-- Trouble that is met on the way was there from the start. -/
theorem Seen.trouble {format : BlobFormatIdentity} {node : Option Node}
    {moved : List (FileName × Node)} (h : Seen format w₀ key node moved w)
    (htrouble : Trouble fault w) : Trouble fault w₀ :=
  htrouble.imp id fun hdirectory => by rw [← h.directory, hdirectory]

/-- A canonical file that is not there is not seen to go. -/
theorem cleared_of_absent (h : w₀.disk.entry (blobFilename config.format key) = none) :
    Cleared config w₀ key w₀ := by
  refine ⟨[], ?_⟩
  rw [← h]
  exact unseen_refl

/-- A failure before the move. -/
theorem failedQuarantine_old {e : AtomicBlobStoreError} (htells : e.tells = .old)
    (hwhy : Trouble fault w₀ ∨
      e = .quarantineSourceMissing ∧ w₀.disk.entry (blobFilename config.format key) = none) :
    FailedQuarantine config fault w₀ key (.error e) w₀ := by
  cases e with
  | quarantineNamespaceSync => nomatch htells
  | _ => exact ⟨htells, unseen_refl, hwhy⟩

/-- What a move to a diagnostic path leaves. -/
theorem quarantined_move {identifier : List Char} {node : Node}
    (hsource : w₀.disk.entry (blobFilename config.format key) = some node)
    (hdestination : w₀.disk.entry
      (quarantineFilename (toHex key.toList) config.format.filenameSuffix identifier) = none) :
    Quarantined config w₀ key
      ⟨identifier, quarantineFilename (toHex key.toList) config.format.filenameSuffix identifier⟩
      { w₀ with
        disk := w₀.disk.move (blobFilename config.format key)
          (quarantineFilename (toHex key.toList) config.format.filenameSuffix identifier)
        published := w₀.published ++
          [(quarantineFilename (toHex key.toList) config.format.filenameSuffix identifier, node)] } :=
  ⟨rfl, hdestination, node, hsource, Disk.entry_move_destination hsource,
    unseen_refl.move_away (hidden_quarantineFilename _ _ _) rfl rfl⟩

theorem Quarantined.trouble {quarantine : QuarantineInfo}
    (h : Quarantined config w₀ key quarantine w) (htrouble : Trouble fault w) :
    Trouble fault w₀ := by
  obtain ⟨-, -, node, -, -, hseen⟩ := h
  exact Seen.trouble hseen htrouble

theorem Quarantined.seen {quarantine : QuarantineInfo} (h : Quarantined config w₀ key quarantine w) :
    Unseen config.format w₀ key w ∨ ∃ quarantine, Quarantined config w₀ key quarantine w :=
  Or.inr ⟨quarantine, h⟩

end Shared

/-! ## Unix

  The canonical file is changed by one call of the system in each operation: the commit of the writer,
  the removal, and the move.  The sync that follows can fail, and then the change stands. -/

namespace Unix

variable {crc32c : Crc32c} {config : StoreConfig} {fault : FsCall → IoError → Prop}
  {w₀ w : JobWorld} {key : KeyHash} {C : JobWorld → Prop} {E : Abort → JobWorld → Prop}

/-- The world after a commit. -/
def committed (w : JobWorld) (path : FileName) (content : List UInt8)
    (log : List (Option SaveStreamMessage)) : JobWorld where
  disk := w.disk.set path (some (.file content))
  writer := none
  received := w.received ++ log
  sent := w.sent
  left := w.left
  published := w.published ++ [(path, .file content)]

/-- The commit happens or not; its error leaves both possible. -/
theorem holds_commit {path : FileName} {content : List UInt8}
    {log : List (Option SaveStreamMessage)} {old new : JobWorld → Prop}
    {refused : AtomicBlobStoreError → JobWorld → Prop}
    (hold : ∀ w', w'.disk = w.disk → w'.published = w.published → old w')
    (hnew : w.disk.isDirectory = true → new (committed w path content log)) :
    HoldsE (Fs fault) commit (fun _ => new) (Failed fault w old new refused)
      (fun w => old w ∨ new w) ((Writer.atomic path).after w content log) := by
  refine holds_call (Or.inl (hold _ rfl rfl)) fun r w' henv => ?_
  obtain ⟨name, held, hwriter, henv⟩ := henv
  obtain ⟨rfl, rfl⟩ := Prod.mk.inj (Option.some.inj hwriter)
  cases r with
  | ok u =>
    obtain ⟨hdirectory, rfl⟩ := henv
    exact holds_ret (Or.inr (hnew hdirectory)) (hnew hdirectory)
  | error source =>
    obtain ⟨hreason, henv⟩ := henv
    have htrouble : Trouble fault w := hreason.imp (fun h => ⟨_, _, h⟩) id
    have hboth : old w' ∨ new w' := by
      rcases henv with rfl | ⟨hdirectory, rfl⟩
      · exact Or.inl (hold _ rfl rfl)
      · exact Or.inr (hnew hdirectory)
    exact holds_ret hboth ⟨hboth, Or.inl htrouble⟩

/-- The writer is opened, or there is trouble. -/
theorem holds_openAtomic {α : Type} {Q : α → JobWorld → Prop} {path : FileName} {k : Unit → FsM α}
    (hC : C w) (hk : HoldsE (Fs fault) (k ()) Q E C ((Writer.atomic path).after w [] []))
    (hE : ∀ e : AtomicBlobStoreError, e.tells = .old → Trouble fault w → E (.error e) w) :
    HoldsE (Fs fault) (ask (.openAtomic path) >>= fun r => FsM.io .openAtomicWriter r >>= k)
      Q E C w := by
  refine holds_call hC fun r w' henv => ?_
  cases r with
  | ok u =>
    obtain ⟨-, rfl⟩ := henv
    have hw : { w with writer := some (path, []) } = (Writer.atomic path).after w [] [] := by
      rw [Writer.after, List.append_nil]
    rw [hw]
    exact hk
  | error source =>
    obtain ⟨rfl, henv⟩ := henv
    refine holds_ret hC (hE _ rfl ?_)
    exact henv.imp (fun h => ⟨_, _, h⟩) id

/-- **`save_blob`** on Unix. -/
theorem holds_saveBlob (payload : List UInt8) :
    HoldsE (Fs fault) (saveBlob crc32c config (blobFilename config.format key) payload)
      (fun _ => Saved crc32c config w₀ key payload)
      (Failed fault w₀ (Unseen config.format w₀ key) (Saved crc32c config w₀ key payload)
        (RefusesSave crc32c config payload))
      (fun w => Unseen config.format w₀ key w ∨ Saved crc32c config w₀ key payload w) w₀ := by
  have hold : ∀ w', w'.disk = w₀.disk → w'.published = w₀.published →
      Unseen config.format w₀ key w' := fun w' => unseen_refl.of_disk
  unfold saveBlob
  by_cases hmax : payload.length ≤ config.maximum
  · rw [envelopeParts_eq crc32c config hmax]
    refine holdsE_bind (holdsE_pure (Or.inl unseen_refl) ?_)
    refine holds_openAtomic (Or.inl unseen_refl) ?_
      fun e htells htrouble => failed_old htells unseen_refl (Or.inl htrouble)
    have hwrite : ∀ (content bytes : List UInt8) (Q : Unit → JobWorld → Prop),
        Q () ((Writer.atomic (blobFilename config.format key)).after w₀ (content ++ bytes) []) →
        HoldsE (Fs fault) (writeAtomic bytes) Q
          (Failed fault w₀ (Unseen config.format w₀ key) (Saved crc32c config w₀ key payload)
            (RefusesSave crc32c config payload))
          (fun w => Unseen config.format w₀ key w ∨ Saved crc32c config w₀ key payload w)
          ((Writer.atomic (blobFilename config.format key)).after w₀ content []) := by
      intro content bytes Q hQ
      have hready : (Writer.atomic (blobFilename config.format key)).Ready w₀ := trivial
      refine Writer.holds_write bytes hready (fun x => ?_) hQ ?_
      · exact Or.inl (hold _ rfl rfl)
      · intro source x hplain
        exact failed_old rfl (hold _ rfl rfl) (Or.inl (plain_trouble hplain))
    refine holdsE_bind (hwrite _ _ _ (holdsE_bind (hwrite _ _ _ (holdsE_bind (hwrite _ _ _ ?_)))))
    refine holds_commit hold fun hdirectory => ?_
    rw [List.nil_append, ← envelope_running]
    exact unseen_refl.set_self (Or.inr hdirectory) rfl rfl
  · obtain ⟨e, htells, hparts, hencode⟩ := envelopeParts_error crc32c hmax
    rw [hparts]
    exact holds_ret (Or.inl unseen_refl) (failed_old htells unseen_refl (Or.inr hencode))

/-- **`save_blob_from_receiver`** on Unix. -/
theorem holds_saveBlobFromReceiver (declaredLen : Nat) :
    HoldsE (Fs fault)
      (saveBlobFromReceiver crc32c config (blobFilename config.format key) declaredLen)
      (fun _ => SavedStream crc32c config fault w₀ key declaredLen)
      (Failed fault w₀ (Unseen config.format w₀ key)
        (SavedStream crc32c config fault w₀ key declaredLen)
        (RefusesStream config fault w₀ declaredLen))
      (fun w => Unseen config.format w₀ key w ∨
        SavedStream crc32c config fault w₀ key declaredLen w) w₀ := by
  have hold : ∀ w', w'.disk = w₀.disk → w'.published = w₀.published →
      Unseen config.format w₀ key w' := fun w' => unseen_refl.of_disk
  have hlog : ∀ (log : List (Option SaveStreamMessage)) (w : JobWorld),
      w.received = w₀.received ++ log → Received fault w₀ log w := by
    intro log w h
    exact ⟨[], by rw [h, List.append_nil], Or.inl rfl⟩
  unfold saveBlobFromReceiver
  by_cases hmax : declaredLen ≤ config.maximum
  · rw [envelopeHeader_eq config hmax]
    refine holdsE_bind (holdsE_pure (Or.inl unseen_refl) ?_)
    refine holds_openAtomic (Or.inl unseen_refl) ?_
      fun e htells htrouble => failed_old htells unseen_refl (Or.inl htrouble)
    have hready : (Writer.atomic (blobFilename config.format key)).Ready w₀ := trivial
    refine holdsE_bind ((holds_writeStreamEnvelope hready fun content log => ?_).mono ?_ ?_
      fun _ h => h)
    · exact Or.inl (hold _ rfl rfl)
    · rintro u w' - ⟨-, chunks, hlen, rfl⟩
      refine holds_commit hold fun hdirectory => ⟨chunks, hlen, hmax, hlog _ _ rfl, ?_⟩
      exact unseen_refl.set_self (Or.inr hdirectory) rfl rfl
    · rintro (e | -) w' - hstop
      · obtain ⟨content, log, rfl, hstops⟩ := hstop
        exact failed_old (stops_tells hstops) (hold _ rfl rfl)
          (Or.inr ⟨log, hstops, hlog _ _ rfl⟩)
      · exact hstop
  · rw [envelopeHeader, if_pos (Nat.lt_of_not_le hmax)]
    refine holds_ret (Or.inl unseen_refl) (failed_old rfl unseen_refl (Or.inr ?_))
    exact ⟨[], .tooLarge (Nat.lt_of_not_le hmax), hlog _ _ (List.append_nil _).symm⟩

/-- `sync_directory` changes nothing. -/
theorem holds_syncDirectory {Q : Unit → JobWorld → Prop} {openOperation syncOperation : StoreOperation}
    (hC : C w) (hQ : Q () w)
    (hE : ∀ e source, e = .io openOperation source ∨ e = .io syncOperation source →
      Trouble fault w → E (.error e) w) :
    HoldsE (Fs fault) (syncDirectory openOperation syncOperation) Q E C w := by
  refine holds_call hC fun r w' henv => ?_
  obtain ⟨rfl, henv⟩ := henv
  cases r with
  | error e => exact holds_ret hC (hE _ e (Or.inl rfl) (henv.imp (fun h => ⟨_, _, h⟩) id))
  | ok u =>
    refine holds_call hC fun r w'' henv => ?_
    obtain ⟨rfl, henv⟩ := henv
    cases r with
    | error e => exact holds_ret hC (hE _ e (Or.inr rfl) (Or.inl ⟨_, _, henv⟩))
    | ok u => exact holds_ret hC hQ

/-- `sync_quarantine_namespace` changes nothing. -/
theorem holds_syncQuarantineNamespace {Q : Unit → JobWorld → Prop} {quarantine : QuarantineInfo}
    (hC : C w) (hQ : Q () w)
    (hE : ∀ source, Trouble fault w → E (.error (.quarantineNamespaceSync quarantine source)) w) :
    HoldsE (Fs fault) (syncQuarantineNamespace quarantine) Q E C w := by
  refine holds_call hC fun r w' henv => ?_
  obtain ⟨rfl, henv⟩ := henv
  cases r with
  | error e => exact holds_ret hC (hE e (henv.imp (fun h => ⟨_, _, h⟩) id))
  | ok u =>
    refine holds_call hC fun r w'' henv => ?_
    obtain ⟨rfl, henv⟩ := henv
    cases r with
    | error e => exact holds_ret hC (hE e (Or.inl ⟨_, _, henv⟩))
    | ok u => exact holds_ret hC hQ

/-- **`clear_blob`** on Unix. -/
theorem holds_clearBlob :
    HoldsE (Fs fault) (clearBlob (blobFilename config.format key))
      (fun _ => Cleared config w₀ key)
      (Failed fault w₀ (Unseen config.format w₀ key) (Cleared config w₀ key) fun _ _ => False)
      (fun w => Unseen config.format w₀ key w ∨ Cleared config w₀ key w) w₀ := by
  unfold clearBlob
  refine holds_call (Or.inl unseen_refl) fun r w' henv => ?_
  cases r with
  | ok u =>
    obtain ⟨-, rfl⟩ := henv
    have hseen : Seen config.format w₀ key none [] { w₀ with
        disk := w₀.disk.set (blobFilename config.format key) none } :=
      unseen_refl.set_self (Or.inl rfl) rfl (List.append_nil _).symm
    have hcleared : Cleared config w₀ key _ := ⟨[], hseen⟩
    refine holds_syncDirectory (Or.inr hcleared) hcleared fun e source he htrouble => ?_
    refine failed_new ?_ hcleared (Seen.trouble hseen htrouble)
    rcases he with rfl | rfl <;> rfl
  | error source =>
    obtain ⟨rfl, hlookup⟩ := henv
    show HoldsE _ (if source.kind = .notFound then _ else _) _ _ _ _
    split
    · rename_i hkind
      have hcleared := cleared_of_absent (absent_of_lookup hlookup hkind)
      exact holds_ensureNamespaceAvailable (Or.inl unseen_refl) (fun _ => hcleared)
        fun e htells htrouble => failed_old htells unseen_refl (Or.inl htrouble)
    · rename_i hkind
      exact holds_fail (Or.inl unseen_refl)
        (failed_old rfl unseen_refl (Or.inl (trouble_of_lookup hlookup hkind)))

/-- **`quarantine_blob`** on Unix. -/
theorem holds_quarantineBlob :
    HoldsE (Fs fault) (quarantineBlob config (blobFilename config.format key))
      (Quarantined config w₀ key) (FailedQuarantine config fault w₀ key)
      (fun w => Unseen config.format w₀ key w ∨ ∃ quarantine, Quarantined config w₀ key quarantine w)
      w₀ := by
  unfold quarantineBlob
  rw [stem_blobFilename]
  refine holdsE_bind (holdsE_pure (Or.inl unseen_refl) ?_)
  -- an identifier in use changes nothing, so every turn starts in the world of the first
  refine holdsE_iterate (fun _ w => w = w₀) rfl (fun _ _ h => Or.inl (h ▸ unseen_refl)) ?_
  rintro - w rfl
  refine holdsE_bind (holds_randomIdentifier (Or.inl unseen_refl) (fun bytes => ?_)
    fun e htells htrouble => failedQuarantine_old htells (Or.inl htrouble))
  refine holds_call (Or.inl unseen_refl) fun r w' henv => ?_
  cases r with
  | ok u =>
    obtain ⟨node, hsource, hdestination, rfl⟩ := henv
    have hquarantined := quarantined_move hsource hdestination
    refine holdsE_bind (holds_syncQuarantineNamespace hquarantined.seen
      (holds_ret hquarantined.seen hquarantined) ?_)
    exact fun source htrouble => ⟨hquarantined, Quarantined.trouble hquarantined htrouble⟩
  | error e =>
    obtain ⟨rfl, hreason⟩ := henv
    show HoldsE _ (if e.kind = .notFound then _ else if e.kind = .alreadyExists then _ else _) _ _ _ _
    split
    · rename_i hkind
      have habsent := hreason.elim (absent_of_lookup · hkind) fun h => nomatch h.1.symm.trans hkind
      refine holdsE_bind (holds_ensureNamespaceAvailable (Or.inl unseen_refl) (fun _ => ?_)
        fun e htells htrouble => failedQuarantine_old htells (Or.inl htrouble))
      exact holds_fail (Or.inl unseen_refl) (failedQuarantine_old rfl (Or.inr ⟨rfl, habsent⟩))
    · rename_i hkind
      split
      · exact holds_ret (Or.inl unseen_refl) rfl
      · rename_i hexists
        have htrouble := hreason.elim (trouble_of_lookup · hkind) fun h => absurd h.1 hexists
        exact holds_fail (Or.inl unseen_refl) (failedQuarantine_old rfl (Or.inl htrouble))

end Unix

/-! ## Windows

  A save and a clear work on a staging file first, and what they do to it is not seen.  The canonical
  file changes with the move of a staging file into its place, or with its own move away. -/

namespace Windows

variable {crc32c : Crc32c} {config : StoreConfig} {fault : FsCall → IoError → Prop}
  {w₀ w : JobWorld} {key : KeyHash} {C : JobWorld → Prop} {E : Abort → JobWorld → Prop}

/-- `sync_windows_directory` changes nothing. -/
theorem holds_syncWindowsDirectory {Q : Unit → JobWorld → Prop} {E : IoError → JobWorld → Prop}
    (hC : C w) (hQ : Q () w) (hE : ∀ e, Trouble fault w → E e w) :
    HoldsE (Fs fault) syncWindowsDirectory Q E C w := by
  refine holds_call hC fun r w' henv => ?_
  obtain ⟨rfl, henv⟩ := henv
  cases r with
  | error e => exact holds_ret hC (hE e (henv.imp (fun h => ⟨_, _, h⟩) id))
  | ok u =>
    refine holds_call hC fun r w'' henv => ?_
    obtain ⟨rfl, henv⟩ := henv
    cases r with
    | error e => exact holds_ret hC (hE e (Or.inl ⟨_, _, henv⟩))
    | ok u => exact holds_ret hC hQ

/-- The sync at the end of a save or a clear: its error tells of the new state. -/
theorem holds_finalSync {α : Type} {Q : α → JobWorld → Prop} {k : Unit → FsM α} (hC : C w)
    (hk : HoldsE (Fs fault) (k ()) Q E C w)
    (hE : ∀ e, Trouble fault w → E (.error (.io .syncNamespaceDirectory e)) w) :
    HoldsE (Fs fault) (ProgE.attempt syncWindowsDirectory >>= fun r =>
      FsM.io .syncNamespaceDirectory r >>= k) Q E C w := by
  refine holdsE_bind (holdsE_attempt (holds_syncWindowsDirectory hC ?_ fun e htrouble => ?_))
  · exact hk
  · exact holds_ret hC (hE e htrouble)

/-- The world in which a staging file has become the canonical file. -/
def placed (w : JobWorld) (staging path : FileName) (node : Node) : JobWorld :=
  { w with
    disk := w.disk.move staging path
    published := w.published ++ [(path, node)] }

section Publish

variable {staging path : FileName} {node : Node} {old new : JobWorld → Prop}
  {refused : AtomicBlobStoreError → JobWorld → Prop}

/-- What follows the move of a staging file into place, when it reports an error. -/
theorem moved_or_not {replace : Bool} {e : IoError} {w' : JobWorld}
    (hnode : w.disk.entry staging = some node)
    (henv : Fs fault (.moveSaveFile staging path replace) w (.error e) w') :
    (w' = w ∨ w' = placed w staging path node) ∧
      (replace = false ∧ e.isFileExists = true ∨ Trouble fault w) := by
  rcases henv with ⟨rfl, hreplace, hexists, -⟩ | ⟨hfault, rfl | ⟨moved, hmoved, rfl⟩⟩
  · exact ⟨Or.inl rfl, Or.inl ⟨hreplace, hexists⟩⟩
  · exact ⟨Or.inl rfl, Or.inr (Or.inl ⟨_, _, hfault⟩)⟩
  · obtain rfl : node = moved := Option.some.inj (hnode.symm.trans hmoved)
    exact ⟨Or.inr rfl, Or.inr (Or.inl ⟨_, _, hfault⟩)⟩

/-- `commit_windows_staging` happens or not; its error leaves both possible. -/
theorem holds_commitWindowsStaging (hpath : staging ≠ path)
    (hnode : w.disk.entry staging = some node) (hold : old w)
    (hnew : new (placed w staging path node)) (hwhy : Trouble fault w → Trouble fault w₀) :
    HoldsE (Fs fault) (commitWindowsStaging staging path)
      (fun _ w' => w' = placed w staging path node)
      (Failed fault w₀ old new refused) (fun w => old w ∨ new w) w := by
  refine holds_call (Or.inl hold) fun r w' henv => ?_
  cases r with
  | ok u =>
    obtain ⟨moved, hmoved, -, rfl⟩ := henv
    obtain rfl : node = moved := Option.some.inj (hnode.symm.trans hmoved)
    exact holds_ret (Or.inr hnew) rfl
  | error source =>
    obtain ⟨hw', hreason⟩ := moved_or_not hnode henv
    have hboth : old w' ∨ new w' := by
      rcases hw' with rfl | rfl
      · exact Or.inl hold
      · exact Or.inr hnew
    show HoldsE _ (if source.isFileExists then _ else _) _ _ _ _
    split
    · refine holds_call hboth fun r w'' henv' => ?_
      -- if the first move happened after all, the second one finds no source
      rcases hw' with rfl | rfl
      · cases r with
        | ok u =>
          obtain ⟨moved, hmoved, -, rfl⟩ := henv'
          obtain rfl : node = moved := Option.some.inj (hnode.symm.trans hmoved)
          exact holds_ret (Or.inr hnew) rfl
        | error source' =>
          obtain ⟨hw'', hreason'⟩ := moved_or_not hnode henv'
          have hboth' : old w'' ∨ new w'' := by
            rcases hw'' with rfl | rfl
            · exact Or.inl hold
            · exact Or.inr hnew
          have htrouble := hreason'.resolve_left fun h => nomatch h.1
          exact holds_ret hboth' ⟨hboth', Or.inl (hwhy htrouble)⟩
      · have habsent : (placed w staging path node).disk.entry staging = none :=
          Disk.entry_move_source hpath
        cases r with
        | ok u =>
          obtain ⟨moved, hmoved, -⟩ := henv'
          nomatch habsent.symm.trans hmoved
        | error source' =>
          rcases henv' with ⟨-, hreplace, -⟩ | ⟨hfault, rfl | ⟨moved, hmoved, -⟩⟩
          · nomatch hreplace
          · exact holds_ret hboth ⟨hboth, Or.inl (hwhy (Or.inl ⟨_, _, hfault⟩))⟩
          · nomatch habsent.symm.trans hmoved
    · rename_i hnot
      have htrouble := hreason.resolve_left fun h => hnot h.2
      exact holds_ret hboth ⟨hboth, Or.inl (hwhy htrouble)⟩

/-- `publish`: from a complete staging file to a canonical file. -/
theorem holds_publish (hpath : staging ≠ path) (hnode : w.disk.entry staging = some node)
    (hold : old w) (hnew : new (placed w staging path node))
    (hwhy : Trouble fault w → Trouble fault w₀) :
    HoldsE (Fs fault) (publish staging path) (fun _ => new)
      (Failed fault w₀ old new refused) (fun w => old w ∨ new w) w := by
  refine holdsE_bind ((holds_commitWindowsStaging hpath hnode hold hnew hwhy).mono ?_
    (fun _ _ _ h => h) fun _ h => h)
  rintro - w' - rfl
  refine holdsE_bind (holdsE_attempt (holds_syncWindowsDirectory (Or.inr hnew) ?_ ?_))
  · exact holds_ret (Or.inr hnew) hnew
  · intro e htrouble
    refine holds_ret (Or.inr hnew) (failed_new rfl hnew (hwhy (htrouble.imp id fun h => ?_)))
    rwa [placed, Disk.isDirectory_move] at h

end Publish

/-- A staging file is created, or its name is taken, or there is trouble. -/
theorem holds_createNew {α : Type} {Q : α → JobWorld → Prop} {path : FileName} {k : Unit → FsM α}
    (hC : C w) (hk : w.disk.isDirectory = true →
      HoldsE (Fs fault) (k ()) Q E C ((Writer.staging path).after w [] []))
    (hE : ∀ source : IoError, source.kind = .alreadyExists ∨ Trouble fault w →
      E (.error (.io .openAtomicWriter source)) w) :
    HoldsE (Fs fault) (ask (.createNew path) >>= fun r => FsM.io .openAtomicWriter r >>= k)
      Q E C w := by
  refine holds_call hC fun r w' henv => ?_
  cases r with
  | ok u =>
    obtain ⟨hdirectory, -, rfl⟩ := henv
    have hw : { w with disk := w.disk.set path (some (.file [])) } =
        (Writer.staging path).after w [] [] := by
      rw [Writer.after, List.append_nil]
    rw [hw]
    exact hk hdirectory
  | error source =>
    obtain ⟨rfl, henv⟩ := henv
    refine holds_ret hC (hE source ?_)
    exact henv.imp And.left fun h => h.imp (fun h => ⟨_, _, h⟩) id

/-- Flushing a file changes nothing. -/
theorem holds_flushFile {Q : Unit → JobWorld → Prop} {path : FileName} (hC : C w) (hQ : Q () w)
    (hE : ∀ source, PlainError fault (.flushFile path) source →
      E (.error (.io .writeEnvelope source)) w) :
    HoldsE (Fs fault) (do FsM.io .writeEnvelope (← ask (.flushFile path))) Q E C w := by
  refine holds_call hC fun r w' henv => ?_
  obtain ⟨rfl, henv⟩ := henv
  cases r with
  | ok u => exact holds_ret hC hQ
  | error source => exact holds_ret hC (hE source henv)

/-- How the work on a staging file fails: nothing is seen of it, and another name is tried only
    after an error of kind `AlreadyExists`. -/
def Spoiled (fault : FsCall → IoError → Prop) (w₀ : JobWorld) (old : JobWorld → Prop) :
    Abort → JobWorld → Prop
  | .error e, w => e.tells = .old ∧ old w ∧
    (isAlreadyExists (.error e) = true ∨ Trouble fault w₀)
  | .panic, _ => False

/-- `create_windows_staging`: a complete staging file. -/
theorem holds_createWindowsStaging {path : FileName} {header payload checksum : List UInt8}
    (hpath : Hidden config.format path) (hseen : Unseen config.format w₀ key w) :
    HoldsE (Fs fault) (createWindowsStaging path header payload checksum)
      (fun _ w' => Unseen config.format w₀ key w' ∧
        w'.disk.entry path = some (.file (header ++ payload ++ checksum)))
      (Spoiled fault w₀ (Unseen config.format w₀ key)) (Unseen config.format w₀ key) w := by
  have hafter : ∀ content log,
      Unseen config.format w₀ key ((Writer.staging path).after w content log) := by
    intro content log
    refine hseen.after (fun name hname => ?_) content log
    rwa [← Writer.staging.inj hname]
  unfold createWindowsStaging
  refine holds_createNew hseen (fun hdirectory => ?_) fun source hreason => ?_
  · have hready : (Writer.staging path).Ready w := hdirectory
    have hwrite : ∀ (content bytes : List UInt8) (Q : Unit → JobWorld → Prop),
        Q () ((Writer.staging path).after w (content ++ bytes) []) →
        HoldsE (Fs fault) (writeStaging path bytes) Q
          (Spoiled fault w₀ (Unseen config.format w₀ key)) (Unseen config.format w₀ key)
          ((Writer.staging path).after w content []) := by
      intro content bytes Q hQ
      refine Writer.holds_write bytes hready (fun x => hafter x []) hQ fun source x hplain => ?_
      exact ⟨rfl, hafter x [], Or.inr (plain_trouble hplain)⟩
    refine holdsE_bind (hwrite _ _ _ (holdsE_bind (hwrite _ _ _ (holdsE_bind (hwrite _ _ _ ?_)))))
    refine holds_flushFile (hafter _ _) ⟨hafter _ _, Disk.entry_set_self hdirectory⟩ ?_
    exact fun source hplain => ⟨rfl, hafter _ _, Or.inr (plain_trouble hplain)⟩
  · refine ⟨rfl, hseen, hreason.imp (fun hkind => ?_) (Seen.trouble hseen)⟩
    show (source.kind == .alreadyExists) = true
    rw [hkind]
    rfl

/-- A staging file is not the canonical file. -/
theorem staging_ne {identifier : List Char} {kind : StagingKind} :
    stagingFilename (toHex key.toList) config.format.filenameSuffix kind identifier ≠
      blobFilename config.format key :=
  fun h => hidden_stagingFilename config.format key kind identifier key h.symm

/-- **`save_blob`** on Windows. -/
theorem holds_saveBlob (payload : List UInt8) :
    HoldsE (Fs fault) (saveBlob crc32c config (blobFilename config.format key) payload)
      (fun _ => Saved crc32c config w₀ key payload)
      (Failed fault w₀ (Unseen config.format w₀ key) (Saved crc32c config w₀ key payload)
        (RefusesSave crc32c config payload))
      (fun w => Unseen config.format w₀ key w ∨ Saved crc32c config w₀ key payload w) w₀ := by
  unfold saveBlob
  by_cases hmax : payload.length ≤ config.maximum
  · rw [envelopeParts_eq crc32c config hmax, stem_blobFilename]
    refine holdsE_bind (holdsE_pure (Or.inl unseen_refl) ?_)
    refine holdsE_bind (holdsE_pure (Or.inl unseen_refl) ?_)
    -- an abandoned attempt leaves at most a staging file
    refine holdsE_iterate (fun _ w => Unseen config.format w₀ key w) unseen_refl
      (fun _ _ h => Or.inl h) ?_
    rintro - w hseen
    refine holdsE_bind (holds_randomIdentifier (Or.inl hseen) (fun bytes => ?_)
      fun e htells htrouble => failed_old htells hseen (Or.inl (Seen.trouble hseen htrouble)))
    refine holdsE_bind (holdsE_attempt ((holds_createWindowsStaging
      (hidden_stagingFilename config.format key .save _) hseen).mono ?_ ?_ fun _ h => Or.inl h))
    · rintro - w' - ⟨hseen', hentry⟩
      refine holdsE_bind ((holds_publish staging_ne hentry hseen' ?_ (Seen.trouble hseen')).mono
        (fun _ _ hC h => holds_ret hC h) (fun _ _ _ h => h) fun _ h => h)
      rw [← envelope_running]
      exact hseen'.move_in (hidden_stagingFilename _ _ _ _) (by rw [hentry, envelope_running]) rfl rfl
    · rintro (e | -) w' - hspoiled
      · obtain ⟨htells, hseen', hreason⟩ := hspoiled
        show HoldsE _ (if isAlreadyExists (.error e) then _ else _) _ _ _ _
        split
        · exact holds_ret (Or.inl hseen') hseen'
        · rename_i hnot
          exact holdsE_throw (Or.inl hseen')
            (failed_old htells hseen' (Or.inl (hreason.resolve_left hnot)))
      · exact absurd hspoiled not_false
  · obtain ⟨e, htells, hparts, hencode⟩ := envelopeParts_error crc32c hmax
    rw [hparts]
    exact holds_ret (Or.inl unseen_refl) (failed_old htells unseen_refl (Or.inr hencode))

/-- How an attempt at a streaming save fails: as for `save_blob`, but the messages of the attempt
    are gone.  It starts again only from what it received if nothing was, or after a fault. -/
def SpoiledStream (config : StoreConfig) (fault : FsCall → IoError → Prop) (w₀ : JobWorld)
    (key : KeyHash) (declaredLen : Nat) : Abort → JobWorld → Prop
  | .error e, w => e.tells = .old ∧ Unseen config.format w₀ key w ∧
    if isAlreadyExists (.error e) = true then Received fault w₀ [] w
    else Trouble fault w₀ ∨ RefusesStream config fault w₀ declaredLen e w
  | .panic, _ => False

/-- The errors after which another name is tried. -/
theorem isAlreadyExists_iff {operation : StoreOperation} {source : IoError} :
    isAlreadyExists (.error (.io operation source)) = true ↔ source.kind = .alreadyExists :=
  beq_iff_eq

/-- A failed write or flush of an attempt. -/
theorem spoiledStream_write {declaredLen : Nat} {c : FsCall} {source : IoError}
    (hplain : PlainError fault c source) (hseen : Unseen config.format w₀ key w)
    {log : List (Option SaveStreamMessage)} (hlog : Received fault w₀ log w) :
    SpoiledStream config fault w₀ key declaredLen (.error (.io .writeEnvelope source)) w := by
  refine ⟨rfl, hseen, ?_⟩
  split
  · rename_i hexists
    obtain ⟨front, hreceived, -⟩ := hlog
    refine ⟨front ++ log, ?_, Or.inr ⟨c, source, hplain.2, isAlreadyExists_iff.mp hexists⟩⟩
    rw [hreceived, List.append_nil, List.append_assoc]
  · exact Or.inl (plain_trouble hplain)

/-- A stop of the encoder, in an attempt. -/
theorem spoiledStream_stops {declaredLen : Nat} {e : AtomicBlobStoreError}
    {log : List (Option SaveStreamMessage)} (hstops : Stops fault config declaredLen e log)
    (hseen : Unseen config.format w₀ key w) (hlog : Received fault w₀ log w) :
    SpoiledStream config fault w₀ key declaredLen (.error e) w := by
  cases hstops with
  | failed c source hplain chunks hle log hlog' => exact spoiledStream_write hplain hseen hlog
  | tooLarge h => exact ⟨rfl, hseen, Or.inr ⟨_, .tooLarge h, hlog⟩⟩
  | trailing chunks chunk h hmore =>
    exact ⟨rfl, hseen, Or.inr ⟨_, .trailing chunks chunk h hmore, hlog⟩⟩
  | early chunks h => exact ⟨rfl, hseen, Or.inr ⟨_, .early chunks h, hlog⟩⟩
  | cancelled chunks h => exact ⟨rfl, hseen, Or.inr ⟨_, .cancelled chunks h, hlog⟩⟩

/-- `create_windows_streaming_staging`: a complete staging file of what was received. -/
theorem holds_createWindowsStreamingStaging {path : FileName} {declaredLen : Nat}
    (hpath : Hidden config.format path) (hseen : Unseen config.format w₀ key w)
    (hreceived : Received fault w₀ [] w) :
    HoldsE (Fs fault) (createWindowsStreamingStaging crc32c config path declaredLen)
      (fun _ w' => Unseen config.format w₀ key w' ∧
        ∃ chunks : List (List UInt8), chunks.flatten.length = declaredLen ∧
          declaredLen ≤ config.maximum ∧ Received fault w₀ (fed chunks ++ [some .complete]) w' ∧
          w'.disk.entry path = some (.file (envelope crc32c config.format chunks.flatten)))
      (SpoiledStream config fault w₀ key declaredLen) (Unseen config.format w₀ key) w := by
  have hafter : ∀ content log,
      Unseen config.format w₀ key ((Writer.staging path).after w content log) := by
    intro content log
    refine hseen.after (fun name hname => ?_) content log
    rwa [← Writer.staging.inj hname]
  have hlog : ∀ content log, Received fault w₀ log ((Writer.staging path).after w content log) := by
    intro content log
    obtain ⟨front, hfront, hretried⟩ := hreceived
    refine ⟨front, ?_, hretried⟩
    rw [Writer.received_after, hfront, List.append_nil]
  unfold createWindowsStreamingStaging
  refine holds_createNew hseen (fun hdirectory => ?_) fun source hreason => ?_
  · have hready : (Writer.staging path).Ready w := hdirectory
    refine holdsE_bind ((holds_writeStreamEnvelope hready hafter).mono ?_ ?_ fun _ h => h)
    · rintro - w' - ⟨hmax, chunks, hlen, rfl⟩
      refine holds_flushFile (hafter _ _) ⟨hafter _ _, chunks, hlen, hmax, hlog _ _, ?_⟩ ?_
      · exact Disk.entry_set_self hdirectory
      · exact fun source hplain => spoiledStream_write hplain (hafter _ _) (hlog _ _)
    · rintro (e | -) w' - hstop
      · obtain ⟨content, log, rfl, hstops⟩ := hstop
        exact spoiledStream_stops hstops (hafter _ _) (hlog _ _)
      · exact hstop
  · refine ⟨rfl, hseen, ?_⟩
    split
    · exact hreceived
    · rename_i hnot
      exact Or.inl (Seen.trouble hseen (hreason.resolve_left fun h => hnot (isAlreadyExists_iff.mpr h)))

/-- **`save_blob_from_receiver`** on Windows. -/
theorem holds_saveBlobFromReceiver (declaredLen : Nat) :
    HoldsE (Fs fault)
      (saveBlobFromReceiver crc32c config (blobFilename config.format key) declaredLen)
      (fun _ => SavedStream crc32c config fault w₀ key declaredLen)
      (Failed fault w₀ (Unseen config.format w₀ key)
        (SavedStream crc32c config fault w₀ key declaredLen)
        (RefusesStream config fault w₀ declaredLen))
      (fun w => Unseen config.format w₀ key w ∨
        SavedStream crc32c config fault w₀ key declaredLen w) w₀ := by
  have hnone : Received fault w₀ [] w₀ := ⟨[], by rw [List.append_nil, List.append_nil], Or.inl rfl⟩
  unfold saveBlobFromReceiver
  by_cases hmax : declaredLen ≤ config.maximum
  · rw [envelopeHeader_eq config hmax, stem_blobFilename]
    refine holdsE_bind (holdsE_pure (Or.inl unseen_refl) ?_)
    refine holdsE_bind (holdsE_pure (Or.inl unseen_refl) ?_)
    refine holdsE_iterate (fun _ w => Unseen config.format w₀ key w ∧ Received fault w₀ [] w)
      ⟨unseen_refl, hnone⟩ (fun _ _ h => Or.inl h.1) ?_
    rintro - w ⟨hseen, hreceived⟩
    refine holdsE_bind (holds_randomIdentifier (Or.inl hseen) (fun bytes => ?_)
      fun e htells htrouble => failed_old htells hseen (Or.inl (Seen.trouble hseen htrouble)))
    have hhidden := hidden_stagingFilename config.format key .save (toHex bytes.toList)
    refine holdsE_bind (holdsE_attempt ((holds_createWindowsStreamingStaging hhidden hseen
      hreceived).mono ?_ ?_ fun _ h => Or.inl h))
    · rintro - w' - ⟨hseen', chunks, hlen, -, hlog, hentry⟩
      refine holdsE_bind ((holds_publish staging_ne hentry hseen' ?_ (Seen.trouble hseen')).mono
        (fun _ _ hC h => holds_ret hC h) (fun _ _ _ h => h) fun _ h => h)
      exact ⟨chunks, hlen, hmax, hlog, hseen'.move_in hhidden hentry rfl rfl⟩
    · rintro (e | -) w' - hspoiled
      · obtain ⟨htells, hseen', hreason⟩ := hspoiled
        show HoldsE _ (if isAlreadyExists (.error e) then _ else _) _ _ _ _
        split at hreason
        · rename_i hexists
          rw [if_pos hexists]
          exact holds_ret (Or.inl hseen') ⟨hseen', hreason⟩
        · rename_i hnot
          rw [if_neg hnot]
          -- the staging file is deleted, if that works
          refine holds_call (Or.inl hseen') fun r w'' henv => ?_
          obtain ⟨hseen'', hreceived''⟩ := hseen'.removes hhidden henv
          refine holdsE_throw (Or.inl hseen'') (failed_old htells hseen'' ?_)
          refine hreason.imp id ?_
          rintro ⟨log, hstops, front, hfront, hretried⟩
          exact ⟨log, hstops, front, hreceived''.trans hfront, hretried⟩
      · exact absurd hspoiled not_false
  · rw [envelopeHeader, if_pos (Nat.lt_of_not_le hmax)]
    refine holds_ret (Or.inl unseen_refl) (failed_old rfl unseen_refl (Or.inr ?_))
    exact ⟨[], .tooLarge (Nat.lt_of_not_le hmax), hnone⟩

/-- A time that fits is a file time. -/
theorem fileTimeTicks_ok {seconds nanoseconds : Nat} (h : FileTimeFits seconds nanoseconds) :
    ∃ ticks, fileTimeTicks seconds nanoseconds = .ok ticks := by
  unfold FileTimeFits at h
  unfold fileTimeTicks
  dsimp only
  have htotal : ¬seconds * 10000000 + nanoseconds / 100 + 116444736000000000 ≥ u64Limit :=
    Nat.not_le.mpr h
  have hsum : ¬seconds * 10000000 + nanoseconds / 100 ≥ u64Limit :=
    fun h' => htotal (Nat.le_trans h' (Nat.le_add_right _ _))
  have hproduct : ¬seconds * 10000000 ≥ u64Limit :=
    fun h' => hsum (Nat.le_trans h' (Nat.le_add_right _ _))
  rw [if_neg hproduct, if_neg hsum, if_neg htotal]
  exact ⟨_, rfl⟩

/-- An error made by the program is not `NotFound`. -/
theorem fileTimeTicks_error {seconds nanoseconds : Nat} {e : IoError}
    (h : fileTimeTicks seconds nanoseconds = .error e) : e.kind ≠ .notFound := by
  have hite : ∀ {c : Prop} [Decidable c] {r : Except IoError Nat},
      (if c then .error fileTimeError else r) = .error e → (r = .error e → e = fileTimeError) →
        e = fileTimeError := by
    intro c _ r h hr
    split at h
    · exact (Except.error.inj h).symm
    · exact hr h
  unfold fileTimeTicks at h
  rw [hite h fun h => hite h fun h => hite h fun h => nomatch h]
  exact fun hkind => nomatch hkind

/-- What `refresh_windows_clear_age` does with a file time. -/
theorem holds_setClearAge {path : FileName} {Q : Unit → JobWorld → Prop}
    {E : IoError → JobWorld → Prop} {ticks : Nat} (hC : C w) (hQ : Q () w)
    (hE : ∀ e, (e.kind = .notFound → w.disk.entry path = none) →
      (e.kind ≠ .notFound → Trouble fault w) → E e w) :
    HoldsE (Fs fault) (do
      IoM.io (← IoM.ask (.openExisting path))
      IoM.io (← IoM.ask (.setFileTime path ticks))
      IoM.io (← IoM.ask (.flushFile path))) Q E C w := by
  have hplain : ∀ {c : FsCall} {e : IoError}, PlainError fault c e → E e w :=
    fun h => hE _ (fun hkind => absurd hkind h.1) fun _ => plain_trouble h
  refine holds_call hC fun r w' henv => ?_
  obtain ⟨rfl, henv⟩ := henv
  cases r with
  | error e => exact holds_ret hC (hE e (absent_of_lookup henv) (trouble_of_lookup henv))
  | ok u =>
    refine holds_call hC fun r w' henv => ?_
    obtain ⟨rfl, henv⟩ := henv
    cases r with
    | error e => exact holds_ret hC (hplain henv)
    | ok u =>
      refine holds_call hC fun r w' henv => ?_
      obtain ⟨rfl, henv⟩ := henv
      cases r with
      | error e => exact holds_ret hC (hplain henv)
      | ok u => exact holds_ret hC hQ

/-- `refresh_windows_clear_age` changes nothing of what is in the directory, and reports `NotFound`
    only for a file that is not there. -/
theorem holds_refreshWindowsClearAge {path : FileName} {Q : Unit → JobWorld → Prop}
    {E : IoError → JobWorld → Prop} (hC : C w) (hQ : Q () w)
    (hE : ∀ e, (e.kind = .notFound → w.disk.entry path = none) →
      (e.kind ≠ .notFound → Trouble fault w) → E e w) :
    HoldsE (Fs fault) (refreshWindowsClearAge path) Q E C w := by
  unfold refreshWindowsClearAge
  refine holdsE_bind (holdsE_ask hC fun r w' henv => ?_)
  obtain ⟨rfl, henv⟩ := henv
  refine ⟨hC, ?_⟩
  cases r with
  | error e =>
    exact holds_ret hC (hE e (fun hkind => absurd hkind henv.1) fun _ => plain_trouble henv)
  | ok elapsed =>
    refine holdsE_bind (holdsE_pure hC ?_)
    obtain ⟨seconds, nanoseconds⟩ := elapsed
    dsimp only
    cases hticks : fileTimeTicks seconds nanoseconds with
    | error e =>
      have hfault : ∃ e, fault .sinceEpoch e := by
        rcases henv with hfits | hfault
        · obtain ⟨ticks, hok⟩ := fileTimeTicks_ok hfits
          nomatch hticks.symm.trans hok
        · exact hfault
      obtain ⟨e', hfault⟩ := hfault
      exact holds_ret hC (hE e (fun hkind => absurd hkind (fileTimeTicks_error hticks))
        fun _ => Or.inl ⟨_, e', hfault⟩)
    | ok ticks => exact holdsE_bind (holdsE_pure hC (holds_setClearAge hC hQ hE))

/-- **`clear_blob`** on Windows. -/
theorem holds_clearBlob :
    HoldsE (Fs fault) (clearBlob config (blobFilename config.format key))
      (fun _ => Cleared config w₀ key)
      (Failed fault w₀ (Unseen config.format w₀ key) (Cleared config w₀ key) fun _ _ => False)
      (fun w => Unseen config.format w₀ key w ∨ Cleared config w₀ key w) w₀ := by
  unfold clearBlob
  rw [stem_blobFilename]
  refine holdsE_bind (holdsE_pure (Or.inl unseen_refl) ?_)
  refine holdsE_bind (holdsE_attempt (holds_refreshWindowsClearAge (Or.inl unseen_refl) ?_ ?_))
  · -- nothing changes before the move, so every turn starts in the world of the first
    refine holdsE_iterate (fun _ w => w = w₀) rfl (fun _ _ h => Or.inl (h ▸ unseen_refl)) ?_
    rintro - w rfl
    refine holdsE_bind (holds_randomIdentifier (Or.inl unseen_refl) (fun bytes => ?_)
      fun e htells htrouble => failed_old htells unseen_refl (Or.inl htrouble))
    have hhidden := hidden_stagingFilename config.format key .clear (toHex bytes.toList)
    refine holds_call (Or.inl unseen_refl) fun r w' henv => ?_
    cases r with
    | ok u =>
      obtain ⟨node, hnode, -, rfl⟩ := henv
      generalize hmoved : ({ w with disk := _, published := _ } : JobWorld) = w'
      have hseen : Seen config.format w key none _ w' := unseen_refl.move_away hhidden
        (congrArg JobWorld.disk hmoved).symm (congrArg JobWorld.published hmoved).symm
      have hthere : w'.disk.entry (stagingFilename (toHex key.toList) config.format.filenameSuffix
          .clear (toHex bytes.toList)) = some node := by
        rw [← hmoved]
        exact Disk.entry_move_destination hnode
      have hcleared : Cleared config w key w' := ⟨_, hseen⟩
      refine holds_finalSync (Or.inr hcleared) ?_ fun e htrouble =>
        failed_new rfl hcleared (Seen.trouble hseen htrouble)
      refine holds_call (Or.inr hcleared) fun r w'' henv => ?_
      have hseen'' := (hseen.removes hhidden henv).1
      have hcleared'' : Cleared config w key w'' := ⟨_, hseen''⟩
      cases r with
      | ok u => exact holds_ret (Or.inr hcleared'') hcleared''
      | error source =>
        obtain ⟨rfl, hlookup⟩ := henv
        -- the file was moved there just now
        have hkind : source.kind ≠ .notFound := by
          intro hkind
          nomatch (absent_of_lookup hlookup hkind).symm.trans hthere
        have hfailed : Failed fault w (Unseen config.format w key) (Cleared config w key)
            (fun _ _ => False) (.error (.io .removeTemporaryFile source)) w'' :=
          failed_new rfl hcleared (Seen.trouble hseen (trouble_of_lookup hlookup hkind))
        exact holds_ret (Or.inr hcleared) hfailed
    | error e =>
      obtain ⟨rfl, hreason⟩ := henv
      show HoldsE _ (if e.kind = .notFound then _ else if e.kind = .alreadyExists then _ else _) _ _ _ _
      split
      · rename_i hkind
        have habsent := hreason.elim (absent_of_lookup · hkind) fun h => nomatch h.1.symm.trans hkind
        refine holdsE_bind (holds_ensureNamespaceAvailable (Or.inl unseen_refl) (fun _ => ?_)
          fun e htells htrouble => failed_old htells unseen_refl (Or.inl htrouble))
        exact holds_ret (Or.inl unseen_refl) (cleared_of_absent habsent)
      · rename_i hkind
        split
        · exact holds_ret (Or.inl unseen_refl) rfl
        · rename_i hexists
          have htrouble := hreason.elim (trouble_of_lookup · hkind) fun h => absurd h.1 hexists
          exact holds_fail (Or.inl unseen_refl) (failed_old rfl unseen_refl (Or.inl htrouble))
  · intro source habsent htrouble
    show HoldsE _ (if source.kind = .notFound then _ else _) _ _ _ _
    split
    · rename_i hkind
      exact holds_ensureNamespaceAvailable (Or.inl unseen_refl)
        (fun _ => cleared_of_absent (habsent hkind))
        fun e htells htrouble => failed_old htells unseen_refl (Or.inl htrouble)
    · rename_i hkind
      exact holds_fail (Or.inl unseen_refl) (failed_old rfl unseen_refl (Or.inl (htrouble hkind)))

/-- **`quarantine_blob`** on Windows. -/
theorem holds_quarantineBlob :
    HoldsE (Fs fault) (quarantineBlob config (blobFilename config.format key))
      (Quarantined config w₀ key) (FailedQuarantine config fault w₀ key)
      (fun w => Unseen config.format w₀ key w ∨ ∃ quarantine, Quarantined config w₀ key quarantine w)
      w₀ := by
  unfold quarantineBlob
  rw [stem_blobFilename]
  refine holdsE_bind (holdsE_pure (Or.inl unseen_refl) ?_)
  refine holdsE_iterate (fun _ w => w = w₀) rfl (fun _ _ h => Or.inl (h ▸ unseen_refl)) ?_
  rintro - w rfl
  refine holdsE_bind (holds_randomIdentifier (Or.inl unseen_refl) (fun bytes => ?_)
    fun e htells htrouble => failedQuarantine_old htells (Or.inl htrouble))
  refine holds_call (Or.inl unseen_refl) fun r w' henv => ?_
  cases r with
  | ok u =>
    obtain ⟨node, hsource, hdestination, rfl⟩ := henv
    have hquarantined := quarantined_move hsource hdestination
    refine holdsE_bind (holdsE_attempt (holds_syncWindowsDirectory hquarantined.seen ?_ ?_))
    · exact holds_ret hquarantined.seen hquarantined
    · intro source htrouble
      exact holds_ret hquarantined.seen ⟨hquarantined, hquarantined.trouble htrouble⟩
  | error e =>
    obtain ⟨rfl, hreason⟩ := henv
    show HoldsE _ (if e.kind = .notFound then _ else if e.kind = .alreadyExists then _ else _) _ _ _ _
    split
    · rename_i hkind
      have habsent := hreason.elim (absent_of_lookup · hkind) fun h => nomatch h.1.symm.trans hkind
      refine holdsE_bind (holds_ensureNamespaceAvailable (Or.inl unseen_refl) (fun _ => ?_)
        fun e htells htrouble => failedQuarantine_old htells (Or.inl htrouble))
      exact holds_fail (Or.inl unseen_refl) (failedQuarantine_old rfl (Or.inr ⟨rfl, habsent⟩))
    · rename_i hkind
      split
      · exact holds_ret (Or.inl unseen_refl) rfl
      · rename_i hexists
        have htrouble := hreason.elim (trouble_of_lookup · hkind) fun h => absurd h.1 hexists
        exact holds_fail (Or.inl unseen_refl) (failedQuarantine_old rfl (Or.inl htrouble))

end Windows

/-! ## Both platforms

  The backends agree in what they leave, though not in the steps: an operation that is used by the
  engine is described here once. -/

section Platforms

variable (crc32c : Crc32c) (config : StoreConfig) (fault : FsCall → IoError → Prop) (w₀ : JobWorld)
  (key : KeyHash) (platform : Platform)

/-- **`save_blob`**: the complete envelope of the payload, or nothing. -/
theorem holds_saveBlob (payload : List UInt8) :
    HoldsE (Fs fault) (saveBlob crc32c config platform (blobFilename config.format key) payload)
      (fun _ => Saved crc32c config w₀ key payload)
      (Failed fault w₀ (Unseen config.format w₀ key) (Saved crc32c config w₀ key payload)
        (RefusesSave crc32c config payload))
      (fun w => Unseen config.format w₀ key w ∨ Saved crc32c config w₀ key payload w) w₀ := by
  cases platform with
  | unix => exact Unix.holds_saveBlob payload
  | windows => exact Windows.holds_saveBlob payload

/-- **`save_blob_from_receiver`**: the complete envelope of what was received, or nothing. -/
theorem holds_saveBlobFromReceiver (declaredLen : Nat) :
    HoldsE (Fs fault)
      (saveBlobFromReceiver crc32c config platform (blobFilename config.format key) declaredLen)
      (fun _ => SavedStream crc32c config fault w₀ key declaredLen)
      (Failed fault w₀ (Unseen config.format w₀ key)
        (SavedStream crc32c config fault w₀ key declaredLen)
        (RefusesStream config fault w₀ declaredLen))
      (fun w => Unseen config.format w₀ key w ∨
        SavedStream crc32c config fault w₀ key declaredLen w) w₀ := by
  cases platform with
  | unix => exact Unix.holds_saveBlobFromReceiver declaredLen
  | windows => exact Windows.holds_saveBlobFromReceiver declaredLen

/-- **`clear_blob`**: the canonical file is gone, or nothing has changed. -/
theorem holds_clearBlob :
    HoldsE (Fs fault) (clearBlob config platform (blobFilename config.format key))
      (fun _ => Cleared config w₀ key)
      (Failed fault w₀ (Unseen config.format w₀ key) (Cleared config w₀ key) fun _ _ => False)
      (fun w => Unseen config.format w₀ key w ∨ Cleared config w₀ key w) w₀ := by
  cases platform with
  | unix => exact Unix.holds_clearBlob
  | windows => exact Windows.holds_clearBlob

/-- **`quarantine_blob`**: the canonical file is at the diagnostic path, or nothing has changed. -/
theorem holds_quarantineBlob :
    HoldsE (Fs fault) (quarantineBlob config platform (blobFilename config.format key))
      (Quarantined config w₀ key) (FailedQuarantine config fault w₀ key)
      (fun w => Unseen config.format w₀ key w ∨ ∃ quarantine, Quarantined config w₀ key quarantine w)
      w₀ := by
  cases platform with
  | unix => exact Unix.holds_quarantineBlob
  | windows => exact Windows.holds_quarantineBlob

end Platforms

/-! ## Old or new

  What is left is to say "old" and "new" of the canonical file itself.  For a stream, new is what was
  received, and this is where a sender that does not keep to its declared length shows. -/

/-- The bytes that came through a channel. -/
def payloadOf (log : List (Option SaveStreamMessage)) : List UInt8 :=
  log.flatMap fun
    | some (.chunk chunk) => chunk
    | _ => []

/-- The payload of a history is that of its parts. -/
theorem payloadOf_append (front back : List (Option SaveStreamMessage)) :
    payloadOf (front ++ back) = payloadOf front ++ payloadOf back := List.flatMap_append

/-- Chunks are received as they are. -/
theorem payloadOf_fed (chunks : List (List UInt8)) : payloadOf (fed chunks) = chunks.flatten := by
  induction chunks with
  | nil => rfl
  | cons chunk chunks ih => exact congrArg (chunk ++ ·) ih

section Main

variable (crc32c : Crc32c) (config : StoreConfig) (fault : FsCall → IoError → Prop) (w₀ : JobWorld)
  (key : KeyHash)

/-- A stream is canonical: the envelope of all that was received, as many bytes as declared. -/
def NewStream (declaredLen : Nat) (w : JobWorld) : Prop :=
  ∃ log, w.received = w₀.received ++ log ∧ (payloadOf log).length = declaredLen ∧
    Saved crc32c config w₀ key (payloadOf log) w

/-- **The exception**: the sender sent more than it declared, and a step may be reported as
    `AlreadyExists`, so an attempt that had taken chunks may have been given up. -/
def Overlong (declaredLen : Nat) (w : JobWorld) : Prop :=
  Retried fault ∧ ∃ log, w.received = w₀.received ++ log ∧ declaredLen < (payloadOf log).length

/-- What is canonical then: the envelope of the last bytes that were received, as many as declared. -/
def Remainder (declaredLen : Nat) (w : JobWorld) : Prop :=
  ∃ log payload, w.received = w₀.received ++ log ∧ payload <:+ payloadOf log ∧
    payload.length = declaredLen ∧ Saved crc32c config w₀ key payload w

/-- What a streaming save may leave: all of the stream, or its remainder where it is overlong. -/
def LeftByStream (declaredLen : Nat) (w : JobWorld) : Prop :=
  NewStream crc32c config w₀ key declaredLen w ∨
    Overlong fault w₀ declaredLen w ∧ Remainder crc32c config w₀ key declaredLen w

variable {crc32c config fault w₀ key}

/-- Either way the last bytes that were received are canonical, as many as declared. -/
theorem LeftByStream.remainder {declaredLen : Nat} {w : JobWorld}
    (h : LeftByStream crc32c config fault w₀ key declaredLen w) :
    Remainder crc32c config w₀ key declaredLen w := by
  rcases h with ⟨log, hlog, hlen, hsaved⟩ | ⟨-, h⟩
  · exact ⟨log, payloadOf log, hlog, List.suffix_refl _, hlen, hsaved⟩
  · exact h

/-- What an attempt committed is all of the stream, unless an attempt before it took some. -/
theorem SavedStream.leftByStream {declaredLen : Nat} {w : JobWorld}
    (h : SavedStream crc32c config fault w₀ key declaredLen w) :
    LeftByStream crc32c config fault w₀ key declaredLen w := by
  obtain ⟨chunks, hlen, -, ⟨front, hreceived, hfront⟩, hsaved⟩ := h
  have hlog : w.received = w₀.received ++ (front ++ (fed chunks ++ [some .complete])) := by
    rw [hreceived, List.append_assoc]
  have hpayload : payloadOf (front ++ (fed chunks ++ [some .complete])) =
      payloadOf front ++ chunks.flatten := by
    have hcomplete : payloadOf [some .complete] = [] := rfl
    rw [payloadOf_append, payloadOf_append, payloadOf_fed, hcomplete, List.append_nil]
  by_cases hnil : payloadOf front = []
  · refine Or.inl ⟨_, hlog, ?_, ?_⟩
    · rw [hpayload, hnil]
      exact hlen
    · rw [hpayload, hnil]
      exact hsaved
  · -- an abandoned attempt took bytes, so there were more of them than declared
    have hretried : Retried fault := by
      refine hfront.resolve_left fun hempty => hnil ?_
      rw [hempty]
      rfl
    have hpos := List.length_pos_iff.mpr hnil
    refine Or.inr ⟨⟨hretried, _, hlog, ?_⟩, _, chunks.flatten, hlog, ?_, hlen, hsaved⟩
    · rw [hpayload, List.length_append]
      omega
    · rw [hpayload]
      exact List.suffix_append _ _

variable (fault w₀) in
/-- **Old or new**: wherever the operation is stopped, one of the two holds; success is the new
    state, and the kind of an error tells which it is. -/
def OldOrNew {α : Type} (p : FsM α) (old new : JobWorld → Prop) : Prop :=
  HoldsE (Fs fault) p (fun _ => new)
    (fun abort w => ∃ e, abort = .error e ∧ e.tells.Of old new w) (fun w => old w ∨ new w) w₀

/-- An operation that fails as `Failed` says, and succeeds in the new state, leaves one or the other. -/
theorem oldOrNew_of_failed {α : Type} {p : FsM α} {old new : JobWorld → Prop}
    {refused : AtomicBlobStoreError → JobWorld → Prop}
    (h : HoldsE (Fs fault) p (fun _ => new) (Failed fault w₀ old new refused)
      (fun w => old w ∨ new w) w₀) : OldOrNew fault w₀ p old new := by
  refine h.mono (fun _ _ _ h => h) (fun abort w _ hfailed => ?_) fun _ h => h
  cases abort with
  | error e => exact ⟨e, rfl, hfailed.1⟩
  | panic => exact absurd hfailed not_false

variable (crc32c config fault w₀ key)

/-- **Old or new under every failure.**  On both platforms, from any directory, whatever steps fail
    and wherever the process stops: the canonical file of the key is what it was or the complete new
    envelope (absent, for a clear or a quarantine), no other canonical file changes, and the error
    tells which of the two is the case.  Only a stream that is longer than declared may leave a
    complete envelope of less than all of it, and only if a step may be reported as
    `AlreadyExists`. -/
theorem old_or_new (platform : Platform) :
    (∀ payload, OldOrNew fault w₀
      (saveBlob crc32c config platform (blobFilename config.format key) payload)
      (Unseen config.format w₀ key) (Saved crc32c config w₀ key payload)) ∧
    (∀ declaredLen, OldOrNew fault w₀
      (saveBlobFromReceiver crc32c config platform (blobFilename config.format key) declaredLen)
      (Unseen config.format w₀ key) (LeftByStream crc32c config fault w₀ key declaredLen)) ∧
    OldOrNew fault w₀ (clearBlob config platform (blobFilename config.format key))
      (Unseen config.format w₀ key) (Cleared config w₀ key) ∧
    OldOrNew fault w₀ (quarantineBlob config platform (blobFilename config.format key))
      (Unseen config.format w₀ key) (fun w => ∃ quarantine, Quarantined config w₀ key quarantine w) := by
  refine ⟨fun payload => oldOrNew_of_failed (holds_saveBlob crc32c config fault w₀ key platform payload),
    fun declaredLen => ?_, oldOrNew_of_failed (holds_clearBlob config fault w₀ key platform), ?_⟩
  · refine (holds_saveBlobFromReceiver crc32c config fault w₀ key platform declaredLen).mono
      (fun _ w _ h => h.leftByStream) (fun abort w _ hfailed => ?_)
      fun w h => h.imp id SavedStream.leftByStream
    cases abort with
    | panic => exact absurd hfailed not_false
    | error e =>
      refine ⟨e, rfl, ?_⟩
      have htale := hfailed.1
      cases htells : e.tells with
      | old => rwa [htells] at htale
      | new =>
        rw [htells] at htale
        exact SavedStream.leftByStream htale
      | either =>
        rw [htells] at htale
        exact htale.imp id SavedStream.leftByStream
  · refine (holds_quarantineBlob config fault w₀ key platform).mono
      (fun quarantine w _ h => ⟨quarantine, h⟩) (fun abort w _ hfailed => ?_) fun _ h => h
    cases abort with
    | panic => exact absurd hfailed not_false
    | error e =>
      refine ⟨e, rfl, ?_⟩
      cases e with
      | quarantineNamespaceSync quarantine source => exact ⟨quarantine, hfailed.1⟩
      | _ =>
        obtain ⟨htells, hseen, -⟩ := hfailed
        rw [htells]
        exact hseen

end Main

end AtomicBlobStore
