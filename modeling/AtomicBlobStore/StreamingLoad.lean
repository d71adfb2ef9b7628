/-
  STREAMING LOADS: the caller, the channels and the worker of one `load_into`.

  The caller runs `load_into` (`Facade`), the worker `load_blob_into_sender`; between them are a bounded
  channel of chunks, a channel for one acknowledgement and the pending result.  The writer may answer
  anything that the write contract allows, the caller may be dropped at any point, the worker may fail,
  panic, or never be started, and all of them take their steps in any order.

  1. **The worker alone** is `holds_loadBlobIntoSender`: it sends nothing before the whole file was
     validated, then the payload in order, and it only succeeds once it was acknowledged.

  2. **The caller alone** is `holds_loadInto` (`LoadInto`): it acknowledges only what was written to
     the end.

  3. **Together** — `LoadInv` joins both through the channels.  What the caller can take for the end of
     the stream when the worker has failed is harmless: it acknowledges what it wrote, and waits for
     the result all the same.

  `loadInv_of_reachable` is the result; what the caller may read off it is in `LoadResults`.

  The worker is done when its caller has acknowledged, and the caller acknowledges when it has written
  everything. Between the two there are three channels, and any of them may be cut at any time.  What
  must not happen is a success that one side reports and the other does not share.
-/
import AtomicBlobStore.Lib.Channel
import AtomicBlobStore.Lib.Transition
import AtomicBlobStore.Jobs
import AtomicBlobStore.LoadInto
import AtomicBlobStore.Robustness

namespace AtomicBlobStore

open Relation

/-! ## What a file contains

  A canonical file is the envelope of a payload, or something is wrong with it, and the decoder that
  reads in blocks says what.  The configuration decides whether its length can be handled at all. -/

/-- The chunks in which a payload is sent. -/
def streamChunks (payload : List UInt8) : List (List UInt8) :=
  if _ : payload = [] then []
  else payload.take streamChunkSize :: streamChunks (payload.drop streamChunkSize)
termination_by payload.length
decreasing_by
  rename_i h
  have hpos := List.length_pos_iff.mpr h
  have hsize : 0 < streamChunkSize := by decide
  rw [List.length_drop]
  omega

/-- An empty payload is sent in no chunk. -/
theorem streamChunks_nil : streamChunks [] = [] := by
  rw [streamChunks]
  exact dif_pos rfl

theorem streamChunks_of_ne {payload : List UInt8} (h : payload ≠ []) :
    streamChunks payload =
      payload.take streamChunkSize :: streamChunks (payload.drop streamChunkSize) := by
  rw [streamChunks, dif_neg h]

/-- The chunks are the payload, in order. -/
theorem flatten_streamChunks (payload : List UInt8) : (streamChunks payload).flatten = payload := by
  induction payload using streamChunks.induct with
  | case1 => rw [streamChunks_nil, List.flatten_nil]
  | case2 payload hne ih =>
    rw [streamChunks_of_ne hne, List.flatten_cons, ih, List.take_append_drop]

/-- A file that is read without a fault. -/
def wholeFile : Source IoError (List UInt8) := Source.ofBytes none nofun

theorem flat_eq_wholeFile {σ : Type} {source : Source IoError σ} (h : source.ending = none) :
    source.flat = wholeFile := by
  match source, h with
  | ⟨_, _, none, _, _, _⟩, _ => rfl

section Content

variable (crc32c : Crc32c) (config : StoreConfig) (fault : FsCall → IoError → Prop) (key : KeyHash)
  (disk : Disk)

/-- The canonical file is the envelope of a payload. -/
def Stores (payload : List UInt8) : Prop :=
  payload.length ≤ config.maximum ∧ disk.entry (blobFilename config.format key) =
    some (.file (envelope crc32c config.format payload))

/-- The canonical file is no envelope: the decoder that reads in blocks reports this error. -/
def Rejects (e : AtomicBlobStoreError) : Prop :=
  ∃ content, disk.entry (blobFilename config.format key) = some (.file content) ∧
    ((validateEnvelopeReader crc32c config.format wholeFile config.maximum).run content).1 =
      .error (.error e)

/-- The canonical file can be loaded without asking for more than `Vec` can hold. -/
def Allocates : Prop :=
  ∀ content, disk.entry (blobFilename config.format key) = some (.file content) →
    Representable config.format config.maximum content

variable {crc32c config fault key disk}

theorem maximum_lt (config : StoreConfig) : config.maximum < u64Limit :=
  Nat.lt_of_le_of_lt (Nat.le_add_right _ _) config.maximum_valid

/-- A canonical file is the envelope of one payload. -/
theorem Stores.unique {payload payload' : List UInt8} (h : Stores crc32c config key disk payload)
    (h' : Stores crc32c config key disk payload') : payload' = payload := by
  have heq := Node.file.inj (Option.some.inj (h.2.symm.trans h'.2))
  have hsize := congrArg List.length heq
  rw [length_envelope, length_envelope] at hsize
  unfold envelope at heq
  rw [List.append_assoc, List.append_assoc] at heq
  obtain ⟨-, hbody⟩ := List.append_inj heq (by simp)
  exact (List.append_inj hbody (by omega)).1.symm

/-- What is rejected is no envelope. -/
theorem Rejects.not_stores {e : AtomicBlobStoreError} (h : Rejects crc32c config key disk e)
    (payload : List UInt8) : ¬Stores crc32c config key disk payload := by
  rintro ⟨hle, hentry⟩
  obtain ⟨content, hcontent, hrejects⟩ := h
  obtain rfl := Node.file.inj (Option.some.inj (hentry.symm.trans hcontent))
  have hok := (validateEnvelopeReader_flat_iff wholeFile crc32c config.format (maximum_lt config)
    (envelope crc32c config.format payload) payload.length).mpr ⟨rfl, payload, rfl, hle, rfl⟩
  have hsame : wholeFile.flat = wholeFile := flat_eq_wholeFile rfl
  rw [hsame] at hok
  exact absurd (hrejects.symm.trans hok) nofun

variable (crc32c) in
/-- **What validation says of an open file**: it is the envelope of a payload, and was read to its end,
    or there is an error, for which there is a reason. -/
theorem validated {c : FsCall} {file : OpenFile} {content : List UInt8}
    (hentry : disk.entry (blobFilename config.format key) = some (.file content))
    (hdelivers : Delivers fault c file content) :
    (∃ payload, Stores crc32c config key disk payload ∧ file.source.ending = none ∧
      file.rest = envelope crc32c config.format payload ∧
      ((validateEnvelopeReader crc32c config.format file.source config.maximum).run
        file.position).1 = .ok ⟨payload.length⟩) ∨
    ∃ e, ((∃ e', fault c e') ∨ Rejects crc32c config key disk e) ∧
      ((validateEnvelopeReader crc32c config.format file.source config.maximum).run
        file.position).1 = .error (.error e) := by
  obtain ⟨-, hwhole, hfails⟩ := hdelivers
  obtain ⟨hflat, -⟩ := follows_validateEnvelopeReader file.source crc32c config.format config.maximum
    file.position
  have hrest : file.source.rest file.position = file.rest := rfl
  rw [hrest] at hflat
  have hiff := validateEnvelopeReader_flat_iff file.source crc32c config.format (maximum_lt config)
    file.rest
  have hpanic := (agree_sections file.source crc32c config.format (maximum_lt config) file.rest).no_panic
  rw [hflat]
  cases hverdict : ((validateEnvelopeReader crc32c config.format file.source.flat
      config.maximum).run file.rest).1 with
  | ok metadata =>
    obtain ⟨hending, payload, hlen, hle, hbytes⟩ := (hiff metadata.payloadLen).mp hverdict
    refine Or.inl ⟨payload, ⟨hlen ▸ hle, ?_⟩, hending, hbytes, ?_⟩
    · rw [hentry, ← hwhole hending, hbytes]
    · rw [hlen]
  | error abort =>
    cases abort with
    | panic => exact absurd hverdict hpanic
    | error e =>
      refine Or.inr ⟨e, ?_, rfl⟩
      cases hending : file.source.ending with
      | some e' => exact Or.inl ⟨e', hfails e' hending⟩
      | none =>
        rw [flat_eq_wholeFile hending, hwhole hending] at hverdict
        exact Or.inr ⟨content, hentry, hverdict⟩

end Content

/-! ## The worker alone

  The worker reads the file twice: once to validate it, and once to send it.  Between the two the file
  may be replaced in its directory, but it is the open file that is read. -/

/-- An answer is the acknowledgement. -/
def acknowledges : (c : FsCall) → c.Answer → Bool
  | .recvAcknowledgement, r => r
  | _, _ => false

/-- The environment of a job, which notes whether it was acknowledged. -/
def Heeding (fault : FsCall → IoError → Prop) : Environment FsInterface (JobWorld × Bool)
  | c, v, r, v' => Fs fault c v.1 r v'.1 ∧ v'.2 = (v.2 || acknowledges c r)

section Worker

variable (crc32c : Crc32c) (config : StoreConfig) (fault : FsCall → IoError → Prop) (key : KeyHash)
  (disk : Disk)

/-- Wherever the worker is stopped: the directory is what it was, and what was sent is the beginning
    of the payload. -/
def Streamed (v : JobWorld × Bool) : Prop :=
  v.1.disk = disk ∧ (v.1.sent ≠ [] → ∃ payload, Stores crc32c config key disk payload ∧
    v.1.sent <+: streamChunks payload)

/-- How the worker ends. -/
def Loaded : Except Abort (Option BlobMetadata) → JobWorld × Bool → Prop
  | .ok (some metadata), v => v.2 = true ∧ ∃ payload, Stores crc32c config key disk payload ∧
      metadata = ⟨payload.length⟩ ∧ v.1.sent = streamChunks payload
  | .ok none, v => disk.entry (blobFilename config.format key) = none ∧ disk.isDirectory = true ∧
      v.1.sent = []
  | .error (.error e), v => Trouble fault (.start disk) ∨
      Rejects crc32c config key disk e ∧ v.1.sent = [] ∨
      e = .streamCancelled ∧ v.1.left = true ∧ ∃ payload, Stores crc32c config key disk payload
  | .error .panic, _ => False

/-- The worker between two chunks: what is left of the payload is in the file, and will be sent. -/
structure Sending (payload : List UInt8) (source : Source IoError Nat) (s : Nat × Nat)
    (left : List UInt8) (v : JobWorld × Bool) : Prop where
  /-- The directory is as it was. -/
  disk : v.1.disk = disk
  /-- So much is left. -/
  remaining : left.length = s.1
  /-- What was sent and what is left are the payload, -/
  sent : v.1.sent ++ streamChunks left = streamChunks payload
  /-- and what is left is in the file. -/
  present : ∃ tail, source.rest s.2 <+: left ++ tail ∧
    (source.ending = none → source.rest s.2 = left ++ tail)

variable {crc32c config fault key disk}

/-- Wherever the payload is being sent. -/
theorem Sending.streamed {payload left : List UInt8} {source : Source IoError Nat} {s : Nat × Nat}
    {v : JobWorld × Bool} (h : Sending disk payload source s left v)
    (hstores : Stores crc32c config key disk payload) : Streamed crc32c config key disk v :=
  ⟨h.disk, fun _ => ⟨payload, hstores, _, h.sent⟩⟩

/-- The next bytes of a file are read, or it cannot be read to its end. -/
theorem reads_chunk {source : Source IoError Nat} {position n : Nat} {left tail : List UInt8}
    (hpresent : source.rest position <+: left ++ tail)
    (hwhole : source.ending = none → source.rest position = left ++ tail) (hle : n ≤ left.length) :
    (∃ position', (readSection source n .payload).run position = (.ok (left.take n), position') ∧
      source.rest position' <+: left.drop n ++ tail ∧
      (source.ending = none → source.rest position' = left.drop n ++ tail)) ∨
    ∃ e e' position', source.ending = some e' ∧
      (readSection source n .payload).run position = (.error (.error e), position') := by
  obtain ⟨hresult, hrest⟩ := follows_readSection source n .payload position
  rcases Nat.lt_or_ge (source.rest position).length n with hshort | hlong
  · -- the file ends too early, so reading it ends with an error
    rw [readSection_short source .payload hshort] at hresult
    obtain ⟨e, he⟩ := endingError_eq source .payload
    cases hending : source.ending with
    | none =>
      have hlen := congrArg List.length (hwhole hending)
      rw [List.length_append] at hlen
      omega
    | some e' => exact Or.inr ⟨e, e', _, rfl, Prod.ext (hresult.trans (congrArg Except.error he)) rfl⟩
  · have hflat := Reader.run_exactly_flat_of_le source (sectionError .payload) hlong
    have hread : (readSection source.flat n .payload).run (source.rest position) =
        (.ok ((source.rest position).take n), (source.rest position).drop n) := hflat
    rw [hread] at hresult hrest
    obtain ⟨more, hmore⟩ := hpresent
    have htake : (source.rest position).take n = left.take n := by
      have h := congrArg (List.take n) hmore
      rwa [List.take_append_of_le_length hlong, List.take_append_of_le_length hle] at h
    have hdrop : (source.rest position).drop n ++ more = left.drop n ++ tail := by
      have h := congrArg (List.drop n) hmore
      rwa [List.drop_append_of_le_length hlong, List.drop_append_of_le_length hle] at h
    refine Or.inl ⟨_, Prod.ext (hresult.trans (congrArg Except.ok htake)) rfl, ?_, fun hending => ?_⟩
    · exact ⟨more, (congrArg (· ++ more) hrest).trans hdrop⟩
    · refine hrest.trans ?_
      show (source.rest position).drop n = _
      rw [hwhole hending, List.drop_append_of_le_length hle]

/-- A turn that has read a chunk, or has not. -/
theorem sendTurn_eq {source : Source IoError Nat} {remaining position position' : Nat}
    {outcome : Except Abort (List UInt8)} (hpos : remaining ≠ 0)
    (hread : (readSection source (min remaining streamChunkSize) .payload).run position =
      (outcome, position')) :
    sendTurn source (remaining, position) = (do
      let chunk ← (ProgE.ofExcept outcome : FsM (List UInt8))
      if ← FsM.ask (.send chunk) then pure (.inl (remaining - min remaining streamChunkSize, position'))
      else FsM.fail .streamCancelled) := by
  obtain rfl := congrArg Prod.fst hread
  obtain rfl := congrArg Prod.snd hread
  unfold sendTurn
  exact if_neg hpos

/-- A chunk is as long as it can be. -/
theorem split_request (left : List UInt8) :
    left.take (min left.length streamChunkSize) = left.take streamChunkSize ∧
      left.drop (min left.length streamChunkSize) = left.drop streamChunkSize := by
  constructor
  · rw [Nat.min_comm, ← List.take_take, List.take_length]
  · rcases Nat.le_total left.length streamChunkSize with hle | hle
    · rw [Nat.min_eq_left hle, List.drop_length, List.drop_of_length_le hle]
    · rw [Nat.min_eq_right hle]

/-- One turn of the sending loop. -/
theorem holds_sendTurn {payload left : List UInt8} {source : Source IoError Nat} {s : Nat × Nat}
    {v : JobWorld × Bool} (h : Sending disk payload source s left v)
    (hstores : Stores crc32c config key disk payload)
    (hfails : ∀ e, source.ending = some e → Trouble fault (.start disk)) :
    HoldsE (Heeding fault) (sendTurn source s)
      (fun next v => next.elim (fun s => ∃ left, Sending disk payload source s left v)
        fun _ => v.1.disk = disk ∧ v.1.sent = streamChunks payload)
      (fun abort v => Loaded crc32c config fault key disk (.error abort) v)
      (Streamed crc32c config key disk) v := by
  have hnow := h.streamed hstores
  obtain ⟨remaining, position⟩ := s
  obtain ⟨hdisk, rfl, hsent, tail, hpresent, hwhole⟩ := h
  by_cases hpos : left.length = 0
  · obtain rfl := List.length_eq_zero_iff.mp hpos
    rw [streamChunks_nil, List.append_nil] at hsent
    exact holds_ret hnow ⟨hdisk, hsent⟩
  · have hne : left ≠ [] := fun hnil => hpos (congrArg List.length hnil)
    rcases reads_chunk hpresent hwhole (Nat.min_le_left left.length streamChunkSize) with
      ⟨position', hread, hpresent', hwhole'⟩ | ⟨e, e', position', hending, hread⟩
    · rw [sendTurn_eq hpos hread]
      obtain ⟨hchunk, hdrop⟩ := split_request left
      refine holdsE_bind (holdsE_ofExcept hnow ?_)
      refine holds_call (I := FsInterface) (c := .send (left.take _)) hnow fun r v' henv => ?_
      obtain ⟨hfs, -⟩ := henv
      obtain ⟨w', noted⟩ := v'
      cases r with
      | true =>
        obtain rfl : w' = { v.1 with
            sent := v.1.sent ++ [left.take (min left.length streamChunkSize)] } := hfs
        have hsending : Sending disk payload source
            (left.length - min left.length streamChunkSize, position')
            (left.drop (min left.length streamChunkSize))
            ({ v.1 with sent := v.1.sent ++ [left.take (min left.length streamChunkSize)] }, noted) := by
          refine ⟨hdisk, List.length_drop, ?_, tail, hpresent', hwhole'⟩
          show (v.1.sent ++ [_]) ++ _ = _
          rw [← hsent, streamChunks_of_ne hne, hchunk, hdrop, List.append_assoc]
          rfl
        exact holds_ret (hsending.streamed hstores) ⟨_, hsending⟩
      | false =>
        obtain rfl : w' = { v.1 with left := true } := hfs
        exact holds_ret hnow (Or.inr (Or.inr ⟨rfl, rfl, payload, hstores⟩))
    · rw [sendTurn_eq hpos hread]
      exact holdsE_bind (holdsE_ofExcept hnow (Or.inl (hfails e' hending)))

/-- A look for the namespace, which tells that there is nothing. -/
theorem heeding_ensureNamespaceAvailable {noted : Bool}
    {Q : Unit → JobWorld × Bool → Prop} {E : Abort → JobWorld × Bool → Prop}
    {C : JobWorld × Bool → Prop} (hC : C (.start disk, noted))
    (hQ : disk.isDirectory = true → Q () (.start disk, noted))
    (hE : ∀ e, Trouble fault (.start disk) → E (.error e) (.start disk, noted)) :
    HoldsE (Heeding fault) ensureNamespaceAvailable Q E C (.start disk, noted) := by
  refine holds_call (I := FsInterface) (c := .metadata) hC fun r v henv => ?_
  obtain ⟨w, noted'⟩ := v
  obtain ⟨⟨rfl, henv⟩, hnoted⟩ := henv
  obtain rfl : noted' = noted := hnoted.trans (Bool.or_false _)
  cases r with
  | ok isDirectory =>
    cases isDirectory with
    | true => exact holds_ret hC (hQ henv)
    | false => exact holds_ret hC (hE _ (Or.inr henv))
  | error source =>
    refine holds_ret hC (hE _ ?_)
    have henv : if source.kind = .notFound then disk.isDirectory = false
        else fault .metadata source := henv
    split at henv
    · exact Or.inr henv
    · exact Or.inl ⟨_, _, henv⟩

/-- **The worker alone**: whatever it is answered, and wherever it is stopped. -/
theorem holds_loadBlobIntoSender
    (hregular : disk.entry (blobFilename config.format key) ≠ some .other) :
    Holds (Heeding fault)
      (loadBlobIntoSender crc32c config (blobFilename config.format key)).run
      (Loaded crc32c config fault key disk) (Streamed crc32c config key disk)
      (.start disk, false) := by
  have hstart : Streamed crc32c config key disk (.start disk, false) := ⟨rfl, fun h => absurd rfl h⟩
  have hended {p : FsM (Option BlobMetadata)} {v : JobWorld × Bool} (h : HoldsE (Heeding fault) p
      (fun metadata => Loaded crc32c config fault key disk (.ok metadata))
      (fun abort => Loaded crc32c config fault key disk (.error abort))
      (Streamed crc32c config key disk) v) : Holds (Heeding fault) p.run
        (Loaded crc32c config fault key disk) (Streamed crc32c config key disk) v := by
    refine Holds.mono h (fun r v _ hr => ?_) fun _ hc => hc
    cases r with
    | ok metadata => exact hr
    | error abort => exact hr
  refine hended (holds_call (I := FsInterface) (c := .openFile _) hstart fun r v henv => ?_)
  obtain ⟨w, noted⟩ := v
  obtain ⟨⟨rfl, henv⟩, hnoted⟩ := henv
  obtain rfl : noted = false := hnoted
  cases r with
  | error source =>
    have hlookup : LookupError fault (.openFile (blobFilename config.format key))
        (JobWorld.start disk).disk (blobFilename config.format key) source := henv
    show HoldsE _ (if source.kind = .notFound then _ else _) _ _ _ _
    split
    · rename_i hkind
      refine holdsE_bind (heeding_ensureNamespaceAvailable hstart (fun hdirectory => ?_)
        fun e htrouble => Or.inl htrouble)
      exact holds_ret hstart ⟨absent_of_lookup hlookup hkind, hdirectory, rfl⟩
    · rename_i hkind
      exact holds_ret hstart (Or.inl (trouble_of_lookup hlookup hkind))
  | ok file =>
    obtain ⟨content, hentry, hdelivers⟩ : ∃ content,
        disk.entry (blobFilename config.format key) = some (.file content) ∧
          Delivers fault (.openFile (blobFilename config.format key)) file content := by
      cases hentry : disk.entry (blobFilename config.format key) with
      | none => simp only [JobWorld.start, hentry] at henv
      | some node =>
        cases node with
        | other => exact absurd hentry hregular
        | file content =>
          simp only [JobWorld.start, hentry] at henv
          exact ⟨content, rfl, henv⟩
    rcases validated crc32c hentry hdelivers with
      ⟨payload, hstores, hending, hrest, hok⟩ | ⟨e, hwhy, herror⟩
    · refine holdsE_bind (holdsE_ofExcept hstart ?_)
      rw [hok]
      refine holds_call (I := FsInterface) (c := .seek file headerLen) hstart fun r v henv => ?_
      obtain ⟨w, noted⟩ := v
      obtain ⟨⟨rfl, henv⟩, hnoted⟩ := henv
      obtain rfl : noted = false := hnoted
      cases r with
      | error source => exact holds_ret hstart (Or.inl (plain_trouble henv))
      | ok moved =>
        obtain ⟨hpresent, hwhole, hfails⟩ : Delivers fault (.seek file headerLen) moved
          (file.rest.drop headerLen) := henv
        -- past the header are the payload and the checksum
        have hbody : file.rest.drop headerLen = payload ++
            BigEndian.toBeBytes 4 (crc32c.checksum
              (headerBytes config.format payload.length ++ payload)).toNat := by
          rw [hrest, envelope, List.append_assoc]
          exact List.drop_left' (by simp [headerLen])
        rw [hbody] at hpresent hwhole
        have hsending : Sending disk payload moved.source (payload.length, moved.position) payload
            (JobWorld.start disk, false) := ⟨rfl, rfl, rfl, _, hpresent, hwhole⟩
        refine holdsE_bind (p := FsM.io .readEnvelope (.ok moved)) (holdsE_pure hstart ?_)
        refine holdsE_bind (holdsE_iterate
          (fun s v => ∃ left, Sending disk payload moved.source s left v) ⟨payload, hsending⟩
          (fun s v hs => hs.elim fun left h => h.streamed hstores) fun s v hs => ?_)
        obtain ⟨left, h⟩ := hs
        refine (holds_sendTurn h hstores fun e he => Or.inl ⟨_, e, hfails e he⟩).mono
          (fun next v hnow hnext => ?_) (fun _ _ _ he => he) fun _ hc => hc
        cases next with
        | inl s => exact hnext
        | inr u =>
          obtain ⟨hdisk, hsent⟩ := hnext
          refine holds_call (I := FsInterface) (c := .recvAcknowledgement) hnow fun r v' henv => ?_
          obtain ⟨w', noted⟩ := v'
          obtain ⟨hfs, hnoted⟩ := henv
          cases r with
          | true =>
            obtain rfl : w' = v.1 := hfs
            exact holds_ret hnow ⟨hnoted.trans (Bool.or_true _), payload, hstores, rfl, hsent⟩
          | false =>
            obtain rfl : w' = { v.1 with left := true } := hfs
            exact holds_ret hnow (Or.inr (Or.inr ⟨rfl, rfl, payload, hstores⟩))
    · refine holdsE_bind (holdsE_ofExcept hstart ?_)
      rw [herror]
      rcases hwhy with ⟨e', hfault⟩ | hrejects
      · exact Or.inl (Or.inl ⟨_, e', hfault⟩)
      · exact Or.inr (Or.inl ⟨hrejects, rfl⟩)

end Worker

/-! ## The parties -/

/-- What `load_into` works on. -/
structure LoadDesk where
  /-- A load was submitted. -/
  submitted : Bool
  /-- The end of the chunks was seen. -/
  ended : Bool
  /-- How the writer was called. -/
  writes : Writes
  /-- The caller dropped its ends of the channels. -/
  dropped : Bool
  /-- It acknowledged the stream. -/
  acknowledged : Bool
  /-- The result that it was given. -/
  heard : Option LoadResult
  /-- The channel of chunks. -/
  chunks : Channel (List UInt8)
  /-- The channel of the acknowledgement. -/
  acknowledgement : Channel Unit
  /-- The pending result. -/
  reply : Option LoadResult

namespace LoadDesk

/-- The desk before the call. -/
def start : LoadDesk := ⟨false, false, [], false, false, none, .new, .new, none⟩

/-- The log of a desk. -/
def log (desk : LoadDesk) : LoadLog :=
  ⟨desk.submitted, desk.chunks.taken, desk.ended, desk.writes, desk.dropped, desk.acknowledged,
    desk.heard⟩

/-- The caller's ends of the channels are dropped. -/
def letGo (desk : LoadDesk) : LoadDesk :=
  { desk with
    chunks := desk.chunks.dropReceiver
    acknowledgement := desk.acknowledgement.dropSenders }

/-- The worker's ends of the channels are dropped. -/
def hangUp (desk : LoadDesk) : LoadDesk :=
  { desk with
    chunks := desk.chunks.dropSenders
    acknowledgement := desk.acknowledgement.dropReceiver }

end LoadDesk

/-- Which answers the caller may get; only an engine that `fails` refuses it. -/
def Asking (writer : WriteRule) (fails : Prop) : Environment LoadInterface LoadDesk
  | .ensureOpen, desk, r, desk' => desk' = desk ∧ ∀ e, r = .error e → fails
  | .submit, desk, r, desk' => match r with
    | .ok () => desk' = { desk with submitted := true }
    | .error _ => desk' = desk ∧ fails
  | .recv, desk, r, desk' => ∃ chunks, desk.chunks.Receives r chunks ∧ match r with
    | some _ => desk' = { desk with chunks := chunks }
    | none => desk' = { desk with chunks := chunks, ended := true }
  | .write bytes, desk, r, desk' => writer desk.writes bytes r ∧
      (∀ count, r = .ok count → count ≤ bytes.length) ∧
      desk' = { desk with writes := desk.writes ++ [(bytes, r)] }
  | .dropEndpoints, desk, _, desk' => desk' = { desk.letGo with dropped := true }
  | .acknowledge, desk, _, desk' => ∃ r acknowledgement,
      Channel.Sends 1 () desk.acknowledgement r acknowledgement ∧
        desk' = { desk with acknowledged := true, acknowledgement := acknowledgement }
  | .wait, desk, r, desk' => desk.reply = some r ∧ desk' = { desk with heard := some r }

/-- Where a worker is with the load. -/
inductive LoadWorker
  /-- No worker has taken the load. -/
  | queued
  /-- A worker has, and this is left of its program. -/
  | running (program : Prog FsInterface (Except Abort (Option BlobMetadata)))
  /-- It has come to an end. -/
  | ended (outcome : Except Abort (Option BlobMetadata))
  /-- No worker will ever take it. -/
  | refused

/-- The worker is done with the load. -/
def LoadWorker.Over : LoadWorker → Prop
  | .ended _ => True
  | .refused => True
  | _ => False

/-- What the pending result may be: a result that is lost on the way reads as `EngineFailed`. -/
def LoadWorker.Replies (fails : Prop) : LoadWorker → LoadResult → Prop
  | .ended (.ok found), r => r = .ok found ∨ fails ∧ r = .error .engineFailed
  | .ended (.error (.error e)), r => r = .error e ∨ fails ∧ r = .error .engineFailed
  | .ended (.error .panic), r => r = .error .engineFailed
  | .refused, r => ∃ e, r = .error e
  | _, _ => False

/-- Only a worker that is done is answered for. -/
theorem LoadWorker.Replies.over {fails : Prop} {worker : LoadWorker} {r : LoadResult}
    (h : worker.Replies fails r) : worker.Over := by
  cases worker with
  | queued => exact h
  | running program => exact h
  | ended outcome => trivial
  | refused => trivial

/-- The caller, unless it was dropped, its desk, the worker and its world. -/
structure LoadStream where
  /-- What is left of the caller's program, unless it is gone. -/
  caller : Option (Prog LoadInterface LoadResult)
  /-- What the caller and the worker share. -/
  desk : LoadDesk
  /-- The worker. -/
  worker : LoadWorker
  /-- The worker's part of the world. -/
  world : JobWorld

namespace LoadStream

/-- The caller is gone, and its ends of the channels with it. -/
def dropCaller (s : LoadStream) : LoadStream := { s with caller := none, desk := s.desk.letGo }

/-- The caller has returned, and what it owned is dropped. -/
def leave (s : LoadStream) : LoadStream := { s with desk := s.desk.letGo }

/-- The worker's function is over, and what it owned is dropped. -/
def endWorker (s : LoadStream) (outcome : Except Abort (Option BlobMetadata)) : LoadStream :=
  { s with worker := .ended outcome, desk := s.desk.hangUp }

/-- What the worker notes of its world and of the acknowledgement. -/
def noted (s : LoadStream) : JobWorld × Bool := (s.world, !s.desk.acknowledgement.taken.isEmpty)

end LoadStream

section Steps

variable (crc32c : Crc32c) (config : StoreConfig) (fault : FsCall → IoError → Prop)
  (writer : WriteRule) (fails : Prop) (facade : Facade) (key : KeyHash) (disk : Disk)

/-- What the worker can do.  Its sender of chunks is dropped before it waits to be acknowledged. -/
inductive LoadWork : LoadStream → LoadStream → Prop
  /-- A worker takes the load. -/
  | start {s : LoadStream} (hsubmitted : s.desk.submitted = true) (hqueued : s.worker = .queued) :
      LoadWork s { s with
        worker := .running (loadBlobIntoSender crc32c config (blobFilename config.format key)).run }
  /-- It makes a call that only the files answer. -/
  | work {s : LoadStream} {c : FsCall}
      {k : c.Answer → Prog FsInterface (Except Abort (Option BlobMetadata))} {w : JobWorld}
      {r : c.Answer} (hworker : s.worker = .running (.call c k)) (hsend : ∀ chunk, c ≠ .send chunk)
      (hacknowledged : c ≠ .recvAcknowledgement) (henv : Fs fault c s.world r w) :
      LoadWork s { s with worker := .running (k r), world := w }
  /-- It sends a chunk, which waits for a place in the channel, or fails when the caller let go. -/
  | send {s : LoadStream} {chunk : List UInt8}
      {k : Bool → Prog FsInterface (Except Abort (Option BlobMetadata))} {r : Bool}
      {chunks : Channel (List UInt8)} {w : JobWorld}
      (hworker : s.worker = .running (.call (.send chunk) k))
      (hsends : Channel.Sends streamChannelCapacity chunk s.desk.chunks r chunks)
      (henv : Fs fault (.send chunk) s.world r w) :
      LoadWork s { s with
        worker := .running (k r), world := w, desk := { s.desk with chunks := chunks } }
  /-- It has sent everything, and drops its sender. -/
  | close {s : LoadStream} {k : Bool → Prog FsInterface (Except Abort (Option BlobMetadata))}
      (hworker : s.worker = .running (.call .recvAcknowledgement k)) :
      LoadWork s { s with desk := { s.desk with chunks := s.desk.chunks.dropSenders } }
  /-- Then it waits to be acknowledged, or sees that it never will be. -/
  | acknowledged {s : LoadStream} {k : Bool → Prog FsInterface (Except Abort (Option BlobMetadata))}
      {r : Option Unit} {acknowledgement : Channel Unit} {w : JobWorld}
      (hworker : s.worker = .running (.call .recvAcknowledgement k))
      (hclosed : s.desk.chunks.senders = false)
      (hreceives : s.desk.acknowledgement.Receives r acknowledgement)
      (henv : Fs fault .recvAcknowledgement s.world r.isSome w) :
      LoadWork s { s with
        worker := .running (k r.isSome), world := w
        desk := { s.desk with acknowledgement := acknowledgement } }
  /-- It goes round a loop. -/
  | turn {s : LoadStream} {σ β : Type} {body : σ → Prog FsInterface (σ ⊕ β)} {x : σ}
      {k : β → Prog FsInterface (Except Abort (Option BlobMetadata))}
      (hworker : s.worker = .running (.loop body x k)) :
      LoadWork s { s with worker := .running ((body x).bind (Prog.unroll body k)) }
  /-- It comes to its end. -/
  | finish {s : LoadStream} {outcome : Except Abort (Option BlobMetadata)}
      (hworker : s.worker = .running (.ret outcome)) : LoadWork s (s.endWorker outcome)
  /-- It panics, wherever it is. -/
  | crash {s : LoadStream} {program : Prog FsInterface (Except Abort (Option BlobMetadata))}
      (hfails : fails) (hworker : s.worker = .running program) :
      LoadWork s (s.endWorker (.error .panic))

/-- One step of any of the parties, or of the engine between them.  The engine's own steps are those
    that refuse a load, deliver its result, and drop the ends of one that was refused. -/
inductive LoadStep : LoadStream → LoadStream → Prop
  /-- The caller takes a step. -/
  | call {s : LoadStream} {p p' : Prog LoadInterface LoadResult} {desk : LoadDesk}
      (hcaller : s.caller = some p) (hstep : ProgStep (Asking writer fails) p s.desk p' desk) :
      LoadStep s { s with caller := some p', desk := desk }
  /-- The caller returns. -/
  | leave {s : LoadStream} {r : LoadResult} (hcaller : s.caller = some (.ret r)) :
      LoadStep s s.leave
  /-- The caller is dropped, wherever it is. -/
  | drop {s : LoadStream} {p : Prog LoadInterface LoadResult} (hcaller : s.caller = some p) :
      LoadStep s s.dropCaller
  /-- The worker takes a step. -/
  | work {s s' : LoadStream} (hstep : LoadWork crc32c config fault fails key s s') : LoadStep s s'
  /-- The engine never starts the load. -/
  | refuse {s : LoadStream} (hfails : fails) (hsubmitted : s.desk.submitted = true)
      (hqueued : s.worker = .queued) : LoadStep s { s with worker := .refused }
  /-- The result is delivered. -/
  | reply {s : LoadStream} {r : LoadResult} (hnone : s.desk.reply = none)
      (hreplies : s.worker.Replies fails r) :
      LoadStep s { s with desk := { s.desk with reply := some r } }
  /-- The worker's ends of a load that is never started are dropped. -/
  | release {s : LoadStream} (hrefused : s.worker = .refused) :
      LoadStep s { s with desk := s.desk.hangUp }

/-- One call of `load_into`, from its start. -/
def streamingLoad : System LoadStream where
  init s := s = ⟨some facade.loadInto, .start, .queued, .start disk⟩
  step := LoadStep crc32c config fault writer fails key

end Steps

/-! ## The parties together -/

section Together

variable (crc32c : Crc32c) (config : StoreConfig) (fault : FsCall → IoError → Prop)
  (writer : WriteRule) (fails : Prop) (facade : Facade) (key : KeyHash) (disk : Disk)

/-- What holds of the worker and of what it notes. -/
def LoadWorker.Fine : LoadWorker → JobWorld × Bool → Prop
  | .running program, v =>
    Holds (Heeding fault) program (Loaded crc32c config fault key disk)
      (Streamed crc32c config key disk) v
  | .ended outcome, v => Streamed crc32c config key disk v ∧
      (outcome = .error .panic ∧ fails ∨ Loaded crc32c config fault key disk outcome v)
  | _, v => v = (.start disk, false)

/-- The caller has let go of the channels, or will never use them again. -/
def LoadStream.LetGo (s : LoadStream) : Prop :=
  s.desk.dropped = true ∨ s.caller = none ∨ ∃ r, s.caller = some (.ret r)

/-- **The invariant.** -/
structure LoadInv (s : LoadStream) : Prop where
  /-- The caller is on its way to one of its results. -/
  caller : ∀ p, s.caller = some p → Holds (Serving writer fails) p
    (LoadReturns facade.retries writer fails) Written s.desk.log
  written : Written s.desk.log
  /-- The worker is on its way to one of its ends. -/
  worker : s.worker.Fine crc32c config fault fails key disk s.noted
  /-- What the worker has sent is what the caller took and what is still in the channel. -/
  sent : s.desk.chunks.sent = s.world.sent
  /-- The end of the chunks is seen only when there are none left and none to come. -/
  ended : s.desk.ended = true → s.desk.chunks.queue = [] ∧ s.desk.chunks.senders = false
  /-- An acknowledgement is sent by a caller that has written everything it took. -/
  acknowledged : s.desk.acknowledgement.sent ≠ [] → s.desk.acknowledged = true
  /-- The caller hears the pending result, -/
  heard : ∀ r, s.desk.heard = some r → s.desk.reply = some r
  /-- which is the worker's. -/
  replied : ∀ r, s.desk.reply = some r → s.worker.Replies fails r
  /-- Only an engine that fails refuses a load. -/
  refused : s.worker = .refused → fails
  /-- The caller's ends of the channels are gone only when it let go of them. -/
  gone : s.desk.chunks.receiver = false ∨ s.desk.acknowledgement.senders = false → s.LetGo
  /-- The worker finds the other side gone only if it is, -/
  left : s.world.left = true → s.desk.chunks.receiver = false ∨ s.desk.acknowledgement.senders = false
  /-- which does not happen before the caller is done. -/
  undisturbed : s.desk.heard ≠ none → s.desk.dropped = true ∨ s.world.left = false

variable {crc32c config fault writer fails facade key disk}

/-- A call of the caller, seen without the other parties. -/
theorem asking_serves {c : LoadCall} {desk desk' : LoadDesk} {r : c.Answer}
    (henv : Asking writer fails c desk r desk') :
    Serving writer fails c desk.log r desk'.log := by
  cases c with
  | ensureOpen =>
    obtain ⟨rfl, hfails⟩ := henv
    exact ⟨rfl, hfails⟩
  | submit =>
    cases r with
    | ok u =>
      obtain rfl : desk' = _ := henv
      exact rfl
    | error e =>
      obtain ⟨rfl, hfails⟩ := henv
      exact ⟨rfl, hfails⟩
  | recv =>
    obtain ⟨chunks, hreceives, hdesk⟩ := henv
    have htaken := hreceives.taken
    cases r with
    | some chunk =>
      obtain rfl : desk' = { desk with chunks := chunks } := hdesk
      exact congrArg (fun taken => LoadLog.mk desk.submitted taken desk.ended desk.writes desk.dropped
        desk.acknowledged desk.heard) htaken
    | none =>
      obtain rfl : desk' = { desk with chunks := chunks, ended := true } := hdesk
      exact congrArg (fun taken => LoadLog.mk desk.submitted taken true desk.writes desk.dropped
        desk.acknowledged desk.heard) (htaken.trans (List.append_nil _))
  | write bytes =>
    obtain ⟨hrule, hlen, rfl⟩ := henv
    exact ⟨hrule, hlen, rfl⟩
  | dropEndpoints =>
    obtain rfl : desk' = _ := henv
    exact rfl
  | acknowledge =>
    obtain ⟨r, acknowledgement, -, rfl⟩ := henv
    exact rfl
  | wait =>
    obtain ⟨-, rfl⟩ := henv
    exact rfl

/-- What a call of the caller can change of what it shares with the worker. -/
structure AskChange (c : LoadCall) (desk desk' : LoadDesk) : Prop where
  /-- Nothing is taken back from the channel of chunks, -/
  sent : desk'.chunks.sent = desk.chunks.sent
  ended : desk.ended = true ∨ desk'.ended = false ∨
    desk'.chunks.queue = [] ∧ desk'.chunks.senders = false
  /-- and nothing comes into it. -/
  queue : desk.chunks.queue = [] → desk'.chunks.queue = []
  /-- The sender of chunks is the worker's. -/
  senders : desk'.chunks.senders = desk.chunks.senders
  /-- An acknowledgement is for the worker to take. -/
  taken : desk'.acknowledgement.taken = desk.acknowledgement.taken
  acknowledged : desk'.acknowledgement.sent ≠ [] →
    desk.acknowledgement.sent ≠ [] ∧ desk'.acknowledged = desk.acknowledged ∨
      desk'.acknowledged = true
  /-- The result is for the engine to deliver. -/
  reply : desk'.reply = desk.reply
  heard : desk'.heard = desk.heard ∨ desk'.heard = desk.reply
  dropped : desk.dropped = true → desk'.dropped = true
  /-- The caller has two ends, and drops both at once. -/
  ends : desk'.chunks.receiver = desk.chunks.receiver ∧
    desk'.acknowledgement.senders = desk.acknowledgement.senders ∨ desk'.dropped = true ∧
      desk'.chunks.receiver = false

theorem asking_change {c : LoadCall} {desk desk' : LoadDesk} {r : c.Answer}
    (henv : Asking writer fails c desk r desk') : AskChange c desk desk' := by
  have hkeeps : desk.ended = true ∨ desk.ended = false := Bool.eq_false_or_eq_true _
  -- what a call does not mention stays as it was
  have hsame : AskChange c desk desk :=
    ⟨rfl, hkeeps.imp id Or.inl, id, rfl, rfl, fun h => Or.inl ⟨h, rfl⟩, rfl, Or.inl rfl, id,
      Or.inl ⟨rfl, rfl⟩⟩
  cases c with
  | ensureOpen =>
    obtain ⟨rfl, -⟩ := henv
    exact hsame
  | submit =>
    cases r with
    | ok u =>
      obtain rfl : desk' = _ := henv
      exact { hsame with }
    | error e =>
      obtain ⟨rfl, -⟩ := henv
      exact hsame
  | recv =>
    obtain ⟨chunks, hreceives, hdesk⟩ := henv
    obtain ⟨hsenders, hreceiver⟩ := hreceives.ends
    have hqueue : desk.chunks.queue = [] → chunks.queue = [] := by
      intro hnil
      cases hreceives with
      | message hmessage => nomatch hnil.symm.trans hmessage
      | disconnected => exact hnil
    cases r with
    | some chunk =>
      obtain rfl : desk' = { desk with chunks := chunks } := hdesk
      exact { hsame with
        sent := hreceives.sent
        ended := hkeeps.imp id Or.inl
        queue := hqueue
        senders := hsenders
        ends := Or.inl ⟨hreceiver, rfl⟩ }
    | none =>
      obtain rfl : desk' = { desk with chunks := chunks, ended := true } := hdesk
      obtain ⟨rfl, hnil, hgone⟩ := hreceives.of_none
      exact { hsame with
        sent := rfl
        ended := Or.inr (Or.inr ⟨hnil, hgone⟩)
        queue := hqueue
        senders := rfl
        ends := Or.inl ⟨rfl, rfl⟩ }
  | write bytes =>
    obtain ⟨-, -, rfl⟩ := henv
    exact { hsame with }
  | dropEndpoints =>
    obtain rfl : desk' = _ := henv
    exact { hsame with
      sent := rfl
      ended := hkeeps.imp id Or.inl
      queue := id
      senders := rfl
      taken := rfl
      acknowledged := fun h => Or.inl ⟨h, rfl⟩
      dropped := fun _ => rfl
      ends := Or.inr ⟨rfl, rfl⟩ }
  | acknowledge =>
    obtain ⟨r, acknowledgement, hsends, rfl⟩ := henv
    obtain ⟨htaken, hsenders, -⟩ := hsends.ends
    exact { hsame with
      taken := htaken
      acknowledged := fun _ => Or.inr rfl
      ends := Or.inl ⟨rfl, hsenders⟩ }
  | wait =>
    obtain ⟨hreply, rfl⟩ := henv
    exact { hsame with heard := Or.inr hreply.symm }

/-- **A step of the caller.** -/
theorem LoadInv.called {s : LoadStream}
    (h : LoadInv crc32c config fault writer fails facade key disk s) {c : LoadCall}
    {k : c.Answer → Prog LoadInterface LoadResult} (hcaller : s.caller = some (.call c k))
    {r : c.Answer} {desk' : LoadDesk} (henv : Asking writer fails c s.desk r desk') :
    LoadInv crc32c config fault writer fails facade key disk
      { s with caller := some (k r), desk := desk' } := by
  have hholds := (h.caller _ hcaller).step (.call (asking_serves henv))
  have hchange := asking_change henv
  -- a caller that makes a call has not returned, so only one that let go of the channels has done so
  have hdropped : s.LetGo → s.desk.dropped = true := by
    rintro (hdropped | hnone | ⟨r, hret⟩)
    · exact hdropped
    · exact absurd (hcaller.symm.trans hnone) nofun
    · exact absurd (hcaller.symm.trans hret) nofun
  exact {
    caller := fun p hp => by
      obtain rfl := Option.some.inj hp
      exact hholds
    written := hholds.now
    worker := by
      have hnoted : LoadStream.noted { s with caller := some (k r), desk := desk' } = s.noted :=
        congrArg (fun taken : List Unit => (s.world, !taken.isEmpty)) hchange.taken
      exact hnoted ▸ h.worker
    sent := hchange.sent.trans h.sent
    ended := fun hended => by
      rcases hchange.ended with hbefore | hnot | hnow
      · obtain ⟨hqueue, hsenders⟩ := h.ended hbefore
        exact ⟨hchange.queue hqueue, hchange.senders.trans hsenders⟩
      · exact absurd (hnot.symm.trans hended) Bool.noConfusion
      · exact hnow
    acknowledged := fun hne => by
      rcases hchange.acknowledged hne with ⟨hbefore, hsame⟩ | hnow
      · exact hsame.trans (h.acknowledged hbefore)
      · exact hnow
    heard := fun r hr => by
      rw [hchange.reply]
      rcases hchange.heard with hsame | hheard
      · exact h.heard r (hsame.symm.trans hr)
      · exact hheard.symm.trans hr
    replied := fun r hr => h.replied r (hchange.reply.symm.trans hr)
    refused := h.refused
    gone := fun hends => by
      rcases hchange.ends with ⟨hreceiver, hsenders⟩ | ⟨hnow, -⟩
      · exact Or.inl (hchange.dropped (hdropped (h.gone (hends.imp hreceiver.symm.trans
          hsenders.symm.trans))))
      · exact Or.inl hnow
    left := fun hleft => by
      rcases hchange.ends with ⟨hreceiver, hsenders⟩ | ⟨-, hgone⟩
      · exact (h.left hleft).imp hreceiver.trans hsenders.trans
      · exact Or.inl hgone
    undisturbed := fun _ => by
      rcases Bool.eq_false_or_eq_true s.world.left with hleft | hleft
      · exact Or.inl (hchange.dropped (hdropped (h.gone (h.left hleft))))
      · exact Or.inr hleft }

/-- A turn of a loop of the caller. -/
theorem LoadInv.turned {s : LoadStream}
    (h : LoadInv crc32c config fault writer fails facade key disk s) {σ β : Type}
    {body : σ → Prog LoadInterface (σ ⊕ β)} {x : σ} {k : β → Prog LoadInterface LoadResult}
    (hcaller : s.caller = some (.loop body x k)) :
    LoadInv crc32c config fault writer fails facade key disk
      { s with caller := some ((body x).bind (Prog.unroll body k)) } :=
  { h with
    caller := fun p hp => by
      obtain rfl := Option.some.inj hp
      exact (h.caller _ hcaller).step .loop
    gone := fun hends => by
      rcases h.gone hends with hdropped | hnone | ⟨r, hret⟩
      · exact Or.inl hdropped
      · exact absurd (hcaller.symm.trans hnone) nofun
      · exact absurd (hcaller.symm.trans hret) nofun }

/-- The caller returns. -/
theorem LoadInv.leave {s : LoadStream}
    (h : LoadInv crc32c config fault writer fails facade key disk s) {r : LoadResult}
    (hcaller : s.caller = some (.ret r)) :
    LoadInv crc32c config fault writer fails facade key disk s.leave :=
  { h with
    gone := fun _ => Or.inr (Or.inr ⟨r, hcaller⟩)
    left := fun _ => Or.inl rfl }

/-- The caller is dropped, wherever it is. -/
theorem LoadInv.dropCaller {s : LoadStream}
    (h : LoadInv crc32c config fault writer fails facade key disk s) :
    LoadInv crc32c config fault writer fails facade key disk s.dropCaller :=
  { h with
    caller := nofun
    gone := fun _ => Or.inr (Or.inl rfl)
    left := fun _ => Or.inl rfl }

/-- The worker goes on, and shares nothing new with the caller. -/
theorem LoadInv.worked {s : LoadStream}
    (h : LoadInv crc32c config fault writer fails facade key disk s) {worker : LoadWorker}
    {w : JobWorld} (hfine : worker.Fine crc32c config fault fails key disk
      (w, !s.desk.acknowledgement.taken.isEmpty))
    (hsent : w.sent = s.world.sent) (hleft : w.left = s.world.left) (hbusy : ¬s.worker.Over)
    (hrefused : worker = .refused → fails) :
    LoadInv crc32c config fault writer fails facade key disk
      { s with worker := worker, world := w } :=
  { h with
    worker := hfine
    sent := h.sent.trans hsent.symm
    replied := fun r hr => absurd (h.replied r hr).over hbusy
    refused := hrefused
    left := fun hgone => h.left (hleft.symm.trans hgone)
    undisturbed := fun hheard => (h.undisturbed hheard).imp id hleft.trans }

/-- The worker's function is over. -/
theorem LoadInv.endWorker {s : LoadStream}
    (h : LoadInv crc32c config fault writer fails facade key disk s)
    {outcome : Except Abort (Option BlobMetadata)} (hbusy : ¬s.worker.Over)
    (hfine : (LoadWorker.ended outcome).Fine crc32c config fault fails key disk s.noted) :
    LoadInv crc32c config fault writer fails facade key disk (s.endWorker outcome) :=
  { h with
    worker := hfine
    ended := fun hended => ⟨(h.ended hended).1, rfl⟩
    replied := fun r hr => absurd (h.replied r hr).over hbusy
    refused := nofun }

/-- **A step of the worker.** -/
theorem LoadInv.work {s s' : LoadStream}
    (h : LoadInv crc32c config fault writer fails facade key disk s)
    (hregular : disk.entry (blobFilename config.format key) ≠ some .other)
    (hstep : LoadWork crc32c config fault fails key s s') :
    LoadInv crc32c config fault writer fails facade key disk s' := by
  have hfine := h.worker
  have hrunning {program : Prog FsInterface (Except Abort (Option BlobMetadata))}
      (hworker : s.worker = .running program) : ¬s.worker.Over := by
    rw [hworker]
    exact not_false
  cases hstep with
  | start hsubmitted hqueued =>
    rw [hqueued] at hfine
    have hnoted : s.noted = (.start disk, false) := hfine
    refine h.worked ?_ rfl rfl ?_ nofun
    · show Holds _ _ _ _ s.noted
      rw [hnoted]
      exact holds_loadBlobIntoSender hregular
    · rw [hqueued]
      exact not_false
  | @work c k w r hworker hsend hacknowledged henv =>
    rw [hworker] at hfine
    -- no call to either channel: what the worker sent and what it knows of the caller stay
    have hconverses : ¬Converses c ∨ c = .recv := by
      cases c with
      | send chunk => exact absurd rfl (hsend chunk)
      | recvAcknowledgement => exact absurd rfl hacknowledged
      | recv => exact Or.inr rfl
      | _ => exact Or.inl not_false
    have hsilent : w.sent = s.world.sent ∧ w.left = s.world.left := by
      rcases hconverses with hc | rfl
      · obtain ⟨-, hsent, hleft⟩ := fs_silent henv hc
        exact ⟨hsent, hleft⟩
      · obtain rfl : w = _ := henv
        exact ⟨rfl, rfl⟩
    have hnot : acknowledges c r = false := by
      cases c with
      | recvAcknowledgement => exact absurd rfl hacknowledged
      | _ => rfl
    have henv' : Heeding fault c s.noted r (w, !s.desk.acknowledgement.taken.isEmpty) := by
      refine ⟨henv, ?_⟩
      rw [hnot]
      exact (Bool.or_false _).symm
    exact h.worked (hfine.step (.call henv')) hsilent.1 hsilent.2 (hrunning hworker) nofun
  | @send chunk k r chunks w hworker hsends henv =>
    rw [hworker] at hfine
    have henv' : Heeding fault (.send chunk) s.noted r (w, !s.desk.acknowledgement.taken.isEmpty) :=
      ⟨henv, (Bool.or_false _).symm⟩
    obtain ⟨htaken, hsenders, hreceiver⟩ := hsends.ends
    -- sending changes the queue, and the caller sees of it only what it takes
    have hlog : LoadDesk.log { s.desk with chunks := chunks } = s.desk.log :=
      congrArg (fun taken => LoadLog.mk s.desk.submitted taken s.desk.ended s.desk.writes
        s.desk.dropped s.desk.acknowledged s.desk.heard) htaken
    have hworld : w = if r then { s.world with sent := s.world.sent ++ [chunk] }
        else { s.world with left := true } := henv
    refine {
      caller := fun p hp => hlog ▸ h.caller p hp
      written := hlog ▸ h.written
      worker := hfine.step (.call henv')
      sent := ?_
      ended := fun hended => ?_
      acknowledged := h.acknowledged
      heard := h.heard
      replied := fun r hr => absurd (h.replied r hr).over (hrunning hworker)
      refused := nofun
      gone := fun hends => h.gone (hends.imp hreceiver.symm.trans id)
      left := fun hleft => ?_
      undisturbed := fun hheard => ?_ }
    · -- a refused chunk is in neither of the two records
      show chunks.sent = w.sent
      cases r with
      | true =>
        rw [hsends.sent_true, h.sent, hworld]
        rfl
      | false =>
        rw [hsends.sent_false, h.sent, hworld]
        rfl
    · obtain ⟨hqueue, hgone⟩ := h.ended hended
      cases r with
      | true => exact absurd (hsends.senders_true.symm.trans hgone) Bool.noConfusion
      | false =>
        show chunks.queue = [] ∧ chunks.senders = false
        rw [hsends.sent_false]
        exact ⟨hqueue, hgone⟩
    · cases r with
      | true =>
        have hleft : w.left = true := hleft
        rw [hworld] at hleft
        exact (h.left hleft).imp hreceiver.trans id
      | false =>
        cases hsends with
        | refused hgone => exact Or.inl hgone
    · -- a result that was heard is the result of a worker that is over
      obtain ⟨r', hr'⟩ := Option.ne_none_iff_exists'.mp hheard
      exact absurd (h.replied r' (h.heard r' hr')).over (hrunning hworker)
  | @close k hworker =>
    exact { h with
      worker := hfine
      ended := fun hended => ⟨(h.ended hended).1, rfl⟩ }
  | @acknowledged k r acknowledgement w hworker hclosed hreceives henv =>
    rw [hworker] at hfine
    obtain ⟨hsenders, hreceiver⟩ := hreceives.ends
    have henv' : Heeding fault .recvAcknowledgement s.noted r.isSome
        (w, !acknowledgement.taken.isEmpty) := by
      refine ⟨henv, ?_⟩
      show (!acknowledgement.taken.isEmpty) = (!s.desk.acknowledgement.taken.isEmpty || r.isSome)
      rw [hreceives.taken]
      cases r with
      | none =>
        rw [Option.toList_none, List.append_nil]
        exact (Bool.or_false _).symm
      | some u =>
        have hne : s.desk.acknowledgement.taken ++ (some u).toList ≠ [] := List.concat_ne_nil _ _
        rw [Option.isSome_some, Bool.or_true, List.isEmpty_eq_false_iff.mpr hne]
        rfl
    have hworld : w = if r.isSome then s.world else { s.world with left := true } := henv
    refine {
      caller := h.caller
      written := h.written
      worker := hfine.step (.call henv')
      sent := ?_
      ended := h.ended
      acknowledged := fun hne => h.acknowledged (hreceives.sent ▸ hne)
      heard := h.heard
      replied := fun r hr => absurd (h.replied r hr).over (hrunning hworker)
      refused := nofun
      gone := fun hends => h.gone (hends.imp id hsenders.symm.trans)
      left := fun hleft => ?_
      undisturbed := fun hheard => ?_ }
    · refine h.sent.trans ?_
      rw [hworld]
      cases r with
      | none => rfl
      | some u => rfl
    · cases r with
      | some u =>
        have hleft : w.left = true := hleft
        rw [hworld] at hleft
        exact (h.left hleft).imp id hsenders.trans
      | none =>
        obtain ⟨rfl, -, hgone⟩ := hreceives.of_none
        exact Or.inr hgone
    · obtain ⟨r', hr'⟩ := Option.ne_none_iff_exists'.mp hheard
      exact absurd (h.replied r' (h.heard r' hr')).over (hrunning hworker)
  | turn hworker =>
    rw [hworker] at hfine
    exact h.worked (hfine.step .loop) rfl rfl (hrunning hworker) nofun
  | finish hworker =>
    rw [hworker] at hfine
    exact h.endWorker (hrunning hworker) ⟨hfine.now, Or.inr hfine.result⟩
  | crash hfails hworker =>
    rw [hworker] at hfine
    exact h.endWorker (hrunning hworker) ⟨hfine.now, Or.inl ⟨rfl, hfails⟩⟩

/-- **Every step keeps the invariant.** -/
theorem LoadInv.step {s s' : LoadStream}
    (h : LoadInv crc32c config fault writer fails facade key disk s)
    (hregular : disk.entry (blobFilename config.format key) ≠ some .other)
    (hstep : LoadStep crc32c config fault writer fails key s s') :
    LoadInv crc32c config fault writer fails facade key disk s' := by
  cases hstep with
  | call hcaller hstep =>
    cases hstep with
    | call henv => exact h.called hcaller henv
    | loop => exact h.turned hcaller
  | leave hcaller => exact h.leave hcaller
  | drop hcaller => exact h.dropCaller
  | work hstep => exact h.work hregular hstep
  | refuse hfails hsubmitted hqueued =>
    have hfine := h.worker
    rw [hqueued] at hfine
    refine h.worked hfine rfl rfl ?_ fun _ => hfails
    rw [hqueued]
    exact not_false
  | @reply r hnone hreplies =>
    exact { h with
      heard := fun r' hr => absurd (hnone.symm.trans (h.heard r' hr)) nofun
      replied := fun r' hr => by
        obtain rfl := Option.some.inj hr
        exact hreplies }
  | release hrefused =>
    exact { h with
      ended := fun hended => ⟨(h.ended hended).1, rfl⟩ }

/-- Nothing was done yet. -/
theorem loadInv_start : LoadInv crc32c config fault writer fails facade key disk
    ⟨some facade.loadInto, .start, .queued, .start disk⟩ where
  caller p hp := by
    obtain rfl := Option.some.inj hp
    exact holds_loadInto facade
  written := ⟨List.prefix_refl _, nofun, fun _ => rfl⟩
  worker := rfl
  sent := rfl
  ended hended := nomatch hended
  acknowledged hne := absurd rfl hne
  heard r hr := nomatch hr
  replied r hr := nomatch hr
  refused h := nomatch h
  gone hends := hends.elim nofun nofun
  left hleft := nomatch hleft
  undisturbed hheard := absurd rfl hheard

/-- **The invariant holds in every run.** -/
theorem loadInv_of_reachable {s : LoadStream}
    (hregular : disk.entry (blobFilename config.format key) ≠ some .other)
    (h : (streamingLoad crc32c config fault writer fails facade key disk).Reachable s) :
    LoadInv crc32c config fault writer fails facade key disk s :=
  h.invariant (fun _ hs => hs ▸ loadInv_start) fun _ _ _ h hstep => h.step hregular hstep

end Together

end AtomicBlobStore
