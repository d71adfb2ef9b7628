/-
  The STREAMING ENCODER (`write_stream_envelope`), on every message sequence.

  1. **Writers** — the source writes an envelope to an atomic writer (Unix) or to a staging file
     (Windows).  `Writer` is which of the two, and `Writer.after w content log` is the world `w`
     in which the writer holds `content` and `log` has come through the channel besides.

  2. **What one write does** — `Writer.holds_write`, in a filesystem with any faults.

  3. **What the encoder does** — `holds_writeStreamEnvelope`.  The loop invariant is that the running
     checksum and the running total are those of the chunks received so far, and that the writer
     holds the header and these chunks.  Every way to stop is a constructor of `Stops`.

  4. **A given message sequence** — `Feeding env` is `env` with a channel that holds given messages
     and whose sender is gone.  With a writer that works nothing is left to chance there, so the
     induction on the messages (`returns_streamLoop`) finds the one outcome there is.

  Fragments play no part: the encoder is given a message and writes its bytes, however long, and the
  total it keeps is a natural number that is compared before it is used.  The source adds with
  overflow check, and the branch where the check fails is joined to the one where the total is too
  large, since both stop with one error.
-/
import AtomicBlobStore.Decoding
import AtomicBlobStore.Filesystem

namespace AtomicBlobStore

open BigEndian
open FsM (ask fail ofResult)

/-! ## Writers

  The two backends run the same encoder over different files.  Nothing about the encoder depends on
  which it is, so the lemmas are stated for either. -/

/-- What the source writes an envelope to. -/
inductive Writer
  /-- The atomic writer for a destination. -/
  | atomic (destination : FileName)
  /-- A staging file. -/
  | staging (path : FileName)

namespace Writer

/-- `write_all`. -/
def write : Writer → List UInt8 → FsM Unit
  | .atomic _ => Unix.writeAtomic
  | .staging path => Windows.writeStaging path

/-- The world in which the writer holds `content`, and `log` was received besides. -/
def after (writer : Writer) (w : JobWorld) (content : List UInt8)
    (log : List (Option SaveStreamMessage)) : JobWorld :=
  match writer with
  | .atomic destination =>
    { w with writer := some (destination, content), received := w.received ++ log }
  | .staging path =>
    { w with disk := w.disk.set path (some (.file content)), received := w.received ++ log }

/-- What the writer holds. -/
def content : Writer → JobWorld → Option (List UInt8)
  | .atomic _, w => w.writer.map Prod.snd
  | .staging path, w => match w.disk.entry path with
    | some (.file content) => some content
    | _ => none

/-- There is a place for what is written. -/
def Ready : Writer → JobWorld → Prop
  | .atomic _, _ => True
  | .staging _, w => w.disk.isDirectory = true

variable (writer : Writer) (w : JobWorld) (content : List UInt8)
  (log : List (Option SaveStreamMessage))

@[simp] theorem received_after : (writer.after w content log).received = w.received ++ log := by
  cases writer <;> rfl

theorem content_after (h : writer.Ready w) : writer.content (writer.after w content log) = some content := by
  cases writer with
  | atomic destination => rfl
  | staging path =>
    have hentry : (w.disk.set path (some (.file content))).entry path = some (.file content) :=
      Disk.entry_set_self h
    show (match (w.disk.set path (some (.file content))).entry path with
      | some (.file content) => some content
      | _ => none) = some content
    rw [hentry]

end Writer

/-- Setting an entry twice is setting it once. -/
theorem Disk.set_set (disk : Disk) (name : FileName) (x y : Option Node) :
    (disk.set name x).set name y = disk.set name y := by
  cases disk with
  | directory entries =>
    refine congrArg Disk.directory (funext fun n => ?_)
    by_cases h : n = name
    · simp only [if_pos h]
    · simp only [if_neg h]
  | _ => rfl

namespace Writer

variable {fault : FsCall → IoError → Prop} {C : JobWorld → Prop} {Q : Unit → JobWorld → Prop}
  {E : Abort → JobWorld → Prop} {writer : Writer} {w : JobWorld} {content : List UInt8}
  {log : List (Option SaveStreamMessage)}

/-- The writer's call for some bytes. -/
def call : Writer → List UInt8 → FsCall
  | .atomic _, bytes => .writeAtomic bytes
  | .staging path, bytes => .writeFile path bytes

/-- **One write**: the bytes are appended, or some of them are and the error is reported. -/
theorem holds_write (bytes : List UInt8) (hready : writer.Ready w)
    (hC : ∀ x, C (writer.after w x log))
    (hQ : Q () (writer.after w (content ++ bytes) log))
    (hE : ∀ source x, PlainError fault (writer.call bytes) source →
      E (.error (.io .writeEnvelope source)) (writer.after w x log)) :
    HoldsE (Fs fault) (writer.write bytes) Q E C (writer.after w content log) := by
  cases writer with
  | atomic destination =>
    refine holds_call (hC content) fun r w' henv => ?_
    obtain ⟨name, held, hwriter, henv⟩ := henv
    obtain ⟨rfl, rfl⟩ := Prod.mk.inj (Option.some.inj hwriter)
    cases r with
    | ok u =>
      have hw : w' = Writer.after (.atomic destination) w (content ++ bytes) log := henv
      rw [hw]
      exact holds_ret (hC _) hQ
    | error source =>
      obtain ⟨hplain, x, rfl⟩ := henv
      exact holds_ret (hC x) (hE source x hplain)
  | staging path =>
    refine holds_call (hC content) fun r w' henv => ?_
    obtain ⟨held, hentry, henv⟩ := henv
    rw [show (Writer.after (.staging path) w content log).disk =
      w.disk.set path (some (.file content)) from rfl, Disk.entry_set_self hready] at hentry
    obtain rfl : content = held := Node.file.inj (Option.some.inj hentry)
    have hset : ∀ x, { Writer.after (.staging path) w content log with
        disk := (w.disk.set path (some (.file content))).set path (some (.file x)) } =
        Writer.after (.staging path) w x log := by
      intro x
      rw [Disk.set_set]
      rfl
    cases r with
    | ok u =>
      have hw : w' = Writer.after (.staging path) w (content ++ bytes) log :=
        Eq.trans henv (hset (content ++ bytes))
      rw [hw]
      exact holds_ret (hC _) hQ
    | error source =>
      obtain ⟨hplain, x, hw⟩ := henv
      have hw : w' = Writer.after (.staging path) w x log := hw.trans (hset x)
      rw [hw]
      exact holds_ret (hC x) (hE source x hplain)

end Writer

/-- What came through a channel, one message more. -/
theorem Writer.after_received (writer : Writer) (w : JobWorld) (content : List UInt8)
    (log : List (Option SaveStreamMessage)) (r : Option SaveStreamMessage) :
    { writer.after w content log with
      received := (writer.after w content log).received ++ [r] } =
      writer.after w content (log ++ [r]) := by
  cases writer with
  | atomic destination => simp [Writer.after, List.append_assoc]
  | staging path => simp [Writer.after, List.append_assoc]

/-! ## The encoder

  The loop has one invariant and many ways out, and a property of what it leaves has to be true at
  each. `holds_writeStreamEnvelope` asks for it once for a complete envelope and once for a stop. -/

/-- Chunks as they come through the channel. -/
def fed (chunks : List (List UInt8)) : List (Option SaveStreamMessage) :=
  chunks.map fun chunk => some (.chunk chunk)

theorem fed_concat (chunks : List (List UInt8)) (chunk : List UInt8) :
    fed (chunks ++ [chunk]) = fed chunks ++ [some (.chunk chunk)] := List.map_append

theorem length_flatten_concat (chunks : List (List UInt8)) (chunk : List UInt8) :
    (chunks ++ [chunk]).flatten.length = chunks.flatten.length + chunk.length := by
  rw [List.flatten_append, List.length_append, List.flatten_singleton]

/-- The checksum of an envelope, run over the header first. -/
theorem envelope_running (crc32c : Crc32c) (format : BlobFormatIdentity) (payload : List UInt8) :
    envelope crc32c format payload = headerBytes format payload.length ++ payload ++
      toBeBytes 4 (crc32c.append (crc32c.checksum (headerBytes format payload.length))
        payload).toNat := by
  rw [Crc32c.checksum, crc32c.append_append]
  rfl

theorem envelopeHeader_eq (config : StoreConfig) {size : Nat} (h : size ≤ config.maximum) :
    envelopeHeader config.format size config.maximum = .ok (headerBytes config.format size) :=
  if_neg (Nat.not_lt.mpr h)

/-- What surrounds a payload that is not too large. -/
theorem envelopeParts_eq (crc32c : Crc32c) (config : StoreConfig) {payload : List UInt8}
    (h : payload.length ≤ config.maximum) :
    envelopeParts crc32c config.format payload config.maximum =
      .ok (headerBytes config.format payload.length,
        toBeBytes 4 (crc32c.append (crc32c.checksum (headerBytes config.format payload.length))
          payload).toNat) := by
  have hmax := config.maximum_valid
  have hsize : payload.length < u64Limit := by omega
  unfold envelopeParts payloadSize
  rw [if_pos hsize]
  show (envelopeHeader config.format payload.length config.maximum >>= _) = _
  rw [envelopeHeader_eq config h]
  rfl

/-- How the encoder stops short, and what it received until then.  The messages are those received by
    this attempt. -/
inductive Stops (fault : FsCall → IoError → Prop) (config : StoreConfig) (declaredLen : Nat) :
    AtomicBlobStoreError → List (Option SaveStreamMessage) → Prop
  /-- More is declared than the maximum admits. -/
  | tooLarge (h : config.maximum < declaredLen) :
      Stops fault config declaredLen (.blobTooLarge declaredLen config.maximum) []
  /-- A chunk goes beyond what was declared. -/
  | trailing (chunks : List (List UInt8)) (chunk : List UInt8)
      (h : chunks.flatten.length ≤ declaredLen)
      (hmore : declaredLen < chunks.flatten.length + chunk.length) :
      Stops fault config declaredLen (.inputHasTrailingData declaredLen)
        (fed chunks ++ [some (.chunk chunk)])
  /-- `Complete` comes too early. -/
  | early (chunks : List (List UInt8)) (h : chunks.flatten.length < declaredLen) :
      Stops fault config declaredLen (.inputEndedEarly declaredLen chunks.flatten.length)
        (fed chunks ++ [some .complete])
  /-- The channel ends without it. -/
  | cancelled (chunks : List (List UInt8)) (h : chunks.flatten.length ≤ declaredLen) :
      Stops fault config declaredLen .streamCancelled (fed chunks ++ [none])
  /-- A write failed: of the header, of the last chunk received, or of the checksum. -/
  | failed (c : FsCall) (source : IoError) (h : PlainError fault c source)
      (chunks : List (List UInt8)) (hle : chunks.flatten.length ≤ declaredLen)
      (log : List (Option SaveStreamMessage))
      (hlog : log = fed chunks ∨ log = fed chunks ++ [some .complete] ∧
        chunks.flatten.length = declaredLen) :
      Stops fault config declaredLen (.io .writeEnvelope source) log

section Encoder

variable (crc32c : Crc32c) (config : StoreConfig) (declaredLen : Nat) (writer : Writer)

/-- The head of a turn: total, checksum and content are those of the chunks so far. -/
def Encoded (w : JobWorld) (s : UInt32 × Nat) (w' : JobWorld) : Prop :=
  ∃ chunks : List (List UInt8), chunks.flatten.length ≤ declaredLen ∧
    s = (crc32c.append (crc32c.checksum (headerBytes config.format declaredLen)) chunks.flatten,
      chunks.flatten.length) ∧
    w' = writer.after w (headerBytes config.format declaredLen ++ chunks.flatten) (fed chunks)

variable {crc32c config declaredLen writer} {fault : FsCall → IoError → Prop} {w : JobWorld}
  {C : JobWorld → Prop} {Q : Unit → JobWorld → Prop} {E : Abort → JobWorld → Prop}

/-- A stop of the encoder: nothing but the writer and the log has changed. -/
def StoppedEncoder (fault : FsCall → IoError → Prop) (config : StoreConfig) (declaredLen : Nat)
    (writer : Writer) (w : JobWorld) : Abort → JobWorld → Prop
  | .error e, w' => ∃ content log, w' = writer.after w content log ∧
      Stops fault config declaredLen e log
  | .panic, _ => False

/-- **One turn** keeps the invariant, completes the envelope, or stops. -/
theorem holds_streamTurn (hmax : declaredLen ≤ config.maximum) (hready : writer.Ready w)
    (hC : ∀ content log, C (writer.after w content log)) (s : UInt32 × Nat) (w' : JobWorld)
    (hs : Encoded crc32c config declaredLen writer w s w') :
    HoldsE (Fs fault) (streamTurn crc32c writer.write declaredLen s)
      (fun r w' => r.elim (fun s => Encoded crc32c config declaredLen writer w s w') fun _ =>
        ∃ chunks : List (List UInt8), chunks.flatten.length = declaredLen ∧
          w' = writer.after w (envelope crc32c config.format chunks.flatten)
            (fed chunks ++ [some .complete]))
      (StoppedEncoder fault config declaredLen writer w) C w' := by
  obtain ⟨chunks, hle, rfl, rfl⟩ := hs
  refine holds_call (hC _ _) fun r w' henv => ?_
  obtain rfl : w' = _ := henv
  rw [Writer.after_received]
  cases r with
  | none => exact holds_ret (hC _ _) ⟨_, _, rfl, .cancelled chunks hle⟩
  | some message =>
    cases message with
    | chunk chunk =>
      have hlimit := config.maximum_valid
      show Holds _ (ExceptT.run (if _ then _ else _)) _ _ _
      split
      · -- too much: the sum cannot wrap around before it exceeds what was declared
        rename_i hover
        refine holds_ret (hC _ _) ⟨_, _, rfl, .trailing chunks chunk hle ?_⟩
        have : chunks.flatten.length + chunk.length ≥ u64Limit ∨
            chunks.flatten.length + chunk.length > declaredLen := hover
        omega
      · rename_i hfits
        -- the chunk is within what was declared, and is appended to what was written
        have hfits : ¬(chunks.flatten.length + chunk.length ≥ u64Limit ∨
            chunks.flatten.length + chunk.length > declaredLen) := hfits
        have hle' : (chunks ++ [chunk]).flatten.length ≤ declaredLen := by
          rw [length_flatten_concat]
          omega
        refine holdsE_bind (Writer.holds_write chunk hready (fun x => hC x _) ?_ ?_)
        · refine holds_ret (hC _ _) ⟨chunks ++ [chunk], hle', ?_, ?_⟩
          · rw [crc32c.append_append, length_flatten_concat, List.flatten_append,
              List.flatten_singleton]
          · rw [fed_concat, List.flatten_append, List.flatten_singleton, List.append_assoc]
        · intro source x hplain
          exact ⟨x, _, rfl, .failed _ source hplain (chunks ++ [chunk]) hle' _
            (Or.inl (fed_concat chunks chunk).symm)⟩
    | complete =>
      show Holds _ (ExceptT.run (if _ then _ else _)) _ _ _
      split
      · rename_i hne
        refine holds_ret (hC _ _) ⟨_, _, rfl, .early chunks ?_⟩
        have : chunks.flatten.length ≠ declaredLen := hne
        omega
      · rename_i heq
        -- all that was declared has come, so the footer makes it an envelope
        have heq : chunks.flatten.length = declaredLen := Decidable.not_not.mp heq
        refine holdsE_bind (Writer.holds_write _ hready (fun x => hC x _) ?_ ?_)
        · refine holds_ret (hC _ _) ⟨chunks, heq, ?_⟩
          rw [envelope_running, heq]
        · intro source x hplain
          exact ⟨x, _, rfl, .failed _ source hplain chunks hle _ (Or.inr ⟨rfl, heq⟩)⟩

/-- **The streaming encoder**: a complete envelope of what was received, or a stop. -/
theorem holds_writeStreamEnvelope (hready : writer.Ready w)
    (hC : ∀ content log, C (writer.after w content log)) :
    HoldsE (Fs fault) (writeStreamEnvelope crc32c config writer.write declaredLen)
      (fun _ w' => declaredLen ≤ config.maximum ∧
        ∃ chunks : List (List UInt8), chunks.flatten.length = declaredLen ∧
          w' = writer.after w (envelope crc32c config.format chunks.flatten)
            (fed chunks ++ [some .complete]))
      (StoppedEncoder fault config declaredLen writer w) C (writer.after w [] []) := by
  unfold writeStreamEnvelope
  by_cases hlarge : config.maximum < declaredLen
  · rw [envelopeHeader, if_pos hlarge]
    exact holds_ret (hC _ _) ⟨[], [], rfl, .tooLarge hlarge⟩
  · have hmax : declaredLen ≤ config.maximum := Nat.le_of_not_lt hlarge
    rw [envelopeHeader_eq config hmax]
    refine holdsE_bind (holdsE_pure (hC _ _) ?_)
    refine holdsE_bind (Writer.holds_write _ hready (fun x => hC x _) ?_ ?_)
    · refine (holdsE_iterate (Encoded crc32c config declaredLen writer w) ?_ ?_
        (holds_streamTurn hmax hready hC)).mono (fun _ _ _ h => ⟨hmax, h⟩) (fun _ _ _ h => h)
        fun _ h => h
      · refine ⟨[], Nat.zero_le _, ?_, ?_⟩
        · rw [List.flatten_nil, ← List.append_nil (headerBytes config.format declaredLen),
            Crc32c.checksum, crc32c.append_append, List.append_nil, List.append_nil]
          rfl
        · rw [List.flatten_nil, List.append_nil]
          rfl
      · rintro s w' ⟨chunks, -, -, rfl⟩
        exact hC _ _
    · intro source x hplain
      exact ⟨x, [], rfl, .failed _ source hplain [] (Nat.zero_le _) _ (Or.inl rfl)⟩

end Encoder

/-! ## A given message sequence

  Here the writer works and the messages are known, so the outcome is a function of them.  It is found
  by running the encoder over them, and no other run can end differently, because nothing it asks has
  two answers. -/

/-- No call fails but for a reason that the directory shows. -/
def Faultless : FsCall → IoError → Prop := fun _ _ => False

/-- `env`, with a channel that holds these messages and whose sender is gone. -/
def Feeding (env : Environment FsInterface JobWorld) :
    Environment FsInterface (JobWorld × List SaveStreamMessage)
  | .recv, (w, messages), r, (w', rest) =>
    env .recv w r w' ∧ r = messages.head? ∧ rest = messages.tail
  | c, (w, messages), r, (w', rest) => env c w r w' ∧ rest = messages

/-- Chunks as messages. -/
def feed (chunks : List (List UInt8)) : List SaveStreamMessage := chunks.map .chunk

/-- The calls of the encoder. -/
def Encoding : FsCall → Prop
  | .recv => True
  | .writeAtomic _ => True
  | .writeFile .. => True
  | _ => False

/-- Every call of the encoder has one answer. -/
theorem decides_feeding : Decides (Feeding (Fs Faultless)) Encoding := by
  rintro c hc ⟨w, messages⟩ r ⟨w', rest⟩ r' ⟨w'', rest'⟩ h h'
  cases c with
  | recv =>
    obtain ⟨hw, hr, hrest⟩ := h
    obtain ⟨hw', hr', hrest'⟩ := h'
    obtain rfl : r = r' := hr.trans hr'.symm
    obtain rfl : w' = _ := hw
    obtain rfl : w'' = _ := hw'
    exact ⟨rfl, Prod.ext rfl (hrest.trans hrest'.symm)⟩
  | writeAtomic bytes =>
    obtain ⟨⟨name, content, hwriter, hw⟩, hrest⟩ := h
    obtain ⟨⟨name', content', hwriter', hw'⟩, hrest'⟩ := h'
    obtain ⟨rfl, rfl⟩ := Prod.mk.inj (Option.some.inj (hwriter.symm.trans hwriter'))
    cases r with
    | error e => exact absurd hw.1.2 not_false
    | ok u =>
      cases r' with
      | error e => exact absurd hw'.1.2 not_false
      | ok u' =>
        have hw : w' = _ := hw
        have hw' : w'' = _ := hw'
        exact ⟨rfl, Prod.ext (hw.trans hw'.symm) (hrest.trans hrest'.symm)⟩
  | writeFile path bytes =>
    obtain ⟨⟨content, hentry, hw⟩, hrest⟩ := h
    obtain ⟨⟨content', hentry', hw'⟩, hrest'⟩ := h'
    obtain rfl : content = content' :=
      Node.file.inj (Option.some.inj (hentry.symm.trans hentry'))
    cases r with
    | error e => exact absurd hw.1.2 not_false
    | ok u =>
      cases r' with
      | error e => exact absurd hw'.1.2 not_false
      | ok u' =>
        have hw : w' = _ := hw
        have hw' : w'' = _ := hw'
        exact ⟨rfl, Prod.ext (hw.trans hw'.symm) (hrest.trans hrest'.symm)⟩
  | _ => exact absurd hc not_false

/-- Every message sequence ends, or comes to the message that decides. -/
theorem messages_cases (declaredLen : Nat) (messages : List SaveStreamMessage) :
    (∃ chunks, messages = feed chunks ∧ chunks.flatten.length ≤ declaredLen) ∨
    (∃ chunks later, messages = feed chunks ++ .complete :: later ∧
      chunks.flatten.length ≤ declaredLen) ∨
    ∃ chunks chunk later, messages = feed chunks ++ .chunk chunk :: later ∧
      chunks.flatten.length ≤ declaredLen ∧
      declaredLen < chunks.flatten.length + chunk.length := by
  induction messages generalizing declaredLen with
  | nil => exact Or.inl ⟨[], rfl, Nat.zero_le _⟩
  | cons message messages ih =>
    cases message with
    | complete => exact Or.inr (Or.inl ⟨[], messages, rfl, Nat.zero_le _⟩)
    | chunk chunk =>
      by_cases hfits : chunk.length ≤ declaredLen
      · have hcons : ∀ chunks : List (List UInt8),
            (chunk :: chunks).flatten.length = chunk.length + chunks.flatten.length := by
          intro chunks
          rw [List.flatten_cons, List.length_append]
        rcases ih (declaredLen - chunk.length) with ⟨chunks, rfl, hle⟩ |
          ⟨chunks, later, rfl, hle⟩ | ⟨chunks, more, later, rfl, hle, hmore⟩
        · refine Or.inl ⟨chunk :: chunks, rfl, ?_⟩
          rw [hcons]
          omega
        · refine Or.inr (Or.inl ⟨chunk :: chunks, later, rfl, ?_⟩)
          rw [hcons]
          omega
        · refine Or.inr (Or.inr ⟨chunk :: chunks, more, later, rfl, ?_, ?_⟩)
          · rw [hcons]
            omega
          · rw [hcons]
            omega
      · refine Or.inr (Or.inr ⟨[], chunk, messages, rfl, Nat.zero_le _, ?_⟩)
        show declaredLen < 0 + chunk.length
        omega

/-- The first `Complete` of a message sequence is in one place only. -/
theorem feed_complete_inj : ∀ {front front' : List (List UInt8)} {later later' : List SaveStreamMessage},
    feed front ++ .complete :: later = feed front' ++ .complete :: later' →
      front = front' ∧ later = later' := by
  intro front
  induction front with
  | nil =>
    intro front' later later' h
    cases front' with
    | nil => exact ⟨rfl, (List.cons.inj h).2⟩
    | cons chunk front' => nomatch (List.cons.inj h).1
  | cons chunk front ih =>
    intro front' later later' h
    cases front' with
    | nil => nomatch (List.cons.inj h).1
    | cons chunk' front' =>
      obtain ⟨hchunk, hrest⟩ := List.cons.inj h
      obtain ⟨rfl, hlater⟩ := ih hrest
      rw [SaveStreamMessage.chunk.inj hchunk]
      exact ⟨rfl, hlater⟩

section Fed

variable (crc32c : Crc32c) (config : StoreConfig) (declaredLen : Nat) (writer : Writer)

/-- A writer is asked to write, and nothing else. -/
theorem calls_write (bytes : List UInt8) : (writer.write bytes).run.Calls Encoding := by
  cases writer with
  | atomic destination =>
    refine ProgE.calls_bind (ProgE.calls_ask trivial) fun r => ?_
    cases r with
    | ok u => exact ProgE.calls_pure _
    | error e => exact ProgE.calls_throw _
  | staging path =>
    refine ProgE.calls_bind (ProgE.calls_ask trivial) fun r => ?_
    cases r with
    | ok u => exact ProgE.calls_pure _
    | error e => exact ProgE.calls_throw _

/-- A turn receives one message and writes at most once. -/
theorem calls_streamTurn (s : UInt32 × Nat) :
    (streamTurn crc32c writer.write declaredLen s).run.Calls Encoding := by
  refine ProgE.calls_bind (ProgE.calls_ask trivial) fun r => ?_
  rcases r with _ | _ | _
  · exact ProgE.calls_throw _
  · rename_i chunk
    show Prog.Calls _ (ExceptT.run (if _ then _ else _))
    split
    · exact ProgE.calls_throw _
    · exact ProgE.calls_bind (calls_write writer _) fun _ => ProgE.calls_pure _
  · show Prog.Calls _ (ExceptT.run (if _ then _ else _))
    split
    · exact ProgE.calls_throw _
    · exact ProgE.calls_bind (calls_write writer _) fun _ => ProgE.calls_pure _

/-- The encoder only receives and writes. -/
theorem calls_writeStreamEnvelope :
    (writeStreamEnvelope crc32c config writer.write declaredLen).run.Calls Encoding := by
  refine ProgE.calls_bind ?_ fun header => ?_
  · cases envelopeHeader config.format declaredLen config.maximum with
    | ok header => exact ProgE.calls_pure _
    | error e => exact ProgE.calls_throw _
  · refine ProgE.calls_bind (calls_write writer header) fun _ => ?_
    exact ProgE.calls_iterate (calls_streamTurn crc32c declaredLen writer)

variable {crc32c config declaredLen writer} {w : JobWorld} {messages : List SaveStreamMessage}

/-- A writer that works appends the bytes. -/
theorem returns_write (hready : writer.Ready w) (content bytes : List UInt8)
    (log : List (Option SaveStreamMessage)) :
    Returns (Feeding (Fs Faultless)) (writer.write bytes).run (writer.after w content log, messages)
      (.ok ()) (writer.after w (content ++ bytes) log, messages) := by
  cases writer with
  | atomic destination =>
    exact returnsE_ask (r := Except.ok ()) ⟨⟨destination, content, rfl, rfl⟩, rfl⟩ returns_ret
  | staging path =>
    have hset : Writer.after (.staging path) w (content ++ bytes) log =
        { Writer.after (.staging path) w content log with
          disk := (w.disk.set path (some (.file content))).set path
            (some (.file (content ++ bytes))) } := by
      rw [Disk.set_set]
      rfl
    exact returnsE_ask (r := Except.ok ()) ⟨⟨content, Disk.entry_set_self hready, hset⟩, rfl⟩
      returns_ret

/-- A message is received. -/
theorem returns_recv {β : Type} {f : Option SaveStreamMessage → FsM β} {x : Except Abort β}
    {v : JobWorld × List SaveStreamMessage} (content : List UInt8)
    (log : List (Option SaveStreamMessage))
    (h : Returns (Feeding (Fs Faultless)) (f messages.head?).run
      (writer.after w content (log ++ [messages.head?]), messages.tail) x v) :
    Returns (Feeding (Fs Faultless)) (ask .recv >>= f).run (writer.after w content log, messages)
      x v := by
  refine returnsE_ask (r := messages.head?) ⟨?_, rfl, rfl⟩ h
  exact (Writer.after_received writer w content log _).symm

/-- The loop of the encoder, after these chunks. -/
def streamLoop (crc32c : Crc32c) (config : StoreConfig) (declaredLen : Nat) (writer : Writer)
    (chunks : List (List UInt8)) : Prog FsInterface (Except Abort Unit) :=
  (ProgE.iterate (streamTurn crc32c writer.write declaredLen)
    (crc32c.append (crc32c.checksum (headerBytes config.format declaredLen)) chunks.flatten,
      chunks.flatten.length)).run

variable (crc32c config writer w) in
/-- The world of the loop, after these chunks. -/
def midway (declaredLen : Nat) (chunks : List (List UInt8)) : JobWorld :=
  writer.after w (headerBytes config.format declaredLen ++ chunks.flatten) (fed chunks)

/-- A chunk that fits is written. -/
theorem returns_chunk (hready : writer.Ready w) (hmax : declaredLen ≤ config.maximum)
    {chunks : List (List UInt8)} {chunk : List UInt8}
    (hfits : (chunks ++ [chunk]).flatten.length ≤ declaredLen) {x : Except Abort Unit}
    {v : JobWorld × List SaveStreamMessage}
    (h : Returns (Feeding (Fs Faultless)) (streamLoop crc32c config declaredLen writer (chunks ++ [chunk]))
      (midway config writer w declaredLen (chunks ++ [chunk]), messages) x v) :
    Returns (Feeding (Fs Faultless)) (streamLoop crc32c config declaredLen writer chunks)
      (midway config writer w declaredLen chunks, .chunk chunk :: messages) x v := by
  have hlimit := config.maximum_valid
  rw [length_flatten_concat] at hfits
  have hmidway : midway config writer w declaredLen (chunks ++ [chunk]) =
      writer.after w (headerBytes config.format declaredLen ++ chunks.flatten ++ chunk)
        (fed chunks ++ [some (.chunk chunk)]) := by
    rw [midway, fed_concat, List.flatten_append, List.flatten_singleton, List.append_assoc]
  have hturn : Returns (Feeding (Fs Faultless))
      (streamTurn crc32c writer.write declaredLen (crc32c.append (crc32c.checksum
        (headerBytes config.format declaredLen)) chunks.flatten, chunks.flatten.length)).run
      (midway config writer w declaredLen chunks, .chunk chunk :: messages)
      (.ok (.inl (crc32c.append (crc32c.append (crc32c.checksum
        (headerBytes config.format declaredLen)) chunks.flatten) chunk,
        chunks.flatten.length + chunk.length)))
      (midway config writer w declaredLen (chunks ++ [chunk]), messages) := by
    refine returns_recv _ _ ?_
    show Returns _ (ExceptT.run (if _ then _ else _)) _ _ _
    rw [if_neg (by rintro (h | h) <;> omega), hmidway]
    exact returnsE_bind (returns_write hready _ _ _) returns_ret
  refine returnsE_next hturn ?_
  rw [crc32c.append_append]
  rw [streamLoop, length_flatten_concat, List.flatten_append, List.flatten_singleton] at h
  exact h

/-- Chunks that fit are written. -/
theorem returns_chunks (hready : writer.Ready w) (hmax : declaredLen ≤ config.maximum)
    {x : Except Abort Unit} {v : JobWorld × List SaveStreamMessage}
    (more : List (List UInt8)) : ∀ chunks : List (List UInt8),
    (chunks ++ more).flatten.length ≤ declaredLen →
    Returns (Feeding (Fs Faultless)) (streamLoop crc32c config declaredLen writer (chunks ++ more))
      (midway config writer w declaredLen (chunks ++ more), messages) x v →
    Returns (Feeding (Fs Faultless)) (streamLoop crc32c config declaredLen writer chunks)
      (midway config writer w declaredLen chunks, feed more ++ messages) x v := by
  induction more with
  | nil =>
    intro chunks hfits h
    rwa [List.append_nil] at h
  | cons chunk more ih =>
    intro chunks hfits h
    have hassoc : chunks ++ chunk :: more = chunks ++ [chunk] ++ more := by
      rw [List.append_assoc, List.singleton_append]
    rw [hassoc] at hfits h
    refine returns_chunk hready hmax ?_ (ih (chunks ++ [chunk]) hfits h)
    rw [List.flatten_append, List.length_append] at hfits
    exact Nat.le_of_add_right_le hfits

/-- The encoder before its first message. -/
theorem returns_encoder (hready : writer.Ready w) (hmax : declaredLen ≤ config.maximum)
    {x : Except Abort Unit} {v : JobWorld × List SaveStreamMessage} {chunks : List (List UInt8)}
    (hfits : chunks.flatten.length ≤ declaredLen)
    (h : Returns (Feeding (Fs Faultless)) (streamLoop crc32c config declaredLen writer chunks)
      (midway config writer w declaredLen chunks, messages) x v) :
    Returns (Feeding (Fs Faultless)) (writeStreamEnvelope crc32c config writer.write declaredLen).run
      (writer.after w [] [], feed chunks ++ messages) x v := by
  unfold writeStreamEnvelope
  rw [envelopeHeader_eq config hmax]
  refine returnsE_bind returns_ret (returnsE_bind (returns_write hready _ _ _) ?_)
  have hloop := returns_chunks hready hmax chunks [] hfits h
  rw [streamLoop, midway, List.flatten_nil, List.append_nil, Crc32c.checksum, crc32c.append_append,
    List.append_nil] at hloop
  exact hloop

/-- A `Complete` after what was declared. -/
theorem returns_accepted (hready : writer.Ready w) (hmax : declaredLen ≤ config.maximum)
    (chunks : List (List UInt8)) (later : List SaveStreamMessage)
    (h : chunks.flatten.length = declaredLen) :
    Returns (Feeding (Fs Faultless)) (writeStreamEnvelope crc32c config writer.write declaredLen).run
      (writer.after w [] [], feed chunks ++ .complete :: later) (.ok ())
      (writer.after w (envelope crc32c config.format chunks.flatten) (fed chunks ++ [some .complete]),
        later) := by
  refine returns_encoder hready hmax (Nat.le_of_eq h) (returnsE_last (returns_recv _ _ ?_))
  show Returns _ (ExceptT.run (if _ then _ else _)) _ _ _
  rw [if_neg (Decidable.not_not.mpr h), envelope_running, h]
  exact returnsE_bind (returns_write hready _ _ _) returns_ret

/-- A `Complete` too early. -/
theorem returns_early (hready : writer.Ready w) (hmax : declaredLen ≤ config.maximum)
    (chunks : List (List UInt8)) (later : List SaveStreamMessage)
    (h : chunks.flatten.length < declaredLen) :
    Returns (Feeding (Fs Faultless)) (writeStreamEnvelope crc32c config writer.write declaredLen).run
      (writer.after w [] [], feed chunks ++ .complete :: later)
      (.error (.error (.inputEndedEarly declaredLen chunks.flatten.length)))
      (writer.after w (headerBytes config.format declaredLen ++ chunks.flatten)
        (fed chunks ++ [some .complete]), later) := by
  refine returns_encoder hready hmax (Nat.le_of_lt h) (returnsE_stop (returns_recv _ _ ?_))
  show Returns _ (ExceptT.run (if _ then _ else _)) _ _ _
  rw [if_pos (Nat.ne_of_lt h)]
  exact returns_ret

/-- A chunk too many. -/
theorem returns_trailing (hready : writer.Ready w) (hmax : declaredLen ≤ config.maximum)
    (chunks : List (List UInt8)) (chunk : List UInt8) (later : List SaveStreamMessage)
    (h : chunks.flatten.length ≤ declaredLen)
    (hmore : declaredLen < chunks.flatten.length + chunk.length) :
    Returns (Feeding (Fs Faultless)) (writeStreamEnvelope crc32c config writer.write declaredLen).run
      (writer.after w [] [], feed chunks ++ .chunk chunk :: later)
      (.error (.error (.inputHasTrailingData declaredLen)))
      (writer.after w (headerBytes config.format declaredLen ++ chunks.flatten)
        (fed chunks ++ [some (.chunk chunk)]), later) := by
  refine returns_encoder hready hmax h (returnsE_stop (returns_recv _ _ ?_))
  show Returns _ (ExceptT.run (if _ then _ else _)) _ _ _
  rw [if_pos (Or.inr hmore)]
  exact returns_ret

/-- The end of the messages. -/
theorem returns_cancelled (hready : writer.Ready w) (hmax : declaredLen ≤ config.maximum)
    (chunks : List (List UInt8)) (h : chunks.flatten.length ≤ declaredLen) :
    Returns (Feeding (Fs Faultless)) (writeStreamEnvelope crc32c config writer.write declaredLen).run
      (writer.after w [] [], feed chunks) (.error (.error .streamCancelled))
      (writer.after w (headerBytes config.format declaredLen ++ chunks.flatten)
        (fed chunks ++ [none]), []) := by
  rw [← List.append_nil (feed chunks)]
  exact returns_encoder hready hmax h (returnsE_stop (returns_recv _ _ returns_ret))

/-- A size that is refused. -/
theorem returns_tooLarge (hmax : config.maximum < declaredLen) :
    Returns (Feeding (Fs Faultless)) (writeStreamEnvelope crc32c config writer.write declaredLen).run
      (writer.after w [] [], messages)
      (.error (.error (.blobTooLarge declaredLen config.maximum)))
      (writer.after w [] [], messages) := by
  unfold writeStreamEnvelope
  rw [envelopeHeader, if_pos hmax]
  exact returns_ret

end Fed

/-- **What the encoder decides**: its outcome, the messages it leaves in the channel and what it has
    written, for a declared length and a message sequence. -/
structure Decided (crc32c : Crc32c) (config : StoreConfig) (declaredLen : Nat)
    (messages : List SaveStreamMessage) (outcome : Except Abort Unit)
    (rest : List SaveStreamMessage) (written : List UInt8) : Prop where
  /-- `Ok` exactly when the chunks before the first `Complete` are what was declared. -/
  accepted : outcome = .ok () ↔ declaredLen ≤ config.maximum ∧ ∃ chunks later,
    messages = feed chunks ++ .complete :: later ∧ chunks.flatten.length = declaredLen
  /-- Then what was written is the encoder's envelope, and what follows is left in the channel. -/
  encoded : outcome = .ok () → ∀ chunks later, messages = feed chunks ++ .complete :: later →
    encodeEnvelope crc32c config.format chunks.flatten config.maximum = .ok written ∧ rest = later
  /-- What is declared too large is refused, with nothing received. -/
  tooLarge : config.maximum < declaredLen →
    outcome = .error (.error (.blobTooLarge declaredLen config.maximum)) ∧ written = [] ∧
      rest = messages
  /-- The total is a natural number: it does not wrap around. -/
  trailing : declaredLen ≤ config.maximum → ∀ chunks chunk later,
    messages = feed chunks ++ .chunk chunk :: later → chunks.flatten.length ≤ declaredLen →
    declaredLen < chunks.flatten.length + chunk.length →
    outcome = .error (.error (.inputHasTrailingData declaredLen)) ∧ rest = later
  /-- A `Complete` that is too early ends the stream, -/
  early : declaredLen ≤ config.maximum → ∀ chunks later,
    messages = feed chunks ++ .complete :: later → chunks.flatten.length < declaredLen →
    outcome = .error (.error (.inputEndedEarly declaredLen chunks.flatten.length)) ∧ rest = later
  /-- and so does the end of the channel. -/
  cancelled : declaredLen ≤ config.maximum → ∀ chunks, messages = feed chunks →
    chunks.flatten.length ≤ declaredLen → outcome = .error (.error .streamCancelled) ∧ rest = []
  /-- There is no other outcome. -/
  only : outcome = .ok () ∨ outcome = .error (.error (.blobTooLarge declaredLen config.maximum)) ∨
    outcome = .error (.error (.inputHasTrailingData declaredLen)) ∨
    (∃ actual, outcome = .error (.error (.inputEndedEarly declaredLen actual))) ∨
    outcome = .error (.error .streamCancelled)

section Verdict

variable (crc32c : Crc32c) (config : StoreConfig) (declaredLen : Nat) {writer : Writer}
  {w : JobWorld}

/-- Some run of the encoder ends, whatever the messages are. -/
theorem returns_some (hready : writer.Ready w) (messages : List SaveStreamMessage) :
    ∃ outcome written log rest,
      Returns (Feeding (Fs Faultless))
        (writeStreamEnvelope crc32c config writer.write declaredLen).run
        (writer.after w [] [], messages) outcome (writer.after w written log, rest) := by
  by_cases hmax : declaredLen ≤ config.maximum
  · rcases messages_cases declaredLen messages with ⟨chunks, rfl, h⟩ | ⟨chunks, later, rfl, h⟩ |
      ⟨chunks, chunk, later, rfl, h, hmore⟩
    · exact ⟨_, _, _, _, returns_cancelled hready hmax chunks h⟩
    · rcases Nat.eq_or_lt_of_le h with h | h
      · exact ⟨_, _, _, _, returns_accepted hready hmax chunks later h⟩
      · exact ⟨_, _, _, _, returns_early hready hmax chunks later h⟩
    · exact ⟨_, _, _, _, returns_trailing hready hmax chunks chunk later h hmore⟩
  · exact ⟨_, _, _, _, returns_tooLarge (Nat.lt_of_not_le hmax)⟩

/-- **The streaming encoder decides every message sequence**: all its runs end, and end alike, in the
    outcome that the messages and the declared length call for.  The writer works here; what happens
    where it does not is `holds_writeStreamEnvelope`. -/
theorem stream_encoding_decides (hready : writer.Ready w) (messages : List SaveStreamMessage) :
    ∃ n outcome written log rest,
      Run (Feeding (Fs Faultless)) n
        (writeStreamEnvelope crc32c config writer.write declaredLen).run
        (writer.after w [] [], messages) (.ret outcome) (writer.after w written log, rest) ∧
      (∀ m p v, Run (Feeding (Fs Faultless)) m
          (writeStreamEnvelope crc32c config writer.write declaredLen).run
          (writer.after w [] [], messages) p v →
        m ≤ n ∧ ∀ outcome', p = .ret outcome' →
          outcome' = outcome ∧ v = (writer.after w written log, rest)) ∧
      writer.content (writer.after w written log) = some written ∧
      Decided crc32c config declaredLen messages outcome rest written := by
  obtain ⟨outcome, written, log, rest, n, hrun⟩ :=
    returns_some crc32c config declaredLen hready messages
  have hunique : ∀ m p v, Run (Feeding (Fs Faultless)) m
      (writeStreamEnvelope crc32c config writer.write declaredLen).run
      (writer.after w [] [], messages) p v →
      m ≤ n ∧ ∀ outcome', p = .ret outcome' →
        outcome' = outcome ∧ v = (writer.after w written log, rest) :=
    fun m p v hrun' => hrun.unique decides_feeding
      (calls_writeStreamEnvelope crc32c config declaredLen writer) hrun'
  have hcontent := writer.content_after w written log hready
  -- any other run that ends has the same outcome, leaves the same messages and wrote the same
  have hsame : ∀ {outcome' written' log' rest'}, Returns (Feeding (Fs Faultless))
      (writeStreamEnvelope crc32c config writer.write declaredLen).run
      (writer.after w [] [], messages) outcome' (writer.after w written' log', rest') →
      outcome = outcome' ∧ rest = rest' ∧ written = written' := by
    rintro outcome' written' log' rest' ⟨m, hrun'⟩
    obtain ⟨rfl, hv⟩ := (hunique m _ _ hrun').2 _ rfl
    obtain ⟨hw, hrest⟩ := Prod.mk.inj hv
    have hcontent' := writer.content_after w written' log' hready
    rw [hw, hcontent] at hcontent'
    exact ⟨rfl, hrest.symm, Option.some.inj hcontent'⟩
  have haccepted : declaredLen ≤ config.maximum → ∀ chunks later,
      messages = feed chunks ++ .complete :: later → chunks.flatten.length = declaredLen →
      outcome = .ok () ∧ rest = later ∧ written = envelope crc32c config.format chunks.flatten :=
    fun hmax chunks later h hlen => hsame (h ▸ returns_accepted hready hmax chunks later hlen)
  have hearly : declaredLen ≤ config.maximum → ∀ chunks later,
      messages = feed chunks ++ .complete :: later → chunks.flatten.length < declaredLen →
      outcome = .error (.error (.inputEndedEarly declaredLen chunks.flatten.length)) ∧
        rest = later ∧ _ :=
    fun hmax chunks later h hlen => hsame (h ▸ returns_early hready hmax chunks later hlen)
  have htrailing : declaredLen ≤ config.maximum → ∀ chunks chunk later,
      messages = feed chunks ++ .chunk chunk :: later → chunks.flatten.length ≤ declaredLen →
      declaredLen < chunks.flatten.length + chunk.length →
      outcome = .error (.error (.inputHasTrailingData declaredLen)) ∧ rest = later ∧ _ :=
    fun hmax chunks chunk later h hlen hmore =>
      hsame (h ▸ returns_trailing hready hmax chunks chunk later hlen hmore)
  have hcancelled : declaredLen ≤ config.maximum → ∀ chunks, messages = feed chunks →
      chunks.flatten.length ≤ declaredLen →
      outcome = .error (.error .streamCancelled) ∧ rest = [] ∧ _ :=
    fun hmax chunks h hlen => hsame (h ▸ returns_cancelled hready hmax chunks hlen)
  have htooLarge : config.maximum < declaredLen →
      outcome = .error (.error (.blobTooLarge declaredLen config.maximum)) ∧ rest = messages ∧
        written = [] := fun hmax => hsame (returns_tooLarge hmax)
  have hlimit := config.maximum_valid
  -- an accepted sequence has its `Complete` where the total is what was declared
  have hfound : outcome = .ok () → declaredLen ≤ config.maximum ∧ ∃ chunks later,
      messages = feed chunks ++ .complete :: later ∧ chunks.flatten.length = declaredLen := by
    intro hok
    by_cases hmax : declaredLen ≤ config.maximum
    · refine ⟨hmax, ?_⟩
      rcases messages_cases declaredLen messages with ⟨chunks, h, hle⟩ | ⟨chunks, later, h, hle⟩ |
        ⟨chunks, chunk, later, h, hle, hmore⟩
      · nomatch hok.symm.trans (hcancelled hmax chunks h hle).1
      · rcases Nat.eq_or_lt_of_le hle with hlen | hlen
        · exact ⟨chunks, later, h, hlen⟩
        · nomatch hok.symm.trans (hearly hmax chunks later h hlen).1
      · nomatch hok.symm.trans (htrailing hmax chunks chunk later h hle hmore).1
    · nomatch hok.symm.trans (htooLarge (Nat.lt_of_not_le hmax)).1
  refine ⟨n, outcome, written, log, rest, hrun, hunique, hcontent, ?_⟩
  constructor
  case accepted =>
    refine ⟨hfound, ?_⟩
    rintro ⟨hmax, chunks, later, h, hlen⟩
    exact (haccepted hmax chunks later h hlen).1
  case encoded =>
    intro hok chunks later h
    obtain ⟨hmax, front, back, h', hlen⟩ := hfound hok
    obtain ⟨rfl, rfl⟩ := feed_complete_inj (h.symm.trans h')
    obtain ⟨-, hrest, hwritten⟩ := haccepted hmax chunks later h hlen
    refine ⟨?_, hrest⟩
    rw [encodeEnvelope_eq crc32c config.format chunks.flatten (by omega), if_neg (by omega),
      hwritten]
  case tooLarge =>
    intro hmax
    obtain ⟨hout, hrest, hwritten⟩ := htooLarge hmax
    exact ⟨hout, hwritten, hrest⟩
  case trailing =>
    intro hmax chunks chunk later h hlen hmore
    obtain ⟨hout, hrest, -⟩ := htrailing hmax chunks chunk later h hlen hmore
    exact ⟨hout, hrest⟩
  case early =>
    intro hmax chunks later h hlen
    obtain ⟨hout, hrest, -⟩ := hearly hmax chunks later h hlen
    exact ⟨hout, hrest⟩
  case cancelled =>
    intro hmax chunks h hlen
    obtain ⟨hout, hrest, -⟩ := hcancelled hmax chunks h hlen
    exact ⟨hout, hrest⟩
  case only =>
    by_cases hmax : declaredLen ≤ config.maximum
    · rcases messages_cases declaredLen messages with ⟨chunks, h, hle⟩ | ⟨chunks, later, h, hle⟩ |
        ⟨chunks, chunk, later, h, hle, hmore⟩
      · exact Or.inr (Or.inr (Or.inr (Or.inr (hcancelled hmax chunks h hle).1)))
      · rcases Nat.eq_or_lt_of_le hle with hlen | hlen
        · exact Or.inl (haccepted hmax chunks later h hlen).1
        · exact Or.inr (Or.inr (Or.inr (Or.inl ⟨_, (hearly hmax chunks later h hlen).1⟩)))
      · exact Or.inr (Or.inr (Or.inl (htrailing hmax chunks chunk later h hle hmore).1))
    · exact Or.inr (Or.inl (htooLarge (Nat.lt_of_not_le hmax)).1)

/-- The theorem for one chunk, its `Complete` and a message that stays in the channel. -/
theorem stream_encoding_decides_sample :
    ∃ outcome rest written, Decided crc32cReference ⟨testFormat, 16, 1, by decide, by decide⟩ 1
      [.chunk [7], .complete, .chunk [8]] outcome rest written ∧ outcome = .ok () ∧
      rest = [.chunk [8]] := by
  have hready : (Writer.atomic []).Ready (.start .missing) := trivial
  obtain ⟨n, outcome, written, log, rest, -, -, -, hdecided⟩ :=
    stream_encoding_decides crc32cReference ⟨testFormat, 16, 1, by decide, by decide⟩ 1 hready
      [.chunk [7], .complete, .chunk [8]]
  have hok : outcome = .ok () :=
    hdecided.accepted.mpr ⟨by decide, [[7]], [.chunk [8]], rfl, rfl⟩
  exact ⟨outcome, rest, written, hdecided, hok, (hdecided.encoded hok [[7]] [.chunk [8]] rfl).2⟩

end Verdict

end AtomicBlobStore
