/-
  The two decoders of `Format` against the encoder and against each other.

  Both decoders are first reduced to the unfragmented stream: `follows_decodeReader` and
  `follows_validateEnvelopeReader` say that over any `Source` they behave as over the flat list of
  bytes still to come.  On flat lists the reads have closed forms, and the decoders are walked
  section by section:

  * `decodeReader_flat_iff` — the complete decoder accepts exactly the encoder's image;
  * `agree_flat`            — the block-wise decoder gives the same verdict on every input, short,
                              oversized, damaged or failing, and stops at the same byte.

  The one place where the two decoders could differ is the end of the payload.  One of them has it in
  one piece and the other has seen it pass in blocks; both then read the checksum, look for the end,
  and compare.  Since the checksum is computed from the bytes and not from the blocks, `append_append`
  is all that is needed of it.
-/
import AtomicBlobStore.Format

namespace AtomicBlobStore

open BigEndian

/-! ## Fixed-width fields

  A field of a given width is read as a list of bytes and compared, or turned into a number.  Either
  way the bytes are determined by what they were accepted for. -/

@[simp] theorem length_domainTag (format : BlobFormatIdentity) :
    format.domainTag.toList.length = 8 := by simp

@[simp] theorem length_headerBytes (format : BlobFormatIdentity) (size : Nat) :
    (headerBytes format size).length = 18 := by simp [headerBytes]

/-- A two-byte field spells exactly one version. -/
theorem version_eq_iff {bytes : List UInt8} (h : bytes.length = 2) (version : UInt16) :
    UInt16.ofNat (fromBeBytes bytes) = version ↔ bytes = toBeBytes 2 version.toNat := by
  have hlt : fromBeBytes bytes < 2 ^ 16 := by
    show _ < 256 ^ 2
    rw [← h]
    exact fromBeBytes_lt bytes
  constructor
  · rintro rfl
    rw [UInt16.toNat_ofNat', Nat.mod_eq_of_lt hlt, ← h, toBeBytes_fromBeBytes]
  · rintro rfl
    rw [fromBeBytes_toBeBytes version.toNat_lt]
    exact UInt16.ofNat_toNat

/-- A four-byte field spells exactly one checksum. -/
theorem checksum_eq_iff {bytes : List UInt8} (h : bytes.length = 4) (checksum : UInt32) :
    UInt32.ofNat (fromBeBytes bytes) = checksum ↔ bytes = toBeBytes 4 checksum.toNat := by
  have hlt : fromBeBytes bytes < 2 ^ 32 := by
    show _ < 256 ^ 4
    rw [← h]
    exact fromBeBytes_lt bytes
  constructor
  · rintro rfl
    rw [UInt32.toNat_ofNat', Nat.mod_eq_of_lt hlt, ← h, toBeBytes_fromBeBytes]
  · rintro rfl
    rw [fromBeBytes_toBeBytes checksum.toNat_lt]
    exact UInt32.ofNat_toNat

/-- Cut a list that is long enough into a front of the given length and the rest. -/
theorem exists_split {α : Type} {n : Nat} {l : List α} (h : n ≤ l.length) :
    ∃ front rest, l = front ++ rest ∧ front.length = n :=
  ⟨l.take n, l.drop n, (List.take_append_drop n l).symm, by simp [h]⟩

/-! ## Reading sections of a flat stream

  A flat stream answers a read from the bytes that are left.  A section is there or it is not, and if
  it is not everything that was left has been taken. -/

section Sections

variable {σ : Type} (source : Source IoError σ)

/-- A section that is there is read, and what follows it is left. -/
theorem readSection_append {n : Nat} {front rest : List UInt8} (sec : EnvelopeSection)
    (h : front.length = n) :
    (readSection source.flat n sec).run (front ++ rest) = (.ok front, rest) := by
  rw [readSection, Reader.run_exactly_flat_of_le source _ (by rw [List.length_append]; omega)]
  rw [List.take_left' h, List.drop_left' h]

/-- The failure of a section that the stream ends in. -/
def endingError (sec : EnvelopeSection) : Abort :=
  sectionError sec (source.ending.getD ReadError.unexpectedEof)

/-- The last section of a stream that ends too early. -/
theorem readSection_short {n : Nat} {bytes : List UInt8} (sec : EnvelopeSection)
    (h : bytes.length < n) :
    (readSection source.flat n sec).run bytes = (.error (endingError source sec), []) :=
  Reader.run_exactly_flat_of_lt source _ h

/-- A section failure is a typed error. -/
theorem endingError_eq (sec : EnvelopeSection) : ∃ e, endingError source sec = .error e := by
  unfold endingError sectionError
  split
  · exact ⟨_, rfl⟩
  · exact ⟨_, rfl⟩

/-- A stream that ends cleanly has no trailing data, -/
theorem expectEof_nil_ok (h : source.ending = none) : (expectEof source.flat).run [] = (.ok (), []) := by
  rw [expectEof, Reader.run_bind_ok (Reader.run_probe_flat_nil source), h]
  rfl

/-- one that ends with an error reports it, -/
theorem expectEof_nil_error {e : IoError} (h : source.ending = some e) :
    (expectEof source.flat).run [] = (.error (.error (.io .readEnvelope e)), []) := by
  rw [expectEof, Reader.run_bind_ok (Reader.run_probe_flat_nil source), h]
  rfl

/-- and one more byte is one too many. -/
theorem expectEof_cons (byte : UInt8) (bytes : List UInt8) :
    (expectEof source.flat).run (byte :: bytes) = (.error (.error .trailingData), bytes) := by
  rw [expectEof, Reader.run_bind_ok (Reader.run_probe_flat_cons source byte bytes)]
  rfl

/-! ## Fragmentation is invisible

  Both decoders are built from exact reads and one probe for the end.  These cannot see how a reader
  cuts its bytes up, and the binds, branches and loops around them add nothing that could. -/

/-- An exact read follows the flat stream, section by section. -/
theorem follows_readSection (n : Nat) (sec : EnvelopeSection) :
    Reader.Follows source.rest (readSection source n sec) (readSection source.flat n sec) :=
  Reader.follows_exactly source _ n

/-- So does the probe. -/
theorem follows_expectEof :
    Reader.Follows source.rest (expectEof source) (expectEof source.flat) := by
  refine Reader.follows_bind (Reader.follows_probe source) fun outcome => ?_
  match outcome with
  | .ok [] => exact Reader.follows_pure _ _
  | .ok (_ :: _) => exact Reader.follows_fail _ _
  | .error e => exact Reader.follows_fail _ _

variable (crc32c : Crc32c) (format : BlobFormatIdentity)

/-- So the decoder that allocates follows it, -/
theorem follows_decodeReader (maximum : Nat) :
    Reader.Follows source.rest (decodeReader crc32c format source maximum)
      (decodeReader crc32c format source.flat maximum) := by
  refine Reader.follows_bind (follows_readSection source _ _) fun magic => ?_
  refine Reader.follows_ite (Reader.follows_fail _ _) ?_
  refine Reader.follows_bind (follows_readSection source _ _) fun versionBytes => ?_
  refine Reader.follows_ite (Reader.follows_fail _ _) ?_
  refine Reader.follows_bind (follows_readSection source _ _) fun length => ?_
  refine Reader.follows_ite (Reader.follows_fail _ _) ?_
  refine Reader.follows_ite (Reader.follows_fail _ _) ?_
  refine Reader.follows_ite (Reader.follows_fail _ _) ?_
  refine Reader.follows_bind (Reader.follows_ite (Reader.follows_fail _ _)
    (Reader.follows_pure _ _)) fun _ => ?_
  refine Reader.follows_bind (follows_readSection source _ _) fun payload => ?_
  refine Reader.follows_bind (follows_readSection source _ _) fun checksum => ?_
  refine Reader.follows_bind (follows_expectEof source) fun _ => ?_
  exact Reader.follows_ite (Reader.follows_fail _ _) (Reader.follows_pure _ _)

/-- The block loop, by strong induction on what remains to be read. -/
theorem follows_validatePayload : ∀ (remaining : Nat) (actual : UInt32),
    Reader.Follows source.rest (validatePayload crc32c source actual remaining)
      (validatePayload crc32c source.flat actual remaining) := by
  intro remaining
  induction remaining using Nat.strongRecOn with
  | _ remaining ih =>
    intro actual
    rw [validatePayload, validatePayload]
    by_cases hzero : remaining = 0
    · rw [dif_pos hzero, dif_pos hzero]
      exact Reader.follows_pure _ _
    · rw [dif_neg hzero, dif_neg hzero]
      have hchunk : 0 < streamChunkSize := by decide
      exact Reader.follows_bind (follows_readSection source _ _)
        fun block => ih _ (by omega) _

/-- and so does the one that reads in blocks. -/
theorem follows_validateEnvelopeReader (maximum : Nat) :
    Reader.Follows source.rest (validateEnvelopeReader crc32c format source maximum)
      (validateEnvelopeReader crc32c format source.flat maximum) := by
  refine Reader.follows_bind (follows_readSection source _ _) fun tag => ?_
  refine Reader.follows_ite (Reader.follows_fail _ _) ?_
  refine Reader.follows_bind (follows_readSection source _ _) fun versionBytes => ?_
  refine Reader.follows_ite (Reader.follows_fail _ _) ?_
  refine Reader.follows_bind (follows_readSection source _ _) fun length => ?_
  refine Reader.follows_ite (Reader.follows_fail _ _) ?_
  refine Reader.follows_bind (follows_validatePayload source crc32c _ _) fun actual => ?_
  refine Reader.follows_bind (follows_readSection source _ _) fun checksum => ?_
  refine Reader.follows_bind (follows_expectEof source) fun _ => ?_
  exact Reader.follows_ite (Reader.follows_fail _ _) (Reader.follows_pure _ _)

/-! ## The block loop in closed form

  The loop reads blocks of a fixed size and a last one that is shorter.  On a flat stream this is one
  read, as far as the verdict, the checksum and the bytes taken go. -/

/-- Reading a payload in blocks is reading it at once, with the checksum advanced over all of it.
    The running checksum is spelled as one of a read prefix, since only there the append law says
    that an empty block changes nothing. -/
theorem validatePayload_append : ∀ (remaining : Nat) (c : UInt32) (done payload rest : List UInt8),
    payload.length = remaining →
    (validatePayload crc32c source.flat (crc32c.append c done) remaining).run (payload ++ rest)
      = (.ok (crc32c.append c (done ++ payload)), rest) := by
  intro remaining
  induction remaining using Nat.strongRecOn with
  | _ remaining ih =>
    intro c done payload rest hlen
    rw [validatePayload]
    by_cases hzero : remaining = 0
    · obtain rfl : payload = [] := List.length_eq_zero_iff.mp (hlen.trans hzero)
      rw [dif_pos hzero, List.append_nil]
      rfl
    · rw [dif_neg hzero]
      have hchunk : 0 < streamChunkSize := by decide
      obtain ⟨block, more, rfl, hblock⟩ :=
        exists_split (l := payload) (n := min remaining streamChunkSize) (by omega)
      rw [List.append_assoc, Reader.run_bind_ok (readSection_append source .payload hblock),
        crc32c.append_append]
      rw [List.length_append] at hlen
      rw [ih (remaining - min remaining streamChunkSize) (by omega) c (done ++ block) more rest
        (by omega), List.append_assoc]

/-- A payload the stream ends in fails in the block loop as in one piece. -/
theorem validatePayload_short : ∀ (remaining : Nat) (actual : UInt32) (bytes : List UInt8),
    bytes.length < remaining →
    (validatePayload crc32c source.flat actual remaining).run bytes
      = (.error (endingError source .payload), []) := by
  intro remaining
  induction remaining using Nat.strongRecOn with
  | _ remaining ih =>
    intro actual bytes hlen
    have hchunk : 0 < streamChunkSize := by decide
    rw [validatePayload, dif_neg (by omega)]
    by_cases hblock : bytes.length < min remaining streamChunkSize
    · rw [Reader.run_bind_error (readSection_short source .payload hblock)]
    · obtain ⟨block, more, rfl, hsize⟩ := exists_split (Nat.not_lt.mp hblock)
      rw [Reader.run_bind_ok (readSection_append source .payload hsize)]
      rw [List.length_append] at hlen
      exact ih _ (by omega) _ more (by omega)

/-! ## The header and the body

  The decoders are cut at the same place, behind the length check.  What comes before is one program,
  and what comes after differs in how it reads and agrees in what it checks. -/

/-- The part both decoders share: the three header sections and the checks on them.  Returns the
    header bytes and the declared length. -/
def readHeader (maximum : Nat) : DecodeM σ (List UInt8 × Nat) := do
  let tag ← readSection source domainTagLen .magic
  if tag ≠ format.domainTag.toList then
    DecodeM.throwError (.invalidEnvelopeDomain format.domainTag.toList tag)
  else do
  let versionBytes ← readSection source 2 .version
  if UInt16.ofNat (fromBeBytes versionBytes) ≠ format.envelopeVersion then
    DecodeM.throwError (.unsupportedEnvelopeVersion (UInt16.ofNat (fromBeBytes versionBytes)))
  else do
  let length ← readSection source 8 .payloadLength
  if fromBeBytes length > maximum then
    DecodeM.throwError (.blobTooLarge (fromBeBytes length) maximum)
  else pure (tag ++ versionBytes ++ length, fromBeBytes length)

/-- What `decodeReader` does after the length check. -/
def decodeBody (declared : Nat) : DecodeM σ (List UInt8) := do
  let payload ← readSection source declared .payload
  let checksum ← readSection source checksumLen .checksum
  expectEof source
  let actual := crc32c.append (crc32c.append (crc32c.append
    (crc32c.checksum format.domainTag.toList) (toBeBytes 2 format.envelopeVersion.toNat))
    (toBeBytes 8 declared)) payload
  let expected := UInt32.ofNat (fromBeBytes checksum)
  if expected ≠ actual then DecodeM.throwError (.checksumMismatch expected actual)
  else pure payload

/-- What `validateEnvelopeReader` does after the length check. -/
def validateBody (header : List UInt8) (declared : Nat) : DecodeM σ BlobMetadata := do
  let actual ← validatePayload crc32c source (crc32c.checksum header) declared
  let checksum ← readSection source checksumLen .checksum
  expectEof source
  let expected := UInt32.ofNat (fromBeBytes checksum)
  if expected ≠ actual then DecodeM.throwError (.checksumMismatch expected actual)
  else pure ⟨declared⟩

/-- The largest maximum for which no declared length can overflow an allocation. -/
def SafeMaximum (maximum : Nat) : Prop := maximum + (headerLen + checksumLen) ≤ isizeMax

instance (maximum : Nat) : Decidable (SafeMaximum maximum) := Nat.decLe _ _

/-- Under a safe maximum the length guards after the first one are dead code. -/
theorem decodeReader_eq {maximum : Nat} (hmax : SafeMaximum maximum) :
    decodeReader crc32c format source maximum
      = readHeader source format maximum >>= fun h => decodeBody source crc32c format h.2 := by
  have hbound : maximum + 22 ≤ 2 ^ 63 - 1 := hmax
  unfold decodeReader decodeReaderWithUsizeLimit readHeader
  rw [Reader.bind_assoc]
  refine congrArg (_ >>= ·) (funext fun tag => ?_)
  split
  · rfl
  rw [Reader.bind_assoc]
  refine congrArg (_ >>= ·) (funext fun versionBytes => ?_)
  simp only []
  split
  · rfl
  rw [Reader.bind_assoc]
  refine congrArg (_ >>= ·) (funext fun length => ?_)
  split
  · rfl
  have hsmall : fromBeBytes length + 22 ≤ 2 ^ 63 - 1 := by omega
  rw [if_neg (by show ¬ _ > 2 ^ 64 - 1; omega), if_neg (by show ¬ _ + 22 ≥ 2 ^ 64; omega)]
  rw [allocate, if_neg (by show ¬ _ > 2 ^ 63 - 1; omega)]
  rfl

/-- This decoder allocates nothing, so nothing is asked of its maximum. -/
theorem validateEnvelopeReader_eq (maximum : Nat) :
    validateEnvelopeReader crc32c format source maximum
      = readHeader source format maximum >>= fun h => validateBody source crc32c h.1 h.2 := by
  unfold validateEnvelopeReader readHeader
  rw [Reader.bind_assoc]
  refine congrArg (_ >>= ·) (funext fun tag => ?_)
  split
  · rfl
  rw [Reader.bind_assoc]
  refine congrArg (_ >>= ·) (funext fun versionBytes => ?_)
  simp only []
  split
  · rfl
  rw [Reader.bind_assoc]
  refine congrArg (_ >>= ·) (funext fun length => ?_)
  split
  · rfl
  rfl

/-! ## The header, section by section -/

/-- Where a header read can stop: in a section the stream ends in, at a check, or past it all with
    the one header of the format. -/
inductive HeaderOutcome (maximum : Nat) (bytes : List UInt8) :
    Except Abort (List UInt8 × Nat) × List UInt8 → Prop
  /-- An error, within the header, for a stream that starts with no header up to the maximum. -/
  | stopped (e : AtomicBlobStoreError) (taken rest : List UInt8) (hb : bytes = taken ++ rest)
      (htaken : taken.length ≤ headerLen)
      (hnot : ∀ declared more, declared ≤ maximum → bytes ≠ headerBytes format declared ++ more) :
      HeaderOutcome maximum bytes (.error (.error e), rest)
  /-- The header was read, and what follows it is left. -/
  | passed (declared : Nat) (rest : List UInt8) (hb : bytes = headerBytes format declared ++ rest)
      (hle : declared ≤ maximum) :
      HeaderOutcome maximum bytes (.ok (headerBytes format declared, declared), rest)

/-- A list that is too short for a header does not start with one. -/
theorem ne_header_of_short {bytes : List UInt8} (h : bytes.length < 18) (declared : Nat)
    (more : List UInt8) : bytes ≠ headerBytes format declared ++ more := by
  rintro rfl
  rw [List.length_append, length_headerBytes] at h
  omega

/-- The sections of a header determine each other's bytes. -/
theorem header_sections {tag versionBytes length rest more : List UInt8} {declared : Nat}
    (htag : tag.length = domainTagLen) (hversion : versionBytes.length = 2)
    (hlength : length.length = 8)
    (h : tag ++ (versionBytes ++ (length ++ rest)) = headerBytes format declared ++ more) :
    tag = format.domainTag.toList ∧ versionBytes = toBeBytes 2 format.envelopeVersion.toNat ∧
      length = toBeBytes 8 declared ∧ rest = more := by
  rw [headerBytes, List.append_assoc, List.append_assoc] at h
  obtain ⟨h₁, h⟩ := List.append_inj h (by rw [htag]; simp [domainTagLen])
  obtain ⟨h₂, h⟩ := List.append_inj h (by rw [hversion, length_toBeBytes])
  obtain ⟨h₃, h⟩ := List.append_inj h (by rw [hlength, length_toBeBytes])
  exact ⟨h₁, h₂, h₃, h⟩

/-- On a flat stream the header read has one outcome for each way a header can be wrong. -/
theorem readHeader_outcome (maximum : Nat) (hmax : maximum < u64Limit) (bytes : List UInt8) :
    HeaderOutcome format maximum bytes ((readHeader source.flat format maximum).run bytes) := by
  have hmax' : maximum < 2 ^ 64 := hmax
  unfold readHeader
  -- the domain tag
  rcases Nat.lt_or_ge bytes.length domainTagLen with h | h
  · obtain ⟨e, he⟩ := endingError_eq source .magic
    have h8 : bytes.length < 8 := h
    rw [Reader.run_bind_error (readSection_short source .magic h), he]
    exact .stopped e bytes [] (by simp) (by show _ ≤ 18; omega)
      fun declared more _ => ne_header_of_short format (by omega) declared more
  obtain ⟨tag, bytes₁, rfl, htag⟩ := exists_split h
  have h8 : tag.length = 8 := htag
  rw [Reader.run_bind_ok (readSection_append source .magic htag)]
  split
  · rename_i hbad
    refine .stopped _ tag bytes₁ rfl (by show _ ≤ 18; omega) fun declared more _ heq => hbad ?_
    rw [headerBytes, List.append_assoc, List.append_assoc] at heq
    exact (List.append_inj heq (by rw [htag]; simp [domainTagLen])).1
  rename_i htagOk
  -- the version
  rcases Nat.lt_or_ge bytes₁.length 2 with h | h
  · obtain ⟨e, he⟩ := endingError_eq source .version
    rw [Reader.run_bind_error (readSection_short source .version h), he]
    refine .stopped e (tag ++ bytes₁) [] (by simp) ?_ fun declared more _ =>
      ne_header_of_short format ?_ declared more
    · rw [List.length_append]; show _ ≤ 18; omega
    · rw [List.length_append]; omega
  obtain ⟨versionBytes, bytes₂, rfl, hversion⟩ := exists_split h
  rw [Reader.run_bind_ok (readSection_append source .version hversion)]
  split
  · rename_i hbad
    refine .stopped _ (tag ++ versionBytes) bytes₂ (by simp) ?_ fun declared more _ heq => hbad ?_
    · rw [List.length_append]; show _ ≤ 18; omega
    · rw [version_eq_iff hversion]
      rw [headerBytes, List.append_assoc, List.append_assoc] at heq
      have h₁ := (List.append_inj heq (by rw [htag]; simp [domainTagLen])).2
      exact (List.append_inj h₁ (by rw [hversion, length_toBeBytes])).1
  rename_i hversionOk
  -- the payload length
  rcases Nat.lt_or_ge bytes₂.length 8 with h | h
  · obtain ⟨e, he⟩ := endingError_eq source .payloadLength
    rw [Reader.run_bind_error (readSection_short source .payloadLength h), he]
    refine .stopped e (tag ++ (versionBytes ++ bytes₂)) [] (by simp) ?_ fun declared more _ =>
      ne_header_of_short format ?_ declared more
    · rw [List.length_append, List.length_append]; show _ ≤ 18; omega
    · rw [List.length_append, List.length_append]; omega
  obtain ⟨length, rest, rfl, hlength⟩ := exists_split h
  rw [Reader.run_bind_ok (readSection_append source .payloadLength hlength)]
  split
  · rename_i hbad
    refine .stopped _ (tag ++ (versionBytes ++ length)) rest (by simp) ?_
      fun declared more hle heq => ?_
    · rw [List.length_append, List.length_append]; show _ ≤ 18; omega
    · obtain ⟨-, -, rfl, -⟩ := header_sections format htag hversion hlength heq
      rw [fromBeBytes_toBeBytes (by show declared < 256 ^ 8; omega)] at hbad
      omega
  rename_i hle
  obtain rfl := Decidable.not_not.mp htagOk
  have hbytes := (version_eq_iff hversion _).mp (Decidable.not_not.mp hversionOk)
  have hheader : format.domainTag.toList ++ versionBytes ++ length
      = headerBytes format (fromBeBytes length) := by
    have hl : toBeBytes 8 (fromBeBytes length) = length := by
      rw [← hlength, toBeBytes_fromBeBytes]
    rw [headerBytes, hl, hbytes]
  rw [hheader]
  refine .passed _ rest ?_ (by omega)
  rw [← hheader, List.append_assoc, List.append_assoc]

/-- Equal headers declare equal lengths. -/
theorem headerBytes_inj {m n : Nat} (hm : m < u64Limit) (hn : n < u64Limit)
    (h : headerBytes format m = headerBytes format n) : m = n := by
  have hlen : toBeBytes 8 m = toBeBytes 8 n := (List.append_inj h (by simp)).2
  have hm' : m < 2 ^ 64 := hm
  have hn' : n < 2 ^ 64 := hn
  exact toBeBytes_inj (by show _ < 256 ^ 8; omega) (by show _ < 256 ^ 8; omega) hlen

/-- A header of the format up to the maximum is read. -/
theorem readHeader_headerBytes {maximum declared : Nat} (hmax : maximum < u64Limit)
    (hle : declared ≤ maximum) (rest : List UInt8) :
    (readHeader source.flat format maximum).run (headerBytes format declared ++ rest)
      = (.ok (headerBytes format declared, declared), rest) := by
  have houtcome := readHeader_outcome source format maximum hmax (headerBytes format declared ++ rest)
  generalize (readHeader source.flat format maximum).run (headerBytes format declared ++ rest)
    = outcome at houtcome
  cases houtcome with
  | stopped e taken rest' hb htaken hnot => exact absurd rfl (hnot declared rest hle)
  | passed declared' rest' hb hle' =>
    obtain ⟨hheader, rfl⟩ := List.append_inj hb (by simp)
    rw [headerBytes_inj format (by omega) (by omega) hheader]

/-! ## The body, section by section

  The checksum is compared after the end of the stream has been looked for.  A body that is both too
  long and damaged is reported as too long by either decoder. -/

/-- The verdict on a complete body: nothing may follow it, and the checksum must match. -/
def finish {α : Type} (expected actual : UInt32) (a : α) : DecodeM (List UInt8) α := do
  expectEof source.flat
  if expected ≠ actual then DecodeM.throwError (.checksumMismatch expected actual) else pure a

/-- A payload the stream ends in. -/
theorem decodeBody_payload {declared : Nat} {rest : List UInt8} (h : rest.length < declared) :
    (decodeBody source.flat crc32c format declared).run rest
      = (.error (endingError source .payload), []) := by
  unfold decodeBody
  rw [Reader.run_bind_error (readSection_short source .payload h)]

/-- A checksum the stream ends in. -/
theorem decodeBody_checksum {declared : Nat} {payload rest : List UInt8}
    (hpayload : payload.length = declared) (h : rest.length < checksumLen) :
    (decodeBody source.flat crc32c format declared).run (payload ++ rest)
      = (.error (endingError source .checksum), []) := by
  unfold decodeBody
  rw [Reader.run_bind_ok (readSection_append source .payload hpayload),
    Reader.run_bind_error (readSection_short source .checksum h)]

/-- The four pieces `decodeReader` feeds to the checksum are the header and the payload. -/
theorem decodeBody_full {declared : Nat} {payload checksum rest : List UInt8}
    (hpayload : payload.length = declared) (hchecksum : checksum.length = checksumLen) :
    (decodeBody source.flat crc32c format declared).run (payload ++ (checksum ++ rest)) =
      (finish source (UInt32.ofNat (fromBeBytes checksum))
        (crc32c.checksum (headerBytes format declared ++ payload)) payload).run rest := by
  unfold decodeBody
  rw [Reader.run_bind_ok (readSection_append source .payload hpayload),
    Reader.run_bind_ok (readSection_append source .checksum hchecksum)]
  simp only [Crc32c.checksum, crc32c.append_append]
  rfl

/-- The same for the decoder that reads in blocks, -/
theorem validateBody_payload {header rest : List UInt8} {declared : Nat}
    (h : rest.length < declared) :
    (validateBody source.flat crc32c header declared).run rest
      = (.error (endingError source .payload), []) := by
  unfold validateBody
  rw [Reader.run_bind_error (validatePayload_short source crc32c _ _ _ h)]

/-- which also takes all that is left, -/
theorem validateBody_checksum {header payload rest : List UInt8} {declared : Nat}
    (hpayload : payload.length = declared) (h : rest.length < checksumLen) :
    (validateBody source.flat crc32c header declared).run (payload ++ rest)
      = (.error (endingError source .checksum), []) := by
  unfold validateBody Crc32c.checksum
  rw [Reader.run_bind_ok (validatePayload_append source crc32c _ 0 header payload rest hpayload),
    Reader.run_bind_error (readSection_short source .checksum h)]

/-- and comes to the same verdict on a complete body. -/
theorem validateBody_full {header payload checksum rest : List UInt8} {declared : Nat}
    (hpayload : payload.length = declared) (hchecksum : checksum.length = checksumLen) :
    (validateBody source.flat crc32c header declared).run (payload ++ (checksum ++ rest)) =
      (finish source (UInt32.ofNat (fromBeBytes checksum))
        (crc32c.checksum (header ++ payload)) ⟨declared⟩).run rest := by
  unfold validateBody Crc32c.checksum
  rw [Reader.run_bind_ok (validatePayload_append source crc32c _ 0 header payload _ hpayload),
    Reader.run_bind_ok (readSection_append source .checksum hchecksum)]
  rfl

/-- The two body sections, or the first of them that the stream ends in. -/
inductive BodySplit (declared : Nat) (bytes : List UInt8) : Prop
  /-- The stream ends in the payload, -/
  | payload (h : bytes.length < declared)
  /-- in the checksum, -/
  | checksum (payload rest : List UInt8) (hb : bytes = payload ++ rest)
      (hpayload : payload.length = declared) (h : rest.length < checksumLen)
  /-- or in neither. -/
  | full (payload checksum rest : List UInt8) (hb : bytes = payload ++ (checksum ++ rest))
      (hpayload : payload.length = declared) (hchecksum : checksum.length = checksumLen)

/-- Every list of bytes has one of the three forms. -/
theorem bodySplit (declared : Nat) (bytes : List UInt8) : BodySplit declared bytes := by
  rcases Nat.lt_or_ge bytes.length declared with h | h
  · exact .payload h
  obtain ⟨payload, rest, rfl, hpayload⟩ := exists_split h
  rcases Nat.lt_or_ge rest.length checksumLen with h₁ | h₁
  · exact .checksum payload rest rfl hpayload h₁
  obtain ⟨checksum, tail, rfl, hchecksum⟩ := exists_split h₁
  exact .full payload checksum tail rfl hpayload hchecksum

/-- A verdict is positive exactly at a clean end of the stream with the right checksum. -/
theorem finish_ok_iff {α : Type} {expected actual : UInt32} {a b : α} {rest : List UInt8} :
    ((finish source expected actual a).run rest).1 = .ok b ↔
      source.ending = none ∧ rest = [] ∧ expected = actual ∧ b = a := by
  unfold finish
  cases rest with
  | cons byte rest =>
    rw [Reader.run_bind_error (expectEof_cons source byte rest)]
    constructor
    · intro h; nomatch h
    · rintro ⟨-, h, -⟩; nomatch h
  | nil =>
    cases hending : source.ending with
    | some e =>
      rw [Reader.run_bind_error (expectEof_nil_error source hending)]
      constructor
      · intro h; nomatch h
      · rintro ⟨h, -⟩; nomatch h
    | none =>
      rw [Reader.run_bind_ok (expectEof_nil_ok source hending)]
      by_cases hsum : expected = actual
      · rw [if_neg (not_not_intro hsum)]
        constructor
        · intro h
          exact ⟨rfl, rfl, hsum, (Except.ok.inj h).symm⟩
        · rintro ⟨-, -, -, rfl⟩; rfl
      · rw [if_pos hsum]
        constructor
        · intro h; nomatch h
        · rintro ⟨-, -, h, -⟩; exact absurd h hsum

/-! ## The complete decoder accepts the encoder's image -/

/-- What the encoder writes around a payload of any size. -/
def envelope (payload : List UInt8) : List UInt8 :=
  headerBytes format payload.length ++ payload ++
    toBeBytes 4 (crc32c.checksum (headerBytes format payload.length ++ payload)).toNat

/-- Eighteen bytes before the payload and four behind it. -/
theorem length_envelope (payload : List UInt8) :
    (envelope crc32c format payload).length = 22 + payload.length := by
  simp [envelope]
  omega

/-- The encoder in closed form: the envelope up to the maximum, an error above it. -/
theorem encodeEnvelope_eq {maximum : Nat} (payload : List UInt8)
    (hfits : payload.length < u64Limit) :
    encodeEnvelope crc32c format payload maximum =
      if payload.length > maximum then .error (.blobTooLarge payload.length maximum)
      else .ok (envelope crc32c format payload) := by
  unfold encodeEnvelope envelopeParts payloadSize envelopeHeader
  rw [if_pos hfits]
  by_cases hle : payload.length > maximum
  · rw [if_pos hle]
    show Except.bind (Except.bind (if _ then _ else _) _) _ = _
    rw [if_pos hle]
    rfl
  · rw [if_neg hle]
    show Except.bind (Except.bind (if _ then _ else _) _) _ = _
    rw [if_neg hle]
    simp only [envelope, Crc32c.checksum, ← crc32c.append_append]
    rfl

/-- The encoder succeeds up to the maximum, which is a `u64`. -/
theorem encodeEnvelope_ok_iff_of_lt {maximum : Nat} (hmax : maximum < u64Limit)
    (payload bytes : List UInt8) :
    encodeEnvelope crc32c format payload maximum = .ok bytes ↔
      payload.length ≤ maximum ∧ bytes = envelope crc32c format payload := by
  by_cases hfits : payload.length < u64Limit
  · rw [encodeEnvelope_eq crc32c format payload hfits]
    split
    · rename_i hgt
      constructor
      · intro h; nomatch h
      · rintro ⟨h, -⟩; omega
    · rename_i hle
      constructor
      · intro h
        exact ⟨by omega, (Except.ok.inj h).symm⟩
      · rintro ⟨-, rfl⟩; rfl
  · have hlarge : ¬ payload.length ≤ maximum := by omega
    constructor
    · intro h
      unfold encodeEnvelope envelopeParts payloadSize at h
      rw [if_neg hfits] at h
      nomatch h
    · rintro ⟨h, -⟩; exact absurd h hlarge

/-- The encoder succeeds up to the maximum. -/
theorem encodeEnvelope_ok_iff {maximum : Nat} (hmax : SafeMaximum maximum)
    (payload bytes : List UInt8) :
    encodeEnvelope crc32c format payload maximum = .ok bytes ↔
      payload.length ≤ maximum ∧ bytes = envelope crc32c format payload := by
  have hbound : maximum + 22 ≤ 2 ^ 63 - 1 := hmax
  have hlt : maximum < 2 ^ 64 := by omega
  exact encodeEnvelope_ok_iff_of_lt crc32c format hlt payload bytes

/-- A body is accepted when it is the payload and the checksum, and nothing else. -/
theorem decodeBody_ok_iff {declared : Nat} {rest payload : List UInt8} :
    ((decodeBody source.flat crc32c format declared).run rest).1 = .ok payload ↔
      source.ending = none ∧ payload.length = declared ∧ rest = payload ++
        toBeBytes 4 (crc32c.checksum (headerBytes format declared ++ payload)).toNat := by
  rcases bodySplit declared rest with h | ⟨front, tail, rfl, hfront, h⟩ |
    ⟨front, sum, tail, rfl, hfront, hsum⟩
  · rw [decodeBody_payload source crc32c format h]
    constructor
    · intro h; nomatch h
    · rintro ⟨-, rfl, rfl⟩
      rw [List.length_append] at h
      omega
  · rw [decodeBody_checksum source crc32c format hfront h]
    constructor
    · intro h; nomatch h
    · rintro ⟨-, hlen, heq⟩
      obtain ⟨rfl, rfl⟩ := List.append_inj heq (hfront.trans hlen.symm)
      rw [length_toBeBytes] at h
      exact absurd h (Nat.lt_irrefl 4)
  · rw [decodeBody_full source crc32c format hfront hsum, finish_ok_iff]
    constructor
    · rintro ⟨hending, rfl, heq, rfl⟩
      rw [checksum_eq_iff hsum] at heq
      rw [← heq, List.append_nil]
      exact ⟨hending, hfront, rfl⟩
    · rintro ⟨hending, hlen, heq⟩
      obtain ⟨rfl, htail⟩ := List.append_inj heq (hfront.trans hlen.symm)
      obtain ⟨rfl, rfl⟩ := List.append_inj (htail.trans (List.append_nil _).symm)
        (by rw [hsum, length_toBeBytes]; rfl)
      exact ⟨hending, rfl, (checksum_eq_iff hsum _).mpr rfl, rfl⟩

/-- The header and the body together accept exactly the envelopes of what the maximum admits. -/
theorem sections_ok_iff {maximum : Nat} (hlimit : maximum < u64Limit) (bytes payload : List UInt8) :
    ((readHeader source.flat format maximum >>= fun h =>
      decodeBody source.flat crc32c format h.2).run bytes).1 = .ok payload ↔
      source.ending = none ∧ payload.length ≤ maximum ∧ bytes = envelope crc32c format payload := by
  have houtcome := readHeader_outcome source format maximum hlimit bytes
  generalize hrun : (readHeader source.flat format maximum).run bytes = outcome at houtcome
  cases houtcome with
  | stopped e taken rest hb htaken hnot =>
    rw [Reader.run_bind_error hrun]
    constructor
    · intro h; nomatch h
    · rintro ⟨-, hle, rfl⟩
      refine absurd ?_ (hnot _ (payload ++ toBeBytes 4 (crc32c.checksum
        (headerBytes format payload.length ++ payload)).toNat) hle)
      rw [envelope, List.append_assoc]
  | passed declared rest hb hle =>
    rw [Reader.run_bind_ok hrun, decodeBody_ok_iff source crc32c format]
    constructor
    · rintro ⟨hending, rfl, rfl⟩
      refine ⟨hending, hle, ?_⟩
      rw [hb, envelope, List.append_assoc]
    · rintro ⟨hending, hle', rfl⟩
      rw [envelope, List.append_assoc] at hb
      obtain ⟨hheader, hrest⟩ := List.append_inj hb (by simp)
      have hdeclared : payload.length = declared :=
        headerBytes_inj format (by omega) (by omega) hheader
      subst hdeclared
      exact ⟨hending, rfl, hrest.symm⟩

/-- **Over a flat stream `decodeReader` accepts exactly the encoder's image.** -/
theorem decodeReader_flat_iff (hending : source.ending = none) {maximum : Nat}
    (hmax : SafeMaximum maximum) (bytes payload : List UInt8) :
    ((decodeReader crc32c format source.flat maximum).run bytes).1 = .ok payload ↔
      encodeEnvelope crc32c format payload maximum = .ok bytes := by
  have hbound : maximum + 22 ≤ 2 ^ 63 - 1 := hmax
  have hlimit : maximum < u64Limit := by show _ < 2 ^ 64; omega
  rw [encodeEnvelope_ok_iff crc32c format hmax, decodeReader_eq source.flat crc32c format hmax,
    sections_ok_iff source crc32c format hlimit, hending]
  exact and_iff_right rfl

/-- The encoder writes at most one envelope for a payload, and an envelope for one payload only. -/
theorem envelope_inj {maximum : Nat} (hmax : SafeMaximum maximum) {p q bytes : List UInt8}
    (hp : encodeEnvelope crc32c format p maximum = .ok bytes)
    (hq : encodeEnvelope crc32c format q maximum = .ok bytes) : p = q := by
  have hbound : maximum + 22 ≤ 2 ^ 63 - 1 := hmax
  obtain ⟨hple, rfl⟩ := (encodeEnvelope_ok_iff crc32c format hmax p bytes).mp hp
  obtain ⟨hqle, heq⟩ := (encodeEnvelope_ok_iff crc32c format hmax q _).mp hq
  have hlen : p.length = q.length := by
    have := congrArg List.length heq
    rw [length_envelope, length_envelope] at this
    omega
  unfold envelope at heq
  rw [List.append_assoc, List.append_assoc] at heq
  obtain ⟨-, hbody⟩ := List.append_inj heq (by simp)
  exact (List.append_inj hbody hlen).1

/-- No envelope is a proper prefix of another one: the header fixes the length of the rest. -/
theorem envelope_prefix_free {maximum : Nat} (hmax : SafeMaximum maximum)
    {p q bytes more : List UInt8} (hp : encodeEnvelope crc32c format p maximum = .ok bytes)
    (hq : encodeEnvelope crc32c format q maximum = .ok (bytes ++ more)) : more = [] := by
  have hbound : maximum + 22 ≤ 2 ^ 63 - 1 := hmax
  have hlimit : maximum < u64Limit := by show _ < 2 ^ 64; omega
  obtain ⟨hple, rfl⟩ := (encodeEnvelope_ok_iff crc32c format hmax p bytes).mp hp
  obtain ⟨hqle, heq⟩ := (encodeEnvelope_ok_iff crc32c format hmax q _).mp hq
  have htotal := congrArg List.length heq
  rw [List.length_append, length_envelope, length_envelope] at htotal
  unfold envelope at heq
  rw [List.append_assoc, List.append_assoc, List.append_assoc] at heq
  obtain ⟨hheader, -⟩ := List.append_inj heq (by simp)
  have : p.length = q.length := headerBytes_inj format (by omega) (by omega) hheader
  exact List.length_eq_zero_iff.mp (by omega)

/-- The verdict of `decodeReader` over any fragmentation of the stream. -/
theorem decodeReader_ok_iff (hending : source.ending = none) {maximum : Nat}
    (hmax : SafeMaximum maximum) (s : σ) (payload : List UInt8) :
    ((decodeReader crc32c format source maximum).run s).1 = .ok payload ↔
      encodeEnvelope crc32c format payload maximum = .ok (source.rest s) := by
  rw [(follows_decodeReader source crc32c format maximum s).1]
  exact decodeReader_flat_iff source crc32c format hending hmax _ _

/-- **The decoder accepts exactly the encoder's image**, over every reader of the bytes.  Hence
    decoding undoes encoding up to the maximum, the encoding is injective, it is refused exactly
    above the maximum, and neither an extension nor a truncation of an accepted string is
    accepted. -/
theorem decoder_accepts_encoder_image (hending : source.ending = none) {maximum : Nat}
    (hmax : SafeMaximum maximum) :
    (∀ s payload, ((decodeReader crc32c format source maximum).run s).1 = .ok payload ↔
      encodeEnvelope crc32c format payload maximum = .ok (source.rest s)) ∧
    (∀ payload : List UInt8, payload.length ≤ maximum →
      ∃ bytes, encodeEnvelope crc32c format payload maximum = .ok bytes ∧
        ∀ s, source.rest s = bytes →
          ((decodeReader crc32c format source maximum).run s).1 = .ok payload) ∧
    (∀ p q bytes, encodeEnvelope crc32c format p maximum = .ok bytes →
      encodeEnvelope crc32c format q maximum = .ok bytes → p = q) ∧
    (∀ s t payload, ((decodeReader crc32c format source maximum).run s).1 = .ok payload →
      ((decodeReader crc32c format source maximum).run t).1 = .ok payload →
      source.rest s = source.rest t) ∧
    (∀ payload : List UInt8, payload.length < u64Limit →
      (encodeEnvelope crc32c format payload maximum = .error (.blobTooLarge payload.length maximum)
        ↔ maximum < payload.length)) ∧
    (∀ s t p q more, ((decodeReader crc32c format source maximum).run s).1 = .ok p →
      ((decodeReader crc32c format source maximum).run t).1 = .ok q →
      source.rest t = source.rest s ++ more → more = []) := by
  have hiff := decodeReader_ok_iff source crc32c format hending hmax
  have hbound : maximum + 22 ≤ 2 ^ 63 - 1 := hmax
  refine ⟨hiff, ?_, fun p q bytes => envelope_inj crc32c format hmax, ?_, ?_, ?_⟩
  · intro payload hle
    have hok := (encodeEnvelope_ok_iff crc32c format hmax payload _).mpr ⟨hle, rfl⟩
    refine ⟨_, hok, fun s hs => (hiff s payload).mpr ?_⟩
    rw [hs]
    exact hok
  · intro s t payload hs ht
    rw [hiff] at hs ht
    exact Except.ok.inj (hs.symm.trans ht)
  · intro payload hfits
    rw [encodeEnvelope_eq crc32c format payload hfits]
    split
    · exact ⟨fun _ => by omega, fun _ => rfl⟩
    · exact ⟨fun h => (nomatch h), fun h => by omega⟩
  · intro s t p q more hs ht hmore
    rw [hiff] at hs ht
    rw [hmore] at ht
    exact envelope_prefix_free crc32c format hmax hs ht

/-- The theorem at a one-byte payload under the identity of the source's tests. -/
theorem decoder_accepts_encoder_image_sample :
    ∃ bytes, encodeEnvelope crc32cReference testFormat [7] 5 = .ok bytes ∧
      ((decodeReader crc32cReference testFormat (Source.ofBytes none nofun) 5).run bytes).1
        = .ok [7] := by
  obtain ⟨bytes, hok, hdecode⟩ := (decoder_accepts_encoder_image (Source.ofBytes none nofun)
    crc32cReference testFormat rfl (by decide : SafeMaximum 5)).2.1 [7] (by decide)
  exact ⟨bytes, hok, hdecode bytes rfl⟩

/-! ## The two decoders agree

  A load uses one of them and a streaming load the other, on the same files.  They have to agree on
  errors as well: a caller is told which section is damaged, and not which decoder has found it. -/

/-- The stream starts with a header that the length check lets through. -/
def LengthCheckPasses (maximum declared : Nat) (bytes : List UInt8) : Prop :=
  declared ≤ maximum ∧ bytes.take headerLen = headerBytes format declared

/-- What it means for the complete decoder's outcome `d` and the block-wise decoder's outcome `v`
    to agree on the stream `bytes`: one verdict, the same error with the same data, never a panic,
    the same bytes left over, and a bound on the bytes taken. -/
structure Agree (maximum : Nat) (bytes : List UInt8) (d : Except Abort (List UInt8) × List UInt8)
    (v : Except Abort BlobMetadata × List UInt8) : Prop where
  /-- The same payload length, if there is one, -/
  ok_iff : ∀ n, v.1 = .ok ⟨n⟩ ↔ ∃ payload, d.1 = .ok payload ∧ payload.length = n
  /-- the same error, if there is one, -/
  error_iff : ∀ e, v.1 = .error e ↔ d.1 = .error e
  /-- and no panic. -/
  no_panic : v.1 ≠ .error .panic
  /-- The same bytes are left. -/
  same_rest : v.2 = d.2
  /-- Without a header that passes no more than a header is taken; with one, no more than it declares
      and one byte. -/
  taken : ∃ taken, bytes = taken ++ d.2 ∧
    ((∀ declared, ¬ LengthCheckPasses format maximum declared bytes) → taken.length ≤ headerLen) ∧
    ∀ declared, LengthCheckPasses format maximum declared bytes →
      taken.length ≤ headerLen + declared + checksumLen + 1

/-- One verdict for two results: the same error after the same bytes, or a success at the end. -/
inductive SameVerdict {α β : Type} (rest : List UInt8) (a : α) (b : β) :
    Except Abort α × List UInt8 → Except Abort β × List UInt8 → Prop
  /-- Both fail, with one error. -/
  | failed (e : AtomicBlobStoreError) (n : Nat) (hn : n ≤ 1) :
      SameVerdict rest a b (.error (.error e), rest.drop n) (.error (.error e), rest.drop n)
  /-- Both succeed. -/
  | passed (hrest : rest = []) : SameVerdict rest a b (.ok a, []) (.ok b, [])

/-- The verdict looks at one more byte and at the checksums, not at the result. -/
theorem finish_sameVerdict {α β : Type} (expected actual : UInt32) (a : α) (b : β)
    (rest : List UInt8) :
    SameVerdict rest a b ((finish source expected actual a).run rest)
      ((finish source expected actual b).run rest) := by
  unfold finish
  cases rest with
  | cons byte rest =>
    rw [Reader.run_bind_error (expectEof_cons source byte rest),
      Reader.run_bind_error (expectEof_cons source byte rest)]
    exact .failed _ 1 (Nat.le_refl 1)
  | nil =>
    cases hending : source.ending with
    | some e =>
      rw [Reader.run_bind_error (expectEof_nil_error source hending),
        Reader.run_bind_error (expectEof_nil_error source hending)]
      exact .failed _ 0 (Nat.zero_le 1)
    | none =>
      rw [Reader.run_bind_ok (expectEof_nil_ok source hending),
        Reader.run_bind_ok (expectEof_nil_ok source hending)]
      split
      · exact .failed _ 0 (Nat.zero_le 1)
      · exact .passed rfl

/-- The bound of `Agree` on the number of bytes taken. -/
def TakenBound (maximum : Nat) (bytes : List UInt8) (n : Nat) : Prop :=
  ((∀ declared, ¬ LengthCheckPasses format maximum declared bytes) → n ≤ headerLen) ∧
    ∀ declared, LengthCheckPasses format maximum declared bytes →
      n ≤ headerLen + declared + checksumLen + 1

/-- Within the header there is nothing to show. -/
theorem takenBound_of_le_header {maximum n : Nat} {bytes : List UInt8} (h : n ≤ headerLen) :
    TakenBound format maximum bytes n :=
  ⟨fun _ => h, fun declared _ => by omega⟩

/-- A header that passed the check declares one length. -/
theorem takenBound_of_header {maximum declared n : Nat} {rest : List UInt8}
    (hmax : maximum < u64Limit) (hle : declared ≤ maximum)
    (h : n ≤ headerLen + declared + checksumLen + 1) :
    TakenBound format maximum (headerBytes format declared ++ rest) n := by
  have htake : (headerBytes format declared ++ rest).take headerLen = headerBytes format declared :=
    List.take_left' (by simp [headerLen])
  refine ⟨fun hno => absurd ⟨hle, htake⟩ (hno declared), ?_⟩
  rintro declared' ⟨hle', hheader⟩
  rw [htake] at hheader
  obtain rfl : declared = declared' := headerBytes_inj format (by omega) (by omega) hheader
  exact h

variable {format} in
/-- Two failures agree when they are the same error after the same bytes. -/
theorem Agree.of_error {maximum : Nat} {bytes taken rest : List UInt8} (e : AtomicBlobStoreError)
    (hb : bytes = taken ++ rest) (hbound : TakenBound format maximum bytes taken.length) :
    Agree format maximum bytes (.error (.error e), rest) (.error (.error e), rest) where
  ok_iff _ := ⟨fun h => (nomatch h), fun ⟨_, h, _⟩ => (nomatch h)⟩
  error_iff _ := ⟨fun h => congrArg Except.error (Except.error.inj h),
    fun h => congrArg Except.error (Except.error.inj h)⟩
  no_panic := nofun
  same_rest := rfl
  taken := ⟨taken, hb, hbound⟩

variable {format} in
/-- Two successes agree when they are about one payload. -/
theorem Agree.of_ok {maximum : Nat} {bytes taken rest payload : List UInt8}
    (hb : bytes = taken ++ rest) (hbound : TakenBound format maximum bytes taken.length) :
    Agree format maximum bytes (.ok payload, rest) (.ok ⟨payload.length⟩, rest) where
  ok_iff n := by
    constructor
    · intro h
      exact ⟨payload, rfl, congrArg BlobMetadata.payloadLen (Except.ok.inj h)⟩
    · rintro ⟨p, hp, rfl⟩
      rw [Except.ok.inj hp]
  error_iff _ := ⟨fun h => (nomatch h), fun h => (nomatch h)⟩
  no_panic := nofun
  same_rest := rfl
  taken := ⟨taken, hb, hbound⟩

/-- Reading a body at once and reading it in blocks agree on a flat stream: they share the header, and
    past it each section of the body stops both or neither. -/
theorem agree_sections {maximum : Nat} (hlimit : maximum < u64Limit) (bytes : List UInt8) :
    Agree format maximum bytes
      ((readHeader source.flat format maximum >>= fun h =>
        decodeBody source.flat crc32c format h.2).run bytes)
      ((validateEnvelopeReader crc32c format source.flat maximum).run bytes) := by
  rw [validateEnvelopeReader_eq]
  have houtcome := readHeader_outcome source format maximum hlimit bytes
  generalize hrun : (readHeader source.flat format maximum).run bytes = outcome at houtcome
  cases houtcome with
  | stopped e taken rest hb htaken hnot =>
    rw [Reader.run_bind_error hrun, Reader.run_bind_error hrun]
    exact .of_error e hb (takenBound_of_le_header format htaken)
  | passed declared rest hb hle =>
    rw [Reader.run_bind_ok hrun, Reader.run_bind_ok hrun]
    subst hb
    rcases bodySplit declared rest with h | ⟨payload, tail, rfl, hpayload, h⟩ |
      ⟨payload, checksum, tail, rfl, hpayload, hchecksum⟩
    · obtain ⟨e, he⟩ := endingError_eq source .payload
      rw [decodeBody_payload source crc32c format h, validateBody_payload source crc32c h, he]
      refine .of_error e (List.append_nil _).symm (takenBound_of_header format hlimit hle ?_)
      rw [List.length_append, length_headerBytes]
      simp only [headerLen]
      omega
    · obtain ⟨e, he⟩ := endingError_eq source .checksum
      rw [decodeBody_checksum source crc32c format hpayload h,
        validateBody_checksum source crc32c hpayload h, he]
      refine .of_error e (List.append_nil _).symm (takenBound_of_header format hlimit hle ?_)
      rw [List.length_append, List.length_append, length_headerBytes]
      simp only [headerLen]
      omega
    · rw [decodeBody_full source crc32c format hpayload hchecksum,
        validateBody_full source crc32c hpayload hchecksum]
      have hverdict := finish_sameVerdict source (UInt32.ofNat (fromBeBytes checksum))
        (crc32c.checksum (headerBytes format declared ++ payload)) payload
        (⟨declared⟩ : BlobMetadata) tail
      generalize (finish source _ _ payload).run tail = d at hverdict ⊢
      generalize (finish source _ _ (⟨declared⟩ : BlobMetadata)).run tail = v at hverdict ⊢
      -- what was taken: header, payload, checksum and at most one byte more
      have hsize : ∀ front : List UInt8, front.length ≤ 1 →
          (headerBytes format declared ++ (payload ++ (checksum ++ front))).length
            ≤ headerLen + declared + checksumLen + 1 := by
        intro front hfront
        simp only [List.length_append, length_headerBytes, headerLen]
        omega
      cases hverdict with
      | failed e n hn =>
        have hb : headerBytes format declared ++ (payload ++ (checksum ++ tail))
            = headerBytes format declared ++ (payload ++ (checksum ++ tail.take n)) ++ tail.drop n := by
          simp
        exact .of_error e hb (takenBound_of_header format hlimit hle
          (hsize _ (Nat.le_trans (List.length_take_le n tail) hn)))
      | passed hrest =>
        subst hrest hpayload
        exact .of_ok (List.append_nil _).symm (takenBound_of_header format hlimit hle
          (hsize [] (Nat.zero_le 1)))

/-- The two decoders agree on a flat stream, where the one that allocates can. -/
theorem agree_flat {maximum : Nat} (hmax : SafeMaximum maximum) (bytes : List UInt8) :
    Agree format maximum bytes ((decodeReader crc32c format source.flat maximum).run bytes)
      ((validateEnvelopeReader crc32c format source.flat maximum).run bytes) := by
  have hbound : maximum + 22 ≤ 2 ^ 63 - 1 := hmax
  rw [decodeReader_eq source.flat crc32c format hmax]
  exact agree_sections source crc32c format (by show _ < 2 ^ 64; omega) bytes

/-- The decoder that reads in blocks never panics, and accepts exactly the envelopes. -/
theorem validateEnvelopeReader_flat_iff {maximum : Nat} (hlimit : maximum < u64Limit)
    (bytes : List UInt8) (n : Nat) :
    ((validateEnvelopeReader crc32c format source.flat maximum).run bytes).1 = .ok ⟨n⟩ ↔
      source.ending = none ∧ ∃ payload : List UInt8, payload.length = n ∧ n ≤ maximum ∧
        bytes = envelope crc32c format payload := by
  rw [(agree_sections source crc32c format hlimit bytes).ok_iff]
  simp only [sections_ok_iff source crc32c format hlimit]
  constructor
  · rintro ⟨payload, ⟨hending, hle, hbytes⟩, rfl⟩
    exact ⟨hending, payload, rfl, hle, hbytes⟩
  · rintro ⟨hending, payload, rfl, hle, hbytes⟩
    exact ⟨payload, ⟨hending, hle, hbytes⟩, rfl⟩

/-- **The two decoders agree**, over every stream, however a reader fragments it and wherever it
    fails.  They have the same verdict and the same error, leave the same bytes in the reader, and
    take no more than a header tells them to. -/
theorem decoders_agree {maximum : Nat} (hmax : SafeMaximum maximum) (s : σ) :
    let d := (decodeReader crc32c format source maximum).run s
    let v := (validateEnvelopeReader crc32c format source maximum).run s
    Agree format maximum (source.rest s) (d.1, source.rest d.2) (v.1, source.rest v.2) := by
  intro d v
  obtain ⟨hd, hdrest⟩ := follows_decodeReader source crc32c format maximum s
  obtain ⟨hv, hvrest⟩ := follows_validateEnvelopeReader source crc32c format maximum s
  have hflat := agree_flat source crc32c format hmax (source.rest s)
  have hd' : (d.1, source.rest d.2) =
      (decodeReader crc32c format source.flat maximum).run (source.rest s) := Prod.ext hd hdrest
  have hv' : (v.1, source.rest v.2) =
      (validateEnvelopeReader crc32c format source.flat maximum).run (source.rest s) :=
    Prod.ext hv hvrest
  rw [hd', hv']
  exact hflat

/-- The theorem at an input that ends inside the payload it declares. -/
theorem decoders_agree_truncated :
    let bytes := headerBytes testFormat 3 ++ [1, 2]
    let source : Source IoError (List UInt8) := Source.ofBytes none nofun
    ((decodeReader crc32cReference testFormat source 5).run bytes).1
        = .error (.error (.truncatedEnvelope .payload)) ∧
      ((validateEnvelopeReader crc32cReference testFormat source 5).run bytes).1
        = .error (.error (.truncatedEnvelope .payload)) := by
  intro bytes source
  have hd : ((decodeReader crc32cReference testFormat source 5).run bytes).1
      = .error (.error (.truncatedEnvelope .payload)) := by
    have hheader := readHeader_headerBytes source testFormat (by decide : 5 < u64Limit)
      (by decide : 3 ≤ 5) [1, 2]
    have hbody := decodeBody_payload source crc32cReference testFormat
      (by decide : [(1 : UInt8), 2].length < 3)
    have hbind := Reader.run_bind_ok (f := fun h => decodeBody source crc32cReference testFormat h.2)
      hheader
    rw [decodeReader_eq source crc32cReference testFormat (by decide)]
    exact congrArg Prod.fst (hbind.trans hbody)
  exact ⟨hd, ((decoders_agree source crc32cReference testFormat (by decide) bytes).error_iff _).mpr hd⟩

end Sections

end AtomicBlobStore
