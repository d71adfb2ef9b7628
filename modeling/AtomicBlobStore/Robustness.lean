/-
  The decoders on damaged input (`format.rs`).

  Two questions about bytes that no encoder wrote.  Can the complete decoder panic?  The only way is
  the allocation of the payload, whose length is bounded by the configured maximum and by the
  address range, but not by what `Vec` can hold: `decodeReader_eq_allocate` puts the decoder in the
  form header, allocation, body, and `decoder_never_panics_iff` names the inputs in between.

  Is damage noticed?  A window of four bytes or less changes the checksum, because CRC-32C separates
  such windows (`crc32cReference_separates`); what is appended is seen by the last read, and a cut
  is reported by the section it falls into (`damage_detected`).

  The second question needs something of the checksum, and it is stated as a hypothesis
  (`SeparatesWindows`) and then proved of CRC-32C itself (`crc32cReference`).  Nothing is assumed of
  accidental damage beyond its shape: any other bytes within the window, any other checksum, anything
  appended and any cut.
-/
import AtomicBlobStore.Decoding
import AtomicBlobStore.Lib.FeedbackRegister

namespace AtomicBlobStore

open BigEndian

section Sections

variable {σ : Type} (source : Source IoError σ) (crc32c : Crc32c) (format : BlobFormatIdentity)

/-! ## The allocation

  `validateMaximum` keeps the length of an envelope below `2 ^ 64`, and a `Vec` holds up to
  `isize::MAX` bytes.  A length in between passes every check. -/

/-- An accepted maximum leaves room for the header and the checksum. -/
theorem validateMaximum_ok {maximum : Nat} (h : validateMaximum maximum = .ok ()) :
    maximum + (headerLen + checksumLen) < u64Limit := by
  unfold validateMaximum at h
  split at h
  · nomatch h
  · omega

/-- Under an accepted maximum the decoder is the header, the allocation and the body: of its three
    guards on the length only the first can fail. -/
theorem decodeReader_eq_allocate {maximum : Nat}
    (hmax : maximum + (headerLen + checksumLen) < u64Limit) :
    decodeReader crc32c format source maximum = readHeader source format maximum >>= fun h =>
      allocate h.2 >>= fun _ => decodeBody source crc32c format h.2 := by
  have hbound : maximum + 22 < 2 ^ 64 := hmax
  unfold decodeReader decodeReaderWithUsizeLimit readHeader
  rw [Reader.bind_assoc]
  refine congrArg (_ >>= ·) (funext fun tag => ?_)
  split
  · rfl
  rw [Reader.bind_assoc]
  refine congrArg (_ >>= ·) (funext fun versionBytes => ?_)
  simp only []
  split
  · rfl
  rw [Reader.bind_assoc]
  refine congrArg (_ >>= ·) (funext fun length => ?_)
  split
  · rfl
  have hsmall : fromBeBytes length + 22 < 2 ^ 64 := by omega
  rw [if_neg (by show ¬ _ > 2 ^ 64 - 1; omega), if_neg (by show ¬ _ + 22 ≥ 2 ^ 64; omega)]
  rfl

/-- The body never panics. -/
theorem decodeBody_no_panic (declared : Nat) (bytes : List UInt8) :
    ((decodeBody source.flat crc32c format declared).run bytes).1 ≠ .error .panic := by
  rcases bodySplit declared bytes with h | ⟨payload, rest, rfl, hpayload, h⟩ |
    ⟨payload, checksum, rest, rfl, hpayload, hchecksum⟩
  · obtain ⟨e, he⟩ := endingError_eq source .payload
    rw [decodeBody_payload source crc32c format h, he]
    nofun
  · obtain ⟨e, he⟩ := endingError_eq source .checksum
    rw [decodeBody_checksum source crc32c format hpayload h, he]
    nofun
  · rw [decodeBody_full source crc32c format hpayload hchecksum]
    have hverdict := finish_sameVerdict source (UInt32.ofNat (fromBeBytes checksum))
      (crc32c.checksum (headerBytes format declared ++ payload)) payload payload rest
    generalize (finish source _ _ payload).run rest = d at hverdict ⊢
    cases hverdict <;> nofun

/-! ## The header of an envelope

  These are runs of `readHeader` on bytes that begin as an envelope does, as far as they go. -/

/-- Bytes that end within the tag, -/
theorem readHeader_magic {maximum : Nat} {bytes : List UInt8} (h : bytes.length < domainTagLen) :
    (readHeader source.flat format maximum).run bytes = (.error (endingError source .magic), []) := by
  unfold readHeader
  rw [Reader.run_bind_error (readSection_short source .magic h)]

/-- within the version, -/
theorem readHeader_version {maximum : Nat} {rest : List UInt8} (h : rest.length < 2) :
    (readHeader source.flat format maximum).run (format.domainTag.toList ++ rest) =
      (.error (endingError source .version), []) := by
  unfold readHeader
  have htag : format.domainTag.toList.length = domainTagLen := length_domainTag format
  rw [Reader.run_bind_ok (readSection_append source .magic htag),
    if_neg (not_not_intro rfl), Reader.run_bind_error (readSection_short source .version h)]

/-- The tag and the version of the format are accepted. -/
theorem readHeader_length {maximum : Nat} {rest : List UInt8} :
    (readHeader source.flat format maximum).run
        (format.domainTag.toList ++ (toBeBytes 2 format.envelopeVersion.toNat ++ rest)) =
      ((readSection source.flat 8 .payloadLength >>= fun length =>
        if fromBeBytes length > maximum then
          DecodeM.throwError (.blobTooLarge (fromBeBytes length) maximum)
        else pure (format.domainTag.toList ++ toBeBytes 2 format.envelopeVersion.toNat ++ length,
          fromBeBytes length)).run rest) := by
  have htag : format.domainTag.toList.length = domainTagLen := length_domainTag format
  have hversion : (toBeBytes 2 format.envelopeVersion.toNat).length = 2 := length_toBeBytes _ _
  unfold readHeader
  rw [Reader.run_bind_ok (readSection_append source .magic htag),
    if_neg (not_not_intro rfl),
    Reader.run_bind_ok (readSection_append source .version hversion),
    if_neg (not_not_intro ((version_eq_iff hversion _).mpr rfl))]

/-- or within the length. -/
theorem readHeader_payloadLength {maximum : Nat} {rest : List UInt8} (h : rest.length < 8) :
    (readHeader source.flat format maximum).run
        (format.domainTag.toList ++ (toBeBytes 2 format.envelopeVersion.toNat ++ rest)) =
      (.error (endingError source .payloadLength), []) := by
  rw [readHeader_length, Reader.run_bind_error (readSection_short source .payloadLength h)]

/-- A header that declares too much is refused, right behind it. -/
theorem readHeader_large {maximum declared : Nat} (hfits : declared < u64Limit)
    (hlarge : maximum < declared) (rest : List UInt8) :
    (readHeader source.flat format maximum).run (headerBytes format declared ++ rest) =
      (.error (.error (.blobTooLarge declared maximum)), rest) := by
  have hvalue : fromBeBytes (toBeBytes 8 declared) = declared :=
    fromBeBytes_toBeBytes (by show declared < 256 ^ 8; exact hfits)
  rw [headerBytes, List.append_assoc, List.append_assoc, readHeader_length,
    Reader.run_bind_ok (readSection_append source .payloadLength (length_toBeBytes _ _)), hvalue,
    if_pos hlarge]
  rfl

/-! ## Panics

  The decoder panics when it asks for a buffer above `isize::MAX`, and this is decided by the header
  alone: a reader that fails earlier prevents it, and nothing that comes later does. -/

/-- What is asked of the complete decoder on a stream: no panic, hence no buffer above `isizeMax`,
    and a length above it is refused right behind the header. -/
structure RejectsUnrepresentable (maximum : Nat) (bytes : List UInt8)
    (outcome : Except Abort (List UInt8) × List UInt8) : Prop where
  /-- It does not panic. -/
  no_panic : outcome.1 ≠ .error .panic
  /-- A length that cannot be allocated is refused as soon as the header was read. -/
  rejected : ∀ declared rest, bytes = headerBytes format declared ++ rest → isizeMax < declared →
    declared < u64Limit → (outcome.1 = .error (.error (.invalidPayloadLength declared)) ∨
      outcome.1 = .error (.error (.blobTooLarge declared maximum))) ∧ outcome.2 = rest

/-- Every length that the stream declares and the maximum admits can be allocated. -/
def Representable (maximum : Nat) (bytes : List UInt8) : Prop :=
  ∀ declared rest, bytes = headerBytes format declared ++ rest → declared ≤ maximum →
    declared ≤ isizeMax

/-- On a flat stream the decoder does what is asked of it exactly where the declared length can be
    allocated. -/
theorem rejectsUnrepresentable_flat {maximum : Nat}
    (hmax : maximum + (headerLen + checksumLen) < u64Limit) (bytes : List UInt8) :
    RejectsUnrepresentable format maximum bytes
        ((decodeReader crc32c format source.flat maximum).run bytes) ↔
      Representable format maximum bytes := by
  have hbound : maximum + 22 < 2 ^ 64 := hmax
  have hlimit : maximum < u64Limit := by show _ < 2 ^ 64; omega
  rw [decodeReader_eq_allocate source.flat crc32c format hmax]
  have houtcome := readHeader_outcome source format maximum hlimit bytes
  generalize hrun : (readHeader source.flat format maximum).run bytes = outcome at houtcome
  cases houtcome with
  | stopped e taken rest hb htaken hnot =>
    rw [Reader.run_bind_error hrun]
    refine ⟨fun _ declared more heq hle => absurd heq (hnot declared more hle), fun _ => ⟨nofun, ?_⟩⟩
    intro declared more heq hlarge hfits
    have hgt : maximum < declared := by
      by_contra hle
      exact hnot declared more (by omega) heq
    rw [heq, readHeader_large source format hfits hgt] at hrun
    obtain ⟨herror, hrest⟩ := Prod.mk.inj hrun
    exact ⟨Or.inr (congrArg Except.error (Except.error.inj herror).symm), hrest.symm⟩
  | passed declared rest hb hle =>
    rw [Reader.run_bind_ok hrun]
    by_cases hlarge : declared > isizeMax
    · have hpanic : (allocate declared : DecodeM _ Unit).run rest = (.error .panic, rest) := by
        rw [allocate, if_pos hlarge]
        rfl
      rw [Reader.run_bind_error hpanic]
      refine ⟨fun h => absurd rfl h.no_panic, fun h => ?_⟩
      have := h declared rest hb hle
      omega
    · have hroom : (allocate declared : DecodeM _ Unit).run rest = (.ok (), rest) := by
        rw [allocate, if_neg hlarge]
        rfl
      rw [Reader.run_bind_ok hroom]
      have hunique : ∀ declared' more, bytes = headerBytes format declared' ++ more →
          declared' < u64Limit → declared' = declared := by
        intro declared' more heq hfits
        obtain ⟨hheader, -⟩ := List.append_inj (heq.symm.trans hb) (by simp)
        exact headerBytes_inj format hfits (by omega) hheader
      refine ⟨fun _ declared' more heq hle' => ?_, fun _ =>
        ⟨decodeBody_no_panic source crc32c format declared rest, ?_⟩⟩
      · have := hunique declared' more heq (by omega)
        omega
      · intro declared' more heq hgt hfits
        have := hunique declared' more heq hfits
        omega

/-- Where the declared length can be allocated, the decoder is the header and the body. -/
theorem decodeReader_sections {maximum : Nat} (hmax : maximum + (headerLen + checksumLen) < u64Limit)
    {bytes : List UInt8} (h : Representable format maximum bytes) :
    (decodeReader crc32c format source.flat maximum).run bytes =
      (readHeader source.flat format maximum >>= fun h =>
        decodeBody source.flat crc32c format h.2).run bytes := by
  have hbound : maximum + 22 < 2 ^ 64 := hmax
  rw [decodeReader_eq_allocate source.flat crc32c format hmax]
  have houtcome := readHeader_outcome source format maximum (by show _ < 2 ^ 64; omega) bytes
  generalize hrun : (readHeader source.flat format maximum).run bytes = outcome at houtcome
  cases houtcome with
  | stopped e taken rest hb htaken hnot =>
    rw [Reader.run_bind_error hrun, Reader.run_bind_error hrun]
  | passed declared rest hb hle =>
    have hroom : (allocate declared : DecodeM _ Unit).run rest = (.ok (), rest) := by
      rw [allocate, if_neg (Nat.not_lt.mpr (h declared rest hb hle))]
      rfl
    rw [Reader.run_bind_ok hrun, Reader.run_bind_ok hrun, Reader.run_bind_ok hroom]

/-- Where it cannot, the decoder panics. -/
theorem decodeReader_large {maximum declared : Nat}
    (hmax : maximum + (headerLen + checksumLen) < u64Limit) (hle : declared ≤ maximum)
    (hlarge : isizeMax < declared) (rest : List UInt8) :
    ((decodeReader crc32c format source.flat maximum).run (headerBytes format declared ++ rest)).1 =
      .error .panic := by
  have hbound : maximum + 22 < 2 ^ 64 := hmax
  have hpanic : (allocate declared : DecodeM _ Unit).run rest = (.error .panic, rest) := by
    rw [allocate, if_pos hlarge]
    rfl
  rw [decodeReader_eq_allocate source.flat crc32c format hmax,
    Reader.run_bind_ok (readHeader_headerBytes source format (by show _ < 2 ^ 64; omega) hle rest),
    Reader.run_bind_error hpanic]

/-- **The complete decoder never panics, exactly on the streams whose declared length can be
    allocated**: the accepted maxima leave a gap above `isizeMax`. -/
theorem decoder_never_panics_iff {maximum : Nat} (hmax : validateMaximum maximum = .ok ()) (s : σ) :
    let outcome := (decodeReader crc32c format source maximum).run s
    RejectsUnrepresentable format maximum (source.rest s) (outcome.1, source.rest outcome.2) ↔
      Representable format maximum (source.rest s) := by
  intro outcome
  obtain ⟨hd, hrest⟩ := follows_decodeReader source crc32c format maximum s
  have houtcome : (outcome.1, source.rest outcome.2) =
      (decodeReader crc32c format source.flat maximum).run (source.rest s) := Prod.ext hd hrest
  rw [houtcome]
  exact rejectsUnrepresentable_flat source crc32c format (validateMaximum_ok hmax) _

/-- The theorem at a header that declares five bytes under the maximum `2 ^ 63`, which leaves the gap
    open: the length can be allocated, so the decoder does not panic, and it reports that the payload is
    missing. -/
theorem decoder_never_panics_iff_header :
    let source : Source IoError (List UInt8) := Source.ofBytes none nofun
    let outcome := (decodeReader crc32cReference testFormat source (2 ^ 63)).run (headerBytes testFormat 5)
    RejectsUnrepresentable testFormat (2 ^ 63) (headerBytes testFormat 5) outcome ∧
      outcome.1 = .error (.error (.truncatedEnvelope .payload)) := by
  intro source outcome
  have hrepresentable : Representable testFormat (2 ^ 63) (headerBytes testFormat 5) := by
    intro declared rest heq hle
    have hrest : rest = [] := by
      have hlen := congrArg List.length heq
      rw [List.length_append, length_headerBytes, length_headerBytes] at hlen
      exact List.length_eq_zero_iff.mp (by omega)
    rw [hrest, List.append_nil] at heq
    obtain rfl : 5 = declared := headerBytes_inj testFormat (by decide)
      (Nat.lt_of_le_of_lt hle (by decide)) heq
    decide
  refine ⟨(decoder_never_panics_iff source crc32cReference testFormat rfl _).mpr hrepresentable, ?_⟩
  have hheader : (readHeader source.flat testFormat (2 ^ 63)).run (headerBytes testFormat 5) =
      (.ok (headerBytes testFormat 5, 5), []) := by
    have h := readHeader_headerBytes source testFormat (by decide : 2 ^ 63 < u64Limit)
      (by decide : 5 ≤ 2 ^ 63) []
    rwa [List.append_nil] at h
  have hallocate : (allocate 5 : DecodeM _ Unit).run [] = (.ok (), ([] : List UInt8)) := by
    rw [allocate, if_neg (by decide)]
    rfl
  have hbody : ((decodeBody source.flat crc32cReference testFormat 5).run []).1 =
      .error (.error (.truncatedEnvelope .payload)) := by
    rw [decodeBody_payload source crc32cReference testFormat (by decide)]
    rfl
  show ((decodeReader crc32cReference testFormat source (2 ^ 63)).run _).1 = _
  rw [(follows_decodeReader source crc32cReference testFormat (2 ^ 63) _).1,
    decodeReader_eq_allocate source.flat crc32cReference testFormat (by decide)]
  show ((readHeader source.flat testFormat (2 ^ 63) >>= _).run (headerBytes testFormat 5)).1 = _
  rw [Reader.run_bind_ok hheader, Reader.run_bind_ok hallocate, hbody]

end Sections

/-- A maximum that is accepted, and a header that declares as much: the decoder panics. -/
theorem decoder_panics :
    let source : Source IoError (List UInt8) := Source.ofBytes none nofun
    validateMaximum (2 ^ 63) = .ok () ∧
      ((decodeReader crc32cReference testFormat source (2 ^ 63)).run
        (headerBytes testFormat (2 ^ 63))).1 = .error .panic ∧
      ¬ RejectsUnrepresentable testFormat (2 ^ 63) (headerBytes testFormat (2 ^ 63))
        ((decodeReader crc32cReference testFormat source (2 ^ 63)).run
          (headerBytes testFormat (2 ^ 63))) := by
  intro source
  have hheader : (readHeader source testFormat (2 ^ 63)).run (headerBytes testFormat (2 ^ 63)) =
      (.ok (headerBytes testFormat (2 ^ 63), 2 ^ 63), []) := by
    have h := readHeader_headerBytes source testFormat (by decide : 2 ^ 63 < u64Limit)
      (Nat.le_refl (2 ^ 63)) []
    rwa [List.append_nil] at h
  have hpanic : ((decodeReader crc32cReference testFormat source (2 ^ 63)).run
      (headerBytes testFormat (2 ^ 63))).1 = .error .panic := by
    have hallocate : (allocate (2 ^ 63) : DecodeM _ Unit).run [] = (.error .panic, ([] : List UInt8)) := by
      rw [allocate, if_pos (by decide)]
      rfl
    rw [decodeReader_eq_allocate source crc32cReference testFormat (by decide),
      Reader.run_bind_ok hheader, Reader.run_bind_error hallocate]
  exact ⟨rfl, hpanic, fun h => h.no_panic hpanic⟩

/-! ## CRC-32C notices every short window

  `crc32cReference` computes the checksum bit by bit on a `UInt32`.  Each step is one of a linear
  feedback shift register, so what is known about such registers in general applies to it. -/

/-- Two messages of one length that differ only within four consecutive bytes have different
    checksums. -/
def SeparatesWindows (crc32c : Crc32c) : Prop :=
  ∀ front x y back : List UInt8, x.length = y.length → x.length ≤ 4 →
    crc32c.checksum (front ++ x ++ back) = crc32c.checksum (front ++ y ++ back) → x = y

/-- The CRC-32C polynomial, reflected. -/
def crc32cPolynomial : BitVec 32 := 0x82F63B78#32

/-- The bit that falls out, as a test of the word and as a bit. -/
theorem low_bit_iff (r : UInt32) : r &&& 1 = 1 ↔ r.toBitVec.getLsbD 0 = true := by
  rw [← UInt32.toNat_inj, UInt32.toNat_and]
  show r.toNat &&& 1 = 1 ↔ r.toNat.testBit 0 = true
  rw [Nat.and_one_is_mod, Nat.testBit_zero, decide_eq_true_iff]

/-- One bit is one shift of the register, -/
theorem crc32cBit_toBitVec (r : UInt32) :
    (crc32cBit r).toBitVec = FeedbackRegister.shift crc32cPolynomial r.toBitVec := by
  unfold crc32cBit FeedbackRegister.shift
  by_cases hlow : r &&& 1 = 1
  · rw [if_pos hlow, if_pos ((low_bit_iff r).mp hlow)]
    rfl
  · rw [if_neg hlow, if_neg fun h => hlow ((low_bit_iff r).mpr h)]
    rfl

/-- one byte feeds it, -/
theorem crc32cByte_toBitVec (r : UInt32) (byte : UInt8) :
    (crc32cByte r byte).toBitVec = FeedbackRegister.feed crc32cPolynomial r.toBitVec byte := by
  have hrange : List.range 8 = [0, 1, 2, 3, 4, 5, 6, 7] := rfl
  unfold crc32cByte
  rw [hrange]
  simp only [List.foldl_cons, List.foldl_nil, crc32cBit_toBitVec, UInt32.toBitVec_xor,
    UInt8.toBitVec_toUInt32]
  rfl

/-- and a message feeds it byte by byte. -/
theorem crc32c_toBitVec (bytes : List UInt8) (r : UInt32) :
    (bytes.foldl crc32cByte r).toBitVec =
      FeedbackRegister.feedAll crc32cPolynomial r.toBitVec bytes := by
  induction bytes generalizing r with
  | nil => rfl
  | cons byte bytes ih =>
    rw [List.foldl_cons, ih, crc32cByte_toBitVec]
    rfl

/-- **CRC-32C separates windows of four bytes**: what precedes them leaves one register, and what
    follows them loses nothing. -/
theorem crc32cReference_separates : SeparatesWindows crc32cReference := by
  intro front x y back hlen hshort h
  have htop : crc32cPolynomial.getLsbD (32 - 1) = true := by decide
  have hregister : (front ++ x ++ back).foldl crc32cByte (~~~0) =
      (front ++ y ++ back).foldl crc32cByte (~~~0) := by
    have hnot := congrArg (~~~ ·) h
    simpa [Crc32c.checksum, crc32cReference] using hnot
  have hbits := congrArg UInt32.toBitVec hregister
  rw [crc32c_toBitVec, crc32c_toBitVec] at hbits
  simp only [FeedbackRegister.feedAll, List.foldl_append] at hbits
  have hwindow := FeedbackRegister.feedAll_inj crc32cPolynomial htop back hbits
  exact FeedbackRegister.feedAll_window_inj crc32cPolynomial htop hlen (by omega) hwindow

/-! ## Damage

  Damage inside the bytes that the checksum covers is found by the checksum, whatever the damaged
  header declares: a length that was changed leads to other sections, but what was summed is still
  another message. -/

section Damage

variable {σ : Type} (source : Source IoError σ) (crc32c : Crc32c) (format : BlobFormatIdentity)

/-- The bytes that the checksum covers. -/
abbrev covered (payload : List UInt8) : List UInt8 := headerBytes format payload.length ++ payload

/-- The checksum of an envelope. -/
abbrev sumBytes (payload : List UInt8) : List UInt8 :=
  toBeBytes 4 (crc32c.checksum (covered format payload)).toNat

theorem envelope_eq (payload : List UInt8) :
    envelope crc32c format payload = covered format payload ++ sumBytes crc32c format payload := rfl

/-- Another payload of the same length whose envelope has the same checksum bytes has the same
    checksum. -/
theorem checksum_eq_of_sumBytes {p q : List UInt8}
    (h : sumBytes crc32c format p = sumBytes crc32c format q) :
    crc32c.checksum (covered format p) = crc32c.checksum (covered format q) :=
  UInt32.toNat_inj.mp (toBeBytes_inj (UInt32.toNat_lt _) (UInt32.toNat_lt _) h)

/-- **A short window inside header and payload never gives another envelope.** -/
theorem window_not_envelope (hcrc : SeparatesWindows crc32c) {payload q front x y back : List UInt8}
    (hsplit : covered format payload = front ++ x ++ back) (hlen : x.length = y.length)
    (hshort : x.length ≤ 4) (hne : x ≠ y) :
    front ++ y ++ back ++ sumBytes crc32c format payload ≠ envelope crc32c format q := by
  intro heq
  rw [envelope_eq] at heq
  obtain ⟨hcovered, hsum⟩ := List.append_inj' heq (by rw [length_toBeBytes, length_toBeBytes])
  refine hne (hcrc front x y back hlen hshort ?_)
  rw [hcovered, ← hsplit]
  exact checksum_eq_of_sumBytes crc32c format hsum

/-- Other checksum bytes never give another envelope. -/
theorem sum_not_envelope {payload q sum : List UInt8} (hlen : sum.length = checksumLen)
    (hne : sum ≠ sumBytes crc32c format payload) :
    covered format payload ++ sum ≠ envelope crc32c format q := by
  intro heq
  rw [envelope_eq] at heq
  obtain ⟨hcovered, hsum⟩ := List.append_inj' heq (by rw [hlen, length_toBeBytes]; rfl)
  obtain ⟨hheader, hpayload⟩ := List.append_inj hcovered (by simp)
  exact hne (by rw [hsum, hpayload])

/-- The first section of the layout that a number of bytes does not contain. -/
def firstIncomplete (payloadLen n : Nat) : EnvelopeSection :=
  if n < 8 then .magic
  else if n < 10 then .version
  else if n < 18 then .payloadLength
  else if n < 18 + payloadLen then .payload
  else .checksum

/-- At the clean end of a stream a cut section is reported by its name. -/
theorem endingError_none (hending : source.ending = none) (sec : EnvelopeSection) :
    endingError source sec = .error (.truncatedEnvelope sec) := by
  unfold endingError sectionError
  rw [hending]
  rfl

/-- The header read of a cut header reports the section of the cut. -/
theorem readHeader_cut (hending : source.ending = none) {maximum payloadLen n : Nat}
    (hn : n < 18) (declared : Nat) :
    (readHeader source.flat format maximum).run ((headerBytes format declared).take n) =
      (.error (.error (.truncatedEnvelope (firstIncomplete payloadLen n))), []) := by
  have htag : format.domainTag.toList.length = 8 := length_domainTag format
  have hversion : (toBeBytes 2 format.envelopeVersion.toNat).length = 2 := length_toBeBytes _ _
  unfold firstIncomplete
  by_cases h8 : n < 8
  · rw [if_pos h8, readHeader_magic source format (by rw [List.length_take]; show _ < 8; omega),
      endingError_none source hending]
  rw [if_neg h8]
  have hfirst : (headerBytes format declared).take n = format.domainTag.toList ++
      ((toBeBytes 2 format.envelopeVersion.toNat ++ toBeBytes 8 declared).take (n - 8)) := by
    rw [headerBytes, List.append_assoc, List.take_append, htag,
      List.take_of_length_le (by omega : format.domainTag.toList.length ≤ n)]
  rw [hfirst]
  by_cases h10 : n < 10
  · rw [if_pos h10, readHeader_version source format (by rw [List.length_take]; omega),
      endingError_none source hending]
  rw [if_neg h10, if_pos hn]
  have hsecond : (toBeBytes 2 format.envelopeVersion.toNat ++ toBeBytes 8 declared).take (n - 8) =
      toBeBytes 2 format.envelopeVersion.toNat ++ (toBeBytes 8 declared).take (n - 8 - 2) := by
    rw [List.take_append, hversion, List.take_of_length_le (by omega)]
  rw [hsecond, readHeader_payloadLength source format (by rw [List.length_take]; omega),
    endingError_none source hending]

/-- **A cut is reported by the section it falls into**, over the unfragmented stream. -/
theorem decodeReader_cut (hending : source.ending = none) {maximum n : Nat}
    (hmax : SafeMaximum maximum) {payload : List UInt8} (hle : payload.length ≤ maximum)
    (hn : n < (envelope crc32c format payload).length) :
    ((decodeReader crc32c format source.flat maximum).run
        ((envelope crc32c format payload).take n)).1 =
      .error (.error (.truncatedEnvelope (firstIncomplete payload.length n))) := by
  have hbound : maximum + 22 ≤ 2 ^ 63 - 1 := hmax
  have hlimit : maximum < u64Limit := by show _ < 2 ^ 64; omega
  have hheader : (headerBytes format payload.length).length = 18 := length_headerBytes format _
  rw [length_envelope] at hn
  rw [decodeReader_eq source.flat crc32c format hmax]
  by_cases h18 : n < 18
  · have hcut : (envelope crc32c format payload).take n =
        (headerBytes format payload.length).take n := by
      rw [envelope, List.append_assoc, List.take_append, hheader, Nat.sub_eq_zero_of_le (by omega)]
      exact List.append_nil _
    rw [hcut, Reader.run_bind_error (readHeader_cut source format hending h18 payload.length)]
  have hcut : (envelope crc32c format payload).take n = headerBytes format payload.length ++
      ((payload ++ sumBytes crc32c format payload).take (n - 18)) := by
    rw [envelope, List.append_assoc, List.take_append, hheader,
      List.take_of_length_le (by omega : (headerBytes format payload.length).length ≤ n)]
  rw [hcut, Reader.run_bind_ok (readHeader_headerBytes source format hlimit hle _)]
  unfold firstIncomplete
  rw [if_neg (by omega), if_neg (by omega), if_neg h18]
  by_cases hp : n < 18 + payload.length
  · rw [if_pos hp, decodeBody_payload source crc32c format
      (by rw [List.length_take, List.length_append]; omega), endingError_none source hending]
  · have hsum : (sumBytes crc32c format payload).length = 4 := length_toBeBytes _ _
    rw [if_neg hp, List.take_append, List.take_of_length_le (by omega),
      decodeBody_checksum source crc32c format rfl
        (by rw [List.length_take, hsum]; show _ < 4; omega), endingError_none source hending]

/-- **What follows an envelope is reported as trailing data**, over the unfragmented stream. -/
theorem decodeReader_trailing {maximum : Nat} (hmax : SafeMaximum maximum) {payload more : List UInt8}
    (hle : payload.length ≤ maximum) (hmore : more ≠ []) :
    ((decodeReader crc32c format source.flat maximum).run
      (envelope crc32c format payload ++ more)).1 = .error (.error .trailingData) := by
  have hbound : maximum + 22 ≤ 2 ^ 63 - 1 := hmax
  have hlimit : maximum < u64Limit := by show _ < 2 ^ 64; omega
  have hsum : (sumBytes crc32c format payload).length = checksumLen := length_toBeBytes _ _
  rw [decodeReader_eq source.flat crc32c format hmax, envelope, List.append_assoc, List.append_assoc,
    Reader.run_bind_ok (readHeader_headerBytes source format hlimit hle _),
    decodeBody_full source crc32c format rfl hsum]
  cases more with
  | nil => exact absurd rfl hmore
  | cons byte more =>
    unfold finish
    rw [Reader.run_bind_error (expectEof_cons source byte more)]

/-- Both decoders fail on a stream. -/
def BothFail (maximum : Nat) (s : σ) : Prop :=
  (∀ payload, ((decodeReader crc32c format source maximum).run s).1 ≠ .ok payload) ∧
    ∀ metadata, ((validateEnvelopeReader crc32c format source maximum).run s).1 ≠ .ok metadata

/-- Both decoders fail with one error. -/
def BothReport (maximum : Nat) (e : AtomicBlobStoreError) (s : σ) : Prop :=
  ((decodeReader crc32c format source maximum).run s).1 = .error (.error e) ∧
    ((validateEnvelopeReader crc32c format source maximum).run s).1 = .error (.error e)

/-- A stream that is no envelope is refused by both decoders. -/
theorem bothFail_of_not_envelope (hending : source.ending = none) {maximum : Nat}
    (hmax : SafeMaximum maximum) {s : σ}
    (h : ∀ q : List UInt8, q.length ≤ maximum → source.rest s ≠ envelope crc32c format q) :
    BothFail source crc32c format maximum s := by
  have hdecode : ∀ q, ((decodeReader crc32c format source maximum).run s).1 ≠ .ok q := by
    intro q hq
    rw [decodeReader_ok_iff source crc32c format hending hmax,
      encodeEnvelope_ok_iff crc32c format hmax] at hq
    exact h q hq.1 hq.2
  refine ⟨hdecode, fun metadata hok => ?_⟩
  have hagree := (decoders_agree source crc32c format hmax s).ok_iff metadata.payloadLen
  obtain ⟨q, hq, -⟩ := hagree.mp hok
  exact hdecode q hq

/-- An error of the complete decoder over the unfragmented stream is one of both decoders over every
    fragmentation. -/
theorem bothReport_of_flat {maximum : Nat} (hmax : SafeMaximum maximum) {s : σ}
    {e : AtomicBlobStoreError}
    (h : ((decodeReader crc32c format source.flat maximum).run (source.rest s)).1 =
      .error (.error e)) : BothReport source crc32c format maximum e s := by
  have hdecode : ((decodeReader crc32c format source maximum).run s).1 = .error (.error e) := by
    rw [(follows_decodeReader source crc32c format maximum s).1, h]
  exact ⟨hdecode, ((decoders_agree source crc32c format hmax s).error_iff _).mpr hdecode⟩

/-- What the decoders notice about a stream that was made from the envelope of a payload. -/
structure DamageDetected (maximum : Nat) (payload : List UInt8) : Prop where
  /-- A change within four consecutive bytes of header and payload. -/
  window : ∀ s front x y back, covered format payload = front ++ x ++ back → x.length = y.length →
    x.length ≤ 4 → x ≠ y →
    source.rest s = front ++ y ++ back ++ sumBytes crc32c format payload →
    BothFail source crc32c format maximum s
  /-- A change of the checksum bytes. -/
  checksum : ∀ s sum, sum.length = checksumLen → sum ≠ sumBytes crc32c format payload →
    source.rest s = covered format payload ++ sum → BothFail source crc32c format maximum s
  /-- Something behind the envelope. -/
  appended : ∀ s more, more ≠ [] → source.rest s = envelope crc32c format payload ++ more →
    BothReport source crc32c format maximum .trailingData s
  /-- An end before the end of the envelope. -/
  cut : ∀ s n, n < (envelope crc32c format payload).length →
    source.rest s = (envelope crc32c format payload).take n →
    BothReport source crc32c format maximum
      (.truncatedEnvelope (firstIncomplete payload.length n)) s

/-- **Accidental damage is always detected**, by both decoders and over every reader of the damaged
    bytes.  Both fail; what was appended or cut off they report with the same error. -/
theorem damage_detected (hending : source.ending = none) {maximum : Nat}
    (hmax : SafeMaximum maximum) (hcrc : SeparatesWindows crc32c) {payload bytes : List UInt8}
    (hvalid : encodeEnvelope crc32c format payload maximum = .ok bytes) :
    bytes = covered format payload ++ sumBytes crc32c format payload ∧
      DamageDetected source crc32c format maximum payload := by
  have hbound : maximum + 22 ≤ 2 ^ 63 - 1 := hmax
  obtain ⟨hle, rfl⟩ := (encodeEnvelope_ok_iff crc32c format hmax payload bytes).mp hvalid
  refine ⟨rfl, ?_, ?_, ?_, ?_⟩
  · intro s front x y back hsplit hlen hshort hne hrest
    refine bothFail_of_not_envelope source crc32c format hending hmax fun q hq => ?_
    rw [hrest]
    exact window_not_envelope crc32c format hcrc hsplit hlen hshort hne
  · intro s sum hlen hne hrest
    refine bothFail_of_not_envelope source crc32c format hending hmax fun q hq => ?_
    rw [hrest]
    exact sum_not_envelope crc32c format hlen hne
  · intro s more hmore hrest
    refine bothReport_of_flat source crc32c format hmax ?_
    rw [hrest]
    exact decodeReader_trailing source crc32c format hmax hle hmore
  · intro s n hn hrest
    refine bothReport_of_flat source crc32c format hmax ?_
    rw [hrest]
    exact decodeReader_cut source crc32c format hending hmax hle hn

/-- The theorem at an envelope of one byte, with the real checksum: a flipped bit in its length
    field is noticed. -/
theorem damage_detected_sample :
    let source : Source IoError (List UInt8) := Source.ofBytes none nofun
    BothFail source crc32cReference testFormat 5
      (testFormat.domainTag.toList ++ [0, 1, 0, 0, 0, 0, 0, 0, 0] ++ [3] ++ [7] ++
        sumBytes crc32cReference testFormat [7]) := by
  intro source
  have hvalid : encodeEnvelope crc32cReference testFormat [7] 5 =
      .ok (envelope crc32cReference testFormat [7]) :=
    (encodeEnvelope_ok_iff crc32cReference testFormat (by decide) [7] _).mpr ⟨by decide, rfl⟩
  exact (damage_detected source crc32cReference testFormat rfl (by decide : SafeMaximum 5)
    crc32cReference_separates hvalid).2.window _
    (testFormat.domainTag.toList ++ [0, 1, 0, 0, 0, 0, 0, 0, 0]) [1] [3] [7] (by decide) rfl
    (by decide) (by decide) rfl

end Damage

end AtomicBlobStore
