/-
  The envelope format (`format.rs`): the encoder and the two decoders.

  `encodeEnvelope` lays out `tag ++ version ++ length ++ payload ++ checksum`.  `decodeReader` reads
  the payload in one piece and re-derives the checksum from four re-encoded pieces;
  `validateEnvelopeReader` keeps the header buffer and runs the checksum over 64 KiB blocks.  Both
  are `Reader` programs over an arbitrary `Source`, so they are defined for every way a reader may
  fragment its answers and for a read error at any offset.

  `crc32c` is a third-party function.  What the format relies on is that appending is compatible
  with concatenation; `Crc32c` bundles a function with exactly that law, and `crc32cReference` is
  the bitwise CRC-32C, as one instance of it.
-/
import AtomicBlobStore.Error
import AtomicBlobStore.Lib.BigEndian

namespace AtomicBlobStore

open BigEndian

/-! ## The checksum

  The format only ever appends: the encoder runs the checksum on as it writes, the one decoder over four
  pieces and the other over blocks.  All of it rests on one law, which the structure carries. -/

/-- `crc32c::crc32c_append`, with the law that makes a running checksum meaningful. -/
structure Crc32c where
  /-- `crc32c_append`: a checksum, carried on over more bytes. -/
  append : UInt32 → List UInt8 → UInt32
  /-- It does not matter how the bytes are cut up. -/
  append_append : ∀ crc x y, append (append crc x) y = append crc (x ++ y)

/-- `crc32c::crc32c`: the checksum of one byte string. -/
def Crc32c.checksum (crc32c : Crc32c) (bytes : List UInt8) : UInt32 := crc32c.append 0 bytes

/-- One bit of the reflected CRC-32C register. -/
def crc32cBit (register : UInt32) : UInt32 :=
  if register &&& 1 = 1 then (register >>> 1) ^^^ 0x82F63B78 else register >>> 1

/-- One byte of the reflected CRC-32C register. -/
def crc32cByte (register : UInt32) (byte : UInt8) : UInt32 :=
  (List.range 8).foldl (fun r _ => crc32cBit r) (register ^^^ byte.toUInt32)

/-- The CRC-32C of the source's dependency, bit by bit: the register is complemented on the way in
    and on the way out. -/
def crc32cReference : Crc32c where
  append crc bytes := ~~~(bytes.foldl crc32cByte (~~~crc))
  append_append crc x y := by rw [UInt32.not_not, List.foldl_append]

/-! ## Encoding

  A payload is encoded around: the header and the checksum are made first and the payload is never
  copied. The streaming encoder (`writeStreamEnvelope`) makes the same header from a declared length. -/

/-- `validate_maximum`: the overhead of an envelope must still fit into a `u64`. -/
def validateMaximum (maximum : Nat) : Except AtomicBlobStoreError Unit :=
  if maximum + (headerLen + checksumLen) ≥ u64Limit then .error (.invalidMaximumBlobSize maximum)
  else .ok ()

/-- `u64::try_from(payload.len())`, with the error the source reports when it does not fit. -/
def payloadSize (payload : List UInt8) : Except AtomicBlobStoreError Nat :=
  if payload.length < u64Limit then .ok payload.length
  else .error (.invalidPayloadLength (u64Limit - 1))

/-- The 18 header bytes: domain tag, version, payload length. -/
def headerBytes (format : BlobFormatIdentity) (size : Nat) : List UInt8 :=
  format.domainTag.toList ++ toBeBytes 2 format.envelopeVersion.toNat ++ toBeBytes 8 size

/-- `envelope_header`. -/
def envelopeHeader (format : BlobFormatIdentity) (size maximum : Nat) :
    Except AtomicBlobStoreError (List UInt8) :=
  if size > maximum then .error (.blobTooLarge size maximum) else .ok (headerBytes format size)

/-- `envelope_parts`: the header and the checksum around a payload.  The checksum covers the header too. -/
def envelopeParts (crc32c : Crc32c) (format : BlobFormatIdentity) (payload : List UInt8)
    (maximum : Nat) : Except AtomicBlobStoreError (List UInt8 × List UInt8) := do
  let size ← payloadSize payload
  let header ← envelopeHeader format size maximum
  let checksum := toBeBytes 4 (crc32c.append (crc32c.checksum header) payload).toNat
  pure (header, checksum)

/-- `encode_envelope`. -/
def encodeEnvelope (crc32c : Crc32c) (format : BlobFormatIdentity) (payload : List UInt8)
    (maximum : Nat) : Except AtomicBlobStoreError (List UInt8) := do
  let (header, checksum) ← envelopeParts crc32c format payload maximum
  pure (header ++ payload ++ checksum)

/-! ## Decoding

  Two decoders for one format.  `decodeReader` allocates a buffer for the payload it was promised and
  fills it; `validateEnvelopeReader` walks over the payload without keeping it, for a load that will
  stream it in a second pass.  Each checks tag, version and length in this order, before it looks at the
  payload, and reports the section in which the input ended. -/

section Decode

variable {σ : Type} (crc32c : Crc32c) (format : BlobFormatIdentity) (source : Source IoError σ)

/-- A decoder over a reader state `σ`: it may stop with a typed error, or panic. -/
abbrev DecodeM (σ α : Type) := Reader Abort σ α

/-- Return a typed error. -/
def DecodeM.throwError {α : Type} (e : AtomicBlobStoreError) : DecodeM σ α := Reader.fail (.error e)

/-- How `read_section` reports a failed `read_exact`. -/
def sectionError (envelopeSection : EnvelopeSection) (e : IoError) : Abort :=
  if e.kind = .unexpectedEof then .error (.truncatedEnvelope envelopeSection)
  else .error (.io .readEnvelope e)

/-- `read_section`: fill a buffer of `n` bytes. -/
def readSection (n : Nat) (envelopeSection : EnvelopeSection) : DecodeM σ (List UInt8) :=
  Reader.exactly source (sectionError envelopeSection) n

/-- The one-byte read that must find the end of the file. -/
def expectEof : DecodeM σ Unit := do
  match ← Reader.probe source with
  | .ok [] => pure ()
  | .ok (_ :: _) => DecodeM.throwError .trailingData
  | .error e => DecodeM.throwError (.io .readEnvelope e)

/-- `vec![0; n]`: `Vec` panics when asked for more than `isize::MAX` bytes.  A smaller buffer that the
    allocator refuses ends the process (`handle_alloc_error` aborts), which is outside the model: every
    buffer up to `isize::MAX` bytes is granted. -/
def allocate (n : Nat) : DecodeM σ Unit :=
  if n > isizeMax then Reader.fail .panic else pure ()

/-- `decode_reader_with_usize_limit`.  The order of the checks is the order of the source: a length is
    first held against the maximum of the store, then against what can be indexed, then against overflow
    of the whole envelope; only then is the buffer allocated. -/
def decodeReaderWithUsizeLimit (maximum usizeLimit : Nat) : DecodeM σ (List UInt8) := do
  let magic ← readSection source domainTagLen .magic
  if magic ≠ format.domainTag.toList then
    DecodeM.throwError (.invalidEnvelopeDomain format.domainTag.toList magic)
  else do
  let versionBytes ← readSection source 2 .version
  let version := UInt16.ofNat (fromBeBytes versionBytes)
  if version ≠ format.envelopeVersion then
    DecodeM.throwError (.unsupportedEnvelopeVersion version)
  else do
  let length ← readSection source 8 .payloadLength
  let declared := fromBeBytes length
  if declared > maximum then DecodeM.throwError (.blobTooLarge declared maximum)
  else if declared > usizeLimit then DecodeM.throwError (.invalidPayloadLength declared)
  -- `usize::try_from(declared)` cannot fail here; `checked_add` of the overhead can
  else if declared + (headerLen + checksumLen) ≥ u64Limit then
    DecodeM.throwError (.invalidPayloadLength declared)
  else do
  allocate declared
  let payload ← readSection source declared .payload
  let checksum ← readSection source checksumLen .checksum
  expectEof source
  let actual := crc32c.append (crc32c.append (crc32c.append
    (crc32c.checksum format.domainTag.toList) (toBeBytes 2 format.envelopeVersion.toNat))
    (toBeBytes 8 declared)) payload
  let expected := UInt32.ofNat (fromBeBytes checksum)
  if expected ≠ actual then DecodeM.throwError (.checksumMismatch expected actual)
  else pure payload

/-- `decode_reader`. -/
def decodeReader (maximum : Nat) : DecodeM σ (List UInt8) :=
  decodeReaderWithUsizeLimit crc32c format source maximum (u64Limit - 1)

/-- The payload loop of `validate_envelope_reader`: read in blocks, keeping only the running
    checksum. -/
def validatePayload (actual : UInt32) (remaining : Nat) : DecodeM σ UInt32 :=
  if _ : remaining = 0 then pure actual
  else do
    let requested := min remaining streamChunkSize
    let block ← readSection source requested .payload
    validatePayload (crc32c.append actual block) (remaining - requested)
termination_by remaining
decreasing_by
  have : 0 < min remaining streamChunkSize := by
    have : 0 < streamChunkSize := by decide
    omega
  omega

/-- `validate_envelope_reader`.  It allocates no payload, so it has none of the checks that only guard
    an allocation: a length within the maximum is simply walked over. -/
def validateEnvelopeReader (maximum : Nat) : DecodeM σ BlobMetadata := do
  let tag ← readSection source domainTagLen .magic
  if tag ≠ format.domainTag.toList then
    DecodeM.throwError (.invalidEnvelopeDomain format.domainTag.toList tag)
  else do
  let versionBytes ← readSection source 2 .version
  let version := UInt16.ofNat (fromBeBytes versionBytes)
  if version ≠ format.envelopeVersion then
    DecodeM.throwError (.unsupportedEnvelopeVersion version)
  else do
  let length ← readSection source 8 .payloadLength
  let declared := fromBeBytes length
  if declared > maximum then DecodeM.throwError (.blobTooLarge declared maximum)
  else do
  -- the header buffer holds the three sections just read
  let actual ← validatePayload crc32c source (crc32c.checksum (tag ++ versionBytes ++ length)) declared
  let checksum ← readSection source checksumLen .checksum
  expectEof source
  let expected := UInt32.ofNat (fromBeBytes checksum)
  if expected ≠ actual then DecodeM.throwError (.checksumMismatch expected actual)
  else pure ⟨declared⟩

end Decode

end AtomicBlobStore
