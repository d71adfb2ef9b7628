/-
  Format identities, limits and names (`config.rs`, `path.rs`).

  A `BlobFormatIdentity` carries the proof that its suffix passed `validateSuffix`, so a name can
  never be built from an unsafe suffix.  Lengths and sizes are natural numbers; where the source's
  `u64`/`usize` bounds matter they appear explicitly (`u64Limit`, `isizeMax`), on a 64-bit target.
-/
import Mathlib.Algebra.Order.Ring.Nat

namespace AtomicBlobStore

/-! ## Constants

  Sizes of the fields of an envelope, and of the buffers that payloads are moved in.  They are numbers
  here and are never computed with at a width: where the source could overflow, the bound is written
  out. -/

/-- `DOMAIN_TAG_LEN`. -/
def domainTagLen : Nat := 8
/-- `HEADER_LEN`: domain tag, version and payload length. -/
def headerLen : Nat := 18
/-- `CHECKSUM_LEN`. -/
def checksumLen : Nat := 4
/-- `STREAM_CHUNK_SIZE`. -/
def streamChunkSize : Nat := 64 * 1024
/-- `STREAM_CHANNEL_CAPACITY`. -/
def streamChannelCapacity : Nat := 2
/-- `MAX_FILENAME_SUFFIX_LEN`. -/
def maxFilenameSuffixLen : Nat := 32

/-- One more than `u64::MAX`, which is also one more than `usize::MAX` on a 64-bit target. -/
def u64Limit : Nat := 2 ^ 64
/-- `isize::MAX` on a 64-bit target: no allocation is larger. -/
def isizeMax : Nat := 2 ^ 63 - 1

/-! ## Identities

  A store is opened for one format: a domain tag that starts every file, a version, and the suffix of
  every canonical name.  The tag and the version are free; the suffix is restricted to what is safe in a
  file name on every platform, and to what keeps the names of the store apart (`Names`). -/

/-- A byte allowed after the leading dot of a suffix: `[a-z0-9_-]`. -/
def isSuffixChar (c : Char) : Bool :=
  ('a' ≤ c && c ≤ 'z') || ('0' ≤ c && c ≤ '9') || c == '_' || c == '-'

/-- `validate_suffix`: two to thirty-two bytes matching `\.[a-z0-9_-]+`. -/
def validateSuffix (suffix : List Char) : Bool :=
  2 ≤ suffix.length && suffix.length ≤ maxFilenameSuffixLen && suffix.head? == some '.'
    && suffix.tail.all isSuffixChar

/-- `BlobFormatIdentity`: immutable identity of one application blob format.  Its constructor refuses a
    suffix that does not pass; here the proof is a field, so there is no unchecked identity to speak of. -/
structure BlobFormatIdentity where
  /-- The first bytes of every envelope. -/
  domainTag : Vector UInt8 8
  /-- What every canonical name ends in. -/
  filenameSuffix : List Char
  /-- The version that follows the tag. -/
  envelopeVersion : UInt16
  /-- The suffix passed `validate_filename_suffix`. -/
  suffixValid : validateSuffix filenameSuffix = true

/-- The identity the source's own tests use: tag `BLOBTEST`, suffix `.blob`, version 1. -/
def testFormat : BlobFormatIdentity where
  domainTag := #v[66, 76, 79, 66, 84, 69, 83, 84]
  filenameSuffix := ".blob".toList
  envelopeVersion := 1
  suffixValid := by decide

/-- The 32-byte digest that stands for a key everywhere behind the facades.  The engine hashes a key
    once, when a call comes in: queues, active keys and file names know the digest alone. -/
abbrev KeyHash := Vector UInt8 32

/-- The digit of a nibble in lowercase hexadecimal. -/
def hexDigit (n : Nat) : Char :=
  if n < 10 then Char.ofNat ('0'.toNat + n) else Char.ofNat ('a'.toNat + (n - 10))

/-- Two lowercase hexadecimal digits a byte, high nibble first. -/
def toHex (bytes : List UInt8) : List Char :=
  bytes.flatMap fun byte => [hexDigit (byte.toNat / 16), hexDigit (byte.toNat % 16)]

/-- A directory entry's name. -/
abbrev FileName := List Char

/-- `blob_filename`, from the digest of the key on: 64 hexadecimal digits and the suffix. -/
def blobFilename (format : BlobFormatIdentity) (keyHash : KeyHash) : FileName :=
  toHex keyHash.toList ++ format.filenameSuffix

@[simp] theorem length_toHex (bytes : List UInt8) : (toHex bytes).length = 2 * bytes.length := by
  induction bytes with
  | nil => rfl
  | cons byte bytes ih =>
    rw [toHex, List.flatMap_cons, List.length_append, ← toHex, ih]
    simp only [List.length_cons, List.length_nil]
    omega

/-- The hexadecimal part of a name has 64 digits. -/
theorem length_toHex_keyHash (h : KeyHash) : (toHex h.toList).length = 64 := by simp

/-- `StoreConfig`: what the operations of one open store share.  `maximum` passed
    `validate_maximum` and `max_concurrent_operations` is a `NonZeroUsize`: both are fields with their
    proofs, and what depends on them (no overflow of a total length, at least one worker) needs no
    hypothesis later. -/
structure StoreConfig where
  /-- The format of all envelopes. -/
  format : BlobFormatIdentity
  /-- The largest payload. -/
  maximum : Nat
  /-- How many operations may run at a time. -/
  maxConcurrentOperations : Nat
  /-- The maximum leaves room for the rest of an envelope. -/
  maximum_valid : maximum + (headerLen + checksumLen) < u64Limit
  /-- At least one operation may run. -/
  concurrency_pos : 0 < maxConcurrentOperations

end AtomicBlobStore
