/-
  Errors and result data (`error.rs`).

  An `io::Error` is its kind and what it holds: the raw code of the operating system, or the message
  that the store gives to an error of its own.  Two errors of one kind can so be told apart; this is
  all the store ever looks at.  `Abort` adds the one way out of a function that is not a `Result`: a
  panic.
-/
import AtomicBlobStore.Config
import AtomicBlobStore.Lib.Source

namespace AtomicBlobStore

/-- The `io::ErrorKind`s the store distinguishes; every other kind is `other`. -/
inductive ErrorKind
  | notFound
  | alreadyExists
  | unexpectedEof
  | interrupted
  | other (kind : Nat)
  deriving DecidableEq, Repr

/-- What an `io::Error` holds besides its kind: the code of the operating system, the message given to
    `io::Error::other`, or nothing that anybody looks at. -/
inductive IoErrorData
  /-- A code of the operating system. -/
  | os (code : Nat)
  /-- The text of `io::Error::other`. -/
  | message (text : List Char)
  /-- Nothing: the kind says it all. -/
  | simple
  deriving DecidableEq, Repr

/-- A numeral is a code of the operating system. -/
instance (n : Nat) : OfNat IoErrorData n := ⟨.os n⟩

/-- `std::io::Error`. -/
structure IoError where
  kind : ErrorKind
  data : IoErrorData
  deriving DecidableEq, Repr

/-- `io::Error::other`. -/
def IoError.withMessage (text : List Char) : IoError := ⟨.other 0, .message text⟩

instance : ReadError IoError where
  interrupted e := e.kind == .interrupted
  unexpectedEof := ⟨.unexpectedEof, .simple⟩

/-- `StoreOperation`: the filesystem operation named by an `Io` error, with the words it is named by. -/
inductive StoreOperation
  /-- resolve the current directory -/
  | resolveCurrentDirectory
  /-- normalize the configured root path -/
  | normalizeRoot
  /-- start store initialization -/
  | startInitialization
  /-- start the blob-store coordinator -/
  | startCoordinator
  /-- inspect configured root -/
  | inspectRoot
  /-- inspect namespace directory -/
  | inspectNamespace
  /-- create namespace directory -/
  | createNamespace
  /-- open configured root directory -/
  | openRootDirectory
  /-- synchronize configured root directory -/
  | syncRootDirectory
  /-- open blob -/
  | openBlob
  /-- read blob envelope -/
  | readEnvelope
  /-- open atomic blob writer -/
  | openAtomicWriter
  /-- write blob envelope -/
  | writeEnvelope
  /-- remove blob -/
  | removeBlob
  /-- open namespace directory -/
  | openNamespaceDirectory
  /-- synchronize namespace directory -/
  | syncNamespaceDirectory
  /-- inspect blob -/
  | inspectBlob
  /-- quarantine blob -/
  | quarantineBlob
  /-- generate a diagnostic identifier -/
  | generateIdentifier
  /-- enumerate owned temporary files -/
  | enumerateTemporaryFiles
  /-- remove an owned temporary file -/
  | removeTemporaryFile
  /-- refresh clear-staging age -/
  | refreshClearStagingAge
  deriving DecidableEq, Repr

/-- `EnvelopeSection`: the section that ended prematurely. -/
inductive EnvelopeSection
  | magic
  | version
  | payloadLength
  | payload
  | checksum
  deriving DecidableEq, Repr

/-- `QuarantineInfo`: where a quarantined blob went. -/
structure QuarantineInfo where
  identifier : List Char
  diagnosticPath : FileName
  deriving DecidableEq, Repr

/-- `AtomicBlobStoreError`, with the data each variant carries.  The sources of `io` errors are kept,
    since the retry loops look at their kinds. -/
inductive AtomicBlobStoreError
  /-- The one configuration error that a decoder or an encoder can meet. -/
  | invalidMaximumBlobSize (maximum : Nat)
  /-- A call of the system failed, while attempting the operation. -/
  | io (operation : StoreOperation) (source : IoError)
  /-- Replacement failed after complete staging: the canonical state may be old or new. -/
  | atomicCommit (source : IoError)
  /-- The configured root does not exist, -/
  | rootDoesNotExist
  /-- or is not a directory. -/
  | rootIsNotDirectory
  /-- The namespace path exists but is not a directory. -/
  | namespacePathIsNotDirectory
  /-- The envelope belongs to a different domain, -/
  | invalidEnvelopeDomain (expected found : List UInt8)
  /-- has another version, -/
  | unsupportedEnvelopeVersion (found : UInt16)
  /-- or ended while a section was being read. -/
  | truncatedEnvelope (envelopeSection : EnvelopeSection)
  /-- The payload exceeds the configured maximum. -/
  | blobTooLarge (size maximum : Nat)
  /-- The declared length cannot be represented safely. -/
  | invalidPayloadLength (declared : Nat)
  /-- Something follows the envelope. -/
  | trailingData
  /-- The stored checksum is not the one that was calculated. -/
  | checksumMismatch (expected actual : UInt32)
  /-- Streaming input ended before what was declared, -/
  | inputEndedEarly (declared actual : Nat)
  /-- goes on after it, -/
  | inputHasTrailingData (declared : Nat)
  /-- or cannot be read. -/
  | inputIo (source : IoError)
  /-- Streaming output cannot be written. -/
  | outputIo (source : IoError)
  /-- A streaming transfer was cancelled before completion. -/
  | streamCancelled
  /-- The store is closed. -/
  | storeClosed
  /-- The execution engine failed. -/
  | engineFailed
  /-- There is no worker for a job. -/
  | workerUnavailable
  /-- The shutdown failed. -/
  | shutdownFailure
  /-- There is no canonical blob to quarantine. -/
  | quarantineSourceMissing
  /-- The move to a diagnostic path failed. -/
  | quarantineCommit (source : IoError)
  /-- The move was made, and the synchronization that followed it failed. -/
  | quarantineNamespaceSync (quarantine : QuarantineInfo) (source : IoError)
  /-- There is no cleanup on this platform. -/
  | cleanupUnsupported (platform : List Char)
  /-- The minimum age of a cleanup must be greater than zero. -/
  | invalidCleanupAge
  /-- The random generator failed. -/
  | identifierGeneration (code : Nat)
  /-- The blob path is no regular file. -/
  | unexpectedFileType
  /-- Store-wide maintenance could not be coordinated. -/
  | maintenanceCoordinationFailure
  deriving DecidableEq, Repr

/-- How a function stops short: with a typed error, or by panicking. -/
inductive Abort
  /-- It returns `Err`. -/
  | error (e : AtomicBlobStoreError)
  /-- It panics, which a worker catches. -/
  | panic
  deriving DecidableEq, Repr

/-- `BlobMetadata`. -/
structure BlobMetadata where
  payloadLen : Nat
  deriving DecidableEq, Repr

/-- `BlobState`. -/
inductive BlobState
  | absent
  | present
  deriving DecidableEq, Repr

/-- `BlobInspection`; a modification time is a number of ticks. -/
structure BlobInspection where
  /-- Whether there is a file. -/
  state : BlobState
  /-- Its size on disk, envelope included. -/
  size : Option Nat
  /-- The time of its last change, where the system tells it. -/
  modified : Option Nat
  deriving DecidableEq, Repr

/-- `CleanupFailure`. -/
structure CleanupFailure where
  identifier : FileName
  source : IoError
  deriving DecidableEq, Repr

/-- `CleanupReport`. -/
structure CleanupReport where
  /-- What was deleted. -/
  removed : List FileName
  /-- What was too young. -/
  skipped : List FileName
  /-- What could not be dealt with. -/
  failures : List CleanupFailure
  deriving DecidableEq, Repr

end AtomicBlobStore
