/-
  The streaming functions of the two facades (`blocking.rs`, `tokio.rs`, and the halves of
  `engine/mod.rs` that start a stream).

  `save_from` and `load_into` are programs over the calls that they make: to the store, to the
  reader or writer they were given, to the channels they share with a worker, and to the pending
  result.  A function that returns early throws what it returns (`SaveM`, `LoadM`), so `?` and
  `return` read as in the source.

  The facades only differ in two ways.  The Tokio `save_from` waits for the result and for the
  reader at once, the result first; the blocking `write_all` tries again when it is interrupted.
  Each is one definition with that difference as a parameter, and `Blocking` and `Tokio` apply it to
  their own.
-/
import AtomicBlobStore.Error
import AtomicBlobStore.Operation
import AtomicBlobStore.Lib.Prog

namespace AtomicBlobStore

/-! ## Streaming saves

  The caller pulls from its reader and pushes into a bounded channel, and a worker pulls from that and
  writes.  Either may stop first: the reader may fail or have too little, and the worker may fail while
  the caller is still reading.  A dropped channel tells the other side, and the result tells which error
  it was. -/

/-- One call of `save_from`.  The facade of Tokio polls two futures at once where the blocking one
    reads: `select` is that choice, and an answer says which of the two was ready. -/
inductive SaveCall
  /-- `self.ensure_open()`. -/
  | ensureOpen
  /-- `submit_operation` of a streaming save, with new channels. -/
  | submit
  /-- `reader.read`, with a buffer of a size. -/
  | read (requested : Nat)
  /-- `select!`, biased: the pending result, or else `reader.read`. -/
  | select (requested : Nat)
  /-- `chunks.send`. -/
  | send (message : SaveStreamMessage)
  /-- `drop(chunks)`. -/
  | dropChunks
  /-- `result.wait()`. -/
  | wait
  deriving DecidableEq

/-- The type of answer of each call. -/
abbrev SaveCall.Answer : SaveCall → Type
  | .read _ => Except IoError (List UInt8)
  | .select _ => Except AtomicBlobStoreError Unit ⊕ Except IoError (List UInt8)
  | .send _ => Bool
  | .dropChunks => Unit
  | _ => Except AtomicBlobStoreError Unit

/-- The calls of `save_from`. -/
abbrev SaveInterface : Interface := ⟨SaveCall, SaveCall.Answer⟩

/-- A part of `save_from`, which may return. -/
abbrev SaveM (α : Type) := ProgE SaveInterface (Except AtomicBlobStoreError Unit) α

namespace SaveM

/-- One call. -/
def ask (c : SaveCall) : SaveM c.Answer := ProgE.ask (I := SaveInterface) c

/-- `result?`. -/
def orReturn : Except AtomicBlobStoreError Unit → SaveM Unit
  | .ok () => pure ()
  | .error e => throw (.error e)

/-- `return result.wait()`. -/
def returnResult {α : Type} : SaveM α := do throw (← ask .wait)

/-- `drop(chunks)`, wait for the worker to be done, and return an error.  The worker's own result is
    thrown away: it can only say that its stream was cut off. -/
def giveUp {α : Type} (e : AtomicBlobStoreError) : SaveM α := do
  ask .dropChunks
  let _ ← ask .wait
  throw (.error e)

/-- A function that has come to its end has returned. -/
def returned {α : Type} (p : ProgE SaveInterface α α) : Prog SaveInterface α :=
  p.run.bind fun
    | .ok a => .ret a
    | .error a => .ret a

end SaveM

section SaveFrom

open SaveM (ask orReturn returnResult giveUp)

variable (config : StoreConfig) (declaredLen : Nat)
  (next : Nat → SaveM (Except IoError (List UInt8)))

/-- `start_save_stream`. -/
def startSaveStream : SaveM Unit := do
  orReturn (← ask .ensureOpen)
  if declaredLen > config.maximum then throw (.error (.blobTooLarge declaredLen config.maximum))
  else orReturn (← ask .submit)

/-- One turn of the loop of `save_from`, with the number of bytes read; `next` is how the facade
    reads. -/
def saveFromTurn (read : Nat) : SaveM (Nat ⊕ Unit) :=
  if read < declaredLen then do
    match ← next (min (declaredLen - read) streamChunkSize) with
    | .ok [] => giveUp (.inputEndedEarly declaredLen read)
    | .error source => giveUp (.inputIo source)
    | .ok chunk => do
      if ← ask (.send (.chunk chunk)) then pure (.inl (read + chunk.length))
      else returnResult
  else pure (.inr ())

/-- What follows the loop of `save_from`: one byte more is asked for, and must not come. -/
def saveFromEnd : SaveM (Except AtomicBlobStoreError Unit) := do
  match ← next 1 with
  | .ok [] => do
    if ← ask (.send .complete) then do
      ask .dropChunks
      ask .wait
    else returnResult
  | .ok _ => giveUp (.inputHasTrailingData declaredLen)
  | .error source => giveUp (.inputIo source)

/-- `save_from`. -/
def saveFrom : Prog SaveInterface (Except AtomicBlobStoreError Unit) :=
  SaveM.returned (do
    startSaveStream config declaredLen
    ProgE.iterate (saveFromTurn declaredLen next) 0
    saveFromEnd declaredLen next)

end SaveFrom

/-! ## Streaming loads

  Here the worker pushes and the caller pulls.  After the last chunk the caller acknowledges, and only
  then does the worker report success: it must not say that a blob was delivered which nobody took. -/

/-- One call of `load_into`.  Both facades make the same calls. -/
inductive LoadCall
  /-- `self.ensure_open()`. -/
  | ensureOpen
  /-- `submit_operation` of a streaming load, with new channels. -/
  | submit
  /-- `chunks.recv()`. -/
  | recv
  /-- `writer.write`. -/
  | write (bytes : List UInt8)
  /-- `drop(chunks)` and `drop(acknowledgement)`. -/
  | dropEndpoints
  /-- `acknowledgement.send(())`. -/
  | acknowledge
  /-- `result.wait()`. -/
  | wait
  deriving DecidableEq

/-- The type of answer of each call. -/
abbrev LoadCall.Answer : LoadCall → Type
  | .recv => Option (List UInt8)
  | .write _ => Except IoError Nat
  | .dropEndpoints => Unit
  | .acknowledge => Unit
  | .wait => Except AtomicBlobStoreError (Option BlobMetadata)
  | _ => Except AtomicBlobStoreError Unit

/-- The calls of `load_into`. -/
abbrev LoadInterface : Interface := ⟨LoadCall, LoadCall.Answer⟩

/-- A part of `load_into`, which may return. -/
abbrev LoadM (α : Type) := ProgE LoadInterface (Except AtomicBlobStoreError (Option BlobMetadata)) α

namespace LoadM

/-- One call. -/
def ask (c : LoadCall) : LoadM c.Answer := ProgE.ask (I := LoadInterface) c

/-- `result?`. -/
def orReturn : Except AtomicBlobStoreError Unit → LoadM Unit
  | .ok () => pure ()
  | .error e => throw (.error e)

/-- A function that has come to its end has returned. -/
def returned {α : Type} (p : ProgE LoadInterface α α) : Prog LoadInterface α :=
  p.run.bind fun
    | .ok a => .ret a
    | .error a => .ret a

end LoadM

/-- The error that `write_all` makes up when a writer accepts nothing (`ErrorKind::WriteZero`). -/
def writeZero : IoError := ⟨.other 0, .simple⟩

section LoadInto

open LoadM (ask orReturn)

variable (retries : Bool)

/-- One turn of the loop of `write_all`, with what is left to write; `retries` is whether an
    interrupted write is tried again. -/
def writeAllTurn : List UInt8 → LoadM (List UInt8 ⊕ Except IoError Unit)
  | [] => pure (.inr (.ok ()))
  | bytes => do
    match ← ask (.write bytes) with
    | .ok 0 => pure (.inr (.error writeZero))
    | .ok count => pure (.inl (bytes.drop count))
    | .error source =>
      if retries && source.kind == .interrupted then pure (.inl bytes)
      else pure (.inr (.error source))

/-- `writer.write_all`. -/
def writeAll (bytes : List UInt8) : LoadM (Except IoError Unit) :=
  ProgE.iterate (writeAllTurn retries) bytes

/-- `start_load_stream`. -/
def startLoadStream : LoadM Unit := do
  orReturn (← ask .ensureOpen)
  orReturn (← ask .submit)

/-- One turn of the loop of `load_into`. -/
def loadIntoTurn (_ : Unit) : LoadM (Unit ⊕ Unit) := do
  match ← ask .recv with
  | none => pure (.inr ())
  | some chunk =>
    match ← writeAll retries chunk with
    | .ok () => pure (.inl ())
    | .error source => do
      ask .dropEndpoints
      let _ ← ask .wait
      throw (.error (.outputIo source))

/-- `load_into`. -/
def loadInto : Prog LoadInterface (Except AtomicBlobStoreError (Option BlobMetadata)) :=
  LoadM.returned (do
    startLoadStream
    ProgE.iterate (loadIntoTurn retries) ()
    ask .acknowledge
    ask .wait)

end LoadInto

/-! ## The facades

  The two are written twice in the source, once for threads and once for tasks, and are meant to behave
  alike.  Writing them as one definition shows how far that goes: `next` and `retries` are all that is
  different. -/

/-- The two facades. -/
inductive Facade
  /-- `blocking.rs` -/
  | blocking
  /-- `tokio.rs` -/
  | tokio
  deriving DecidableEq, Repr

namespace Blocking

/-- How `BlockingAtomicBlobStore::save_from` reads. -/
def next (requested : Nat) : SaveM (Except IoError (List UInt8)) := SaveM.ask (.read requested)

/-- `BlockingAtomicBlobStore::save_from`. -/
def saveFrom (config : StoreConfig) (declaredLen : Nat) :
    Prog SaveInterface (Except AtomicBlobStoreError Unit) :=
  AtomicBlobStore.saveFrom config declaredLen next

/-- `BlockingAtomicBlobStore::load_into`. -/
def loadInto : Prog LoadInterface (Except AtomicBlobStoreError (Option BlobMetadata)) :=
  AtomicBlobStore.loadInto true

end Blocking

namespace Tokio

/-- How `AtomicBlobStore::save_from` reads: if the result is there first, it is returned. -/
def next (requested : Nat) : SaveM (Except IoError (List UInt8)) := do
  match ← SaveM.ask (.select requested) with
  | .inl outcome => throw outcome
  | .inr outcome => pure outcome

/-- `AtomicBlobStore::save_from`. -/
def saveFrom (config : StoreConfig) (declaredLen : Nat) :
    Prog SaveInterface (Except AtomicBlobStoreError Unit) :=
  AtomicBlobStore.saveFrom config declaredLen next

/-- `AtomicBlobStore::load_into`. -/
def loadInto : Prog LoadInterface (Except AtomicBlobStoreError (Option BlobMetadata)) :=
  AtomicBlobStore.loadInto false

end Tokio

/-- How a facade reads. -/
def Facade.next : Facade → Nat → SaveM (Except IoError (List UInt8))
  | .blocking => Blocking.next
  | .tokio => Tokio.next

/-- `save_from`, as the facade has it. -/
def Facade.saveFrom (config : StoreConfig) (declaredLen : Nat) :
    Facade → Prog SaveInterface (Except AtomicBlobStoreError Unit)
  | .blocking => Blocking.saveFrom config declaredLen
  | .tokio => Tokio.saveFrom config declaredLen

/-- `load_into`, as the facade has it. -/
def Facade.loadInto : Facade → Prog LoadInterface (Except AtomicBlobStoreError (Option BlobMetadata))
  | .blocking => Blocking.loadInto
  | .tokio => Tokio.loadInto

end AtomicBlobStore
