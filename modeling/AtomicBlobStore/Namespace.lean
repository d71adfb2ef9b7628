/-
  The namespace directory and the calls that reach it.

  Every call of the operating system, of the random generator, of the writer dependency and of a
  chunk channel that a job makes is one `FsCall`.  `Fs` is the environment that answers them: what
  may be answered in which state, and what becomes of the directory.  A call may report an error for
  no reason that the directory shows exactly when `fault` lists it, so `Fs` with no faults is a
  filesystem that works, and `Fs` with all of them one where any step may fail.

  What `Fs` promises is the documented behaviour that the code relies on:

  * `NotFound` is reported only by a call that looks up a name, and only if the name is not there;
  * a rename, an unlink and a move either happen or report an error; only the commit of a new
    canonical file (`commit`, `moveSaveFile`) may happen and report an error all the same;
  * an uncommitted writer is not an entry of the directory, and writing to a file changes only it: the
    temporary file that the writer dependency of the Unix saves keeps until it commits has a private
    name, which is none of the store's own names and is left out of the directory;
  * the clock of the system shows a time that its files can have.
-/
import AtomicBlobStore.Operation
import AtomicBlobStore.Lib.Prog

namespace AtomicBlobStore

/-! ## The directory

  The namespace is one directory, flat: a map from names to what they stand for.  Permissions and links
  are left out, and a time is whatever a call answers; a name that is no regular file is `other`, which
  the store neither reads nor writes. What becomes durable when is the business of `Durability`, which
  keeps a record of syncs beside it. -/

/-- What a name stands for: a regular file, or anything else. -/
inductive Node
  /-- A regular file. -/
  | file (content : List UInt8)
  /-- Anything else: a directory, a link, a device. -/
  | other
  deriving DecidableEq, Repr

/-- The namespace path: a directory, nothing, or something that is not a directory. -/
inductive Disk
  /-- The namespace, with what is in it. -/
  | directory (entries : FileName → Option Node)
  /-- Nothing is there. -/
  | missing
  /-- Something else is. -/
  | notDirectory

namespace Disk

/-- The entry of a name. -/
def entry : Disk → FileName → Option Node
  | .directory entries, name => entries name
  | _, _ => none

/-- `metadata.is_dir()`. -/
def isDirectory : Disk → Bool
  | .directory _ => true
  | _ => false

/-- Change one entry. -/
def set (name : FileName) (node : Option Node) : Disk → Disk
  | .directory entries => .directory fun n => if n = name then node else entries n
  | disk => disk

/-- Give the entry of one name to another. -/
def move (source destination : FileName) (disk : Disk) : Disk :=
  (disk.set source none).set destination (disk.entry source)

variable {disk : Disk} {name n : FileName} {node : Option Node}

@[simp] theorem isDirectory_set : (disk.set name node).isDirectory = disk.isDirectory := by
  cases disk <;> rfl

@[simp] theorem isDirectory_move {source destination : FileName} :
    (disk.move source destination).isDirectory = disk.isDirectory := by
  rw [move, isDirectory_set, isDirectory_set]

theorem entry_set_ne (h : n ≠ name) : (disk.set name node).entry n = disk.entry n := by
  cases disk with
  | directory entries => exact if_neg h
  | _ => rfl

theorem entry_set_self (h : disk.isDirectory = true) : (disk.set name node).entry name = node := by
  cases disk with
  | directory entries => exact if_pos rfl
  | _ => nomatch h

@[simp] theorem entry_set_none : (disk.set name none).entry name = none := by
  cases disk with
  | directory entries => exact if_pos rfl
  | _ => rfl

/-- Only a directory has entries. -/
theorem isDirectory_of_entry {node : Node} (h : disk.entry name = some node) :
    disk.isDirectory = true := by
  cases disk with
  | directory entries => rfl
  | _ => nomatch h

theorem entry_move_ne {source destination : FileName} (hs : n ≠ source) (hd : n ≠ destination) :
    (disk.move source destination).entry n = disk.entry n := by
  rw [move, entry_set_ne hd, entry_set_ne hs]

theorem entry_move_source {source destination : FileName} (h : source ≠ destination) :
    (disk.move source destination).entry source = none := by
  rw [move, entry_set_ne h, entry_set_none]

theorem entry_move_destination {source destination : FileName} {node : Node}
    (h : disk.entry source = some node) :
    (disk.move source destination).entry destination = some node := by
  rw [move, entry_set_self (by rw [isDirectory_set]; exact isDirectory_of_entry h), h]

end Disk

/-! ## The calls -/

/-- What `symlink_metadata` tells; `modified` is `metadata.modified().ok()`, in ticks. -/
structure FileMetadata where
  isFile : Bool
  len : Nat
  modified : Option Nat

/-- `std::fs::File`, opened for reading: how its reads will be answered.  The source is chosen when the
    file is opened, and may break its bytes up in any way; a file that was replaced meanwhile is still
    read to its end, as an open handle is. -/
structure OpenFile where
  source : Source IoError Nat
  position : Nat

/-- The bytes still to be read. -/
def OpenFile.rest (file : OpenFile) : List UInt8 := file.source.rest file.position

/-- One call of a job to the world outside.  The names of system calls are those of the source's
    platforms; a call that exists on one of them only is only made by the functions of that platform. -/
inductive FsCall
  /-- `std::fs::metadata` of the namespace. -/
  | metadata
  /-- `std::fs::symlink_metadata` of a name. -/
  | symlinkMetadata (name : FileName)
  /-- `File::open` of a blob. -/
  | openFile (name : FileName)
  /-- `File::seek` from the start. -/
  | seek (file : OpenFile) (position : Nat)
  /-- `getrandom::fill` of 32 bytes. -/
  | fill
  /-- `chunks.recv()`. -/
  | recv
  /-- `chunks.send(chunk)`. -/
  | send (chunk : List UInt8)
  /-- `acknowledgement.recv()`. -/
  | recvAcknowledgement
  /-- `atomic_write_file::OpenOptions::open`. -/
  | openAtomic (name : FileName)
  /-- `write_all` of the atomic writer. -/
  | writeAtomic (bytes : List UInt8)
  /-- `AtomicWriteFile::commit`. -/
  | commit
  /-- `std::fs::remove_file`. -/
  | removeFile (name : FileName)
  /-- Open the namespace directory, and sync it. -/
  | openDirectory
  /-- `sync_all` of the directory that was opened. -/
  | syncDirectory
  /-- `renameat_with` and `RenameFlags::NOREPLACE`. -/
  | renameNoReplace (source destination : FileName)
  /-- `CreateFileW` and `CREATE_NEW`. -/
  | createNew (name : FileName)
  /-- `write_all` of a staging file. -/
  | writeFile (name : FileName) (bytes : List UInt8)
  /-- `FlushFileBuffers` of a file. -/
  | flushFile (name : FileName)
  /-- `move_windows_save_file`. -/
  | moveSaveFile (source destination : FileName) (replace : Bool)
  /-- `move_file`, without `MOVEFILE_REPLACE_EXISTING`. -/
  | moveFile (source destination : FileName)
  /-- `DeleteFileW`. -/
  | deleteFile (name : FileName)
  /-- `CreateFileW` and `OPEN_EXISTING`. -/
  | openExisting (name : FileName)
  /-- `SystemTime::now().duration_since(UNIX_EPOCH)`, in seconds and nanoseconds. -/
  | sinceEpoch
  /-- `SetFileTime` of a file. -/
  | setFileTime (name : FileName) (ticks : Nat)
  /-- `SystemTime::now()`, in ticks. -/
  | now
  /-- `std::fs::read_dir` of the namespace. -/
  | readDirectory

/-- The type of answer of each call. -/
abbrev FsCall.Answer : FsCall → Type
  | .metadata => Except IoError Bool
  | .symlinkMetadata _ => Except IoError FileMetadata
  | .openFile _ => Except IoError OpenFile
  | .seek .. => Except IoError OpenFile
  | .fill => Except Nat (Vector UInt8 32)
  | .recv => Option SaveStreamMessage
  | .send _ => Bool
  | .recvAcknowledgement => Bool
  | .sinceEpoch => Except IoError (Nat × Nat)
  | .now => Nat
  | .readDirectory => Except IoError (List (Except IoError FileName))
  | _ => Except IoError Unit

/-- The calls of a job. -/
abbrev FsInterface : Interface := ⟨FsCall, FsCall.Answer⟩

/-! ## The environment

  `Fs fault` is the trusted part of the model: nothing below is read off the store's own source, and all
  of it is documented behaviour of the systems it calls.  It is stated as weakly as the results allow:
  an error may be any error that `fault` lists, a writer that failed may have written anything, and a
  commit that failed may have happened. -/

/-- What a job works on: the directory, the atomic writer it has open (its destination and what was
    written), what came through its chunk channel and what went out, whether the other side of its
    channels was found gone, and every node put under a name by a commit or a move. -/
structure JobWorld where
  /-- The directory, as the job saw it last. -/
  disk : Disk
  /-- The atomic writer that is open, with its destination and what was written to it. -/
  writer : Option (FileName × List UInt8)
  /-- What came through the chunk channel of a streaming save, the end of the channel included. -/
  received : List (Option SaveStreamMessage)
  /-- What was sent through that of a streaming load. -/
  sent : List (List UInt8)
  /-- The other side of a streaming load was found gone. -/
  left : Bool
  /-- What was put in place under its name so far. -/
  published : List (FileName × Node)

/-- The world in which a job starts. -/
def JobWorld.start (disk : Disk) : JobWorld := ⟨disk, none, [], [], false, []⟩

/-- `ERROR_FILE_EXISTS` or `ERROR_ALREADY_EXISTS`. -/
def IoError.isFileExists (e : IoError) : Bool := e.data == 80 || e.data == 183

/-- A file time, 64 bits of 100 ns since 1601, can hold a time since 1970. -/
def FileTimeFits (seconds nanoseconds : Nat) : Prop :=
  seconds * 10000000 + nanoseconds / 100 + 116444736000000000 < u64Limit

section Fs

variable (fault : FsCall → IoError → Prop)

/-- The error of a call that looks up a name.  The store takes `NotFound` for the truth (a load answers
    that there is no blob), so this is the one error that says something about the directory. -/
def LookupError (c : FsCall) (disk : Disk) (name : FileName) (e : IoError) : Prop :=
  if e.kind = .notFound then disk.entry name = none else fault c e ∨ disk.isDirectory = false

/-- The error of a call that looks up nothing. -/
def PlainError (c : FsCall) (e : IoError) : Prop := e.kind ≠ .notFound ∧ fault c e

/-- How reads of a file may go: they deliver what is there, or fail on the way.  Nothing else is read,
    and an end of the file is only reported at its end. -/
def Delivers (c : FsCall) (file : OpenFile) (content : List UInt8) : Prop :=
  file.rest <+: content ∧ (file.source.ending = none → file.rest = content) ∧
    ∀ e, file.source.ending = some e → fault c e

/-- A move without replacing.  Where the destination is taken, nothing happens and the error says so;
    the check and the move are one step of the filesystem. -/
def Moves (c : FsCall) (source destination : FileName) (w : JobWorld) (r : Except IoError Unit)
    (w' : JobWorld) : Prop :=
  match r with
  | .ok () => ∃ node, w.disk.entry source = some node ∧ w.disk.entry destination = none ∧
      w' = { w with
        disk := w.disk.move source destination, published := w.published ++ [(destination, node)] }
  | .error e => w' = w ∧ (LookupError fault c w.disk source e ∨
      e.kind = .alreadyExists ∧ w.disk.entry destination ≠ none)

/-- An entry is removed, or not. -/
def Removes (c : FsCall) (name : FileName) (w : JobWorld) (r : Except IoError Unit)
    (w' : JobWorld) : Prop :=
  match r with
  | .ok () => w.disk.entry name ≠ none ∧ w' = { w with disk := w.disk.set name none }
  | .error e => w' = w ∧ LookupError fault c w.disk name e

/-- **The environment of a job**: which answers a call may get, and what becomes of the world.

    An answer from the other side of a channel (`recv`, `send`, `recvAcknowledgement`) may be anything
    here; what it can be when the other side is a caller is said where the caller is modelled. -/
def Fs : Environment FsInterface JobWorld
  | .metadata, w, r, w' => w' = w ∧ match r with
    | .ok isDirectory => w.disk.isDirectory = isDirectory
    | .error e => if e.kind = .notFound then w.disk.isDirectory = false else fault .metadata e
  | .symlinkMetadata name, w, r, w' => w' = w ∧ match r with
    | .ok found => match w.disk.entry name with
      | some (.file content) => found.isFile = true ∧ found.len = content.length
      | some .other => found.isFile = false
      | none => False
    | .error e => LookupError fault (.symlinkMetadata name) w.disk name e
  | .openFile name, w, r, w' => w' = w ∧ match r with
    | .ok file => match w.disk.entry name with
      | some (.file content) => Delivers fault (.openFile name) file content
      | some .other => True
      | none => False
    | .error e => LookupError fault (.openFile name) w.disk name e
  | .seek file position, w, r, w' => w' = w ∧ match r with
    | .ok moved => Delivers fault (.seek file position) moved (file.rest.drop position)
    | .error e => PlainError fault (.seek file position) e
  | .fill, w, r, w' => w' = w ∧ match r with
    | .ok _ => True
    | .error code => ∃ kind, fault .fill ⟨kind, .os code⟩
  | .recv, w, r, w' => w' = { w with received := w.received ++ [r] }
  | .send chunk, w, r, w' =>
    w' = if r then { w with sent := w.sent ++ [chunk] } else { w with left := true }
  | .recvAcknowledgement, w, r, w' => w' = if r then w else { w with left := true }
  | .openAtomic name, w, r, w' => match r with
    | .ok () => w.disk.isDirectory = true ∧ w' = { w with writer := some (name, []) }
    | .error e => w' = w ∧ (fault (.openAtomic name) e ∨ w.disk.isDirectory = false)
  | .writeAtomic bytes, w, r, w' => ∃ name content, w.writer = some (name, content) ∧ match r with
    | .ok () => w' = { w with writer := some (name, content ++ bytes) }
    | .error e => PlainError fault (.writeAtomic bytes) e ∧
        ∃ content', w' = { w with writer := some (name, content') }
  | .commit, w, r, w' => ∃ name content, w.writer = some (name, content) ∧
      let committed := { w with
        writer := none, disk := w.disk.set name (some (.file content))
        published := w.published ++ [(name, .file content)] }
      match r with
      | .ok () => w.disk.isDirectory = true ∧ w' = committed
      | .error e => (fault .commit e ∨ w.disk.isDirectory = false) ∧
          (w' = { w with writer := none } ∨ w.disk.isDirectory = true ∧ w' = committed)
  | .removeFile name, w, r, w' => Removes fault (.removeFile name) name w r w'
  | .openDirectory, w, r, w' => w' = w ∧ match r with
    | .ok () => True
    | .error e => fault .openDirectory e ∨ w.disk.isDirectory = false
  | .syncDirectory, w, r, w' => w' = w ∧ match r with
    | .ok () => True
    | .error e => fault .syncDirectory e
  | .renameNoReplace source destination, w, r, w' =>
    Moves fault (.renameNoReplace source destination) source destination w r w'
  | .createNew name, w, r, w' => match r with
    | .ok () => w.disk.isDirectory = true ∧ w.disk.entry name = none ∧
        w' = { w with disk := w.disk.set name (some (.file [])) }
    | .error e => w' = w ∧ (e.kind = .alreadyExists ∧ w.disk.entry name ≠ none ∨
        fault (.createNew name) e ∨ w.disk.isDirectory = false)
  | .writeFile name bytes, w, r, w' => ∃ content, w.disk.entry name = some (.file content) ∧
      match r with
      | .ok () => w' = { w with disk := w.disk.set name (some (.file (content ++ bytes))) }
      | .error e => PlainError fault (.writeFile name bytes) e ∧
          ∃ content', w' = { w with disk := w.disk.set name (some (.file content')) }
  | .flushFile name, w, r, w' => w' = w ∧ match r with
    | .ok () => True
    | .error e => PlainError fault (.flushFile name) e
  | .moveSaveFile source destination replace, w, r, w' =>
    let moved := fun node => { w with
      disk := w.disk.move source destination, published := w.published ++ [(destination, node)] }
    match r with
    | .ok () => ∃ node, w.disk.entry source = some node ∧
        (replace = false → w.disk.entry destination = none) ∧ w' = moved node
    | .error e =>
      (w' = w ∧ replace = false ∧ e.isFileExists = true ∧ w.disk.entry destination ≠ none) ∨
        fault (.moveSaveFile source destination replace) e ∧
          (w' = w ∨ ∃ node, w.disk.entry source = some node ∧ w' = moved node)
  | .moveFile source destination, w, r, w' =>
    Moves fault (.moveFile source destination) source destination w r w'
  | .deleteFile name, w, r, w' => Removes fault (.deleteFile name) name w r w'
  | .openExisting name, w, r, w' => w' = w ∧ match r with
    | .ok () => w.disk.entry name ≠ none
    | .error e => LookupError fault (.openExisting name) w.disk name e
  | .sinceEpoch, w, r, w' => w' = w ∧ match r with
    | .ok (seconds, nanoseconds) => FileTimeFits seconds nanoseconds ∨ ∃ e, fault .sinceEpoch e
    | .error e => PlainError fault .sinceEpoch e
  | .setFileTime name ticks, w, r, w' => w' = w ∧ match r with
    | .ok () => True
    | .error e => PlainError fault (.setFileTime name ticks) e
  | .now, w, _, w' => w' = w
  | .readDirectory, w, r, w' => w' = w ∧ match r with
    | .ok _ => w.disk.isDirectory = true
    | .error e => fault .readDirectory e ∨ w.disk.isDirectory = false

end Fs

section More

variable {fault fault' : FsCall → IoError → Prop} (hle : ∀ c e, fault c e → fault' c e)

include hle

theorem LookupError.mono {c : FsCall} {disk : Disk} {name : FileName} {e : IoError}
    (h : LookupError fault c disk name e) : LookupError fault' c disk name e := by
  unfold LookupError at h ⊢
  split at h
  · rename_i hkind
    rwa [if_pos hkind]
  · rename_i hkind
    rw [if_neg hkind]
    exact h.imp_left (hle c e)

theorem PlainError.mono {c : FsCall} {e : IoError} (h : PlainError fault c e) :
    PlainError fault' c e := h.imp_right (hle c e)

theorem Delivers.mono {c : FsCall} {file : OpenFile} {content : List UInt8}
    (h : Delivers fault c file content) : Delivers fault' c file content :=
  h.imp_right fun h => h.imp_right fun h e he => hle c e (h e he)

theorem Moves.mono {c : FsCall} {source destination : FileName} {w w' : JobWorld}
    {r : Except IoError Unit} (h : Moves fault c source destination w r w') :
    Moves fault' c source destination w r w' := by
  cases r with
  | ok u => exact h
  | error e => exact h.imp_right fun h => h.imp_left (LookupError.mono hle)

theorem Removes.mono {c : FsCall} {name : FileName} {w w' : JobWorld} {r : Except IoError Unit}
    (h : Removes fault c name w r w') : Removes fault' c name w r w' := by
  cases r with
  | ok u => exact h
  | error e => exact h.imp_right (LookupError.mono hle)

/-- **Where more may fail, what may happen may still happen.** -/
theorem fs_mono {c : FsCall} {w w' : JobWorld} {r : c.Answer} (h : Fs fault c w r w') :
    Fs fault' c w r w' := by
  cases c with
  | metadata =>
    refine h.imp_right fun h => ?_
    cases r with
    | ok isDirectory => exact h
    | error e =>
      show if e.kind = .notFound then _ else _
      have h : if e.kind = .notFound then w.disk.isDirectory = false else fault .metadata e := h
      split at h
      · rename_i hkind
        rwa [if_pos hkind]
      · rename_i hkind
        rw [if_neg hkind]
        exact hle _ _ h
  | symlinkMetadata name =>
    refine h.imp_right fun h => ?_
    cases r with
    | ok found => exact h
    | error e => exact LookupError.mono hle h
  | openFile name =>
    refine h.imp_right fun h => ?_
    cases r with
    | ok file =>
      show match w.disk.entry name with
        | some (.file content) => Delivers fault' (.openFile name) file content
        | some .other => True
        | none => False
      have h : match w.disk.entry name with
        | some (.file content) => Delivers fault (.openFile name) file content
        | some .other => True
        | none => False := h
      split at h
      · exact Delivers.mono hle h
      · trivial
      · exact h
    | error e => exact LookupError.mono hle h
  | seek file position =>
    -- what a file still delivers is what was opened, up to a failure that is allowed
    refine h.imp_right fun h => ?_
    cases r with
    | ok moved => exact Delivers.mono hle h
    | error e => exact PlainError.mono hle h
  | fill =>
    refine h.imp_right fun h => ?_
    cases r with
    | ok bytes => trivial
    | error code => exact h.imp fun kind => hle _ _
  -- the conversation with the other side has no faults
  | recv => exact h
  | send chunk => exact h
  | recvAcknowledgement => exact h
  | openAtomic name =>
    -- the writer fails at the points at which it touches the directory
    cases r with
    | ok u => exact h
    | error e => exact h.imp_right fun h => h.imp_left (hle _ e)
  | writeAtomic bytes =>
    obtain ⟨name, content, hwriter, h⟩ := h
    refine ⟨name, content, hwriter, ?_⟩
    cases r with
    | ok u => exact h
    | error e => exact h.imp_left (PlainError.mono hle)
  | commit =>
    obtain ⟨name, content, hwriter, h⟩ := h
    refine ⟨name, content, hwriter, ?_⟩
    cases r with
    | ok u => exact h
    | error e => exact h.imp_left fun h => h.imp_left (hle _ e)
  | removeFile name => exact Removes.mono hle h
  | openDirectory =>
    refine h.imp_right fun h => ?_
    cases r with
    | ok u => trivial
    | error e => exact h.imp_left (hle _ e)
  | syncDirectory =>
    refine h.imp_right fun h => ?_
    cases r with
    | ok u => trivial
    | error e => exact hle _ e h
  | renameNoReplace source destination => exact Moves.mono hle h
  | createNew name =>
    cases r with
    | ok u => exact h
    | error e => exact h.imp_right fun h => h.imp_right fun h => h.imp_left (hle _ e)
  | writeFile name bytes =>
    obtain ⟨content, hentry, h⟩ := h
    refine ⟨content, hentry, ?_⟩
    cases r with
    | ok u => exact h
    | error e => exact h.imp_left (PlainError.mono hle)
  | flushFile name =>
    refine h.imp_right fun h => ?_
    cases r with
    | ok u => trivial
    | error e => exact PlainError.mono hle h
  | moveSaveFile source destination replace =>
    cases r with
    | ok u => exact h
    | error e => exact h.imp_right fun h => h.imp_left (hle _ e)
  | moveFile source destination => exact Moves.mono hle h
  | deleteFile name => exact Removes.mono hle h
  | openExisting name =>
    refine h.imp_right fun h => ?_
    cases r with
    | ok u => exact h
    | error e => exact LookupError.mono hle h
  | sinceEpoch =>
    -- a time that does not fit is read only where the call may fail
    refine h.imp_right fun h => ?_
    cases r with
    | ok time => exact h.imp_right fun h => h.imp fun e => hle _ e
    | error e => exact PlainError.mono hle h
  | setFileTime name ticks =>
    refine h.imp_right fun h => ?_
    cases r with
    | ok u => trivial
    | error e => exact PlainError.mono hle h
  | now => exact h
  | readDirectory =>
    refine h.imp_right fun h => ?_
    cases r with
    | ok listing => exact h
    | error e => exact h.imp_left (hle _ e)

end More

end AtomicBlobStore
