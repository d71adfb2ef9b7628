/-
  WHAT A STREAMING LOAD COMES TO, and what `load` comes to on the same file.

  `Loads` is `load`, run by a worker that nothing disturbs.  A file is loaded as the decoder has it
  (`loads_file`), an absence only counts in a directory (`loads_absent`, `loads_unavailable`).

  1. **Runs that end** (`streamingLoad_returns`).  What the worker makes of the namespace is a list of
     chunks and a reply (`LoadVerdict`).  The worker is told beforehand which of its chunks are taken
     and whether it is acknowledged (`Accepting`); then caller and worker each have a run of their own,
     and `together` is by induction on the caller's, with the worker brought forward to where the caller
     waits for it: to the next chunk (`sends_one`), to the end of the chunks (`closes`), or to its end
     (`drains`).

  2. **Runs that nothing disturbs** (`concluded_load`) come to nothing else: what was written is what
     copying some verdict's chunks writes, and the result is that verdict's reply or an output error.

  3. **Every run** (`streaming_load_iff`).  Whatever fails and whoever stops, no byte is written of what
     is no envelope, and a result agrees with `load`.  Only in one place does it not: a header that
     declares more than `Vec` can hold makes `load` panic (`loads_large`), while `load_into` never
     asks for so much.

  Where a header declares more than can be allocated, the two ways to load a file part: one asks for
  the whole buffer at once, and the other never does.  This is the only condition in
  `streaming_load_iff`, and it is a condition on the configuration and the file alone.
-/
import AtomicBlobStore.StreamingLoad
import AtomicBlobStore.StreamingSave

namespace AtomicBlobStore

open Relation

/-! ## What `load` comes to

  A streaming load is judged by what `load` says of the same file, so that is worked out first, for a
  worker that nothing disturbs. -/

section Loading

variable (crc32c : Crc32c) (config : StoreConfig) (key : KeyHash) (disk : Disk)

/-- How `load` may end, where no file operation fails. -/
def Loads (x : Except Abort (Option (List UInt8))) : Prop :=
  ∃ w, Returns (Fs Faultless) (loadBlob crc32c config (blobFilename config.format key)).run
    (.start disk) x w

/-- `load` ends, and only so. -/
def LoadsTo (x : Except Abort (Option (List UInt8))) : Prop := ∀ y, Loads crc32c config key disk y ↔ y = x

/-- What the complete decoder makes of a file. -/
def decoded (content : List UInt8) : Except Abort (List UInt8) :=
  ((decodeReader crc32c config.format wholeFile config.maximum).run content).1

variable {crc32c config key disk}

/-- There is one thing that `load` comes to. -/
theorem LoadsTo.unique {x y : Except Abort (Option (List UInt8))}
    (h : LoadsTo crc32c config key disk x) (h' : LoadsTo crc32c config key disk y) : x = y :=
  (h' x).mp ((h x).mpr rfl)

/-- Nothing fails. -/
theorem not_trouble (hdirectory : disk.isDirectory = true) : ¬Trouble Faultless (.start disk) := by
  rintro (⟨c, e, hfault⟩ | hnot)
  · exact hfault
  · exact absurd (hdirectory.symm.trans hnot) Bool.noConfusion

/-- A file that nothing keeps from being read. -/
theorem Delivers.whole {c : FsCall} {file : OpenFile} {content : List UInt8}
    (h : Delivers Faultless c file content) : file.source.ending = none ∧ file.rest = content := by
  obtain ⟨-, hwhole, hfails⟩ := h
  have hending : file.source.ending = none := by
    cases hending : file.source.ending with
    | none => rfl
    | some e => exact (hfails e hending).elim
  exact ⟨hending, hwhole hending⟩

/-- The decoder makes of an open file what it makes of its content. -/
theorem decodes_whole {c : FsCall} {file : OpenFile} {content : List UInt8}
    (h : Delivers Faultless c file content) :
    ((decodeReader crc32c config.format file.source config.maximum).run file.position).1 =
      decoded crc32c config content := by
  obtain ⟨hending, hrest⟩ := h.whole
  rw [(follows_decodeReader file.source crc32c config.format config.maximum file.position).1,
    flat_eq_wholeFile hending]
  exact congrArg (fun bytes => ((decodeReader crc32c config.format wholeFile config.maximum).run
    bytes).1) hrest

/-- The file system opens a file, and will deliver all of it. -/
def opened (content : List UInt8) : OpenFile := ⟨Source.cursor content, 0⟩

/-- A file that nothing keeps from being read delivers its content. -/
theorem delivers_opened (fault : FsCall → IoError → Prop) (c : FsCall) (content : List UInt8) :
    Delivers fault c (opened content) content := ⟨List.prefix_refl _, fun _ => rfl, nofun⟩

/-- What is there is opened, -/
theorem opens_file {content : List UInt8} {name : FileName}
    (hentry : disk.entry name = some (.file content)) :
    Fs Faultless (.openFile name) (.start disk) (.ok (opened content)) (.start disk) := by
  refine ⟨rfl, ?_⟩
  simp only [JobWorld.start, hentry]
  exact delivers_opened _ _ _

/-- and nothing else can happen to the call. -/
theorem opened_file {content : List UInt8} {name : FileName} {r : Except IoError OpenFile}
    {w : JobWorld} (hentry : disk.entry name = some (.file content))
    (henv : Fs Faultless (.openFile name) (.start disk) r w) :
    w = .start disk ∧ ∃ file, r = .ok file ∧ Delivers Faultless (.openFile name) file content := by
  obtain ⟨rfl, henv⟩ := henv
  refine ⟨rfl, ?_⟩
  cases r with
  | ok file =>
    simp only [JobWorld.start, hentry] at henv
    exact ⟨file, rfl, henv⟩
  | error source =>
    have hlookup : LookupError Faultless (.openFile name) disk name source := henv
    by_cases hkind : source.kind = .notFound
    · exact absurd (hentry.symm.trans (absent_of_lookup (w := .start disk) hlookup hkind)) (by simp)
    · exact absurd (trouble_of_lookup (w := .start disk) hlookup hkind)
        (not_trouble (Disk.isDirectory_of_entry hentry))

/-- What follows the decoder in `load_blob`. -/
theorem loadBlob_decoded (r : Except Abort (List UInt8)) :
    (do
      let payload ← (ProgE.ofExcept r : FsM (List UInt8))
      pure (some payload) : FsM (Option (List UInt8))).run = .ret (r.map some) := by
  cases r with
  | ok payload => rfl
  | error abort => rfl

variable (crc32c) in
/-- **A file is loaded as the decoder has it.** -/
theorem loads_file {content : List UInt8}
    (hentry : disk.entry (blobFilename config.format key) = some (.file content)) :
    LoadsTo crc32c config key disk ((decoded crc32c config content).map some) := by
  have hopened {file : OpenFile}
      (h : Delivers Faultless (.openFile (blobFilename config.format key)) file content) :
      (do
        let payload ← FsM.decode file
          (decodeReader crc32c config.format file.source config.maximum)
        pure (some payload) : FsM (Option (List UInt8))).run =
        .ret ((decoded crc32c config content).map some) := by
    refine (loadBlob_decoded _).trans ?_
    rw [decodes_whole h]
  intro y
  constructor
  · rintro ⟨w, n, hrun⟩
    have hholds : Holds (Fs Faultless)
        (loadBlob crc32c config (blobFilename config.format key)).run
        (fun y _ => y = (decoded crc32c config content).map some) (fun _ => True) (.start disk) := by
      refine holds_call (I := FsInterface) (c := .openFile _) trivial fun r w henv => ?_
      obtain ⟨rfl, file, rfl, hdelivers⟩ := opened_file hentry henv
      have hret : Holds (Fs Faultless) (.ret ((decoded crc32c config content).map some))
          (fun y _ => y = (decoded crc32c config content).map some) (fun _ => True)
          (.start disk) := holds_ret trivial rfl
      rw [← hopened hdelivers] at hret
      exact hret
    exact (hholds n _ w hrun).2 y rfl
  · rintro rfl
    refine ⟨.start disk, Returns.call (opens_file hentry) ?_⟩
    have hret : Returns (Fs Faultless) (.ret ((decoded crc32c config content).map some))
        (.start disk) ((decoded crc32c config content).map some) (.start disk) := returns_ret
    rw [← hopened (delivers_opened _ _ content)] at hret
    exact hret

/-- The answer to `File::open` of a name that is not there. -/
theorem opened_absent {name : FileName} {r : Except IoError OpenFile} {w : JobWorld}
    (hnone : disk.entry name = none) (henv : Fs Faultless (.openFile name) (.start disk) r w) :
    w = .start disk ∧ ∃ source, r = .error source ∧
      LookupError Faultless (.openFile name) (JobWorld.start disk).disk name source := by
  obtain ⟨rfl, henv⟩ := henv
  refine ⟨rfl, ?_⟩
  cases r with
  | ok file =>
    simp only [JobWorld.start, hnone] at henv
  | error source => exact ⟨source, rfl, henv⟩

/-- A name that is not there is not opened. -/
theorem opens_absent {name : FileName} (hnone : disk.entry name = none) :
    Fs Faultless (.openFile name) (.start disk) (.error ⟨.notFound, 2⟩) (.start disk) :=
  ⟨rfl, (if_pos rfl).mpr hnone⟩

/-- How a look for what is not there ends: in a directory with its `answer`, elsewhere with an error
    that says nothing of the blob. -/
def Missing {α : Type} (disk : Disk) (answer x : Except Abort α) (w : JobWorld) : Prop :=
  w = .start disk ∧ (disk.isDirectory = true ∧ x = answer ∨
    disk.isDirectory = false ∧ ∃ e : AtomicBlobStoreError, e ≠ .quarantineSourceMissing ∧
      x = .error (.error e))

/-- An error of a call that found no directory. -/
theorem missing_of_lookup {α : Type} {c : FsCall} {name : FileName} {source : IoError}
    {answer : Except Abort α} {e : AtomicBlobStoreError}
    (hlookup : LookupError Faultless c (JobWorld.start disk).disk name source)
    (hkind : source.kind ≠ .notFound) (hother : e ≠ .quarantineSourceMissing) :
    Missing disk answer (.error (.error e)) (.start disk) := by
  rcases trouble_of_lookup hlookup hkind with ⟨_, _, hfault⟩ | hnot
  · exact hfault.elim
  · exact ⟨rfl, Or.inr ⟨hnot, e, hother, rfl⟩⟩

/-- `ensure_namespace_available` decides what `NotFound` meant. -/
theorem missing_ensureNamespaceAvailable : Holds (Fs Faultless) ensureNamespaceAvailable.run
    (Missing disk (.ok ())) (fun w => w = .start disk) (.start disk) := by
  refine holds_call (I := FsInterface) (c := .metadata) rfl fun r w henv => ?_
  obtain ⟨rfl, henv⟩ := henv
  cases r with
  | ok isDirectory =>
    cases isDirectory with
    | true => exact holds_ret rfl ⟨rfl, Or.inl ⟨henv, rfl⟩⟩
    | false => exact holds_ret rfl ⟨rfl, Or.inr ⟨henv, .namespacePathIsNotDirectory, nofun, rfl⟩⟩
  | error source =>
    have henv : if source.kind = .notFound then disk.isDirectory = false else False := henv
    split at henv
    · exact holds_ret rfl ⟨rfl, Or.inr ⟨henv, .io .inspectNamespace source, nofun, rfl⟩⟩
    · exact henv.elim

/-- The same, with what follows it. -/
theorem missing_answer {α : Type} {p : FsM α} {answer : Except Abort α} (h : p.run = .ret answer) :
    Holds (Fs Faultless) (do
      ensureNamespaceAvailable
      p : FsM α).run (Missing disk answer) (fun w => w = .start disk) (.start disk) := by
  refine holds_bind (Holds.mono missing_ensureNamespaceAvailable (fun r w hw hr => ?_)
    fun _ hc => hc)
  obtain ⟨-, ⟨hdirectory, rfl⟩ | ⟨hnot, e, hother, rfl⟩⟩ := hr
  · have hret : Holds (Fs Faultless) (.ret answer) (Missing disk answer)
        (fun w => w = .start disk) w := holds_ret hw ⟨hw, Or.inl ⟨hdirectory, rfl⟩⟩
    rw [← h] at hret
    exact hret
  · exact holds_ret hw ⟨hw, Or.inr ⟨hnot, e, hother, rfl⟩⟩

/-- `load_blob` of what is not there. -/
theorem missing_loadBlob (hnone : disk.entry (blobFilename config.format key) = none) :
    Holds (Fs Faultless) (loadBlob crc32c config (blobFilename config.format key)).run
      (Missing disk (.ok none)) (fun w => w = .start disk) (.start disk) := by
  refine holds_call (I := FsInterface) (c := .openFile _) rfl fun r w henv => ?_
  obtain ⟨rfl, source, rfl, hlookup⟩ := opened_absent hnone henv
  show Holds _ (ExceptT.run (if source.kind = .notFound then _ else _)) _ _ _
  split
  · exact missing_answer rfl
  · rename_i hkind
    exact holds_ret rfl (missing_of_lookup hlookup hkind nofun)

/-- Only a directory has entries. -/
theorem entry_of_not_directory (hnot : disk.isDirectory = false) (name : FileName) :
    disk.entry name = none := by
  cases hentry : disk.entry name with
  | none => rfl
  | some node => exact absurd (Disk.isDirectory_of_entry hentry) (by rw [hnot]; nofun)

/-- **What is not there is only absent where there is a directory.** -/
theorem loads_absent (hdirectory : disk.isDirectory = true)
    (hnone : disk.entry (blobFilename config.format key) = none) :
    LoadsTo crc32c config key disk (.ok none) := by
  intro y
  constructor
  · rintro ⟨w, n, hrun⟩
    obtain ⟨-, ⟨-, rfl⟩ | ⟨hnot, -⟩⟩ := (missing_loadBlob hnone n _ w hrun).2 y rfl
    · rfl
    · exact absurd (hdirectory.symm.trans hnot) Bool.noConfusion
  · rintro rfl
    have hmetadata : Fs Faultless .metadata (.start disk) (.ok true) (.start disk) :=
      ⟨rfl, hdirectory⟩
    exact ⟨.start disk, Returns.call (opens_absent hnone) (Returns.call hmetadata returns_ret)⟩

variable (crc32c config key) in
/-- **Where there is no directory, nothing is loaded, and nothing is absent.** -/
theorem loads_unavailable (hnot : disk.isDirectory = false) :
    (∃ e, Loads crc32c config key disk (.error (.error e))) ∧
      ∀ y, Loads crc32c config key disk y → ∃ e, y = .error (.error e) := by
  have hnone := entry_of_not_directory hnot (blobFilename config.format key)
  refine ⟨⟨.namespacePathIsNotDirectory, .start disk, ?_⟩, ?_⟩
  · have hmetadata : Fs Faultless .metadata (.start disk) (.ok false) (.start disk) := ⟨rfl, hnot⟩
    exact Returns.call (opens_absent hnone) (Returns.call hmetadata returns_ret)
  · rintro y ⟨w, n, hrun⟩
    obtain ⟨-, ⟨hdirectory, -⟩ | ⟨-, e, -, rfl⟩⟩ := (missing_loadBlob hnone n _ w hrun).2 y rfl
    · exact absurd (hdirectory.symm.trans hnot) Bool.noConfusion
    · exact ⟨e, rfl⟩

/-- An envelope is loaded as its payload. -/
theorem decoded_stores {payload : List UInt8} (halloc : Allocates config key disk)
    (h : Stores crc32c config key disk payload) :
    decoded crc32c config (envelope crc32c config.format payload) = .ok payload := by
  have hsections := decodeReader_sections wholeFile crc32c config.format config.maximum_valid
    (halloc _ h.2)
  have hflat : wholeFile.flat = wholeFile := flat_eq_wholeFile rfl
  rw [hflat] at hsections
  rw [decoded, hsections]
  have hok := (sections_ok_iff wholeFile crc32c config.format (maximum_lt config)
    (envelope crc32c config.format payload) payload).mpr ⟨rfl, h.1, rfl⟩
  rwa [hflat] at hok

/-- What is no envelope is refused by both decoders with the same error. -/
theorem decoded_rejects {e : AtomicBlobStoreError} {content : List UInt8}
    (halloc : Representable config.format config.maximum content)
    (h : ((validateEnvelopeReader crc32c config.format wholeFile config.maximum).run content).1 =
      .error (.error e)) : decoded crc32c config content = .error (.error e) := by
  have hsections := decodeReader_sections wholeFile crc32c config.format config.maximum_valid halloc
  have hagree := agree_sections wholeFile crc32c config.format (maximum_lt config) content
  have hflat : wholeFile.flat = wholeFile := flat_eq_wholeFile rfl
  rw [hflat] at hsections hagree
  rw [decoded, hsections]
  exact (hagree.error_iff _).mp h

/-- **`load` of an envelope.** -/
theorem Stores.loads {payload : List UInt8} (h : Stores crc32c config key disk payload)
    (halloc : Allocates config key disk) : LoadsTo crc32c config key disk (.ok (some payload)) := by
  have hloads := loads_file crc32c h.2
  rwa [decoded_stores halloc h] at hloads

/-- **`load` of anything else.** -/
theorem Rejects.loads {e : AtomicBlobStoreError} (h : Rejects crc32c config key disk e)
    (halloc : Allocates config key disk) : LoadsTo crc32c config key disk (.error (.error e)) := by
  obtain ⟨content, hentry, hrejects⟩ := h
  have hloads := loads_file crc32c hentry
  rwa [decoded_rejects (halloc _ hentry) hrejects] at hloads

/-- **A header that declares too much makes `load` panic.** -/
theorem loads_large (hnot : ¬Allocates config key disk) :
    LoadsTo crc32c config key disk (.error .panic) := by
  obtain ⟨content, hnot⟩ := not_forall.mp hnot
  obtain ⟨hentry, hnot⟩ := Classical.not_imp.mp hnot
  obtain ⟨declared, rest, rfl, hle, hlarge⟩ : ∃ declared rest,
      content = headerBytes config.format declared ++ rest ∧ declared ≤ config.maximum ∧
        isizeMax < declared := by
    by_contra hno
    refine hnot fun declared rest heq hle => Nat.not_lt.mp fun hlt => hno ⟨_, _, heq, hle, hlt⟩
  have hpanic := decodeReader_large wholeFile crc32c config.format config.maximum_valid hle hlarge rest
  have hflat : wholeFile.flat = wholeFile := flat_eq_wholeFile rfl
  rw [hflat] at hpanic
  have hloads := loads_file crc32c hentry
  rwa [decoded, hpanic] at hloads

variable (crc32c) in
/-- A file is an envelope, or is rejected. -/
theorem stores_or_rejects {content : List UInt8}
    (hentry : disk.entry (blobFilename config.format key) = some (.file content)) :
    (∃ payload, Stores crc32c config key disk payload) ∨ ∃ e, Rejects crc32c config key disk e := by
  rcases validated crc32c hentry
    (delivers_opened Faultless (.openFile (blobFilename config.format key)) content)
    with ⟨payload, hstores, -⟩ | ⟨e, ⟨e', hfault⟩ | hrejects, -⟩
  · exact Or.inl ⟨payload, hstores⟩
  · exact hfault.elim
  · exact Or.inr ⟨e, hrejects⟩

end Loading

/-! ## A worker that is told what becomes of its chunks

  The worker's run depends on the caller in three places: whether a chunk is taken, whether the stream
  is acknowledged, and whether the other ends are dropped.  Given these beforehand it has a run of its
  own. -/

/-- What the caller will do: it takes these chunks, and acknowledges where there is `none`.  If it is no
    `success`, the caller then lets go of the channels. -/
def Accepting (success : Bool) :
    Environment FsInterface (JobWorld × List (Option (List UInt8)))
  | .send chunk, v, r, v' => Fs Faultless (.send chunk) v.1 r v'.1 ∧ match v.2 with
    | some due :: rest => due = chunk ∧ r = true ∧ v'.2 = rest
    | none :: _ => False
    | [] => success = false ∧ r = false ∧ v'.2 = []
  | .recvAcknowledgement, v, r, v' => Fs Faultless .recvAcknowledgement v.1 r v'.1 ∧ match v.2 with
    | none :: rest => r = true ∧ v'.2 = rest
    | some _ :: _ => False
    | [] => success = false ∧ r = false ∧ v'.2 = []
  | c, v, r, v' => Fs Faultless c v.1 r v'.1 ∧ v'.2 = v.2

section Worker

variable {crc32c : Crc32c} {config : StoreConfig} {key : KeyHash} {disk : Disk} {success : Bool}

/-- The world after some chunks were sent. -/
def sentWorld (w : JobWorld) (chunks : List (List UInt8)) : JobWorld :=
  { w with sent := w.sent ++ chunks }

/-- A turn that reads a chunk. -/
theorem sends_chunk {source : Source IoError Nat} {position : Nat} {left tail : List UInt8}
    (hending : source.ending = none) (hrest : source.rest position = left ++ tail) (hne : left ≠ []) :
    ∃ position', source.rest position' = left.drop streamChunkSize ++ tail ∧
      sendTurn source (left.length, position) = (do
        if ← FsM.ask (.send (left.take streamChunkSize)) then
          pure (.inl ((left.drop streamChunkSize).length, position'))
        else FsM.fail .streamCancelled) := by
  have hpos : left.length ≠ 0 := fun hnil => hne (List.length_eq_zero_iff.mp hnil)
  obtain ⟨htake, hdrop⟩ := split_request left
  rcases reads_chunk (hrest ▸ List.prefix_refl _) (fun _ => hrest)
    (Nat.min_le_left left.length streamChunkSize) with
    ⟨position', hread, -, hwhole⟩ | ⟨e, e', position', hfails, -⟩
  · refine ⟨position', hdrop ▸ hwhole hending, ?_⟩
    rw [sendTurn_eq hpos hread, htake, ← hdrop, List.length_drop]
    rfl
  · exact absurd (hending.symm.trans hfails) nofun

variable (success) in
/-- **The sending loop**, told which chunks are taken. -/
theorem returns_sending {source : Source IoError Nat} (hending : source.ending = none)
    {tail : List UInt8} (left : List UInt8) (more : List (Option (List UInt8))) :
    ∀ (position : Nat) (w : JobWorld) (front back : List (List UInt8)),
      source.rest position = left ++ tail → streamChunks left = front ++ back →
      (back = [] → Returns (Accepting success)
        (ProgE.iterate (sendTurn source) (left.length, position)).run (w, front.map some ++ more)
        (.ok ()) (sentWorld w front, more)) ∧
      (back ≠ [] → success = false → more = [] → ∃ w', Returns (Accepting success)
        (ProgE.iterate (sendTurn source) (left.length, position)).run (w, front.map some ++ more)
        (.error (.error .streamCancelled)) (w', [])) := by
  induction left using streamChunks.induct with
  | case1 =>
    intro position w front back hrest hsplit
    rw [streamChunks_nil] at hsplit
    obtain ⟨rfl, rfl⟩ := List.append_eq_nil_iff.mp hsplit.symm
    refine ⟨fun _ => ?_, fun hne => absurd rfl hne⟩
    have hworld : sentWorld w [] = w := by
      rw [sentWorld, List.append_nil]
    rw [hworld]
    exact returnsE_last returns_ret
  | case2 left hne ih =>
    intro position w front back hrest hsplit
    obtain ⟨position', hrest', hturn⟩ := sends_chunk hending hrest hne
    rw [streamChunks_of_ne hne] at hsplit
    cases front with
    | nil =>
      have hsplit : _ = back := hsplit
      refine ⟨fun hnil => absurd (hsplit.trans hnil) (List.cons_ne_nil _ _), ?_⟩
      rintro - rfl rfl
      have hrefused : Accepting false (.send (left.take streamChunkSize)) (w, []) false
          ({ w with left := true }, []) := ⟨rfl, rfl, rfl, rfl⟩
      refine ⟨{ w with left := true }, returnsE_stop ?_⟩
      rw [hturn]
      exact Returns.call hrefused returns_ret
    | cons chunk front =>
      obtain ⟨rfl, hbehind⟩ := List.cons.inj hsplit
      have haccepted : Accepting success (.send (left.take streamChunkSize))
          (w, some (left.take streamChunkSize) :: (front.map some ++ more)) true
          ({ w with sent := w.sent ++ [left.take streamChunkSize] }, front.map some ++ more) :=
        ⟨rfl, rfl, rfl, rfl⟩
      have hfirst : Returns (Accepting success) (sendTurn source (left.length, position)).run
          (w, some (left.take streamChunkSize) :: (front.map some ++ more))
          (.ok (.inl ((left.drop streamChunkSize).length, position')))
          ({ w with sent := w.sent ++ [left.take streamChunkSize] }, front.map some ++ more) := by
        rw [hturn]
        exact Returns.call haccepted returns_ret
      obtain ⟨hall, hsome⟩ := ih position' { w with sent := w.sent ++ [left.take streamChunkSize] } front
        back hrest' hbehind
      refine ⟨fun hnil => ?_, fun hne' hsuccess hmore => ?_⟩
      · have hworld : sentWorld { w with sent := w.sent ++ [left.take streamChunkSize] } front =
            sentWorld w (left.take streamChunkSize :: front) := by
          rw [sentWorld, sentWorld, List.append_assoc, List.singleton_append]
        rw [← hworld]
        exact returnsE_next hfirst (hall hnil)
      · obtain ⟨w', hreturns⟩ := hsome hne' hsuccess hmore
        exact ⟨w', returnsE_next hfirst hreturns⟩

variable (crc32c config key disk) in
/-- What the worker makes of the namespace: the chunks that it sends, and the reply. -/
inductive LoadVerdict : List (List UInt8) → LoadResult → Prop
  /-- A stored payload is sent in its chunks. -/
  | stored {payload : List UInt8} (h : Stores crc32c config key disk payload) :
      LoadVerdict (streamChunks payload) (.ok (some ⟨payload.length⟩))
  /-- A blob that is absent is reported as such, -/
  | absent (hdirectory : disk.isDirectory = true)
      (hnone : disk.entry (blobFilename config.format key) = none) : LoadVerdict [] (.ok none)
  /-- what is no envelope as what is wrong with it, -/
  | rejected {e : AtomicBlobStoreError} (h : Rejects crc32c config key disk e) :
      LoadVerdict [] (.error e)
  /-- and a namespace that is no directory as that. -/
  | unavailable (hnot : disk.isDirectory = false) :
      LoadVerdict [] (.error .namespacePathIsNotDirectory)

/-- How the worker ends that gives a reply. -/
def workerOutcome (reply : LoadResult) : Except Abort (Option BlobMetadata) :=
  reply.mapError Abort.error

/-- A worker that gives a reply has come to an end that carries it. -/
theorem workerOutcome_replies (fails : Prop) (reply : LoadResult) :
    (LoadWorker.ended (workerOutcome reply)).Replies fails reply := by
  cases reply with
  | ok found => exact Or.inl rfl
  | error e => exact Or.inl rfl

/-- A worker that finds an envelope, up to the end of the chunks that are taken. -/
theorem returns_stored {payload : List UInt8} (h : Stores crc32c config key disk payload)
    {front back : List (List UInt8)} (hsplit : streamChunks payload = front ++ back) :
    (back = [] → ∃ w, Returns (Accepting true)
      (loadBlobIntoSender crc32c config (blobFilename config.format key)).run
      (.start disk, front.map some ++ [none]) (.ok (some ⟨payload.length⟩)) (w, [])) ∧
    ∃ w, Returns (Accepting false)
      (loadBlobIntoSender crc32c config (blobFilename config.format key)).run
      (.start disk, front.map some) (.error (.error .streamCancelled)) (w, []) := by
  obtain ⟨hle, hentry⟩ := h
  have hvalid : ((validateEnvelopeReader crc32c config.format
      (opened (envelope crc32c config.format payload)).source config.maximum).run 0).1 =
      .ok ⟨payload.length⟩ := by
    rcases validated crc32c hentry
      (delivers_opened Faultless (.openFile (blobFilename config.format key)) _)
      with ⟨payload', hstores, -, -, hok⟩ | ⟨e, ⟨e', hfault⟩ | hrejects, -⟩
    · obtain rfl := Stores.unique ⟨hle, hentry⟩ hstores
      exact hok
    · exact hfault.elim
    · exact absurd ⟨hle, hentry⟩ (hrejects.not_stores payload)
  -- past the header are the payload and the checksum
  have hbody : (envelope crc32c config.format payload).drop headerLen = payload ++
      BigEndian.toBeBytes 4 (crc32c.checksum
        (headerBytes config.format payload.length ++ payload)).toNat := by
    rw [envelope, List.append_assoc]
    exact List.drop_left' (by simp [headerLen])
  have hrest : (opened ((envelope crc32c config.format payload).drop headerLen)).source.rest 0 =
      payload ++ _ := hbody
  have hending : (opened ((envelope crc32c config.format payload).drop headerLen)).source.ending =
      none := rfl
  have hloop (success : Bool) (more : List (Option (List UInt8))) :=
    returns_sending success hending payload more 0 (.start disk) front back hrest hsplit
  -- up to the loop, nothing depends on the caller
  have hbegins {success : Bool} {due : List (Option (List UInt8))}
      {x : Except Abort (Option BlobMetadata)} {v : JobWorld × List (Option (List UInt8))}
      (h : Returns (Accepting success) (do
        ProgE.iterate (sendTurn (opened ((envelope crc32c config.format payload).drop
          headerLen)).source) (payload.length, 0)
        if ← FsM.ask .recvAcknowledgement then pure (some ⟨payload.length⟩)
        else FsM.fail .streamCancelled : FsM (Option BlobMetadata)).run (.start disk, due) x v) :
      Returns (Accepting success)
        (loadBlobIntoSender crc32c config (blobFilename config.format key)).run (.start disk, due)
        x v := by
    have hopen : Accepting success (.openFile (blobFilename config.format key)) (.start disk, due)
        (.ok (opened (envelope crc32c config.format payload))) (.start disk, due) :=
      ⟨opens_file hentry, rfl⟩
    have hseek : Accepting success
        (.seek (opened (envelope crc32c config.format payload)) headerLen) (.start disk, due)
        (.ok (opened ((envelope crc32c config.format payload).drop headerLen)))
        (.start disk, due) := ⟨⟨rfl, delivers_opened _ _ _⟩, rfl⟩
    have hdecodes : Returns (Accepting success) (FsM.decode
        (opened (envelope crc32c config.format payload)) (validateEnvelopeReader crc32c config.format
          (opened (envelope crc32c config.format payload)).source config.maximum)).run
        (.start disk, due) (.ok ⟨payload.length⟩) (.start disk, due) := by
      show Returns _ (.ret _) _ _ _
      rw [← hvalid]
      exact returns_ret
    exact Returns.call hopen (returnsE_bind hdecodes (Returns.call hseek
      (returnsE_bind returns_ret h)))
  refine ⟨fun hnil => ?_, ?_⟩
  · have hacknowledged : Accepting true .recvAcknowledgement (sentWorld (.start disk) front, [none])
        true (sentWorld (.start disk) front, []) := ⟨rfl, rfl, rfl⟩
    exact ⟨_, hbegins (returnsE_bind ((hloop true [none]).1 hnil) (Returns.call hacknowledged returns_ret))⟩
  · by_cases hnil : back = []
    · have hcancelled : Accepting false .recvAcknowledgement (sentWorld (.start disk) front, [])
          false ({ sentWorld (.start disk) front with left := true }, []) := ⟨rfl, rfl, rfl, rfl⟩
      have hall := (hloop false []).1 hnil
      rw [List.append_nil] at hall
      exact ⟨_, hbegins (returnsE_bind hall (Returns.call hcancelled returns_ret))⟩
    · obtain ⟨w, hstops⟩ := (hloop false []).2 hnil rfl rfl
      rw [List.append_nil] at hstops
      exact ⟨w, hbegins (returnsE_bind_error hstops)⟩

/-- **A worker that all chunks are taken from** gives the reply of its verdict. -/
theorem LoadVerdict.returns {chunks : List (List UInt8)} {reply : LoadResult}
    (h : LoadVerdict crc32c config key disk chunks reply) :
    ∃ tail w, (tail = [] ∨ tail = [none]) ∧ Returns (Accepting true)
      (loadBlobIntoSender crc32c config (blobFilename config.format key)).run
      (.start disk, chunks.map some ++ tail) (workerOutcome reply) (w, []) := by
  have habsent (hnone : disk.entry (blobFilename config.format key) = none) :
      Accepting true (.openFile (blobFilename config.format key)) (.start disk, [])
        (.error ⟨.notFound, 2⟩) (.start disk, []) := ⟨opens_absent hnone, rfl⟩
  cases h with
  | stored h =>
    obtain ⟨w, hreturns⟩ := (returns_stored h (List.append_nil _).symm).1 rfl
    exact ⟨[none], w, Or.inr rfl, hreturns⟩
  | absent hdirectory hnone =>
    have hmetadata : Accepting true .metadata (.start disk, []) (.ok true) (.start disk, []) :=
      ⟨⟨rfl, hdirectory⟩, rfl⟩
    exact ⟨[], .start disk, Or.inl rfl, Returns.call (habsent hnone)
      (Returns.call hmetadata returns_ret)⟩
  | @rejected e h =>
    obtain ⟨content, hentry, hrejects⟩ := h
    have hopen : Accepting true (.openFile (blobFilename config.format key)) (.start disk, [])
        (.ok (opened content)) (.start disk, []) := ⟨opens_file hentry, rfl⟩
    have hinvalid : ((validateEnvelopeReader crc32c config.format (opened content).source
        config.maximum).run 0).1 = .error (.error e) := by
      have hflat : (opened content).source.flat = wholeFile := flat_eq_wholeFile rfl
      have hrest : (opened content).source.rest 0 = content := rfl
      rw [(follows_validateEnvelopeReader (opened content).source crc32c config.format
        config.maximum 0).1, hflat, hrest]
      exact hrejects
    have hdecodes : Returns (Accepting true) (FsM.decode (opened content)
        (validateEnvelopeReader crc32c config.format (opened content).source config.maximum)).run
        (.start disk, []) (.error (.error e)) (.start disk, []) := by
      show Returns _ (.ret _) _ _ _
      rw [← hinvalid]
      exact returns_ret
    exact ⟨[], .start disk, Or.inl rfl, Returns.call hopen (returnsE_bind_error hdecodes)⟩
  | unavailable hnot =>
    have hnone := entry_of_not_directory hnot (blobFilename config.format key)
    have hmetadata : Accepting true .metadata (.start disk, []) (.ok false) (.start disk, []) :=
      ⟨⟨rfl, hnot⟩, rfl⟩
    exact ⟨[], .start disk, Or.inl rfl, Returns.call (habsent hnone)
      (Returns.call hmetadata returns_ret)⟩

end Worker

/-! ## The parties come to their end

  The caller's run was found alone, and so was the worker's.  They fit together because each only
  waits for what the other is going to do. -/

section Ending

variable {crc32c : Crc32c} {config : StoreConfig} {fault : FsCall → IoError → Prop}
  {writer : WriteRule} {fails : Prop} {key : KeyHash} {success : Bool}
  {outcome : Except Abort (Option BlobMetadata)}

/-- What is left of a worker that is told what becomes of its chunks. -/
def Follows (success : Bool) (due : List (Option (List UInt8)))
    (outcome : Except Abort (Option BlobMetadata))
    (program : Prog FsInterface (Except Abort (Option BlobMetadata))) (w : JobWorld) : Prop :=
  ∃ n w', Run (Accepting success) n program (w, due) (.ret outcome) (w', [])

/-- The call is to one of the channels, or it is answered by the files. -/
theorem accepting_cases {c : FsCall} {v v' : JobWorld × List (Option (List UInt8))} {r : c.Answer}
    (h : Accepting success c v r v') : (∃ chunk, c = .send chunk) ∨ c = .recvAcknowledgement ∨
      (∀ chunk, c ≠ .send chunk) ∧ c ≠ .recvAcknowledgement ∧ Fs Faultless c v.1 r v'.1 ∧
        v'.2 = v.2 := by
  cases c with
  | send chunk => exact Or.inl ⟨chunk, rfl⟩
  | recvAcknowledgement => exact Or.inr (Or.inl rfl)
  | _ => exact Or.inr (Or.inr ⟨nofun, nofun, h⟩)

/-- What happens without a fault may happen with faults. -/
theorem fs_faultless {c : FsCall} {w w' : JobWorld} {r : c.Answer} (h : Fs Faultless c w r w') :
    Fs fault c w r w' := fs_mono (fun _ _ h => h.elim) h

variable (crc32c config fault writer fails key) in
/-- A worker whose next chunk is taken sends it, sooner or later. -/
theorem sends_one {chunk : List UInt8} {due : List (Option (List UInt8))} {n : Nat} {s : LoadStream}
    {program : Prog FsInterface (Except Abort (Option BlobMetadata))} {w' : JobWorld}
    (hworker : s.worker = .running program) (hqueue : s.desk.chunks.queue = [])
    (hsenders : s.desk.chunks.senders = true) (hreceiver : s.desk.chunks.receiver = true)
    (hrun : Run (Accepting success) n program (s.world, some chunk :: due) (.ret outcome) (w', [])) :
    ∃ program' w, ReflTransGen (LoadStep crc32c config fault writer fails key) s
      { s with
        worker := .running program', world := w
        desk := { s.desk with chunks := { s.desk.chunks with queue := [chunk] } } } ∧
      Follows success due outcome program' w := by
  induction n generalizing s program with
  | zero => nomatch hrun
  | succ n ih =>
    cases hrun with
    | @cons _ _ p' _ _ v _ hstep hrest =>
      obtain ⟨w, due'⟩ := v
      cases hstep with
      | @call c k _ _ r henv =>
        rcases accepting_cases henv with ⟨chunk', rfl⟩ | rfl | ⟨hsend, hack, hfs, hdue⟩
        · obtain ⟨hfs, rfl, rfl, hdue⟩ := henv
          obtain rfl : due' = due := hdue
          have hsends : Channel.Sends streamChannelCapacity chunk s.desk.chunks true
              { s.desk.chunks with queue := [chunk] } := by
            have hsends : Channel.Sends streamChannelCapacity chunk s.desk.chunks true _ :=
              .accepted hsenders (by rw [hqueue]; decide) hreceiver
            rwa [hqueue, List.nil_append] at hsends
          exact ⟨_, _, .single (.work (.send hworker hsends (fs_faultless hfs))), n, w', hrest⟩
        · exact henv.2.elim
        · obtain rfl : due' = _ := hdue
          obtain ⟨program', w₁, hsteps, hfollows⟩ := ih (s := { s with
            worker := .running (k r), world := w }) rfl hqueue hsenders hreceiver hrest
          exact ⟨program', w₁, .head (.work (.work hworker hsend hack (fs_faultless hfs))) hsteps,
            hfollows⟩
      | loop =>
        obtain ⟨program', w₁, hsteps, hfollows⟩ := ih (s := { s with
          worker := .running _ }) rfl hqueue hsenders hreceiver hrest
        exact ⟨program', w₁, .head (.work (.turn hworker)) hsteps, hfollows⟩

variable (crc32c config fault writer fails key) in
/-- A worker that has sent everything closes the channel of chunks: it waits to be acknowledged, or it
    has ended. -/
theorem closes {tail : List (Option (List UInt8))} (htail : tail = [] ∨ tail = [none]) {n : Nat}
    {s : LoadStream} {program : Prog FsInterface (Except Abort (Option BlobMetadata))} {w' : JobWorld}
    (hworker : s.worker = .running program)
    (hrun : Run (Accepting true) n program (s.world, tail) (.ret outcome) (w', [])) :
    (∃ program' w, ReflTransGen (LoadStep crc32c config fault writer fails key) s
      { s with
        worker := .running program', world := w
        desk := { s.desk with chunks := s.desk.chunks.dropSenders } } ∧
      Follows true [none] outcome program' w) ∨
    ∃ w, ReflTransGen (LoadStep crc32c config fault writer fails key) s
      { s with worker := .ended outcome, world := w, desk := s.desk.hangUp } := by
  induction n generalizing s program with
  | zero =>
    generalize hv : (s.world, tail) = v at hrun
    cases hrun
    exact Or.inr ⟨_, .single (.work (.finish hworker))⟩
  | succ n ih =>
    cases hrun with
    | @cons _ _ p' _ _ v _ hstep hrest =>
      obtain ⟨w, due'⟩ := v
      cases hstep with
      | @call c k _ _ r henv =>
        rcases accepting_cases henv with ⟨chunk', rfl⟩ | rfl | ⟨hsend, hack, hfs, hdue⟩
        · rcases htail with rfl | rfl
          · exact Bool.noConfusion henv.2.1
          · exact henv.2.elim
        · rcases htail with rfl | rfl
          · exact Bool.noConfusion henv.2.1
          · refine Or.inl ⟨_, s.world, ?_, n + 1, w', .cons (.call henv) hrest⟩
            rw [← hworker]
            exact .single (.work (.close hworker))
        · obtain rfl : due' = _ := hdue
          have hwork : LoadWork crc32c config fault fails key s
              { s with worker := .running (k r), world := w } :=
            .work hworker hsend hack (fs_faultless hfs)
          rcases ih (s := { s with worker := .running (k r), world := w }) rfl hrest with
            ⟨program', w₁, hsteps, hfollows⟩ | ⟨w₁, hsteps⟩
          · exact Or.inl ⟨program', w₁, .head (.work hwork) hsteps, hfollows⟩
          · exact Or.inr ⟨w₁, .head (.work hwork) hsteps⟩
      | loop =>
        have hwork : LoadWork crc32c config fault fails key s { s with worker := .running _ } :=
          .turn hworker
        rcases ih (s := { s with worker := .running _ }) rfl hrest with
          ⟨program', w₁, hsteps, hfollows⟩ | ⟨w₁, hsteps⟩
        · exact Or.inl ⟨program', w₁, .head (.work hwork) hsteps, hfollows⟩
        · exact Or.inr ⟨w₁, .head (.work hwork) hsteps⟩

/-- What a worker that sends no more will see of the caller. -/
inductive Final (desk : LoadDesk) : Bool → List (Option (List UInt8)) → Prop
  /-- The caller let go. -/
  | gone (hreceiver : desk.chunks.receiver = false) (hqueue : desk.acknowledgement.queue = [])
      (hsenders : desk.acknowledgement.senders = false) : Final desk false []
  /-- The acknowledgement is on its way. -/
  | acknowledged (hqueue : desk.acknowledgement.queue = [()]) : Final desk true [none]
  /-- Everything was said. -/
  | done : Final desk true []

variable (crc32c config fault writer fails key) in
/-- Such a worker comes to its end, and the caller sees nothing of it. -/
theorem drains {due : List (Option (List UInt8))} {n : Nat} {s : LoadStream}
    {program : Prog FsInterface (Except Abort (Option BlobMetadata))} {w' : JobWorld}
    (hworker : s.worker = .running program) (hfinal : Final s.desk success due)
    (hrun : Run (Accepting success) n program (s.world, due) (.ret outcome) (w', [])) :
    ∃ t, ReflTransGen (LoadStep crc32c config fault writer fails key) s t ∧
      t.worker = .ended outcome ∧ t.caller = s.caller ∧ t.desk.log = s.desk.log ∧
      t.desk.reply = s.desk.reply := by
  induction n generalizing s program due with
  | zero =>
    generalize hv : (s.world, due) = v at hrun
    cases hrun
    exact ⟨_, .single (.work (.finish hworker)), rfl, rfl, rfl, rfl⟩
  | succ n ih =>
    cases hrun with
    | @cons _ _ p' _ _ v _ hstep hrest =>
      obtain ⟨w, due'⟩ := v
      -- after any step, the rest of the run is a run of the state reached
      have hafter {s₁ : LoadStream} {program₁ : Prog FsInterface (Except Abort (Option BlobMetadata))}
          (hwork : ReflTransGen (LoadStep crc32c config fault writer fails key) s s₁)
          (hworker₁ : s₁.worker = .running program₁) (hfinal₁ : Final s₁.desk success due')
          (hrest₁ : Run (Accepting success) n program₁ (s₁.world, due') (.ret outcome) (w', []))
          (hcaller : s₁.caller = s.caller) (hlog : s₁.desk.log = s.desk.log)
          (hreply : s₁.desk.reply = s.desk.reply) :
          ∃ t, ReflTransGen (LoadStep crc32c config fault writer fails key) s t ∧
            t.worker = .ended outcome ∧ t.caller = s.caller ∧ t.desk.log = s.desk.log ∧
            t.desk.reply = s.desk.reply := by
        obtain ⟨t, hsteps, hended, hcaller', hlog', hreply'⟩ := ih hworker₁ hfinal₁ hrest₁
        exact ⟨t, hwork.trans hsteps, hended, hcaller'.trans hcaller, hlog'.trans hlog,
          hreply'.trans hreply⟩
      cases hstep with
      | @call c k _ _ r henv =>
        rcases accepting_cases henv with ⟨chunk', rfl⟩ | rfl | ⟨hsend, hack, hfs, hdue⟩
        · cases hfinal with
          | gone hreceiver hqueue hsenders =>
            obtain ⟨hfs, -, rfl, hdue⟩ := henv
            obtain rfl : due' = [] := hdue
            exact hafter (.single (.work (.send hworker (.refused hreceiver) (fs_faultless hfs)))) rfl
              (.gone hreceiver hqueue hsenders) hrest rfl rfl rfl
          | acknowledged => exact henv.2.elim
          | done => exact Bool.noConfusion henv.2.1
        · have hclose : LoadWork crc32c config fault fails key s
              { s with desk := { s.desk with chunks := s.desk.chunks.dropSenders } } := .close hworker
          cases hfinal with
          | gone hreceiver hqueue hsenders =>
            obtain ⟨hfs, -, rfl, hdue⟩ := henv
            obtain rfl : due' = [] := hdue
            have hend : s.desk.acknowledgement.Receives none s.desk.acknowledgement :=
              .disconnected hqueue hsenders
            exact hafter (.head (.work hclose) (.single (.work (.acknowledged hworker rfl hend
              (fs_faultless hfs))))) rfl (.gone hreceiver hqueue hsenders) hrest rfl rfl rfl
          | acknowledged hqueue =>
            obtain ⟨hfs, rfl, hdue⟩ := henv
            obtain rfl : due' = [] := hdue
            have hmessage : s.desk.acknowledgement.Receives (some ()) _ := .message hqueue
            exact hafter (.head (.work hclose) (.single (.work (.acknowledged hworker rfl hmessage
              (fs_faultless hfs))))) rfl .done hrest rfl rfl rfl
          | done => exact Bool.noConfusion henv.2.1
        · obtain rfl : due' = _ := hdue
          exact hafter (.single (.work (.work hworker hsend hack (fs_faultless hfs)))) rfl hfinal hrest
            rfl rfl rfl
      | loop => exact hafter (.single (.work (.turn hworker))) rfl hfinal hrest rfl rfl rfl

/-- The worker with the rest of its program, whether it was started or not. -/
def LoadStream.At (crc32c : Crc32c) (config : StoreConfig) (key : KeyHash) (s : LoadStream)
    (program : Prog FsInterface (Except Abort (Option BlobMetadata))) : Prop :=
  s.worker = .running program ∨ s.worker = .queued ∧
    program = (loadBlobIntoSender crc32c config (blobFilename config.format key)).run

/-- The worker was started. -/
theorem LoadStream.At.started {s : LoadStream}
    {program : Prog FsInterface (Except Abort (Option BlobMetadata))}
    (h : s.At crc32c config key program) (hsubmitted : s.desk.submitted = true) :
    ReflTransGen (LoadStep crc32c config fault writer fails key) s
      { s with worker := .running program } := by
  rcases h with hrunning | ⟨hqueued, rfl⟩
  · rw [← hrunning]
  · exact .single (.work (.start hsubmitted hqueued))

variable (crc32c config key) in
/-- **The parties side by side**, with the chunks that the caller is still to get; `back` are those
    that it never takes, and `tail` is whether the worker waits to be acknowledged. -/
inductive Abreast (success : Bool) (tail : List (Option (List UInt8)))
    (outcome : Except Abort (Option BlobMetadata)) (back : List (List UInt8)) (s : LoadStream) :
    List (List UInt8) → Prop
  /-- The worker is on its way to the next chunk. -/
  | sending {program : Prog FsInterface (Except Abort (Option BlobMetadata))}
      {front : List (List UInt8)} (hworker : s.At crc32c config key program)
      (hgoing : s.desk.ended = false ∧ s.desk.dropped = false ∧ s.desk.acknowledged = false)
      (hqueue : s.desk.chunks.queue = []) (hsenders : s.desk.chunks.senders = true)
      (hreceiver : s.desk.chunks.receiver = true) (hnew : s.desk.acknowledgement = .new)
      (hreply : s.desk.reply = none)
      (hfollows : Follows success (front.map some ++ tail) outcome program s.world) :
      Abreast success tail outcome back s (front ++ back)
  /-- The worker waits to be acknowledged. -/
  | closed {program : Prog FsInterface (Except Abort (Option BlobMetadata))}
      (hsuccess : success = true) (hworker : s.worker = .running program)
      (hgoing : s.desk.dropped = false) (hqueue : s.desk.chunks.queue = [])
      (hsenders : s.desk.chunks.senders = false)
      (hwaits : s.desk.acknowledged = false ∧ s.desk.acknowledgement = .new ∨
        s.desk.acknowledged = true ∧ s.desk.acknowledgement.queue = [()])
      (hreply : s.desk.reply = none) (hfollows : Follows success [none] outcome program s.world) :
      Abreast success tail outcome back s []
  /-- The worker has ended, and is to be answered for. -/
  | done (hsuccess : success = true) (hworker : s.worker = .ended outcome)
      (hgoing : s.desk.dropped = false) (hqueue : s.desk.chunks.queue = [])
      (hsenders : s.desk.chunks.senders = false)
      (hreceiver : s.desk.acknowledgement.receiver = false) (hreply : s.desk.reply = none) :
      Abreast success tail outcome back s []
  /-- The caller let go of the channels. -/
  | gone {program : Prog FsInterface (Except Abort (Option BlobMetadata))} {due : List (List UInt8)}
      (hworker : s.worker = .running program) (hgone : s.desk.dropped = true)
      (hfinal : Final s.desk success []) (hreply : s.desk.reply = none)
      (hfollows : Follows success [] outcome program s.world) : Abreast success tail outcome back s due
  /-- The caller has its result. -/
  | heard {due : List (List UInt8)} (hheard : s.desk.heard ≠ none) :
      Abreast success tail outcome back s due

variable {tail : List (Option (List UInt8))} {back due : List (List UInt8)} {s : LoadStream}

/-- A call that the worker does not see. -/
theorem Abreast.quiet (h : Abreast crc32c config key success tail outcome back s due)
    (caller : Option (Prog LoadInterface LoadResult)) (submitted : Bool) (writes : Writes) :
    Abreast crc32c config key success tail outcome back
      { s with caller := caller, desk := { s.desk with submitted := submitted, writes := writes } }
      due := by
  cases h with
  | sending hworker hgoing hqueue hsenders hreceiver hnew hreply hfollows =>
    exact .sending hworker hgoing hqueue hsenders hreceiver hnew hreply hfollows
  | closed hsuccess hworker hgoing hqueue hsenders hwaits hreply hfollows =>
    exact .closed hsuccess hworker hgoing hqueue hsenders hwaits hreply hfollows
  | done hsuccess hworker hgoing hqueue hsenders hreceiver hreply =>
    exact .done hsuccess hworker hgoing hqueue hsenders hreceiver hreply
  | gone hworker hgone hfinal hreply hfollows =>
    refine .gone hworker hgone ?_ hreply hfollows
    cases hfinal with
    | gone hreceiver hqueue hsenders => exact .gone hreceiver hqueue hsenders
    | done => exact .done
  | heard hheard => exact .heard hheard

/-- The caller only ever takes the next chunk. -/
theorem attended_due {reply : LoadResult} {n : Nat}
    {p p' : Prog LoadInterface LoadResult} {v v' : LoadLog × List (List UInt8)}
    (h : Run (Attended writer reply success back) n p v p' v') :
    ∃ taken, v.2 = taken ++ v'.2 := by
  induction h with
  | nil => exact ⟨[], rfl⟩
  | @cons _ _ _ _ w w₁ w' hstep _ ih =>
    obtain ⟨taken, htaken⟩ := ih
    cases hstep with
    | @call c k _ _ r henv =>
      have hsame (h : w₁.2 = w.2) : ∃ taken, w.2 = taken ++ w'.2 := ⟨taken, h.symm.trans htaken⟩
      cases c with
      | ensureOpen =>
        obtain ⟨-, rfl⟩ := henv
        exact hsame rfl
      | submit =>
        obtain ⟨-, rfl⟩ := henv
        exact hsame rfl
      | recv =>
        obtain ⟨-, -, -, henv⟩ := henv
        obtain ⟨log, due⟩ := w
        cases due with
        | nil =>
          obtain ⟨-, -, rfl⟩ := henv
          exact hsame rfl
        | cons chunk due =>
          obtain ⟨-, rfl⟩ := henv
          exact ⟨chunk :: taken, congrArg (chunk :: ·) htaken⟩
      | write bytes =>
        obtain ⟨-, -, rfl⟩ := henv
        exact hsame rfl
      | dropEndpoints =>
        obtain ⟨-, -, -, -, rfl⟩ := henv
        exact hsame rfl
      | acknowledge =>
        obtain ⟨-, -, -, -, -, rfl⟩ := henv
        exact hsame rfl
      | wait =>
        obtain ⟨-, -, -, rfl⟩ := henv
        exact hsame rfl
    | loop => exact ⟨taken, htaken⟩

variable (crc32c config fault fails key) in
/-- **The parties come to their end together**: the caller goes first, and waits for the worker where it
    waits for a chunk, for the end of the chunks, or for the result. -/
theorem together {reply r : LoadResult} {log' : LoadLog}
    (htail : tail = [] ∨ tail = [none]) (hcancelled : success = false → tail = [])
    (hreplies : (LoadWorker.ended outcome).Replies fails reply) {n : Nat} {s : LoadStream}
    {p : Prog LoadInterface LoadResult} {due : List (List UInt8)} (hcaller : s.caller = some p)
    (hrun : Run (Attended writer reply success back) n p (s.desk.log, due) (.ret r) (log', back))
    (h : Abreast crc32c config key success tail outcome back s due) :
    ∃ t, ReflTransGen (LoadStep crc32c config fault writer fails key) s t ∧
      t.caller = some (.ret r) ∧ t.desk.log = log' := by
  induction n generalizing s p due with
  | zero =>
    generalize hv : (s.desk.log, due) = v at hrun
    cases hrun
    exact ⟨s, .refl, hcaller, congrArg Prod.fst hv⟩
  | succ n ih =>
    cases hrun with
    | @cons _ _ p' _ _ v _ hstep hrest =>
      obtain ⟨log₁, due₁⟩ := v
      -- the caller makes a step, from wherever the worker was brought
      have hafter {s₁ s₂ : LoadStream} {due₂ : List (List UInt8)} {p₂ : Prog LoadInterface LoadResult}
          (hsteps : ReflTransGen (LoadStep crc32c config fault writer fails key) s s₁)
          (hstep : LoadStep crc32c config fault writer fails key s₁ s₂)
          (hcaller₂ : s₂.caller = some p₂)
          (hrest₂ : Run (Attended writer reply success back) n p₂ (s₂.desk.log, due₂) (.ret r)
            (log', back))
          (h₂ : Abreast crc32c config key success tail outcome back s₂ due₂) :
          ∃ t, ReflTransGen (LoadStep crc32c config fault writer fails key) s t ∧
            t.caller = some (.ret r) ∧ t.desk.log = log' := by
        obtain ⟨t, hmore, ht⟩ := ih hcaller₂ hrest₂ h₂
        exact ⟨t, (hsteps.tail hstep).trans hmore, ht⟩
      cases hstep with
      | loop => exact hafter .refl (.call hcaller .loop) rfl hrest (h.quiet _ _ _)
      | @call c k _ _ r' henv =>
        cases c with
        | ensureOpen =>
          obtain ⟨rfl, hsame⟩ := henv
          obtain ⟨rfl, rfl⟩ := Prod.mk.inj hsame
          have hcall : Asking writer fails .ensureOpen s.desk (.ok ()) s.desk := ⟨rfl, nofun⟩
          exact hafter .refl (.call hcaller (.call hcall)) rfl hrest (h.quiet _ _ _)
        | submit =>
          obtain ⟨rfl, hsame⟩ := henv
          obtain ⟨rfl, rfl⟩ := Prod.mk.inj hsame
          have hcall : Asking writer fails .submit s.desk (.ok ())
              { s.desk with submitted := true } := rfl
          exact hafter .refl (.call hcaller (.call hcall)) rfl hrest (h.quiet _ _ _)
        | write bytes =>
          obtain ⟨hrule, hlen, hsame⟩ := henv
          obtain ⟨rfl, rfl⟩ := Prod.mk.inj hsame
          have hcall : Asking writer fails (.write bytes) s.desk r'
              { s.desk with writes := s.desk.writes ++ [(bytes, r')] } := ⟨hrule, hlen, rfl⟩
          exact hafter .refl (.call hcaller (.call hcall)) rfl hrest (h.quiet _ _ _)
        | recv =>
          obtain ⟨hsubmitted, hheld, hnone, henv⟩ := henv
          have hsubmitted : s.desk.submitted = true := hsubmitted
          have hheld : s.desk.dropped = false := hheld
          cases due with
          | cons chunk due =>
            obtain ⟨rfl, hsame⟩ := henv
            obtain ⟨rfl, rfl⟩ := Prod.mk.inj hsame
            obtain ⟨taken, htaken⟩ := attended_due hrest
            generalize hall : chunk :: due₁ = all at h
            cases h with
            | @sending program front hworker hgoing hqueue hsenders hreceiver hnew hreply hfollows =>
              obtain rfl : front = chunk :: taken := by
                have htaken : due₁ = taken ++ back := htaken
                rw [htaken, ← List.cons_append] at hall
                exact (List.append_cancel_right hall).symm
              obtain ⟨m, w', hsends⟩ := hfollows
              obtain ⟨program', w, hsteps, hfollows'⟩ := sends_one crc32c config fault writer fails key
                (s := { s with worker := .running program }) rfl hqueue hsenders hreceiver hsends
              have hmessage : Channel.Receives { s.desk.chunks with queue := [chunk] } (some chunk)
                  { s.desk.chunks with taken := s.desk.chunks.taken ++ [chunk], queue := [] } :=
                .message rfl
              have hcall : Asking writer fails .recv
                  { s.desk with chunks := { s.desk.chunks with queue := [chunk] } } (some chunk)
                  { s.desk with chunks := { s.desk.chunks with
                    taken := s.desk.chunks.taken ++ [chunk], queue := [] } } := ⟨_, hmessage, rfl⟩
              have htaken : due₁ = taken ++ back := htaken
              refine hafter ((hworker.started hsubmitted).trans hsteps) (.call hcaller (.call hcall)) rfl
                hrest ?_
              rw [htaken]
              exact .sending (Or.inl rfl) hgoing rfl hsenders hreceiver hnew hreply hfollows'
            | closed => nomatch hall
            | done => nomatch hall
            | gone hworker hgone => exact absurd (hheld.symm.trans hgone) Bool.noConfusion
            | heard hheard => exact absurd hnone hheard
          | nil =>
            obtain ⟨rfl, rfl, hsame⟩ := henv
            obtain ⟨rfl, rfl⟩ := Prod.mk.inj hsame
            have hend (desk : LoadDesk) (hqueue : desk.chunks.queue = [])
                (hsenders : desk.chunks.senders = false) : Asking writer fails .recv desk none
                  { desk with ended := true } := ⟨_, .disconnected hqueue hsenders, rfl⟩
            generalize hall : ([] : List (List UInt8)) = all at h
            cases h with
            | @sending program front hworker hgoing hqueue hsenders hreceiver hnew hreply hfollows =>
              obtain ⟨rfl, rfl⟩ := List.append_eq_nil_iff.mp hall.symm
              obtain ⟨m, w', hcloses⟩ := hfollows
              rcases closes crc32c config fault writer fails key htail
                (s := { s with worker := .running program }) rfl hcloses with
                ⟨program', w, hsteps, hfollows'⟩ | ⟨w, hsteps⟩
              · refine hafter ((hworker.started hsubmitted).trans hsteps)
                  (.call hcaller (.call (hend _ hqueue rfl))) rfl hrest ?_
                exact .closed rfl rfl hheld hqueue rfl (Or.inl ⟨hgoing.2.2, hnew⟩) hreply hfollows'
              · refine hafter ((hworker.started hsubmitted).trans hsteps)
                  (.call hcaller (.call (hend _ hqueue rfl))) rfl hrest ?_
                exact .done rfl rfl hheld hqueue rfl rfl hreply
            | closed hsuccess hworker hgoing hqueue hsenders hwaits hreply hfollows =>
              exact hafter .refl (.call hcaller (.call (hend _ hqueue hsenders))) rfl hrest
                (.closed hsuccess hworker hgoing hqueue hsenders hwaits hreply hfollows)
            | done hsuccess hworker hgoing hqueue hsenders hreceiver hreply =>
              exact hafter .refl (.call hcaller (.call (hend _ hqueue hsenders))) rfl hrest
                (.done hsuccess hworker hgoing hqueue hsenders hreceiver hreply)
            | gone hworker hgone => exact absurd (hheld.symm.trans hgone) Bool.noConfusion
            | heard hheard => exact absurd hnone hheard
        | dropEndpoints =>
          obtain ⟨rfl, hback, hnone, hsubmitted, hsame⟩ := henv
          obtain ⟨rfl, rfl⟩ := Prod.mk.inj hsame
          have hback : due₁ = back := hback
          have hcall : Asking writer fails .dropEndpoints s.desk ()
              { s.desk.letGo with dropped := true } := rfl
          have hgone {program : Prog FsInterface (Except Abort (Option BlobMetadata))}
              (hworker : s.At crc32c config key program) (hqueue : s.desk.acknowledgement.queue = [])
              (hreply : s.desk.reply = none) (hfollows : Follows false [] outcome program s.world) :=
            hafter (hworker.started hsubmitted) (.call hcaller (.call hcall)) rfl hrest
              (.gone rfl rfl (.gone rfl hqueue rfl) hreply hfollows)
          cases h with
          | @sending program front hworker hgoing hqueue hsenders hreceiver hnew hreply hfollows =>
            obtain rfl : front = [] := List.append_left_eq_self.mp hback
            rw [hcancelled rfl] at hfollows
            exact hgone hworker (congrArg Channel.queue hnew) hreply hfollows
          | closed hsuccess => exact Bool.noConfusion hsuccess
          | done hsuccess => exact Bool.noConfusion hsuccess
          | gone hworker hgone' hfinal hreply hfollows =>
            cases hfinal with
            | gone hreceiver hqueue hsenders => exact hgone (Or.inl hworker) hqueue hreply hfollows
          | heard hheard => exact absurd hnone hheard
        | acknowledge =>
          obtain ⟨rfl, hended, hheld, hfirst, hnone, hsame⟩ := henv
          obtain ⟨rfl, rfl⟩ := Prod.mk.inj hsame
          have hfirst : s.desk.acknowledged = false := hfirst
          have hheld : s.desk.dropped = false := hheld
          cases h with
          | sending hworker hgoing => exact absurd (hgoing.1.symm.trans hended) Bool.noConfusion
          | closed hsuccess hworker hgoing hqueue hsenders hwaits hreply hfollows =>
            rcases hwaits with ⟨-, hnew⟩ | ⟨hagain, -⟩
            · have hsends : Channel.Sends 1 () s.desk.acknowledgement true ⟨[], [()], true, true⟩ := by
                rw [hnew]
                exact .accepted rfl Nat.one_pos rfl
              have hcall : Asking writer fails .acknowledge s.desk ()
                  { s.desk with acknowledged := true, acknowledgement := ⟨[], [()], true, true⟩ } :=
                ⟨_, _, hsends, rfl⟩
              exact hafter .refl (.call hcaller (.call hcall)) rfl hrest (.closed rfl hworker hgoing
                hqueue hsenders (Or.inr ⟨rfl, rfl⟩) hreply hfollows)
            · exact absurd (hfirst.symm.trans hagain) Bool.noConfusion
          | done hsuccess hworker hgoing hqueue hsenders hreceiver hreply =>
            have hcall : Asking writer fails .acknowledge s.desk ()
                { s.desk with acknowledged := true } := ⟨_, _, .refused hreceiver, rfl⟩
            exact hafter .refl (.call hcaller (.call hcall)) rfl hrest
              (.done rfl hworker hgoing hqueue hsenders hreceiver hreply)
          | gone hworker hgone => exact absurd (hheld.symm.trans hgone) Bool.noConfusion
          | heard hheard => exact absurd hnone hheard
        | wait =>
          obtain ⟨rfl, hnone, hwhy, hsame⟩ := henv
          obtain ⟨rfl, rfl⟩ := Prod.mk.inj hsame
          -- a worker that has ended is answered for, and the caller hears it
          have hhears {t : LoadStream}
              (hsteps : ReflTransGen (LoadStep crc32c config fault writer fails key) s t)
              (hended : t.worker = .ended outcome) (hcaller' : t.caller = s.caller)
              (hlog : t.desk.log = s.desk.log) (hreply : t.desk.reply = none) :
              ∃ t, ReflTransGen (LoadStep crc32c config fault writer fails key) s t ∧
                t.caller = some (.ret r) ∧ t.desk.log = log' := by
            have hanswer : LoadStep crc32c config fault writer fails key t
                { t with desk := { t.desk with reply := some r' } } :=
              .reply hreply (hended ▸ hreplies)
            have hcall : Asking writer fails .wait { t.desk with reply := some r' } r'
                { t.desk with reply := some r', heard := some r' } := ⟨rfl, rfl⟩
            have hlog' : LoadDesk.log { t.desk with reply := some r', heard := some r' } =
                { s.desk.log with heard := some r' } := by
              rw [← hlog]
              rfl
            exact hafter (hsteps.tail hanswer) (.call (hcaller'.trans hcaller) (.call hcall)) rfl
              (hlog' ▸ hrest) (.heard nofun)
          cases h with
          | sending hworker hgoing =>
            rcases hwhy with ⟨-, hacknowledged⟩ | ⟨-, hdropped⟩
            · exact absurd (hgoing.2.2.symm.trans hacknowledged) Bool.noConfusion
            · exact absurd (hgoing.2.1.symm.trans hdropped) Bool.noConfusion
          | closed hsuccess hworker hgoing hqueue hsenders hwaits hreply hfollows =>
            subst hsuccess
            rcases hwhy with ⟨-, hacknowledged⟩ | ⟨hnot, -⟩
            · rcases hwaits with ⟨hnot, -⟩ | ⟨-, hmessage⟩
              · exact absurd (hnot.symm.trans hacknowledged) Bool.noConfusion
              · obtain ⟨m, w', hends⟩ := hfollows
                obtain ⟨t, hsteps, hended, hcaller', hlog, hreply'⟩ := drains crc32c config fault writer
                  fails key hworker (.acknowledged hmessage) hends
                exact hhears hsteps hended hcaller' hlog (hreply'.trans hreply)
            · exact Bool.noConfusion hnot
          | done hsuccess hworker hgoing hqueue hsenders hreceiver hreply =>
            exact hhears .refl hworker rfl rfl hreply
          | @gone program _ hworker hgone hfinal hreply hfollows =>
            obtain ⟨m, w', hends⟩ := hfollows
            obtain ⟨t, hsteps, hended, hcaller', hlog, hreply'⟩ := drains crc32c config fault writer
              fails key hworker hfinal hends
            exact hhears hsteps hended hcaller' hlog (hreply'.trans hreply)
          | heard hheard => exact absurd hnone hheard

variable (crc32c config fault writer fails key) in
/-- **Every course that copying can take is a run of the parties.** -/
theorem streamingLoad_returns (facade : Facade) {disk : Disk} {chunks : List (List UInt8)}
    {reply : LoadResult} (hverdict : LoadVerdict crc32c config key disk chunks reply) {after : Writes}
    {copied : Option IoError}
    (hcopies : Copies facade.retries writer [] [] chunks after copied) : ∃ s,
    (streamingLoad crc32c config fault writer fails facade key disk).Reachable s ∧
      s.caller = some (.ret (loadOutcome reply copied)) ∧ s.desk.writes = after := by
  have htogether {success : Bool} {tail : List (Option (List UInt8))} {reply r : LoadResult}
      {back front : List (List UInt8)} {w : JobWorld} {log : LoadLog}
      (htail : tail = [] ∨ tail = [none]) (hworker : Returns (Accepting success)
        (loadBlobIntoSender crc32c config (blobFilename config.format key)).run
        (.start disk, front.map some ++ tail) (workerOutcome reply) (w, []))
      (hcaller : Returns (Attended writer reply success back) facade.loadInto
        (.start, front ++ back) r (log, back)) (hcancelled : success = false → tail = []) : ∃ s,
      (streamingLoad crc32c config fault writer fails facade key disk).Reachable s ∧
        s.caller = some (.ret r) ∧ s.desk.log = log := by
    obtain ⟨m, hworker⟩ := hworker
    obtain ⟨n, hcaller⟩ := hcaller
    obtain ⟨s, hsteps, hret, hlog⟩ := together crc32c config fault fails key htail hcancelled
      (workerOutcome_replies fails reply)
      (s := ⟨some facade.loadInto, .start, .queued, .start disk⟩) rfl hcaller
      (.sending (Or.inr ⟨rfl, rfl⟩) ⟨rfl, rfl, rfl⟩ rfl rfl rfl rfl rfl ⟨m, w, hworker⟩)
    exact ⟨s, System.Reachable.run (.init rfl) hsteps, hret, hlog⟩
  cases copied with
  | none =>
    obtain ⟨log, back, front, hcaller, rfl, hwrites, hback⟩ := returns_loadInto reply facade hcopies
    obtain rfl := hback rfl
    obtain ⟨tail, w, htail, hworker⟩ := hverdict.returns
    rw [List.append_nil] at hworker
    obtain ⟨s, hs, hret, hlog⟩ := htogether htail hworker hcaller nofun
    exact ⟨s, hs, hret, (congrArg LoadLog.writes hlog).trans hwrites⟩
  | some source =>
    -- what the worker replies is not heard, and it was cancelled
    obtain ⟨log, back, front, hcaller, rfl, hwrites, -⟩ :=
      returns_loadInto (.error .streamCancelled) facade hcopies
    have hworker : ∃ w, Returns (Accepting false)
        (loadBlobIntoSender crc32c config (blobFilename config.format key)).run
        (.start disk, front.map some ++ []) (.error (.error .streamCancelled)) (w, []) := by
      generalize hchunks : front ++ back = chunks at hverdict hcopies
      cases hverdict with
      | stored hstores =>
        rw [List.append_nil]
        exact (returns_stored hstores hchunks.symm).2
      | absent | rejected | unavailable =>
        cases hcopies with
        | took hne | again hne | full hne | failed hne => exact absurd rfl hne
    obtain ⟨w, hworker⟩ := hworker
    obtain ⟨s, hs, hret, hlog⟩ := htogether (Or.inl rfl) hworker hcaller fun _ => rfl
    exact ⟨s, hs, hret, (congrArg LoadLog.writes hlog).trans hwrites⟩

end Ending

/-! ## What every run may come to

  So far some run returns, and runs without faults have one result.  Here faults, dropped callers and
  panics are back, and what is asked is what can still be promised. -/

section Results

variable (crc32c : Crc32c) (config : StoreConfig) (fault : FsCall → IoError → Prop) (fails : Prop)
  (facade : Facade) (key : KeyHash) (disk : Disk)

/-- What is asked of a load, wherever it is.  All of it is said in terms of `load` and of the file as
    it was when the load began. -/
structure SafeLoad (s : LoadStream) : Prop where
  /-- Nothing is written before the whole envelope was validated, and then a start of its payload. -/
  validated : s.desk.writes ≠ [] →
    ∃ payload, Stores crc32c config key disk payload ∧ takenBytes s.desk.writes <+: payload
  /-- What `load_into` reports as loaded was written, and is what `load` returns. -/
  loaded : ∀ metadata, s.caller = some (.ret (.ok (some metadata))) → ∃ payload,
    LoadsTo crc32c config key disk (.ok (some payload)) ∧ takenBytes s.desk.writes = payload ∧
      metadata.payloadLen = payload.length
  /-- What it reports as absent is absent for `load`, and nothing was written. -/
  absent : s.caller = some (.ret (.ok none)) →
    LoadsTo crc32c config key disk (.ok none) ∧ s.desk.writes = []
  /-- Of what is no envelope nothing is written, and it is reported with the error of `load`, if nothing
      else fails. -/
  invalid : ∀ content, disk.entry (blobFilename config.format key) = some (.file content) →
    (∀ payload, ¬Stores crc32c config key disk payload) → s.desk.writes = [] ∧
      ∀ r, s.caller = some (.ret r) → ∃ e, r = .error e ∧
        (LoadsTo crc32c config key disk (.error (.error e)) ∨ MayFail fault fails disk)
  /-- An error of the writer is reported, after a start of the payload. -/
  output : ∀ source, writeFailure facade.retries s.desk.writes = some source →
    (∀ r, s.caller = some (.ret r) → r = .error (.outputIo source)) ∧
      ∃ payload, Stores crc32c config key disk payload ∧ takenBytes s.desk.writes <+: payload
  /-- The worker only reports a success that was acknowledged. -/
  acknowledged : ∀ metadata, s.worker = .ended (.ok (some metadata)) →
    s.desk.acknowledgement.taken ≠ [] ∧ s.desk.acknowledged = true

variable {crc32c config fault fails facade key disk} {writer : WriteRule} {s : LoadStream}

/-- What the worker has done, wherever it is. -/
theorem LoadInv.streamed (h : LoadInv crc32c config fault writer fails facade key disk s) :
    Streamed crc32c config key disk s.noted := by
  have hfine := h.worker
  have hstart (hnoted : s.noted = (.start disk, false)) : Streamed crc32c config key disk s.noted := by
    rw [hnoted]
    exact ⟨rfl, fun hne => absurd rfl hne⟩
  cases hworker : s.worker with
  | queued => exact hstart (by rwa [hworker] at hfine)
  | refused => exact hstart (by rwa [hworker] at hfine)
  | running program =>
    rw [hworker] at hfine
    exact hfine.now
  | ended outcome =>
    rw [hworker] at hfine
    exact hfine.1

/-- What the caller took is a start of what the worker sends of an envelope. -/
theorem LoadInv.taken (h : LoadInv crc32c config fault writer fails facade key disk s)
    (hne : s.desk.chunks.taken ≠ []) : ∃ payload, Stores crc32c config key disk payload ∧
      s.desk.chunks.taken <+: streamChunks payload := by
  have hsent : s.desk.chunks.taken <+: s.world.sent := ⟨_, h.sent⟩
  obtain ⟨-, hstreamed⟩ := h.streamed
  obtain ⟨payload, hstores, hchunks⟩ := hstreamed fun hnil => hne (List.prefix_nil.mp (by
    have hnil : s.world.sent = [] := hnil
    rwa [hnil] at hsent))
  exact ⟨payload, hstores, hsent.trans hchunks⟩

/-- **Nothing is written of what is no envelope.** -/
theorem LoadInv.validated (h : LoadInv crc32c config fault writer fails facade key disk s)
    (hne : s.desk.writes ≠ []) : ∃ payload, Stores crc32c config key disk payload ∧
      takenBytes s.desk.writes <+: payload := by
  obtain ⟨payload, hstores, more, hmore⟩ := h.taken fun hnil => hne (h.written.idle hnil)
  refine ⟨payload, hstores, h.written.taken.trans ⟨more.flatten, ?_⟩⟩
  show s.desk.chunks.taken.flatten ++ more.flatten = payload
  rw [← List.flatten_append, hmore, flatten_streamChunks]

/-- A caller that has seen the end of the chunks has taken all that was sent. -/
theorem LoadInv.all_taken (h : LoadInv crc32c config fault writer fails facade key disk s)
    (hended : s.desk.ended = true) : s.desk.chunks.taken = s.world.sent := by
  rw [← h.sent, Channel.sent, (h.ended hended).1, List.append_nil]

/-- **How a call may have returned.** -/
inductive LoadFinished (crc32c : Crc32c) (config : StoreConfig) (fault : FsCall → IoError → Prop)
    (fails : Prop) (retries : Bool) (writer : WriteRule) (key : KeyHash) (disk : Disk)
    (writes : Writes) : LoadResult → Prop
  /-- The file is an envelope, and its payload was copied. -/
  | loaded {payload : List UInt8} (hstores : Stores crc32c config key disk payload)
      (hcopies : Copies retries writer [] [] (streamChunks payload) writes none) :
      LoadFinished crc32c config fault fails retries writer key disk writes
        (.ok (some ⟨payload.length⟩))
  /-- There is no file, in a directory. -/
  | absent (hnone : disk.entry (blobFilename config.format key) = none)
      (hdirectory : disk.isDirectory = true) (hwrites : writes = []) :
      LoadFinished crc32c config fault fails retries writer key disk writes (.ok none)
  /-- The file is no envelope, and nothing was written. -/
  | rejected {e : AtomicBlobStoreError} (hrejects : Rejects crc32c config key disk e)
      (hwrites : writes = []) :
      LoadFinished crc32c config fault fails retries writer key disk writes (.error e)
  /-- The file is an envelope, and the writer failed. -/
  | output {payload : List UInt8} {source : IoError} (hstores : Stores crc32c config key disk payload)
      (hcopies : Copies retries writer [] [] (streamChunks payload) writes (some source)) :
      LoadFinished crc32c config fault fails retries writer key disk writes (.error (.outputIo source))
  /-- Something else failed, and the writer did not. -/
  | failed {e : AtomicBlobStoreError} (h : MayFail fault fails disk)
      (hgoing : writeFailure retries writes = none) :
      LoadFinished crc32c config fault fails retries writer key disk writes (.error e)

/-- **A call that has returned.** -/
theorem LoadInv.finished (h : LoadInv crc32c config fault writer fails facade key disk s)
    {r : LoadResult} (hret : s.caller = some (.ret r)) :
    LoadFinished crc32c config fault fails facade.retries writer key disk s.desk.writes r := by
  have hreturns := (h.caller _ hret).result
  generalize hlog : s.desk.log = log at hreturns
  cases hreturns with
  | answered hended hheld hacknowledged hcopies hheard =>
    subst hlog
    -- the caller heard the end, so it took all that was sent, and its reply comes from the worker
    have hall := h.all_taken hended
    have hcopies : Copies facade.retries writer [] [] s.desk.chunks.taken s.desk.writes none := hcopies
    have hgoing : writeFailure facade.retries s.desk.writes = none := (hcopies.outcome_eq rfl).symm
    have hreplies := h.replied r (h.heard r hheard)
    have hkept : s.world.left = false :=
      (h.undisturbed (by rw [show s.desk.heard = some r from hheard]; nofun)).resolve_left
        (by rw [show s.desk.dropped = false from hheld]; nofun)
    have hfine := h.worker
    have hidle (hnil : s.world.sent = []) : s.desk.writes = [] := h.written.idle (hall.trans hnil)
    cases hworker : s.worker with
    | queued =>
      rw [hworker] at hreplies
      exact hreplies.elim
    | running program =>
      rw [hworker] at hreplies
      exact hreplies.elim
    | refused =>
      rw [hworker] at hreplies
      obtain ⟨e, rfl⟩ := hreplies
      exact .failed (Or.inl (h.refused hworker)) hgoing
    | ended outcome =>
      rw [hworker] at hreplies hfine
      obtain ⟨-, hloaded⟩ := hfine
      rcases outcome with abort | found
      · cases abort with
        | panic =>
          obtain rfl : r = _ := hreplies
          rcases hloaded with ⟨-, hfails⟩ | hloaded
          · exact .failed (Or.inl hfails) hgoing
          · exact hloaded.elim
        | error e =>
          rcases hloaded with ⟨hpanic, -⟩ | hloaded
          · nomatch hpanic
          rcases hreplies with rfl | ⟨hfails, rfl⟩
          · rcases hloaded with htrouble | ⟨hrejects, hnil⟩ | ⟨-, hleft, -⟩
            · exact .failed (Or.inr htrouble) hgoing
            · exact .rejected hrejects (hidle hnil)
            · exact absurd (hkept.symm.trans hleft) Bool.noConfusion
          · exact .failed (Or.inl hfails) hgoing
      · rcases hloaded with ⟨hpanic, -⟩ | hloaded
        · nomatch hpanic
        rcases hreplies with rfl | ⟨hfails, rfl⟩
        · cases found with
          | none =>
            obtain ⟨hnone, hdirectory, hnil⟩ := hloaded
            exact .absent hnone hdirectory (hidle hnil)
          | some metadata =>
            obtain ⟨-, payload, hstores, rfl, hsent⟩ := hloaded
            have hsent : s.world.sent = streamChunks payload := hsent
            rw [hall, hsent] at hcopies
            exact .loaded hstores hcopies
        · exact .failed (Or.inl hfails) hgoing
  | @outputFailed source _ hdropped hsilent hcopies =>
    subst hlog
    have hcopies : Copies facade.retries writer [] [] s.desk.chunks.taken s.desk.writes (some source) :=
      hcopies
    -- a write failed, so something was taken, and it is the beginning of what is stored
    obtain ⟨payload, hstores, more, hmore⟩ := h.taken fun hnil => by
      rw [hnil] at hcopies
      generalize s.desk.writes = writes at hcopies
      cases hcopies with
      | took hne | again hne | full hne | failed hne => exact absurd rfl hne
    exact .output hstores (hmore ▸ hcopies.more more)
  | notStarted hfails hchunks hwrites =>
    subst hlog
    have hwrites : s.desk.writes = [] := hwrites
    exact .failed (Or.inl hfails) (by rw [hwrites]; rfl)

/-- Copying that went well has copied everything. -/
theorem Copies.all {retries : Bool} {chunks : List (List UInt8)} {writes : Writes}
    (h : Copies retries writer [] [] chunks writes none) : takenBytes writes = chunks.flatten := by
  obtain ⟨more, rest, htaken, hsplit, hrest⟩ := h.bytes
  have hsplit : chunks.flatten = more ++ rest := hsplit
  rw [htaken, hsplit, hrest rfl, List.append_nil]
  rfl

/-- **Where the declared length can be allocated, a load is safe.** -/
theorem LoadInv.safe (h : LoadInv crc32c config fault writer fails facade key disk s)
    (halloc : Allocates config key disk) :
    SafeLoad crc32c config fault fails facade key disk s where
  validated := h.validated
  loaded metadata hret := by
    cases h.finished hret with
    | loaded hstores hcopies =>
      exact ⟨_, hstores.loads halloc, hcopies.all.trans (flatten_streamChunks _), rfl⟩
  absent hret := by
    cases h.finished hret with
    | absent hnone hdirectory hwrites => exact ⟨loads_absent hdirectory hnone, hwrites⟩
  invalid content hentry hnot := by
    refine ⟨by_contra fun hne => ?_, fun r hret => ?_⟩
    · obtain ⟨payload, hstores, -⟩ := h.validated hne
      exact hnot payload hstores
    · cases h.finished hret with
      | loaded hstores => exact absurd hstores (hnot _)
      | absent hnone => exact absurd (hentry.symm.trans hnone) nofun
      | rejected hrejects => exact ⟨_, rfl, Or.inl (hrejects.loads halloc)⟩
      | output hstores => exact absurd hstores (hnot _)
      | failed hfails => exact ⟨_, rfl, Or.inr hfails⟩
  output source hfailure := by
    refine ⟨fun r hret => ?_, h.validated fun hnil => ?_⟩
    · cases h.finished hret with
      | loaded hstores hcopies => exact absurd ((hcopies.outcome_eq rfl).trans hfailure) nofun
      | absent hnone hdirectory hwrites =>
        rw [hwrites] at hfailure
        nomatch hfailure
      | rejected hrejects hwrites =>
        rw [hwrites] at hfailure
        nomatch hfailure
      | output hstores hcopies =>
        obtain rfl := Option.some.inj ((hcopies.outcome_eq rfl).trans hfailure)
        rfl
      | failed hfails hgoing => exact absurd (hgoing.symm.trans hfailure) nofun
    · rw [hnil] at hfailure
      nomatch hfailure
  acknowledged metadata hworker := by
    have hfine := h.worker
    rw [hworker] at hfine
    obtain ⟨-, ⟨hpanic, -⟩ | ⟨hnoted, -⟩⟩ := hfine
    · nomatch hpanic
    · have htaken : s.desk.acknowledgement.taken ≠ [] := by
        intro hnil
        have hnoted : (!s.desk.acknowledgement.taken.isEmpty) = true := hnoted
        rw [hnil] at hnoted
        nomatch hnoted
      exact ⟨htaken, h.acknowledged fun hsent => htaken (List.append_eq_nil_iff.mp hsent).1⟩

/-- **Nothing else comes of a load that nothing disturbs.** -/
theorem concluded_load (hregular : disk.entry (blobFilename config.format key) ≠ some .other)
    (hdirectory : disk.isDirectory = true)
    (h : (streamingLoad crc32c config Faultless writer False facade key disk).Reachable s)
    {r : LoadResult} (hret : s.caller = some (.ret r)) : ∃ chunks reply copied,
    LoadVerdict crc32c config key disk chunks reply ∧
      Copies facade.retries writer [] [] chunks s.desk.writes copied ∧ r = loadOutcome reply copied := by
  cases (loadInv_of_reachable hregular h).finished hret with
  | loaded hstores hcopies => exact ⟨_, _, _, .stored hstores, hcopies, rfl⟩
  | absent hnone hdirectory hwrites =>
    rw [hwrites]
    exact ⟨_, _, _, .absent hdirectory hnone, .finished, rfl⟩
  | rejected hrejects hwrites =>
    rw [hwrites]
    exact ⟨_, _, _, .rejected hrejects, .finished, rfl⟩
  | output hstores hcopies => exact ⟨_, _, _, .stored hstores, hcopies, rfl⟩
  | failed hfails =>
    rcases hfails with hfails | htrouble
    · exact hfails.elim
    · exact absurd htrouble (not_trouble hdirectory)

/-- A writer that takes whatever it is offered. -/
def acceptsAll : WriteRule := fun _ offered r => r = .ok offered.length

/-- It copies everything. -/
theorem copies_acceptsAll (retries : Bool) (chunks : List (List UInt8)) :
    ∀ (before : Writes) (left : List UInt8),
      ∃ after, Copies retries acceptsAll before left chunks after none := by
  induction chunks with
  | nil =>
    intro before left
    by_cases hne : left = []
    · exact ⟨before, hne ▸ .finished⟩
    · refine ⟨before ++ [(left, .ok left.length)],
        .took hne (List.length_pos_iff.mpr hne) (Nat.le_refl _) rfl ?_⟩
      rw [List.drop_length]
      exact .finished
  | cons chunk chunks ih =>
    intro before left
    by_cases hne : left = []
    · obtain ⟨after, hcopies⟩ := ih before chunk
      exact ⟨after, hne ▸ .next hcopies⟩
    · obtain ⟨after, hcopies⟩ := ih (before ++ [(left, .ok left.length)]) chunk
      refine ⟨after, .took hne (List.length_pos_iff.mpr hne) (Nat.le_refl _) rfl ?_⟩
      rw [List.drop_length]
      exact .next hcopies

variable (crc32c config facade key disk) in
/-- **Where it cannot be allocated, some load is not safe**, though nothing fails. -/
theorem unsafe_load (hnot : ¬Allocates config key disk) : ∃ s,
    (streamingLoad crc32c config Faultless acceptsAll False facade key disk).Reachable s ∧
      ¬SafeLoad crc32c config Faultless False facade key disk s := by
  have hpanics : LoadsTo crc32c config key disk (.error .panic) := loads_large hnot
  obtain ⟨content, hnot⟩ := not_forall.mp hnot
  obtain ⟨hentry, -⟩ := Classical.not_imp.mp hnot
  rcases stores_or_rejects crc32c hentry with ⟨payload, hstores⟩ | ⟨e, hrejects⟩
  · obtain ⟨after, hcopies⟩ := copies_acceptsAll facade.retries (streamChunks payload) [] []
    obtain ⟨s, hs, hret, -⟩ := streamingLoad_returns crc32c config Faultless acceptsAll False key facade
      (.stored hstores) hcopies
    refine ⟨s, hs, fun hsafe => ?_⟩
    obtain ⟨payload', hloads, -⟩ := hsafe.loaded _ hret
    nomatch hloads.unique hpanics
  · obtain ⟨s, hs, hret, -⟩ := streamingLoad_returns crc32c config Faultless acceptsAll False key facade
      (.rejected hrejects) .finished
    refine ⟨s, hs, fun hsafe => ?_⟩
    obtain ⟨-, herror⟩ := hsafe.invalid content hentry hrejects.not_stores
    obtain ⟨e', -, hloads | hfails | htrouble⟩ := herror _ hret
    · nomatch hloads.unique hpanics
    · exact hfails
    · exact not_trouble (Disk.isDirectory_of_entry hentry) htrouble

/-- **Every run of every streaming load is safe exactly where the declared length can be allocated.**
    Safety is asked of every run, with any faults, any writer, callers that are dropped and workers
    that panic.  It fails in no other way than by `load` panicking where `load_into` reports a
    truncated file. -/
theorem streaming_load_iff (hregular : disk.entry (blobFilename config.format key) ≠ some .other) :
    (∀ fault writer fails facade s,
      (streamingLoad crc32c config fault writer fails facade key disk).Reachable s →
        SafeLoad crc32c config fault fails facade key disk s) ↔ Allocates config key disk := by
  constructor
  · intro hsafe
    by_contra hnot
    obtain ⟨s, hs, hunsafe⟩ := unsafe_load crc32c config .blocking key disk hnot
    exact hunsafe (hsafe _ _ _ _ s hs)
  · intro halloc fault writer fails facade s hs
    exact (loadInv_of_reachable hregular hs).safe halloc

end Results

/-- A directory with one file. -/
def oneFile (name : FileName) (content : List UInt8) : Disk :=
  .directory fun n => if n = name then some (.file content) else none

/-- The file is there. -/
theorem entry_oneFile (name : FileName) (content : List UInt8) :
    (oneFile name content).entry name = some (.file content) := if_pos rfl

/-- The theorem for the envelope of one byte: it is loaded. -/
theorem streaming_load_sample : ∃ s, s.caller = some (.ret (.ok (some ⟨1⟩))) ∧
    SafeLoad crc32cReference ⟨testFormat, 16, 1, by decide, by decide⟩ Faultless False .tokio
      (Vector.replicate 32 0) (oneFile (blobFilename testFormat (Vector.replicate 32 0))
        (envelope crc32cReference testFormat [7])) s := by
  let config : StoreConfig := ⟨testFormat, 16, 1, by decide, by decide⟩
  let key : KeyHash := Vector.replicate 32 0
  let disk := oneFile (blobFilename testFormat key) (envelope crc32cReference testFormat [7])
  have hentry : disk.entry (blobFilename config.format key) =
      some (.file (envelope crc32cReference testFormat [7])) := entry_oneFile _ _
  have hregular : disk.entry (blobFilename config.format key) ≠ some .other := by
    rw [hentry]
    nofun
  have hstores : Stores crc32cReference config key disk [7] := ⟨by decide, hentry⟩
  have halloc : Allocates config key disk := by
    intro content _ declared rest _ hle
    have hle : declared ≤ 16 := hle
    show declared ≤ 2 ^ 63 - 1
    omega
  obtain ⟨after, hcopies⟩ := copies_acceptsAll Facade.tokio.retries (streamChunks [7]) [] []
  obtain ⟨s, hs, hret, -⟩ := streamingLoad_returns crc32cReference config Faultless acceptsAll False key
    .tokio (.stored hstores) hcopies
  exact ⟨s, hret, (streaming_load_iff hregular).mpr halloc _ _ _ _ s hs⟩

/-- Where the file ends behind its header, the payload is missing. -/
theorem validate_header {crc32c : Crc32c} {format : BlobFormatIdentity} {maximum declared : Nat}
    (hmax : maximum < u64Limit) (hle : declared ≤ maximum) (hpos : 0 < declared) :
    ((validateEnvelopeReader crc32c format wholeFile maximum).run (headerBytes format declared)).1 =
      .error (.error (.truncatedEnvelope .payload)) := by
  have hflat : wholeFile.flat = wholeFile := flat_eq_wholeFile rfl
  have hheader := readHeader_headerBytes wholeFile format hmax hle []
  have hbody : (validateBody wholeFile.flat crc32c (headerBytes format declared) declared).run [] = _ :=
    validateBody_payload wholeFile crc32c hpos
  rw [hflat, List.append_nil] at hheader
  rw [hflat, endingError_none wholeFile rfl] at hbody
  rw [validateEnvelopeReader_eq, Reader.run_bind_ok hheader, hbody]

/-- **A header that declares more than `Vec` can hold**: `load` panics, `load_into` reports where the
    file ends. -/
theorem large_header_load : ∃ s,
    (streamingLoad crc32cReference ⟨testFormat, 2 ^ 63, 1, by decide, by decide⟩ Faultless acceptsAll
      False .blocking (Vector.replicate 32 0) (oneFile (blobFilename testFormat
        (Vector.replicate 32 0)) (headerBytes testFormat (2 ^ 63)))).Reachable s ∧
    s.caller = some (.ret (.error (.truncatedEnvelope .payload))) ∧
    LoadsTo crc32cReference ⟨testFormat, 2 ^ 63, 1, by decide, by decide⟩ (Vector.replicate 32 0)
      (oneFile (blobFilename testFormat (Vector.replicate 32 0)) (headerBytes testFormat (2 ^ 63)))
      (.error .panic) ∧
    ¬SafeLoad crc32cReference ⟨testFormat, 2 ^ 63, 1, by decide, by decide⟩ Faultless False .blocking
      (Vector.replicate 32 0) (oneFile (blobFilename testFormat (Vector.replicate 32 0))
        (headerBytes testFormat (2 ^ 63))) s := by
  let config : StoreConfig := ⟨testFormat, 2 ^ 63, 1, by decide, by decide⟩
  let key : KeyHash := Vector.replicate 32 0
  let disk := oneFile (blobFilename testFormat key) (headerBytes testFormat (2 ^ 63))
  have hentry : disk.entry (blobFilename config.format key) =
      some (.file (headerBytes testFormat (2 ^ 63))) := entry_oneFile _ _
  have hpanics : LoadsTo crc32cReference config key disk (.error .panic) := by
    refine loads_large fun halloc => ?_
    have hle := halloc _ hentry (2 ^ 63) [] (List.append_nil _).symm (Nat.le_refl _)
    exact absurd hle (by decide)
  have hrejects : Rejects crc32cReference config key disk (.truncatedEnvelope .payload) :=
    ⟨_, hentry, validate_header (maximum_lt config) (Nat.le_refl _) (by decide)⟩
  obtain ⟨s, hs, hret, -⟩ := streamingLoad_returns crc32cReference config Faultless acceptsAll False key
    .blocking (.rejected hrejects) .finished
  refine ⟨s, hs, hret, hpanics, fun hsafe => ?_⟩
  obtain ⟨-, herror⟩ := hsafe.invalid _ hentry hrejects.not_stores
  obtain ⟨e', -, hloads | hfails | htrouble⟩ := herror _ hret
  · nomatch hloads.unique hpanics
  · exact hfails
  · exact not_trouble (Disk.isDirectory_of_entry hentry) htrouble

end AtomicBlobStore
