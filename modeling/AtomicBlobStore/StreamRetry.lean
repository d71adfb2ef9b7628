/-
  THE RETRY LOOP of the streaming save on Windows.

  An attempt that met `AlreadyExists` is given up, and the next one draws another name.  The error is
  meant to say that the name is taken, but it is looked for in whatever the attempt returned, and a
  write or a flush may report it too; by then the attempt has taken messages from the channel, and
  they do not come back.

  1. **What is committed** (`committed_rest`) is the rest of the stream after what the attempts given
     up have taken, and it is exactly as long as declared.  So the committed file is the envelope of
     the whole stream exactly if the whole stream is no longer than declared
     (`streamed_commit_iff`).  Both facades send no more than that; the worker does not rely on it
     elsewhere.

  2. **Names that are taken** change nothing (`returns_firstFree`): whatever else fails, a save comes
     to the same result and the same directory as one whose names were all free.
-/
import AtomicBlobStore.StreamingSave

namespace AtomicBlobStore

open FsM (ask fail ofResult)

/-! ## What is committed

  What the worker received is what was taken out of the channel, in order; how it was divided among
  the attempts is not recorded anywhere, and need not be. -/

section Committing

variable {crc32c : Crc32c} {config : StoreConfig} {fault : FsCall → IoError → Prop}
  {key : KeyHash} {declaredLen : Nat} {disk : Disk} {α : Type}

/-- What was taken from the channel, and what is still in it. -/
def streamOf (v : JobWorld × List SaveStreamMessage) : List SaveStreamMessage :=
  messagesOf v.1.received ++ v.2

/-- The bytes that came through a channel are those of its messages. -/
theorem payloadOf_messages (log : List (Option SaveStreamMessage)) :
    payloadOf log = payloadOf ((messagesOf log).map some) := by
  induction log with
  | nil => rfl
  | cons r log ih =>
    cases r with
    | none => exact ih
    | some message => exact congrArg (_ ++ ·) ih

/-- A call takes the next message, or leaves the channel alone. -/
theorem feeding_call {c : FsCall} {v v' : JobWorld × List SaveStreamMessage} {r : c.Answer}
    (henv : Feeding (Fs fault) c v r v') : Fs fault c v.1 r v'.1 ∧ streamOf v' = streamOf v := by
  by_cases hc : c = .recv
  · subst hc
    obtain ⟨w, messages⟩ := v
    obtain ⟨w', rest⟩ := v'
    obtain ⟨hworld, rfl, rfl⟩ := henv
    refine ⟨hworld, ?_⟩
    obtain rfl : w' = { w with received := w.received ++ [messages.head?] } := hworld
    unfold streamOf
    rw [messagesOf_append, List.append_assoc]
    cases messages with
    | nil => rfl
    | cons message messages => rfl
  · obtain ⟨hfiles, hrest⟩ := feeding_other hc henv
    refine ⟨hfiles, ?_⟩
    unfold streamOf
    rw [hrest, fs_received hfiles hc]

/-- Where more may fail, a worker that is fed may still go the same way. -/
theorem feeding_mono {fault' : FsCall → IoError → Prop} (hle : ∀ c e, fault c e → fault' c e)
    {c : FsCall} {v v' : JobWorld × List SaveStreamMessage} {r : c.Answer}
    (henv : Feeding (Fs fault) c v r v') : Feeding (Fs fault') c v r v' := by
  cases c with
  | recv => exact henv
  | _ => exact ⟨fs_mono hle henv.1, henv.2⟩

/-- A worker that is fed runs as one that receives anything, and loses no message. -/
theorem run_fed {n : Nat} {p p' : Prog FsInterface α} {v v' : JobWorld × List SaveStreamMessage}
    (h : Run (Feeding (Fs fault)) n p v p' v') :
    Run (Fs fault) n p v.1 p' v'.1 ∧ streamOf v' = streamOf v := by
  induction h with
  | nil => exact ⟨.nil, rfl⟩
  | cons hstep _ ih =>
    cases hstep with
    | call henv =>
      obtain ⟨hfiles, hstream⟩ := feeding_call henv
      exact ⟨.cons (.call hfiles) ih.1, ih.2.trans hstream⟩
    | loop => exact ⟨.cons .loop ih.1, ih.2⟩

/-- **What is committed is the rest of the stream**, as long as declared: in every state that a
    worker can reach which is given these chunks and then `Complete`, or the end of the channel. -/
theorem committed_rest {chunks : List (List UInt8)} {tail : List SaveStreamMessage}
    (htail : tail = [] ∨ tail = [.complete]) {n : Nat} {p : Prog FsInterface (Except Abort Unit)}
    {w : JobWorld} {rest : List SaveStreamMessage}
    (hrun : Run (Feeding (Fs fault)) n (saveBlobFromReceiver crc32c config .windows
      (blobFilename config.format key) declaredLen).run (.start disk, feed chunks ++ tail) p (w, rest))
    {name : FileName} {node : Node} (hpublished : (name, node) ∈ w.published) :
    ∃ front back, chunks = front ++ back ∧ back.flatten.length = declaredLen ∧
      declaredLen ≤ config.maximum ∧ name = blobFilename config.format key ∧
      node = .file (envelope crc32c config.format back.flatten) ∧
      w.disk.entry (blobFilename config.format key) = some node := by
  obtain ⟨hrun, hstream⟩ := run_fed hrun
  have hholds := holds_saveBlobFromReceiver crc32c config fault (.start disk) key .windows declaredLen
  rcases (hholds n p w hrun).1 with hunseen | ⟨back, hlen, hmax, ⟨front, hreceived, -⟩, hsaved⟩
  · have hnone : w.published = [] := hunseen.published
    rw [hnone] at hpublished
    nomatch hpublished
  · have hreceived : w.received = front ++ (fed back ++ [some .complete]) := hreceived
    have hpublished' : w.published = [(blobFilename config.format key,
      .file (envelope crc32c config.format back.flatten))] := hsaved.published
    rw [hpublished'] at hpublished
    obtain ⟨rfl, rfl⟩ := Prod.mk.inj (List.mem_singleton.mp hpublished)
    -- the attempt that committed took `Complete`, so the stream has nothing after it
    have hstream : messagesOf front ++ feed back ++ .complete :: rest = feed chunks ++ tail := by
      have hstream : messagesOf w.received ++ rest = feed chunks ++ tail := hstream
      rw [hreceived, messagesOf_append, messagesOf_append, messagesOf_fed] at hstream
      rw [← hstream, List.append_assoc, List.append_assoc, List.append_assoc]
      rfl
    rcases htail with rfl | rfl
    · rw [List.append_nil] at hstream
      have hmem : SaveStreamMessage.complete ∈ feed chunks := by
        rw [← hstream]
        exact List.mem_append_right _ (List.mem_cons_self)
      exact absurd hmem (complete_not_mem_feed chunks)
    · obtain ⟨hfeed, -⟩ := complete_last hstream
      obtain ⟨before, -, rfl⟩ := feed_split hfeed
      exact ⟨before, back, rfl, hlen, hmax, rfl, rfl, hsaved.self⟩

/-- **A committed file is the envelope of the whole stream exactly if the stream is no longer than
    declared**, whatever fails, whatever was given up and wherever the worker is stopped. -/
theorem streamed_commit_iff {chunks : List (List UInt8)} {tail : List SaveStreamMessage}
    (htail : tail = [] ∨ tail = [.complete]) {n : Nat} {p : Prog FsInterface (Except Abort Unit)}
    {w : JobWorld} {rest : List SaveStreamMessage}
    (hrun : Run (Feeding (Fs fault)) n (saveBlobFromReceiver crc32c config .windows
      (blobFilename config.format key) declaredLen).run (.start disk, feed chunks ++ tail) p (w, rest))
    {name : FileName} {node : Node} (hpublished : (name, node) ∈ w.published) :
    (∃ bytes, encodeEnvelope crc32c config.format chunks.flatten config.maximum = .ok bytes ∧
      node = .file bytes) ↔ chunks.flatten.length ≤ declaredLen := by
  obtain ⟨front, back, rfl, hlen, hmax, -, rfl, -⟩ := committed_rest htail hrun hpublished
  have hencoder := encodeEnvelope_ok_iff_of_lt crc32c config.format
    (Nat.lt_of_le_of_lt (Nat.le_add_right _ _) config.maximum_valid)
  rw [List.flatten_append, List.length_append]
  constructor
  · rintro ⟨bytes, hencode, hnode⟩
    obtain ⟨-, rfl⟩ := (hencoder _ _).mp hencode
    have hsize := congrArg List.length (Node.file.inj hnode)
    rw [length_envelope, length_envelope, List.length_append] at hsize
    omega
  · intro hle
    have hnil : front.flatten = [] := List.length_eq_zero_iff.mp (by omega)
    rw [hnil, List.nil_append]
    exact ⟨_, (hencoder _ _).mpr ⟨by omega, rfl⟩, rfl⟩

end Committing

/-! ## Names that are taken

  A turn that finds its name taken has asked for nothing but the name.  Leaving it out of a run leaves
  the run. -/

section Collisions

variable {W : Type}

/-- `env`, where every name that is drawn is free. -/
def FirstFree (env : Environment FsInterface W) : Environment FsInterface W
  | .createNew name, w, r, w' =>
    env (.createNew name) w r w' ∧ ∀ e, r = .error e → e.kind ≠ .alreadyExists
  | c, w, r, w' => env c w r w'

/-- Any call but the one that creates a file. -/
def CreatesNothing : FsCall → Prop
  | .createNew _ => False
  | _ => True

/-- Apart from the creation of a file both environments answer alike, -/
theorem firstFree_of_createsNothing (env : Environment FsInterface W) : ∀ c, CreatesNothing c →
    ∀ w r w', env c w r w' → FirstFree env c w r w' := by
  intro c hc w r w' h
  cases c with
  | createNew name => exact hc.elim
  | _ => exact h

/-- and an answer of the one is an answer of the other. -/
theorem of_firstFree {env : Environment FsInterface W} {c : FsCall} {w w' : W} {r : c.Answer}
    (h : FirstFree env c w r w') : env c w r w' := by
  cases c with
  | createNew name => exact h.1
  | _ => exact h

variable (crc32c : Crc32c) (config : StoreConfig) (path hash staging : FileName) (declaredLen : Nat)

/-- What follows the creation of a staging file, in an attempt. -/
def afterCreation (r : Except IoError Unit) : FsM (Except Abort Unit) :=
  ProgE.attempt (do
    FsM.io .openAtomicWriter r
    writeStreamEnvelope crc32c config (Windows.writeStaging staging) declaredLen
    FsM.io .writeEnvelope (← ask (.flushFile staging)) : FsM Unit)

/-- What an attempt comes to. -/
def afterAttempt : Except Abort Unit → FsM (Unit ⊕ Unit)
  | .ok () => do
    Windows.publish staging path
    pure (.inr ())
  | .error abort =>
    if Windows.isAlreadyExists abort then pure (.inl ())
    else do
      let _ ← ask (.deleteFile staging)
      throw abort

/-- A turn draws a name, creates the file, and goes on. -/
theorem saveStreamTurn_eq : Windows.saveStreamTurn crc32c config path hash declaredLen = (do
    let identifier ← randomIdentifier
    let staging := stagingFilename hash config.format.filenameSuffix .save identifier
    let r ← ask (.createNew staging)
    afterCreation crc32c config staging declaredLen r >>= afterAttempt path staging) := by
  refine congrArg (randomIdentifier >>= ·) (funext fun identifier => ?_)
  refine congrArg (Prog.call _) (funext fun r => ?_)
  rfl

/-- After the creation no other file is created. -/
theorem calls_afterCreation (r : Except IoError Unit) :
    (afterCreation crc32c config staging declaredLen r >>= afterAttempt path staging).run.Calls
      CreatesNothing := by
  have hwrite : ∀ bytes, (Windows.writeStaging staging bytes).run.Calls CreatesNothing :=
    fun _ => calls_ask trivial fun r => calls_io _
  refine ProgE.calls_bind (ProgE.calls_attempt ?_) fun outcome => ?_
  · refine ProgE.calls_bind (calls_io _) fun _ => ?_
    exact ProgE.calls_bind (calls_encoder crc32c config declaredLen trivial hwrite)
      fun _ => calls_ask trivial fun r => calls_io _
  · cases outcome with
    | ok u =>
      refine ProgE.calls_bind (ProgE.calls_bind ?_ fun _ => ?_) fun _ => .ret _
      · refine calls_ask trivial fun r => ?_
        cases r with
        | ok u => exact .ret _
        | error source =>
          show Prog.Calls _ (ExceptT.run (if _ then _ else _))
          split
          · refine calls_ask trivial fun r => ?_
            cases r <;> exact .ret _
          · exact .ret _
      · refine ProgE.calls_bind (ProgE.calls_attempt ?_) fun r => calls_io _
        refine ProgE.calls_bind (ProgE.calls_ask trivial) fun r => ?_
        refine ProgE.calls_bind (calls_ioM _) fun _ => ?_
        exact ProgE.calls_bind (ProgE.calls_ask trivial) fun r => calls_ioM _
    | error abort =>
      show Prog.Calls _ (ExceptT.run (if _ then _ else _))
      split
      · exact .ret _
      · exact calls_ask trivial fun r => .ret _

/-- A collision gives the attempt up. -/
theorem afterCreation_collides {e : IoError} (he : e.kind = .alreadyExists) :
    afterCreation crc32c config staging declaredLen (.error e) >>= afterAttempt path staging =
      pure (.inl ()) := by
  have hexists : Windows.isAlreadyExists (.error (.io .openAtomicWriter e)) = true := by
    show (e.kind == .alreadyExists) = true
    rw [he]
    rfl
  show (if Windows.isAlreadyExists (.error (.io .openAtomicWriter e)) then _ else _) = _
  rw [if_pos hexists]

/-- **One turn**: it changes nothing, or it would go the same way if the name was free. -/
theorem returns_turn {env : Environment FsInterface W}
    (hfills : ∀ w r w', env .fill w r w' → w' = w)
    (hcollides : ∀ name w e w', env (.createNew name) w (.error e) w' → e.kind = .alreadyExists →
      w' = w) {w w' : W} {x : Except Abort (Unit ⊕ Unit)}
    (h : Returns env (Windows.saveStreamTurn crc32c config path hash declaredLen).run w x w') :
    Returns (FirstFree env) (Windows.saveStreamTurn crc32c config path hash declaredLen).run w x w' ∨
      x = .ok (.inl ()) ∧ w' = w := by
  rw [saveStreamTurn_eq] at h ⊢
  obtain ⟨r, w₁, hfill, hdrawn⟩ := Returns.of_call h
  obtain rfl := hfills w r w₁ hfill
  have hfill' : FirstFree env .fill w₁ r w₁ := hfill
  cases r with
  | error code =>
    obtain ⟨rfl, rfl⟩ := Returns.of_ret hdrawn
    exact Or.inl (Returns.call hfill' returns_ret)
  | ok bytes =>
    obtain ⟨r, w₂, hcreate, hcreated⟩ := Returns.of_call hdrawn
    by_cases hcollision : ∃ e, r = .error e ∧ e.kind = .alreadyExists
    · obtain ⟨e, rfl, he⟩ := hcollision
      have hend : Returns env (afterCreation crc32c config (stagingFilename hash
        config.format.filenameSuffix .save (toHex bytes.toList)) declaredLen (.error e) >>=
        afterAttempt path (stagingFilename hash config.format.filenameSuffix .save
          (toHex bytes.toList))).run w₂ x w' := hcreated
      rw [afterCreation_collides crc32c config path _ declaredLen he] at hend
      obtain ⟨rfl, rfl⟩ := Returns.of_ret hend
      exact Or.inr ⟨rfl, hcollides _ _ e _ hcreate he⟩
    · have hcreate' : FirstFree env (.createNew (stagingFilename hash
          config.format.filenameSuffix .save (toHex bytes.toList))) w₁ r w₂ :=
        ⟨hcreate, fun e hr he => hcollision ⟨e, hr, he⟩⟩
      obtain ⟨n, hrun⟩ := hcreated
      exact Or.inl (Returns.call hfill' (Returns.call hcreate' ⟨n, hrun.restrict
        (firstFree_of_createsNothing env)
        (calls_afterCreation crc32c config path _ declaredLen r)⟩))

variable {crc32c config declaredLen} {fault : FsCall → IoError → Prop} {key : KeyHash}

/-- **Names that are taken change nothing**: a save comes to what it comes to where every name is
    free, to the same result and the same world. -/
theorem returns_firstFree {v v' : JobWorld × List SaveStreamMessage} {x : Except Abort Unit} :
    Returns (Feeding (Fs fault)) (saveBlobFromReceiver crc32c config .windows
      (blobFilename config.format key) declaredLen).run v x v' ↔
    Returns (FirstFree (Feeding (Fs fault))) (saveBlobFromReceiver crc32c config .windows
      (blobFilename config.format key) declaredLen).run v x v' := by
  constructor
  · intro h
    show Returns _ (Windows.saveBlobFromReceiver crc32c config _ declaredLen).run v x v'
    have h : Returns (Feeding (Fs fault)) (Windows.saveBlobFromReceiver crc32c config
      (blobFilename config.format key) declaredLen).run v x v' := h
    unfold Windows.saveBlobFromReceiver at h ⊢
    rw [stem_blobFilename] at h ⊢
    by_cases hmax : declaredLen ≤ config.maximum
    · rw [envelopeHeader_eq config hmax] at h ⊢
      exact returnsE_skip (fun s w y w' hturn => returns_turn crc32c config _ _ declaredLen
        (by
          rintro ⟨w, messages⟩ r ⟨w', rest⟩ ⟨⟨rfl, -⟩, rfl⟩
          rfl)
        (by
          rintro name ⟨w, messages⟩ e ⟨w', rest⟩ ⟨⟨rfl, -⟩, rfl⟩ -
          rfl) hturn) h
    · rw [envelopeHeader, if_pos (Nat.lt_of_not_le hmax)] at h ⊢
      obtain ⟨rfl, rfl⟩ := Returns.of_ret h
      exact returns_ret
  · rintro ⟨n, hrun⟩
    exact ⟨n, hrun.mono fun c w r w' => of_firstFree⟩

end Collisions

/-! ## What is lost

  `AlreadyExists` is a kind of error, and the loop looks at the kind alone. -/

section Losing

variable {crc32c : Crc32c} {config : StoreConfig} {fault : FsCall → IoError → Prop}
  {declaredLen : Nat} {hash staging : FileName}

variable (crc32c config) in
/-- **An attempt that is given up has taken the chunk** whose write reported `AlreadyExists`. -/
theorem returns_givenUp (path : FileName) (bytes : Vector UInt8 32) (w : JobWorld)
    {chunk : List UInt8} (rest : List SaveStreamMessage) {e : IoError}
    (hstaging : staging = stagingFilename hash config.format.filenameSuffix .save
      (toHex bytes.toList))
    (hmax : declaredLen ≤ config.maximum) (hlen : chunk.length ≤ declaredLen)
    (hdirectory : w.disk.isDirectory = true) (hfree : w.disk.entry staging = none)
    (he : e.kind = .alreadyExists) (hfault : fault (.writeFile staging chunk) e) :
    ∃ w', w'.disk.isDirectory = true ∧ (∀ n, n ≠ staging → w'.disk.entry n = w.disk.entry n) ∧
      w'.published = w.published ∧
      Returns (Feeding (Fs fault)) (Windows.saveStreamTurn crc32c config path hash declaredLen).run
        (w, .chunk chunk :: rest) (.ok (.inl ())) (w', rest) := by
  -- the staging file is created, gets the header, and stays at it when the write of the chunk fails
  let header := headerBytes config.format declaredLen
  let w₁ : JobWorld := { w with disk := w.disk.set staging (some (.file [])) }
  let w₂ : JobWorld := { w₁ with disk := w₁.disk.set staging (some (.file ([] ++ header))) }
  let w₃ : JobWorld := { w₂ with received := w₂.received ++ [some (.chunk chunk)] }
  let w₄ : JobWorld := { w₃ with disk := w₃.disk.set staging (some (.file header)) }
  have hdirectory₁ : w₁.disk.isDirectory = true := by rw [Disk.isDirectory_set]; exact hdirectory
  have hdirectory₂ : w₂.disk.isDirectory = true := by rw [Disk.isDirectory_set]; exact hdirectory₁
  have hfill : Feeding (Fs fault) .fill (w, .chunk chunk :: rest) (.ok bytes)
      (w, .chunk chunk :: rest) := ⟨⟨rfl, trivial⟩, rfl⟩
  have hcreate : Feeding (Fs fault) (.createNew staging) (w, .chunk chunk :: rest) (.ok ())
      (w₁, .chunk chunk :: rest) := ⟨⟨hdirectory, hfree, rfl⟩, rfl⟩
  have hheader : Feeding (Fs fault) (.writeFile staging header) (w₁, .chunk chunk :: rest) (.ok ())
      (w₂, .chunk chunk :: rest) := ⟨⟨[], Disk.entry_set_self hdirectory, rfl⟩, rfl⟩
  have hrecv : Feeding (Fs fault) .recv (w₂, .chunk chunk :: rest) (some (.chunk chunk))
      (w₃, rest) := ⟨rfl, rfl, rfl⟩
  have hwrite : Feeding (Fs fault) (.writeFile staging chunk) (w₃, rest) (.error e) (w₄, rest) :=
    ⟨⟨header, Disk.entry_set_self hdirectory₁, ⟨by rw [he]; nofun, hfault⟩, header, rfl⟩, rfl⟩
  have hencoder : Returns (Feeding (Fs fault)) (writeStreamEnvelope crc32c config
      (Windows.writeStaging staging) declaredLen).run (w₁, .chunk chunk :: rest)
      (.error (.error (.io .writeEnvelope e))) (w₄, rest) := by
    unfold writeStreamEnvelope
    rw [envelopeHeader_eq config hmax]
    refine returnsE_bind returns_ret (returnsE_bind (Returns.call hheader returns_ret) ?_)
    refine returnsE_stop (Returns.call hrecv ?_)
    have hsmall : config.maximum + (headerLen + checksumLen) < u64Limit := config.maximum_valid
    show Returns _ (ExceptT.run (if 0 + chunk.length ≥ u64Limit ∨ 0 + chunk.length > declaredLen
      then _ else _)) _ _ _
    rw [if_neg (by omega)]
    exact Returns.call hwrite returns_ret
  refine ⟨w₄, ?_, fun n hn => ?_, rfl, ?_⟩
  · rw [Disk.isDirectory_set]
    exact hdirectory₂
  · show ((((w.disk.set staging _).set staging _).set staging _)).entry n = _
    rw [Disk.entry_set_ne hn, Disk.entry_set_ne hn, Disk.entry_set_ne hn]
  · rw [saveStreamTurn_eq]
    subst hstaging
    refine Returns.call hfill (Returns.call hcreate ?_)
    -- the write fails with the kind that the loop takes for a name in use
    have hexists : Windows.isAlreadyExists (.error (.io .writeEnvelope e)) = true := by
      show (e.kind == .alreadyExists) = true
      rw [he]
      rfl
    refine returnsE_bind (returnsE_attempt (returnsE_bind returns_ret
      (returnsE_bind_error hencoder))) ?_
    show Returns _ (ExceptT.run (if Windows.isAlreadyExists (.error (.io .writeEnvelope e))
      then _ else _)) _ _ _
    rw [if_pos hexists]
    exact returns_ret

end Losing

/-! ## The result -/

/-- What the retry loop does with a stream of chunks.  It is about one call of
    `save_blob_from_receiver` on Windows, with all attempts that it makes. -/
structure RetryExact (crc32c : Crc32c) (config : StoreConfig) (fault : FsCall → IoError → Prop)
    (key : KeyHash) (declaredLen : Nat) (disk : Disk) (chunks : List (List UInt8))
    (tail : List SaveStreamMessage) : Prop where
  /-- In every state that a run reaches, what was moved was moved onto the canonical path, and it is
      the envelope of the whole stream exactly if the stream is no longer than declared. -/
  moved : ∀ n p w rest, Run (Feeding (Fs fault)) n (saveBlobFromReceiver crc32c config .windows
      (blobFilename config.format key) declaredLen).run (.start disk, feed chunks ++ tail) p (w, rest) →
    ∀ name node, (name, node) ∈ w.published → name = blobFilename config.format key ∧
      ((∃ bytes, encodeEnvelope crc32c config.format chunks.flatten config.maximum = .ok bytes ∧
        node = .file bytes) ↔ chunks.flatten.length ≤ declaredLen)
  /-- Names that are taken change neither the result nor the directory. -/
  collisions : ∀ x v, Returns (Feeding (Fs fault)) (saveBlobFromReceiver crc32c config .windows
      (blobFilename config.format key) declaredLen).run (.start disk, feed chunks ++ tail) x v ↔
    Returns (FirstFree (Feeding (Fs fault))) (saveBlobFromReceiver crc32c config .windows
      (blobFilename config.format key) declaredLen).run (.start disk, feed chunks ++ tail) x v

/-- **The retry loop**, for every stream of chunks, completed or not, and whatever fails.  It holds
    for every list of chunks, with or without `Complete` behind them, and for any faults: what the
    retries lose is exactly what exceeds the declared length, and where nothing exceeds it they lose
    nothing. -/
theorem stream_retry_iff (crc32c : Crc32c) (config : StoreConfig) (fault : FsCall → IoError → Prop)
    (key : KeyHash) (declaredLen : Nat) (disk : Disk) (chunks : List (List UInt8))
    {tail : List SaveStreamMessage} (htail : tail = [] ∨ tail = [.complete]) :
    RetryExact crc32c config fault key declaredLen disk chunks tail where
  moved n p w rest hrun name node hpublished := by
    obtain ⟨-, -, -, -, -, hname, -⟩ := committed_rest htail hrun hpublished
    exact ⟨hname, streamed_commit_iff htail hrun hpublished⟩
  collisions x v := returns_firstFree

/-- The store of the example is allowed. -/
theorem retryConfig_fits : 16 + (headerLen + checksumLen) < u64Limit := by decide

/-- A store, a key, and a write of the chunk `[1]` that may report `AlreadyExists`. -/
def retryConfig : StoreConfig := ⟨testFormat, 16, 1, retryConfig_fits, Nat.one_pos⟩

def retryKey : KeyHash := Vector.replicate 32 0

def FirstChunkFails (c : FsCall) (e : IoError) : Prop :=
  e.kind = .alreadyExists ∧ ∃ name, c = .writeFile name [1]

/-- The theorem for two chunks of a byte each, where one byte was declared. -/
theorem stream_retry_iff_sample : RetryExact crc32cReference retryConfig FirstChunkFails retryKey 1
    (.directory fun _ => none) [[1], [2]] [.complete] :=
  stream_retry_iff _ _ _ _ _ _ _ (Or.inr rfl)

/-- The run in question: two chunks of a byte each are sent where one byte was declared, the first
    attempt takes the first of them, and the next one saves the second alone. -/
theorem returns_remainder : ∃ w,
    Returns (Feeding (Fs FirstChunkFails)) (saveBlobFromReceiver crc32cReference retryConfig .windows
      (blobFilename testFormat retryKey) 1).run
      (.start (.directory fun _ => none), feed [[1], [2]] ++ [.complete]) (.ok ()) (w, []) ∧
    w.disk.entry (blobFilename testFormat retryKey) =
      some (.file (envelope crc32cReference testFormat [2])) := by
  have hmax : 1 ≤ retryConfig.maximum := by decide
  obtain ⟨w, hdirectory, hentries, -, hturn⟩ := returns_givenUp crc32cReference retryConfig
    (blobFilename testFormat retryKey) (Vector.replicate 32 0) (.start (.directory fun _ => none))
    [.chunk [2], .complete] rfl hmax (by decide) rfl rfl rfl
    (show FirstChunkFails (.writeFile (stagingFilename (toHex retryKey.toList) _ .save _) [1])
      ⟨.alreadyExists, 183⟩ from ⟨rfl, _, rfl⟩)
  -- the next attempt draws another name
  have hne : stagingFilename (toHex retryKey.toList) retryConfig.format.filenameSuffix .save
      (toHex (Vector.replicate 32 (1 : UInt8)).toList) ≠
      stagingFilename (toHex retryKey.toList) retryConfig.format.filenameSuffix .save
      (toHex (Vector.replicate 32 (0 : UInt8)).toList) := by
    intro h
    have hbytes := toHex_inj (List.append_cancel_left h)
    exact absurd hbytes (by decide)
  have hfree := (hentries _ hne).trans rfl
  have hencodes : Encodes crc32cReference retryConfig 1 (feed [[2]] ++ [.complete]) (.ok ()) :=
    encodes_complete hmax rfl
  have hconsumes : Consumes Faultless (feed [[2]] ++ [.complete]) (.ok ())
      (Windows.saveBlobFromReceiver crc32cReference retryConfig
        (blobFilename retryConfig.format retryKey) 1).run w :=
    Windows.returns_saveBlobFromReceiver hmax hdirectory (Vector.replicate 32 1) hfree hencodes nofun
  obtain ⟨n, w', hrun⟩ := hconsumes
  have hrest : Returns (Feeding (Fs FirstChunkFails)) (Windows.saveBlobFromReceiver crc32cReference
      retryConfig (blobFilename retryConfig.format retryKey) 1).run (w, [.chunk [2], .complete])
      (.ok ()) (w', []) := ⟨n, hrun.mono fun c v r v' => feeding_mono (fun _ _ => False.elim)⟩
  have hall : Returns (Feeding (Fs FirstChunkFails)) (Windows.saveBlobFromReceiver crc32cReference
      retryConfig (blobFilename retryConfig.format retryKey) 1).run
      (.start (.directory fun _ => none), feed [[1], [2]] ++ [.complete]) (.ok ()) (w', []) := by
    unfold Windows.saveBlobFromReceiver at hrest ⊢
    rw [envelopeHeader_eq retryConfig hmax, stem_blobFilename] at hrest ⊢
    exact returnsE_bind returns_ret (returnsE_bind returns_ret (returnsE_next hturn hrest))
  obtain ⟨m, hrun⟩ := hall
  obtain ⟨saved, -, -, -, hsaved⟩ : SavedStream crc32cReference retryConfig FirstChunkFails
      (.start (.directory fun _ => none)) retryKey 1 w' :=
    (holds_saveBlobFromReceiver crc32cReference retryConfig FirstChunkFails _ retryKey .windows 1
      m _ w' (run_fed hrun).1).2 _ rfl
  have hpublished := hsaved.published
  obtain ⟨front, back, hsplit, hlen, -, -, hnode, hentry⟩ := committed_rest (Or.inr rfl) hrun
    (hpublished ▸ List.mem_append_right _ (List.mem_singleton_self _))
  -- one byte is left of the two, and it is the last
  have hback : back.flatten = [2] := by
    rcases front with _ | ⟨chunk, _ | ⟨chunk', front⟩⟩
    · obtain rfl : back = [[1], [2]] := hsplit.symm
      exact absurd hlen (by decide)
    · obtain rfl : back = [[2]] := (List.cons.inj hsplit).2.symm
      rfl
    · have hnil : [] = front ++ back := (List.cons.inj (List.cons.inj hsplit).2).2
      obtain rfl := (List.append_eq_nil_iff.mp hnil.symm).2
      nomatch hlen
  rw [hback] at hnode
  exact ⟨w', ⟨m, hrun⟩, hnode ▸ hentry⟩

/-- An envelope of one byte is not one of two. -/
theorem envelope_remainder_ne (content : List UInt8)
    (h : content = envelope crc32cReference testFormat [2]) :
    content ≠ envelope crc32cReference testFormat [1, 2] := by
  rintro rfl
  have hsize := congrArg List.length h
  rw [length_envelope, length_envelope] at hsize
  exact absurd hsize (by decide)

/-- **The remainder is committed**: two chunks of a byte each are sent where one byte was declared,
    the first attempt takes the first of them, and the next one saves the second alone. -/
theorem remainder_committed : ∃ w content,
    Returns (Feeding (Fs FirstChunkFails)) (saveBlobFromReceiver crc32cReference retryConfig .windows
      (blobFilename testFormat retryKey) 1).run
      (.start (.directory fun _ => none), [.chunk [1], .chunk [2], .complete]) (.ok ()) (w, []) ∧
    w.disk.entry (blobFilename testFormat retryKey) = some (.file content) ∧
    encodeEnvelope crc32cReference testFormat [2] 16 = .ok content ∧
    encodeEnvelope crc32cReference testFormat [1, 2] 16 ≠ .ok content := by
  obtain ⟨w, hrun, hentry⟩ := returns_remainder
  have hencoder := encodeEnvelope_ok_iff_of_lt crc32cReference testFormat
    (by decide : 16 < u64Limit)
  exact ⟨w, _, hrun, hentry, (hencoder _ _).mpr ⟨by decide, rfl⟩,
    fun h => envelope_remainder_ne _ rfl ((hencoder _ _).mp h).2⟩

/-- **Old or new fails for an overlong stream**: that save reports success, and the canonical file is
    neither what it was nor the envelope of all that was received. -/
theorem overlong_stream_not_whole : ∃ w,
    Returns (Fs FirstChunkFails) (saveBlobFromReceiver crc32cReference retryConfig .windows
      (blobFilename testFormat retryKey) 1).run (.start (.directory fun _ => none)) (.ok ()) w ∧
    ¬Unseen testFormat (.start (.directory fun _ => none)) retryKey w ∧
    ¬NewStream crc32cReference retryConfig (.start (.directory fun _ => none)) retryKey 1 w ∧
    ¬OldOrNew FirstChunkFails (.start (.directory fun _ => none))
      (saveBlobFromReceiver crc32cReference retryConfig .windows (blobFilename testFormat retryKey) 1)
      (Unseen testFormat (.start (.directory fun _ => none)) retryKey)
      (NewStream crc32cReference retryConfig (.start (.directory fun _ => none)) retryKey 1) := by
  obtain ⟨w, ⟨n, hrun⟩, hentry⟩ := returns_remainder
  obtain ⟨hfiles, hstream⟩ := run_fed hrun
  have hold : ¬Unseen testFormat (.start (.directory fun _ => none)) retryKey w := by
    intro h
    cases h.self.symm.trans hentry
  have hnew : ¬NewStream crc32cReference retryConfig (.start (.directory fun _ => none)) retryKey 1
      w := by
    rintro ⟨log, hlog, hlen, -⟩
    -- all three messages were taken, so two bytes were received where one was declared
    have hlog : w.received = log := hlog
    have hmessages : messagesOf log = feed [[1], [2]] ++ [.complete] := by
      have hstream : messagesOf w.received ++ [] = feed [[1], [2]] ++ [.complete] := hstream
      rwa [List.append_nil, hlog] at hstream
    rw [payloadOf_messages, hmessages] at hlen
    exact absurd hlen (by decide)
  exact ⟨w, ⟨n, hfiles⟩, hold, hnew, fun h => hnew ((h n _ w hfiles).2 _ rfl)⟩

end AtomicBlobStore
