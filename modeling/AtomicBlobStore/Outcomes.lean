/-
  OUTCOMES: what one operation leaves and reports, whatever fails and wherever it is stopped.

  `Reference` says what an operation does where nothing fails; here any call may fail as `fault`
  allows.

  1. **Old and new** (`Operation.Old`, `Operation.New`) — what an operation finds under the canonical
     name, and what it is to leave there.  `BlockingResult.tale` is what a result says of the two.

  2. **`holds_operation`** — wherever it is stopped the file is old or new, and where it has returned
     the result tells which.  An operation that only looks leaves what it found, so for it the two
     are the same.

  3. **`holds_reports`** — a result that is no error reports what was found: a payload that is loaded
     had its whole envelope there, and what was sent of a streaming load is that payload.
-/
import AtomicBlobStore.Reference

namespace AtomicBlobStore

/-! ## Old and new

  The guarantee is for a client, who has a result and wonders about the blob.  It is put as a tale
  that the result tells, and the tale is true. -/

section Goals

variable (crc32c : Crc32c) (config : StoreConfig) (key : KeyHash) (before : Disk)

/-- The canonical file is what it was. -/
def Operation.Old (w : JobWorld) : Prop :=
  w.disk.entry (blobFilename config.format key) = before.entry (blobFilename config.format key)

/-- The canonical file is what the operation is to leave.  A streaming save leaves the last bytes that
    it received, as many as declared: all of them, unless there were more. -/
def Operation.New : Operation → JobWorld → Prop
  | .save payload _, w => payload.length ≤ config.maximum ∧
      w.disk.entry (blobFilename config.format key) =
        some (.file (envelope crc32c config.format payload))
  | .saveStream declaredLen _ _, w => ∃ payload, payload.length = declaredLen ∧
      declaredLen ≤ config.maximum ∧ payload <:+ payloadOf w.received ∧
      ((payloadOf w.received).length ≤ declaredLen → payload = payloadOf w.received) ∧
      w.disk.entry (blobFilename config.format key) =
        some (.file (envelope crc32c config.format payload))
  | .clear _, w => w.disk.entry (blobFilename config.format key) = none
  | .quarantine _, w => w.disk.entry (blobFilename config.format key) = none
  | _, w => Operation.Old config key before w

end Goals

/-- What a result says of the canonical file. -/
def taleOf {α : Type} : Except AtomicBlobStoreError α → Tale
  | .ok _ => .new
  | .error e => e.tells

/-- What the result of an operation says of the canonical file. -/
def BlockingResult.tale : BlockingResult → Tale
  | .load result => taleOf result
  | .loadStream result => taleOf result
  | .save result => taleOf result
  | .saveStream result => taleOf result
  | .clear result => taleOf result
  | .inspect result => taleOf result
  | .quarantine result => taleOf result

theorem Tale.Of.imp {tale : Tale} {old new old' new' : JobWorld → Prop} {w w' : JobWorld}
    (h : tale.Of old new w) (hold : old w → old' w') (hnew : new w → new' w') :
    tale.Of old' new' w' := by
  cases tale with
  | old => exact hold h
  | new => exact hnew h
  | either => exact Or.imp hold hnew h

/-! ## One job

  Each operation wraps one function of the filesystem, whose guarantee is known from `OldOrNew` and
  from the decoders. -/

section One

variable {fault : FsCall → IoError → Prop}

/-- **What holds of a function however it ends** holds of the operation that wraps its result. -/
theorem holds_outcome {α : Type} {p : FsM α} {f : Except AtomicBlobStoreError α → BlockingResult}
    {R : BlockingResult → JobWorld → Prop} {C : JobWorld → Prop} {w : JobWorld}
    (h : HoldsE (Fs fault) p (fun a => R (f (.ok a)))
      (fun abort w => ∀ e, abort = .error e → R (f (.error e)) w) C w) :
    Holds (Fs fault) (TaskResult.operation <$> (f <$> p.result) : FsM TaskResult).run
      (fun outcome w => ∀ result, outcome = .ok (.operation result) → R result w) C w := by
  have hresult : HoldsE (Fs fault) p.result (fun y => R (f y)) (fun _ _ => True) C w := by
    refine holds_result (h.mono (fun a w _ hr => hr) (fun abort w _ herror => ?_) fun _ hc => hc)
    cases abort with
    | panic => exact trivial
    | error e => exact herror e rfl
  have hmapped : HoldsE (Fs fault) (TaskResult.operation <$> (f <$> p.result) : FsM TaskResult)
      (fun t w => ∀ result, t = .operation result → R result w) (fun _ _ => True) C w := by
    refine holdsE_map (holdsE_map (hresult.mono (fun y w _ hy => ?_) (fun _ _ _ h => h) fun _ hc => hc))
    rintro result heq
    rw [← TaskResult.operation.inj heq]
    exact hy
  refine Holds.mono hmapped (fun outcome w _ hend => ?_) fun _ hc => hc
  rintro result rfl
  exact hend result rfl

/-- An operation whose function leaves old or new, and whose errors tell which. -/
theorem holds_tale {α : Type} {p : FsM α} {f : Except AtomicBlobStoreError α → BlockingResult}
    (hf : ∀ y, (f y).tale = taleOf y) {old new : JobWorld → Prop} {w : JobWorld}
    (h : HoldsE (Fs fault) p (fun _ => new) (fun abort w => ∀ e, abort = .error e → e.tells.Of old new w)
      (fun w => old w ∨ new w) w) :
    Holds (Fs fault) (TaskResult.operation <$> (f <$> p.result) : FsM TaskResult).run
      (fun outcome w => ∀ result, outcome = .ok (.operation result) → result.tale.Of old new w)
      (fun w => old w ∨ new w) w := by
  refine holds_outcome (R := fun result w => result.tale.Of old new w)
    (h.mono (fun a w _ hnew => ?_) (fun abort w _ herror e he => ?_) fun _ hc => hc)
  · rw [hf]
    exact hnew
  · rw [hf]
    exact herror e he

/-- A function that only looks. -/
theorem holds_looks {α : Type} {p : FsM α} (hp : p.run.Calls Leaves) {old : JobWorld → Prop}
    (hdisk : ∀ w w', old w → w'.disk = w.disk → old w') {w : JobWorld} (hold : old w) :
    HoldsE (Fs fault) p (fun _ => old) (fun abort w => ∀ e, abort = .error e → e.tells.Of old old w)
      (fun w => old w ∨ old w) w := by
  have hkeep : Holds (Fs fault) p.run (fun _ w => old w) old w :=
    holds_of_calls hp (fun c hc w r w' henv hw => hdisk w w' hw (hc fault w r w' henv)) hold
  refine Holds.mono hkeep (fun y w _ hw => ?_) fun w hw => Or.inl hw
  cases y with
  | ok a => exact hw
  | error abort =>
    rintro e -
    cases htells : e.tells with
    | old => exact hw
    | new => exact hw
    | either => exact Or.inl hw

variable (crc32c : Crc32c) (config : StoreConfig) (platform : Platform) (key : KeyHash) (before : Disk)

/-- **One operation, alone**: wherever it is stopped the canonical file is old or new, and a result
    tells which. -/
theorem holds_operation (op : Operation) :
    Holds (Fs fault) ((Task.operation key op).program crc32c config platform)
      (fun outcome w => ∀ result, outcome = .ok (.operation result) →
        result.tale.Of (Operation.Old config key before) (op.New crc32c config key before) w)
      (fun w => Operation.Old config key before w ∨ op.New crc32c config key before w)
      (.start before) := by
  have hunseen {w : JobWorld} (h : Unseen config.format (.start before) key w) :
      Operation.Old config key before w := h.self
  have hold : Operation.Old config key before (.start before) := rfl
  have hdisk : ∀ w w', Operation.Old config key before w → w'.disk = w.disk →
      Operation.Old config key before w' := by
    intro w w' h hsame
    unfold Operation.Old at h ⊢
    rw [hsame]
    exact h
  cases op with
  | load sender =>
    -- an operation that only looks leaves the old file, whatever its result
    apply holds_tale (fun y => rfl)
    exact holds_looks (calls_loadBlob crc32c config leaves_metadata (leaves_openFile _)) hdisk hold
  | loadStream chunks acknowledgement sender =>
    apply holds_tale (fun y => rfl)
    refine holds_looks (calls_loadBlobIntoSender crc32c config leaves_metadata (leaves_openFile _)
      (fun f n fault w r w' henv => congrArg JobWorld.disk henv.1) (fun chunk fault w r w' henv => ?_)
      fun fault w r w' henv => ?_) hdisk hold
    · have henv : w' = if r then _ else _ := henv
      rw [henv]
      split <;> rfl
    · have henv : w' = if r then _ else _ := henv
      rw [henv]
      split <;> rfl
  | save payload sender =>
    apply holds_tale (fun y => rfl)
    -- a payload that is refused never reaches the directory
    by_cases hfits : payload.length ≤ config.maximum
    · have hsaved {w : JobWorld} (h : Saved crc32c config (.start before) key payload w) :
          (Operation.save payload sender).New crc32c config key before w := ⟨hfits, h.self⟩
      refine (holds_saveBlob crc32c config fault (.start before) key platform payload).mono
        (fun _ w _ h => hsaved h) (fun abort w _ hfailed => ?_) fun w h => h.imp hunseen hsaved
      -- the one error of a quarantine that comes after its move
      rintro e rfl
      exact hfailed.1.imp hunseen hsaved
    · unfold HoldsE
      rw [saveBlob_refused crc32c hfits]
      refine holds_ret (Or.inl hold) ?_
      rintro e heq
      obtain rfl := Abort.error.inj heq
      unfold refusal
      split <;> exact hold
  | saveStream declaredLen chunks sender =>
    apply holds_tale (fun y => rfl)
    have hsaved {w : JobWorld}
        (h : SavedStream crc32c config fault (.start before) key declaredLen w) :
        (Operation.saveStream declaredLen chunks sender).New crc32c config key before w := by
      -- with nothing beyond the declared length, a suffix of that length is the whole stream
      have hmax : declaredLen ≤ config.maximum := by
        obtain ⟨fedChunks, -, hmax, -⟩ := h
        exact hmax
      obtain ⟨log, payload, hreceived, hsuffix, hlen, hsaved⟩ := h.leftByStream.remainder
      have hsuffix : payload <:+ payloadOf w.received := by
        rw [hreceived]
        exact hsuffix
      refine ⟨payload, hlen, hmax, hsuffix, fun hle => ?_, hsaved.self⟩
      exact hsuffix.eq_of_length_le (by omega)
    refine (holds_saveBlobFromReceiver crc32c config fault (.start before) key platform
      declaredLen).mono (fun _ w _ h => hsaved h) (fun abort w _ hfailed => ?_)
      fun w h => h.imp hunseen hsaved
    rintro e rfl
    exact hfailed.1.imp hunseen hsaved
  | clear sender =>
    apply holds_tale (fun y => rfl)
    have hgone {w : JobWorld} (h : Cleared config (.start before) key w) :
        (Operation.clear sender).New crc32c config key before w := by
      obtain ⟨moved, hseen⟩ := h
      exact hseen.self
    refine (holds_clearBlob config fault (.start before) key platform).mono (fun _ w _ h => hgone h)
      (fun abort w _ hfailed => ?_) fun w h => h.imp hunseen hgone
    rintro e rfl
    exact hfailed.1.imp hunseen hgone
  | inspect sender =>
    apply holds_tale (fun y => rfl)
    exact holds_looks (calls_inspectBlob leaves_metadata (leaves_symlinkMetadata _)) hdisk hold
  | quarantine sender =>
    apply holds_tale (fun y => rfl)
    have hgone {w : JobWorld} {quarantine : QuarantineInfo}
        (h : Quarantined config (.start before) key quarantine w) :
        (Operation.quarantine sender).New crc32c config key before w := by
      obtain ⟨-, -, node, -, -, hseen⟩ := h
      exact hseen.self
    refine (holds_quarantineBlob config fault (.start before) key platform).mono
      (fun quarantine w _ h => hgone h) (fun abort w _ hfailed => ?_) fun w h => h.imp hunseen ?_
    · rintro e rfl
      cases e with
      | quarantineNamespaceSync quarantine source => exact hgone hfailed.1
      | _ =>
        obtain ⟨htells, hseen, -⟩ := hfailed
        rw [htells]
        exact hunseen hseen
    · rintro ⟨quarantine, h⟩
      exact hgone h

/-- What a result that is no error reports of the directory that the operation found. -/
def BlockingResult.Reports (w : JobWorld) : BlockingResult → Prop
  | .load (.ok (some payload)) => Stores crc32c config key before payload
  | .load (.ok none) => before.entry (blobFilename config.format key) = none
  | .loadStream (.ok (some metadata)) => ∃ payload, Stores crc32c config key before payload ∧
      metadata = ⟨payload.length⟩ ∧ w.sent = streamChunks payload
  | .loadStream (.ok none) => before.entry (blobFilename config.format key) = none ∧ w.sent = []
  | .inspect (.ok ⟨.present, size, _⟩) => ∃ content,
      before.entry (blobFilename config.format key) = some (.file content) ∧ size = some content.length
  | .inspect (.ok ⟨.absent, _, _⟩) => before.entry (blobFilename config.format key) = none
  | _ => True

variable {crc32c config key before}

/-- **What the complete decoder accepts was read to its end, and is an envelope.** -/
theorem decoded_whole {file : OpenFile} {payload : List UInt8}
    (h : ((decodeReader crc32c config.format file.source config.maximum).run file.position).1 =
      .ok payload) : file.source.ending = none ∧ payload.length ≤ config.maximum ∧
        file.rest = envelope crc32c config.format payload := by
  rw [(follows_decodeReader file.source crc32c config.format config.maximum file.position).1] at h
  have hrest : file.source.rest file.position = file.rest := rfl
  rw [hrest] at h
  by_cases hrepresentable : Representable config.format config.maximum file.rest
  · rw [decodeReader_sections file.source crc32c config.format config.maximum_valid hrepresentable] at h
    exact (sections_ok_iff file.source crc32c config.format (maximum_lt config) file.rest payload).mp h
  · -- the decoder asks for too much, and panics
    obtain ⟨declared, hnot⟩ := not_forall.mp hrepresentable
    obtain ⟨rest, hnot⟩ := not_forall.mp hnot
    obtain ⟨heq, hnot⟩ := Classical.not_imp.mp hnot
    obtain ⟨hle, hlarge⟩ := Classical.not_imp.mp hnot
    rw [heq, decodeReader_large file.source crc32c config.format config.maximum_valid hle
      (by omega) rest] at h
    cases h

/-- `load_blob`, whatever fails. -/
theorem holds_loadBlob (hregular : before.entry (blobFilename config.format key) ≠ some .other) :
    HoldsE (Fs fault) (loadBlob crc32c config (blobFilename config.format key))
      (fun found w => (BlockingResult.load (.ok found)).Reports crc32c config key before w)
      (fun _ _ => True) (fun _ => True) (.start before) := by
  refine holds_call (I := FsInterface) (c := .openFile _) trivial fun r w henv => ?_
  obtain ⟨rfl, henv⟩ := henv
  cases r with
  | error source =>
    have hlookup : LookupError fault (.openFile (blobFilename config.format key))
        (JobWorld.start before).disk (blobFilename config.format key) source := henv
    show HoldsE _ (if source.kind = .notFound then _ else _) _ _ _ _
    split
    · rename_i hkind
      refine holdsE_bind (holds_ensureNamespaceAvailable trivial (fun _ => ?_) fun _ _ _ => trivial)
      exact holds_ret trivial (absent_of_lookup hlookup hkind)
    · exact holds_ret trivial trivial
  | ok file =>
    obtain ⟨content, hentry, hdelivers⟩ : ∃ content,
        before.entry (blobFilename config.format key) = some (.file content) ∧
          Delivers fault (.openFile (blobFilename config.format key)) file content := by
      cases hentry : before.entry (blobFilename config.format key) with
      | none => simp only [JobWorld.start, hentry] at henv
      | some node =>
        cases node with
        | other => exact absurd hentry hregular
        | file content =>
          simp only [JobWorld.start, hentry] at henv
          exact ⟨content, rfl, henv⟩
    refine holdsE_bind (holdsE_ofExcept trivial ?_)
    cases hdecoded : ((decodeReader crc32c config.format file.source config.maximum).run
        file.position).1 with
    | error abort => exact trivial
    | ok payload =>
      obtain ⟨hending, hle, hrest⟩ := decoded_whole hdecoded
      have hstores : Stores crc32c config key before payload := by
        refine ⟨hle, ?_⟩
        rw [hentry, ← hdelivers.2.1 hending, hrest]
      exact holds_ret trivial hstores

/-- `load_blob_into_sender`, whatever fails. -/
theorem holds_loadStream (hregular : before.entry (blobFilename config.format key) ≠ some .other) :
    HoldsE (Fs fault) (loadBlobIntoSender crc32c config (blobFilename config.format key))
      (fun found w => (BlockingResult.loadStream (.ok found)).Reports crc32c config key before w)
      (fun _ _ => True) (fun _ => True) (.start before) := by
  intro n p w hrun
  obtain ⟨noted, hrun'⟩ := heeding_run hrun false
  obtain ⟨-, hend⟩ := holds_loadBlobIntoSender hregular n _ _ hrun'
  refine ⟨trivial, fun y hy => ?_⟩
  have hloaded := hend y hy
  rcases y with abort | _ | metadata
  · exact trivial
  · obtain ⟨hnone, -, hsent⟩ := hloaded
    exact ⟨hnone, hsent⟩
  · obtain ⟨-, payload, hstores, hlen, hsent⟩ := hloaded
    exact ⟨payload, hstores, hlen, hsent⟩

/-- `inspect_blob`, whatever fails. -/
theorem holds_inspectBlob : HoldsE (Fs fault) (inspectBlob (blobFilename config.format key))
    (fun found w => (BlockingResult.inspect (.ok found)).Reports crc32c config key before w)
    (fun _ _ => True) (fun _ => True) (.start before) := by
  refine holds_call (I := FsInterface) (c := .symlinkMetadata _) trivial fun r w henv => ?_
  obtain ⟨rfl, henv⟩ := henv
  cases r with
  | error source =>
    have hlookup : LookupError fault (.symlinkMetadata (blobFilename config.format key))
        (JobWorld.start before).disk (blobFilename config.format key) source := henv
    show HoldsE _ (if source.kind = .notFound then _ else _) _ _ _ _
    split
    · rename_i hkind
      refine holdsE_bind (holds_ensureNamespaceAvailable trivial (fun _ => ?_) fun _ _ _ => trivial)
      exact holds_ret trivial (absent_of_lookup hlookup hkind)
    · exact holds_ret trivial trivial
  | ok found =>
    show HoldsE _ (if found.isFile then _ else _) _ _ _ _
    split
    · rename_i hfile
      refine holds_ret trivial ?_
      cases hentry : before.entry (blobFilename config.format key) with
      | none => simp only [JobWorld.start, hentry] at henv
      | some node =>
        cases node with
        | other =>
          simp only [JobWorld.start, hentry] at henv
          exact absurd (hfile.symm.trans henv) Bool.noConfusion
        | file content =>
          simp only [JobWorld.start, hentry] at henv
          exact ⟨content, hentry, congrArg some henv.2⟩
    · exact holds_ret trivial trivial

/-- **One operation, alone**: what it reports is what it found. -/
theorem holds_reports (hregular : before.entry (blobFilename config.format key) ≠ some .other)
    (op : Operation) : Holds (Fs fault) ((Task.operation key op).program crc32c config platform)
      (fun outcome w => ∀ result, outcome = .ok (.operation result) →
        result.Reports crc32c config key before w) (fun _ => True) (.start before) := by
  have hany {α : Type} {p : FsM α} {f : Except AtomicBlobStoreError α → BlockingResult}
      (hf : ∀ y w, (f y).Reports crc32c config key before w) :
      Holds (Fs fault) (TaskResult.operation <$> (f <$> p.result) : FsM TaskResult).run
        (fun outcome w => ∀ result, outcome = .ok (.operation result) →
          result.Reports crc32c config key before w) (fun _ => True) (.start before) := by
    refine holds_outcome (R := fun result w => result.Reports crc32c config key before w) ?_
    have htrue : Holds (Fs fault) p.run (fun _ _ => True) (fun _ => True) (.start before) :=
      holds_of_calls (Prog.calls_any p.run) (fun _ _ _ _ _ _ _ => trivial) trivial
    refine Holds.mono htrue (fun y w _ _ => ?_) fun _ hc => hc
    cases y with
    | ok a => exact hf _ w
    | error abort => exact fun e _ => hf _ w
  cases op with
  | load sender =>
    refine holds_outcome (R := fun result w => result.Reports crc32c config key before w) ?_
    exact (holds_loadBlob hregular).mono (fun _ _ _ h => h) (fun _ _ _ _ _ _ => trivial) fun _ hc => hc
  | loadStream chunks acknowledgement sender =>
    refine holds_outcome (R := fun result w => result.Reports crc32c config key before w) ?_
    exact (holds_loadStream hregular).mono (fun _ _ _ h => h) (fun _ _ _ _ _ _ => trivial) fun _ hc => hc
  | inspect sender =>
    refine holds_outcome (R := fun result w => result.Reports crc32c config key before w) ?_
    exact holds_inspectBlob.mono (fun _ _ _ h => h) (fun _ _ _ _ _ _ => trivial) fun _ hc => hc
  | save payload sender => exact hany fun y w => trivial
  | saveStream declaredLen chunks sender => exact hany fun y w => trivial
  | clear sender => exact hany fun y w => trivial
  | quarantine sender => exact hany fun y w => trivial

end One

end AtomicBlobStore
