/-
  ANSWERS: no job comes to a call that the world has no answer for.

  `Fs` says which answers a call may get; a call that may get none would end a run for no reason that
  the source knows of.  Writing through a writer that is not open is such a call, and so is moving a
  file that is not there into place.

  1. **Ready calls** (`FsCall.Ready`, `fs_answers`) — what the world has to be like for a call, and that
     it is then answered even where nothing fails.  Most calls are always ready (`FsCall.Free`).

  2. **Sections** (`Prepares`) — a writer stays open, and a staging file in place, as long as a save
     only receives and writes.

  3. **`unstuck_job`** — so no run of a job, alone, is ever stuck.  One thing is asked of the faults: a
     move that fails because the destination exists has not moved anything.

  This is about the model as much as about the source.  A relation that says which answers are
  possible may say that none is, and a property of all runs then holds for no good reason.  Here it is
  shown that there is always an answer, whatever a job asks for.
-/
import AtomicBlobStore.LoadResults
import AtomicBlobStore.Isolation

namespace AtomicBlobStore

open FsM (ask fail ofResult)

/-! ## Ready calls -/

/-- What a call needs in order to be answered: an open writer, or the file that it is about. -/
def FsCall.Ready : FsCall → JobWorld → Prop
  | .writeAtomic _, w => w.writer ≠ none
  | .commit, w => w.writer ≠ none
  | .writeFile name _, w => ∃ content, w.disk.entry name = some (.file content)
  | .moveSaveFile source _ _, w => w.disk.entry source ≠ none
  | _, _ => True

theorem FsCall.Free.ready {c : FsCall} (h : c.Free) (w : JobWorld) : c.Ready w := by
  cases c with
  | writeAtomic bytes => exact h.elim
  | commit => exact h.elim
  | writeFile name bytes => exact h.elim
  | moveSaveFile source destination replace => exact h.elim
  | _ => trivial

section Answering

variable {w : JobWorld}

/-- An entry is there, or the lookup says that it is not. -/
theorem lookup_missing {c : FsCall} {disk : Disk} {name : FileName} (h : disk.entry name = none) :
    LookupError Faultless c disk name ⟨.notFound, 0⟩ := by
  unfold LookupError
  rw [if_pos rfl]
  exact h

/-- A removal is always answered, -/
theorem removes_answers (c : FsCall) (name : FileName) (w : JobWorld) :
    ∃ r w', Removes Faultless c name w r w' := by
  by_cases h : w.disk.entry name = none
  · exact ⟨.error ⟨.notFound, 0⟩, w, rfl, lookup_missing h⟩
  · exact ⟨.ok (), _, h, rfl⟩

/-- and so is a move, whatever is at either end. -/
theorem moves_answers (c : FsCall) (source destination : FileName) (w : JobWorld) :
    ∃ r w', Moves Faultless c source destination w r w' := by
  cases hsource : w.disk.entry source with
  | none => exact ⟨.error ⟨.notFound, 0⟩, w, rfl, Or.inl (lookup_missing hsource)⟩
  | some node =>
    by_cases hvacant : w.disk.entry destination = none
    · exact ⟨.ok (), _, node, hsource, hvacant, rfl⟩
    · exact ⟨.error ⟨.alreadyExists, 0⟩, w, rfl, Or.inr ⟨rfl, hvacant⟩⟩

/-- **A call that is ready is answered**, also where nothing fails. -/
theorem fs_answers {c : FsCall} (h : c.Ready w) : ∃ r w', Fs Faultless c w r w' := by
  cases c with
  | metadata => exact ⟨.ok w.disk.isDirectory, w, rfl, rfl⟩
  | symlinkMetadata name =>
    cases hentry : w.disk.entry name with
    | none => exact ⟨.error ⟨.notFound, 0⟩, w, rfl, lookup_missing hentry⟩
    | some node =>
      cases node with
      | file content =>
        refine ⟨.ok ⟨true, content.length, none⟩, w, rfl, ?_⟩
        simp only [hentry, and_self]
      | other =>
        refine ⟨.ok ⟨false, 0, none⟩, w, rfl, ?_⟩
        simp only [hentry]
  | openFile name =>
    cases hentry : w.disk.entry name with
    | none => exact ⟨.error ⟨.notFound, 0⟩, w, rfl, lookup_missing hentry⟩
    | some node =>
      cases node with
      | file content =>
        refine ⟨.ok (opened content), w, rfl, ?_⟩
        simp only [hentry]
        exact delivers_opened _ _ content
      | other =>
        refine ⟨.ok (opened []), w, rfl, ?_⟩
        simp only [hentry]
  | seek file position =>
    -- nothing fails, so the file delivers its whole rest
    exact ⟨.ok (opened (file.rest.drop position)), w, rfl, delivers_opened _ _ _⟩
  | fill => exact ⟨.ok (Vector.replicate 32 0), w, rfl, trivial⟩
  | recv => exact ⟨none, _, rfl⟩
  | send chunk => exact ⟨true, _, rfl⟩
  | recvAcknowledgement => exact ⟨true, _, rfl⟩
  | openAtomic name =>
    cases hdirectory : w.disk.isDirectory with
    | true => exact ⟨.ok (), _, hdirectory, rfl⟩
    | false => exact ⟨.error ⟨.other 0, 0⟩, w, rfl, Or.inr hdirectory⟩
  | writeAtomic bytes =>
    -- being ready gives the writer that is open
    obtain ⟨writer, hwriter⟩ := Option.ne_none_iff_exists'.mp h
    exact ⟨.ok (), _, writer.1, writer.2, hwriter, rfl⟩
  | commit =>
    obtain ⟨writer, hwriter⟩ := Option.ne_none_iff_exists'.mp h
    cases hdirectory : w.disk.isDirectory with
    | true => exact ⟨.ok (), _, writer.1, writer.2, hwriter, hdirectory, rfl⟩
    | false =>
      exact ⟨.error ⟨.other 0, 0⟩, _, writer.1, writer.2, hwriter, Or.inr hdirectory, Or.inl rfl⟩
  | removeFile name => exact removes_answers (.removeFile name) name w
  | openDirectory => exact ⟨.ok (), w, rfl, trivial⟩
  | syncDirectory => exact ⟨.ok (), w, rfl, trivial⟩
  | renameNoReplace source destination => exact moves_answers _ source destination w
  | createNew name =>
    cases hdirectory : w.disk.isDirectory with
    | false => exact ⟨.error ⟨.other 0, 0⟩, w, rfl, Or.inr (Or.inr hdirectory)⟩
    | true =>
      by_cases hvacant : w.disk.entry name = none
      · exact ⟨.ok (), _, hdirectory, hvacant, rfl⟩
      · exact ⟨.error ⟨.alreadyExists, 0⟩, w, rfl, Or.inl ⟨rfl, hvacant⟩⟩
  | writeFile name bytes =>
    obtain ⟨content, hcontent⟩ := h
    exact ⟨.ok (), _, content, hcontent, rfl⟩
  | flushFile name => exact ⟨.ok (), w, rfl, trivial⟩
  | moveSaveFile source destination replace =>
    obtain ⟨node, hnode⟩ := Option.ne_none_iff_exists'.mp h
    -- only a move that may not replace is refused by what is there
    by_cases hfree : replace = false → w.disk.entry destination = none
    · exact ⟨.ok (), _, node, hnode, hfree, rfl⟩
    · rw [Classical.not_imp] at hfree
      exact ⟨.error ⟨.alreadyExists, 80⟩, w, Or.inl ⟨rfl, hfree.1, rfl, hfree.2⟩⟩
  | moveFile source destination => exact moves_answers _ source destination w
  | deleteFile name => exact removes_answers (.deleteFile name) name w
  | openExisting name =>
    by_cases hentry : w.disk.entry name = none
    · exact ⟨.error ⟨.notFound, 0⟩, w, rfl, lookup_missing hentry⟩
    · exact ⟨.ok (), w, rfl, hentry⟩
  | sinceEpoch =>
    refine ⟨.ok (0, 0), w, rfl, Or.inl ?_⟩
    unfold FileTimeFits u64Limit
    omega
  | setFileTime name ticks => exact ⟨.ok (), w, rfl, trivial⟩
  | now => exact ⟨0, w, rfl⟩
  | readDirectory =>
    cases hdirectory : w.disk.isDirectory with
    | true => exact ⟨.ok [], w, rfl, hdirectory⟩
    | false => exact ⟨.error ⟨.other 0, 0⟩, w, rfl, Or.inr hdirectory⟩

end Answering

/-! ## Sections

  A program may be cut into sections by what its calls need.  Within a section nothing can take away
  what the next call needs, and at its end it is still there. -/

section Sections

variable {fault : FsCall → IoError → Prop} {w : JobWorld} {α β : Type} {p : FsM α}

theorem fs_ready {c : FsCall} (h : c.Ready w) : ∃ r w', Fs fault c w r w' := by
  obtain ⟨r, w', henv⟩ := fs_answers h
  exact ⟨r, w', fs_mono (fun c e hfault => hfault.elim) henv⟩

theorem unstuck_of_free {P : FsCall → Prop} {p : Prog FsInterface α} (hfree : ∀ c, P c → c.Free)
    (hp : p.Calls P) : Unstuck (Fs fault) p w :=
  unstuck_of_calls (R := fun _ => True) hp (fun c hc w _ => fs_ready ((hfree c hc).ready w))
    (fun _ _ _ _ _ _ _ => trivial) trivial

/-- What needs nothing is never stuck. -/
theorem unstuck_free {p : Prog FsInterface α} (hp : p.Calls FsCall.Free) : Unstuck (Fs fault) p w :=
  unstuck_of_free (fun _ hc => hc) hp

/-- A call, and `?` on its answer. -/
theorem unstuck_askIo {c : FsCall} {operation : StoreOperation} {g : c.Answer → Except IoError α}
    {k : α → FsM β} (h : c.Ready w)
    (hk : ∀ r a w', Fs fault c w r w' → g r = .ok a → Unstuck (Fs fault) (k a).run w') :
    Unstuck (Fs fault) (ask c >>= fun r => FsM.io operation (g r) >>= k).run w := by
  refine unstuckE_ask (fs_ready h) fun r w' henv => ?_
  cases hr : g r with
  | ok a => exact hk r a w' henv hr
  | error e => exact unstuck_ret

/-- Whatever the answer, only it is left to return. -/
theorem unstuck_last {c : FsCall} {f : c.Answer → FsM β} (h : c.Ready w)
    (hf : ∀ r, (f r).run.Calls FsCall.Free) : Unstuck (Fs fault) (ask c >>= f).run w :=
  unstuckE_ask (fs_ready h) fun r _ _ => unstuck_free (hf r)

/-- What the calls of a section need, and keep. -/
structure Section (fault : FsCall → IoError → Prop) (P : FsCall → Prop) (R : JobWorld → Prop) :
    Prop where
  /-- Its calls find what they need, -/
  ready : ∀ c, P c → ∀ w, R w → c.Ready w
  /-- and leave it. -/
  keeps : ∀ c, P c → ∀ w r w', Fs fault c w r w' → R w → R w'

section Inside

variable {P : FsCall → Prop} {R : JobWorld → Prop} (hsection : Section fault P R)

include hsection

/-- A section is never stuck, -/
theorem Section.unstuck (hp : p.run.Calls P) (hR : R w) : Unstuck (Fs fault) p.run w :=
  unstuck_of_calls hp (fun c hc w hw => fs_ready (hsection.ready c hc w hw)) hsection.keeps hR

/-- and what it returns, it returns in a world that is still prepared. -/
theorem Section.returns (hp : p.run.Calls P) (hR : R w) {x : Except Abort α} {w' : JobWorld}
    (hreturns : Returns (Fs fault) p.run w x w') : R w' := by
  obtain ⟨n, hrun⟩ := hreturns
  exact (holds_of_calls hp hsection.keeps hR n _ _ hrun).1

/-- **A section leaves the world ready** for what follows it. -/
theorem Section.followed (hp : p.run.Calls P) (hR : R w) {k : α → FsM β}
    (hk : ∀ a w', R w' → Unstuck (Fs fault) (k a).run w') : Unstuck (Fs fault) (p >>= k).run w :=
  unstuckE_bind (hsection.unstuck hp hR) fun a w' hreturns => hk a w' (hsection.returns hp hR hreturns)

end Inside

end Sections

theorem free_randomIdentifier : randomIdentifier.run.Calls FsCall.Free := by
  apply calls_ask trivial
  intro r
  cases r <;> exact .ret _

/-! ## Unix

  A save needs its writer to be open.  It opens it first, and nothing but its commit closes it. -/

namespace Unix

/-- The calls between the opening of the writer and its commit. -/
def Writes : FsCall → Prop
  | .recv => True
  | .writeAtomic _ => True
  | _ => False

variable {fault : FsCall → IoError → Prop} {w : JobWorld}

/-- The writer stays open. -/
theorem section_writes : Section fault Writes fun w => w.writer ≠ none where
  ready c hc w hw := by
    cases c with
    | recv => trivial
    | writeAtomic bytes => exact hw
    | _ => exact hc.elim
  keeps c hc w r w' henv hw := by
    cases c with
    | recv =>
      have henv : w' = { w with received := w.received ++ [r] } := henv
      rw [henv]
      exact hw
    | writeAtomic bytes =>
      obtain ⟨name, content, -, henv⟩ := henv
      cases r with
      | ok u =>
        rw [show w' = _ from henv]
        exact Option.some_ne_none _
      | error e =>
        obtain ⟨-, content', henv⟩ := henv
        rw [henv]
        exact Option.some_ne_none _
    | _ => exact hc.elim

theorem writes_writeAtomic (bytes : List UInt8) : (writeAtomic bytes).run.Calls Writes :=
  calls_ask trivial fun _ => calls_io _

theorem unstuck_commit (h : w.writer ≠ none) : Unstuck (Fs fault) commit.run w := by
  apply unstuck_last (c := .commit) h
  intro r
  cases r <;> exact .ret _

/-- A writer that was opened is open. -/
theorem writer_opened {path : FileName} {r : Except IoError Unit} {u : Unit} {w' : JobWorld}
    (henv : Fs fault (.openAtomic path) w r w') (hr : r = .ok u) : w'.writer ≠ none := by
  subst hr
  rw [henv.2]
  exact Option.some_ne_none _

variable (crc32c : Crc32c) (config : StoreConfig) (path : FileName)

theorem unstuck_saveBlob (payload : List UInt8) :
    Unstuck (Fs fault) (saveBlob crc32c config path payload).run w := by
  refine unstuckE_bind (unstuck_free (calls_ofResult _)) fun parts w₀ _ => ?_
  refine unstuck_askIo trivial fun r u w' henv hr => ?_
  refine section_writes.followed (writes_writeAtomic _) (writer_opened henv hr) fun _ w₁ h₁ => ?_
  refine section_writes.followed (writes_writeAtomic _) h₁ fun _ w₂ h₂ => ?_
  exact section_writes.followed (writes_writeAtomic _) h₂ fun _ w₃ h₃ => unstuck_commit h₃

theorem unstuck_saveBlobFromReceiver (declaredLen : Nat) :
    Unstuck (Fs fault) (saveBlobFromReceiver crc32c config path declaredLen).run w := by
  refine unstuckE_bind (unstuck_free (calls_ofResult _)) fun header w₀ _ => ?_
  refine unstuck_askIo trivial fun r u w' henv hr => ?_
  exact section_writes.followed (calls_encoder crc32c config declaredLen trivial writes_writeAtomic)
    (writer_opened henv hr) fun _ w₁ h₁ => unstuck_commit h₁

end Unix

/-! ## Windows

  A save needs its staging file to be there.  It creates it first, and nothing it does before the move
  takes it away; other jobs have no business with the name. -/

namespace Windows

/-- The calls between the creation of a staging file and its publication. -/
def Stages (staging : FileName) : FsCall → Prop
  | .recv => True
  | .writeFile name _ => name = staging
  | .flushFile name => name = staging
  | _ => False

/-- The staging file is there. -/
def Staged (staging : FileName) (w : JobWorld) : Prop :=
  ∃ content, w.disk.entry staging = some (.file content)

variable {fault : FsCall → IoError → Prop} {w : JobWorld}

/-- The staging file stays. -/
theorem section_stages (staging : FileName) : Section fault (Stages staging) (Staged staging) where
  ready c hc w hw := by
    cases c with
    | recv => trivial
    | writeFile name bytes =>
      obtain rfl : name = staging := hc
      exact hw
    | flushFile name => trivial
    | _ => exact hc.elim
  keeps c hc w r w' henv hw := by
    cases c with
    | recv =>
      have henv : w' = { w with received := w.received ++ [r] } := henv
      rw [henv]
      exact hw
    | flushFile name =>
      rw [henv.1]
      exact hw
    | writeFile name bytes =>
      obtain rfl : name = staging := hc
      obtain ⟨content, hentry, henv⟩ := henv
      have hdirectory := Disk.isDirectory_of_entry hentry
      cases r with
      | ok u =>
        rw [show w' = _ from henv]
        exact ⟨_, Disk.entry_set_self hdirectory⟩
      | error e =>
        obtain ⟨-, content', henv⟩ := henv
        rw [henv]
        exact ⟨_, Disk.entry_set_self hdirectory⟩
    | _ => exact hc.elim

theorem stages_writeStaging (staging : FileName) (bytes : List UInt8) :
    (writeStaging staging bytes).run.Calls (Stages staging) := calls_ask rfl fun _ => calls_io _

theorem stages_flush (staging : FileName) :
    (ask (.flushFile staging) >>= fun r => FsM.io .writeEnvelope r).run.Calls (Stages staging) :=
  calls_ask rfl fun _ => calls_io _

/-- A staging file that was created is there. -/
theorem staged_created {staging : FileName} {r : Except IoError Unit} {u : Unit} {w' : JobWorld}
    (henv : Fs fault (.createNew staging) w r w') (hr : r = .ok u) : Staged staging w' := by
  subst hr
  obtain ⟨hdirectory, -, henv⟩ := henv
  rw [henv]
  exact ⟨_, Disk.entry_set_self hdirectory⟩

/-- Whatever creates a staging file and then stages. -/
theorem unstuck_staging {staging : FileName} {p : FsM Unit} {operation : StoreOperation}
    (hp : p.run.Calls (Stages staging)) :
    Unstuck (Fs fault) (ask (.createNew staging) >>= fun r => FsM.io operation r >>= fun _ => p).run w :=
  unstuck_askIo trivial fun _ _ _ henv hr =>
    (section_stages staging).unstuck hp (staged_created henv hr)

theorem staged_staging {staging : FileName} {p : FsM Unit} {operation : StoreOperation} {w' : JobWorld}
    (hp : p.run.Calls (Stages staging)) (h : Returns (Fs fault)
      (ask (.createNew staging) >>= fun r => FsM.io operation r >>= fun _ => p).run w (.ok ()) w') :
    Staged staging w' := by
  obtain ⟨r, w₁, henv, hrest⟩ := Returns.of_call h
  cases r with
  | error e => cases (Returns.of_ret hrest).1
  | ok u => exact (section_stages staging).returns hp (staged_created henv rfl) hrest

/-- The one thing that is asked of the faults. -/
def Unmoved (fault : FsCall → IoError → Prop) : Prop :=
  ∀ source destination replace e, fault (.moveSaveFile source destination replace) e →
    e.isFileExists = false

variable (hmove : Unmoved fault)

include hmove

/-- **The second move finds the staging file** where the first one failed because of the destination. -/
theorem unstuck_publish {staging path : FileName} (h : Staged staging w) :
    Unstuck (Fs fault) (publish staging path).run w := by
  have hthere {v : JobWorld} (hv : Staged staging v) : v.disk.entry staging ≠ none := by
    obtain ⟨content, hcontent⟩ := hv
    rw [hcontent]
    exact Option.some_ne_none _
  have hsync := calls_syncWindowsDirectory (P := FsCall.Free) trivial trivial
  refine unstuckE_bind ?_ fun _ w' _ => ?_
  · refine unstuckE_ask (fs_ready (hthere h)) fun r w' henv => ?_
    cases r with
    | ok u => exact unstuck_ret
    | error source =>
      show Unstuck _ (ExceptT.run (if _ then _ else _)) _
      split
      · rename_i hexists
        have hsame : w' = w := by
          rcases henv with ⟨hsame, -⟩ | ⟨hfault, -⟩
          · exact hsame
          · rw [hmove _ _ _ _ hfault] at hexists
            cases hexists
        apply unstuck_last
        · rw [hsame]
          exact hthere h
        · intro r
          cases r <;> exact .ret _
      · exact unstuck_ret
  · exact unstuck_free (ProgE.calls_bind (ProgE.calls_attempt hsync) fun r => calls_io _)

variable (crc32c : Crc32c) (config : StoreConfig) (key : KeyHash)

theorem unstuck_saveBlob (payload : List UInt8) :
    Unstuck (Fs fault) (saveBlob crc32c config (blobFilename config.format key) payload).run w := by
  refine unstuckE_bind (unstuck_free (calls_ofResult _)) fun parts w₀ _ => ?_
  rw [stem_blobFilename]
  refine unstuckE_iterate (fun _ => True) trivial (fun _ w₁ _ => ?_) fun _ _ _ _ _ _ => trivial
  unfold saveTurn
  refine unstuckE_bind (unstuck_free free_randomIdentifier) fun identifier w₂ _ => ?_
  have hwrites := stages_writeStaging (stagingFilename (toHex key.toList)
    config.format.filenameSuffix .save identifier)
  have hcreates := ProgE.calls_bind (hwrites parts.1) fun _ => ProgE.calls_bind (hwrites payload)
    fun _ => ProgE.calls_bind (hwrites parts.2) fun _ => stages_flush _
  refine unstuckE_attempt (unstuck_staging hcreates) fun r w₃ hr => ?_
  cases r with
  | ok u =>
    exact unstuckE_bind (unstuck_publish hmove (staged_staging hcreates hr)) fun _ _ _ => unstuck_ret
  | error abort =>
    show Unstuck _ (ExceptT.run (if _ then _ else _)) _
    split <;> exact unstuck_ret

theorem unstuck_saveBlobFromReceiver (declaredLen : Nat) : Unstuck (Fs fault)
    (saveBlobFromReceiver crc32c config (blobFilename config.format key) declaredLen).run w := by
  refine unstuckE_bind (unstuck_free (calls_ofResult _)) fun header w₀ _ => ?_
  rw [stem_blobFilename]
  refine unstuckE_iterate (fun _ => True) trivial (fun _ w₁ _ => ?_) fun _ _ _ _ _ _ => trivial
  unfold saveStreamTurn
  refine unstuckE_bind (unstuck_free free_randomIdentifier) fun identifier w₂ _ => ?_
  have hwrites := stages_writeStaging (stagingFilename (toHex key.toList)
    config.format.filenameSuffix .save identifier)
  have hcreates := ProgE.calls_bind (calls_encoder crc32c config declaredLen trivial hwrites)
    fun _ => stages_flush _
  refine unstuckE_attempt (unstuck_staging hcreates) fun r w₃ hr => ?_
  cases r with
  | ok u =>
    exact unstuckE_bind (unstuck_publish hmove (staged_staging hcreates hr)) fun _ _ _ => unstuck_ret
  | error abort =>
    show Unstuck _ (ExceptT.run (if _ then _ else _)) _
    split
    · exact unstuck_ret
    · exact unstuck_last trivial fun r => .ret _

end Windows

/-! ## Jobs -/

section Jobs

variable {fault : FsCall → IoError → Prop} {w : JobWorld}

theorem unstuck_result {α β : Type} {p : FsM α} {f : Except AtomicBlobStoreError α → β}
    (h : Unstuck (Fs fault) p.run w) : Unstuck (Fs fault) (f <$> p.result).run w := by
  refine unstuckE_map (unstuckE_attempt h fun r w' _ => ?_)
  rcases r with (e | _) | a <;> exact unstuck_ret

variable (hmove : Windows.Unmoved fault) (crc32c : Crc32c) (config : StoreConfig) (platform : Platform)

include hmove

theorem unstuck_runOwnedOperation (key : KeyHash) (op : Operation) : Unstuck (Fs fault)
    (runOwnedOperation crc32c config platform (blobFilename config.format key) op).run w := by
  cases op with
  | load sender => exact unstuck_result (unstuck_free (calls_loadBlob crc32c config trivial trivial))
  | loadStream chunks acknowledgement sender =>
    exact unstuck_result (unstuck_free (calls_loadBlobIntoSender crc32c config trivial trivial
      (fun _ _ => trivial) (fun _ => trivial) trivial))
  | save payload sender =>
    refine unstuck_result ?_
    cases platform with
    | unix => exact Unix.unstuck_saveBlob crc32c config _ payload
    | windows => exact Windows.unstuck_saveBlob hmove crc32c config key payload
  | saveStream declaredLen chunks sender =>
    refine unstuck_result ?_
    cases platform with
    | unix => exact Unix.unstuck_saveBlobFromReceiver crc32c config _ declaredLen
    | windows => exact Windows.unstuck_saveBlobFromReceiver hmove crc32c config key declaredLen
  | clear sender =>
    refine unstuck_result (unstuck_free ?_)
    cases platform with
    | unix => exact Unix.calls_clearBlob config key fun c _ hfree _ => hfree
    | windows => exact Windows.calls_clearBlob config key fun c _ hfree => hfree
  | inspect sender => exact unstuck_result (unstuck_free (calls_inspectBlob trivial trivial))
  | quarantine sender =>
    refine unstuck_result (unstuck_free ?_)
    cases platform with
    | unix => exact Unix.calls_quarantineBlob config key fun c _ hfree _ => hfree
    | windows => exact Windows.calls_quarantineBlob config key fun c _ hfree _ => hfree

omit hmove in
/-- What a cleanup may ask for needs nothing. -/
theorem free_cleanup {format : BlobFormatIdentity} (c : FsCall) (h : CleanupCalls format c) :
    c.Free := by
  cases c with
  | writeAtomic bytes => exact h.elim
  | commit => exact h.elim
  | writeFile name bytes => exact h.elim
  | moveSaveFile source destination replace => exact h.elim
  | _ => trivial

/-- **No run of a job, alone, is ever stuck.** -/
theorem unstuck_job (job : WorkerJob) :
    Unstuck (Fs fault) (job.program crc32c config platform) w := by
  cases job with
  | operation key op =>
    exact unstuckE_map (unstuck_runOwnedOperation hmove crc32c config platform key op)
  | maintenance sub =>
    exact unstuck_of_free free_cleanup (calls_job crc32c config platform (.maintenance sub))

end Jobs

end AtomicBlobStore
