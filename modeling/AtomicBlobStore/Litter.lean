/-
  LITTER: where nothing fails, no temporary file outlives its job.

  On Windows a save is staged under a name of its own, and a clear moves the blob to one before it is
  deleted.  A job that is stopped on the way leaves such a file for a cleanup to find.

  1. **Most calls are tidy** (`tidy_swept`) — they put nothing under a temporary name.

  2. **The saves and the clear of Windows** (`Windows.swept_staging`, `Windows.leavesSwept_clearBlob`) —
     they do, under one name at a time, and take it away again before they end: it becomes the canonical
     file, or it is deleted.

  3. **`no_litter`** — so whatever overlaps, under a temporary name of a key that nobody works on there
     is nothing that was not there when the store was opened.

  Files that are left over do no harm to any blob, which is why `OldOrNew` does not see them.  They do
  harm to the disk: a name that is never used again is never freed.  Where a call fails, a job may
  well leave its file, and the cleanup is there for this.
-/
import AtomicBlobStore.Answers
import AtomicBlobStore.Refinement

namespace AtomicBlobStore

open FsM (ask fail ofResult)

/-! ## Temporary names

  A job may hold one temporary name at a time.  What is under it is its own affair; what is under the
  others is as it was. -/

/-- Under temporary names, but for one that is held, there is nothing that was not there before. -/
def Swept (held : Option FileName) (d d' : Disk) : Prop :=
  ∀ name, 4 ≤ dots name → held ≠ some name → d'.entry name ≠ none → d'.entry name = d.entry name

section Sweeping

variable {held : Option FileName} {d d' d'' : Disk} {name : FileName}

theorem swept_refl : Swept held d d := fun _ _ _ _ => rfl

/-- A file is held for a while. -/
theorem Swept.hold (h : Swept none d d') (name : FileName) : Swept (some name) d d' := by
  intro n hdots hheld hthere
  exact h n hdots (Option.some_ne_none n).symm hthere

/-- The file that was held is gone. -/
theorem Swept.release (h : Swept (some name) d d') (hgone : d'.entry name = none) :
    Swept none d d' := by
  intro n hdots hheld hthere
  apply h n hdots ?_ hthere
  intro hname
  rw [← Option.some.inj hname, hgone] at hthere
  exact hthere rfl

theorem Swept.set_held (h : Swept (some name) d d') (node : Option Node) :
    Swept (some name) d (d'.set name node) := by
  intro n hdots hheld hthere
  have hne : n ≠ name := by
    rintro rfl
    exact hheld rfl
  rw [Disk.entry_set_ne hne] at hthere ⊢
  exact h n hdots hheld hthere

/-- A name that is not temporary may hold anything. -/
theorem Swept.set_plain (h : Swept held d d') (hname : dots name ≤ 3) (node : Option Node) :
    Swept held d (d'.set name node) := by
  intro n hdots hheld hthere
  have hne : n ≠ name := by
    rintro rfl
    omega
  rw [Disk.entry_set_ne hne] at hthere ⊢
  exact h n hdots hheld hthere

theorem Swept.set_none (h : Swept held d d') (name : FileName) :
    Swept held d (d'.set name none) := by
  intro n hdots hheld hthere
  by_cases hn : n = name
  · rw [hn, Disk.entry_set_none] at hthere
    exact absurd rfl hthere
  · rw [Disk.entry_set_ne hn] at hthere ⊢
    exact h n hdots hheld hthere

/-- A file is moved to the name that is held. -/
theorem Swept.move_held (h : Swept (some name) d d') (source : FileName) :
    Swept (some name) d (d'.move source name) := (h.set_none source).set_held _

theorem Swept.move (h : Swept held d d') (source : FileName) (hname : dots name ≤ 3) :
    Swept held d (d'.move source name) := (h.set_none source).set_plain hname _

end Sweeping

/-! ## Tidy programs

  Most programs are tidy call by call, so nothing has to be known of how they go on. -/

section Tidy

variable {fault : FsCall → IoError → Prop} {held : Option FileName} {d : Disk} {w w' : JobWorld}

theorem swept_moves {c : FsCall} {source destination : FileName} {r : Except IoError Unit}
    (hdots : dots destination ≤ 3) (henv : Moves fault c source destination w r w')
    (h : Swept held d w.disk) : Swept held d w'.disk := by
  cases r with
  | ok u =>
    obtain ⟨node, -, -, rfl⟩ := henv
    exact h.move source hdots
  | error e =>
    rw [henv.1]
    exact h

theorem swept_removes {c : FsCall} {name : FileName} {r : Except IoError Unit}
    (henv : Removes fault c name w r w') (h : Swept held d w.disk) : Swept held d w'.disk := by
  cases r with
  | ok u =>
    obtain ⟨-, rfl⟩ := henv
    exact h.set_none name
  | error e =>
    rw [henv.1]
    exact h

/-- **A tidy call puts nothing under a temporary name.** -/
theorem tidy_swept {c : FsCall} (hc : c.Tidy) {r : c.Answer} (henv : Fs fault c w r w')
    (h : Swept held d w.disk) : Swept held d w'.disk := by
  have hstill (hnone : ∀ name, ¬Changes c w name) : Swept held d w'.disk := by
    intro name hdots hheld hthere
    rw [(fs_framed henv).2 name (hnone name)] at hthere ⊢
    exact h name hdots hheld hthere
  cases c with
  | commit => exact hc.elim
  | createNew name => exact hc.elim
  | writeFile name bytes => exact hc.elim
  | removeFile name => exact swept_removes henv h
  | deleteFile name => exact swept_removes henv h
  | renameNoReplace source destination => exact swept_moves hc henv h
  | moveFile source destination => exact swept_moves hc henv h
  | moveSaveFile source destination replace =>
    cases r with
    | ok u =>
      obtain ⟨node, -, -, rfl⟩ := henv
      exact h.move source hc
    | error e =>
      rcases henv with ⟨rfl, -⟩ | ⟨-, rfl | ⟨node, -, rfl⟩⟩
      · exact h
      · exact h
      · exact h.move source hc
  | _ => exact hstill fun _ hchanges => hchanges

/-- What only makes tidy calls. -/
theorem swept_of_calls {α : Type} {P : FsCall → Prop} {p : Prog FsInterface α}
    (hP : ∀ c, P c → c.Tidy) (hp : p.Calls P) (h : Swept held d w.disk) :
    Holds (Fs fault) p (fun _ w' => Swept held d w'.disk) (fun w' => Swept held d w'.disk) w :=
  holds_of_calls hp (fun c hc _ _ _ henv hw => tidy_swept (hP c hc) henv hw) h

end Tidy

/-! ## Jobs alone

  A job that is not tidy has to be followed: it takes a name, puts a file there, and has to be seen to
  take it away, whichever way it ends. -/

/-- However the program ends, there is nothing new under temporary names. -/
abbrev LeavesSwept {ε α : Type} (d : Disk) (p : ProgE FsInterface ε α) (w : JobWorld) : Prop :=
  HoldsE (Fs Faultless) p (fun _ w' => Swept none d w'.disk) (fun _ w' => Swept none d w'.disk)
    (fun _ => True) w

section Alone

variable {d : Disk} {w : JobWorld} {ε α β : Type}

theorem leavesSwept_of_holds {p : ProgE FsInterface ε α} {C : JobWorld → Prop}
    (h : Holds (Fs Faultless) p.run (fun _ w' => Swept none d w'.disk) C w) : LeavesSwept d p w := by
  refine Holds.mono h (fun r w' _ hw => ?_) fun _ _ => trivial
  cases r with
  | ok a => exact hw
  | error e => exact hw

theorem leavesSwept_of_tidy {p : ProgE FsInterface ε α} (hp : p.run.Calls FsCall.Tidy)
    (h : Swept none d w.disk) : LeavesSwept d p w :=
  leavesSwept_of_holds (swept_of_calls (fun _ hc => hc) hp h)

/-- What follows a tidy program starts swept. -/
theorem leavesSwept_bind {p : ProgE FsInterface ε α} {k : α → ProgE FsInterface ε β}
    (hp : LeavesSwept d p w) (hk : ∀ a w', Swept none d w'.disk → LeavesSwept d (k a) w') :
    LeavesSwept d (p >>= k) w :=
  holdsE_bind (hp.mono (fun a w' _ hw => hk a w' hw) (fun _ _ _ hw => hw) fun _ _ => trivial)

theorem leavesSwept_result {p : FsM α} {f : Except AtomicBlobStoreError α → β}
    (h : LeavesSwept d p w) : LeavesSwept d (f <$> p.result) w := by
  refine holdsE_map (holds_result (h.mono (fun _ _ _ hw => hw) (fun abort w' _ hw => ?_) fun _ _ => trivial))
  cases abort with
  | error e => exact hw
  | panic => exact hw

theorem tidy_randomIdentifier : randomIdentifier.run.Calls FsCall.Tidy := by
  apply calls_ask trivial
  intro r
  cases r <;> exact .ret _

/-- A loop whose turns leave the directory swept. -/
theorem leavesSwept_iterate {body : Unit → FsM (Unit ⊕ β)} (h : Swept none d w.disk)
    (hbody : ∀ w, Swept none d w.disk → LeavesSwept d (body ()) w) :
    LeavesSwept d (ProgE.iterate body ()) w := by
  refine holdsE_iterate (fun _ w => Swept none d w.disk) h (fun _ _ _ => trivial) fun s w hw => ?_
  refine (hbody w hw).mono (fun r w' _ hr => ?_) (fun _ _ _ hr => hr) fun _ _ => trivial
  cases r with
  | inl s => exact hr
  | inr b => exact hr

/-! ### Unix -/

namespace Unix

variable (crc32c : Crc32c) (config : StoreConfig) (key : KeyHash)

/-- The calls of a save: all but the commit are tidy. -/
def Saves (format : BlobFormatIdentity) (key : KeyHash) (c : FsCall) : Prop :=
  OperationCalls format key c ∧ (c.Tidy ∨ c = .commit)

/-- The commit puts the canonical file in place. -/
theorem leavesSwept_saves {p : FsM α} (hp : p.run.Calls (Saves config.format key))
    (h : Swept none d w.disk) (hwriter : WriterOf config.format key w) : LeavesSwept d p w := by
  have hkeep : ∀ c, Saves config.format key c → ∀ w r w', Fs Faultless c w r w' →
      Swept none d w.disk ∧ WriterOf config.format key w →
      Swept none d w'.disk ∧ WriterOf config.format key w' := by
    rintro c ⟨hc, htidy⟩ w r w' henv ⟨hw, hwriter⟩
    refine ⟨?_, fs_writerOf hc hwriter henv⟩
    rcases htidy with htidy | rfl
    · exact tidy_swept htidy henv hw
    · obtain ⟨name, content, hopen, henv⟩ := henv
      have hdots : dots name ≤ 3 := by
        rw [hwriter name content hopen, dots_blobFilename]
        omega
      cases r with
      | ok u =>
        rw [henv.2]
        exact hw.set_plain hdots _
      | error e =>
        rcases henv.2 with henv | ⟨-, henv⟩
        · rw [henv]
          exact hw
        · rw [henv]
          exact hw.set_plain hdots _
  have hall := holds_of_calls hp hkeep ⟨h, hwriter⟩
  exact leavesSwept_of_holds (hall.mono (fun _ _ _ hw => hw.1) fun _ hC => hC)

end Unix

/-! ### Windows -/

namespace Windows

variable (crc32c : Crc32c) (config : StoreConfig) (key : KeyHash)

/-- A staging file is the only thing that its writer changes. -/
theorem stages_swept {staging : FileName} {c : FsCall} (hc : Stages staging c) {w' : JobWorld}
    {r : c.Answer} (henv : Fs Faultless c w r w') (h : Swept (some staging) d w.disk) :
    Swept (some staging) d w'.disk := by
  intro name hdots hheld hthere
  have hstill : ¬Changes c w name := by
    intro hchanges
    cases c with
    | writeFile path bytes =>
      obtain rfl : path = staging := hc
      exact hheld (congrArg some hchanges.symm)
    | recv => exact hchanges
    | flushFile path => exact hchanges
    | _ => exact hc.elim
  rw [(fs_framed henv).2 name hstill] at hthere ⊢
  exact h name hdots hheld hthere

/-- **A staging file is written**: it is there, and nothing else is new.  Where it could not even be
    created nothing is; `E` is what is known of the errors of the writer. -/
theorem swept_staging {staging : FileName} {p : FsM Unit} {E : Abort → Prop}
    (hp : p.run.Calls (Stages staging)) (hE : w.disk.isDirectory = true →
      HoldsE (Fs Faultless) p (fun _ _ => True) (fun abort _ => E abort) (fun _ => True)
        ((Writer.staging staging).after w [] []))
    (h : Swept none d w.disk) :
    HoldsE (Fs Faultless) (ask (.createNew staging) >>= fun r => FsM.io .openAtomicWriter r >>= fun _ => p)
      (fun _ w' => Staged staging w' ∧ Swept (some staging) d w'.disk)
      (fun abort w' => Swept none d w'.disk ∨
        E abort ∧ Staged staging w' ∧ Swept (some staging) d w'.disk) (fun _ => True) w := by
  refine holds_createNew trivial (fun hdirectory => ?_) fun source _ => Or.inl h
  have hstart : Staged staging ((Writer.staging staging).after w [] []) ∧
      Swept (some staging) d ((Writer.staging staging).after w [] []).disk :=
    ⟨⟨_, Disk.entry_set_self hdirectory⟩, (h.hold staging).set_held _⟩
  have hkeep : ∀ c, Stages staging c → ∀ w r w', Fs Faultless c w r w' →
      Staged staging w ∧ Swept (some staging) d w.disk →
      Staged staging w' ∧ Swept (some staging) d w'.disk := by
    intro c hc w r w' henv hw
    exact ⟨(section_stages staging).keeps c hc w r w' henv hw.1, stages_swept hc henv hw.2⟩
  refine ((hE hdirectory).and (holds_of_calls hp hkeep hstart)).mono (fun r w' _ hr => ?_)
    fun _ _ => trivial
  cases r with
  | ok u => exact hr.2
  | error abort => exact Or.inr hr

theorem tidy_finalSync : (ProgE.attempt syncWindowsDirectory >>= fun r =>
    FsM.io .syncNamespaceDirectory r : FsM Unit).run.Calls FsCall.Tidy :=
  ProgE.calls_bind (ProgE.calls_attempt (calls_syncWindowsDirectory trivial trivial)) fun _ => calls_io _

/-- **The staging file becomes the canonical one**, at the second attempt at the latest. -/
theorem swept_publish {staging path : FileName} (hpath : dots path ≤ 3) (hne : staging ≠ path)
    (hstaged : Staged staging w) (h : Swept (some staging) d w.disk) :
    LeavesSwept d (publish staging path) w := by
  have hmoved : Swept none d (w.disk.move staging path) :=
    (h.move staging hpath).release (Disk.entry_move_source hne)
  refine leavesSwept_bind ?_ fun _ w' hw' => leavesSwept_of_tidy tidy_finalSync hw'
  refine holds_call trivial fun r w' henv => ?_
  cases r with
  | ok u =>
    obtain ⟨node, -, -, rfl⟩ := henv
    exact holds_ret trivial hmoved
  | error source =>
    obtain ⟨rfl, -, hexists, -⟩ := henv.resolve_right fun hfault => hfault.1
    show HoldsE _ (if source.isFileExists then _ else _) _ _ _ _
    rw [if_pos hexists]
    refine holds_call trivial fun r w'' henv => ?_
    cases r with
    | ok u =>
      obtain ⟨node, -, -, rfl⟩ := henv
      exact holds_ret trivial hmoved
    | error source =>
      obtain ⟨-, hreplace, -⟩ := henv.resolve_right fun hfault => hfault.1
      cases hreplace

/-- Nothing fails that writes to a staging file. -/
theorem faultless_writeStaging (staging : FileName) (bytes : List UInt8) :
    HoldsE (Fs Faultless) (writeStaging staging bytes) (fun _ _ => True) (fun _ _ => False)
      (fun _ => True) w := by
  refine holds_call trivial fun r w' henv => ?_
  obtain ⟨content, -, henv⟩ := henv
  cases r with
  | ok u => exact holds_ret trivial trivial
  | error e => exact henv.1.2.elim

theorem faultless_flush (staging : FileName) :
    HoldsE (Fs Faultless) (ask (.flushFile staging) >>= fun r => FsM.io .writeEnvelope r)
      (fun _ _ => True) (fun _ _ => False) (fun _ => True) w := by
  refine holds_call trivial fun r w' henv => ?_
  cases r with
  | ok u => exact holds_ret trivial trivial
  | error e => exact henv.2.2.elim

theorem leavesSwept_saveBlob (payload : List UInt8) (h : Swept none d w.disk) :
    LeavesSwept d (saveBlob crc32c config (blobFilename config.format key) payload) w := by
  refine leavesSwept_bind (leavesSwept_of_tidy (calls_ofResult _) h) fun parts w₀ h₀ => ?_
  rw [stem_blobFilename]
  refine leavesSwept_iterate h₀ fun w₁ h₁ => ?_
  unfold saveTurn
  refine leavesSwept_bind (leavesSwept_of_tidy tidy_randomIdentifier h₁) fun identifier w₂ h₂ => ?_
  have hwrites := stages_writeStaging (stagingFilename (toHex key.toList)
    config.format.filenameSuffix .save identifier)
  have hcreates := ProgE.calls_bind (hwrites parts.1) fun _ => ProgE.calls_bind (hwrites payload)
    fun _ => ProgE.calls_bind (hwrites parts.2) fun _ => stages_flush _
  have hfaultless {v : JobWorld} (p : FsM Unit) (bytes : List UInt8)
      (hp : ∀ v, HoldsE (Fs Faultless) p (fun _ _ => True) (fun _ _ => False) (fun _ => True) v) :
      HoldsE (Fs Faultless) (writeStaging (stagingFilename (toHex key.toList)
        config.format.filenameSuffix .save identifier) bytes >>= fun _ => p)
        (fun _ _ => True) (fun _ _ => False) (fun _ => True) v :=
    holdsE_bind ((faultless_writeStaging _ bytes).mono (fun _ v _ _ => hp v) (fun _ _ _ he => he)
      fun _ _ => trivial)
  have hstaging := swept_staging (E := fun _ => False) hcreates
    (fun _ => hfaultless _ _ fun _ => hfaultless _ _ fun _ => hfaultless _ _ fun _ => faultless_flush _) h₂
  refine holdsE_bind (holdsE_attempt (hstaging.mono (fun _ w₃ _ hr => ?_) (fun abort w₃ _ hr => ?_)
    fun _ _ => trivial))
  · refine leavesSwept_bind (swept_publish ?_ staging_ne hr.1 hr.2) fun _ w₄ h₄ => holds_ret trivial h₄
    rw [dots_blobFilename]
    omega
  · have h₃ := hr.resolve_right fun hno => hno.1
    show HoldsE _ (if _ then _ else _) _ _ _ _
    split
    · exact holds_ret trivial h₃
    · exact holdsE_throw trivial h₃

/-- Where nothing fails, the encoder stops for what it received. -/
theorem faultless_encoder {staging : FileName} {declaredLen : Nat} (hdirectory : w.disk.isDirectory = true) :
    HoldsE (Fs Faultless) (do
      writeStreamEnvelope crc32c config (writeStaging staging) declaredLen
      FsM.io .writeEnvelope (← ask (.flushFile staging)))
      (fun _ _ => True) (fun abort _ => isAlreadyExists abort = false) (fun _ => True)
      ((Writer.staging staging).after w [] []) := by
  have hready : (Writer.staging staging).Ready w := hdirectory
  refine holdsE_bind ((holds_writeStreamEnvelope (C := fun _ => True) hready fun _ _ => trivial).mono
    (fun _ v _ _ => ?_) (fun abort v _ he => ?_) fun _ _ => trivial)
  · exact (faultless_flush staging).mono (fun _ _ _ h => h) (fun _ _ _ h => h.elim) fun _ h => h
  · cases abort with
    | panic => exact he.elim
    | error e =>
      obtain ⟨content, log, -, hstops⟩ := he
      cases hstops with
      | failed c source hplain chunks hle log hlog => exact hplain.2.elim
      | _ => rfl

/-- A staging file that is there is deleted. -/
theorem swept_deletes {staging : FileName} {r : Except IoError Unit} {w' : JobWorld} {node : Node}
    (henv : Fs Faultless (.deleteFile staging) w r w') (hnode : w.disk.entry staging = some node)
    (h : Swept (some staging) d w.disk) : r = .ok () ∧ Swept none d w'.disk := by
  cases r with
  | ok u =>
    obtain ⟨-, rfl⟩ := henv
    exact ⟨rfl, (h.set_none staging).release Disk.entry_set_none⟩
  | error e =>
    have hlookup : LookupError Faultless _ w.disk staging e := henv.2
    unfold LookupError at hlookup
    split at hlookup
    · rw [hnode] at hlookup
      cases hlookup
    · rw [Disk.isDirectory_of_entry hnode] at hlookup
      rcases hlookup with hfault | hmissing
      · exact hfault.elim
      · cases hmissing

theorem leavesSwept_saveBlobFromReceiver (declaredLen : Nat) (h : Swept none d w.disk) :
    LeavesSwept d (saveBlobFromReceiver crc32c config (blobFilename config.format key) declaredLen) w := by
  refine leavesSwept_bind (leavesSwept_of_tidy (calls_ofResult _) h) fun header w₀ h₀ => ?_
  rw [stem_blobFilename]
  refine leavesSwept_iterate h₀ fun w₁ h₁ => ?_
  unfold saveStreamTurn
  refine leavesSwept_bind (leavesSwept_of_tidy tidy_randomIdentifier h₁) fun identifier w₂ h₂ => ?_
  have hwrites := stages_writeStaging (stagingFilename (toHex key.toList)
    config.format.filenameSuffix .save identifier)
  have hcreates := ProgE.calls_bind (calls_encoder crc32c config declaredLen trivial hwrites)
    fun _ => stages_flush _
  have hstaging := swept_staging hcreates (fun hdirectory => faultless_encoder crc32c config hdirectory) h₂
  refine holdsE_bind (holdsE_attempt (hstaging.mono (fun _ w₃ _ hr => ?_) (fun abort w₃ _ hr => ?_)
    fun _ _ => trivial))
  · refine leavesSwept_bind (swept_publish ?_ staging_ne hr.1 hr.2) fun _ w₄ h₄ => holds_ret trivial h₄
    rw [dots_blobFilename]
    omega
  · show HoldsE _ (if _ then _ else _) _ _ _ _
    rcases hr with h₃ | ⟨hno, hstaged, h₃⟩
    · split
      · exact holds_ret trivial h₃
      · refine holds_call trivial fun r w₄ henv => ?_
        exact holdsE_throw trivial (swept_removes henv h₃)
    · rw [hno]
      refine holds_call trivial fun r w₄ henv => ?_
      obtain ⟨content, hcontent⟩ := hstaged
      exact holdsE_throw trivial (swept_deletes henv hcontent h₃).2

theorem leavesSwept_clearBlob (h : Swept none d w.disk) :
    LeavesSwept d (clearBlob config (blobFilename config.format key)) w := by
  unfold clearBlob
  rw [stem_blobFilename]
  have hrefresh := calls_refreshWindowsClearAge config key (P := FsCall.Tidy) fun c _ _ htidy => htidy
  refine holdsE_bind (holdsE_pure trivial ?_)
  refine holdsE_bind (holdsE_attempt ((leavesSwept_of_tidy hrefresh h).mono (fun _ w₁ _ h₁ => ?_)
    (fun source w₁ _ h₁ => ?_) fun _ _ => trivial))
  · refine leavesSwept_iterate h₁ fun w₂ h₂ => ?_
    unfold clearTurn
    refine leavesSwept_bind (leavesSwept_of_tidy tidy_randomIdentifier h₂) fun identifier w₃ h₃ => ?_
    refine holds_call trivial fun r w₄ henv => ?_
    cases r with
    | ok u =>
      obtain ⟨node, hnode, -, rfl⟩ := henv
      -- the blob is under the staging name, and in no other new place
      have hheld := (h₃.hold (stagingFilename (toHex key.toList) config.format.filenameSuffix .clear
        identifier)).move_held (blobFilename config.format key)
      have hdirectory := Disk.isDirectory_of_entry hnode
      refine holds_finalSync trivial ?_ fun e htrouble => ?_
      · refine holds_call trivial fun r w₅ henv => ?_
        obtain ⟨rfl, h₅⟩ := swept_deletes henv (Disk.entry_move_destination hnode) hheld
        exact holds_ret trivial h₅
      · rcases htrouble with ⟨c, e', hfault⟩ | hmissing
        · exact hfault.elim
        · simp only [Disk.isDirectory_move, hdirectory] at hmissing
          cases hmissing
    | error e =>
      obtain ⟨rfl, -⟩ := henv
      show HoldsE _ (if e.kind = .notFound then _ else if e.kind = .alreadyExists then _ else _) _ _ _ _
      split
      · refine leavesSwept_bind (leavesSwept_of_tidy (calls_ensureNamespaceAvailable trivial) h₃)
          fun _ w₅ h₅ => holds_ret trivial h₅
      · split
        · exact holds_ret trivial h₃
        · exact holds_fail trivial h₃
  · show HoldsE _ (if _ then _ else _) _ _ _ _
    split
    · exact leavesSwept_of_tidy (calls_ensureNamespaceAvailable trivial) h₁
    · exact holds_fail trivial h₁

end Windows

end Alone

/-! ### Every job -/

section Jobs

variable (crc32c : Crc32c) (config : StoreConfig) (platform : Platform) (d : Disk)

theorem leavesSwept_runOwnedOperation (key : KeyHash) (op : Operation) : LeavesSwept d
    (runOwnedOperation crc32c config platform (blobFilename config.format key) op) (.start d) := by
  have hstart : Swept none d (JobWorld.start d).disk := swept_refl
  have hwriter : WriterOf config.format key (.start d) := by
    intro name content hopen
    cases hopen
  cases op with
  | load sender =>
    exact leavesSwept_result (leavesSwept_of_tidy (calls_loadBlob crc32c config trivial trivial) hstart)
  | loadStream chunks acknowledgement sender =>
    exact leavesSwept_result (leavesSwept_of_tidy (calls_loadBlobIntoSender crc32c config trivial trivial
      (fun _ _ => trivial) (fun _ => trivial) trivial) hstart)
  | save payload sender =>
    refine leavesSwept_result ?_
    cases platform with
    | unix =>
      exact Unix.leavesSwept_saves config key (Unix.calls_saveBlob crc32c config ⟨rfl, Or.inl trivial⟩
        (fun _ => ⟨trivial, Or.inl trivial⟩) ⟨trivial, Or.inr rfl⟩ payload) hstart hwriter
    | windows => exact Windows.leavesSwept_saveBlob crc32c config key payload hstart
  | saveStream declaredLen chunks sender =>
    refine leavesSwept_result ?_
    cases platform with
    | unix =>
      exact Unix.leavesSwept_saves config key (Unix.calls_saveBlobFromReceiver crc32c config
        ⟨rfl, Or.inl trivial⟩ (fun _ => ⟨trivial, Or.inl trivial⟩) ⟨trivial, Or.inr rfl⟩
        ⟨trivial, Or.inl trivial⟩ declaredLen) hstart hwriter
    | windows => exact Windows.leavesSwept_saveBlobFromReceiver crc32c config key declaredLen hstart
  | clear sender =>
    refine leavesSwept_result ?_
    cases platform with
    | unix =>
      exact leavesSwept_of_tidy (Unix.calls_clearBlob config key fun _ _ _ htidy => htidy) hstart
    | windows => exact Windows.leavesSwept_clearBlob config key hstart
  | inspect sender =>
    exact leavesSwept_result (leavesSwept_of_tidy (calls_inspectBlob trivial trivial) hstart)
  | quarantine sender =>
    refine leavesSwept_result ?_
    cases platform with
    | unix =>
      exact leavesSwept_of_tidy (Unix.calls_quarantineBlob config key fun _ _ _ htidy => htidy) hstart
    | windows =>
      exact leavesSwept_of_tidy (Windows.calls_quarantineBlob config key fun _ _ _ htidy => htidy) hstart

theorem tidy_cleanup {format : BlobFormatIdentity} (c : FsCall) (h : CleanupCalls format c) :
    c.Tidy := by
  cases c with
  | now => trivial
  | readDirectory => trivial
  | symlinkMetadata name => trivial
  | deleteFile name => trivial
  | _ => exact h.elim

/-- **A job that has ended left nothing new under temporary names.** -/
theorem swept_job {job : WorkerJob} {outcome : Except Abort TaskResult} {v : JobWorld}
    (h : Returns (Fs Faultless) (job.program crc32c config platform) (.start d) outcome v) :
    Swept none d v.disk := by
  obtain ⟨n, hrun⟩ := h
  cases job with
  | operation key op =>
    have hleaves : LeavesSwept d (TaskResult.operation <$> runOwnedOperation crc32c config platform
        (blobFilename config.format key) op) (.start d) :=
      holdsE_map (leavesSwept_runOwnedOperation crc32c config platform d key op)
    have hended := (hleaves n _ v hrun).2 outcome rfl
    cases outcome with
    | ok t => exact hended
    | error abort => exact hended
  | maintenance sub =>
    have hcalls := calls_job crc32c config platform (.maintenance sub)
    exact (swept_of_calls tidy_cleanup hcalls swept_refl n _ v hrun).1

end Jobs

/-! ## In company

  What a job found under its own temporary names was there before the store was opened, since the jobs
  of its key before it have left nothing. -/

section Company

variable {crc32c : Crc32c} {config : StoreConfig} {platform : Platform} {fates : Nat → Fate}
  {disk : Disk} {s s' : Store}

/-- Nobody works on a key. -/
def Store.Idle (s : Store) (key : KeyHash) : Prop :=
  ∀ job ∈ s.engine.pool.running, job.key? ≠ some key

/-- There is nothing new under the temporary names of the keys that nobody works on, and there was none
    when those that are worked on were started. -/
structure Unlittered (disk : Disk) (s : Store) : Prop where
  /-- The keys that nobody works on are swept, -/
  idle : ∀ key, s.Idle key → ∀ name, Owns key name → 4 ≤ dots name → s.disk.entry name ≠ none →
    s.disk.entry name = disk.entry name
  /-- and so were the others when they were taken up. -/
  found : ∀ e ∈ s.executions, e.job ∈ s.engine.pool.running → ∀ key, e.job.key? = some key →
    ∀ name, Owns key name → 4 ≤ dots name → e.before.entry name ≠ none →
    e.before.entry name = disk.entry name

/-- A job that goes on is still the one that was started. -/
theorem Unlittered.advance (h : Unlittered disk s) {front back : List Execution} {e f : Execution}
    (hexecutions : s.executions = front ++ e :: back) (hjob : f.job = e.job) (hbefore : f.before = e.before) :
    ∀ g ∈ front ++ f :: back, g.job ∈ s.engine.pool.running → ∀ key, g.job.key? = some key →
      ∀ name, Owns key name → 4 ≤ dots name → g.before.entry name ≠ none →
      g.before.entry name = disk.entry name := by
  intro g hg hrun
  simp only [List.mem_append, List.mem_cons] at hg
  rcases hg with hg | rfl | hg
  · exact h.found g (by rw [hexecutions]; exact List.mem_append_left _ hg) hrun
  · rw [hjob] at hrun ⊢
    rw [hbefore]
    exact h.found e (by rw [hexecutions]; simp) hrun
  · exact h.found g (by
      rw [hexecutions]
      exact List.mem_append_right _ (List.mem_cons_of_mem _ hg)) hrun

/-- A job that goes on touches the temporary names of its own key, or takes away. -/
theorem Unlittered.call (h : Unlittered disk s) (hknown : Known config s) {front back : List Execution}
    {e : Execution} {c : FsCall} {k : c.Answer → Prog FsInterface (Except Abort TaskResult)}
    {r : c.Answer} {w : JobWorld} (hexecutions : s.executions = front ++ e :: back)
    (hrunning : e.job ∈ s.engine.pool.running) (hc : e.job.Asks config.format c)
    (henv : Fs Faultless c { e.world with disk := s.disk } r w) :
    Unlittered disk ⟨s.engine, w.disk, front ++ { e with program := k r, world := w } :: back⟩ := by
  have he : e ∈ s.executions := by rw [hexecutions]; simp
  constructor
  · intro key hidle name hname hdots hthere
    have hsame : w.disk.entry name = s.disk.entry name := by
      cases hjob : e.job with
      | operation key' op =>
        have hne : key' ≠ key := by
          rintro rfl
          exact hidle e.job hrunning (by rw [hjob]; rfl)
        refine (call_sameOn hknown he hc henv (P := fun n => n = name) fun n htouches hn => ?_).entry name rfl
        rw [hjob, hn] at htouches
        exact hne (Owns.key_eq htouches hname)
      | maintenance sub =>
        rw [hjob] at hc
        have hswept : Swept none s.disk w.disk := tidy_swept (tidy_cleanup c hc) henv swept_refl
        exact hswept name hdots (Option.some_ne_none name).symm hthere
    rw [hsame] at hthere ⊢
    exact h.idle key hidle name hname hdots hthere
  · exact h.advance (f := { e with program := k r, world := w }) hexecutions rfl rfl

/-- A job starts in a directory that is swept for its key. -/
theorem Unlittered.start (h : Unlittered disk s) (hknown : Known config s) (hinv : Inv config s.engine)
    (hs : Settled config s.engine) {job : WorkerJob} {rest : List WorkerJob}
    (hjobs : s.engine.pool.jobs = job :: rest) :
    Unlittered disk ⟨s.engine.startJob job rest, s.disk,
      s.executions ++ [.begin crc32c config platform job s.disk]⟩ := by
  have hwaits : job ∈ s.engine.pool.jobs := by rw [hjobs]; exact List.mem_cons_self
  constructor
  · intro key hidle
    exact h.idle key fun job' hjob' => hidle job' (List.mem_append_left _ hjob')
  · intro e he hrun key hkey
    rcases List.mem_append.mp he with he | he
    · rcases List.mem_append.mp hrun with hrun | hrun
      · exact h.found e he hrun key hkey
      · -- the job that starts had not started before
        refine absurd ?_ (not_executed_of_waiting hinv hs hwaits)
        rw [← hknown.recorded, ← List.mem_singleton.mp hrun]
        exact List.mem_map_of_mem (f := fun e => e.job.origin) he
    · rw [List.mem_singleton.mp he] at hkey ⊢
      apply h.idle key
      intro job' hjob' hkey'
      have hdisjoint := (List.pairwise_append.mp (jobs_disjoint hinv)).2.2 job hwaits job' hjob'
      obtain ⟨k, k', hk, hk', hne⟩ := hdisjoint
      apply hne
      have hk : job.key? = some k := hk
      have hkey : job.key? = some key := hkey
      rw [hkey] at hk
      rw [hkey'] at hk'
      rw [← Option.some.inj hk, ← Option.some.inj hk']

/-- A job ends, and its key is swept. -/
theorem Unlittered.finish (h : Unlittered disk s) (hisolated : Isolated crc32c config platform Faultless disk s)
    (hcurrent : Current s) {front back : List WorkerJob} {e : Execution}
    {outcome : Except Abort TaskResult} {ev : CoordinatorEvent} {entries : List Observation}
    (he : e ∈ s.executions) (hrunning : s.engine.pool.running = front ++ e.job :: back)
    (hret : e.program = .ret outcome) :
    Unlittered disk { s with engine := s.engine.finishJob front back ev entries } := by
  have hfewer : ∀ job ∈ front ++ back, job ∈ s.engine.pool.running := by
    rw [hrunning]
    exact ((List.sublist_cons_self _ _).append_left front).subset
  have hrun : e.job ∈ s.engine.pool.running := by
    rw [hrunning]
    simp
  constructor
  · intro key hidle name hname hdots hthere
    by_cases hkey : e.job.key? = some key
    · -- what is there is what the job left alone
      obtain ⟨v, hreturns, hakin⟩ := (hisolated.alone e he).returns hret
      have hsees : e.job.Sees name := by
        cases hjob : e.job with
        | maintenance sub => exact trivial
        | operation key' op =>
          rw [hjob] at hkey
          rw [Option.some.inj hkey]
          exact hname
      have hleft : v.disk.entry name = s.disk.entry name :=
        (hakin.1.entry name hsees).trans ((hcurrent e he hrun).entry name hsees)
      have hthere' : v.disk.entry name ≠ none := by
        rw [hleft]
        exact hthere
      have hsame := swept_job crc32c config platform e.before hreturns name hdots
        (Option.some_ne_none name).symm hthere'
      show s.disk.entry name = disk.entry name
      rw [← hleft, hsame]
      rw [hsame] at hthere'
      exact h.found e he hrun key hkey name hname hdots hthere'
    · refine h.idle key (fun job hjob => ?_) name hname hdots hthere
      rw [hrunning] at hjob
      rcases List.mem_append.mp hjob with hjob | hjob
      · exact hidle job (List.mem_append_left _ hjob)
      · rcases List.mem_cons.mp hjob with rfl | hjob
        · exact hkey
        · exact hidle job (List.mem_append_right _ hjob)
  · intro f hf hrun
    exact h.found f hf (hfewer _ hrun)

theorem unlittered_reachable
    (h : (storeSystem crc32c config platform fates Faultless False disk).Reachable s) :
    Unlittered disk s := by
  refine System.Reachable.invariant (P := fun s => Unlittered disk s) ?_ ?_ h
  · rintro s rfl
    exact ⟨fun _ _ _ _ _ _ => rfl, fun e he => absurd he List.not_mem_nil⟩
  · intro s s' hreach hunlittered hstep
    obtain ⟨hinv, hs⟩ := inv_reachable (reachable_engine hreach)
    have hknown := known_reachable hreach
    obtain ⟨hisolated, hcurrent⟩ := isolated_current hreach
    cases hstep with
    | engine hstep hsame =>
      constructor
      · intro key hidle
        refine hunlittered.idle key fun job hjob => hidle job ?_
        rw [hsame]
        exact hjob
      · intro e he hrun
        have hrun : e.job ∈ _ := hrun
        rw [hsame] at hrun
        exact hunlittered.found e he hrun
    | start job rest hjobs hthread => exact hunlittered.start hknown hinv hs hjobs
    | call front back e c k r w hexecutions hrunning hcall henv =>
      have hasks := hknown.asks e (by rw [hexecutions]; simp)
      rw [hcall] at hasks
      cases hasks with
      | call hc hk => exact hunlittered.call hknown hexecutions hrunning hc henv
    | turn front back e body x k hexecutions hrunning hloop =>
      exact ⟨hunlittered.idle, hunlittered.advance hexecutions rfl rfl⟩
    | finish front back e outcome ev entries hexecution hrunning hret hend =>
      exact hunlittered.finish hisolated hcurrent hexecution hrunning hret
    | panic front back job ev entries hpanics hrunning hend => exact hpanics.elim

/-- **No litter.**  Where nothing fails and nobody panics, whatever overlaps: under a staging name of
    a key that nobody works on there is nothing, or what was there when the store was opened.  On Unix
    no staging name is ever used, so there it says that none appears. -/
theorem no_litter
    (h : (storeSystem crc32c config platform fates Faultless False disk).Reachable s) {key : KeyHash}
    (hidle : s.Idle key) {name : FileName} (hname : Staging config.format key name) :
    s.disk.entry name = none ∨ s.disk.entry name = disk.entry name := by
  by_cases hthere : s.disk.entry name = none
  · exact Or.inl hthere
  · exact Or.inr ((unlittered_reachable h).idle key hidle name hname.owns hname.dots hthere)

end Company

/-! ## A run

  The witness is a save on Windows, in which something is under a staging name for a while. -/

section Sample

variable (crc32c : Crc32c) (config : StoreConfig) (key : KeyHash) (disk : Disk)

/-- A save on Windows can go by way of any staging name that is free: on its way the file is there. -/
theorem Windows.saves_by_way (payload : List UInt8) (sender : Ticket)
    (hfits : payload.length ≤ config.maximum) (hdirectory : disk.isDirectory = true)
    (hnew : disk.entry (blobFilename config.format key) = none) (bytes : Vector UInt8 32)
    (hfree : disk.entry (stagingFilename (toHex key.toList) config.format.filenameSuffix .save
      (toHex bytes.toList)) = none) :
    ∃ n p v w, Run (Fs Faultless) n
        ((WorkerJob.operation key (.save payload sender)).program crc32c config .windows)
        (.start disk) p v ∧
      v.disk.entry (stagingFilename (toHex key.toList) config.format.filenameSuffix .save
        (toHex bytes.toList)) ≠ none ∧
      Returns (Fs Faultless) p v (.ok (.operation (.save (.ok ())))) w ∧
      w.disk.entry (blobFilename config.format key) ≠ none := by
  generalize hstaging : stagingFilename (toHex key.toList) config.format.filenameSuffix .save
    (toHex bytes.toList) = staging at hfree ⊢
  have hne : staging ≠ blobFilename config.format key := by
    rw [← hstaging]
    exact staging_ne
  let written (content : List UInt8) : JobWorld :=
    { JobWorld.start disk with disk := disk.set staging (some (.file content)) }
  have hentry (content : List UInt8) : (written content).disk.entry staging = some (.file content) :=
    Disk.entry_set_self hdirectory
  have hfill : Fs Faultless .fill (.start disk) (.ok bytes) (.start disk) := ⟨rfl, trivial⟩
  have hcreate : Fs Faultless (.createNew staging) (.start disk) (.ok ()) (written []) :=
    ⟨hdirectory, hfree, rfl⟩
  have hwrite (content bytes : List UInt8) : Fs Faultless (.writeFile staging bytes)
      (written content) (.ok ()) (written (content ++ bytes)) := by
    refine ⟨content, hentry content, ?_⟩
    show written (content ++ bytes) = { written content with
      disk := (disk.set staging (some (.file content))).set staging (some (.file (content ++ bytes))) }
    rw [Disk.set_set]
  have hflush (v : JobWorld) : Fs Faultless (.flushFile staging) v (.ok ()) v := ⟨rfl, trivial⟩
  have hopen (v : JobWorld) : Fs Faultless .openDirectory v (.ok ()) v := ⟨rfl, trivial⟩
  have hsync (v : JobWorld) : Fs Faultless .syncDirectory v (.ok ()) v := ⟨rfl, trivial⟩
  have hmove (content : List UInt8) : ∃ w, Fs Faultless
      (.moveSaveFile staging (blobFilename config.format key) false) (written content) (.ok ()) w ∧
      w.disk.entry (blobFilename config.format key) ≠ none := by
    refine ⟨_, ⟨_, hentry content, fun _ => (Disk.entry_set_ne hne.symm).trans hnew, rfl⟩, ?_⟩
    show ((written content).disk.move staging (blobFilename config.format key)).entry _ ≠ none
    rw [Disk.entry_move_destination (hentry content)]
    nofun
  obtain ⟨w, hmove, hsaved⟩ := hmove _
  show ∃ n p v w, Run (Fs Faultless) n
    (TaskResult.operation <$> BlockingResult.save <$> (Windows.saveBlob crc32c config
      (blobFilename config.format key) payload).result : FsM TaskResult).run _ p v ∧ _
  unfold Windows.saveBlob
  rw [envelopeParts_eq crc32c config hfits, stem_blobFilename]
  subst hstaging
  refine ⟨_, _, written [], w, .cons .loop (.cons (.call hfill) (.cons (.call hcreate) .nil)), ?_, ?_,
    hsaved⟩
  · rw [hentry]
    nofun
  · refine Returns.call (hwrite [] _) (Returns.call (hwrite _ _) (Returns.call (hwrite _ _) ?_))
    refine Returns.call (hflush _) (Returns.call hmove (Returns.call (hopen w) ?_))
    exact Returns.call (hsync w) returns_ret

/-- The staging name that the save of the sample run draws. -/
def sampleStaging : FileName := stagingFilename (toHex sampleKey.toList)
  sampleConfig.format.filenameSuffix .save (toHex (Vector.replicate 32 (0 : UInt8)).toList)

/-- On the way of the sample run, on Windows, the staging file is there.  In the end the blob is saved
    and nobody works on its key: the staging file is gone. -/
theorem no_litter_sample : ∃ s s' : Store,
    (storeSystem crc32cReference sampleConfig .windows sampleFates Faultless False
      (.directory fun _ => none)).Reachable s ∧
    s.disk.entry sampleStaging ≠ none ∧ s'.engine = sampleEnd ∧
    s'.disk.entry (blobFilename sampleConfig.format sampleKey) ≠ none ∧
    s'.disk.entry sampleStaging = none := by
  obtain ⟨n, p, v, w, hrun, hstaged, hreturns, hsaved⟩ := Windows.saves_by_way crc32cReference
    sampleConfig sampleKey (.directory fun _ => none) [1, 2] 0 (by decide) rfl rfl
    (Vector.replicate 32 0) rfl
  have hstarted := (sampleBusyStore_reachable .windows Faultless False).step
    (.start (.operation sampleKey sampleSave) [] rfl (by decide))
  have hway := store_run hrun (by exact List.mem_cons_self) hstarted
  obtain ⟨m, hrest⟩ := hreturns
  have hdone := store_run hrest (by exact List.mem_cons_self) hway
  have hreach := sampleEnd_of_saved (hdone.step (.finish [] [] _ _ _ _ List.mem_cons_self rfl rfl
    (.operation sampleKey sampleSave (.save (.ok ())) rfl)))
  have hname : Staging sampleConfig.format sampleKey sampleStaging := ⟨.save, _, rfl⟩
  exact ⟨_, _, hway, hstaged, rfl, hsaved,
    (no_litter hreach (fun job hjob => nomatch hjob) hname).elim id id⟩

end Sample

end AtomicBlobStore
