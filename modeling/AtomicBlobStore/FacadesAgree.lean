/-
  The blocking and the Tokio facade agree.

  `save_from` and `load_into` are written twice.  `SaveResults` and `LoadResults` say what every run of
  either comes to; here a run of one is put beside a run of the other, of the same store, in any order
  of steps.

  1. **Saves** (`SavesAgree`): both follow the script of the reader, so they agree on the result, on the
     bytes they sent, on whether they sent `Complete`, and on the canonical file.  How the script is cut
     into reads does not matter, and need not be the same.

  2. **Loads** (`LoadVerdict.unique`): what the worker sends, and replies, depends on the disk alone.  A
     script of a writer has one answer to each call, so there is one course of copying for each
     `write_all` (`Copies.unique`).

  3. The two `write_all` differ where a writer answers `ErrorKind::Interrupted`: the one of the standard
     library tries again, the one of Tokio gives up.  `loads_agree_iff` says that this is the only
     difference.

  The two facades are two texts of one design.  Here any run of one is compared with any run of the
  other.  It finds one difference, and it is not in the store's own text: it is in the `write_all` that
  each of them calls.
-/
import AtomicBlobStore.SaveResults
import AtomicBlobStore.LoadResults

namespace AtomicBlobStore

/-! ## Saves

  Both facades were shown to follow the script of their reader.  That they agree is a corollary. -/

section Saves

variable (config : StoreConfig) (key : KeyHash) (declaredLen : Nat) (data : List UInt8)
  (ending : Option IoError)

/-- What two calls of `save_from` have in common that were given the same data, and have returned. -/
structure SavesAgree (r r' : Except AtomicBlobStoreError Unit) (s s' : SaveStream) : Prop where
  /-- The result is that of the script, -/
  verdict : r = saveVerdict config declaredLen data ending
  /-- for both. -/
  result : r' = r
  /-- They sent the same bytes, -/
  sent : bytesOf s'.desk.chunks.sent = bytesOf s.desk.chunks.sent
  /-- and both completed the stream, or neither did. -/
  completes : .complete ∈ s'.desk.chunks.sent ↔ .complete ∈ s.desk.chunks.sent
  /-- The canonical files are alike. -/
  content : s'.world.disk.entry (blobFilename config.format key) =
    s.world.disk.entry (blobFilename config.format key)
  /-- What is too large was not read by either. -/
  unread : config.maximum < declaredLen → s.desk.reads = [] ∧ s'.desk.reads = []

variable {config key declaredLen data ending} {crc32c : Crc32c} {disk : Disk}

/-- The canonical file after a call, as a function of its result. -/
theorem FollowsScript.content {r : Except AtomicBlobStoreError Unit} {s : SaveStream}
    (h : FollowsScript crc32c config key declaredLen disk data ending r s) :
    s.world.disk.entry (blobFilename config.format key) =
      if r = .ok () then some (.file (envelope crc32c config.format data))
      else disk.entry (blobFilename config.format key) := by
  split
  · rename_i hok
    exact (h.saved hok).self
  · rename_i hne
    exact (h.untaken hne).self

/-- **Two calls that follow one script agree.** -/
theorem FollowsScript.agree {r r' : Except AtomicBlobStoreError Unit} {s s' : SaveStream}
    (h : FollowsScript crc32c config key declaredLen disk data ending r s)
    (h' : FollowsScript crc32c config key declaredLen disk data ending r' s') :
    SavesAgree config key declaredLen data ending r r' s s' := by
  have hresult : r' = r := h'.result.trans h.result.symm
  constructor
  · exact h.result
  · exact hresult
  · exact h'.sent.trans h.sent.symm
  · rw [h'.completes, h.completes, hresult]
  · rw [h'.content, h.content, hresult]
  · intro hlarge
    exact ⟨h.unread hlarge, h'.unread hlarge⟩

end Saves

/-! ## Scripts of writers

  A script answers a call by what the writer was given before, so two facades that call it alike are
  answered alike, and the first difference has to come from a facade. -/

/-- What a writer answers, after how it was called so far. -/
abbrev WriteScript := Writes → List UInt8 → Except IoError Nat

namespace WriteScript

/-- A script as the rule of a writer. -/
def rule (script : WriteScript) : WriteRule := fun writes offered r => r = script writes offered

/-- The contract of `write`: no more is taken than was offered. -/
def Lawful (script : WriteScript) : Prop :=
  ∀ writes offered count, script writes offered = .ok count → count ≤ offered.length

/-- No write is answered with `ErrorKind::Interrupted`. -/
def NeverInterrupts (script : WriteScript) : Prop :=
  ∀ writes offered source, script writes offered = .error source → source.kind ≠ .interrupted

/-- A script has one answer to each call. -/
theorem decisive (script : WriteScript) : Decisive script.rule := by
  intro writes offered r r' h h'
  exact h.trans h'.symm

variable {script : WriteScript} {retries : Bool}

/-- **Copying comes to an end** where nothing is tried again: every call takes something, or ends it. -/
theorem copies (hlawful : script.Lawful)
    (hlast : ∀ writes offered source, script writes offered = .error source →
      ¬TriesAgain retries source) (chunks : List (List UInt8)) :
    ∀ (before : Writes) (left : List UInt8),
      ∃ after outcome, Copies retries script.rule before left chunks after outcome := by
  -- what is left of a chunk, given that the chunks to come can be copied
  have hleft (chunks : List (List UInt8))
      (hrest : ∀ before, ∃ after outcome, Copies retries script.rule before [] chunks after outcome)
      (n : Nat) : ∀ (before : Writes) (left : List UInt8), left.length ≤ n →
        ∃ after outcome, Copies retries script.rule before left chunks after outcome := by
    induction n with
    | zero =>
      intro before left hle
      obtain rfl : left = [] := List.length_eq_zero_iff.mp (by omega)
      exact hrest before
    | succ n ih =>
      intro before left hle
      by_cases hne : left = []
      · rw [hne]
        exact hrest before
      · cases hanswer : script before left with
        | error source =>
          exact ⟨_, _, .failed hne (hlast _ _ _ hanswer) hanswer.symm⟩
        | ok count =>
          by_cases hzero : count = 0
          · subst hzero
            exact ⟨_, _, .full hne hanswer.symm⟩
          · have hcount := hlawful _ _ _ hanswer
            have hdrop : (left.drop count).length ≤ n := by
              rw [List.length_drop]
              omega
            obtain ⟨after, outcome, hcopies⟩ := ih (before ++ [(left, .ok count)]) _ hdrop
            exact ⟨after, outcome, .took hne (by omega) hcount hanswer.symm hcopies⟩
  induction chunks with
  | nil =>
    intro before left
    exact hleft [] (fun before => ⟨before, none, .finished⟩) _ before left (Nat.le_refl _)
  | cons chunk chunks ih =>
    intro before left
    apply hleft (chunk :: chunks) _ _ before left (Nat.le_refl _)
    intro before
    obtain ⟨after, outcome, hcopies⟩ := ih before chunk
    exact ⟨after, outcome, .next hcopies⟩

end WriteScript

/-- Where nothing is to be copied, nothing is written. -/
theorem Copies.of_nil {retries : Bool} {writer : WriteRule} {before after : Writes}
    {outcome : Option IoError} (h : Copies retries writer before [] [] after outcome) :
    after = before ∧ outcome = none := by
  cases h with
  | finished => exact ⟨rfl, rfl⟩
  | took hne | again hne | full hne | failed hne => exact absurd rfl hne

/-! ## Loads

  What is to be copied is the same for both, and so is the rule by which one chunk is copied, as long
  as no write is interrupted. -/

section Loads

variable {crc32c : Crc32c} {config : StoreConfig} {key : KeyHash} {disk : Disk}

/-- **What the worker sends and replies depends on the disk alone.** -/
theorem LoadVerdict.unique {chunks chunks' : List (List UInt8)} {reply reply' : LoadResult}
    (h : LoadVerdict crc32c config key disk chunks reply)
    (h' : LoadVerdict crc32c config key disk chunks' reply') : chunks' = chunks ∧ reply' = reply := by
  -- the two cases of a file, against the two where there is none
  have hthere {payload : List UInt8} (hstores : Stores crc32c config key disk payload) :
      disk.entry (blobFilename config.format key) ≠ none ∧ disk.isDirectory = true := by
    refine ⟨?_, Disk.isDirectory_of_entry hstores.2⟩
    rw [hstores.2]
    exact Option.some_ne_none _
  have hbad {e : AtomicBlobStoreError} (hrejects : Rejects crc32c config key disk e) :
      disk.entry (blobFilename config.format key) ≠ none ∧ disk.isDirectory = true := by
    obtain ⟨content, hentry, -⟩ := hrejects
    refine ⟨?_, Disk.isDirectory_of_entry hentry⟩
    rw [hentry]
    exact Option.some_ne_none _
  have hnot {b : Bool} (htrue : b = true) (hfalse : b = false) : False := by
    rw [htrue] at hfalse
    exact Bool.noConfusion hfalse
  cases h with
  | stored hstores =>
    cases h' with
    | stored hstores' =>
      obtain rfl := hstores.unique hstores'
      exact ⟨rfl, rfl⟩
    | absent _ hnone => exact absurd hnone (hthere hstores).1
    | rejected hrejects => exact absurd hstores (hrejects.not_stores _)
    | unavailable hoff => exact (hnot (hthere hstores).2 hoff).elim
  | absent hdirectory hnone =>
    cases h' with
    | stored hstores' => exact absurd hnone (hthere hstores').1
    | absent => exact ⟨rfl, rfl⟩
    | rejected hrejects => exact absurd hnone (hbad hrejects).1
    | unavailable hoff => exact (hnot hdirectory hoff).elim
  | rejected hrejects =>
    cases h' with
    | stored hstores' => exact absurd hstores' (hrejects.not_stores _)
    | absent _ hnone => exact absurd hnone (hbad hrejects).1
    | rejected hrejects' =>
      obtain ⟨content, hentry, herror⟩ := hrejects
      obtain ⟨content', hentry', herror'⟩ := hrejects'
      obtain rfl := Node.file.inj (Option.some.inj (hentry.symm.trans hentry'))
      rw [herror] at herror'
      injection herror' with herror'
      injection herror' with herror'
      exact ⟨rfl, congrArg Except.error herror'.symm⟩
    | unavailable hoff => exact (hnot (hbad hrejects).2 hoff).elim
  | unavailable hoff =>
    cases h' with
    | stored hstores' => exact (hnot (hthere hstores').2 hoff).elim
    | absent hdirectory => exact (hnot hdirectory hoff).elim
    | rejected hrejects => exact (hnot (hbad hrejects).2 hoff).elim
    | unavailable => exact ⟨rfl, rfl⟩

/-- In a directory, a canonical name that is no odd node has a verdict. -/
theorem loadVerdict_exists (crc32c : Crc32c) (hdirectory : disk.isDirectory = true)
    (hregular : disk.entry (blobFilename config.format key) ≠ some .other) :
    ∃ chunks reply, LoadVerdict crc32c config key disk chunks reply := by
  cases hentry : disk.entry (blobFilename config.format key) with
  | none => exact ⟨_, _, .absent hdirectory hentry⟩
  | some node =>
    cases node with
    | other => exact absurd hentry hregular
    | file content =>
      rcases stores_or_rejects crc32c hentry with ⟨payload, hstores⟩ | ⟨e, hrejects⟩
      · exact ⟨_, _, .stored hstores⟩
      · exact ⟨_, _, .rejected hrejects⟩

/-- What the copying of the two facades has to do with each other, for one verdict. -/
theorem copies_agree_iff {script : WriteScript} {chunks : List (List UInt8)} {reply : LoadResult}
    (hverdict : LoadVerdict crc32c config key disk chunks reply) {writes writes' : Writes}
    {copied copied' : Option IoError}
    (h : Copies true script.rule [] [] chunks writes copied)
    (h' : Copies false script.rule [] [] chunks writes' copied') :
    (loadOutcome reply copied' = loadOutcome reply copied ∧ takenBytes writes' = takenBytes writes) ↔
      ¬WriteInterrupted writes' := by
  constructor
  · rintro ⟨hsame, -⟩ hinterrupted
    have hnone : ¬WriteInterrupted [] := by
      rintro ⟨offered, source, hmem, -⟩
      exact List.not_mem_nil hmem
    obtain ⟨source, rfl, hkind⟩ := h'.stops hnone hinterrupted
    cases copied with
    | some last =>
      have hlast : loadOutcome reply (some source) = loadOutcome reply (some last) := hsame
      injection hlast with hlast
      injection hlast with hlast
      exact h.ends (hlast ▸ rfl) hkind
    | none =>
      -- an interrupted writer was given something, and then the reply is no error
      have hreply : .error (.outputIo source) = reply := hsame
      cases hverdict with
      | stored => cases hreply
      | absent | rejected | unavailable =>
        obtain ⟨-, hcopied⟩ := h'.of_nil
        cases hcopied
  · intro hcalm
    obtain ⟨rfl, rfl⟩ := (h'.calm hcalm true).unique script.decisive h
    exact ⟨rfl, rfl⟩

/-- **Two calls of `load_into` agree exactly if the one of Tokio was not interrupted.** -/
theorem loads_agree_iff {script : WriteScript} (hdirectory : disk.isDirectory = true)
    (hregular : disk.entry (blobFilename config.format key) ≠ some .other)
    {s s' : LoadStream} {r r' : LoadResult}
    (h : (streamingLoad crc32c config Faultless script.rule False .blocking key disk).Reachable s)
    (hret : s.caller = some (.ret r))
    (h' : (streamingLoad crc32c config Faultless script.rule False .tokio key disk).Reachable s')
    (hret' : s'.caller = some (.ret r')) :
    (r' = r ∧ takenBytes s'.desk.writes = takenBytes s.desk.writes) ↔
      ¬WriteInterrupted s'.desk.writes := by
  obtain ⟨chunks, reply, copied, hverdict, hcopies, rfl⟩ :=
    concluded_load hregular hdirectory h hret
  obtain ⟨chunks', reply', copied', hverdict', hcopies', rfl⟩ :=
    concluded_load hregular hdirectory h' hret'
  obtain ⟨rfl, rfl⟩ := hverdict.unique hverdict'
  exact copies_agree_iff hverdict' hcopies hcopies'

variable (crc32c) in
/-- **Some call returns** where no interruption is tried again. -/
theorem load_returns {script : WriteScript} (hlawful : script.Lawful) (facade : Facade)
    (hlast : facade = .tokio ∨ script.NeverInterrupts) (hdirectory : disk.isDirectory = true)
    (hregular : disk.entry (blobFilename config.format key) ≠ some .other) :
    ∃ s r, (streamingLoad crc32c config Faultless script.rule False facade key disk).Reachable s ∧
      s.caller = some (.ret r) := by
  obtain ⟨chunks, reply, hverdict⟩ := loadVerdict_exists crc32c hdirectory hregular
  have hnot : ∀ writes offered source, script writes offered = .error source →
      ¬TriesAgain facade.retries source := by
    intro writes offered source hanswer
    rcases hlast with rfl | hnever
    · exact Bool.false_ne_true
    · exact not_triesAgain (hnever _ _ _ hanswer)
  obtain ⟨after, copied, hcopies⟩ := WriteScript.copies hlawful hnot chunks [] []
  obtain ⟨s, hs, hret, -⟩ := streamingLoad_returns crc32c config Faultless script.rule False key facade
    hverdict hcopies
  exact ⟨s, _, hs, hret⟩

end Loads

/-! ## Both

  The agreement is stated for any two runs, and that there are such runs is part of it. -/

variable (crc32c : Crc32c) (config : StoreConfig) (key : KeyHash) (disk : Disk) (platform : Platform)

/-- **The facades agree**, where the engine does not fail. -/
structure FacadesAgree : Prop where
  /-- Every save comes to its end in some run. -/
  save_returns : ∀ declaredLen data ending reader, Script data ending reader → ∀ facade, ∃ s r,
    (streamingSave crc32c config Faultless reader False facade platform key declaredLen
      disk).Reachable s ∧ s.caller = some (.ret r)
  /-- Whatever the two have returned, they agree. -/
  saves : ∀ declaredLen data ending reader reader', Script data ending reader →
    Script data ending reader' → ∀ s r s' r',
      (streamingSave crc32c config Faultless reader False .blocking platform key declaredLen
        disk).Reachable s → s.caller = some (.ret r) →
      (streamingSave crc32c config Faultless reader' False .tokio platform key declaredLen
        disk).Reachable s' → s'.caller = some (.ret r') →
      SavesAgree config key declaredLen data ending r r' s s'
  /-- So does every load whose writer is never interrupted. -/
  load_returns : ∀ script : WriteScript, script.Lawful → script.NeverInterrupts → ∀ facade, ∃ s r,
    (streamingLoad crc32c config Faultless script.rule False facade key disk).Reachable s ∧
      s.caller = some (.ret r)
  /-- Loads that have returned agree on the result and on the bytes written, exactly if the writer did
      not interrupt the one of Tokio. -/
  loads : ∀ script : WriteScript, script.Lawful → ∀ s r s' r',
    (streamingLoad crc32c config Faultless script.rule False .blocking key disk).Reachable s →
    s.caller = some (.ret r) →
    (streamingLoad crc32c config Faultless script.rule False .tokio key disk).Reachable s' →
    s'.caller = some (.ret r') →
    ((r' = r ∧ takenBytes s'.desk.writes = takenBytes s.desk.writes) ↔
      ¬WriteInterrupted s'.desk.writes)

variable {crc32c config key disk platform}

/-- **The blocking and the Tokio facade agree.**  The readers of the two saves may cut their data
    differently; the writers of the two loads are scripts, so that each can be asked the same thing
    twice.  No order of steps is assumed in either run. -/
theorem facades_agree (hroomy : Roomy config key disk platform)
    (hregular : disk.entry (blobFilename config.format key) ≠ some .other) :
    FacadesAgree crc32c config key disk platform := by
  constructor
  · intro declaredLen data ending reader hscript facade
    exact (save_follows_script hscript hroomy facade).1
  · intro declaredLen data ending reader reader' hscript hscript' s r s' r' hs hret hs' hret'
    exact ((save_follows_script hscript hroomy .blocking).2 s r hs hret).agree
      ((save_follows_script hscript' hroomy .tokio).2 s' r' hs' hret')
  · intro script hlawful hnever facade
    exact load_returns crc32c hlawful facade (Or.inr hnever) hroomy.1 hregular
  · intro script hlawful s r s' r' hs hret hs' hret'
    exact loads_agree_iff hroomy.1 hregular hs hret hs' hret'

/-- The theorem for a store of one byte under one key. -/
theorem facades_agree_sample : FacadesAgree crc32cReference
    ⟨testFormat, 16, 1, by decide, by decide⟩ (Vector.replicate 32 0)
    (oneFile (blobFilename testFormat (Vector.replicate 32 0))
      (envelope crc32cReference testFormat [7])) .unix := by
  have hentry := entry_oneFile (blobFilename testFormat (Vector.replicate 32 0))
    (envelope crc32cReference testFormat [7])
  refine facades_agree ⟨rfl, fun h => ?_⟩ fun hother => ?_
  · cases h
  · have hother : (oneFile (blobFilename testFormat (Vector.replicate 32 0))
      (envelope crc32cReference testFormat [7])).entry
        (blobFilename testFormat (Vector.replicate 32 0)) = some .other := hother
    rw [hentry] at hother
    cases hother

/-! ## A writer that is interrupted -/

/-- A writer whose first call is interrupted by a signal, and that then takes what it is offered. -/
def interruptedWriter : WriteScript := fun writes offered =>
  if writes = [] then .error ⟨.interrupted, 4⟩ else .ok offered.length

/-- It takes no more than it is offered. -/
theorem lawful_interruptedWriter : interruptedWriter.Lawful := by
  intro writes offered count h
  unfold interruptedWriter at h
  split at h
  · cases h
  · exact Nat.le_of_eq (Except.ok.inj h).symm

/-- **`load_into` of one byte**: the blocking one writes it, the one of Tokio fails. -/
theorem interrupted_load_disagrees : interruptedWriter.Lawful ∧ ∃ s s',
    (streamingLoad crc32cReference ⟨testFormat, 16, 1, by decide, by decide⟩ Faultless
      interruptedWriter.rule False .blocking (Vector.replicate 32 0) (oneFile (blobFilename testFormat (Vector.replicate 32 0))
        (envelope crc32cReference testFormat [7]))).Reachable s ∧
    s.caller = some (.ret (.ok (some ⟨1⟩))) ∧ takenBytes s.desk.writes = [7] ∧
    (streamingLoad crc32cReference ⟨testFormat, 16, 1, by decide, by decide⟩ Faultless
      interruptedWriter.rule False .tokio (Vector.replicate 32 0) (oneFile (blobFilename testFormat (Vector.replicate 32 0))
        (envelope crc32cReference testFormat [7]))).Reachable s' ∧
    s'.caller = some (.ret (.error (.outputIo ⟨.interrupted, 4⟩))) ∧
    takenBytes s'.desk.writes = [] := by
  let config : StoreConfig := ⟨testFormat, 16, 1, by decide, by decide⟩
  let key : KeyHash := Vector.replicate 32 0
  let disk := oneFile (blobFilename testFormat key) (envelope crc32cReference testFormat [7])
  have hle : ([7] : List UInt8).length ≤ 16 := by decide
  have hstores : Stores crc32cReference config key disk [7] := ⟨hle, entry_oneFile _ _⟩
  have hchunks : streamChunks [7] = [[7]] := by
    rw [streamChunks_of_ne (List.cons_ne_nil _ _)]
    show [7] :: streamChunks [] = [[7]]
    rw [streamChunks_nil]
  have hverdict : LoadVerdict crc32cReference config key disk [[7]] (.ok (some ⟨1⟩)) := by
    have hstored := LoadVerdict.stored hstores
    rwa [hchunks] at hstored
  have hne : ([7] : List UInt8) ≠ [] := List.cons_ne_nil _ _
  have hagain : Copies true interruptedWriter.rule [] [] [[7]]
      [([7], .error ⟨.interrupted, 4⟩), ([7], .ok 1)] none :=
    .next (.again hne (by decide) rfl (.took hne Nat.one_pos (Nat.le_refl 1) rfl .finished))
  have hfailed : Copies false interruptedWriter.rule [] [] [[7]]
      [([7], .error ⟨.interrupted, 4⟩)] (some ⟨.interrupted, 4⟩) :=
    .next (.failed hne (by decide) rfl)
  obtain ⟨s, hs, hret, hwrites⟩ := streamingLoad_returns crc32cReference config Faultless
    interruptedWriter.rule False key .blocking hverdict hagain
  obtain ⟨s', hs', hret', hwrites'⟩ := streamingLoad_returns crc32cReference config Faultless
    interruptedWriter.rule False key .tokio hverdict hfailed
  refine ⟨lawful_interruptedWriter, s, s', hs, hret, ?_, hs', hret', ?_⟩
  · rw [hwrites]
    rfl
  · rw [hwrites']
    rfl

end AtomicBlobStore
