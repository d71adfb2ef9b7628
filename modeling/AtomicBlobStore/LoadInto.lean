/-
  `load_into`, alone: what it does with whatever it is answered.

  The writer may answer anything that its rule allows, and the worker may send any chunks.  `LoadLog`
  is what the call has done so far, and `Serving` says which answers it may get.

  1. **Copying** (`Copies`) is what `write_all` does, chunk after chunk: what the writer was offered,
     what it answered, and how it ended.  What the writer took is a start of what was to be copied, and
     all of it exactly if the copying ended well (`Copies.bytes`).  Over a writer that decides, it has
     one course (`Copies.unique`), and a writer that is never interrupted cannot tell the two facades
     apart (`Copies.calm`).

  2. **The call copies what it receives** (`holds_loadInto`).  The invariant of the loops is turned
     around: whatever copying is possible from here on was possible from the start (`Copying`).

  3. **It comes to its end** where copying does (`returns_loadInto`).

  Why the invariant is turned around: the loops handle one chunk after another and know nothing of
  those to come, while `Copies` is about all of them.  Going forwards one would need a notion of
  copying half of a list.  Said backwards, "whatever is still possible was possible from the start" is
  kept by each turn with nothing to unfold.
-/
import AtomicBlobStore.Facade

namespace AtomicBlobStore

/-! ## Copying

  A writer may take less than it is offered, so one chunk can need many calls.  `Copies` is what was
  asked of it and what it answered, from the first chunk to the last answer, with no program in it. -/

/-- How a writer was called: what it was offered, and what it answered. -/
abbrev Writes := List (List UInt8 × Except IoError Nat)

/-- What a writer may answer after what it has answered. -/
abbrev WriteRule := Writes → List UInt8 → Except IoError Nat → Prop

/-- The bytes that a writer took. -/
def takenBytes (writes : Writes) : List UInt8 := writes.flatMap fun
  | (offered, .ok count) => offered.take count
  | (_, .error _) => []

/-- What a call took comes behind what was taken before. -/
theorem takenBytes_concat_ok (writes : Writes) (offered : List UInt8) (count : Nat) :
    takenBytes (writes ++ [(offered, .ok count)]) = takenBytes writes ++ offered.take count := by
  rw [takenBytes, List.flatMap_append, List.flatMap_singleton]
  rfl

/-- A call that failed took nothing. -/
theorem takenBytes_concat_error (writes : Writes) (offered : List UInt8) (source : IoError) :
    takenBytes (writes ++ [(offered, .error source)]) = takenBytes writes := by
  rw [takenBytes, List.flatMap_append, List.flatMap_singleton]
  exact List.append_nil _

/-- Whether `write_all` of the facade tries an interrupted write again. -/
def Facade.retries : Facade → Bool
  | .blocking => true
  | .tokio => false

theorem Facade.loadInto_eq (facade : Facade) :
    facade.loadInto = AtomicBlobStore.loadInto facade.retries := by
  cases facade
  · rfl
  · rfl

/-- An interrupted write is tried again. -/
def TriesAgain (retries : Bool) (source : IoError) : Prop :=
  (retries && source.kind == .interrupted) = true

instance (retries : Bool) (source : IoError) : Decidable (TriesAgain retries source) :=
  inferInstanceAs (Decidable (_ = true))

/-- **Copying**: a writer that was called `before` is given what is left of a chunk and then the chunks
    to come.  In the end it has been called `after`, and the copying went well or stopped with an
    error. -/
inductive Copies (retries : Bool) (writer : WriteRule) :
    Writes → List UInt8 → List (List UInt8) → Writes → Option IoError → Prop
  /-- Nothing is left. -/
  | finished {before : Writes} : Copies retries writer before [] [] before none
  /-- Nothing is left of a chunk, and the next one is taken up. -/
  | next {before after : Writes} {chunk : List UInt8} {chunks : List (List UInt8)}
      {outcome : Option IoError} (h : Copies retries writer before chunk chunks after outcome) :
      Copies retries writer before [] (chunk :: chunks) after outcome
  /-- The writer takes some of what it is offered. -/
  | took {before after : Writes} {left : List UInt8} {chunks : List (List UInt8)}
      {outcome : Option IoError} {count : Nat} (hne : left ≠ []) (hcount : 0 < count)
      (hle : count ≤ left.length) (hrule : writer before left (.ok count))
      (h : Copies retries writer (before ++ [(left, .ok count)]) (left.drop count) chunks after
        outcome) : Copies retries writer before left chunks after outcome
  /-- It is interrupted, and asked again. -/
  | again {before after : Writes} {left : List UInt8} {chunks : List (List UInt8)}
      {outcome : Option IoError} {source : IoError} (hne : left ≠ []) (hagain : TriesAgain retries source)
      (hrule : writer before left (.error source))
      (h : Copies retries writer (before ++ [(left, .error source)]) left chunks after outcome) :
      Copies retries writer before left chunks after outcome
  /-- It takes nothing: it is full. -/
  | full {before : Writes} {left : List UInt8} {chunks : List (List UInt8)} (hne : left ≠ [])
      (hrule : writer before left (.ok 0)) :
      Copies retries writer before left chunks (before ++ [(left, .ok 0)]) (some writeZero)
  /-- It fails. -/
  | failed {before : Writes} {left : List UInt8} {chunks : List (List UInt8)} {source : IoError}
      (hne : left ≠ []) (hlast : ¬TriesAgain retries source)
      (hrule : writer before left (.error source)) :
      Copies retries writer before left chunks (before ++ [(left, .error source)]) (some source)

/-- The error that ends a `write_all`, if the last answer of a writer is one. -/
def writeFailure (retries : Bool) (writes : Writes) : Option IoError :=
  match writes.getLast? with
  | some (_, .ok 0) => some writeZero
  | some (_, .error source) => if TriesAgain retries source then none else some source
  | _ => none

section Copying

variable {retries : Bool} {writer : WriteRule} {before after writes : Writes} {left : List UInt8}
  {chunks : List (List UInt8)} {outcome : Option IoError}

/-- The calls so far are not undone. -/
theorem Copies.extends (h : Copies retries writer before left chunks after outcome) :
    before <+: after := by
  induction h with
  | finished => exact List.prefix_refl _
  | next _ ih => exact ih
  | took _ _ _ _ _ ih => exact (List.prefix_append _ _).trans ih
  | again _ _ _ _ ih => exact (List.prefix_append _ _).trans ih
  | full => exact List.prefix_append _ _
  | failed => exact List.prefix_append _ _

/-- **What the writer took** is a start of what was to be copied, and all of it if that went well. -/
theorem Copies.bytes (h : Copies retries writer before left chunks after outcome) :
    ∃ more rest, takenBytes after = takenBytes before ++ more ∧
      left ++ chunks.flatten = more ++ rest ∧ (outcome = none → rest = []) := by
  induction h with
  | finished => exact ⟨[], [], (List.append_nil _).symm, rfl, fun _ => rfl⟩
  | next _ ih => exact ih
  | @took before after left chunks outcome count _ _ _ _ _ ih =>
    obtain ⟨more, rest, htaken, hsplit, hrest⟩ := ih
    refine ⟨left.take count ++ more, rest, ?_, ?_, hrest⟩
    · rw [htaken, takenBytes_concat_ok, List.append_assoc]
    · rw [List.append_assoc, ← hsplit, ← List.append_assoc, List.take_append_drop]
  | again _ _ _ _ ih =>
    rw [takenBytes_concat_error] at ih
    exact ih
  | full =>
    refine ⟨[], _, ?_, rfl, nofun⟩
    rw [takenBytes_concat_ok, List.take_zero]
  | failed =>
    refine ⟨[], _, ?_, rfl, nofun⟩
    rw [takenBytes_concat_error, List.append_nil]

/-- A call that took something is no failure, -/
theorem writeFailure_concat_ok {offered : List UInt8} {count : Nat} (h : 0 < count) :
    writeFailure retries (writes ++ [(offered, .ok count)]) = none := by
  obtain ⟨n, rfl⟩ := Nat.exists_eq_succ_of_ne_zero (Nat.ne_of_gt h)
  rw [writeFailure, List.getLast?_concat]
  rfl

/-- and one that failed is. -/
theorem writeFailure_concat_error {offered : List UInt8} {source : IoError} :
    writeFailure retries (writes ++ [(offered, .error source)]) =
      if TriesAgain retries source then none else some source := by
  rw [writeFailure, List.getLast?_concat]

/-- The copying ends with the last answer of the writer. -/
theorem Copies.outcome_eq (h : Copies retries writer before left chunks after outcome)
    (hgoing : writeFailure retries before = none) : outcome = writeFailure retries after := by
  induction h with
  | finished => exact hgoing.symm
  | next _ ih => exact ih hgoing
  | took _ hcount _ _ _ ih => exact ih (writeFailure_concat_ok hcount)
  | again _ hagain _ _ ih => exact ih (writeFailure_concat_error.trans (if_pos hagain))
  | full =>
    rw [writeFailure, List.getLast?_concat]
    rfl
  | failed _ hlast _ => exact (writeFailure_concat_error.trans (if_neg hlast)).symm

/-- Chunks that come after an error make no difference. -/
theorem Copies.more {source : IoError}
    (h : Copies retries writer before left chunks after (some source)) (more : List (List UInt8)) :
    Copies retries writer before left (chunks ++ more) after (some source) := by
  generalize houtcome : some source = outcome at h
  induction h with
  | finished => nomatch houtcome
  | next _ ih => exact .next (ih houtcome)
  | took hne hcount hle hrule _ ih => exact .took hne hcount hle hrule (ih houtcome)
  | again hne hagain hrule _ ih => exact .again hne hagain hrule (ih houtcome)
  | full hne hrule => exact .full hne hrule
  | failed hne hlast hrule => exact .failed hne hlast hrule

/-- A writer decides: it has one answer to each call. -/
def Decisive (writer : WriteRule) : Prop :=
  ∀ writes offered r r', writer writes offered r → writer writes offered r' → r = r'

/-- **A writer that decides is called in one way.** -/
theorem Copies.unique (hdecides : Decisive writer)
    (h : Copies retries writer before left chunks after outcome) {after' : Writes}
    {outcome' : Option IoError} (h' : Copies retries writer before left chunks after' outcome') :
    after' = after ∧ outcome' = outcome := by
  induction h with
  | finished =>
    cases h' with
    | finished => exact ⟨rfl, rfl⟩
    | took hne | again hne | full hne | failed hne => exact absurd rfl hne
  | next _ ih =>
    -- a chunk that is written out leaves only the next one
    cases h' with
    | next h' => exact ih h'
    | took hne | again hne | full hne | failed hne => exact absurd rfl hne
  | took hne hcount _ hrule _ ih =>
    -- the writer decides: both copies got the same answer to the same slice
    cases h' with
    | finished => exact absurd rfl hne
    | next => exact absurd rfl hne
    | took _ _ _ hrule' h' =>
      cases hdecides _ _ _ _ hrule hrule'
      exact ih h'
    | again _ _ hrule' => nomatch hdecides _ _ _ _ hrule hrule'
    | full _ hrule' =>
      cases hdecides _ _ _ _ hrule hrule'
      exact absurd hcount (Nat.lt_irrefl 0)
    | failed _ _ hrule' => nomatch hdecides _ _ _ _ hrule hrule'
  | again hne hagain hrule _ ih =>
    cases h' with
    | finished => exact absurd rfl hne
    | next => exact absurd rfl hne
    | took _ _ _ hrule' => nomatch hdecides _ _ _ _ hrule hrule'
    | again _ _ hrule' h' =>
      cases hdecides _ _ _ _ hrule hrule'
      exact ih h'
    | full _ hrule' => nomatch hdecides _ _ _ _ hrule hrule'
    | failed _ hlast hrule' =>
      cases hdecides _ _ _ _ hrule hrule'
      exact absurd hagain hlast
  | full hne hrule =>
    cases h' with
    | finished => exact absurd rfl hne
    | next => exact absurd rfl hne
    | took _ hcount _ hrule' =>
      cases hdecides _ _ _ _ hrule hrule'
      exact absurd hcount (Nat.lt_irrefl 0)
    | again _ _ hrule' => nomatch hdecides _ _ _ _ hrule hrule'
    | full => exact ⟨rfl, rfl⟩
    | failed _ _ hrule' => nomatch hdecides _ _ _ _ hrule hrule'
  | failed hne hlast hrule =>
    cases h' with
    | finished => exact absurd rfl hne
    | next => exact absurd rfl hne
    | took _ _ _ hrule' => nomatch hdecides _ _ _ _ hrule hrule'
    | again _ hagain hrule' =>
      cases hdecides _ _ _ _ hrule hrule'
      exact absurd hagain hlast
    | full _ hrule' => nomatch hdecides _ _ _ _ hrule hrule'
    | failed _ _ hrule' =>
      cases hdecides _ _ _ _ hrule hrule'
      exact ⟨rfl, rfl⟩

/-- One of the answers was that the writer was interrupted. -/
def WriteInterrupted (writes : Writes) : Prop :=
  ∃ offered source, (offered, .error source) ∈ writes ∧ source.kind = .interrupted

/-- Other errors end the copying in either facade. -/
theorem not_triesAgain {source : IoError} (h : source.kind ≠ .interrupted) :
    ¬TriesAgain retries source := by
  intro hagain
  obtain ⟨-, hkind⟩ := (Bool.and_eq_true _ _).mp hagain
  exact h (eq_of_beq hkind)

/-- **Without interruptions it does not matter whether they are tried again.** -/
theorem Copies.calm (h : Copies retries writer before left chunks after outcome)
    (hcalm : ¬WriteInterrupted after) (retries' : Bool) :
    Copies retries' writer before left chunks after outcome := by
  induction h with
  | finished => exact .finished
  | next _ ih => exact .next (ih hcalm)
  | took hne hcount hle hrule _ ih => exact .took hne hcount hle hrule (ih hcalm)
  | @again before after left chunks outcome source hne hagain hrule h ih =>
    have hmem : (left, .error source) ∈ after :=
      h.extends.subset (List.mem_append_right _ (List.mem_singleton_self _))
    exact absurd hagain (not_triesAgain fun hkind => hcalm ⟨_, _, hmem, hkind⟩)
  | full hne hrule => exact .full hne hrule
  | failed hne _ hrule =>
    exact .failed hne (not_triesAgain fun hkind =>
      hcalm ⟨_, _, List.mem_append_right _ (List.mem_singleton_self _), hkind⟩) hrule

/-- Where interruptions are tried again, the copying does not end with one. -/
theorem Copies.ends (h : Copies true writer before left chunks after outcome) {source : IoError}
    (houtcome : outcome = some source) : source.kind ≠ .interrupted := by
  induction h with
  | finished => nomatch houtcome
  | next _ ih => exact ih houtcome
  | took _ _ _ _ _ ih => exact ih houtcome
  | again _ _ _ _ ih => exact ih houtcome
  | full =>
    obtain rfl := Option.some.inj houtcome
    nofun
  | failed _ hlast _ =>
    obtain rfl := Option.some.inj houtcome
    exact fun hkind => hlast ((Bool.true_and _).trans (beq_iff_eq.mpr hkind))

/-- Where they are not, it ends with the first. -/
theorem Copies.stops (h : Copies false writer before left chunks after outcome)
    (hbefore : ¬WriteInterrupted before) (hafter : WriteInterrupted after) :
    ∃ source, outcome = some source ∧ source.kind = .interrupted := by
  -- one more answer, which is no interruption
  have hmore {writes : Writes} {answer : List UInt8 × Except IoError Nat}
      (hnot : ¬WriteInterrupted writes) (hlast : ¬WriteInterrupted [answer]) :
      ¬WriteInterrupted (writes ++ [answer]) := by
    rintro ⟨offered, source, hmem, hkind⟩
    exact (List.mem_append.mp hmem).elim (fun h => hnot ⟨_, _, h, hkind⟩)
      fun h => hlast ⟨_, _, h, hkind⟩
  have htaken {offered : List UInt8} {count : Nat} : ¬WriteInterrupted [(offered, .ok count)] := by
    rintro ⟨offered, source, hmem, -⟩
    nomatch List.mem_singleton.mp hmem
  induction h with
  | finished => exact absurd hafter hbefore
  | next _ ih => exact ih hbefore hafter
  | took _ _ _ _ _ ih => exact ih (hmore hbefore htaken) hafter
  | again _ hagain => nomatch hagain
  | full => exact absurd hafter (hmore hbefore htaken)
  | @failed before left chunks source _ _ _ =>
    refine ⟨source, rfl, by_contra fun hkind => ?_⟩
    refine absurd hafter (hmore hbefore ?_)
    rintro ⟨offered, source', hmem, hkind'⟩
    cases List.mem_singleton.mp hmem
    exact hkind hkind'

end Copying

/-! ## What was done so far

  As for a save, the log is what an observer of the call's channels would know, and the programs do
  not see it. -/

/-- What `load_into` returns. -/
abbrev LoadResult := Except AtomicBlobStoreError (Option BlobMetadata)

/-- What `load_into` has done: whether a load was submitted, which chunks it took and whether it saw
    their end, how it called the writer, whether it let go of the channels, whether it acknowledged,
    and the result that it was given. -/
structure LoadLog where
  /-- A load was submitted. -/
  submitted : Bool
  /-- The chunks that were taken. -/
  chunks : List (List UInt8)
  /-- Their end was seen. -/
  ended : Bool
  /-- How the writer was called. -/
  writes : Writes
  /-- The channels were dropped. -/
  dropped : Bool
  /-- The stream was acknowledged. -/
  acknowledged : Bool
  /-- The result that was given. -/
  heard : Option LoadResult

/-- The log before the call. -/
def LoadLog.start : LoadLog := ⟨false, [], false, [], false, false, none⟩

/-- The calls of `load_into`, without the parties that answer them.  Any of the answers may come at
    any time, whatever was answered before. -/
def Serving (writer : WriteRule) (fails : Prop) : Environment LoadInterface LoadLog
  | .ensureOpen, log, r, log' => log' = log ∧ ∀ e, r = .error e → fails
  | .submit, log, r, log' => match r with
    | .ok () => log' = { log with submitted := true }
    | .error _ => log' = log ∧ fails
  | .recv, log, r, log' => match r with
    | some chunk => log' = { log with chunks := log.chunks ++ [chunk] }
    | none => log' = { log with ended := true }
  | .write bytes, log, r, log' => writer log.writes bytes r ∧
      (∀ count, r = .ok count → count ≤ bytes.length) ∧
      log' = { log with writes := log.writes ++ [(bytes, r)] }
  | .dropEndpoints, log, _, log' => log' = { log with dropped := true }
  | .acknowledge, log, _, log' => log' = { log with acknowledged := true }
  | .wait, log, r, log' => log' = { log with heard := some r }

section Caller

variable (retries : Bool) (writer : WriteRule) (fails : Prop)

/-- What holds wherever the caller is stopped: the writer took a start of what was received, and all
    of it if that is acknowledged. -/
structure Written (log : LoadLog) : Prop where
  /-- The writer took a start of what was received, -/
  taken : takenBytes log.writes <+: log.chunks.flatten
  /-- and all of it if that was acknowledged. -/
  acknowledged : log.acknowledged = true →
    log.ended = true ∧ takenBytes log.writes = log.chunks.flatten
  /-- It was not called before anything was received. -/
  idle : log.chunks = [] → log.writes = []

/-- Which result `load_into` returns, and after which writes.  In each case it is also said what was
    done before. -/
inductive LoadReturns : LoadResult → LoadLog → Prop
  /-- Everything was written and acknowledged, and the worker answered. -/
  | answered {r : LoadResult} {log : LoadLog} (hended : log.ended = true)
      (hheld : log.dropped = false) (hacknowledged : log.acknowledged = true)
      (hcopies : Copies retries writer [] [] log.chunks log.writes none)
      (hheard : log.heard = some r) : LoadReturns r log
  /-- The writer failed: the channels were dropped, and nothing was acknowledged. -/
  | outputFailed {source : IoError} {log : LoadLog} (hdropped : log.dropped = true)
      (hsilent : log.acknowledged = false)
      (hcopies : Copies retries writer [] [] log.chunks log.writes (some source)) :
      LoadReturns (.error (.outputIo source)) log
  /-- Nothing was ever received. -/
  | notStarted {e : AtomicBlobStoreError} {log : LoadLog} (h : fails) (hchunks : log.chunks = [])
      (hwrites : log.writes = []) : LoadReturns (.error e) log

/-- The writer was called so, and this is left of the last chunk: whatever copying can become of that
    can become of the whole. -/
structure Copying (chunks : List (List UInt8)) (writes : Writes) (left : List UInt8) : Prop where
  /-- What was taken and what is left are the chunks. -/
  bytes : takenBytes writes ++ left = chunks.flatten
  /-- Nothing is done before the first chunk. -/
  idle : chunks = [] → writes = [] ∧ left = []
  /-- However the copying goes on, it is one copying from the start. -/
  goes : ∀ rest after outcome, Copies retries writer writes left rest after outcome →
    Copies retries writer [] [] (chunks ++ rest) after outcome

end Caller

section Calls

variable {retries : Bool} {writer : WriteRule} {fails : Prop} {chunks : List (List UInt8)}
  {writes : Writes} {left : List UInt8}

/-- The log while chunks are copied. -/
def copyingLog (chunks : List (List UInt8)) (writes : Writes) : LoadLog :=
  ⟨true, chunks, false, writes, false, false, none⟩

/-- At first nothing is being copied. -/
theorem copying_start : Copying retries writer [] [] [] :=
  ⟨rfl, fun _ => ⟨rfl, rfl⟩, fun _ _ _ h => h⟩

/-- The next chunk comes when nothing is left of the last one. -/
theorem Copying.next (h : Copying retries writer chunks writes []) (chunk : List UInt8) :
    Copying retries writer (chunks ++ [chunk]) writes chunk where
  bytes := by
    have hbytes := h.bytes
    rw [List.append_nil] at hbytes
    rw [hbytes, List.flatten_append, List.flatten_singleton]
  idle hnil := absurd hnil (List.append_ne_nil_of_right_ne_nil _ (List.cons_ne_nil _ _))
  goes rest after outcome hrest := by
    rw [List.append_assoc]
    exact h.goes _ _ _ (.next hrest)

/-- What the writer took is no longer left, -/
theorem Copying.took (h : Copying retries writer chunks writes left) (hne : left ≠ []) {count : Nat}
    (hcount : 0 < count) (hle : count ≤ left.length) (hrule : writer writes left (.ok count)) :
    Copying retries writer chunks (writes ++ [(left, .ok count)]) (left.drop count) where
  bytes := by
    rw [takenBytes_concat_ok, List.append_assoc, List.take_append_drop]
    exact h.bytes
  idle hnil := absurd (h.idle hnil).2 hne
  goes rest after outcome hrest := h.goes _ _ _ (.took hne hcount hle hrule hrest)

/-- and an interruption that is tried again leaves everything. -/
theorem Copying.again (h : Copying retries writer chunks writes left) (hne : left ≠ [])
    {source : IoError} (hagain : TriesAgain retries source)
    (hrule : writer writes left (.error source)) :
    Copying retries writer chunks (writes ++ [(left, .error source)]) left where
  bytes := by
    rw [takenBytes_concat_error]
    exact h.bytes
  idle hnil := absurd (h.idle hnil).2 hne
  goes rest after outcome hrest := h.goes _ _ _ (.again hne hagain hrule hrest)

/-- The copying so far has ended with an error. -/
theorem Copying.ends (h : Copying retries writer chunks writes left) {after : Writes}
    {outcome : Option IoError} (hcopies : Copies retries writer writes left [] after outcome) :
    Copies retries writer [] [] chunks after outcome := by
  have hall := h.goes [] after outcome hcopies
  rwa [List.append_nil] at hall

/-- Wherever the copying is, and whatever follows it. -/
theorem Copying.written (h : Copying retries writer chunks writes left) (dropped : Bool)
    (heard : Option LoadResult) : Written ⟨true, chunks, false, writes, dropped, false, heard⟩ :=
  ⟨⟨left, h.bytes⟩, nofun, fun hnil => (h.idle hnil).1⟩

/-- The same after copying has ended with an error. -/
theorem Copies.written {source : IoError}
    (h : Copies retries writer [] [] chunks writes (some source)) (dropped : Bool)
    (heard : Option LoadResult) : Written ⟨true, chunks, false, writes, dropped, false, heard⟩ := by
  obtain ⟨more, rest, htaken, hsplit, -⟩ := h.bytes
  refine ⟨⟨rest, ?_⟩, nofun, fun hnil => ?_⟩
  · show takenBytes writes ++ rest = chunks.flatten
    rw [htaken]
    exact hsplit.symm
  · obtain rfl : chunks = [] := hnil
    cases h with
    | took hne | again hne | full hne | failed hne => exact absurd rfl hne

/-- The head of a turn of `write_all`. -/
def AtLeft (retries : Bool) (writer : WriteRule) (chunks : List (List UInt8)) (left : List UInt8)
    (log : LoadLog) : Prop :=
  ∃ writes, log = copyingLog chunks writes ∧ Copying retries writer chunks writes left

/-- How `write_all` ends. -/
def AfterChunk (retries : Bool) (writer : WriteRule) (chunks : List (List UInt8)) :
    Except IoError Unit → LoadLog → Prop
  | .ok (), log => AtLeft retries writer chunks [] log
  | .error source, log => ∃ writes, log = copyingLog chunks writes ∧
      Copies retries writer [] [] chunks writes (some source)

/-- One turn of `write_all`. -/
theorem holds_writeAllTurn {E : LoadResult → LoadLog → Prop}
    (h : Copying retries writer chunks writes left) :
    HoldsE (Serving writer fails) (writeAllTurn retries left)
      (fun next log => next.elim (fun left => AtLeft retries writer chunks left log)
        fun r => AfterChunk retries writer chunks r log) E Written (copyingLog chunks writes) := by
  have hnow := h.written false none
  cases left with
  | nil => exact holds_ret hnow ⟨writes, rfl, h⟩
  | cons byte bytes =>
    have hne : byte :: bytes ≠ [] := List.cons_ne_nil byte bytes
    refine holds_call (I := LoadInterface) (c := .write (byte :: bytes)) hnow fun r log' henv => ?_
    obtain ⟨hrule, hlen, rfl⟩ := henv
    rcases r with source | _ | count
    · show HoldsE _ (if TriesAgain retries source then _ else _) _ _ _ _
      split
      · rename_i hagain
        have hcopied := h.again hne hagain hrule
        exact holds_ret (hcopied.written false none) ⟨_, rfl, hcopied⟩
      · rename_i hlast
        have hcopies := h.ends (.failed hne hlast hrule)
        exact holds_ret (hcopies.written false none) ⟨_, rfl, hcopies⟩
    · have hcopies := h.ends (.full hne hrule)
      exact holds_ret (hcopies.written false none) ⟨_, rfl, hcopies⟩
    · have hcopied := h.took hne (Nat.succ_pos count) (hlen _ rfl) hrule
      exact holds_ret (hcopied.written false none) ⟨_, rfl, hcopied⟩

/-- `write_all`. -/
theorem holds_writeAll {E : LoadResult → LoadLog → Prop}
    (h : Copying retries writer chunks writes left) :
    HoldsE (Serving writer fails) (writeAll retries left)
      (AfterChunk retries writer chunks) E Written (copyingLog chunks writes) := by
  refine holdsE_iterate (AtLeft retries writer chunks) ⟨writes, rfl, h⟩ ?_ ?_
  · rintro left log ⟨writes, rfl, h⟩
    exact h.written false none
  · rintro left log ⟨writes, rfl, h⟩
    exact holds_writeAllTurn h

/-- The head of a turn of `load_into`. -/
def BetweenChunks (retries : Bool) (writer : WriteRule) (log : LoadLog) : Prop :=
  ∃ chunks writes, log = copyingLog chunks writes ∧ Copying retries writer chunks writes []

/-- The loop of `load_into` has seen the end of the chunks. -/
def AllCopied (retries : Bool) (writer : WriteRule) (log : LoadLog) : Prop :=
  ∃ chunks writes, log = { copyingLog chunks writes with ended := true } ∧
    Copies retries writer [] [] chunks writes none ∧ Written log

/-- One turn of the loop of `load_into`. -/
theorem holds_loadIntoTurn (h : Copying retries writer chunks writes []) :
    HoldsE (Serving writer fails) (loadIntoTurn retries ())
      (fun next log => next.elim (fun _ => BetweenChunks retries writer log)
        fun _ => AllCopied retries writer log)
      (LoadReturns retries writer fails) Written (copyingLog chunks writes) := by
  refine holds_call (I := LoadInterface) (c := .recv) (h.written false none) fun r log' henv => ?_
  cases r with
  | none =>
    obtain rfl : log' = _ := henv
    have hwritten : Written { copyingLog chunks writes with ended := true } :=
      ⟨(h.written false none).taken, nofun, (h.written false none).idle⟩
    exact holds_ret hwritten ⟨chunks, writes, rfl, h.ends .finished, hwritten⟩
  | some chunk =>
    obtain rfl : log' = copyingLog (chunks ++ [chunk]) writes := henv
    refine holdsE_bind ((holds_writeAll (h.next chunk)).mono (fun r log _ hr => ?_)
      (fun _ _ _ he => he) fun _ hc => hc)
    cases r with
    | ok u =>
      obtain ⟨writes', rfl, hcopied⟩ := hr
      exact holds_ret (hcopied.written false none) ⟨_, writes', rfl, hcopied⟩
    | error source =>
      obtain ⟨writes', rfl, hcopies⟩ := hr
      refine holds_call (I := LoadInterface) (c := .dropEndpoints) (hcopies.written false none)
        fun _ log' henv => ?_
      obtain rfl : log' = _ := henv
      refine holds_call (I := LoadInterface) (c := .wait) (hcopies.written true none)
        fun r log' henv => ?_
      obtain rfl : log' = _ := henv
      exact holds_ret (hcopies.written true (some r)) (.outputFailed rfl rfl hcopies)

/-- What a function throws, it returns. -/
theorem holds_loaded {W α : Type} {env : Environment LoadInterface W} {p : ProgE LoadInterface α α}
    {Q : α → W → Prop} {C : W → Prop} {w : W} (h : HoldsE env p Q Q C w) :
    Holds env (LoadM.returned p) Q C w := by
  refine holds_bind (Holds.mono h (fun r w hc hr => ?_) fun _ hc => hc)
  cases r with
  | ok a => exact holds_ret hc hr
  | error a => exact holds_ret hc hr

/-- **The caller alone**: whatever it is answered, and wherever it is stopped. -/
theorem holds_loadInto (facade : Facade) :
    Holds (Serving writer fails) facade.loadInto (LoadReturns facade.retries writer fails) Written
      LoadLog.start := by
  rw [facade.loadInto_eq]
  generalize facade.retries = retries
  have hstart : Written .start := ⟨List.prefix_refl _, nofun, fun _ => rfl⟩
  refine holds_loaded (holdsE_bind ?_)
  refine holds_call (I := LoadInterface) (c := .ensureOpen) hstart fun r log' henv => ?_
  obtain ⟨rfl, hfails⟩ := henv
  cases r with
  | error e => exact holds_ret hstart (.notStarted (hfails e rfl) rfl rfl)
  | ok u =>
    refine holds_call (I := LoadInterface) (c := .submit) hstart fun r log' henv => ?_
    cases r with
    | error e =>
      obtain ⟨rfl, hfails⟩ := henv
      exact holds_ret hstart (.notStarted hfails rfl rfl)
    | ok u =>
      obtain rfl : log' = copyingLog [] [] := henv
      have hfirst : Copying retries writer [] [] [] := copying_start
      refine holds_ret (hfirst.written false none) (holdsE_bind ?_)
      refine holdsE_iterate (fun _ => BetweenChunks retries writer) ⟨[], [], rfl, hfirst⟩ ?_ ?_
      · rintro _ log ⟨chunks, writes, rfl, h⟩
        exact h.written false none
      · rintro _ log ⟨chunks, writes, rfl, h⟩
        refine (holds_loadIntoTurn h).mono (fun next log _ hnext => ?_) (fun _ _ _ he => he)
          fun _ hc => hc
        cases next with
        | inl u => exact hnext
        | inr u =>
          obtain ⟨chunks, writes, rfl, hcopies, hwritten⟩ := hnext
          obtain ⟨more, rest, htaken, hsplit, hall⟩ := hcopies.bytes
          have hdone : takenBytes writes = chunks.flatten := by
            rw [htaken]
            have hsplit : chunks.flatten = more ++ rest := hsplit
            rw [hsplit, hall rfl, List.append_nil]
            rfl
          have hafter : ∀ heard, Written ⟨true, chunks, true, writes, false, true, heard⟩ :=
            fun heard => ⟨hwritten.taken, fun _ => ⟨rfl, hdone⟩, hwritten.idle⟩
          refine holds_call (I := LoadInterface) (c := .acknowledge) hwritten fun _ log' henv => ?_
          obtain rfl : log' = _ := henv
          refine holds_call (I := LoadInterface) (c := .wait) (hafter none) fun r log' henv => ?_
          obtain rfl : log' = _ := henv
          exact holds_ret (hafter (some r)) (.answered rfl rfl rfl hcopies rfl)

end Calls

/-! ## A caller that nothing disturbs

  The chunks are given as a list, as a worker that validated the file would send them.  The caller
  copies them one by one, and what it returns is decided by how the copying ends. -/

/-- The chunks come as they are listed.  If it is to be a `success`, the caller sees their end and
    acknowledges it before the reply comes; else it lets go of the channels with `back` still to come. -/
def Attended (writer : WriteRule) (reply : LoadResult) (success : Bool) (back : List (List UInt8)) :
    Environment LoadInterface (LoadLog × List (List UInt8))
  | .ensureOpen, v, r, v' => r = .ok () ∧ v' = v
  | .submit, v, r, v' => r = .ok () ∧ v' = ({ v.1 with submitted := true }, v.2)
  | .recv, v, r, v' => v.1.submitted = true ∧ v.1.dropped = false ∧ v.1.heard = none ∧ match v.2 with
    | chunk :: due => r = some chunk ∧ v' = ({ v.1 with chunks := v.1.chunks ++ [chunk] }, due)
    | [] => success = true ∧ r = none ∧ v' = ({ v.1 with ended := true }, [])
  | .write bytes, v, r, v' => writer v.1.writes bytes r ∧
      (∀ count, r = .ok count → count ≤ bytes.length) ∧
      v' = ({ v.1 with writes := v.1.writes ++ [(bytes, r)] }, v.2)
  | .dropEndpoints, v, _, v' => success = false ∧ v.2 = back ∧ v.1.heard = none ∧
      v.1.submitted = true ∧ v' = ({ v.1 with dropped := true }, v.2)
  | .acknowledge, v, _, v' => success = true ∧ v.1.ended = true ∧ v.1.dropped = false ∧
      v.1.acknowledged = false ∧ v.1.heard = none ∧ v' = ({ v.1 with acknowledged := true }, v.2)
  | .wait, v, r, v' => r = reply ∧ v.1.heard = none ∧
      (success = true ∧ v.1.acknowledged = true ∨ success = false ∧ v.1.dropped = true) ∧
      v' = ({ v.1 with heard := some r }, v.2)

section Returning

variable {retries : Bool} {writer : WriteRule} (reply : LoadResult) {chunks due : List (List UInt8)}
  {before after : Writes} {left : List UInt8} {outcome : Option IoError}

/-- What a turn of `write_all` makes of an answer. -/
def afterWrite (retries : Bool) (left : List UInt8) :
    Except IoError Nat → List UInt8 ⊕ Except IoError Unit
  | .ok 0 => .inr (.error writeZero)
  | .ok count => .inl (left.drop count)
  | .error source => if TriesAgain retries source then .inl left else .inr (.error source)

variable (retries chunks) in
/-- A turn of `write_all` returns. -/
theorem returns_writeAllTurn (hne : left ≠ []) {r : Except IoError Nat} (hrule : writer before left r)
    (hlen : ∀ count, r = .ok count → count ≤ left.length) (due : List (List UInt8))
    (success : Bool) (back : List (List UInt8)) :
    Returns (Attended writer reply success back) (writeAllTurn retries left).run
      (copyingLog chunks before, due) (.ok (afterWrite retries left r))
      (copyingLog chunks (before ++ [(left, r)]), due) := by
  obtain ⟨byte, bytes, rfl⟩ := List.exists_cons_of_ne_nil hne
  have hwrite : Attended writer reply success back (.write (byte :: bytes))
      (copyingLog chunks before, due) r
      (copyingLog chunks (before ++ [(byte :: bytes, r)]), due) := ⟨hrule, hlen, rfl⟩
  refine Returns.call hwrite ?_
  rcases r with source | _ | count
  · show Returns _ (ExceptT.run (if TriesAgain retries source then _ else _)) _
      (.ok (if TriesAgain retries source then _ else _)) _
    split
    · exact returns_ret
    · exact returns_ret
  · exact returns_ret
  · exact returns_ret

variable (chunks) in
/-- `write_all` returns where copying goes on or ends, whatever becomes of the rest. -/
theorem returns_writeAll {rest : List (List UInt8)}
    (h : Copies retries writer before left rest after outcome) :
    (∃ middle, Copies retries writer middle [] rest after outcome ∧ ∀ due success back,
      Returns (Attended writer reply success back) (writeAll retries left).run
        (copyingLog chunks before, due) (.ok (.ok ())) (copyingLog chunks middle, due)) ∨
    ∃ source, outcome = some source ∧ ∀ due success back,
      Returns (Attended writer reply success back) (writeAll retries left).run
        (copyingLog chunks before, due) (.ok (.error source)) (copyingLog chunks after, due) := by
  induction h with
  | finished => exact Or.inl ⟨_, .finished, fun _ _ _ => returnsE_last returns_ret⟩
  | next h _ => exact Or.inl ⟨_, .next h, fun _ _ _ => returnsE_last returns_ret⟩
  | @took before after left rest outcome count hne hcount hle hrule _ ih =>
    obtain ⟨n, rfl⟩ := Nat.exists_eq_succ_of_ne_zero (Nat.ne_of_gt hcount)
    have hfirst := returns_writeAllTurn retries reply chunks hne hrule
      fun count h => Except.ok.inj h ▸ hle
    refine ih.imp ?_ ?_
    · rintro ⟨middle, hcopies, hrest⟩
      exact ⟨middle, hcopies, fun due success back =>
        returnsE_next (hfirst due success back) (hrest due success back)⟩
    · rintro ⟨source, hsource, hrest⟩
      exact ⟨source, hsource, fun due success back =>
        returnsE_next (hfirst due success back) (hrest due success back)⟩
  | again hne hagain hrule _ ih =>
    have hfirst := returns_writeAllTurn retries reply chunks hne hrule nofun
    rw [afterWrite, if_pos hagain] at hfirst
    refine ih.imp ?_ ?_
    · rintro ⟨middle, hcopies, hrest⟩
      exact ⟨middle, hcopies, fun due success back =>
        returnsE_next (hfirst due success back) (hrest due success back)⟩
    · rintro ⟨source, hsource, hrest⟩
      exact ⟨source, hsource, fun due success back =>
        returnsE_next (hfirst due success back) (hrest due success back)⟩
  | full hne hrule =>
    have hlast := returns_writeAllTurn retries reply chunks hne hrule
      fun count h => Except.ok.inj h ▸ Nat.zero_le _
    exact Or.inr ⟨_, rfl, fun due success back => returnsE_last (hlast due success back)⟩
  | failed hne hlast hrule =>
    have hturn := returns_writeAllTurn retries reply chunks hne hrule nofun
    rw [afterWrite, if_neg hlast] at hturn
    exact Or.inr ⟨_, rfl, fun due success back => returnsE_last (hturn due success back)⟩

/-- What the caller has done when its loop is over. -/
def LoopEnd (reply : LoadResult) (chunks due back : List (List UInt8)) (after : Writes) :
    Option IoError → Except LoadResult Unit → LoadLog → Prop
  | none, x, log => x = .ok () ∧ back = [] ∧
      log = { copyingLog (chunks ++ due) after with ended := true }
  | some source, x, log => x = .error (.error (.outputIo source)) ∧ ∃ front, due = front ++ back ∧
      log = ⟨true, chunks ++ front, false, after, true, false, some reply⟩

variable (chunks) in
/-- The loop returns: every turn copies a chunk. -/
theorem returns_loadIntoLoop (h : Copies retries writer before [] due after outcome) :
    ∃ x log back, LoopEnd reply chunks due back after outcome x log ∧
      Returns (Attended writer reply outcome.isNone back)
        (ProgE.iterate (loadIntoTurn retries) ()).run (copyingLog chunks before, due) x
        (log, back) := by
  induction due generalizing chunks before with
  | nil =>
    cases h with
    | finished =>
      have hrecv : Attended writer reply true [] .recv (copyingLog chunks after, []) none
          ({ copyingLog chunks after with ended := true }, []) := ⟨rfl, rfl, rfl, rfl, rfl, rfl⟩
      refine ⟨.ok (), _, [], ⟨rfl, rfl, rfl⟩, returnsE_last ?_⟩
      rw [List.append_nil]
      exact Returns.call hrecv returns_ret
    | took hne | again hne | full hne | failed hne => exact absurd rfl hne
  | cons chunk due ih =>
    cases h with
    | next h =>
      have hrecv (success : Bool) (back : List (List UInt8)) : Attended writer reply success back
          .recv (copyingLog chunks before, chunk :: due) (some chunk)
          (copyingLog (chunks ++ [chunk]) before, due) := ⟨rfl, rfl, rfl, rfl, rfl⟩
      rcases returns_writeAll reply (chunks ++ [chunk]) h with
        ⟨middle, hcopies, hwrite⟩ | ⟨source, rfl, hwrite⟩
      · obtain ⟨x, log, back, hend, hrest⟩ := ih (chunks ++ [chunk]) hcopies
        refine ⟨x, log, back, ?_, returnsE_next (Returns.call (hrecv _ _)
          (returnsE_bind (hwrite _ _ _) returns_ret)) hrest⟩
        cases outcome with
        | none =>
          obtain ⟨rfl, rfl, rfl⟩ := hend
          exact ⟨rfl, rfl, by rw [List.append_assoc]; rfl⟩
        | some source =>
          obtain ⟨rfl, front, rfl, rfl⟩ := hend
          exact ⟨rfl, chunk :: front, rfl, by rw [List.append_assoc]; rfl⟩
      · have hdrop : Attended writer reply false due .dropEndpoints
            (copyingLog (chunks ++ [chunk]) after, due) ()
            ({ copyingLog (chunks ++ [chunk]) after with dropped := true }, due) :=
          ⟨rfl, rfl, rfl, rfl, rfl⟩
        have hwait : Attended writer reply false due .wait
            ({ copyingLog (chunks ++ [chunk]) after with dropped := true }, due) reply
            (⟨true, chunks ++ [chunk], false, after, true, false, some reply⟩, due) :=
          ⟨rfl, rfl, Or.inr ⟨rfl, rfl⟩, rfl⟩
        refine ⟨_, _, due, ⟨rfl, [chunk], rfl, rfl⟩, returnsE_stop (Returns.call (hrecv _ _)
          (returnsE_bind (hwrite _ _ _) ?_))⟩
        exact Returns.call hdrop (Returns.call hwait returns_ret)
    | took hne | again hne | full hne | failed hne => exact absurd rfl hne

/-- What `load_into` returns, by how the copying ends. -/
def loadOutcome (reply : LoadResult) : Option IoError → LoadResult
  | none => reply
  | some source => .error (.outputIo source)

/-- **`load_into` returns** where copying ends, and nothing is in its way. -/
theorem returns_loadInto (facade : Facade)
    (h : Copies facade.retries writer [] [] due after outcome) : ∃ log back front,
    Returns (Attended writer reply outcome.isNone back) facade.loadInto (.start, due)
      (loadOutcome reply outcome) (log, back) ∧ due = front ++ back ∧ log.writes = after ∧
      (outcome = none → back = []) := by
  rw [facade.loadInto_eq]
  generalize facade.retries = retries at h
  obtain ⟨x, log, back, hend, hloop⟩ := returns_loadIntoLoop reply [] h
  have hopen : Attended writer reply outcome.isNone back .ensureOpen (.start, due) (.ok ())
      (.start, due) := ⟨rfl, rfl⟩
  have hsubmit : Attended writer reply outcome.isNone back .submit (.start, due) (.ok ())
      (copyingLog [] [], due) := ⟨rfl, rfl⟩
  have hstart : Returns (Attended writer reply outcome.isNone back) startLoadStream.run (.start, due)
      (.ok ()) (copyingLog [] [], due) := Returns.call hopen (Returns.call hsubmit returns_ret)
  have hbody {x : Except LoadResult LoadResult} {v : LoadLog × List (List UInt8)}
      (h : Returns (Attended writer reply outcome.isNone back) (ExceptT.run (do
        ProgE.iterate (loadIntoTurn retries) ()
        LoadM.ask .acknowledge
        LoadM.ask .wait)) (copyingLog [] [], due) x v) :
      Returns (Attended writer reply outcome.isNone back) (ExceptT.run (do
        startLoadStream
        ProgE.iterate (loadIntoTurn retries) ()
        LoadM.ask .acknowledge
        LoadM.ask .wait)) (.start, due) x v := returnsE_bind hstart h
  cases outcome with
  | none =>
    obtain ⟨rfl, rfl, rfl⟩ := hend
    have hacknowledge : Attended writer reply true [] .acknowledge
        ({ copyingLog ([] ++ due) after with ended := true }, []) ()
        (⟨true, due, true, after, false, true, none⟩, []) := ⟨rfl, rfl, rfl, rfl, rfl, rfl⟩
    have hwait : Attended writer reply true [] .wait (⟨true, due, true, after, false, true, none⟩, [])
        reply (⟨true, due, true, after, false, true, some reply⟩, []) :=
      ⟨rfl, rfl, Or.inl ⟨rfl, rfl⟩, rfl⟩
    have hall := hbody (returnsE_bind hloop (Returns.call hacknowledge (Returns.call hwait returns_ret)))
    exact ⟨_, [], due, Returns.bind hall returns_ret, (List.append_nil _).symm, rfl, fun _ => rfl⟩
  | some source =>
    obtain ⟨rfl, front, rfl, rfl⟩ := hend
    have hall := hbody (returnsE_bind_error hloop)
    exact ⟨_, back, front, Returns.bind hall returns_ret, rfl, rfl, nofun⟩

end Returning

end AtomicBlobStore
