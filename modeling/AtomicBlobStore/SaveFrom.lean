/-
  `save_from`, alone: what it does with whatever it is answered.

  The reader may answer anything that its rule allows, and the other parties anything that they
  could.  `SaveLog` is what the call has done so far, and `Facing` says which answers it may get.

  1. **What was sent** are the chunks that were read, in order, and `Complete` comes last and only
     after exactly the declared length and EOF (`Copied`, `Careful`).  The induction is on the turns
     of the loop: `holds_saveFromTurn` is one turn, `holds_saveFrom` the whole call.

  2. **What is returned** goes with what was read (`SaveReturns`).

  3. **After `Complete`** the call lets go of the channel before it does anything else
     (`letsGo_saveFrom`), which is a fact about the program and not about its runs.

  The caller is proved against an environment that may do anything a channel, a reader and an engine
  could do, in any order.  The result is then used in `StreamingSave`, where the other parties are
  there and do less.
-/
import AtomicBlobStore.Facade
import AtomicBlobStore.OldOrNew

namespace AtomicBlobStore

/-! ## What was done so far

  The log is a ghost of the call: it is written by the rules of `Facing` and read by no program.  It
  says as much as an observer of all the call's channels would know. -/

/-- What a reader may answer after what it has answered. -/
abbrev ReadRule := List (Except IoError (List UInt8)) → Except IoError (List UInt8) → Prop

/-- What `save_from` has done: whether a save was submitted, what was read, what entered the
    channel, whether it let go of it, and the last result that it was given. -/
structure SaveLog where
  /-- A save was submitted. -/
  submitted : Bool
  /-- What the reader answered. -/
  reads : List (Except IoError (List UInt8))
  /-- What entered the channel. -/
  sent : List SaveStreamMessage
  /-- The channel was dropped. -/
  dropped : Bool
  /-- The result that was given. -/
  heard : Option (Except AtomicBlobStoreError Unit)

/-- The log before the call. -/
def SaveLog.start : SaveLog := ⟨false, [], [], false, none⟩

/-! ## The caller alone

  The two facades run one program that reads in two ways, so there is one proof. -/

/-- A result may come before the caller has finished: something failed, or the caller let go of the
    channel, or `Complete` is in it. -/
def SaveLog.Early (fails : Prop) (log : SaveLog) : Prop :=
  fails ∨ log.dropped = true ∨ .complete ∈ log.sent

/-- The same calls, without the parties that answer them.  Channels, worker and engine may answer
    anything that they ever could; only the reader has a rule. -/
def Facing (reader : ReadRule) (fails : Prop) : Environment SaveInterface SaveLog
  | .ensureOpen, log, r, log' => log' = log ∧ ∀ e, r = .error e → fails
  | .submit, log, r, log' => match r with
    | .ok () => log' = { log with submitted := true }
    | .error _ => log' = log ∧ fails
  | .read n, log, r, log' => reader log.reads r ∧ (∀ bytes, r = .ok bytes → bytes.length ≤ n) ∧
      log' = { log with reads := log.reads ++ [r] }
  | .select n, log, r, log' => match r with
    | .inl outcome => log.Early fails ∧ log' = { log with heard := some outcome }
    | .inr r => reader log.reads r ∧ (∀ bytes, r = .ok bytes → bytes.length ≤ n) ∧
        log' = { log with reads := log.reads ++ [r] }
  | .send message, log, r, log' => match r with
    | true => log' = { log with sent := log.sent ++ [message] }
    | false => log.Early fails ∧ log' = log
  | .dropChunks, log, _, log' => log' = { log with dropped := true }
  | .wait, log, r, log' => log.Early fails ∧ log' = { log with heard := some r }

section Caller

variable (config : StoreConfig) (declaredLen : Nat) (fails : Prop)

/-- What was sent is what was read: the chunks in order, none of them empty, and `Complete` after
    exactly the declared length and EOF. -/
def Copied (log : SaveLog) : Prop :=
  ∃ (chunks : List (List UInt8)) (tail : List (Except IoError (List UInt8))),
    [] ∉ chunks ∧ log.reads = chunks.map .ok ++ tail ∧
      (log.sent = feed chunks ∧ chunks.flatten.length ≤ declaredLen ∨
        log.sent = feed chunks ++ [.complete] ∧ chunks.flatten.length = declaredLen ∧
          tail = [.ok []])

/-- What holds wherever the caller is stopped. -/
def Careful (log : SaveLog) : Prop :=
  Copied declaredLen log ∧ (log.submitted = true → declaredLen ≤ config.maximum) ∧
    (log.sent ≠ [] → log.submitted = true)

/-- Which result `save_from` returns, and after which reads.  Each constructor gives what was read and
    what was sent by then. -/
inductive SaveReturns : Except AtomicBlobStoreError Unit → SaveLog → Prop
  /-- Everything was read and sent, and the worker answered. -/
  | completed {r : Except AtomicBlobStoreError Unit} {log : SaveLog} (chunks : List (List UInt8))
      (hreads : log.reads = chunks.map .ok ++ [.ok []])
      (hlen : chunks.flatten.length = declaredLen)
      (hsent : log.sent = feed chunks ++ [.complete]) (hheard : log.heard = some r) :
      SaveReturns r log
  /-- EOF came early. -/
  | endedEarly {log : SaveLog} (chunks : List (List UInt8))
      (hreads : log.reads = chunks.map .ok ++ [.ok []])
      (hlt : chunks.flatten.length < declaredLen) (hsent : log.sent = feed chunks) :
      SaveReturns (.error (.inputEndedEarly declaredLen chunks.flatten.length)) log
  /-- The reader failed. -/
  | readFailed {log : SaveLog} (chunks : List (List UInt8)) (source : IoError)
      (hreads : log.reads = chunks.map .ok ++ [.error source])
      (hle : chunks.flatten.length ≤ declaredLen) (hsent : log.sent = feed chunks) :
      SaveReturns (.error (.inputIo source)) log
  /-- Something came after what was declared. -/
  | trailing {log : SaveLog} (chunks : List (List UInt8)) (chunk : List UInt8) (hne : chunk ≠ [])
      (hreads : log.reads = chunks.map .ok ++ [.ok chunk])
      (hlen : chunks.flatten.length = declaredLen) (hsent : log.sent = feed chunks) :
      SaveReturns (.error (.inputHasTrailingData declaredLen)) log
  /-- The declared length is too large, and nothing was read. -/
  | tooLarge {log : SaveLog} (h : config.maximum < declaredLen) (hreads : log.reads = [])
      (hsent : log.sent = []) :
      SaveReturns (.error (.blobTooLarge declaredLen config.maximum)) log
  /-- Something failed, and the result came early. -/
  | cutShort {r : Except AtomicBlobStoreError Unit} {log : SaveLog} (h : fails)
      (hheard : log.heard = some r) : SaveReturns r log
  /-- Nothing was ever read. -/
  | notStarted {e : AtomicBlobStoreError} {log : SaveLog} (h : fails) (hreads : log.reads = [])
      (hsent : log.sent = []) : SaveReturns (.error e) log

end Caller

section Calls

variable {config : StoreConfig} {declaredLen : Nat} {reader : ReadRule} {fails : Prop} {α : Type}
  {Q : α → SaveLog → Prop} {E : Except AtomicBlobStoreError Unit → SaveLog → Prop}
  {C : SaveLog → Prop} {log : SaveLog}

/-- The log after chunks were read and sent. -/
def afterChunks (chunks : List (List UInt8)) : SaveLog :=
  ⟨true, chunks.map .ok, feed chunks, false, none⟩

/-- One chunk more is one message more. -/
theorem feed_concat (chunks : List (List UInt8)) (chunk : List UInt8) :
    feed (chunks ++ [chunk]) = feed chunks ++ [.chunk chunk] := List.map_append

/-- Chunks are no `Complete`. -/
theorem complete_not_mem_feed (chunks : List (List UInt8)) : .complete ∉ feed chunks := by
  intro h
  obtain ⟨chunk, -, hchunk⟩ := List.mem_map.mp h
  nomatch hchunk

/-- The rule of reading, for both facades. -/
theorem holds_next {facade : Facade} {n : Nat} {Q : Except IoError (List UInt8) → SaveLog → Prop}
    (hC : C log) (hread : ∀ r, reader log.reads r → (∀ bytes, r = .ok bytes → bytes.length ≤ n) →
      C { log with reads := log.reads ++ [r] } ∧ Q r { log with reads := log.reads ++ [r] })
    (hearly : log.Early fails → ∀ r, C { log with heard := some r } ∧
      E r { log with heard := some r }) :
    HoldsE (Facing reader fails) (facade.next n) Q E C log := by
  cases facade with
  | blocking =>
    refine holds_call (I := SaveInterface) (c := .read n) hC fun r log' henv => ?_
    obtain ⟨hrule, hlen, rfl⟩ := henv
    exact holds_ret (hread r hrule hlen).1 (hread r hrule hlen).2
  | tokio =>
    refine holds_call (I := SaveInterface) (c := .select n) hC fun r log' henv => ?_
    cases r with
    | inl outcome =>
      obtain ⟨hwhen, rfl⟩ := henv
      exact holds_ret (hearly hwhen outcome).1 (hearly hwhen outcome).2
    | inr r =>
      obtain ⟨hrule, hlen, rfl⟩ := henv
      exact holds_ret (hread r hrule hlen).1 (hread r hrule hlen).2

/-- The rule of giving up: the error that was decided is returned, whatever the worker says. -/
theorem holds_giveUp {e : AtomicBlobStoreError} (hC : C log)
    (hdropped : C { log with dropped := true })
    (hE : ∀ r, C { log with dropped := true, heard := some r } ∧
      E (.error e) { log with dropped := true, heard := some r }) :
    HoldsE (Facing reader fails) (SaveM.giveUp e : SaveM α) Q E C log := by
  refine holds_call (I := SaveInterface) (c := .dropChunks) hC fun _ log' henv => ?_
  obtain rfl : log' = _ := henv
  refine holds_call (I := SaveInterface) (c := .wait) hdropped fun r log' henv => ?_
  obtain ⟨-, rfl⟩ := henv
  exact holds_ret (hE r).1 (hE r).2

/-- The rule of returning the result. -/
theorem holds_returnResult (hC : C log)
    (hE : log.Early fails → ∀ r, C { log with heard := some r } ∧ E r { log with heard := some r }) :
    HoldsE (Facing reader fails) (SaveM.returnResult : SaveM α) Q E C log := by
  refine holds_call (I := SaveInterface) (c := .wait) hC fun r log' henv => ?_
  obtain ⟨hwhen, rfl⟩ := henv
  exact holds_ret (hE hwhen r).1 (hE hwhen r).2

/-- What a function throws, it returns. -/
theorem holds_returned {W : Type} {env : Environment SaveInterface W}
    {p : ProgE SaveInterface α α} {Q : α → W → Prop} {C : W → Prop} {w : W}
    (h : HoldsE env p Q Q C w) : Holds env (SaveM.returned p) Q C w := by
  refine holds_bind (Holds.mono h (fun r w hc hr => ?_) fun _ hc => hc)
  cases r with
  | ok a => exact holds_ret hc hr
  | error a => exact holds_ret hc hr

end Calls

section SaveFrom

variable {config : StoreConfig} {declaredLen : Nat} {reader : ReadRule} {fails : Prop}

/-- While nothing but chunks was sent. -/
theorem careful_chunks (config : StoreConfig) (hmax : declaredLen ≤ config.maximum) {chunks : List (List UInt8)}
    {reads tail : List (Except IoError (List UInt8))} (hne : [] ∉ chunks)
    (hreads : reads = chunks.map .ok ++ tail) (hle : chunks.flatten.length ≤ declaredLen)
    (dropped : Bool) (heard : Option (Except AtomicBlobStoreError Unit)) :
    Careful config declaredLen ⟨true, reads, feed chunks, dropped, heard⟩ :=
  ⟨⟨chunks, tail, hne, hreads, Or.inl ⟨rfl, hle⟩⟩, fun _ => hmax, fun _ => rfl⟩

/-- Before anything was submitted. -/
theorem careful_start : Careful config declaredLen SaveLog.start :=
  ⟨⟨[], [], List.not_mem_nil, rfl, Or.inl ⟨rfl, Nat.zero_le _⟩⟩, nofun, fun h => absurd rfl h⟩

/-- The head of a turn: the chunks so far were read and sent. -/
def AfterChunks (declaredLen read : Nat) (log : SaveLog) : Prop :=
  ∃ chunks, log = afterChunks chunks ∧ [] ∉ chunks ∧ chunks.flatten.length = read ∧
    read ≤ declaredLen

/-- One turn of the loop of `save_from`. -/
theorem holds_saveFromTurn (facade : Facade) (hmax : declaredLen ≤ config.maximum) (read : Nat)
    {chunks : List (List UInt8)} (hne : [] ∉ chunks) (hread : chunks.flatten.length = read)
    (hle : read ≤ declaredLen) :
    HoldsE (Facing reader fails) (saveFromTurn declaredLen facade.next read)
      (fun next log => next.elim (fun read => AfterChunks declaredLen read log)
        fun _ => log = afterChunks chunks ∧ chunks.flatten.length = declaredLen)
      (SaveReturns config declaredLen fails) (Careful config declaredLen) (afterChunks chunks) := by
  have hnil : (afterChunks chunks).reads = chunks.map .ok ++ [] := (List.append_nil _).symm
  have hlen : chunks.flatten.length ≤ declaredLen := by omega
  have hcareful := careful_chunks config hmax hne hnil hlen false none
  unfold saveFromTurn
  split
  · rename_i hlt
    refine holdsE_bind (holds_next hcareful (fun r hrule hbound => ?_) fun hwhen r => ?_)
    · have hafter : ∀ (dropped : Bool) heard, Careful config declaredLen
          ⟨true, chunks.map .ok ++ [r], feed chunks, dropped, heard⟩ :=
        careful_chunks config hmax hne rfl hlen
      refine ⟨hafter _ _, ?_⟩
      rcases r with source | _ | ⟨byte, bytes⟩
      · exact holds_giveUp (hafter _ _) (hafter _ _) fun r =>
          ⟨hafter _ _, .readFailed chunks source rfl hlen rfl⟩
      · refine holds_giveUp (hafter _ _) (hafter _ _) fun r => ⟨hafter _ _, ?_⟩
        rw [← hread]
        exact .endedEarly chunks rfl (by omega) rfl
      · -- a chunk: it is no longer than was asked for, so the total stays within what is declared
        have hbound := hbound (byte :: bytes) rfl
        have htotal : (chunks ++ [byte :: bytes]).flatten.length ≤ declaredLen := by
          rw [length_flatten_concat]
          omega
        have hne : [] ∉ chunks ++ [byte :: bytes] := fun hmem =>
          (List.mem_append.mp hmem).elim hne fun hmem => nomatch List.mem_singleton.mp hmem
        refine holds_call (I := SaveInterface) (c := .send (.chunk (byte :: bytes))) (hafter _ _)
          fun sent log' henv => ?_
        cases sent with
        | true =>
          obtain rfl : log' = _ := henv
          -- the chunk is sent: the desk is as after one more chunk
          have hnext : ({ afterChunks chunks with
              reads := chunks.map .ok ++ [.ok (byte :: bytes)]
              sent := feed chunks ++ [.chunk (byte :: bytes)] } : SaveLog) =
              afterChunks (chunks ++ [byte :: bytes]) := by
            unfold afterChunks
            rw [feed_concat, List.map_append]
            rfl
          refine holds_ret ?_ ?_
          · show Careful config declaredLen _
            exact hnext ▸ careful_chunks config hmax hne (List.append_nil _).symm htotal _ _
          · refine ⟨chunks ++ [byte :: bytes], hnext, hne, ?_, ?_⟩
            · rw [length_flatten_concat, hread]
            · rw [length_flatten_concat] at htotal
              omega
        | false =>
          obtain ⟨hwhen, rfl⟩ := henv
          refine holds_returnResult (hafter _ _) fun _ r => ⟨hafter _ _, .cutShort ?_ rfl⟩
          rcases hwhen with hfails | hdropped | hcomplete
          · exact hfails
          · nomatch hdropped
          · exact absurd hcomplete (complete_not_mem_feed chunks)
    · refine ⟨careful_chunks config hmax hne hnil hlen _ _, .cutShort ?_ rfl⟩
      rcases hwhen with hfails | hdropped | hcomplete
      · exact hfails
      · nomatch hdropped
      · exact absurd hcomplete (complete_not_mem_feed chunks)
  · exact holds_ret hcareful ⟨rfl, by omega⟩

/-- What follows the loop of `save_from`. -/
theorem holds_saveFromEnd (facade : Facade) (hmax : declaredLen ≤ config.maximum)
    {chunks : List (List UInt8)} (hne : [] ∉ chunks) (hlen : chunks.flatten.length = declaredLen) :
    HoldsE (Facing reader fails) (saveFromEnd declaredLen facade.next)
      (SaveReturns config declaredLen fails) (SaveReturns config declaredLen fails)
      (Careful config declaredLen) (afterChunks chunks) := by
  have hnil : (afterChunks chunks).reads = chunks.map .ok ++ [] := (List.append_nil _).symm
  have hle : chunks.flatten.length ≤ declaredLen := Nat.le_of_eq hlen
  have hcareful := careful_chunks config hmax hne hnil hle false none
  unfold saveFromEnd
  refine holdsE_bind (holds_next hcareful (fun r hrule hbound => ?_) fun hwhen r => ?_)
  · have hafter : ∀ (dropped : Bool) heard, Careful config declaredLen
        ⟨true, chunks.map .ok ++ [r], feed chunks, dropped, heard⟩ :=
      careful_chunks config hmax hne rfl hle
    refine ⟨hafter _ _, ?_⟩
    rcases r with source | _ | ⟨byte, bytes⟩
    · exact holds_giveUp (hafter _ _) (hafter _ _) fun r =>
        ⟨hafter _ _, .readFailed chunks source rfl hle rfl⟩
    · -- exactly what was declared, and the end: this is where `Complete` is sent
      refine holds_call (I := SaveInterface) (c := .send .complete) (hafter _ _)
        fun sent log' henv => ?_
      cases sent with
      | true =>
        obtain rfl : log' = _ := henv
        have hdone : ∀ (dropped : Bool) heard, Careful config declaredLen
            ⟨true, chunks.map .ok ++ [.ok []], feed chunks ++ [.complete], dropped, heard⟩ :=
          fun _ _ => ⟨⟨chunks, [.ok []], hne, rfl, Or.inr ⟨rfl, hlen, rfl⟩⟩, fun _ => hmax,
            fun _ => rfl⟩
        refine holds_call (I := SaveInterface) (c := .dropChunks) (hdone _ _) fun _ log' henv => ?_
        obtain rfl : log' = _ := henv
        refine holds_call (I := SaveInterface) (c := .wait) (hdone _ _) fun r log' henv => ?_
        obtain ⟨-, rfl⟩ := henv
        exact holds_ret (hdone _ _) (.completed chunks rfl hlen rfl rfl)
      | false =>
        obtain ⟨hwhen, rfl⟩ := henv
        refine holds_returnResult (hafter _ _) fun _ r => ⟨hafter _ _, .cutShort ?_ rfl⟩
        rcases hwhen with hfails | hdropped | hcomplete
        · exact hfails
        · nomatch hdropped
        · exact absurd hcomplete (complete_not_mem_feed chunks)
    · exact holds_giveUp (hafter _ _) (hafter _ _) fun r =>
        ⟨hafter _ _, .trailing chunks (byte :: bytes) (List.cons_ne_nil _ _) rfl hlen rfl⟩
  · refine ⟨careful_chunks config hmax hne hnil hle _ _, .cutShort ?_ rfl⟩
    rcases hwhen with hfails | hdropped | hcomplete
    · exact hfails
    · nomatch hdropped
    · exact absurd hcomplete (complete_not_mem_feed chunks)

/-- **The caller alone**: whatever it is answered, and wherever it is stopped. -/
theorem holds_saveFrom (facade : Facade) :
    Holds (Facing reader fails) (facade.saveFrom config declaredLen)
      (SaveReturns config declaredLen fails) (Careful config declaredLen) SaveLog.start := by
  have hstart : Careful config declaredLen .start := careful_start
  have hbody : HoldsE (Facing reader fails) (do
      startSaveStream config declaredLen
      ProgE.iterate (saveFromTurn declaredLen facade.next) 0
      saveFromEnd declaredLen facade.next) (SaveReturns config declaredLen fails)
      (SaveReturns config declaredLen fails) (Careful config declaredLen) SaveLog.start := by
    refine holdsE_bind ?_
    refine holds_call (I := SaveInterface) (c := .ensureOpen) hstart fun r log' henv => ?_
    obtain ⟨rfl, hfails⟩ := henv
    cases r with
    | error e => exact holds_ret hstart (.notStarted (hfails e rfl) rfl rfl)
    | ok u =>
      show HoldsE (Facing reader fails) (if declaredLen > config.maximum then _ else _) _ _ _ _
      split
      · rename_i hgt
        exact holds_ret hstart (.tooLarge hgt rfl rfl)
      · rename_i hle
        have hmax : declaredLen ≤ config.maximum := by omega
        refine holds_call (I := SaveInterface) (c := .submit) hstart fun r log' henv => ?_
        cases r with
        | error e =>
          obtain ⟨rfl, hfails⟩ := henv
          exact holds_ret hstart (.notStarted hfails rfl rfl)
        | ok u =>
          obtain rfl : log' = afterChunks [] := henv
          have hfirst : Careful config declaredLen (afterChunks []) :=
            careful_chunks config hmax List.not_mem_nil rfl (Nat.zero_le _) _ _
          refine holds_ret hfirst (holdsE_bind ?_)
          refine holdsE_iterate (AfterChunks declaredLen)
            ⟨[], rfl, List.not_mem_nil, rfl, Nat.zero_le _⟩ ?_ ?_
          · rintro read log ⟨chunks, rfl, hne, hread, hle⟩
            refine careful_chunks config hmax hne (List.append_nil _).symm ?_ _ _
            omega
          · rintro read log ⟨chunks, rfl, hne, hread, hle⟩
            refine (holds_saveFromTurn facade hmax read hne hread hle).mono
              (fun next log _ hnext => ?_) (fun _ _ _ h => h) fun _ h => h
            cases next with
            | inl read => exact hnext
            | inr u =>
              obtain ⟨rfl, hlen⟩ := hnext
              exact holds_saveFromEnd facade hmax hne hlen
  cases facade with
  | blocking => exact holds_returned hbody
  | tokio => exact holds_returned hbody

/-- A facade reads, and does nothing else. -/
theorem calls_next {P : SaveCall → Prop} (facade : Facade) (n : Nat) (hread : P (.read n))
    (hselect : P (.select n)) : (facade.next n).run.Calls P := by
  cases facade with
  | blocking => exact .call hread fun r => .ret _
  | tokio =>
    refine .call hselect fun r => ?_
    cases r with
    | inl outcome => exact .ret _
    | inr r => exact .ret _

/-- The calls of giving up. -/
theorem calls_giveUp {P : SaveCall → Prop} {α : Type} (e : AtomicBlobStoreError)
    (hdrop : P .dropChunks) (hwait : P .wait) : (SaveM.giveUp e : SaveM α).run.Calls P :=
  .call hdrop fun _ => .call hwait fun _ => .ret _

/-- Any call but the one that completes the stream. -/
def NotComplete (c : SaveCall) : Prop := c ≠ .send .complete

/-- The rest of a program, after a call. -/
theorem calls_after {α : Type} {c : SaveCall} {k : c.Answer → Prog SaveInterface α}
    (hc : c ≠ .send .complete) (hk : ∀ r, (k r).Calls NotComplete) :
    (Prog.call (I := SaveInterface) c k).Calls NotComplete := .call hc hk

/-- The loop only sends chunks. -/
theorem calls_saveFromTurn (facade : Facade) (read : Nat) :
    (saveFromTurn declaredLen facade.next read).run.Calls NotComplete := by
  unfold saveFromTurn
  split
  · refine ProgE.calls_bind (calls_next facade _ (nofun : NotComplete (.read _))
      (nofun : NotComplete (.select _))) fun r => ?_
    rcases r with source | _ | ⟨byte, bytes⟩
    · exact calls_giveUp _ (nofun : NotComplete .dropChunks) (nofun : NotComplete .wait)
    · exact calls_giveUp _ (nofun : NotComplete .dropChunks) (nofun : NotComplete .wait)
    · refine calls_after (c := .send (.chunk (byte :: bytes))) nofun fun sent => ?_
      cases sent with
      | true => exact .ret _
      | false => exact calls_after (c := .wait) nofun fun _ => .ret _
  · exact .ret _

/-- The start sends nothing. -/
theorem calls_startSaveStream : (startSaveStream config declaredLen).run.Calls NotComplete := by
  refine calls_after (c := .ensureOpen) nofun fun r => ?_
  cases r with
  | error e => exact .ret _
  | ok u =>
    show Prog.Calls (I := SaveInterface) _ (ExceptT.run (if declaredLen > config.maximum then _ else _))
    split
    · exact .ret _
    · refine calls_after (c := .submit) nofun fun r => ?_
      cases r with
      | error e => exact .ret _
      | ok u => exact .ret _

/-- A caller that drops its end of the channel before anything else, once it has sent `Complete`. -/
abbrev LetsGo {α : Type} (p : Prog SaveInterface α) : Prop :=
  p.Leads (SaveCall.send .complete) true SaveCall.dropChunks

/-- What does not send `Complete` need not let go. -/
theorem letsGo_of_calls {α : Type} {p : Prog SaveInterface α} (h : p.Calls NotComplete) :
    LetsGo p := Prog.Leads.of_calls h fun hne => hne rfl

/-- What follows the loop lets go of the channel. -/
theorem letsGo_saveFromEnd (facade : Facade) :
    LetsGo (saveFromEnd declaredLen facade.next).run := by
  have hgiveUp : ∀ e, LetsGo (SaveM.giveUp e : SaveM (Except AtomicBlobStoreError Unit)).run :=
    fun e => letsGo_of_calls
      (calls_giveUp e (nofun : NotComplete .dropChunks) (nofun : NotComplete .wait))
  have hwait : ∀ {β : Type} (k : Except AtomicBlobStoreError Unit → Prog SaveInterface β),
      (∀ r, ∃ b, k r = .ret b) → (Prog.call (I := SaveInterface) SaveCall.wait k).Calls NotComplete :=
    fun k hk => calls_after (c := .wait) nofun fun r => by
      obtain ⟨b, hb⟩ := hk r
      rw [hb]
      exact .ret b
  unfold saveFromEnd
  refine Prog.Leads.bind (letsGo_of_calls (calls_next facade 1 (nofun : NotComplete (.read _))
    (nofun : NotComplete (.select _)))) fun r => ?_
  rcases r with e | source | _ | ⟨byte, bytes⟩
  · exact .ret _
  · exact hgiveUp _
  · show LetsGo (Prog.call (I := SaveInterface) (SaveCall.send .complete) _)
    refine .call (fun h => ?_) fun sent => letsGo_of_calls ?_
    · exact ⟨_, rfl⟩
    · cases sent with
      | true => exact calls_after (c := .dropChunks) nofun fun _ => hwait _ fun r => ⟨_, rfl⟩
      | false => exact hwait _ fun r => ⟨_, rfl⟩
  · exact hgiveUp _

/-- **`save_from` lets go of the channel.** -/
theorem letsGo_saveFrom (facade : Facade) : LetsGo (facade.saveFrom config declaredLen) := by
  have hbody : LetsGo (ExceptT.run (do
      startSaveStream config declaredLen
      ProgE.iterate (saveFromTurn declaredLen facade.next) 0
      saveFromEnd declaredLen facade.next)) := by
    refine Prog.Leads.bind (letsGo_of_calls calls_startSaveStream) fun r => ?_
    cases r with
    | error a => exact .ret _
    | ok u =>
      refine Prog.Leads.bind (letsGo_of_calls (ProgE.calls_iterate (calls_saveFromTurn facade)))
        fun r => ?_
      cases r with
      | error a => exact .ret _
      | ok u => exact letsGo_saveFromEnd facade
  have hend : LetsGo (SaveM.returned (do
      startSaveStream config declaredLen
      ProgE.iterate (saveFromTurn declaredLen facade.next) 0
      saveFromEnd declaredLen facade.next)) := by
    refine hbody.bind fun r => ?_
    cases r with
    | ok a => exact .ret _
    | error a => exact .ret _
  cases facade with
  | blocking => exact hend
  | tokio => exact hend

end SaveFrom

/-! ## Everything that was sent

  The other end of the channel sees messages and not reads.  These lemmas say what may be concluded
  from the messages that came out. -/

/-- A stream that ends with `Complete` has nothing after it. -/
theorem complete_last {front later : List SaveStreamMessage} {chunks : List (List UInt8)}
    (h : front ++ .complete :: later = feed chunks ++ [.complete]) :
    front = feed chunks ∧ later = [] := by
  induction chunks generalizing front with
  | nil =>
    cases front with
    | nil => exact ⟨rfl, (List.cons.inj h).2⟩
    | cons message front => exact absurd (List.cons.inj h).2 (List.append_ne_nil_of_right_ne_nil _
        (List.cons_ne_nil _ _))
  | cons chunk chunks ih =>
    cases front with
    | nil => nomatch (List.cons.inj h).1
    | cons message front =>
      obtain ⟨rfl, hrest⟩ := List.cons.inj h
      obtain ⟨rfl, hlater⟩ := ih hrest
      exact ⟨rfl, hlater⟩

/-- The last chunks of a stream of chunks. -/
theorem feed_split {front : List SaveStreamMessage} {chunks all : List (List UInt8)}
    (h : front ++ feed chunks = feed all) :
    ∃ before, front = feed before ∧ all = before ++ chunks := by
  induction all generalizing front with
  | nil =>
    obtain ⟨rfl, hchunks⟩ := List.append_eq_nil_iff.mp h
    obtain rfl : chunks = [] := List.map_eq_nil_iff.mp hchunks
    exact ⟨[], rfl, rfl⟩
  | cons chunk all ih =>
    cases front with
    | nil => exact ⟨[], rfl, (List.map_injective_iff.mpr (fun a b h => SaveStreamMessage.chunk.inj h) h).symm⟩
    | cons message front =>
      obtain ⟨rfl, hrest⟩ := List.cons.inj h
      obtain ⟨before, rfl, rfl⟩ := ih hrest
      exact ⟨chunk :: before, rfl, rfl⟩

/-- What came out of a channel, without the signs of its end. -/
def messagesOf (received : List (Option SaveStreamMessage)) : List SaveStreamMessage :=
  received.filterMap id

/-- Messages come out in the order in which they were put in. -/
theorem messagesOf_append (front back : List (Option SaveStreamMessage)) :
    messagesOf (front ++ back) = messagesOf front ++ messagesOf back := List.filterMap_append

theorem messagesOf_fed (chunks : List (List UInt8)) : messagesOf (fed chunks) = feed chunks := by
  induction chunks with
  | nil => rfl
  | cons chunk chunks ih => exact congrArg (SaveStreamMessage.chunk chunk :: ·) ih

/-- Exactly the declared bytes were read, and then EOF; they were sent, and completed. -/
def SaveLog.Completed (declaredLen : Nat) (payload : List UInt8) (log : SaveLog) : Prop :=
  ∃ chunks : List (List UInt8), [] ∉ chunks ∧ chunks.flatten = payload ∧
    payload.length = declaredLen ∧ log.reads = chunks.map .ok ++ [.ok []] ∧
    log.sent = feed chunks ++ [.complete]

/-- Only a careful caller that is done has sent `Complete`. -/
theorem Copied.completed {declaredLen : Nat} {log : SaveLog} (h : Copied declaredLen log)
    (hcomplete : .complete ∈ log.sent) : ∃ payload, log.Completed declaredLen payload := by
  obtain ⟨chunks, tail, hne, hreads, ⟨hsent, -⟩ | ⟨hsent, hlen, rfl⟩⟩ := h
  · rw [hsent] at hcomplete
    exact absurd hcomplete (complete_not_mem_feed chunks)
  · exact ⟨chunks.flatten, chunks, hne, rfl, hlen, hreads, hsent⟩

/-- A worker that has got as much as was declared, and `Complete`, has got everything. -/
theorem Copied.payload {declaredLen : Nat} {log : SaveLog} (h : Copied declaredLen log)
    (front later : List SaveStreamMessage) (chunks : List (List UInt8))
    (hsent : log.sent = front ++ feed chunks ++ .complete :: later)
    (hlen : chunks.flatten.length = declaredLen) : log.Completed declaredLen chunks.flatten := by
  have hcomplete : SaveStreamMessage.complete ∈ log.sent := by
    rw [hsent]
    exact List.mem_append_right _ (List.mem_cons_self ..)
  obtain ⟨payload, all, hne, rfl, hpayload, hreads, hall⟩ := h.completed hcomplete
  obtain ⟨hfront, -⟩ := complete_last (hsent.symm.trans hall)
  obtain ⟨before, -, rfl⟩ := feed_split hfront
  -- the bytes before are none, for what follows them is all that was declared
  have hbefore : before.flatten = [] := by
    rw [List.flatten_append, List.length_append] at hpayload
    exact List.eq_nil_of_length_eq_zero (by omega)
  refine ⟨before ++ chunks, hne, ?_, hlen, hreads, hall⟩
  rw [List.flatten_append, hbefore, List.nil_append]

/-- The bytes of the messages that were sent. -/
def bytesOf (messages : List SaveStreamMessage) : List UInt8 := payloadOf (messages.map some)

/-- The bytes of messages are put together in order. -/
theorem bytesOf_append (front back : List SaveStreamMessage) :
    bytesOf (front ++ back) = bytesOf front ++ bytesOf back := by
  unfold bytesOf
  rw [List.map_append, payloadOf_append]

theorem bytesOf_feed (chunks : List (List UInt8)) : bytesOf (feed chunks) = chunks.flatten := by
  have hfed : (feed chunks).map some = fed chunks := List.map_map
  rw [bytesOf, hfed, payloadOf_fed]

theorem bytesOf_complete : bytesOf [.complete] = [] := rfl

/-- However much is taken, it is no more than was declared. -/
theorem Copied.bound {declaredLen : Nat} {log : SaveLog} (h : Copied declaredLen log)
    (front later : List SaveStreamMessage) (chunks : List (List UInt8))
    (hsent : log.sent = front ++ feed chunks ++ later) : chunks.flatten.length ≤ declaredLen := by
  have hbytes : (bytesOf log.sent).length ≤ declaredLen := by
    obtain ⟨all, tail, -, -, ⟨hall, hle⟩ | ⟨hall, hlen, -⟩⟩ := h
    · rw [hall, bytesOf_feed]
      exact hle
    · rw [hall, bytesOf_append, bytesOf_feed, bytesOf_complete, List.append_nil]
      exact Nat.le_of_eq hlen
  rw [hsent, bytesOf_append, bytesOf_append, bytesOf_feed, List.length_append,
    List.length_append] at hbytes
  omega

/-- A worker that has got all that was sent so far only stops because it was cancelled. -/
theorem Copied.stops {config : StoreConfig} {fault : FsCall → IoError → Prop} {declaredLen : Nat}
    {log : SaveLog} (h : Copied declaredLen log) (hmax : declaredLen ≤ config.maximum)
    {e : AtomicBlobStoreError} {received : List (Option SaveStreamMessage)}
    (hstops : Stops fault config declaredLen e received) {queue : List SaveStreamMessage}
    (hsent : log.sent = messagesOf received ++ queue) :
    (∃ c source, fault c source) ∨
      e = .streamCancelled ∧ none ∈ received ∧ .complete ∉ messagesOf received := by
  cases hstops with
  | tooLarge hlarge => omega
  | trailing chunks chunk hle hmore =>
    -- more than was declared was never sent
    have hbound := h.bound [] queue (chunks ++ [chunk]) (by
      rw [hsent, ← fed_concat, messagesOf_fed]
      rfl)
    rw [length_flatten_concat] at hbound
    omega
  | early chunks hlt =>
    -- and `Complete` was sent after no less
    have hsent : log.sent = feed chunks ++ .complete :: queue := by
      rw [hsent, messagesOf_append, messagesOf_fed, List.append_assoc]
      rfl
    obtain ⟨payload, all, -, rfl, hlen, -, hall⟩ := h.completed (by
      rw [hsent]
      exact List.mem_append_right _ (List.mem_cons_self ..))
    obtain ⟨rfl, -⟩ := feed_complete_inj (hsent.symm.trans hall)
    omega
  | cancelled chunks hle =>
    refine Or.inr ⟨rfl, List.mem_append_right _ (List.mem_singleton_self _), ?_⟩
    rw [messagesOf_append, messagesOf_fed]
    show SaveStreamMessage.complete ∉ feed chunks ++ []
    rw [List.append_nil]
    exact complete_not_mem_feed chunks
  | failed c source hplain chunks hle log hlog => exact Or.inl ⟨c, source, hplain.2⟩

/-! ## Nothing in the way

  That a call returns cannot be said of every environment: a reader may never answer, and a channel
  may stay full.  What is assumed here is that every call is answered. -/

/-- The caller has the channel, and no result. -/
def SaveLog.Holding (log : SaveLog) : Prop := log.dropped = false ∧ log.heard = none

/-- The calls of a caller that nothing disturbs: every message is accepted, and the result is what
    is reported for what was sent.  It reads and sends while it holds the channel, and waits once. -/
def Alone (reader : ReadRule) (reported : List SaveStreamMessage → Except AtomicBlobStoreError Unit) :
    Environment SaveInterface SaveLog
  | .ensureOpen, log, r, log' => r = .ok () ∧ log.Holding ∧ log' = log
  | .submit, log, r, log' => r = .ok () ∧ log.Holding ∧ log' = { log with submitted := true }
  | .read n, log, r, log' => log.Holding ∧ reader log.reads r ∧
      (∀ bytes, r = .ok bytes → bytes.length ≤ n) ∧ log' = { log with reads := log.reads ++ [r] }
  | .select n, log, r, log' => ∃ r', r = .inr r' ∧ log.Holding ∧ reader log.reads r' ∧
      (∀ bytes, r' = .ok bytes → bytes.length ≤ n) ∧ log' = { log with reads := log.reads ++ [r'] }
  | .send message, log, r, log' => r = true ∧ log.Holding ∧ log.submitted = true ∧
      log' = { log with sent := log.sent ++ [message] }
  | .dropChunks, log, _, log' => log.Holding ∧ log' = { log with dropped := true }
  | .wait, log, r, log' => r = reported log.sent ∧ log.dropped = true ∧ log.submitted = true ∧
      log.heard = none ∧ log' = { log with heard := some r }

/-- What a log can become. -/
def SaveLog.Grows (log log' : SaveLog) : Prop :=
  ∃ more, log'.sent = log.sent ++ more ∧ (log.dropped = true → more = [] ∧ log'.dropped = true) ∧
    (log.submitted = true → log'.submitted = true)

theorem SaveLog.Grows.refl {log log' : SaveLog} (hsent : log'.sent = log.sent)
    (hdropped : log.dropped = true → log'.dropped = true)
    (hsubmitted : log.submitted = true → log'.submitted = true) : log.Grows log' :=
  ⟨[], hsent.trans (List.append_nil _).symm, fun h => ⟨rfl, hdropped h⟩, hsubmitted⟩

theorem SaveLog.Grows.trans {log log' log'' : SaveLog} (h : log.Grows log')
    (h' : log'.Grows log'') : log.Grows log'' := by
  obtain ⟨now, hnow, hdropped, hsubmitted⟩ := h
  obtain ⟨more, hmore, hdropped', hsubmitted'⟩ := h'
  refine ⟨now ++ more, ?_, fun h => ?_, hsubmitted' ∘ hsubmitted⟩
  · rw [hmore, hnow, List.append_assoc]
  · obtain ⟨rfl, h⟩ := hdropped h
    obtain ⟨rfl, h⟩ := hdropped' h
    exact ⟨rfl, h⟩

/-- What is sent is added, and nothing once the channel was dropped. -/
theorem alone_grows {reader : ReadRule}
    {reported : List SaveStreamMessage → Except AtomicBlobStoreError Unit} {α : Type} {n : Nat}
    {p p' : Prog SaveInterface α} {log log' : SaveLog}
    (h : Run (Alone reader reported) n p log p' log') : log.Grows log' := by
  induction h with
  | nil => exact .refl rfl id id
  | @cons n p p' p'' log log₁ log' hstep hrest ih =>
    refine SaveLog.Grows.trans ?_ ih
    cases hstep with
    | loop => exact .refl rfl id id
    | @call c k _ _ r henv =>
      cases c with
      | ensureOpen =>
        obtain ⟨-, -, rfl⟩ := henv
        exact .refl rfl id id
      | submit =>
        obtain ⟨-, -, rfl⟩ := henv
        exact .refl rfl id fun _ => rfl
      | read n =>
        obtain ⟨-, -, -, rfl⟩ := henv
        exact .refl rfl id id
      | select n =>
        obtain ⟨-, -, -, -, -, rfl⟩ := henv
        exact .refl rfl id id
      | send message =>
        obtain ⟨-, ⟨hheld, -⟩, -, rfl⟩ := henv
        exact ⟨[message], rfl, fun h => Bool.noConfusion (hheld.symm.trans h), id⟩
      | dropChunks =>
        obtain ⟨-, rfl⟩ := henv
        exact .refl rfl (fun _ => rfl) id
      | wait =>
        obtain ⟨-, -, -, -, rfl⟩ := henv
        exact .refl rfl id id

/-- A caller that nothing disturbs faces no more than any other. -/
theorem facing_of_alone {reader : ReadRule}
    {reported : List SaveStreamMessage → Except AtomicBlobStoreError Unit} (c : SaveCall)
    (log : SaveLog) (r : c.Answer) (log' : SaveLog) (h : Alone reader reported c log r log') :
    Facing reader False c log r log' := by
  cases c with
  | ensureOpen =>
    obtain ⟨rfl, -, rfl⟩ := h
    exact ⟨rfl, nofun⟩
  | submit =>
    obtain ⟨rfl, -, rfl⟩ := h
    exact rfl
  | read n => exact h.2
  | select n =>
    obtain ⟨r', rfl, -, hread⟩ := h
    exact hread
  | send message =>
    obtain ⟨rfl, -, -, rfl⟩ := h
    exact rfl
  | dropChunks => exact h.2
  | wait =>
    obtain ⟨-, hdropped, -, -, rfl⟩ := h
    exact ⟨Or.inr (Or.inl hdropped), rfl⟩

/-! ## Readers that keep to a script

  A script is the bytes that a reader has and how it ends.  How the bytes are cut into chunks is the
  reader's choice, one read at a time. -/

/-- The bytes that were read. -/
def readBytes (reads : List (Except IoError (List UInt8))) : List UInt8 :=
  reads.flatMap fun
    | .ok bytes => bytes
    | .error _ => []

/-- The contract of a reader of some bytes, which are followed by EOF or by an error: it answers with
    some of the bytes that are left, in order, as long as there are any. -/
def Scripted (data : List UInt8) (ending : Option IoError) : ReadRule
  | reads, .ok [] => data.drop (readBytes reads).length = [] ∧ ending = none
  | reads, .ok (byte :: bytes) => byte :: bytes <+: data.drop (readBytes reads).length
  | reads, .error source => data.drop (readBytes reads).length = [] ∧ ending = some source

/-- A reader with a script: it keeps to the contract, and always answers. -/
structure Script (data : List UInt8) (ending : Option IoError) (reader : ReadRule) : Prop where
  /-- The reader keeps to its bytes, in order, and to its end, -/
  keeps : ∀ reads r, reader reads r → Scripted data ending reads r
  /-- and always answers, within the buffer. -/
  answers : ∀ reads n, 0 < n → ∃ r, reader reads r ∧ ∀ bytes, r = .ok bytes → bytes.length ≤ n

/-- The script itself, with every choice open, is a reader. -/
theorem scripted (data : List UInt8) (ending : Option IoError) :
    Script data ending (Scripted data ending) where
  keeps _ _ h := h
  answers reads n hn := by
    cases hrest : data.drop (readBytes reads).length with
    | nil =>
      cases ending with
      | none => exact ⟨.ok [], ⟨hrest, rfl⟩, fun bytes h => Except.ok.inj h ▸ Nat.zero_le n⟩
      | some source => exact ⟨.error source, ⟨hrest, rfl⟩, nofun⟩
    | cons byte rest =>
      refine ⟨.ok [byte], ?_, fun bytes h => Except.ok.inj h ▸ hn⟩
      show [byte] <+: data.drop (readBytes reads).length
      rw [hrest]
      exact ⟨rest, rfl⟩

section Returning

variable {config : StoreConfig} {declaredLen : Nat} {reader : ReadRule}
  {reported : List SaveStreamMessage → Except AtomicBlobStoreError Unit} {α : Type} {log : SaveLog}

/-- A save was submitted, and the caller has the channel. -/
def SaveLog.Ready (log : SaveLog) : Prop := log.submitted = true ∧ log.Holding

variable (reported) in
/-- A read is answered. -/
theorem returns_next (hanswers : ∀ reads n, 0 < n → ∃ r, reader reads r ∧
      ∀ bytes, r = .ok bytes → bytes.length ≤ n) (facade : Facade) {n : Nat} (hn : 0 < n)
    (hlog : log.Ready) : ∃ r, (∀ bytes, r = .ok bytes → bytes.length ≤ n) ∧
      Returns (Alone reader reported) (facade.next n).run log (.ok r)
        { log with reads := log.reads ++ [r] } := by
  obtain ⟨r, hrule, hlen⟩ := hanswers log.reads n hn
  refine ⟨r, hlen, ?_⟩
  cases facade with
  | blocking =>
    have hread : Alone reader reported (.read n) log r { log with reads := log.reads ++ [r] } :=
      ⟨hlog.2, hrule, hlen, rfl⟩
    exact Returns.call hread returns_ret
  | tokio =>
    have hselect : Alone reader reported (.select n) log (.inr r)
        { log with reads := log.reads ++ [r] } := ⟨r, rfl, hlog.2, hrule, hlen, rfl⟩
    exact Returns.call hselect returns_ret

variable (reader reported α) in
/-- Giving up returns. -/
theorem returns_giveUp (e : AtomicBlobStoreError) (hlog : log.Ready) : ∃ log',
    Returns (Alone reader reported) (SaveM.giveUp e : SaveM α).run log (.error (.error e)) log' := by
  have hdrop : Alone reader reported .dropChunks log () { log with dropped := true } :=
    ⟨hlog.2, rfl⟩
  have hwait : Alone reader reported .wait { log with dropped := true } (reported log.sent)
      { log with dropped := true, heard := some (reported log.sent) } := ⟨rfl, rfl, hlog.1, hlog.2.2, rfl⟩
  exact ⟨_, Returns.call hdrop (Returns.call hwait returns_ret)⟩

variable (reported declaredLen) in
/-- The loop returns: every chunk brings it nearer to what is declared. -/
theorem returns_saveFromLoop (hanswers : ∀ reads n, 0 < n → ∃ r, reader reads r ∧
      ∀ bytes, r = .ok bytes → bytes.length ≤ n) (facade : Facade) (left : Nat) :
    ∀ (read : Nat) (log : SaveLog), declaredLen - read = left → log.Ready →
      ∃ x log', Returns (Alone reader reported)
        (ProgE.iterate (saveFromTurn declaredLen facade.next) read).run log x log' ∧
        ∀ u, x = .ok u → log'.Ready := by
  induction left using Nat.strongRecOn with
  | _ left ih =>
    intro read log hleft hlog
    by_cases hlt : read < declaredLen
    · obtain ⟨r, hlen, hread⟩ := returns_next reported hanswers facade
        (n := min (declaredLen - read) streamChunkSize)
        (Nat.lt_min.mpr ⟨by omega, by decide⟩) hlog
      have hafter : SaveLog.Ready { log with reads := log.reads ++ [r] } := hlog
      -- whatever the buffer holds, the turn is what `next` gives it to
      have hfirst : saveFromTurn declaredLen facade.next read = facade.next _ >>= _ := if_pos hlt
      rcases r with source | _ | ⟨byte, bytes⟩
      · obtain ⟨log', hgive⟩ := returns_giveUp reader reported (Nat ⊕ Unit) (.inputIo source) hafter
        have hturn : Returns (Alone reader reported) (saveFromTurn declaredLen facade.next read).run
            log (.error (.error (.inputIo source))) log' := by
          rw [hfirst]
          exact returnsE_bind hread hgive
        exact ⟨_, log', returnsE_stop hturn, fun _ hok => by cases hok⟩
      · obtain ⟨log', hgive⟩ := returns_giveUp reader reported (Nat ⊕ Unit)
          (.inputEndedEarly declaredLen read) hafter
        have hturn : Returns (Alone reader reported) (saveFromTurn declaredLen facade.next read).run
            log (.error (.error (.inputEndedEarly declaredLen read))) log' := by
          rw [hfirst]
          exact returnsE_bind hread hgive
        exact ⟨_, log', returnsE_stop hturn, fun _ hok => by cases hok⟩
      · have hsend : Alone reader reported (.send (.chunk (byte :: bytes)))
            { log with reads := log.reads ++ [.ok (byte :: bytes)] } true
            { log with
              reads := log.reads ++ [.ok (byte :: bytes)]
              sent := log.sent ++ [.chunk (byte :: bytes)] } := ⟨rfl, hlog.2, hlog.1, rfl⟩
        have hlen : (byte :: bytes).length ≤ declaredLen - read :=
          Nat.le_trans (hlen _ rfl) (Nat.min_le_left _ _)
        have hpos : 0 < (byte :: bytes).length := Nat.succ_pos _
        obtain ⟨x, log', hrest, hready⟩ := ih (declaredLen - (read + (byte :: bytes).length))
          (by omega) (read + (byte :: bytes).length)
          { log with
            reads := log.reads ++ [.ok (byte :: bytes)]
            sent := log.sent ++ [.chunk (byte :: bytes)] } rfl hlog
        have hturn : Returns (Alone reader reported) (saveFromTurn declaredLen facade.next read).run
            log (.ok (.inl (read + (byte :: bytes).length)))
            { log with
              reads := log.reads ++ [.ok (byte :: bytes)]
              sent := log.sent ++ [.chunk (byte :: bytes)] } := by
          rw [hfirst]
          exact returnsE_bind hread (Returns.call hsend returns_ret)
        exact ⟨x, log', returnsE_next hturn hrest, hready⟩
    · have hturn : saveFromTurn declaredLen facade.next read = pure (.inr ()) := if_neg hlt
      refine ⟨.ok (), log, returnsE_last ?_, fun _ _ => hlog⟩
      rw [hturn]
      exact returns_ret

variable (reported declaredLen) in
/-- What follows the loop returns. -/
theorem returns_saveFromEnd (hanswers : ∀ reads n, 0 < n → ∃ r, reader reads r ∧
      ∀ bytes, r = .ok bytes → bytes.length ≤ n) (facade : Facade) (hlog : log.Ready) :
    ∃ x log', Returns (Alone reader reported) (saveFromEnd declaredLen facade.next).run log x
      log' := by
  obtain ⟨r, hlen, hread⟩ := returns_next reported hanswers facade (n := 1) (by decide) hlog
  have hafter : SaveLog.Ready { log with reads := log.reads ++ [r] } := hlog
  unfold saveFromEnd
  rcases r with source | _ | ⟨byte, bytes⟩
  · obtain ⟨log', hgive⟩ := returns_giveUp reader reported (Except AtomicBlobStoreError Unit)
      (.inputIo source) hafter
    exact ⟨_, log', returnsE_bind hread hgive⟩
  · have hsend : Alone reader reported (.send .complete)
        { log with reads := log.reads ++ [.ok []] } true
        { log with reads := log.reads ++ [.ok []], sent := log.sent ++ [.complete] } :=
      ⟨rfl, hlog.2, hlog.1, rfl⟩
    have hdrop : Alone reader reported .dropChunks
        { log with reads := log.reads ++ [.ok []], sent := log.sent ++ [.complete] } ()
        { log with
          reads := log.reads ++ [.ok []], sent := log.sent ++ [.complete], dropped := true } :=
      ⟨hlog.2, rfl⟩
    have hwait : Alone reader reported .wait
        { log with
          reads := log.reads ++ [.ok []], sent := log.sent ++ [.complete], dropped := true }
        (reported (log.sent ++ [.complete]))
        { log with
          reads := log.reads ++ [.ok []], sent := log.sent ++ [.complete], dropped := true
          heard := some (reported (log.sent ++ [.complete])) } := ⟨rfl, rfl, hlog.1, hlog.2.2, rfl⟩
    exact ⟨_, _, returnsE_bind hread
      (Returns.call hsend (Returns.call hdrop (Returns.call hwait returns_ret)))⟩
  · obtain ⟨log', hgive⟩ := returns_giveUp reader reported (Except AtomicBlobStoreError Unit)
      (.inputHasTrailingData declaredLen) hafter
    exact ⟨_, log', returnsE_bind hread hgive⟩

variable (config declaredLen reported) in
/-- **`save_from` returns**, if its reader always answers and nothing is in its way. -/
theorem returns_saveFrom (hanswers : ∀ reads n, 0 < n → ∃ r, reader reads r ∧
      ∀ bytes, r = .ok bytes → bytes.length ≤ n) (facade : Facade) : ∃ r log',
    Returns (Alone reader reported) (facade.saveFrom config declaredLen) .start r log' := by
  have hopen : Alone reader reported .ensureOpen .start (.ok ()) .start := ⟨rfl, ⟨rfl, rfl⟩, rfl⟩
  have hsubmit : Alone reader reported .submit .start (.ok ())
      { SaveLog.start with submitted := true } := ⟨rfl, ⟨rfl, rfl⟩, rfl⟩
  have hbody : ∃ x log', Returns (Alone reader reported) (ExceptT.run (do
      startSaveStream config declaredLen
      ProgE.iterate (saveFromTurn declaredLen facade.next) 0
      saveFromEnd declaredLen facade.next)) .start x log' := by
    by_cases hlarge : declaredLen > config.maximum
    · have hstart : Returns (Alone reader reported) (startSaveStream config declaredLen).run .start
          (.error (.error (.blobTooLarge declaredLen config.maximum))) .start := by
        refine Returns.call hopen ?_
        show Returns _ (ExceptT.run (if declaredLen > config.maximum then _ else _)) _ _ _
        rw [if_pos hlarge]
        exact returns_ret
      exact ⟨_, _, returnsE_bind_error hstart⟩
    · have hstart : Returns (Alone reader reported) (startSaveStream config declaredLen).run .start
          (.ok ()) { SaveLog.start with submitted := true } := by
        refine Returns.call hopen ?_
        show Returns _ (ExceptT.run (if declaredLen > config.maximum then _ else _)) _ _ _
        rw [if_neg hlarge]
        exact Returns.call hsubmit returns_ret
      obtain ⟨x, log', hloop, hready⟩ := returns_saveFromLoop declaredLen reported
        hanswers facade declaredLen 0
        { SaveLog.start with submitted := true } rfl ⟨rfl, rfl, rfl⟩
      cases x with
      | error r => exact ⟨_, _, returnsE_bind hstart (returnsE_bind_error hloop)⟩
      | ok u =>
        obtain ⟨x, log'', hend⟩ := returns_saveFromEnd declaredLen reported
          hanswers facade (hready u rfl)
        exact ⟨_, _, returnsE_bind hstart (returnsE_bind hloop hend)⟩
  obtain ⟨x, log', hbody⟩ := hbody
  have hreturned : ∃ r, Returns (Alone reader reported) (SaveM.returned (do
      startSaveStream config declaredLen
      ProgE.iterate (saveFromTurn declaredLen facade.next) 0
      saveFromEnd declaredLen facade.next)) .start r log' := by
    cases x with
    | ok r => exact ⟨r, Returns.bind hbody returns_ret⟩
    | error r => exact ⟨r, Returns.bind hbody returns_ret⟩
  obtain ⟨r, hreturned⟩ := hreturned
  cases facade with
  | blocking => exact ⟨r, log', hreturned⟩
  | tokio => exact ⟨r, log', hreturned⟩

end Returning

end AtomicBlobStore
