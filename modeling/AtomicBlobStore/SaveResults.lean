/-
  What a streaming save comes to, where the engine does not fail.

  The caller, the channel and the worker are those of `StreamingSave`, in any order of steps; no call
  of the worker fails, and the directory can take another blob.  What is left to decide the result
  is the reader.

  1. **What was read** — `Answered` is the whole history of a reader, and `answered_of_reachable`
     says that the desk keeps it.

  2. **What was decided** — `concluded` joins the ways to return (`SaveReturns`) with what became of
     the canonical file: saved with `Complete`, untaken without.

  3. **Readers that keep to a script** — data, and then EOF or an error: `saveVerdict` is the result
     as a function of the script, and every run that returns comes to it (`save_follows_script`).

  4. **Readers that may be interrupted** — `ErrorKind::Interrupted` means "try again", as `read_exact`
     and `write_all` do elsewhere in the store; `save_from` does not, so a save is made exactly
     if no read was interrupted (`fragmented_save_iff`).

  Safety alone would be satisfied by a store that saves nothing.  This module says that something is
  saved: which result every run comes to, and that some run comes to one.
-/
import AtomicBlobStore.StreamingSave

namespace AtomicBlobStore

open Relation

/-! ## What was read

  The guarantee was stated for what a desk has read.  To connect it with a reader, the desk must have
  read what the reader answered, no more and no less. -/

/-- The answers of a reader, each as its rule allows after the ones before. -/
inductive Answered (reader : ReadRule) : List (Except IoError (List UInt8)) → Prop
  /-- It was not called yet. -/
  | nil : Answered reader []
  /-- It was called once more. -/
  | snoc {reads : List (Except IoError (List UInt8))} {r : Except IoError (List UInt8)}
      (h : Answered reader reads) (hr : reader reads r) : Answered reader (reads ++ [r])

/-- The history without its last answer is a history. -/
theorem Answered.of_snoc {reader : ReadRule} {reads : List (Except IoError (List UInt8))}
    {r : Except IoError (List UInt8)} (h : Answered reader (reads ++ [r])) :
    Answered reader reads ∧ reader reads r := by
  generalize hall : reads ++ [r] = all at h
  cases h with
  | nil => exact absurd hall (by simp)
  | snoc h hr =>
    obtain ⟨rfl, hlast⟩ := List.append_inj' hall rfl
    obtain rfl := List.singleton_inj.mp hlast
    exact ⟨h, hr⟩

/-- The bytes of the chunks that were read. -/
theorem readBytes_chunks (chunks : List (List UInt8)) :
    readBytes (chunks.map .ok) = chunks.flatten := by
  unfold readBytes
  rw [List.flatMap_map, List.flatMap_def, List.map_id']

/-- Bytes come in the order of the reads. -/
theorem readBytes_append (front back : List (Except IoError (List UInt8))) :
    readBytes (front ++ back) = readBytes front ++ readBytes back := List.flatMap_append

/-- A reader of some bytes has delivered the first of them. -/
theorem Answered.isPrefix {reader : ReadRule} {data : List UInt8}
    (hkeeps : ∀ reads bytes, reader reads (.ok bytes) → bytes <+: data.drop (readBytes reads).length)
    {reads : List (Except IoError (List UInt8))} (h : Answered reader reads) :
    readBytes reads <+: data := by
  induction h with
  | nil => exact List.nil_prefix
  | @snoc reads r _ hr ih =>
    rw [readBytes_append]
    cases r with
    | error source => rwa [show readBytes [.error source] = [] from rfl, List.append_nil]
    | ok bytes =>
      obtain ⟨rest, hrest⟩ := ih
      obtain ⟨after, hafter⟩ := hkeeps reads bytes hr
      rw [← hrest, List.drop_left] at hafter
      rw [show readBytes [.ok bytes] = bytes from List.append_nil bytes]
      exact ⟨after, by rw [List.append_assoc, hafter, hrest]⟩

section Reading

variable {crc32c : Crc32c} {config : StoreConfig} {fault : FsCall → IoError → Prop}
  {reader : ReadRule} {fails : Prop} {facade : Facade} {platform : Platform} {key : KeyHash}
  {declaredLen : Nat} {disk : Disk}

/-- **What holds of the caller alone holds among the others.** -/
theorem caller_holds {Q : Except AtomicBlobStoreError Unit → SaveLog → Prop} {C : SaveLog → Prop}
    (halone : Holds (Facing reader (MayFail fault fails disk)) (facade.saveFrom config declaredLen)
      Q C .start) {s : SaveStream}
    (h : (streamingSave crc32c config fault reader fails facade platform key declaredLen
      disk).Reachable s) :
    (∀ p, s.caller = some p → Holds (Facing reader (MayFail fault fails disk)) p Q C s.desk.log) ∧
      C s.desk.log := by
  refine System.Reachable.invariant (P := fun s => (∀ p, s.caller = some p →
      Holds (Facing reader (MayFail fault fails disk)) p Q C s.desk.log) ∧ C s.desk.log)
    (fun s hs => ?_) (fun s s' hs hcaller hstep => ?_) h
  · obtain rfl : s = _ := hs
    exact ⟨fun p hp => Option.some.inj hp ▸ halone, halone.now⟩
  · obtain ⟨hholds, hnow⟩ := hcaller
    cases hstep with
    | call hcaller hstep =>
      cases hstep with
      | call henv =>
        have hnext := (hholds _ hcaller).step
          (.call ((saveInv_of_reachable hs).faces hcaller henv))
        exact ⟨fun p hp => Option.some.inj hp ▸ hnext, hnext.now⟩
      | loop =>
        have hnext := (hholds _ hcaller).step .loop
        exact ⟨fun p hp => Option.some.inj hp ▸ hnext, hnext.now⟩
    | leave hcaller => exact ⟨hholds, hnow⟩
    | drop hcaller => exact ⟨nofun, hnow⟩
    | work hstep =>
      cases hstep with
      | start hsubmitted hqueued => exact ⟨hholds, hnow⟩
      | work hworker hc henv => exact ⟨hholds, hnow⟩
      | @receive k chunks r hworker hreceives =>
        have hlog := log_receive (p := k r) hreceives
        exact ⟨fun p hp => hlog ▸ hholds p hp, hlog ▸ hnow⟩
      | turn hworker => exact ⟨hholds, hnow⟩
      | finish hworker => exact ⟨hholds, hnow⟩
      | crash hfails hworker => exact ⟨hholds, hnow⟩
    | refuse hfails hsubmitted hqueued => exact ⟨hholds, hnow⟩
    | reply hnone hreplies => exact ⟨hholds, hnow⟩
    | release hover => exact ⟨hholds, hnow⟩

/-- A call reads, or leaves what was read. -/
theorem answered_call {c : SaveCall} {log log' : SaveLog} {r : c.Answer}
    (henv : Facing reader fails c log r log') (h : Answered reader log.reads) :
    Answered reader log'.reads := by
  cases c with
  | ensureOpen =>
    obtain ⟨rfl, -⟩ := henv
    exact h
  | submit =>
    cases r with
    | ok u =>
      obtain rfl : log' = _ := henv
      exact h
    | error e =>
      obtain ⟨rfl, -⟩ := henv
      exact h
  | read n =>
    obtain ⟨hrule, -, rfl⟩ := henv
    exact h.snoc hrule
  | select n =>
    cases r with
    | inl outcome =>
      obtain ⟨-, rfl⟩ := henv
      exact h
    | inr r =>
      obtain ⟨hrule, -, rfl⟩ := henv
      exact h.snoc hrule
  | send message =>
    cases r with
    | true =>
      obtain rfl : log' = _ := henv
      exact h
    | false =>
      obtain ⟨-, rfl⟩ := henv
      exact h
  | dropChunks =>
    obtain rfl : log' = _ := henv
    exact h
  | wait =>
    obtain ⟨-, rfl⟩ := henv
    exact h

/-- **The log keeps what the reader answered.** -/
theorem answered_of_reachable {s : SaveStream}
    (h : (streamingSave crc32c config fault reader fails facade platform key declaredLen
      disk).Reachable s) : Answered reader s.desk.log.reads := by
  refine (caller_holds (Q := fun _ log => Answered reader log.reads)
    (C := fun log => Answered reader log.reads) ?_ h).2
  exact holds_of_calls (Prog.calls_any _) (fun c _ log r log' henv => answered_call henv) .nil

/-- What is too large is refused before anything is read. -/
theorem unread_of_reachable {s : SaveStream} (hlarge : config.maximum < declaredLen)
    (h : (streamingSave crc32c config fault reader fails facade platform key declaredLen
      disk).Reachable s) : s.desk.log.reads = [] := by
  refine (caller_holds (Q := fun _ log => log.reads = []) (C := fun log => log.reads = []) ?_ h).2
  have hbody : HoldsE (Facing reader (MayFail fault fails disk)) (do
      startSaveStream config declaredLen
      ProgE.iterate (saveFromTurn declaredLen facade.next) 0
      saveFromEnd declaredLen facade.next) (fun _ log => log.reads = [])
      (fun _ log => log.reads = []) (fun log => log.reads = []) SaveLog.start := by
    refine holdsE_bind (holds_call (I := SaveInterface) (c := .ensureOpen) rfl fun r log' henv => ?_)
    obtain ⟨rfl, -⟩ := henv
    cases r with
    | error e => exact holds_ret rfl rfl
    | ok u =>
      show HoldsE (Facing reader (MayFail fault fails disk))
        (if declaredLen > config.maximum then _ else _) _ _ _ _
      rw [if_pos hlarge]
      exact holds_ret rfl rfl
  cases facade with
  | blocking => exact holds_returned hbody
  | tokio => exact holds_returned hbody

/-- **The pending result is the worker's**, which changes no more once there is one. -/
theorem replies_of_reachable {s : SaveStream}
    (h : (streamingSave crc32c config fault reader fails facade platform key declaredLen
      disk).Reachable s) : ∀ r, s.desk.reply = some r → s.worker.Replies fails r := by
  refine System.Reachable.invariant
    (P := fun s => ∀ r, s.desk.reply = some r → s.worker.Replies fails r)
    (fun s hs r hr => by rw [hs] at hr; nomatch hr) (fun s s' _ hreplies hstep => ?_) h
  -- a worker that still runs has no result, so its steps need not be looked at
  have hrunning {program : Prog FsInterface (Except Abort Unit)} {r : Except AtomicBlobStoreError Unit}
      (hworker : s.worker = .running program) (hr : s.desk.reply = some r) : False := by
    have hover := (hreplies r hr).over
    rw [hworker] at hover
    exact hover
  have hqueue {r : Except AtomicBlobStoreError Unit} (hqueued : s.worker = .queued)
      (hr : s.desk.reply = some r) : False := by
    have hover := (hreplies r hr).over
    rw [hqueued] at hover
    exact hover
  intro r hr
  cases hstep with
  | call hcaller hstep =>
    cases hstep with
    | call henv => exact hreplies r ((calling_change henv).reply.symm.trans hr)
    | loop => exact hreplies r hr
  | leave hcaller => exact hreplies r hr
  | drop hcaller => exact hreplies r hr
  | work hstep =>
    cases hstep with
    | start hsubmitted hqueued => exact (hqueue hqueued hr).elim
    | work hworker hc henv => exact (hrunning hworker hr).elim
    | receive hworker hreceives => exact (hrunning hworker hr).elim
    | turn hworker => exact (hrunning hworker hr).elim
    | finish hworker => exact (hrunning hworker hr).elim
    | crash hfails hworker => exact (hrunning hworker hr).elim
  | refuse hfails hsubmitted hqueued => exact (hqueue hqueued hr).elim
  | reply hnone hanswer =>
    obtain rfl := Option.some.inj hr
    exact hanswer
  | release hover => exact hreplies r hr

end Reading

/-! ## What was decided

  There are many ways to return and two things a directory can look like afterwards. -/

section Concluding

variable (crc32c : Crc32c) (config : StoreConfig) (platform : Platform) (key : KeyHash)
  (declaredLen : Nat) (disk : Disk)

/-- What a call that has returned leaves. -/
structure Concluded (r : Except AtomicBlobStoreError Unit) (s : SaveStream) : Prop where
  returns : SaveReturns config declaredLen False r s.desk.log
  /-- What was completed was saved, and that was reported. -/
  completed : .complete ∈ s.desk.chunks.sent → r = .ok () ∧
    ∃ payload, s.desk.log.Completed declaredLen payload ∧
      Saved crc32c config (.start disk) key payload s.world
  /-- What was not leaves the canonical file. -/
  cancelled : .complete ∉ s.desk.chunks.sent → Untaken config key disk s.world

variable {crc32c config platform key declaredLen disk}

/-- Nothing stands in the way of a save. -/
theorem not_mayFail (hdirectory : disk.isDirectory = true) : ¬MayFail Faultless False disk := by
  rintro (hfails | ⟨c, e, hfault⟩ | hmissing)
  · exact hfails
  · exact hfault
  · have hmissing : disk.isDirectory = false := hmissing
    rw [hdirectory] at hmissing
    nomatch hmissing

/-- **What a call returns is concluded**: the worker has come to its end, and did what it was told. -/
theorem concluded {reader : ReadRule} {facade : Facade} {s : SaveStream}
    {r : Except AtomicBlobStoreError Unit} (hdirectory : disk.isDirectory = true)
    (h : (streamingSave crc32c config Faultless reader False facade platform key declaredLen
      disk).Reachable s) (hcaller : s.caller = some (.ret r)) :
    Concluded crc32c config key declaredLen disk r s := by
  have hinv := saveInv_of_reachable h
  have hquiet := not_mayFail hdirectory
  have hreturns : SaveReturns config declaredLen False r s.desk.log := by
    cases (hinv.caller _ hcaller).result with
    | completed chunks hreads hlen hsent hheard => exact .completed chunks hreads hlen hsent hheard
    | endedEarly chunks hreads hlt hsent => exact .endedEarly chunks hreads hlt hsent
    | readFailed chunks source hreads hle hsent => exact .readFailed chunks source hreads hle hsent
    | trailing chunks chunk hne hreads hlen hsent =>
      exact .trailing chunks chunk hne hreads hlen hsent
    | tooLarge hlt hreads hsent => exact .tooLarge hlt hreads hsent
    | cutShort hfail _ => exact absurd hfail hquiet
    | notStarted hfail _ _ => exact absurd hfail hquiet
  refine ⟨hreturns, fun hcomplete => ?_, hinv.untaken⟩
  -- only a call that heard the worker has sent `Complete`
  have hheard : s.desk.heard = some r := by
    have hnot {chunks : List (List UInt8)} (hsent : s.desk.log.sent = feed chunks) : False :=
      complete_not_mem_feed chunks (hsent ▸ hcomplete)
    cases hreturns with
    | completed chunks hreads hlen hsent hheard => exact hheard
    | endedEarly chunks hreads hlt hsent => exact (hnot hsent).elim
    | readFailed chunks source hreads hle hsent => exact (hnot hsent).elim
    | trailing chunks chunk hne hreads hlen hsent => exact (hnot hsent).elim
    | tooLarge hlt hreads hsent =>
      have hcomplete : SaveStreamMessage.complete ∈ s.desk.log.sent := hcomplete
      rw [hsent] at hcomplete
      nomatch hcomplete
    | cutShort hfail _ => exact hfail.elim
    | notStarted hfail _ _ => exact hfail.elim
  have hreplies := replies_of_reachable h r (hinv.heard r hheard)
  cases hworker : s.worker with
  | queued =>
    rw [hworker] at hreplies
    exact hreplies.elim
  | running program =>
    rw [hworker] at hreplies
    exact hreplies.elim
  | refused => exact (hinv.refused hworker).elim
  | ended outcome =>
    rw [hworker] at hreplies
    rcases hinv.ends hworker with ⟨-, hfails⟩ | ⟨rfl, hcommitted⟩ |
      ⟨e, -, htrouble | ⟨-, -, hnot⟩⟩
    · exact hfails.elim
    · refine ⟨?_, (hinv.committed hcommitted).2⟩
      rcases hreplies with hok | ⟨hfails, -⟩
      · exact hok
      · exact hfails.elim
    · exact absurd (Or.inr htrouble) hquiet
    · exact absurd hcomplete hnot

end Concluding

/-! ## Readers that keep to a script

  Nothing else than the script decides: not the cuts between chunks, not the capacity of the channel,
  and not the order in which the parties take their steps. -/

section Scripts

variable (crc32c : Crc32c) (config : StoreConfig) (key : KeyHash) (declaredLen : Nat) (disk : Disk)
  (data : List UInt8) (ending : Option IoError)

/-- The result that a script leads to. -/
def saveVerdict : Except AtomicBlobStoreError Unit :=
  if config.maximum < declaredLen then .error (.blobTooLarge declaredLen config.maximum)
  else if declaredLen < data.length then .error (.inputHasTrailingData declaredLen)
  else match ending with
    | some source => .error (.inputIo source)
    | none =>
      if data.length < declaredLen then .error (.inputEndedEarly declaredLen data.length) else .ok ()

/-- What a call leaves that has read a script, and returned. -/
structure FollowsScript (r : Except AtomicBlobStoreError Unit) (s : SaveStream) : Prop where
  /-- The result is that of the script. -/
  result : r = saveVerdict config declaredLen data ending
  /-- What is not refused was sent, as far as declared, -/
  sent : bytesOf s.desk.chunks.sent =
    if config.maximum < declaredLen then [] else data.take declaredLen
  /-- and was completed exactly if the call succeeded. -/
  completes : .complete ∈ s.desk.chunks.sent ↔ r = .ok ()
  /-- Then it is saved, -/
  saved : r = .ok () → Saved crc32c config (.start disk) key data s.world
  /-- and else the canonical file is what it was. -/
  untaken : r ≠ .ok () → Untaken config key disk s.world
  /-- What is too large is refused before anything is read. -/
  unread : config.maximum < declaredLen → s.desk.reads = []

variable {crc32c config key declaredLen disk data ending}

/-- What a script allows after some chunks. -/
theorem Script.after {reader : ReadRule} (hscript : Script data ending reader)
    {chunks : List (List UInt8)} {r : Except IoError (List UInt8)}
    (h : Answered reader (chunks.map .ok ++ [r])) :
    ∃ rest, data = chunks.flatten ++ rest ∧
      (match r with
        | .ok [] => rest = [] ∧ ending = none
        | .ok (byte :: bytes) => byte :: bytes <+: rest
        | .error source => rest = [] ∧ ending = some source) := by
  obtain ⟨hchunks, hr⟩ := h.of_snoc
  have hkeeps : ∀ reads bytes, reader reads (.ok bytes) →
      bytes <+: data.drop (readBytes reads).length := by
    intro reads bytes hread
    have hrule := hscript.keeps reads _ hread
    cases bytes with
    | nil => exact List.nil_prefix
    | cons byte bytes => exact hrule
  obtain ⟨rest, hrest⟩ := hchunks.isPrefix hkeeps
  have hrule := hscript.keeps _ _ hr
  have hdrop : data.drop (readBytes (chunks.map .ok)).length = rest := by
    rw [← hrest, List.drop_left]
  refine ⟨rest, by rw [← hrest, readBytes_chunks], ?_⟩
  rcases r with source | _ | ⟨byte, bytes⟩
  · obtain ⟨hnil, hending⟩ := hrule
    exact ⟨hdrop ▸ hnil, hending⟩
  · obtain ⟨hnil, hending⟩ := hrule
    exact ⟨hdrop ▸ hnil, hending⟩
  · exact hdrop ▸ hrule

/-- What was sent without `Complete`. -/
theorem not_complete_of_feed {s : SaveStream} {chunks : List (List UInt8)}
    (hsent : s.desk.log.sent = feed chunks) :
    bytesOf s.desk.chunks.sent = chunks.flatten ∧ .complete ∉ s.desk.chunks.sent := by
  have hsent : s.desk.chunks.sent = feed chunks := hsent
  rw [hsent]
  exact ⟨bytesOf_feed chunks, complete_not_mem_feed chunks⟩

/-- A call that failed, and what its error says of the script. -/
theorem Concluded.failed {s : SaveStream} {e : AtomicBlobStoreError} {chunks : List (List UInt8)}
    (h : Concluded crc32c config key declaredLen disk (.error e) s)
    (hmax : declaredLen ≤ config.maximum) (hsent : s.desk.log.sent = feed chunks)
    (htake : chunks.flatten = data.take declaredLen)
    (hverdict : .error e = saveVerdict config declaredLen data ending) :
    FollowsScript crc32c config key declaredLen disk data ending (.error e) s := by
  obtain ⟨hbytes, hnot⟩ := not_complete_of_feed hsent
  exact {
    result := hverdict
    sent := by rw [hbytes, htake, if_neg (Nat.not_lt.mpr hmax)]
    completes := ⟨fun hcomplete => absurd hcomplete hnot, nofun⟩
    saved := nofun
    untaken := fun _ => h.cancelled hnot
    unread := fun hlt => absurd hmax (Nat.not_le.mpr hlt) }

/-- **A call follows its script.** -/
theorem Concluded.follows {reader : ReadRule} (hscript : Script data ending reader) {s : SaveStream}
    {r : Except AtomicBlobStoreError Unit} (h : Concluded crc32c config key declaredLen disk r s)
    (hanswered : Answered reader s.desk.log.reads)
    (hunread : config.maximum < declaredLen → s.desk.log.reads = []) :
    FollowsScript crc32c config key declaredLen disk data ending r s := by
  -- whoever read anything has seen that the declared length is within the maximum
  have hmax {front : List (Except IoError (List UInt8))} {r : Except IoError (List UInt8)}
      (hreads : s.desk.log.reads = front ++ [r]) : declaredLen ≤ config.maximum := by
    refine Nat.le_of_not_lt fun hlt => ?_
    rw [hunread hlt] at hreads
    exact absurd (List.append_eq_nil_iff.mp hreads.symm).2 (List.cons_ne_nil _ _)
  cases h.returns with
  | completed chunks hreads hlen hsent hheard =>
    have hle := hmax hreads
    have hcomplete : SaveStreamMessage.complete ∈ s.desk.chunks.sent := by
      have hsent : s.desk.chunks.sent = feed chunks ++ [.complete] := hsent
      rw [hsent]
      exact List.mem_append_right _ (List.mem_singleton_self _)
    -- a stream that was completed is known from the worker's side, whatever the caller returns
    obtain ⟨rfl, _, ⟨chunks', -, rfl, hlen', hreads', hsent'⟩, hsaved⟩ := h.completed hcomplete
    rw [hreads'] at hanswered
    obtain ⟨rest, rfl, rfl, rfl⟩ := hscript.after hanswered
    rw [List.append_nil]
    have hsent' : s.desk.chunks.sent = feed chunks' ++ [.complete] := hsent'
    exact {
      result := by
        unfold saveVerdict
        rw [if_neg (Nat.not_lt.mpr hle), if_neg (by omega), if_neg (by omega)]
      sent := by
        rw [hsent', bytesOf_append, bytesOf_feed, bytesOf_complete, List.append_nil,
          if_neg (Nat.not_lt.mpr hle), List.take_of_length_le (Nat.le_of_eq hlen')]
      completes := ⟨fun _ => rfl, fun _ => hcomplete⟩
      saved := fun _ => hsaved
      untaken := fun hne => absurd rfl hne
      unread := hunread }
  | endedEarly chunks hreads hlt hsent =>
    have hle := hmax hreads
    rw [hreads] at hanswered
    obtain ⟨rest, rfl, rfl, rfl⟩ := hscript.after hanswered
    rw [List.append_nil]
    refine h.failed hle hsent (List.take_of_length_le (Nat.le_of_lt hlt)).symm ?_
    unfold saveVerdict
    rw [if_neg (Nat.not_lt.mpr hle), if_neg (by omega), if_pos hlt]
  | readFailed chunks source hreads hshort hsent =>
    have hle := hmax hreads
    rw [hreads] at hanswered
    obtain ⟨rest, rfl, rfl, rfl⟩ := hscript.after hanswered
    rw [List.append_nil]
    refine h.failed hle hsent (List.take_of_length_le hshort).symm ?_
    unfold saveVerdict
    rw [if_neg (Nat.not_lt.mpr hle), if_neg (by omega)]
  | trailing chunks chunk hne hreads hlen hsent =>
    have hle := hmax hreads
    rw [hreads] at hanswered
    obtain ⟨rest, rfl, hrest⟩ := hscript.after hanswered
    refine h.failed hle hsent (List.take_left' hlen).symm ?_
    -- the chunk after the declared length is not empty, so the script is longer than declared
    have hmore : 0 < rest.length := by
      cases chunk with
      | nil => exact absurd rfl hne
      | cons byte bytes => exact Nat.lt_of_lt_of_le (Nat.succ_pos _) hrest.length_le
    unfold saveVerdict
    rw [if_neg (Nat.not_lt.mpr hle), if_pos (by rw [List.length_append]; omega)]
  | tooLarge hlt hreads hsent =>
    have hsent : s.desk.chunks.sent = [] := hsent
    have hnot : SaveStreamMessage.complete ∉ s.desk.chunks.sent := by
      rw [hsent]
      exact List.not_mem_nil
    exact {
      result := (if_pos hlt).symm
      sent := by rw [hsent, if_pos hlt]; rfl
      completes := ⟨fun hcomplete => absurd hcomplete hnot, nofun⟩
      saved := nofun
      untaken := fun _ => h.cancelled hnot
      unread := hunread }
  | cutShort hfail _ => exact hfail.elim
  | notStarted hfail _ _ => exact hfail.elim

/-- **Both facades come to the result of the script**: wherever a call has returned, whatever the
    order of steps; and some run returns. -/
theorem save_follows_script {reader : ReadRule} (hscript : Script data ending reader)
    {platform : Platform} (hroomy : Roomy config key disk platform) (facade : Facade) :
    (∃ s r, (streamingSave crc32c config Faultless reader False facade platform key declaredLen
      disk).Reachable s ∧ s.caller = some (.ret r)) ∧
    ∀ s r, (streamingSave crc32c config Faultless reader False facade platform key declaredLen
      disk).Reachable s → s.caller = some (.ret r) →
        FollowsScript crc32c config key declaredLen disk data ending r s := by
  refine ⟨streamingSave_returns crc32c config declaredLen False hroomy hscript.answers facade, ?_⟩
  intro s r hs hcaller
  exact (concluded hroomy.1 hs hcaller).follows hscript (answered_of_reachable hs)
    fun hlarge => unread_of_reachable hlarge hs

end Scripts

/-! ## Readers that may be interrupted

  An interruption delivers nothing and loses nothing.  A reader that is called again goes on where it
  was, so a save that gives up has given up on data that was there. -/

section Interruptions

/-- `ErrorKind::Interrupted`, which the contract of `read` defines as retryable. -/
def Interrupted : Except IoError (List UInt8) → Prop
  | .ok _ => False
  | .error source => source.kind = .interrupted

/-- A reader that delivers a payload in pieces and then EOF, and may be interrupted at any time. -/
structure Fragmented (payload : List UInt8) (reader : ReadRule) : Prop where
  /-- The reader keeps to the payload, or is interrupted, -/
  keeps : ∀ reads r, reader reads r → Interrupted r ∨ Scripted payload none reads r
  /-- and always answers, within the buffer. -/
  answers : ∀ reads n, 0 < n → ∃ r, reader reads r ∧ ∀ bytes, r = .ok bytes → bytes.length ≤ n

/-- Without interruptions it keeps to a script. -/
theorem Fragmented.after {payload : List UInt8} {reader : ReadRule}
    (hreader : Fragmented payload reader) {chunks : List (List UInt8)}
    {r : Except IoError (List UInt8)} (h : Answered reader (chunks.map .ok ++ [r]))
    (hnot : ¬Interrupted r) : ∃ rest, payload = chunks.flatten ++ rest ∧
      ∃ bytes, r = .ok bytes ∧ bytes <+: rest ∧ (bytes = [] → rest = []) := by
  obtain ⟨hchunks, hr⟩ := h.of_snoc
  have hkeeps : ∀ reads bytes, reader reads (.ok bytes) →
      bytes <+: payload.drop (readBytes reads).length := by
    intro reads bytes hread
    have hrule := (hreader.keeps reads _ hread).resolve_left id
    cases bytes with
    | nil => exact List.nil_prefix
    | cons byte bytes => exact hrule
  obtain ⟨rest, hrest⟩ := hchunks.isPrefix hkeeps
  have hdrop : payload.drop (readBytes (chunks.map .ok)).length = rest := by
    rw [← hrest, List.drop_left]
  have hrule := (hreader.keeps _ _ hr).resolve_left hnot
  refine ⟨rest, by rw [← hrest, readBytes_chunks], ?_⟩
  rcases r with source | _ | ⟨byte, bytes⟩
  · nomatch hrule.2
  · exact ⟨[], rfl, List.nil_prefix, fun _ => hdrop ▸ hrule.1⟩
  · exact ⟨byte :: bytes, rfl, hdrop ▸ hrule, nofun⟩

variable {crc32c : Crc32c} {config : StoreConfig} {key : KeyHash} {disk : Disk}
  {payload : List UInt8} {reader : ReadRule}

/-- **A save of all that a reader has** succeeds exactly if no read was interrupted. -/
theorem Concluded.saved_iff (hreader : Fragmented payload reader) {s : SaveStream}
    {r : Except AtomicBlobStoreError Unit}
    (hmax : payload.length ≤ config.maximum)
    (h : Concluded crc32c config key payload.length disk r s)
    (hanswered : Answered reader s.desk.log.reads) :
    (r = .ok () ∧ Saved crc32c config (.start disk) key payload s.world) ↔
      ∀ answer ∈ s.desk.log.reads, ¬Interrupted answer := by
  -- the last answer, and that the others were chunks
  have hlast {chunks : List (List UInt8)} {answer : Except IoError (List UInt8)}
      (hreads : s.desk.log.reads = chunks.map .ok ++ [answer]) :
      Answered reader (chunks.map .ok ++ [answer]) ∧ answer ∈ s.desk.log.reads := by
    rw [hreads] at hanswered ⊢
    exact ⟨hanswered, List.mem_append_right _ (List.mem_singleton_self _)⟩
  cases h.returns with
  | completed chunks hreads hlen hsent hheard =>
    have hcomplete : SaveStreamMessage.complete ∈ s.desk.chunks.sent := by
      have hsent : s.desk.chunks.sent = feed chunks ++ [.complete] := hsent
      rw [hsent]
      exact List.mem_append_right _ (List.mem_singleton_self _)
    obtain ⟨rfl, _, ⟨chunks', -, rfl, -, hreads', -⟩, hsaved⟩ := h.completed hcomplete
    obtain ⟨rest, rfl, bytes, hbytes, -, hrest⟩ := hreader.after (hlast hreads').1 id
    obtain rfl := Except.ok.inj hbytes
    obtain rfl := hrest rfl
    rw [List.append_nil]
    refine ⟨fun _ answer hmem => ?_, fun _ => ⟨rfl, hsaved⟩⟩
    rw [hreads'] at hmem
    rcases List.mem_append.mp hmem with hmem | hmem
    · obtain ⟨chunk, -, rfl⟩ := List.mem_map.mp hmem
      exact id
    · obtain rfl := List.mem_singleton.mp hmem
      exact id
  | endedEarly chunks hreads hlt hsent =>
    -- EOF does not come before the last byte
    obtain ⟨rest, rfl, bytes, hbytes, -, hrest⟩ := hreader.after (hlast hreads).1 id
    obtain rfl := Except.ok.inj hbytes
    obtain rfl := hrest rfl
    rw [List.append_nil] at hlt
    exact absurd hlt (Nat.lt_irrefl _)
  | readFailed chunks source hreads hle hsent =>
    constructor
    · rintro ⟨hok, -⟩
      nomatch hok
    · intro hnone
      obtain ⟨hlast, hmem⟩ := hlast hreads
      obtain ⟨rest, -, bytes, hbytes, -⟩ := hreader.after hlast (hnone _ hmem)
      nomatch hbytes
  | trailing chunks chunk hne hreads hlen hsent =>
    -- nothing comes after the last byte
    obtain ⟨rest, rfl, bytes, hbytes, hprefix, -⟩ := hreader.after (hlast hreads).1 id
    obtain rfl := Except.ok.inj hbytes
    rw [List.length_append] at hlen
    obtain rfl : rest = [] := List.length_eq_zero_iff.mp (by omega)
    exact absurd (List.prefix_nil.mp hprefix) hne
  | tooLarge hlt hreads hsent => exact absurd hmax (Nat.not_le.mpr hlt)
  | cutShort hfail _ => exact hfail.elim
  | notStarted hfail _ _ => exact hfail.elim

variable (crc32c config) in
/-- **A streaming save depends only on the bytes of its source, exactly as long as no read is
    interrupted**: in every run of a blocking `save_from` whose reader delivers the payload; and some
    run returns. -/
theorem fragmented_save_iff (hmax : payload.length ≤ config.maximum)
    (hreader : Fragmented payload reader) {platform : Platform}
    (hroomy : Roomy config key disk platform) :
    (∃ s r, (streamingSave crc32c config Faultless reader False .blocking platform key
      payload.length disk).Reachable s ∧ s.caller = some (.ret r)) ∧
    ∀ s r, (streamingSave crc32c config Faultless reader False .blocking platform key
      payload.length disk).Reachable s → s.caller = some (.ret r) →
        ((r = .ok () ∧ Saved crc32c config (.start disk) key payload s.world) ↔
          ∀ answer ∈ s.desk.reads, ¬Interrupted answer) := by
  refine ⟨streamingSave_returns crc32c config payload.length False hroomy hreader.answers .blocking,
    ?_⟩
  intro s r hs hcaller
  exact (concluded hroomy.1 hs hcaller).saved_iff hreader hmax (answered_of_reachable hs)

/-- A reader of one byte, whose first read is interrupted by a signal. -/
def interruptedOnce : ReadRule
  | [], r => r = .error ⟨.interrupted, 4⟩
  | answer :: reads, r => Scripted [7] none (answer :: reads) r

/-- The interruption is allowed, and the byte comes after it. -/
theorem fragmented_interruptedOnce : Fragmented [7] interruptedOnce where
  keeps reads r h := by
    cases reads with
    | nil =>
      obtain rfl : r = _ := h
      exact Or.inl rfl
    | cons answer reads => exact Or.inr h
  answers reads n hn := by
    cases reads with
    | nil => exact ⟨_, rfl, nofun⟩
    | cons answer reads => exact (scripted [7] none).answers _ n hn

/-- Its first answer is the interruption. -/
theorem answered_interruptedOnce {reads : List (Except IoError (List UInt8))}
    (h : Answered interruptedOnce reads) :
    reads = [] ∨ ∃ more, reads = .error ⟨.interrupted, 4⟩ :: more := by
  induction h with
  | nil => exact Or.inl rfl
  | @snoc reads r _ hr ih =>
    rcases ih with rfl | ⟨more, rfl⟩
    · obtain rfl : r = _ := hr
      exact Or.inr ⟨[], rfl⟩
    · exact Or.inr ⟨more ++ [r], rfl⟩

/-- The save of that byte fails, although the reader delivers it and the engine does not fail. -/
theorem interrupted_save_fails : Fragmented [7] interruptedOnce ∧ ∃ s,
    (streamingSave crc32cReference ⟨testFormat, 16, 1, by decide, by decide⟩ Faultless
      interruptedOnce False .blocking .unix (Vector.replicate 32 0) 1
      (.directory fun _ => none)).Reachable s ∧
    s.caller = some (.ret (.error (.inputIo ⟨.interrupted, 4⟩))) ∧
    s.world.disk.entry (blobFilename testFormat (Vector.replicate 32 0)) = none := by
  refine ⟨fragmented_interruptedOnce, ?_⟩
  let config : StoreConfig := ⟨testFormat, 16, 1, by decide, by decide⟩
  have hroomy : Roomy config (Vector.replicate 32 0) (.directory fun _ => none) .unix := ⟨rfl, nofun⟩
  obtain ⟨s, r, hs, hcaller⟩ := streamingSave_returns crc32cReference config 1 False hroomy
    fragmented_interruptedOnce.answers .blocking
  have h := concluded hroomy.1 hs hcaller
  have huntaken (hnot : SaveStreamMessage.complete ∉ s.desk.chunks.sent) :
      s.world.disk.entry (blobFilename testFormat (Vector.replicate 32 0)) = none :=
    ((h.cancelled hnot).canonical _).trans (if_pos rfl)
  -- the call has read something, so it was interrupted, and has read nothing else
  have hfirst {chunks : List (List UInt8)} {answer : Except IoError (List UInt8)}
      (hreads : s.desk.log.reads = chunks.map .ok ++ [answer]) :
      chunks = [] ∧ answer = .error ⟨.interrupted, 4⟩ := by
    rcases answered_interruptedOnce (answered_of_reachable hs) with hnil | ⟨more, hmore⟩
    · rw [hnil] at hreads
      exact absurd hreads.symm (List.append_ne_nil_of_right_ne_nil _ (List.cons_ne_nil _ _))
    · rw [hmore] at hreads
      cases chunks with
      | nil => exact ⟨rfl, (List.cons.inj hreads).1.symm⟩
      | cons chunk chunks => nomatch (List.cons.inj hreads).1
  cases h.returns with
  | completed chunks hreads hlen hsent hheard => nomatch (hfirst hreads).2
  | endedEarly chunks hreads hlt hsent => nomatch (hfirst hreads).2
  | readFailed chunks source hreads hle hsent =>
    obtain ⟨-, hsource⟩ := hfirst hreads
    obtain rfl := Except.error.inj hsource
    exact ⟨s, hs, hcaller, huntaken (not_complete_of_feed hsent).2⟩
  | trailing chunks chunk hne hreads hlen hsent => nomatch (hfirst hreads).2
  | tooLarge hlt hreads hsent => exact absurd hlt (by decide)
  | cutShort hfail _ => exact hfail.elim
  | notStarted hfail _ _ => exact hfail.elim

/-- A reader that delivers a payload byte by byte, and is never interrupted. -/
def Bytewise (payload : List UInt8) : ReadRule := fun reads r =>
  r = .ok ((payload.drop (readBytes reads).length).take 1)

/-- One byte at a time is a way to deliver a payload. -/
theorem fragmented_bytewise (payload : List UInt8) : Fragmented payload (Bytewise payload) where
  keeps reads r h := by
    obtain rfl : r = .ok ((payload.drop (readBytes reads).length).take 1) := h
    right
    cases hleft : payload.drop (readBytes reads).length with
    | nil => exact ⟨hleft, rfl⟩
    | cons byte rest =>
      show [byte] <+: payload.drop (readBytes reads).length
      rw [hleft]
      exact ⟨rest, rfl⟩
  answers reads n hn := by
    refine ⟨_, rfl, fun bytes hbytes => ?_⟩
    rw [← Except.ok.inj hbytes, List.length_take]
    omega

/-- Every answer is a byte, or EOF. -/
theorem read_bytewise {payload : List UInt8} {reads : List (Except IoError (List UInt8))}
    (h : Answered (Bytewise payload) reads) :
    ∀ answer ∈ reads, ∃ bytes, answer = .ok bytes ∧ bytes.length ≤ 1 := by
  induction h with
  | nil => exact fun answer hmem => nomatch hmem
  | @snoc reads r _ hr ih =>
    intro answer hmem
    rcases List.mem_append.mp hmem with hmem | hmem
    · exact ih answer hmem
    · rw [List.mem_singleton.mp hmem]
      exact ⟨_, hr, List.length_take_le _ _⟩

/-- None of its answers is an interruption. -/
theorem uninterrupted_bytewise {payload : List UInt8} {reads : List (Except IoError (List UInt8))}
    (h : Answered (Bytewise payload) reads) : ∀ answer ∈ reads, ¬Interrupted answer := by
  intro answer hmem
  obtain ⟨bytes, rfl, -⟩ := read_bytewise h answer hmem
  exact id

/-- Two bytes in two reads, and then EOF: they are saved. -/
theorem fragmented_save_sample : ∃ s,
    (streamingSave crc32cReference ⟨testFormat, 16, 1, by decide, by decide⟩ Faultless
      (Bytewise [7, 9]) False .blocking .unix (Vector.replicate 32 0) 2
      (.directory fun _ => none)).Reachable s ∧ s.caller = some (.ret (.ok ())) ∧
    Saved crc32cReference ⟨testFormat, 16, 1, by decide, by decide⟩
      (.start (.directory fun _ => none)) (Vector.replicate 32 0) [7, 9] s.world ∧
    ∀ answer ∈ s.desk.reads, ∃ bytes, answer = .ok bytes ∧ bytes.length ≤ 1 := by
  let config : StoreConfig := ⟨testFormat, 16, 1, by decide, by decide⟩
  have hroomy : Roomy config (Vector.replicate 32 0) (.directory fun _ => none) .unix := ⟨rfl, nofun⟩
  obtain ⟨⟨s, r, hs, hcaller⟩, hiff⟩ := fragmented_save_iff crc32cReference config
    (by decide : [(7 : UInt8), 9].length ≤ 16) (fragmented_bytewise [7, 9]) hroomy
  have hanswered := answered_of_reachable hs
  obtain ⟨rfl, hsaved⟩ := (hiff s r hs hcaller).mpr (uninterrupted_bytewise hanswered)
  exact ⟨s, hs, hcaller, hsaved, read_bytewise hanswered⟩

/-- The guarantee of a streaming save at the end of such a run: the call has returned `Ok`, the worker
    has committed, and the canonical file is the envelope of the two bytes. -/
theorem streaming_save_safe_sample : ∃ s, s.caller = some (.ret (.ok ())) ∧
    s.world.disk.entry (blobFilename testFormat (Vector.replicate 32 0)) =
      some (.file (envelope crc32cReference testFormat [7, 9])) ∧
    SafeStream crc32cReference ⟨testFormat, 16, 1, by decide, by decide⟩ Faultless (Bytewise [7, 9])
      False .unix (Vector.replicate 32 0) 2 (.directory fun _ => none) s := by
  let config : StoreConfig := ⟨testFormat, 16, 1, by decide, by decide⟩
  have hroomy : Roomy config (Vector.replicate 32 0) (.directory fun _ => none) .unix := ⟨rfl, nofun⟩
  have hreader := fragmented_bytewise [7, 9]
  obtain ⟨s, r, hs, hcaller⟩ := streamingSave_returns crc32cReference config 2 False hroomy
    hreader.answers .blocking
  have hanswered := answered_of_reachable hs
  obtain ⟨rfl, hsaved⟩ := ((concluded hroomy.1 hs hcaller).saved_iff hreader (by decide)
    hanswered).mpr (uninterrupted_bytewise hanswered)
  exact ⟨s, hcaller, hsaved.self, streaming_save_safe _ _ _ _ _ _ _ _ _ _ hs⟩

end Interruptions

end AtomicBlobStore
