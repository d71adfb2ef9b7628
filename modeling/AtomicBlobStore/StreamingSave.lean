/-
  STREAMING SAVES: the caller, the channel and the worker of one `save_from`.

  The caller runs `save_from` (`Facade`), the worker `save_blob_from_receiver`; between them are a
  bounded channel of chunks and the pending result.  The reader may answer anything that the read
  contract allows, the caller may be dropped at any point, the worker may fail, panic, or never be
  started, and all of them take their steps in any order.

  1. **The caller alone** is `holds_saveFrom` (`SaveFrom`): what it sent are the bytes it read, and
     `Complete` comes last.

  2. **The worker alone** is `holds_saveBlobFromReceiver`: it commits only what it received, and
     only with `Complete`.

  3. **Together** — `SaveInv` joins both through the channel, and `streaming_save_safe` is the
     result.  Once `Complete` is in the channel the worker no longer depends on the caller: with and
     without it, it can do the same (`Alike`).

  4. **Runs that end** (`streamingSave_returns`): where no file operation fails and the reader always
     answers, some run of the parties returns.

  Dropping a future is a step like any other here: it can come between any two calls of the caller,
  and the worker is not told otherwise than by its channel.  What has to be excluded is that a cut-off
  stream looks complete, and it is excluded by the message `Complete`, which only a caller sends that
  has seen the end of its input.
-/
import AtomicBlobStore.Lib.Channel
import AtomicBlobStore.Lib.Transition
import AtomicBlobStore.Jobs
import AtomicBlobStore.SaveFrom

namespace AtomicBlobStore

open Relation

/-! ## The parties

  A state has what each party has of the streams: its program, its world, and its ends of the
  channels.  A party that is dropped keeps its world, and takes no steps. -/

/-- What `save_from` works on. -/
structure SaveDesk where
  /-- A save was submitted. -/
  submitted : Bool
  /-- What the reader answered. -/
  reads : List (Except IoError (List UInt8))
  /-- The caller dropped its end of the channel. -/
  dropped : Bool
  /-- The result that it was given. -/
  heard : Option (Except AtomicBlobStoreError Unit)
  /-- The channel of chunks. -/
  chunks : Channel SaveStreamMessage
  /-- The pending result. -/
  reply : Option (Except AtomicBlobStoreError Unit)

/-- The desk before the call. -/
def SaveDesk.start : SaveDesk := ⟨false, [], false, none, .new, none⟩

/-- The log of a desk. -/
def SaveDesk.log (desk : SaveDesk) : SaveLog :=
  ⟨desk.submitted, desk.reads, desk.chunks.sent, desk.dropped, desk.heard⟩

/-- Which answers the caller may get; only an engine that `fails` refuses it. -/
def Calling (reader : ReadRule) (fails : Prop) : Environment SaveInterface SaveDesk
  | .ensureOpen, desk, r, desk' => desk' = desk ∧ ∀ e, r = .error e → fails
  | .submit, desk, r, desk' => match r with
    | .ok () => desk' = { desk with submitted := true }
    | .error _ => desk' = desk ∧ fails
  | .read n, desk, r, desk' => reader desk.reads r ∧ (∀ bytes, r = .ok bytes → bytes.length ≤ n) ∧
      desk' = { desk with reads := desk.reads ++ [r] }
  | .select n, desk, r, desk' => match r with
    | .inl outcome => desk.reply = some outcome ∧ desk' = { desk with heard := some outcome }
    | .inr r => desk.reply = none ∧ reader desk.reads r ∧
        (∀ bytes, r = .ok bytes → bytes.length ≤ n) ∧
        desk' = { desk with reads := desk.reads ++ [r] }
  | .send message, desk, r, desk' => ∃ chunks,
      Channel.Sends streamChannelCapacity message desk.chunks r chunks ∧
        desk' = { desk with chunks := chunks }
  | .dropChunks, desk, _, desk' =>
    desk' = { desk with dropped := true, chunks := desk.chunks.dropSenders }
  | .wait, desk, r, desk' => desk.reply = some r ∧ desk' = { desk with heard := some r }

/-- Where a worker is with the save. -/
inductive SaveWorker
  /-- No worker has taken the save. -/
  | queued
  /-- A worker has, and this is left of its program. -/
  | running (program : Prog FsInterface (Except Abort Unit))
  /-- It has come to an end. -/
  | ended (outcome : Except Abort Unit)
  /-- No worker will ever take it. -/
  | refused

/-- The caller, unless it was dropped, its desk, the worker and its world. -/
structure SaveStream where
  /-- What is left of the caller's program, unless it is gone. -/
  caller : Option (Prog SaveInterface (Except AtomicBlobStoreError Unit))
  /-- What the caller and the worker share. -/
  desk : SaveDesk
  /-- The worker. -/
  worker : SaveWorker
  /-- The worker's part of the world. -/
  world : JobWorld

namespace SaveStream

/-- The caller is gone, and its ends of the channels with it. -/
def dropCaller (s : SaveStream) : SaveStream :=
  { s with
    caller := none
    desk := { s.desk with chunks := s.desk.chunks.dropSenders } }

/-- The caller has returned, and what it owned is dropped. -/
def leave (s : SaveStream) : SaveStream :=
  { s with desk := { s.desk with chunks := s.desk.chunks.dropSenders } }

/-- The worker goes on after a message, or after the end of the channel. -/
def receive (s : SaveStream) (r : Option SaveStreamMessage)
    (program : Prog FsInterface (Except Abort Unit)) (chunks : Channel SaveStreamMessage) :
    SaveStream :=
  { s with
    desk := { s.desk with chunks := chunks }
    worker := .running program
    world := { s.world with received := s.world.received ++ [r] } }

end SaveStream

/-- What the pending result may be: a result that is lost on the way reads as `EngineFailed`. -/
def SaveWorker.Replies (fails : Prop) : SaveWorker → Except AtomicBlobStoreError Unit → Prop
  | .ended (.ok ()), r => r = .ok () ∨ fails ∧ r = .error .engineFailed
  | .ended (.error (.error e)), r => r = .error e ∨ fails ∧ r = .error .engineFailed
  | .ended (.error .panic), r => r = .error .engineFailed
  | .refused, r => ∃ e, r = .error e
  | _, _ => False

/-- The worker is done with the save, and has the receiver no more. -/
def SaveWorker.Over : SaveWorker → Prop
  | .ended _ => True
  | .refused => True
  | _ => False

/-- Only a worker that is done is answered for. -/
theorem SaveWorker.Replies.over {fails : Prop} {worker : SaveWorker}
    {r : Except AtomicBlobStoreError Unit} (h : worker.Replies fails r) : worker.Over := by
  cases worker with
  | queued => exact h
  | running program => exact h
  | ended outcome => trivial
  | refused => trivial

/-- Success is only reported for a worker that succeeded. -/
theorem SaveWorker.Replies.success {fails : Prop} {worker : SaveWorker}
    (h : worker.Replies fails (.ok ())) : worker = .ended (.ok ()) := by
  cases worker with
  | queued => exact False.elim h
  | running program => exact False.elim h
  | ended outcome =>
    rcases outcome with (e | _) | u
    · rcases h with h | ⟨-, h⟩ <;> nomatch h
    · nomatch h
    · rfl
  | refused =>
    obtain ⟨e, he⟩ := h
    nomatch he

section Steps

variable (crc32c : Crc32c) (config : StoreConfig) (fault : FsCall → IoError → Prop)
  (reader : ReadRule) (fails : Prop) (facade : Facade) (platform : Platform) (key : KeyHash)
  (declaredLen : Nat) (disk : Disk)

/-- What the worker can do.  A worker that runs makes one call at a time; receiving is the only one
    that the caller has a part in. -/
inductive WorkerStep : SaveStream → SaveStream → Prop
  /-- A worker takes the save. -/
  | start {s : SaveStream} (hsubmitted : s.desk.submitted = true) (hqueued : s.worker = .queued) :
      WorkerStep s { s with
        worker := .running (saveBlobFromReceiver crc32c config platform
          (blobFilename config.format key) declaredLen).run }
  /-- It makes a call that the files answer. -/
  | work {s : SaveStream} {c : FsCall} {k : c.Answer → Prog FsInterface (Except Abort Unit)}
      {w : JobWorld} {r : c.Answer} (hworker : s.worker = .running (.call c k)) (hc : c ≠ .recv)
      (henv : Fs fault c s.world r w) :
      WorkerStep s { s with worker := .running (k r), world := w }
  /-- It receives a message, or the end of the channel. -/
  | receive {s : SaveStream}
      {k : Option SaveStreamMessage → Prog FsInterface (Except Abort Unit)}
      {chunks : Channel SaveStreamMessage} {r : Option SaveStreamMessage}
      (hworker : s.worker = .running (.call .recv k)) (hreceives : s.desk.chunks.Receives r chunks) :
      WorkerStep s (s.receive r (k r) chunks)
  /-- It goes round a loop. -/
  | turn {s : SaveStream} {σ β : Type} {body : σ → Prog FsInterface (σ ⊕ β)} {x : σ}
      {k : β → Prog FsInterface (Except Abort Unit)} (hworker : s.worker = .running (.loop body x k)) :
      WorkerStep s { s with worker := .running ((body x).bind (Prog.unroll body k)) }
  /-- It comes to its end. -/
  | finish {s : SaveStream} {outcome : Except Abort Unit}
      (hworker : s.worker = .running (.ret outcome)) :
      WorkerStep s { s with worker := .ended outcome }
  /-- It panics, wherever it is. -/
  | crash {s : SaveStream} {program : Prog FsInterface (Except Abort Unit)} (hfails : fails)
      (hworker : s.worker = .running program) :
      WorkerStep s { s with worker := .ended (.error .panic) }

/-- One step of any of the parties, or of the engine between them.  The engine's own steps are those
    that refuse a save, deliver its result, and drop the receiver of a worker that is done. -/
inductive SaveStep : SaveStream → SaveStream → Prop
  /-- The caller takes a step. -/
  | call {s : SaveStream} {p p' : Prog SaveInterface (Except AtomicBlobStoreError Unit)}
      {desk : SaveDesk} (hcaller : s.caller = some p)
      (hstep : ProgStep (Calling reader fails) p s.desk p' desk) :
      SaveStep s { s with caller := some p', desk := desk }
  /-- The caller returns. -/
  | leave {s : SaveStream} {r : Except AtomicBlobStoreError Unit}
      (hcaller : s.caller = some (.ret r)) : SaveStep s s.leave
  /-- The caller is dropped, wherever it is. -/
  | drop {s : SaveStream} {p : Prog SaveInterface (Except AtomicBlobStoreError Unit)}
      (hcaller : s.caller = some p) : SaveStep s s.dropCaller
  /-- The worker takes a step. -/
  | work {s s' : SaveStream}
      (hstep : WorkerStep crc32c config fault fails platform key declaredLen s s') : SaveStep s s'
  /-- The engine never starts the save. -/
  | refuse {s : SaveStream} (hfails : fails) (hsubmitted : s.desk.submitted = true)
      (hqueued : s.worker = .queued) : SaveStep s { s with worker := .refused }
  /-- The result is delivered. -/
  | reply {s : SaveStream} {r : Except AtomicBlobStoreError Unit} (hnone : s.desk.reply = none)
      (hreplies : s.worker.Replies fails r) :
      SaveStep s { s with desk := { s.desk with reply := some r } }
  /-- A worker that is done drops its receiver. -/
  | release {s : SaveStream} (hover : s.worker.Over) :
      SaveStep s { s with desk := { s.desk with chunks := s.desk.chunks.dropReceiver } }

/-- One call of `save_from`, from its start. -/
def streamingSave : System SaveStream where
  init s := s = ⟨some (facade.saveFrom config declaredLen), .start, .queued, .start disk⟩
  step := SaveStep crc32c config fault reader fails platform key declaredLen

end Steps

/-! ## The parties together

  The invariant says what either party may be sure of from what has come through the channel.
  Everything said of one party alone is a field, and the fields in between join them. -/

section Together

variable (crc32c : Crc32c) (config : StoreConfig) (fault : FsCall → IoError → Prop)
  (reader : ReadRule) (fails : Prop) (facade : Facade) (platform : Platform) (key : KeyHash)
  (declaredLen : Nat) (disk : Disk)

/-- There may be a reason why the stream fails. -/
def MayFail : Prop := fails ∨ Trouble fault (.start disk)

/-- The stream is canonical. -/
abbrev Committed : JobWorld → Prop :=
  SavedStream crc32c config fault (.start disk) key declaredLen

/-- The canonical file is what it was. -/
abbrev Untaken : JobWorld → Prop := Unseen config.format (.start disk) key

/-- How a worker ends that nothing stops. -/
def SaveEnded : Except Abort Unit → JobWorld → Prop :=
  Ended (fun _ => Committed crc32c config fault key declaredLen disk)
    (Failed fault (.start disk) (Untaken config key disk)
      (Committed crc32c config fault key declaredLen disk)
      (RefusesStream config fault (.start disk) declaredLen))

/-- What holds of the worker and its world. -/
def SaveWorker.Fine : SaveWorker → JobWorld → Prop
  | .running program, w =>
    Holds (Fs fault) program (SaveEnded crc32c config fault key declaredLen disk)
      (fun w => Untaken config key disk w ∨ Committed crc32c config fault key declaredLen disk w) w
  | .ended outcome, w =>
    (Untaken config key disk w ∨ Committed crc32c config fault key declaredLen disk w) ∧
      (outcome = .error .panic ∧ fails ∨
        SaveEnded crc32c config fault key declaredLen disk outcome w)
  | _, w => w = .start disk

/-- **The invariant.** -/
structure SaveInv (s : SaveStream) : Prop where
  /-- The caller is on its way to one of its results, -/
  caller : ∀ p, s.caller = some p → Holds (Facing reader (MayFail fault fails disk)) p
    (SaveReturns config declaredLen (MayFail fault fails disk)) (Careful config declaredLen)
    s.desk.log
  /-- has been careful so far, -/
  careful : Careful config declaredLen s.desk.log
  /-- and will let go of the channel once it has sent `Complete`. -/
  letsGo : ∀ p, s.caller = some p → LetsGo p
  /-- After `Complete`, the sender goes before anything else happens. -/
  last : .complete ∈ s.desk.chunks.sent → s.desk.chunks.senders = true →
    ∃ k, s.caller = some (.call SaveCall.dropChunks k)
  /-- Who runs holds the sender, unless it was dropped. -/
  held : s.desk.chunks.senders = false → s.desk.dropped = true ∨ s.caller = none ∨
    ∃ r, s.caller = some (.ret r)
  /-- A caller that is gone holds nothing. -/
  gone : s.caller = none → s.desk.chunks.senders = false
  /-- The worker is on its way to one of its ends. -/
  worker : s.worker.Fine crc32c config fault fails key declaredLen disk s.world
  /-- No worker starts before the save was submitted. -/
  submitted : s.worker ≠ .queued → s.desk.submitted = true
  /-- What the worker received was taken from the channel, in order, -/
  received : messagesOf s.world.received = s.desk.chunks.taken
  /-- and the end of the channel was seen when there was nothing left in it. -/
  hung : none ∈ s.world.received → s.desk.chunks.senders = false ∧ s.desk.chunks.queue = []
  /-- Only an engine that fails refuses a save. -/
  refused : s.worker = .refused → fails
  /-- The caller hears the pending result, -/
  heard : ∀ r, s.desk.heard = some r → s.desk.reply = some r
  /-- which is not there before the worker is done, -/
  answered : s.desk.reply ≠ none → s.worker.Over
  /-- and which is a success only if the worker's was. -/
  success : s.desk.reply = some (.ok ()) → s.worker = .ended (.ok ())
  /-- A worker that still receives holds the receiver. -/
  released : s.desk.chunks.receiver = false → s.worker.Over

variable {crc32c config fault reader fails facade platform key declaredLen disk}

/-- What the worker received was sent. -/
theorem SaveInv.sent {s : SaveStream}
    (h : SaveInv crc32c config fault reader fails key declaredLen disk s) :
    s.desk.log.sent = messagesOf s.world.received ++ s.desk.chunks.queue := by
  rw [h.received]
  rfl

/-- What a worker received after all that it gave up. -/
theorem received_messages {log : List (Option SaveStreamMessage)} {w : JobWorld}
    (h : Received fault (.start disk) log w) : ∃ front,
      messagesOf w.received = messagesOf front ++ messagesOf log ∧ (∀ x ∈ log, x ∈ w.received) ∧
        (front = [] ∨ Trouble fault (.start disk)) := by
  obtain ⟨front, hreceived, hfront⟩ := h
  have hreceived : w.received = front ++ log := hreceived
  refine ⟨front, ?_, fun x hx => ?_, hfront.imp id ?_⟩
  · rw [hreceived, messagesOf_append]
  · rw [hreceived]
    exact List.mem_append_right _ hx
  · rintro ⟨c, e, hfault, -⟩
    exact Or.inl ⟨c, e, hfault⟩

/-- **What is committed** was read, completely, and was sent with `Complete`. -/
theorem SaveInv.committed {s : SaveStream}
    (h : SaveInv crc32c config fault reader fails key declaredLen disk s)
    (hcommitted : Committed crc32c config fault key declaredLen disk s.world) :
    some .complete ∈ s.world.received ∧ ∃ payload, s.desk.log.Completed declaredLen payload ∧
      Saved crc32c config (.start disk) key payload s.world := by
  obtain ⟨chunks, hlen, -, hreceived, hsaved⟩ := hcommitted
  obtain ⟨front, hmessages, hmem, -⟩ := received_messages hreceived
  have hcomplete : some SaveStreamMessage.complete ∈ fed chunks ++ [some .complete] :=
    List.mem_append_right _ (List.mem_singleton_self _)
  refine ⟨hmem _ hcomplete, chunks.flatten, ?_, hsaved⟩
  refine h.careful.1.payload (messagesOf front) s.desk.chunks.queue chunks ?_ hlen
  rw [h.sent, hmessages, messagesOf_append, messagesOf_fed, ← List.append_assoc, List.append_assoc]
  rfl

/-- A commit was preceded by `Complete`. -/
theorem SaveInv.complete_of_committed {s : SaveStream}
    (h : SaveInv crc32c config fault reader fails key declaredLen disk s)
    (hcommitted : Committed crc32c config fault key declaredLen disk s.world) :
    .complete ∈ s.desk.chunks.sent := by
  obtain ⟨-, payload, ⟨chunks, -, -, -, -, hsent⟩, -⟩ := h.committed hcommitted
  have hsent : s.desk.chunks.sent = feed chunks ++ [.complete] := hsent
  rw [hsent]
  exact List.mem_append_right _ (List.mem_singleton_self _)

/-- **How the worker ends** when nothing interferes: it has committed, or it was cancelled. -/
theorem SaveInv.ends {s : SaveStream}
    (h : SaveInv crc32c config fault reader fails key declaredLen disk s)
    {outcome : Except Abort Unit} (hworker : s.worker = .ended outcome) :
    outcome = .error .panic ∧ fails ∨
      outcome = .ok () ∧ Committed crc32c config fault key declaredLen disk s.world ∨
      ∃ e, outcome = .error (.error e) ∧ (Trouble fault (.start disk) ∨
        e = .streamCancelled ∧ s.desk.chunks.senders = false ∧ .complete ∉ s.desk.chunks.sent) := by
  have hfine := h.worker
  rw [hworker] at hfine
  obtain ⟨-, ⟨rfl, hfails⟩ | hended⟩ := hfine
  · exact Or.inl ⟨rfl, hfails⟩
  · rcases outcome with (e | _) | u
    · refine Or.inr (Or.inr ⟨e, rfl, ?_⟩)
      obtain ⟨-, htrouble | ⟨log, hstops, hreceived⟩⟩ := hended
      · exact Or.inl htrouble
      obtain ⟨front, hmessages, hmem, rfl | htrouble⟩ := received_messages hreceived
      · have hsent : s.desk.log.sent = messagesOf log ++ s.desk.chunks.queue := by
          rw [h.sent, hmessages]
          rfl
        have hmax := h.careful.2.1 (h.submitted (by rw [hworker]; nofun))
        rcases h.careful.1.stops hmax hstops hsent with hfault | ⟨rfl, hnone, hcomplete⟩
        · exact Or.inl (Or.inl hfault)
        · obtain ⟨hsenders, hqueue⟩ := h.hung (hmem none hnone)
          rw [hqueue, List.append_nil] at hsent
          exact Or.inr ⟨rfl, hsenders, fun hmem => hcomplete (hsent ▸ hmem)⟩
      · exact Or.inl htrouble
    · exact absurd hended not_false
    · exact Or.inr (Or.inl ⟨rfl, hended⟩)

/-- The worker is not over before something failed, the caller let go, or `Complete` was sent. -/
theorem SaveInv.early {s : SaveStream}
    (h : SaveInv crc32c config fault reader fails key declaredLen disk s) (hover : s.worker.Over) :
    MayFail fault fails disk ∨ s.desk.chunks.senders = false ∨ .complete ∈ s.desk.chunks.sent := by
  cases hworker : s.worker with
  | queued =>
    rw [hworker] at hover
    exact False.elim hover
  | running program =>
    rw [hworker] at hover
    exact False.elim hover
  | refused => exact Or.inl (Or.inl (h.refused hworker))
  | ended outcome =>
    rcases h.ends hworker with ⟨-, hfails⟩ | ⟨-, hcommitted⟩ | ⟨e, -, htrouble | ⟨-, hsenders, -⟩⟩
    · exact Or.inl (Or.inl hfails)
    · exact Or.inr (Or.inr (h.complete_of_committed hcommitted))
    · exact Or.inl (Or.inr htrouble)
    · exact Or.inr (Or.inl hsenders)

/-- A call of the caller, seen without the other parties. -/
theorem SaveInv.faces {s : SaveStream}
    (h : SaveInv crc32c config fault reader fails key declaredLen disk s) {c : SaveCall}
    {k : c.Answer → Prog SaveInterface (Except AtomicBlobStoreError Unit)}
    (hcaller : s.caller = some (.call c k)) {r : c.Answer} {desk' : SaveDesk}
    (henv : Calling reader fails c s.desk r desk') :
    Facing reader (MayFail fault fails disk) c s.desk.log r desk'.log := by
  have hearly (hover : s.worker.Over) : s.desk.log.Early (MayFail fault fails disk) := by
    rcases h.early hover with hfail | hsenders | hcomplete
    · exact Or.inl hfail
    · rcases h.held hsenders with hdropped | hnone | ⟨r, hret⟩
      · exact Or.inr (Or.inl hdropped)
      · exact absurd (hcaller.symm.trans hnone) nofun
      · exact absurd (hcaller.symm.trans hret) nofun
    · exact Or.inr (Or.inr hcomplete)
  cases c with
  | ensureOpen =>
    obtain ⟨rfl, hfails⟩ := henv
    exact ⟨rfl, fun e he => Or.inl (hfails e he)⟩
  | submit =>
    cases r with
    | ok u =>
      obtain rfl : desk' = _ := henv
      exact rfl
    | error e =>
      obtain ⟨rfl, hfails⟩ := henv
      exact ⟨rfl, Or.inl hfails⟩
  | read n =>
    obtain ⟨hrule, hlen, rfl⟩ := henv
    exact ⟨hrule, hlen, rfl⟩
  | select n =>
    cases r with
    | inl outcome =>
      obtain ⟨hreply, rfl⟩ := henv
      exact ⟨hearly (h.answered (by rw [hreply]; nofun)), rfl⟩
    | inr r =>
      obtain ⟨-, hrule, hlen, rfl⟩ := henv
      exact ⟨hrule, hlen, rfl⟩
  | send message =>
    obtain ⟨chunks, hsends, rfl⟩ := henv
    cases r with
    | true =>
      show SaveLog.mk _ _ _ _ _ = _
      rw [hsends.sent_true]
      rfl
    | false =>
      cases hsends with
      | refused hreceiver => exact ⟨hearly (h.released hreceiver), rfl⟩
  | dropChunks =>
    obtain rfl : desk' = _ := henv
    exact rfl
  | wait =>
    obtain ⟨hreply, rfl⟩ := henv
    exact ⟨hearly (h.answered (by rw [hreply]; nofun)), rfl⟩

/-- What a call of the caller can change. -/
structure CallChange (c : SaveCall) (r : c.Answer) (desk desk' : SaveDesk) : Prop where
  /-- Messages are for the worker to take. -/
  taken : desk'.chunks.taken = desk.chunks.taken
  /-- The result is for the engine to deliver. -/
  reply : desk'.reply = desk.reply
  /-- The receiver is the worker's. -/
  receiver : desk'.chunks.receiver = desk.chunks.receiver
  submitted : desk.submitted = true → desk'.submitted = true
  dropped : desk.dropped = true → desk'.dropped = true
  /-- The sender is only ever dropped, by the call that does just that, -/
  senders : desk'.chunks.senders = desk.chunks.senders ∨
    c = .dropChunks ∧ desk'.chunks.senders = false ∧ desk'.dropped = true
  /-- and without it nothing comes into the channel. -/
  queue : desk.chunks.senders = false → desk'.chunks.queue = desk.chunks.queue
  heard : desk'.heard = desk.heard ∨ desk'.heard = desk.reply
  /-- Only one call puts `Complete` into the channel. -/
  completes : .complete ∈ desk'.chunks.sent →
    .complete ∈ desk.chunks.sent ∨ ∃ h : SaveCall.send .complete = c, h ▸ true = r

/-- Whatever a call is answered, it changes as much as its kind allows. -/
theorem calling_change {c : SaveCall} {desk desk' : SaveDesk} {r : c.Answer}
    (henv : Calling reader fails c desk r desk') : CallChange c r desk desk' := by
  cases c with
  | ensureOpen =>
    obtain ⟨rfl, -⟩ := henv
    exact ⟨rfl, rfl, rfl, id, id, Or.inl rfl, fun _ => rfl, Or.inl rfl, Or.inl⟩
  | submit =>
    cases r with
    | ok u =>
      obtain rfl : desk' = _ := henv
      exact ⟨rfl, rfl, rfl, fun _ => rfl, id, Or.inl rfl, fun _ => rfl, Or.inl rfl, Or.inl⟩
    | error e =>
      obtain ⟨rfl, -⟩ := henv
      exact ⟨rfl, rfl, rfl, id, id, Or.inl rfl, fun _ => rfl, Or.inl rfl, Or.inl⟩
  | read n =>
    obtain ⟨-, -, rfl⟩ := henv
    exact ⟨rfl, rfl, rfl, id, id, Or.inl rfl, fun _ => rfl, Or.inl rfl, Or.inl⟩
  | select n =>
    cases r with
    | inl outcome =>
      obtain ⟨hreply, rfl⟩ := henv
      exact ⟨rfl, rfl, rfl, id, id, Or.inl rfl, fun _ => rfl, Or.inr hreply.symm, Or.inl⟩
    | inr r =>
      obtain ⟨-, -, -, rfl⟩ := henv
      exact ⟨rfl, rfl, rfl, id, id, Or.inl rfl, fun _ => rfl, Or.inl rfl, Or.inl⟩
  | send message =>
    obtain ⟨chunks, hsends, rfl⟩ := henv
    obtain ⟨htaken, hsenders, hreceiver⟩ := hsends.ends
    refine ⟨htaken, rfl, hreceiver, id, id, Or.inl hsenders, fun hgone => ?_, Or.inl rfl,
      fun hcomplete => ?_⟩
    · cases r with
      | true => exact absurd (hsends.senders_true.symm.trans hgone) Bool.noConfusion
      | false => rw [hsends.sent_false]
    · have hcomplete : SaveStreamMessage.complete ∈ chunks.sent := hcomplete
      cases r with
      | true =>
        rw [hsends.sent_true] at hcomplete
        refine (List.mem_append.mp hcomplete).imp_right fun hmem => ?_
        obtain rfl := List.mem_singleton.mp hmem
        exact ⟨rfl, rfl⟩
      | false => exact Or.inl (hsends.sent_false ▸ hcomplete)
  | dropChunks =>
    obtain rfl : desk' = _ := henv
    exact ⟨rfl, rfl, rfl, id, fun _ => rfl, Or.inr ⟨rfl, rfl, rfl⟩, fun _ => rfl, Or.inl rfl, Or.inl⟩
  | wait =>
    obtain ⟨hreply, rfl⟩ := henv
    exact ⟨rfl, rfl, rfl, id, id, Or.inl rfl, fun _ => rfl, Or.inr hreply.symm, Or.inl⟩

/-- **A step of the caller.** -/
theorem SaveInv.called {s : SaveStream}
    (h : SaveInv crc32c config fault reader fails key declaredLen disk s)
    {c : SaveCall} {k : c.Answer → Prog SaveInterface (Except AtomicBlobStoreError Unit)}
    (hcaller : s.caller = some (.call c k)) {r : c.Answer} {desk' : SaveDesk}
    (henv : Calling reader fails c s.desk r desk') :
    SaveInv crc32c config fault reader fails key declaredLen disk
      { s with caller := some (k r), desk := desk' } := by
  -- the program of the caller goes on, and its own proof goes with it
  have hholds := (h.caller _ hcaller).step (.call (h.faces hcaller henv))
  have hleads := h.letsGo _ hcaller
  have hchange := calling_change henv
  exact {
    caller := fun p hp => by
      obtain rfl := Option.some.inj hp
      exact hholds
    careful := hholds.now
    letsGo := fun p hp => by
      obtain rfl := Option.some.inj hp
      cases hleads with
      | call _ hk => exact hk r
    last := fun hcomplete hsenders => by
      -- the sender is still there, so this call has not dropped it
      have hsame : desk'.chunks.senders = s.desk.chunks.senders :=
        hchange.senders.resolve_right fun hdrop =>
          absurd (hdrop.2.1.symm.trans hsenders) Bool.noConfusion
      by_cases hnot : .complete ∈ s.desk.chunks.sent
      · -- the caller was about to drop its end, so that is what it did
        obtain ⟨k', hdrop⟩ := h.last hnot (hsame ▸ hsenders)
        have hcall := Option.some.inj (hcaller.symm.trans hdrop)
        cases hcall
        obtain rfl : desk' = _ := henv
        nomatch hsenders
      · obtain ⟨rfl, rfl⟩ := (hchange.completes hcomplete).resolve_left hnot
        cases hleads with
        | call hnext _ =>
          obtain ⟨k', hk'⟩ := hnext rfl
          exact ⟨k', congrArg some hk'⟩
    held := fun hsenders => by
      rcases hchange.senders with hsame | ⟨-, -, hdropped⟩
      · rcases h.held (hsame ▸ hsenders) with hdropped | hnone | ⟨r, hret⟩
        · exact Or.inl (hchange.dropped hdropped)
        · exact absurd (hcaller.symm.trans hnone) nofun
        · exact absurd (hcaller.symm.trans hret) nofun
      · exact Or.inl hdropped
    gone := nofun
    worker := h.worker
    submitted := fun hne => hchange.submitted (h.submitted hne)
    received := h.received.trans hchange.taken.symm
    hung := fun hnone => by
      obtain ⟨hsenders, hqueue⟩ := h.hung hnone
      refine ⟨?_, (hchange.queue hsenders).trans hqueue⟩
      rcases hchange.senders with hsame | ⟨-, hgone, -⟩
      · exact hsame.trans hsenders
      · exact hgone
    refused := h.refused
    heard := fun r hr => by
      rw [hchange.reply]
      rcases hchange.heard with hsame | hheard
      · exact h.heard r (hsame.symm.trans hr)
      · exact hheard.symm.trans hr
    answered := fun hne => h.answered (hchange.reply ▸ hne)
    success := fun hok => h.success (hchange.reply.symm.trans hok)
    released := fun hreceiver => h.released (hchange.receiver.symm.trans hreceiver) }

/-- A turn of a loop of the caller. -/
theorem SaveInv.turned {s : SaveStream}
    (h : SaveInv crc32c config fault reader fails key declaredLen disk s) {σ β : Type}
    {body : σ → Prog SaveInterface (σ ⊕ β)} {x : σ}
    {k : β → Prog SaveInterface (Except AtomicBlobStoreError Unit)}
    (hcaller : s.caller = some (.loop body x k)) :
    SaveInv crc32c config fault reader fails key declaredLen disk
      { s with caller := some ((body x).bind (Prog.unroll body k)) } := by
  have hleads := h.letsGo _ hcaller
  exact {
    h with
    caller := fun p hp => by
      obtain rfl := Option.some.inj hp
      exact (h.caller _ hcaller).step .loop
    letsGo := fun p hp => by
      obtain rfl := Option.some.inj hp
      cases hleads with
      | loop hbody hk => exact (hbody x).bind (Prog.Leads.unroll hbody hk)
    last := fun hcomplete hsenders => by
      obtain ⟨k', hdrop⟩ := h.last hcomplete hsenders
      exact absurd (hcaller.symm.trans hdrop) nofun
    held := fun hsenders => by
      rcases h.held hsenders with hdropped | hnone | ⟨r, hret⟩
      · exact Or.inl hdropped
      · exact absurd (hcaller.symm.trans hnone) nofun
      · exact absurd (hcaller.symm.trans hret) nofun
    gone := nofun }

/-- The caller returns. -/
theorem SaveInv.leave {s : SaveStream}
    (h : SaveInv crc32c config fault reader fails key declaredLen disk s)
    {r : Except AtomicBlobStoreError Unit} (hcaller : s.caller = some (.ret r)) :
    SaveInv crc32c config fault reader fails key declaredLen disk s.leave :=
  { h with
    last := fun _ hsenders => nomatch hsenders
    held := fun _ => Or.inr (Or.inr ⟨r, hcaller⟩)
    gone := fun _ => rfl
    hung := fun hnone => ⟨rfl, (h.hung hnone).2⟩ }

/-- The caller is dropped, wherever it is. -/
theorem SaveInv.dropCaller {s : SaveStream}
    (h : SaveInv crc32c config fault reader fails key declaredLen disk s) :
    SaveInv crc32c config fault reader fails key declaredLen disk s.dropCaller :=
  { h with
    caller := nofun
    letsGo := nofun
    last := fun _ hsenders => nomatch hsenders
    held := fun _ => Or.inr (Or.inl rfl)
    gone := fun _ => rfl
    hung := fun hnone => ⟨rfl, (h.hung hnone).2⟩ }

/-- The worker goes on, with nothing new received. -/
theorem SaveInv.worked {s : SaveStream}
    (h : SaveInv crc32c config fault reader fails key declaredLen disk s)
    {worker : SaveWorker} {w : JobWorld}
    (hfine : worker.Fine crc32c config fault fails key declaredLen disk w)
    (hreceived : w.received = s.world.received) (hbusy : ¬s.worker.Over)
    (hsubmitted : worker ≠ .queued → s.desk.submitted = true) (hrefused : worker = .refused → fails) :
    SaveInv crc32c config fault reader fails key declaredLen disk
      { s with worker := worker, world := w } :=
  { h with
    worker := hfine
    submitted := hsubmitted
    received := (congrArg messagesOf hreceived).trans h.received
    hung := fun hnone => h.hung (hreceived ▸ hnone)
    refused := hrefused
    answered := fun hne => absurd (h.answered hne) hbusy
    success := fun hok => absurd (h.answered (hok ▸ nofun)) hbusy
    released := fun hreceiver => absurd (h.released hreceiver) hbusy }

/-- The caller does not see what is taken. -/
theorem log_receive {s : SaveStream} {r : Option SaveStreamMessage}
    {p : Prog FsInterface (Except Abort Unit)} {chunks : Channel SaveStreamMessage}
    (h : s.desk.chunks.Receives r chunks) : (s.receive r p chunks).desk.log = s.desk.log :=
  congrArg (fun sent => SaveLog.mk s.desk.submitted s.desk.reads sent s.desk.dropped s.desk.heard)
    h.sent

/-- The worker receives. -/
theorem SaveInv.receive {s : SaveStream}
    (h : SaveInv crc32c config fault reader fails key declaredLen disk s)
    {k : Option SaveStreamMessage → Prog FsInterface (Except Abort Unit)}
    {chunks : Channel SaveStreamMessage} {r : Option SaveStreamMessage}
    (hworker : s.worker = .running (.call FsCall.recv k))
    (hreceives : s.desk.chunks.Receives r chunks) :
    SaveInv crc32c config fault reader fails key declaredLen disk (s.receive r (k r) chunks) := by
  have hfine := h.worker
  rw [hworker] at hfine
  have hbusy : ¬s.worker.Over := by
    rw [hworker]
    exact not_false
  obtain ⟨hsenders, hreceiver⟩ := hreceives.ends
  have hlog := log_receive (p := k r) hreceives
  have hstep : ProgStep (Fs fault) (.call FsCall.recv k) s.world (k r)
      (s.receive r (k r) chunks).world := .call (show Fs fault .recv s.world r _ from rfl)
  exact {
    caller := fun p hp => hlog ▸ h.caller p hp
    careful := hlog ▸ h.careful
    letsGo := h.letsGo
    last := fun hcomplete hopen => h.last (hreceives.sent ▸ hcomplete) (hsenders.symm.trans hopen)
    held := fun hgone => h.held (hsenders.symm.trans hgone)
    gone := fun hnone => hsenders.trans (h.gone hnone)
    worker := hfine.step hstep
    submitted := fun _ => h.submitted (by rw [hworker]; nofun)
    received := by
      show messagesOf (s.world.received ++ [r]) = chunks.taken
      rw [messagesOf_append, h.received, hreceives.taken]
      cases r <;> rfl
    hung := fun hnone => by
      rcases List.mem_append.mp hnone with hbefore | hnow
      · -- the channel had ended before
        obtain ⟨hgone, hqueue⟩ := h.hung hbefore
        cases hreceives with
        | message hmessage => nomatch hqueue.symm.trans hmessage
        | disconnected => exact ⟨hgone, hqueue⟩
      · obtain rfl := List.mem_singleton.mp hnow
        obtain ⟨rfl, hqueue, hgone⟩ := hreceives.of_none
        exact ⟨hgone, hqueue⟩
    refused := nofun
    heard := h.heard
    answered := fun hne => absurd (h.answered hne) hbusy
    success := fun hok => absurd (h.answered (hok ▸ nofun)) hbusy
    released := fun hgone => absurd (h.released (hreceiver.symm.trans hgone)) hbusy }

/-- The result is delivered. -/
theorem SaveInv.replied {s : SaveStream}
    (h : SaveInv crc32c config fault reader fails key declaredLen disk s)
    {r : Except AtomicBlobStoreError Unit} (hnone : s.desk.reply = none)
    (hreplies : s.worker.Replies fails r) :
    SaveInv crc32c config fault reader fails key declaredLen disk
      { s with desk := { s.desk with reply := some r } } := by
  have hover : s.worker.Over := hreplies.over
  exact {
    h with
    heard := fun r' hr => absurd (hnone.symm.trans (h.heard r' hr)) nofun
    answered := fun _ => hover
    success := fun hok => by
      obtain rfl : r = .ok () := Option.some.inj hok
      exact hreplies.success }

/-- **A step of the worker.** -/
theorem SaveInv.work {s s' : SaveStream}
    (h : SaveInv crc32c config fault reader fails key declaredLen disk s)
    (hstep : WorkerStep crc32c config fault fails platform key declaredLen s s') :
    SaveInv crc32c config fault reader fails key declaredLen disk s' := by
  have hfine := h.worker
  cases hstep with
  | start hsubmitted hqueued =>
    rw [hqueued] at hfine
    have hworld : s.world = .start disk := hfine
    refine h.worked ?_ rfl ?_ (fun _ => hsubmitted) nofun
    · rw [hworld]
      exact holds_saveBlobFromReceiver crc32c config fault _ key platform declaredLen
    · rw [hqueued]
      exact not_false
  | work hworker hc henv =>
    rw [hworker] at hfine
    refine h.worked (hfine.step (.call henv)) (fs_received henv hc) ?_
      (fun _ => h.submitted (by rw [hworker]; nofun)) nofun
    rw [hworker]
    exact not_false
  | receive hworker hreceives => exact h.receive hworker hreceives
  | turn hworker =>
    rw [hworker] at hfine
    refine h.worked (hfine.step .loop) rfl ?_ (fun _ => h.submitted (by rw [hworker]; nofun)) nofun
    rw [hworker]
    exact not_false
  | finish hworker =>
    rw [hworker] at hfine
    refine h.worked ⟨hfine.now, Or.inr hfine.result⟩ rfl ?_
      (fun _ => h.submitted (by rw [hworker]; nofun)) nofun
    rw [hworker]
    exact not_false
  | crash hfails hworker =>
    rw [hworker] at hfine
    refine h.worked ⟨hfine.now, Or.inl ⟨rfl, hfails⟩⟩ rfl ?_
      (fun _ => h.submitted (by rw [hworker]; nofun)) nofun
    rw [hworker]
    exact not_false

/-- **Every step keeps the invariant.** -/
theorem SaveInv.step {s s' : SaveStream}
    (h : SaveInv crc32c config fault reader fails key declaredLen disk s)
    (hstep : SaveStep crc32c config fault reader fails platform key declaredLen s s') :
    SaveInv crc32c config fault reader fails key declaredLen disk s' := by
  cases hstep with
  | call hcaller hstep =>
    cases hstep with
    | call henv => exact h.called hcaller henv
    | loop => exact h.turned hcaller
  | leave hcaller => exact h.leave hcaller
  | drop hcaller => exact h.dropCaller
  | work hstep => exact h.work hstep
  | refuse hfails hsubmitted hqueued =>
    have hfine := h.worker
    rw [hqueued] at hfine
    refine h.worked hfine rfl ?_ (fun _ => hsubmitted) fun _ => hfails
    rw [hqueued]
    exact not_false
  | reply hnone hreplies => exact h.replied hnone hreplies
  | release hover => exact { h with released := fun _ => hover }

/-- Nothing was done yet. -/
theorem saveInv_start : SaveInv crc32c config fault reader fails key declaredLen disk
    ⟨some (facade.saveFrom config declaredLen), .start, .queued, .start disk⟩ where
  caller p hp := by
    obtain rfl := Option.some.inj hp
    exact holds_saveFrom facade
  careful := careful_start
  letsGo p hp := by
    obtain rfl := Option.some.inj hp
    exact letsGo_saveFrom facade
  last hcomplete _ := nomatch hcomplete
  held hgone := nomatch hgone
  gone hnone := nomatch hnone
  worker := rfl
  submitted hne := absurd rfl hne
  received := rfl
  hung hnone := nomatch hnone
  refused h := nomatch h
  heard r hr := nomatch hr
  answered hne := absurd rfl hne
  success hok := nomatch hok
  released hgone := nomatch hgone

/-- **The invariant holds in every run.** -/
theorem saveInv_of_reachable {s : SaveStream}
    (h : (streamingSave crc32c config fault reader fails facade platform key declaredLen
      disk).Reachable s) : SaveInv crc32c config fault reader fails key declaredLen disk s :=
  h.invariant (fun _ hs => hs ▸ saveInv_start) fun _ _ _ h hstep => h.step hstep

end Together

/-! ## After `Complete`

  Two copies of the streams run side by side, one with its caller and one without.  The worker of
  either can do what the other's can, so dropping the caller makes no difference to what is stored. -/

section After

variable (crc32c : Crc32c) (config : StoreConfig) (fault : FsCall → IoError → Prop)
  (reader : ReadRule) (fails : Prop) (platform : Platform) (key : KeyHash) (declaredLen : Nat)
  (disk : Disk)

/-- A step that does not drop the caller. -/
def Keeps (s s' : SaveStream) : Prop :=
  SaveStep crc32c config fault reader fails platform key declaredLen s s' ∧
    (s.caller ≠ none → s'.caller ≠ none)

/-- Two streams whose workers cannot tell them apart: `Complete` is in both channels. -/
structure Alike (s t : SaveStream) : Prop where
  /-- The invariant holds of both, -/
  left : SaveInv crc32c config fault reader fails key declaredLen disk s
  /-- with their callers or without. -/
  right : SaveInv crc32c config fault reader fails key declaredLen disk t
  /-- Their workers have the same left to do, -/
  worker : t.worker = s.worker
  /-- have seen the same, -/
  world : t.world = s.world
  /-- have taken the same from the channel, -/
  taken : t.desk.chunks.taken = s.desk.chunks.taken
  /-- and find the same in it. -/
  queue : t.desk.chunks.queue = s.desk.chunks.queue
  /-- Nothing more will come. -/
  complete : .complete ∈ s.desk.chunks.sent

variable {crc32c config fault reader fails platform key declaredLen disk}

/-- Once `Complete` is in the channel, the caller puts nothing more there. -/
theorem SaveInv.quiet {s : SaveStream}
    (h : SaveInv crc32c config fault reader fails key declaredLen disk s)
    (hcomplete : .complete ∈ s.desk.chunks.sent) {c : SaveCall}
    {k : c.Answer → Prog SaveInterface (Except AtomicBlobStoreError Unit)}
    (hcaller : s.caller = some (.call c k)) {r : c.Answer} {desk' : SaveDesk}
    (henv : Calling reader fails c s.desk r desk') :
    desk'.chunks.queue = s.desk.chunks.queue := by
  cases hsenders : s.desk.chunks.senders with
  | false => exact (calling_change henv).queue hsenders
  | true =>
    obtain ⟨k', hdrop⟩ := h.last hcomplete hsenders
    have hcall := Option.some.inj (hcaller.symm.trans hdrop)
    cases hcall
    obtain rfl : desk' = _ := henv
    rfl

/-- Whoever still holds the sender can let it go. -/
theorem SaveInv.lets_go {s : SaveStream}
    (h : SaveInv crc32c config fault reader fails key declaredLen disk s)
    (hcomplete : .complete ∈ s.desk.chunks.sent) :
    ∃ t, ReflTransGen (Keeps crc32c config fault reader fails platform key declaredLen) s t ∧
      t.worker = s.worker ∧ t.world = s.world ∧ t.desk.chunks = s.desk.chunks.dropSenders := by
  cases hsenders : s.desk.chunks.senders with
  | false =>
    refine ⟨s, .refl, rfl, rfl, ?_⟩
    unfold Channel.dropSenders
    rw [← hsenders]
  | true =>
    obtain ⟨k, hdrop⟩ := h.last hcomplete hsenders
    have hcall : Calling reader fails .dropChunks s.desk ()
        { s.desk with dropped := true, chunks := s.desk.chunks.dropSenders } := rfl
    have hstep : SaveStep crc32c config fault reader fails platform key declaredLen s { s with
        caller := some (k ())
        desk := { s.desk with dropped := true, chunks := s.desk.chunks.dropSenders } } :=
      .call hdrop (.call hcall)
    exact ⟨_, .single ⟨hstep, fun _ => nofun⟩, rfl, rfl, rfl⟩

/-- A run that keeps the caller keeps the invariant. -/
theorem SaveInv.kept {s t : SaveStream}
    (h : SaveInv crc32c config fault reader fails key declaredLen disk s)
    (hrun : ReflTransGen (Keeps crc32c config fault reader fails platform key declaredLen)
      s t) : SaveInv crc32c config fault reader fails key declaredLen disk t :=
  keep_run (fun _ _ h hstep => h.step hstep.1) h hrun

/-- **Matching a step of the worker.** -/
theorem Alike.work {s s' t : SaveStream}
    (h : Alike crc32c config fault reader fails key declaredLen disk s t)
    (hstep : WorkerStep crc32c config fault fails platform key declaredLen s s') :
    ∃ t', ReflTransGen (Keeps crc32c config fault reader fails platform key declaredLen)
        t t' ∧ Alike crc32c config fault reader fails key declaredLen disk s' t' := by
  have hleft := h.left.work hstep
  have hcompleteRight : .complete ∈ t.desk.chunks.sent := by
    have := h.complete
    unfold Channel.sent at this ⊢
    rwa [h.taken, h.queue]
  -- every step but one is the same step on the right
  have hsame {t' : SaveStream}
      (hwork : WorkerStep crc32c config fault fails platform key declaredLen t t')
      (hcaller : t'.caller = t.caller) (hworker : t'.worker = s'.worker)
      (hworld : t'.world = s'.world) (htaken : t'.desk.chunks.taken = s'.desk.chunks.taken)
      (hqueue : t'.desk.chunks.queue = s'.desk.chunks.queue)
      (hcomplete : .complete ∈ s'.desk.chunks.sent) :
      ∃ t', ReflTransGen (Keeps crc32c config fault reader fails platform key declaredLen)
        t t' ∧ Alike crc32c config fault reader fails key declaredLen disk s' t' :=
    ⟨t', .single ⟨.work hwork, fun hne => hcaller ▸ hne⟩,
      ⟨hleft, h.right.work hwork, hworker, hworld, htaken, hqueue, hcomplete⟩⟩
  cases hstep with
  | start hsubmitted hqueued =>
    exact hsame (.start (h.right.careful.2.2 (List.ne_nil_of_mem hcompleteRight))
      (h.worker.trans hqueued)) rfl rfl h.world h.taken h.queue h.complete
  | work hworker hc henv =>
    rw [← h.world] at henv
    exact hsame (.work (h.worker.trans hworker) hc henv) rfl rfl rfl h.taken h.queue h.complete
  | turn hworker =>
    exact hsame (.turn (h.worker.trans hworker)) rfl rfl h.world h.taken h.queue h.complete
  | finish hworker =>
    exact hsame (.finish (h.worker.trans hworker)) rfl rfl h.world h.taken h.queue h.complete
  | crash hfails hworker =>
    exact hsame (.crash hfails (h.worker.trans hworker)) rfl rfl h.world h.taken h.queue h.complete
  | @receive k chunks r hworker hreceives =>
    have hcomplete : .complete ∈ chunks.sent := hreceives.sent ▸ h.complete
    cases hreceives with
    | @message a rest hqueue =>
      exact hsame (.receive (h.worker.trans hworker) (.message (h.queue.trans hqueue))) rfl rfl
        (congrArg (fun w : JobWorld => { w with received := w.received ++ [some a] }) h.world)
        (congrArg (· ++ [a]) h.taken) rfl hcomplete
    | disconnected hqueue hsenders =>
      -- on the right the end of the channel comes once the caller has let go of it
      obtain ⟨t₁, hrun, hworker₁, hworld₁, hchunks⟩ := h.right.lets_go hcompleteRight
      have hright := h.right.kept hrun
      have hqueue₁ : t₁.desk.chunks.queue = [] := by
        rw [hchunks]
        exact h.queue.trans hqueue
      have hwork : WorkerStep crc32c config fault fails platform key declaredLen t₁
          (t₁.receive none (k none) t₁.desk.chunks) :=
        .receive ((hworker₁.trans h.worker).trans hworker)
          (.disconnected hqueue₁ (by rw [hchunks]; rfl))
      refine ⟨_, hrun.tail ⟨.work hwork, fun hne => hne⟩,
        ⟨hleft, hright.work hwork, rfl, ?_, ?_, ?_, hcomplete⟩⟩
      · exact congrArg (fun w : JobWorld => { w with received := w.received ++ [none] })
          (hworld₁.trans h.world)
      · show t₁.desk.chunks.taken = _
        rw [hchunks]
        exact h.taken
      · show t₁.desk.chunks.queue = _
        rw [hchunks]
        exact h.queue

/-- **Matching a step.**  What the caller does, and what becomes of the result, is not matched. -/
theorem Alike.step {s s' t : SaveStream}
    (h : Alike crc32c config fault reader fails key declaredLen disk s t)
    (hstep : SaveStep crc32c config fault reader fails platform key declaredLen s s') :
    ∃ t', ReflTransGen (Keeps crc32c config fault reader fails platform key declaredLen)
        t t' ∧ Alike crc32c config fault reader fails key declaredLen disk s' t' := by
  have hleft := h.left.step hstep
  have hidle (hworker : s'.worker = s.worker) (hworld : s'.world = s.world)
      (htaken : s'.desk.chunks.taken = s.desk.chunks.taken)
      (hqueue : s'.desk.chunks.queue = s.desk.chunks.queue) :
      ∃ t', ReflTransGen (Keeps crc32c config fault reader fails platform key declaredLen)
        t t' ∧ Alike crc32c config fault reader fails key declaredLen disk s' t' := by
    refine ⟨t, .refl, hleft, h.right, h.worker.trans hworker.symm, h.world.trans hworld.symm,
      h.taken.trans htaken.symm, h.queue.trans hqueue.symm, ?_⟩
    have hcomplete := h.complete
    unfold Channel.sent at hcomplete ⊢
    rwa [htaken, hqueue]
  cases hstep with
  | call hcaller hstep =>
    cases hstep with
    | call henv =>
      exact hidle rfl rfl (calling_change henv).taken (h.left.quiet h.complete hcaller henv)
    | loop => exact hidle rfl rfl rfl rfl
  | leave hcaller => exact hidle rfl rfl rfl rfl
  | drop hcaller => exact hidle rfl rfl rfl rfl
  | work hstep => exact h.work hstep
  | refuse hfails hsubmitted hqueued =>
    have hcomplete : .complete ∈ t.desk.chunks.sent := by
      have := h.complete
      unfold Channel.sent at this ⊢
      rwa [h.taken, h.queue]
    have hrefuse : SaveStep crc32c config fault reader fails platform key declaredLen t
        { t with worker := .refused } :=
      .refuse hfails (h.right.careful.2.2 (List.ne_nil_of_mem hcomplete)) (h.worker.trans hqueued)
    exact ⟨_, .single ⟨hrefuse, fun hne => hne⟩,
      ⟨hleft, h.right.step hrefuse, rfl, h.world, h.taken, h.queue, h.complete⟩⟩
  | reply hnone hreplies => exact hidle rfl rfl rfl rfl
  | release hover => exact hidle rfl rfl rfl rfl

/-- The two streams at the moment when the caller is dropped. -/
theorem SaveInv.alike {s : SaveStream}
    (h : SaveInv crc32c config fault reader fails key declaredLen disk s)
    (hcomplete : .complete ∈ s.desk.chunks.sent) :
    Alike crc32c config fault reader fails key declaredLen disk s s.dropCaller :=
  ⟨h, h.dropCaller, rfl, rfl, rfl, rfl, hcomplete⟩

/-- The relation has no preferred side. -/
theorem Alike.symm {s t : SaveStream}
    (h : Alike crc32c config fault reader fails key declaredLen disk s t) :
    Alike crc32c config fault reader fails key declaredLen disk t s := by
  refine ⟨h.right, h.left, h.worker.symm, h.world.symm, h.taken.symm, h.queue.symm, ?_⟩
  have hcomplete := h.complete
  unfold Channel.sent at hcomplete ⊢
  rwa [h.taken, h.queue]

/-- The caller let go before it sent `Complete`. -/
def SaveStream.Abandoned (s : SaveStream) : Prop :=
  s.desk.chunks.senders = false ∧ .complete ∉ s.desk.chunks.sent

/-- What is abandoned stays so. -/
theorem SaveStream.Abandoned.step {s s' : SaveStream} (h : s.Abandoned)
    (hstep : SaveStep crc32c config fault reader fails platform key declaredLen s s') :
    s'.Abandoned := by
  obtain ⟨hsenders, hcomplete⟩ := h
  cases hstep with
  | call hcaller hstep =>
    cases hstep with
    | call henv =>
      have hchange := calling_change henv
      constructor
      · rcases hchange.senders with hsame | ⟨-, hgone, -⟩
        · exact hsame.trans hsenders
        · exact hgone
      · unfold Channel.sent at hcomplete ⊢
        rwa [hchange.taken, hchange.queue hsenders]
    | loop => exact ⟨hsenders, hcomplete⟩
  | leave hcaller => exact ⟨rfl, hcomplete⟩
  | drop hcaller => exact ⟨rfl, hcomplete⟩
  | work hstep =>
    cases hstep with
    | receive hworker hreceives =>
      exact ⟨hreceives.ends.1.trans hsenders, fun hmem => hcomplete (hreceives.sent ▸ hmem)⟩
    | _ => exact ⟨hsenders, hcomplete⟩
  | refuse hfails hsubmitted hqueued => exact ⟨hsenders, hcomplete⟩
  | reply hnone hreplies => exact ⟨hsenders, hcomplete⟩
  | release hover => exact ⟨hsenders, hcomplete⟩

end After

/-! ## Runs that end

  Here the order of steps is chosen: the caller goes as far as it can, and the worker takes a message
  whenever the channel is full.  The choice is part of the proof; the guarantee is about every order. -/

section Ending

variable {crc32c : Crc32c} {config : StoreConfig} {fault : FsCall → IoError → Prop}
  {reader : ReadRule} {fails : Prop} {platform : Platform} {key : KeyHash} {declaredLen : Nat}

/-- The worker with the rest of its program, whether it was started or not. -/
def SaveStream.At (crc32c : Crc32c) (config : StoreConfig) (platform : Platform) (key : KeyHash)
    (declaredLen : Nat) (s : SaveStream) (program : Prog FsInterface (Except Abort Unit)) : Prop :=
  s.worker = .running program ∨ s.worker = .queued ∧
    program = (saveBlobFromReceiver crc32c config platform (blobFilename config.format key)
      declaredLen).run

/-- What is left of a worker that is given a list of messages. -/
def Consumes (fault : FsCall → IoError → Prop) (messages : List SaveStreamMessage)
    (outcome : Except Abort Unit) (program : Prog FsInterface (Except Abort Unit)) (w : JobWorld) :
    Prop :=
  ∃ n w', Run (Feeding (Fs fault)) n program (w, messages) (.ret outcome) (w', [])

/-- The worker was started. -/
theorem SaveStream.At.started {s : SaveStream} {program : Prog FsInterface (Except Abort Unit)}
    (h : s.At crc32c config platform key declaredLen program) (hsubmitted : s.desk.submitted = true) :
    ReflTransGen (SaveStep crc32c config fault reader fails platform key declaredLen) s
      { s with worker := .running program } := by
  rcases h with hrunning | ⟨hqueued, rfl⟩
  · rw [← hrunning]
  · exact .single (.work (.start hsubmitted hqueued))

/-- Every call but `recv` is answered by the files. -/
theorem feeding_other {c : FsCall} (hc : c ≠ .recv) {v v' : JobWorld × List SaveStreamMessage}
    {r : c.Answer} (h : Feeding (Fs fault) c v r v') : Fs fault c v.1 r v'.1 ∧ v'.2 = v.2 := by
  cases c with
  | recv => exact absurd rfl hc
  | _ => exact h

variable (crc32c config reader fails platform key declaredLen) in
/-- A worker that is given something takes it, sooner or later. -/
theorem takes_one {outcome : Except Abort Unit} {message : SaveStreamMessage}
    {queue rest : List SaveStreamMessage} {n : Nat} {s : SaveStream}
    {program : Prog FsInterface (Except Abort Unit)} {w' : JobWorld}
    (hworker : s.worker = .running program) (hqueue : s.desk.chunks.queue = message :: queue)
    (hrun : Run (Feeding (Fs fault)) n program (s.world, message :: (queue ++ rest))
      (.ret outcome) (w', [])) :
    ∃ program' w, ReflTransGen
      (SaveStep crc32c config fault reader fails platform key declaredLen) s
      { s with
        worker := .running program', world := w
        desk := { s.desk with
          chunks := { s.desk.chunks with
            taken := s.desk.chunks.taken ++ [message], queue := queue } } } ∧
      Consumes fault (queue ++ rest) outcome program' w := by
  induction n generalizing s program with
  | zero => nomatch hrun
  | succ n ih =>
    cases hrun with
    | @cons _ _ p' _ _ v _ hstep hrest =>
      cases hstep with
      | @call c k _ _ r henv =>
        by_cases hc : c = .recv
        · subst hc
          obtain ⟨hworld, rfl, hleft⟩ := henv
          refine ⟨_, _, .single (.work (.receive hworker (.message hqueue))), n, w', ?_⟩
          obtain ⟨w, messages⟩ := v
          obtain rfl : w = _ := hworld
          obtain rfl : messages = _ := hleft
          exact hrest
        · obtain ⟨hfs, hsame⟩ := feeding_other hc henv
          obtain ⟨w, messages⟩ := v
          obtain rfl : messages = _ := hsame
          have hwork : WorkerStep crc32c config fault fails platform key declaredLen s
              { s with worker := .running (k r), world := w } := .work hworker hc hfs
          obtain ⟨program', w₁, hsteps, hconsumes⟩ := ih (s := { s with
            worker := .running (k r), world := w }) rfl hqueue hrest
          exact ⟨program', w₁, .head (.work hwork) hsteps, hconsumes⟩
      | loop =>
        obtain ⟨program', w₁, hsteps, hconsumes⟩ := ih (s := { s with
          worker := .running _ }) rfl hqueue hrest
        exact ⟨program', w₁, .head (.work (.turn hworker)) hsteps, hconsumes⟩

variable (crc32c config reader fails platform key declaredLen) in
/-- A worker that has all that it will get comes to its end, and the caller sees nothing of it. -/
theorem drains_all {outcome : Except Abort Unit} {n : Nat} {s : SaveStream}
    {program : Prog FsInterface (Except Abort Unit)} {w' : JobWorld}
    (hworker : s.worker = .running program) (hsenders : s.desk.chunks.senders = false)
    (hrun : Run (Feeding (Fs fault)) n program (s.world, s.desk.chunks.queue)
      (.ret outcome) (w', [])) :
    ∃ t, ReflTransGen
      (SaveStep crc32c config fault reader fails platform key declaredLen) s t ∧
      t.worker = .ended outcome ∧ t.caller = s.caller ∧ t.desk.log = s.desk.log ∧
      t.desk.reply = s.desk.reply := by
  induction n generalizing s program with
  | zero =>
    generalize hv : (s.world, s.desk.chunks.queue) = v at hrun
    cases hrun
    exact ⟨_, .single (.work (.finish hworker)), rfl, rfl, rfl, rfl⟩
  | succ n ih =>
    cases hrun with
    | @cons _ _ p' _ _ v _ hstep hrest =>
      obtain ⟨w, messages⟩ := v
      -- after any step, the rest of the run is a run of the state reached
      have hafter {s₁ : SaveStream} {program₁ : Prog FsInterface (Except Abort Unit)}
          (hwork : WorkerStep crc32c config fault fails platform key declaredLen s s₁)
          (hworker₁ : s₁.worker = .running program₁) (hsenders₁ : s₁.desk.chunks.senders = false)
          (hrest₁ : Run (Feeding (Fs fault)) n program₁ (s₁.world, s₁.desk.chunks.queue)
            (.ret outcome) (w', [])) (hcaller : s₁.caller = s.caller)
          (hlog : s₁.desk.log = s.desk.log) (hreply : s₁.desk.reply = s.desk.reply) :
          ∃ t, ReflTransGen
            (SaveStep crc32c config fault reader fails platform key declaredLen) s t ∧
            t.worker = .ended outcome ∧ t.caller = s.caller ∧ t.desk.log = s.desk.log ∧
            t.desk.reply = s.desk.reply := by
        obtain ⟨t, hsteps, hended, hcaller', hlog', hreply'⟩ := ih hworker₁ hsenders₁ hrest₁
        exact ⟨t, .head (.work hwork) hsteps, hended, hcaller'.trans hcaller, hlog'.trans hlog,
          hreply'.trans hreply⟩
      cases hstep with
      | @call c k _ _ r henv =>
        by_cases hc : c = .recv
        · subst hc
          obtain ⟨hworld, rfl, hleft⟩ := henv
          obtain rfl : w = _ := hworld
          obtain rfl : messages = _ := hleft
          cases hqueue : s.desk.chunks.queue with
          | nil =>
            rw [hqueue] at hrest
            have hend : s.desk.chunks.Receives none s.desk.chunks := .disconnected hqueue hsenders
            refine hafter (.receive hworker hend) rfl hsenders ?_ rfl rfl rfl
            show Run _ n _ (_, s.desk.chunks.queue) _ _
            rw [hqueue]
            exact hrest
          | cons message queue =>
            rw [hqueue] at hrest
            have hmessage : s.desk.chunks.Receives (some message)
                { s.desk.chunks with
                  taken := s.desk.chunks.taken ++ [message], queue := queue } := .message hqueue
            exact hafter (.receive hworker hmessage) rfl hsenders hrest rfl (log_receive hmessage) rfl
        · obtain ⟨hfs, hsame⟩ := feeding_other hc henv
          obtain rfl : messages = _ := hsame
          exact hafter (.work hworker hc hfs) rfl hsenders hrest rfl rfl rfl
      | loop => exact hafter (.turn hworker) rfl hsenders hrest rfl rfl rfl

/-- The parties on their way to the end: the worker has what was sent, and is given the rest. -/
structure Underway (crc32c : Crc32c) (config : StoreConfig) (fault : FsCall → IoError → Prop)
    (platform : Platform) (key : KeyHash) (declaredLen : Nat) (s : SaveStream)
    (due : Prop) (rest : List SaveStreamMessage) (outcome : Except Abort Unit)
    (program : Prog FsInterface (Except Abort Unit)) : Prop where
  /-- The worker has this left to do. -/
  worker : s.At crc32c config platform key declaredLen program
  /-- If it gets everything, it comes to this. -/
  consumes : due → Consumes fault (s.desk.chunks.queue ++ rest) outcome program s.world
  /-- It has not been answered for, -/
  reply : s.desk.reply = none
  /-- still receives, -/
  receiver : s.desk.chunks.receiver = true
  /-- and has a sender as long as the caller has not let go. -/
  senders : s.desk.chunks.senders = !s.desk.dropped
  /-- The channel holds no more than it may. -/
  room : s.desk.chunks.queue.length ≤ streamChannelCapacity

variable (crc32c config fault platform key declaredLen) in
/-- **The parties come to their end together**: the caller goes first, and waits for the worker where
    the channel is full and where it waits for the result. -/
theorem returns_together {reported : List SaveStreamMessage → Except AtomicBlobStoreError Unit}
    {r : Except AtomicBlobStoreError Unit} {outcome : Except Abort Unit} {log' : SaveLog}
    (hreported : log'.submitted = true →
      (SaveWorker.ended outcome).Replies fails (reported log'.sent)) {n : Nat} {s : SaveStream} {p : Prog SaveInterface (Except AtomicBlobStoreError Unit)}
    (hcaller : s.caller = some p) (hrun : Run (Alone reader reported) n p s.desk.log (.ret r) log')
    (hunderway : s.desk.heard = none → ∃ rest program,
      log'.sent = s.desk.chunks.sent ++ rest ∧
        Underway crc32c config fault platform key declaredLen s (log'.submitted = true) rest outcome
          program) :
    ∃ t, ReflTransGen (SaveStep crc32c config fault reader fails platform key declaredLen) s t ∧
      t.caller = some (.ret r) := by
  induction n generalizing s p with
  | zero =>
    generalize hlog : s.desk.log = log at hrun
    cases hrun
    exact ⟨s, .refl, hcaller⟩
  | succ n ih =>
    cases hrun with
    | @cons _ _ p' _ _ log₁ _ hstep hrest =>
      cases hstep with
      | loop =>
        obtain ⟨t, hsteps, ht⟩ := ih (s := { s with caller := some _ }) rfl hrest fun hheard => by
          obtain ⟨rest, program, hsent, h⟩ := hunderway hheard
          exact ⟨rest, program, hsent, ⟨h.worker, h.consumes, h.reply, h.receiver, h.senders, h.room⟩⟩
        exact ⟨t, .head (.call hcaller .loop) hsteps, ht⟩
      | @call c k _ _ r' henv =>
        -- a call that the worker does not see
        have hquiet (desk₁ : SaveDesk) (hcall : Calling reader fails c s.desk r' desk₁)
            (hlog : desk₁.log = log₁) (hchunks : desk₁.chunks = s.desk.chunks)
            (hreply : desk₁.reply = s.desk.reply) (hdropped : desk₁.dropped = s.desk.dropped)
            (hheard : desk₁.heard = s.desk.heard) :
            ∃ t, ReflTransGen
              (SaveStep crc32c config fault reader fails platform key declaredLen) s t ∧
              t.caller = some (.ret r) := by
          obtain ⟨t, hsteps, ht⟩ := ih (s := { s with caller := some (k r'), desk := desk₁ }) rfl
            (hlog ▸ hrest) fun hnone => by
              obtain ⟨rest, program, hsent, h⟩ := hunderway (hheard ▸ hnone)
              refine ⟨rest, program, hchunks ▸ hsent, h.worker, ?_, hreply ▸ h.reply, ?_, ?_, ?_⟩
              · exact hchunks ▸ h.consumes
              · exact hchunks ▸ h.receiver
              · rw [hchunks, hdropped]
                exact h.senders
              · exact hchunks ▸ h.room
          exact ⟨t, .head (.call hcaller (.call hcall)) hsteps, ht⟩
        cases c with
        | ensureOpen =>
          obtain ⟨rfl, -, rfl⟩ := henv
          exact hquiet s.desk ⟨rfl, nofun⟩ rfl rfl rfl rfl rfl
        | submit =>
          obtain ⟨rfl, -, rfl⟩ := henv
          exact hquiet { s.desk with submitted := true } rfl rfl rfl rfl rfl rfl
        | read n =>
          obtain ⟨-, hrule, hlen, rfl⟩ := henv
          exact hquiet { s.desk with reads := s.desk.reads ++ [r'] }
            ⟨hrule, hlen, rfl⟩ rfl rfl rfl rfl rfl
        | select n =>
          obtain ⟨answer, rfl, ⟨-, hnone⟩, hrule, hlen, rfl⟩ := henv
          obtain ⟨rest, program, -, h⟩ := hunderway hnone
          exact hquiet { s.desk with reads := s.desk.reads ++ [answer] }
            ⟨h.reply, hrule, hlen, rfl⟩ rfl rfl rfl rfl rfl
        | send message =>
          obtain ⟨rfl, ⟨hheld, hnone⟩, hsubmitted, rfl⟩ := henv
          obtain ⟨rest, program, hsent, h⟩ := hunderway hnone
          obtain ⟨more, hmore, -, hdue⟩ := alone_grows hrest
          obtain rfl : rest = message :: more := by
            have hmore : log'.sent = s.desk.chunks.sent ++ [message] ++ more := hmore
            rw [hsent, List.append_assoc] at hmore
            exact List.append_cancel_left hmore
          have hsenders : s.desk.chunks.senders = true := by
            rw [h.senders, show s.desk.dropped = false from hheld]
            rfl
          have hpos : 0 < streamChannelCapacity := by decide
          -- with room in the channel, the message enters it
          have hroom (s₁ : SaveStream) {program₁ : Prog FsInterface (Except Abort Unit)}
              (hcaller₁ : s₁.caller = some (.call (SaveCall.send message) k))
              (hlog₁ : s₁.desk.log = s.desk.log)
              (h₁ : Underway crc32c config fault platform key declaredLen s₁
                (log'.submitted = true) (message :: more) outcome program₁) (hsenders₁ : s₁.desk.chunks.senders = true)
              (hlt : s₁.desk.chunks.queue.length < streamChannelCapacity) :
              ∃ t, ReflTransGen
                (SaveStep crc32c config fault reader fails platform key declaredLen) s₁ t ∧
                t.caller = some (.ret r) := by
            have hsends : Channel.Sends streamChannelCapacity message s₁.desk.chunks true _ :=
              .accepted hsenders₁ hlt h₁.receiver
            have hcall : Calling reader fails (.send message) s₁.desk true
                { s₁.desk with chunks := { s₁.desk.chunks with
                  queue := s₁.desk.chunks.queue ++ [message] } } := ⟨_, hsends, rfl⟩
            have hlog : SaveDesk.log { s₁.desk with chunks := { s₁.desk.chunks with
                queue := s₁.desk.chunks.queue ++ [message] } } =
                { s.desk.log with sent := s.desk.log.sent ++ [message] } := by
              rw [← hlog₁]
              exact congrArg (fun sent => SaveLog.mk s₁.desk.submitted s₁.desk.reads sent
                s₁.desk.dropped s₁.desk.heard) hsends.sent_true
            obtain ⟨t, hsteps, ht⟩ := ih (s := { s₁ with
                caller := some (k true)
                desk := { s₁.desk with chunks := { s₁.desk.chunks with
                  queue := s₁.desk.chunks.queue ++ [message] } } }) rfl (hlog ▸ hrest) fun _ => by
              refine ⟨more, program₁, hmore.trans (congrArg (·.sent ++ more) hlog.symm),
                h₁.worker, ?_, h₁.reply, h₁.receiver, h₁.senders, ?_⟩
              · intro hdue
                have hconsumes := h₁.consumes hdue
                rwa [← List.singleton_append, ← List.append_assoc] at hconsumes
              · show (s₁.desk.chunks.queue ++ [message]).length ≤ _
                rw [List.length_append, List.length_singleton]
                omega
            exact ⟨t, .head (.call hcaller₁ (.call hcall)) hsteps, ht⟩
          by_cases hlt : s.desk.chunks.queue.length < streamChannelCapacity
          · exact hroom s hcaller rfl h hsenders hlt
          · -- the channel is full: the worker takes a message first
            cases hqueue : s.desk.chunks.queue with
            | nil =>
              rw [hqueue] at hlt
              exact absurd hpos hlt
            | cons message' queue =>
              have hfull := h.room
              rw [hqueue, List.length_cons] at hfull
              obtain ⟨m, w', hconsumes⟩ := h.consumes (hdue hsubmitted)
              rw [hqueue] at hconsumes
              obtain ⟨program', w, htake, hleft⟩ := takes_one crc32c config reader fails
                platform key declaredLen
                (s := { s with worker := .running program }) rfl hqueue hconsumes
              have hlog : SaveDesk.log { s.desk with chunks := { s.desk.chunks with
                  taken := s.desk.chunks.taken ++ [message'], queue := queue } } = s.desk.log :=
                log_receive (s := s) (p := program) (.message hqueue)
              obtain ⟨t, hsteps, ht⟩ := hroom { s with
                  worker := .running program', world := w
                  desk := { s.desk with chunks := { s.desk.chunks with
                    taken := s.desk.chunks.taken ++ [message'], queue := queue } } } hcaller hlog
                ⟨Or.inl rfl, fun _ => hleft, h.reply, h.receiver, h.senders, Nat.le_of_succ_le hfull⟩ hsenders
                (show queue.length < _ by omega)
              exact ⟨t, ((h.worker.started hsubmitted).trans htake).trans hsteps, ht⟩
        | dropChunks =>
          obtain ⟨⟨hheld, hnone⟩, rfl⟩ := henv
          obtain ⟨rest, program, hsent, h⟩ := hunderway hnone
          have hcall : Calling reader fails .dropChunks s.desk r'
              { s.desk with dropped := true, chunks := s.desk.chunks.dropSenders } := rfl
          obtain ⟨t, hsteps, ht⟩ := ih (s := { s with
              caller := some (k r')
              desk := { s.desk with dropped := true, chunks := s.desk.chunks.dropSenders } }) rfl
            hrest fun _ => ⟨rest, program, hsent, ⟨h.worker, h.consumes, h.reply, h.receiver, rfl,
              h.room⟩⟩
          exact ⟨t, .head (.call hcaller (.call hcall)) hsteps, ht⟩
        | wait =>
          obtain ⟨hr, hdropped, hsubmitted, hnone, rfl⟩ := henv
          obtain ⟨rest, program, hsent, h⟩ := hunderway hnone
          -- nothing more is sent, so the worker can come to its end
          obtain ⟨more, hmore, hnothing, hdue⟩ := alone_grows hrest
          have hreported := hreported (hdue hsubmitted)
          have hall : log'.sent = s.desk.chunks.sent := by
            have hmore : log'.sent = s.desk.chunks.sent ++ more := hmore
            rwa [(hnothing hdropped).1, List.append_nil] at hmore
          obtain rfl : rest = [] := List.append_right_eq_self.mp (hsent.symm.trans hall)
          rw [hall] at hreported
          obtain ⟨m, w', hconsumes⟩ := h.consumes (hdue hsubmitted)
          rw [List.append_nil] at hconsumes
          have hsenders : s.desk.chunks.senders = false := by
            rw [h.senders, show s.desk.dropped = true from hdropped]
            rfl
          obtain ⟨s₁, hsteps₁, hended, hcaller₁, hlog₁, hreply₁⟩ := drains_all crc32c
            config reader fails platform key declaredLen (s := { s with worker := .running program }) rfl
            hsenders hconsumes
          have hreply : SaveStep crc32c config fault reader fails platform key declaredLen s₁
              { s₁ with desk := { s₁.desk with reply := some r' } } :=
            .reply (hreply₁.trans h.reply) (by
              rw [hended, hr]
              exact hreported)
          have hcall : Calling reader fails .wait { s₁.desk with reply := some r' } r'
              { s₁.desk with reply := some r', heard := some r' } := ⟨rfl, rfl⟩
          have hlog : SaveDesk.log
              { s₁.desk with reply := some r', heard := some r' } =
              { s.desk.log with heard := some r' } := by
            rw [← hlog₁]
            rfl
          obtain ⟨t, hsteps, ht⟩ := ih (s := { s₁ with
              caller := some (k r')
              desk := { s₁.desk with reply := some r', heard := some r' } }) rfl
            (hlog ▸ hrest) nofun
          exact ⟨t, (((h.worker.started hsubmitted).trans hsteps₁).tail hreply).trans
            (.head (.call (hcaller₁.trans hcaller) (.call hcall)) hsteps), ht⟩

end Ending

/-! ## A worker that nothing disturbs

  The encoder's verdict was computed for any writer.  What is left is what each backend does around
  it. -/

section Undisturbed

open FsM (ask fail ofResult)

variable {crc32c : Crc32c} {config : StoreConfig} {key : KeyHash} {declaredLen : Nat} {w : JobWorld}
  {messages : List SaveStreamMessage} {outcome : Except Abort Unit}

/-- What the encoder makes of the messages, whatever it writes to. -/
def Encodes (crc32c : Crc32c) (config : StoreConfig) (declaredLen : Nat)
    (messages : List SaveStreamMessage) (outcome : Except Abort Unit) : Prop :=
  ∀ (writer : Writer) (w : JobWorld), writer.Ready w → ∃ content log,
    Returns (Feeding (Fs Faultless)) (writeStreamEnvelope crc32c config writer.write declaredLen).run
      (writer.after w [] [], messages) outcome (writer.after w content log, [])

/-- `save_blob_from_receiver` on Unix ends as its encoder. -/
theorem Unix.returns_saveBlobFromReceiver (hmax : declaredLen ≤ config.maximum)
    (hdirectory : w.disk.isDirectory = true)
    (hencodes : Encodes crc32c config declaredLen messages outcome) :
    Consumes Faultless messages outcome
      (Unix.saveBlobFromReceiver crc32c config (blobFilename config.format key) declaredLen).run w := by
  obtain ⟨content, log, hencoder⟩ := hencodes (.atomic (blobFilename config.format key)) w trivial
  have hopen : Feeding (Fs Faultless) (.openAtomic (blobFilename config.format key)) (w, messages)
      (.ok ()) ((Writer.atomic (blobFilename config.format key)).after w [] [], messages) := by
    refine ⟨⟨hdirectory, ?_⟩, rfl⟩
    rw [Writer.after, List.append_nil]
  have hbody : ∃ w', Returns (Feeding (Fs Faultless))
      (Unix.saveBlobFromReceiver crc32c config (blobFilename config.format key) declaredLen).run
      (w, messages) outcome (w', []) := by
    unfold Unix.saveBlobFromReceiver
    rw [envelopeHeader_eq config hmax]
    cases outcome with
    | error abort => exact ⟨_, returnsE_bind returns_ret (Returns.call hopen
        (returnsE_bind returns_ret (returnsE_bind_error hencoder)))⟩
    | ok u =>
      have hcommit : Feeding (Fs Faultless) .commit
          ((Writer.atomic (blobFilename config.format key)).after w content log, []) (.ok ())
          (committed w (blobFilename config.format key) content log, []) :=
        ⟨⟨_, content, rfl, hdirectory, rfl⟩, rfl⟩
      exact ⟨_, returnsE_bind returns_ret (Returns.call hopen
        (returnsE_bind returns_ret (returnsE_bind hencoder (Returns.call hcommit returns_ret))))⟩
  obtain ⟨w', n, hrun⟩ := hbody
  exact ⟨n, w', hrun⟩

/-- A staging file is put in place, whether something is there or not. -/
theorem Windows.returns_publish (messages : List SaveStreamMessage) {staging path : FileName}
    {node : Node} (hnode : w.disk.entry staging = some node) : ∃ w',
    Returns (Feeding (Fs Faultless)) (Windows.publish staging path).run (w, messages) (.ok ())
      (w', messages) := by
  have hopen (w : JobWorld) : Feeding (Fs Faultless) .openDirectory (w, messages) (.ok ())
      (w, messages) := ⟨⟨rfl, trivial⟩, rfl⟩
  have hsync (w : JobWorld) : Feeding (Fs Faultless) .syncDirectory (w, messages) (.ok ())
      (w, messages) := ⟨⟨rfl, trivial⟩, rfl⟩
  have hmoved (replace : Bool) (h : replace = false → w.disk.entry path = none) :
      Feeding (Fs Faultless) (.moveSaveFile staging path replace) (w, messages) (.ok ())
        ({ w with
          disk := w.disk.move staging path, published := w.published ++ [(path, node)] },
          messages) := ⟨⟨node, hnode, h, rfl⟩, rfl⟩
  have hsynced (w : JobWorld) : Returns (Feeding (Fs Faultless))
      (FsM.io .syncNamespaceDirectory =<< ProgE.attempt Windows.syncWindowsDirectory).run
      (w, messages) (.ok ()) (w, messages) :=
    Returns.call (hopen w) (Returns.call (hsync w) returns_ret)
  have hcommit : Returns (Feeding (Fs Faultless)) (Windows.commitWindowsStaging staging path).run
      (w, messages) (.ok ()) ({ w with
        disk := w.disk.move staging path, published := w.published ++ [(path, node)] },
        messages) := by
    cases hthere : w.disk.entry path with
    | none => exact Returns.call (hmoved false fun _ => hthere) returns_ret
    | some there =>
      -- the first move finds the old blob in place, and the second replaces it
      have hexists : Feeding (Fs Faultless) (.moveSaveFile staging path false) (w, messages)
          (.error ⟨.alreadyExists, 80⟩) (w, messages) :=
        ⟨Or.inl ⟨rfl, rfl, rfl, by rw [hthere]; nofun⟩, rfl⟩
      exact Returns.call hexists (Returns.call (hmoved true nofun) returns_ret)
  exact ⟨_, returnsE_bind hcommit (hsynced _)⟩

/-- `save_blob_from_receiver` on Windows ends as its encoder, if it draws a name that is free. -/
theorem Windows.returns_saveBlobFromReceiver (hmax : declaredLen ≤ config.maximum)
    (hdirectory : w.disk.isDirectory = true) (bytes : Vector UInt8 32)
    (hfree : w.disk.entry (stagingFilename (toHex key.toList) config.format.filenameSuffix .save
      (toHex bytes.toList)) = none)
    (hencodes : Encodes crc32c config declaredLen messages outcome)
    (hnot : ∀ abort, outcome = .error abort → Windows.isAlreadyExists abort = false) :
    Consumes Faultless messages outcome
      (Windows.saveBlobFromReceiver crc32c config (blobFilename config.format key)
        declaredLen).run w := by
  generalize hstaging : stagingFilename (toHex key.toList) config.format.filenameSuffix .save
    (toHex bytes.toList) = staging at hfree
  obtain ⟨content, log, hencoder⟩ := hencodes (.staging staging) w hdirectory
  -- the random name is drawn and is free, so one turn of the loop is enough
  have hfill : Returns (Feeding (Fs Faultless)) randomIdentifier.run (w, messages)
      (.ok (toHex bytes.toList)) (w, messages) :=
    Returns.call (r := (.ok bytes : Except Nat (Vector UInt8 32))) ⟨⟨rfl, trivial⟩, rfl⟩ returns_ret
  have hcreate : Feeding (Fs Faultless) (.createNew staging) (w, messages) (.ok ())
      ((Writer.staging staging).after w [] [], messages) := by
    refine ⟨⟨hdirectory, hfree, ?_⟩, rfl⟩
    rw [Writer.after, List.append_nil]
  have hentry : ((Writer.staging staging).after w content log).disk.entry staging =
      some (.file content) := Disk.entry_set_self hdirectory
  have hturn : ∃ w', Returns (Feeding (Fs Faultless))
      (Windows.saveStreamTurn crc32c config (blobFilename config.format key) (toHex key.toList)
        declaredLen).run (w, messages) (outcome.map .inr) (w', []) := by
    unfold Windows.saveStreamTurn
    cases outcome with
    | ok u =>
      have hflush : Feeding (Fs Faultless) (.flushFile staging)
          ((Writer.staging staging).after w content log, []) (.ok ())
          ((Writer.staging staging).after w content log, []) := ⟨⟨rfl, trivial⟩, rfl⟩
      have hcreated : Returns (Feeding (Fs Faultless))
          (Windows.createWindowsStreamingStaging crc32c config staging declaredLen).run
          (w, messages) (.ok ()) ((Writer.staging staging).after w content log, []) :=
        Returns.call hcreate (returnsE_bind returns_ret (returnsE_bind hencoder
          (Returns.call hflush returns_ret)))
      obtain ⟨w', hpublish⟩ := Windows.returns_publish [] hentry
      subst hstaging
      exact ⟨w', returnsE_bind hfill (returnsE_bind (returnsE_attempt hcreated)
        (returnsE_bind hpublish returns_ret))⟩
    | error abort =>
      have hcreated : Returns (Feeding (Fs Faultless))
          (Windows.createWindowsStreamingStaging crc32c config staging declaredLen).run
          (w, messages) (.error abort) ((Writer.staging staging).after w content log, []) :=
        Returns.call hcreate (returnsE_bind returns_ret (returnsE_bind_error hencoder))
      -- an encoder that failed leaves a staging file, which is deleted
      obtain ⟨gone, hdelete⟩ : ∃ gone, Feeding (Fs Faultless) (.deleteFile staging)
          ((Writer.staging staging).after w content log, []) (.ok ()) (gone, []) :=
        ⟨_, ⟨by simp [hentry], rfl⟩, rfl⟩
      subst hstaging
      refine ⟨gone, returnsE_bind hfill (returnsE_bind (returnsE_attempt hcreated) ?_)⟩
      show Returns _ (ExceptT.run (if Windows.isAlreadyExists abort then _ else _)) _ _ _
      rw [hnot abort rfl]
      exact Returns.call hdelete returns_ret
  obtain ⟨w', hturn⟩ := hturn
  have hbody : Returns (Feeding (Fs Faultless))
      (Windows.saveBlobFromReceiver crc32c config (blobFilename config.format key)
        declaredLen).run (w, messages) outcome (w', []) := by
    unfold Windows.saveBlobFromReceiver
    rw [envelopeHeader_eq config hmax, stem_blobFilename]
    refine returnsE_bind returns_ret (returnsE_bind returns_ret ?_)
    cases outcome with
    | ok u => exact returnsE_last hturn
    | error abort => exact returnsE_stop hturn
  obtain ⟨n, hrun⟩ := hbody
  exact ⟨n, w', hrun⟩

/-- A stream that was completed. -/
theorem encodes_complete (hmax : declaredLen ≤ config.maximum) {chunks : List (List UInt8)}
    (hlen : chunks.flatten.length = declaredLen) :
    Encodes crc32c config declaredLen (feed chunks ++ [.complete]) (.ok ()) :=
  fun _ _ hready => ⟨_, _, returns_accepted hready hmax chunks [] hlen⟩

/-- A stream that was not. -/
theorem encodes_cancelled (hmax : declaredLen ≤ config.maximum) {chunks : List (List UInt8)}
    (hle : chunks.flatten.length ≤ declaredLen) :
    Encodes crc32c config declaredLen (feed chunks) (.error (.error .streamCancelled)) :=
  fun _ _ hready => ⟨_, _, returns_cancelled hready hmax chunks hle⟩

/-- The directory can take another blob: on Windows there is a name for its staging file. -/
def Roomy (config : StoreConfig) (key : KeyHash) (disk : Disk) (platform : Platform) : Prop :=
  disk.isDirectory = true ∧ (platform = .windows → ∃ bytes : Vector UInt8 32,
    disk.entry (stagingFilename (toHex key.toList) config.format.filenameSuffix .save
      (toHex bytes.toList)) = none)

/-- **`save_blob_from_receiver`** comes to its end. -/
theorem returns_saveBlobFromReceiver {platform : Platform} {disk : Disk}
    (hroomy : Roomy config key disk platform) (hmax : declaredLen ≤ config.maximum)
    (hencodes : Encodes crc32c config declaredLen messages outcome)
    (hnot : ∀ abort, outcome = .error abort → Windows.isAlreadyExists abort = false) :
    Consumes Faultless messages outcome
      (saveBlobFromReceiver crc32c config platform (blobFilename config.format key) declaredLen).run
      (.start disk) := by
  cases platform with
  | unix => exact Unix.returns_saveBlobFromReceiver hmax hroomy.1 hencodes
  | windows =>
    obtain ⟨bytes, hfree⟩ := hroomy.2 rfl
    exact Windows.returns_saveBlobFromReceiver hmax hroomy.1 bytes hfree hencodes hnot

/-- What the worker reports, by what was sent. -/
def reportedFor (sent : List SaveStreamMessage) : Except AtomicBlobStoreError Unit :=
  if .complete ∈ sent then .ok () else .error .streamCancelled

variable (crc32c config declaredLen) in
/-- **A streaming save returns**, if its reader always answers and no file operation fails. -/
theorem streamingSave_returns {reader : ReadRule} (fails : Prop) {platform : Platform} {disk : Disk}
    (hroomy : Roomy config key disk platform)
    (hanswers : ∀ reads n, 0 < n → ∃ r, reader reads r ∧
      ∀ bytes, r = .ok bytes → bytes.length ≤ n) (facade : Facade) :
    ∃ s r, (streamingSave crc32c config Faultless reader fails facade platform key declaredLen
      disk).Reachable s ∧ s.caller = some (.ret r) := by
  obtain ⟨r, log', n, hrun⟩ := returns_saveFrom config declaredLen
    reportedFor hanswers facade
  have hinit : (streamingSave crc32c config Faultless reader fails facade platform key declaredLen
    disk).Reachable ⟨some (facade.saveFrom config declaredLen), .start, .queued, .start disk⟩ :=
    .init rfl
  -- the worker gets what this run sends, and ends as that says
  have hworker : ∃ outcome,
      (log'.submitted = true → (SaveWorker.ended outcome).Replies fails (reportedFor log'.sent)) ∧
      (log'.submitted = true → Consumes Faultless log'.sent outcome
        (saveBlobFromReceiver crc32c config platform (blobFilename config.format key)
          declaredLen).run (.start disk)) := by
    have hcareful : Careful config declaredLen log' :=
      (holds_saveFrom facade n _ _ (hrun.mono facing_of_alone)).1
    obtain ⟨⟨chunks, tail, -, -, hsent⟩, hmax, -⟩ := hcareful
    rcases hsent with ⟨hsent, hle⟩ | ⟨hsent, hlen, -⟩
    · refine ⟨.error (.error .streamCancelled), fun _ => Or.inl ?_, fun hsubmitted => ?_⟩
      · rw [hsent, reportedFor, if_neg (complete_not_mem_feed chunks)]
      · rw [hsent]
        refine returns_saveBlobFromReceiver hroomy (hmax hsubmitted)
          (encodes_cancelled (hmax hsubmitted) hle) fun abort habort => ?_
        obtain rfl := Except.error.inj habort
        rfl
    · refine ⟨.ok (), fun _ => Or.inl ?_, fun hsubmitted => ?_⟩
      · rw [hsent, reportedFor, if_pos (List.mem_append_right _ (List.mem_singleton_self _))]
      · rw [hsent]
        exact returns_saveBlobFromReceiver hroomy (hmax hsubmitted)
          (encodes_complete (hmax hsubmitted) hlen) nofun
  obtain ⟨outcome, hreported, hconsumes⟩ := hworker
  obtain ⟨t, hsteps, ht⟩ := returns_together crc32c config Faultless
    platform key declaredLen hreported (s := ⟨_, .start, .queued, .start disk⟩) rfl hrun
    fun _ => ⟨log'.sent, _, rfl, Or.inr ⟨rfl, rfl⟩, hconsumes, rfl, rfl, rfl, Nat.zero_le _⟩
  exact ⟨t, r, hinit.run hsteps, ht⟩

end Undisturbed

/-! ## The result -/

section Main

variable (crc32c : Crc32c) (config : StoreConfig) (fault : FsCall → IoError → Prop)
  (reader : ReadRule) (fails : Prop) (facade : Facade) (platform : Platform) (key : KeyHash)
  (declaredLen : Nat) (disk : Disk)

/-- What the parties of a streaming save promise, wherever they are.  The fields are about every
    state, and so about every moment at which something may be cut off. -/
structure SafeStream (s : SaveStream) : Prop where
  /-- The worker commits only if it received `Complete`. -/
  commits : s.world.published ≠ [] → some .complete ∈ s.world.received
  /-- `Complete` is sent only after exactly the declared bytes, and then EOF. -/
  completes : .complete ∈ s.desk.chunks.sent →
    ∃ payload, s.desk.log.Completed declaredLen payload
  /-- The canonical file is what it was, or the envelope of exactly those bytes. -/
  canonical : Untaken config key disk s.world ∨
    ∃ payload, s.desk.log.Completed declaredLen payload ∧
      Saved crc32c config (.start disk) key payload s.world
  /-- `save_from` only returns `Ok` if the commit succeeded. -/
  returns : s.caller = some (.ret (.ok ())) → s.worker = .ended (.ok ()) ∧
    ∃ payload, s.desk.log.Completed declaredLen payload ∧
      Saved crc32c config (.start disk) key payload s.world
  /-- If the caller is gone before `Complete` is in the channel, then nothing is committed, now or
      later; a worker that waits is answered, and one that ends was cancelled, or something failed
      before. -/
  cancels : s.caller = none ∨ s.desk.chunks.senders = false → .complete ∉ s.desk.chunks.sent →
    ∀ t, ReflTransGen
        (SaveStep crc32c config fault reader fails platform key declaredLen) s t →
      Untaken config key disk t.world ∧
      (∀ k, t.worker = .running (.call FsCall.recv k) →
        ∃ t', WorkerStep crc32c config fault fails platform key declaredLen t t') ∧
      ∀ outcome, t.worker = .ended outcome → outcome = .error .panic ∧ fails ∨
        ∃ e, outcome = .error (.error e) ∧
          (e = .streamCancelled ∨ Trouble fault (.start disk))
  /-- Once `Complete` is in the channel, the worker does the same whether the caller is dropped or
      not. -/
  decided : .complete ∈ s.desk.chunks.sent →
    (∀ t, ReflTransGen
        (SaveStep crc32c config fault reader fails platform key declaredLen) s.dropCaller t →
      ∃ t', ReflTransGen
          (Keeps crc32c config fault reader fails platform key declaredLen) s t' ∧
        t'.worker = t.worker ∧ t'.world = t.world) ∧
    ∀ t, ReflTransGen
        (SaveStep crc32c config fault reader fails platform key declaredLen) s t →
      ∃ t', ReflTransGen
          (SaveStep crc32c config fault reader fails platform key declaredLen) s.dropCaller t' ∧
        t'.worker = t.worker ∧ t'.world = t.world

variable {crc32c config fault reader fails facade platform key declaredLen disk}

/-- Where nothing is committed: the part of the invariant that says so. -/
theorem SaveInv.old_or_committed {s : SaveStream}
    (h : SaveInv crc32c config fault reader fails key declaredLen disk s) :
    Untaken config key disk s.world ∨
      Committed crc32c config fault key declaredLen disk s.world := by
  have hfine := h.worker
  cases hworker : s.worker with
  | queued =>
    rw [hworker] at hfine
    have hworld : s.world = .start disk := hfine
    exact Or.inl (hworld ▸ unseen_refl)
  | refused =>
    rw [hworker] at hfine
    have hworld : s.world = .start disk := hfine
    exact Or.inl (hworld ▸ unseen_refl)
  | running program =>
    rw [hworker] at hfine
    exact hfine.now
  | ended outcome =>
    rw [hworker] at hfine
    exact hfine.1

/-- Nothing is committed without `Complete`. -/
theorem SaveInv.untaken {s : SaveStream}
    (h : SaveInv crc32c config fault reader fails key declaredLen disk s)
    (hnot : .complete ∉ s.desk.chunks.sent) : Untaken config key disk s.world := by
  rcases h.old_or_committed with hold | hcommitted
  · exact hold
  · exact absurd (h.complete_of_committed hcommitted) hnot

/-- A worker whose caller let go without `Complete`. -/
theorem SaveInv.abandoned {s : SaveStream}
    (h : SaveInv crc32c config fault reader fails key declaredLen disk s) (habandoned : s.Abandoned) :
    Untaken config key disk s.world ∧
      (∀ k, s.worker = .running (.call FsCall.recv k) →
        ∃ s', WorkerStep crc32c config fault fails platform key declaredLen s s') ∧
      ∀ outcome, s.worker = .ended outcome → outcome = .error .panic ∧ fails ∨
        ∃ e, outcome = .error (.error e) ∧ (e = .streamCancelled ∨ Trouble fault (.start disk)) := by
  obtain ⟨hsenders, hnot⟩ := habandoned
  refine ⟨h.untaken hnot, fun k hworker => ?_, fun outcome hended => ?_⟩
  · -- what is left in the channel comes first, then its end
    cases hqueue : s.desk.chunks.queue with
    | nil => exact ⟨_, .receive hworker (.disconnected hqueue hsenders)⟩
    | cons message rest => exact ⟨_, .receive hworker (.message hqueue)⟩
  · rcases h.ends hended with hpanic | ⟨-, hcommitted⟩ | ⟨e, he, htrouble | ⟨hcancelled, -⟩⟩
    · exact Or.inl hpanic
    · exact absurd (h.complete_of_committed hcommitted) hnot
    · exact Or.inr ⟨e, he, Or.inr htrouble⟩
    · exact Or.inr ⟨e, he, Or.inl hcancelled⟩

variable (crc32c config fault reader fails facade platform key declaredLen disk)

/-- **Streaming saves are safe**, whatever the reader answers, whatever fails, and in every order of
    steps: in every state that the caller, the channel, the worker and the pending result can
    reach. -/
theorem streaming_save_safe {s : SaveStream}
    (h : (streamingSave crc32c config fault reader fails facade platform key declaredLen
      disk).Reachable s) :
    SafeStream crc32c config fault reader fails platform key declaredLen disk s := by
  have hinv := saveInv_of_reachable h
  exact {
    commits := fun hpublished => by
      rcases hinv.old_or_committed with hold | hcommitted
      · exact absurd hold.published hpublished
      · exact (hinv.committed hcommitted).1
    completes := hinv.careful.1.completed
    canonical := hinv.old_or_committed.imp_right fun hcommitted => (hinv.committed hcommitted).2
    returns := fun hcaller => by
      have hheard : s.desk.heard = some (.ok ()) := by
        cases (hinv.caller _ hcaller).result with
        | completed chunks hreads hlen hsent hheard => exact hheard
        | cutShort hfail hheard => exact hheard
      have hworker := hinv.success (hinv.heard _ hheard)
      refine ⟨hworker, ?_⟩
      have hfine := hinv.worker
      rw [hworker] at hfine
      rcases hfine.2 with ⟨hpanic, -⟩ | hcommitted
      · nomatch hpanic
      · exact (hinv.committed hcommitted).2
    cancels := fun hgone hnot t hrun => by
      have habandoned : s.Abandoned := ⟨hgone.elim hinv.gone id, hnot⟩
      exact SaveInv.abandoned (keep_run (fun _ _ h hstep => h.step hstep) hinv hrun)
        (keep_run (fun _ _ h hstep => h.step hstep) habandoned hrun)
    decided := fun hcomplete => by
      constructor
      · intro t hrun
        obtain ⟨t', hrun', halike⟩ :=
          match_run (fun _ _ _ h hstep => h.step hstep) (hinv.alike hcomplete).symm hrun
        exact ⟨t', hrun', halike.worker, halike.world⟩
      · intro t hrun
        obtain ⟨t', hrun', halike⟩ :=
          match_run (fun _ _ _ h hstep => h.step hstep) (hinv.alike hcomplete) hrun
        have hle : Keeps crc32c config fault reader fails platform key declaredLen ≤
            SaveStep crc32c config fault reader fails platform key declaredLen := fun _ _ h => h.1
        exact ⟨t', ReflTransGen.mono hle _ _ hrun', halike.worker, halike.world⟩ }

end Main

end AtomicBlobStore
