/-
  Bounded CHANNELS with any number of senders and one receiver.

  A channel is what was taken out of it, what is still in it, and who is left at each end.  A send needs
  a sender, waits for room, and is refused once there is no receiver; a receive waits for a message, and
  is refused once the channel is empty and there is no sender.  What waits is a call that has no answer
  yet, so `Sends` and `Receives` are relations: they say which answers a call may get.

  `Channel.sent` is everything that ever entered, and it is what was taken followed by what is still
  there, so a channel loses nothing, invents nothing and keeps the order.

  Nothing here is about what the messages mean.
-/
import Mathlib.Data.List.Basic

namespace AtomicBlobStore

/-- A channel of messages.  `taken` is a ghost: it is what the receiver got, and no answer depends on
    it. `senders` says that at least one sender is left, and `receiver` that the receiver is. -/
structure Channel (α : Type) where
  /-- What was received. -/
  taken : List α
  /-- What is in the channel, the oldest first. -/
  queue : List α
  /-- There is a sender. -/
  senders : Bool
  /-- There is a receiver. -/
  receiver : Bool

namespace Channel

variable {α : Type}

/-- A new channel. -/
def new : Channel α := ⟨[], [], true, true⟩

/-- Every message that entered the channel. -/
def sent (c : Channel α) : List α := c.taken ++ c.queue

/-- The last sender is dropped. -/
def dropSenders (c : Channel α) : Channel α := { c with senders := false }

/-- The receiver is dropped. -/
def dropReceiver (c : Channel α) : Channel α := { c with receiver := false }

/-- The answers that a send may get.  A send into a full channel whose receiver is alive has none: it is
    blocked, and may get one later. -/
inductive Sends (capacity : Nat) (a : α) : Channel α → Bool → Channel α → Prop
  /-- There is room, and somebody to receive it. -/
  | accepted {c : Channel α} (hsenders : c.senders = true) (hroom : c.queue.length < capacity)
      (hreceiver : c.receiver = true) :
      Sends capacity a c true { c with queue := c.queue ++ [a] }
  /-- Nobody will ever receive it. -/
  | refused {c : Channel α} (hreceiver : c.receiver = false) : Sends capacity a c false c

/-- The answers that a receive may get.  What is in the channel is delivered even after the last sender
    is gone; a receive from an empty channel that has a sender is blocked. -/
inductive Receives : Channel α → Option α → Channel α → Prop
  /-- The oldest message. -/
  | message {c : Channel α} {a : α} {rest : List α} (hqueue : c.queue = a :: rest) :
      Receives c (some a) { c with taken := c.taken ++ [a], queue := rest }
  /-- The end: nothing is in the channel, and nothing will be. -/
  | disconnected {c : Channel α} (hqueue : c.queue = []) (hsenders : c.senders = false) :
      Receives c none c

variable {c c' : Channel α} {capacity : Nat} {a : α}

@[simp] theorem sent_new : (new : Channel α).sent = [] := rfl

@[simp] theorem sent_dropSenders : c.dropSenders.sent = c.sent := rfl

@[simp] theorem sent_dropReceiver : c.dropReceiver.sent = c.sent := rfl

/-- An accepted message is the last one sent. -/
theorem Sends.sent_true (h : Sends capacity a c true c') : c'.sent = c.sent ++ [a] := by
  cases h
  exact (List.append_assoc _ _ _).symm

/-- A refused message changes nothing. -/
theorem Sends.sent_false (h : Sends capacity a c false c') : c' = c := by
  cases h
  rfl

/-- Who sends has a sender. -/
theorem Sends.senders_true (h : Sends capacity a c true c') : c.senders = true := by
  cases h with
  | accepted hsenders _ _ => exact hsenders

/-- Sending changes nothing at either end. -/
theorem Sends.ends {r : Bool} (h : Sends capacity a c r c') :
    c'.taken = c.taken ∧ c'.senders = c.senders ∧ c'.receiver = c.receiver := by
  cases h
  · exact ⟨rfl, rfl, rfl⟩
  · exact ⟨rfl, rfl, rfl⟩

/-- A receive keeps what was sent. -/
theorem Receives.sent {r : Option α} (h : Receives c r c') : c'.sent = c.sent := by
  cases h with
  | message hqueue =>
    show (_ ++ [_]) ++ _ = _ ++ _
    rw [hqueue, List.append_assoc, List.singleton_append]
  | disconnected => rfl

/-- A receive takes the message that it answers. -/
theorem Receives.taken {r : Option α} (h : Receives c r c') : c'.taken = c.taken ++ r.toList := by
  cases h with
  | message => rfl
  | disconnected => exact (List.append_nil _).symm

/-- A receive changes nothing at either end. -/
theorem Receives.ends {r : Option α} (h : Receives c r c') :
    c'.senders = c.senders ∧ c'.receiver = c.receiver := by
  cases h
  · exact ⟨rfl, rfl⟩
  · exact ⟨rfl, rfl⟩

/-- The end of a channel: nothing more will come, and nothing is left. -/
theorem Receives.of_none (h : Receives c none c') :
    c' = c ∧ c.queue = [] ∧ c.senders = false := by
  cases h with
  | disconnected hqueue hsenders => exact ⟨rfl, hqueue, hsenders⟩

end Channel

end AtomicBlobStore
