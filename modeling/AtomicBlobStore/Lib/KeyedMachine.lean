/-
  Requests on KEYS, served one at a time.

  A `KeyedMachine` keeps a value for every key.  A request on a key finds the value of its key, is
  answered, and leaves a value there; a request on no key is answered and leaves everything alone.

  * `final_apply` — what a key holds in the end is what the requests on it, in their order, make of
    what it held at first: other keys do not matter.
  * `mem_answers` — so what a request is answered is decided by those of its key that came before it.
  * `Handed` — a relay: items that each found what the one before had left.  Where every item leaves
    what a function makes of what it found, the relay computes the fold (`Handed.foldl`); in any
    relay somebody was the last to change anything, or nobody did (`Handed.last_change`).

  Nothing here is about a particular program.
-/
import Mathlib.Logic.Function.Basic

namespace AtomicBlobStore

universe u v w x

/-- Requests `α` on keys `κ` with values `σ`, answered with `ρ`. -/
structure KeyedMachine (κ : Type u) (σ : Type v) (α : Type w) (ρ : Type x) where
  /-- The key that a request is about. -/
  key? : α → Option κ
  /-- What a request on a key is answered, and what it leaves there. -/
  serve : σ → α → ρ × σ
  /-- What a request on no key is answered. -/
  reply : α → ρ

namespace KeyedMachine

variable {κ : Type u} {σ : Type v} {α : Type w} {ρ : Type x} [DecidableEq κ]
  (m : KeyedMachine κ σ α ρ)

/-- What is held after a request.  Only the value of its own key changes. -/
def after (held : κ → σ) (a : α) : κ → σ :=
  match m.key? a with
  | none => held
  | some k => Function.update held k (m.serve (held k) a).2

/-- What a request is answered. -/
def answer (held : κ → σ) (a : α) : ρ :=
  match m.key? a with
  | none => m.reply a
  | some k => (m.serve (held k) a).1

/-- What is held in the end. -/
def final (held : κ → σ) (requests : List α) : κ → σ := requests.foldl m.after held

/-- Every request with its answer.  Each is answered from what is held when its turn comes, so the list
    says what a client that sees all answers can know of the machine. -/
def answers (held : κ → σ) : List α → List (α × ρ)
  | [] => []
  | a :: rest => (a, m.answer held a) :: answers (m.after held a) rest

/-- The requests on a key. -/
def on (k : κ) (requests : List α) : List α := requests.filter fun a => m.key? a = some k

variable {m}

theorem after_apply (held : κ → σ) (a : α) (k : κ) :
    m.after held a k = if m.key? a = some k then (m.serve (held k) a).2 else held k := by
  unfold after
  cases hkey : m.key? a with
  | none => rfl
  | some k' =>
    by_cases hk : k' = k
    · subst hk
      simp
    · have hne : some k' ≠ some k := fun h => hk (Option.some.inj h)
      rw [if_neg hne]
      exact Function.update_of_ne (Ne.symm hk) _ _

/-- **What a key holds in the end** is the work of the requests on it. -/
theorem final_apply (k : κ) : ∀ (requests : List α) (held : κ → σ),
    m.final held requests k = (m.on k requests).foldl (fun v a => (m.serve v a).2) (held k) := by
  intro requests
  induction requests with
  | nil => exact fun held => rfl
  | cons a rest ih =>
    intro held
    have hstep : m.final held (a :: rest) k = m.final (m.after held a) rest k := rfl
    rw [hstep, ih, after_apply]
    by_cases hkey : m.key? a = some k
    · simp [on, hkey]
    · simp [on, hkey]

/-- **What a request is answered** is decided by those before it. -/
theorem mem_answers {front back : List α} {a : α} (held : κ → σ) :
    (a, m.answer (m.final held front) a) ∈ m.answers held (front ++ a :: back) := by
  induction front generalizing held with
  | nil => exact List.mem_cons_self
  | cons b front ih => exact List.mem_cons_of_mem _ (ih (m.after held b))

end KeyedMachine

/-! ## Relays

  The same thing seen from the items: each has a record of what it found and of what it left, and the
  records fit together.  An implementation has such records when it serves the requests of a key one
  after another, whatever else it does in between; the machine is then recovered as a fold. -/

variable {α : Type u} {β : Type v}

/-- Each item found what the one before it had left, the first what was there at first; what is there
    now is what the last one left. -/
def Handed (found left : α → β) (first : β) : List α → β → Prop
  | [], now => now = first
  | a :: rest, now => found a = first ∧ Handed found left (left a) rest now

section Relay

variable {found left : α → β} {first now : β}

theorem handed_append {front back : List α} : Handed found left first (front ++ back) now ↔
    ∃ middle, Handed found left first front middle ∧ Handed found left middle back now := by
  induction front generalizing first with
  | nil =>
    constructor
    · exact fun h => ⟨first, rfl, h⟩
    · rintro ⟨middle, hfront, hback⟩
      rwa [show middle = first from hfront] at hback
  | cons a front ih =>
    constructor
    · rintro ⟨hfound, hrest⟩
      obtain ⟨middle, hfront, hback⟩ := ih.mp hrest
      exact ⟨middle, ⟨hfound, hfront⟩, hback⟩
    · rintro ⟨middle, ⟨hfound, hfront⟩, hback⟩
      exact ⟨hfound, ih.mpr ⟨middle, hfront, hback⟩⟩

/-- What is there now is what the last item left. -/
theorem Handed.now_eq {items : List α} (h : Handed found left first items now) :
    now = items.getLast?.elim first left := by
  induction items generalizing first with
  | nil => exact h
  | cons a rest ih =>
    have hrest := ih h.2
    cases rest with
    | nil => exact hrest
    | cons b rest => exact hrest

/-- One more item finds what is there now. -/
theorem Handed.concat {items : List α} (h : Handed found left first items now) {a : α}
    (hfound : found a = now) : Handed found left first (items ++ [a]) (left a) :=
  handed_append.mpr ⟨now, h, hfound, rfl⟩

/-- The last item leaves something else. -/
theorem Handed.replace {items : List α} {a a' : α} (h : Handed found left first (items ++ [a]) now)
    (hfound : found a' = found a) : Handed found left first (items ++ [a']) (left a') := by
  obtain ⟨middle, hitems, hlast, -⟩ := handed_append.mp h
  exact hitems.concat (hfound.trans hlast)

/-- **Who changed it last**: nobody changed anything, or there is an item after which nobody did. -/
theorem Handed.last_change {items : List α} (h : Handed found left first items now) :
    (now = first ∧ ∀ a ∈ items, left a = found a) ∨ ∃ front a back, items = front ++ a :: back ∧
      left a ≠ found a ∧ now = left a ∧ ∀ b ∈ back, left b = found b := by
  induction items generalizing first with
  | nil => exact Or.inl ⟨h, fun a ha => absurd ha List.not_mem_nil⟩
  | cons a rest ih =>
    obtain ⟨hfound, hrest⟩ := h
    rcases ih hrest with ⟨hnow, hkept⟩ | ⟨front, b, back, rfl, hchanged, hnow, hkept⟩
    · by_cases hsame : left a = found a
      · refine Or.inl ⟨hnow.trans (hsame.trans hfound), fun b hb => ?_⟩
        rcases List.mem_cons.mp hb with rfl | hb
        · exact hsame
        · exact hkept b hb
      · exact Or.inr ⟨[], a, rest, rfl, hsame, hnow, hkept⟩
    · exact Or.inr ⟨a :: front, b, back, rfl, hchanged, hnow, hkept⟩

/-- Where nobody changes anything, everybody finds what was there at first. -/
theorem Handed.constant {items : List α} (h : Handed found left first items now)
    (hkept : ∀ a ∈ items, left a = found a) : now = first ∧ ∀ a ∈ items, found a = first := by
  induction items generalizing first with
  | nil => exact ⟨h, fun a ha => absurd ha List.not_mem_nil⟩
  | cons a rest ih =>
    obtain ⟨hfound, hrest⟩ := h
    have hleft : left a = first := (hkept a List.mem_cons_self).trans hfound
    obtain ⟨hnow, hall⟩ := ih hrest fun b hb => hkept b (List.mem_cons_of_mem _ hb)
    refine ⟨hnow.trans hleft, fun b hb => ?_⟩
    rcases List.mem_cons.mp hb with rfl | hb
    · exact hfound
    · exact (hall b hb).trans hleft

/-- **Where every item leaves what `f` makes of what it found**, the relay is a fold. -/
theorem Handed.foldl {γ : Type w} {items : List α} (h : Handed found left first items now)
    (value : γ → β) (f : γ → α → γ)
    (hleft : ∀ a ∈ items, ∀ v, found a = value v → left a = value (f v a)) (v : γ)
    (hfirst : first = value v) : now = value (items.foldl f v) := by
  induction items generalizing first v with
  | nil => exact (show now = first from h).trans hfirst
  | cons a rest ih =>
    obtain ⟨hfound, hrest⟩ := h
    refine ih hrest (fun b hb => hleft b (List.mem_cons_of_mem _ hb)) (f v a) ?_
    exact hleft a List.mem_cons_self v (hfound.trans hfirst)

end Relay

end AtomicBlobStore
