/-
  LOOPS, turn by turn.

  A loop is its body, which ends each turn by leaving or by going round again.  `Exits` counts the
  turns that go round.

  * `Exits.unique`     — a loop leaves after one number of turns, in one state;
  * `exits_of_measure` — it leaves as soon as a measure pays for every turn that goes round, and the
    measure bounds the number of turns;
  * `Exits.keeps`      — it keeps what every turn keeps;
  * `Exits.leaves`     — the last turn, for what is known where the loop leaves.

  Nothing here is about a particular program.
-/
import Mathlib.Order.Basic

namespace AtomicBlobStore

universe w

/-- How a turn ends: by leaving the loop, or by going round again, in either case with a state. -/
inductive Turn (σ : Type w)
  /-- The loop is left. -/
  | leave (s : σ)
  /-- It goes round. -/
  | again (s : σ)

variable {σ : Type w}

/-- The loop goes round `n` times and then leaves.  A loop that never leaves has no `n`, so that it
    leaves is a statement, and no fuel is needed to make one. -/
inductive Exits (body : σ → Turn σ) : Nat → σ → σ → Prop
  /-- It is left at once. -/
  | leave {s s' : σ} (h : body s = .leave s') : Exits body 0 s s'
  /-- It goes round, and is left from there. -/
  | again {n : Nat} {s s₁ s' : σ} (h : body s = .again s₁) (hrest : Exits body n s₁ s') :
      Exits body (n + 1) s s'

variable {body : σ → Turn σ}

theorem Exits.unique {n m : Nat} {s s' s'' : σ} (h : Exits body n s s') (h' : Exits body m s s'') :
    n = m ∧ s' = s'' := by
  induction h generalizing m with
  | leave h =>
    cases h' with
    | leave h' => exact ⟨rfl, Turn.leave.inj (h.symm.trans h')⟩
    | again h' => exact nomatch h.symm.trans h'
  | again h _ ih =>
    cases h' with
    | leave h' => exact nomatch h.symm.trans h'
    | again h' hrest' =>
      obtain rfl := Turn.again.inj (h.symm.trans h')
      obtain ⟨rfl, rfl⟩ := ih hrest'
      exact ⟨rfl, rfl⟩

/-- **The rule of termination.**  Only the turns that go round have to be paid for. -/
theorem exits_of_measure (μ : σ → Nat) (hpaid : ∀ s s', body s = .again s' → μ s' < μ s) (s : σ) :
    ∃ n s', n ≤ μ s ∧ Exits body n s s' := by
  induction hμ : μ s using Nat.strongRecOn generalizing s with
  | ind m ih =>
    cases hturn : body s with
    | leave s' => exact ⟨0, s', Nat.zero_le _, .leave hturn⟩
    | again s₁ =>
      have hlt := hpaid s s₁ hturn
      obtain ⟨n, s', hn, hexits⟩ := ih (μ s₁) (by omega) s₁ rfl
      exact ⟨n + 1, s', by omega, .again hturn hexits⟩

/-- **The rule of invariants.** -/
theorem Exits.keeps {P : σ → Prop} (hagain : ∀ s s', body s = .again s' → P s → P s')
    (hleave : ∀ s s', body s = .leave s' → P s → P s') {n : Nat} {s s' : σ} (h : Exits body n s s')
    (hs : P s) : P s' := by
  induction h with
  | leave h => exact hleave _ _ h hs
  | again h _ ih => exact ih (hagain _ _ h hs)

/-- What every leaving turn leaves is what the loop leaves. -/
theorem Exits.leaves {P : σ → Prop} (hleave : ∀ s s', body s = .leave s' → P s') {n : Nat}
    {s s' : σ} (h : Exits body n s s') : P s' := by
  induction h with
  | leave h => exact hleave _ _ h
  | again _ _ ih => exact ih

/-- A function that follows the body is where the loop leaves.  This connects a loop that was written as
    a recursive function to its turns: `run` is the function, and its two equations are the premises. -/
theorem exits_of_follows (μ : σ → Nat) (run : σ → σ)
    (hpaid : ∀ s s', body s = .again s' → μ s' < μ s)
    (hleave : ∀ s s', body s = .leave s' → run s = s')
    (hagain : ∀ s s', body s = .again s' → run s = run s') (s : σ) :
    ∃ n ≤ μ s, Exits body n s (run s) := by
  obtain ⟨n, s', hn, hexits⟩ := exits_of_measure μ hpaid s
  have hrun : run s = s' := by
    clear hn
    induction hexits with
    | leave h => exact hleave _ _ h
    | again h _ ih => exact (hagain _ _ h).trans ih
  exact ⟨n, hn, hrun ▸ hexits⟩

end AtomicBlobStore
