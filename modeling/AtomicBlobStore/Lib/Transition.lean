/-
  Transition SYSTEMS, their reachable states and two proof rules.

  * `System.Reachable.invariant` — what holds initially and is kept by every step from a reachable
    state holds of every reachable state.
  * `System.Reachable.of_simulation` — a system whose steps are, through a projection, runs of
    another one only reaches states that project to reachable states.  The coarse system may do in
    one step what the fine one does in many, so invariants can be proved of the fine steps.
  * `match_run` — matching step by step up to a relation, each step by a run.
  * `System.Counted.le` — what is left to do pays for the steps of a kind that lowers it, however many
    other steps a run has.

  Nothing here is about a particular program.
-/
import Mathlib.Logic.Relation

namespace AtomicBlobStore

open Relation

universe u v

/-- Initial states and a step relation.  There are no labels and no fairness: what a step did is read
    off the two states, so a system that has to say more about itself keeps a history in its state. -/
structure System (σ : Type u) where
  /-- Where it may start. -/
  init : σ → Prop
  /-- What one step may do. -/
  step : σ → σ → Prop

namespace System

variable {σ : Type u} {τ : Type v}

/-- The states some run of the system ends in. -/
inductive Reachable (T : System σ) : σ → Prop
  /-- A start is reached, -/
  | init {s : σ} (h : T.init s) : Reachable T s
  /-- and whatever a step leads to. -/
  | step {s s' : σ} (h : Reachable T s) (hstep : T.step s s') : Reachable T s'

variable {T : System σ} {U : System τ}

/-- A run of steps from a reachable state ends in a reachable state. -/
theorem Reachable.run {s s' : σ} (h : Reachable T s) (hrun : ReflTransGen T.step s s') :
    Reachable T s' := by
  induction hrun with
  | refl => exact h
  | tail _ hstep ih => exact ih.step hstep

/-- **The invariant rule.**  The step case may use that the state it starts from is reachable, so an
    invariant that was proved before can be used for the next one without being repeated in it. -/
theorem Reachable.invariant {P : σ → Prop} (hinit : ∀ s, T.init s → P s)
    (hstep : ∀ s s', Reachable T s → P s → T.step s s' → P s') {s : σ} (h : Reachable T s) :
    P s := by
  induction h with
  | init h => exact hinit _ h
  | step h hs ih => exact hstep _ _ h ih hs

/-- **The simulation rule.**  `f` forgets what the coarse system has and the fine one has not; a step of
    the coarse system that only moves what is forgotten is the empty run. -/
theorem Reachable.of_simulation (f : σ → τ) (hinit : ∀ s, T.init s → U.init (f s))
    (hstep : ∀ s s', Reachable T s → Reachable U (f s) → T.step s s' →
      ReflTransGen U.step (f s) (f s')) {s : σ} (h : Reachable T s) : Reachable U (f s) := by
  induction h with
  | init h => exact .init (hinit _ h)
  | step h hs ih => exact ih.run (hstep _ _ h ih hs)

/-- A run, and how many of its steps are of a kind.  The kind is a relation on the two states of a step,
    so it is the statement that says what is counted, and not the measure that pays for it. -/
inductive Counted (T : System σ) (kind : σ → σ → Prop) : Nat → σ → σ → Prop
  /-- Nothing was done, and nothing is counted. -/
  | refl {s : σ} : Counted T kind 0 s s
  /-- A step of the kind counts one. -/
  | counted {n : Nat} {s s' s'' : σ} (h : Counted T kind n s s') (hstep : T.step s' s'')
      (hkind : kind s' s'') : Counted T kind (n + 1) s s''
  /-- Another step counts none. -/
  | other {n : Nat} {s s' s'' : σ} (h : Counted T kind n s s') (hstep : T.step s' s'')
      (hkind : ¬kind s' s'') : Counted T kind n s s''

theorem Counted.run {kind : σ → σ → Prop} {n : Nat} {s s' : σ} (h : Counted T kind n s s') :
    ReflTransGen T.step s s' := by
  induction h with
  | refl => exact .refl
  | counted _ hstep _ ih => exact ih.tail hstep
  | other _ hstep _ ih => exact ih.tail hstep

/-- **What is left to do pays for the steps that lower it**: where every step of a kind lowers a
    measure, and a step adds to the measure only as `η` grows, a run has no more steps of the kind than
    were paid for.

    `η` is the income: a system that takes in new work while it runs has no measure that only falls, but
    what came in is a number that only grows.  The bound holds of every prefix of a run, so it needs no
    assumption that the run ends. -/
theorem Counted.le {kind : σ → σ → Prop} {μ : σ → Nat} (η : σ → Nat)
    (hgrows : ∀ s s', T.Reachable s → T.step s s' → η s ≤ η s')
    (hpays : ∀ s s', T.Reachable s → T.step s s' → μ s' + η s ≤ μ s + η s')
    (hlowers : ∀ s s', T.Reachable s → kind s s' → μ s' < μ s) {n : Nat} {s s' : σ}
    (hs : T.Reachable s) (h : Counted T kind n s s') : μ s' + n + η s ≤ μ s + η s' := by
  induction h with
  | refl => omega
  | counted h hstep hkind ih =>
    have hreach := hs.run h.run
    have hmore := hgrows _ _ hreach hstep
    have hless := hlowers _ _ hreach hkind
    have := ih hs
    omega
  | other h hstep hkind ih =>
    have hmore := hpays _ _ (hs.run h.run) hstep
    have := ih hs
    omega

end System

/-- A relation is kept along a run when every step of the run keeps it. -/
theorem keep_run {σ : Type u} {r : σ → σ → Prop} {P : σ → Prop}
    (hstep : ∀ s s', P s → r s s' → P s') {s s' : σ} (h : P s) (hrun : ReflTransGen r s s') :
    P s' := by
  induction hrun with
  | refl => exact h
  | tail _ hs ih => exact hstep _ _ ih hs

/-- **The rule of matching runs**: where every step is matched by a run that keeps the relation,
    every run is.  `R` relates the states of two systems that need not project to each other. -/
theorem match_run {σ : Type u} {τ : Type v} {r : σ → σ → Prop} {q : τ → τ → Prop}
    {R : σ → τ → Prop}
    (hmatch : ∀ s s' t, R s t → r s s' → ∃ t', ReflTransGen q t t' ∧ R s' t') {s s' : σ} {t : τ}
    (h : R s t) (hrun : ReflTransGen r s s') : ∃ t', ReflTransGen q t t' ∧ R s' t' := by
  induction hrun with
  | refl => exact ⟨t, .refl, h⟩
  | tail _ hstep ih =>
    obtain ⟨t₁, hrun₁, h₁⟩ := ih
    obtain ⟨t₂, hrun₂, h₂⟩ := hmatch _ _ _ h₁ hstep
    exact ⟨t₂, hrun₁.trans hrun₂, h₂⟩

/-- A log with one entry more: an entry of it is the new one, or was there before. -/
theorem concat_cases {α : Type u} {log front later : List α} {x new : α}
    (h : log ++ [new] = front ++ x :: later) :
    (later = [] ∧ x = new ∧ front = log) ∨ ∃ rest, later = rest ++ [new] ∧ log = front ++ x :: rest := by
  rcases List.eq_nil_or_concat later with rfl | ⟨rest, last, rfl⟩
  · obtain ⟨hfront, hlast⟩ := List.append_inj' h rfl
    exact Or.inl ⟨rfl, (List.cons.inj hlast).1.symm, hfront.symm⟩
  · rw [List.concat_eq_append] at h ⊢
    rw [← List.cons_append, ← List.append_assoc] at h
    obtain ⟨hfront, hlast⟩ := List.append_inj' h rfl
    exact Or.inr ⟨rest, by rw [(List.cons.inj hlast).1], hfront⟩

end AtomicBlobStore
