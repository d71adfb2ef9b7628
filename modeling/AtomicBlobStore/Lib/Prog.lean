/-
  PROGRAMS that call their environment, and a logic for stopping them anywhere.

  A `Prog` is a tree: it ends, it makes a call and goes on with whatever is answered, or it runs a
  loop whose body says whether to go round again.  An `Environment` says which answers a call may
  get and what it does to the world meanwhile; it may be nondeterministic, so a statement about every
  run covers every failure.  `Run n` counts the steps of a run, which is the induction every rule
  below needs.

  `Holds env p Q C w` is the judgement: however the program `p` is run from the world `w`, and
  wherever that run is stopped, `C` holds of the world reached, and if the program has ended there,
  `Q` holds of its result.  The rules follow the constructors: `holds_ret`, `holds_call`,
  `holds_bind`, and `holds_loop` with a loop invariant; `Holds.mono` is the rule of consequence, and
  `Holds.step` lets another thread interfere between two steps.

  `Returns env p w a w'` says that some run ends; where the environment leaves no choice
  (`Decides`), every run then ends alike (`Run.unique`).  A program without loops (`Straight`) ends
  as soon as all its calls are answered (`Run.returns`).

  `Unstuck env p w` says that no run of the program comes to a call that the environment has no answer
  for, with a rule for each constructor.

  `ProgE` is a program that may end with an error instead, and `HoldsE` the same judgement with one
  condition for each way to end.  `FailsOnly E p` says of every environment that no run of the program
  ends with an error other than `E` allows.

  Nothing here is about a particular program.
-/
import Mathlib.Init

namespace AtomicBlobStore

/-- What a program may ask: its calls, and the type of answer of each.  A call that cannot fail has a
    plain type of answers, and one that can an `Except`: an environment decides which answers it gives. -/
structure Interface where
  /-- What may be asked. -/
  Call : Type
  /-- What may be answered. -/
  Answer : Call → Type

/-- Programs with results of a type.  A loop is a constructor of its own and not an infinite tree: its
    body ends a turn with the state of the next one, or with what the loop hands on to the rest `k`.  So
    every program is a finite object, and what can be said of all its calls can be said by recursion on
    it. -/
inductive Prog (I : Interface) : Type → Type 1
  /-- The end, with a result. -/
  | ret {α : Type} (a : α) : Prog I α
  /-- A call, and what follows its answer. -/
  | call {α : Type} (c : I.Call) (k : I.Answer c → Prog I α) : Prog I α
  /-- A loop, with the state of its next turn, and what follows it. -/
  | loop {σ β α : Type} (body : σ → Prog I (σ ⊕ β)) (s : σ) (k : β → Prog I α) : Prog I α

namespace Prog

variable {I : Interface} {α β γ σ : Type}

/-- Sequencing. -/
def bind : Prog I α → (α → Prog I β) → Prog I β
  | .ret a, f => f a
  | .call c k, f => .call c fun r => (k r).bind f
  | .loop body s k, f => .loop body s fun b => (k b).bind f

instance : Monad (Prog I) where
  pure := .ret
  bind := bind

/-- One call. -/
def ask (c : I.Call) : Prog I (I.Answer c) := .call c .ret

/-- Go round with `inl`, end with `inr`. -/
def iterate (body : σ → Prog I (σ ⊕ β)) (s : σ) : Prog I β := .loop body s .ret

/-- What a loop does next. -/
def unroll (body : σ → Prog I (σ ⊕ β)) (k : β → Prog I α) : σ ⊕ β → Prog I α
  | .inl s => .loop body s k
  | .inr b => k b

theorem bind_assoc (p : Prog I α) (f : α → Prog I β) (g : β → Prog I γ) :
    (p.bind f).bind g = p.bind fun a => (f a).bind g := by
  induction p with
  | ret a => rfl
  | call c k ih => exact congrArg (Prog.call c) (funext fun r => ih r f)
  | loop body s k _ ih => exact congrArg (Prog.loop body s) (funext fun b => ih b f)

/-- The calls a program can ever make, whatever it is answered: all of them satisfy `P`. -/
inductive Calls (P : I.Call → Prop) : {α : Type} → Prog I α → Prop
  | ret {α : Type} (a : α) : Calls P (.ret a)
  | call {α : Type} {c : I.Call} {k : I.Answer c → Prog I α} (h : P c) (hk : ∀ r, Calls P (k r)) :
      Calls P (.call c k)
  | loop {σ β α : Type} {body : σ → Prog I (σ ⊕ β)} {s : σ} {k : β → Prog I α}
      (hbody : ∀ s, Calls P (body s)) (hk : ∀ b, Calls P (k b)) : Calls P (.loop body s k)

/-- Every call is some call. -/
theorem calls_any (p : Prog I α) : Calls (fun _ => True) p := by
  induction p with
  | ret a => exact .ret a
  | call c k ih => exact .call trivial ih
  | loop body s k ihbody ih => exact .loop ihbody ih

theorem Calls.bind {P : I.Call → Prop} {p : Prog I α} (h : Calls P p) {f : α → Prog I β}
    (hf : ∀ a, Calls P (f a)) : Calls P (p.bind f) := by
  induction h with
  | ret a => exact hf a
  | call hc _ ih => exact .call hc fun r => ih r hf
  | loop hbody _ _ ih => exact .loop hbody fun b => ih b hf

theorem Calls.unroll {P : I.Call → Prop} {body : σ → Prog I (σ ⊕ β)} {k : β → Prog I α}
    (hbody : ∀ s, Calls P (body s)) (hk : ∀ b, Calls P (k b)) (r : σ ⊕ β) :
    Calls P (Prog.unroll body k r) := by
  cases r with
  | inl s => exact .loop hbody hk
  | inr b => exact hk b

/-- A program without loops, and the calls it can make. -/
inductive Straight (P : I.Call → Prop) : Prog I α → Prop
  | ret (a : α) : Straight P (.ret a)
  | call {c : I.Call} {k : I.Answer c → Prog I α} (h : P c) (hk : ∀ r, Straight P (k r)) :
      Straight P (.call c k)

theorem Straight.bind {P : I.Call → Prop} {p : Prog I α} (h : Straight P p) {f : α → Prog I β}
    (hf : ∀ a, Straight P (f a)) : Straight P (p.bind f) := by
  induction h with
  | ret a => exact hf a
  | call hc _ ih => exact .call hc ih

/-- Wherever a program makes the call `c` and is answered `r`, it calls `d` next.  This is a statement
    about the text of the program, with no run in it: what has to follow a call follows it in every
    environment. -/
inductive Leads (c : I.Call) (r : I.Answer c) (d : I.Call) : {α : Type} → Prog I α → Prop
  | ret {α : Type} (a : α) : Leads c r d (.ret a)
  | call {α : Type} {c' : I.Call} {k : I.Answer c' → Prog I α}
      (hnext : ∀ h : c = c', ∃ k', k (h ▸ r) = .call d k') (hk : ∀ r', Leads c r d (k r')) :
      Leads c r d (.call c' k)
  | loop {σ β α : Type} {body : σ → Prog I (σ ⊕ β)} {s : σ} {k : β → Prog I α}
      (hbody : ∀ s, Leads c r d (body s)) (hk : ∀ b, Leads c r d (k b)) :
      Leads c r d (.loop body s k)

section Leading

variable {c d : I.Call} {r : I.Answer c}

theorem Leads.bind {p : Prog I α} (h : Leads c r d p) {f : α → Prog I β}
    (hf : ∀ a, Leads c r d (f a)) : Leads c r d (p.bind f) := by
  induction h with
  | ret a => exact hf a
  | call hnext _ ih =>
    refine .call (fun h => ?_) fun r' => ih r' hf
    obtain ⟨k', hk'⟩ := hnext h
    exact ⟨fun r => (k' r).bind f, congrArg (Prog.bind · f) hk'⟩
  | loop hbody _ _ ih => exact .loop hbody fun b => ih b hf

/-- A program that does not make the call. -/
theorem Leads.of_calls {P : I.Call → Prop} {p : Prog I α} (h : Calls P p) (hc : ¬P c) :
    Leads c r d p := by
  induction h with
  | ret a => exact .ret a
  | call hc' _ ih => exact .call (fun h => absurd (h ▸ hc') hc) ih
  | loop _ _ ihbody ih => exact .loop ihbody ih

theorem Leads.unroll {body : σ → Prog I (σ ⊕ β)} {k : β → Prog I α}
    (hbody : ∀ s, Leads c r d (body s)) (hk : ∀ b, Leads c r d (k b)) (x : σ ⊕ β) :
    Leads c r d (Prog.unroll body k x) := by
  cases x with
  | inl s => exact .loop hbody hk
  | inr b => exact hk b

end Leading

end Prog

/-! ## Runs -/

/-- Which answers a call may get, and what becomes of the world.  A relation: several answers are
    failures and delays that the caller cannot choose, and no answer at all is a call that blocks. -/
abbrev Environment (I : Interface) (W : Type) := (c : I.Call) → W → I.Answer c → W → Prop

section Runs

variable {I : Interface} {W : Type} (env : Environment I W) {α β σ : Type}

/-- One step of a program in its world.  A turn of a loop is a step of its own, which asks nothing and
    changes nothing: this is what makes a loop that never calls anything an infinite run. -/
inductive ProgStep : Prog I α → W → Prog I α → W → Prop
  /-- A call is answered. -/
  | call {c : I.Call} {k : I.Answer c → Prog I α} {w w' : W} {r : I.Answer c} (h : env c w r w') :
      ProgStep (.call c k) w (k r) w'
  /-- A turn of a loop begins. -/
  | loop {σ β : Type} {body : σ → Prog I (σ ⊕ β)} {s : σ} {k : β → Prog I α} {w : W} :
      ProgStep (.loop body s k) w ((body s).bind (Prog.unroll body k)) w

/-- A run of a number of steps. -/
inductive Run : Nat → Prog I α → W → Prog I α → W → Prop
  /-- Nothing was done yet. -/
  | nil {p : Prog I α} {w : W} : Run 0 p w p w
  /-- One step, and then the others. -/
  | cons {n : Nat} {p p' p'' : Prog I α} {w w' w'' : W} (h : ProgStep env p w p' w')
      (hrest : Run n p' w' p'' w'') : Run (n + 1) p w p'' w''

variable {env}

/-- **A run of a sequence** stays in its first part, or ends it and runs the second. -/
theorem Run.of_bind {n : Nat} {p : Prog I α} {f : α → Prog I β} {q : Prog I β} {w w' : W}
    (h : Run env n (p.bind f) w q w') :
    (∃ p', Run env n p w p' w' ∧ q = p'.bind f) ∨
      ∃ m₁ m₂ a w₁, n = m₁ + m₂ ∧ Run env m₁ p w (.ret a) w₁ ∧ Run env m₂ (f a) w₁ q w' := by
  induction n generalizing p w with
  | zero =>
    cases h
    exact Or.inl ⟨p, .nil, rfl⟩
  | succ n ih =>
    cases p with
    | ret a => exact Or.inr ⟨0, n + 1, a, w, (Nat.zero_add _).symm, .nil, h⟩
    | call c k =>
      cases h with
      | cons hstep hrest =>
        cases hstep with
        | call henv =>
          rcases ih hrest with ⟨p', hrun, rfl⟩ | ⟨m₁, m₂, a, w₁, rfl, hrun, hrest⟩
          · exact Or.inl ⟨p', .cons (.call henv) hrun, rfl⟩
          · exact Or.inr ⟨m₁ + 1, m₂, a, w₁, by omega, .cons (.call henv) hrun, hrest⟩
    | loop body s k =>
      cases h with
      | cons hstep hrest =>
        cases hstep with
        | loop =>
          -- the rest of the loop, followed by `f`, is one unrolled body followed by `f`
          have hunroll : (body s).bind (Prog.unroll body fun b => (k b).bind f) =
              ((body s).bind (Prog.unroll body k)).bind f := by
            rw [Prog.bind_assoc]
            refine congrArg _ (funext fun r => ?_)
            cases r <;> rfl
          rw [hunroll] at hrest
          rcases ih hrest with ⟨p', hrun, rfl⟩ | ⟨m₁, m₂, a, w₁, rfl, hrun, hrest⟩
          · exact Or.inl ⟨p', .cons .loop hrun, rfl⟩
          · exact Or.inr ⟨m₁ + 1, m₂, a, w₁, by omega, .cons .loop hrun, hrest⟩

/-- A run stays one where every answer may still be given. -/
theorem Run.mono {env' : Environment I W} (hle : ∀ c w r w', env c w r w' → env' c w r w') {n : Nat}
    {p p' : Prog I α} {w w' : W} (h : Run env n p w p' w') : Run env' n p w p' w' := by
  induction h with
  | nil => exact .nil
  | cons hstep _ ih =>
    cases hstep with
    | call henv => exact .cons (.call (hle _ _ _ _ henv)) ih
    | loop => exact .cons .loop ih

/-- **A run is matched step by step** in an environment that can keep up with each answer. -/
theorem Run.matched {V : Type} {env' : Environment I V} {R : W → V → Prop}
    (hmatch : ∀ c w v r w', R w v → env c w r w' → ∃ v', env' c v r v' ∧ R w' v') {n : Nat}
    {p p' : Prog I α} {w w' : W} (h : Run env n p w p' w') {v : V} (hR : R w v) :
    ∃ v', Run env' n p v p' v' ∧ R w' v' := by
  induction h generalizing v with
  | nil => exact ⟨v, .nil, hR⟩
  | cons hstep _ ih =>
    cases hstep with
    | call henv =>
      obtain ⟨v₁, henv', hR₁⟩ := hmatch _ _ _ _ _ hR henv
      obtain ⟨v', hrun, hR'⟩ := ih hR₁
      exact ⟨v', .cons (.call henv') hrun, hR'⟩
    | loop =>
      obtain ⟨v', hrun, hR'⟩ := ih hR
      exact ⟨v', .cons .loop hrun, hR'⟩

theorem Run.append {m n : Nat} {p p' p'' : Prog I α} {w w' w'' : W} (h : Run env m p w p' w')
    (h' : Run env n p' w' p'' w'') : ∃ l, Run env l p w p'' w'' := by
  induction h with
  | nil => exact ⟨n, h'⟩
  | cons hstep _ ih =>
    obtain ⟨l, hl⟩ := ih h'
    exact ⟨l + 1, .cons hstep hl⟩

/-- A step makes no new calls. -/
theorem ProgStep.calls {P : I.Call → Prop} {p p' : Prog I α} {w w' : W} (h : ProgStep env p w p' w')
    (hp : p.Calls P) : p'.Calls P := by
  cases h with
  | call henv =>
    cases hp with
    | call _ hk => exact hk _
  | loop =>
    cases hp with
    | loop hbody hk => exact (hbody _).bind (Prog.Calls.unroll hbody hk)

/-- A run makes no new calls. -/
theorem Run.calls {P : I.Call → Prop} {n : Nat} {p p' : Prog I α} {w w' : W} (h : Run env n p w p' w')
    (hp : p.Calls P) : p'.Calls P := by
  induction h with
  | nil => exact hp
  | cons hstep _ ih => exact ih (hstep.calls hp)

/-! ## Runs that end

  `Returns` says that there is a run to a result.  Together with a rule of `Holds`, which speaks of
  every run, it makes a statement about a program total: some run ends, and every run that ends ends
  well. -/

variable (env) in
/-- Some run of the program ends with this result in this world. -/
def Returns (p : Prog I α) (w : W) (a : α) (w' : W) : Prop := ∃ n, Run env n p w (.ret a) w'

theorem returns_ret {a : α} {w : W} : Returns env (.ret a) w a w := ⟨0, .nil⟩

theorem Returns.call {c : I.Call} {k : I.Answer c → Prog I α} {r : I.Answer c} {a : α}
    {w w₁ w' : W} (henv : env c w r w₁) (h : Returns env (k r) w₁ a w') :
    Returns env (.call c k) w a w' := by
  obtain ⟨n, hrun⟩ := h
  exact ⟨n + 1, .cons (.call henv) hrun⟩

/-- The first part of a sequence runs as it would alone. -/
theorem Run.bind {n : Nat} {p p' : Prog I α} {w w' : W} (h : Run env n p w p' w')
    (f : α → Prog I β) : Run env n (p.bind f) w (p'.bind f) w' := by
  induction n generalizing p w with
  | zero =>
    cases h
    exact .nil
  | succ n ih =>
    cases h with
    | cons hstep hrest =>
      cases hstep with
      | call henv => exact .cons (.call henv) (ih hrest)
      | @loop _ _ body s k _ =>
        have hunroll : (body s).bind (Prog.unroll body fun b => (k b).bind f) =
            ((body s).bind (Prog.unroll body k)).bind f := by
          rw [Prog.bind_assoc]
          refine congrArg _ (funext fun r => ?_)
          cases r <;> rfl
        have hrest := ih hrest
        rw [← hunroll] at hrest
        exact .cons .loop hrest

/-- **A program without loops ends**, from wherever a run of it has got to, in an environment that
    answers all its calls. -/
theorem Run.returns {P : I.Call → Prop} {Inv : W → Prop}
    (hanswers : ∀ c, P c → ∀ w, Inv w → ∃ r w', env c w r w')
    (hkeeps : ∀ c, P c → ∀ w r w', env c w r w' → Inv w → Inv w') {p : Prog I α}
    (hp : p.Straight P) {w : W} (hw : Inv w) {n : Nat} {p' : Prog I α} {w' : W}
    (hrun : Run env n p w p' w') : ∃ a w'', Returns env p' w' a w'' := by
  induction hp generalizing w n p' w' with
  | ret a =>
    cases hrun with
    | nil => exact ⟨a, w, returns_ret⟩
    | cons hstep _ => cases hstep
  | @call c k hc _ ih =>
    cases hrun with
    | nil =>
      obtain ⟨r, w₁, henv⟩ := hanswers c hc w hw
      obtain ⟨a, w'', hreturns⟩ := ih r (hkeeps c hc w r w₁ henv hw) .nil
      exact ⟨a, w'', hreturns.call henv⟩
    | cons hstep hrest =>
      cases hstep with
      | call henv => exact ih _ (hkeeps c hc _ _ _ henv hw) hrest

/-- A sequence returns what its second part returns. -/
theorem Returns.bind {p : Prog I α} {f : α → Prog I β} {a : α} {b : β} {w w₁ w' : W}
    (h : Returns env p w a w₁) (hf : Returns env (f a) w₁ b w') : Returns env (p.bind f) w b w' := by
  obtain ⟨m, hrun⟩ := h
  obtain ⟨n, hrest⟩ := hf
  exact (hrun.bind f).append hrest

/-- How a program that starts with a call came to its end. -/
theorem Returns.of_call {c : I.Call} {k : I.Answer c → Prog I α} {a : α} {w w' : W}
    (h : Returns env (.call c k) w a w') : ∃ r w₁, env c w r w₁ ∧ Returns env (k r) w₁ a w' := by
  obtain ⟨n, hrun⟩ := h
  cases hrun with
  | cons hstep hrest =>
    cases hstep with
    | call henv => exact ⟨_, _, henv, _, hrest⟩

/-- A program that has ended. -/
theorem Returns.of_ret {a b : α} {w w' : W} (h : Returns env (.ret a) w b w') : b = a ∧ w' = w := by
  obtain ⟨n, hrun⟩ := h
  cases hrun with
  | nil => exact ⟨rfl, rfl⟩
  | cons hstep _ => cases hstep

/-- A run stays one in an environment that answers the calls of the program alike. -/
theorem Run.restrict {P : I.Call → Prop} {env' : Environment I W}
    (hle : ∀ c, P c → ∀ w r w', env c w r w' → env' c w r w') {n : Nat} {p p' : Prog I α} {w w' : W}
    (hp : p.Calls P) (h : Run env n p w p' w') : Run env' n p w p' w' := by
  induction h with
  | nil => exact .nil
  | cons hstep _ ih =>
    have hcalls := hstep.calls hp
    cases hstep with
    | call henv =>
      cases hp with
      | call hc _ => exact .cons (.call (hle _ hc _ _ _ henv)) (ih hcalls)
    | loop => exact .cons .loop (ih hcalls)

/-- A loop returns what one turn and the rest of the loop return. -/
theorem Returns.loop {body : σ → Prog I (σ ⊕ β)} {s : σ} {k : β → Prog I α} {r : σ ⊕ β} {a : α}
    {w w₁ w' : W} (h : Returns env (body s) w r w₁)
    (hrest : Returns env (Prog.unroll body k r) w₁ a w') :
    Returns env (.loop body s k) w a w' := by
  obtain ⟨n, hrun⟩ := h.bind (f := Prog.unroll body k) hrest
  exact ⟨n + 1, .cons .loop hrun⟩

/-- How a sequence came to its end. -/
theorem Returns.of_bind {p : Prog I α} {f : α → Prog I β} {b : β} {w w' : W}
    (h : Returns env (p.bind f) w b w') : ∃ a w₁, Returns env p w a w₁ ∧ Returns env (f a) w₁ b w' := by
  obtain ⟨n, hrun⟩ := h
  rcases hrun.of_bind with ⟨q, hrun, hq⟩ | ⟨m₁, m₂, a, w₁, -, hfirst, hrest⟩
  · cases q with
    | ret a =>
      have hend : f a = .ret b := hq.symm
      exact ⟨a, w', ⟨n, hrun⟩, hend ▸ returns_ret⟩
    | call c k => nomatch hq
    | loop body s k => nomatch hq
  · exact ⟨a, w₁, ⟨m₁, hfirst⟩, m₂, hrest⟩

/-- How a loop came to its end: by a turn, and by what followed it in fewer steps. -/
theorem Run.of_loop {body : σ → Prog I (σ ⊕ β)} {s : σ} {k : β → Prog I α} {n : Nat} {a : α}
    {w w' : W} (h : Run env n (.loop body s k) w (.ret a) w') :
    ∃ m < n, ∃ r w₁, Returns env (body s) w r w₁ ∧
      Run env m (Prog.unroll body k r) w₁ (.ret a) w' := by
  cases h with
  | @cons n _ _ _ _ _ _ hstep hrest =>
    cases hstep with
    | loop =>
      rcases hrest.of_bind with ⟨q, hrun, hq⟩ | ⟨m₁, m₂, r, w₁, rfl, hfirst, hrest⟩
      · cases q with
        | ret r =>
          have hend : Prog.unroll body k r = .ret a := hq.symm
          exact ⟨0, Nat.succ_pos n, r, w', ⟨n, hrun⟩, hend ▸ .nil⟩
        | call c k => nomatch hq
        | loop body s k => nomatch hq
      · exact ⟨m₂, by omega, r, w₁, ⟨m₁, hfirst⟩, hrest⟩

/-- **A turn that changes nothing may be left out**: where every other turn of a loop may happen in
    `env'` too, the loop may end there as it ends in `env`. -/
theorem Returns.skip {env' : Environment I W} {body : σ → Prog I (σ ⊕ β)} {k : β → Prog I α}
    (hturn : ∀ s w r w', Returns env (body s) w r w' →
      Returns env' (body s) w r w' ∨ r = .inl s ∧ w' = w)
    (hk : ∀ b w a w', Returns env (k b) w a w' → Returns env' (k b) w a w') {s : σ} {w : W} {a : α}
    {w' : W} (h : Returns env (.loop body s k) w a w') : Returns env' (.loop body s k) w a w' := by
  obtain ⟨n, hrun⟩ := h
  induction n using Nat.strongRecOn generalizing s w with
  | _ n ih =>
    obtain ⟨m, hm, r, w₁, hfirst, hrest⟩ := hrun.of_loop
    rcases hturn s w r w₁ hfirst with hfirst' | ⟨rfl, rfl⟩
    · cases r with
      | inl s' => exact hfirst'.loop (ih m hm hrest)
      | inr b => exact hfirst'.loop (hk b w₁ a w' ⟨m, hrest⟩)
    · exact ih m hm hrest

variable (env) in
/-- The calls of a kind have one answer and one effect. -/
def Decides (P : I.Call → Prop) : Prop :=
  ∀ c, P c → ∀ w r w' r' w'', env c w r w' → env c w r' w'' → r = r' ∧ w' = w''

/-- **A program without choice**: once some run has ended, no run is longer, and every run that ends
    ends alike. -/
theorem Run.unique {P : I.Call → Prop} (hdecides : Decides env P) {n : Nat} {p : Prog I α}
    (hp : p.Calls P) {a : α} {w w₁ : W} (h : Run env n p w (.ret a) w₁) {m : Nat} {q : Prog I α}
    {w₂ : W} (h' : Run env m p w q w₂) : m ≤ n ∧ ∀ b, q = .ret b → b = a ∧ w₂ = w₁ := by
  induction n generalizing p w m with
  | zero =>
    cases h
    cases h' with
    | nil =>
      refine ⟨Nat.le_refl 0, fun b hb => ?_⟩
      cases hb
      exact ⟨rfl, rfl⟩
    | cons hstep _ => cases hstep
  | succ n ih =>
    cases h' with
    | nil =>
      refine ⟨Nat.zero_le _, fun b hb => ?_⟩
      subst hb
      cases h with
      | cons hstep _ => cases hstep
    | cons hstep' hrest' =>
      have hcalls := hstep'.calls hp
      cases h with
      | cons hstep hrest =>
        cases hstep with
        | call henv =>
          cases hstep' with
          | call henv' =>
            cases hp with
            | call hc hk =>
              obtain ⟨rfl, rfl⟩ := hdecides _ hc _ _ _ _ _ henv henv'
              obtain ⟨hle, hend⟩ := ih hcalls hrest hrest'
              exact ⟨Nat.succ_le_succ hle, hend⟩
        | loop =>
          cases hstep' with
          | loop =>
            obtain ⟨hle, hend⟩ := ih hcalls hrest hrest'
            exact ⟨Nat.succ_le_succ hle, hend⟩

/-! ## The judgement -/

variable (env) in
/-- Wherever a run is stopped, `C` holds; where the program has ended, `Q` holds of its result. -/
def Holds (p : Prog I α) (Q : α → W → Prop) (C : W → Prop) (w : W) : Prop :=
  ∀ n p' w', Run env n p w p' w' → C w' ∧ ∀ a, p' = .ret a → Q a w'

variable {p : Prog I α} {Q : α → W → Prop} {C : W → Prop} {w w' : W}

theorem Holds.now (h : Holds env p Q C w) : C w := (h 0 p w .nil).1

theorem Holds.result {a : α} (h : Holds env (.ret a) Q C w) : Q a w := (h 0 _ w .nil).2 a rfl

/-- **One step keeps the judgement.** -/
theorem Holds.step {p' : Prog I α} (h : Holds env p Q C w) (hstep : ProgStep env p w p' w') :
    Holds env p' Q C w' := fun n p'' w'' hrun => h (n + 1) p'' w'' (.cons hstep hrun)

/-- The rule of consequence. -/
theorem Holds.mono {Q' : α → W → Prop} {C' : W → Prop} (h : Holds env p Q C w)
    (hQ : ∀ a w, C w → Q a w → Q' a w) (hC : ∀ w, C w → C' w) : Holds env p Q' C' w := by
  intro n p' w' hrun
  obtain ⟨hc, hq⟩ := h n p' w' hrun
  exact ⟨hC w' hc, fun a ha => hQ a w' hc (hq a ha)⟩

theorem holds_ret {a : α} (hC : C w) (hQ : Q a w) : Holds env (.ret a) Q C w := by
  intro n p' w' hrun
  cases hrun with
  | nil =>
    refine ⟨hC, fun b hb => ?_⟩
    cases hb
    exact hQ
  | cons hstep _ => cases hstep

theorem holds_call {c : I.Call} {k : I.Answer c → Prog I α} (hC : C w)
    (h : ∀ r w', env c w r w' → Holds env (k r) Q C w') : Holds env (.call c k) Q C w := by
  intro n p' w' hrun
  cases hrun with
  | nil => exact ⟨hC, fun a ha => nomatch ha⟩
  | cons hstep hrest =>
    cases hstep with
    | call henv => exact h _ _ henv _ _ _ hrest

/-- **The rule of sequence.** -/
theorem holds_bind {f : α → Prog I β} {Q : β → W → Prop}
    (h : Holds env p (fun a w => Holds env (f a) Q C w) C w) : Holds env (p.bind f) Q C w := by
  intro n q w' hrun
  rcases hrun.of_bind with ⟨p', hp', rfl⟩ | ⟨m₁, m₂, a, w₁, -, hp', hrest⟩
  · obtain ⟨hc, hq⟩ := h n p' w' hp'
    refine ⟨hc, fun b hb => ?_⟩
    -- the sequence has ended, so its first part has, and so has the second
    cases p' with
    | ret a =>
      have hfa : f a = .ret b := hb
      have hholds : Holds env (f a) Q C w' := hq a rfl
      rw [hfa] at hholds
      exact hholds.result
    | call c k => nomatch hb
    | loop body s k => nomatch hb
  · exact (h m₁ _ w₁ hp').2 a rfl m₂ q w' hrest

/-- **The rule of loops**: an invariant of the world at the head of each turn. -/
theorem holds_loop {body : σ → Prog I (σ ⊕ β)} {s : σ} {k : β → Prog I α} (Inv : σ → W → Prop)
    (hinv : Inv s w) (hnow : ∀ s w, Inv s w → C w)
    (hbody : ∀ s w, Inv s w → Holds env (body s) (fun r w => match r with
      | .inl s => Inv s w
      | .inr b => Holds env (k b) Q C w) C w) : Holds env (.loop body s k) Q C w := by
  intro n
  induction n using Nat.strongRecOn generalizing s w with
  | _ n ih =>
    intro p' w' hrun
    cases hrun with
    | nil => exact ⟨hnow s w hinv, fun a ha => nomatch ha⟩
    | @cons n _ _ _ _ _ _ hstep hrest =>
      cases hstep with
      | loop =>
        rcases hrest.of_bind with ⟨q, hq, rfl⟩ | ⟨m₁, m₂, r, w₁, rfl, hq, hrest⟩
        · obtain ⟨hc, hr⟩ := hbody s w hinv n q w' hq
          refine ⟨hc, fun a ha => ?_⟩
          cases q with
          | ret r =>
            have hr := hr r rfl
            cases r with
            | inl s => nomatch ha
            | inr b =>
              have hkb : k b = .ret a := ha
              have hholds : Holds env (k b) Q C w' := hr
              rw [hkb] at hholds
              exact hholds.result
          | call c k => nomatch ha
          | loop body s k => nomatch ha
        · have hr := (hbody s w hinv m₁ _ w₁ hq).2 r rfl
          cases r with
          | inl s' => exact ih m₂ (by omega) hr p' w' hrest
          | inr b => exact (hr : Holds env (k b) Q C w₁) m₂ p' w' hrest

theorem Holds.and {Q' : α → W → Prop} {C' : W → Prop} (h : Holds env p Q C w)
    (h' : Holds env p Q' C' w) :
    Holds env p (fun a w => Q a w ∧ Q' a w) (fun w => C w ∧ C' w) w := by
  intro n p' w' hrun
  obtain ⟨hc, hq⟩ := h n p' w' hrun
  obtain ⟨hc', hq'⟩ := h' n p' w' hrun
  exact ⟨⟨hc, hc'⟩, fun a ha => ⟨hq a ha, hq' a ha⟩⟩

/-- **What every call keeps, the program keeps.** -/
theorem holds_of_calls {P : I.Call → Prop} (hp : p.Calls P)
    (hkeep : ∀ c, P c → ∀ w r w', env c w r w' → C w → C w') (hC : C w) :
    Holds env p (fun _ w => C w) C w := by
  intro n
  induction n generalizing p w with
  | zero =>
    intro p' w' hrun
    cases hrun
    exact ⟨hC, fun a ha => hC⟩
  | succ n ih =>
    intro p' w' hrun
    cases hrun with
    | cons hstep hrest =>
      have hcalls := hstep.calls hp
      cases hstep with
      | call henv =>
        cases hp with
        | call hc hk => exact ih hcalls (hkeep _ hc _ _ _ henv hC) p' w' hrest
      | loop => exact ih hcalls hC p' w' hrest

/-! ## Programs that are never stuck

  A call without an answer is where a thread waits for somebody else.  `Unstuck` is proved for a program
  once, from what its environment always answers, and used for every thread that runs it. -/

variable (env) in
/-- No run of the program comes to a call that cannot be answered. -/
def Unstuck (p : Prog I α) (w : W) : Prop :=
  ∀ n q w', Run env n p w q w' → ∀ c k, q = .call c k → ∃ r w'', env c w' r w''

theorem unstuck_ret {a : α} : Unstuck env (.ret a) w := by
  intro n q w' hrun c k hq
  obtain ⟨rfl, -⟩ : q = .ret a ∧ w' = w := by
    cases hrun with
    | nil => exact ⟨rfl, rfl⟩
    | cons hstep _ => cases hstep
  cases hq

theorem unstuck_call {c : I.Call} {k : I.Answer c → Prog I α} (hnow : ∃ r w', env c w r w')
    (h : ∀ r w', env c w r w' → Unstuck env (k r) w') : Unstuck env (.call c k) w := by
  intro n q w' hrun c' k' hq
  cases hrun with
  | nil =>
    cases hq
    exact hnow
  | cons hstep hrest =>
    cases hstep with
    | call henv => exact h _ _ henv _ _ _ hrest c' k' hq

/-- **A sequence is not stuck** where neither part is. -/
theorem unstuck_bind {f : α → Prog I β} (h : Unstuck env p w)
    (hf : ∀ a w', Returns env p w a w' → Unstuck env (f a) w') : Unstuck env (p.bind f) w := by
  intro n q w' hrun c k hq
  rcases hrun.of_bind with ⟨p', hp', rfl⟩ | ⟨m₁, m₂, a, w₁, -, hp', hrest⟩
  · cases p' with
    | ret a => exact hf a w' ⟨n, hp'⟩ 0 _ w' .nil c k hq
    | call c' k' =>
      cases hq
      exact h n _ w' hp' _ _ rfl
    | loop body s k' => cases hq
  · exact hf a w₁ ⟨m₁, hp'⟩ m₂ q w' hrest c k hq

/-- **A loop is not stuck** where no turn is, and what follows it is not. -/
theorem unstuck_loop {body : σ → Prog I (σ ⊕ β)} {s : σ} {k : β → Prog I α} (Inv : σ → W → Prop)
    (hinv : Inv s w) (hbody : ∀ s w, Inv s w → Unstuck env (body s) w)
    (hnext : ∀ s w s' w', Inv s w → Returns env (body s) w (.inl s') w' → Inv s' w')
    (hend : ∀ s w b w', Inv s w → Returns env (body s) w (.inr b) w' → Unstuck env (k b) w') :
    Unstuck env (.loop body s k) w := by
  intro n
  induction n using Nat.strongRecOn generalizing s w with
  | _ n ih =>
    intro q w' hrun c k' hq
    cases hrun with
    | nil => cases hq
    | @cons n _ _ _ _ _ _ hstep hrest =>
      cases hstep with
      | loop =>
        rcases hrest.of_bind with ⟨p', hp', rfl⟩ | ⟨m₁, m₂, r, w₁, rfl, hp', hrest⟩
        · cases p' with
          | ret r =>
            cases r with
            | inl s' => cases hq
            | inr b => exact hend s w b w' hinv ⟨n, hp'⟩ 0 _ w' .nil c k' hq
          | call c' k'' =>
            cases hq
            exact hbody s w hinv n _ w' hp' _ _ rfl
          | loop body' s' k'' => cases hq
        · cases r with
          | inl s' =>
            exact ih m₂ (by omega) (hnext s w s' w₁ hinv ⟨m₁, hp'⟩) q w' hrest c k' hq
          | inr b => exact hend s w b w₁ hinv ⟨m₁, hp'⟩ m₂ q w' hrest c k' hq

/-- **What only asks what can always be answered is not stuck**, as long as its calls keep it so. -/
theorem unstuck_of_calls {P : I.Call → Prop} {R : W → Prop} (hp : p.Calls P)
    (hanswers : ∀ c, P c → ∀ w, R w → ∃ r w', env c w r w')
    (hkeeps : ∀ c, P c → ∀ w r w', env c w r w' → R w → R w') (hR : R w) : Unstuck env p w := by
  intro n
  induction n generalizing p w with
  | zero =>
    intro q w' hrun c k hq
    cases hrun
    subst hq
    cases hp with
    | call hc hk => exact hanswers c hc w hR
  | succ n ih =>
    intro q w' hrun c k hq
    cases hrun with
    | cons hstep hrest =>
      have hcalls := hstep.calls hp
      cases hstep with
      | call henv =>
        cases hp with
        | call hc hk => exact ih hcalls (hkeeps _ hc _ _ _ henv hR) q w' hrest c k hq
      | loop => exact ih hcalls hR q w' hrest c k hq

end Runs

/-! ## Programs that may stop short -/

/-- Programs that end with a result or an error. -/
abbrev ProgE (I : Interface) (ε α : Type) := ExceptT ε (Prog I) α

namespace ProgE

variable {I : Interface} {ε φ α β σ : Type}

/-- One call. -/
def ask (c : I.Call) : ProgE I ε (I.Answer c) := ExceptT.lift (Prog.ask c)

/-- Run a program and look at how it ended. -/
def attempt (p : ProgE I ε α) : ProgE I φ (Except ε α) := ExceptT.lift p.run

/-- What has been computed already. -/
def ofExcept (r : Except ε α) : ProgE I ε α := ExceptT.mk (.ret r)

/-- How a turn of a loop ends: with the next one, with a result, or with an error. -/
def turn : Except ε (σ ⊕ β) → Prog I (σ ⊕ Except ε β)
  | .ok (.inl s) => .ret (.inl s)
  | .ok (.inr b) => .ret (.inr (.ok b))
  | .error e => .ret (.inr (.error e))

/-- Go round with `inl`, end with `inr` or with an error. -/
def iterate (body : σ → ProgE I ε (σ ⊕ β)) (s : σ) : ProgE I ε β :=
  ExceptT.mk (Prog.iterate (fun s => (body s).run.bind turn) s)

variable {P : I.Call → Prop}

theorem calls_pure (a : α) : (pure a : ProgE I ε α).run.Calls P := .ret _

theorem calls_throw (e : ε) : (throw e : ProgE I ε α).run.Calls P := .ret _

theorem calls_ofExcept (r : Except ε α) : (ofExcept r : ProgE I ε α).run.Calls P := .ret _

theorem calls_ask {c : I.Call} (h : P c) : (ask c : ProgE I ε (I.Answer c)).run.Calls P :=
  .call h fun _ => .ret _

theorem calls_bind {p : ProgE I ε α} {f : α → ProgE I ε β} (hp : p.run.Calls P)
    (hf : ∀ a, (f a).run.Calls P) : (p >>= f).run.Calls P := by
  refine Prog.Calls.bind hp fun r => ?_
  cases r with
  | ok a => exact hf a
  | error e => exact .ret _

theorem calls_attempt {p : ProgE I ε α} (hp : p.run.Calls P) :
    (attempt p : ProgE I φ (Except ε α)).run.Calls P :=
  Prog.Calls.bind hp fun _ => .ret _

theorem calls_iterate {body : σ → ProgE I ε (σ ⊕ β)} {s : σ}
    (hbody : ∀ s, (body s).run.Calls P) : (iterate body s).run.Calls P := by
  refine .loop (fun s => (hbody s).bind fun r => ?_) fun b => .ret _
  rcases r with e | s | b <;> exact .ret _

theorem straight_pure (a : α) : (pure a : ProgE I ε α).run.Straight P := .ret _

theorem straight_throw (e : ε) : (throw e : ProgE I ε α).run.Straight P := .ret _

theorem straight_ask {c : I.Call} {f : I.Answer c → ProgE I ε β} (h : P c)
    (hf : ∀ r, (f r).run.Straight P) : (ask c >>= f).run.Straight P := .call h hf

theorem straight_bind {p : ProgE I ε α} {f : α → ProgE I ε β} (hp : p.run.Straight P)
    (hf : ∀ a, (f a).run.Straight P) : (p >>= f).run.Straight P := by
  refine Prog.Straight.bind hp fun r => ?_
  cases r with
  | ok a => exact hf a
  | error e => exact .ret _

end ProgE

section Returning

variable {I : Interface} {W : Type} {env : Environment I W} {ε α β σ : Type} {w w₁ w' : W}

theorem returnsE_ask {c : I.Call} {f : I.Answer c → ProgE I ε β} {r : I.Answer c} {x : Except ε β}
    (henv : env c w r w₁) (h : Returns env (f r).run w₁ x w') :
    Returns env (ProgE.ask c >>= f).run w x w' := Returns.call henv h

theorem returnsE_bind {p : ProgE I ε α} {f : α → ProgE I ε β} {a : α} {x : Except ε β}
    (h : Returns env p.run w (.ok a) w₁) (hf : Returns env (f a).run w₁ x w') :
    Returns env (p >>= f).run w x w' := Returns.bind h hf

theorem returnsE_bind_error {p : ProgE I ε α} {f : α → ProgE I ε β} {e : ε}
    (h : Returns env p.run w (.error e) w₁) : Returns env (p >>= f).run w (.error e) w₁ :=
  Returns.bind h returns_ret

theorem returnsE_map {f : α → β} {p : ProgE I ε α} {a : α} (h : Returns env p.run w (.ok a) w') :
    Returns env (f <$> p).run w (.ok (f a)) w' := Returns.bind h returns_ret

/-- However an attempt ends, what made it goes on. -/
theorem returnsE_attempt {φ : Type} {p : ProgE I ε α} {x : Except ε α}
    (h : Returns env p.run w x w') :
    Returns env (ProgE.attempt p : ProgE I φ (Except ε α)).run w (.ok x) w' :=
  Returns.bind h returns_ret

variable {body : σ → ProgE I ε (σ ⊕ β)} {s s' : σ} {x : Except ε β}

/-- A turn that goes on. -/
theorem returnsE_next (h : Returns env (body s).run w (.ok (.inl s')) w₁)
    (hrest : Returns env (ProgE.iterate body s').run w₁ x w') :
    Returns env (ProgE.iterate body s).run w x w' :=
  Returns.loop (h.bind returns_ret) hrest

/-- A turn that ends the loop. -/
theorem returnsE_last {b : β} (h : Returns env (body s).run w (.ok (.inr b)) w₁) :
    Returns env (ProgE.iterate body s).run w (.ok b) w₁ :=
  Returns.loop (h.bind returns_ret) returns_ret

/-- A turn that fails. -/
theorem returnsE_stop {e : ε} (h : Returns env (body s).run w (.error e) w₁) :
    Returns env (ProgE.iterate body s).run w (.error e) w₁ :=
  Returns.loop (h.bind returns_ret) returns_ret

/-- **A turn that changes nothing may be left out.** -/
theorem returnsE_skip {env' : Environment I W} (hturn : ∀ s w y w', Returns env (body s).run w y w' →
      Returns env' (body s).run w y w' ∨ y = .ok (.inl s) ∧ w' = w)
    (h : Returns env (ProgE.iterate body s).run w x w') :
    Returns env' (ProgE.iterate body s).run w x w' := by
  refine Returns.skip (fun s w r w' hr => ?_) (fun b w a w' hb => ?_) h
  · obtain ⟨y, w₁, hy, hend⟩ := Returns.of_bind hr
    rcases hturn s w y w₁ hy with hy | ⟨rfl, rfl⟩
    · refine Or.inl (hy.bind ?_)
      rcases y with e | s' | b
      · obtain ⟨rfl, rfl⟩ := Returns.of_ret hend
        exact returns_ret
      · obtain ⟨rfl, rfl⟩ := Returns.of_ret hend
        exact returns_ret
      · obtain ⟨rfl, rfl⟩ := Returns.of_ret hend
        exact returns_ret
    · exact Or.inr (Returns.of_ret hend)
  · obtain ⟨rfl, rfl⟩ := Returns.of_ret hb
    exact returns_ret

/-! ### Never stuck -/

theorem unstuckE_ask {c : I.Call} {f : I.Answer c → ProgE I ε β} (hnow : ∃ r w', env c w r w')
    (h : ∀ r w', env c w r w' → Unstuck env (f r).run w') :
    Unstuck env (ProgE.ask c >>= f).run w := unstuck_call hnow h

theorem unstuckE_bind {p : ProgE I ε α} {f : α → ProgE I ε β} (h : Unstuck env p.run w)
    (hf : ∀ a w', Returns env p.run w (.ok a) w' → Unstuck env (f a).run w') :
    Unstuck env (p >>= f).run w := by
  refine unstuck_bind h fun r w' hr => ?_
  cases r with
  | ok a => exact hf a w' hr
  | error e => exact unstuck_ret

theorem unstuckE_map {p : ProgE I ε α} {f : α → β} (h : Unstuck env p.run w) :
    Unstuck env (f <$> p).run w := by
  refine unstuck_bind h fun r w' hr => ?_
  cases r with
  | ok a => exact unstuck_ret
  | error e => exact unstuck_ret

/-- How a program ended is looked at. -/
theorem unstuckE_attempt {φ : Type} {p : ProgE I ε α} {f : Except ε α → ProgE I φ β} (h : Unstuck env p.run w)
    (hf : ∀ r w', Returns env p.run w r w' → Unstuck env (f r).run w') :
    Unstuck env (ProgE.attempt p >>= f).run w := by
  refine unstuckE_bind (unstuck_bind h fun r w' hr => unstuck_ret) fun r w' hr => ?_
  obtain ⟨x, w₁, hx, hend⟩ := Returns.of_bind hr
  obtain ⟨heq, rfl⟩ := Returns.of_ret hend
  cases heq
  exact hf r _ hx

/-- A loop whose turns all start alike. -/
theorem unstuckE_iterate (R : W → Prop) (hR : R w) (hbody : ∀ s w, R w → Unstuck env (body s).run w)
    (hnext : ∀ s w s' w', R w → Returns env (body s).run w (.ok (.inl s')) w' → R w') :
    Unstuck env (ProgE.iterate body s).run w := by
  refine unstuck_loop (fun _ w => R w) hR (fun s w hs => ?_) (fun s w s' w' hs hr => ?_)
    fun s w b w' hs hr => unstuck_ret
  · refine unstuck_bind (hbody s w hs) fun r w' hr => ?_
    rcases r with e | s' | b
    · exact unstuck_ret
    · exact unstuck_ret
    · exact unstuck_ret
  · obtain ⟨r, w₁, hturn, hend⟩ := Returns.of_bind hr
    rcases r with e | s'' | b
    · cases (Returns.of_ret hend).1
    · obtain ⟨hs', rfl⟩ := Returns.of_ret hend
      exact hnext s w s'' w' hs hturn
    · cases (Returns.of_ret hend).1

end Returning

section Stopping

variable {I : Interface} {W : Type} {env : Environment I W} {ε φ α β σ : Type}

/-- How a run ended: `Q` is for results and `E` for errors. -/
def Ended (Q : α → W → Prop) (E : ε → W → Prop) : Except ε α → W → Prop
  | .ok a => Q a
  | .error e => E e

variable (env) in
/-- Wherever a run is stopped, `C` holds; `Q` holds of a result and `E` of an error. -/
def HoldsE (p : ProgE I ε α) (Q : α → W → Prop) (E : ε → W → Prop) (C : W → Prop) (w : W) : Prop :=
  Holds env p.run (Ended Q E) C w

variable {p : ProgE I ε α} {Q : α → W → Prop} {E : ε → W → Prop} {C : W → Prop} {w : W}

/-- The rule of consequence. -/
theorem HoldsE.mono {Q' : α → W → Prop} {E' : ε → W → Prop} {C' : W → Prop}
    (h : HoldsE env p Q E C w) (hQ : ∀ a w, C w → Q a w → Q' a w)
    (hE : ∀ e w, C w → E e w → E' e w) (hC : ∀ w, C w → C' w) : HoldsE env p Q' E' C' w := by
  refine Holds.mono h (fun r w hc hr => ?_) hC
  cases r with
  | ok a => exact hQ a w hc hr
  | error e => exact hE e w hc hr

theorem holdsE_pure {a : α} (hC : C w) (hQ : Q a w) : HoldsE env (pure a) Q E C w :=
  holds_ret hC hQ

theorem holdsE_throw {e : ε} (hC : C w) (hE : E e w) : HoldsE env (throw e : ProgE I ε α) Q E C w :=
  holds_ret hC hE

theorem holdsE_ofExcept {r : Except ε α} (hC : C w) (hr : Ended Q E r w) :
    HoldsE env (ProgE.ofExcept r) Q E C w := holds_ret hC hr

theorem holdsE_ask {c : I.Call} {Q : I.Answer c → W → Prop} (hC : C w)
    (h : ∀ r w', env c w r w' → C w' ∧ Q r w') : HoldsE env (ProgE.ask c) Q E C w :=
  holds_call hC fun r w' henv => holds_ret (h r w' henv).1 (h r w' henv).2

/-- **The rule of sequence.** -/
theorem holdsE_bind {f : α → ProgE I ε β} {Q : β → W → Prop}
    (h : HoldsE env p (fun a w => HoldsE env (f a) Q E C w) E C w) :
    HoldsE env (p >>= f) Q E C w := by
  refine holds_bind (Holds.mono h (fun r w hc hr => ?_) fun _ hc => hc)
  cases r with
  | ok a => exact hr
  | error e => exact holds_ret hc hr

theorem holdsE_attempt {Q : Except ε α → W → Prop} {E : φ → W → Prop}
    (h : HoldsE env p (fun a w => Q (.ok a) w) (fun e w => Q (.error e) w) C w) :
    HoldsE env (ProgE.attempt p : ProgE I φ (Except ε α)) Q E C w := by
  refine holds_bind (Holds.mono h (fun r w hc hr => ?_) fun _ hc => hc)
  refine holds_ret hc ?_
  cases r with
  | ok a => exact hr
  | error e => exact hr

theorem holdsE_map {f : α → β} {Q : β → W → Prop}
    (h : HoldsE env p (fun a w => Q (f a) w) E C w) : HoldsE env (f <$> p) Q E C w := by
  refine holds_bind (Holds.mono h (fun r w hc hr => ?_) fun _ hc => hc)
  cases r with
  | ok a => exact holds_ret hc hr
  | error e => exact holds_ret hc hr

/-- **The rule of loops.** -/
theorem holdsE_iterate {body : σ → ProgE I ε (σ ⊕ β)} {s : σ} {Q : β → W → Prop}
    (Inv : σ → W → Prop) (hinv : Inv s w) (hnow : ∀ s w, Inv s w → C w)
    (hbody : ∀ s w, Inv s w →
      HoldsE env (body s) (fun r w => r.elim (fun s => Inv s w) fun b => Q b w) E C w) :
    HoldsE env (ProgE.iterate body s) Q E C w := by
  refine holds_loop Inv hinv hnow fun s w hs => ?_
  refine holds_bind (Holds.mono (hbody s w hs) (fun r w hc hr => ?_) fun _ hc => hc)
  -- the turn has ended: the loop goes on, or what follows it is a result already
  rcases r with e | s | b
  · exact holds_ret hc (holds_ret hc hr)
  · exact holds_ret hc hr
  · exact holds_ret hc (holds_ret hc hr)

end Stopping

section Failing

variable {I : Interface} {ε φ α β σ : Type}

/-- Whatever it is answered, the program fails only as `E` allows.  No environment is fixed: even
    answers that no real one gives lead to no other error, so nothing has to be known of the world. -/
def FailsOnly (E : ε → Prop) (p : ProgE I ε α) : Prop :=
  ∀ (W : Type) (env : Environment I W) (w : W),
    HoldsE env p (fun _ _ => True) (fun e _ => E e) (fun _ => True) w

variable {E : ε → Prop}

theorem FailsOnly.returns {p : ProgE I ε α} (h : FailsOnly E p) {W : Type} {env : Environment I W}
    {w w' : W} {e : ε} (hreturns : Returns env p.run w (.error e) w') : E e := by
  obtain ⟨n, hrun⟩ := hreturns
  exact (h W env w n _ w' hrun).2 _ rfl

theorem failsOnly_pure (a : α) : FailsOnly E (pure a : ProgE I ε α) :=
  fun _ _ _ => holdsE_pure trivial trivial

theorem failsOnly_throw {e : ε} (h : E e) : FailsOnly E (throw e : ProgE I ε α) :=
  fun _ _ _ => holdsE_throw trivial h

theorem failsOnly_ofExcept {r : Except ε α} (h : ∀ e, r = .error e → E e) :
    FailsOnly E (ProgE.ofExcept r : ProgE I ε α) := by
  intro W env w
  refine holdsE_ofExcept trivial ?_
  cases r with
  | ok a => exact trivial
  | error e => exact h e rfl

theorem failsOnly_bind {p : ProgE I ε α} {f : α → ProgE I ε β} (hp : FailsOnly E p)
    (hf : ∀ a, FailsOnly E (f a)) : FailsOnly E (p >>= f) := fun W env w =>
  holdsE_bind ((hp W env w).mono (fun a w' _ _ => hf a W env w') (fun _ _ _ he => he) fun _ h => h)

theorem failsOnly_map {f : α → β} {p : ProgE I ε α} (hp : FailsOnly E p) :
    FailsOnly E (f <$> p) := fun W env w =>
  holdsE_map ((hp W env w).mono (fun _ _ _ h => h) (fun _ _ _ he => he) fun _ h => h)

/-- A call fails on no account of its own. -/
theorem failsOnly_ask {c : I.Call} {f : I.Answer c → ProgE I ε β} (hf : ∀ r, FailsOnly E (f r)) :
    FailsOnly E (ProgE.ask c >>= f) :=
  failsOnly_bind (fun _ _ _ => holdsE_ask trivial fun _ _ _ => ⟨trivial, trivial⟩) hf

theorem failsOnly_iterate {body : σ → ProgE I ε (σ ⊕ β)} {s : σ}
    (hbody : ∀ s, FailsOnly E (body s)) : FailsOnly E (ProgE.iterate body s) := fun W env _ =>
  holdsE_iterate (fun _ _ => True) trivial (fun _ _ _ => trivial) fun s w _ =>
    (hbody s W env w).mono (fun r _ _ _ => by cases r <;> trivial) (fun _ _ _ he => he) fun _ h => h

/-- What follows an attempt is told the errors of the program that was tried. -/
theorem failsOnly_attempt {F : φ → Prop} {p : ProgE I φ α} {f : Except φ α → ProgE I ε β}
    (hp : FailsOnly F p) (hok : ∀ a, FailsOnly E (f (.ok a)))
    (herror : ∀ e, F e → FailsOnly E (f (.error e))) : FailsOnly E (ProgE.attempt p >>= f) :=
  fun W env w => holdsE_bind (holdsE_attempt ((hp W env w).mono (fun a w' _ _ => hok a W env w')
    (fun e w' _ he => herror e he W env w') fun _ h => h))

/-- Any program fails somehow. -/
theorem failsOnly_any (p : ProgE I ε α) : FailsOnly (fun _ => True) p := by
  intro W env w
  refine Holds.mono (holds_of_calls p.run.calls_any (C := fun _ => True) (fun _ _ _ _ _ _ _ => trivial)
    trivial) (fun r _ _ _ => ?_) fun _ h => h
  cases r with
  | ok a => exact trivial
  | error e => exact trivial

end Failing

end AtomicBlobStore
