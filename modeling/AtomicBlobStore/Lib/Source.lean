/-
  Byte SOURCES that may answer a read with fewer bytes than asked for, and `readExact` over them.

  A `Source` is any state machine that obeys the read contract: a positive request is answered by
  a non-empty prefix of what is left, or — once nothing is left — by the end of the stream, which
  is either EOF (an empty answer) or one fixed error.  How much each answer carries is up to the
  source and may depend on its whole history, so a statement about every `Source` is a statement
  about every fragmentation of the stream.

  `Reader` is the state-and-error monad such code is written in.  A reader program built from
  `Reader.exactly` and one-byte probes cannot see the fragmentation: `Reader.Follows` relates a
  program over an arbitrary source to the same program over the unfragmented list of remaining
  bytes, is closed under `>>=`, and holds of the two primitives (`follows_exactly`,
  `follows_probe`).  `Reader.FailsOnly` says how a program may fail, and is closed under `>>=` too.
  Nothing here is about a particular file format.
-/
import Mathlib.Data.List.Basic

namespace AtomicBlobStore

/-- What generic reading code needs to know about an error type. -/
class ReadError (ε : Type) where
  /-- The error means "try again" (`ErrorKind::Interrupted`). -/
  interrupted : ε → Bool
  /-- The error `read_exact` makes up when the stream ends too early. -/
  unexpectedEof : ε

/-- A state machine obeying the read contract over the bytes `rest`, ending in EOF
    (`ending = none`) or in a non-retryable error. -/
structure Source (ε σ : Type) [ReadError ε] where
  /-- One `read` call with a buffer of the given size. -/
  read : σ → Nat → Except ε (List UInt8) × σ
  /-- The bytes not delivered yet. -/
  rest : σ → List UInt8
  /-- What follows the last byte. -/
  ending : Option ε
  read_end : ∀ s n, 0 < n → rest s = [] →
    (read s n).1 = ending.elim (.ok []) .error ∧ rest (read s n).2 = []
  read_some : ∀ s n, 0 < n → rest s ≠ [] → ∃ k, 0 < k ∧ k ≤ n ∧ k ≤ (rest s).length ∧
    (read s n).1 = .ok ((rest s).take k) ∧ rest (read s n).2 = (rest s).drop k
  ending_final : ∀ e, ending = some e → ReadError.interrupted e = false

namespace Source

variable {ε σ : Type} [ReadError ε]

/-- The source that answers every request as fully as it can: a file, or a cursor over a slice. -/
def ofBytes (ending : Option ε) (hfinal : ∀ e, ending = some e → ReadError.interrupted e = false) :
    Source ε (List UInt8) where
  read bytes n :=
    if bytes = [] then (ending.elim (.ok []) .error, []) else (.ok (bytes.take n), bytes.drop n)
  rest := id
  ending := ending
  read_end := by
    intro bytes n _ hnil
    obtain rfl : bytes = [] := hnil
    simp
  read_some := by
    intro bytes n hn hne
    have hne' : bytes ≠ [] := hne
    refine ⟨min n bytes.length, ?_, by omega, Nat.min_le_right _ _, ?_, ?_⟩
    · have := List.length_pos_iff.mpr hne'
      omega
    · simp [hne', List.take_eq_take_min]
    · simp [hne', List.drop_eq_drop_min]
  ending_final := hfinal

/-- The same, with the number of bytes delivered as its state. -/
def cursor (bytes : List UInt8) : Source ε Nat where
  read position n := (.ok ((bytes.drop position).take n), position + n)
  rest position := bytes.drop position
  ending := none
  read_end := by
    intro position n _ hnil
    refine ⟨?_, ?_⟩
    · show Except.ok ((bytes.drop position).take n) = _
      rw [hnil, List.take_nil]
      rfl
    · rw [← List.drop_drop, hnil, List.drop_nil]
  read_some := by
    intro position n hn hne
    refine ⟨min n (bytes.drop position).length, ?_, by omega, Nat.min_le_right _ _, ?_, ?_⟩
    · have := List.length_pos_iff.mpr hne
      omega
    · rw [← List.take_eq_take_min]
    · rw [← List.drop_eq_drop_min, List.drop_drop]
  ending_final := nofun

/-- The unfragmented source with the same ending; its state is the list of bytes to come. -/
def flat (src : Source ε σ) : Source ε (List UInt8) := ofBytes src.ending src.ending_final

/-- A read error is the final one. -/
theorem not_interrupted (src : Source ε σ) {s s' : σ} {n : Nat} {e : ε} (hn : 0 < n)
    (h : src.read s n = (.error e, s')) : ReadError.interrupted e = false := by
  by_cases hrest : src.rest s = []
  · have hend := (src.read_end s n hn hrest).1
    rw [h] at hend
    cases hending : src.ending with
    | none => rw [hending] at hend; nomatch hend
    | some e' =>
      rw [hending] at hend
      obtain rfl : e = e' := Except.error.inj hend
      exact src.ending_final e hending
  · obtain ⟨k, -, -, -, hread, -⟩ := src.read_some s n hn hrest
    rw [h] at hread
    nomatch hread

/-- `Read::read_exact`: keep reading until the buffer of `n` bytes is full, retrying interrupted
    reads; an early end of the stream is the `unexpectedEof` error. -/
def readExact (src : Source ε σ) (s : σ) (n : Nat) : Except ε (List UInt8) × σ :=
  if _ : n = 0 then (.ok [], s)
  else
    match _ : src.read s n with
    | (.ok chunk, s') =>
      if _ : chunk = [] then (.error ReadError.unexpectedEof, s')
      else
        match src.readExact s' (n - chunk.length) with
        | (.ok more, s'') => (.ok (chunk ++ more), s'')
        | (.error e, s'') => (.error e, s'')
    | (.error e, s') =>
      if _ : ReadError.interrupted e = true then src.readExact s' n else (.error e, s')
termination_by n
decreasing_by
  · rename_i hchunk
    have := List.length_pos_iff.mpr hchunk
    omega
  · rename_i hn h hretry
    have := src.not_interrupted (Nat.pos_of_ne_zero hn) h
    rw [this] at hretry
    nomatch hretry

theorem readExact_zero (src : Source ε σ) (s : σ) : src.readExact s 0 = (.ok [], s) := by
  rw [readExact, dif_pos rfl]

/-- One non-empty answer of the source is one turn of the `read_exact` loop. -/
theorem readExact_of_chunk (src : Source ε σ) {s s' : σ} {n : Nat} {chunk : List UInt8}
    (hn : 0 < n) (hchunk : chunk ≠ []) (h : src.read s n = (.ok chunk, s')) :
    src.readExact s n = match src.readExact s' (n - chunk.length) with
      | (.ok more, s'') => (.ok (chunk ++ more), s'')
      | (.error e, s'') => (.error e, s'') := by
  rw [readExact, dif_neg (Nat.ne_of_gt hn)]
  split
  · rename_i chunk₁ s₁ h₁
    rw [h] at h₁
    obtain ⟨hc, rfl⟩ := Prod.mk.inj h₁
    obtain rfl := Except.ok.inj hc
    rw [dif_neg hchunk]
  · rename_i h₁
    rw [h] at h₁
    nomatch h₁

/-- At the end of the stream a positive `read_exact` fails with the ending. -/
theorem readExact_end (src : Source ε σ) {s : σ} {n : Nat} (hn : 0 < n) (hrest : src.rest s = []) :
    (src.readExact s n).1 = .error (src.ending.getD ReadError.unexpectedEof) ∧
      src.rest (src.readExact s n).2 = [] := by
  obtain ⟨hres, hleft⟩ := src.read_end s n hn hrest
  rw [readExact, dif_neg (Nat.ne_of_gt hn)]
  split
  · rename_i chunk s' h
    rw [h] at hres hleft
    cases hending : src.ending with
    | none =>
      rw [hending] at hres
      obtain rfl : chunk = [] := Except.ok.inj hres
      exact ⟨rfl, hleft⟩
    | some e => rw [hending] at hres; nomatch hres
  · rename_i e s' h
    rw [dif_neg (by rw [src.not_interrupted hn h]; nofun)]
    rw [h] at hres hleft
    cases hending : src.ending with
    | none => rw [hending] at hres; nomatch hres
    | some e' =>
      rw [hending] at hres
      obtain rfl : e = e' := Except.error.inj hres
      exact ⟨rfl, hleft⟩

/-- **`read_exact` sees the stream and nothing else**: its answer and what it leaves behind are
    functions of the remaining bytes and the ending, however the source cuts its answers.
    Strong induction on the size of the request; each answer shortens it. -/
theorem readExact_eq (src : Source ε σ) : ∀ (n : Nat) (s : σ),
    (src.readExact s n).1 = (if n ≤ (src.rest s).length then .ok ((src.rest s).take n)
      else .error (src.ending.getD ReadError.unexpectedEof)) ∧
    src.rest (src.readExact s n).2 = (src.rest s).drop n := by
  intro n
  induction n using Nat.strongRecOn with
  | _ n ih =>
    intro s
    rcases Nat.eq_zero_or_pos n with rfl | hn
    · simp [readExact_zero]
    by_cases hrest : src.rest s = []
    · obtain ⟨hres, hleft⟩ := src.readExact_end hn hrest
      rw [hres, hleft, hrest, if_neg (by simpa using Nat.ne_of_gt hn)]
      simp
    obtain ⟨k, hk, hkn, hkl, hread, hleft⟩ := src.read_some s n hn hrest
    have hlen : ((src.rest s).take k).length = k := by simp [hkl]
    have hchunk : (src.rest s).take k ≠ [] := by
      intro hnil
      rw [hnil] at hlen
      exact absurd hlen (Nat.ne_of_lt hk)
    have hpair : src.read s n = (.ok ((src.rest s).take k), (src.read s n).2) := by
      rw [← hread]
    rw [src.readExact_of_chunk hn hchunk hpair, hlen]
    obtain ⟨hmore, hend⟩ := ih (n - k) (by omega) (src.read s n).2
    rw [hleft, List.length_drop] at hmore
    rw [hleft, List.drop_drop, Nat.add_sub_cancel' hkn] at hend
    -- the rest of the buffer is filled exactly when the whole of it would be
    by_cases hle : n ≤ (src.rest s).length
    · rw [if_pos (by omega)] at hmore
      generalize src.readExact (src.read s n).2 (n - k) = tail at hmore hend
      obtain ⟨res, s'⟩ := tail
      obtain rfl : res = _ := hmore
      refine ⟨?_, hend⟩
      rw [if_pos hle]
      show Except.ok ((src.rest s).take k ++ ((src.rest s).drop k).take (n - k)) = _
      rw [← List.take_add, Nat.add_sub_cancel' hkn]
    · rw [if_neg (by omega)] at hmore
      generalize src.readExact (src.read s n).2 (n - k) = tail at hmore hend
      obtain ⟨res, s'⟩ := tail
      obtain rfl : res = _ := hmore
      refine ⟨?_, hend⟩
      rw [if_neg hle]

end Source

/-! ## Reader programs -/

/-- A program that reads from a source state `σ` and may fail with `φ`; the state is kept on
    failure, so that what was consumed stays visible: two decoders can be compared by what they leave
    behind for the next reader, whether they accepted or not. -/
structure Reader (φ σ α : Type) where
  run : σ → Except φ α × σ

namespace Reader

variable {ε φ σ τ α β : Type}

instance : Monad (Reader φ σ) where
  pure a := ⟨fun s => (.ok a, s)⟩
  bind m f := ⟨fun s =>
    match m.run s with
    | (.ok a, s') => (f a).run s'
    | (.error e, s') => (.error e, s')⟩

/-- Stop with a failure. -/
def fail (e : φ) : Reader φ σ α := ⟨fun s => (.error e, s)⟩

/-- Fill a buffer of `n` bytes, turning a read error into a failure. -/
def exactly [ReadError ε] (src : Source ε σ) (onError : ε → φ) (n : Nat) :
    Reader φ σ (List UInt8) := ⟨fun s =>
  match src.readExact s n with
  | (.ok bytes, s') => (.ok bytes, s')
  | (.error e, s') => (.error (onError e), s')⟩

/-- One plain `read` into a one-byte buffer, its outcome handed to the program. -/
def probe [ReadError ε] (src : Source ε σ) : Reader φ σ (Except ε (List UInt8)) := ⟨fun s =>
  (.ok (src.read s 1).1, (src.read s 1).2)⟩

@[simp] theorem run_pure (a : α) (s : σ) : (pure a : Reader φ σ α).run s = (.ok a, s) := rfl

@[simp] theorem run_fail (e : φ) (s : σ) : (fail e : Reader φ σ α).run s = (.error e, s) := rfl

theorem run_bind_ok {m : Reader φ σ α} {f : α → Reader φ σ β} {s s' : σ} {a : α}
    (h : m.run s = (.ok a, s')) : (m >>= f).run s = (f a).run s' := by
  show (match m.run s with | (.ok a, s') => (f a).run s' | (.error e, s') => (.error e, s')) = _
  rw [h]

theorem run_bind_error {m : Reader φ σ α} {f : α → Reader φ σ β} {s s' : σ} {e : φ}
    (h : m.run s = (.error e, s')) : (m >>= f).run s = (.error e, s') := by
  show (match m.run s with | (.ok a, s') => (f a).run s' | (.error e, s') => (.error e, s')) = _
  rw [h]

@[simp] theorem pure_bind (a : α) (f : α → Reader φ σ β) : pure a >>= f = f a := rfl

@[simp] theorem fail_bind (e : φ) (f : α → Reader φ σ β) : fail e >>= f = fail e := rfl

theorem bind_assoc {γ : Type} (m : Reader φ σ α) (f : α → Reader φ σ β) (g : β → Reader φ σ γ) :
    m >>= f >>= g = m >>= fun a => f a >>= g := by
  refine congrArg Reader.mk (funext fun s => ?_)
  show (m >>= f >>= g).run s = (m >>= fun a => f a >>= g).run s
  cases hm : m.run s with
  | mk res s' =>
    cases res with
    | error e => rw [run_bind_error hm, run_bind_error (run_bind_error hm)]
    | ok a =>
      rw [run_bind_ok hm]
      cases hf : (f a).run s' with
      | mk res₁ s₁ =>
        cases res₁ with
        | error e => rw [run_bind_error ((run_bind_ok hm).trans hf), run_bind_error hf]
        | ok b => rw [run_bind_ok ((run_bind_ok hm).trans hf), run_bind_ok hf]

/-- `m` behaves over `s` as `m'` behaves over the projected state `view s`: the same result, and states
    that still correspond.  With `view` the bytes that are left, it says that `m` cannot tell how its
    source breaks them up. -/
def Follows (view : σ → τ) (m : Reader φ σ α) (m' : Reader φ τ α) : Prop :=
  ∀ s, (m.run s).1 = (m'.run (view s)).1 ∧ view (m.run s).2 = (m'.run (view s)).2

theorem follows_pure (view : σ → τ) (a : α) :
    Follows view (pure a : Reader φ σ α) (pure a) := fun _ => ⟨rfl, rfl⟩

theorem follows_fail (view : σ → τ) (e : φ) :
    Follows view (fail e : Reader φ σ α) (fail e) := fun _ => ⟨rfl, rfl⟩

theorem follows_bind {view : σ → τ} {m : Reader φ σ α} {m' : Reader φ τ α}
    {f : α → Reader φ σ β} {f' : α → Reader φ τ β} (hm : Follows view m m')
    (hf : ∀ a, Follows view (f a) (f' a)) : Follows view (m >>= f) (m' >>= f') := by
  intro s
  obtain ⟨hres, hst⟩ := hm s
  cases hms : m.run s with
  | mk res s₁ =>
    cases hms' : m'.run (view s) with
    | mk res' t₁ =>
      rw [hms, hms'] at hres hst
      obtain rfl : res = res' := hres
      obtain rfl : view s₁ = t₁ := hst
      cases res with
      | ok a => rw [run_bind_ok hms, run_bind_ok hms']; exact hf a s₁
      | error e => rw [run_bind_error hms, run_bind_error hms']; exact ⟨rfl, rfl⟩

theorem follows_ite {view : σ → τ} {c : Prop} [Decidable c] {m₁ m₂ : Reader φ σ α}
    {m₁' m₂' : Reader φ τ α} (h₁ : Follows view m₁ m₁') (h₂ : Follows view m₂ m₂') :
    Follows view (if c then m₁ else m₂) (if c then m₁' else m₂') := by
  split
  · exact h₁
  · exact h₂

/-- Whatever the reader finds, it fails only as `E` allows. -/
def FailsOnly (E : φ → Prop) (m : Reader φ σ α) : Prop := ∀ s e, (m.run s).1 = .error e → E e

variable {E : φ → Prop}

theorem failsOnly_pure (a : α) : FailsOnly E (pure a : Reader φ σ α) := fun _ _ he => nomatch he

theorem failsOnly_fail {e : φ} (h : E e) : FailsOnly E (fail e : Reader φ σ α) := by
  intro s e' he
  rw [← Except.error.inj he]
  exact h

theorem failsOnly_bind {m : Reader φ σ α} {f : α → Reader φ σ β} (hm : FailsOnly E m)
    (hf : ∀ a, FailsOnly E (f a)) : FailsOnly E (m >>= f) := by
  intro s e he
  cases hrun : m.run s with
  | mk result s' =>
    cases result with
    | ok a =>
      rw [run_bind_ok hrun] at he
      exact hf a s' e he
    | error e' =>
      rw [run_bind_error hrun] at he
      refine hm s e ?_
      rw [hrun, Except.error.inj he]

theorem failsOnly_ite {c : Prop} [Decidable c] {m₁ m₂ : Reader φ σ α} (h₁ : FailsOnly E m₁)
    (h₂ : FailsOnly E m₂) : FailsOnly E (if c then m₁ else m₂) := by
  split
  · exact h₁
  · exact h₂

variable [ReadError ε]

theorem failsOnly_exactly (src : Source ε σ) {onError : ε → φ} (h : ∀ e, E (onError e)) (n : Nat) :
    FailsOnly E (exactly src onError n) := by
  intro s e he
  simp only [exactly] at he
  split at he
  · nomatch he
  · rw [← Except.error.inj he]
    exact h _

theorem failsOnly_probe (src : Source ε σ) : FailsOnly E (probe src : Reader φ σ _) :=
  fun _ _ he => nomatch he

/-- `read_exact` over any source follows `read_exact` over the bytes it has left. -/
theorem follows_exactly (src : Source ε σ) (onError : ε → φ) (n : Nat) :
    Follows src.rest (exactly src onError n) (exactly src.flat onError n) := by
  intro s
  obtain ⟨hres, hrest⟩ := src.readExact_eq n s
  obtain ⟨hres', hrest'⟩ := src.flat.readExact_eq n (src.rest s)
  have hsame : (src.readExact s n).1 = (src.flat.readExact (src.rest s) n).1 :=
    hres.trans hres'.symm
  have hleft : src.rest (src.readExact s n).2 = (src.flat.readExact (src.rest s) n).2 :=
    hrest.trans hrest'.symm
  simp only [exactly]
  generalize src.readExact s n = out at hsame hleft ⊢
  generalize src.flat.readExact (src.rest s) n = out' at hsame hleft ⊢
  obtain ⟨res, s₁⟩ := out
  obtain ⟨res', t₁⟩ := out'
  obtain rfl : res = res' := hsame
  obtain rfl : src.rest s₁ = t₁ := hleft
  cases res <;> exact ⟨rfl, rfl⟩

/-- A one-byte request leaves a source no room to fragment. -/
theorem follows_probe (src : Source ε σ) :
    Follows src.rest (probe src : Reader φ σ _) (probe src.flat) := by
  intro s
  by_cases hrest : src.rest s = []
  · obtain ⟨hres, hleft⟩ := src.read_end s 1 Nat.one_pos hrest
    obtain ⟨hres', hleft'⟩ := src.flat.read_end (src.rest s) 1 Nat.one_pos hrest
    exact ⟨congrArg Except.ok (hres.trans hres'.symm), hleft.trans hleft'.symm⟩
  · obtain ⟨k, hk, hk1, -, hres, hleft⟩ := src.read_some s 1 Nat.one_pos hrest
    obtain ⟨k', hk', hk1', -, hres', hleft'⟩ := src.flat.read_some (src.rest s) 1 Nat.one_pos hrest
    obtain rfl : k = 1 := by omega
    obtain rfl : k' = 1 := by omega
    exact ⟨congrArg Except.ok (hres.trans hres'.symm), hleft.trans hleft'.symm⟩

/-- `exactly` when enough bytes are left. -/
theorem run_exactly_flat_of_le (src : Source ε σ) (onError : ε → φ) {n : Nat} {bytes : List UInt8}
    (h : n ≤ bytes.length) :
    (exactly src.flat onError n).run bytes = (.ok (bytes.take n), bytes.drop n) := by
  obtain ⟨hres, hrest⟩ := src.flat.readExact_eq n bytes
  have hres₁ : (src.flat.readExact bytes n).1 = .ok (bytes.take n) := by
    rw [hres]
    exact if_pos h
  have hrest₁ : (src.flat.readExact bytes n).2 = bytes.drop n := hrest
  simp only [exactly]
  generalize src.flat.readExact bytes n = out at hres₁ hrest₁ ⊢
  obtain ⟨res, s₁⟩ := out
  obtain rfl : res = _ := hres₁
  obtain rfl : s₁ = _ := hrest₁
  rfl

/-- `exactly` when the stream ends first: everything is consumed. -/
theorem run_exactly_flat_of_lt (src : Source ε σ) (onError : ε → φ) {n : Nat} {bytes : List UInt8}
    (h : bytes.length < n) :
    (exactly src.flat onError n).run bytes
      = (.error (onError (src.ending.getD ReadError.unexpectedEof)), []) := by
  obtain ⟨hres, hrest⟩ := src.flat.readExact_eq n bytes
  have hres₁ : (src.flat.readExact bytes n).1
      = .error (src.ending.getD ReadError.unexpectedEof) := by
    rw [hres]
    exact if_neg (Nat.not_le.mpr h)
  have hrest₁ : (src.flat.readExact bytes n).2 = [] := by
    rw [← List.drop_of_length_le (Nat.le_of_lt h)]
    exact hrest
  simp only [exactly]
  generalize src.flat.readExact bytes n = out at hres₁ hrest₁ ⊢
  obtain ⟨res, s₁⟩ := out
  obtain rfl : res = _ := hres₁
  obtain rfl : s₁ = _ := hrest₁
  rfl

@[simp] theorem run_probe_flat_nil (src : Source ε σ) :
    (probe src.flat : Reader φ (List UInt8) _).run [] = (.ok (src.ending.elim (.ok []) .error), []) :=
  rfl

@[simp] theorem run_probe_flat_cons (src : Source ε σ) (byte : UInt8) (bytes : List UInt8) :
    (probe src.flat : Reader φ (List UInt8) _).run (byte :: bytes) = (.ok (.ok [byte]), bytes) := rfl

end Reader

end AtomicBlobStore
