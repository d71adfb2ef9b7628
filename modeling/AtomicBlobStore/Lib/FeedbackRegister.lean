/-
  FEEDBACK REGISTERS: the shift register behind a reflected CRC.

  `shift` moves the register one place down and adds the polynomial when a bit falls out; `feed`
  adds a byte to the low end and shifts it through.  The register is linear (`shifts_xor`), and when
  the polynomial has its top bit set nothing is ever lost (`shifts_inj`).  A window of bytes that
  fits into the register is therefore one word added before the first shift (`feedAll_eq`), so two
  windows of one length that leave the same register are the same window (`feedAll_window_inj`):
  the reason why a CRC notices every burst that is no longer than its register.

  Nothing here is about a particular program.
-/
import Mathlib.Data.List.Basic
import Mathlib.Logic.Function.Iterate

namespace AtomicBlobStore

namespace FeedbackRegister

variable {w : Nat} (poly : BitVec w)

/-- One place down, and the polynomial if a bit fell out.  This is the reflected form: bits leave at the
    low end, and the polynomial is written with its highest coefficient there. -/
def shift (r : BitVec w) : BitVec w := if r.getLsbD 0 then (r >>> 1) ^^^ poly else r >>> 1

/-- A number of places down. -/
def shifts (n : Nat) (r : BitVec w) : BitVec w := (shift poly)^[n] r

/-- A byte as a word. -/
def word (byte : UInt8) : BitVec w := byte.toBitVec.setWidth w

/-- Add a byte at the low end and shift it through. -/
def feed (r : BitVec w) (byte : UInt8) : BitVec w := shifts poly 8 (r ^^^ word byte)

/-- Feed a string of bytes. -/
def feedAll (r : BitVec w) (bytes : List UInt8) : BitVec w := bytes.foldl (feed poly) r

/-- The bytes of a window as one word, the first at the low end. -/
def pack : List UInt8 → BitVec w
  | [] => 0#w
  | byte :: bytes => word byte ^^^ (pack bytes <<< 8)

/-! ## The register is linear

  Adding is `xor`, and a shift adds the polynomial or does not; either way the sum of two shifted
  registers is the shifted sum.  So what a byte does to a register does not depend on what is in it. -/

/-- A summand on both sides plays no part. -/
theorem xor_both (a b p : BitVec w) : (a ^^^ p) ^^^ (b ^^^ p) = a ^^^ b := by
  refine BitVec.eq_of_getLsbD_eq fun i _ => ?_
  simp only [BitVec.getLsbD_xor]
  cases p.getLsbD i <;> simp

theorem shift_xor (a b : BitVec w) : shift poly (a ^^^ b) = shift poly a ^^^ shift poly b := by
  unfold shift
  rw [BitVec.getLsbD_xor, BitVec.ushiftRight_xor_distrib]
  cases a.getLsbD 0 <;> cases b.getLsbD 0
  · rfl
  · simp only [Bool.false_xor, if_true, Bool.false_eq_true, if_false, BitVec.xor_assoc]
  · simp only [Bool.xor_false, if_true, Bool.false_eq_true, if_false, BitVec.xor_assoc]
    rw [BitVec.xor_comm poly]
  · simp only [Bool.xor_self, Bool.false_eq_true, if_false, if_true]
    exact (xor_both _ _ _).symm

theorem shifts_succ (n : Nat) (r : BitVec w) :
    shifts poly (n + 1) r = shifts poly n (shift poly r) := rfl

theorem shifts_add (m n : Nat) (r : BitVec w) :
    shifts poly (m + n) r = shifts poly m (shifts poly n r) := Function.iterate_add_apply _ m n r

theorem shifts_xor (n : Nat) : ∀ a b : BitVec w,
    shifts poly n (a ^^^ b) = shifts poly n a ^^^ shifts poly n b := by
  induction n with
  | zero => exact fun a b => rfl
  | succ n ih =>
    intro a b
    rw [shifts_succ, shifts_succ, shifts_succ, shift_xor, ih]

/-! ## Nothing is lost

  A plain shift forgets the bit that falls out.  With the polynomial's top bit set the register
  remembers it: the top bit of the result is that bit, so the shift can be undone. -/

/-- The top bit of the shifted register is the bit that fell out, and the others are still there. -/
theorem shift_inj (htop : poly.getLsbD (w - 1) = true) {a b : BitVec w}
    (h : shift poly a = shift poly b) : a = b := by
  have hw : 0 < w := by
    by_contra hzero
    have hlt := BitVec.lt_of_getLsbD htop
    omega
  have hshifted : ∀ r : BitVec w, (r >>> 1).getLsbD (w - 1) = false := by
    intro r
    rw [BitVec.getLsbD_ushiftRight]
    exact BitVec.getLsbD_of_ge r _ (by omega)
  have hbit : ∀ r : BitVec w, (shift poly r).getLsbD (w - 1) = r.getLsbD 0 := by
    intro r
    unfold shift
    cases hlow : r.getLsbD 0
    · exact hshifted r
    · rw [if_pos rfl, BitVec.getLsbD_xor, hshifted, htop]
      rfl
  have hlow : a.getLsbD 0 = b.getLsbD 0 := by rw [← hbit a, ← hbit b, h]
  have hhigh : a >>> 1 = b >>> 1 := by
    unfold shift at h
    rw [hlow] at h
    cases hb : b.getLsbD 0
    · rw [hb] at h
      exact h
    · rw [hb, if_pos rfl, if_pos rfl] at h
      exact (BitVec.xor_left_inj _).mp h
  refine BitVec.eq_of_getLsbD_eq fun i hi => ?_
  cases i with
  | zero => exact hlow
  | succ i =>
    have := congrArg (fun r => r.getLsbD i) hhigh
    simpa [BitVec.getLsbD_ushiftRight, Nat.add_comm 1 i] using this

theorem shifts_inj (htop : poly.getLsbD (w - 1) = true) (n : Nat) {a b : BitVec w}
    (h : shifts poly n a = shifts poly n b) : a = b := by
  induction n generalizing a b with
  | zero => exact h
  | succ n ih => exact shift_inj poly htop (ih h)

theorem feed_inj (htop : poly.getLsbD (w - 1) = true) {a b : BitVec w} {byte : UInt8}
    (h : feed poly a byte = feed poly b byte) : a = b :=
  (BitVec.xor_left_inj _).mp (shifts_inj poly htop 8 h)

/-- **What follows keeps two registers apart.** -/
theorem feedAll_inj (htop : poly.getLsbD (w - 1) = true) (bytes : List UInt8) {a b : BitVec w}
    (h : feedAll poly a bytes = feedAll poly b bytes) : a = b := by
  induction bytes generalizing a b with
  | nil => exact h
  | cons byte bytes ih => exact feed_inj poly htop (ih h)

/-! ## A window is one word

  The bytes of a window that fits into the register can all be added before the first shift.  Two
  windows of one length are then two words that go through the same shifts, and shifts lose nothing. -/

/-- As long as no bit falls out, a shift only moves. -/
theorem shifts_of_low {n : Nat} : ∀ {r : BitVec w}, (∀ i, i < n → r.getLsbD i = false) →
    shifts poly n r = r >>> n := by
  induction n with
  | zero => exact fun _ => (BitVec.ushiftRight_zero _).symm
  | succ n ih =>
    intro r hlow
    have hshift : shift poly r = r >>> 1 := by
      unfold shift
      rw [hlow 0 (Nat.succ_pos n)]
      rfl
    rw [shifts_succ, hshift, ih fun i hi => ?_]
    · rw [Nat.add_comm n 1, BitVec.shiftRight_add]
    · rw [BitVec.getLsbD_ushiftRight]
      exact hlow _ (by omega)

theorem getLsbD_word {byte : UInt8} {i : Nat} (h : 8 ≤ i) :
    (word byte : BitVec w).getLsbD i = false := by
  unfold word
  rw [BitVec.getLsbD_setWidth, BitVec.getLsbD_of_ge _ _ h, Bool.and_false]

/-- A window only fills as many bits as it has. -/
theorem getLsbD_pack : ∀ (bytes : List UInt8) {i : Nat}, 8 * bytes.length ≤ i →
    (pack bytes : BitVec w).getLsbD i = false := by
  intro bytes
  induction bytes with
  | nil => exact fun _ => BitVec.getLsbD_zero
  | cons byte bytes ih =>
    intro i hi
    rw [List.length_cons] at hi
    rw [pack, BitVec.getLsbD_xor, getLsbD_word (by omega), BitVec.getLsbD_shiftLeft,
      ih (i := i - 8) (by omega), Bool.and_false, Bool.xor_false]

/-- What was moved up comes down again, if there was room. -/
theorem shifts_pack {bytes : List UInt8} (hfits : 8 * (bytes.length + 1) ≤ w) :
    shifts poly 8 ((pack bytes : BitVec w) <<< 8) = pack bytes := by
  rw [shifts_of_low poly fun i hi => ?_]
  · refine BitVec.eq_of_getLsbD_eq fun i hi => ?_
    rw [BitVec.getLsbD_ushiftRight, BitVec.getLsbD_shiftLeft]
    by_cases hroom : 8 + i < w
    · simp [hroom]
    · rw [decide_eq_false hroom, Bool.false_and, Bool.false_and]
      exact (getLsbD_pack bytes (by omega)).symm
  · rw [BitVec.getLsbD_shiftLeft, decide_eq_true hi]
    simp

/-- **Feeding a window is adding one word and shifting it through.** -/
theorem feedAll_eq : ∀ (bytes : List UInt8) (r : BitVec w), 8 * bytes.length ≤ w →
    feedAll poly r bytes = shifts poly (8 * bytes.length) (r ^^^ pack bytes) := by
  intro bytes
  induction bytes with
  | nil =>
    intro r _
    exact (BitVec.xor_zero).symm
  | cons byte bytes ih =>
    intro r hfits
    rw [List.length_cons] at hfits
    have hstep : feedAll poly r (byte :: bytes) = feedAll poly (feed poly r byte) bytes := rfl
    have hword : feed poly r byte ^^^ pack bytes =
        shifts poly 8 (r ^^^ word byte ^^^ (pack bytes <<< 8)) := by
      rw [shifts_xor, shifts_pack poly hfits]
      rfl
    rw [hstep, ih _ (by omega), hword, ← shifts_add, List.length_cons, pack, BitVec.xor_assoc,
      Nat.mul_succ]

theorem word_inj (hfits : 8 ≤ w) {a b : UInt8}
    (h : ∀ i, i < 8 → (word a : BitVec w).getLsbD i = (word b : BitVec w).getLsbD i) : a = b := by
  refine UInt8.toBitVec_inj.mp (BitVec.eq_of_getLsbD_eq fun i hi => ?_)
  have := h i hi
  unfold word at this
  rwa [BitVec.getLsbD_setWidth, BitVec.getLsbD_setWidth, decide_eq_true (by omega), Bool.true_and,
    Bool.true_and] at this

/-- The word spells the window. -/
theorem pack_inj : ∀ {x y : List UInt8}, x.length = y.length → 8 * x.length ≤ w →
    (pack x : BitVec w) = pack y → x = y := by
  intro x
  induction x with
  | nil =>
    intro y hlen _ _
    exact (List.length_eq_zero_iff.mp hlen.symm).symm
  | cons a x ih =>
    intro y hlen hfits h
    cases y with
    | nil => nomatch hlen
    | cons b y =>
      rw [List.length_cons] at hfits
      have hlen' : x.length = y.length := Nat.succ.inj hlen
      have hbits : ∀ (c : UInt8) (z : List UInt8) (i : Nat), i < 8 →
          (pack (c :: z) : BitVec w).getLsbD i = (word c : BitVec w).getLsbD i := by
        intro c z i hi
        rw [pack, BitVec.getLsbD_xor, BitVec.getLsbD_shiftLeft, decide_eq_true hi]
        simp
      have hab : a = b := word_inj (w := w) (by omega) fun i hi => by
        rw [← hbits a x i hi, ← hbits b y i hi, h]
      subst hab
      rw [pack, pack] at h
      have hrest := congrArg (shifts 0#w 8) ((BitVec.xor_right_inj _).mp h)
      rw [shifts_pack 0#w hfits, shifts_pack 0#w (by omega)] at hrest
      rw [ih hlen' (by omega) hrest]

/-- **Two windows of one length that leave the same register are the same window.** -/
theorem feedAll_window_inj (htop : poly.getLsbD (w - 1) = true) {r : BitVec w} {x y : List UInt8}
    (hlen : x.length = y.length) (hfits : 8 * x.length ≤ w)
    (h : feedAll poly r x = feedAll poly r y) : x = y := by
  rw [feedAll_eq poly x r hfits, feedAll_eq poly y r (by omega), ← hlen] at h
  exact pack_inj hlen hfits ((BitVec.xor_right_inj _).mp (shifts_inj poly htop _ h))

end FeedbackRegister

end AtomicBlobStore
