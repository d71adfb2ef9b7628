/-
  Fixed-width BIG-ENDIAN integers: `toBeBytes w n` is the `w`-byte big-endian rendering of `n`
  (reduced modulo `256 ^ w`) and `fromBeBytes` reads such a rendering back.

  The two are inverse in both directions — `fromBeBytes_toBeBytes` on numbers that fit in `w`
  bytes, `toBeBytes_fromBeBytes` on ALL byte strings — which is what makes a fixed-width length or
  checksum field both uniquely decodable and uniquely encodable.  Nothing here is about a
  particular file format.
-/
import Mathlib.Algebra.Order.Ring.Nat
import Mathlib.Data.List.Induction

namespace AtomicBlobStore.BigEndian

/-- The `w` low-order bytes of `n`, most significant first.  The recursion takes the bytes off at the
    low end, as the number is divided, and so appends them. -/
def toBeBytes : Nat → Nat → List UInt8
  | 0, _ => []
  | w + 1, n => toBeBytes w (n / 256) ++ [UInt8.ofNat n]

/-- The number a byte string denotes, most significant byte first. -/
def fromBeBytes (bytes : List UInt8) : Nat :=
  bytes.foldl (fun value byte => value * 256 + byte.toNat) 0

@[simp] theorem length_toBeBytes (w n : Nat) : (toBeBytes w n).length = w := by
  induction w generalizing n with
  | zero => rfl
  | succ w ih => simp [toBeBytes, ih]

@[simp] theorem fromBeBytes_nil : fromBeBytes [] = 0 := rfl

theorem fromBeBytes_concat (bytes : List UInt8) (byte : UInt8) :
    fromBeBytes (bytes ++ [byte]) = fromBeBytes bytes * 256 + byte.toNat := by
  simp [fromBeBytes]

/-- A `w`-byte string denotes a number below `256 ^ w`. -/
theorem fromBeBytes_lt (bytes : List UInt8) : fromBeBytes bytes < 256 ^ bytes.length := by
  induction bytes using List.reverseRecOn with
  | nil => decide
  | append_singleton bytes byte ih =>
    have hbyte : byte.toNat < 256 := byte.toNat_lt
    rw [fromBeBytes_concat, List.length_append, List.length_singleton, Nat.pow_succ]
    omega

/-- Reading back a rendering gives the number, reduced to the width of the field. -/
theorem fromBeBytes_toBeBytes_mod (w n : Nat) : fromBeBytes (toBeBytes w n) = n % 256 ^ w := by
  induction w generalizing n with
  | zero => simp [toBeBytes, Nat.mod_one]
  | succ w ih =>
    have hbyte : (UInt8.ofNat n).toNat = n % 256 := UInt8.toNat_ofNat'
    have hsplit : n % (256 * 256 ^ w) = n % 256 + 256 * (n / 256 % 256 ^ w) := Nat.mod_mul
    rw [toBeBytes, fromBeBytes_concat, ih, hbyte, Nat.pow_succ', hsplit]
    omega

theorem fromBeBytes_toBeBytes {w n : Nat} (h : n < 256 ^ w) :
    fromBeBytes (toBeBytes w n) = n := by
  rw [fromBeBytes_toBeBytes_mod, Nat.mod_eq_of_lt h]

/-- Every byte string is the rendering of the number it denotes: a field of fixed width has no
    redundant spellings. -/
theorem toBeBytes_fromBeBytes (bytes : List UInt8) :
    toBeBytes bytes.length (fromBeBytes bytes) = bytes := by
  induction bytes using List.reverseRecOn with
  | nil => rfl
  | append_singleton bytes byte ih =>
    have hbyte : byte.toNat < 256 := byte.toNat_lt
    rw [fromBeBytes_concat, List.length_append, List.length_singleton, toBeBytes]
    have hdiv : (fromBeBytes bytes * 256 + byte.toNat) / 256 = fromBeBytes bytes := by omega
    have hlow : UInt8.ofNat (fromBeBytes bytes * 256 + byte.toNat) = byte := by
      apply UInt8.toNat_inj.mp
      rw [UInt8.toNat_ofNat']
      omega
    rw [hdiv, hlow, ih]

/-- Equal renderings of numbers that fit are renderings of equal numbers. -/
theorem toBeBytes_inj {w m n : Nat} (hm : m < 256 ^ w) (hn : n < 256 ^ w)
    (h : toBeBytes w m = toBeBytes w n) : m = n := by
  rw [← fromBeBytes_toBeBytes hm, h, fromBeBytes_toBeBytes hn]

example : toBeBytes 4 0x01020304 = [1, 2, 3, 4] := by decide

end AtomicBlobStore.BigEndian
