import Mathlib.Data.Nat.ModEq
import Mathlib.Tactic.Ring
import Mathlib.Data.List.Infix

/-!
# Big-endian byte strings

`toBe w n` is the low `w` bytes of `n`, most significant first, and `fromBe`
reads such a string back.
-/

namespace BigEndian

/-- The number a big-endian byte string stands for. -/
def fromBe (bs : List UInt8) : ℕ := bs.foldl (fun n b => n * 256 + b.toNat) 0

/-- The `w` low bytes of `n`, most significant first. -/
def toBe : ℕ → ℕ → List UInt8
  | 0, _ => []
  | w + 1, n => toBe w (n / 256) ++ [UInt8.ofNat n]

@[simp] theorem length_toBe (w n : ℕ) : (toBe w n).length = w := by
  induction w generalizing n with
  | zero => rfl
  | succ w ih => simp [toBe, ih]

theorem fromBe_concat (bs : List UInt8) (b : UInt8) :
    fromBe (bs ++ [b]) = fromBe bs * 256 + b.toNat := by
  simp [fromBe]

theorem fromBe_toBe (w n : ℕ) : fromBe (toBe w n) = n % 256 ^ w := by
  induction w generalizing n with
  | zero => simp [toBe, fromBe, Nat.mod_one]
  | succ w ih =>
    have hsplit : n % 256 ^ (w + 1) = n % 256 + 256 * (n / 256 % 256 ^ w) := by
      rw [show 256 ^ (w + 1) = 256 * 256 ^ w by ring, Nat.mod_mul]
    have hbyte : (UInt8.ofNat n).toNat = n % 256 := UInt8.toNat_ofNat'
    rw [toBe, fromBe_concat, ih, hbyte, hsplit]
    ring

theorem toBe_fromBe (bs : List UInt8) : toBe bs.length (fromBe bs) = bs := by
  induction bs using List.reverseRecOn with
  | nil => rfl
  | append_singleton bs b ih =>
    have hb : b.toNat < 256 := b.toNat_lt
    have hdiv : (fromBe bs * 256 + b.toNat) / 256 = fromBe bs := by omega
    have hlow : UInt8.ofNat (fromBe bs * 256 + b.toNat) = b := by
      rw [← UInt8.toNat_inj, UInt8.toNat_ofNat']
      omega
    rw [List.length_append, List.length_singleton, toBe, fromBe_concat, hdiv, ih, hlow]

theorem toBe_fromBe_of_length {bs : List UInt8} {w : ℕ} (h : bs.length = w) :
    toBe w (fromBe bs) = bs := by
  rw [← h, toBe_fromBe]

theorem fromBe_lt (bs : List UInt8) : fromBe bs < 256 ^ bs.length := by
  induction bs using List.reverseRecOn with
  | nil => simp [fromBe]
  | append_singleton bs b ih =>
    have hb : b.toNat < 256 := b.toNat_lt
    rw [fromBe_concat, List.length_append, List.length_singleton, pow_succ]
    omega

/-- Two numbers below `256 ^ w` with the same `w` bytes are equal. -/
theorem toBe_inj {w m n : ℕ} (hm : m < 256 ^ w) (hn : n < 256 ^ w) (h : toBe w m = toBe w n) :
    m = n := by
  have h' := congrArg fromBe h
  rwa [fromBe_toBe, fromBe_toBe, Nat.mod_eq_of_lt hm, Nat.mod_eq_of_lt hn] at h'

end BigEndian
