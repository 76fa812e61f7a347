import Mathlib.Logic.Function.Iterate
import Mathlib.Order.Lattice.Nat

/-!
# Delays that double up to a cap

`doubled cap d k` is the delay after `k` doublings of `d`, each of which is cut at `cap`;
the first delay itself is not cut. `doubled_eq` is its closed form.
-/

namespace Doubling

/-- One doubling. -/
def next (cap d : ℕ) : ℕ := min (2 * d) cap

/-- The delay after `k` doublings. -/
def doubled (cap d k : ℕ) : ℕ := (next cap)^[k] d

variable {cap d : ℕ}

@[simp] theorem doubled_zero : doubled cap d 0 = d := rfl

theorem doubled_succ (k : ℕ) : doubled cap d (k + 1) = next cap (doubled cap d k) :=
  Function.iterate_succ_apply' _ _ _

/-- **The closed form.** From the first doubling on the cap cuts the power of two. -/
theorem doubled_eq (k : ℕ) : doubled cap d (k + 1) = min (2 ^ (k + 1) * d) cap := by
  induction k with
  | zero => rfl
  | succ k ih =>
    have hpow : 2 ^ (k + 2) * d = 2 * (2 ^ (k + 1) * d) := by
      rw [pow_succ, Nat.mul_comm (2 ^ (k + 1)), Nat.mul_assoc]
    rw [doubled_succ, ih, next, hpow]
    -- cutting before the doubling makes no difference, the cap being below its double
    omega

/-- No delay is shorter than the first one, or the cap. -/
theorem min_le_doubled (k : ℕ) : min d cap ≤ doubled cap d k := by
  cases k with
  | zero => exact min_le_left _ _
  | succ k =>
    rw [doubled_eq]
    have hpow : d ≤ 2 ^ (k + 1) * d := Nat.le_mul_of_pos_left d (Nat.two_pow_pos _)
    exact min_le_min_right cap hpow

end Doubling
