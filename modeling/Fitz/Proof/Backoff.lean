import Fitz.Model.Backoff
import Fitz.Proof.Moves
import Mathlib.Algebra.Order.Field.Power

/-!
# The delay before an attempt

The cap is applied to the product, so the product must be a `Duration` first.
`delays_computed`: an attempt is delayed by the smaller of `base * multiplier ^ (n - 1)`
and the cap exactly if the power is a finite float, the product is below `2 ^ 64`
seconds, and the exponent fits an `i32` or does not matter. Every attempt is reached
(`attempt_reached`), and with the default policy the 69th is the first to panic.
-/

namespace Fitz

open Machine

/-- The product of the attempt is a `Duration`, and its exponent is right. -/
structure Representable (policy : BackoffPolicy) (n : ℕ) : Prop where
  finite : policy.multiplier ^ min (n - 1) (2 ^ 31 - 1) < 2 ^ 1024
  product : policy.baseDelay.seconds * policy.multiplier ^ min (n - 1) (2 ^ 31 - 1) < 2 ^ 64
  exponent : n ≤ 2 ^ 31 ∨ policy.multiplier = 1 ∨ policy.baseDelay.seconds = 0 ∨
    policy.maximumDelay.seconds ≤ policy.baseDelay.seconds * policy.multiplier ^ (2 ^ 31 - 1)

variable {policy : BackoffPolicy} {n : ℕ}

theorem seconds_min (d d' : Duration) : (d.min d').seconds = min d.seconds d'.seconds := by
  unfold Duration.min
  rw [min_def]
  split <;> rfl

/-- The delay is that of the exponent `i32` has. -/
theorem slept_iff (hm : 1 ≤ policy.multiplier)
    (hreach : policy.maximumAttempts = 0 ∨ n ≤ policy.maximumAttempts) {delay : Duration} :
    reconnectDelay policy n = .slept delay ↔
      policy.multiplier ^ backoffExponent n < 2 ^ 1024 ∧
      policy.baseDelay.seconds * policy.multiplier ^ backoffExponent n < 2 ^ 64 ∧
      delay.seconds = min (policy.baseDelay.seconds * policy.multiplier ^ backoffExponent n)
        policy.maximumDelay.seconds := by
  have hgo : ¬(policy.maximumAttempts ≠ 0 ∧ n > policy.maximumAttempts) := by omega
  have hpos : 0 ≤ policy.baseDelay.seconds * policy.multiplier ^ backoffExponent n :=
    mul_nonneg policy.baseDelay.nonneg (pow_nonneg (zero_le_one.trans hm) _)
  have hext : ∀ d d' : Duration, d.seconds = d'.seconds → d = d' := by
    rintro ⟨s, _, _⟩ ⟨s', _, _⟩ rfl
    rfl
  unfold reconnectDelay powi
  rw [if_neg hgo]
  by_cases hfinite : policy.multiplier ^ backoffExponent n < 2 ^ 1024
  · rw [if_pos hfinite]
    simp only [Duration.mulF64]
    by_cases hproduct : policy.baseDelay.seconds * policy.multiplier ^ backoffExponent n < 2 ^ 64
    · rw [dif_pos ⟨hpos, hproduct⟩]
      simp only [DelayOutcome.slept.injEq]
      constructor
      · rintro rfl
        exact ⟨hfinite, hproduct, seconds_min _ _⟩
      · rintro ⟨-, -, hdelay⟩
        exact hext _ _ ((seconds_min _ _).trans hdelay.symm)
    · rw [dif_neg fun h => hproduct h.2]
      simp [hproduct]
  · rw [if_neg hfinite]
    simp [Duration.mulF64, hfinite]

/-- Whether the exponent an `i32` holds gives the same delay. -/
theorem capped_iff (n : ℕ) {base multiplier : ℚ} (maximum : ℚ) (hb : 0 ≤ base) (hm : 1 ≤ multiplier) :
    min (base * multiplier ^ backoffExponent n) maximum =
      min (base * multiplier ^ (n - 1)) maximum ↔
    n ≤ 2 ^ 31 ∨ multiplier = 1 ∨ base = 0 ∨ maximum ≤ base * multiplier ^ (2 ^ 31 - 1) := by
  generalize hK : 2 ^ 31 - 1 = K
  have hbound : n ≤ 2 ^ 31 ↔ n - 1 ≤ K := by omega
  have hexp : backoffExponent n = min (n - 1) K := by rw [← hK, backoffExponent]
  rw [hbound, hexp]
  rcases Nat.lt_or_ge K (n - 1) with hlt | hle
  · rw [min_eq_right hlt.le]
    have hmono : base * multiplier ^ K ≤ base * multiplier ^ (n - 1) :=
      mul_le_mul_of_nonneg_left (pow_le_pow_right₀ hm hlt.le) hb
    constructor
    · intro heq
      by_contra hnot
      simp only [not_or, not_le] at hnot
      obtain ⟨-, hm1, hb0, hmax⟩ := hnot
      -- the exact product is larger, so its delay is
      have hgrow : multiplier ^ K < multiplier ^ (n - 1) :=
        pow_lt_pow_right₀ (lt_of_le_of_ne hm (Ne.symm hm1)) hlt
      have hless : base * multiplier ^ K < base * multiplier ^ (n - 1) :=
        mul_lt_mul_of_pos_left hgrow (lt_of_le_of_ne hb (Ne.symm hb0))
      have hmin : base * multiplier ^ K < min (base * multiplier ^ (n - 1)) maximum :=
        lt_min hless hmax
      rw [min_eq_left hmax.le] at heq
      exact absurd heq hmin.ne
    · rintro (h | h | h | h)
      · omega
      · rw [h, one_pow, one_pow]
      · rw [h, zero_mul, zero_mul]
      · rw [min_eq_right h, min_eq_right (h.trans hmono)]
  · rw [min_eq_left hle]
    simp [hle]

/-- **The delay before an attempt.** It is the capped product, and there is no
panic, exactly if the product is representable. -/
theorem delays_computed (policy : BackoffPolicy) (n : ℕ) (hm : 1 ≤ policy.multiplier)
    (hreach : policy.maximumAttempts = 0 ∨ n ≤ policy.maximumAttempts) :
    (∃ delay, reconnectDelay policy n = .slept delay ∧
      delay.seconds = min (policy.baseDelay.seconds * policy.multiplier ^ (n - 1))
        policy.maximumDelay.seconds) ↔
    Representable policy n := by
  have hb := policy.baseDelay.nonneg
  have hcap := capped_iff n policy.maximumDelay.seconds hb hm
  constructor
  · rintro ⟨delay, hslept, hdelay⟩
    obtain ⟨hfinite, hproduct, hmin⟩ := (slept_iff hm hreach).1 hslept
    exact ⟨hfinite, hproduct, hcap.1 (hmin.symm.trans hdelay)⟩
  · rintro ⟨hfinite, hproduct, hexponent⟩
    have hnonneg : 0 ≤ min (policy.baseDelay.seconds * policy.multiplier ^ backoffExponent n)
        policy.maximumDelay.seconds :=
      le_min (mul_nonneg hb (pow_nonneg (zero_le_one.trans hm) _)) policy.maximumDelay.nonneg
    have hlt : min (policy.baseDelay.seconds * policy.multiplier ^ backoffExponent n)
        policy.maximumDelay.seconds < 2 ^ 64 :=
      (min_le_left _ _).trans_lt hproduct
    exact ⟨⟨_, hnonneg, hlt⟩, (slept_iff hm hreach).2 ⟨hfinite, hproduct, rfl⟩,
      hcap.2 hexponent⟩

theorem delays_computed_third :
    ∃ delay, reconnectDelay .default 3 = .slept delay ∧ delay.seconds = min (1 / 10 * 2 ^ 2) 30 :=
  (delays_computed .default 3 (by decide +kernel) (.inl rfl)).2
    ⟨by decide +kernel, by decide +kernel, .inl (by decide)⟩

/-- With the default policy the 69th attempt panics: the cap comes too late. -/
theorem default_panics :
    reconnectDelay .default 69 = .panicked ∧
      reconnectDelay .default 68 = .slept BackoffPolicy.default.maximumDelay := by
  decide +kernel

/-- An attempt without a token is followed by the next delay. -/
theorem attempt_next {policy : ReconnectPolicy} (hen : policy.enabled = true) {n : ℕ}
    (hreach : policy.maximumAttempts = 0 ∨ n + 1 ≤ policy.maximumAttempts) {s : Supervised}
    (hs : s.sup = ⟨.sleeping, n, none, false⟩) :
    (run (Supervised.step policy) s
      [.wake, .advance, .token (.error (.connection "")), .advance, .advance]).sup =
      ⟨.sleeping, n + 1, none, false⟩ := by
  have hgo : ¬(policy.maximumAttempts ≠ 0 ∧ n + 1 > policy.maximumAttempts) := by omega
  have hretry : (Sup.onRetry policy ⟨.retrying, n, none, false⟩).1 =
      ⟨.sleeping, n + 1, none, false⟩ := by
    unfold Sup.onRetry
    rw [if_neg hgo]
  simp [Supervised.step, Sup.step, Sup.advance, Sup.opening, Sup.goto, Sup.onOpenError,
    FitzError.isAuthFailure, hs, hen, hretry]

/-- Every attempt the policy allows is reached. -/
theorem attempt_reached (policy : ReconnectPolicy) (hen : policy.enabled = true) (n : ℕ)
    (hreach : policy.maximumAttempts = 0 ∨ n + 1 ≤ policy.maximumAttempts) :
    ∃ es, (run (Supervised.step policy) .new es).sup = ⟨.sleeping, n + 1, none, false⟩ := by
  induction n with
  | zero =>
    refine ⟨[.connect 0, .advance] ++ openRun ++ loseRun, ?_⟩
    simp [openRun, loseRun, Supervised.new, Sup.new, Supervised.step, Sup.step, Sup.advance,
      Sup.opening, Sup.goto, Sup.onRetry]
  | succ n ih =>
    obtain ⟨es, hes⟩ := ih (by omega)
    refine ⟨es ++ [.wake, .advance, .token (.error (.connection "")), .advance, .advance], ?_⟩
    rw [run_append]
    exact attempt_next hen hreach hes

end Fitz
