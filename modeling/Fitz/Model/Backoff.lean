import Fitz.Model.Supervisor
import Mathlib.Data.Rat.Cast.Order

/-!
# The reconnect delay

`reconnect_delay` (`src/async_connection.rs`) with the numbers of `ReconnectPolicy`
(`src/lib.rs`). A float is read as a rational number and a `Duration` as its
seconds: neither is rounded, and a float of `2 ^ 1024` or more is infinite.
-/

namespace Fitz

structure Duration where
  seconds : ℚ
  nonneg : 0 ≤ seconds
  lt : seconds < 2 ^ 64
  deriving DecidableEq

namespace Duration

/-- `Duration::mul_f64`, by a finite factor if there is one; nothing if it panics. -/
def mulF64 (d : Duration) (factor : Option ℚ) : Option Duration :=
  match factor with
  | none => none
  | some factor =>
    if h : 0 ≤ d.seconds * factor ∧ d.seconds * factor < 2 ^ 64 then
      some ⟨d.seconds * factor, h.1, h.2⟩
    else none

protected def min (d d' : Duration) : Duration := if d.seconds ≤ d'.seconds then d else d'

end Duration

/-- `f64::powi`, unless it is infinite. -/
def powi (base : ℚ) (exponent : ℕ) : Option ℚ :=
  if base ^ exponent < 2 ^ 1024 then some (base ^ exponent) else none

/-- `ReconnectPolicy` with its numbers. -/
structure BackoffPolicy extends ReconnectPolicy where
  baseDelay : Duration
  multiplier : ℚ
  maximumDelay : Duration

namespace BackoffPolicy

/-- `ReconnectPolicy::default`. -/
def default : BackoffPolicy where
  enabled := true
  maximumAttempts := 0
  baseDelay := ⟨1 / 10, by decide +kernel, by decide +kernel⟩
  multiplier := 2
  maximumDelay := ⟨30, by decide +kernel, by decide +kernel⟩

end BackoffPolicy

inductive DelayOutcome
  /-- the attempts are exhausted -/
  | exhausted
  | panicked
  | slept (delay : Duration)
  deriving DecidableEq

def reconnectDelay (policy : BackoffPolicy) (attempts : ℕ) : DelayOutcome :=
  if policy.maximumAttempts ≠ 0 ∧ attempts > policy.maximumAttempts then .exhausted
  else
    match policy.baseDelay.mulF64 (powi policy.multiplier (backoffExponent attempts)) with
    | some delay => .slept (delay.min policy.maximumDelay)
    | none => .panicked

end Fitz
