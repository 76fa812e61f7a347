import Fitz.Model.Handle

/-!
# Retries and readiness

The two loops that wait between attempts: `request_replayable_in_generation`
(`src/async_connection.rs`), through which the reads go, and `Client::connect_when_ready`
(`src/lib.rs`). A `Duration` is its nanoseconds, an `Instant` the nanoseconds since the call.
What an attempt comes to, and how long it takes, is given.
-/

namespace Fitz

/-- `Duration::MAX`. -/
def durationMax : ℕ := 2 ^ 64 * 10 ^ 9 - 1

structure Delay where
  nanos : ℕ
  le : nanos ≤ durationMax
  deriving DecidableEq

namespace Delay

def saturatingMul (d : Delay) (n : ℕ) : Delay := ⟨min (d.nanos * n) durationMax, min_le_right _ _⟩

protected def min (d d' : Delay) : Delay := if d.nanos ≤ d'.nanos then d else d'

/-- `delay = delay.saturating_mul(2).min(maximum)`. -/
def next (d maximum : Delay) : Delay := (d.saturatingMul 2).min maximum

end Delay

/-! ## Reads -/

/-- `RetryPolicy` with its delays. -/
structure ReplayPolicy extends RetryPolicy where
  baseDelay : Delay
  maximumDelay : Delay

/-- What an attempt meets: the generation when it is checked, what the request returns, and
the generation when it is checked again. -/
structure Replay where
  before : UInt64
  result : Result Bytes
  after : UInt64

inductive ReplayAct
  | requested (attempt : ℕ)
  | slept (delay : Delay)
  deriving DecidableEq

/-- `expected_generation.is_some_and(|generation| self.generation() != generation)`. -/
def staleGeneration (expected : Option UInt64) (generation : UInt64) : Bool :=
  expected.any fun own => generation != own

/-- The loop from this attempt on, with so many left. -/
def requestReplayable (policy : ReplayPolicy) (expected : Option UInt64) (world : ℕ → Replay) :
    ℕ → ℕ → Delay → List ReplayAct × Result Bytes
  | 0, _, _ => ([], .error .connectionClosed)
  | left + 1, attempt, delay =>
    if staleGeneration expected (world attempt).before then ([], .error .staleHandle)
    else
      match (world attempt).result with
      | .ok response => ([.requested attempt], .ok response)
      | .error error =>
        if left = 0 ∨ !error.isRetryable then ([.requested attempt], .error error)
        else if staleGeneration expected (world attempt).after then
          ([.requested attempt], .error .staleHandle)
        else
          let (acts, result) := requestReplayable policy expected world left (attempt + 1)
            (delay.next policy.maximumDelay)
          (.requested attempt :: .slept delay :: acts, result)

/-- `request_replayable_in_generation`. -/
def requestReplayableInGeneration (policy : ReplayPolicy) (expected : Option UInt64)
    (world : ℕ → Replay) : List ReplayAct × Result Bytes :=
  requestReplayable policy expected world policy.attempts 1 policy.baseDelay

/-! ## Readiness -/

structure ConnectWhenReadyOptions where
  timeout : Delay
  initialDelay : Delay
  maximumDelay : Delay

inductive ReadyPc
  /-- `self.connect()`, called at this instant, by a timer that was so late -/
  | connecting (start late : ℕ)
  /-- `tokio::time::sleep(delay.min(remaining))` -/
  | sleeping (wait : ℕ)
  | returned (result : Result Unit)
  deriving DecidableEq

/-- A call of `connect` that came to its end. -/
structure Tried where
  start : ℕ
  late : ℕ
  result : Result Unit
  deriving DecidableEq

structure Ready where
  now : ℕ
  delay : Delay
  pc : ReadyPc
  /-- the calls of `connect`, and the waits between them, oldest first -/
  tried : List Tried
  waits : List ℕ

inductive ReadyEvent
  /-- the branch of the cancellation token -/
  | canceled
  /-- `connect` returns, so much later -/
  | connected (elapsed : ℕ) (result : Result Unit)
  /-- the timer fires, so late -/
  | woke (late : ℕ)
  deriving DecidableEq

/-- The errors of `connect` that end the call. -/
def FitzError.endsReadiness (error : FitzError) : Bool :=
  error.isAuthFailure || match error with
    | .closed | .versionMismatch .. => true
    | _ => false

namespace Ready

def start (options : ConnectWhenReadyOptions) : Ready :=
  ⟨0, options.initialDelay, .connecting 0 0, [], []⟩

/-- After a failure that does not end the call. -/
def pause (options : ConnectWhenReadyOptions) (s : Ready) : Ready :=
  let remaining := options.timeout.nanos - s.now
  if remaining = 0 then { s with pc := .returned (.error .timeout) }
  else { s with pc := .sleeping (min s.delay.nanos remaining) }

def step (options : ConnectWhenReadyOptions) (s : Ready) (e : ReadyEvent) : Ready :=
  match s.pc, e with
  | .connecting _ _, .canceled | .sleeping _, .canceled =>
    { s with pc := .returned (.error .canceled) }
  | .connecting start late, .connected elapsed result =>
    let tried : Tried := ⟨start, late, result⟩
    let s' := { s with now := s.now + elapsed, tried := s.tried ++ [tried] }
    match result with
    | .ok () => { s' with pc := .returned (.ok ()) }
    | .error error =>
      if error.endsReadiness then { s' with pc := .returned (.error error) }
      else pause options s'
  | .sleeping wait, .woke late =>
    { s with
      now := s.now + wait + late
      delay := s.delay.next options.maximumDelay
      pc := .connecting (s.now + wait + late) late
      waits := s.waits ++ [wait] }
  | _, _ => s

end Ready

end Fitz
