import Fitz.Model.Session

/-!
# The heartbeat in time

The timer of `run_websocket` (`src/async_connection.rs`), a `tokio::time::sleep` that some
branches of the loop set anew. A pass takes up what is ready after the loop was suspended for
`elapsed`, and lasts as long as its writes; the timer is polled between passes only. It never
fires early, and a poll finds it fired at the latest `slack` after its deadline. Of several
branches that are ready `select!` takes any.

`BeatClock.ws` is the loop without its clock (`Fitz.Model.Session`). When the timer was set,
the last ping was out and the last sign of life came is read by no step.
-/

namespace Fitz

/-- `HeartbeatOptions`, in nanoseconds. -/
structure HeartbeatOptions where
  enabled : Bool
  idleInterval : ℕ
  timeout : ℕ

def HeartbeatOptions.length (o : HeartbeatOptions) : Interval → ℕ
  | .idle => o.idleInterval
  | .timeout => o.timeout

inductive BeatWake
  /-- a branch other than that of the timer is taken -/
  | ready (input : WsInput)
  /-- no other is: whether the timer has fired, and what sending the `Ping` then comes to -/
  | poll (fired : Bool) (write : Write)

structure BeatTick where
  elapsed : ℕ
  lasting : ℕ
  wake : BeatWake

/-- The pass calls `heartbeat.reset`, if it does not end the session. -/
def WsInput.restarts (sh : Shared) (l : Loop) : WsInput → Bool
  | .io (.command (.request id generation messageType flags payload _) _) =>
    generation == l.sessionGeneration && (!supervisorCorrelationEnabled sh ||
      (decide (l.correlated.entries.length < sh.maxInFlight.toNat) &&
        (encodeOutbound sh messageType flags id payload).isOk))
  | .io (.frame bytes _) => (decodeIncoming sh bytes).isOk
  | .io _ => false
  | .ping _ | .pong | .message | .heartbeat _ => true

structure BeatClock where
  ws : WebSocket
  now : ℕ
  /-- the deadline of the sleep `heartbeat` -/
  deadline : ℕ
  /-- when the timer was set last -/
  restarted : ℕ
  /-- when a binary message or a pong came in last, or a request was taken -/
  alive : ℕ
  /-- when the last `Ping` was out -/
  pinged : Option ℕ

namespace BeatClock

variable (o : HeartbeatOptions) (slack : ℕ)

def start (sh : Shared) : BeatClock := ⟨.start sh, 0, o.idleInterval, 0, 0, none⟩

/-- The timer is set at `time`, after `input`. -/
def restart (s : BeatClock) (time : ℕ) (input : WsInput) : BeatClock :=
  { s with
    deadline := time + o.length s.ws.beat.interval
    restarted := time
    alive := match input with
      | .io _ | .pong => time
      | _ => s.alive
    pinged := match input with
      | .heartbeat _ => some time
      | _ => s.pinged }

/-- One pass. A binary message sets the timer before the requests it promotes are written, the
other branches set it behind their writes. -/
def pass (s : BeatClock) (lasting : ℕ) (input : WsInput) : BeatClock :=
  let s' := { s with ws := s.ws.step o.enabled input, now := s.now + lasting }
  match s.ws.session.result, input.restarts s.ws.session.shared s.ws.session.loop with
  | none, true =>
    s'.restart o (match input with
      | .io (.frame _ _) => s.now
      | _ => s.now + lasting) input
  | _, _ => s'

/-- The poll of `heartbeat`. -/
def timerFired (s : BeatClock) (fired : Bool) : Bool :=
  s.deadline ≤ s.now && (fired || decide (s.deadline + slack ≤ s.now))

def wake (s : BeatClock) (lasting : ℕ) : BeatWake → BeatClock
  -- the branch of the timer is the other one
  | .ready (.heartbeat _) => s
  | .ready input => s.pass o lasting input
  | .poll fired write =>
    if o.enabled && s.timerFired slack fired then s.pass o lasting (.heartbeat write) else s

def step (s : BeatClock) (e : BeatTick) : BeatClock :=
  { s with now := s.now + e.elapsed }.wake o slack e.lasting e.wake

end BeatClock

end Fitz
