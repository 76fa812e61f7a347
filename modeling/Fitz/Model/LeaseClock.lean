import Fitz.Model.Managed

/-!
# Managed leases in time

The `select!` of `with_lease_authority_with_options` (`src/client_domains/lease.rs`) with
its clock. A turn polls the callback, and the timer of the renewal if the callback is
pending; while a request is awaited the callback is not polled. An `Instant` is the
nanoseconds since the call. A timer never fires early, and a poll finds it fired at the
latest `slack` after its deadline.

`LeaseClock.lease` is the future without its clock (`Fitz.Model.Managed`). What was sent,
granted and polled at which instant is read by no step.
-/

namespace Fitz

/-- `Duration::from_secs(ttl_secs) / 3`. -/
def LeaseOrder.period (order : LeaseOrder) : ℕ := order.ttlSecs.toNat * 10 ^ 9 / 3

/-- A poll of the callback. -/
structure CallbackTurn where
  time : ℕ
  /-- the `CancellationToken` it sees -/
  canceled : Bool
  /-- when the ACQUIRE or RENEW was sent that granted the lease, and when it was granted -/
  asked : ℕ
  granted : ℕ
  deriving DecidableEq

inductive LeaseWake (T E : Type)
  /-- anything else that the future awaits -/
  | resume (e : LeaseEvent T E)
  /-- what the callback returns, if it is ready, and whether the timer has fired; the rest is
  what `LeaseEvent.callback` and `LeaseEvent.timer` read -/
  | poll (callback : Option (Except E T)) (fired : Bool) (generation atDrop : UInt64)

structure LeaseTick (T E : Type) where
  elapsed : ℕ
  wake : LeaseWake T E

structure LeaseClock (T E : Type) where
  lease : Managed T E
  now : ℕ
  /-- the deadline of the sleep `renewal` -/
  renewal : ℕ
  /-- when the last ACQUIRE or RENEW was sent -/
  sent : ℕ
  asked : ℕ
  granted : ℕ
  turns : List CallbackTurn
  /-- when each RENEW was sent -/
  renewals : List ℕ

/-- `cancellation.is_cancelled()`. -/
def Managed.canceled {T E : Type} (s : Managed T E) : Bool :=
  s.acts.any fun
    | .canceled => true
    | _ => false

namespace LeaseClock

variable {T E : Type} (order : LeaseOrder) (slack : ℕ)

def new : LeaseClock T E := ⟨.new, 0, 0, 0, 0, 0, [], []⟩

/-- The callback is polled. -/
def turn (s : LeaseClock T E) : LeaseClock T E :=
  { s with turns := s.turns ++ [⟨s.now, s.lease.canceled, s.asked, s.granted⟩] }

/-- The future goes on: where it holds the lease from now on, the timer is set. -/
def resume (s : LeaseClock T E) (e : LeaseEvent T E) : LeaseClock T E :=
  let lease := s.lease.step order e
  match s.lease.pc, lease.pc with
  | .start, .acquiring => { s with lease := lease, sent := s.now }
  | .running, .renewing =>
    { s with lease := lease, sent := s.now, renewals := s.renewals ++ [s.now] }
  | .acquiring, .running | .queued, .running | .renewing, .running =>
    { s with
      lease := lease
      renewal := s.now + order.period
      asked := s.sent
      granted := s.now }
  | _, _ => { s with lease := lease }

/-- The poll of `renewal`. -/
def timerFired (s : LeaseClock T E) (fired : Bool) : Bool :=
  s.renewal ≤ s.now && (fired || decide (s.renewal + slack ≤ s.now))

def wake (s : LeaseClock T E) : LeaseWake T E → LeaseClock T E
  -- these two are branches of the `select!`
  | .resume (.timer _) | .resume (.callback ..) => s
  | .resume e => s.resume order e
  | .poll callback fired generation atDrop =>
    match s.lease.pc, callback with
    | .running, some outcome | .stopping _, some outcome =>
      s.turn.resume order (.callback outcome generation atDrop)
    | .running, none =>
      if s.timerFired slack fired then s.turn.resume order (.timer generation) else s.turn
    | .stopping _, none => s.turn
    | _, _ => s

def step (s : LeaseClock T E) (e : LeaseTick T E) : LeaseClock T E :=
  { s with now := s.now + e.elapsed }.wake order slack e.wake

end LeaseClock

end Fitz
