import Fitz.Model.Subscription
import Fitz.Lib.Machine

/-!
# One subscription stream

`poll_next` of the subscription streams of the six domains (`src/client_domains`) on
their broadcast receiver, one pass of its loop a step. The channel is shared by the
registrations of its type, and a reconnect may change the wire id between two passes.
Whether the broker meant a notification for the registration is not in the program.
-/

namespace Fitz

/-- What the stream calls a buffer it has not kept up with. -/
def Topic.overflow : Topic → FitzError
  | .kv => .backpressure "KV subscription buffer is full"
  | .queue => .backpressure "Queue subscription buffer is full"
  | .lease => .backpressure "Lease subscription buffer is full"
  | .notice => .backpressure "Notice subscription buffer is full"
  | .stream => .backpressure "Stream subscription buffer is full"
  | .schedule => .backpressure "Schedule subscription buffer is full"

/-- An entry of the channel, and whether it is for the registration. -/
structure Published where
  payload : Bytes
  own : Bool
  deriving DecidableEq

/-- What a `poll_next` returns, unless it is pending. -/
inductive StreamPolled
  | item (item : Result Notification)
  /-- the receiver lagged -/
  | overflow (error : FitzError)
  /-- `None` -/
  | ended
  deriving DecidableEq

structure SubscriptionStream where
  topic : Topic
  wireId : UInt64
  /-- `closed`; for a notice, also that the registration is not active -/
  closed : Bool
  /-- every sender of the channel is gone -/
  hungUp : Bool
  /-- the entries since the receiver exists -/
  published : List Published
  /-- what the receiver reads next -/
  next : ℕ
  /-- in the loop of `poll_next`, past an entry that was skipped -/
  looping : Bool
  polled : List StreamPolled

inductive PollEvent
  | publish (payload : Bytes) (own : Bool)
  /-- a restore stores another wire id -/
  | rebind (wireId : UInt64)
  | hangup
  | close
  /-- one pass of the loop of `poll_next` -/
  | poll
  deriving DecidableEq

namespace SubscriptionStream

def start (topic : Topic) (wireId : UInt64) : SubscriptionStream :=
  ⟨topic, wireId, false, false, [], 0, false, []⟩

/-- `poll_next` returns. -/
def yield (s : SubscriptionStream) (next : ℕ) (polled : StreamPolled) : SubscriptionStream :=
  { s with next := next, looping := false, polled := s.polled ++ [polled] }

def poll (json : Bytes → Except String DecodedStreamNotifyPayload) (s : SubscriptionStream) :
    SubscriptionStream :=
  if s.closed ∧ ¬s.looping then s.yield s.next .ended
  else if s.published.length - s.next > notificationCapacity then
    s.yield (s.published.length - notificationCapacity) (.overflow s.topic.overflow)
  else
    match s.published[s.next]? with
    | none => if s.hungUp then s.yield s.next .ended else { s with looping := false }
    | some entry =>
      match pollItem json s.topic s.wireId entry.payload with
      | .skipped => { s with next := s.next + 1, looping := true }
      | .ready item => s.yield (s.next + 1) (.item item)

def step (json : Bytes → Except String DecodedStreamNotifyPayload) (s : SubscriptionStream) :
    PollEvent → SubscriptionStream
  | .publish payload own =>
    if s.hungUp then s else { s with published := s.published ++ [⟨payload, own⟩] }
  | .rebind wireId => { s with wireId := wireId }
  | .hangup => { s with hungUp := true }
  | .close => { s with closed := true }
  | .poll => s.poll json

end SubscriptionStream

end Fitz
