import Fitz.Model.Loop
import Fitz.Lib.Machine

/-!
# The supervisor task

`supervise`, `connect_and_run`, `reconnect_delay` and the control flow of
`open_session` (`src/async_connection.rs`) as a machine: one program counter for
each point where the task suspends, reads or writes something another task can
see. What the environment decides (a token, a connection attempt, a handshake,
the end of a session, the end of a sleep) is the event; what the task does that
can be observed is an `Act`.

The delay of a sleep is taken to be there: where `mul_f64` panics on it
(`Fitz.Model.Backoff`) the task ends with the panic, which is left out here.
-/

namespace Fitz

/-- The part of `ReconnectPolicy` the control flow consults. -/
structure ReconnectPolicy where
  enabled : Bool
  maximumAttempts : ℕ

/-- Where the supervisor task stands. -/
inductive Pc
  /-- `supervise`: `commands.recv().await` -/
  | recv
  /-- `connect_and_run` was called for a `Connect` command -/
  | starting
  /-- top of the loop of `connect_and_run` -/
  | checking
  /-- `open_session`: `token().await` -/
  | token
  /-- `open_session`: the transport connects -/
  | dialing
  /-- `open_session`: CONNECT is written and the answer awaited -/
  | handshake
  /-- `open_session` returned a session -/
  | opened
  /-- `open_session` returned an error -/
  | failed (error : FitzError)
  /-- `restore_registrations(..).await` -/
  | restoring
  /-- registrations restored, request ids not yet reset -/
  | ready
  /-- request ids reset, `Authenticated` not yet published -/
  | announcing
  /-- `run_session` called, the session generation not yet read -/
  | entering
  /-- suspended in the session loop -/
  | session
  /-- the session loop took a `Close` and shuts the transport down -/
  | closing (response : Ticket)
  /-- `run_session` returned `Disconnected` -/
  | lost
  /-- the retry tail of the loop -/
  | retrying
  /-- `reconnect_delay`: the backoff sleep -/
  | sleeping
  /-- `supervise` returned -/
  | done
  deriving DecidableEq

/-- The task is suspended at an `.await`, or gone. -/
def Pc.suspended : Pc → Bool
  | .recv | .token | .dialing | .handshake | .restoring | .session | .closing _ | .sleeping
  | .done => true
  | _ => false

/-- What the supervisor does that others can observe. -/
inductive Act
  | call (response : Ticket)
  | openSession (onBehalf : Option Ticket)
  | lost
  | sleep (exponent : ℕ)
  | exhausted
  | publish (state : ConnectionState)
  | reply (response : Ticket) (result : Result Unit)
  deriving DecidableEq

/-- The locals of `connect_and_run`, and the flag `close` sets. -/
structure Sup where
  pc : Pc
  attempts : ℕ
  initialResponse : Option Ticket
  closeRequested : Bool
  deriving DecidableEq

def Sup.new : Sup := ⟨.recv, 0, none, false⟩

inductive SupEvent
  /-- `supervise` or the session loop receives `Connect` -/
  | connect (response : Ticket)
  /-- `supervise` or the session loop receives `Close` -/
  | close (response : Ticket)
  /-- every command sender is gone -/
  | hangup
  /-- the task runs to its next shared access or suspension -/
  | advance
  | token (result : Result Unit)
  | dial (result : Result Unit)
  | auth (result : Result Unit)
  | restored
  /-- the transport of the live session failed -/
  | disconnected
  | wake
  /-- `AsyncConnection::close` sets `close_requested` -/
  | requestClose
  deriving DecidableEq

/-- `i32::try_from(attempts - 1).unwrap_or(i32::MAX)`. -/
def backoffExponent (attempts : ℕ) : ℕ := min (attempts - 1) (2 ^ 31 - 1)

namespace Sup

/-- The initial caller, if it still waits, gets `result`. -/
def replyInitial (s : Sup) (result : Result Unit) : List Act :=
  match s.initialResponse with
  | some t => [.reply t result]
  | none => []

/-- `connect_and_run` returns to `supervise`; its locals are gone. -/
def leave (s : Sup) (acts : List Act) : Sup × List Act :=
  ({ s with pc := .recv, attempts := 0, initialResponse := none }, acts)

def goto (s : Sup) (pc : Pc) (acts : List Act) : Sup × List Act := ({ s with pc := pc }, acts)

/-- The arms of `connect_and_run` for a failed `open_session`. -/
def onOpenError (policy : ReconnectPolicy) (s : Sup) (error : FitzError) : Sup × List Act :=
  match error with
  | .versionMismatch code message =>
    s.leave (.publish .disconnected :: s.replyInitial (.error (.versionMismatch code message)))
  | error =>
    if error.isAuthFailure then
      s.leave (.publish .closed :: s.replyInitial (.error (.authentication error.display)))
    else if s.initialResponse.isSome || !policy.enabled then
      s.leave (.publish .disconnected :: s.replyInitial (.error (.connection error.display)))
    else s.goto .retrying []

/-- The tail of the loop: `attempts += 1` and `reconnect_delay`. -/
def onRetry (policy : ReconnectPolicy) (s : Sup) : Sup × List Act :=
  let attempts := s.attempts + 1
  if policy.maximumAttempts ≠ 0 ∧ attempts > policy.maximumAttempts then
    s.leave (.exhausted :: .publish .disconnected ::
      s.replyInitial (.error (.connection "reconnect attempts exhausted")))
  else
    ({ s with attempts := attempts, pc := .sleeping },
      [.publish .reconnecting, .sleep (backoffExponent attempts)])

/-- The stretches between two accesses to shared state. -/
def advance (policy : ReconnectPolicy) (s : Sup) : Sup × List Act :=
  match s.pc with
  | .starting => s.goto .checking [.publish .connecting]
  | .checking =>
    if s.closeRequested then s.leave [.publish .closed]
    else s.goto .token [.openSession s.initialResponse]
  | .opened => if s.closeRequested then s.leave [.publish .closed] else s.goto .restoring []
  | .failed error => s.onOpenError policy error
  | .ready => s.goto .announcing []
  | .announcing =>
    ({ s with pc := .entering, initialResponse := none },
      .publish .authenticated :: s.replyInitial (.ok ()))
  | .entering => s.goto .session []
  | .closing response => s.leave [.reply response (.ok ()), .publish .closed]
  | .lost => s.goto .retrying []
  | .retrying => s.onRetry policy
  | _ => (s, [])

/-- An awaited step of `open_session` completes. -/
def opening (s : Sup) (result : Result Unit) (pc : Pc) (acts : List Act) : Sup × List Act :=
  match result with
  | .ok () => s.goto pc acts
  | .error error => s.goto (.failed error) []

def step (policy : ReconnectPolicy) (s : Sup) (e : SupEvent) : Sup × List Act :=
  match s.pc, e with
  | _, .requestClose => ({ s with closeRequested := true }, [])
  | _, .advance => s.advance policy
  | .recv, .connect t =>
    ({ s with pc := .starting, attempts := 0, initialResponse := some t }, [.call t])
  | .recv, .close t => s.goto .done [.publish .closed, .reply t (.ok ())]
  | .recv, .hangup => s.goto .done []
  | .token, .token result => s.opening result .dialing [.publish .connecting]
  | .dialing, .dial result => s.opening result .handshake [.publish .authenticating]
  | .handshake, .auth result => s.opening result .opened []
  | .restoring, .restored => s.goto .ready []
  | .session, .connect t => (s, [.reply t (.ok ())])
  | .session, .close t => s.goto (.closing t) []
  | .session, .hangup => s.leave []
  | .session, .disconnected => s.goto .lost [.lost]
  | .sleeping, .wake => s.goto .checking []
  | _, _ => (s, [])

end Sup

/-- What was published last, after `acts`. -/
def published (state : ConnectionState) (acts : List Act) : ConnectionState :=
  acts.foldl (fun state a => match a with | .publish state' => state' | _ => state) state

/-- A supervisor with the history of its acts. -/
structure Supervised where
  sup : Sup
  /-- what the supervisor published last; `Client::connect` and `Client::close` write the
  same watch -/
  state : ConnectionState
  acts : List Act

def Supervised.new : Supervised := ⟨.new, .disconnected, []⟩

def Supervised.step (policy : ReconnectPolicy) (s : Supervised) (e : SupEvent) : Supervised :=
  let (sup, acts) := s.sup.step policy e
  ⟨sup, published s.state acts, s.acts ++ acts⟩

end Fitz
