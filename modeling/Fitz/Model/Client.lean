import Fitz.Model.Supervisor
import Mathlib.Data.List.AList

/-!
# The client facade

`Client::connect`, `Client::close` (`src/lib.rs`) and the `connect` and `close`
of `AsyncConnection` they call, as calls that interleave with each other and
with the supervisor tasks. A call runs from one access to shared state (the
lifecycle watch, the connection slot, `close_requested`, the command channel) to
the next. A full channel delays the step that sends; requests and sends are left
out, they touch neither the watch nor the slot.
-/

namespace Fitz

/-- The commands the facade sends. -/
inductive Control
  | connect (response : Ticket)
  | close (response : Ticket)
  deriving DecidableEq

/-- `AsyncConnection::spawn`: a supervisor task and its command channel. -/
structure Spawned where
  sup : Sup
  commands : List Control
  deriving DecidableEq

/-- Where a call stands. -/
inductive CallPc
  /-- `Client::connect`: the state was read and is not `Closed` -/
  | entered
  /-- `Connecting` is written -/
  | announced
  /-- the connection was taken from the slot, or spawned into it -/
  | attached (connection : ℕ)
  /-- `AsyncConnection::connect` sends `Connect` -/
  | sending (connection : ℕ)
  /-- `AsyncConnection::connect` awaits the answer -/
  | waiting (connection : ℕ)
  /-- `Client::close` took the connection out of the slot -/
  | taken (connection : ℕ)
  /-- `AsyncConnection::close` sends `Close` -/
  | closeSending (connection : ℕ)
  /-- `AsyncConnection::close` awaits the answer -/
  | closeWaiting (connection : ℕ)
  /-- `Client::close` is about to write `Closed` -/
  | closed
  deriving DecidableEq

/-- A call of `Client::connect`. -/
def CallPc.connecting : CallPc → Bool
  | .entered | .announced | .attached _ | .sending _ | .waiting _ => true
  | _ => false

inductive Writer
  | facade
  | supervisor
  deriving DecidableEq

structure Client where
  state : ConnectionState
  slot : Option ℕ
  connections : List Spawned
  calls : AList (fun _ : Ticket => CallPc)
  nextTicket : Ticket
  answers : List (Ticket × Result Unit)
  /-- what finished `Client::connect` calls returned -/
  returned : List (Ticket × Result Unit)
  /-- the writes of the watch, oldest first -/
  writes : List (Writer × ConnectionState)
  /-- `Client::close` was called -/
  closeCalled : Bool

inductive ClientEvent
  /-- `Client::connect` is called -/
  | connect
  /-- `Client::close` is called -/
  | close
  /-- a call runs to its next access to shared state -/
  | resume (call : Ticket)
  /-- the timeout around a send or an answer fires -/
  | expire (call : Ticket)
  /-- the caller drops the call -/
  | abandon (call : Ticket)
  /-- a supervisor receives the next command -/
  | receive (connection : ℕ)
  /-- the last sender of a channel is dropped -/
  | hangup (connection : ℕ)
  /-- a supervisor task runs, or what it awaits completes -/
  | task (connection : ℕ) (event : SupEvent)
  deriving DecidableEq

namespace Client

def new : Client := ⟨.disconnected, none, [], ∅, 0, [], [], [], false⟩

def write (s : Client) (w : Writer) (state : ConnectionState) : Client :=
  { s with state := state, writes := s.writes ++ [(w, state)] }

def setCall (s : Client) (t : Ticket) (pc : CallPc) : Client :=
  { s with calls := s.calls.insert t pc }

/-- A `Client::connect` call returns. -/
def return_ (s : Client) (t : Ticket) (result : Result Unit) : Client :=
  { s with calls := s.calls.erase t, returned := s.returned ++ [(t, result)] }

def endCall (s : Client) (t : Ticket) : Client := { s with calls := s.calls.erase t }

/-- The supervisor task of connection `k` has returned; its channel is closed. -/
def ended (s : Client) (k : ℕ) : Bool :=
  match s.connections[k]? with
  | some c => c.sup.pc = .done
  | none => false

def send (s : Client) (k : ℕ) (command : Control) : Client :=
  { s with connections := s.connections.modify k fun c =>
      { c with commands := c.commands ++ [command] } }

/-- The sender for the answer to call `t` still exists. -/
def held (s : Client) (t : Ticket) : Bool :=
  s.connections.any fun c =>
    c.sup.initialResponse = some t ∨ c.sup.pc = .closing t ∨
      (c.sup.pc ≠ .done ∧ (.connect t ∈ c.commands ∨ .close t ∈ c.commands))

/-- `slot.get_or_insert_with(|| AsyncConnection::spawn(..))`. -/
def attach (s : Client) : Client × ℕ :=
  match s.slot with
  | some k => (s, k)
  | none =>
    ({ s with
        connections := s.connections ++ [⟨.new, []⟩]
        slot := some s.connections.length }, s.connections.length)

def closeRequested (s : Client) (k : ℕ) : Bool :=
  match s.connections[k]? with
  | some c => c.sup.closeRequested
  | none => false

/-- The acts of a supervisor reach the watch and the callers. -/
def observe (s : Client) (acts : List Act) : Client :=
  acts.foldl (fun s a => match a with
    | .publish state => s.write .supervisor state
    | .reply t r => { s with answers := s.answers ++ [(t, r)] }
    | _ => s) s

/-- The supervisor of connection `k` takes one step. -/
def runTask (policy : ReconnectPolicy) (s : Client) (k : ℕ) (e : SupEvent) : Client :=
  match s.connections[k]? with
  | none => s
  | some c =>
    { s with connections := s.connections.set k { c with sup := (c.sup.step policy e).1 } }.observe
      (c.sup.step policy e).2

/-- The supervisor is at `commands.recv()`, alone or in its session loop. -/
def receives : Pc → Bool
  | .recv | .session => true
  | _ => false

def receive (policy : ReconnectPolicy) (s : Client) (k : ℕ) : Client :=
  match s.connections[k]? with
  | none => s
  | some c =>
    match receives c.sup.pc, c.commands with
    | true, command :: commands =>
      { s with connections := s.connections.set k { c with commands := commands } }.runTask policy k
        (match command with
          | .connect t => .connect t
          | .close t => .close t)
    | _, _ => s

/-- The next step of the call `t`. -/
def resume (policy : ReconnectPolicy) (s : Client) (t : Ticket) : Client :=
  match s.calls.lookup t with
  | some .entered => (s.write .facade .connecting).setCall t .announced
  | some .announced => s.attach.1.setCall t (.attached s.attach.2)
  | some (.attached k) =>
    if s.closeRequested k then s.return_ t (.error .closed) else s.setCall t (.sending k)
  | some (.sending k) =>
    if s.ended k then s.return_ t (.error .closed)
    else (s.send k (.connect t)).setCall t (.waiting k)
  | some (.waiting _) =>
    match s.answers.find? (·.1 = t) with
    | some (_, result) => s.return_ t result
    | none => if s.held t then s else s.return_ t (.error .closed)
  | some (.taken k) =>
    if s.closeRequested k then s.setCall t .closed
    else (s.runTask policy k .requestClose).setCall t (.closeSending k)
  | some (.closeSending k) => (s.send k (.close t)).setCall t (.closeWaiting k)
  | some (.closeWaiting _) =>
    if s.answers.any (·.1 = t) ∨ ¬ s.held t then s.setCall t .closed else s
  | some .closed => (s.write .facade .closed).endCall t
  | none => s

/-- The timeouts of `AsyncConnection::connect` and `AsyncConnection::close`. -/
def expire (s : Client) (t : Ticket) : Client :=
  match s.calls.lookup t with
  | some (.sending _) | some (.waiting _) => s.return_ t (.error .timeout)
  | some (.closeSending _) | some (.closeWaiting _) => s.setCall t .closed
  | _ => s

/-- No call holds a clone of connection `k`. -/
def unheld (s : Client) (k : ℕ) : Bool :=
  s.calls.entries.all fun e => match e.2 with
    | .attached j | .sending j | .waiting j | .taken j | .closeSending j | .closeWaiting j => j ≠ k
    | _ => true

/-- Events of a supervisor that no command carries. -/
def internal : SupEvent → Bool
  | .connect _ | .close _ | .hangup | .requestClose => false
  | _ => true

def step (policy : ReconnectPolicy) (s : Client) : ClientEvent → Client
  | .connect =>
    let s := { s with nextTicket := s.nextTicket + 1 }
    if s.state = .closed then { s with returned := s.returned ++ [(s.nextTicket - 1, .error .closed)] }
    else s.setCall (s.nextTicket - 1) .entered
  | .close =>
    let s := { s with nextTicket := s.nextTicket + 1, closeCalled := true }
    match s.slot with
    | some k => { s with slot := none }.setCall (s.nextTicket - 1) (.taken k)
    | none => s.setCall (s.nextTicket - 1) .closed
  | .resume t => s.resume policy t
  | .expire t => s.expire t
  | .abandon t => s.endCall t
  | .receive k => s.receive policy k
  | .hangup k => if s.slot ≠ some k ∧ s.unheld k then s.runTask policy k .hangup else s
  | .task k e => if internal e then s.runTask policy k e else s

end Client

end Fitz
