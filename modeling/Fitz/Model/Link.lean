import Fitz.Model.Connection
import Fitz.Model.Reader

/-!
# The connection over its transport

A `Conn` with the bytes of its live transport. Over TCP the handshake, the restore phase and
the session loop each read by `read_tcp_frame` (`Fitz.Model.Reader`): `run_io` drops the read
future when a command or a cancellation wins a pass, and `round_trip_session` when its timeout
expires, with the bytes the future holds. A WebSocket stream keeps a message that has arrived
in part, so `next` may be dropped.

What the broker writes goes on the way (`transit`), arrives in any chunks (`socket`) and is
taken by polls of the reader. A read that completes is the event `Conn` knows as a frame; it
answers what the broker answered where it wrote the bytes with which the read began. A read
that began inside of what the broker wrote in one piece answers nothing. `frames`, `written`
and `cuts` are history.
-/

namespace Fitz

inductive Transport
  | tcp
  | webSocket
  deriving DecidableEq

/-- What the broker writes in one piece, and the frame of the client it answers with that. -/
structure Reply where
  bytes : Bytes
  answers : Option Sent
  deriving DecidableEq

/-- The frame in it. -/
def Reply.frame (reply : Reply) : Transport → Bytes
  | .tcp => reply.bytes.drop 4
  | .webSocket => reply.bytes

/-- What dropped a read that had taken bytes. -/
inductive Interrupter
  | command
  | cancellation (cause : Ticket)
  | timeout
  deriving DecidableEq

structure Link where
  transport : Transport
  conn : Conn
  future : ReadFuture
  /-- what has arrived and is unread -/
  socket : Bytes
  eof : Bool
  /-- what is on the way -/
  transit : Bytes
  /-- what the broker wrote, from the piece on in which the running read began -/
  replies : List Reply
  /-- how far into that piece it began -/
  into : ℕ
  /-- what was read from the live transport, and what the broker wrote on it -/
  frames : List Bytes
  written : List Reply
  /-- what dropped a read of the live transport that had taken bytes -/
  cuts : List Interrupter

inductive LinkEvent
  /-- any step of the connection but a read -/
  | conn (e : Event)
  | write (reply : Reply)
  | arrive (n : ℕ)
  /-- the broker closes its end -/
  | eof
  /-- the read is polled; `written` is for the frames that the loop then writes -/
  | poll (written : Result Unit)
  /-- the read fails, its timeout expires, or the heartbeat of `run_websocket` does -/
  | fail (error : FitzError)

namespace Link

variable (cfg : Config)

/-- A link with no bytes, on a new transport. -/
def fresh (transport : Transport) (conn : Conn) : Link where
  transport := transport
  conn := conn
  future := .new
  socket := []
  eof := false
  transit := []
  replies := []
  into := 0
  frames := []
  written := []
  cuts := []

def new (transport : Transport) : Link := fresh transport (.new cfg)

/-! ## Reading -/

/-- A read runs: in `settle_authentication`, a round trip or the session loop. -/
def reading (s : Link) : Bool :=
  match s.conn.pc with
  | .handshake | .session => true
  | .restoring => s.conn.current.isSome
  | _ => false

/-- A poll of the read: its outcome, and what is left in the socket. -/
def read (s : Link) : Polled × Bytes :=
  match s.transport with
  | .tcp => s.future.poll s.socket s.eof
  | .webSocket =>
    match s.replies with
    | reply :: _ =>
      if reply.bytes.length ≤ s.socket.length then
        (.ready (.ok reply.bytes), s.socket.drop reply.bytes.length)
      else if s.eof then (.ready (.error .connectionClosed), [])
      else (.pending s.future, s.socket)
    | [] =>
      if s.eof then (.ready (.error .connectionClosed), []) else (.pending s.future, s.socket)

/-- The frame that the running read answers, among those that are unanswered. -/
def answered (s : Link) : Option ℕ :=
  if s.into = 0 then
    (s.replies.head?.bind (·.answers)).bind fun f => s.conn.unanswered.idxOf? f
  else none

/-- What `Conn` sees of a read that completes. -/
def completes (s : Link) (result : Result Bytes) (written : Result Unit) : Option Event :=
  match s.conn.pc, result with
  | .handshake, answer => some (.auth answer)
  | .restoring, .ok frame => some (.restoreRead frame s.answered)
  | .restoring, .error _ => some .restoreFail
  | .session, .ok frame => some (.inbound frame s.answered written)
  | .session, .error _ => some .readError
  | _, _ => none

/-- The pieces from `n` bytes on, and how far into the first of them that is. -/
def skip : List Reply → ℕ → List Reply × ℕ
  | [], n => ([], n)
  | reply :: replies, n =>
    if reply.bytes.length ≤ n then skip replies (n - reply.bytes.length)
    else (reply :: replies, n)

/-- A TCP read is over, with `n` bytes taken; the next one begins behind them. -/
def pass (s : Link) (n : ℕ) : Link :=
  let (replies, into) := skip s.replies (s.into + n)
  { s with future := .new, replies := replies, into := into }

/-- The read future is dropped. -/
def interrupt (s : Link) (who : Interrupter) : Link :=
  if s.future = .new then s
  else { s.pass s.future.held.length with cuts := s.cuts ++ [who] }

/-- The read completes, and leaves `rest` in the socket. -/
def complete (s : Link) (result : Result Bytes) (rest : Bytes) : Link :=
  match s.transport, result with
  | .tcp, result =>
    { s.pass (s.future.held.length + (s.socket.length - rest.length)) with
      socket := rest
      frames := s.frames ++ result.toOption.toList }
  | .webSocket, .ok frame =>
    { s with socket := rest, replies := s.replies.tail, frames := s.frames ++ [frame] }
  | .webSocket, .error _ => { s with socket := rest }

/-! ## Steps -/

/-- The event is a read of the transport. -/
def isRead : Event → Bool
  | .auth _ | .restoreRead .. | .restoreFail | .inbound .. | .readError => true
  | _ => false

/-- What the connection sees of an event. -/
def event (s : Link) : LinkEvent → Option Event
  | .conn e => if isRead e then none else some e
  | .poll written =>
    if s.reading then
      match s.read with
      | (.pending _, _) => none
      | (.ready result, _) => s.completes result written
    else none
  | .fail error => if s.reading then s.completes (.error error) (.ok ()) else none
  | .write _ | .arrive _ | .eof => none

/-- What an event does to the bytes. -/
def carry (s : Link) : LinkEvent → Link
  | .conn (.dial (.ok ())) => if s.conn.pc = .dialing then fresh s.transport s.conn else s
  | .conn (.command _) =>
    match s.conn.pc, s.conn.commands with
    | .session, _ :: _ => s.interrupt .command
    | _, _ => s
  | .conn .cancel =>
    match s.conn.pc, s.conn.cancellations with
    | .session, (_, cause) :: _ => s.interrupt (.cancellation cause)
    | _, _ => s
  | .conn _ => s
  | .write reply =>
    { s with
      transit := s.transit ++ reply.bytes
      replies := s.replies ++ [reply]
      written := s.written ++ [reply] }
  | .arrive n =>
    if s.eof then s
    else { s with socket := s.socket ++ s.transit.take n, transit := s.transit.drop n }
  | .eof => { s with eof := true }
  | .poll _ =>
    if s.reading then
      match s.read with
      | (.pending future, rest) => { s with future := future, socket := rest }
      | (.ready result, rest) => s.complete result rest
    else s
  -- outside the restore phase the transport goes with its read
  | .fail _ =>
    match s.conn.pc with
    | .restoring => if s.reading then s.interrupt .timeout else s
    | _ => s

def step (s : Link) (e : LinkEvent) : Link :=
  { s.carry e with conn := ((s.event e).map (s.conn.step cfg)).getD s.conn }

end Link

end Fitz
