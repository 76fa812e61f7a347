import Fitz.Model.Loop
import Fitz.Lib.Machine

/-!
# The TCP session loop, byte by byte

`run_io` (`src/async_connection.rs`) with its read branch spelled out. Each pass
of the `select!` loop creates a fresh `read_tcp_frame` future; polling it moves
the bytes that have arrived into it; the branch that completes first wins the
pass and the futures of the others are dropped, with the bytes they hold.
Branches are polled in any order and any number of times within a pass, so a
poll of the reader, a command and a cancellation are separate events. The connection
around the loop is `Fitz.Model.Link`.
-/

namespace Fitz

open BigEndian

/-- `write_tcp_frame`: what one frame looks like on the wire. -/
def writeTcpFrame (frame : Bytes) : Bytes := toBe 4 frame.length ++ frame

/-- A suspended `read_tcp_frame`: in `read_u32`, or in `read_exact` of a body of
`len` bytes, with the bytes already taken from the socket. -/
inductive ReadFuture
  | readU32 (got : Bytes)
  | readExact (len : ℕ) (got : Bytes)
  deriving DecidableEq

def ReadFuture.new : ReadFuture := .readU32 []

/-- The bytes a suspended reader has taken off the stream. -/
def ReadFuture.held : ReadFuture → Bytes
  | .readU32 got => got
  | .readExact len got => toBe 4 len ++ got

inductive Polled
  | pending (future : ReadFuture)
  | ready (result : Result Bytes)

/-- The error `tokio` gives when the peer closes inside a read. -/
def earlyEof : FitzError := .transport "early eof"

/-- A poll of `read_exact` with `avail` in the socket: the outcome, and what is
left in the socket. -/
def pollReadExact (len : ℕ) (got avail : Bytes) (eof : Bool) : Polled × Bytes :=
  let need := len - got.length
  if need ≤ avail.length then (.ready (.ok (got ++ avail.take need)), avail.drop need)
  else if eof then (.ready (.error earlyEof), [])
  else (.pending (.readExact len (got ++ avail)), [])

/-- A poll of `read_tcp_frame`. A completed length prefix is checked and the body
is read on within the same poll. -/
def ReadFuture.poll (future : ReadFuture) (avail : Bytes) (eof : Bool) : Polled × Bytes :=
  match future with
  | .readU32 got =>
    let need := 4 - got.length
    if need ≤ avail.length then
      let len := fromBe (got ++ avail.take need)
      if frameHeaderLen ≤ len ∧ len ≤ maxMessageSize then
        pollReadExact len [] (avail.drop need) eof
      else (.ready (.error (.frameTooLarge len)), avail.drop need)
    else if eof then (.ready (.error earlyEof), [])
    else (.pending (.readU32 (got ++ avail)), [])
  | .readExact len got => pollReadExact len got avail eof

/-- `run_io` at a suspension point. `socket` holds the bytes that have arrived
and are unread, `decoded` the frames passed to `decode_incoming` so far. -/
structure RunIo where
  shared : Shared
  loop : Loop
  future : ReadFuture
  socket : Bytes
  eof : Bool
  decoded : List Bytes
  effects : List Effect
  ended : Option SessionResult

def RunIo.new (shared : Shared) : RunIo :=
  ⟨shared, .new shared.generation, .new, [], false, [], [], none⟩

inductive IoEvent
  | arrive (chunk : Bytes)
  | eof
  | pollRead (written : Result Unit)
  | command (command : Command) (written : Result Unit)
  | hangup
  | cancel (id : UInt64)

namespace RunIo

/-- A branch won the pass: its turn is applied and the next pass starts with a
fresh reader. -/
def finishPass (s : RunIo) (turn : Turn) : RunIo :=
  { s with
    loop := turn.loop
    effects := s.effects ++ turn.effects
    ended := turn.result
    future := .new }

/-- The read branch is polled; if it completes, the frame is decoded. -/
def pollRead (s : RunIo) (written : Result Unit) : RunIo :=
  match s.future.poll s.socket s.eof with
  | (.pending future, rest) => { s with future := future, socket := rest }
  | (.ready (.error _), rest) => { s with socket := rest }.finishPass s.loop.onReadError
  | (.ready (.ok frame), rest) =>
    let (shared, turn) := s.loop.onFrame s.shared frame written
    { s with
      shared := shared
      socket := rest
      decoded := s.decoded ++ [frame] }.finishPass turn

def step (s : RunIo) (e : IoEvent) : RunIo :=
  if s.ended.isSome then s
  else
    match e with
    | .arrive chunk => { s with socket := s.socket ++ chunk }
    | .eof => { s with eof := true }
    | .pollRead written => s.pollRead written
    | .command command written => s.finishPass (s.loop.onCommand s.shared command written)
    | .hangup => s.finishPass s.loop.onHangup
    | .cancel id => s.finishPass (s.loop.onCancel id)

end RunIo

/-- The bytes an event takes off the peer's stream. -/
def IoEvent.arrived : IoEvent → Bytes
  | .arrive chunk => chunk
  | _ => []

/-- All bytes that arrive in the course of the events. -/
def arrivals (es : List IoEvent) : Bytes := es.flatMap IoEvent.arrived

end Fitz
