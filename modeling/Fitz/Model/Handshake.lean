import Fitz.Model.Connection

/-!
# The handshake on two transports

`settle_authentication` has one match tree for TCP and one for WebSocket
(`src/async_connection.rs`), and what a TCP read fails with goes through the
conversion of `src/error.rs`. The TCP tree is `settleAuthentication` on what the
read returned; the WebSocket tree is a loop over messages. `Answer` is what the
broker does, seen at the level of frames, and `tcpRead` and `webSocketEvent` are
what each transport makes of it. Left out is the panic of `Instant::now() + timeout`
where the clock cannot hold the sum.
-/

namespace Fitz

/-! ## Transports -/

/-- The kinds of `io::Error` the conversion tells apart, and the two a peer that
goes away causes. -/
inductive ErrorKind
  | timedOut
  | unexpectedEof
  | connectionReset
  | other
  deriving DecidableEq

structure IoError where
  kind : ErrorKind
  text : String
  deriving DecidableEq

/-- `From<io::Error> for FitzError`. -/
def FitzError.fromIo (error : IoError) : FitzError :=
  if error.kind = .timedOut then .timeout else .transport error.text

/-- What the broker does during the handshake. -/
inductive Answer
  /-- it delivers one whole frame -/
  | frame (bytes : Bytes)
  /-- it closes the connection before a whole frame -/
  | close
  /-- the connection fails before a whole frame -/
  | reset (error : IoError)
  /-- nothing comes before the timeout -/
  | silence
  deriving DecidableEq

/-- `read_tcp_frame` on a frame of the broker behind its length. -/
def readTcpFrame (bytes : Bytes) : Result Bytes :=
  if frameHeaderLen ≤ bytes.length ∧ bytes.length ≤ maxMessageSize then .ok bytes
  else .error (.frameTooLarge bytes.length)

/-- What the read of the TCP handshake ends with. At the end of the stream
`read_u32` and `read_exact` fail with `UnexpectedEof`. -/
def tcpRead : Answer → Result Bytes
  | .frame bytes => readTcpFrame bytes
  | .close => .error (.fromIo ⟨.unexpectedEof, "early eof"⟩)
  | .reset error => .error (.fromIo error)
  | .silence => .error .timeout

def settleTcp (sh : Shared) (answer : Answer) : Result Shared := settleAuthentication sh (tcpRead answer)

/-! ## WebSocket -/

/-- What the WebSocket stream yields. -/
inductive WsEvent
  /-- a `Ping`, and what sending the `Pong` returned -/
  | ping (sent : Except String Unit)
  | pong
  | binary (frame : Bytes)
  /-- a text, close or raw message -/
  | message
  | failed (error : String)
  /-- the stream is over -/
  | ended
  /-- the deadline passed -/
  | expired
  deriving DecidableEq

/-- The loop of the WebSocket tree; `none` while it waits for more. -/
def settleWebSocket (sh : Shared) : List WsEvent → Option (Result Shared)
  | [] => none
  | .ping (.ok ()) :: events | .pong :: events => settleWebSocket sh events
  | .ping (.error error) :: _ => some (.error (.transport error))
  | .binary frame :: _ => some (do
      let header ← decodeFrameHeader frame
      processAuthFrame sh header (frame.drop header.payloadStart))
  | .message :: _ | .ended :: _ =>
    some (.error (.authentication "broker closed the connection during authentication"))
  | .failed error :: _ => some (.error (.authentication error))
  | .expired :: _ => some (.error .timeout)

/-- What the stream yields for an answer. A frame is one binary message, unless it
is more than the library takes (`accepts`); a close comes as a close message and
the end of the stream, or as an error if the peer skips the closing handshake. -/
def webSocketEvent (accepts : Bytes → Bool) (handshaken : Bool) : Answer → WsEvent
  | .frame bytes => if accepts bytes then .binary bytes else .failed "Space limit exceeded"
  | .close => if handshaken then .message else .failed "Connection reset without closing handshake"
  | .reset error => .failed error.text
  | .silence => .expired

/-! ## Outcomes -/

/-- The class of a result. -/
inductive HandshakeClass
  | success
  | versionMismatch
  | failure (kind : FitzErrorKind)
  deriving DecidableEq

def handshakeClass : Result Shared → HandshakeClass
  | .ok _ => .success
  | .error (.versionMismatch _ _) => .versionMismatch
  | .error error => .failure error.kind

/-- What `connect_and_run` does with a result: where it goes on, and the state it
publishes on the way. -/
def handshakeDecision (policy : ReconnectPolicy) (s : Sup) (result : Result Shared) :
    Pc × ConnectionState :=
  let settled := (s.step policy (.auth (result.map fun _ => ()))).1
  let (next, acts) := settled.step policy .advance
  (next.pc, published .authenticating acts)

end Fitz
