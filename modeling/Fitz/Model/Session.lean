import Fitz.Model.Handshake

/-!
# The two session loops

`run_session` runs `run_io` over TCP and `run_websocket` over WebSocket
(`src/async_connection.rs`), two bodies with the same locals. `runIo` is one pass
of the first, through the handlers of `Loop`; `runWebSocket` is one pass of the
second, with its own copy of each branch and the heartbeat. `Session` and
`WebSocket` are the loops as machines: what they were fed, what they did, and how
they returned. The clock is taken to reach: `Instant::now()` plus a heartbeat interval
that it cannot hold panics, which is left out.
-/

namespace Fitz

/-! ## Inputs -/

/-- What a write to the transport comes to. A failed one is an `io::Error` over
TCP, and an error known by its text over WebSocket. -/
inductive Write
  | done
  | failed (io : IoError) (text : String)
  deriving DecidableEq

/-- What `write_tcp_frame` returns. -/
def Write.tcp : Write → Result Unit
  | .done => .ok ()
  | .failed io _ => .error (.fromIo io)

/-- What `writer.send(..).await.map_err(..)` returns. -/
def Write.webSocket : Write → Result Unit
  | .done => .ok ()
  | .failed _ text => .error (.transport text)

/-- What the `select!` of either loop can take up. -/
inductive Input
  | command (c : Command) (write : Write)
  /-- every sender of commands is gone -/
  | hangup
  | cancel (id : UInt64)
  /-- a whole frame; `write` is for the request it may promote -/
  | frame (bytes : Bytes) (write : Write)
  /-- the transport failed or ended -/
  | ended
  deriving DecidableEq

/-- The request an input takes from the channel. -/
def Input.request? : Input → Option Command
  | .command (.request id generation messageType flags payload t) _ =>
    some (.request id generation messageType flags payload t)
  | _ => none

/-! ## TCP -/

/-- One pass of `run_io`. -/
def runIo (sh : Shared) (l : Loop) : Input → Shared × Turn
  | .command c write => (sh, l.onCommand sh c write.tcp)
  | .hangup => (sh, l.onHangup)
  | .cancel id => (sh, l.onCancel id)
  | .frame bytes write =>
    match readTcpFrame bytes with
    | .ok frame => l.onFrame sh frame write.tcp
    | .error _ => (sh, l.onReadError)
  | .ended => (sh, l.onReadError)

/-! ## WebSocket -/

/-- Which interval the heartbeat was last set to. -/
inductive Interval
  | idle
  | timeout
  deriving DecidableEq

structure Heartbeat where
  awaitingPong : Bool
  interval : Interval
  deriving DecidableEq

/-- The peer is alive: no pong is awaited, and the idle interval starts again. -/
def Heartbeat.alive : Heartbeat := ⟨false, .idle⟩

/-- What `reader.next()` and the timer add to the inputs of the loop. Pings and
pongs are not frames of the protocol, and leave no effect. -/
inductive WsInput
  | io (input : Input)
  /-- a `Ping`, and what sending the `Pong` came to -/
  | ping (write : Write)
  | pong
  /-- a text, close or raw message -/
  | message
  /-- the timer fires; `write` is for the `Ping` -/
  | heartbeat (write : Write)
  deriving DecidableEq

namespace WebSocket

open Loop

/-- The request branch of `run_websocket`. -/
def onRequest (sh : Shared) (l : Loop) (beat : Heartbeat) (id generation : UInt64)
    (messageType : UInt16) (flags : UInt8) (payload : Bytes) (response : Ticket)
    (written : Result Unit) : Turn × Heartbeat :=
  if generation ≠ l.sessionGeneration then
    (l.next [.respond response (.error .connectionClosed)], beat)
  else
    let dropped := if id ∈ l.canceled then [Effect.release response] else []
    let response := if id ∈ l.canceled then none else some response
    let l := { l with canceled := l.canceled.erase id }
    if supervisorCorrelationEnabled sh then
      if l.correlated.entries.length ≥ sh.maxInFlight.toNat then
        (l.next (dropped ++
          refuse response (.backpressure "broker max in-flight limit reached")), beat)
      else
        match encodeOutbound sh messageType flags id payload with
        | .error error => (l.next (dropped ++ refuse response error), beat)
        | .ok frame =>
          let displaced := releaseOpt ((l.correlated.lookup id).bind (·.response))
          let l := { l with correlated := l.correlated.insert id ⟨id, response⟩ }
          match written with
          | .error _ => (l.finish (dropped ++ displaced ++ [.write frame]) .disconnected, beat)
          | .ok () => (l.next (dropped ++ displaced ++ [.write frame]), .alive)
    else if ((l.pending.lookup messageType).getD []) ≠ [] then
      ({ l with
        queued := l.queued.insert messageType
          ((l.queued.lookup messageType).getD [] ++ [QueuedRequest.mk id payload response]) }.next
        dropped, .alive)
    else
      let l := { l with
        pending := l.pending.insert messageType
          ((l.pending.lookup messageType).getD [] ++ [PendingRequest.mk id response]) }
      match tryEncodeMessageFrame messageType payload with
      | .error _ => (l.finish dropped .disconnected, beat)
      | .ok frame =>
        match written with
        | .error _ => (l.finish (dropped ++ [.write frame]) .disconnected, beat)
        | .ok () => (l.next (dropped ++ [.write frame]), .alive)

/-- The send branch of `run_websocket`. -/
def onSend (sh : Shared) (l : Loop) (id generation : UInt64) (messageType : UInt16)
    (payload : Bytes) (response : Ticket) (written : Result Unit) : Turn :=
  if generation ≠ l.sessionGeneration then
    l.next [.acknowledge response (.error .connectionClosed)]
  else
    match encodeOutbound sh messageType 0 (sendCorrelationId messageType payload id) payload with
    | .ok frame => l.next [.write frame, .acknowledge response written]
    | .error error => l.next [.acknowledge response (.error error)]

def onCommand (sh : Shared) (l : Loop) (beat : Heartbeat) (command : Command)
    (written : Result Unit) : Turn × Heartbeat :=
  match command with
  | .request id generation messageType flags payload response =>
    onRequest sh l beat id generation messageType flags payload response written
  | .send id generation messageType payload response =>
    (onSend sh l id generation messageType payload response written, beat)
  | .connect response => (l.next [.acknowledge response (.ok ())], beat)
  | .close response => (l.finish [.acknowledge response (.ok ())] .closed, beat)

/-- The loop over the records of a message; `effects` is what the earlier ones did. -/
def onRecords (l : Loop) (written : Result Unit) (effects : List Effect) :
    List IncomingRecord → Turn
  | [] => l.next effects
  | record :: records =>
    if record.correlationId ≠ 0 then
      match l.dispatchCorrelated record.correlationId record.payload record.responseFinal with
      | .error _ => l.finish effects .disconnected
      | .ok (l', answered) => onRecords l' written (effects ++ answered) records
    else
      match l.dispatch record.messageType record.payload with
      | (l', dispatched, false) => onRecords l' written (effects ++ dispatched) records
      | (l', dispatched, true) =>
        match (l'.queued.lookup record.messageType).getD [] with
        | [] => onRecords l' written (effects ++ dispatched) records
        | next :: rest =>
          let l'' := { l' with
            queued := l'.queued.insert record.messageType rest
            pending := l'.pending.insert record.messageType
              ((l'.pending.lookup record.messageType).getD [] ++
                [PendingRequest.mk next.id next.response]) }
          match tryEncodeMessageFrame record.messageType next.payload with
          | .error _ => l''.finish (effects ++ dispatched) .disconnected
          | .ok frame =>
            match written with
            | .error _ => l''.finish (effects ++ dispatched ++ [.write frame]) .disconnected
            | .ok () => onRecords l'' written (effects ++ dispatched ++ [.write frame]) records

/-- A binary message. -/
def onBinary (sh : Shared) (l : Loop) (beat : Heartbeat) (frame : Bytes) (written : Result Unit) :
    Shared × Turn × Heartbeat :=
  match decodeIncoming sh frame with
  | .ok (sh', records) => (sh', onRecords l written [] records, .alive)
  | .error _ => (sh, l.finish [] .disconnected, beat)

end WebSocket

/-- One pass of `run_websocket`. -/
def runWebSocket (heartbeatEnabled : Bool) (sh : Shared) (l : Loop) (beat : Heartbeat) :
    WsInput → Shared × Turn × Heartbeat
  | .io (.command c write) => (sh, WebSocket.onCommand sh l beat c write.webSocket)
  | .io .hangup => (sh, l.finish [] .closed, beat)
  | .io (.cancel id) =>
    match l.cancelAllPending id with
    | some (l', effects) => (sh, l'.next effects, beat)
    | none => (sh, { l with canceled := insert id l.canceled }.next [], beat)
  | .io (.frame bytes write) => WebSocket.onBinary sh l beat bytes write.webSocket
  | .io .ended => (sh, l.finish [] .disconnected, beat)
  | .ping .done => (sh, l.next [], { beat with interval := .idle })
  | .ping (.failed _ _) => (sh, l.finish [] .disconnected, beat)
  | .pong => (sh, l.next [], .alive)
  | .message => (sh, l.next [], { beat with interval := .idle })
  | .heartbeat write =>
    if heartbeatEnabled then
      if beat.awaitingPong ∨ write ≠ .done then (sh, l.finish [] .disconnected, beat)
      else (sh, l.next [], ⟨true, .timeout⟩)
    else (sh, l.next [], beat)

/-! ## The loops as machines -/

structure Session where
  shared : Shared
  loop : Loop
  result : Option SessionResult
  effects : List Effect
  /-- the requests taken from the channel -/
  taken : List Command

namespace Session

/-- The loop reads the generation and starts with empty maps. -/
def start (sh : Shared) : Session := ⟨sh, .new sh.generation, none, [], []⟩

/-- A pass was made, which took the request `taken`. -/
def pass (s : Session) (taken : Option Command) (sh : Shared) (t : Turn) : Session :=
  ⟨sh, t.loop, t.result, s.effects ++ t.effects, s.taken ++ taken.toList⟩

/-- `run_io`; once it has returned it takes no input. -/
def step (s : Session) (input : Input) : Session :=
  match s.result with
  | some _ => s
  | none =>
    let (sh, t) := runIo s.shared s.loop input
    s.pass input.request? sh t

end Session

structure WebSocket where
  session : Session
  beat : Heartbeat

namespace WebSocket

def start (sh : Shared) : WebSocket := ⟨.start sh, .alive⟩

/-- The request an input takes from the channel. -/
def request? : WsInput → Option Command
  | .io input => input.request?
  | _ => none

/-- `run_websocket`; once it has returned it takes no input. -/
def step (heartbeatEnabled : Bool) (s : WebSocket) (input : WsInput) : WebSocket :=
  match s.session.result with
  | some _ => s
  | none =>
    let (sh, t, beat) := runWebSocket heartbeatEnabled s.session.shared s.session.loop s.beat input
    ⟨s.session.pass (request? input) sh t, beat⟩

end WebSocket

end Fitz
