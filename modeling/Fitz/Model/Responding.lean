import Fitz.Model.Renewal

/-!
# The responses to one request

`respond` and `finish` of an `RpcRequest` (`src/client_domains/rpc/worker.rs`), which a
worker calls one at a time: `respond` borrows the request and `finish` consumes it.
Each sends at most one RPC_RESPONSE, by `AsyncConnection::send`, whose command stays in
the channel when the call gives up.

`responses`, `acked` and `written` are history no step reads.
-/

namespace Fitz

namespace MessageType

def rpcResponse : UInt16 := 303
def rpcCancel : UInt16 := 304

end MessageType

/-- The `send` whose frame the transport takes in the step. -/
def Conn.transmitted (s : Conn) : Event → Option Ticket
  | .command (.ok ()) =>
    match s.pc, s.commands with
    | .session, .send id generation messageType payload t :: _ =>
      match (s.loop.onSend s.shared id generation messageType payload t (.ok ())).effects with
      | .write _ :: _ => some t
      | _ => none
    | _, _ => none
  | _ => none

/-- A response that was sent, or at least tried. -/
structure Response where
  ticket : Ticket
  sequence : UInt64
  isEnd : Bool
  deriving DecidableEq

inductive RespondingStage
  | idle
  /-- awaits `send`; `finish` has the request for itself -/
  | sending (response : Response) (consumed : Bool)
  | dropped
  deriving DecidableEq

structure Responding where
  conn : Conn
  correlationId : Bytes
  generation : UInt64
  nextSequence : UInt64
  finished : Bool
  stage : RespondingStage
  /-- what `send` was called for -/
  responses : List Response
  /-- what `send` succeeded for -/
  acked : List Response
  /-- what the transport took -/
  written : List Response

inductive RespondingEvent
  /-- any other step over the connection -/
  | conn (e : Event)
  | respond (body : Bytes) (isEnd : Bool)
  | finish
  /-- `send` returns: what its `oneshot` holds, or else this error -/
  | returned (error : FitzError)
  /-- the future of the call is dropped -/
  | cancelled
  | drop

namespace Responding

variable (cfg : Config)

/-- `decode_request`, for a frame received in this generation. -/
def start (conn : Conn) (correlationId : Bytes) (generation : UInt64) : Responding :=
  ⟨conn, correlationId, generation, 0, false, .idle, [], [], []⟩

def payload (s : Responding) (body : Bytes) (isEnd : Bool) : Bytes :=
  s.correlationId ++ putU64 s.nextSequence ++ putU8 (if isEnd then 1 else 0) ++ putBytes body

/-- `respond`; `finish` goes through it. -/
def respond (s : Responding) (body : Bytes) (isEnd consumed : Bool) : Responding :=
  if s.finished ∨ s.conn.shared.generation ≠ s.generation then
    { s with stage := if consumed then .dropped else .idle }
  else
    let response : Response := ⟨s.conn.nextTicket, s.nextSequence, isEnd⟩
    { s with
      conn := s.conn.step cfg (.allocate .send MessageType.rpcResponse (s.payload body isEnd))
      stage := .sending response consumed
      responses := s.responses ++ [response] }

/-- `send` returned. -/
def conclude (s : Responding) (response : Response) (consumed : Bool) (answer : Result Bytes) :
    Responding :=
  let s' := { s with stage := if consumed then .dropped else .idle }
  match answer with
  | .ok _ =>
    { s' with
      nextSequence := s.nextSequence + 1
      finished := response.isEnd
      acked := s.acked ++ [response] }
  | .error _ => s'

/-- The worker ends its call itself. -/
def permits (s : Responding) : Event → Bool
  | .resume t | .abandon t =>
    match s.stage with
    | .sending response _ => t ≠ response.ticket
    | _ => true
  | _ => true

/-- A step of the connection, which may write a response. -/
def connStep (s : Responding) (e : Event) : Responding :=
  { s with
    conn := s.conn.step cfg e
    written := s.written ++
      s.responses.filter fun response => s.conn.transmitted e = some response.ticket }

def step (s : Responding) : RespondingEvent → Responding
  | .conn e => if s.permits e then s.connStep cfg e else s
  | .respond body isEnd =>
    match s.stage with
    | .idle => s.respond cfg body isEnd false
    | _ => s
  | .finish =>
    match s.stage with
    | .idle => if s.finished then { s with stage := .dropped } else s.respond cfg [] true true
    | _ => s
  | .returned error =>
    match s.stage with
    | .sending response consumed =>
      conclude { s with conn := s.conn.returnCall cfg response.ticket } response consumed
        ((s.conn.settled response.ticket).getD (.error error))
    | _ => s
  | .cancelled =>
    match s.stage with
    | .sending response consumed =>
      { s with
        conn := s.conn.step cfg (.abandon response.ticket)
        stage := if consumed then .dropped else .idle }
    | _ => s
  | .drop =>
    match s.stage with
    | .idle => { s with stage := .dropped }
    | _ => s

end Responding

end Fitz
