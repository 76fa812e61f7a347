import Fitz.Model.Requests

/-!
# The requests of the handles

What `subscribe`, `unsubscribe` and `unsubscribe_all` of the Notice, Stream and Schedule
clients (`src/client_domains`) ask of the broker, as calls of `request`
(`src/async_connection.rs`). In `Domains` the result of a request is an input. Here a call
that goes on to its request allocates an id in the same step, it returns what the
connection answered this request with, and a call that fails or is dropped gives its
request up. The rest of a request (its stamp, the channel, the session loop, its
cancellation) is left to the steps of the connection, as are the requests of KV, Queue
and Lease, which have no map.

`parted` is history that no step reads: who had a handle when an UNSUBSCRIBE was written.
-/

namespace Fitz

/-! ## What is under way -/

/-- A transport is up, and what the program writes goes to it. -/
def Pc.connected : Pc → Bool
  | .restoring | .ready | .announcing | .entering | .session => true
  | _ => false

namespace Conn

/-- The frames that the broker has yet to answer. -/
def awaited (s : Conn) : List Sent := if s.pc.connected then s.unanswered else []

/-- The call has yet to send its command, or the command is in the channel. -/
def pending (s : Conn) (t : Ticket) : Bool :=
  ((s.calls.lookup t).any fun call => call.stage ≠ .waiting) ||
    s.commands.any fun c => c.ticket? = some t

/-- The cells of the registrations that a restore has yet to send, or whose SUBSCRIBE is
not answered. -/
def restores (s : Conn) : List Cell :=
  s.todo.map (·.wireId) ++ s.awaited.filterMap (·.origin.cell?)

/-- What the origin stands for is yet to be written, or to be answered. -/
def underWay (s : Conn) : Origin → Bool
  | .request t => s.pending t || s.awaited.any fun f => f.origin = .request t
  | .restore cell => cell ∈ s.restores
  | _ => false

/-- The payload that a request was answered with. -/
def response (s : Conn) (t : Ticket) : Option Bytes :=
  match s.answers.find? (·.1 = t) with
  | some (_, some (.ok payload)) => some payload
  | _ => none

/-- The calls whose frames the event writes. -/
def callsWritten (cfg : Config) (s : Conn) (e : Event) : List Ticket :=
  ((s.step cfg e).log.drop s.log.length).filterMap Obs.wrote?

end Conn

/-! ## State -/

/-- What a call that has the mutex asks of the broker. -/
inductive Ask
  | subscribe
  | unsubscribe
  | unsubscribeAll
  deriving DecidableEq

/-- A request, with the party that made it. -/
structure Asking where
  ticket : Ticket
  party : ℕ
  ask : Ask
  topic : Topic
  pattern : String
  deriving DecidableEq

/-- An UNSUBSCRIBE was written. -/
structure Parting where
  asking : Asking
  /-- the live handles of its domain for the pattern, but that of its own party -/
  rivals : List ℕ
  deriving DecidableEq

structure Feeds where
  domains : Domains
  /-- the newest first -/
  asked : List Asking
  parted : List Parting

/-- The request that the call with the mutex goes on to, if it makes one. -/
def Domains.asks (s : Domains) (j : ℕ) : Option (Ask × Party × UInt16 × Bytes) :=
  match s.entering j with
  | some party =>
    match party.stage, s.entry party.client party.pattern with
    | .joining, none =>
      some (.subscribe, party, party.topic.subscribeType, putString party.pattern)
    | .leaving r, some shared =>
      if shared.references > 1 then none
      else some (.unsubscribe, party, s.unsubscribeRequest party r)
    | .clearing, _ => some (.unsubscribeAll, party, MessageType.noticeUnsubscribeAll, [])
    | _, _ => none
  | none => none

namespace Feeds

variable (cfg : Config)

def new : Feeds := ⟨.new cfg, [], []⟩

def conn (s : Feeds) : Conn := s.domains.conn

/-- The request of the party's call. -/
def ticket (s : Feeds) (j : ℕ) : Option Ticket := (s.asked.find? (·.party = j)).map (·.ticket)

/-- The live handles of the domain for the pattern, but that of the asking party. -/
def rivals (s : Feeds) (a : Asking) : List ℕ :=
  s.domains.livePeers a.party fun other => other.topic = a.topic ∧ other.pattern = a.pattern

/-! ## Steps -/

/-- The UNSUBSCRIBEs among the frames of the calls. -/
def partings (s : Feeds) (calls : List Ticket) : List Parting :=
  calls.flatMap fun t =>
    (s.asked.filter fun a => a.ticket = t && a.ask = .unsubscribe).map fun a => ⟨a, s.rivals a⟩

def connStep (s : Feeds) (e : Event) : Feeds :=
  { s with
    domains := s.domains.step cfg (.conn e)
    parted := s.parted ++ s.partings (s.conn.callsWritten cfg e) }

/-- A step of the handles. -/
def turn (s : Feeds) (e : DomainsEvent) : Feeds := { s with domains := s.domains.step cfg e }

/-- `request` up to its id. -/
def request (s : Feeds) (j : ℕ) (ask : Ask) (party : Party) (messageType : UInt16)
    (payload : Bytes) : Feeds :=
  { s.connStep cfg (.allocate (.request 0) messageType payload) with
    asked := ⟨s.conn.nextTicket, j, ask, party.topic, party.pattern⟩ :: s.asked }

def enter (s : Feeds) (j : ℕ) : Feeds :=
  match s.domains.asks j with
  | some (ask, party, messageType, payload) =>
    (s.turn cfg (.enter j)).request cfg j ask party messageType payload
  | none => s.turn cfg (.enter j)

/-- The future of a request ends, with its result or without. -/
def giveUp (s : Feeds) (t : Ticket) : Feeds := (s.connStep cfg (.resume t)).connStep cfg (.abandon t)

def answer (s : Feeds) (j : ℕ) (result : Result Bytes) : Feeds :=
  match s.domains.parties[j]? with
  | some party =>
    if party.topic.shared then
      match s.ticket j, result with
      | some t, .ok payload =>
        if s.conn.response t = some payload then
          (s.turn cfg (.answer j result)).connStep cfg (.resume t)
        else s
      | some t, .error _ => (s.turn cfg (.answer j result)).giveUp cfg t
      | none, _ => s
    else s.turn cfg (.answer j result)
  | none => s

def abandon (s : Feeds) (j : ℕ) : Feeds :=
  match s.ticket j with
  | some t => (s.turn cfg (.abandon j)).connStep cfg (.abandon t)
  | none => s.turn cfg (.abandon j)

def step (s : Feeds) : DomainsEvent → Feeds
  | .conn e => s.connStep cfg e
  | .enter j => s.enter cfg j
  | .answer j result => s.answer cfg j result
  | .abandon j => s.abandon cfg j
  | e => s.turn cfg e

/-! ## What the broker sees -/

/-- The origin is a SUBSCRIBE for the pattern: that of a call, or of a restore. -/
def subscribes (s : Feeds) (topic : Topic) (pattern : String) : Origin → Bool
  | .request t => s.asked.any fun a =>
    a.ticket = t && a.ask = .subscribe && a.topic = topic && a.pattern = pattern
  | .restore cell => s.domains.registrations.any fun registration =>
    registration.wireId = cell && registration.topic = topic && registration.pattern = pattern
  | _ => false

/-- The SUBSCRIBEs of a pattern that were written and are not answered. -/
def outstanding (s : Feeds) (topic : Topic) (pattern : String) : ℕ :=
  s.conn.awaited.countP fun f => s.subscribes topic pattern f.origin

/-- The requests that were made, and the SUBSCRIBEs a restore makes. -/
def origins (s : Feeds) : List Origin :=
  s.asked.map (fun a => .request a.ticket) ++ s.domains.registrations.map (.restore ·.wireId)

/-- A SUBSCRIBE for the pattern is yet to be written, or to be answered. -/
def subscribing (s : Feeds) (topic : Topic) (pattern : String) : Bool :=
  s.origins.any fun origin => s.conn.underWay origin && s.subscribes topic pattern origin

/-- An UNSUBSCRIBE for the pattern is yet to be written. -/
def unsubscribing (s : Feeds) (topic : Topic) (pattern : String) : Bool :=
  s.asked.any fun a =>
    a.ask = .unsubscribe && a.topic = topic && a.pattern = pattern && s.conn.pending a.ticket

end Feeds

end Fitz
