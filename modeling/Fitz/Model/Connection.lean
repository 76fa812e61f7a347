import Fitz.Model.Supervisor
import Mathlib.Logic.Function.Basic

/-!
# The connection

An `AsyncConnection` with its supervisor task (`src/async_connection.rs`): the
callers of `request_with_flags` and `send`, step by step, the command and
cancellation channels, the registrations, the handshake, the restore phase and
the session loop. One event is one step of one party.

Besides what the program keeps, a state holds history no step of the program
reads: how many transports were opened (`serial`) and ids restarted (`epoch`),
when each id was allocated, which frames of the live transport the broker has
not answered, and a log. An inbound frame names the frame it answers, if any, and
is whole: the bytes on the way, and what a `select!` drops of them, are those of
`Fitz.Model.Link`.
-/

namespace Fitz

/-! ## The handshake -/

def decodeRejected (payload : Bytes) : Result (UInt16 × String) :=
  Decode.on (do
    let code ← getU16
    let message ← getString
    if !(← isEmpty) then throw (.protocol "CONNECT_REJECTED has trailing bytes")
    return (code, message)) payload

def processAuthFrame (sh : Shared) (header : FrameHeader) (payload : Bytes) : Result Shared := do
  let (payload, capabilityMask) ← Wire3.decode payload header.messageType header.flags
  if header.flags &&& ~~~extensionsPresent ≠ 0 ∨ header.correlationId ≠ 0 then
    throw (.protocol "authentication control frame has nonzero flags or correlation")
  if header.messageType = MessageType.hello then applyServerHello sh payload capabilityMask
  else if header.messageType = MessageType.connectRejected then
    let (code, message) ← decodeRejected payload
    if code = 50 then throw (.versionMismatch code message)
    else throw (.authentication (toString code ++ ": " ++ message))
  else throw (.protocol "broker sent an unexpected authentication response")

/-- `settle_authentication` on what the transport read. -/
def settleAuthentication (sh : Shared) (answer : Result Bytes) : Result Shared :=
  match answer with
  | .error .connectionClosed =>
    .error (.authentication "broker closed the connection during authentication")
  | .error error => .error error
  | .ok frame => do
    let header ← decodeFrameHeader frame
    processAuthFrame sh header (frame.drop header.payloadStart)

/-- The HELLO a handshake frame carries. -/
def advertised (frame : Bytes) : Result Hello := do
  let header ← decodeFrameHeader frame
  let (payload, _) ←
    Wire3.decode (frame.drop header.payloadStart) header.messageType header.flags
  decodeHello payload

/-! ## State -/

/-- The address of an `Arc<AtomicU64>`. -/
abbrev Cell := ℕ

structure Registration where
  messageType : UInt16
  payload : Bytes
  wireId : Cell
  decoder : Bytes → Result UInt64

/-- What wrote a frame. -/
inductive Origin
  | restore (registration : Cell)
  | request (t : Ticket)
  | send (t : Ticket)
  /-- a request promoted from a queue -/
  | queued
  deriving DecidableEq

def Origin.ticket? : Origin → Option Ticket
  | .request t | .send t => some t
  | _ => none

def Origin.cell? : Origin → Option Cell
  | .restore cell => some cell
  | _ => none

/-- A frame the broker has not answered. -/
structure Sent where
  correlationId : UInt64
  messageType : UInt16
  origin : Origin
  deriving DecidableEq

inductive CallKind
  | request (flags : UInt8)
  | send
  deriving DecidableEq

/-- How far `request_with_flags` or `send` has got. -/
inductive Stage
  | allocated
  | stamped (generation : UInt64)
  | waiting
  deriving DecidableEq

structure Call where
  kind : CallKind
  messageType : UInt16
  payload : Bytes
  id : UInt64
  stage : Stage
  deriving DecidableEq

/-- The history of a connection. -/
inductive Obs
  /-- a frame was handed to transport number `serial` -/
  | wrote (serial : ℕ) (origin : Origin)
  /-- a frame was read from transport number `serial` -/
  | received (serial : ℕ) (source : Option Sent) (frame : Bytes)
  /-- a caller was handed the payload of a frame -/
  | delivered (serial : ℕ) (t : Ticket) (payload frame : Bytes) (source : Option Sent)
  /-- a caller's sender was dropped for the cancellation of `cause` -/
  | dropped (t : Ticket) (cause : Option Ticket)
  /-- `publish_notification` -/
  | published (serial : ℕ) (messageType : UInt16) (payload : Bytes)
  deriving DecidableEq

structure Config where
  maxQueued : UInt64
  reconnect : ReconnectPolicy

/-- The capacity of the command channel, and the configured in-flight limit. -/
def Config.capacity (cfg : Config) : UInt64 := max cfg.maxQueued 1

structure Conn where
  task : Supervised
  shared : Shared
  commands : List Command
  /-- each id with the call whose guard sent it -/
  cancellations : List (UInt64 × Ticket)
  loop : Loop
  registrations : HashMap UInt64 Registration
  nextRegistrationId : UInt64
  /-- the `wire_id` cells -/
  wireIds : Cell → UInt64
  nextCell : Cell
  /-- the registrations `restore_registrations` collected and has not started on -/
  todo : List Registration
  /-- the round trip in progress -/
  current : Option Registration
  calls : HashMap Ticket Call
  /-- the `oneshot`s that are settled: a value, or the sender dropped -/
  answers : List (Ticket × Option (Result Bytes))
  nextTicket : Ticket
  serial : ℕ
  epoch : ℕ
  bumps : ℕ
  /-- the id a call allocated, and the epoch it did so in -/
  issued : Ticket → Option (UInt64 × ℕ)
  unanswered : List Sent
  /-- the call whose cancellation put an id into `canceled` -/
  tombstones : UInt64 → Option Ticket
  /-- the last restore that set a cell: its transport, its registration -/
  held : Cell → Option (ℕ × Registration)
  /-- each accepted HELLO's in-flight limit, with the transport it came on -/
  hellos : List (ℕ × UInt32)
  /-- each transport a session loop ran on, with the bumps it read its generation at -/
  sessions : List (ℕ × ℕ)
  log : List Obs

inductive Event
  /-- `allocate_request_id` for a new call -/
  | allocate (kind : CallKind) (messageType : UInt16) (payload : Bytes)
  /-- the call reads `generation()` -/
  | stamp (t : Ticket)
  /-- `commands.try_send` -/
  | enqueue (t : Ticket)
  /-- the call finds its `oneshot` settled -/
  | resume (t : Ticket)
  /-- the call times out or is dropped -/
  | abandon (t : Ticket)
  /-- `AsyncConnection::connect` sends its command -/
  | connect
  /-- `AsyncConnection::close` sets the flag and bumps the generation -/
  | requestClose
  /-- `AsyncConnection::close` sends its command -/
  | close
  | register (messageType : UInt16) (payload : Bytes) (wireId : UInt64)
      (decoder : Bytes → Result UInt64)
  | deactivate (key : UInt64)
  /-- the supervisor task runs to its next shared access or suspension -/
  | advance
  /-- `supervise` receives a command -/
  | receive
  /-- every command sender is gone -/
  | hangup
  | token (result : Result Unit)
  | dial (result : Result Unit)
  | auth (answer : Result Bytes)
  /-- the round trip of a registration writes its frame -/
  | restoreNext (cell : Cell) (written : Result Unit)
  /-- the round trip reads a frame -/
  | restoreRead (frame : Bytes) (answers : Option ℕ)
  /-- the read of the round trip fails or times out -/
  | restoreFail
  /-- `restore_registrations` returns -/
  | restored
  | wake
  /-- the session loop takes its command branch -/
  | command (written : Result Unit)
  /-- the session loop takes its cancellation branch -/
  | cancel
  /-- the session loop reads a frame -/
  | inbound (frame : Bytes) (answers : Option ℕ) (written : Result Unit)
  /-- the session loop's read fails -/
  | readError

namespace Conn

def new (cfg : Config) : Conn where
  task := .new
  shared := ⟨1, 0, UInt64.ofNat maxMessageSize, cfg.capacity, 0⟩
  commands := []
  cancellations := []
  loop := .new 0
  registrations := ∅
  nextRegistrationId := 1
  wireIds := fun _ => 0
  nextCell := 0
  todo := []
  current := none
  calls := ∅
  answers := []
  nextTicket := 0
  serial := 0
  epoch := 0
  bumps := 0
  issued := fun _ => none
  unanswered := []
  tombstones := fun _ => none
  held := fun _ => none
  hellos := []
  sessions := []
  log := []

def pc (s : Conn) : Pc := s.task.sup.pc

/-! ## Callers -/

def allocate (s : Conn) (kind : CallKind) (messageType : UInt16) (payload : Bytes) : Conn :=
  let (result, sequence) := allocateRequestId s.shared.nextRequestId
  let s' := { s with
    nextTicket := s.nextTicket + 1
    shared := { s.shared with nextRequestId := sequence } }
  match result with
  | .error _ => s'
  | .ok id =>
    { s' with
      calls := s.calls.insert s.nextTicket ⟨kind, messageType, payload, id, .allocated⟩
      issued := Function.update s.issued s.nextTicket (some (id, s.epoch)) }

def stamp (s : Conn) (t : Ticket) : Conn :=
  match s.calls.lookup t with
  | some call =>
    match call.stage with
    | .allocated =>
      { s with calls := s.calls.insert t { call with stage := .stamped s.shared.generation } }
    | _ => s
  | none => s

/-- The command a stamped call sends. -/
def commandOf (t : Ticket) (call : Call) (generation : UInt64) : Command :=
  match call.kind with
  | .request flags => .request call.id generation call.messageType flags call.payload t
  | .send => .send call.id generation call.messageType call.payload t

/-- The call returns to its caller. -/
def endCall (s : Conn) (t : Ticket) : Conn := { s with calls := s.calls.erase t }

/-- The channel is closed, or full, or takes the command; only then does the
guard exist. -/
def enqueue (cfg : Config) (s : Conn) (t : Ticket) : Conn :=
  match s.calls.lookup t with
  | some call =>
    match call.stage with
    | .stamped generation =>
      if s.pc = .done ∨ s.commands.length ≥ cfg.capacity.toNat then s.endCall t
      else
        { s with
          commands := s.commands ++ [commandOf t call generation]
          calls := s.calls.insert t { call with stage := .waiting } }
    | _ => s
  | none => s

/-- The call ends with its guard armed. -/
def dropGuard (s : Conn) (t : Ticket) (call : Call) : Conn :=
  match call.kind, call.stage with
  | .request _, .waiting =>
    { s.endCall t with cancellations := s.cancellations ++ [(call.id, t)] }
  | _, _ => s.endCall t

def resume (s : Conn) (t : Ticket) : Conn :=
  match s.calls.lookup t, s.answers.find? (·.1 = t) with
  | some _, some (_, some _) => s.endCall t
  | some call, some (_, none) => s.dropGuard t call
  | _, _ => s

def abandon (s : Conn) (t : Ticket) : Conn :=
  match s.calls.lookup t with
  | some call => s.dropGuard t call
  | none => s

/-- `commands.send(..).await`, once the channel has room. -/
def push (cfg : Config) (s : Conn) (command : Ticket → Command) : Conn :=
  if s.pc = .done ∨ s.commands.length ≥ cfg.capacity.toNat then s
  else
    { s with
      commands := s.commands ++ [command s.nextTicket]
      nextTicket := s.nextTicket + 1 }

def bump (s : Conn) : Conn :=
  { s with
    shared := { s.shared with generation := s.shared.generation + 1 }
    bumps := s.bumps + 1 }

/-! ## The supervisor -/

def supStep (cfg : Config) (s : Conn) (e : SupEvent) : Conn :=
  { s with task := s.task.step cfg.reconnect e }

/-- `close_requested.swap(true)`, and the bump if it was not set. -/
def requestClose (cfg : Config) (s : Conn) : Conn :=
  if s.task.sup.closeRequested then s else (s.supStep cfg .requestClose).bump

/-- `register_restorable`. -/
def register (s : Conn) (messageType : UInt16) (payload : Bytes) (wireId : UInt64)
    (decoder : Bytes → Result UInt64) : Conn :=
  { s with
    nextRegistrationId := s.nextRegistrationId + 1
    nextCell := s.nextCell + 1
    registrations := s.registrations.insert s.nextRegistrationId
      ⟨messageType, payload, s.nextCell, decoder⟩
    wireIds := Function.update s.wireIds s.nextCell wireId }

/-- What the task does to shared state in the stretch from its program counter
to the next. -/
def advance (cfg : Config) (s : Conn) : Conn :=
  let s' := s.supStep cfg .advance
  match s.pc, s'.pc with
  | .checking, .token => { s' with shared := { s.shared with capabilities := 0 } }
  | .opened, .restoring =>
    { s' with todo := s.registrations.entries.map fun e => e.2, current := none }
  | .ready, .announcing =>
    { s' with shared := { s.shared with nextRequestId := 1 }, epoch := s.epoch + 1 }
  | .entering, .session =>
    { s' with
      loop := .new s.shared.generation
      tombstones := fun _ => none
      sessions := s.sessions ++ [(s.serial, s.bumps)] }
  | .lost, .retrying => s'.bump
  | _, _ => s'

/-- `supervise` has returned: the receiver is dropped, and with it what is queued. -/
def dropCommands (s : Conn) : Conn :=
  { s with
    commands := []
    answers := s.answers ++ (s.commands.filterMap Command.ticket?).map fun t => (t, none) }

/-- `supervise` outside `connect_and_run`. -/
def receive (cfg : Config) (s : Conn) : Conn :=
  match s.pc, s.commands with
  | .recv, command :: commands =>
    let s' := { s with commands := commands }
    match command with
    | .connect t => s'.supStep cfg (.connect t)
    | .close t => (s'.supStep cfg (.close t)).dropCommands
    | .request _ _ _ _ _ t | .send _ _ _ _ t =>
      { s' with answers := s.answers ++ [(t, some (.error .connectionClosed))] }
  | _, _ => s

/-- A new transport, if `dial` is what the task awaits and it succeeds. -/
def dial (cfg : Config) (s : Conn) (result : Result Unit) : Conn :=
  match s.pc, result with
  | .dialing, .ok () =>
    { s.supStep cfg (.dial result) with
      serial := s.serial + 1
      unanswered := [] }
  | _, _ => s.supStep cfg (.dial result)

def auth (cfg : Config) (s : Conn) (answer : Result Bytes) : Conn :=
  match s.pc with
  | .handshake =>
    match settleAuthentication s.shared answer with
    | .error error => s.supStep cfg (.auth (.error error))
    | .ok shared =>
      { s.supStep cfg (.auth (.ok ())) with
        shared := shared
        hellos := s.hellos ++
          ((answer.bind advertised).toOption.map fun h => (s.serial, h.maxInFlight)).toList }
  | _ => s

/-! ## Frames and their answers -/

/-- The frame as the broker sees it. -/
def sent (origin : Origin) (frame : Bytes) : Sent :=
  match decodeFrameHeader frame with
  | .ok header => ⟨header.correlationId, header.messageType, origin⟩
  | .error _ => ⟨0, 0, origin⟩

def wrote (s : Conn) (origin : Origin) (frame : Bytes) : Conn :=
  { s with
    unanswered := s.unanswered ++ [sent origin frame]
    log := s.log ++ [.wrote s.serial origin] }

/-- The frame an inbound one answers. -/
def source (s : Conn) (answers : Option ℕ) : Option Sent := answers.bind (s.unanswered[·]?)

/-- The frame ends the answer it belongs to. -/
def isFinal (frame : Bytes) : Bool :=
  match decodeFrameHeader frame with
  | .ok header => header.flags &&& responseFinal != 0
  | .error _ => false

/-- A frame is read; a final one settles what it answers. -/
def read (s : Conn) (frame : Bytes) (answers : Option ℕ) : Conn :=
  { s with
    log := s.log ++ [.received s.serial (s.source answers) frame]
    unanswered := match answers, isFinal frame with
      | some i, true => s.unanswered.eraseIdx i
      | _, _ => s.unanswered }

/-! ## The restore phase -/

def restoreNext (s : Conn) (cell : Cell) (written : Result Unit) : Conn :=
  match s.pc, s.current, s.todo.find? (·.wireId = cell) with
  | .restoring, none, some registration =>
    let s' := { s with todo := s.todo.eraseP (·.wireId = cell) }
    match tryEncodeFrame registration.messageType 0 1 registration.payload with
    | .error _ => s'
    | .ok frame =>
      match written with
      | .ok () => { s'.wrote (.restore cell) frame with current := some registration }
      | .error _ => s'.wrote (.restore cell) frame
  | _, _, _ => s

/-- The round trip of `registration` reads a frame: by its type alone it is the
answer, or a notification. -/
def restoreRead (s : Conn) (frame : Bytes) (answers : Option ℕ) : Conn :=
  match s.pc, s.current with
  | .restoring, some registration =>
    let s' := s.read frame answers
    match decodeFrameHeader frame with
    | .error _ => { s' with current := none }
    | .ok header =>
      let payload := frame.drop header.payloadStart
      if header.messageType = registration.messageType then
        match registration.decoder payload with
        | .error _ => { s' with current := none }
        | .ok wireId =>
          { s' with
            current := none
            wireIds := Function.update s.wireIds registration.wireId wireId
            held := Function.update s.held registration.wireId (some (s.serial, registration)) }
      else { s' with log := s'.log ++ [.published s.serial header.messageType payload] }
  | _, _ => s

def restoreFail (s : Conn) : Conn :=
  match s.pc with
  | .restoring => { s with current := none }
  | _ => s

def restored (cfg : Config) (s : Conn) : Conn :=
  match s.current, s.todo with
  | none, [] => s.supStep cfg .restored
  | _, _ => s

/-! ## The session loop -/

/-- What a turn of the loop does outside it; `origin` wrote its frames. -/
def effect (origin : Origin) (s : Conn) : Effect → Conn
  | .respond t r => { s with answers := s.answers ++ [(t, some r)] }
  | .release t => { s with answers := s.answers ++ [(t, none)] }
  | .acknowledge t r => { s with answers := s.answers ++ [(t, some (r.map fun _ => []))] }
  | .write frame => s.wrote origin frame
  | .publish messageType payload =>
    { s with log := s.log ++ [.published s.serial messageType payload] }

def effects (origin : Origin) (s : Conn) (l : List Effect) : Conn := l.foldl (effect origin) s

/-- The loop goes round, or the session ends; a `Close` ends it through its own
command. -/
def turn (cfg : Config) (origin : Origin) (s : Conn) (t : Turn) : Conn :=
  let s' := { s with loop := t.loop }.effects origin t.effects
  match t.result with
  | some .disconnected => s'.supStep cfg .disconnected
  | _ => s'

/-- The call a request's tombstone was left by. -/
def buried (s : Conn) : Command → List Obs
  | .request id generation _ _ _ t =>
    if generation = s.loop.sessionGeneration ∧ id ∈ s.loop.canceled then
      [.dropped t (s.tombstones id)]
    else []
  | _ => []

def command (cfg : Config) (s : Conn) (written : Result Unit) : Conn :=
  match s.pc, s.commands with
  | .session, command :: commands =>
    let s' := { s with commands := commands, log := s.log ++ s.buried command }
    let t := s.loop.onCommand s.shared command written
    match command with
    | .connect response => (s'.turn cfg .queued t).supStep cfg (.connect response)
    | .close response => (s'.turn cfg .queued t).supStep cfg (.close response)
    | .request _ _ _ _ _ response => s'.turn cfg (.request response) t
    | .send _ _ _ _ response => s'.turn cfg (.send response) t
  | _, _ => s

/-- The senders a cancellation dropped. -/
def releases (cause : Ticket) (effects : List Effect) : List Obs :=
  effects.filterMap fun e => match e with
    | .release t => some (.dropped t (some cause))
    | _ => none

def cancel (cfg : Config) (s : Conn) : Conn :=
  match s.pc, s.cancellations with
  | .session, (id, cause) :: cancellations =>
    let t := s.loop.onCancel id
    { s with
      cancellations := cancellations
      log := s.log ++ releases cause t.effects
      tombstones :=
        if id ∈ t.loop.canceled ∧ id ∉ s.loop.canceled then
          Function.update s.tombstones id (some cause)
        else s.tombstones }.turn cfg .queued t
  | _, _ => s

/-- The callers a frame answers. -/
def deliveries (s : Conn) (frame : Bytes) (answers : Option ℕ) (effects : List Effect) : List Obs :=
  effects.filterMap fun e => match e with
    | .respond t (.ok payload) => some (.delivered s.serial t payload frame (s.source answers))
    | _ => none

def inbound (cfg : Config) (s : Conn) (frame : Bytes) (answers : Option ℕ)
    (written : Result Unit) : Conn :=
  match s.pc with
  | .session =>
    let (shared, t) := s.loop.onFrame s.shared frame written
    let s' := s.read frame answers
    { s' with shared := shared, log := s'.log ++ s.deliveries frame answers t.effects }.turn cfg
      .queued t
  | _ => s

def readError (cfg : Config) (s : Conn) : Conn :=
  match s.pc with
  | .session => s.turn cfg .queued s.loop.onReadError
  | _ => s

/-- `recv` returns `None` once the channel is empty. With no caller left, what
`supervise` receives after the session is the same `None`. -/
def hangup (cfg : Config) (s : Conn) : Conn :=
  match s.pc, s.commands with
  | .session, [] => ((s.turn cfg .queued s.loop.onHangup).supStep cfg .hangup).supStep cfg .hangup
  | .recv, [] => s.supStep cfg .hangup
  | _, _ => s

def step (cfg : Config) (s : Conn) : Event → Conn
  | .allocate kind messageType payload => s.allocate kind messageType payload
  | .stamp t => s.stamp t
  | .enqueue t => s.enqueue cfg t
  | .resume t => s.resume t
  | .abandon t => s.abandon t
  | .connect => s.push cfg .connect
  | .requestClose => s.requestClose cfg
  | .close => if s.task.sup.closeRequested then s.push cfg .close else s
  | .register messageType payload wireId decoder => s.register messageType payload wireId decoder
  | .deactivate key => { s with registrations := s.registrations.erase key }
  | .advance => s.advance cfg
  | .receive => s.receive cfg
  | .hangup => s.hangup cfg
  | .token result => s.supStep cfg (.token result)
  | .dial result => s.dial cfg result
  | .auth answer => s.auth cfg answer
  | .restoreNext key written => s.restoreNext key written
  | .restoreRead frame answers => s.restoreRead frame answers
  | .restoreFail => s.restoreFail
  | .restored => s.restored cfg
  | .wake => s.supStep cfg .wake
  | .command written => s.command cfg written
  | .cancel => s.cancel cfg
  | .inbound frame answers written => s.inbound cfg frame answers written
  | .readError => s.readError cfg

end Conn

/-! ## What callers see of the log -/

/-- The call whose frame was written. -/
def Obs.wrote? : Obs → Option Ticket
  | .wrote _ origin => origin.ticket?
  | _ => none

/-- The transport on which `t` was answered with `payload`. -/
def responseOn (log : List Obs) (t : Ticket) (payload : Bytes) : Option ℕ :=
  log.findSome? fun o => match o with
    | .delivered serial t' payload' _ _ => if t' = t ∧ payload' = payload then some serial else none
    | _ => none

/-- The notifications of a type since `mark`, with their transports. -/
def notified (log : List Obs) (mark : ℕ) (messageType : UInt16) : List (ℕ × Bytes) :=
  (log.drop mark).filterMap fun o => match o with
    | .published serial kind payload => if kind = messageType then some (serial, payload) else none
    | _ => none

end Fitz
