import Fitz.Model.Subscription

/-!
# Domain clients and their handles

`subscribe`, `unsubscribe` and `unsubscribe_all` of the domain clients
(`src/client_domains`), the values `Client` hands out (`src/lib.rs`) and the
registrations that the handles hold (`RestorableRegistration`,
`src/async_connection.rs`). The Notice, Stream and Schedule clients keep a map of their
subscriptions behind a fair mutex; the others register for each handle. One event is
one step of one party, and what a request returns is an input.

What nobody holds any more is dropped at the end of a step (`collect`). The history
`left` and the origin of a registration are read by no step.
-/

namespace Fitz

namespace MessageType

def kvUnsubscribe : UInt16 := 110
def queueUnsubscribe : UInt16 := 208
def leaseUnsubscribe : UInt16 := 408
def noticeUnsubscribe : UInt16 := 502
def streamUnsubscribe : UInt16 := 608
def scheduleUnsubscribe : UInt16 := 704

end MessageType

namespace Topic

def unsubscribeType : Topic → UInt16
  | .kv => MessageType.kvUnsubscribe
  | .queue => MessageType.queueUnsubscribe
  | .lease => MessageType.leaseUnsubscribe
  | .notice => MessageType.noticeUnsubscribe
  | .stream => MessageType.streamUnsubscribe
  | .schedule => MessageType.scheduleUnsubscribe

/-- What `unsubscribe` makes of the response. -/
def decodeUnsubscribe : Topic → Bytes → Result Unit
  | .kv | .notice => decodeOk
  | .queue => decodeQueuePlainOk
  | .lease => Decode.on (leaseSuccess "UNSUBSCRIBE")
  | .stream => fun response => do let _ ← decodeStreamResponse "UNSUBSCRIBE" response
  | .schedule => Decode.on (do
      success "Schedule UNSUBSCRIBE"
      if !(← isEmpty) then
        throw (.protocol "schedule UNSUBSCRIBE response has trailing bytes"))

end Topic

/-! ## State -/

/-- `SharedNoticeSubscription`, and the same of Stream and Schedule. A registration is
its place among those that were made. -/
structure SharedSubscription where
  registration : ℕ
  references : ℕ
  deriving DecidableEq

/-- A domain client and its clones: they have one map, and one mutex. -/
structure DomainClient where
  topic : Topic
  /-- the values that the application holds -/
  clones : ℕ
  subscriptions : HashMap String SharedSubscription
  /-- the calls at the mutex; the first of them has it -/
  queue : List ℕ

structure Restorable where
  key : UInt64
  wireId : Cell
  /-- `RestorableRegistration::active` -/
  registered : Bool
  /-- `NoticeSubscription::active`, which the entry and its handles share. The other
  clients have no such flag, and none of their steps reads it. -/
  active : Bool
  topic : Topic
  client : ℕ
  pattern : String
  deriving DecidableEq

inductive PartyStage
  /-- `subscribe` is at the mutex -/
  | joining
  /-- it awaits the answer to SUBSCRIBE -/
  | subscribing
  /-- the application has the handle -/
  | held (registration : ℕ)
  /-- `unsubscribe` is past the check of `active` -/
  | checked (registration : ℕ)
  /-- it is at the mutex -/
  | leaving (registration : ℕ)
  /-- it awaits the answer to UNSUBSCRIBE -/
  | unsubscribing (registration : ℕ)
  /-- `unsubscribe_all` is at the mutex -/
  | clearing
  | unsubscribingAll
  | gone
  deriving DecidableEq

namespace PartyStage

/-- The registration of the handle. -/
def registration : PartyStage → Option ℕ
  | .held r | .checked r | .leaving r | .unsubscribing r => some r
  | _ => none

end PartyStage

/-- A handle with the `subscribe` that makes it and the `unsubscribe` that ends it, or
an `unsubscribe_all`. -/
structure Party where
  client : ℕ
  topic : Topic
  pattern : String
  stage : PartyStage
  deriving DecidableEq

/-- An `unsubscribe` got the mutex. -/
structure Leave where
  party : ℕ
  /-- its registration was still active -/
  live : Bool
  /-- the other live handles of its client for the pattern -/
  others : List ℕ
  /-- the other live handles of its domain for the pattern -/
  rivals : List ℕ
  /-- the UNSUBSCRIBE it made: message type and payload -/
  request : Option (UInt16 × Bytes)
  deriving DecidableEq

structure Domains where
  conn : Conn
  /-- the client that `Client::notice` keeps -/
  notice : Option ℕ
  clients : List DomainClient
  registrations : List Restorable
  parties : List Party
  left : List Leave

inductive DomainsEvent
  /-- any other step over the connection -/
  | conn (e : Event)
  /-- `Client::kv` and the like -/
  | accessor (topic : Topic)
  | clone (client : ℕ)
  | dropClient (client : ℕ)
  | subscribe (client : ℕ) (pattern : String)
  | unsubscribeAll (client : ℕ)
  /-- the call has the mutex and runs to its request, or to its end -/
  | enter (party : ℕ)
  /-- its request returns -/
  | answer (party : ℕ) (result : Result Bytes)
  /-- `unsubscribe` of a handle, up to the mutex -/
  | unsubscribe (party : ℕ)
  /-- the call gets in line at the mutex -/
  | enqueue (party : ℕ)
  /-- the handle or the future of the call is dropped -/
  | abandon (party : ℕ)

namespace Domains

variable (cfg : Config)

def new : Domains := ⟨.new cfg, none, [], [], [], []⟩

/-! ## Clients -/

def modifyClient (s : Domains) (i : ℕ) (f : DomainClient → DomainClient) : Domains :=
  { s with clients := s.clients.modify i f }

def entry (s : Domains) (i : ℕ) (pattern : String) : Option SharedSubscription :=
  (s.clients[i]?).bind fun client => client.subscriptions.lookup pattern

def setEntry (s : Domains) (i : ℕ) (pattern : String) (shared : SharedSubscription) : Domains :=
  s.modifyClient i fun client =>
    { client with subscriptions := client.subscriptions.insert pattern shared }

def removeEntry (s : Domains) (i : ℕ) (pattern : String) : Domains :=
  s.modifyClient i fun client =>
    { client with subscriptions := client.subscriptions.erase pattern }

def removeAll (s : Domains) (i : ℕ) : Domains :=
  s.modifyClient i fun client => { client with subscriptions := ∅ }

def queue (s : Domains) (i : ℕ) : List ℕ :=
  ((s.clients[i]?).map fun client => client.queue).getD []

def modifyQueue (s : Domains) (i : ℕ) (f : List ℕ → List ℕ) : Domains :=
  s.modifyClient i fun client => { client with queue := f client.queue }

def setStage (s : Domains) (j : ℕ) (stage : PartyStage) : Domains :=
  { s with parties := s.parties.modify j fun party => { party with stage := stage } }

/-- The call is over: it leaves the mutex, or its place in the line, if it is there. -/
def finish (s : Domains) (j client : ℕ) (stage : PartyStage) : Domains :=
  (s.setStage j stage).modifyQueue client fun queue => queue.erase j

def accessor (s : Domains) (topic : Topic) : Domains :=
  match topic, s.notice with
  | .notice, some i => s.modifyClient i fun client => { client with clones := client.clones + 1 }
  | .notice, none =>
    { s with notice := some s.clients.length, clients := s.clients ++ [⟨.notice, 1, ∅, []⟩] }
  | topic, _ => { s with clients := s.clients ++ [⟨topic, 1, ∅, []⟩] }

/-! ## Registrations -/

/-- The handle, or its `unsubscribe`, has a registration that `unsubscribe` and
`unsubscribe_all` have not ended. -/
def live (s : Domains) (party : Party) : Bool :=
  party.stage.registration.any fun r => (s.registrations[r]?).any (·.active)

def register (s : Domains) (party : Party) (id : UInt64) : Domains :=
  { s with
    conn := s.conn.step cfg (.register party.topic.subscribeType (putString party.pattern) id
      party.topic.decodeSubscriptionId)
    registrations := s.registrations ++ [{
      key := s.conn.nextRegistrationId
      wireId := s.conn.nextCell
      registered := true
      active := true
      topic := party.topic
      client := party.client
      pattern := party.pattern }] }

/-- The keys of those of the registrations that are registered. -/
def registeredKeys (s : Domains) (rs : List ℕ) : List UInt64 :=
  rs.filterMap fun r => ((s.registrations[r]?).filter (·.registered)).map (·.key)

/-- `deactivate` of the registrations `rs`. -/
def deactivate (s : Domains) (rs : List ℕ) : Domains :=
  { s with
    conn := (s.registeredKeys rs).foldl (fun conn key => conn.step cfg (.deactivate key)) s.conn
    registrations := s.registrations.mapIdx fun r registration =>
      if r ∈ rs then { registration with registered := false } else registration }

/-- `active.store(false)`. -/
def silence (s : Domains) (rs : List ℕ) : Domains :=
  { s with registrations := s.registrations.mapIdx fun r registration =>
      if r ∈ rs then { registration with active := false } else registration }

/-! ## `subscribe` -/

/-- A call gets in line at the mutex. -/
def call (s : Domains) (party : Party) : Domains :=
  { s.modifyQueue party.client (· ++ [s.parties.length]) with parties := s.parties ++ [party] }

def subscribe (s : Domains) (i : ℕ) (pattern : String) : Domains :=
  match s.clients[i]? with
  | some client =>
    if client.clones = 0 then s
    else
      match client.topic.validate pattern with
      | .ok () =>
        if client.topic.shared then s.call ⟨i, client.topic, pattern, .joining⟩
        else { s with parties := s.parties ++ [⟨i, client.topic, pattern, .subscribing⟩] }
      | .error _ => s
  | none => s

/-- `subscribe` with the mutex. -/
def join (s : Domains) (j : ℕ) (party : Party) : Domains :=
  match s.entry party.client party.pattern with
  | some shared =>
    (s.setEntry party.client party.pattern ⟨shared.registration, shared.references + 1⟩).finish j
      party.client (.held shared.registration)
  | none => s.setStage j .subscribing

/-- SUBSCRIBE is answered. -/
def subscribed (s : Domains) (j : ℕ) (party : Party) (answer : Result UInt64) : Domains :=
  match answer with
  | .ok id =>
    let s' := s.register cfg party id
    if party.topic.shared then
      (s'.setEntry party.client party.pattern ⟨s.registrations.length, 1⟩).finish j party.client
        (.held s.registrations.length)
    else s'.setStage j (.held s.registrations.length)
  | .error _ => s.finish j party.client .gone

/-! ## `unsubscribe` -/

/-- `unsubscribe` up to its first suspension or the mutex. -/
def unsubscribe (s : Domains) (j : ℕ) : Domains :=
  match s.parties[j]? with
  | some party =>
    match party.stage with
    | .held r =>
      if party.topic.shared then
        if party.topic = .notice ∧ s.live party = false then s.finish j party.client .gone
        else s.setStage j (.checked r)
      else (s.deactivate cfg [r]).setStage j (.unsubscribing r)
    | _ => s
  | none => s

def enqueue (s : Domains) (j : ℕ) : Domains :=
  match s.parties[j]? with
  | some party =>
    match party.stage with
    | .checked r => (s.setStage j (.leaving r)).modifyQueue party.client (· ++ [j])
    | _ => s
  | none => s

def unsubscribeRequest (s : Domains) (party : Party) (r : ℕ) : UInt16 × Bytes :=
  (party.topic.unsubscribeType,
    match party.topic, s.registrations[r]? with
    | .notice, some registration => putU64 (s.conn.wireIds registration.wireId)
    | _, _ => putString party.pattern)

/-- The live handles but `j` of which `p` holds. -/
def livePeers (s : Domains) (j : ℕ) (p : Party → Bool) : List ℕ :=
  (List.range s.parties.length).filter fun k =>
    k ≠ j && (s.parties[k]?).any fun party => s.live party && p party

def record (s : Domains) (j : ℕ) (party : Party) (request : Option (UInt16 × Bytes)) : Domains :=
  { s with left := s.left ++ [{
      party := j
      live := s.live party
      others := s.livePeers j fun other =>
        other.client = party.client ∧ other.pattern = party.pattern
      rivals := s.livePeers j fun other =>
        other.topic = party.topic ∧ other.pattern = party.pattern
      request := request }] }

/-- `unsubscribe` with the mutex. -/
def leave (s : Domains) (j : ℕ) (party : Party) (r : ℕ) : Domains :=
  match s.entry party.client party.pattern with
  | none => (s.record j party none).finish j party.client .gone
  | some shared =>
    if shared.references > 1 then
      ((s.record j party none).setEntry party.client party.pattern
        ⟨shared.registration, shared.references - 1⟩).finish j party.client .gone
    else (s.record j party (some (s.unsubscribeRequest party r))).setStage j (.unsubscribing r)

/-- UNSUBSCRIBE is answered. -/
def unsubscribed (s : Domains) (j : ℕ) (party : Party) (r : ℕ) (answer : Result Unit) : Domains :=
  match answer with
  | .ok () =>
    if party.topic.shared then
      (((s.deactivate cfg [r]).silence [r]).removeEntry party.client party.pattern).finish j
        party.client .gone
    else s.finish j party.client .gone
  | .error _ => s.finish j party.client .gone

/-! ## `unsubscribe_all` -/

def unsubscribeAll (s : Domains) (i : ℕ) : Domains :=
  match s.clients[i]? with
  | some client =>
    if client.topic = .notice ∧ client.clones > 0 then s.call ⟨i, .notice, "", .clearing⟩ else s
  | none => s

/-- The registrations of the map. -/
def entered (s : Domains) (i : ℕ) : List ℕ :=
  ((s.clients[i]?).map fun client =>
    client.subscriptions.entries.map fun e => e.2.registration).getD []

/-- NOTICE_UNSUBSCRIBE_ALL is answered. -/
def unsubscribedAll (s : Domains) (j : ℕ) (party : Party) (answer : Result Unit) : Domains :=
  match answer with
  | .ok () =>
    let rs := s.entered party.client
    (((s.deactivate cfg rs).silence rs).removeAll party.client).finish j party.client .gone
  | .error _ => s.finish j party.client .gone

/-! ## Steps -/

/-- The call that has the mutex. -/
def entering (s : Domains) (j : ℕ) : Option Party :=
  (s.parties[j]?).filter fun party => (s.queue party.client).head? = some j

def enter (s : Domains) (j : ℕ) : Domains :=
  match s.entering j with
  | some party =>
    match party.stage with
    | .joining => s.join j party
    | .leaving r => s.leave j party r
    | .clearing => s.setStage j .unsubscribingAll
    | _ => s
  | none => s

def answer (s : Domains) (j : ℕ) (result : Result Bytes) : Domains :=
  match s.parties[j]? with
  | some party =>
    match party.stage with
    | .subscribing => s.subscribed cfg j party (result >>= party.topic.decodeSubscriptionId)
    | .unsubscribing r => s.unsubscribed cfg j party r (result >>= party.topic.decodeUnsubscribe)
    | .unsubscribingAll => s.unsubscribedAll cfg j party (result >>= decodeOk)
    | _ => s
  | none => s

def abandon (s : Domains) (j : ℕ) : Domains :=
  match s.parties[j]? with
  | some party =>
    match party.stage with
    -- there is no suspension here
    | .checked _ => s
    | _ => s.finish j party.client .gone
  | none => s

/-- The registry is changed by the handles alone. -/
def connStep (s : Domains) : Event → Domains
  | .register .. | .deactivate _ => s
  | e => { s with conn := s.conn.step cfg e }

def act (s : Domains) : DomainsEvent → Domains
  | .conn e => s.connStep cfg e
  | .accessor topic => s.accessor topic
  | .clone i => s.modifyClient i fun client =>
    if client.clones = 0 then client else { client with clones := client.clones + 1 }
  | .dropClient i => s.modifyClient i fun client => { client with clones := client.clones - 1 }
  | .subscribe i pattern => s.subscribe i pattern
  | .unsubscribeAll i => s.unsubscribeAll i
  | .enter j => s.enter j
  | .answer j result => s.answer cfg j result
  | .unsubscribe j => s.unsubscribe cfg j
  | .enqueue j => s.enqueue j
  | .abandon j => s.abandon j

/-! ## What is dropped -/

/-- Somebody has the client's map. -/
def mapHeld (s : Domains) (i : ℕ) : Bool :=
  s.notice = some i || (s.clients[i]?).any (0 < ·.clones) ||
    s.parties.any fun party => party.client = i && party.stage ≠ .gone

def freeMaps (s : Domains) : Domains :=
  { s with clients := s.clients.mapIdx fun i client =>
      if s.mapHeld i then client else { client with subscriptions := ∅ } }

/-- A handle or an entry has the registration. -/
def registrationHeld (s : Domains) (r : ℕ) : Bool :=
  s.parties.any (·.stage.registration = some r) ||
    s.clients.any fun client => client.subscriptions.entries.any (·.2.registration = r)

/-- The maps and the registrations that nobody has are dropped. -/
def collect (s : Domains) : Domains :=
  let s' := s.freeMaps
  s'.deactivate cfg ((List.range s'.registrations.length).filter fun r => !s'.registrationHeld r)

def step (s : Domains) (e : DomainsEvent) : Domains := (s.act cfg e).collect cfg

end Domains

end Fitz
