import Fitz.Model.Domains
import Fitz.Proof.Registry

/-!
# What a step does to the handles

`Ledger` is the part of the state that the accounting of handles is about, and
`Posted` has one constructor for each thing an event can do to it. `posted_act` is the
only place where the functions of the model are unfolded.
-/

namespace Fitz

/-- The parties with the maps and mutexes of their clients, and the registrations. -/
structure Ledger where
  parties : List Party
  entry : ℕ → String → Option SharedSubscription
  queue : ℕ → List ℕ
  topic : ℕ → Option Topic
  registrations : List Restorable
  left : List Leave

namespace Ledger

variable (l : Ledger)

def setStage (j : ℕ) (stage : PartyStage) : Ledger :=
  { l with parties := l.parties.modify j fun party => { party with stage := stage } }

def setEntry (i : ℕ) (pattern : String) (shared : Option SharedSubscription) : Ledger :=
  { l with entry := fun i' pattern' =>
      if i' = i ∧ pattern' = pattern then shared else l.entry i' pattern' }

def setQueue (i : ℕ) (queue : List ℕ) : Ledger :=
  { l with queue := Function.update l.queue i queue }

def finish (j client : ℕ) (stage : PartyStage) : Ledger :=
  (l.setStage j stage).setQueue client ((l.queue client).erase j)

/-- The registrations `rs` are not registered any more. -/
def deactivate (rs : List ℕ) : Ledger :=
  { l with registrations := l.registrations.mapIdx fun r registration =>
      if r ∈ rs then { registration with registered := false } else registration }

/-- Nor are they active. -/
def endAll (rs : List ℕ) : Ledger :=
  { l with registrations := l.registrations.mapIdx fun r registration =>
      if r ∈ rs then { registration with registered := false, active := false } else registration }

end Ledger

namespace Domains

variable {cfg : Config} {s : Domains} {e : DomainsEvent}

def topic (s : Domains) (i : ℕ) : Option Topic := (s.clients[i]?).map (·.topic)

def ledger (s : Domains) : Ledger :=
  ⟨s.parties, s.entry, s.queue, s.topic, s.registrations, s.left⟩

/-- The handle that the step loses: it is dropped, or its `unsubscribe` fails. -/
def lost (s : Domains) : DomainsEvent → Option ℕ
  | .abandon j => (s.parties[j]?).bind fun party =>
    match party.stage with
    | .checked _ => none
    | _ => some j
  | .answer j result => (s.parties[j]?).bind fun party =>
    match party.stage, result >>= party.topic.decodeUnsubscribe with
    | .unsubscribing _, .error _ => some j
    | _, _ => none
  | _ => none

/-! ## The operations on the ledger -/

/-- A change of a client that is no change of its domain. -/
theorem topic_modifyClient (s : Domains) (i : ℕ) {f : DomainClient → DomainClient}
    (hf : ∀ client, (f client).topic = client.topic) : (s.modifyClient i f).topic = s.topic := by
  funext i'
  simp only [topic, modifyClient, List.getElem?_modify]
  cases s.clients[i']? with
  | none => rfl
  | some client =>
    simp only [Option.map_eq_map, Option.map_some, Option.some.injEq]
    split
    · exact hf client
    · rfl

/-- A change of a client beside its map. -/
theorem entry_modifyClient (s : Domains) (i : ℕ) {f : DomainClient → DomainClient}
    (hf : ∀ client, (f client).subscriptions = client.subscriptions) :
    (s.modifyClient i f).entry = s.entry := by
  funext i' pattern
  simp only [entry, modifyClient, List.getElem?_modify]
  cases s.clients[i']? with
  | none => rfl
  | some client =>
    simp only [Option.map_eq_map, Option.map_some, Option.bind_some]
    split
    · rw [hf client]
    · rfl

/-- A change of a client beside its mutex. -/
theorem queue_modifyClient (s : Domains) (i : ℕ) {f : DomainClient → DomainClient}
    (hf : ∀ client, (f client).queue = client.queue) : (s.modifyClient i f).queue = s.queue := by
  funext i'
  simp only [queue, modifyClient, List.getElem?_modify]
  cases s.clients[i']? with
  | none => rfl
  | some client =>
    simp only [Option.map_eq_map, Option.map_some, Option.getD_some]
    split
    · exact hf client
    · rfl

theorem getElem?_modifyClient_ne (s : Domains) {i i' : ℕ} (h : i' ≠ i)
    (f : DomainClient → DomainClient) : (s.modifyClient i f).clients[i']? = s.clients[i']? :=
  List.getElem?_modify_ne f s.clients (Ne.symm h)

theorem getElem?_modifyClient_self (s : Domains) (i : ℕ) (f : DomainClient → DomainClient) :
    (s.modifyClient i f).clients[i]? = (s.clients[i]?).map f :=
  List.getElem?_modify_eq f i s.clients

theorem topic_setEntry (s : Domains) (i : ℕ) (pattern : String) (shared : SharedSubscription) :
    (s.setEntry i pattern shared).topic = s.topic := topic_modifyClient s i fun _ => rfl

theorem topic_removeEntry (s : Domains) (i : ℕ) (pattern : String) :
    (s.removeEntry i pattern).topic = s.topic := topic_modifyClient s i fun _ => rfl

/-- An entry of the map is an entry of the ledger. -/
theorem ledger_setEntry {i : ℕ} {topic : Topic} (h : s.topic i = some topic) (pattern : String)
    (shared : SharedSubscription) :
    (s.setEntry i pattern shared).ledger = s.ledger.setEntry i pattern (some shared) := by
  have hentry : (s.setEntry i pattern shared).entry =
      (s.ledger.setEntry i pattern (some shared)).entry := by
    funext i' pattern'
    obtain ⟨client, hget, -⟩ := Option.map_eq_some_iff.1 h
    by_cases hi : i' = i
    · subst hi
      simp only [entry, setEntry, getElem?_modifyClient_self, hget, Ledger.setEntry, ledger,
        Option.map_some, Option.bind_some, true_and]
      by_cases hp : pattern' = pattern
      · rw [if_pos hp, hp]
        exact AList.lookup_insert _
      · rw [if_neg hp]
        exact AList.lookup_insert_ne hp
    · simp only [entry, setEntry, getElem?_modifyClient_ne s hi, Ledger.setEntry, ledger, hi,
        false_and, if_false]
  have htopic := topic_setEntry s i pattern shared
  have hqueue : (s.setEntry i pattern shared).queue = s.queue := queue_modifyClient s i fun _ => rfl
  simp only [ledger, hentry, htopic, hqueue]
  rfl

/-- A removed entry is none in the ledger, also where there was none. -/
theorem ledger_removeEntry (s : Domains) (i : ℕ) (pattern : String) :
    (s.removeEntry i pattern).ledger = s.ledger.setEntry i pattern none := by
  have hentry : (s.removeEntry i pattern).entry = (s.ledger.setEntry i pattern none).entry := by
    funext i' pattern'
    by_cases hi : i' = i
    · subst hi
      simp only [entry, removeEntry, getElem?_modifyClient_self, Ledger.setEntry, ledger, true_and]
      cases s.clients[i']? with
      | none =>
        split <;> rfl
      | some client =>
        simp only [Option.map_some, Option.bind_some]
        by_cases hp : pattern' = pattern
        · rw [if_pos hp, hp]
          exact AList.lookup_erase _ _
        · rw [if_neg hp]
          exact AList.lookup_erase_ne hp
    · simp only [entry, removeEntry, getElem?_modifyClient_ne s hi, Ledger.setEntry, ledger, hi,
        false_and, if_false]
  have htopic := topic_removeEntry s i pattern
  have hqueue : (s.removeEntry i pattern).queue = s.queue := queue_modifyClient s i fun _ => rfl
  simp only [ledger, hentry, htopic, hqueue]
  rfl

theorem topic_removeAll (s : Domains) (i : ℕ) : (s.removeAll i).topic = s.topic :=
  topic_modifyClient s i fun _ => rfl

/-- The map of one client is emptied, the others stay. -/
theorem ledger_removeAll (s : Domains) (i : ℕ) : (s.removeAll i).ledger =
    { s.ledger with entry := Function.update s.entry i fun _ => none } := by
  have hentry : (s.removeAll i).entry = Function.update s.entry i fun _ => none := by
    funext i' pattern
    by_cases hi : i' = i
    · rw [hi, Function.update_self, entry, removeAll, getElem?_modifyClient_self]
      cases s.clients[i]? <;> rfl
    · rw [Function.update_of_ne hi, entry, removeAll, getElem?_modifyClient_ne s hi]
      rfl
  have htopic := topic_removeAll s i
  have hqueue : (s.removeAll i).queue = s.queue := queue_modifyClient s i fun _ => rfl
  simp only [ledger, hentry, htopic, hqueue]
  rfl

/-- The line at one mutex changes, the others stay. -/
theorem ledger_modifyQueue {i : ℕ} {topic : Topic} (h : s.topic i = some topic)
    (f : List ℕ → List ℕ) :
    (s.modifyQueue i f).ledger = s.ledger.setQueue i (f (s.queue i)) := by
  have hqueue : (s.modifyQueue i f).queue = Function.update s.queue i (f (s.queue i)) := by
    funext i'
    obtain ⟨client, hget, -⟩ := Option.map_eq_some_iff.1 h
    by_cases hi : i' = i
    · subst hi
      rw [Function.update_self]
      simp only [queue, modifyQueue, getElem?_modifyClient_self, hget, Option.map_some,
        Option.getD_some]
    · rw [Function.update_of_ne hi]
      simp only [queue, modifyQueue, getElem?_modifyClient_ne s hi]
  have htopic : (s.modifyQueue i f).topic = s.topic := topic_modifyClient s i fun _ => rfl
  have hentry : (s.modifyQueue i f).entry = s.entry := entry_modifyClient s i fun _ => rfl
  simp only [ledger, hentry, htopic, hqueue]
  rfl

/-- A call ends: its stage is set and it leaves the line. -/
theorem ledger_finish {j client : ℕ} {topic : Topic} (h : s.topic client = some topic)
    (stage : PartyStage) : (s.finish j client stage).ledger = s.ledger.finish j client stage :=
  ledger_modifyQueue (s := s.setStage j stage) h _

/-- What the registry does on `deactivate` is outside the ledger. -/
theorem ledger_endAll (cfg : Config) (s : Domains) (rs : List ℕ) :
    ((s.deactivate cfg rs).silence rs).ledger = s.ledger.endAll rs := by
  have hregistrations : ((s.deactivate cfg rs).silence rs).registrations =
      (s.ledger.endAll rs).registrations := by
    simp only [silence, deactivate, Ledger.endAll, ledger, List.mapIdx_mapIdx]
    congr 1
    funext r registration
    simp only [Function.comp]
    split <;> rfl
  change Ledger.mk _ _ _ _ _ _ = _
  rw [hregistrations]
  rfl

/-! ## What an event does -/

/-- What the history says of an `unsubscribe` that gets the mutex. -/
def leaveOf (s : Domains) (j : ℕ) (party : Party) (request : Option (UInt16 × Bytes)) : Leave where
  party := j
  live := s.live party
  others := s.livePeers j fun other => other.client = party.client ∧ other.pattern = party.pattern
  rivals := s.livePeers j fun other => other.topic = party.topic ∧ other.pattern = party.pattern
  request := request

/-- The party has the mutex of its client. -/
def Enters (s : Domains) (j : ℕ) (party : Party) : Prop :=
  s.parties[j]? = some party ∧ (s.queue party.client).head? = some j

/-- The ledger after the event `e` in `s`. -/
inductive Posted (s : Domains) (e : DomainsEvent) : Ledger → Prop
  | kept : Posted s e s.ledger
  | client {topic : Topic} :
      Posted s e { s.ledger with topic := Function.update s.topic s.clients.length (some topic) }
  /-- a call gets in line -/
  | called {party : Party} (htopic : s.topic party.client = some party.topic)
      (hshared : party.topic.shared = true)
      (hstage : party.stage = .joining ∨ party.stage = .clearing) :
      Posted s e { s.ledger.setQueue party.client (s.queue party.client ++ [s.parties.length]) with
        parties := s.parties ++ [party] }
  /-- a call without a mutex -/
  | asked {party : Party} (htopic : s.topic party.client = some party.topic)
      (hshared : party.topic.shared = false) (hstage : party.stage = .subscribing) :
      Posted s e { s.ledger with parties := s.parties ++ [party] }
  | joined {j : ℕ} {party : Party} {shared : SharedSubscription} (hj : s.Enters j party)
      (hstage : party.stage = .joining) (hentry : s.entry party.client party.pattern = some shared)
      (he : e = .enter j) :
      Posted s e ((s.ledger.setEntry party.client party.pattern
        (some ⟨shared.registration, shared.references + 1⟩)).finish j party.client
          (.held shared.registration))
  | subscribing {j : ℕ} {party : Party} (he : e = .enter j) (hj : s.Enters j party)
      (hstage : party.stage = .joining) (hentry : s.entry party.client party.pattern = none) :
      Posted s e (s.ledger.setStage j .subscribing)
  /-- a registration, and the entry for it -/
  | entered {j : ℕ} {party : Party} {registration : Restorable} (hget : s.parties[j]? = some party)
      (hstage : party.stage = .subscribing) (hshared : party.topic.shared = true)
      (hregistration : registration = ⟨s.conn.nextRegistrationId, s.conn.nextCell, true, true,
        party.topic, party.client, party.pattern⟩)
      (he : ∃ payload, e = .answer j (.ok payload)) :
      Posted s e (({ s.ledger with registrations := s.registrations ++ [registration] }.setEntry
        party.client party.pattern (some ⟨s.registrations.length, 1⟩)).finish j party.client
          (.held s.registrations.length))
  | registered {j : ℕ} {party : Party} {registration : Restorable} (hget : s.parties[j]? = some party)
      (hstage : party.stage = .subscribing) (hshared : party.topic.shared = false)
      (hregistration : registration = ⟨s.conn.nextRegistrationId, s.conn.nextCell, true, true,
        party.topic, party.client, party.pattern⟩)
      (he : ∃ payload, e = .answer j (.ok payload)) :
      Posted s e ({ s.ledger with registrations := s.registrations ++ [registration] }.setStage j
        (.held s.registrations.length))
  | checked {j r : ℕ} {party : Party} (hget : s.parties[j]? = some party)
      (hstage : party.stage = .held r) (hshared : party.topic.shared = true) :
      Posted s e (s.ledger.setStage j (.checked r))
  | queued {j r : ℕ} {party : Party} (hget : s.parties[j]? = some party)
      (hstage : party.stage = .checked r) :
      Posted s e ((s.ledger.setStage j (.leaving r)).setQueue party.client
        (s.queue party.client ++ [j]))
  /-- `unsubscribe` finds no entry -/
  | missed {j r : ℕ} {party : Party} (hj : s.Enters j party) (hstage : party.stage = .leaving r)
      (hentry : s.entry party.client party.pattern = none) :
      Posted s e ({ s.ledger with left := s.left ++ [s.leaveOf j party none] }.finish j
        party.client .gone)
  | decremented {j r : ℕ} {party : Party} {shared : SharedSubscription} (he : e = .enter j)
      (hj : s.Enters j party) (hstage : party.stage = .leaving r)
      (hentry : s.entry party.client party.pattern = some shared) (hmore : shared.references > 1) :
      Posted s e (({ s.ledger with left := s.left ++ [s.leaveOf j party none] }.setEntry
        party.client party.pattern (some ⟨shared.registration, shared.references - 1⟩)).finish j
          party.client .gone)
  | requested {j r : ℕ} {party : Party} {shared : SharedSubscription} {request : UInt16 × Bytes}
      (he : e = .enter j) (hj : s.Enters j party) (hstage : party.stage = .leaving r)
      (hentry : s.entry party.client party.pattern = some shared) (hlast : shared.references ≤ 1) :
      Posted s e ({ s.ledger with left := s.left ++ [s.leaveOf j party (some request)] }.setStage j
        (.unsubscribing r))
  | clearing {j : ℕ} {party : Party} (hj : s.Enters j party) (hstage : party.stage = .clearing) :
      Posted s e (s.ledger.setStage j .unsubscribingAll)
  /-- a handle that owns its registration ends it -/
  | deserted {j r : ℕ} {party : Party} (hget : s.parties[j]? = some party)
      (hstage : party.stage = .held r) (hshared : party.topic.shared = false) :
      Posted s e ((s.ledger.deactivate [r]).setStage j (.unsubscribing r))
  | removed {j r : ℕ} {party : Party} (hget : s.parties[j]? = some party)
      (hstage : party.stage = .unsubscribing r) (hshared : party.topic.shared = true) :
      Posted s e (((s.ledger.endAll [r]).setEntry party.client party.pattern none).finish j
        party.client .gone)
  | cleared {j : ℕ} {party : Party} (hget : s.parties[j]? = some party)
      (hstage : party.stage = .unsubscribingAll) :
      Posted s e ({ s.ledger.endAll (s.entered party.client) with
        entry := Function.update s.entry party.client fun _ => none }.finish j party.client .gone)
  /-- a handle or a call is gone, and the entry stays -/
  | ended {j : ℕ} {party : Party} (hget : s.parties[j]? = some party)
      (hstage : ∀ r, party.stage ≠ .checked r)
      (hlost : s.live party = false ∨ party.topic.shared = false ∨ s.lost e = some j) :
      Posted s e (s.ledger.finish j party.client .gone)

/-- Each party is of the domain of its client. -/
def Typed (s : Domains) : Prop :=
  ∀ (j : ℕ) party, s.parties[j]? = some party → s.topic party.client = some party.topic

/-- A client's clones alone are changed. -/
theorem posted_clones (i : ℕ) {f : DomainClient → DomainClient}
    (htopic : ∀ client, (f client).topic = client.topic)
    (hentry : ∀ client, (f client).subscriptions = client.subscriptions)
    (hqueue : ∀ client, (f client).queue = client.queue) :
    Posted s e (s.modifyClient i f).ledger := by
  have hledger : (s.modifyClient i f).ledger = s.ledger := by
    simp only [ledger, topic_modifyClient s i htopic, entry_modifyClient s i hentry,
      queue_modifyClient s i hqueue]
    rfl
  rw [hledger]
  exact .kept

/-- `Client::notice` hands out a clone of the client it keeps; the other accessors make a
client. -/
theorem posted_accessor (topic : Topic) : Posted s e (s.accessor topic).ledger := by
  have hnew : ∀ (notice : Option ℕ) (topic : Topic),
      Ledger.mk s.parties
        (entry { s with notice := notice, clients := s.clients ++ [⟨topic, 1, ∅, []⟩] })
        (queue { s with notice := notice, clients := s.clients ++ [⟨topic, 1, ∅, []⟩] })
        (Domains.topic { s with notice := notice, clients := s.clients ++ [⟨topic, 1, ∅, []⟩] })
        s.registrations s.left =
      { s.ledger with topic := Function.update s.topic s.clients.length (some topic) } := by
    intro notice topic
    -- a client that is not there yet has no entry and no queue either
    have hlast : ∀ i, (s.clients ++ [⟨topic, 1, ∅, []⟩])[i]? =
        if i = s.clients.length then some ⟨topic, 1, ∅, []⟩ else s.clients[i]? := by
      intro i
      rw [List.getElem?_append]
      split_ifs with hlt heq heq
      · omega
      · rfl
      · rw [heq, Nat.sub_self]
        rfl
      · rw [List.getElem?_eq_none (by simp; omega), List.getElem?_eq_none (by omega)]
    have hnone : s.clients[s.clients.length]? = none := List.getElem?_eq_none le_rfl
    simp only [ledger, Ledger.mk.injEq, true_and, and_true]
    refine ⟨?_, ?_, ?_⟩
    · funext i pattern
      simp only [entry, hlast]
      split
      · rename_i heq
        rw [heq, hnone]
        rfl
      · rfl
    · funext i
      simp only [queue, hlast]
      split
      · rename_i heq
        rw [heq, hnone]
        rfl
      · rfl
    · funext i
      simp only [Domains.topic, hlast]
      by_cases heq : i = s.clients.length
      · rw [if_pos heq, heq, Function.update_self]
        rfl
      · rw [if_neg heq, Function.update_of_ne heq]
        rfl
  unfold accessor
  split
  · exact posted_clones _ (fun _ => rfl) (fun _ => rfl) (fun _ => rfl)
  · change Posted s e (Ledger.mk _ _ _ _ _ _)
    rw [hnew]
    exact .client
  · change Posted s e (Ledger.mk _ _ _ _ _ _)
    rw [hnew]
    exact .client

theorem topic_of_client {i : ℕ} {client : DomainClient} (h : s.clients[i]? = some client) :
    s.topic i = some client.topic := by
  rw [topic, h]
  rfl

/-- A call of a shared domain gets in line. -/
theorem posted_call {party : Party} (htopic : s.topic party.client = some party.topic)
    (hshared : party.topic.shared = true)
    (hstage : party.stage = .joining ∨ party.stage = .clearing) :
    Posted s e (s.call party).ledger := by
  have hqueue := ledger_modifyQueue htopic (· ++ [s.parties.length])
  have hledger : (s.call party).ledger =
      { (s.modifyQueue party.client (· ++ [s.parties.length])).ledger with
        parties := s.parties ++ [party] } := rfl
  rw [hledger, hqueue]
  exact .called htopic hshared hstage

/-- `subscribe` up to the mutex, or to its request where there is none. -/
theorem posted_subscribe (i : ℕ) (pattern : String) : Posted s e (s.subscribe i pattern).ledger := by
  unfold subscribe
  split
  · rename_i client hget
    split
    · exact .kept
    · split
      · split
        · rename_i hshared
          exact posted_call (topic_of_client hget) hshared (.inl rfl)
        · rename_i hshared
          rw [Bool.not_eq_true] at hshared
          exact .asked (topic_of_client hget) hshared rfl
      · exact .kept
  · exact .kept

theorem posted_unsubscribeAll (i : ℕ) : Posted s e (s.unsubscribeAll i).ledger := by
  unfold unsubscribeAll
  split
  · rename_i client hget
    split
    · rename_i hnotice
      have htopic := topic_of_client hget
      rw [hnotice.1] at htopic
      exact posted_call htopic rfl (.inr rfl)
    · exact .kept
  · exact .kept

theorem enters_of_entering {j : ℕ} {party : Party} (h : s.entering j = some party) :
    s.Enters j party := by
  obtain ⟨hget, hhead⟩ := Option.filter_eq_some_iff.1 h
  exact ⟨hget, of_decide_eq_true hhead⟩

/-- Who has the mutex may run. -/
theorem entering_of_enters {j : ℕ} {party : Party} (hj : s.Enters j party) :
    s.entering j = some party := by
  rw [entering, hj.1, Option.filter_some, hj.2]
  simp

/-- With the mutex, one move for each way the three calls can go on. -/
theorem posted_enter (hs : s.Typed) (j : ℕ) : Posted s (.enter j) (s.enter j).ledger := by
  unfold enter
  split
  · rename_i party hentering
    have hj := enters_of_entering hentering
    have htopic := hs j party hj.1
    split
    · rename_i hstage
      unfold join
      split
      · rename_i shared hentry
        rw [ledger_finish (topic_setEntry s _ _ _ ▸ htopic), ledger_setEntry htopic]
        exact .joined hj hstage hentry rfl
      · rename_i hentry
        exact .subscribing rfl hj hstage hentry
    · rename_i r hstage
      unfold leave
      split
      · rename_i hentry
        rw [ledger_finish (s := s.record j party none) htopic]
        exact .missed hj hstage hentry
      · rename_i shared hentry
        split
        · rename_i hmore
          rw [ledger_finish (topic_setEntry (s.record j party none) _ _ _ ▸ htopic),
            ledger_setEntry (s := s.record j party none) htopic]
          exact .decremented rfl hj hstage hentry hmore
        · rename_i hlast
          exact .requested rfl hj hstage hentry (not_lt.1 hlast)
    · rename_i hstage
      exact .clearing hj hstage
    · exact .kept
  · exact .kept

/-- The answer to SUBSCRIBE makes a registration, and an entry where there is a map. -/
theorem posted_subscribed (hs : s.Typed) {j : ℕ} {party : Party} (hget : s.parties[j]? = some party)
    (hstage : party.stage = .subscribing) (result : Result Bytes) :
    Posted s (.answer j result)
      (s.subscribed cfg j party (result >>= party.topic.decodeSubscriptionId)).ledger := by
  have htopic := hs j party hget
  unfold subscribed
  cases hanswer : result >>= party.topic.decodeSubscriptionId with
  | error error =>
    rw [ledger_finish htopic]
    refine .ended hget (by simp [hstage]) (.inl ?_)
    simp [live, hstage, PartyStage.registration]
  | ok id =>
    have he : ∃ payload, DomainsEvent.answer j result = .answer j (.ok payload) := by
      cases result with
      | error error => cases hanswer
      | ok payload => exact ⟨payload, rfl⟩
    have hregister : (s.register cfg party id).topic = s.topic := rfl
    dsimp only
    split
    · rename_i hshared
      rw [ledger_finish (topic_setEntry (s.register cfg party id) _ _ _ ▸ htopic),
        ledger_setEntry (s := s.register cfg party id) htopic]
      exact .entered hget hstage hshared rfl he
    · rename_i hshared
      exact .registered hget hstage (Bool.not_eq_true _ ▸ hshared) rfl he

/-- The answer to UNSUBSCRIBE ends the registration and removes the entry, or loses the
handle. -/
theorem posted_unsubscribed (hs : s.Typed) {j r : ℕ} {party : Party}
    (hget : s.parties[j]? = some party) (hstage : party.stage = .unsubscribing r)
    (result : Result Bytes) : Posted s (.answer j result)
      (s.unsubscribed cfg j party r (result >>= party.topic.decodeUnsubscribe)).ledger := by
  have htopic := hs j party hget
  unfold unsubscribed
  cases hanswer : result >>= party.topic.decodeUnsubscribe with
  | error error =>
    rw [ledger_finish htopic]
    refine .ended hget (by simp [hstage]) (.inr (.inr ?_))
    simp only [lost, hget, Option.bind_some, hstage, hanswer]
  | ok answer =>
    dsimp only
    split
    · rename_i hshared
      have hended := ledger_endAll cfg s [r]
      rw [ledger_finish (topic_removeEntry ((s.deactivate cfg [r]).silence [r]) _ _ ▸ htopic),
        ledger_removeEntry, hended]
      exact .removed hget hstage hshared
    · rename_i hshared
      rw [Bool.not_eq_true] at hshared
      rw [ledger_finish htopic]
      exact .ended hget (by simp [hstage]) (.inr (.inl hshared))

/-- The answer to `unsubscribe_all` ends all the registrations of the map, or none. -/
theorem posted_unsubscribedAll (hs : s.Typed) {j : ℕ} {party : Party}
    (hget : s.parties[j]? = some party) (hstage : party.stage = .unsubscribingAll)
    (answer : Result Unit) : Posted s e (s.unsubscribedAll cfg j party answer).ledger := by
  have htopic := hs j party hget
  unfold unsubscribedAll
  cases answer with
  | error error =>
    rw [ledger_finish htopic]
    refine .ended hget (by simp [hstage]) (.inl ?_)
    simp [live, hstage, PartyStage.registration]
  | ok answer =>
    dsimp only
    have hended := ledger_endAll cfg s (s.entered party.client)
    rw [ledger_finish (topic_removeAll _ _ ▸ htopic), ledger_removeAll, hended]
    exact .cleared hget hstage

theorem posted_answer (hs : s.Typed) (j : ℕ) (result : Result Bytes) :
    Posted s (.answer j result) (s.answer cfg j result).ledger := by
  unfold answer
  split
  · rename_i party hget
    split
    · rename_i hstage
      exact posted_subscribed hs hget hstage _
    · rename_i r hstage
      exact posted_unsubscribed hs hget hstage result
    · rename_i hstage
      exact posted_unsubscribedAll hs hget hstage _
    · exact .kept
  · exact .kept

theorem posted_unsubscribe (hs : s.Typed) (j : ℕ) : Posted s e (s.unsubscribe cfg j).ledger := by
  unfold unsubscribe
  split
  · rename_i party hget
    split
    · rename_i r hstage
      split
      · rename_i hshared
        split
        · rename_i hactive
          rw [ledger_finish (hs j party hget)]
          exact .ended hget (by simp [hstage]) (.inl hactive.2)
        · exact .checked hget hstage hshared
      · rename_i hshared
        exact .deserted hget hstage (Bool.not_eq_true _ ▸ hshared)
    · exact .kept
  · exact .kept

theorem posted_enqueue (hs : s.Typed) (j : ℕ) : Posted s e (s.enqueue j).ledger := by
  unfold enqueue
  split
  · rename_i party hget
    split
    · rename_i r hstage
      rw [ledger_modifyQueue (s := s.setStage j (.leaving r)) (hs j party hget)]
      exact .queued hget hstage
    · exact .kept
  · exact .kept

/-- A future or a handle is dropped, whatever its stage. -/
theorem posted_abandon (hs : s.Typed) (j : ℕ) : Posted s (.abandon j) (s.abandon j).ledger := by
  unfold abandon
  split
  · rename_i party hget
    split
    · exact .kept
    · rename_i hstage
      rw [ledger_finish (hs j party hget)]
      refine .ended hget (fun r heq => hstage r heq) (.inr (.inr ?_))
      simp only [lost, hget, Option.bind_some]
  · exact .kept

/-- The connection has no part in the ledger. -/
theorem posted_connStep (event : Event) : Posted s e (s.connStep cfg event).ledger := by
  unfold connStep
  split <;> exact .kept

/-- **What an event does to the ledger.** -/
theorem posted_act (cfg : Config) (hs : s.Typed) (e : DomainsEvent) : Posted s e (s.act cfg e).ledger := by
  cases e with
  | conn event => exact posted_connStep event
  | accessor topic => exact posted_accessor topic
  | clone i =>
    refine posted_clones i ?_ ?_ ?_ <;> intro client <;> split <;> rfl
  | dropClient i => exact posted_clones i (fun _ => rfl) (fun _ => rfl) (fun _ => rfl)
  | subscribe i pattern => exact posted_subscribe i pattern
  | unsubscribeAll i => exact posted_unsubscribeAll i
  | enter j => exact posted_enter hs j
  | answer j result => exact posted_answer hs j result
  | unsubscribe j => exact posted_unsubscribe hs j
  | enqueue j => exact posted_enqueue hs j
  | abandon j => exact posted_abandon hs j

/-! ## What is dropped -/

theorem getElem?_freeMaps (s : Domains) (i : ℕ) : s.freeMaps.clients[i]? =
    (s.clients[i]?).map fun client =>
      if s.mapHeld i then client else { client with subscriptions := ∅ } := List.getElem?_mapIdx

/-- A map is emptied once nobody has it. -/
theorem entry_freeMaps (s : Domains) (i : ℕ) (pattern : String) :
    s.freeMaps.entry i pattern = if s.mapHeld i then s.entry i pattern else none := by
  simp only [entry, getElem?_freeMaps]
  cases s.clients[i]? with
  | none => split <;> rfl
  | some client =>
    simp only [Option.map_some, Option.bind_some]
    split <;> rfl

/-- The ledger once what nobody has is dropped. -/
theorem ledger_collect (cfg : Config) (s : Domains) : (s.collect cfg).ledger =
    { s.ledger with entry := fun i pattern => if s.mapHeld i then s.entry i pattern else none }.deactivate
      ((List.range s.registrations.length).filter fun r => !s.freeMaps.registrationHeld r) := by
  have hentry : s.freeMaps.entry = fun i pattern => if s.mapHeld i then s.entry i pattern else none := by
    funext i pattern
    exact entry_freeMaps s i pattern
  have hqueue : s.freeMaps.queue = s.queue := by
    funext i
    simp only [queue, getElem?_freeMaps]
    cases s.clients[i]? with
    | none => rfl
    | some client =>
      simp only [Option.map_some, Option.getD_some]
      split <;> rfl
  have htopic : s.freeMaps.topic = s.topic := by
    funext i
    simp only [topic, getElem?_freeMaps]
    cases s.clients[i]? with
    | none => rfl
    | some client =>
      simp only [Option.map_some, Option.some.injEq]
      split <;> rfl
  have hledger : s.freeMaps.ledger =
      { s.ledger with entry := fun i pattern => if s.mapHeld i then s.entry i pattern else none } := by
    simp only [ledger, hentry, hqueue, htopic]
    rfl
  rw [← hledger]
  rfl

end Domains

end Fitz
