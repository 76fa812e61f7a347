import Fitz.Proof.HandleMoves

/-!
# One feed for a pattern

`feeds_exclusive`: in every run in which the subscribes of a pattern go through one
client of its domain, no `unsubscribe` meets the entry of another registration, and a
`subscribe` goes on once nothing is under way that an earlier call or a restore has asked
for, one SUBSCRIBE of a pattern at most was written and is not answered, and UNSUBSCRIBE
is written while no other handle of the domain has the pattern.

`Client::stream` and `Client::schedule` make a new client at each call, with a map of its
own: the handles of two of them end each other's feed. And a call that is dropped, or
fails, leaves its request under way (`second_client_ends_feed`).

`FeedsInv` is the invariant: what asks for a pattern is one request or one restore
(`single`), that of the call that waits (`own`), and none where the pattern is registered
(`kept`).
-/

namespace Fitz

open Machine Tables

namespace Feeds

open Domains

variable {cfg : Config} {s : Feeds} {topic : Topic} {pattern : String} {o : Origin}

/-! ## Who asks for a pattern -/

theorem subscribes_request {t : Ticket} : s.subscribes topic pattern (.request t) = true ↔
    ∃ a ∈ s.asked, a.ticket = t ∧ a.ask = .subscribe ∧ a.topic = topic ∧ a.pattern = pattern := by
  rw [subscribes, List.any_eq_true]
  simp only [Bool.and_eq_true, decide_eq_true_eq, and_assoc]

theorem subscribes_restore {cell : Cell} : s.subscribes topic pattern (.restore cell) = true ↔
    ∃ (r : ℕ) (registration : Restorable), s.domains.registrations[r]? = some registration ∧
      registration.wireId = cell ∧ registration.topic = topic ∧ registration.pattern = pattern := by
  rw [subscribes, List.any_eq_true]
  simp only [Bool.and_eq_true, decide_eq_true_eq, and_assoc]
  constructor
  · rintro ⟨registration, hmem, hrest⟩
    obtain ⟨r, hget⟩ := List.mem_iff_getElem?.1 hmem
    exact ⟨r, registration, hget, hrest⟩
  · rintro ⟨r, registration, hget, hrest⟩
    exact ⟨registration, List.mem_of_getElem? hget, hrest⟩

/-- A SUBSCRIBE for the pattern that is under way. -/
def Asks (s : Feeds) (topic : Topic) (pattern : String) (o : Origin) : Prop :=
  s.conn.underWay o = true ∧ s.subscribes topic pattern o = true

theorem subscribing_iff : s.subscribing topic pattern = true ↔ ∃ o, s.Asks topic pattern o := by
  rw [subscribing, List.any_eq_true]
  simp only [Bool.and_eq_true]
  constructor
  · rintro ⟨o, -, hunder, hsubscribes⟩
    exact ⟨o, hunder, hsubscribes⟩
  · rintro ⟨o, hunder, hsubscribes⟩
    refine ⟨o, ?_, hunder, hsubscribes⟩
    cases o with
    | request t =>
      obtain ⟨a, hmem, rfl, -⟩ := subscribes_request.1 hsubscribes
      exact List.mem_append_left _ (List.mem_map.2 ⟨a, hmem, rfl⟩)
    | restore cell =>
      obtain ⟨r, registration, hget, rfl, -⟩ := subscribes_restore.1 hsubscribes
      exact List.mem_append_right _ (List.mem_map.2 ⟨registration, List.mem_of_getElem? hget, rfl⟩)
    | send | queued => cases hunder

/-- A request that is yet to be written is under way. -/
theorem asks_of_pending {a : Asking} (hmem : a ∈ s.asked) (hask : a.ask = .subscribe)
    (hpending : s.conn.pending a.ticket = true) : s.Asks a.topic a.pattern (.request a.ticket) :=
  ⟨Conn.underWay_request.2 (.inl hpending), subscribes_request.2 ⟨a, hmem, rfl, hask, rfl, rfl⟩⟩

/-! ## The condition -/

/-- A `subscribe` goes on where no UNSUBSCRIBE for its pattern is yet to be written, and
asks for it where no SUBSCRIBE for it is under way: no call left one behind, and no
restore. -/
def Settled (s : Feeds) : DomainsEvent → Prop
  | .enter j => ∀ party ∈ s.domains.entering j, party.stage = .joining →
    s.unsubscribing party.topic party.pattern = false ∧
      (s.domains.entry party.client party.pattern = none →
        s.subscribing party.topic party.pattern = false)
  | _ => True

instance Settled.decidable (s : Feeds) : ∀ e, Decidable (s.Settled e)
  | .enter j => inferInstanceAs (Decidable (∀ party ∈ s.domains.entering j, party.stage = .joining →
    s.unsubscribing party.topic party.pattern = false ∧
      (s.domains.entry party.client party.pattern = none →
        s.subscribing party.topic party.pattern = false)))
  | .conn _ | .accessor _ | .clone _ | .dropClient _ | .subscribe .. | .unsubscribeAll _
  | .answer .. | .unsubscribe _ | .enqueue _ | .abandon _ => inferInstanceAs (Decidable True)

/-- What the invariant asks of a step. -/
def Careful (s : Feeds) (e : DomainsEvent) : Prop :=
  s.domains.Single e ∧ s.domains.OwnEntry e ∧ s.Settled e

/-! ## The invariant -/

structure FeedsInv (s : Feeds) : Prop where
  exclusive : s.domains.ExclusiveInv
  running : s.conn.Running
  registered : s.domains.Registered
  celled : s.domains.Celled
  bound : ∀ a ∈ s.asked, a.ticket < s.conn.nextTicket
  shared : ∀ a ∈ s.asked, a.topic.shared = true
  /-- one SUBSCRIBE of a pattern is under way -/
  single : ∀ {topic : Topic}, topic.shared = true → ∀ {pattern o o'}, s.Asks topic pattern o →
    s.Asks topic pattern o' → o = o'
  /-- none of a call is yet to be written where the pattern is registered -/
  kept : ∀ (r : ℕ) registration, s.domains.registrations[r]? = some registration →
    registration.registered = true → ∀ a ∈ s.asked, a.ask = .subscribe →
      a.topic = registration.topic → a.pattern = registration.pattern →
        s.conn.pending a.ticket = false
  /-- that of a call is its own -/
  own : ∀ (j : ℕ) party, s.domains.parties[j]? = some party → party.topic.shared = true →
    party.stage = .subscribing → ∀ o, s.Asks party.topic party.pattern o →
      ∃ t, s.ticket j = some t ∧ o = .request t
  /-- where an UNSUBSCRIBE is yet to be written, nobody else has the pattern or gets it -/
  alone : ∀ a ∈ s.asked, a.ask = .unsubscribe → s.conn.pending a.ticket = true →
    s.domains.Lone a.party a.topic a.pattern
  parted : ∀ p ∈ s.parted, p.rivals = []

theorem feedsInv_new (cfg : Config) : FeedsInv (new cfg) where
  exclusive := exclusiveInv_new cfg
  running := Conn.running_new cfg
  registered := by
    intro entry hmem
    cases hmem
  celled := by
    constructor
    · intro r registration hget
      cases hget
    · intro r r' a b hget
      cases hget
  bound := by
    intro a hmem
    cases hmem
  shared := by
    intro a hmem
    cases hmem
  single := by
    intro topic _ pattern o o' ho
    have hnone : (new cfg).subscribing topic pattern = false := rfl
    rw [subscribing_iff.2 ⟨o, ho⟩] at hnone
    cases hnone
  kept := by
    intro r registration hget
    cases hget
  own := by
    intro j party hget
    cases hget
  alone := by
    intro a hmem
    cases hmem
  parted := by
    intro p hmem
    cases hmem

/-! ### Steps of the handles -/

/-- What a call is told is what its request was answered with. -/
def Told (s : Feeds) (e : DomainsEvent) : Prop :=
  ∀ (j : ℕ) payload party, e = .answer j (.ok payload) → s.domains.parties[j]? = some party →
    party.topic.shared = true → ∃ t, s.ticket j = some t ∧ s.conn.response t = some payload

theorem unsubscribing_iff : s.unsubscribing topic pattern = true ↔ ∃ a ∈ s.asked,
    a.ask = .unsubscribe ∧ a.topic = topic ∧ a.pattern = pattern ∧ s.conn.pending a.ticket = true := by
  rw [unsubscribing, List.any_eq_true]
  simp only [Bool.and_eq_true, decide_eq_true_eq, and_assoc]

theorem alone_step (h : FeedsInv s) {e : DomainsEvent} (hsettled : s.Settled e) {a : Asking}
    (hmem : a ∈ s.asked) (hask : a.ask = .unsubscribe) (hpending : s.conn.pending a.ticket = true) :
    (s.domains.step cfg e).Lone a.party a.topic a.pattern := by
  refine lone_step h.exclusive.sound (h.shared a hmem) (h.alone a hmem hask hpending) ?_
  rintro k party rfl hj hstage htopic hpattern
  have hnone := (hsettled party (entering_of_enters hj) hstage).1
  rw [unsubscribing_iff.2 ⟨a, hmem, hask, htopic.symm, hpattern.symm, hpending⟩] at hnone
  cases hnone

/-- **What is made of an answer has no other request behind it.** -/
theorem kept_step (h : FeedsInv s) {e : DomainsEvent} (ht : s.Told e) {r : ℕ}
    {registration : Restorable} (hget : (s.domains.step cfg e).registrations[r]? = some registration)
    (hregistered : registration.registered = true) {a : Asking} (hmem : a ∈ s.asked)
    (hask : a.ask = .subscribe) (htopic : a.topic = registration.topic)
    (hpattern : a.pattern = registration.pattern) : s.conn.pending a.ticket = false := by
  cases stems_step h.exclusive.sound hget with
  | kept hold htopic' hpattern' _ hregistered' =>
    exact h.kept r _ hold (hregistered' hregistered) a hmem hask (htopic.trans htopic')
      (hpattern.trans hpattern')
  | @made j party he hparty hstage htopic' hpattern' =>
    obtain ⟨payload, rfl⟩ := he
    have hshared := h.shared a hmem
    rw [htopic.trans htopic'] at hshared
    obtain ⟨t, hticket, hresponse⟩ := ht j payload party rfl hparty hshared
    rw [← Bool.not_eq_true]
    intro hpending
    -- it would be the request that was answered
    have hasks := asks_of_pending hmem hask hpending
    rw [htopic.trans htopic', hpattern.trans hpattern'] at hasks
    obtain ⟨t', hticket', heq⟩ := h.own j party hparty hshared hstage _ hasks
    cases hticket.symm.trans hticket'
    cases heq
    cases (Conn.not_pending_of_response h.running hresponse).symm.trans hpending

theorem asks_turn (h : FeedsInv s) {e : DomainsEvent} (hnot : ∀ event, e ≠ .conn event)
    (ho : (s.turn cfg e).Asks topic pattern o) : s.Asks topic pattern o := by
  obtain ⟨hunder, hsubscribes⟩ := ho
  have hbeside := beside_step cfg s.domains hnot
  have hunder' : s.conn.underWay o = true := (hbeside.underWay o).symm.trans hunder
  refine ⟨hunder', ?_⟩
  cases o with
  | request t => exact hsubscribes
  | restore cell =>
    obtain ⟨r, registration, hget, hcell, htopic, hpattern⟩ := subscribes_restore.1 hsubscribes
    cases stems_step h.exclusive.sound hget with
    | kept hold htopic' hpattern' hwireId =>
      exact subscribes_restore.2 ⟨r, _, hold, hwireId.symm.trans hcell, htopic'.symm.trans htopic,
        hpattern'.symm.trans hpattern⟩
    | made _ _ _ _ _ hwireId =>
      -- the cell of a new registration is in no restore
      have hlt := h.running.celled.restored cell (Conn.underWay_restore.1 hunder')
      exact absurd (hcell.symm.trans hwireId) (Nat.ne_of_lt hlt)
  | send | queued => cases hunder

theorem inv_turn (h : FeedsInv s) {e : DomainsEvent} (hnot : ∀ event, e ≠ .conn event)
    (hc : s.Careful e) (ht : s.Told e) : FeedsInv (s.turn cfg e) := by
  have hbeside := beside_step cfg s.domains hnot
  have hpending : ∀ t, (s.turn cfg e).conn.pending t = s.conn.pending t := hbeside.pending
  refine ⟨exclusiveInv_step cfg s.domains e h.exclusive ⟨hc.1, hc.2.1⟩,
    Domains.running_step cfg h.running e, registered_step cfg h.registered e,
    Domains.celled_step cfg h.celled e, fun a hmem => ?_, h.shared, ?_, ?_, ?_, ?_, h.parted⟩
  -- the handles make no request in such a step, so what is pending stays
  · exact (h.bound a hmem).trans_eq hbeside.nextTicket.symm
  · intro topic hshared pattern o o' ho ho'
    exact h.single hshared (asks_turn h hnot ho) (asks_turn h hnot ho')
  · intro r registration hget hregistered a hmem hask htopic hpattern
    rw [hpending]
    exact kept_step h ht hget hregistered hmem hask htopic hpattern
  · intro j party hget hshared hstage o ho
    have hold := asks_turn h hnot ho
    rcases subscribing_step h.exclusive.sound hget hshared hstage with hget' | hentered
    · exact h.own j party hget' hshared hstage o hold
    · -- who asks now has seen that nobody does
      obtain ⟨old, rfl, hj, hjoining, hentry, rfl⟩ := hentered
      have hnone := (hc.2.2 old (entering_of_enters hj) hjoining).2 hentry
      rw [subscribing_iff.2 ⟨o, hold⟩] at hnone
      cases hnone
  · intro a hmem hask hwaits
    rw [hpending] at hwaits
    exact alone_step h hc.2.2 hmem hask hwaits

/-! ### Steps of the connection -/

/-- A SUBSCRIBE that is under way after the next snapshot: of a call that is yet to write
it, or of what is registered. -/
inductive Collected (s : Feeds) (topic : Topic) (pattern : String) : Origin → Prop
  | asked {a : Asking} (hmem : a ∈ s.asked) (hask : a.ask = .subscribe) (htopic : a.topic = topic)
      (hpattern : a.pattern = pattern) (hpending : s.conn.pending a.ticket = true) :
      Collected s topic pattern (.request a.ticket)
  | registered {r : ℕ} {registration : Restorable}
      (hget : s.domains.registrations[r]? = some registration)
      (hregistered : registration.registered = true) (htopic : registration.topic = topic)
      (hpattern : registration.pattern = pattern) :
      Collected s topic pattern (.restore registration.wireId)

theorem subscribes_connStep (h : FeedsInv s) {event : Event}
    (ho : (s.connStep cfg event).subscribes topic pattern o = true) :
    s.subscribes topic pattern o = true := by
  cases o with
  | request t => exact ho
  | restore cell =>
    obtain ⟨r, registration, hget, hcell, htopic, hpattern⟩ := subscribes_restore.1 ho
    cases stems_step h.exclusive.sound hget with
    | kept hold htopic' hpattern' hwireId =>
      exact subscribes_restore.2 ⟨r, _, hold, hwireId.symm.trans hcell, htopic'.symm.trans htopic,
        hpattern'.symm.trans hpattern⟩
    | made he =>
      obtain ⟨payload, he⟩ := he
      cases he
  | send | queued => cases ho

/-- **What asks after a step of the connection** asked before, or the step took a snapshot
of the registry. -/
theorem asks_connStep (h : FeedsInv s) (event : Event) :
    (∀ topic pattern o, (s.connStep cfg event).Asks topic pattern o → s.Asks topic pattern o) ∨
      ∀ topic pattern o, (s.connStep cfg event).Asks topic pattern o →
        s.Collected topic pattern o := by
  have hbeside := beside_connStep cfg s.domains event
  have hbase := h.running.base
  -- the next id is of no request that was made
  have hnext : ∀ {topic pattern}, s.subscribes topic pattern (.request s.conn.nextTicket) = false := by
    intro topic pattern
    rw [← Bool.not_eq_true]
    intro hsubscribes
    obtain ⟨a, hmem, hticket, -⟩ := subscribes_request.1 hsubscribes
    exact absurd hticket (Nat.ne_of_lt (h.bound a hmem))
  rcases conn_connStep cfg s.domains event with hconn | hconn
  · refine .inl fun topic pattern o ho => ⟨?_, subscribes_connStep h ho.2⟩
    have hunder := (hbeside.underWay o).symm.trans ho.1
    rw [hconn] at hunder
    exact hunder
  · have hunder : ∀ {topic pattern o}, (s.connStep cfg event).Asks topic pattern o →
        (s.conn.step cfg event).underWay o = true := by
      intro topic pattern o ho
      have hunder := (hbeside.underWay o).symm.trans ho.1
      rw [hconn] at hunder
      exact hunder
    by_cases hc : s.conn.Collects cfg event
    · refine .inr fun topic pattern o ho => ?_
      have hsubscribes := subscribes_connStep h ho.2
      rcases Conn.underWay_collects hbase h.running.clean hc (hunder ho) with
        ⟨t, rfl, hpending | rfl⟩ | ⟨entry, hentry, rfl⟩
      · obtain ⟨a, hmem, rfl, hask, htopic, hpattern⟩ := subscribes_request.1 hsubscribes
        exact .asked hmem hask htopic hpattern hpending
      · cases hnext.symm.trans hsubscribes
      · obtain ⟨r, registration, hget, hregistered, -, hwireId⟩ := h.registered entry hentry
        obtain ⟨r', registration', hget', hwireId', htopic, hpattern⟩ :=
          subscribes_restore.1 hsubscribes
        -- a cell is of one registration
        obtain rfl := h.celled.distinct r r' _ _ hget hget' (hwireId.trans hwireId'.symm)
        cases hget.symm.trans hget'
        rw [← hwireId]
        exact .registered hget hregistered htopic hpattern
    · refine .inl fun topic pattern o ho => ?_
      have hsubscribes := subscribes_connStep h ho.2
      rcases Conn.underWay_step hbase h.running.clean hc (hunder ho) with hold | rfl
      · exact ⟨hold, hsubscribes⟩
      · cases hnext.symm.trans hsubscribes

/-- A call has no command to send that it had not before. -/
theorem pending_connStep (h : FeedsInv s) (event : Event) {a : Asking} (hmem : a ∈ s.asked)
    (hpending : (s.connStep cfg event).conn.pending a.ticket = true) :
    s.conn.pending a.ticket = true := by
  have hpending' := ((beside_connStep cfg s.domains event).pending a.ticket).symm.trans hpending
  rcases conn_connStep cfg s.domains event with hconn | hconn <;> rw [hconn] at hpending'
  · exact hpending'
  · rcases Conn.pending_step h.running.base hpending' with hold | hnext
    · exact hold
    · exact absurd hnext (Nat.ne_of_lt (h.bound a hmem))

theorem nextTicket_connStep (s : Feeds) (event : Event) :
    s.conn.nextTicket ≤ (s.connStep cfg event).conn.nextTicket := by
  have hbeside := beside_connStep cfg s.domains event
  change _ ≤ (s.domains.step cfg (.conn event)).conn.nextTicket
  rw [hbeside.nextTicket]
  rcases conn_connStep cfg s.domains event with hconn | hconn <;> rw [hconn]
  · exact le_rfl
  · exact (Conn.counters_step cfg s.conn event).1

theorem single_collected (h : FeedsInv s) (hshared : topic.shared = true) {o' : Origin}
    (ho : s.Collected topic pattern o) (ho' : s.Collected topic pattern o') : o = o' := by
  -- no call has a SUBSCRIBE to write for what is registered
  have hboth : ∀ {a : Asking} {r : ℕ} {registration : Restorable}, a ∈ s.asked → a.ask = .subscribe →
      s.conn.pending a.ticket = true → s.domains.registrations[r]? = some registration →
      registration.registered = true → a.topic = registration.topic →
      a.pattern ≠ registration.pattern := by
    intro a r registration hmem hask hpending hget hregistered htopic hpattern
    cases (h.kept r registration hget hregistered a hmem hask htopic hpattern).symm.trans hpending
  cases ho with
  | asked hmem hask htopic hpattern hpending =>
    cases ho' with
    | asked hmem' hask' htopic' hpattern' hpending' =>
      have hasks := asks_of_pending hmem hask hpending
      have hasks' := asks_of_pending hmem' hask' hpending'
      rw [htopic, hpattern] at hasks
      rw [htopic', hpattern'] at hasks'
      exact h.single hshared hasks hasks'
    | registered hget hregistered htopic' hpattern' =>
      exact absurd (hpattern.trans hpattern'.symm)
        (hboth hmem hask hpending hget hregistered (htopic.trans htopic'.symm))
  | registered hget hregistered htopic hpattern =>
    cases ho' with
    | asked hmem hask htopic' hpattern' hpending =>
      exact absurd (hpattern'.trans hpattern.symm)
        (hboth hmem hask hpending hget hregistered (htopic'.trans htopic.symm))
    | registered hget' hregistered' htopic' hpattern' =>
      have hr := registered_unique h.exclusive hget hget' hregistered hregistered'
        (by rw [htopic, hshared]) (htopic'.trans htopic.symm) (hpattern'.trans hpattern.symm)
      subst hr
      cases hget.symm.trans hget'
      rfl

theorem own_collected (h : FeedsInv s) {j : ℕ} {party : Party}
    (hget : s.domains.parties[j]? = some party) (hshared : party.topic.shared = true)
    (hstage : party.stage = .subscribing) (ho : s.Collected party.topic party.pattern o) :
    s.Asks party.topic party.pattern o := by
  cases ho with
  | asked hmem hask htopic hpattern hpending =>
    have hasks := asks_of_pending hmem hask hpending
    rw [htopic, hpattern] at hasks
    exact hasks
  | registered hget' hregistered htopic hpattern =>
    have hnot := not_registered_of_subscribing h.exclusive hget hshared hstage hget' htopic hpattern
    cases hnot.symm.trans hregistered

/-- A party that asks asked before. -/
theorem subscribing_connStep (h : FeedsInv s) {event : Event} {j : ℕ} {party : Party}
    (hget : (s.connStep cfg event).domains.parties[j]? = some party)
    (hshared : party.topic.shared = true) (hstage : party.stage = .subscribing) :
    s.domains.parties[j]? = some party := by
  rcases subscribing_step h.exclusive.sound hget hshared hstage with hold | ⟨old, he, -⟩
  · exact hold
  · -- a call gets its mutex in an event of its own
    cases he

theorem rivals_parted (h : FeedsInv s) (event : Event) :
    ∀ p ∈ (s.connStep cfg event).parted, p.rivals = [] := by
  intro p hmem
  rcases List.mem_append.1 hmem with hmem | hmem
  · exact h.parted p hmem
  · -- the frame was pending until now, and its party alone with the pattern
    obtain ⟨t, ht, hparting⟩ := List.mem_flatMap.1 hmem
    obtain ⟨a, hasked, rfl⟩ := List.mem_map.1 hparting
    obtain ⟨hin, hask⟩ := List.mem_filter.1 hasked
    simp only [Bool.and_eq_true, decide_eq_true_eq] at hask
    obtain ⟨rfl, hask⟩ := hask
    have hpending := Conn.pending_of_callsWritten h.running.base.negotiated ht
    exact (h.alone a hin hask hpending).peers

theorem inv_connStep (h : FeedsInv s) (event : Event) : FeedsInv (s.connStep cfg event) := by
  have htold : s.Told (.conn event) := by
    intro j payload party he
    cases he
  refine ⟨exclusiveInv_step cfg s.domains (.conn event) h.exclusive ⟨trivial, trivial⟩,
    Domains.running_step cfg h.running (.conn event), registered_step cfg h.registered (.conn event),
    Domains.celled_step cfg h.celled (.conn event),
    fun a hmem => (h.bound a hmem).trans_le (nextTicket_connStep s event), h.shared, ?_, ?_, ?_, ?_,
    rivals_parted h event⟩
  · intro topic hshared pattern o o' ho ho'
    rcases asks_connStep h event with hasks | hcollected
    · exact h.single hshared (hasks _ _ _ ho) (hasks _ _ _ ho')
    · exact single_collected h hshared (hcollected _ _ _ ho) (hcollected _ _ _ ho')
  · intro r registration hget hregistered a hmem hask htopic hpattern
    rw [← Bool.not_eq_true]
    intro hpending
    have hnot := kept_step h htold hget hregistered hmem hask htopic hpattern
    cases hnot.symm.trans (pending_connStep h event hmem hpending)
  · intro j party hget hshared hstage o ho
    have hget' := subscribing_connStep h hget hshared hstage
    refine h.own j party hget' hshared hstage o ?_
    rcases asks_connStep h event with hasks | hcollected
    · exact hasks _ _ _ ho
    · exact own_collected h hget' hshared hstage (hcollected _ _ _ ho)
  · intro a hmem hask hpending
    have hsettled : s.Settled (.conn event) := trivial
    exact alone_step h hsettled hmem hask (pending_connStep h event hmem hpending)

/-! ### Requests -/

/-- What the call `j` asks for, where the connection is as in `s`. -/
def asking (s : Feeds) (j : ℕ) (ask : Ask) (party : Party) : Asking :=
  ⟨s.conn.nextTicket, j, ask, party.topic, party.pattern⟩

theorem ticket_cons (s : Feeds) (a : Asking) (k : ℕ) :
    ticket { s with asked := a :: s.asked } k = if a.party = k then some a.ticket else s.ticket k := by
  unfold ticket
  rw [List.find?_cons]
  by_cases hk : a.party = k <;> simp [hk]

/-- The SUBSCRIBEs that are under way with a new request. -/
theorem asks_cons {a : Asking} (ho : Asks { s with asked := a :: s.asked } topic pattern o) :
    s.Asks topic pattern o ∨ (o = .request a.ticket ∧ a.ask = .subscribe ∧ a.topic = topic ∧
      a.pattern = pattern) := by
  obtain ⟨hunder, hsubscribes⟩ := ho
  cases o with
  | request t =>
    obtain ⟨b, hmem, rfl, hask, htopic, hpattern⟩ := subscribes_request.1 hsubscribes
    rcases List.mem_cons.1 hmem with rfl | hmem
    · exact .inr ⟨rfl, hask, htopic, hpattern⟩
    · exact .inl ⟨hunder, subscribes_request.2 ⟨b, hmem, rfl, hask, htopic, hpattern⟩⟩
  | restore cell => exact .inl ⟨hunder, hsubscribes⟩
  | send | queued => cases hunder

/-- **A request is made** with the mutex, where nobody asks for its pattern. -/
theorem inv_cons (h : FeedsInv s) {a : Asking} {party : Party}
    (hget : s.domains.parties[a.party]? = some party) (htopic : a.topic = party.topic)
    (hpattern : a.pattern = party.pattern) (hshared : party.topic.shared = true)
    (hbound : a.ticket < s.conn.nextTicket) (hstage : party.stage = .subscribing ↔ a.ask = .subscribe)
    (hnone : a.ask = .subscribe → ∀ o, ¬s.Asks a.topic a.pattern o)
    (hlone : a.ask = .unsubscribe → s.domains.Lone a.party a.topic a.pattern) :
    FeedsInv { s with asked := a :: s.asked } := by
  refine ⟨h.exclusive, h.running, h.registered, h.celled, fun b hmem => ?_, fun b hmem => ?_, ?_, ?_,
    ?_, fun b hmem hask hpending => ?_, h.parted⟩
  · rcases List.mem_cons.1 hmem with rfl | hmem
    · exact hbound
    · exact h.bound b hmem
  · rcases List.mem_cons.1 hmem with rfl | hmem
    · rw [htopic, hshared]
    · exact h.shared b hmem
  · intro topic hshared' pattern o o' ho ho'
    rcases asks_cons ho with hold | ⟨rfl, hask, rfl, rfl⟩ <;>
      rcases asks_cons ho' with hold' | ⟨rfl, hask', ht, hp⟩
    · exact h.single hshared' hold hold'
    · rw [← ht, ← hp] at hold
      exact absurd hold (hnone hask' o)
    · exact absurd hold' (hnone hask o')
    · rfl
  · intro r registration hget' hregistered b hmem hask ht hp
    rcases List.mem_cons.1 hmem with rfl | hmem
    · -- nothing is registered where a call asks
      have hnot := not_registered_of_subscribing h.exclusive hget hshared (hstage.2 hask) hget'
        (ht.symm.trans htopic) (hp.symm.trans hpattern)
      cases hnot.symm.trans hregistered
    · exact h.kept r registration hget' hregistered b hmem hask ht hp
  · intro k party' hk hshared' hsubscribing o ho
    rw [ticket_cons]
    rcases asks_cons ho with hold | ⟨rfl, hask, ht, hp⟩
    · have hne : a.party ≠ k := by
        rintro rfl
        cases hget.symm.trans hk
        have hask := hstage.1 hsubscribing
        rw [← htopic, ← hpattern] at hold
        exact hnone hask o hold
      rw [if_neg hne]
      exact h.own k party' hk hshared' hsubscribing o hold
    · have heq : a.party = k := by
        refine subscribing_unique h.exclusive hget hk hshared ?_ ?_ (hstage.2 hask) hsubscribing
        · exact ht.symm.trans htopic
        · exact hp.symm.trans hpattern
      exact ⟨a.ticket, if_pos heq, rfl⟩
  · rcases List.mem_cons.1 hmem with rfl | hmem
    · exact hlone hask
    · exact h.alone b hmem hask hpending

theorem nextTicket_allocate (s : Feeds) (kind : CallKind) (messageType : UInt16) (payload : Bytes) :
    (s.connStep cfg (.allocate kind messageType payload)).conn.nextTicket =
      s.conn.nextTicket + 1 := by
  have hbeside := beside_connStep cfg s.domains (.allocate kind messageType payload)
  refine hbeside.nextTicket.trans ?_
  simp only [Domains.connStep, Conn.step, Conn.allocate]
  split <;> rfl

theorem parties_connStep (s : Feeds) (event : Event) :
    (s.connStep cfg event).domains.parties = s.domains.parties := by
  change (s.domains.connStep cfg event).parties = _
  unfold Domains.connStep
  split <;> rfl

theorem inv_request (h : FeedsInv s) {j : ℕ} {ask : Ask} {party : Party} {stage : PartyStage}
    {messageType : UInt16} {payload : Bytes}
    (hget : s.domains.parties[j]? = some { party with stage := stage })
    (hshared : party.topic.shared = true) (hstage : stage = .subscribing ↔ ask = .subscribe)
    (hnone : ask = .subscribe → s.subscribing party.topic party.pattern = false)
    (hlone : ask = .unsubscribe → s.domains.Lone j party.topic party.pattern) :
    FeedsInv (s.request cfg j ask party messageType payload) := by
  have h' : FeedsInv (s.connStep cfg (.allocate (.request 0) messageType payload)) :=
    inv_connStep h _
  have hget' : (s.connStep cfg (.allocate (.request 0) messageType payload)).domains.parties[j]? =
      some { party with stage := stage } := by
    rw [parties_connStep]
    exact hget
  refine inv_cons (a := s.asking j ask party) h' hget' rfl rfl hshared ?_ hstage
    (fun hask o ho => ?_) fun hask => ?_
  · rw [nextTicket_allocate]
    exact Nat.lt_succ_self _
  · have hold : s.Asks party.topic party.pattern o := by
      rcases asks_connStep h (.allocate (.request 0) messageType payload) with hasks | hcollected
      · exact hasks _ _ _ ho
      · exact @own_collected s o h j { party with stage := stage } hget hshared (hstage.2 hask)
          (hcollected _ _ _ ho)
    have hnot := hnone hask
    rw [subscribing_iff.2 ⟨o, hold⟩] at hnot
    cases hnot
  · refine lone_step h.exclusive.sound hshared (hlone hask) fun k old he => ?_
    cases he

/-- What a call with the mutex asks for, and where it waits for the answer. -/
inductive Goes (s : Domains) (party : Party) : Ask → PartyStage → Prop
  | subscribe (hstage : party.stage = .joining)
      (hentry : s.entry party.client party.pattern = none) : Goes s party .subscribe .subscribing
  | unsubscribe {r : ℕ} {shared : SharedSubscription} (hstage : party.stage = .leaving r)
      (hentry : s.entry party.client party.pattern = some shared) (hlast : shared.references ≤ 1) :
      Goes s party .unsubscribe (.unsubscribing r)
  | unsubscribeAll (hstage : party.stage = .clearing) :
      Goes s party .unsubscribeAll .unsubscribingAll

theorem goes_of_asks {s : Domains} {j : ℕ} {ask : Ask} {party : Party} {messageType : UInt16}
    {payload : Bytes} (h : s.asks j = some (ask, party, messageType, payload)) :
    s.Enters j party ∧ ∃ stage, Goes s party ask stage ∧
      (s.step cfg (.enter j)).parties[j]? = some { party with stage := stage } := by
  unfold Domains.asks at h
  split at h
  · rename_i party' hentering
    have hj := enters_of_entering hentering
    have hset : ∀ stage, (s.setStage j stage).parties[j]? = some { party' with stage := stage } :=
      fun stage => getElem?_modify_self hj.1
    split at h
    · rename_i hstage hentry
      cases h
      have hact : s.act cfg (.enter j) = s.setStage j .subscribing := by
        simp only [Domains.act, Domains.enter, hentering, hstage, Domains.join, hentry]
      refine ⟨hj, .subscribing, .subscribe hstage hentry, ?_⟩
      change (s.act cfg (.enter j)).parties[j]? = _
      rw [hact]
      exact hset .subscribing
    · rename_i r shared hstage hentry
      split at h
      · cases h
      · rename_i hlast
        cases h
        have hact : (s.act cfg (.enter j)).parties = (s.setStage j (.unsubscribing r)).parties := by
          simp only [Domains.act, Domains.enter, hentering, hstage, Domains.leave, hentry, hlast,
            if_false]
          rfl
        refine ⟨hj, .unsubscribing r, .unsubscribe hstage hentry (not_lt.1 hlast), ?_⟩
        change (s.act cfg (.enter j)).parties[j]? = _
        rw [hact]
        exact hset (.unsubscribing r)
    · rename_i hstage
      cases h
      have hact : s.act cfg (.enter j) = s.setStage j .unsubscribingAll := by
        simp only [Domains.act, Domains.enter, hentering, hstage]
      refine ⟨hj, .unsubscribingAll, .unsubscribeAll hstage, ?_⟩
      change (s.act cfg (.enter j)).parties[j]? = _
      rw [hact]
      exact hset .unsubscribingAll
    · cases h
  · cases h

/-- Who asks for UNSUBSCRIBE is alone with its pattern. -/
theorem lone_of_leaving (h : FeedsInv s) {j r : ℕ} {party : Party} {shared : SharedSubscription}
    (hc : s.Careful (.enter j)) (hj : s.domains.Enters j party) (hstage : party.stage = .leaving r)
    (hentry : s.domains.entry party.client party.pattern = some shared)
    (hlast : shared.references ≤ 1) :
    (s.domains.step cfg (.enter j)).Lone j party.topic party.pattern := by
  have hshared := h.exclusive.sound.placed.mutexed j party hj.1 (by rw [hstage]; rfl)
  have hlone : s.domains.Lone j party.topic party.pattern := by
    refine ⟨rivals_requested h.exclusive hc.2.1 hj hstage hentry hlast none, ?_⟩
    intro k party' hk htopic hpattern hsubscribing
    have htyped : s.domains.topic party.client = some party'.topic := by
      rw [htopic]
      exact h.exclusive.sound.placed.typed j party hj.1
    have hnone := entry_of_subscribing h.exclusive hk (by rw [htopic, hshared]) hsubscribing htyped
    rw [hpattern, hentry] at hnone
    cases hnone
  refine lone_step h.exclusive.sound hshared hlone fun k party' he hk hjoining _ _ => ?_
  cases he
  cases hj.1.symm.trans hk.1
  cases hstage.symm.trans hjoining

theorem inv_enter (h : FeedsInv s) {j : ℕ} (hc : s.Careful (.enter j)) :
    FeedsInv (s.enter cfg j) := by
  have hnot : ∀ event, DomainsEvent.enter j ≠ .conn event := by
    intro event he
    cases he
  have htold : s.Told (.enter j) := by
    intro k payload party he
    cases he
  have hturn : FeedsInv (s.turn cfg (.enter j)) := inv_turn h hnot hc htold
  unfold enter
  split
  · rename_i ask party messageType payload hasks
    obtain ⟨hj, stage, hgoes, hget⟩ := goes_of_asks hasks
    have hmutexed := h.exclusive.sound.placed.mutexed j party hj.1
    cases hgoes with
    | subscribe hstage hentry =>
      refine inv_request hturn hget (hmutexed (by rw [hstage]; rfl)) (by simp) (fun _ => ?_) (by simp)
      rw [← Bool.not_eq_true]
      intro hsubscribing
      obtain ⟨o, ho⟩ := subscribing_iff.1 hsubscribing
      have hnone := (hc.2.2 party (entering_of_enters hj) hstage).2 hentry
      rw [subscribing_iff.2 ⟨o, asks_turn h hnot ho⟩] at hnone
      cases hnone
    | unsubscribe hstage hentry hlast =>
      refine inv_request hturn hget (hmutexed (by rw [hstage]; rfl)) (by simp) (by simp) fun _ => ?_
      exact lone_of_leaving h hc hj hstage hentry hlast
    | unsubscribeAll hstage =>
      exact inv_request hturn hget (hmutexed (by rw [hstage]; rfl)) (by simp) (by simp) (by simp)
  · exact hturn

/-! ### Answers -/

theorem inv_answer (h : FeedsInv s) (j : ℕ) (result : Result Bytes) :
    FeedsInv (s.answer cfg j result) := by
  have hnot : ∀ event, DomainsEvent.answer j result ≠ .conn event := by
    intro event he
    cases he
  have hc : s.Careful (.answer j result) := ⟨trivial, trivial, trivial⟩
  have hturn : s.Told (.answer j result) → FeedsInv (s.turn cfg (.answer j result)) :=
    inv_turn h hnot hc
  unfold answer
  split
  · rename_i party hget
    split
    · split
      · rename_i t payload hticket
        split
        · rename_i hresponse
          refine inv_connStep (hturn ?_) (.resume t)
          intro k payload' party' he _ _
          cases he
          exact ⟨t, hticket, hresponse⟩
        · exact h
      · rename_i t error hticket
        refine inv_connStep (inv_connStep (hturn ?_) (.resume t)) (.abandon t)
        intro k payload' party' he
        cases he
      · exact h
    · rename_i hshared
      refine hturn fun k payload' party' he hget' hshared' => ?_
      cases he
      cases hget.symm.trans hget'
      exact absurd hshared' hshared
  · exact h

theorem inv_abandon (h : FeedsInv s) (j : ℕ) : FeedsInv (s.abandon cfg j) := by
  have hturn : FeedsInv (s.turn cfg (.abandon j)) := by
    refine inv_turn h (fun event he => ?_) ⟨trivial, trivial, trivial⟩ fun k payload party he => ?_
    · cases he
    · cases he
  unfold abandon
  split
  · exact inv_connStep hturn _
  · exact hturn

theorem feedsInv_step (cfg : Config) (s : Feeds) (e : DomainsEvent) (h : FeedsInv s)
    (hc : s.Careful e) : FeedsInv (s.step cfg e) := by
  cases e with
  | conn event => exact inv_connStep h event
  | enter j => exact inv_enter h hc
  | answer j result => exact inv_answer h j result
  | abandon j => exact inv_abandon h j
  | accessor | clone | dropClient | subscribe | unsubscribeAll | unsubscribe | enqueue =>
    refine inv_turn h (fun event he => ?_) hc fun k payload party he => ?_
    · cases he
    · cases he

/-! ## Runs -/

/-- One feed for a pattern, and nobody who needs it loses it. -/
structure Fed (s : Feeds) : Prop where
  /-- UNSUBSCRIBE is asked for while no other handle of the domain has the pattern, -/
  unshared : ∀ leave ∈ s.domains.left, leave.request.isSome = true → leave.rivals = []
  /-- and is written so -/
  parted : ∀ p ∈ s.parted, p.rivals = []
  /-- a call asks, or the pattern is registered -/
  standing : ∀ topic : Topic, topic.shared = true → ∀ pattern, s.domains.standing topic pattern ≤ 1
  /-- one SUBSCRIBE was written that is not answered -/
  outstanding : ∀ topic : Topic, topic.shared = true → ∀ pattern, s.outstanding topic pattern ≤ 1

/-- No two frames of one origin await an answer. -/
theorem countP_origin_le_one (h : s.conn.Running) {p : Sent → Bool}
    (hp : ∀ f ∈ s.conn.awaited, p f = true → f.origin = o) (hunder : s.conn.underWay o = true) :
    s.conn.awaited.countP p ≤ 1 := by
  cases o with
  | request t =>
    have hsub : s.conn.awaited.Sublist s.conn.unanswered := by
      unfold Conn.awaited
      split
      · exact List.Sublist.refl _
      · exact List.nil_sublist _
    have hflight := h.base.tickets.nodup
    refine countP_le_one_of_nodup (f := (·.origin.ticket?)) (b := t) (fun f hmem hf => ?_)
      (hflight.sublist ((hsub.filterMap _).trans (List.sublist_append_right _ _)))
    rw [hp f hmem hf]
    rfl
  | restore cell =>
    refine countP_le_one_of_nodup (f := (·.origin.cell?)) (b := cell) (fun f hmem hf => ?_)
      (h.celled.once.sublist (List.sublist_append_right _ _))
    rw [hp f hmem hf]
    rfl
  | send | queued => cases hunder

/-- **One SUBSCRIBE of a pattern awaits its answer.** -/
theorem outstanding_of_inv (h : FeedsInv s) (hshared : topic.shared = true) (pattern : String) :
    s.outstanding topic pattern ≤ 1 := by
  have hasks : ∀ f ∈ s.conn.awaited, s.subscribes topic pattern f.origin = true →
      s.Asks topic pattern f.origin := by
    intro f hmem hsubscribes
    refine ⟨?_, hsubscribes⟩
    cases ho : f.origin with
    | request t => exact Conn.underWay_request.2 (.inr ⟨f, hmem, ho⟩)
    | restore cell =>
      refine Conn.underWay_restore.2 (List.mem_append_right _ (List.mem_filterMap.2 ⟨f, hmem, ?_⟩))
      rw [ho]
      rfl
    | send | queued => rw [ho] at hsubscribes; cases hsubscribes
  by_contra hmore
  have hpos : 0 < s.conn.awaited.countP fun f => s.subscribes topic pattern f.origin := by
    rw [outstanding] at hmore
    omega
  obtain ⟨f, hmem, hsubscribes⟩ := List.countP_pos_iff.1 hpos
  have hf := hasks f hmem hsubscribes
  refine hmore (countP_origin_le_one h.running (fun g hg hsubscribes' => ?_) hf.1)
  exact h.single hshared (hasks g hg hsubscribes') hf

theorem FeedsInv.fed (h : FeedsInv s) : Fed s where
  unshared := h.exclusive.unshared
  parted := h.parted
  standing _ hshared := once_of_inv h.exclusive hshared
  outstanding _ hshared := outstanding_of_inv h hshared

end Feeds

/-- **One feed for a pattern**, where each pattern is subscribed to through one client
of its domain, no handle meets the entry of another registration, and a `subscribe` goes
on once nothing is under way that an earlier call or a restore has asked for. -/
theorem feeds_exclusive (cfg : Config) (es : List DomainsEvent)
    (h : Along (Feeds.step cfg) (fun s e => s.domains.Single e ∧ s.domains.OwnEntry e ∧ s.Settled e)
      (.new cfg) es) :
    (run (Feeds.step cfg) (.new cfg) es).Fed :=
  (along_inv (Feeds.feedsInv_step cfg) (Feeds.feedsInv_new cfg) h).fed

/-! ## Clients of one domain, and calls that were given up -/

/-- The response to STREAM_SUBSCRIBE. -/
def streamSubscribedPayload (id : UInt64) : Bytes := 0 :: 1 :: putU64 id ++ putBytes []

/-- The request `t` is written. -/
def writtenRun (t : Ticket) : List DomainsEvent :=
  [.conn (.stamp t), .conn (.enqueue t), .conn (.command (.ok ()))]

/-- The request of the call `j`, with the id `id`, from the channel to its answer. -/
def repliedRun (j : ℕ) (t : Ticket) (id : UInt64) (messageType : UInt16) (payload : Bytes) :
    List DomainsEvent :=
  writtenRun t ++ [.conn (.inbound (replyFrame messageType id payload) (some 0) (.ok ())),
    .answer j (.ok payload)]

/-- The handle `j` of a stream, subscribed to at the client with the request `t`. -/
def streamRun (client j : ℕ) (t : Ticket) (id : UInt64) (pattern : String) : List DomainsEvent :=
  [.subscribe client pattern, .enter j] ++
    repliedRun j t id MessageType.streamSubscribe (streamSubscribedPayload (id + 6))

/-- The handle `j` goes, up to its request if it makes one. -/
def leavingRun (j : ℕ) : List DomainsEvent := [.unsubscribe j, .enqueue j, .enter j]

/-- A session with clients of the topics. -/
def clientsRun (topics : List Topic) : List DomainsEvent :=
  (firstSession 8).map .conn ++ topics.map .accessor

/-- A client and its clone subscribe to a stream, and go one after the other. -/
def clonedRun : List DomainsEvent :=
  clientsRun [.stream] ++ [.clone 0] ++ streamRun 0 0 1 1 "stream://a/b/c" ++
    [.subscribe 0 "stream://a/b/c", .enter 1] ++ leavingRun 0 ++ leavingRun 1 ++
      repliedRun 1 2 2 MessageType.streamUnsubscribe [0]

theorem feeds_exclusive_cloned :
    (run (Feeds.step ⟨4, ⟨true, 3⟩⟩) (.new ⟨4, ⟨true, 3⟩⟩) clonedRun).Fed :=
  feeds_exclusive _ _ (by decide +kernel)

/-- `stream()` is called twice, and both clients subscribe to one stream. -/
def twoHandlesRun : List DomainsEvent :=
  clientsRun [.stream, .stream] ++ streamRun 0 0 1 1 "stream://a/b/c" ++
    streamRun 1 1 2 2 "stream://a/b/c"

/-- One of the handles goes. -/
def twoClientsRun : List DomainsEvent := twoHandlesRun ++ leavingRun 0 ++ writtenRun 3

/-- A `subscribe` is dropped while its SUBSCRIBE is not answered, and another one follows. -/
def droppedSubscribeRun : List DomainsEvent :=
  clientsRun [.stream] ++ [.subscribe 0 "stream://a/b/c", .enter 0] ++ writtenRun 1 ++
    [.abandon 0, .subscribe 0 "stream://a/b/c", .enter 1] ++ writtenRun 2

/-- An `unsubscribe` is dropped while its UNSUBSCRIBE is in the channel, and another
`subscribe` finds the entry. -/
def droppedUnsubscribeRun : List DomainsEvent :=
  clientsRun [.stream] ++ streamRun 0 0 1 1 "stream://a/b/c" ++ leavingRun 0 ++
    [.conn (.stamp 2), .conn (.enqueue 2), .abandon 0, .subscribe 0 "stream://a/b/c", .enter 1,
      .conn (.command (.ok ()))]

/-- With two clients both SUBSCRIBEs stand, and UNSUBSCRIBE is written for the pattern while
the handle of the other client is live. With one client a dropped call leaves its request
behind: a second SUBSCRIBE is written before the first is answered, or UNSUBSCRIBE while a
new handle is live. -/
theorem second_client_ends_feed :
    (Along (Feeds.step ⟨4, ⟨true, 3⟩⟩) (fun s e => s.domains.OwnEntry e ∧ s.Settled e)
        (.new ⟨4, ⟨true, 3⟩⟩) twoClientsRun ∧
      (run (Feeds.step ⟨4, ⟨true, 3⟩⟩) (.new ⟨4, ⟨true, 3⟩⟩) twoHandlesRun).domains.standing
        .stream "stream://a/b/c" = 2 ∧
      (run (Feeds.step ⟨4, ⟨true, 3⟩⟩) (.new ⟨4, ⟨true, 3⟩⟩) twoClientsRun).parted =
        [⟨⟨3, 0, .unsubscribe, .stream, "stream://a/b/c"⟩, [1]⟩] ∧
      ¬(run (Feeds.step ⟨4, ⟨true, 3⟩⟩) (.new ⟨4, ⟨true, 3⟩⟩) twoClientsRun).Fed) ∧
    (Along (Feeds.step ⟨4, ⟨true, 3⟩⟩) (fun s e => s.domains.Single e ∧ s.domains.OwnEntry e)
        (.new ⟨4, ⟨true, 3⟩⟩) droppedSubscribeRun ∧
      (run (Feeds.step ⟨4, ⟨true, 3⟩⟩) (.new ⟨4, ⟨true, 3⟩⟩) droppedSubscribeRun).outstanding
        .stream "stream://a/b/c" = 2 ∧
      ¬(run (Feeds.step ⟨4, ⟨true, 3⟩⟩) (.new ⟨4, ⟨true, 3⟩⟩) droppedSubscribeRun).Fed) ∧
    (Along (Feeds.step ⟨4, ⟨true, 3⟩⟩) (fun s e => s.domains.Single e ∧ s.domains.OwnEntry e)
        (.new ⟨4, ⟨true, 3⟩⟩) droppedUnsubscribeRun ∧
      (run (Feeds.step ⟨4, ⟨true, 3⟩⟩) (.new ⟨4, ⟨true, 3⟩⟩) droppedUnsubscribeRun).parted =
        [⟨⟨2, 0, .unsubscribe, .stream, "stream://a/b/c"⟩, [1]⟩] ∧
      ¬(run (Feeds.step ⟨4, ⟨true, 3⟩⟩) (.new ⟨4, ⟨true, 3⟩⟩) droppedUnsubscribeRun).Fed) := by
  -- an UNSUBSCRIBE beside the handle 1
  have hrival : ∀ {s : Feeds} {a : Asking}, s.parted = [⟨a, [1]⟩] → ¬s.Fed := by
    intro s a hparted hfed
    have hnone := hfed.parted ⟨a, [1]⟩ (by rw [hparted]; exact List.mem_singleton_self _)
    cases hnone
  have htwo : (run (Feeds.step ⟨4, ⟨true, 3⟩⟩) (.new ⟨4, ⟨true, 3⟩⟩)
      twoClientsRun).parted = [⟨⟨3, 0, .unsubscribe, .stream, "stream://a/b/c"⟩, [1]⟩] := by
    decide +kernel
  have hdropped : (run (Feeds.step ⟨4, ⟨true, 3⟩⟩) (.new ⟨4, ⟨true, 3⟩⟩)
      droppedSubscribeRun).outstanding .stream "stream://a/b/c" = 2 := by
    decide +kernel
  have hlate : (run (Feeds.step ⟨4, ⟨true, 3⟩⟩) (.new ⟨4, ⟨true, 3⟩⟩)
      droppedUnsubscribeRun).parted =
        [⟨⟨2, 0, .unsubscribe, .stream, "stream://a/b/c"⟩, [1]⟩] := by
    decide +kernel
  refine ⟨⟨by decide +kernel, by decide +kernel, htwo, hrival htwo⟩,
    ⟨by decide +kernel, hdropped, fun hfed => ?_⟩, by decide +kernel, hlate, hrival hlate⟩
  have hone := hfed.outstanding .stream rfl "stream://a/b/c"
  omega

end Fitz
