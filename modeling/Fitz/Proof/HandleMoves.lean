import Fitz.Proof.UnderWay
import Fitz.Proof.Orphans
import Fitz.Proof.Exclusive

/-!
# What a step makes of handles and registrations

Where a live handle comes from (`Revived`), where a registration does (`Stems`), and how
long a handle stays alone with its pattern (`lone_step`). The handles change nothing of
the connection but its registry (`beside_step`), and each registration has a cell of its
own (`celled_step`).
-/

namespace Fitz

open Machine Tables

namespace Domains

open Ledger

variable {cfg : Config} {s : Domains} {e : DomainsEvent} {l' : Ledger}

/-! ## What a step makes -/

/-- What a handle that is live after the event was before: live, or a call that was
answered, or one that joins an entry. -/
inductive Revived (s : Domains) (e : DomainsEvent) (k : ℕ) (old : Party) : Prop
  | kept (h : s.live old = true)
  | answered (hstage : old.stage = .subscribing) (he : ∃ payload, e = .answer k (.ok payload))
  | joined (he : e = .enter k) (hj : s.Enters k old) (hstage : old.stage = .joining)
      {shared : SharedSubscription} (hentry : s.entry old.client old.pattern = some shared)

theorem revived_posted (h : s.ledger.Sound) (hp : Posted s e l') {k : ℕ} {party : Party}
    (hget : l'.parties[k]? = some party) (hlive : l'.live party = true) :
    ∃ old, s.parties[k]? = some old ∧ old.topic = party.topic ∧ old.pattern = party.pattern ∧
      Revived s e k old := by
  have hsame : s.parties[k]? = some party → s.live party = true →
      ∃ old, s.parties[k]? = some old ∧ old.topic = party.topic ∧ old.pattern = party.pattern ∧
        Revived s e k old :=
    fun hold hlive => ⟨party, hold, rfl, rfl, .kept hlive⟩
  -- a party that keeps its registration, or loses it
  have hset : ∀ (l : Ledger) (j : ℕ) (old : Party) (stage : PartyStage),
      l.parties = s.parties → (∀ party, l.live party = true → s.live party = true) →
      s.parties[j]? = some old →
      stage.registration = none ∨ stage.registration = old.stage.registration →
      (l.setStage j stage).parties[k]? = some party → l.live party = true →
      ∃ old, s.parties[k]? = some old ∧ old.topic = party.topic ∧ old.pattern = party.pattern ∧
        Revived s e k old := by
    intro l j old stage hparties hdrop hj hstage hget hlive
    rcases getElem?_setStage hget with ⟨rfl, old', hold, rfl⟩ | ⟨-, hold⟩
    · rw [hparties] at hold
      cases hj.symm.trans hold
      exact ⟨old, hj, rfl, rfl, .kept (live_stage (l := s.ledger) hstage (hdrop _ hlive))⟩
    · rw [hparties] at hold
      exact hsame hold (hdrop _ hlive)
  -- the registration of a call that was answered
  have hmade : ∀ (j : ℕ) (old : Party) (registration : Restorable), s.parties[j]? = some old →
      old.stage = .subscribing → (∃ payload, e = .answer j (.ok payload)) →
      (s.ledger.setStage j (.held s.registrations.length)).parties[k]? = some party →
      Ledger.live { s.ledger with registrations := s.registrations ++ [registration] } party = true →
      ∃ old, s.parties[k]? = some old ∧ old.topic = party.topic ∧ old.pattern = party.pattern ∧
        Revived s e k old := by
    intro j old registration hj hstage he hget hlive
    rcases getElem?_setStage hget with ⟨rfl, old', hold, rfl⟩ | ⟨-, hold⟩
    · cases hj.symm.trans hold
      exact ⟨old, hj, rfl, rfl, .answered hstage he⟩
    · exact hsame hold (live_register h registration k party hold hlive)
  cases hp with
  | kept => exact hsame hget hlive
  | client => exact hsame hget hlive
  -- a new party has no registration yet
  | called htopic hshared hstage =>
    rcases getElem?_concat_eq_some hget with hold | ⟨-, rfl⟩
    · exact hsame hold hlive
    · have hnone : party.stage.registration = none := by
        rcases hstage with hstage | hstage <;> rw [hstage] <;> rfl
      cases (live_none (l := s.ledger) hnone).symm.trans hlive
  | asked htopic hshared hstage =>
    rcases getElem?_concat_eq_some hget with hold | ⟨-, rfl⟩
    · exact hsame hold hlive
    · have hnone : party.stage.registration = none := by
        rw [hstage]
        rfl
      cases (live_none (l := s.ledger) hnone).symm.trans hlive
  | @joined j old shared hj hstage hentry he =>
    rcases getElem?_setStage hget with ⟨rfl, old', hold, rfl⟩ | ⟨-, hold⟩
    · cases hj.1.symm.trans hold
      exact ⟨old, hj.1, rfl, rfl, .joined he hj hstage hentry⟩
    · exact hsame hold hlive
  | @subscribing j old he hj hstage hentry =>
    exact hset s.ledger j old .subscribing rfl (fun _ h => h) hj.1 (.inl rfl) hget hlive
  | @entered j old registration hj hstage hshared hregistration he =>
    exact hmade j old registration hj hstage he hget hlive
  | @registered j old registration hj hstage hshared hregistration he =>
    exact hmade j old registration hj hstage he hget hlive
  | @checked j r old hj hstage hshared =>
    exact hset s.ledger j old (.checked r) rfl (fun _ h => h) hj (.inr (by rw [hstage]; rfl)) hget hlive
  | @queued j r old hj hstage =>
    exact hset s.ledger j old (.leaving r) rfl (fun _ h => h) hj (.inr (by rw [hstage]; rfl)) hget hlive
  | @missed j r old hj hstage hentry =>
    exact hset s.ledger j old .gone rfl (fun _ h => h) hj.1 (.inl rfl) hget hlive
  | @decremented j r old shared he hj hstage hentry hmore =>
    exact hset s.ledger j old .gone rfl (fun _ h => h) hj.1 (.inl rfl) hget hlive
  | @requested j r old shared request he hj hstage hentry hlast =>
    exact hset s.ledger j old (.unsubscribing r) rfl (fun _ h => h) hj.1
      (.inr (by rw [hstage]; rfl)) hget hlive
  | @clearing j old hj hstage =>
    exact hset s.ledger j old .unsubscribingAll rfl (fun _ h => h) hj.1 (.inl rfl) hget hlive
  | @deserted j r old hj hstage hshared =>
    exact hset (s.ledger.deactivate [r]) j old (.unsubscribing r) rfl
      (fun party h => (live_deactivate s.ledger [r] party).symm.trans h) hj
      (.inr (by rw [hstage]; rfl)) hget hlive
  | @removed j r old hj hstage hshared =>
    exact hset (s.ledger.endAll [r]) j old .gone rfl (fun _ h => (live_endAll h).1) hj (.inl rfl)
      hget hlive
  | @cleared j old hj hstage =>
    exact hset (s.ledger.endAll (s.entered old.client)) j old .gone rfl
      (fun _ h => (live_endAll h).1) hj (.inl rfl) hget hlive
  | @ended j old hj hstage hlost =>
    exact hset s.ledger j old .gone rfl (fun _ h => h) hj (.inl rfl) hget hlive

/-- What a registration was before the event: the same, or a call that was answered. -/
inductive Stems (s : Domains) (e : DomainsEvent) (r : ℕ) (registration : Restorable) : Prop
  | kept {old : Restorable} (hget : s.registrations[r]? = some old)
      (htopic : registration.topic = old.topic) (hpattern : registration.pattern = old.pattern)
      (hwireId : registration.wireId = old.wireId)
      (hregistered : registration.registered = true → old.registered = true)
  | made {j : ℕ} {party : Party} (he : ∃ payload, e = .answer j (.ok payload))
      (hget : s.parties[j]? = some party) (hstage : party.stage = .subscribing)
      (htopic : registration.topic = party.topic) (hpattern : registration.pattern = party.pattern)
      (hwireId : registration.wireId = s.conn.nextCell)

theorem stems_posted (hp : Posted s e l') {r : ℕ} {registration : Restorable}
    (hget : l'.registrations[r]? = some registration) : Stems s e r registration := by
  have hsame : s.registrations[r]? = some registration → Stems s e r registration :=
    fun hold => .kept hold rfl rfl rfl id
  have hnew : ∀ {j : ℕ} {party : Party} {new : Restorable}, s.parties[j]? = some party →
      party.stage = .subscribing → new = ⟨s.conn.nextRegistrationId, s.conn.nextCell, true, true,
        party.topic, party.client, party.pattern⟩ → (∃ payload, e = .answer j (.ok payload)) →
      (s.registrations ++ [new])[r]? = some registration → Stems s e r registration := by
    intro j party new hj hstage hnew he hget
    rcases getElem?_concat_eq_some hget with hold | ⟨-, rfl⟩
    · exact hsame hold
    · subst hnew
      exact .made he hj hstage rfl rfl rfl
  have hended : ∀ {rs : List ℕ}, (s.ledger.endAll rs).registrations[r]? = some registration →
      Stems s e r registration := by
    intro rs hget
    obtain ⟨old, hold, rfl⟩ := getElem?_endAll hget
    refine .kept hold ?_ ?_ ?_ ?_ <;> split
    all_goals first
      | rfl
      | exact fun hregistered => absurd hregistered Bool.false_ne_true
      | exact id
  cases hp with
  | @entered j party new hj hstage hshared hregistration he =>
    exact hnew hj hstage hregistration he hget
  | @registered j party new hj hstage hshared hregistration he =>
    exact hnew hj hstage hregistration he hget
  | @deserted j r' party hj hstage hshared =>
    obtain ⟨old, hold, rfl⟩ := getElem?_deactivate (l := s.ledger) hget
    refine .kept hold ?_ ?_ ?_ ?_ <;> split
    all_goals first
      | rfl
      | exact fun hregistered => absurd hregistered Bool.false_ne_true
      | exact id
  | removed | cleared => exact hended hget
  | kept | client | called | asked | joined | subscribing | checked | queued | missed | decremented
  | requested | clearing | ended => exact hsame hget

/-! ### With what is dropped -/

theorem subscribing_step (h : s.ledger.Sound) {k : ℕ} {party : Party}
    (hget : (s.step cfg e).parties[k]? = some party) (hshared : party.topic.shared = true)
    (hstage : party.stage = .subscribing) : s.parties[k]? = some party ∨
      ∃ old, e = .enter k ∧ s.Enters k old ∧ old.stage = .joining ∧
        s.entry old.client old.pattern = none ∧ party = { old with stage := .subscribing } :=
  subscribing_posted (posted_act cfg h.placed.typed e) hget hshared hstage

theorem revived_step (h : s.ledger.Sound) {k : ℕ} {party : Party}
    (hget : (s.step cfg e).parties[k]? = some party) (hlive : (s.step cfg e).live party = true) :
    ∃ old, s.parties[k]? = some old ∧ old.topic = party.topic ∧ old.pattern = party.pattern ∧
      Revived s e k old := by
  refine revived_posted h (posted_act cfg h.placed.typed e) hget ?_
  change (s.step cfg e).ledger.live party = true at hlive
  rw [step, ledger_collect, live_deactivate] at hlive
  exact hlive

theorem stems_step (h : s.ledger.Sound) {r : ℕ} {registration : Restorable}
    (hget : (s.step cfg e).registrations[r]? = some registration) : Stems s e r registration := by
  have hledger := ledger_collect cfg (s.act cfg e)
  have hget' : (s.step cfg e).ledger.registrations[r]? = some registration := hget
  rw [step, hledger] at hget'
  obtain ⟨old, hold, rfl⟩ := getElem?_deactivate hget'
  -- what is collected behind the event is switched off and changes nothing else
  cases stems_posted (posted_act cfg h.placed.typed e) hold with
  | kept hget htopic hpattern hwireId hregistered =>
    split
    · exact .kept hget htopic hpattern hwireId fun hfalse => absurd hfalse Bool.false_ne_true
    · exact .kept hget htopic hpattern hwireId hregistered
  | made he hget hstage htopic hpattern hwireId =>
    split <;> exact .made he hget hstage htopic hpattern hwireId

/-- No live handle but that of `j` has the pattern, and no call asks for it. -/
structure Lone (s : Domains) (j : ℕ) (topic : Topic) (pattern : String) : Prop where
  peers : (s.livePeers j fun other => other.topic = topic ∧ other.pattern = pattern) = []
  calls : ∀ (k : ℕ) party, s.parties[k]? = some party → party.topic = topic →
    party.pattern = pattern → party.stage ≠ .subscribing

/-- So it stays until a `subscribe` for the pattern goes on. -/
theorem lone_step (h : s.ledger.Sound) {j : ℕ} {topic : Topic} {pattern : String}
    (hshared : topic.shared = true) (hl : s.Lone j topic pattern)
    (hjoin : ∀ (k : ℕ) party, e = .enter k → s.Enters k party → party.stage = .joining →
      party.topic = topic → party.pattern ≠ pattern) : (s.step cfg e).Lone j topic pattern where
  peers := by
    refine List.eq_nil_iff_forall_not_mem.2 fun k hmem => ?_
    obtain ⟨hne, party, hget, hlive, hp⟩ := mem_livePeers.1 hmem
    obtain ⟨rfl, rfl⟩ := of_decide_eq_true hp
    obtain ⟨old, hold, htopic, hpattern, hrevived⟩ := revived_step h hget hlive
    cases hrevived with
    | kept hlive =>
      -- it was a peer before
      have hpeer : k ∈ s.livePeers j fun other =>
          other.topic = party.topic ∧ other.pattern = party.pattern :=
        mem_livePeers.2 ⟨hne, old, hold, hlive, decide_eq_true ⟨htopic, hpattern⟩⟩
      rw [hl.peers] at hpeer
      cases hpeer
    | answered hstage => exact hl.calls k old hold htopic hpattern hstage
    | joined he hj hstage => exact hjoin k old he hj hstage htopic hpattern
  calls := by
    rintro k party hget rfl rfl hstage
    rcases subscribing_step h hget hshared hstage with hold | ⟨old, he, hj, hjoining, -, rfl⟩
    · exact hl.calls k party hold rfl rfl hstage
    · exact hjoin k old he hj hjoining rfl rfl

/-! ## The connection under the handles -/

/-- The registrations have cells of their own. -/
structure Celled (s : Domains) : Prop where
  fresh : ∀ (r : ℕ) registration, s.registrations[r]? = some registration →
    registration.wireId < s.conn.nextCell
  distinct : ∀ (r r' : ℕ) a b, s.registrations[r]? = some a → s.registrations[r']? = some b →
    a.wireId = b.wireId → r = r'

/-- A deactivation changes the registry only. -/
theorem deactivate_eq (conn : Conn) (keys : List UInt64) :
    keys.foldl (fun conn key => conn.step cfg (.deactivate key)) conn =
      { conn with registrations := keys.foldl (fun rs key => rs.erase key) conn.registrations } := by
  induction keys generalizing conn with
  | nil => rfl
  | cons key keys ih =>
    rw [List.foldl_cons, ih]
    rfl

/-- Registrations that keep their cells. -/
theorem Celled.congr {s' : Domains} (h : s.Celled) (hnext : s.conn.nextCell ≤ s'.conn.nextCell)
    (hold : ∀ (r : ℕ) registration, s'.registrations[r]? = some registration →
      ∃ old, s.registrations[r]? = some old ∧ registration.wireId = old.wireId) : s'.Celled := by
  refine ⟨fun r registration hget => ?_, fun r r' a b hr hr' heq => ?_⟩
  · obtain ⟨old, hget, heq⟩ := hold r registration hget
    rw [heq]
    exact (h.fresh r old hget).trans_le hnext
  · obtain ⟨olda, hra, ha⟩ := hold r a hr
    obtain ⟨oldb, hrb, hb⟩ := hold r' b hr'
    exact h.distinct r r' olda oldb hra hrb (ha.symm.trans (heq.trans hb))

theorem handled_celled (cfg : Config) : Handled cfg Celled where
  congr h hconn hregistrations := by
    refine h.congr (le_of_eq (by rw [hconn])) fun r registration hget => ⟨registration, ?_, rfl⟩
    rw [← hregistrations]
    exact hget
  register {s} h party id := by
    refine ⟨fun r registration hget => ?_, fun r r' a b hr hr' heq => ?_⟩
    · change registration.wireId < s.conn.nextCell + 1
      rcases getElem?_concat_eq_some hget with hold | ⟨-, rfl⟩
      · exact (h.fresh r registration hold).trans (Nat.lt_succ_self _)
      · exact Nat.lt_succ_self _
    · rcases getElem?_concat_eq_some hr with hold | ⟨hlast, rfl⟩ <;>
        rcases getElem?_concat_eq_some hr' with hold' | ⟨hlast', rfl⟩
      · exact h.distinct r r' a b hold hold' heq
      -- the new cell is beyond all others
      · exact absurd heq (Nat.ne_of_lt (h.fresh r a hold))
      · exact absurd heq (Nat.ne_of_gt (h.fresh r' b hold'))
      · exact hlast.trans hlast'.symm
  deactivate {s} h rs := by
    refine h.congr (le_of_eq ?_) fun r registration hget => ?_
    · rw [deactivate, deactivate_eq]
    · obtain ⟨old, hold, rfl⟩ := getElem?_deactivate (l := s.ledger) hget
      exact ⟨old, hold, by split <;> rfl⟩
  silence {s} h rs := by
    refine h.congr le_rfl fun r registration hget => ?_
    rw [silence, List.getElem?_mapIdx] at hget
    obtain ⟨old, hold, rfl⟩ := Option.map_eq_some_iff.1 hget
    exact ⟨old, hold, by split <;> rfl⟩

theorem conn_connStep (cfg : Config) (s : Domains) (event : Event) :
    (s.connStep cfg event).conn = s.conn ∨
      (s.connStep cfg event).conn = s.conn.step cfg event := by
  unfold connStep
  split
  · exact .inl rfl
  · exact .inl rfl
  · exact .inr rfl

theorem celled_step (cfg : Config) (h : s.Celled) (e : DomainsEvent) : (s.step cfg e).Celled := by
  refine (handled_celled cfg).step h e fun event _ => h.congr ?_ fun r registration hget => ?_
  · rcases conn_connStep cfg s event with hconn | hconn <;> rw [hconn]
    exact Conn.nextCell_step s.conn event
  · rw [registrations_of_connStep] at hget
    exact ⟨registration, hget, rfl⟩

theorem handled_running (cfg : Config) : Handled cfg fun s => s.conn.Running where
  congr h hconn _ := by
    rw [hconn]
    exact h
  register {s} h party id := Conn.running_step cfg s.conn (.register party.topic.subscribeType
    (putString party.pattern) id party.topic.decodeSubscriptionId) h
  deactivate {s} h rs := by
    change ((s.registeredKeys rs).foldl _ s.conn).Running
    generalize s.conn = conn at h
    induction s.registeredKeys rs generalizing conn with
    | nil => exact h
    | cons key keys ih => exact ih _ (Conn.running_step cfg conn _ h)
  silence h rs := h

theorem running_step (cfg : Config) (h : s.conn.Running) (e : DomainsEvent) :
    (s.step cfg e).conn.Running := by
  refine (handled_running cfg).step h e fun event _ => ?_
  rcases conn_connStep cfg s event with hconn | hconn <;> rw [hconn]
  · exact h
  · exact Conn.running_step cfg s.conn event h

theorem handled_beside (cfg : Config) (conn : Conn) : Handled cfg fun s => conn.Beside s.conn where
  congr h hconn _ := by
    rw [hconn]
    exact h
  register h party id := ⟨h.calls, h.commands, h.todo, h.unanswered, h.pc, h.nextTicket⟩
  deactivate {s} h rs := by
    rw [deactivate, deactivate_eq]
    exact ⟨h.calls, h.commands, h.todo, h.unanswered, h.pc, h.nextTicket⟩
  silence h rs := h

/-- The handles leave the connection but for its registry. -/
theorem beside_step (cfg : Config) (s : Domains) {e : DomainsEvent} (hnot : ∀ event, e ≠ .conn event) :
    s.conn.Beside (s.step cfg e).conn :=
  (handled_beside cfg s.conn).step ⟨rfl, rfl, rfl, rfl, rfl, rfl⟩ e fun event he =>
    absurd he (hnot event)

theorem beside_connStep (cfg : Config) (s : Domains) (event : Event) :
    (s.connStep cfg event).conn.Beside (s.step cfg (.conn event)).conn :=
  (handled_beside cfg _).collect ⟨rfl, rfl, rfl, rfl, rfl, rfl⟩

end Domains

end Fitz
