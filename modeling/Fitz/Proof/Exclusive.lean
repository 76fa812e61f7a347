import Fitz.Proof.References

/-!
# One client for a pattern

Where the subscribes of a pattern go through one client of its domain, and no
`unsubscribe` meets the entry of another registration, the mutex and the map of that
client keep the calls apart: one of them asks for the pattern at a time, none where it is
registered (`once_of_inv`), and UNSUBSCRIBE is asked for while no other handle of the
domain has the pattern (`rivals_requested`). What is on the wire meanwhile is the subject
of `Fitz.Proof.Feeds`.
-/

namespace Fitz

open Machine Tables

namespace Ledger

variable {l l' : Ledger} {i : ℕ} {pattern : String}

/-- The party is a shared `subscribe` of the pattern that awaits its answer. -/
def Asks (i : ℕ) (pattern : String) (party : Party) : Prop :=
  party.client = i ∧ party.pattern = pattern ∧ party.topic.shared = true ∧
    party.stage = .subscribing

instance (i : ℕ) (pattern : String) (party : Party) : Decidable (Asks i pattern party) :=
  inferInstanceAs (Decidable (_ ∧ _))

/-- The client has an entry for the pattern, or has asked for it. -/
def occupied (l : Ledger) (i : ℕ) (pattern : String) : Bool :=
  (l.entry i pattern).isSome || l.parties.any fun party => Asks i pattern party

theorem occupied_iff : l.occupied i pattern = true ↔
    (∃ shared, l.entry i pattern = some shared) ∨
      ∃ (j : ℕ) (party : Party), l.parties[j]? = some party ∧ Asks i pattern party := by
  rw [occupied, Bool.or_eq_true, Option.isSome_iff_exists, List.any_eq_true]
  refine or_congr Iff.rfl ⟨?_, ?_⟩
  · rintro ⟨party, hmem, hasks⟩
    obtain ⟨j, hget⟩ := List.mem_iff_getElem?.1 hmem
    exact ⟨j, party, hget, of_decide_eq_true hasks⟩
  · rintro ⟨j, party, hget, hasks⟩
    exact ⟨party, List.mem_of_getElem? hget, decide_eq_true hasks⟩

theorem occupied_of_entry {shared : SharedSubscription} (h : l.entry i pattern = some shared) :
    l.occupied i pattern = true := occupied_iff.2 (.inl ⟨shared, h⟩)

theorem occupied_of_asks {j : ℕ} {party : Party} (hget : l.parties[j]? = some party)
    (h : Asks i pattern party) : l.occupied i pattern = true :=
  occupied_iff.2 (.inr ⟨j, party, hget, h⟩)

/-- What a change occupies was occupied before. -/
theorem occupied_of (hentry : ∀ shared, l'.entry i pattern = some shared → l.occupied i pattern = true)
    (hparties : ∀ (k : ℕ) party, l'.parties[k]? = some party → party.stage = .subscribing →
      party.topic.shared = true → l.parties[k]? = some party)
    (h : l'.occupied i pattern = true) : l.occupied i pattern = true := by
  rcases occupied_iff.1 h with ⟨shared, hsome⟩ | ⟨k, party, hget, hasks⟩
  · exact hentry shared hsome
  · have hold := hparties k party hget hasks.2.2.2 hasks.2.2.1
    exact occupied_of_asks hold hasks

/-- An entry that is changed was there, or was asked for. -/
theorem occupied_setEntry {client : ℕ} {pattern' : String} {new : Option SharedSubscription}
    (hentry : l'.entry = (l.setEntry client pattern' new).entry)
    (hold : l.occupied client pattern' = true) (shared : SharedSubscription)
    (h : l'.entry i pattern = some shared) : l.occupied i pattern = true := by
  rw [hentry] at h
  by_cases heq : i = client ∧ pattern = pattern'
  · rw [heq.1, heq.2]
    exact hold
  · exact occupied_of_entry ((setEntry_of_ne l heq new).symm.trans h)

/-- The patterns of a domain are with one of its clients. -/
def Exclusive (l : Ledger) : Prop :=
  ∀ (i i' : ℕ) (pattern : String), l.occupied i pattern = true → l.occupied i' pattern = true →
    l.topic i = l.topic i' → i = i'

end Ledger

namespace Domains

open Ledger

variable {cfg : Config} {s : Domains} {e : DomainsEvent} {l' : Ledger}

/-! ## Where SUBSCRIBE is sent -/

/-- No other client of the domain has the pattern. -/
def alone (s : Domains) (party : Party) : Bool :=
  (List.range s.clients.length).all fun i =>
    i = party.client || s.topic i ≠ some party.topic || !s.ledger.occupied i party.pattern

/-- A SUBSCRIBE is sent for a pattern that no other client of the domain has. -/
def Single (s : Domains) : DomainsEvent → Prop
  | .enter j => ∀ party ∈ s.entering j, party.stage = .joining →
    s.entry party.client party.pattern = none → s.alone party = true
  | _ => True

instance Single.decidable (s : Domains) : ∀ e, Decidable (s.Single e)
  | .enter j => inferInstanceAs (Decidable (∀ party ∈ s.entering j, party.stage = .joining →
    s.entry party.client party.pattern = none → s.alone party = true))
  | .conn _ | .accessor _ | .clone _ | .dropClient _ | .subscribe .. | .unsubscribeAll _
  | .answer .. | .unsubscribe _ | .enqueue _ | .abandon _ => inferInstanceAs (Decidable True)

/-- A call asks for its pattern once it has found no entry for it. -/
theorem subscribing_posted (hp : Posted s e l') {k : ℕ} {party : Party}
    (hget : l'.parties[k]? = some party) (hshared : party.topic.shared = true)
    (hstage : party.stage = .subscribing) : s.parties[k]? = some party ∨
      ∃ old, e = .enter k ∧ s.Enters k old ∧ old.stage = .joining ∧
        s.entry old.client old.pattern = none ∧ party = { old with stage := .subscribing } := by
  -- where a party has come to another stage
  have hset : ∀ {j : ℕ} {stage : PartyStage}, stage ≠ .subscribing →
      (s.ledger.setStage j stage).parties[k]? = some party → s.parties[k]? = some party := by
    intro j stage hne hget
    rcases getElem?_setStage hget with ⟨-, old, -, rfl⟩ | ⟨-, hold⟩
    · exact absurd hstage hne
    · exact hold
  cases hp with
  | kept => exact .inl hget
  | client => exact .inl hget
  | called htopic hshared' hstage' =>
    rcases getElem?_concat_eq_some hget with hold | ⟨-, rfl⟩
    · exact .inl hold
    · rcases hstage' with hstage' | hstage' <;> cases hstage'.symm.trans hstage
  | asked htopic hshared' hstage' =>
    rcases getElem?_concat_eq_some hget with hold | ⟨-, rfl⟩
    · exact .inl hold
    · cases hshared'.symm.trans hshared
  | @subscribing j old he hj hjoining hentry =>
    rcases getElem?_setStage hget with ⟨rfl, old', hold, rfl⟩ | ⟨-, hold⟩
    · cases hold.symm.trans hj.1
      exact .inr ⟨old, he, hj, hjoining, hentry, rfl⟩
    · exact .inl hold
  | registered | checked | queued | missed | requested | clearing | deserted | ended | joined
  | decremented | entered | removed | cleared => exact .inl (hset (by simp) hget)

/-- An entry is made where its pattern was asked for. -/
theorem occupied_of_entry_posted (h : s.ledger.Sound) (hp : Posted s e l') {i : ℕ} {pattern : String}
    {shared : SharedSubscription} (hsome : l'.entry i pattern = some shared) :
    s.ledger.occupied i pattern = true := by
  cases hp with
  | @joined j party old hj hstage hentry =>
    exact occupied_setEntry (by rfl) (occupied_of_entry hentry) shared hsome
  | @decremented j r party old he hj hstage hentry hmore =>
    exact occupied_setEntry (by rfl) (occupied_of_entry hentry) shared hsome
  | @entered j party registration hget hstage hshared hregistration =>
    have hasks : Asks party.client party.pattern party := ⟨rfl, rfl, hshared, hstage⟩
    exact occupied_setEntry (by rfl) (occupied_of_asks hget hasks) shared hsome
  | @removed j r party hget hstage hshared =>
    obtain ⟨old, hentry, -⟩ := h.counted.unsubscribing j r party hget hshared hstage
    exact occupied_setEntry (by rfl) (occupied_of_entry hentry) shared hsome
  | @cleared j party hget hstage =>
    by_cases heq : i = party.client
    · subst heq
      have hnone := (congrFun (Function.update_self party.client _ s.entry) pattern).symm.trans hsome
      cases hnone
    · have hold := (congrFun (Function.update_of_ne heq _ s.entry) pattern).symm.trans hsome
      exact occupied_of_entry hold
  | kept | client | called | asked | subscribing | registered | checked | queued | missed | requested
  | clearing | deserted | ended => exact occupied_of_entry hsome

/-- **A step asks for a pattern where it sends SUBSCRIBE for it only.** -/
theorem occupied_posted (h : s.ledger.Sound) (hp : Posted s e l') {i : ℕ} {pattern : String}
    (hoccupied : l'.occupied i pattern = true) : s.ledger.occupied i pattern = true ∨
      ∃ (j : ℕ) (party : Party), e = .enter j ∧ s.Enters j party ∧ party.stage = .joining ∧
        s.entry party.client party.pattern = none ∧ party.client = i ∧ party.pattern = pattern := by
  rcases occupied_iff.1 hoccupied with ⟨shared, hsome⟩ | ⟨k, party, hget, hasks⟩
  · exact .inl (occupied_of_entry_posted h hp hsome)
  · rcases subscribing_posted hp hget hasks.2.2.1 hasks.2.2.2 with hold | hjoin
    · exact .inl (occupied_of_asks hold hasks)
    · obtain ⟨old, he, hj, hjoining, hentry, rfl⟩ := hjoin
      exact .inr ⟨k, old, he, hj, hjoining, hentry, hasks.1, hasks.2.1⟩

/-- The client of what is occupied is there. -/
theorem topic_of_occupied (h : s.ledger.Sound) {i : ℕ} {pattern : String}
    (hoccupied : s.ledger.occupied i pattern = true) : ∃ topic, s.topic i = some topic := by
  rcases occupied_iff.1 hoccupied with ⟨shared, hsome⟩ | ⟨j, party, hget, hasks⟩
  · obtain ⟨registration, -, htopic, -⟩ := h.entered.made i pattern shared hsome
    exact ⟨registration.topic, htopic⟩
  · have htyped := h.placed.typed j party hget
    rw [hasks.1] at htyped
    exact ⟨party.topic, htyped⟩

/-- A client keeps its domain. -/
theorem topic_posted (hp : Posted s e l') {i : ℕ} {topic : Topic} (h : s.topic i = some topic) :
    l'.topic i = some topic := by
  cases hp with
  | client => exact topic_update h
  | _ => exact h

theorem exclusive_posted (h : s.ledger.Sound) (hx : s.ledger.Exclusive) (hp : Posted s e l')
    (hs : s.Single e) : l'.Exclusive := by
  -- a place that is asked for now is with no other client
  have hnew : ∀ (j i : ℕ) (party : Party), e = .enter j → s.Enters j party → party.stage = .joining →
      s.entry party.client party.pattern = none → s.ledger.occupied i party.pattern = true →
      s.topic i = some party.topic → i = party.client := by
    intro j i party he hj hstage hentry hoccupied htopic
    subst he
    have halone := hs party (entering_of_enters hj) hstage hentry
    obtain ⟨client, hget, -⟩ := Option.map_eq_some_iff.1 htopic
    have hmem : i ∈ List.range s.clients.length :=
      List.mem_range.2 (List.getElem?_eq_some_iff.1 hget).1
    have hi := List.all_eq_true.1 halone i hmem
    simpa [htopic, hoccupied] using hi
  have htopic : ∀ {i : ℕ} {topic : Topic}, s.topic i = some topic → l'.topic i = some topic :=
    fun h => topic_posted hp h
  intro i i' pattern hi hi' heq
  rcases occupied_posted h hp hi with hold | ⟨j, party, he, hj, hstage, hentry, rfl, rfl⟩
  · obtain ⟨topic, ht⟩ := topic_of_occupied h hold
    rcases occupied_posted h hp hi' with hold' | ⟨j, party, he, hj, hstage, hentry, rfl, rfl⟩
    · obtain ⟨topic', ht'⟩ := topic_of_occupied h hold'
      rw [htopic ht, htopic ht'] at heq
      exact hx i i' pattern hold hold' (ht.trans (heq.trans ht'.symm))
    · have htyped : s.topic party.client = some party.topic := h.placed.typed j party hj.1
      rw [htopic ht, htopic htyped] at heq
      exact hnew j i party he hj hstage hentry hold (ht.trans heq)
  · have htyped : s.topic party.client = some party.topic := h.placed.typed j party hj.1
    rcases occupied_posted h hp hi' with hold' | ⟨j', party', he', hj', -, -, rfl, -⟩
    · obtain ⟨topic', ht'⟩ := topic_of_occupied h hold'
      rw [htopic htyped, htopic ht'] at heq
      exact (hnew j i' party he hj hstage hentry hold' (ht'.trans heq.symm)).symm
    · rw [he] at he'
      cases he'
      rw [Option.some.inj (hj.1.symm.trans hj'.1)]

theorem exclusive_collect (cfg : Config) (hx : s.ledger.Exclusive) :
    (s.collect cfg).ledger.Exclusive := by
  rw [ledger_collect]
  have hold : ∀ (i : ℕ) (pattern : String) (rs : List ℕ), (Ledger.deactivate { s.ledger with
      entry := fun i pattern => if s.mapHeld i then s.entry i pattern else none } rs).occupied i
        pattern = true → s.ledger.occupied i pattern = true := by
    intro i pattern rs hoccupied
    refine occupied_of (fun shared hsome => ?_) (fun k party hget _ _ => ?_) hoccupied
    · change (if s.mapHeld i then s.entry i pattern else none) = some shared at hsome
      split at hsome
      · exact occupied_of_entry hsome
      · cases hsome
    · exact hget
  intro i i' pattern hi hi' heq
  exact hx i i' pattern (hold i pattern _ hi) (hold i' pattern _ hi') heq

/-! ## Runs -/

/-- What stands for a pattern: the calls that have asked for it, and what is registered. -/
def standing (s : Domains) (topic : Topic) (pattern : String) : ℕ :=
  (s.parties.countP fun party =>
    party.topic = topic && party.pattern = pattern && party.stage = .subscribing) +
  s.registrations.countP fun registration =>
    registration.topic = topic && registration.pattern = pattern && registration.registered

structure ExclusiveInv (s : Domains) : Prop where
  sound : s.ledger.Sound
  exclusive : s.ledger.Exclusive
  unshared : ∀ leave ∈ s.left, leave.request.isSome = true → leave.rivals = []

theorem exclusiveInv_new (cfg : Config) : ExclusiveInv (new cfg) where
  sound := sound_new cfg
  exclusive := by
    intro i i' pattern hi
    rcases occupied_iff.1 hi with ⟨shared, hsome⟩ | ⟨j, party, hget, -⟩
    · cases hsome
    · cases hget
  unshared := by
    intro leave hmem
    cases hmem

/-- **Nobody else has the pattern** of a handle that asks for UNSUBSCRIBE. -/
theorem rivals_requested (h : ExclusiveInv s) {j r : ℕ} {party : Party} {shared : SharedSubscription}
    (ho : s.OwnEntry (.enter j)) (hj : s.Enters j party) (hstage : party.stage = .leaving r)
    (hentry : s.entry party.client party.pattern = some shared) (hlast : shared.references ≤ 1)
    (request : Option (UInt16 × Bytes)) : (s.leaveOf j party request).rivals = [] := by
  refine List.eq_nil_iff_forall_not_mem.2 fun k hmem => ?_
  obtain ⟨hne, party', hget, hlive', hp⟩ := mem_livePeers.1 hmem
  obtain ⟨htopic', hpattern'⟩ := of_decide_eq_true hp
  have hshared := h.sound.placed.mutexed j party hj.1 (by rw [hstage]; rfl)
  have hr := own_of_enters ho hj hstage hentry
  have hlive : s.ledger.live party = true := live_of_entry h.sound hentry (by rw [hstage, hr]; rfl)
  -- the other one has its entry too, at the same client
  have hclient : party'.client = party.client := by
    cases hr' : party'.stage.registration with
    | none => cases (live_none (l := s.ledger) hr').symm.trans hlive'
    | some r' =>
      obtain ⟨shared', hentry', -⟩ := h.sound.counted.own k r' party' hget
        (by rw [htopic']; exact hshared) hlive' hr'
      rw [hpattern'] at hentry'
      refine h.exclusive _ _ party.pattern (occupied_of_entry hentry') (occupied_of_entry hentry) ?_
      rw [h.sound.placed.typed k party' hget, h.sound.placed.typed j party hj.1, htopic']
  have hcount := h.sound.counted.enough _ _ shared hentry
  have hcounts : s.ledger.counts party.client party.pattern party' = true :=
    counts_iff.2 ⟨hclient, hpattern', hlive'⟩
  exact hne (eq_of_countP_le_one (le_trans hcount hlast) hget hj.1 hcounts (counts_self hlive))

theorem unshared_posted (h : ExclusiveInv s) (hp : Posted s e l') (ho : s.OwnEntry e) :
    ∀ leave ∈ l'.left, leave.request.isSome = true → leave.rivals = [] := by
  have hconcat : ∀ new : Leave, (new.request.isSome = true → new.rivals = []) →
      ∀ leave ∈ s.left ++ [new], leave.request.isSome = true → leave.rivals = [] := by
    intro new hnew leave hmem
    rcases List.mem_append.1 hmem with hmem | hmem
    · exact h.unshared leave hmem
    · rw [List.mem_singleton.1 hmem]
      exact hnew
  cases hp with
  | missed => exact hconcat _ fun hsome => absurd hsome Bool.false_ne_true
  | decremented => exact hconcat _ fun hsome => absurd hsome Bool.false_ne_true
  | @requested j r party shared request he hj hstage hentry hlast =>
    subst he
    exact hconcat _ fun _ => rivals_requested h ho hj hstage hentry hlast (some request)
  | kept | client | called | asked | joined | subscribing | entered | registered | checked | queued
  | clearing | deserted | removed | cleared | ended => exact h.unshared

theorem exclusiveInv_step (cfg : Config) (s : Domains) (e : DomainsEvent) (h : ExclusiveInv s)
    (hc : s.Single e ∧ s.OwnEntry e) : ExclusiveInv (s.step cfg e) := by
  have hp := posted_act cfg h.sound.placed.typed e
  refine ⟨sound_step cfg s e h.sound hc.2, exclusive_collect cfg ?_, unshared_posted h hp hc.2⟩
  exact exclusive_posted h.sound h.exclusive hp hc.1

/-! ## One call for a pattern -/

/-- What is registered has its entry. -/
theorem entry_of_registered (h : ExclusiveInv s) {r : ℕ} {registration : Restorable}
    (hget : s.registrations[r]? = some registration) (hregistered : registration.registered = true)
    (hshared : registration.topic.shared = true) :
    ∃ shared, s.entry registration.client registration.pattern = some shared ∧
      shared.registration = r ∧ s.topic registration.client = some registration.topic := by
  obtain ⟨shared, hentry, hr⟩ := h.sound.entered.kept r registration hget hregistered hshared
  obtain ⟨registration', hget', htopic, -⟩ := h.sound.entered.made _ _ shared hentry
  rw [hr] at hget'
  cases hget.symm.trans hget'
  exact ⟨shared, hentry, hr, htopic⟩

theorem registered_unique (h : ExclusiveInv s) {r r' : ℕ} {a b : Restorable}
    (hr : s.registrations[r]? = some a) (hr' : s.registrations[r']? = some b)
    (ha : a.registered = true) (hb : b.registered = true) (hshared : a.topic.shared = true)
    (htopic : b.topic = a.topic) (hpattern : b.pattern = a.pattern) : r = r' := by
  obtain ⟨shared, hentry, hplace, ht⟩ := entry_of_registered h hr ha hshared
  obtain ⟨shared', hentry', hplace', ht'⟩ := entry_of_registered h hr' hb (by rw [htopic, hshared])
  rw [hpattern] at hentry'
  rw [htopic] at ht'
  have hclient := h.exclusive _ _ a.pattern (occupied_of_entry hentry) (occupied_of_entry hentry')
    (ht.trans ht'.symm)
  rw [hclient] at hentry
  cases hentry.symm.trans hentry'
  exact hplace.symm.trans hplace'

/-- A call asks for a pattern that no client of its domain has an entry for. -/
theorem entry_of_subscribing (h : ExclusiveInv s) {j i : ℕ} {party : Party}
    (hget : s.parties[j]? = some party) (hshared : party.topic.shared = true)
    (hstage : party.stage = .subscribing) (ht : s.topic i = some party.topic) :
    s.entry i party.pattern = none := by
  by_contra hne
  obtain ⟨shared, hentry⟩ := Option.ne_none_iff_exists'.1 hne
  have hoccupied := occupied_of_asks (l := s.ledger) hget ⟨rfl, rfl, hshared, hstage⟩
  have htyped : s.topic party.client = some party.topic := h.sound.placed.typed j party hget
  have hclient := h.exclusive _ _ party.pattern (occupied_of_entry hentry) hoccupied
    (ht.trans htyped.symm)
  rw [hclient] at hentry
  cases (h.sound.counted.subscribing j party hget hshared hstage).symm.trans hentry

/-- Nor is anything registered for it. -/
theorem not_registered_of_subscribing (h : ExclusiveInv s) {j r : ℕ} {party : Party}
    {registration : Restorable} (hget : s.parties[j]? = some party)
    (hshared : party.topic.shared = true) (hstage : party.stage = .subscribing)
    (hr : s.registrations[r]? = some registration) (htopic : registration.topic = party.topic)
    (hpattern : registration.pattern = party.pattern) : registration.registered = false := by
  rw [← Bool.not_eq_true]
  intro hregistered
  obtain ⟨shared, hentry, -, ht⟩ := entry_of_registered h hr hregistered (by rw [htopic, hshared])
  rw [htopic] at ht
  rw [hpattern, entry_of_subscribing h hget hshared hstage ht] at hentry
  cases hentry

/-- Two calls do not ask for one pattern. -/
theorem subscribing_unique (h : ExclusiveInv s) {i j : ℕ} {a b : Party}
    (hi : s.parties[i]? = some a) (hj : s.parties[j]? = some b) (hshared : a.topic.shared = true)
    (htopic : b.topic = a.topic) (hpattern : b.pattern = a.pattern) (ha : a.stage = .subscribing)
    (hb : b.stage = .subscribing) : i = j := by
  have hshared' : b.topic.shared = true := by rw [htopic, hshared]
  have hoccupied := occupied_of_asks (l := s.ledger) hi ⟨rfl, rfl, hshared, ha⟩
  have hoccupied' := occupied_of_asks (l := s.ledger) hj ⟨rfl, hpattern, hshared', hb⟩
  have hta := h.sound.placed.typed i a hi
  have htb := h.sound.placed.typed j b hj
  have hclient := h.exclusive _ _ a.pattern hoccupied hoccupied' (by rw [hta, htb, htopic])
  have hhead := h.sound.lined.locked j b hj hshared' (by rw [hb]; rfl)
  exact eq_of_locked h.sound.lined hhead hi hshared (by rw [ha]; rfl) hclient

/-- **One subscription of a pattern.** A call that has asked and what is registered are at
one client, and there the mutex and the map keep them apart. -/
theorem once_of_inv (h : ExclusiveInv s) {topic : Topic} (hshared : topic.shared = true)
    (pattern : String) : s.standing topic pattern ≤ 1 := by
  have hparties : (s.parties.countP fun party =>
      party.topic = topic && party.pattern = pattern && party.stage = .subscribing) ≤ 1 := by
    refine countP_le_one fun i j a b hi hj ha hb => ?_
    simp only [Bool.and_eq_true, decide_eq_true_eq] at ha hb
    obtain ⟨⟨rfl, rfl⟩, hstage⟩ := ha
    exact subscribing_unique h hi hj hshared hb.1.1 hb.1.2 hstage hb.2
  have hregistrations : (s.registrations.countP fun registration =>
      registration.topic = topic && registration.pattern = pattern && registration.registered) ≤ 1 := by
    refine countP_le_one fun r r' a b hr hr' ha hb => ?_
    simp only [Bool.and_eq_true, decide_eq_true_eq] at ha hb
    obtain ⟨⟨rfl, rfl⟩, hregistered⟩ := ha
    exact registered_unique h hr hr' hregistered hb.2 hshared hb.1.1 hb.1.2
  by_contra hmore
  rw [standing] at hmore
  have hasked : 0 < s.parties.countP fun party =>
      party.topic = topic && party.pattern = pattern && party.stage = .subscribing := by
    omega
  have hkept : 0 < s.registrations.countP fun registration =>
      registration.topic = topic && registration.pattern = pattern && registration.registered := by
    omega
  obtain ⟨party, hmem, hasks⟩ := List.countP_pos_iff.1 hasked
  obtain ⟨j, hget⟩ := List.mem_iff_getElem?.1 hmem
  obtain ⟨registration, hmem', hregistered⟩ := List.countP_pos_iff.1 hkept
  obtain ⟨r, hget'⟩ := List.mem_iff_getElem?.1 hmem'
  simp only [Bool.and_eq_true, decide_eq_true_eq] at hasks hregistered
  obtain ⟨⟨rfl, rfl⟩, hstage⟩ := hasks
  have hnot := not_registered_of_subscribing h hget hshared hstage hget' hregistered.1.1
    hregistered.1.2
  cases hnot.symm.trans hregistered.2

end Domains

end Fitz
