import Fitz.Proof.References

/-!
# The registry and the handles

`registrations_tended`: in every run in which no handle is lost and no `unsubscribe`
meets the entry of another registration, whatever is in the registry of the connection
has a handle, and so has whatever a restore takes out of it. The map of a shared client
holds its registrations itself: a handle that is dropped leaves one behind that is
restored for nobody (`dropped_handle_restored`).
-/

namespace Fitz

open Machine Tables

namespace Domains

variable {cfg : Config} {s : Domains} {e : DomainsEvent}

/-- What is in the registry is a registration that has not been deactivated. -/
def Registered (s : Domains) : Prop :=
  ∀ entry ∈ s.conn.registrations.entries, ∃ (r : ℕ) (registration : Restorable),
    s.registrations[r]? = some registration ∧ registration.registered = true ∧
      registration.key = entry.1 ∧ registration.wireId = entry.2.wireId

theorem Registered.congr {s' : Domains} (h : s.Registered) (hconn : s'.conn = s.conn)
    (hregistrations : s'.registrations = s.registrations) : s'.Registered := by
  rw [Registered, hconn, hregistrations]
  exact h

/-! ## Deactivation -/

/-- The keys that are erased are gone, and nothing comes. -/
theorem entries_deactivate (conn : Conn) (keys : List UInt64) :
    ∀ entry ∈ (keys.foldl (fun conn key => conn.step cfg (.deactivate key)) conn).registrations.entries,
      entry ∈ conn.registrations.entries ∧ entry.1 ∉ keys := by
  induction keys generalizing conn with
  | nil =>
    intro entry hmem
    exact ⟨hmem, List.not_mem_nil⟩
  | cons key keys ih =>
    intro entry hmem
    obtain ⟨hmem', hnot⟩ := ih _ entry hmem
    have herased : entry ∈ (conn.registrations.erase key).entries := hmem'
    have hsub : entry ∈ conn.registrations.entries := (List.kerase_sublist key _).subset herased
    have hne : entry.1 ≠ key := by
      intro heq
      have hkeys : entry.1 ∈ (conn.registrations.erase key).keys := List.mem_keys_of_mem herased
      rw [AList.keys_erase, heq] at hkeys
      exact List.Nodup.not_mem_erase conn.registrations.keys_nodup hkeys
    exact ⟨hsub, fun hmem => (List.mem_cons.1 hmem).elim hne hnot⟩

theorem registered_deactivate (cfg : Config) (h : s.Registered) (rs : List ℕ) :
    (s.deactivate cfg rs).Registered := by
  intro entry hmem
  obtain ⟨hold, hnot⟩ := entries_deactivate s.conn (s.registeredKeys rs) entry hmem
  obtain ⟨r, registration, hget, hregistered, hkey, hwireId⟩ := h entry hold
  -- its key would have been erased
  have hr : r ∉ rs := by
    intro hrs
    refine hnot (List.mem_filterMap.2 ⟨r, hrs, ?_⟩)
    rw [hget, Option.filter_some, hregistered, if_pos rfl, Option.map_some, hkey]
  have hget' := Ledger.getElem?_deactivate_of_notMem (l := s.ledger) hr hget
  exact ⟨r, registration, hget', hregistered, hkey, hwireId⟩

theorem registered_silence (h : s.Registered) (rs : List ℕ) : (s.silence rs).Registered := by
  intro entry hmem
  obtain ⟨r, registration, hget, hregistered, hkey, hwireId⟩ := h entry hmem
  have hget' : (s.silence rs).registrations[r]? =
      some (if r ∈ rs then { registration with active := false } else registration) := by
    rw [silence, List.getElem?_mapIdx, hget]
    rfl
  refine ⟨r, _, hget', ?_⟩
  split <;> exact ⟨hregistered, hkey, hwireId⟩

theorem registered_register (cfg : Config) (h : s.Registered) (party : Party) (id : UInt64) :
    (s.register cfg party id).Registered := by
  intro entry hmem
  change entry ∈ (s.conn.registrations.insert s.conn.nextRegistrationId _).entries at hmem
  rw [AList.entries_insert, List.mem_cons] at hmem
  rcases hmem with rfl | hmem
  · exact ⟨s.registrations.length, _, List.getElem?_concat_length, rfl, rfl, rfl⟩
  · obtain ⟨r, registration, hget, hrest⟩ := h entry ((List.kerase_sublist _ _).subset hmem)
    exact ⟨r, registration, getElem?_concat_of_some hget, hrest⟩

/-- Other steps of the connection leave the registry. -/
theorem registrations_connStep (event : Event) :
    (s.connStep cfg event).conn.registrations = s.conn.registrations := by
  unfold connStep
  split
  · rfl
  · rfl
  · rename_i hregister hdeactivate
    have hb := Conn.booked_step cfg s.conn event
    change (s.conn.step cfg event).book.registrations = s.conn.book.registrations
    generalize (s.conn.step cfg event).book = b at hb
    cases hb with
    | registered he => exact (hregister _ _ _ _ he).elim
    | deactivated he => exact (hdeactivate _ he).elim
    | kept | collected | replayed | given | answered => rfl

/-- A property of the connection and the registrations that the operations of the handles
keep. -/
structure Handled (cfg : Config) (P : Domains → Prop) : Prop where
  congr : ∀ {s s' : Domains}, P s → s'.conn = s.conn → s'.registrations = s.registrations → P s'
  register : ∀ {s : Domains}, P s → ∀ party id, P (s.register cfg party id)
  deactivate : ∀ {s : Domains}, P s → ∀ rs, P (s.deactivate cfg rs)
  silence : ∀ {s : Domains}, P s → ∀ rs, P (s.silence rs)

theorem Handled.act {P : Domains → Prop} (hp : Handled cfg P) (h : P s) (e : DomainsEvent)
    (hconn : ∀ event, e = .conn event → P (s.connStep cfg event)) : P (s.act cfg e) := by
  cases e with
  | conn event => exact hconn event rfl
  | accessor topic =>
    simp only [Domains.act, accessor]
    split <;> exact hp.congr h rfl rfl
  | clone i | dropClient i => exact hp.congr h rfl rfl
  | subscribe i pattern =>
    simp only [Domains.act, subscribe]
    repeat' split
    all_goals exact hp.congr h rfl rfl
  | unsubscribeAll i =>
    simp only [Domains.act, unsubscribeAll]
    repeat' split
    all_goals exact hp.congr h rfl rfl
  | enter j =>
    simp only [Domains.act, enter, join, leave]
    repeat' split
    all_goals exact hp.congr h rfl rfl
  | answer j result =>
    simp only [Domains.act, answer]
    split
    · rename_i party hget
      split
      · unfold subscribed
        split
        · dsimp only
          split
          · exact hp.congr (hp.register h party _) rfl rfl
          · exact hp.congr (hp.register h party _) rfl rfl
        · exact hp.congr h rfl rfl
      · unfold unsubscribed
        split
        · split
          · exact hp.congr (hp.silence (hp.deactivate h _) _) rfl rfl
          · exact hp.congr h rfl rfl
        · exact hp.congr h rfl rfl
      · unfold unsubscribedAll
        split
        · exact hp.congr (hp.silence (hp.deactivate h _) _) rfl rfl
        · exact hp.congr h rfl rfl
      · exact h
    · exact h
  | unsubscribe j =>
    simp only [Domains.act, unsubscribe]
    split
    · split
      · split
        · split <;> exact hp.congr h rfl rfl
        · exact hp.congr (hp.deactivate h _) rfl rfl
      · exact h
    · exact h
  | enqueue j =>
    simp only [Domains.act, enqueue]
    repeat' split
    all_goals exact hp.congr h rfl rfl
  | abandon j =>
    simp only [Domains.act, abandon]
    repeat' split
    all_goals exact hp.congr h rfl rfl

theorem Handled.collect {P : Domains → Prop} (hp : Handled cfg P) (h : P s) : P (s.collect cfg) := by
  have hfree : P s.freeMaps := hp.congr h rfl rfl
  exact hp.deactivate hfree _

/-- **What the handles keep, a step keeps**, if the connection does. -/
theorem Handled.step {P : Domains → Prop} (hp : Handled cfg P) (h : P s) (e : DomainsEvent)
    (hconn : ∀ event, e = .conn event → P (s.connStep cfg event)) : P (s.step cfg e) :=
  hp.collect (hp.act h e hconn)

theorem handled_registered (cfg : Config) : Handled cfg Registered where
  congr := Registered.congr
  register := registered_register cfg
  deactivate := registered_deactivate cfg
  silence := registered_silence

theorem registrations_of_connStep (event : Event) :
    (s.connStep cfg event).registrations = s.registrations := by
  unfold connStep
  split <;> rfl

theorem registered_step (cfg : Config) (h : s.Registered) (e : DomainsEvent) :
    (s.step cfg e).Registered := by
  refine (handled_registered cfg).step h e fun event _ entry hmem => ?_
  rw [registrations_connStep] at hmem
  rw [registrations_of_connStep]
  exact h entry hmem

/-! ## Owners -/

/-- Each registration that is not deactivated has a handle or an entry. -/
def Owned (s : Domains) : Prop :=
  ∀ (r : ℕ) registration, s.registrations[r]? = some registration → registration.registered = true →
    s.registrationHeld r = true

theorem owned_collect (cfg : Config) (s : Domains) : (s.collect cfg).Owned := by
  intro r registration hget hregistered
  have hget' : ((s.freeMaps.ledger).deactivate ((List.range s.freeMaps.registrations.length).filter
      fun r => !s.freeMaps.registrationHeld r)).registrations[r]? = some registration := hget
  obtain ⟨hnot, hold⟩ := Ledger.registered_deactivate hget' hregistered
  have hlt : r < s.freeMaps.registrations.length := (List.getElem?_eq_some_iff.1 hold).1
  rw [List.mem_filter, List.mem_range] at hnot
  change s.freeMaps.registrationHeld r = true
  simpa [hlt] using hnot

/-! ## Runs -/

/-- A handle has the registration with the key and the wire id of the entry. -/
def Tends (s : Domains) (key : UInt64) (wireId : Cell) : Prop :=
  ∃ (j r : ℕ) (party : Party) (registration : Restorable), s.parties[j]? = some party ∧
    party.stage.registration = some r ∧ s.registrations[r]? = some registration ∧
    registration.key = key ∧ registration.wireId = wireId

/-- Whatever is in the registry has a handle. -/
def Tended (s : Domains) : Prop :=
  ∀ entry ∈ s.conn.registrations.entries, s.Tends entry.1 entry.2.wireId

/-- A registration with an owner has a handle. -/
theorem handle_of_registered (h : AccountsInv s) (ho : s.Owned) {r : ℕ} {registration : Restorable}
    (hget : s.registrations[r]? = some registration) (hregistered : registration.registered = true) :
    ∃ (j : ℕ) (party : Party), s.parties[j]? = some party ∧ party.stage.registration = some r := by
  cases hshared : registration.topic.shared with
  | true =>
    obtain ⟨shared, hentry, hr⟩ := h.sound.entered.kept r registration hget hregistered hshared
    have hcount := h.exact _ _ shared hentry
    have hpos : 0 < s.ledger.count registration.client registration.pattern := by omega
    obtain ⟨party, hmem, hcounts⟩ := List.countP_pos_iff.1 hpos
    obtain ⟨j, hparty⟩ := List.mem_iff_getElem?.1 hmem
    obtain ⟨hclient, hpattern, hlive⟩ := Ledger.counts_iff.1 hcounts
    obtain ⟨registration', hget', htopic', hshared', -⟩ := h.sound.entered.made _ _ shared hentry
    have htopic : party.topic.shared = true := by
      have htyped := h.sound.placed.typed j party hparty
      rw [hclient, htopic'] at htyped
      rw [← Option.some.inj htyped]
      exact hshared'
    cases hr' : party.stage.registration with
    | none =>
      have hdead := Ledger.live_none (l := s.ledger) hr'
      cases hdead.symm.trans hlive
    | some r' =>
      obtain ⟨shared', hentry', hown⟩ := h.sound.counted.own j r' party hparty htopic hlive hr'
      rw [hclient, hpattern, hentry] at hentry'
      cases hentry'
      exact ⟨j, party, hparty, by rw [hr', ← hown, hr]⟩
  | false =>
    rcases registrationHeld_iff.1 (ho r registration hget hregistered) with hhandle | hentry
    · exact hhandle
    · obtain ⟨i, pattern, shared, hentry, hr⟩ := hentry
      obtain ⟨registration', hget', -, hshared', -⟩ := h.sound.entered.made i pattern shared hentry
      rw [hr] at hget'
      cases hget.symm.trans hget'
      rw [hshared] at hshared'
      cases hshared'

structure TendedInv (s : Domains) : Prop where
  accounts : AccountsInv s
  registered : s.Registered
  owned : s.Owned

theorem tendedInv_new (cfg : Config) : TendedInv (new cfg) where
  accounts := accountsInv_new cfg
  registered := by
    intro entry hmem
    cases hmem
  owned := by
    intro r registration hget
    cases hget

theorem tendedInv_step (cfg : Config) (s : Domains) (e : DomainsEvent) (h : TendedInv s)
    (hc : s.NoneLost e ∧ s.OwnEntry e) : TendedInv (s.step cfg e) where
  accounts := accountsInv_step cfg s e h.accounts hc
  registered := registered_step cfg h.registered e
  owned := owned_collect cfg _

theorem TendedInv.tended (h : TendedInv s) : s.Tended := by
  intro entry hmem
  obtain ⟨r, registration, hget, hregistered, hkey, hwireId⟩ := h.registered entry hmem
  obtain ⟨j, party, hparty, hr⟩ := handle_of_registered h.accounts h.owned hget hregistered
  exact ⟨j, r, party, registration, hparty, hr, hget, hkey, hwireId⟩

/-- What a restore takes up. -/
theorem Tended.todo (h : s.Tended) (hpc : s.conn.pc = .opened)
    (hpc' : (s.conn.step cfg .advance).pc = .restoring) :
    ∀ registration ∈ (s.conn.step cfg .advance).todo, ∃ key, s.Tends key registration.wireId := by
  have htodo : (s.conn.step cfg .advance).todo = s.conn.registrations.entries.map fun e => e.2 := by
    have hpc'' : (s.conn.supStep cfg .advance).pc = .restoring := by
      have hpcs : (s.conn.step cfg .advance).pc = (s.conn.supStep cfg .advance).pc := by
        simp only [Conn.step, Conn.advance]
        split <;> rfl
      rw [← hpcs]
      exact hpc'
    simp only [Conn.step, Conn.advance, hpc, hpc'']
  intro registration hmem
  rw [htodo] at hmem
  obtain ⟨entry, hentry, rfl⟩ := List.mem_map.1 hmem
  exact ⟨entry.1, h entry hentry⟩

end Domains

/-- **Only what has a handle is in the registry, and is restored**, where no handle is
lost and none meets the entry of another registration. -/
theorem registrations_tended (cfg : Config) (es : List DomainsEvent)
    (h : Along (Domains.step cfg) (fun s e => s.NoneLost e ∧ s.OwnEntry e) (.new cfg) es) :
    (run (Domains.step cfg) (.new cfg) es).Tended ∧
      ((run (Domains.step cfg) (.new cfg) es).conn.pc = .opened →
        ((run (Domains.step cfg) (.new cfg) es).conn.step cfg .advance).pc = .restoring →
        ∀ registration ∈ ((run (Domains.step cfg) (.new cfg) es).conn.step cfg .advance).todo,
          ∃ key, (run (Domains.step cfg) (.new cfg) es).Tends key registration.wireId) := by
  have hinv := along_inv (Domains.tendedInv_step cfg) (Domains.tendedInv_new cfg) h
  exact ⟨hinv.tended, fun hpc hpc' => hinv.tended.todo hpc hpc'⟩

/-! ## A handle is dropped -/

/-- A handle of each kind of client is dropped, the shared one by its `unsubscribe`. -/
def releasedRun : List DomainsEvent :=
  [.accessor .notice, .accessor .kv] ++ handleRun 0 0 "notice://a/b" 7 ++ unsubscribeRun 0 ++
    [.subscribe 1 "kv://r/a/s", .answer 1 (.ok (subscribedPayload 9)), .abandon 1]

theorem registrations_tended_released :
    (run (Domains.step ⟨4, ⟨true, 3⟩⟩) (.new ⟨4, ⟨true, 3⟩⟩) releasedRun).Tended ∧
      ((run (Domains.step ⟨4, ⟨true, 3⟩⟩) (.new ⟨4, ⟨true, 3⟩⟩) releasedRun).conn.pc = .opened →
        ((run (Domains.step ⟨4, ⟨true, 3⟩⟩) (.new ⟨4, ⟨true, 3⟩⟩) releasedRun).conn.step
          ⟨4, ⟨true, 3⟩⟩ .advance).pc = .restoring →
        ∀ registration ∈ ((run (Domains.step ⟨4, ⟨true, 3⟩⟩) (.new ⟨4, ⟨true, 3⟩⟩)
          releasedRun).conn.step ⟨4, ⟨true, 3⟩⟩ .advance).todo,
          ∃ key, (run (Domains.step ⟨4, ⟨true, 3⟩⟩) (.new ⟨4, ⟨true, 3⟩⟩) releasedRun).Tends key
            registration.wireId) :=
  registrations_tended _ _ (by decide +kernel)

/-- The registration of a Notice handle that was dropped stays in the registry. -/
def droppedRun : List DomainsEvent :=
  [.accessor .notice] ++ handleRun 0 0 "notice://a/b" 7 ++ [.abandon 0]

theorem dropped_handle_restored :
    (run (Domains.step ⟨4, ⟨true, 3⟩⟩) (.new ⟨4, ⟨true, 3⟩⟩) droppedRun).parties =
        [⟨0, .notice, "notice://a/b", .gone⟩] ∧
      (run (Domains.step ⟨4, ⟨true, 3⟩⟩) (.new ⟨4, ⟨true, 3⟩⟩) droppedRun).conn.registrations.keys = [1] ∧
      ¬(run (Domains.step ⟨4, ⟨true, 3⟩⟩) (.new ⟨4, ⟨true, 3⟩⟩) droppedRun).Tended := by
  have hparties : (run (Domains.step ⟨4, ⟨true, 3⟩⟩) (.new ⟨4, ⟨true, 3⟩⟩) droppedRun).parties =
      [⟨0, .notice, "notice://a/b", .gone⟩] := by
    decide +kernel
  have hkeys : (run (Domains.step ⟨4, ⟨true, 3⟩⟩) (.new ⟨4, ⟨true, 3⟩⟩)
      droppedRun).conn.registrations.keys = [1] := by
    decide +kernel
  refine ⟨hparties, hkeys, fun htended => ?_⟩
  have hmem : 1 ∈ (run (Domains.step ⟨4, ⟨true, 3⟩⟩) (.new ⟨4, ⟨true, 3⟩⟩)
      droppedRun).conn.registrations.keys := by
    rw [hkeys]
    exact List.mem_singleton_self 1
  obtain ⟨entry, hentry, -⟩ := List.mem_map.1 hmem
  obtain ⟨j, r, party, registration, hget, hr, -⟩ := htended entry hentry
  -- the only party is gone
  have hparty := List.mem_of_getElem? hget
  rw [hparties, List.mem_singleton] at hparty
  rw [hparty] at hr
  cases hr

end Fitz
