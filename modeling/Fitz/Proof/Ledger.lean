import Fitz.Proof.DomainMoves
import Fitz.Lib.Tables

/-!
# The accounts of the handles

`Ledger.Sound`: in every run in which no `unsubscribe` meets the entry of another
registration, each live handle has the entry of its pattern, no entry counts fewer
handles than there are, and what is registered for a shared client is entered.
`sound_posted` is the step of an event and `sound_collect` that of what is dropped.
-/

namespace Fitz

open Tables

namespace PartyStage

/-- The call has a request under way. -/
def requesting : PartyStage → Bool
  | .subscribing | .unsubscribing _ | .unsubscribingAll => true
  | _ => false

/-- The call is at the mutex of its client, if that has one. -/
def queued : PartyStage → Bool
  | .joining | .leaving _ | .clearing => true
  | stage => stage.requesting

/-- Only the clients with a mutex have calls here. -/
def mutexed : PartyStage → Bool
  | .joining | .checked _ | .leaving _ | .clearing | .unsubscribingAll => true
  | _ => false

end PartyStage

/-- The registration was made for the pattern of the handle. -/
structure Restorable.Fits (registration : Restorable) (party : Party) : Prop where
  topic : registration.topic = party.topic
  client : registration.client = party.client
  pattern : registration.pattern = party.pattern

namespace Ledger

variable {l : Ledger}

def live (l : Ledger) (party : Party) : Bool :=
  party.stage.registration.any fun r => (l.registrations[r]?).any (·.active)

/-- How many live handles a client has for a pattern. -/
def count (l : Ledger) (i : ℕ) (pattern : String) : ℕ :=
  l.parties.countP fun party => party.client = i && party.pattern = pattern && l.live party

/-- What the parties are for. -/
structure Placed (l : Ledger) : Prop where
  typed : ∀ (j : ℕ) party, l.parties[j]? = some party → l.topic party.client = some party.topic
  made : ∀ (j r : ℕ) party, l.parties[j]? = some party → party.stage.registration = some r →
    ∃ registration, l.registrations[r]? = some registration ∧ registration.Fits party
  mutexed : ∀ (j : ℕ) party, l.parties[j]? = some party → party.stage.mutexed = true →
    party.topic.shared = true

/-- Who is at the mutexes. -/
structure Lined (l : Ledger) : Prop where
  nodup : ∀ i, (l.queue i).Nodup
  queued : ∀ (i j : ℕ), j ∈ l.queue i →
    ∃ party, l.parties[j]? = some party ∧ party.client = i ∧ party.stage.queued = true ∧
      party.topic.shared = true
  /-- a call with a request under way has the mutex -/
  locked : ∀ (j : ℕ) party, l.parties[j]? = some party → party.topic.shared = true →
    party.stage.requesting = true → (l.queue party.client).head? = some j

/-- The entries and the registrations. -/
structure Entered (l : Ledger) : Prop where
  made : ∀ i pattern shared, l.entry i pattern = some shared →
    ∃ registration, l.registrations[shared.registration]? = some registration ∧
      l.topic i = some registration.topic ∧ registration.topic.shared = true ∧
      registration.client = i ∧ registration.pattern = pattern ∧
      registration.registered = true ∧ registration.active = true
  /-- what is registered is entered -/
  kept : ∀ (r : ℕ) registration, l.registrations[r]? = some registration →
    registration.registered = true → registration.topic.shared = true →
    ∃ shared, l.entry registration.client registration.pattern = some shared ∧
      shared.registration = r

/-- The handles and the entries. -/
structure Counted (l : Ledger) : Prop where
  subscribing : ∀ (j : ℕ) party, l.parties[j]? = some party → party.topic.shared = true →
    party.stage = .subscribing → l.entry party.client party.pattern = none
  unsubscribing : ∀ (j r : ℕ) party, l.parties[j]? = some party → party.topic.shared = true →
    party.stage = .unsubscribing r →
    ∃ shared, l.entry party.client party.pattern = some shared ∧ shared.registration = r ∧
      shared.references ≤ 1
  /-- a live handle has the entry of its pattern -/
  own : ∀ (j r : ℕ) party, l.parties[j]? = some party → party.topic.shared = true →
    l.live party = true → party.stage.registration = some r →
    ∃ shared, l.entry party.client party.pattern = some shared ∧ shared.registration = r
  /-- no entry counts fewer handles than there are -/
  enough : ∀ i pattern shared, l.entry i pattern = some shared →
    l.count i pattern ≤ shared.references

structure Sound (l : Ledger) : Prop where
  placed : Placed l
  lined : Lined l
  entered : Entered l
  counted : Counted l

/-! ## One party changes -/

theorem getElem?_setStage {j k : ℕ} {stage : PartyStage} {party : Party}
    (h : (l.setStage j stage).parties[k]? = some party) :
    (k = j ∧ ∃ old, l.parties[j]? = some old ∧ party = { old with stage := stage }) ∨
      (k ≠ j ∧ l.parties[k]? = some party) :=
  getElem?_modify_eq_some h

theorem placed_setStage (h : Placed l) {j : ℕ} {party : Party} (hget : l.parties[j]? = some party)
    (stage : PartyStage) (hmade : ∀ r, stage.registration = some r →
      ∃ registration, l.registrations[r]? = some registration ∧ registration.Fits party)
    (hmutexed : stage.mutexed = true → party.topic.shared = true) :
    Placed (l.setStage j stage) := by
  refine ⟨fun k party' hk => ?_, fun k r party' hk hr => ?_, fun k party' hk hmutex => ?_⟩
  · rcases getElem?_setStage hk with ⟨-, old, hold, rfl⟩ | ⟨-, hk⟩
    · exact h.typed j old hold
    · exact h.typed k party' hk
  · rcases getElem?_setStage hk with ⟨-, old, hold, rfl⟩ | ⟨-, hk⟩
    · rw [hget] at hold
      cases hold
      obtain ⟨registration, hregistration, hfits⟩ := hmade r hr
      exact ⟨registration, hregistration, hfits.topic, hfits.client, hfits.pattern⟩
    · exact h.made k r party' hk hr
  · rcases getElem?_setStage hk with ⟨-, old, hold, rfl⟩ | ⟨-, hk⟩
    · rw [hget] at hold
      cases hold
      exact hmutexed hmutex
    · exact h.mutexed k party' hk hmutex

/-- The stage keeps its registration, or loses it. -/
theorem made_of_stage (h : Placed l) {j : ℕ} {party : Party} (hget : l.parties[j]? = some party)
    {stage : PartyStage} (hstage : ∀ r, stage.registration = some r →
      party.stage.registration = some r) (r : ℕ) (hr : stage.registration = some r) :
    ∃ registration, l.registrations[r]? = some registration ∧ registration.Fits party :=
  h.made j r party hget (hstage r hr)

/-- Registrations change their flags, and are added. -/
theorem placed_registrations (h : Placed l) {registrations : List Restorable}
    (hlater : ∀ (r : ℕ) registration, l.registrations[r]? = some registration →
      ∃ registration', registrations[r]? = some registration' ∧
        registration'.topic = registration.topic ∧ registration'.client = registration.client ∧
        registration'.pattern = registration.pattern) :
    Placed { l with registrations := registrations } := by
  refine ⟨h.typed, fun j r party hget hr => ?_, h.mutexed⟩
  obtain ⟨registration, hregistration, hfits⟩ := h.made j r party hget hr
  obtain ⟨registration', hregistration', htopic, hclient, hpattern⟩ := hlater r registration hregistration
  exact ⟨registration', hregistration', htopic.trans hfits.topic, hclient.trans hfits.client,
    hpattern.trans hfits.pattern⟩

theorem Placed.congr {l' : Ledger} (h : Placed l) (hparties : l'.parties = l.parties)
    (hregistrations : l'.registrations = l.registrations) (htopic : l'.topic = l.topic) :
    Placed l' := by
  refine ⟨?_, ?_, ?_⟩
  · rw [hparties, htopic]
    exact h.typed
  · rw [hparties, hregistrations]
    exact h.made
  · rw [hparties]
    exact h.mutexed

/-- A party comes, without a registration. -/
theorem placed_concat (h : Placed l) {party : Party} (htopic : l.topic party.client = some party.topic)
    (hnone : party.stage.registration = none)
    (hmutexed : party.stage.mutexed = true → party.topic.shared = true) :
    Placed { l with parties := l.parties ++ [party] } := by
  refine ⟨fun k party' hk => ?_, fun k r party' hk hr => ?_, fun k party' hk hmutex => ?_⟩
  · rcases getElem?_concat_eq_some hk with hk | ⟨-, rfl⟩
    · exact h.typed k party' hk
    · exact htopic
  · rcases getElem?_concat_eq_some hk with hk | ⟨-, rfl⟩
    · exact h.made k r party' hk hr
    · rw [hnone] at hr
      cases hr
  · rcases getElem?_concat_eq_some hk with hk | ⟨-, rfl⟩
    · exact h.mutexed k party' hk hmutex
    · exact hmutexed hmutex

theorem placed_deactivate (h : Placed l) (rs : List ℕ) : Placed (l.deactivate rs) := by
  refine placed_registrations h fun r registration hget => ?_
  rw [List.getElem?_mapIdx, hget]
  refine ⟨_, rfl, ?_⟩
  split <;> exact ⟨rfl, rfl, rfl⟩

theorem placed_endAll (h : Placed l) (rs : List ℕ) : Placed (l.endAll rs) := by
  refine placed_registrations h fun r registration hget => ?_
  rw [List.getElem?_mapIdx, hget]
  refine ⟨_, rfl, ?_⟩
  split <;> exact ⟨rfl, rfl, rfl⟩

theorem placed_register (h : Placed l) (registration : Restorable) :
    Placed { l with registrations := l.registrations ++ [registration] } :=
  placed_registrations h fun _ old hget => ⟨old, getElem?_concat_of_some hget, rfl, rfl, rfl⟩

end Ledger

namespace Domains

open Ledger

variable {s : Domains} {e : DomainsEvent} {l' : Ledger}

/-- There is no client at the next place. -/
theorem topic_length : s.topic s.clients.length = none := by
  rw [topic, List.getElem?_eq_none le_rfl]
  rfl

theorem topic_update {i : ℕ} {topic topic' : Topic} (h : s.topic i = some topic) :
    Function.update s.topic s.clients.length (some topic') i = some topic := by
  have hne : i ≠ s.clients.length := by
    intro heq
    rw [heq, topic_length] at h
    cases h
  rw [Function.update_of_ne hne, h]

theorem placed_posted (h : s.ledger.Sound) (hp : Posted s e l') : Placed l' := by
  have hplaced := h.placed
  -- a stage without a registration
  have hnone : ∀ {l : Ledger} {party : Party} {stage : PartyStage}, stage.registration = none →
      ∀ r, stage.registration = some r →
        ∃ registration, l.registrations[r]? = some registration ∧ registration.Fits party := by
    intro l party stage hstage r hr
    rw [hstage] at hr
    cases hr
  cases hp with
  | kept => exact hplaced
  | client =>
    exact ⟨fun j party hget => topic_update (hplaced.typed j party hget), hplaced.made,
      hplaced.mutexed⟩
  | called htopic hshared hstage =>
    refine (placed_concat hplaced htopic ?_ fun _ => hshared).congr rfl rfl rfl
    rcases hstage with hstage | hstage <;> rw [hstage] <;> rfl
  | asked htopic hshared hstage =>
    refine (placed_concat hplaced htopic ?_ fun hmutex => ?_).congr rfl rfl rfl
    · rw [hstage]
      rfl
    · rw [hstage] at hmutex
      cases hmutex
  | @joined j party shared hj hstage hentry =>
    refine (placed_setStage hplaced hj.1 (.held shared.registration) (fun r hr => ?_)
      (by simp [PartyStage.mutexed])).congr rfl rfl rfl
    cases hr
    obtain ⟨registration, hget, htopic, -, hclient, hpattern, -⟩ := h.entered.made _ _ _ hentry
    refine ⟨registration, hget, ?_, hclient, hpattern⟩
    have htyped := hplaced.typed j party hj.1
    rw [htyped] at htopic
    exact (Option.some.inj htopic).symm
  | @subscribing j party he hj hstage hentry =>
    exact placed_setStage hplaced hj.1 .subscribing (hnone rfl) (by simp [PartyStage.mutexed])
  | @entered j party registration hget hstage hshared hregistration =>
    refine (placed_setStage (placed_register hplaced registration) hget
      (.held s.registrations.length) (fun r hr => ?_)
      (by simp [PartyStage.mutexed])).congr rfl rfl rfl
    cases hr
    exact ⟨registration, List.getElem?_concat_length, by rw [hregistration], by rw [hregistration],
      by rw [hregistration]⟩
  | @registered j party registration hget hstage hshared hregistration =>
    refine placed_setStage (placed_register hplaced registration) hget
      (.held s.registrations.length) (fun r hr => ?_) (by simp [PartyStage.mutexed])
    cases hr
    exact ⟨registration, List.getElem?_concat_length, by rw [hregistration], by rw [hregistration],
      by rw [hregistration]⟩
  | @checked j r party hget hstage hshared =>
    refine placed_setStage hplaced hget (.checked r) (made_of_stage hplaced hget ?_) fun _ => hshared
    intro r' hr
    rw [hstage]
    exact hr
  | @queued j r party hget hstage =>
    refine (placed_setStage hplaced hget (.leaving r) (made_of_stage hplaced hget ?_)
      fun _ => ?_).congr rfl rfl rfl
    · intro r' hr
      rw [hstage]
      exact hr
    · exact hplaced.mutexed j party hget (by rw [hstage]; rfl)
  | @requested j r party shared request he hj hstage hentry hlast =>
    refine (placed_setStage hplaced hj.1 (.unsubscribing r) (made_of_stage hplaced hj.1 ?_)
      (by simp [PartyStage.mutexed])).congr rfl rfl rfl
    intro r' hr
    rw [hstage]
    exact hr
  | @clearing j party hj hstage =>
    refine placed_setStage hplaced hj.1 .unsubscribingAll (hnone rfl) fun _ => ?_
    exact hplaced.mutexed j party hj.1 (by rw [hstage]; rfl)
  | @deserted j r party hget hstage hshared =>
    have hget' : (s.ledger.deactivate [r]).parties[j]? = some party := hget
    refine placed_setStage (placed_deactivate hplaced [r]) hget' (.unsubscribing r)
      (made_of_stage (placed_deactivate hplaced [r]) hget' ?_) (by simp [PartyStage.mutexed])
    intro r' hr
    rw [hstage]
    exact hr
  | @removed j r party hget hstage hshared =>
    exact (placed_setStage (placed_endAll hplaced [r]) hget .gone (hnone rfl)
      (by simp [PartyStage.mutexed])).congr rfl rfl rfl
  | @cleared j party hget hstage =>
    exact (placed_setStage (placed_endAll hplaced _) hget .gone (hnone rfl)
      (by simp [PartyStage.mutexed])).congr rfl rfl rfl
  | @missed j r party hj hstage hentry =>
    exact (placed_setStage hplaced hj.1 .gone (hnone rfl)
      (by simp [PartyStage.mutexed])).congr rfl rfl rfl
  | @decremented j r party shared he hj hstage hentry hmore =>
    exact (placed_setStage hplaced hj.1 .gone (hnone rfl)
      (by simp [PartyStage.mutexed])).congr rfl rfl rfl
  | @ended j party hget hstage hlost =>
    exact (placed_setStage hplaced hget .gone (hnone rfl)
      (by simp [PartyStage.mutexed])).congr rfl rfl rfl

end Domains

/-! ## The mutexes -/

namespace Ledger

variable {l : Ledger}

theorem Lined.congr {l' : Ledger} (h : Lined l) (hparties : l'.parties = l.parties)
    (hqueue : l'.queue = l.queue) : Lined l' := by
  refine ⟨?_, ?_, ?_⟩
  · rw [hqueue]
    exact h.nodup
  · rw [hparties, hqueue]
    exact h.queued
  · rw [hparties, hqueue]
    exact h.locked

/-- At one mutex one call has its request under way. -/
theorem eq_of_locked (h : Lined l) {j k : ℕ} {party party' : Party}
    (hhead : (l.queue party.client).head? = some j) (hk : l.parties[k]? = some party')
    (hshared : party'.topic.shared = true) (hrequesting : party'.stage.requesting = true)
    (hclient : party'.client = party.client) : k = j := by
  have hlocked := h.locked k party' hk hshared hrequesting
  rw [hclient, hhead] at hlocked
  exact (Option.some.inj hlocked).symm

/-- A party that is not at its mutex is at none. -/
theorem notMem_queue (h : Lined l) {j : ℕ} {party : Party} (hget : l.parties[j]? = some party)
    (hnot : party.stage.queued = false ∨ party.topic.shared = false) (i : ℕ) : j ∉ l.queue i := by
  intro hmem
  obtain ⟨party', hget', -, hqueued, hshared⟩ := h.queued i j hmem
  rw [hget] at hget'
  cases hget'
  rcases hnot with hnot | hnot
  · rw [hnot] at hqueued
    cases hqueued
  · rw [hnot] at hshared
    cases hshared

theorem head?_erase {queue : List ℕ} {j k : ℕ} (hne : k ≠ j) (h : queue.head? = some k) :
    (queue.erase j).head? = some k := by
  cases queue with
  | nil => cases h
  | cons a queue =>
    cases h
    rw [List.erase_cons_tail (by simpa using hne)]
    rfl

theorem lined_finish (h : Lined l) {j : ℕ} {party : Party} (hget : l.parties[j]? = some party)
    (stage : PartyStage) (hstage : stage.requesting = false) :
    Lined (l.finish j party.client stage) := by
  refine ⟨fun i => ?_, fun i k hmem => ?_, fun k party' hk hshared hrequesting => ?_⟩
  · change (Function.update l.queue party.client ((l.queue party.client).erase j) i).Nodup
    by_cases hi : i = party.client
    · rw [hi, Function.update_self]
      exact (h.nodup _).erase j
    · rw [Function.update_of_ne hi]
      exact h.nodup i
  · change k ∈ Function.update l.queue party.client ((l.queue party.client).erase j) i at hmem
    have hboth : k ∈ l.queue i ∧ k ≠ j := by
      by_cases hi : i = party.client
      · rw [hi, Function.update_self] at hmem
        obtain ⟨hne, hmem⟩ := ((h.nodup _).mem_erase_iff).1 hmem
        rw [hi]
        exact ⟨hmem, hne⟩
      · rw [Function.update_of_ne hi] at hmem
        refine ⟨hmem, fun hk => ?_⟩
        obtain ⟨party', hget', hclient, -⟩ := h.queued i k hmem
        rw [hk, hget] at hget'
        cases hget'
        exact hi hclient.symm
    obtain ⟨party', hget', hrest⟩ := h.queued i k hboth.1
    exact ⟨party', getElem?_modify_of_ne hboth.2 hget', hrest⟩
  · rcases getElem?_setStage hk with ⟨-, old, -, rfl⟩ | ⟨hne, hk⟩
    · change stage.requesting = true at hrequesting
      rw [hstage] at hrequesting
      cases hrequesting
    · have hhead := h.locked k party' hk hshared hrequesting
      change (Function.update l.queue party.client ((l.queue party.client).erase j)
        party'.client).head? = some k
      by_cases hi : party'.client = party.client
      · rw [hi] at hhead ⊢
        rw [Function.update_self]
        exact head?_erase hne hhead
      · rw [Function.update_of_ne hi]
        exact hhead

/-- The call that has the mutex sends its request. -/
theorem lined_request (h : Lined l) {j : ℕ} {party : Party} (hget : l.parties[j]? = some party)
    (hhead : (l.queue party.client).head? = some j) (stage : PartyStage)
    (hstage : stage.queued = true) : Lined (l.setStage j stage) := by
  refine ⟨h.nodup, fun i k hmem => ?_, fun k party' hk hshared hrequesting => ?_⟩
  · obtain ⟨party', hget', hclient, hqueued, hshared⟩ := h.queued i k hmem
    by_cases hk : k = j
    · subst hk
      exact ⟨_, getElem?_modify_self hget', hclient, hstage, hshared⟩
    · exact ⟨party', getElem?_modify_of_ne hk hget', hclient, hqueued, hshared⟩
  · rcases getElem?_setStage hk with ⟨rfl, old, hold, rfl⟩ | ⟨-, hk⟩
    · rw [hget] at hold
      cases hold
      exact hhead
    · exact h.locked k party' hk hshared hrequesting

/-- A party away from the mutexes. -/
theorem lined_setStage (h : Lined l) {j : ℕ} {party : Party} (hget : l.parties[j]? = some party)
    (hnot : party.stage.queued = false ∨ party.topic.shared = false) (stage : PartyStage)
    (hstage : stage.requesting = false ∨ party.topic.shared = false) :
    Lined (l.setStage j stage) := by
  refine ⟨h.nodup, fun i k hmem => ?_, fun k party' hk hshared hrequesting => ?_⟩
  · obtain ⟨party', hget', hrest⟩ := h.queued i k hmem
    have hne : k ≠ j := fun hk => notMem_queue h hget hnot i (hk ▸ hmem)
    exact ⟨party', getElem?_modify_of_ne hne hget', hrest⟩
  · rcases getElem?_setStage hk with ⟨-, old, hold, rfl⟩ | ⟨-, hk⟩
    · rw [hget] at hold
      cases hold
      rcases hstage with hstage | hstage
      · change stage.requesting = true at hrequesting
        rw [hstage] at hrequesting
        cases hrequesting
      · change party.topic.shared = true at hshared
        rw [hstage] at hshared
        cases hshared
    · exact h.locked k party' hk hshared hrequesting

/-- A call gets in line: a new party, or one that was at no mutex. -/
theorem lined_enqueue (h : Lined l) {i j : ℕ} {parties : List Party}
    (hnot : j ∉ l.queue i)
    (hnew : ∃ party, parties[j]? = some party ∧ party.client = i ∧ party.stage.queued = true ∧
      party.topic.shared = true ∧ party.stage.requesting = false)
    (hold : ∀ k party, k ≠ j → parties[k]? = some party → l.parties[k]? = some party)
    (hkept : ∀ k party, l.parties[k]? = some party → k ≠ j → parties[k]? = some party)
    (haway : ∀ i', j ∉ l.queue i') :
    Lined { l.setQueue i (l.queue i ++ [j]) with parties := parties } := by
  obtain ⟨party, hget, hclient, hqueued, hshared, hrequesting⟩ := hnew
  refine ⟨fun i' => ?_, fun i' k hmem => ?_, fun k party' hk hshared' hrequesting' => ?_⟩
  · change (Function.update l.queue i (l.queue i ++ [j]) i').Nodup
    by_cases hi : i' = i
    · rw [hi, Function.update_self, List.nodup_append_comm]
      exact List.nodup_cons.2 ⟨hnot, h.nodup i⟩
    · rw [Function.update_of_ne hi]
      exact h.nodup i'
  · change k ∈ Function.update l.queue i (l.queue i ++ [j]) i' at hmem
    have hcase : k ∈ l.queue i' ∨ (i' = i ∧ k = j) := by
      by_cases hi : i' = i
      · rw [hi, Function.update_self] at hmem
        rcases List.mem_append.1 hmem with hmem | hmem
        · exact .inl (hi ▸ hmem)
        · exact .inr ⟨hi, List.mem_singleton.1 hmem⟩
      · rw [Function.update_of_ne hi] at hmem
        exact .inl hmem
    rcases hcase with hmem | ⟨rfl, rfl⟩
    · obtain ⟨party', hget', hrest⟩ := h.queued i' k hmem
      have hne : k ≠ j := fun hk => haway i' (hk ▸ hmem)
      exact ⟨party', hkept k party' hget' hne, hrest⟩
    · exact ⟨party, hget, hclient, hqueued, hshared⟩
  · by_cases hkj : k = j
    · subst hkj
      rw [hget] at hk
      cases hk
      rw [hrequesting] at hrequesting'
      cases hrequesting'
    · have hhead := h.locked k party' (hold k party' hkj hk) hshared' hrequesting'
      change (Function.update l.queue i (l.queue i ++ [j]) party'.client).head? = some k
      by_cases hi : party'.client = i
      · rw [hi] at hhead ⊢
        rw [Function.update_self, List.head?_append, hhead]
        rfl
      · rw [Function.update_of_ne hi]
        exact hhead

end Ledger

namespace Domains

open Ledger

variable {s : Domains} {e : DomainsEvent} {l' : Ledger}

theorem lined_posted (h : s.ledger.Sound) (hp : Posted s e l') : Lined l' := by
  have hlined := h.lined
  cases hp with
  | kept => exact hlined
  | client => exact hlined.congr rfl rfl
  | @called party htopic hshared hstage =>
    -- nobody is at the next place
    have haway : ∀ i, s.parties.length ∉ s.ledger.queue i := by
      intro i hmem
      obtain ⟨party', hget, -⟩ := hlined.queued i _ hmem
      have hlt := (List.getElem?_eq_some_iff.1 hget).1
      exact lt_irrefl _ hlt
    refine lined_enqueue hlined (haway _) ⟨party, List.getElem?_concat_length, rfl, ?_, hshared, ?_⟩
      ?_ ?_ haway
    · rcases hstage with hstage | hstage <;> rw [hstage] <;> rfl
    · rcases hstage with hstage | hstage <;> rw [hstage] <;> rfl
    · intro k party' hne hk
      exact (getElem?_concat_eq_some hk).resolve_right fun hlast => hne hlast.1
    · intro k party' hk hne
      exact getElem?_concat_of_some hk
  | @asked party htopic hshared hstage =>
    refine ⟨hlined.nodup, fun i k hmem => ?_, fun k party' hk hshared' hrequesting => ?_⟩
    · obtain ⟨party', hget, hrest⟩ := hlined.queued i k hmem
      exact ⟨party', getElem?_concat_of_some hget, hrest⟩
    · rcases getElem?_concat_eq_some hk with hk | ⟨-, rfl⟩
      · exact hlined.locked k party' hk hshared' hrequesting
      · rw [hshared] at hshared'
        cases hshared'
  | @queued j r party hget hstage =>
    have hnot : party.stage.queued = false := by
      rw [hstage]
      rfl
    have hmutexed := h.placed.mutexed j party hget (by rw [hstage]; rfl)
    have haway := notMem_queue hlined hget (.inl hnot)
    refine lined_enqueue hlined (haway _) ⟨_, getElem?_modify_self hget, rfl, rfl, hmutexed, rfl⟩
      ?_ ?_ haway
    · intro k party' hne hk
      rcases getElem?_setStage hk with ⟨heq, -⟩ | ⟨-, hk⟩
      · exact absurd heq hne
      · exact hk
    · intro k party' hk hne
      exact getElem?_modify_of_ne hne hk
  | @joined j party shared hj hstage hentry =>
    exact (lined_finish hlined hj.1 (.held shared.registration) rfl).congr rfl rfl
  | @entered j party registration hget hstage hshared hregistration =>
    exact (lined_finish hlined hget (.held s.registrations.length) rfl).congr rfl rfl
  | @missed j r party hj hstage hentry =>
    exact (lined_finish hlined hj.1 .gone rfl).congr rfl rfl
  | @decremented j r party shared he hj hstage hentry hmore =>
    exact (lined_finish hlined hj.1 .gone rfl).congr rfl rfl
  | @removed j r party hget hstage hshared =>
    exact (lined_finish hlined hget .gone rfl).congr rfl rfl
  | @cleared j party hget hstage =>
    exact (lined_finish hlined hget .gone rfl).congr rfl rfl
  | @ended j party hget hstage hlost => exact lined_finish hlined hget .gone rfl
  | @subscribing j party he hj hstage hentry =>
    exact lined_request hlined hj.1 hj.2 .subscribing rfl
  | @clearing j party hj hstage => exact lined_request hlined hj.1 hj.2 .unsubscribingAll rfl
  | @requested j r party shared request he hj hstage hentry hlast =>
    exact (lined_request hlined hj.1 hj.2 (.unsubscribing r) rfl).congr rfl rfl
  | @registered j party registration hget hstage hshared hregistration =>
    exact (lined_setStage hlined hget (.inr hshared) (.held s.registrations.length)
      (.inl rfl)).congr rfl rfl
  | @checked j r party hget hstage hshared =>
    exact lined_setStage hlined hget (.inl (by rw [hstage]; rfl)) (.checked r) (.inl rfl)
  | @deserted j r party hget hstage hshared =>
    exact (lined_setStage hlined hget (.inr hshared) (.unsubscribing r)
      (.inr hshared)).congr rfl rfl

end Domains

/-! ## The entries -/

namespace Ledger

variable {l : Ledger}

theorem Entered.congr {l' : Ledger} (h : Entered l) (hentry : l'.entry = l.entry)
    (htopic : l'.topic = l.topic) (hregistrations : l'.registrations = l.registrations) :
    Entered l' := by
  constructor
  · rw [hentry, htopic, hregistrations]
    exact h.made
  · rw [hentry, hregistrations]
    exact h.kept

theorem setEntry_self (l : Ledger) (i : ℕ) (pattern : String) (shared : Option SharedSubscription) :
    (l.setEntry i pattern shared).entry i pattern = shared := if_pos ⟨rfl, rfl⟩

theorem setEntry_of_ne (l : Ledger) {i i' : ℕ} {pattern pattern' : String}
    (hne : ¬(i' = i ∧ pattern' = pattern)) (shared : Option SharedSubscription) :
    (l.setEntry i pattern shared).entry i' pattern' = l.entry i' pattern' := if_neg hne

/-- An entry counts on. -/
theorem entered_recount (h : Entered l) {i : ℕ} {pattern : String} {shared : SharedSubscription}
    (hentry : l.entry i pattern = some shared) (references : ℕ) :
    Entered (l.setEntry i pattern (some ⟨shared.registration, references⟩)) := by
  refine ⟨fun i' pattern' shared' hget => ?_, fun r registration hget hregistered hshared => ?_⟩
  · by_cases heq : i' = i ∧ pattern' = pattern
    · obtain ⟨rfl, rfl⟩ := heq
      rw [setEntry_self] at hget
      cases hget
      exact h.made i' pattern' shared hentry
    · rw [setEntry_of_ne l heq] at hget
      exact h.made i' pattern' shared' hget
  · obtain ⟨shared', hget', hr⟩ := h.kept r registration hget hregistered hshared
    by_cases heq : registration.client = i ∧ registration.pattern = pattern
    · rw [heq.1, heq.2] at hget' ⊢
      rw [hentry] at hget'
      cases hget'
      exact ⟨_, setEntry_self l i pattern _, hr⟩
    · exact ⟨shared', (setEntry_of_ne l heq _).trans hget', hr⟩

/-- A registration that was not at `rs` before. -/
theorem getElem?_deactivate {rs : List ℕ} {r : ℕ} {registration : Restorable}
    (h : (l.deactivate rs).registrations[r]? = some registration) :
    ∃ old, l.registrations[r]? = some old ∧ registration =
      if r ∈ rs then { old with registered := false } else old := by
  rw [deactivate, List.getElem?_mapIdx, Option.map_eq_some_iff] at h
  obtain ⟨old, hget, rfl⟩ := h
  exact ⟨old, hget, rfl⟩

theorem getElem?_deactivate_of_notMem {rs : List ℕ} {r : ℕ} {registration : Restorable} (hr : r ∉ rs)
    (h : l.registrations[r]? = some registration) :
    (l.deactivate rs).registrations[r]? = some registration := by
  rw [deactivate, List.getElem?_mapIdx, h, Option.map_some, if_neg hr]

theorem getElem?_endAll {rs : List ℕ} {r : ℕ} {registration : Restorable}
    (h : (l.endAll rs).registrations[r]? = some registration) :
    ∃ old, l.registrations[r]? = some old ∧ registration =
      if r ∈ rs then { old with registered := false, active := false } else old := by
  rw [endAll, List.getElem?_mapIdx, Option.map_eq_some_iff] at h
  obtain ⟨old, hget, rfl⟩ := h
  exact ⟨old, hget, rfl⟩

theorem getElem?_endAll_of_notMem {rs : List ℕ} {r : ℕ} {registration : Restorable} (hr : r ∉ rs)
    (h : l.registrations[r]? = some registration) :
    (l.endAll rs).registrations[r]? = some registration := by
  rw [endAll, List.getElem?_mapIdx, h, Option.map_some, if_neg hr]

/-- What was ended is not registered, and the rest is as it was. -/
theorem registered_endAll {rs : List ℕ} {r : ℕ} {registration : Restorable}
    (h : (l.endAll rs).registrations[r]? = some registration)
    (hregistered : registration.registered = true) :
    r ∉ rs ∧ l.registrations[r]? = some registration := by
  obtain ⟨old, hget, rfl⟩ := getElem?_endAll h
  split at hregistered
  · cases hregistered
  · rename_i hnot
    rw [if_neg hnot]
    exact ⟨hnot, hget⟩

theorem registered_deactivate {rs : List ℕ} {r : ℕ} {registration : Restorable}
    (h : (l.deactivate rs).registrations[r]? = some registration)
    (hregistered : registration.registered = true) :
    r ∉ rs ∧ l.registrations[r]? = some registration := by
  obtain ⟨old, hget, rfl⟩ := getElem?_deactivate h
  split at hregistered
  · cases hregistered
  · rename_i hnot
    rw [if_neg hnot]
    exact ⟨hnot, hget⟩

/-- Entries of one registration are one. -/
theorem Entered.unique (h : Entered l) {i i' : ℕ} {pattern pattern' : String}
    {shared shared' : SharedSubscription} (hget : l.entry i pattern = some shared)
    (hget' : l.entry i' pattern' = some shared')
    (heq : shared.registration = shared'.registration) : i = i' ∧ pattern = pattern' := by
  obtain ⟨registration, hregistration, -, -, hclient, hpattern, -⟩ := h.made i pattern shared hget
  obtain ⟨registration', hregistration', -, -, hclient', hpattern', -⟩ :=
    h.made i' pattern' shared' hget'
  rw [heq, hregistration'] at hregistration
  cases hregistration
  exact ⟨hclient.symm.trans hclient', hpattern.symm.trans hpattern'⟩

end Ledger

namespace Domains

open Ledger

variable {s : Domains} {e : DomainsEvent} {l' : Ledger}

theorem mem_entered {i r : ℕ} : r ∈ s.entered i ↔
    ∃ pattern shared, s.entry i pattern = some shared ∧ shared.registration = r := by
  unfold entered entry
  cases s.clients[i]? with
  | none => simp
  | some client =>
    simp only [Option.map_some, Option.getD_some, List.mem_map, Option.bind_some]
    constructor
    · rintro ⟨entry, hmem, rfl⟩
      exact ⟨entry.1, entry.2, AList.mem_lookup_iff.2 hmem, rfl⟩
    · rintro ⟨pattern, shared, hget, rfl⟩
      exact ⟨⟨pattern, shared⟩, AList.mem_lookup_iff.1 hget, rfl⟩

theorem entered_posted (h : s.ledger.Sound) (hp : Posted s e l') : Entered l' := by
  have hentered := h.entered
  cases hp with
  | kept => exact hentered
  | client =>
    refine ⟨fun i pattern shared hget => ?_, hentered.kept⟩
    obtain ⟨registration, hregistration, htopic, hrest⟩ := hentered.made i pattern shared hget
    exact ⟨registration, hregistration, topic_update htopic, hrest⟩
  | called | asked | subscribing | checked | queued | missed | requested | clearing | ended =>
    exact hentered.congr rfl rfl rfl
  | @joined j party shared hj hstage hentry =>
    exact (entered_recount hentered hentry (shared.references + 1)).congr rfl rfl rfl
  | @decremented j r party shared he hj hstage hentry hmore =>
    exact (entered_recount hentered hentry (shared.references - 1)).congr rfl rfl rfl
  | @entered j party registration hget hstage hshared hregistration =>
    have hnone := h.counted.subscribing j party hget hshared hstage
    have htyped := h.placed.typed j party hget
    refine ⟨fun i pattern shared hentry => ?_, fun r registration' hget' hregistered hshared' => ?_⟩
    · by_cases heq : i = party.client ∧ pattern = party.pattern
      · obtain ⟨rfl, rfl⟩ := heq
        have hshared' := (setEntry_self _ party.client party.pattern _).symm.trans hentry
        cases hshared'
        refine ⟨registration, List.getElem?_concat_length, ?_⟩
        rw [hregistration]
        exact ⟨htyped, hshared, rfl, rfl, rfl, rfl⟩
      · have hold := (setEntry_of_ne _ heq _).symm.trans hentry
        obtain ⟨old, hold', hrest⟩ := hentered.made i pattern shared hold
        exact ⟨old, getElem?_concat_of_some hold', hrest⟩
    · rcases getElem?_concat_eq_some hget' with hget' | ⟨rfl, rfl⟩
      · obtain ⟨shared, hentry, hr⟩ := hentered.kept r registration' hget' hregistered hshared'
        refine ⟨shared, (setEntry_of_ne _ (fun heq => ?_) _).trans hentry, hr⟩
        rw [heq.1, heq.2, hnone] at hentry
        cases hentry
      · rw [hregistration]
        exact ⟨_, setEntry_self _ party.client party.pattern _, rfl⟩
  | @registered j party registration hget hstage hshared hregistration =>
    refine ⟨fun i pattern shared hentry => ?_, fun r registration' hget' hregistered hshared' => ?_⟩
    · obtain ⟨old, hold, hrest⟩ := hentered.made i pattern shared hentry
      exact ⟨old, getElem?_concat_of_some hold, hrest⟩
    · rcases getElem?_concat_eq_some hget' with hget' | ⟨-, rfl⟩
      · exact hentered.kept r registration' hget' hregistered hshared'
      · rw [hregistration] at hshared'
        change party.topic.shared = true at hshared'
        rw [hshared] at hshared'
        cases hshared'
  | @deserted j r party hget hstage hshared =>
    obtain ⟨own, hown, hfits⟩ := h.placed.made j r party hget (by rw [hstage]; rfl)
    refine ⟨fun i pattern shared hentry => ?_, fun r' registration hget' hregistered hshared' => ?_⟩
    · obtain ⟨old, hold, htopic, hold', hrest⟩ := hentered.made i pattern shared hentry
      have hne : shared.registration ∉ [r] := by
        intro hmem
        rw [List.mem_singleton.1 hmem, hown] at hold
        cases hold
        rw [hfits.topic, hshared] at hold'
        cases hold'
      exact ⟨old, getElem?_deactivate_of_notMem hne hold, htopic, hold', hrest⟩
    · obtain ⟨-, hget'⟩ := registered_deactivate hget' hregistered
      exact hentered.kept r' registration hget' hregistered hshared'
  | @removed j r party hget hstage hshared =>
    obtain ⟨own, hown, hr, -⟩ := h.counted.unsubscribing j r party hget hshared hstage
    refine ⟨fun i pattern shared hentry => ?_, fun r' registration hget' hregistered hshared' => ?_⟩
    · by_cases heq : i = party.client ∧ pattern = party.pattern
      · obtain ⟨rfl, rfl⟩ := heq
        have hnone := (setEntry_self _ party.client party.pattern none).symm.trans hentry
        cases hnone
      · have hold := (setEntry_of_ne _ heq none).symm.trans hentry
        obtain ⟨old, hold', hrest⟩ := hentered.made i pattern shared hold
        have hne : shared.registration ∉ [r] := by
          intro hmem
          rw [List.mem_singleton, ← hr] at hmem
          exact heq (hentered.unique hold hown hmem)
        exact ⟨old, getElem?_endAll_of_notMem hne hold', hrest⟩
    · obtain ⟨hne, hget'⟩ := registered_endAll hget' hregistered
      obtain ⟨shared, hentry, hr'⟩ := hentered.kept r' registration hget' hregistered hshared'
      refine ⟨shared, (setEntry_of_ne _ (fun heq => ?_) none).trans hentry, hr'⟩
      rw [heq.1, heq.2, hown] at hentry
      cases hentry
      exact hne (List.mem_singleton.2 (hr'.symm.trans hr))
  | @cleared j party hget hstage =>
    refine ⟨fun i pattern shared hentry => ?_, fun r' registration hget' hregistered hshared' => ?_⟩
    · by_cases heq : i = party.client
      · subst heq
        have hnone := (congrFun (Function.update_self party.client _ s.entry) pattern).symm.trans hentry
        cases hnone
      · have hold := (congrFun (Function.update_of_ne heq _ s.entry) pattern).symm.trans hentry
        obtain ⟨old, hold', hrest⟩ := hentered.made i pattern shared hold
        have hne : shared.registration ∉ s.entered party.client := by
          intro hmem
          obtain ⟨pattern', shared', hentry', hr⟩ := mem_entered.1 hmem
          exact heq (hentered.unique hold hentry' hr.symm).1
        exact ⟨old, getElem?_endAll_of_notMem hne hold', hrest⟩
    · obtain ⟨hne, hget'⟩ := registered_endAll hget' hregistered
      obtain ⟨shared, hentry, hr⟩ := hentered.kept r' registration hget' hregistered hshared'
      have hclient : registration.client ≠ party.client := by
        intro heq
        rw [heq] at hentry
        exact hne (mem_entered.2 ⟨_, shared, hentry, hr⟩)
      exact ⟨shared, (congrFun (Function.update_of_ne hclient _ s.entry) _).trans hentry, hr⟩

end Domains

/-! ## The handles -/

namespace Ledger

variable {l : Ledger}

/-- The party is a live handle of the client for the pattern. -/
def counts (l : Ledger) (i : ℕ) (pattern : String) (party : Party) : Bool :=
  party.client = i && party.pattern = pattern && l.live party

theorem counts_iff {i : ℕ} {pattern : String} {party : Party} :
    l.counts i pattern party = true ↔
      party.client = i ∧ party.pattern = pattern ∧ l.live party = true := by
  simp [counts, and_assoc]

theorem counts_self {party : Party} (h : l.live party = true) :
    l.counts party.client party.pattern party = true :=
  counts_iff.2 ⟨rfl, rfl, h⟩

/-- One party is counted anew. -/
theorem count_setStage {j : ℕ} {party : Party} (hget : l.parties[j]? = some party)
    (stage : PartyStage) (i : ℕ) (pattern : String) :
    (l.setStage j stage).count i pattern + (l.counts i pattern party).toNat =
      l.count i pattern + (l.counts i pattern { party with stage := stage }).toNat :=
  countP_modify hget

/-- A party counts for its own client and pattern only. -/
theorem count_setStage_of_ne {j : ℕ} {party : Party} (hget : l.parties[j]? = some party)
    (stage : PartyStage) {i : ℕ} {pattern : String}
    (hne : ¬(i = party.client ∧ pattern = party.pattern)) :
    (l.setStage j stage).count i pattern = l.count i pattern := by
  have hcount := count_setStage hget stage i pattern
  have hnot : ∀ stage', l.counts i pattern { party with stage := stage' } = false := by
    intro stage'
    rw [← Bool.not_eq_true, counts_iff]
    rintro ⟨hclient, hpattern, -⟩
    exact hne ⟨hclient.symm, hpattern.symm⟩
  have hold := hnot party.stage
  rw [hold, hnot stage] at hcount
  exact hcount

theorem live_stage {party : Party} {stage : PartyStage}
    (h : stage.registration = none ∨ stage.registration = party.stage.registration)
    (hlive : l.live { party with stage := stage } = true) : l.live party = true := by
  unfold live at hlive ⊢
  rcases h with h | h
  · rw [h] at hlive
    cases hlive
  · rw [← h]
    exact hlive

/-- A party that takes no registration counts no more than before. -/
theorem count_setStage_le {j : ℕ} {party : Party} (hget : l.parties[j]? = some party)
    {stage : PartyStage} (h : stage.registration = none ∨ stage.registration = party.stage.registration)
    (i : ℕ) (pattern : String) : (l.setStage j stage).count i pattern ≤ l.count i pattern := by
  have hcount := count_setStage hget stage i pattern
  have hle : (l.counts i pattern { party with stage := stage }).toNat ≤
      (l.counts i pattern party).toNat := by
    cases hnew : l.counts i pattern { party with stage := stage } with
    | false => exact Nat.zero_le _
    | true =>
      obtain ⟨hclient, hpattern, hlive⟩ := counts_iff.1 hnew
      have hold : l.counts i pattern party = true :=
        counts_iff.2 ⟨hclient, hpattern, live_stage h hlive⟩
      rw [hold]
  omega

theorem Counted.congr {l' : Ledger} (h : Counted l) (hparties : l'.parties = l.parties)
    (hentry : l'.entry = l.entry) (hregistrations : l'.registrations = l.registrations) :
    Counted l' := by
  have hlive : l'.live = l.live := by
    funext party
    rw [live, live, hregistrations]
  have hcount : l'.count = l.count := by
    funext i pattern
    rw [count, count, hparties, hlive]
  refine ⟨?_, ?_, ?_, ?_⟩
  · rw [hparties, hentry]
    exact h.subscribing
  · rw [hparties, hentry]
    exact h.unsubscribing
  · rw [hparties, hentry, hlive]
    exact h.own
  · rw [hentry, hcount]
    exact h.enough

/-- No handle becomes live. -/
theorem counted_registrations (h : Counted l) {registrations : List Restorable}
    (hlive : ∀ (j : ℕ) party, l.parties[j]? = some party →
      live { l with registrations := registrations } party = true → l.live party = true) :
    Counted { l with registrations := registrations } := by
  refine ⟨h.subscribing, h.unsubscribing, ?_, fun i pattern shared hentry => ?_⟩
  · intro j r party hget hshared hlive' hr
    exact h.own j r party hget hshared (hlive j party hget hlive') hr
  · refine le_trans (List.countP_mono_left fun party hmem hcounts => ?_) (h.enough i pattern shared hentry)
    obtain ⟨j, hget⟩ := List.mem_iff_getElem?.1 hmem
    obtain ⟨hclient, hpattern, hlive'⟩ := counts_iff.1 hcounts
    exact counts_iff.2 ⟨hclient, hpattern, hlive j party hget hlive'⟩

theorem counted_concat (h : Counted l) {party : Party} (hnone : party.stage.registration = none)
    (hsubscribing : party.topic.shared = true → party.stage ≠ .subscribing) :
    Counted { l with parties := l.parties ++ [party] } := by
  refine ⟨fun k party' hk hshared hstage => ?_, fun k r party' hk hshared hstage => ?_,
    fun k r party' hk hshared hlive hr => ?_, fun i pattern shared hentry => ?_⟩
  · rcases getElem?_concat_eq_some hk with hk | ⟨-, rfl⟩
    · exact h.subscribing k party' hk hshared hstage
    · exact absurd hstage (hsubscribing hshared)
  · rcases getElem?_concat_eq_some hk with hk | ⟨-, rfl⟩
    · exact h.unsubscribing k r party' hk hshared hstage
    · rw [hstage] at hnone
      cases hnone
  · rcases getElem?_concat_eq_some hk with hk | ⟨-, rfl⟩
    · exact h.own k r party' hk hshared hlive hr
    · rw [hnone] at hr
      cases hr
  · have hdead : l.live party = false := by
      rw [live, hnone]
      rfl
    have hcount : count { l with parties := l.parties ++ [party] } i pattern = l.count i pattern := by
      have hnot : l.counts i pattern party = false := by
        rw [counts, hdead, Bool.and_false]
      change (l.parties ++ [party]).countP (l.counts i pattern) = _
      rw [List.countP_append, List.countP_singleton, hnot]
      rfl
    rw [hcount]
    exact h.enough i pattern shared hentry

/-- A party goes on, and the entries stay. -/
theorem counted_setStage (h : Counted l) {j : ℕ} {party : Party}
    (hget : l.parties[j]? = some party) (stage : PartyStage)
    (hstage : stage.registration = none ∨ stage.registration = party.stage.registration)
    (hsubscribing : party.topic.shared = true → stage = .subscribing →
      l.entry party.client party.pattern = none)
    (hunsubscribing : ∀ r, party.topic.shared = true → stage = .unsubscribing r →
      ∃ shared, l.entry party.client party.pattern = some shared ∧ shared.registration = r ∧
        shared.references ≤ 1) : Counted (l.setStage j stage) := by
  refine ⟨fun k party' hk hshared hstage' => ?_, fun k r party' hk hshared hstage' => ?_,
    fun k r party' hk hshared hlive hr => ?_, fun i pattern shared hentry => ?_⟩
  · rcases getElem?_setStage hk with ⟨-, old, hold, rfl⟩ | ⟨-, hk⟩
    · rw [hget] at hold
      cases hold
      exact hsubscribing hshared hstage'
    · exact h.subscribing k party' hk hshared hstage'
  · rcases getElem?_setStage hk with ⟨-, old, hold, rfl⟩ | ⟨-, hk⟩
    · rw [hget] at hold
      cases hold
      exact hunsubscribing r hshared hstage'
    · exact h.unsubscribing k r party' hk hshared hstage'
  · rcases getElem?_setStage hk with ⟨-, old, hold, rfl⟩ | ⟨-, hk⟩
    · rw [hget] at hold
      cases hold
      refine h.own j r party hget hshared (live_stage hstage hlive) ?_
      rcases hstage with hstage | hstage
      · change stage.registration = some r at hr
        rw [hstage] at hr
        cases hr
      · rw [← hstage]
        exact hr
    · exact h.own k r party' hk hshared hlive hr
  · exact le_trans (count_setStage_le hget hstage i pattern) (h.enough i pattern shared hentry)

/-- A party of a client that has no map. -/
theorem counted_unshared (h : Counted l) {j : ℕ} {party : Party}
    (hget : l.parties[j]? = some party) (hshared : party.topic.shared = false)
    (hnone : ∀ pattern, l.entry party.client pattern = none) (stage : PartyStage) :
    Counted (l.setStage j stage) := by
  have hother : ∀ (k : ℕ) party', (l.setStage j stage).parties[k]? = some party' →
      party'.topic.shared = true → l.parties[k]? = some party' := by
    intro k party' hk hshared'
    rcases getElem?_setStage hk with ⟨-, old, hold, rfl⟩ | ⟨-, hk⟩
    · rw [hget] at hold
      cases hold
      change party.topic.shared = true at hshared'
      rw [hshared] at hshared'
      cases hshared'
    · exact hk
  refine ⟨fun k party' hk hshared' => h.subscribing k party' (hother k party' hk hshared') hshared',
    fun k r party' hk hshared' => h.unsubscribing k r party' (hother k party' hk hshared') hshared',
    fun k r party' hk hshared' => h.own k r party' (hother k party' hk hshared') hshared', ?_⟩
  intro i pattern shared hentry
  have hne : i ≠ party.client := by
    intro heq
    subst heq
    have hsome := (hnone pattern).symm.trans hentry
    cases hsome
  rw [count_setStage_of_ne hget stage fun heq => hne heq.1]
  exact h.enough i pattern shared hentry

/-- The call with the mutex changes the entry of its pattern, and is through. -/
theorem counted_setEntry (h : Counted l) (hlined : Lined l) {j : ℕ} {party : Party}
    (hget : l.parties[j]? = some party) (hhead : (l.queue party.client).head? = some j)
    {stage : PartyStage} {shared : Option SharedSubscription}
    (hstage : stage.requesting = false)
    (hothers : ∀ (k r : ℕ) party', k ≠ j → l.parties[k]? = some party' → party'.topic.shared = true →
      l.live party' = true → party'.client = party.client → party'.pattern = party.pattern →
      party'.stage.registration = some r → ∃ shared', shared = some shared' ∧ shared'.registration = r)
    (hown : ∀ r, stage.registration = some r →
      ∃ shared', shared = some shared' ∧ shared'.registration = r)
    (henough : ∀ shared', shared = some shared' →
      (l.setStage j stage).count party.client party.pattern ≤ shared'.references) :
    Counted ((l.setEntry party.client party.pattern shared).finish j party.client stage) := by
  set l' := (l.setEntry party.client party.pattern shared).finish j party.client stage
  -- the others have no request under way at this client
  have helse : ∀ (k : ℕ) party', k ≠ j → l.parties[k]? = some party' → party'.topic.shared = true →
      party'.stage.requesting = true →
      l'.entry party'.client party'.pattern = l.entry party'.client party'.pattern := by
    intro k party' hne hk hshared hrequesting
    refine setEntry_of_ne l (fun heq => hne ?_) shared
    exact eq_of_locked hlined hhead hk hshared hrequesting heq.1
  refine ⟨fun k party' hk hshared hstage' => ?_, fun k r party' hk hshared hstage' => ?_,
    fun k r party' hk hshared hlive hr => ?_, fun i pattern shared' hentry => ?_⟩
  · rcases getElem?_setStage hk with ⟨-, old, -, rfl⟩ | ⟨hne, hk⟩
    · change stage = .subscribing at hstage'
      rw [hstage'] at hstage
      cases hstage
    · rw [helse k party' hne hk hshared (by rw [hstage']; rfl)]
      exact h.subscribing k party' hk hshared hstage'
  · rcases getElem?_setStage hk with ⟨-, old, -, rfl⟩ | ⟨hne, hk⟩
    · change stage = .unsubscribing r at hstage'
      rw [hstage'] at hstage
      cases hstage
    · rw [helse k party' hne hk hshared (by rw [hstage']; rfl)]
      exact h.unsubscribing k r party' hk hshared hstage'
  · rcases getElem?_setStage hk with ⟨-, old, hold, rfl⟩ | ⟨hne, hk⟩
    · have hold' : l.parties[j]? = some old := hold
      rw [hget] at hold'
      cases hold'
      obtain ⟨shared', heq, hr'⟩ := hown r hr
      exact ⟨shared', (setEntry_self l _ _ _).trans heq, hr'⟩
    · by_cases heq : party'.client = party.client ∧ party'.pattern = party.pattern
      · obtain ⟨shared', hsome, hr'⟩ := hothers k r party' hne hk hshared hlive heq.1 heq.2 hr
        rw [heq.1, heq.2]
        exact ⟨shared', (setEntry_self l _ _ _).trans hsome, hr'⟩
      · obtain ⟨shared', hentry, hr'⟩ := h.own k r party' hk hshared hlive hr
        exact ⟨shared', (setEntry_of_ne l heq _).trans hentry, hr'⟩
  · have hcount : l'.count i pattern = (l.setStage j stage).count i pattern := rfl
    rw [hcount]
    by_cases heq : i = party.client ∧ pattern = party.pattern
    · obtain ⟨rfl, rfl⟩ := heq
      exact henough shared' ((setEntry_self l _ _ _).symm.trans hentry)
    · rw [count_setStage_of_ne hget stage heq]
      exact h.enough i pattern shared' ((setEntry_of_ne l heq _).symm.trans hentry)

end Ledger

namespace Domains

open Ledger

variable {s : Domains} {e : DomainsEvent} {l' : Ledger}

/-- The entry that the party's `unsubscribe` would find is that of its registration. -/
def findsOwn (s : Domains) (party : Party) : Bool :=
  match party.stage with
  | .leaving r => (s.entry party.client party.pattern).all (·.registration = r)
  | _ => true

/-- An `unsubscribe` that gets the mutex finds its own entry, or none. -/
def OwnEntry (s : Domains) : DomainsEvent → Prop
  | .enter j => ∀ party ∈ s.entering j, s.findsOwn party = true
  | _ => True

instance OwnEntry.decidable (s : Domains) : ∀ e, Decidable (s.OwnEntry e)
  | .enter j => inferInstanceAs (Decidable (∀ party ∈ s.entering j, s.findsOwn party = true))
  | .conn _ | .accessor _ | .clone _ | .dropClient _ | .subscribe .. | .unsubscribeAll _
  | .answer .. | .unsubscribe _ | .enqueue _ | .abandon _ => inferInstanceAs (Decidable True)

theorem own_of_enters {j r : ℕ} {party : Party} {shared : SharedSubscription}
    (ho : s.OwnEntry (.enter j)) (hj : s.Enters j party) (hstage : party.stage = .leaving r)
    (hentry : s.entry party.client party.pattern = some shared) : shared.registration = r := by
  have hfinds := ho party (entering_of_enters hj)
  rw [findsOwn, hstage] at hfinds
  simp only [hentry, Option.all_some, decide_eq_true_eq] at hfinds
  exact hfinds

/-- An entry's registration is active. -/
theorem live_of_entry (h : s.ledger.Sound) {party : Party} {shared : SharedSubscription}
    (hentry : s.entry party.client party.pattern = some shared)
    (hr : party.stage.registration = some shared.registration) : s.ledger.live party = true := by
  obtain ⟨registration, hget, -, -, -, -, -, hactive⟩ := h.entered.made _ _ _ hentry
  have hget' : s.ledger.registrations[shared.registration]? = some registration := hget
  rw [Ledger.live, hr, Option.any_some, hget', Option.any_some]
  exact hactive

/-- The party that holds a request, or the mutex, is at its head. -/
theorem head_of_requesting (h : s.ledger.Sound) {j : ℕ} {party : Party}
    (hget : s.parties[j]? = some party) (hshared : party.topic.shared = true)
    (hrequesting : party.stage.requesting = true) : (s.queue party.client).head? = some j :=
  h.lined.locked j party hget hshared hrequesting

theorem counted_joined (h : s.ledger.Sound) {j : ℕ} {party : Party} {shared : SharedSubscription}
    (hj : s.Enters j party) (hentry : s.entry party.client party.pattern = some shared) :
    Counted ((s.ledger.setEntry party.client party.pattern
      (some ⟨shared.registration, shared.references + 1⟩)).finish j party.client
        (.held shared.registration)) := by
  refine counted_setEntry h.counted h.lined hj.1 hj.2 rfl ?_ ?_ ?_
  · intro k r party' hne hk hshared hlive hclient hpattern hr
    obtain ⟨shared', hentry', hr'⟩ := h.counted.own k r party' hk hshared hlive hr
    have hentry'' : s.entry party.client party.pattern = some shared' := by
      rw [← hclient, ← hpattern]
      exact hentry'
    rw [hentry] at hentry''
    cases hentry''
    exact ⟨_, rfl, hr'⟩
  · intro r hr
    cases hr
    exact ⟨_, rfl, rfl⟩
  · intro shared' heq
    cases heq
    have hcount := count_setStage (l := s.ledger) hj.1 (.held shared.registration) party.client party.pattern
    have henough := h.counted.enough _ _ _ hentry
    have hone := Bool.toNat_le (s.ledger.counts party.client party.pattern
      { party with stage := .held shared.registration })
    dsimp only
    omega

theorem counted_decremented (h : s.ledger.Sound) {j r : ℕ} {party : Party}
    {shared : SharedSubscription} (ho : s.OwnEntry (.enter j)) (hj : s.Enters j party)
    (hstage : party.stage = .leaving r)
    (hentry : s.entry party.client party.pattern = some shared) :
    Counted ((s.ledger.setEntry party.client party.pattern
      (some ⟨shared.registration, shared.references - 1⟩)).finish j party.client .gone) := by
  have hr := own_of_enters ho hj hstage hentry
  refine counted_setEntry h.counted h.lined hj.1 hj.2 rfl ?_ ?_ ?_
  · intro k r' party' hne hk hshared hlive hclient hpattern hr'
    obtain ⟨shared', hentry', hr''⟩ := h.counted.own k r' party' hk hshared hlive hr'
    have hentry'' : s.entry party.client party.pattern = some shared' := by
      rw [← hclient, ← hpattern]
      exact hentry'
    rw [hentry] at hentry''
    cases hentry''
    exact ⟨_, rfl, hr''⟩
  · intro r' hr'
    cases hr'
  · intro shared' heq
    cases heq
    have hlive : s.ledger.live party = true := live_of_entry h hentry (by rw [hstage, hr]; rfl)
    have hcount := count_setStage (l := s.ledger) hj.1 .gone party.client party.pattern
    have hdead : s.ledger.counts party.client party.pattern { party with stage := .gone } = false := by
      rw [counts]
      exact Bool.and_false _
    rw [counts_self hlive, hdead] at hcount
    have henough := h.counted.enough _ _ _ hentry
    dsimp only
    simp only [Bool.toNat_true, Bool.toNat_false] at hcount
    omega

/-- A handle has an old registration. -/
theorem live_register (h : s.ledger.Sound) (registration : Restorable) (k : ℕ) (party : Party)
    (hget : s.ledger.parties[k]? = some party)
    (hlive : Ledger.live { s.ledger with registrations := s.registrations ++ [registration] } party = true) :
    s.ledger.live party = true := by
  unfold Ledger.live at hlive ⊢
  cases hr : party.stage.registration with
  | none =>
    rw [hr] at hlive
    cases hlive
  | some r =>
    obtain ⟨old, hold, -⟩ := h.placed.made k r party hget hr
    have hnew : (s.registrations ++ [registration])[r]? = some old := getElem?_concat_of_some hold
    rw [hr, Option.any_some] at hlive
    change (s.registrations ++ [registration])[r]?.any (·.active) = true at hlive
    rw [hnew] at hlive
    rw [Option.any_some, hold]
    exact hlive

theorem counted_entered (h : s.ledger.Sound) {j : ℕ} {party : Party} {registration : Restorable}
    (hget : s.parties[j]? = some party) (hstage : party.stage = .subscribing)
    (hshared : party.topic.shared = true) :
    Counted (({ s.ledger with registrations := s.registrations ++ [registration] }.setEntry
      party.client party.pattern (some ⟨s.registrations.length, 1⟩)).finish j party.client
        (.held s.registrations.length)) := by
  have hnone := h.counted.subscribing j party hget hshared hstage
  have hnobody : ∀ (k r : ℕ) party', s.ledger.parties[k]? = some party' →
      party'.topic.shared = true → s.ledger.live party' = true → party'.client = party.client →
      party'.pattern = party.pattern → party'.stage.registration = some r → False := by
    intro k r party' hk hshared' hlive' hclient hpattern hr
    obtain ⟨shared, hentry, -⟩ := h.counted.own k r party' hk hshared' hlive' hr
    rw [hclient, hpattern, hnone] at hentry
    cases hentry
  have hhead := head_of_requesting h hget hshared (by rw [hstage]; rfl)
  refine counted_setEntry (counted_registrations h.counted (live_register h registration))
    (h.lined.congr rfl rfl) hget hhead rfl ?_ ?_ ?_
  · intro k r party' hne hk hshared' hlive' hclient hpattern hr
    have hlive₀ := live_register h registration k party' hk hlive'
    exact (hnobody k r party' hk hshared' hlive₀ hclient hpattern hr).elim
  · intro r hr
    cases hr
    exact ⟨_, rfl, rfl⟩
  · intro shared' heq
    cases heq
    have hcount := count_setStage
      (l := { s.ledger with registrations := s.registrations ++ [registration] }) hget
      (.held s.registrations.length) party.client party.pattern
    have hzero : count { s.ledger with registrations := s.registrations ++ [registration] }
        party.client party.pattern = 0 := by
      refine List.countP_eq_zero.2 fun party' hmem hcounts => ?_
      obtain ⟨k, hk⟩ := List.mem_iff_getElem?.1 hmem
      obtain ⟨hclient, hpattern, hlive'⟩ := counts_iff.1 hcounts
      have htopic : party'.topic.shared = true := by
        have htyped := h.placed.typed k party' hk
        rw [hclient, h.placed.typed j party hget] at htyped
        rw [← Option.some.inj htyped]
        exact hshared
      have hlive'' := live_register h registration k party' hk hlive'
      cases hr : party'.stage.registration with
      | none =>
        rw [Ledger.live, hr] at hlive''
        cases hlive''
      | some r => exact hnobody k r party' hk htopic hlive'' hclient hpattern hr
    have hone := Bool.toNat_le (counts
      { s.ledger with registrations := s.registrations ++ [registration] } party.client party.pattern
      { party with stage := .held s.registrations.length })
    dsimp only at hcount hzero hone ⊢
    omega

/-- What was ended before is no live handle's. -/
theorem live_endAll {l : Ledger} {rs : List ℕ} {party : Party} (h : (l.endAll rs).live party = true) :
    l.live party = true ∧ ∀ r ∈ rs, party.stage.registration ≠ some r := by
  cases hr : party.stage.registration with
  | none =>
    rw [Ledger.live, hr] at h
    cases h
  | some r =>
    rw [Ledger.live, hr, Option.any_some] at h
    cases hget : (l.endAll rs).registrations[r]? with
    | none =>
      rw [hget] at h
      cases h
    | some registration =>
      rw [hget] at h
      change registration.active = true at h
      obtain ⟨old, hold, rfl⟩ := getElem?_endAll hget
      split at h
      · cases h
      · rename_i hnot
        refine ⟨?_, fun r' hmem heq => hnot ?_⟩
        · rw [Ledger.live, hr, Option.any_some, hold]
          exact h
        · cases heq
          exact hmem

theorem counted_endAll (h : Counted s.ledger) (rs : List ℕ) : Counted (s.ledger.endAll rs) :=
  counted_registrations h fun _ _ _ hlive => (live_endAll hlive).1

theorem counted_removed (h : s.ledger.Sound) {j r : ℕ} {party : Party}
    (hget : s.parties[j]? = some party) (hstage : party.stage = .unsubscribing r)
    (hshared : party.topic.shared = true) :
    Counted (((s.ledger.endAll [r]).setEntry party.client party.pattern none).finish j party.client
      .gone) := by
  obtain ⟨shared, hentry, hr, -⟩ := h.counted.unsubscribing j r party hget hshared hstage
  have hhead := head_of_requesting h hget hshared (by rw [hstage]; rfl)
  refine counted_setEntry (counted_endAll h.counted [r]) (h.lined.congr rfl rfl) hget hhead rfl ?_ ?_ ?_
  · intro k r' party' hne hk hshared' hlive hclient hpattern hr'
    obtain ⟨hlive', hother⟩ := live_endAll hlive
    obtain ⟨shared', hentry', hr''⟩ := h.counted.own k r' party' hk hshared' hlive' hr'
    rw [hclient, hpattern, hentry] at hentry'
    cases hentry'
    rw [hr''.symm.trans hr] at hr'
    exact absurd hr' (hother r (List.mem_singleton_self r))
  · intro r' hr'
    cases hr'
  · intro shared' heq
    cases heq

theorem counted_cleared (h : s.ledger.Sound) {j : ℕ} {party : Party}
    (hget : s.parties[j]? = some party) (hstage : party.stage = .unsubscribingAll) :
    Counted ({ s.ledger.endAll (s.entered party.client) with
      entry := Function.update s.entry party.client fun _ => none }.finish j party.client .gone) := by
  have hshared := h.placed.mutexed j party hget (by rw [hstage]; rfl)
  have hhead := head_of_requesting h hget hshared (by rw [hstage]; rfl)
  have hentry : ∀ {i : ℕ}, i ≠ party.client → ∀ pattern,
      Function.update s.entry party.client (fun _ => none) i pattern = s.entry i pattern :=
    fun hne pattern => congrFun (Function.update_of_ne hne _ s.entry) pattern
  -- the others have no request under way at this client
  have helse : ∀ (k : ℕ) party', k ≠ j → s.parties[k]? = some party' → party'.topic.shared = true →
      party'.stage.requesting = true → party'.client ≠ party.client := by
    intro k party' hne hk hshared' hrequesting hclient
    exact hne (eq_of_locked h.lined hhead hk hshared' hrequesting hclient)
  -- and no live handle
  have hdead : ∀ (k : ℕ) party', s.parties[k]? = some party' → party'.topic.shared = true →
      (s.ledger.endAll (s.entered party.client)).live party' = true →
      s.ledger.live party' = true ∧ party'.client ≠ party.client := by
    intro k party' hk hshared' hlive
    obtain ⟨hlive', hother⟩ := live_endAll hlive
    refine ⟨hlive', fun hclient => ?_⟩
    cases hr : party'.stage.registration with
    | none =>
      rw [Ledger.live, hr] at hlive'
      cases hlive'
    | some r =>
      obtain ⟨shared, hentry', hr'⟩ := h.counted.own k r party' hk hshared' hlive' hr
      rw [hclient] at hentry'
      exact hother r (mem_entered.2 ⟨_, shared, hentry', hr'⟩) hr
  refine ⟨fun k party' hk hshared' hstage' => ?_, fun k r party' hk hshared' hstage' => ?_,
    fun k r party' hk hshared' hlive hr => ?_, fun i pattern shared hsome => ?_⟩
  · rcases getElem?_setStage hk with ⟨-, old, -, rfl⟩ | ⟨hne, hk⟩
    · cases hstage'
    · have hclient := helse k party' hne hk hshared' (by rw [hstage']; rfl)
      exact (hentry hclient _).trans (h.counted.subscribing k party' hk hshared' hstage')
  · rcases getElem?_setStage hk with ⟨-, old, -, rfl⟩ | ⟨hne, hk⟩
    · cases hstage'
    · have hclient := helse k party' hne hk hshared' (by rw [hstage']; rfl)
      obtain ⟨shared, hsome, hrest⟩ := h.counted.unsubscribing k r party' hk hshared' hstage'
      exact ⟨shared, (hentry hclient _).trans hsome, hrest⟩
  · rcases getElem?_setStage hk with ⟨-, old, -, rfl⟩ | ⟨hne, hk⟩
    · cases hr
    · obtain ⟨hlive', hclient⟩ := hdead k party' hk hshared' hlive
      obtain ⟨shared, hsome, hr'⟩ := h.counted.own k r party' hk hshared' hlive' hr
      exact ⟨shared, (hentry hclient _).trans hsome, hr'⟩
  · have hclient : i ≠ party.client := by
      intro heq
      subst heq
      have hnone := (congrFun (Function.update_self party.client _ s.entry) pattern).symm.trans hsome
      cases hnone
    have hended : (s.ledger.endAll (s.entered party.client)).count i pattern ≤
        s.ledger.count i pattern := by
      refine List.countP_mono_left fun party' hmem hcounts => ?_
      obtain ⟨hclient', hpattern', hlive⟩ := counts_iff.1 hcounts
      exact counts_iff.2 ⟨hclient', hpattern', (live_endAll hlive).1⟩
    have hcount : ((s.ledger.endAll (s.entered party.client)).setStage j .gone).count i pattern ≤
        s.ledger.count i pattern :=
      le_trans (count_setStage_le hget (.inl rfl) i pattern) hended
    exact le_trans hcount (h.counted.enough i pattern shared ((hentry hclient pattern).symm.trans hsome))

theorem entry_unshared (h : s.ledger.Sound) {j : ℕ} {party : Party}
    (hget : s.parties[j]? = some party) (hshared : party.topic.shared = false) (pattern : String) :
    s.entry party.client pattern = none := by
  by_contra hsome
  obtain ⟨shared, hentry⟩ := Option.ne_none_iff_exists'.1 hsome
  obtain ⟨registration, -, htopic, hshared', -⟩ := h.entered.made _ _ _ hentry
  rw [h.placed.typed j party hget] at htopic
  rw [← Option.some.inj htopic, hshared] at hshared'
  cases hshared'

theorem live_deactivate (l : Ledger) (rs : List ℕ) (party : Party) :
    (l.deactivate rs).live party = l.live party := by
  cases hr : party.stage.registration with
  | none =>
    rw [Ledger.live, Ledger.live, hr]
    rfl
  | some r =>
    rw [Ledger.live, Ledger.live, hr, Option.any_some, Option.any_some, Ledger.deactivate,
      List.getElem?_mapIdx]
    cases l.registrations[r]? with
    | none => rfl
    | some registration =>
      rw [Option.map_some, Option.any_some, Option.any_some]
      split <;> rfl

theorem counted_deactivate {l : Ledger} (h : Counted l) (rs : List ℕ) : Counted (l.deactivate rs) :=
  counted_registrations h fun _ party _ hlive => live_deactivate l rs party ▸ hlive

theorem counted_posted (h : s.ledger.Sound) (hp : Posted s e l') (ho : s.OwnEntry e) : Counted l' := by
  have hcounted := h.counted
  cases hp with
  | kept => exact hcounted
  | client => exact hcounted.congr rfl rfl rfl
  | called htopic hshared hstage =>
    refine (counted_concat hcounted ?_ ?_).congr rfl rfl rfl
    · rcases hstage with hstage | hstage <;> rw [hstage] <;> rfl
    · intro _ hsubscribing
      rcases hstage with hstage | hstage <;> rw [hstage] at hsubscribing <;> cases hsubscribing
  | asked htopic hshared hstage =>
    refine (counted_concat hcounted (by rw [hstage]; rfl) ?_).congr rfl rfl rfl
    intro hshared'
    rw [hshared] at hshared'
    cases hshared'
  | joined hj hstage hentry => exact counted_joined h hj hentry
  | decremented he hj hstage hentry hmore =>
    subst he
    exact (counted_decremented h ho hj hstage hentry).congr rfl rfl rfl
  | entered hget hstage hshared hregistration => exact counted_entered h hget hstage hshared
  | removed hget hstage hshared => exact counted_removed h hget hstage hshared
  | cleared hget hstage => exact counted_cleared h hget hstage
  | subscribing he hj hstage hentry =>
    exact counted_setStage hcounted hj.1 .subscribing (.inl rfl) (fun _ _ => hentry) (by simp)
  | checked hget hstage hshared =>
    exact counted_setStage hcounted hget _ (.inr (by rw [hstage]; rfl)) (by simp) (by simp)
  | @queued j r party hget hstage =>
    exact (counted_setStage hcounted hget (.leaving r) (.inr (by rw [hstage]; rfl))
      (by simp) (by simp)).congr rfl rfl rfl
  | missed hj hstage hentry =>
    exact (counted_setStage hcounted hj.1 .gone (.inl rfl) (by simp)
      (by simp)).congr rfl rfl rfl
  | @requested j r party shared request he hj hstage hentry hlast =>
    subst he
    have hr := own_of_enters ho hj hstage hentry
    refine (counted_setStage hcounted hj.1 (.unsubscribing r) (.inr (by rw [hstage]; rfl))
      (by simp) ?_).congr rfl rfl rfl
    intro r' _ heq
    cases heq
    exact ⟨shared, hentry, hr, hlast⟩
  | clearing hj hstage =>
    exact counted_setStage hcounted hj.1 .unsubscribingAll (.inl rfl) (by simp) (by simp)
  | ended hget hstage hlost =>
    exact (counted_setStage hcounted hget .gone (.inl rfl) (by simp)
      (by simp)).congr rfl rfl rfl
  | @registered j party registration hget hstage hshared hregistration =>
    have hadded : Counted { s.ledger with registrations := s.registrations ++ [registration] } :=
      counted_registrations hcounted (live_register h registration)
    exact (counted_unshared hadded hget hshared (entry_unshared h hget hshared)
      (.held s.registrations.length)).congr rfl rfl rfl
  | @deserted j r party hget hstage hshared =>
    exact (counted_unshared (counted_deactivate hcounted [r]) hget hshared
      (entry_unshared h hget hshared) (.unsubscribing r)).congr rfl rfl rfl

theorem sound_posted (h : s.ledger.Sound) (hp : Posted s e l') (ho : s.OwnEntry e) : Sound l' where
  placed := placed_posted h hp
  lined := lined_posted h hp
  entered := entered_posted h hp
  counted := counted_posted h hp ho

/-! ## What is dropped -/

theorem registrationHeld_iff {r : ℕ} : s.registrationHeld r = true ↔
    (∃ (j : ℕ) (party : Party), s.parties[j]? = some party ∧ party.stage.registration = some r) ∨
      ∃ i pattern shared, s.entry i pattern = some shared ∧ shared.registration = r := by
  rw [registrationHeld, Bool.or_eq_true, List.any_eq_true, List.any_eq_true]
  refine or_congr ⟨?_, ?_⟩ ⟨?_, ?_⟩
  · rintro ⟨party, hmem, hr⟩
    obtain ⟨j, hget⟩ := List.mem_iff_getElem?.1 hmem
    exact ⟨j, party, hget, of_decide_eq_true hr⟩
  · rintro ⟨j, party, hget, hr⟩
    exact ⟨party, List.mem_of_getElem? hget, decide_eq_true hr⟩
  · rintro ⟨client, hmem, hany⟩
    obtain ⟨i, hget⟩ := List.mem_iff_getElem?.1 hmem
    obtain ⟨entry', hmem', hr⟩ := List.any_eq_true.1 hany
    refine ⟨i, entry'.1, entry'.2, ?_, of_decide_eq_true hr⟩
    rw [entry, hget]
    exact AList.mem_lookup_iff.2 hmem'
  · rintro ⟨i, pattern, shared, hentry, hr⟩
    obtain ⟨client, hget, hlookup⟩ := Option.bind_eq_some_iff.1 hentry
    refine ⟨client, List.mem_of_getElem? hget, List.any_eq_true.2 ⟨⟨pattern, shared⟩, ?_, ?_⟩⟩
    · exact AList.mem_lookup_iff.1 hlookup
    · exact decide_eq_true hr

/-- A handle keeps the map of its client. -/
theorem mapHeld_of_party {j : ℕ} {party : Party} (hget : s.parties[j]? = some party)
    (hstage : party.stage ≠ .gone) : s.mapHeld party.client = true := by
  have hany : (s.parties.any fun party' => party'.client = party.client && party'.stage ≠ .gone) = true :=
    List.any_eq_true.2 ⟨party, List.mem_of_getElem? hget, by simpa using hstage⟩
  rw [mapHeld, hany, Bool.or_true]

theorem ne_gone_of_registration {stage : PartyStage} {r : ℕ} (h : stage.registration = some r) :
    stage ≠ .gone := by
  intro hgone
  rw [hgone] at h
  cases h

/-- What is registered after the collection has an owner, which keeps the map too. -/
theorem owned_of_kept (h : s.ledger.Sound) {r : ℕ} {registration : Restorable}
    (hget : s.registrations[r]? = some registration)
    (hheld : s.freeMaps.registrationHeld r = true) : s.mapHeld registration.client = true := by
  rcases registrationHeld_iff.1 hheld with ⟨j, party, hparty, hr⟩ | ⟨i, pattern, shared, hentry, hr⟩
  · obtain ⟨registration', hget', hfits⟩ := h.placed.made j r party hparty hr
    have hget'' : s.ledger.registrations[r]? = some registration := hget
    rw [hget''] at hget'
    cases hget'
    rw [hfits.client]
    exact mapHeld_of_party hparty (ne_gone_of_registration hr)
  · rw [entry_freeMaps] at hentry
    split at hentry
    · rename_i hmap
      obtain ⟨registration', hget', -, -, hclient, -⟩ := h.entered.made i pattern shared hentry
      have hget'' : s.ledger.registrations[shared.registration]? = some registration := hr ▸ hget
      rw [hget''] at hget'
      cases hget'
      rw [hclient]
      exact hmap
    · cases hentry

theorem sound_collect (cfg : Config) (h : s.ledger.Sound) : (s.collect cfg).ledger.Sound := by
  rw [ledger_collect]
  set unheld := (List.range s.registrations.length).filter fun r => !s.freeMaps.registrationHeld r
  have hheld : ∀ {r : ℕ} {registration : Restorable}, s.registrations[r]? = some registration →
      (r ∉ unheld ↔ s.freeMaps.registrationHeld r = true) := by
    intro r registration hget
    have hlt := (List.getElem?_eq_some_iff.1 hget).1
    rw [List.mem_filter, List.mem_range]
    simp [hlt]
  refine ⟨?_, ?_, ?_, ?_⟩
  · refine placed_deactivate ?_ unheld
    exact h.placed.congr rfl rfl rfl
  · exact h.lined.congr rfl rfl
  · refine ⟨fun i pattern shared hentry => ?_, fun r registration hget hregistered hshared => ?_⟩
    · change (if s.mapHeld i then s.entry i pattern else none) = some shared at hentry
      have hfreed : s.freeMaps.entry i pattern = some shared := by
        rw [entry_freeMaps]
        exact hentry
      split at hentry
      · obtain ⟨registration, hget, hrest⟩ := h.entered.made i pattern shared hentry
        have hkept := (hheld hget).2 (registrationHeld_iff.2 (.inr ⟨i, pattern, shared, hfreed, rfl⟩))
        exact ⟨registration, getElem?_deactivate_of_notMem hkept hget, hrest⟩
      · cases hentry
    · obtain ⟨hkept, hget'⟩ := registered_deactivate hget hregistered
      have hmap := owned_of_kept h hget' ((hheld hget').1 hkept)
      obtain ⟨shared, hentry, hr⟩ := h.entered.kept r registration hget' hregistered hshared
      refine ⟨shared, ?_, hr⟩
      change (if s.mapHeld registration.client then _ else none) = some shared
      rw [if_pos hmap]
      exact hentry
  · refine counted_deactivate ⟨fun j party hget hshared hstage => ?_,
      fun j r party hget hshared hstage => ?_, fun j r party hget hshared hlive hr => ?_,
      fun i pattern shared hentry => ?_⟩ unheld
    · change (if s.mapHeld party.client then _ else none) = none
      split
      · exact h.counted.subscribing j party hget hshared hstage
      · rfl
    · obtain ⟨shared, hentry, hrest⟩ := h.counted.unsubscribing j r party hget hshared hstage
      refine ⟨shared, ?_, hrest⟩
      change (if s.mapHeld party.client then _ else none) = some shared
      rw [if_pos (mapHeld_of_party hget (by rw [hstage]; simp))]
      exact hentry
    · obtain ⟨shared, hentry, hrest⟩ := h.counted.own j r party hget hshared hlive hr
      refine ⟨shared, ?_, hrest⟩
      change (if s.mapHeld party.client then _ else none) = some shared
      rw [if_pos (mapHeld_of_party hget (ne_gone_of_registration hr))]
      exact hentry
    · change (if s.mapHeld i then s.entry i pattern else none) = some shared at hentry
      split at hentry
      · exact h.counted.enough i pattern shared hentry
      · cases hentry

theorem sound_step (cfg : Config) (s : Domains) (e : DomainsEvent) (h : s.ledger.Sound)
    (ho : s.OwnEntry e) : (s.step cfg e).ledger.Sound :=
  sound_collect cfg (sound_posted h (posted_act cfg h.placed.typed e) ho)

theorem sound_new (cfg : Config) : (new cfg).ledger.Sound where
  placed := by
    constructor
    · intro j party hget
      cases hget
    · intro j r party hget
      cases hget
    · intro j party hget
      cases hget
  lined := by
    constructor
    · intro i
      exact List.nodup_nil
    · intro i j hmem
      cases hmem
    · intro j party hget
      cases hget
  entered := by
    constructor
    · intro i pattern shared hentry
      cases hentry
    · intro r registration hget
      cases hget
  counted := by
    constructor
    · intro j party hget
      cases hget
    · intro j r party hget
      cases hget
    · intro j r party hget
      cases hget
    · intro i pattern shared hentry
      cases hentry

end Domains

end Fitz
