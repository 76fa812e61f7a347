import Fitz.Proof.Ledger
import Fitz.Lib.Machine

/-!
# The references of a subscription

`subscriptions_accounted`: in every run in which no handle is lost and no
`unsubscribe` meets the entry of another registration, the references of an entry are
the live handles for its pattern, and UNSUBSCRIBE is sent when the last of them goes.
A handle that an `unsubscribe_all` ended while it was on its way to the mutex takes
the entry of a new one (`handle_meets_new_entry`).
-/

namespace Fitz

open Machine Tables

/-- No entry counts more handles than there are. -/
def Ledger.Exact (l : Ledger) : Prop :=
  ∀ i pattern shared, l.entry i pattern = some shared →
    1 ≤ shared.references ∧ shared.references ≤ l.count i pattern

namespace Ledger

variable {l : Ledger} {i : ℕ} {pattern : String}

theorem count_registrations {registrations : List Restorable}
    (h : ∀ (j : ℕ) party, l.parties[j]? = some party → party.client = i → party.pattern = pattern →
      live { l with registrations := registrations } party = l.live party) :
    count { l with registrations := registrations } i pattern = l.count i pattern := by
  refine List.countP_congr fun party hmem => ?_
  obtain ⟨j, hget⟩ := List.mem_iff_getElem?.1 hmem
  change counts { l with registrations := registrations } i pattern party = true ↔
    l.counts i pattern party = true
  rw [counts_iff, counts_iff]
  constructor
  · rintro ⟨hclient, hpattern, hlive⟩
    exact ⟨hclient, hpattern, h j party hget hclient hpattern ▸ hlive⟩
  · rintro ⟨hclient, hpattern, hlive⟩
    exact ⟨hclient, hpattern, (h j party hget hclient hpattern).trans hlive⟩

/-- A party that keeps its registration counts as before. -/
theorem count_setStage_eq {j : ℕ} {party : Party} (hget : l.parties[j]? = some party)
    {stage : PartyStage} (h : stage.registration = party.stage.registration) :
    (l.setStage j stage).count i pattern = l.count i pattern := by
  have hcount := count_setStage hget stage i pattern
  have hsame : l.counts i pattern { party with stage := stage } = l.counts i pattern party := by
    rw [counts, counts, live, live, h]
  rw [hsame] at hcount
  omega

theorem live_none {party : Party} (h : party.stage.registration = none) : l.live party = false := by
  rw [live, h]
  rfl

theorem counts_of_dead {party : Party} (h : l.live party = false) :
    l.counts i pattern party = false := by
  rw [counts, h, Bool.and_false]

/-- So does one that was not live, and goes. -/
theorem count_gone {j : ℕ} {party : Party} (hget : l.parties[j]? = some party)
    (hdead : l.live party = false) : (l.setStage j .gone).count i pattern = l.count i pattern := by
  have hcount := count_setStage hget .gone i pattern
  have hgone : l.live { party with stage := .gone } = false := live_none rfl
  rw [counts_of_dead hdead, counts_of_dead hgone] at hcount
  exact hcount

theorem count_concat {party : Party} (h : party.stage.registration = none) :
    count { l with parties := l.parties ++ [party] } i pattern = l.count i pattern := by
  have hnot : l.counts i pattern party = false := counts_of_dead (live_none h)
  change (l.parties ++ [party]).countP (l.counts i pattern) = _
  rw [List.countP_append, List.countP_singleton, hnot]
  rfl

/-- The live handle `j` is counted. -/
theorem count_setStage_gone {j : ℕ} {party : Party} (hget : l.parties[j]? = some party)
    (hlive : l.live party = true) :
    (l.setStage j .gone).count party.client party.pattern + 1 =
      l.count party.client party.pattern := by
  have hcount := count_setStage hget .gone party.client party.pattern
  have hgone : l.live { party with stage := .gone } = false := live_none rfl
  rw [counts_self hlive, counts_of_dead hgone] at hcount
  exact hcount

/-- The handle `j` is made. -/
theorem count_setStage_held {j r : ℕ} {party : Party} (hget : l.parties[j]? = some party)
    (hnone : party.stage.registration = none)
    (hlive : l.live { party with stage := .held r } = true) :
    (l.setStage j (.held r)).count party.client party.pattern =
      l.count party.client party.pattern + 1 := by
  have hcount := count_setStage hget (.held r) party.client party.pattern
  have hheld : l.counts party.client party.pattern { party with stage := .held r } = true :=
    counts_iff.2 ⟨rfl, rfl, hlive⟩
  rw [counts_of_dead (live_none hnone), hheld] at hcount
  exact hcount

end Ledger

namespace Domains

open Ledger

variable {cfg : Config} {s : Domains} {e : DomainsEvent} {l' : Ledger}

/-! ## No handle is lost -/

/-- The handle is not live, or its map goes with it. -/
def spared (s : Domains) (j : ℕ) : Bool :=
  (s.parties[j]?).all fun party =>
    !(party.topic.shared && s.live party) || !(s.setStage j .gone).mapHeld party.client

/-- No live handle of a shared subscription is dropped, and none is gone with an
`unsubscribe` that fails. -/
def NoneLost (s : Domains) (e : DomainsEvent) : Prop := ∀ j ∈ s.lost e, s.spared j = true

instance (s : Domains) (e : DomainsEvent) : Decidable (s.NoneLost e) :=
  inferInstanceAs (Decidable (∀ j ∈ s.lost e, s.spared j = true))

theorem live_append (h : s.ledger.Sound) (registration : Restorable) {k : ℕ} {party : Party}
    (hget : s.ledger.parties[k]? = some party) :
    Ledger.live { s.ledger with registrations := s.registrations ++ [registration] } party =
      s.ledger.live party := by
  rw [Bool.eq_iff_iff]
  refine ⟨live_register h registration k party hget, fun hlive => ?_⟩
  unfold Ledger.live at hlive ⊢
  cases hr : party.stage.registration with
  | none =>
    rw [hr] at hlive
    cases hlive
  | some r =>
    obtain ⟨old, hold, -⟩ := h.placed.made k r party hget hr
    have hnew : (s.registrations ++ [registration])[r]? = some old := getElem?_concat_of_some hold
    rw [hr, Option.any_some, hold] at hlive
    rw [Option.any_some]
    change (s.registrations ++ [registration])[r]?.any (·.active) = true
    rw [hnew]
    exact hlive

/-- A handle of another registration is as live as before. -/
theorem live_endAll_of_ne {l : Ledger} {rs : List ℕ} {party : Party}
    (h : ∀ r ∈ rs, party.stage.registration ≠ some r) : (l.endAll rs).live party = l.live party := by
  cases hr : party.stage.registration with
  | none => rw [live_none hr, live_none hr]
  | some r =>
    have hnot : r ∉ rs := fun hmem => h r hmem hr
    rw [Ledger.live, Ledger.live, hr, Option.any_some, Option.any_some, Ledger.endAll,
      List.getElem?_mapIdx]
    simp only [hnot, if_false, Option.map_id']

theorem exact_posted (h : s.ledger.Sound) (hx : s.ledger.Exact) (hp : Posted s e l')
    (ho : s.OwnEntry e) (hn : s.NoneLost e) (i : ℕ) (pattern : String) (shared : SharedSubscription)
    (hentry : l'.entry i pattern = some shared) :
    (1 ≤ shared.references ∧ shared.references ≤ l'.count i pattern) ∨
      ∃ (j : ℕ) (party : Party), s.lost e = some j ∧ s.parties[j]? = some party ∧
        party.topic.shared = true ∧ i = party.client ∧
        (s.setStage j .gone).mapHeld party.client = false := by
  -- where the entry and the count are as before
  have hsame : s.entry i pattern = some shared → l'.count i pattern = s.ledger.count i pattern →
      1 ≤ shared.references ∧ shared.references ≤ l'.count i pattern := by
    intro hold hcount
    rw [hcount]
    exact hx i pattern shared hold
  cases hp with
  | kept => exact .inl (hsame hentry rfl)
  | client => exact .inl (hsame hentry rfl)
  | called htopic hshared hstage =>
    refine .inl (hsame hentry (count_concat ?_))
    rcases hstage with hstage | hstage <;> rw [hstage] <;> rfl
  | asked htopic hshared hstage =>
    refine .inl (hsame hentry (count_concat ?_))
    rw [hstage]
    rfl
  | @joined j party old hj hstage hold =>
    left
    have hnone : party.stage.registration = none := by
      rw [hstage]
      rfl
    by_cases heq : i = party.client ∧ pattern = party.pattern
    · obtain ⟨rfl, rfl⟩ := heq
      have hnew := (setEntry_self s.ledger _ _ _).symm.trans hentry
      cases hnew
      have hlive : s.ledger.live { party with stage := .held old.registration } = true :=
        live_of_entry h hold rfl
      have hcount := count_setStage_held (l := s.ledger) hj.1 hnone hlive
      have hbefore := hx _ _ old hold
      change 1 ≤ old.references + 1 ∧ old.references + 1 ≤
        (s.ledger.setStage j (.held old.registration)).count party.client party.pattern
      omega
    · refine hsame ((setEntry_of_ne s.ledger heq _).symm.trans hentry) ?_
      exact count_setStage_of_ne (l := s.ledger) hj.1 _ heq
  | @entered j party registration hget hstage hshared hregistration =>
    left
    have hnone : party.stage.registration = none := by
      rw [hstage]
      rfl
    have hcount : ∀ i pattern, count { s.ledger with registrations := s.registrations ++ [registration] }
        i pattern = s.ledger.count i pattern :=
      fun i pattern => count_registrations fun k party' hk _ _ => live_append h registration hk
    by_cases heq : i = party.client ∧ pattern = party.pattern
    · obtain ⟨rfl, rfl⟩ := heq
      have hnew := (setEntry_self _ party.client party.pattern _).symm.trans hentry
      cases hnew
      have hlive : Ledger.live { s.ledger with registrations := s.registrations ++ [registration] }
          { party with stage := .held s.registrations.length } = true := by
        change ((s.registrations ++ [registration])[s.registrations.length]?).any (·.active) = true
        rw [List.getElem?_concat_length, hregistration]
        rfl
      have hone := count_setStage_held
        (l := { s.ledger with registrations := s.registrations ++ [registration] }) hget hnone hlive
      exact ⟨le_rfl, hone ▸ Nat.le_add_left 1 _⟩
    · refine hsame ((setEntry_of_ne _ heq _).symm.trans hentry) ?_
      exact (count_setStage_of_ne hget _ heq).trans (hcount i pattern)
  | @registered j party registration hget hstage hshared hregistration =>
    left
    have hne : ¬(i = party.client ∧ pattern = party.pattern) := by
      rintro ⟨rfl, -⟩
      have hnone := entry_unshared h hget hshared pattern
      cases hnone.symm.trans hentry
    refine hsame hentry ((count_setStage_of_ne hget _ hne).trans ?_)
    exact count_registrations fun k party' hk _ _ => live_append h registration hk
  | @checked j r party hget hstage hshared =>
    exact .inl (hsame hentry (count_setStage_eq hget (by rw [hstage]; rfl)))
  | @queued j r party hget hstage =>
    have hcount : (s.ledger.setStage j (.leaving r)).count i pattern = s.ledger.count i pattern :=
      count_setStage_eq hget (by rw [hstage]; rfl)
    exact .inl (hsame hentry hcount)
  | @subscribing j party he hj hstage hnone =>
    exact .inl (hsame hentry (count_setStage_eq hj.1 (by rw [hstage]; rfl)))
  | @clearing j party hj hstage =>
    exact .inl (hsame hentry (count_setStage_eq hj.1 (by rw [hstage]; rfl)))
  | @requested j r party old request he hj hstage hold hlast =>
    have hcount : (s.ledger.setStage j (.unsubscribing r)).count i pattern =
        s.ledger.count i pattern := count_setStage_eq hj.1 (by rw [hstage]; rfl)
    exact .inl (hsame hentry hcount)
  | @missed j r party hj hstage hnone =>
    have hdead : s.ledger.live party = false := by
      rw [← Bool.not_eq_true]
      intro hlive
      have hmutexed := h.placed.mutexed j party hj.1 (by rw [hstage]; rfl)
      obtain ⟨old, hold, -⟩ := h.counted.own j r party hj.1 hmutexed hlive (by rw [hstage]; rfl)
      cases hnone.symm.trans hold
    exact .inl (hsame hentry (count_gone hj.1 hdead))
  | @decremented j r party old he hj hstage hold hmore =>
    left
    subst he
    have hr := own_of_enters ho hj hstage hold
    have hlive : s.ledger.live party = true := live_of_entry h hold (by rw [hstage, hr]; rfl)
    by_cases heq : i = party.client ∧ pattern = party.pattern
    · obtain ⟨rfl, rfl⟩ := heq
      have hnew := (setEntry_self _ party.client party.pattern _).symm.trans hentry
      cases hnew
      have hcount := count_setStage_gone (l := s.ledger) hj.1 hlive
      have hbefore := hx _ _ old hold
      change 1 ≤ old.references - 1 ∧ old.references - 1 ≤
        (s.ledger.setStage j .gone).count party.client party.pattern
      omega
    · refine hsame ((setEntry_of_ne _ heq _).symm.trans hentry) ?_
      exact count_setStage_of_ne (l := s.ledger) hj.1 _ heq
  | @deserted j r party hget hstage hshared =>
    left
    have hkept : (PartyStage.unsubscribing r).registration = party.stage.registration := by
      rw [hstage]
      rfl
    refine hsame hentry ((count_setStage_eq hget hkept).trans ?_)
    exact count_registrations fun k party' _ _ _ => live_deactivate s.ledger [r] party'
  | @removed j r party hget hstage hshared =>
    left
    by_cases heq : i = party.client ∧ pattern = party.pattern
    · obtain ⟨rfl, rfl⟩ := heq
      have hnone := (setEntry_self _ party.client party.pattern none).symm.trans hentry
      cases hnone
    · refine hsame ((setEntry_of_ne _ heq none).symm.trans hentry) ?_
      refine (count_setStage_of_ne (l := s.ledger.endAll [r]) hget .gone heq).trans ?_
      refine count_registrations fun k party' hk hclient hpattern => ?_
      refine live_endAll_of_ne fun r' hmem hr' => heq ?_
      -- a handle of the registration is for the pattern it was made for
      obtain ⟨own, hown, hfits⟩ := h.placed.made j r party hget (by rw [hstage]; rfl)
      rw [List.mem_singleton.1 hmem] at hr'
      obtain ⟨own', hown', hfits'⟩ := h.placed.made k r party' hk hr'
      cases hown.symm.trans hown'
      exact ⟨hclient.symm.trans (hfits'.client.symm.trans hfits.client),
        hpattern.symm.trans (hfits'.pattern.symm.trans hfits.pattern)⟩
  | @cleared j party hget hstage =>
    left
    by_cases heq : i = party.client
    · subst heq
      have hnone := (congrFun (Function.update_self party.client _ s.entry) pattern).symm.trans hentry
      cases hnone
    · have hold := (congrFun (Function.update_of_ne heq _ s.entry) pattern).symm.trans hentry
      refine hsame hold ((count_setStage_of_ne (l := s.ledger.endAll (s.entered party.client)) hget
        .gone fun hboth => heq hboth.1).trans ?_)
      refine count_registrations fun k party' hk hclient hpattern => ?_
      refine live_endAll_of_ne fun r hmem hr => heq ?_
      obtain ⟨pattern', old, hold', hr'⟩ := mem_entered.1 hmem
      obtain ⟨own, hown, -, -, hclient', -⟩ := h.entered.made _ _ _ hold'
      obtain ⟨own', hown', hfits⟩ := h.placed.made k r party' hk hr
      rw [hr'] at hown
      cases hown.symm.trans hown'
      exact hclient.symm.trans (hfits.client.symm.trans hclient')
  | @ended j party hget hstage hlost =>
    have hcase : s.ledger.live party = false ∨ party.topic.shared = false ∨ s.lost e = some j := hlost
    cases hlive : s.ledger.live party with
    | false => exact .inl (hsame hentry (count_gone hget hlive))
    | true =>
      cases hshared : party.topic.shared with
      | false =>
        left
        refine hsame hentry (count_setStage_of_ne (l := s.ledger) hget .gone ?_)
        rintro ⟨rfl, -⟩
        have hnone := entry_unshared h hget hshared pattern
        cases hnone.symm.trans hentry
      | true =>
        rw [hlive, hshared] at hcase
        have hlost' : s.lost e = some j := by simpa using hcase
        have hspared := hn j hlost'
        have hlive' : s.live party = true := hlive
        rw [spared, hget, Option.all_some, hshared, hlive'] at hspared
        by_cases heq : i = party.client
        · refine .inr ⟨j, party, hlost', hget, hshared, heq, ?_⟩
          simpa using hspared
        · left
          exact hsame hentry
            (count_setStage_of_ne (l := s.ledger) hget .gone fun hboth => heq hboth.1)

theorem mapHeld_finish (s : Domains) (j client i : ℕ) (stage : PartyStage) :
    (s.finish j client stage).mapHeld i = (s.setStage j stage).mapHeld i := by
  have hany : ((s.finish j client stage).clients[i]?).any (0 < ·.clones) =
      (s.clients[i]?).any (0 < ·.clones) := by
    by_cases hi : i = client
    · subst hi
      rw [finish, modifyQueue, getElem?_modifyClient_self, Option.any_map]
      rfl
    · rw [finish, modifyQueue, getElem?_modifyClient_ne _ hi]
      rfl
  rw [mapHeld, hany]
  rfl

/-- A handle that is lost is gone. -/
theorem act_of_lost {j : ℕ} {party : Party} (hlost : s.lost e = some j)
    (hget : s.parties[j]? = some party) : s.act cfg e = s.finish j party.client .gone := by
  cases e with
  | abandon j' =>
    obtain ⟨party', hget', hmatch⟩ := Option.bind_eq_some_iff.1 hlost
    split at hmatch
    · cases hmatch
    · rename_i hstage
      cases hmatch
      rw [hget] at hget'
      cases hget'
      simp only [act, abandon, hget]
  | answer j' result =>
    obtain ⟨party', hget', hmatch⟩ := Option.bind_eq_some_iff.1 hlost
    split at hmatch
    · rename_i r error hstage herror
      cases hmatch
      rw [hget] at hget'
      cases hget'
      simp only [act, answer, hget, hstage, herror, unsubscribed]
    · cases hmatch
  | conn | accessor | clone | dropClient | subscribe | unsubscribeAll | enter | unsubscribe
  | enqueue => cases hlost

theorem exact_step (cfg : Config) (s : Domains) (e : DomainsEvent) (h : s.ledger.Sound)
    (hx : s.ledger.Exact) (ho : s.OwnEntry e) (hn : s.NoneLost e) : (s.step cfg e).ledger.Exact := by
  intro i pattern shared hentry
  have hp := posted_act cfg h.placed.typed e
  rw [step, ledger_collect] at hentry ⊢
  change (if (s.act cfg e).mapHeld i then (s.act cfg e).entry i pattern else none) = some shared at hentry
  have hcount : ∀ rs, (Ledger.deactivate { (s.act cfg e).ledger with
      entry := fun i pattern => if (s.act cfg e).mapHeld i then (s.act cfg e).entry i pattern else none }
        rs).count i pattern = (s.act cfg e).ledger.count i pattern :=
    fun rs => count_registrations fun k party _ _ _ => live_deactivate (s.act cfg e).ledger rs party
  rw [hcount]
  split at hentry
  · rename_i hmap
    rcases exact_posted h hx hp ho hn i pattern shared hentry with hboth | hgone
    · exact hboth
    · -- the map of the lost handle went with it
      obtain ⟨j, party, hlost, hget, -, rfl, hfree⟩ := hgone
      rw [act_of_lost hlost hget, mapHeld_finish, hfree] at hmap
      cases hmap
  · cases hentry

/-! ## Who leaves last -/

/-- UNSUBSCRIBE is sent if the handle was live, and the last one. -/
def Leave.Last (leave : Leave) : Prop :=
  leave.request.isSome = true ↔ leave.live = true ∧ leave.others = []

theorem mem_livePeers {j k : ℕ} {p : Party → Bool} : k ∈ s.livePeers j p ↔
    k ≠ j ∧ ∃ party, s.parties[k]? = some party ∧ s.live party = true ∧ p party = true := by
  rw [livePeers, List.mem_filter, List.mem_range, Bool.and_eq_true, Option.any_eq_true]
  constructor
  · rintro ⟨-, hne, party, hget, hboth⟩
    obtain ⟨hlive, hp⟩ := Bool.and_eq_true_iff.1 hboth
    exact ⟨by simpa using hne, party, hget, hlive, hp⟩
  · rintro ⟨hne, party, hget, hlive, hp⟩
    exact ⟨(List.getElem?_eq_some_iff.1 hget).1, by simpa using hne, party, hget, by rw [hlive, hp]; rfl⟩

/-- The others of a handle are those that are counted with it. -/
theorem others_eq_nil_iff {j : ℕ} {party : Party} {request : Option (UInt16 × Bytes)} :
    (s.leaveOf j party request).others = [] ↔ ∀ (k : ℕ) party', s.parties[k]? = some party' →
      s.ledger.counts party.client party.pattern party' = true → k = j := by
  rw [leaveOf, List.eq_nil_iff_forall_not_mem]
  constructor
  · intro hnone k party' hget hcounts
    by_contra hne
    obtain ⟨hclient, hpattern, hlive⟩ := counts_iff.1 hcounts
    exact hnone k (mem_livePeers.2 ⟨hne, party', hget, hlive, by simp [hclient, hpattern]⟩)
  · intro hall k hmem
    obtain ⟨hne, party', hget, hlive, hp⟩ := mem_livePeers.1 hmem
    obtain ⟨hclient, hpattern⟩ := of_decide_eq_true hp
    exact hne (hall k party' hget (counts_iff.2 ⟨hclient, hpattern, hlive⟩))

theorem last_posted (h : s.ledger.Sound) (hx : s.ledger.Exact) (hp : Posted s e l')
    (ho : s.OwnEntry e) (hl : ∀ leave ∈ s.left, Leave.Last leave) :
    ∀ leave ∈ l'.left, Leave.Last leave := by
  have hconcat : ∀ new, Leave.Last new → ∀ leave ∈ s.left ++ [new], Leave.Last leave := by
    intro new hnew leave hmem
    rcases List.mem_append.1 hmem with hmem | hmem
    · exact hl leave hmem
    · rw [List.mem_singleton.1 hmem]
      exact hnew
  cases hp with
  | @missed j r party hj hstage hnone =>
    refine hconcat _ ⟨fun hsome => absurd hsome Bool.false_ne_true, fun hlive => ?_⟩
    -- a live handle would have its entry
    have hmutexed := h.placed.mutexed j party hj.1 (by rw [hstage]; rfl)
    obtain ⟨old, hold, -⟩ := h.counted.own j r party hj.1 hmutexed hlive.1 (by rw [hstage]; rfl)
    cases hnone.symm.trans hold
  | @decremented j r party shared he hj hstage hentry hmore =>
    refine hconcat _ ⟨fun hsome => absurd hsome Bool.false_ne_true, fun hlive => ?_⟩
    have hcount := hx _ _ shared hentry
    have htwo : 2 ≤ s.ledger.count party.client party.pattern := by omega
    obtain ⟨k, party', hne, hget, hcounts⟩ := exists_ne_of_two_le htwo j
    exact absurd (others_eq_nil_iff.1 hlive.2 k party' hget hcounts) hne
  | @requested j r party shared request he hj hstage hentry hlast =>
    subst he
    have hr := own_of_enters ho hj hstage hentry
    have hlive : s.ledger.live party = true := live_of_entry h hentry (by rw [hstage, hr]; rfl)
    have hcount := h.counted.enough _ _ shared hentry
    refine hconcat _ ⟨fun _ => ⟨hlive, others_eq_nil_iff.2 fun k party' hget hcounts => ?_⟩, fun _ => rfl⟩
    exact eq_of_countP_le_one (le_trans hcount hlast) hget hj.1 hcounts (counts_self hlive)
  | kept | client | called | asked | joined | subscribing | entered | registered | checked | queued
  | clearing | deserted | removed | cleared | ended => exact hl

/-! ## Runs -/

/-- The map and its handles, whoever has the mutex. -/
structure Accounted (s : Domains) : Prop where
  entered : ∀ (i : ℕ) client, s.clients[i]? = some client → client.topic.shared = true → ∀ pattern,
    (s.entry i pattern).isSome = true ↔ ∃ (j : ℕ) (party : Party), s.parties[j]? = some party ∧
      party.client = i ∧ party.pattern = pattern ∧ s.live party = true
  counted : ∀ i pattern shared, s.entry i pattern = some shared →
    shared.references = s.parties.countP fun party =>
      party.client = i && party.pattern = pattern && s.live party
  own : ∀ (j r : ℕ) party, s.parties[j]? = some party → party.topic.shared = true →
    s.live party = true → party.stage.registration = some r →
    ∃ shared, s.entry party.client party.pattern = some shared ∧ shared.registration = r
  last : ∀ leave ∈ s.left, Leave.Last leave

structure AccountsInv (s : Domains) : Prop where
  sound : s.ledger.Sound
  exact : s.ledger.Exact
  last : ∀ leave ∈ s.left, Leave.Last leave

theorem accountsInv_new (cfg : Config) : AccountsInv (new cfg) where
  sound := sound_new cfg
  exact := by
    intro i pattern shared hentry
    cases hentry
  last := by
    intro leave hmem
    cases hmem

theorem accountsInv_step (cfg : Config) (s : Domains) (e : DomainsEvent) (h : AccountsInv s)
    (hc : s.NoneLost e ∧ s.OwnEntry e) : AccountsInv (s.step cfg e) where
  sound := sound_step cfg s e h.sound hc.2
  exact := exact_step cfg s e h.sound h.exact hc.2 hc.1
  last := last_posted h.sound h.exact (posted_act cfg h.sound.placed.typed e) hc.2 h.last

theorem AccountsInv.accounted (h : AccountsInv s) : Accounted s where
  entered := by
    intro i client hget hshared pattern
    constructor
    · intro hsome
      obtain ⟨shared, hentry⟩ := Option.isSome_iff_exists.1 hsome
      have hcount := h.exact i pattern shared hentry
      have hpos : 0 < s.ledger.count i pattern := by omega
      obtain ⟨party, hmem, hcounts⟩ := List.countP_pos_iff.1 hpos
      obtain ⟨j, hparty⟩ := List.mem_iff_getElem?.1 hmem
      obtain ⟨hclient, hpattern, hlive⟩ := counts_iff.1 hcounts
      exact ⟨j, party, hparty, hclient, hpattern, hlive⟩
    · rintro ⟨j, party, hparty, rfl, rfl, hlive⟩
      have htopic : party.topic.shared = true := by
        have htyped := h.sound.placed.typed j party hparty
        rw [show s.ledger.topic party.client = some client.topic from topic_of_client hget] at htyped
        rw [← Option.some.inj htyped]
        exact hshared
      cases hr : party.stage.registration with
      | none =>
        have hdead := live_none (l := s.ledger) hr
        cases hdead.symm.trans hlive
      | some r =>
        obtain ⟨shared, hentry, -⟩ := h.sound.counted.own j r party hparty htopic hlive hr
        exact Option.isSome_iff_exists.2 ⟨shared, hentry⟩
  counted := by
    intro i pattern shared hentry
    have hle := (h.exact i pattern shared hentry).2
    have hge := h.sound.counted.enough i pattern shared hentry
    exact le_antisymm hle hge
  own := h.sound.counted.own
  last := h.last

end Domains

/-- **The references are the live handles**, where no handle is lost and none meets
the entry of another registration. -/
theorem subscriptions_accounted (cfg : Config) (es : List DomainsEvent)
    (h : Along (Domains.step cfg) (fun s e => s.NoneLost e ∧ s.OwnEntry e) (.new cfg) es) :
    (run (Domains.step cfg) (.new cfg) es).Accounted :=
  (along_inv (Domains.accountsInv_step cfg) (Domains.accountsInv_new cfg) h).accounted

/-! ## A handle on its way to the mutex -/

/-- A response with a subscription id, and one without. -/
def subscribedPayload (id : UInt64) : Bytes := 0 :: putU64 id

/-- The handle `j` of the client, subscribed to alone. -/
def handleRun (client j : ℕ) (pattern : String) (id : UInt64) : List DomainsEvent :=
  [.subscribe client pattern, .enter j, .answer j (.ok (subscribedPayload id))]

/-- The handle `j` goes. -/
def unsubscribeRun (j : ℕ) : List DomainsEvent :=
  [.unsubscribe j, .enqueue j, .enter j, .answer j (.ok [0])]

/-- Two handles of one pattern go one after the other. -/
def sharedRun : List DomainsEvent :=
  [.accessor .notice] ++ handleRun 0 0 "notice://a/b" 7 ++
    [.subscribe 0 "notice://a/b", .enter 1] ++ unsubscribeRun 0 ++ unsubscribeRun 1

theorem subscriptions_accounted_shared :
    (run (Domains.step ⟨4, ⟨true, 3⟩⟩) (.new ⟨4, ⟨true, 3⟩⟩) sharedRun).Accounted :=
  subscriptions_accounted _ _ (by decide +kernel)

/-- `unsubscribe_all` has the mutex while a handle passes its check, and the pattern is
subscribed to again before the handle gets there. -/
def meetingRun : List DomainsEvent :=
  [.accessor .notice] ++ handleRun 0 0 "notice://a/b" 7 ++
    [.unsubscribeAll 0, .enter 1, .unsubscribe 0, .subscribe 0 "notice://a/b", .enqueue 0,
      .answer 1 (.ok [0]), .enter 2, .answer 2 (.ok (subscribedPayload 8)), .enter 0,
      .answer 0 (.ok [0])]

/-- The handle takes the entry of the new one, which is left without. -/
theorem handle_meets_new_entry :
    Along (Domains.step ⟨4, ⟨true, 3⟩⟩) Domains.NoneLost (.new ⟨4, ⟨true, 3⟩⟩) meetingRun ∧
      (run (Domains.step ⟨4, ⟨true, 3⟩⟩) (.new ⟨4, ⟨true, 3⟩⟩) meetingRun).queue 0 = [] ∧
      ¬(run (Domains.step ⟨4, ⟨true, 3⟩⟩) (.new ⟨4, ⟨true, 3⟩⟩) meetingRun).Accounted := by
  refine ⟨by decide +kernel, by decide +kernel, fun haccounted => ?_⟩
  have hhandle : (run (Domains.step ⟨4, ⟨true, 3⟩⟩) (.new ⟨4, ⟨true, 3⟩⟩) meetingRun).parties[2]? =
      some ⟨0, .notice, "notice://a/b", .held 1⟩ := by
    decide +kernel
  have hlive : (run (Domains.step ⟨4, ⟨true, 3⟩⟩) (.new ⟨4, ⟨true, 3⟩⟩) meetingRun).live
      ⟨0, .notice, "notice://a/b", .held 1⟩ = true := by
    decide +kernel
  have hnone : (run (Domains.step ⟨4, ⟨true, 3⟩⟩) (.new ⟨4, ⟨true, 3⟩⟩) meetingRun).entry 0
      "notice://a/b" = none := by
    decide +kernel
  obtain ⟨shared, hentry, -⟩ := haccounted.own 2 1 _ hhandle rfl hlive rfl
  rw [hnone] at hentry
  cases hentry

end Fitz
