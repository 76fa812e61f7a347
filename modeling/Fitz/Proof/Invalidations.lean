import Fitz.Lib.Machine
import Fitz.Model.Observer

/-!
# The observer loses no invalidation

A notification that is published after the observer read the epoch of a pass is past
the position of its receiver, and only the drain of that pass or the steady state
takes it from there: the one goes round again, the other starts a pass. What a pass
of the timer has drained is lost, though, if that pass then fails, for its errors are
dropped. `invalidations_kept`: in every run in which no pass of the timer fails after
it has drained a notification of the registration, the observer waits only when each
notification published since the pass of its view began is still to come.
-/

namespace Fitz

open Machine

namespace Observing

/-! ## The condition and the property -/

/-- The `k`-th notification names the observer's registration. -/
def Own (s : Observing) (k : ℕ) : Prop :=
  ∃ payload, s.published[k]? = some payload ∧ getU64.on payload = .ok s.wireId

/-- The `k`-th notification is in the receiver's buffer, or about to be broadcast
into it, or the receiver reports its lag next. -/
def ToCome (s : Observing) (k : ℕ) : Prop :=
  (s.next ≤ k ∧ k < s.sent ∧ s.sent ≤ k + notificationCapacity) ∨ s.sent ≤ k ∨ s.peek = .lagged

/-- The observer is in the steady state, not in a pass. -/
def Settled (s : Observing) : Prop := s.pc = .steady ∨ ∃ mark, s.pc = .waiting mark

/-- The LIST request was answered with an error that a pass of the timer drops. -/
def listFails (s : Observing) : Bool :=
  match s.answer.map listAnswer with
  | some (.error error) => error ≠ .closed && !subscriptionMustBeReplaced error
  | _ => false

/-- The next notification is malformed. -/
def malformed (s : Observing) : Bool :=
  match s.peek with
  | .ready (.error _) => true
  | _ => false

/-- A pass of the timer is about to fail, and has drained a notification of the
registration, be it the one it fails on. -/
def lossy (s : Observing) : Bool :=
  match s.pc with
  | .passing ⟨.periodic, .listing _, _, _, _, consumed⟩ => consumed && s.listFails
  | .passing ⟨.periodic, .draining _, _, _, _, consumed⟩ =>
    s.malformed && (consumed || getU64.on (s.published.getD s.next []) = .ok s.wireId)
  | _ => false

end Observing

/-- No pass of the timer fails after it drained a notification of the registration. -/
def Heeded (s : Observing) (e : ObserverEvent) : Prop := e = .observe → s.lossy = false

instance (s : Observing) (e : ObserverEvent) : Decidable (Heeded s e) :=
  inferInstanceAs (Decidable (e = .observe → s.lossy = false))

/-- **No invalidation is lost.** -/
structure LosesNone (s : Observing) : Prop where
  /-- while a view stands, what came since its pass began is still to come -/
  kept : s.Settled → ∃ since, s.since = some since ∧
    ∀ k, since ≤ k → s.Own k → s.ToCome k
  /-- and none of it had been broadcast when the observer began to wait -/
  heard : ∀ mark since, s.pc = .waiting mark → s.since = some since →
    ∀ k, since ≤ k → s.Own k → mark ≤ k

/-! ## Invariant -/

namespace Observing

variable {s : Observing}

/-- No notification of the registration from `b` on was taken. -/
def Clear (s : Observing) (b : ℕ) : Prop := ∀ k, b ≤ k → s.Own k → s.next ≤ k

/-- The view that stands is clear. -/
def Held (s : Observing) : Prop := ∃ since, s.since = some since ∧ s.Clear since

/-- What a pass knows of the notifications since it began. -/
def Pass.Fine (s : Observing) (pass : Pass) : Prop :=
  match pass.stage with
  | .starting => True
  | .listing _ => s.next ≤ pass.since
  | .draining invalidated => invalidated = false → s.Clear pass.since
  | .drained => s.Clear pass.since

def PcInv (s : Observing) : Prop :=
  match s.pc with
  | .passing pass => Pass.Fine s pass ∧ (pass.origin = .periodic → pass.consumed = false → s.Held)
  | .steady => s.Held
  | .waiting mark => s.Held ∧ mark ≤ s.next
  | .subscribing mark => mark ≤ s.sent
  | .replacing | .done => True

structure ObserverInv (s : Observing) : Prop where
  read : s.next ≤ s.sent
  sent : s.sent ≤ s.published.length
  place : s.PcInv

/-! ## One step -/

/-- A receiver before `b` has taken nothing from `b` on. -/
theorem clear_of_le {b : ℕ} (h : s.next ≤ b) : s.Clear b := fun _ hk _ => h.trans hk

/-- The supervisor only adds to what is to come. -/
theorem clear_grow (hle : s.next ≤ s.published.length) {s' : Observing} {b : ℕ}
    (hnext : s'.next = s.next) (hid : s'.wireId = s.wireId)
    (hpub : ∃ l, s'.published = s.published ++ l) (hc : s.Clear b) : s'.Clear b := by
  intro k hk ⟨payload, hp, hown⟩
  obtain ⟨l, hl⟩ := hpub
  rw [hnext]
  rcases Nat.lt_or_ge k s.published.length with hlt | hge
  · rw [hl, List.getElem?_append_left hlt] at hp
    rw [hid] at hown
    exact hc k hk ⟨payload, hp, hown⟩
  · exact hle.trans hge

/-- A step of the supervisor keeps what the observer knows. -/
theorem pcInv_grow (h : ObserverInv s) {s' : Observing} (hpc : s'.pc = s.pc)
    (hnext : s'.next = s.next) (hid : s'.wireId = s.wireId) (hsince : s'.since = s.since)
    (hsent : s.sent ≤ s'.sent) (hpub : ∃ l, s'.published = s.published ++ l) : s'.PcInv := by
  have hle : s.next ≤ s.published.length := h.read.trans h.sent
  have hclear : ∀ {b}, s.Clear b → s'.Clear b := fun hc => clear_grow hle hnext hid hpub hc
  have hheld : s.Held → s'.Held := by
    rintro ⟨since, hs, hc⟩
    exact ⟨since, by rw [hsince, hs], hclear hc⟩
  have hplace := h.place
  unfold PcInv at hplace ⊢
  rw [hpc]
  -- a place says something of the view, of the cursor, or nothing
  cases hp : s.pc with
  | passing pass =>
    rw [hp] at hplace
    refine ⟨?_, fun ho hc => hheld (hplace.2 ho hc)⟩
    have hfine := hplace.1
    -- the buffer grows at its end, which `Clear` does not read
    unfold Pass.Fine at hfine ⊢
    split
    · trivial
    · rename_i hstage
      rw [hstage] at hfine
      rwa [hnext]
    · rename_i hstage
      rw [hstage] at hfine
      exact fun hi => hclear (hfine hi)
    · rename_i hstage
      rw [hstage] at hfine
      exact hclear hfine
  | steady =>
    rw [hp] at hplace
    exact hheld hplace
  | waiting mark =>
    rw [hp] at hplace
    exact ⟨hheld hplace.1, by rw [hnext]; exact hplace.2⟩
  | subscribing mark =>
    rw [hp] at hplace
    exact le_trans hplace hsent
  | replacing => trivial
  | done => trivial

/-! ### The receiver -/

theorem peek_pending (h : s.peek = .pending) : s.sent ≤ s.next := by
  unfold peek at h
  split at h
  · cases h
  · split at h
    · split at h <;> cases h
    · omega

theorem peek_unread (h : s.peek ≠ .pending) (hl : s.peek ≠ .lagged) : s.next < s.sent := by
  unfold peek at h hl
  split at h
  · rename_i hlag
    simp [hlag] at hl
  · split at h
    · assumption
    · exact absurd rfl h

theorem own_next (hlt : s.next < s.published.length) :
    s.Own s.next ↔ getU64.on (s.published.getD s.next []) = .ok s.wireId := by
  simp [Own, hlt, List.getD_eq_getElem?_getD]

/-- What the receiver skips names another registration. -/
theorem not_own_of_skipped (hlen : s.sent ≤ s.published.length) (h : s.peek = .skipped) :
    ¬ s.Own s.next := by
  have hlt : s.next < s.published.length :=
    (peek_unread (by rw [h]; simp) (by rw [h]; simp)).trans_le hlen
  rw [own_next hlt]
  unfold peek at h
  split at h
  · cases h
  · split at h
    · split at h
      · rename_i hpoll
        unfold pollItem at hpoll
        split at hpoll
        · cases hpoll
        · rename_i id hid
          split at hpoll
          · rename_i hne
            rw [hid]
            simpa using hne
          · cases hpoll
      · cases h
    · cases h

/-- The receiver moves past a notification of another registration. -/
theorem clear_succ {b : ℕ} (hc : s.Clear b) (hown : ¬ s.Own s.next) :
    Clear { s with next := s.next + 1 } b := by
  intro k hk hk'
  have hle : s.next ≤ k := hc k hk hk'
  have hne : s.next ≠ k := by
    rintro rfl
    exact hown hk'
  show s.next + 1 ≤ k
  omega

theorem held_succ (hh : s.Held) (hown : ¬ s.Own s.next) : Held { s with next := s.next + 1 } := by
  obtain ⟨since, hs, hc⟩ := hh
  exact ⟨since, hs, clear_succ hc hown⟩

theorem take_read (h : ObserverInv s) : s.take.next ≤ s.take.sent := by
  unfold take
  split
  · exact h.read
  · exact Nat.sub_le _ _
  all_goals
    rename_i hp
    exact peek_unread (by rw [hp]; simp) (by rw [hp]; simp)

theorem take_published (s : Observing) : s.take.published = s.published := by
  unfold take
  split <;> rfl

theorem take_sent (s : Observing) : s.take.sent = s.sent := by
  unfold take
  split <;> rfl

/-! ### The observer -/

/-- Where a pass ends with an error, only the timer's goes on with its view. -/
theorem failed_inv (hread : s.next ≤ s.sent) (hsent : s.sent ≤ s.published.length)
    {origin : PassOrigin} {error : FitzError}
    (hheld : origin = .periodic → error ≠ .closed → subscriptionMustBeReplaced error = false →
      s.Held) : ObserverInv (s.failed origin error) := by
  unfold failed
  split
  · exact ⟨hread, hsent, trivial⟩
  · rename_i hclosed
    split
    · exact ⟨hread, hsent, trivial⟩
    · rename_i hreplaced
      cases origin with
      | bootstrap => exact ⟨hread, hsent, trivial, fun ho => by cases ho⟩
      | invalidation => exact ⟨hread, hsent, trivial, fun ho => by cases ho⟩
      | periodic => exact ⟨hread, hsent, hheld rfl hclosed (by simpa using hreplaced)⟩

theorem take_skipped (h : s.peek = .skipped) : s.take = { s with next := s.next + 1 } := by
  unfold take
  rw [h]

theorem take_ready {item : Result Notification} (h : s.peek = .ready item) :
    s.take = { s with next := s.next + 1 } := by
  unfold take
  rw [h]

/-- What the place of a pass says. -/
theorem ObserverInv.passing (h : ObserverInv s) {pass : Pass} (hpc : s.pc = .passing pass) :
    Pass.Fine s pass ∧ (pass.origin = .periodic → pass.consumed = false → s.Held) := by
  have hplace := h.place
  unfold PcInv at hplace
  rwa [hpc] at hplace

theorem listing_inv (pattern : String) (pageSize : UInt32) (h : ObserverInv s) {pass : Pass}
    {cursor : Option LeaseListCursor} (hpc : s.pc = .passing pass)
    (hstage : pass.stage = .listing cursor) (hcond : s.lossy = false) :
    ObserverInv (s.passStep pattern pageSize pass) := by
  obtain ⟨hfine, hperiodic⟩ := h.passing hpc
  -- what the pass lists is read after its start
  have hsince : s.next ≤ pass.since := by
    unfold Pass.Fine at hfine
    rwa [hstage] at hfine
  unfold passStep
  rw [hstage]
  simp only
  split
  · exact h
  · rename_i answer hanswer
    split
    · -- the pass fails: if it is the timer's, it has drained nothing of the registration
      rename_i error herror
      refine failed_inv h.read h.sent fun ho hclosed hreplaced => hperiodic ho ?_
      have hfails : s.listFails = true := by
        simp [listFails, hanswer, herror, hclosed, hreplaced]
      obtain ⟨origin, stage, epoch, fresh, since, consumed⟩ := pass
      simp only at ho hstage
      subst ho hstage
      simpa [lossy, hpc, hfails] using hcond
    · split
      · exact ⟨h.read, h.sent, hsince, hperiodic⟩
      · exact ⟨h.read, h.sent, fun _ => clear_of_le hsince, hperiodic⟩

theorem draining_inv (h : ObserverInv s) {pass : Pass} {invalidated : Bool}
    (hpc : s.pc = .passing pass) (hstage : pass.stage = .draining invalidated)
    (hcond : s.lossy = false) : ObserverInv (s.drain pass invalidated) := by
  obtain ⟨hfine, hperiodic⟩ := h.passing hpc
  have hclear : invalidated = false → s.Clear pass.since := by
    unfold Pass.Fine at hfine
    rwa [hstage] at hfine
  have hread := take_read h
  have hsent : s.take.sent ≤ s.take.published.length := by
    rw [take_sent, take_published]
    exact h.sent
  unfold drain
  split
  · cases invalidated with
    | false => exact ⟨h.read, h.sent, hclear rfl, hperiodic⟩
    | true => exact ⟨h.read, h.sent, trivial, hperiodic⟩
  · exact failed_inv hread hsent fun _ _ hreplaced => by cases hreplaced
  · -- an item of another registration
    rename_i hpeek
    have hown : ¬ s.Own s.next := not_own_of_skipped h.sent hpeek
    refine ⟨hread, hsent, ?_⟩
    rw [take_skipped hpeek, PcInv]
    simp only [hpc]
    refine ⟨?_, fun ho hc => held_succ (hperiodic ho hc) hown⟩
    unfold Pass.Fine
    rw [hstage]
    exact fun hi => clear_succ (hclear hi) hown
  · -- the loop goes round again
    exact ⟨hread, hsent, (fun hi => by cases hi), fun _ hc => by cases hc⟩
  · rename_i error hpeek
    refine failed_inv hread hsent fun ho _ _ => ?_
    -- the drain meets a malformed item: if the pass is the timer's, nothing of the
    -- registration went before it, and it is not of the registration itself
    have hmal : s.malformed = true := by simp [malformed, hpeek]
    have hlt : s.next < s.published.length :=
      (peek_unread (by rw [hpeek]; simp) (by rw [hpeek]; simp)).trans_le h.sent
    have hnone : pass.consumed = false ∧ ¬ s.Own s.next := by
      rw [own_next hlt]
      obtain ⟨origin, stage, epoch, fresh, since, consumed⟩ := pass
      simp only at ho hstage
      subst ho hstage
      simpa [lossy, hpc, hmal] using hcond
    rw [take_ready hpeek]
    exact held_succ (hperiodic ho hnone.1) hnone.2

theorem passStep_inv (pattern : String) (pageSize : UInt32) (h : ObserverInv s) {pass : Pass}
    (hpc : s.pc = .passing pass) (hcond : s.lossy = false) :
    ObserverInv (s.passStep pattern pageSize pass) := by
  obtain ⟨hfine, hperiodic⟩ := h.passing hpc
  cases hstage : pass.stage with
  | starting =>
    unfold passStep
    rw [hstage]
    exact ⟨h.read, h.sent, h.read, hperiodic⟩
  | listing cursor => exact listing_inv pattern pageSize h hpc hstage hcond
  | draining invalidated =>
    unfold passStep
    rw [hstage]
    exact draining_inv h hpc hstage hcond
  | drained =>
    -- the snapshot is installed, or the pass goes round again
    have hclear : s.Clear pass.since := by
      unfold Pass.Fine at hfine
      rwa [hstage] at hfine
    unfold passStep install
    rw [hstage]
    simp only
    split
    · exact ⟨h.read, h.sent, pass.since, rfl, hclear⟩
    · exact ⟨h.read, h.sent, trivial, hperiodic⟩

theorem receive_inv (h : ObserverInv s) (hheld : s.Held) : ObserverInv s.receive := by
  have hread := take_read h
  have hsent : s.take.sent ≤ s.take.published.length := by
    rw [take_sent, take_published]
    exact h.sent
  unfold receive
  split
  · -- nothing to read: the observer waits
    rename_i hpeek
    exact ⟨h.read, h.sent, hheld, peek_pending hpeek⟩
  · exact ⟨hread, hsent, trivial⟩
  · -- the item is not of the registration, and the view stays
    rename_i hpeek
    refine ⟨hread, hsent, ?_⟩
    rw [take_skipped hpeek]
    exact held_succ hheld (not_own_of_skipped h.sent hpeek)
  · exact ⟨hread, hsent, trivial, fun ho => by cases ho⟩
  · split <;> exact ⟨hread, hsent, trivial⟩

theorem observe_inv (pattern : String) (pageSize : UInt32) (h : ObserverInv s)
    (hcond : s.lossy = false) : ObserverInv (s.observe pattern pageSize) := by
  have hplace := h.place
  unfold PcInv at hplace
  unfold observe
  cases hpc : s.pc with
  | passing pass => exact passStep_inv pattern pageSize h hpc hcond
  | steady =>
    rw [hpc] at hplace
    exact receive_inv h hplace
  | waiting mark =>
    rw [hpc] at hplace
    exact receive_inv h hplace.1
  | replacing => exact h
  | subscribing mark => exact h
  | done => exact h

theorem observerInv_step (pattern : String) (pageSize : UInt32) (s : Observing)
    (e : ObserverEvent) (h : ObserverInv s) (hcond : Heeded s e) :
    ObserverInv (s.step pattern pageSize e) := by
  have hplace := h.place
  unfold PcInv at hplace
  cases e with
  | publish payload =>
    simp only [step]
    split
    · refine ⟨h.read, ?_, pcInv_grow h rfl rfl rfl rfl le_rfl ⟨[payload], rfl⟩⟩
      have := h.sent
      simp only [List.length_append, List.length_singleton]
      omega
    · exact h
  | broadcast =>
    simp only [step]
    split
    · exact h
    · rename_i hbusy
      have hlt : s.sent < s.published.length := by
        have := h.sent
        simp only [idle, decide_eq_true_eq] at hbusy
        omega
      refine ⟨h.read.trans (Nat.le_succ _), hlt, ?_⟩
      exact pcInv_grow h rfl rfl rfl rfl (Nat.le_succ _) ⟨[], by simp⟩
  | reply response =>
    simp only [step]
    split
    · exact ⟨h.read, h.sent, pcInv_grow h rfl rfl rfl rfl le_rfl ⟨[], by simp⟩⟩
    · exact h
  | fail error =>
    simp only [step]
    split
    · exact ⟨h.read, h.sent, pcInv_grow h rfl rfl rfl rfl le_rfl ⟨[], by simp⟩⟩
    · exact h
  | observe => exact observe_inv pattern pageSize h (hcond rfl)
  | tick =>
    simp only [step]
    split
    · rename_i mark hpc
      -- a pass of the timer starts from a view that is held
      rw [hpc] at hplace
      exact ⟨h.read, h.sent, trivial, fun _ _ => hplace.1⟩
    · exact h
  | resubscribe =>
    simp only [step]
    split
    · exact ⟨h.read, h.sent, le_refl s.sent⟩
    · exact h
  | subscribed wireId =>
    simp only [step]
    split
    · rename_i mark hpc
      -- the new receiver starts at the mark
      rw [hpc] at hplace
      exact ⟨hplace, h.sent, trivial, fun ho => by cases ho⟩
    · exact h
  | notSubscribed error =>
    simp only [step]
    split
    · split <;> exact ⟨h.read, h.sent, trivial⟩
    · exact h
  | shutdown =>
    simp only [step, shutdown]
    split
    · split
      · exact ⟨h.read, h.sent, trivial⟩
      · exact h
    · exact ⟨h.read, h.sent, trivial⟩

theorem observerInv_new (epoch wireId : UInt64) (buffered : List Bytes) :
    ObserverInv (new epoch wireId buffered) :=
  ⟨Nat.zero_le _, le_rfl, trivial, fun ho => by cases ho⟩

/-! ## What the observer waits for -/

/-- An untaken notification is in the buffer, or still to be broadcast, or lost with
a lag error. -/
theorem toCome_of_le {k : ℕ} (h : s.next ≤ k) : s.ToCome k := by
  rcases Nat.lt_or_ge k s.sent with hlt | hge
  · rcases Nat.lt_or_ge (s.next + notificationCapacity) s.sent with hlag | hin
    · exact .inr (.inr (by simp [peek, hlag]))
    · exact .inl ⟨h, hlt, by omega⟩
  · exact .inr (.inl hge)

theorem losesNone_of_inv (h : ObserverInv s) : LosesNone s := by
  have hplace := h.place
  unfold PcInv at hplace
  have hheld : s.Settled → s.Held := by
    rintro (hpc | ⟨mark, hpc⟩) <;> rw [hpc] at hplace
    · exact hplace
    · exact hplace.1
  refine ⟨fun hsettled => ?_, fun mark since hpc hsince k hk hown => ?_⟩
  · obtain ⟨since, hsince, hclear⟩ := hheld hsettled
    exact ⟨since, hsince, fun k hk hown => toCome_of_le (hclear k hk hown)⟩
  · obtain ⟨since', hsince', hclear⟩ := hheld (.inr ⟨mark, hpc⟩)
    rw [hsince] at hsince'
    cases hsince'
    rw [hpc] at hplace
    exact hplace.2.trans (hclear k hk hown)

end Observing

/-- **The observer waits with no invalidation behind it.** -/
theorem invalidations_kept (pattern : String) (pageSize : UInt32) (epoch wireId : UInt64)
    (buffered : List Bytes) (es : List ObserverEvent)
    (h : Along (Observing.step pattern pageSize) Heeded (.new epoch wireId buffered) es) :
    LosesNone (run (Observing.step pattern pageSize) (.new epoch wireId buffered) es) :=
  Observing.losesNone_of_inv (along_inv
    (fun s e hs hc => Observing.observerInv_step pattern pageSize s e hs hc)
    (Observing.observerInv_new epoch wireId buffered) h)

/-- A page with no items, and no page after it. -/
def emptyPage : Bytes := [0] ++ putU32 0 ++ [0]

/-- A change of a lease, for the registration 7. -/
def leaseNotification : Bytes := putU64 7 ++ putString "lease://r/a/s"

/-- From one pass to the buffer: the epoch, the request, its reply and the page. -/
def listRun (between : List ObserverEvent) : List ObserverEvent :=
  [.observe] ++ between ++ [.reply emptyPage, .observe]

/-- The first view is installed, and the observer waits. -/
def settleRun : List ObserverEvent := listRun [] ++ [.observe, .observe, .observe]

/-- The timer's pass is overtaken by a change, and goes round again. -/
def overtakenRun : List ObserverEvent :=
  settleRun ++ [.tick] ++ listRun [.publish leaseNotification, .broadcast] ++
    [.observe, .observe] ++ settleRun

theorem invalidations_kept_overtaken :
    Along (Observing.step "lease://r/a/*" 200) Heeded (.new 0 7 []) overtakenRun ∧
      LosesNone (run (Observing.step "lease://r/a/*" 200) (.new 0 7 []) overtakenRun) :=
  have h : Along (Observing.step "lease://r/a/*" 200) Heeded (.new 0 7 []) overtakenRun := by
    decide +kernel
  ⟨h, invalidations_kept _ _ _ _ _ _ h⟩

/-- A change overtakes the timer's pass, and a malformed notification after it fails
the drain. -/
def malformedRun : List ObserverEvent :=
  settleRun ++ [.tick] ++
    listRun [.publish leaseNotification, .broadcast, .publish [7], .broadcast] ++
    [.observe, .observe, .observe]

/-- The same change, and the LIST of the next turn times out. -/
def timedOutRun : List ObserverEvent :=
  settleRun ++ [.tick] ++ listRun [.publish leaseNotification, .broadcast] ++
    [.observe, .observe, .observe, .fail .timeout, .observe, .observe]

/-- The observer waits, and the change it has drained has changed nothing. -/
theorem invalidation_dropped :
    ¬ LosesNone (run (Observing.step "lease://r/a/*" 200) (.new 0 7 []) malformedRun) ∧
      ¬ LosesNone (run (Observing.step "lease://r/a/*" 200) (.new 0 7 []) timedOutRun) := by
  constructor
  · intro h
    have hmark := h.heard 2 0 (by decide +kernel) (by decide +kernel) 0 le_rfl
      ⟨leaseNotification, by decide +kernel, by decide +kernel⟩
    omega
  · intro h
    have hmark := h.heard 1 0 (by decide +kernel) (by decide +kernel) 0 le_rfl
      ⟨leaseNotification, by decide +kernel, by decide +kernel⟩
    omega

end Fitz
