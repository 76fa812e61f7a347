import Fitz.Model.LeaseClock
import Fitz.Proof.Managed

/-!
# How fresh the authority of a callback is

`authority_fresh`: in every run of `with_lease_authority_with_options`, however long its
requests take, a callback that is polled after its renewal came due is not polled again
before a renewal asked for since then was granted, or its token canceled. Where the lease
stands at each await comes from the run without its clock (`step_await`, `StoryAt`).
-/

namespace Fitz

open Machine

variable {T E : Type}

namespace Managed

/-! ## From await to await -/

/-- The events of the `select!`. -/
def ofSelect : LeaseEvent T E → Bool
  | .timer _ | .callback .. => true
  | _ => false

/-- From one await to the next. -/
inductive Await : LeaseEvent T E → LeasePc T E → LeasePc T E → Prop
  | stay (e pc) (hselect : pc = .running → ofSelect e = false) : Await e pc pc
  | ask : Await .call .start .acquiring
  | queue (reply generation) : Await (.acquireReply reply generation) .acquiring .queued
  | acquire (reply generation) : Await (.acquireReply reply generation) .acquiring .running
  | complete (received generation) : Await (.completion received generation) .queued .running
  | renew (generation) : Await (.timer generation) .running .renewing
  | renewed (reply) : Await (.renewReply reply) .renewing .running
  | stale (generation error) : Await (.timer generation) .running (.stopping error)
  | lose (reply error) : Await (.renewReply reply) .renewing (.stopping error)
  | release (outcome generation atDrop) :
      Await (.callback outcome generation atDrop) .running (.releasing outcome)
  | done (e pc) (htimer : pc = .running → ∀ generation, e ≠ .timer generation) : Await e pc .done

theorem step_await (order : LeaseOrder) (s : Managed T E) (e : LeaseEvent T E) :
    Await e s.pc (s.step order e).pc := by
  obtain ⟨pc, handle, acts⟩ := s
  cases pc with
  | start =>
    cases e with
    | call =>
      simp only [step, call]
      split
      · exact .done _ _ (by simp)
      · split
        · exact .done _ _ (by simp)
        · split
          · exact .done _ _ (by simp)
          · exact .ask
    | _ => exact .stay _ _ (by simp [ofSelect])
  | acquiring =>
    cases e with
    | acquireReply reply generation =>
      simp only [step]
      split
      · exact .done _ _ (by simp)
      · exact .acquire _ _
      · exact .queue _ _
    | _ => exact .stay _ _ (by simp [ofSelect])
  | queued =>
    cases e with
    | completion received generation =>
      simp only [step]
      split
      · exact .done _ _ (by simp)
      · split
        · exact .done _ _ (by simp)
        · exact .complete _ _
    | _ => exact .stay _ _ (by simp [ofSelect])
  | running =>
    cases e with
    | callback outcome generation atDrop =>
      simp only [step]
      split
      · exact .done _ _ (by simp)
      · exact .release _ _ _
    | timer generation =>
      simp only [step]
      split
      · exact .stale _ _
      · exact .renew _
    | _ => exact .stay _ _ (by simp [ofSelect])
  | renewing =>
    cases e with
    | renewReply reply =>
      simp only [step]
      split
      · exact .lose _ _
      · exact .renewed _
    | _ => exact .stay _ _ (by simp [ofSelect])
  | stopping error =>
    cases e with
    | callback outcome generation atDrop => exact .done _ _ (by simp)
    | _ => exact .stay _ _ (by simp [ofSelect])
  | releasing outcome =>
    cases e with
    | releaseReply reply atDrop =>
      simp only [step]
      split
      · exact .done _ _ (by simp)
      · exact .done _ _ (by simp)
    | _ => exact .stay _ _ (by simp [ofSelect])
  | done => exact .stay _ _ (by simp [ofSelect])

/-- Whether the token is canceled can be told from the story. -/
theorem canceled_eq (s : Managed T E) : s.canceled = !(story s.acts).canceled.isEmpty := by
  have hacts : ∀ acts, Managed.canceled { s with acts := acts } =
      !(acts.filterMap LeaseAct.canceled?).isEmpty := by
    intro acts
    induction acts with
    | nil => rfl
    | cons act acts ih =>
      cases act with
      | canceled => rfl
      | _ => exact ih
  exact hacts s.acts

theorem canceled_of_story {s : Managed T E} (h : StoryAt s.pc (story s.acts)) :
    (s.pc = .running → s.canceled = false) ∧ (∀ error, s.pc = .stopping error → s.canceled = true) := by
  rw [canceled_eq]
  generalize s.pc = pc, story s.acts = st at h
  cases h <;> simp

end Managed

/-! ## Turns and renewals -/

namespace CallbackTurn

variable (order : LeaseOrder) (slack : ℕ)

/-- The poll came when the renewal was due, and its timer had to be found fired. -/
def Due (turn : CallbackTurn) : Prop := turn.granted + order.period + slack ≤ turn.time

/-- What a later poll finds: after a poll that came when the renewal was due, a lease that
was asked for since then. -/
structure Precedes (turn later : CallbackTurn) : Prop where
  time : turn.time ≤ later.time
  canceled : turn.canceled = true → later.canceled = true
  fresh : turn.Due order slack → later.canceled = true ∨ turn.time ≤ later.asked

end CallbackTurn

namespace LeaseClock

variable {order : LeaseOrder} {slack : ℕ} {s : LeaseClock T E}

/-- What holds at every await. -/
structure Kept (order : LeaseOrder) (slack : ℕ) (s : LeaseClock T E) : Prop where
  reached : ∃ es, s.lease = run (Managed.step order) .new es
  held : s.asked ≤ s.granted ∧ s.granted ≤ s.now
  sent : s.sent ≤ s.now
  turns : ∀ turn ∈ s.turns,
    turn.asked ≤ turn.granted ∧ turn.granted ≤ turn.time ∧ turn.time ≤ s.now
  fresh : s.turns.Pairwise (CallbackTurn.Precedes order slack)
  renewals : ∀ r ∈ s.renewals, r ≤ s.sent ∧ ∃ turn ∈ s.turns,
    turn.time = r ∧ turn.canceled = false ∧ turn.granted + order.period ≤ r
  spaced : s.renewals.Pairwise fun r r' => r + order.period ≤ r'
  count : s.renewals.length * order.period ≤ s.sent

/-- Where the lease stands at an await of the future. -/
def Stands (order : LeaseOrder) (slack : ℕ) (s : LeaseClock T E) : Prop :=
  match s.lease.pc with
  | .start | .acquiring | .queued => s.turns = []
  | .running =>
    s.sent = s.asked ∧ s.renewal = s.granted + order.period ∧
      ∀ turn ∈ s.turns, turn.canceled = false ∧ (turn.Due order slack → turn.time ≤ s.asked)
  | .renewing => ∀ turn ∈ s.turns, turn.canceled = false ∧ turn.time ≤ s.sent
  | _ => True

theorem Kept.story (h : Kept order slack s) : StoryAt s.lease.pc (story s.lease.acts) := by
  obtain ⟨es, hrun⟩ := h.reached
  rw [hrun]
  exact run_inv (I := fun s : Managed T E => StoryAt s.pc (Fitz.story s.acts))
    (fun s e h => Managed.storyAt_step s e h) StoryAt.start es

theorem Kept.step_reached (h : Kept order slack s) (e : LeaseEvent T E) :
    ∃ es, s.lease.step order e = run (Managed.step order) .new es := by
  obtain ⟨es, hrun⟩ := h.reached
  exact ⟨es ++ [e], by rw [run_append, hrun, run_cons, run_nil]⟩

/-- Time passes. -/
theorem Kept.tick (h : Kept order slack s) (elapsed : ℕ) :
    Kept order slack { s with now := s.now + elapsed } where
  reached := h.reached
  held := ⟨h.held.1, h.held.2.trans (Nat.le_add_right _ _)⟩
  sent := h.sent.trans (Nat.le_add_right _ _)
  turns := by
    intro turn hmem
    obtain ⟨hasked, hgranted, hnow⟩ := h.turns turn hmem
    exact ⟨hasked, hgranted, hnow.trans (Nat.le_add_right _ _)⟩
  fresh := h.fresh
  renewals := h.renewals
  spaced := h.spaced
  count := h.count

/-- The callback is polled, after all the other polls. -/
theorem Kept.turn (h : Kept order slack s)
    (hcanceled : ∀ turn ∈ s.turns, turn.canceled = true → s.lease.canceled = true)
    (hfresh : ∀ turn ∈ s.turns, turn.Due order slack →
      s.lease.canceled = true ∨ turn.time ≤ s.asked) : Kept order slack s.turn where
  reached := h.reached
  held := h.held
  sent := h.sent
  turns := by
    intro turn hmem
    rcases List.mem_append.1 hmem with hmem | hmem
    · exact h.turns turn hmem
    · obtain rfl := List.mem_singleton.1 hmem
      exact ⟨h.held.1, h.held.2, le_rfl⟩
  fresh := by
    refine List.pairwise_append.2 ⟨h.fresh, List.pairwise_singleton _ _, fun turn hmem later hlater => ?_⟩
    obtain rfl := List.mem_singleton.1 hlater
    exact ⟨(h.turns turn hmem).2.2, hcanceled turn hmem, hfresh turn hmem⟩
  renewals := by
    intro r hr
    obtain ⟨hsent, turn, hmem, hturn⟩ := h.renewals r hr
    exact ⟨hsent, turn, List.mem_append_left _ hmem, hturn⟩
  spaced := h.spaced
  count := h.count

/-! ### What the clock does when the future goes on -/

theorem resume_ask {e : LeaseEvent T E} (hpc : s.lease.pc = .start)
    (hpc' : (s.lease.step order e).pc = .acquiring) :
    s.resume order e = { s with lease := s.lease.step order e, sent := s.now } := by
  simp only [resume, hpc, hpc']

theorem resume_renew {e : LeaseEvent T E} (hpc : s.lease.pc = .running)
    (hpc' : (s.lease.step order e).pc = .renewing) :
    s.resume order e =
      { s with
        lease := s.lease.step order e
        sent := s.now
        renewals := s.renewals ++ [s.now] } := by
  simp only [resume, hpc, hpc']

theorem resume_grant {e : LeaseEvent T E}
    (hpc : s.lease.pc = .acquiring ∨ s.lease.pc = .queued ∨ s.lease.pc = .renewing)
    (hpc' : (s.lease.step order e).pc = .running) :
    s.resume order e =
      { s with
        lease := s.lease.step order e
        renewal := s.now + order.period
        asked := s.sent
        granted := s.now } := by
  rcases hpc with hpc | hpc | hpc <;> simp only [resume, hpc, hpc']

theorem resume_idle {e : LeaseEvent T E}
    (h : (s.lease.step order e).pc = s.lease.pc ∨ (s.lease.step order e).pc = .queued ∨
      (s.lease.step order e).pc = .done ∨ (∃ error, (s.lease.step order e).pc = .stopping error) ∨
      ∃ outcome, (s.lease.step order e).pc = .releasing outcome) :
    s.resume order e = { s with lease := s.lease.step order e } := by
  dsimp only [resume]
  rcases h with h | h | h | ⟨error, h⟩ | ⟨outcome, h⟩
  all_goals
    rw [h]
    cases s.lease.pc <;> rfl

/-- The clock has nothing to do. -/
theorem Kept.idle (h : Kept order slack s) (e : LeaseEvent T E) :
    Kept order slack { s with lease := s.lease.step order e } where
  reached := h.step_reached e
  held := h.held
  sent := h.sent
  turns := h.turns
  fresh := h.fresh
  renewals := h.renewals
  spaced := h.spaced
  count := h.count

/-- ACQUIRE is sent. -/
theorem Kept.ask (h : Kept order slack s) (e : LeaseEvent T E) :
    Kept order slack { s with lease := s.lease.step order e, sent := s.now } where
  reached := h.step_reached e
  held := h.held
  sent := le_rfl
  turns := h.turns
  fresh := h.fresh
  renewals r hr := ⟨(h.renewals r hr).1.trans h.sent, (h.renewals r hr).2⟩
  spaced := h.spaced
  count := h.count.trans h.sent

/-- The lease is granted. -/
theorem Kept.grant (h : Kept order slack s) (e : LeaseEvent T E) :
    Kept order slack
      { s with
        lease := s.lease.step order e
        renewal := s.now + order.period
        asked := s.sent
        granted := s.now } where
  reached := h.step_reached e
  held := ⟨h.sent, le_rfl⟩
  sent := h.sent
  turns := h.turns
  fresh := h.fresh
  renewals := h.renewals
  spaced := h.spaced
  count := h.count

/-- RENEW is sent, by a poll of the callback that found it pending and the timer fired. -/
theorem Kept.renew (h : Kept order slack s) (e : LeaseEvent T E) (hsent : s.sent ≤ s.granted)
    (hdue : s.granted + order.period ≤ s.now)
    (hturn : ⟨s.now, false, s.asked, s.granted⟩ ∈ s.turns) :
    Kept order slack
      { s with
        lease := s.lease.step order e
        sent := s.now
        renewals := s.renewals ++ [s.now] } where
  reached := h.step_reached e
  held := h.held
  sent := le_rfl
  turns := h.turns
  fresh := h.fresh
  renewals := by
    intro r hr
    rcases List.mem_append.1 hr with hr | hr
    · exact ⟨(h.renewals r hr).1.trans h.sent, (h.renewals r hr).2⟩
    · obtain rfl := List.mem_singleton.1 hr
      exact ⟨le_rfl, _, hturn, rfl, rfl, hdue⟩
  spaced := by
    refine List.pairwise_append.2 ⟨h.spaced, List.pairwise_singleton _ _, fun r hr r' hr' => ?_⟩
    obtain rfl := List.mem_singleton.1 hr'
    have hr := (h.renewals r hr).1
    omega
  count := by
    have hcount := h.count
    change (s.renewals ++ [s.now]).length * order.period ≤ s.now
    rw [List.length_append, List.length_singleton, Nat.succ_mul]
    omega

/-- What is awaited outside of the `select!` leaves the lease where it should be. -/
theorem resume_kept (h : Kept order slack s) (hstands : s.Stands order slack) (e : LeaseEvent T E)
    (hselect : Managed.ofSelect e = false) :
    Kept order slack (s.resume order e) ∧ (s.resume order e).Stands order slack := by
  have hawait := Managed.step_await order s.lease e
  generalize hpc : s.lease.pc = pc, hpc' : (s.lease.step order e).pc = pc' at hawait
  unfold Stands at hstands ⊢
  rw [hpc] at hstands
  cases hawait with
  | stay =>
    rw [resume_idle (.inl (hpc'.trans hpc.symm))]
    refine ⟨h.idle e, ?_⟩
    rw [hpc']
    exact hstands
  | ask =>
    rw [resume_ask hpc hpc']
    refine ⟨h.ask _, ?_⟩
    rw [hpc']
    exact hstands
  | queue =>
    rw [resume_idle (.inr (.inl hpc'))]
    refine ⟨h.idle _, ?_⟩
    rw [hpc']
    exact hstands
  | acquire =>
    rw [resume_grant (.inl hpc) hpc']
    refine ⟨h.grant _, ?_⟩
    rw [hpc']
    refine ⟨rfl, rfl, fun turn hmem => ?_⟩
    rw [hstands] at hmem
    cases hmem
  | complete =>
    rw [resume_grant (.inr (.inl hpc)) hpc']
    refine ⟨h.grant _, ?_⟩
    rw [hpc']
    refine ⟨rfl, rfl, fun turn hmem => ?_⟩
    rw [hstands] at hmem
    cases hmem
  | renewed =>
    rw [resume_grant (.inr (.inr hpc)) hpc']
    refine ⟨h.grant _, ?_⟩
    rw [hpc']
    exact ⟨rfl, rfl, fun turn hmem => ⟨(hstands turn hmem).1, fun _ => (hstands turn hmem).2⟩⟩
  | lose reply error =>
    rw [resume_idle (.inr (.inr (.inr (.inl ⟨error, hpc'⟩))))]
    refine ⟨h.idle _, ?_⟩
    rw [hpc']
    trivial
  | done =>
    rw [resume_idle (.inr (.inr (.inl hpc')))]
    refine ⟨h.idle _, ?_⟩
    rw [hpc']
    trivial
  | renew | stale | release => cases hselect

/-! ### The polls -/

/-- After the last poll of the callback nothing is left to say of the lease. -/
theorem resume_over {s : LeaseClock T E} (h : Kept order slack s) {e : LeaseEvent T E}
    (hover : (s.lease.step order e).pc = .done ∨ (∃ error, (s.lease.step order e).pc = .stopping error) ∨
      ∃ outcome, (s.lease.step order e).pc = .releasing outcome) :
    Kept order slack (s.resume order e) ∧ (s.resume order e).Stands order slack := by
  rw [resume_idle (.inr (.inr hover))]
  refine ⟨h.idle e, ?_⟩
  unfold Stands
  rcases hover with hpc | ⟨error, hpc⟩ | ⟨outcome, hpc⟩
  all_goals
    rw [hpc]
    trivial

/-- A turn of the `select!`. -/
theorem poll_running (h : Kept order slack s) (hstands : s.Stands order slack)
    (hpc : s.lease.pc = .running) (callback : Option (Except E T)) (fired : Bool)
    (generation atDrop : UInt64) :
    Kept order slack (s.wake order slack (.poll callback fired generation atDrop)) ∧
      (s.wake order slack (.poll callback fired generation atDrop)).Stands order slack := by
  have hcanceled : s.lease.canceled = false := (Managed.canceled_of_story h.story).1 hpc
  unfold Stands at hstands
  rw [hpc] at hstands
  obtain ⟨hsent, hrenewal, hturns⟩ := hstands
  have hkept : Kept order slack s.turn := by
    refine h.turn (fun turn hmem hc => ?_) fun turn hmem hdue => .inr ((hturns turn hmem).2 hdue)
    rw [(hturns turn hmem).1] at hc
    cases hc
  have hmem : ∀ turn ∈ s.turn.turns, turn ∈ s.turns ∨ turn = ⟨s.now, false, s.asked, s.granted⟩ := by
    intro turn hmem
    rcases List.mem_append.1 hmem with hmem | hmem
    · exact .inl hmem
    · rw [← hcanceled]
      exact .inr (List.mem_singleton.1 hmem)
  cases callback with
  | some outcome =>
    simp only [wake, hpc]
    refine resume_over hkept ?_
    have hawait := Managed.step_await order s.lease (.callback outcome generation atDrop)
    generalize hpc' : (s.lease.step order (.callback outcome generation atDrop)).pc = pc' at hawait
    rw [hpc] at hawait
    cases hawait with
    | stay _ _ hselect => cases hselect rfl
    | release => exact .inr (.inr ⟨outcome, hpc'⟩)
    | done => exact .inl hpc'
  | none =>
    simp only [wake, hpc]
    split
    · rename_i hfired
      have hdue : s.granted + order.period ≤ s.now := by
        have htime := (Bool.and_eq_true_iff.1 hfired).1
        rw [← hrenewal]
        exact of_decide_eq_true htime
      have hawait := Managed.step_await order s.lease (.timer generation)
      generalize hpc' : (s.lease.step order (.timer generation)).pc = pc' at hawait
      rw [hpc] at hawait
      cases hawait with
      | stay _ _ hselect => cases hselect rfl
      | renew =>
        rw [resume_renew (s := s.turn) hpc hpc']
        refine ⟨hkept.renew _ (hsent.trans_le h.held.1) hdue ?_, ?_⟩
        · rw [← hcanceled]
          exact List.mem_append_right _ (List.mem_singleton_self _)
        · unfold Stands
          rw [show (s.turn.lease.step order (.timer generation)).pc = .renewing from hpc']
          intro turn hturn
          rcases hmem turn hturn with hturn | rfl
          · exact ⟨(hturns turn hturn).1, (h.turns turn hturn).2.2⟩
          · exact ⟨rfl, le_rfl⟩
      | stale _ error => exact resume_over hkept (.inr (.inl ⟨error, hpc'⟩))
      | done _ _ htimer => exact absurd rfl (htimer rfl generation)
    · rename_i hfired
      refine ⟨hkept, ?_⟩
      unfold Stands
      rw [show s.turn.lease.pc = .running from hpc]
      refine ⟨hsent, hrenewal, fun turn hturn => ?_⟩
      rcases hmem turn hturn with hturn | rfl
      · exact hturns turn hturn
      · refine ⟨rfl, fun hdue => absurd ?_ hfired⟩
        have hlate : s.renewal + slack ≤ s.now := hrenewal ▸ hdue
        simp only [timerFired, decide_eq_true hlate, Bool.or_true, Bool.and_true, decide_eq_true_eq]
        omega

/-- The callback is awaited after a failed renewal. -/
theorem poll_stopping {error : FitzError} (h : Kept order slack s)
    (hpc : s.lease.pc = .stopping error) (callback : Option (Except E T)) (fired : Bool)
    (generation atDrop : UInt64) :
    Kept order slack (s.wake order slack (.poll callback fired generation atDrop)) ∧
      (s.wake order slack (.poll callback fired generation atDrop)).Stands order slack := by
  have hcanceled : s.lease.canceled = true := (Managed.canceled_of_story h.story).2 error hpc
  have hkept : Kept order slack s.turn := h.turn (fun _ _ _ => hcanceled) fun _ _ _ => .inl hcanceled
  cases callback with
  | some outcome =>
    simp only [wake, hpc]
    refine resume_over hkept (.inl ?_)
    obtain ⟨⟨pc, handle, acts⟩, now, renewal, sent, asked, granted, turns, renewals⟩ := s
    obtain rfl : pc = .stopping error := hpc
    rfl
  | none =>
    simp only [wake, hpc]
    refine ⟨hkept, ?_⟩
    unfold Stands
    rw [show s.turn.lease.pc = .stopping error from hpc]
    trivial

theorem clockInv_step (s : LeaseClock T E) (e : LeaseTick T E)
    (h : Kept order slack s ∧ s.Stands order slack) :
    Kept order slack (s.step order slack e) ∧ (s.step order slack e).Stands order slack := by
  obtain ⟨elapsed, wake⟩ := e
  have hkept := h.1.tick elapsed
  -- no place of the lease depends on the clock
  have hstands : { s with now := s.now + elapsed }.Stands order slack := h.2
  unfold step
  generalize { s with now := s.now + elapsed } = s at hkept hstands
  cases wake with
  | resume e =>
    cases e with
    | timer | callback => exact ⟨hkept, hstands⟩
    | _ => exact resume_kept hkept hstands _ rfl
  | poll callback fired generation atDrop =>
    cases hpc : s.lease.pc with
    | running => exact poll_running hkept hstands hpc callback fired generation atDrop
    | stopping error => exact poll_stopping hkept hpc callback fired generation atDrop
    | _ =>
      simp only [LeaseClock.wake, hpc]
      exact ⟨hkept, hstands⟩

theorem clockInv_new :
    Kept order slack (new : LeaseClock T E) ∧ (new : LeaseClock T E).Stands order slack where
  left := {
    reached := ⟨[], rfl⟩
    held := ⟨le_rfl, le_rfl⟩
    sent := le_rfl
    turns := by simp [new]
    fresh := .nil
    renewals := by simp [new]
    spaced := .nil
    count := by simp [new] }
  right := rfl

end LeaseClock

/-- **How fresh the authority of a callback is.** In every run of
`with_lease_authority_with_options`, however long its requests and the polls of its callback
take: the callback is polled under a lease that was granted before, and asked for before
that. After a poll that came when the renewal was due, a third of the TTL after the grant,
every other poll finds a lease asked for since then, or a canceled token, and once canceled it
stays so. A RENEW is sent by a poll that found it due; two of them are a third of the TTL
apart. What is done at all is what the future does without its clock. -/
theorem authority_fresh (order : LeaseOrder) (slack : ℕ) (es : List (LeaseTick T E)) :
    let s := run (LeaseClock.step order slack) LeaseClock.new es
    (∃ es', s.lease = run (Managed.step order) .new es') ∧
      (∀ turn ∈ s.turns, turn.asked ≤ turn.granted ∧ turn.granted ≤ turn.time) ∧
      s.turns.Pairwise (CallbackTurn.Precedes order slack) ∧
      (∀ r ∈ s.renewals, ∃ turn ∈ s.turns,
        turn.time = r ∧ turn.canceled = false ∧ turn.granted + order.period ≤ r) ∧
      s.renewals.Pairwise (fun r r' => r + order.period ≤ r') ∧
      s.renewals.length * order.period ≤ s.now := by
  intro s
  obtain ⟨h, -⟩ : LeaseClock.Kept order slack s ∧ s.Stands order slack :=
    run_inv LeaseClock.clockInv_step LeaseClock.clockInv_new es
  refine ⟨h.reached, fun turn hmem => ?_, h.fresh, fun r hr => (h.renewals r hr).2, h.spaced,
    h.count.trans h.sent⟩
  obtain ⟨hasked, hgranted, -⟩ := h.turns turn hmem
  exact ⟨hasked, hgranted⟩

end Fitz
