import Fitz.Model.HeartbeatClock
import Fitz.Proof.Heartbeat

/-!
# How long a silent peer is kept

`silence_noticed`: a session whose peer falls silent ends at the second poll of its timer that
comes late enough, and an expiry ends no session before a ping was out for the shorter of the
two intervals, without a binary message or a pong since. The requests of the client count as
signs of life here as they do in the source.
-/

namespace Fitz

open Machine

/-! ## One pass -/

/-- A command sets the timer and awaits no pong, or leaves the heartbeat as it is. -/
theorem onCommand_restarts (sh : Shared) (l : Loop) (beat : Heartbeat) (c : Command)
    (write : Write) (hlive : (WebSocket.onCommand sh l beat c write.webSocket).1.result = none) :
    (WebSocket.onCommand sh l beat c write.webSocket).2 =
      if (WsInput.io (.command c write)).restarts sh l then .alive else beat := by
  cases c with
  | request id generation messageType flags payload response =>
    simp only [WebSocket.onCommand, WebSocket.onRequest, WsInput.restarts] at hlive ⊢
    by_cases hg : generation ≠ l.sessionGeneration
    · simp [hg]
    have hgen : generation = l.sessionGeneration := not_not.1 hg
    rw [if_neg hg] at hlive ⊢
    by_cases hc : supervisorCorrelationEnabled sh
    · simp only [hc, if_true] at hlive ⊢
      by_cases hfull : l.correlated.entries.length ≥ sh.maxInFlight.toNat
      · simp [hgen, hfull]
      · have hroom : l.correlated.entries.length < sh.maxInFlight.toNat := not_le.1 hfull
        rw [if_neg hfull] at hlive ⊢
        cases henc : encodeOutbound sh messageType flags id payload with
        | error error => simp [hgen, hroom, Except.isOk, Except.toBool]
        | ok frame =>
          cases write with
          | done => simp [hgen, hroom, Except.isOk, Except.toBool, Write.webSocket]
          | failed io text => simp [henc, Write.webSocket, Loop.finish] at hlive
    · simp only [hc] at hlive ⊢
      by_cases hp : (l.pending.lookup messageType).getD [] ≠ []
      · simp [hp, hgen]
      · simp only [hp] at hlive ⊢
        cases henc : tryEncodeMessageFrame messageType payload with
        | error error => simp [henc, Loop.finish] at hlive
        | ok frame =>
          cases write with
          | done => simp [hgen, Write.webSocket]
          | failed io text => simp [henc, Write.webSocket, Loop.finish] at hlive
  | _ => simp [WebSocket.onCommand, WsInput.restarts]

theorem restarts_command (sh : Shared) (l : Loop) (c : Command) (write : Write) :
    (WsInput.io (.command c write)).restarts sh l = WebSocket.takes sh l c := by
  cases c <;> rfl

/-- The heartbeat after a pass that sets the timer. -/
def Heartbeat.passed (beat : Heartbeat) : WsInput → Heartbeat
  | .io _ | .pong => .alive
  | .ping _ | .message => { beat with interval := .idle }
  | .heartbeat _ => ⟨true, .timeout⟩

/-- What a pass that leaves the session live makes of the heartbeat. -/
theorem pass_restarts {enabled : Bool} (sh : Shared) (l : Loop) (beat : Heartbeat) (e : WsInput)
    (hen : ∀ write, e = .heartbeat write → enabled = true)
    (hlive : (runWebSocket enabled sh l beat e).2.1.result = none) :
    (runWebSocket enabled sh l beat e).2.2 =
      if e.restarts sh l then beat.passed e else beat := by
  cases e with
  | io input =>
    cases input with
    | command c write => exact onCommand_restarts sh l beat c write hlive
    | frame bytes write =>
      simp only [runWebSocket, WebSocket.onBinary] at hlive ⊢
      have hdec : ∃ p, decodeIncoming sh bytes = .ok p := by
        cases hd : decodeIncoming sh bytes with
        | ok p => exact ⟨p, rfl⟩
        | error error => simp [hd, Loop.finish] at hlive
      obtain ⟨p, hd⟩ := hdec
      simp [hd, WsInput.restarts, Except.isOk, Except.toBool, Heartbeat.passed]
    | cancel id =>
      simp only [runWebSocket, WsInput.restarts]
      cases l.cancelAllPending id <;> rfl
    | hangup | ended => rfl
  | ping write =>
    cases write with
    | done => rfl
    | failed io text => simp [runWebSocket, Loop.finish] at hlive
  | pong | message => rfl
  | heartbeat write =>
    have henabled := hen write rfl
    subst henabled
    simp only [runWebSocket] at hlive ⊢
    by_cases hexp : beat.awaitingPong = true ∨ write ≠ .done
    · simp [hexp, Loop.finish] at hlive
    · simp [hexp, WsInput.restarts, Heartbeat.passed]

namespace BeatClock

variable {o : HeartbeatOptions} {slack : ℕ} {s : BeatClock}

def live (s : BeatClock) : Prop := s.ws.session.result = none

instance : DecidablePred live := fun s => inferInstanceAs (Decidable (s.ws.session.result = none))

theorem ws_pass (s : BeatClock) (lasting : ℕ) (input : WsInput) :
    (s.pass o lasting input).ws = s.ws.step o.enabled input := by
  unfold pass
  split <;> rfl

theorem now_pass (s : BeatClock) (lasting : ℕ) (input : WsInput) :
    (s.pass o lasting input).now = s.now + lasting := by
  unfold pass
  split <;> rfl

/-- A session that is live was live before the pass. -/
theorem live_of_pass {lasting : ℕ} {input : WsInput} (h : (s.pass o lasting input).live) : s.live := by
  unfold live at h ⊢
  rw [ws_pass] at h
  unfold WebSocket.step at h
  split at h
  · exact h
  · assumption

/-- How the timer of a live session stands: a pong is awaited since a ping with no sign of
life since, and the timer runs for the timeout only if nothing has set it since. -/
structure Stood (o : HeartbeatOptions) (s : BeatClock) : Prop where
  deadline : s.deadline = s.restarted + o.length s.ws.beat.interval
  restarted : s.restarted ≤ s.now
  alive : s.alive ≤ s.restarted
  awaiting : s.ws.beat.awaitingPong = true → ∃ p, s.pinged = some p ∧ s.alive ≤ p ∧
    p ≤ s.restarted ∧ (s.ws.beat.interval = .timeout → s.restarted = p)
  idle : s.ws.beat.awaitingPong = false → s.ws.beat.interval = .idle

theorem Stood.elapse (h : Stood o s) (elapsed : ℕ) : Stood o { s with now := s.now + elapsed } :=
  ⟨h.deadline, h.restarted.trans (Nat.le_add_right _ _), h.alive, h.awaiting, h.idle⟩

/-- A live session's pass leaves the heartbeat as the input has it. -/
theorem beat_pass {lasting : ℕ} {input : WsInput}
    (hen : ∀ write, input = .heartbeat write → o.enabled = true)
    (hlive : (s.pass o lasting input).live) :
    (s.pass o lasting input).ws.beat =
      if input.restarts s.ws.session.shared s.ws.session.loop then s.ws.beat.passed input
      else s.ws.beat := by
  have hbefore : s.ws.session.result = none := live_of_pass hlive
  have hstep : s.ws.step o.enabled input =
      ⟨s.ws.session.pass (WebSocket.request? input)
        (runWebSocket o.enabled s.ws.session.shared s.ws.session.loop s.ws.beat input).1
        (runWebSocket o.enabled s.ws.session.shared s.ws.session.loop s.ws.beat input).2.1,
      (runWebSocket o.enabled s.ws.session.shared s.ws.session.loop s.ws.beat input).2.2⟩ := by
    unfold WebSocket.step
    rw [hbefore]
  have hturn : (runWebSocket o.enabled s.ws.session.shared s.ws.session.loop s.ws.beat
      input).2.1.result = none := by
    unfold live at hlive
    rw [ws_pass, hstep] at hlive
    exact hlive
  rw [ws_pass, hstep]
  exact pass_restarts _ _ _ input hen hturn

/-- A pass that does not set the timer leaves it. -/
theorem pass_of_not_restarts {lasting : ℕ} {input : WsInput}
    (h : input.restarts s.ws.session.shared s.ws.session.loop = false) :
    s.pass o lasting input =
      { s with ws := s.ws.step o.enabled input, now := s.now + lasting } := by
  unfold BeatClock.pass
  rw [h]
  split
  · rename_i heq
    cases heq
  · rfl

/-- A pass that sets the timer does so before its writes or behind them. -/
theorem pass_of_restarts (lasting : ℕ) {input : WsInput} (hlive : s.live)
    (h : input.restarts s.ws.session.shared s.ws.session.loop = true) :
    ∃ time, s.now ≤ time ∧ time ≤ s.now + lasting ∧
      ((∀ bytes write, input ≠ .io (.frame bytes write)) → time = s.now + lasting) ∧
      s.pass o lasting input =
        { s with ws := s.ws.step o.enabled input, now := s.now + lasting }.restart o time input := by
  unfold BeatClock.pass
  rw [hlive, h]
  refine ⟨_, ?_, ?_, ?_, rfl⟩
  all_goals split
  · exact le_rfl
  · exact Nat.le_add_right _ _
  · exact Nat.le_add_right _ _
  · exact le_rfl
  · exact fun hframe => absurd rfl (hframe _ _)
  · exact fun _ => rfl

/-- **One pass.** -/
theorem Stood.pass (h : Stood o s) (lasting : ℕ) (input : WsInput)
    (hen : ∀ write, input = .heartbeat write → o.enabled = true)
    (hlive : (s.pass o lasting input).live) : Stood o (s.pass o lasting input) := by
  have hbeat := beat_pass hen hlive
  cases hrestarts : input.restarts s.ws.session.shared s.ws.session.loop with
  | false =>
    rw [hrestarts, if_neg Bool.false_ne_true] at hbeat
    rw [pass_of_not_restarts hrestarts] at hbeat ⊢
    simp only at hbeat
    refine ⟨?_, h.restarted.trans (Nat.le_add_right _ _), h.alive, ?_, ?_⟩
    all_goals simp only [hbeat]
    exacts [h.deadline, h.awaiting, h.idle]
  | true =>
    obtain ⟨time, hfrom, hto, -, hpass⟩ := pass_of_restarts lasting
      (live_of_pass hlive) hrestarts
    rw [hrestarts, if_pos rfl] at hbeat
    rw [hpass] at hbeat ⊢
    have hover : s.restarted ≤ time := h.restarted.trans hfrom
    have halive : s.alive ≤ time := h.alive.trans hover
    simp only [restart] at hbeat
    suffices hstood : Stood o ({ s with
        ws := ⟨(s.ws.step o.enabled input).session, s.ws.beat.passed input⟩
        now := s.now + lasting }.restart o time input) by
      rw [← hbeat] at hstood
      exact hstood
    cases input with
    | io _ | pong =>
      exact ⟨rfl, hto, le_rfl, (fun hawait => by cases hawait), fun _ => rfl⟩
    | ping _ | message =>
      refine ⟨rfl, hto, halive, fun hawait => ?_, fun _ => rfl⟩
      obtain ⟨p, hp, hsign, hle, -⟩ := h.awaiting hawait
      exact ⟨p, hp, hsign, hle.trans hover, fun htimeout => by cases htimeout⟩
    | heartbeat _ =>
      exact ⟨rfl, hto, halive, fun _ => ⟨_, rfl, halive, le_rfl, fun _ => rfl⟩,
        fun hclear => by cases hclear⟩

/-! ## A run -/

/-- The loop at its next pass. -/
def awake (s : BeatClock) (e : BeatTick) : BeatClock := { s with now := s.now + e.elapsed }

theorem step_eq (e : BeatTick) : s.step o slack e = (s.awake e).wake o slack e.lasting e.wake := rfl

variable (o slack s) in
/-- What a tick comes to: nothing, or a pass, and one of the timer if it is enabled and fired. -/
theorem step_cases (e : BeatTick) :
    (s.step o slack e = s.awake e ∧ ∀ fired write, e.wake = .poll fired write →
      o.enabled = true → (s.awake e).timerFired slack fired = false) ∨
    ∃ input, s.step o slack e = (s.awake e).pass o e.lasting input ∧
      ((e.wake = .ready input ∧ ∀ write, input ≠ .heartbeat write) ∨
        ∃ fired write, e.wake = .poll fired write ∧ input = .heartbeat write ∧
          o.enabled = true ∧ (s.awake e).timerFired slack fired = true) := by
  rw [step_eq]
  cases hwake : e.wake with
  | ready input =>
    cases input with
    | heartbeat write => exact .inl ⟨rfl, fun fired write h => by cases h⟩
    | _ => exact .inr ⟨_, rfl, .inl ⟨rfl, fun write h => by cases h⟩⟩
  | poll fired write =>
    by_cases hfires : (o.enabled && (s.awake e).timerFired slack fired) = true
    · have hboth := Bool.and_eq_true_iff.1 hfires
      exact .inr ⟨_, if_pos hfires, .inr ⟨fired, write, rfl, rfl, hboth.1, hboth.2⟩⟩
    · refine .inl ⟨if_neg hfires, fun fired' write' h henabled => ?_⟩
      cases h
      simpa [henabled] using hfires

theorem live_of_step {e : BeatTick} (h : (s.step o slack e).live) : s.live := by
  obtain ⟨heq, -⟩ | ⟨input, heq, -⟩ := step_cases o slack s e
  · rw [heq] at h
    exact h
  · rw [heq] at h
    exact (live_of_pass h : (s.awake e).live)

theorem live_of_run {es : List BeatTick} (h : (run (step o slack) s es).live) : s.live := by
  induction es generalizing s with
  | nil => exact h
  | cons e es ih => exact live_of_step (ih h)

theorem now_step (e : BeatTick) : s.now ≤ (s.step o slack e).now := by
  obtain ⟨heq, -⟩ | ⟨input, heq, -⟩ := step_cases o slack s e
  · rw [heq]
    exact Nat.le_add_right _ _
  · rw [heq, now_pass]
    exact (Nat.le_add_right _ _).trans (Nat.le_add_right _ _)

theorem Stood.tick (h : Stood o s) (e : BeatTick) (hlive : (s.step o slack e).live) :
    Stood o (s.step o slack e) := by
  obtain ⟨heq, -⟩ | ⟨input, heq, hcase⟩ := step_cases o slack s e
  · rw [heq]
    exact h.elapse e.elapsed
  · rw [heq] at hlive ⊢
    refine (h.elapse e.elapsed).pass e.lasting input ?_ hlive
    rintro write rfl
    obtain ⟨-, hready⟩ | ⟨_, _, -, -, henabled, -⟩ := hcase
    · exact absurd rfl (hready write)
    · exact henabled

/-- In every run the timer of a live session stands so. -/
theorem stood_run (sh : Shared) (es : List BeatTick)
    (hlive : (run (step o slack) (start o sh) es).live) :
    Stood o (run (step o slack) (start o sh) es) := by
  refine run_inv (I := fun s => s.live → Stood o s) ?_ ?_ es hlive
  · intro s e ih hnext
    exact (ih (live_of_step hnext)).tick e hnext
  · intro _
    exact ⟨(Nat.zero_add _).symm, le_rfl, le_rfl, (fun hawait => by cases hawait), fun _ => rfl⟩

/-! ## Silence -/

/-- Nothing comes in, and no request is taken. -/
def Quiet (s : BeatClock) (e : BeatTick) : Prop :=
  match e.wake with
  | .ready (.io (.command c _)) =>
    WebSocket.takes s.ws.session.shared s.ws.session.loop c = false
  | .ready input => input.inbound = false
  | .poll _ _ => True

instance : DecidableRel Quiet := fun s e => by
  unfold Quiet
  split <;> infer_instance

theorem Quiet.not_restarts {e : BeatTick} {input : WsInput} (h : s.Quiet e)
    (hwake : e.wake = .ready input) (hready : ∀ write, input ≠ .heartbeat write) :
    input.restarts s.ws.session.shared s.ws.session.loop = false := by
  unfold Quiet at h
  rw [hwake] at h
  cases input with
  | io input =>
    cases input with
    | command c write => exact (restarts_command _ _ c write).trans h
    | frame bytes write => cases h
    | cancel _ | hangup | ended => rfl
  | heartbeat write => exact absurd rfl (hready write)
  | ping _ | pong | message => cases h

/-- A pong is awaited, and the timer runs out by `time`. -/
def Awaiting (time : ℕ) (s : BeatClock) : Prop :=
  s.ws.beat.awaitingPong = true ∧ s.deadline ≤ time

/-- An expiry while a pong is awaited ends the session. -/
theorem Awaiting.ended {time lasting : ℕ} {write : Write} (h : s.Awaiting time)
    (henabled : o.enabled = true) : ¬(s.pass o lasting (.heartbeat write)).live := by
  intro hlive
  have hbefore : s.ws.session.result = none := live_of_pass hlive
  unfold live at hlive
  rw [ws_pass] at hlive
  simp [WebSocket.step, hbefore, runWebSocket, henabled, h.1, Session.pass, Loop.finish] at hlive

/-- **One quiet tick.** A session that lives on has its timer and its heartbeat as they were,
and has not seen the timer fire, or has just pinged. -/
theorem quiet_step {e : BeatTick} (hquiet : s.Quiet e) (hlive : (s.step o slack e).live) :
    ((s.step o slack e).ws.beat = s.ws.beat ∧ (s.step o slack e).deadline = s.deadline ∧
      ∀ fired write, e.wake = .poll fired write → o.enabled = true →
        (s.awake e).timerFired slack fired = false) ∨
    (s.ws.beat.awaitingPong = false ∧
      (s.step o slack e).Awaiting ((s.step o slack e).now + o.timeout)) := by
  obtain ⟨heq, hnot⟩ | ⟨input, heq, ⟨hwake, hready⟩ | ⟨fired, write, -, rfl, henabled, -⟩⟩ :=
    step_cases o slack s e
  · rw [heq]
    exact .inl ⟨rfl, rfl, hnot⟩
  · have hidle : input.restarts (s.awake e).ws.session.shared (s.awake e).ws.session.loop = false :=
      hquiet.not_restarts hwake hready
    rw [heq] at hlive ⊢
    have hbeat := beat_pass (fun write h => absurd h (hready write)) hlive
    rw [hidle, if_neg Bool.false_ne_true] at hbeat
    refine .inl ⟨hbeat, ?_, fun fired write hpoll => ?_⟩
    · rw [pass_of_not_restarts hidle]
      rfl
    · rw [hwake] at hpoll
      cases hpoll
  · rw [heq] at hlive ⊢
    have hbeat := beat_pass (fun _ _ => henabled) hlive
    have hsets : (WsInput.heartbeat write).restarts (s.awake e).ws.session.shared
        (s.awake e).ws.session.loop = true := rfl
    obtain ⟨time, -, -, hbehind, hpass⟩ :=
      pass_of_restarts (o := o) e.lasting (live_of_pass hlive) hsets
    have htime := hbehind (fun _ _ h => by cases h)
    refine .inr ⟨?_, ?_, ?_⟩
    · by_contra hawait
      exact Awaiting.ended (s := s.awake e) ⟨(Bool.not_eq_false _).mp hawait, le_rfl⟩ henabled hlive
    · rw [hbeat]
      rfl
    · rw [hpass] at hbeat ⊢
      simp only [restart] at hbeat ⊢
      rw [hbeat, htime]
      exact le_rfl

theorem Awaiting.tick {time : ℕ} {e : BeatTick} (h : s.Awaiting time) (hquiet : s.Quiet e)
    (hlive : (s.step o slack e).live) : (s.step o slack e).Awaiting time := by
  obtain ⟨hbeat, hdeadline, -⟩ | ⟨hclear, -⟩ := quiet_step hquiet hlive
  · exact ⟨(congrArg Heartbeat.awaitingPong hbeat).trans h.1, hdeadline.trans_le h.2⟩
  · exact absurd (h.1.symm.trans hclear) (by decide)

theorem Awaiting.ticks {time : ℕ} {es : List BeatTick} (h : s.Awaiting time)
    (hquiet : Along (step o slack) Quiet s es) (hlive : (run (step o slack) s es).live) :
    (run (step o slack) s es).Awaiting time := by
  induction es generalizing s with
  | nil => exact h
  | cons e es ih => exact ih (h.tick hquiet.1 (live_of_run hlive)) hquiet.2 hlive

theorem timerFired_of_late {fired : Bool} (h : s.deadline + slack ≤ s.now) :
    s.timerFired slack fired = true := by
  have hpast : s.deadline ≤ s.now := (Nat.le_add_right _ _).trans h
  simp [timerFired, h, hpast]

/-- What is left of a quiet stretch: the timer has not been set, or a ping is out. -/
def Hushed (o : HeartbeatOptions) (time : ℕ) (s : BeatClock) : Prop :=
  s.deadline ≤ time ∨ s.Awaiting (s.now + o.timeout)

theorem Hushed.tick {time : ℕ} {e : BeatTick} (h : s.Hushed o time) (hquiet : s.Quiet e)
    (hlive : (s.step o slack e).live) : (s.step o slack e).Hushed o time := by
  obtain hdue | hawait := h
  · obtain ⟨-, hdeadline, -⟩ | ⟨-, hnew⟩ := quiet_step hquiet hlive
    · exact .inl (hdeadline.trans_le hdue)
    · exact .inr hnew
  · obtain ⟨hflag, hdeadline⟩ := hawait.tick hquiet hlive
    exact .inr ⟨hflag, hdeadline.trans (Nat.add_le_add_right (now_step e) _)⟩

theorem Hushed.ticks {time : ℕ} {es : List BeatTick} (h : s.Hushed o time)
    (hquiet : Along (step o slack) Quiet s es) (hlive : (run (step o slack) s es).live) :
    (run (step o slack) s es).Hushed o time := by
  induction es generalizing s with
  | nil => exact h
  | cons e es ih => exact ih (h.tick hquiet.1 (live_of_run hlive)) hquiet.2 hlive

/-- A poll of the timer that comes late enough leaves a ping out. -/
theorem Hushed.poll {time : ℕ} {a : BeatTick} {fired : Bool} {write : Write}
    (h : s.Hushed o time) (henabled : o.enabled = true) (hwake : a.wake = .poll fired write)
    (hlate : time + slack ≤ (s.awake a).now) (hlive : (s.step o slack a).live) :
    (s.step o slack a).Awaiting ((s.step o slack a).now + o.timeout) := by
  have hquiet : s.Quiet a := by
    unfold Quiet
    rw [hwake]
    trivial
  obtain ⟨hbeat, hdeadline, hnot⟩ | ⟨-, hnew⟩ := quiet_step hquiet hlive
  · obtain hdue | ⟨hflag, hset⟩ := h
    · have hfires : (s.awake a).timerFired slack fired = true :=
        timerFired_of_late ((Nat.add_le_add_right hdue slack).trans hlate)
      rw [hnot fired write hwake henabled] at hfires
      cases hfires
    · refine ⟨(congrArg Heartbeat.awaitingPong hbeat).trans hflag, hdeadline.trans_le ?_⟩
      exact hset.trans (Nat.add_le_add_right (now_step a) _)
  · exact hnew

/-- A poll of the timer that comes late enough ends the session while a pong is awaited. -/
theorem Awaiting.poll {time : ℕ} {b : BeatTick} {fired : Bool} {write : Write}
    (h : s.Awaiting time) (henabled : o.enabled = true) (hwake : b.wake = .poll fired write)
    (hlate : time + slack ≤ (s.awake b).now) : ¬(s.step o slack b).live := by
  intro hlive
  have hfires : (s.awake b).timerFired slack fired = true :=
    timerFired_of_late ((Nat.add_le_add_right h.2 slack).trans hlate)
  have hstep : s.step o slack b = (s.awake b).pass o b.lasting (.heartbeat write) := by
    rw [step_eq, hwake]
    exact if_pos (Bool.and_eq_true_iff.2 ⟨henabled, hfires⟩)
  rw [hstep] at hlive
  exact Awaiting.ended (s := s.awake b) h henabled hlive

/-- How far the deadline of a timer is. -/
theorem Stood.due (h : Stood o s) : s.deadline ≤ s.now + max o.idleInterval o.timeout := by
  have hlength : o.length s.ws.beat.interval ≤ max o.idleInterval o.timeout := by
    cases s.ws.beat.interval with
    | idle => exact le_max_left _ _
    | timeout => exact le_max_right _ _
  calc s.deadline = s.restarted + o.length s.ws.beat.interval := h.deadline
    _ ≤ s.now + max o.idleInterval o.timeout := Nat.add_le_add h.restarted hlength

end BeatClock

open BeatClock

/-- **Silence is noticed.** In every run of a session over WebSocket: while nothing comes in and
no request is taken, the poll of the timer that comes `max idle timeout` later leaves a ping out
that is younger than the last sign of life, or ends the session, and the poll that comes
`timeout` after it ends the session. And an expiry, whose ping can be written, ends none but one
whose last ping was out for the shorter of the two intervals, and for the timeout unless the
timer was set since, with no binary message, pong or request since. -/
theorem silence_noticed (o : HeartbeatOptions) (slack : ℕ) (sh : Shared) (es : List BeatTick) :
    (∀ (quiet₁ : List BeatTick) (a : BeatTick) (fired₁ : Bool) (write₁ : Write), o.enabled = true →
      a.wake = .poll fired₁ write₁ →
      let s := run (step o slack) (start o sh) es
      let s₁ := run (step o slack) s quiet₁
      let s₂ := s₁.step o slack a
      Along (step o slack) Quiet s quiet₁ →
      s.now + max o.idleInterval o.timeout + slack ≤ s₁.now + a.elapsed →
      (s₂.live → ∃ p, s₂.pinged = some p ∧ s₂.alive ≤ p) ∧
        ∀ (quiet₂ : List BeatTick) (b : BeatTick) (fired₂ : Bool) (write₂ : Write),
          b.wake = .poll fired₂ write₂ → Along (step o slack) Quiet s₂ quiet₂ →
          let s₃ := run (step o slack) s₂ quiet₂
          s₂.now + o.timeout + slack ≤ s₃.now + b.elapsed → ¬(s₃.step o slack b).live) ∧
    ∀ (e : BeatTick) (fired : Bool), e.wake = .poll fired .done →
      let s := run (step o slack) (start o sh) es
      s.live → ¬(s.step o slack e).live →
      ∃ p, s.pinged = some p ∧ s.alive ≤ p ∧
        p + min o.idleInterval o.timeout ≤ s.now + e.elapsed ∧
        (s.ws.beat.interval = .timeout → p + o.timeout ≤ s.now + e.elapsed) := by
  constructor
  · intro quiet₁ a fired₁ write₁ henabled ha s s₁ s₂ hquiet₁ hlate₁
    have hawaiting : s₂.live → s₂.Awaiting (s₂.now + o.timeout) := by
      intro hlive₂
      have hlive₁ : s₁.live := live_of_step hlive₂
      have hstood : Stood o s := stood_run sh es (live_of_run hlive₁)
      have hhushed : s₁.Hushed o (s.now + max o.idleInterval o.timeout) :=
        Hushed.ticks (.inl hstood.due) hquiet₁ hlive₁
      exact hhushed.poll henabled ha hlate₁ hlive₂
    refine ⟨fun hlive₂ => ?_, ?_⟩
    · have hrun : s₂ = run (step o slack) (start o sh) (es ++ quiet₁ ++ [a]) := by
        simp only [run_append, run_cons, run_nil, s₂, s₁, s]
      have hstood : Stood o s₂ := hrun ▸ stood_run sh _ (hrun ▸ hlive₂)
      obtain ⟨p, hpinged, hsign, -⟩ := hstood.awaiting (hawaiting hlive₂).1
      exact ⟨p, hpinged, hsign⟩
    · intro quiet₂ b fired₂ write₂ hb hquiet₂ s₃ hlate₂ hlive
      have hlive₃ : s₃.live := live_of_step hlive
      have hlive₂ : s₂.live := live_of_run hlive₃
      exact ((hawaiting hlive₂).ticks hquiet₂ hlive₃).poll henabled hb hlate₂ hlive
  · intro e fired hwake s hlive hended
    have hstood : Stood o s := stood_run sh es hlive
    obtain ⟨heq, -⟩ | ⟨input, heq, ⟨hready, -⟩ | ⟨_, write, hpoll, rfl, -, hfired⟩⟩ :=
      step_cases o slack s e
    · rw [heq] at hended
      exact absurd hlive hended
    · rw [hwake] at hready
      cases hready
    · rw [hwake] at hpoll
      cases hpoll
      have hawait : s.ws.beat.awaitingPong = true := by
        rw [heq] at hended
        unfold live at hended
        rw [ws_pass] at hended
        exact ((expiry_ends _ hlive).1 hended).2
      have hpast : s.deadline ≤ s.now + e.elapsed := by
        simp only [timerFired, Bool.and_eq_true, decide_eq_true_eq] at hfired
        exact hfired.1
      obtain ⟨p, hpinged, hsign, hset, htimeout⟩ := hstood.awaiting hawait
      have hdeadline := hstood.deadline
      refine ⟨p, hpinged, hsign, ?_, fun hinterval => ?_⟩
      · have hlength : min o.idleInterval o.timeout ≤ o.length s.ws.beat.interval := by
          cases s.ws.beat.interval with
          | idle => exact min_le_left _ _
          | timeout => exact min_le_right _ _
        omega
      · rw [hinterval, htimeout hinterval] at hdeadline
        exact hdeadline.ge.trans hpast

/-- A peer speaks once, and then only a caller's cancellation comes. -/
def muteRun : List BeatTick :=
  [⟨5, 0, .ready .pong⟩, ⟨10, 0, .poll false .done⟩, ⟨30, 0, .poll true .done⟩,
    ⟨4, 0, .ready (.io (.cancel 9))⟩]

/-- It is kept for the idle interval and the timeout, and ended for the ping it left
unanswered. -/
theorem silence_noticed_mute :
    let step := BeatClock.step ⟨true, 30, 10⟩ 1
    let s := run step (start ⟨true, 30, 10⟩ wire3Session) muteRun
    (∃ p, (run step (start ⟨true, 30, 10⟩ wire3Session) (muteRun.take 3)).pinged = some p) ∧
      ¬(step s ⟨8, 0, .poll true .done⟩).live ∧ ∃ p, s.pinged = some p ∧ p + 10 ≤ s.now + 8 := by
  intro step s
  have hnoticed := (silence_noticed ⟨true, 30, 10⟩ 1 wire3Session (muteRun.take 1)).1
    [⟨10, 0, .poll false .done⟩] ⟨30, 0, .poll true .done⟩ true .done rfl rfl (by decide) (by decide)
  obtain ⟨p, hpinged, -⟩ := hnoticed.1 (by decide)
  have hended : ¬(step s ⟨8, 0, .poll true .done⟩).live :=
    hnoticed.2 [⟨4, 0, .ready (.io (.cancel 9))⟩] ⟨8, 0, .poll true .done⟩ true .done rfl (by decide)
      (by decide)
  obtain ⟨q, hlast, -, hlate, -⟩ := (silence_noticed ⟨true, 30, 10⟩ 1 wire3Session muteRun).2
    ⟨8, 0, .poll true .done⟩ true rfl (by decide) hended
  exact ⟨⟨p, hpinged⟩, hended, q, hlast, hlate⟩

end Fitz
