import Fitz.Model.Session
import Fitz.Lib.Machine

/-!
# The heartbeat

`run_websocket` takes a request of the client for a sign of the peer, and does not
take a ping of the peer for one. `heartbeat_sound`: in every run, an expiry ends the
session exactly if a ping was sent and nothing has come in since, and until then the
timer stands as the ping set it, exactly if since the last ping a binary message or a
pong came in, or else requests were taken just if another message came in.
-/

namespace Fitz

open Machine

/-! ## What an input is -/

/-- What the input writes is written. -/
def WsInput.Written : WsInput → Prop
  | .io (.command _ write) | .io (.frame _ write) | .ping write | .heartbeat write => write = .done
  | _ => True

instance : DecidablePred WsInput.Written := fun e => by
  unfold WsInput.Written
  split <;> infer_instance

def WsInput.inbound : WsInput → Bool
  | .io (.frame _ _) | .ping _ | .pong | .message => true
  | _ => false

/-- A ping has been sent, and no message has come in since. -/
def Unanswered (enabled : Bool) (es : List WsInput) : Prop :=
  enabled = true ∧ ∃ before write after, es = before ++ .heartbeat write :: after ∧
    ∀ e ∈ after, e.inbound = false

/-- `run_websocket` takes the request: it is of this session, and without correlation
or within the limits of the broker. -/
def WebSocket.takes (sh : Shared) (l : Loop) : Command → Bool
  | .request id generation messageType flags payload _ =>
    generation == l.sessionGeneration && (!supervisorCorrelationEnabled sh ||
      (decide (l.correlated.entries.length < sh.maxInFlight.toNat) &&
        (encodeOutbound sh messageType flags id payload).isOk))
  | _ => false

/-! ## What was seen since the last ping -/

structure Since where
  pinged : Bool
  /-- a request was taken -/
  requested : Bool
  /-- a binary message or a pong came in -/
  heard : Bool
  /-- another message came in -/
  signalled : Bool
  deriving DecidableEq

def Since.note (enabled : Bool) (sh : Shared) (l : Loop) (since : Since) : WsInput → Since
  | .heartbeat _ => if enabled then ⟨true, false, false, false⟩ else since
  | .io (.frame _ _) | .pong => { since with heard := true }
  | .ping _ | .message => { since with signalled := true }
  | .io (.command c _) => { since with requested := since.requested || WebSocket.takes sh l c }
  | .io _ => since

/-- A session over WebSocket that keeps count. -/
structure Watched where
  ws : WebSocket
  since : Since

namespace Watched

def start (sh : Shared) : Watched := ⟨.start sh, ⟨false, false, false, false⟩⟩

def step (enabled : Bool) (s : Watched) (e : WsInput) : Watched :=
  ⟨s.ws.step enabled e, s.since.note enabled s.ws.session.shared s.ws.session.loop e⟩

end Watched

/-- With no binary message and no pong since the ping, requests were taken just if
another message came in. -/
def Since.Clear (since : Since) : Prop :=
  since.pinged = true → since.heard = false → since.requested = since.signalled

instance : DecidablePred Since.Clear := fun since =>
  inferInstanceAs (Decidable (since.pinged = true → since.heard = false →
    since.requested = since.signalled))

variable {enabled : Bool}

/-! ## One pass -/

/-- A command restarts the heartbeat exactly if it is a request that is taken. -/
theorem onCommand_beat (sh : Shared) (l : Loop) (beat : Heartbeat) (c : Command)
    (hlive : (WebSocket.onCommand sh l beat c (.ok ())).1.result = none) :
    (WebSocket.onCommand sh l beat c (.ok ())).2 =
      if WebSocket.takes sh l c then .alive else beat := by
  cases c with
  | request id generation messageType flags payload response =>
    simp only [WebSocket.onCommand, WebSocket.onRequest] at hlive ⊢
    by_cases hg : generation ≠ l.sessionGeneration
    · simp [WebSocket.takes, hg]
    have hgen : generation = l.sessionGeneration := not_not.1 hg
    rw [if_neg hg] at hlive ⊢
    by_cases hc : supervisorCorrelationEnabled sh
    · simp only [hc, if_true] at hlive ⊢
      by_cases hfull : l.correlated.entries.length ≥ sh.maxInFlight.toNat
      · simp [WebSocket.takes, hgen, hc, hfull]
      · have hroom : l.correlated.entries.length < sh.maxInFlight.toNat := not_le.1 hfull
        rw [if_neg hfull] at hlive ⊢
        cases henc : encodeOutbound sh messageType flags id payload <;>
          simp [WebSocket.takes, hgen, hc, hroom, henc, Except.isOk, Except.toBool]
    · simp only [hc] at hlive ⊢
      have htakes : WebSocket.takes sh l
          (.request id generation messageType flags payload response) = true := by
        simp [WebSocket.takes, hgen, hc]
      rw [htakes]
      by_cases hp : (l.pending.lookup messageType).getD [] ≠ []
      · simp [hp]
      · simp only [hp] at hlive ⊢
        cases henc : tryEncodeMessageFrame messageType payload with
        | error error => simp [henc, Loop.finish] at hlive
        | ok frame => simp
  | _ => simp [WebSocket.onCommand, WebSocket.takes]

/-- How the heartbeat stands after a pass. -/
def Heartbeat.after (enabled : Bool) (sh : Shared) (l : Loop) (beat : Heartbeat) :
    WsInput → Heartbeat
  | .io (.command c _) => if WebSocket.takes sh l c then .alive else beat
  | .io (.frame _ _) | .pong => .alive
  | .ping _ | .message => { beat with interval := .idle }
  | .heartbeat _ => if enabled then ⟨true, .timeout⟩ else beat
  | .io _ => beat

theorem pass_beat (sh : Shared) (l : Loop) (beat : Heartbeat) (e : WsInput) (hw : e.Written)
    (hlive : (runWebSocket enabled sh l beat e).2.1.result = none) :
    (runWebSocket enabled sh l beat e).2.2 = beat.after enabled sh l e := by
  cases e with
  | io input =>
    cases input with
    | command c write =>
      simp only [WsInput.Written] at hw
      subst hw
      exact onCommand_beat sh l beat c hlive
    | frame bytes write =>
      simp only [runWebSocket, WebSocket.onBinary] at hlive ⊢
      cases hd : decodeIncoming sh bytes with
      | ok p => rfl
      | error error => simp [hd, Loop.finish] at hlive
    | cancel id =>
      simp only [runWebSocket]
      cases l.cancelAllPending id <;> rfl
    | hangup | ended => rfl
  | ping write =>
    simp only [WsInput.Written] at hw
    subst hw
    rfl
  | pong | message => rfl
  | heartbeat write =>
    simp only [runWebSocket] at hlive ⊢
    cases enabled with
    | false => rfl
    | true =>
      by_cases hexp : beat.awaitingPong = true ∨ write ≠ .done
      · simp [hexp, Loop.finish] at hlive
      · simp [hexp, Heartbeat.after]

/-- An expiry ends the session if a pong is awaited. -/
theorem expiry_ends (ws : WebSocket) (hlive : ws.session.result = none) :
    (ws.step enabled (.heartbeat .done)).session.result ≠ none ↔
      enabled = true ∧ ws.beat.awaitingPong = true := by
  cases enabled <;> cases h : ws.beat.awaitingPong <;>
    simp [WebSocket.step, hlive, runWebSocket, h, Session.pass, Loop.finish, Loop.next]

/-! ## A run -/

/-- How the flag and the timer of a live session follow from what was seen. -/
structure BeatInv (enabled : Bool) (s : Watched) : Prop where
  pinged : s.since.pinged = true → enabled = true
  awaiting : s.ws.beat.awaitingPong =
    (s.since.pinged && !s.since.requested && !s.since.heard)
  interval : s.since.pinged = true → s.since.requested = false → s.since.heard = false →
    s.since.signalled = false → s.ws.beat.interval = .timeout

theorem BeatInv.step {s : Watched} {e : WsInput} (h : BeatInv enabled s) (hw : e.Written)
    (hlive : (s.step enabled e).ws.session.result = none) (hbefore : s.ws.session.result = none) :
    BeatInv enabled (s.step enabled e) := by
  obtain ⟨⟨session, beat⟩, since⟩ := s
  obtain ⟨hpinged, hawait, hinterval⟩ := h
  simp only at hbefore hpinged hawait hinterval
  have hpass : (runWebSocket enabled session.shared session.loop beat e).2.1.result = none := by
    simpa [Watched.step, WebSocket.step, hbefore, Session.pass] using hlive
  have hbeat := pass_beat session.shared session.loop beat e hw hpass
  have hstep : (Watched.step enabled ⟨⟨session, beat⟩, since⟩ e).ws.beat =
      beat.after enabled session.shared session.loop e := by
    simp only [Watched.step, WebSocket.step, hbefore]
    exact hbeat
  suffices hgoal : ∀ beat', beat' = beat.after enabled session.shared session.loop e →
      ((since.note enabled session.shared session.loop e).pinged = true → enabled = true) ∧
      beat'.awaitingPong = ((since.note enabled session.shared session.loop e).pinged &&
        !(since.note enabled session.shared session.loop e).requested &&
        !(since.note enabled session.shared session.loop e).heard) ∧
      ((since.note enabled session.shared session.loop e).pinged = true →
        (since.note enabled session.shared session.loop e).requested = false →
        (since.note enabled session.shared session.loop e).heard = false →
        (since.note enabled session.shared session.loop e).signalled = false →
        beat'.interval = .timeout) by
    obtain ⟨h1, h2, h3⟩ := hgoal _ hstep
    exact ⟨h1, h2, h3⟩
  rintro _ rfl
  cases e with
  | io input =>
    cases input with
    | command c write =>
      cases htakes : WebSocket.takes session.shared session.loop c <;>
        simp_all [Since.note, Heartbeat.after, Heartbeat.alive]
    | frame bytes write => simp_all [Since.note, Heartbeat.after, Heartbeat.alive]
    | cancel id | hangup | ended => exact ⟨hpinged, hawait, hinterval⟩
  | pong => simp_all [Since.note, Heartbeat.after, Heartbeat.alive]
  | ping | message => exact ⟨hpinged, hawait, by simp [Since.note]⟩
  | heartbeat write =>
    cases enabled with
    | true => simp [Since.note, Heartbeat.after]
    | false => exact ⟨hpinged, hawait, hinterval⟩

/-- Once a session has ended it stays so. -/
theorem live_before {s : Watched} {es : List WsInput}
    (h : (run (Watched.step enabled) s es).ws.session.result = none) :
    s.ws.session.result = none := by
  induction es generalizing s with
  | nil => exact h
  | cons e es ih =>
    have hnext := ih h
    cases hr : s.ws.session.result with
    | none => rfl
    | some result => simp [Watched.step, WebSocket.step, hr] at hnext

theorem run_beat {s : Watched} {es : List WsInput} (h0 : BeatInv enabled s)
    (hw : ∀ e ∈ es, e.Written)
    (hlive : (run (Watched.step enabled) s es).ws.session.result = none) :
    BeatInv enabled (run (Watched.step enabled) s es) := by
  induction es generalizing s with
  | nil => exact h0
  | cons e es ih =>
    have hnow := hw e List.mem_cons_self
    have hlater := fun e' he' => hw e' (List.mem_cons_of_mem e he')
    have hs : s.ws.session.result = none :=
      live_before (show (run (Watched.step enabled) s (e :: es)).ws.session.result = none from hlive)
    exact ih (h0.step hnow (live_before hlive) hs) hlater hlive

/-- The count agrees with the inputs. -/
theorem unanswered_iff (s : Watched) (es : List WsInput) (hs : s.since.pinged = false) :
    Unanswered enabled es ↔ (run (Watched.step enabled) s es).since.pinged = true ∧
      (run (Watched.step enabled) s es).since.heard = false ∧
      (run (Watched.step enabled) s es).since.signalled = false := by
  induction es using List.reverseRecOn with
  | nil => simp [Unanswered, hs]
  | append_singleton es e ih =>
    rw [run_append]
    generalize run (Watched.step enabled) s es = s' at ih ⊢
    -- the last input either is the ping or comes after it
    have hlast : Unanswered enabled (es ++ [e]) ↔
        (enabled = true ∧ ∃ write, e = .heartbeat write) ∨
          (Unanswered enabled es ∧ e.inbound = false) := by
      constructor
      · rintro ⟨hen, before, write, after, heq, hquiet⟩
        rcases List.eq_nil_or_concat after with rfl | ⟨after', e', rfl⟩
        · obtain ⟨-, hsingle⟩ := List.append_inj' heq rfl
          exact .inl ⟨hen, write, List.singleton_inj.1 hsingle⟩
        · rw [List.concat_eq_append, ← List.cons_append, ← List.append_assoc] at heq
          obtain ⟨hes, hsingle⟩ := List.append_inj' heq rfl
          have hee : e = e' := List.singleton_inj.1 hsingle
          refine .inr ⟨⟨hen, before, write, after', hes, fun x hx => hquiet x (by simp [hx])⟩, ?_⟩
          exact hquiet e (by simp [hee])
      · rintro (⟨hen, write, rfl⟩ | ⟨⟨hen, before, write, after, rfl, hquiet⟩, hin⟩)
        · exact ⟨hen, es, write, [], rfl, by simp⟩
        · refine ⟨hen, before, write, after ++ [e], by simp, ?_⟩
          intro x hx
          rcases List.mem_append.1 hx with hx | hx
          · exact hquiet x hx
          · rw [List.mem_singleton.1 hx]
            exact hin
    rw [hlast, ih]
    cases e with
    | io input =>
      cases input <;> simp [Watched.step, Since.note, WsInput.inbound]
    | heartbeat write =>
      cases enabled <;> simp [Watched.step, Since.note, WsInput.inbound]
    | _ => simp [Watched.step, Since.note, WsInput.inbound]

/-- **Heartbeat soundness.** At every point of a live session, an expiry ends it
exactly if a ping is unanswered, and while one is the timer stands as the ping set it,
if and only if the inputs since the last ping are clear. -/
theorem heartbeat_sound (enabled : Bool) (sh : Shared) (es : List WsInput)
    (hw : ∀ e ∈ es, e.Written)
    (hlive : (run (Watched.step enabled) (.start sh) es).ws.session.result = none) :
    ((((run (Watched.step enabled) (.start sh) es).ws.step enabled
          (.heartbeat .done)).session.result ≠ none ↔ Unanswered enabled es) ∧
        (Unanswered enabled es →
          (run (Watched.step enabled) (.start sh) es).ws.beat.interval = .timeout)) ↔
      (run (Watched.step enabled) (.start sh) es).since.Clear := by
  have hinv : BeatInv enabled (run (Watched.step enabled) (.start sh) es) :=
    run_beat ⟨by simp [Watched.start], rfl, by simp [Watched.start]⟩ hw hlive
  rw [expiry_ends _ hlive, unanswered_iff (.start sh) es rfl]
  generalize run (Watched.step enabled) (.start sh) es = s at hinv
  obtain ⟨ws, pinged, requested, heard, signalled⟩ := s
  obtain ⟨hpinged, hawait, hinterval⟩ := hinv
  simp only at hpinged hawait hinterval
  simp only [hawait, Since.Clear]
  cases pinged <;> cases requested <;> cases heard <;> cases signalled <;> simp_all

/-- A session of Wire 3. -/
def wire3Session : Shared := ⟨1, 0x300000000, 1024, 8, 0⟩

theorem heartbeat_sound_silence :
    ((run (Watched.step true) (.start wire3Session) [.heartbeat .done]).ws.step true
      (.heartbeat .done)).session.result ≠ none := by
  have hsound := (heartbeat_sound true wire3Session [.heartbeat .done]
    (by simp [WsInput.Written]) (by decide)).2 (by decide)
  exact hsound.1.2 ⟨rfl, [], .done, [], rfl, by simp⟩

/-- A request keeps a silent session, and a ping does not save one that speaks. -/
theorem heartbeat_confused :
    (∃ es, Unanswered true es ∧
      ((run (Watched.step true) (.start wire3Session) es).ws.step true
        (.heartbeat .done)).session.result = none) ∧
    (∃ es, ¬Unanswered true es ∧
      ((run (Watched.step true) (.start wire3Session) es).ws.session.result = none ∧
        ((run (Watched.step true) (.start wire3Session) es).ws.step true
          (.heartbeat .done)).session.result ≠ none)) := by
  constructor
  · refine ⟨[.heartbeat .done, .io (.command (.request 1 0 301 0 [] 0) .done)], ?_, by decide⟩
    exact ⟨rfl, [], .done, [.io (.command (.request 1 0 301 0 [] 0) .done)], rfl,
      by simp [WsInput.inbound]⟩
  · refine ⟨[.heartbeat .done, .ping .done], ?_, by decide, by decide⟩
    rw [unanswered_iff (.start wire3Session) _ rfl]
    decide

end Fitz
