import Fitz.Model.Supervisor

/-!
# The transitions of the supervisor

`Move` lists what one step of the supervisor can do, guards included, and
`step_move` shows that it does nothing else. The invariants of the supervisor
are proved from this table.
-/

namespace Fitz

open Machine

/-- Errors of `open_session` that end `connect_and_run` whatever the policy. -/
def FitzError.fatal : FitzError → Bool
  | .versionMismatch _ _ => true
  | error => error.isAuthFailure

/-- One transition on an event, from and to `⟨pc, attempts, initialResponse, closeRequested⟩`. -/
inductive Move (policy : ReconnectPolicy) : SupEvent → Sup → Sup → List Act → Prop
  | stay (e s) : Move policy e s s []
  | requestClose {pc n i c} : Move policy .requestClose ⟨pc, n, i, c⟩ ⟨pc, n, i, true⟩ []
  | call {n i c} (t) : Move policy (.connect t) ⟨.recv, n, i, c⟩ ⟨.starting, 0, some t, c⟩ [.call t]
  | closeIdle {n i c} (t) :
      Move policy (.close t) ⟨.recv, n, i, c⟩ ⟨.done, n, i, c⟩ [.publish .closed, .reply t (.ok ())]
  | hangupIdle {n i c} : Move policy .hangup ⟨.recv, n, i, c⟩ ⟨.done, n, i, c⟩ []
  | start {n i c} : Move policy .advance ⟨.starting, n, i, c⟩ ⟨.checking, n, i, c⟩ [.publish .connecting]
  | closedBefore {n i} : Move policy .advance ⟨.checking, n, i, true⟩ ⟨.recv, 0, none, true⟩ [.publish .closed]
  | openSession {n i} : Move policy .advance ⟨.checking, n, i, false⟩ ⟨.token, n, i, false⟩ [.openSession i]
  | dial {n i c} : Move policy (.token (.ok ())) ⟨.token, n, i, c⟩ ⟨.dialing, n, i, c⟩ [.publish .connecting]
  | connect {n i c} :
      Move policy (.dial (.ok ())) ⟨.dialing, n, i, c⟩ ⟨.handshake, n, i, c⟩ [.publish .authenticating]
  | hello {n i c} : Move policy (.auth (.ok ())) ⟨.handshake, n, i, c⟩ ⟨.opened, n, i, c⟩ []
  | fail {e pc n i c} (error) (hpc : pc = .token ∨ pc = .dialing ∨ pc = .handshake) :
      Move policy e ⟨pc, n, i, c⟩ ⟨.failed error, n, i, c⟩ []
  | closedAfter {n i} : Move policy .advance ⟨.opened, n, i, true⟩ ⟨.recv, 0, none, true⟩ [.publish .closed]
  | restore {n i} : Move policy .advance ⟨.opened, n, i, false⟩ ⟨.restoring, n, i, false⟩ []
  | restored {n i c} : Move policy .restored ⟨.restoring, n, i, c⟩ ⟨.ready, n, i, c⟩ []
  | resetIds {n i c} : Move policy .advance ⟨.ready, n, i, c⟩ ⟨.announcing, n, i, c⟩ []
  | announce {n i c} :
      Move policy .advance ⟨.announcing, n, i, c⟩ ⟨.entering, n, none, c⟩
        (.publish .authenticated :: Sup.replyInitial ⟨.announcing, n, i, c⟩ (.ok ()))
  | enter {n i c} : Move policy .advance ⟨.entering, n, i, c⟩ ⟨.session, n, i, c⟩ []
  | giveUp {n i c error} (state) (r)
      (hst : state = .closed ∨ state = .disconnected)
      (hwhy : error.fatal = true ∨ i.isSome = true ∨ policy.enabled = false) :
      Move policy .advance ⟨.failed error, n, i, c⟩ ⟨.recv, 0, none, c⟩
        (.publish state :: Sup.replyInitial ⟨.failed error, n, i, c⟩ r)
  | retry {n c error} (hen : policy.enabled = true) :
      Move policy .advance ⟨.failed error, n, none, c⟩ ⟨.retrying, n, none, c⟩ []
  | connected {n i c} (t) :
      Move policy (.connect t) ⟨.session, n, i, c⟩ ⟨.session, n, i, c⟩ [.reply t (.ok ())]
  | close {n i c} (t) : Move policy (.close t) ⟨.session, n, i, c⟩ ⟨.closing t, n, i, c⟩ []
  | closed {n i c} (t) :
      Move policy .advance ⟨.closing t, n, i, c⟩ ⟨.recv, 0, none, c⟩ [.reply t (.ok ()), .publish .closed]
  | hangup {n i c} : Move policy .hangup ⟨.session, n, i, c⟩ ⟨.recv, 0, none, c⟩ []
  | lose {n i c} : Move policy .disconnected ⟨.session, n, i, c⟩ ⟨.lost, n, i, c⟩ [.lost]
  | bump {n i c} : Move policy .advance ⟨.lost, n, i, c⟩ ⟨.retrying, n, i, c⟩ []
  | exhaust {n i c} (hmax : policy.maximumAttempts ≠ 0) (hn : policy.maximumAttempts < n + 1) :
      Move policy .advance ⟨.retrying, n, i, c⟩ ⟨.recv, 0, none, c⟩
        (.exhausted :: .publish .disconnected ::
          Sup.replyInitial ⟨.retrying, n, i, c⟩
            (.error (.connection "reconnect attempts exhausted")))
  | sleep {n i c} (hn : policy.maximumAttempts ≠ 0 → n + 1 ≤ policy.maximumAttempts) :
      Move policy .advance ⟨.retrying, n, i, c⟩ ⟨.sleeping, n + 1, i, c⟩
        [.publish .reconnecting, .sleep (backoffExponent (n + 1))]
  | wake {n i c} : Move policy .wake ⟨.sleeping, n, i, c⟩ ⟨.checking, n, i, c⟩ []

/-- The program counters between the call and the first session. -/
def Pc.opening : Pc → Bool
  | .starting | .checking | .token | .dialing | .handshake | .opened | .failed _ | .restoring
  | .ready | .announcing => true
  | _ => false

variable {policy : ReconnectPolicy}

/-- The arms for a failed `open_session`. -/
theorem onOpenError_move (n : ℕ) (i : Option Ticket) (c : Bool) (error : FitzError) :
    Move policy .advance ⟨.failed error, n, i, c⟩
      ((⟨.failed error, n, i, c⟩ : Sup).onOpenError policy error).1
      ((⟨.failed error, n, i, c⟩ : Sup).onOpenError policy error).2 := by
  unfold Sup.onOpenError
  split
  · exact .giveUp _ _ (.inr rfl) (.inl rfl)
  · rename_i hne
    split
    · rename_i hauth
      have hfatal : error.fatal = true := by
        cases error <;> first | exact hauth | rfl
      exact .giveUp _ _ (.inl rfl) (.inl hfatal)
    · split
      · rename_i hwhy
        refine .giveUp _ _ (.inr rfl) (.inr ?_)
        simpa using hwhy
      · rename_i hwhy
        have hi : i = none := by simp at hwhy; exact hwhy.1
        have hen : policy.enabled = true := by simp at hwhy; exact hwhy.2
        subst hi
        exact .retry hen

/-- The retry tail. -/
theorem onRetry_move (n : ℕ) (i : Option Ticket) (c : Bool) :
    Move policy .advance ⟨.retrying, n, i, c⟩ ((⟨.retrying, n, i, c⟩ : Sup).onRetry policy).1
      ((⟨.retrying, n, i, c⟩ : Sup).onRetry policy).2 := by
  unfold Sup.onRetry
  simp only
  split
  · rename_i h
    exact .exhaust h.1 h.2
  · rename_i h
    exact .sleep (fun hmax => by by_contra hlt; exact h ⟨hmax, by omega⟩)

theorem advance_move (s : Sup) : Move policy .advance s (s.advance policy).1 (s.advance policy).2 := by
  obtain ⟨pc, n, i, c⟩ := s
  cases pc with
  | starting => exact .start
  | checking => cases c <;> [exact .openSession; exact .closedBefore]
  | opened => cases c <;> [exact .restore; exact .closedAfter]
  | failed error => exact onOpenError_move n i c error
  | ready => exact .resetIds
  | announcing => exact .announce
  | entering => exact .enter
  | closing t => exact .closed t
  | lost => exact .bump
  | retrying => exact onRetry_move n i c
  | _ => exact .stay _ _

theorem opening_move {event : Result Unit → SupEvent} {pc pc' : Pc} {acts : List Act} {n : ℕ}
    {i : Option Ticket} {c : Bool} (hpc : pc = .token ∨ pc = .dialing ∨ pc = .handshake)
    (hok : Move policy (event (.ok ())) ⟨pc, n, i, c⟩ ⟨pc', n, i, c⟩ acts) (r : Result Unit) :
    Move policy (event r) ⟨pc, n, i, c⟩ ((⟨pc, n, i, c⟩ : Sup).opening r pc' acts).1
      ((⟨pc, n, i, c⟩ : Sup).opening r pc' acts).2 := by
  cases r with
  | ok u => exact hok
  | error e => exact .fail e hpc

/-- **Every step of the supervisor is one of its transitions.** -/
theorem step_move (policy : ReconnectPolicy) (s : Sup) (e : SupEvent) :
    Move policy e s (s.step policy e).1 (s.step policy e).2 := by
  cases e with
  | requestClose => cases s; exact .requestClose
  | advance =>
    have : s.step policy .advance = s.advance policy := by
      unfold Sup.step; split <;> simp_all
    rw [this]; exact advance_move s
  | connect t =>
    obtain ⟨pc, n, i, c⟩ := s
    cases pc <;> first | exact .call t | exact .connected t | exact .stay _ _
  | close t =>
    obtain ⟨pc, n, i, c⟩ := s
    cases pc <;> first | exact .closeIdle t | exact .close t | exact .stay _ _
  | hangup =>
    obtain ⟨pc, n, i, c⟩ := s
    cases pc <;> first | exact .hangupIdle | exact .hangup | exact .stay _ _
  | token r =>
    obtain ⟨pc, n, i, c⟩ := s
    cases pc <;> first | exact opening_move (by simp) .dial r | exact .stay _ _
  | dial r =>
    obtain ⟨pc, n, i, c⟩ := s
    cases pc <;> first | exact opening_move (by simp) .connect r | exact .stay _ _
  | auth r =>
    obtain ⟨pc, n, i, c⟩ := s
    cases pc <;> first | exact opening_move (by simp) .hello r | exact .stay _ _
  | restored =>
    obtain ⟨pc, n, i, c⟩ := s
    cases pc <;> first | exact .restored | exact .stay _ _
  | disconnected =>
    obtain ⟨pc, n, i, c⟩ := s
    cases pc <;> first | exact .lose | exact .stay _ _
  | wake =>
    obtain ⟨pc, n, i, c⟩ := s
    cases pc <;> first | exact .wake | exact .stay _ _

/-! ## Stretches of a run -/

/-- One round of `open_session` that succeeds, up to the session loop. -/
def openRun : List SupEvent :=
  [.advance, .token (.ok ()), .dial (.ok ()), .auth (.ok ()), .advance, .restored, .advance,
    .advance, .advance]

/-- A loss, the bump of the generation and the retry tail. -/
def loseRun : List SupEvent := [.disconnected, .advance, .advance]

end Fitz
