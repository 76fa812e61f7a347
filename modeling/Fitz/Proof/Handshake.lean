import Fitz.Model.Handshake
import Fitz.Proof.History

/-!
# The handshake across transports

`handshake_transport_independent`: the two trees of `settle_authentication` agree
on the class of the outcome, and `connect_and_run` on what to do next, exactly
when the broker delivers a frame the WebSocket library takes, or nothing at all.
A broker that goes away during the handshake is a transport error over TCP and an
authentication failure over WebSocket.
-/

namespace Fitz

/-- The broker delivers a frame the library takes, or is silent. -/
def DeliversWhole (accepts : Bytes → Bool) : Answer → Prop
  | .frame bytes => accepts bytes = true
  | .silence => True
  | .close | .reset _ => False

/-! ## Decisions -/

theorem published_replyInitial (state : ConnectionState) (s : Sup) (r : Result Unit) :
    published state (s.replyInitial r) = state := by
  unfold Sup.replyInitial
  split <;> rfl

theorem isAuthFailure_iff (error : FitzError) :
    error.isAuthFailure = true ↔ error.kind = .authentication := by
  cases error <;> simp [FitzError.isAuthFailure, FitzError.kind]

section

variable {policy : ReconnectPolicy} {s : Sup}

/-- A failed handshake, apart from a version mismatch, is judged by its kind. -/
theorem handshakeDecision_failure (hs : s.pc = .handshake) {error : FitzError}
    (hv : ∀ code message, error ≠ .versionMismatch code message) :
    handshakeDecision policy s (.error error) =
      if error.kind = .authentication then (.recv, .closed)
      else if s.initialResponse.isSome || !policy.enabled then (.recv, .disconnected)
      else (.retrying, .authenticating) := by
  obtain ⟨pc, n, i, c⟩ := s
  cases hs
  have hstep : handshakeDecision policy ⟨.handshake, n, i, c⟩ (.error error) =
      (((⟨.failed error, n, i, c⟩ : Sup).onOpenError policy error).1.pc,
        published .authenticating ((⟨.failed error, n, i, c⟩ : Sup).onOpenError policy error).2) := rfl
  rw [hstep]
  -- the arms of the error handler, in the source's order
  unfold Sup.onOpenError
  split
  · exact absurd rfl (hv _ _)
  · split
    · rename_i hauth
      rw [if_pos ((isAuthFailure_iff error).1 hauth)]
      exact Prod.ext rfl (published_replyInitial .closed _ _)
    · rename_i hauth
      rw [if_neg (fun h => hauth ((isAuthFailure_iff error).2 h))]
      split
      · exact Prod.ext rfl (published_replyInitial .disconnected _ _)
      · rfl

theorem handshakeDecision_versionMismatch (hs : s.pc = .handshake) (code : UInt16) (message : String) :
    handshakeDecision policy s (.error (.versionMismatch code message)) = (.recv, .disconnected) := by
  obtain ⟨pc, n, i, c⟩ := s
  cases hs
  exact Prod.ext rfl (published_replyInitial .disconnected _ _)

/-- **The class decides.** -/
theorem handshakeDecision_of_class (hs : s.pc = .handshake) {r r' : Result Shared}
    (h : handshakeClass r = handshakeClass r') :
    handshakeDecision policy s r = handshakeDecision policy s r' := by
  -- the class of an error is its kind, but for a version mismatch
  have hclass : ∀ error : FitzError, (∃ code message, error = .versionMismatch code message) ∨
      (∀ code message, error ≠ .versionMismatch code message) ∧
        handshakeClass (.error error) = .failure error.kind := by
    intro error
    cases error <;> simp [handshakeClass]
  cases r with
  | ok sh =>
    cases r' with
    | ok sh' => rfl
    | error error' =>
      rcases hclass error' with ⟨code, message, rfl⟩ | ⟨-, hc⟩
      · cases h
      · rw [hc] at h
        cases h
  | error error =>
    cases r' with
    | ok sh' =>
      rcases hclass error with ⟨code, message, rfl⟩ | ⟨-, hc⟩
      · cases h
      · rw [hc] at h
        cases h
    | error error' =>
      rcases hclass error with ⟨code, message, rfl⟩ | ⟨hv, hc⟩ <;>
        rcases hclass error' with ⟨code', message', rfl⟩ | ⟨hv', hc'⟩
      · rw [handshakeDecision_versionMismatch hs, handshakeDecision_versionMismatch hs]
      · rw [hc'] at h
        cases h
      · rw [hc] at h
        cases h
      · rw [hc, hc', HandshakeClass.failure.injEq] at h
        rw [handshakeDecision_failure hs hv, handshakeDecision_failure hs hv', h]

end

/-! ## Frames -/

/-- A frame that is too short or too long has no header. -/
theorem decodeFrameHeader_size {bytes : Bytes}
    (h : ¬(frameHeaderLen ≤ bytes.length ∧ bytes.length ≤ maxMessageSize)) :
    ∃ error, decodeFrameHeader bytes = .error error ∧
      handshakeClass (.error error) = .failure .protocol := by
  unfold decodeFrameHeader
  split
  · exact ⟨_, rfl, rfl⟩
  · rename_i hlong
    simp only
    split
    · exact ⟨_, rfl, rfl⟩
    · split
      · exact ⟨_, rfl, rfl⟩
      · rename_i hmax
        split
        · exact ⟨_, rfl, rfl⟩
        · rename_i heq
          refine absurd ?_ h
          omega

/-- The loop skips pings that are answered, and pongs. -/
theorem settleWebSocket_append (sh : Shared) {pings : List WsEvent}
    (h : ∀ e ∈ pings, e = .ping (.ok ()) ∨ e = .pong) (events : List WsEvent) :
    settleWebSocket sh (pings ++ events) = settleWebSocket sh events := by
  induction pings with
  | nil => rfl
  | cons e pings ih =>
    have hrest := ih fun e' he' => h e' (List.mem_cons_of_mem _ he')
    rcases h e (by simp) with rfl | rfl
    · exact hrest
    · exact hrest

/-! ## The two trees -/

section

variable (sh : Shared) (accepts : Bytes → Bool) (handshaken : Bool)

/-- What the WebSocket tree makes of an answer alone. -/
def webSocketResult (answer : Answer) : Result Shared :=
  match webSocketEvent accepts handshaken answer with
  | .binary frame => settleAuthentication sh (.ok frame)
  | .failed error => .error (.authentication error)
  | .expired => .error .timeout
  | _ => .error (.authentication "broker closed the connection during authentication")

theorem settleWebSocket_answer (answer : Answer) :
    settleWebSocket sh [webSocketEvent accepts handshaken answer] =
      some (webSocketResult sh accepts handshaken answer) := by
  cases answer with
  | frame bytes =>
    cases h : accepts bytes with
    | true =>
      simp only [webSocketResult, webSocketEvent, h, if_true]
      rfl
    | false =>
      simp only [webSocketResult, webSocketEvent, h]
      rfl
  | close => cases handshaken <;> rfl
  | reset error => rfl
  | silence => rfl

/-- A frame the library takes has the same class on both transports. -/
theorem handshakeClass_frame {bytes : Bytes} (h : accepts bytes = true) :
    handshakeClass (settleTcp sh (.frame bytes)) =
      handshakeClass (webSocketResult sh accepts handshaken (.frame bytes)) := by
  have hws : webSocketResult sh accepts handshaken (.frame bytes) =
      settleAuthentication sh (.ok bytes) := by
    simp only [webSocketResult, webSocketEvent, h, if_true]
  rw [hws]
  by_cases hsize : frameHeaderLen ≤ bytes.length ∧ bytes.length ≤ maxMessageSize
  · simp only [settleTcp, tcpRead, readTcpFrame, if_pos hsize]
  · -- TCP refuses the length, WebSocket the header
    obtain ⟨error, hdecode, hclass⟩ := decodeFrameHeader_size hsize
    have htcp : settleTcp sh (.frame bytes) = .error (.frameTooLarge bytes.length) := by
      simp only [settleTcp, tcpRead, readTcpFrame, if_neg hsize, settleAuthentication]
    have hdirect : settleAuthentication sh (.ok bytes) = .error error := by
      simp only [settleAuthentication, hdecode]
      rfl
    rw [htcp, hdirect, hclass]
    rfl

/-- Elsewhere WebSocket reports an authentication failure, and TCP does not. -/
theorem handshakeClass_lost (haccepts : ∀ b : Bytes, b.length ≤ maxMessageSize → accepts b = true)
    {answer : Answer} (h : ¬DeliversWhole accepts answer) :
    handshakeClass (webSocketResult sh accepts handshaken answer) = .failure .authentication ∧
      handshakeClass (settleTcp sh answer) ≠ .failure .authentication := by
  cases answer with
  | frame bytes =>
    have hno : accepts bytes = false := by simpa [DeliversWhole] using h
    have hlong : ¬bytes.length ≤ maxMessageSize := fun hle => by simp [haccepts bytes hle] at hno
    refine ⟨?_, ?_⟩
    · simp [webSocketResult, webSocketEvent, hno, handshakeClass, FitzError.kind]
    · simp [settleTcp, tcpRead, readTcpFrame, hlong, settleAuthentication, handshakeClass,
        FitzError.kind]
  | close =>
    have htcp : handshakeClass (settleTcp sh .close) = .failure .transport := rfl
    exact ⟨by cases handshaken <;> rfl, by simp [htcp]⟩
  | reset error =>
    refine ⟨rfl, ?_⟩
    by_cases hkind : error.kind = .timedOut
    · simp [settleTcp, tcpRead, FitzError.fromIo, hkind, settleAuthentication, handshakeClass,
        FitzError.kind]
    · simp [settleTcp, tcpRead, FitzError.fromIo, hkind, settleAuthentication, handshakeClass,
        FitzError.kind]
  | silence => exact absurd trivial h

end

/-- **Outcome per transport.** Whatever pings the WebSocket stream yields before,
the two transports give the same class of result, and `connect_and_run` the same
decision, exactly when the broker delivers a frame the library takes or nothing. -/
theorem handshake_transport_independent (accepts : Bytes → Bool)
    (haccepts : ∀ b : Bytes, b.length ≤ maxMessageSize → accepts b = true) (handshaken : Bool)
    (policy : ReconnectPolicy) (s : Sup) (hs : s.pc = .handshake) (sh : Shared)
    (pings : List WsEvent) (hpings : ∀ e ∈ pings, e = .ping (.ok ()) ∨ e = .pong) (answer : Answer) :
    ∃ result, settleWebSocket sh (pings ++ [webSocketEvent accepts handshaken answer]) = some result ∧
      (handshakeClass (settleTcp sh answer) = handshakeClass result ∧
          handshakeDecision policy s (settleTcp sh answer) = handshakeDecision policy s result ↔
        DeliversWhole accepts answer) := by
  refine ⟨webSocketResult sh accepts handshaken answer, ?_, ?_, ?_⟩
  · rw [settleWebSocket_append sh hpings, settleWebSocket_answer]
  · rintro ⟨hclass, -⟩
    -- a connection lost during the handshake is told apart
    by_contra hlost
    obtain ⟨hws, htcp⟩ := handshakeClass_lost sh accepts handshaken haccepts hlost
    exact htcp (hclass.trans hws)
  · intro hwhole
    have hclass : handshakeClass (settleTcp sh answer) =
        handshakeClass (webSocketResult sh accepts handshaken answer) := by
      cases answer with
      | frame bytes => exact handshakeClass_frame sh accepts handshaken hwhole
      | silence => rfl
      | close => exact hwhole.elim
      | reset error => exact hwhole.elim
    exact ⟨hclass, handshakeDecision_of_class hs hclass⟩

/-- A session that opens for a call to `connect`. -/
def handshaking : Sup := ⟨.handshake, 0, some 0, false⟩

/-- A library that takes messages of up to sixteen mebibytes; one ping comes first. -/
theorem handshake_transport_independent_hello :
    ∃ result, settleWebSocket ⟨1, 0, 1048576, 0, 0⟩
        ([.ping (.ok ())] ++ [webSocketEvent (fun b => b.length ≤ 16777216) true
          (.frame (helloFrame 8))]) = some result ∧
      (handshakeClass (settleTcp ⟨1, 0, 1048576, 0, 0⟩
            (.frame (helloFrame 8))) = handshakeClass result ∧
          handshakeDecision ⟨true, 3⟩ handshaking (settleTcp ⟨1, 0, 1048576, 0, 0⟩
              (.frame (helloFrame 8))) =
            handshakeDecision ⟨true, 3⟩ handshaking result ↔
        DeliversWhole (fun b => b.length ≤ 16777216)
          (.frame (helloFrame 8))) :=
  handshake_transport_independent _
    (fun b h => decide_eq_true (Nat.le_trans h (by decide))) true ⟨true, 3⟩ handshaking rfl _ _
    (by simp) _

/-- The broker closes the connection before a frame. Over TCP the client is
`Disconnected` after a transport error; over WebSocket it is `Closed` for good. -/
theorem handshake_close_separates :
    handshakeClass (settleTcp ⟨1, 0, 1048576, 0, 0⟩ .close) = .failure .transport ∧
      (settleWebSocket ⟨1, 0, 1048576, 0, 0⟩ [webSocketEvent (fun _ => true) true .close]).map
          handshakeClass = some (.failure .authentication) ∧
      handshakeDecision ⟨true, 3⟩ handshaking (settleTcp ⟨1, 0, 1048576, 0, 0⟩ .close) =
        (.recv, .disconnected) ∧
      (settleWebSocket ⟨1, 0, 1048576, 0, 0⟩ [webSocketEvent (fun _ => true) true .close]).map
          (handshakeDecision ⟨true, 3⟩ handshaking) = some (.recv, .closed) := by
  refine ⟨rfl, rfl, rfl, rfl⟩

end Fitz
