import Fitz.Model.Enqueue
import Fitz.Proof.Fields
import Fitz.Lib.Tables

/-!
# An enqueue is applied at most once

No failure of a decoder is retryable, so an enqueue is tried again only if the answer
to the attempt is a whole error envelope by which it had no effect
(`errorEnvelope_of_retryable`). Then all frames are one frame, and a broker that keeps to
its answers applies at most one (`enqueued_once`).
-/

namespace Fitz

/-- An error response to a request that had this effect, with nothing missing and nothing
left over. -/
def ErrorEnvelope (effect : UInt8) (response : Bytes) : Prop :=
  ∃ (code : UInt16) (cls : UInt8) (message : String), cls ≤ 10 ∧
    message.toUTF8.toList.length < 2 ^ 32 ∧
    response = putU8 1 ++ putU16 code ++ putU8 cls ++ putU8 effect ++ putString message

/-- The attempt was answered, by a broker that applied nothing. -/
def Attempt.Rejected (attempt : Attempt) : Prop :=
  ∃ response, attempt.result = .ok response ∧ ErrorEnvelope 0 response

/-! ## Failures of decoders -/

namespace Decode

variable {α β : Type} {m : Decode α} {f : α → Decode β}

theorem bind_error {d : PayloadDecoder} {error : FitzError} (h : (m >>= f).run d = .error error) :
    m.run d = .error error ∨ ∃ a d', m.run d = .ok (a, d') ∧ (f a).run d' = .error error := by
  rw [StateT.run_bind] at h
  cases hm : m.run d with
  | error e =>
    rw [hm] at h
    cases h
    exact .inl rfl
  | ok p =>
    rw [hm] at h
    exact .inr ⟨p.1, p.2, rfl, h⟩

theorem on_error {buf : Bytes} {error : FitzError} (h : m.on buf = .error error) :
    m.run (.new buf) = .error error := by
  unfold Decode.on at h
  cases hm : m.run (.new buf) with
  | error e =>
    rw [hm] at h
    cases h
    rfl
  | ok p =>
    rw [hm] at h
    cases h

/-- No failure of the decoder is retryable. -/
def Definite (m : Decode α) : Prop :=
  ∀ d error, m.run d = .error error → error.isRetryable = false

theorem definite_pure (a : α) : Definite (pure a) := by
  intro d error h
  cases h

theorem definite_throw {error : FitzError} (h : error.isRetryable = false) :
    Definite (throw error : Decode α) := by
  intro d error' hrun
  cases hrun
  exact h

theorem Definite.bind (hm : Definite m) (hf : ∀ a, Definite (f a)) : Definite (m >>= f) := by
  intro d error h
  rcases bind_error h with h | ⟨a, d', -, h⟩
  · exact hm d error h
  · exact hf a d' error h

theorem definite_get : Definite (get : Decode PayloadDecoder) := by
  intro d error h
  cases h

theorem definite_set (d : PayloadDecoder) : Definite (set d : Decode PUnit) := by
  intro d error h
  cases h

theorem definite_isEmpty : Definite isEmpty := definite_get.bind fun _ => definite_pure _

theorem definite_getSlice (n : ℕ) : Definite (getSlice n) := by
  have hcheck : Definite (checkLen n) := by
    refine definite_get.bind fun d => ?_
    split
    · exact definite_throw rfl
    · exact definite_pure _
  exact hcheck.bind fun _ => definite_get.bind fun _ => (definite_set _).bind fun _ => definite_pure _

theorem definite_getU8 : Definite getU8 := (definite_getSlice 1).bind fun _ => definite_pure _

theorem definite_getU16 : Definite getU16 := (definite_getSlice 2).bind fun _ => definite_pure _

theorem definite_getBytes : Definite getBytes :=
  ((definite_getSlice 4).bind fun _ => definite_pure _).bind fun _ => definite_getSlice _

theorem definite_getString : Definite getString := by
  refine definite_getBytes.bind fun bytes => ?_
  split
  · exact definite_pure _
  · exact definite_throw rfl

end Decode

open Decode

/-! ## The error envelope -/

theorem definite_decodeDomainError : Definite decodeDomainError := by
  refine definite_getU16.bind fun code => definite_getU8.bind fun cls =>
    definite_getU8.bind fun effect => definite_getString.bind fun message =>
      definite_isEmpty.bind fun empty => ?_
  split
  · exact (definite_throw rfl).bind fun _ => definite_pure _
  · exact definite_pure _

theorem drop_eq_append {buf bytes : Bytes} {pos : ℕ} (h : bytes <+: buf.drop pos) :
    buf.drop pos = bytes ++ buf.drop (pos + bytes.length) := by
  obtain ⟨rest, hrest⟩ := h
  rw [← List.drop_drop, ← hrest, List.drop_left]

/-- What the envelope decoder takes. -/
theorem decodeDomainError_ok {buf : Bytes} {pos : ℕ} {error : FitzError} {d : PayloadDecoder}
    (hpos : pos ≤ buf.length) (h : decodeDomainError.run ⟨buf, pos⟩ = .ok (error, d)) :
    ∃ (code : UInt16) (cls effect : UInt8) (message : String),
      error = .domainWire code cls effect message ∧ cls ≤ 10 ∧
        message.toUTF8.toList.length < 2 ^ 32 ∧
        buf.drop pos = putU16 code ++ putU8 cls ++ putU8 effect ++ putString message := by
  obtain ⟨code, d₁, hcode, h⟩ := bind_ok h
  obtain ⟨_, rfl, hpre₁, rfl⟩ := (reads_getU16 buf _ code d₁ hpos).1 hcode
  have hpos₁ := Reads.pos_le hpos hpre₁
  obtain ⟨cls, d₂, hcls, h⟩ := bind_ok h
  obtain ⟨_, rfl, hpre₂, rfl⟩ := (reads_getU8 buf _ cls d₂ hpos₁).1 hcls
  have hpos₂ := Reads.pos_le hpos₁ hpre₂
  obtain ⟨effect, d₃, heffect, h⟩ := bind_ok h
  obtain ⟨_, rfl, hpre₃, rfl⟩ := (reads_getU8 buf _ effect d₃ hpos₂).1 heffect
  have hpos₃ := Reads.pos_le hpos₂ hpre₃
  obtain ⟨message, d₄, hmessage, h⟩ := bind_ok h
  obtain ⟨_, ⟨rfl, hlength⟩, hpre₄, rfl⟩ := (reads_getString buf _ message d₄ hpos₃).1 hmessage
  obtain ⟨empty, d₅, hempty, h⟩ := bind_ok h
  cases hempty
  split at h
  · cases h
  · rename_i hchecks
    cases h
    simp only [not_or, Bool.not_eq_true, Bool.not_eq_false', decide_eq_true_eq] at hchecks
    obtain ⟨hcls, -, hend⟩ := hchecks
    refine ⟨code, cls, effect, message, rfl, UInt8.not_lt.1 hcls, hlength, ?_⟩
    rw [drop_eq_append hpre₁, drop_eq_append hpre₂, drop_eq_append hpre₃, drop_eq_append hpre₄,
      List.drop_eq_nil_of_le hend, List.append_nil, List.append_assoc, List.append_assoc]

/-- **Only a rejection without effect is retried.** -/
theorem errorEnvelope_of_retryable {response : Bytes}
    (h : isRetryableEnqueueRejection response = true) : ErrorEnvelope 0 response := by
  unfold isRetryableEnqueueRejection at h
  split at h
  · cases h
  rename_i error herror
  have hrun := on_error herror
  rcases bind_error hrun with hrun | ⟨status, d, hstatus, hrun⟩
  · rw [definite_getU8 _ _ hrun] at h
    cases h
  obtain ⟨bytes, rfl, hprefix, rfl⟩ := (reads_getU8 response 0 status d (Nat.zero_le _)).1 hstatus
  split at hrun
  · cases hrun
  split at hrun
  · rename_i hone
    rcases bind_error hrun with hrun | ⟨error', d', herror', hrun⟩
    · rw [definite_decodeDomainError _ _ hrun] at h
      cases h
    cases hrun
    have hlength := Reads.pos_le (Nat.zero_le _) hprefix
    obtain ⟨code, cls, effect, message, rfl, hcls, hmessage, hrest⟩ :=
      decodeDomainError_ok hlength herror'
    simp only [FitzError.isRetryable, Bool.and_eq_true, beq_iff_eq] at h
    refine ⟨code, cls, message, hcls, hmessage, ?_⟩
    have hresponse := drop_eq_append hprefix
    rw [List.drop_zero, hrest, hone, h.1] at hresponse
    simpa only [List.append_assoc] using hresponse
  · cases hrun
    cases h

/-! ## The attempts -/

section Attempts

variable {frame : RequestFrame} {retryable : Bytes → Bool} {outcome : ℕ → Attempt}

/-- The attempt was answered in a way that another may follow. -/
def Attempt.Retried (retryable : Bytes → Bool) (attempt : Attempt) : Prop :=
  ∃ response, attempt.result = .ok response ∧ retryable response = true

/-- What was sent from this attempt on: one frame, in as many attempts at most, each after
those before it were answered. -/
structure SentFrom (frame : RequestFrame) (retryable : Bytes → Bool) (outcome : ℕ → Attempt)
    (left first : ℕ) (sent : List Transmission) : Prop where
  length : sent.length ≤ left
  same : ∀ x ∈ sent, x.frame = frame
  later : ∀ x ∈ sent, first ≤ x.attempt
  retried : ∀ x ∈ sent, ∀ k, first ≤ k → k < x.attempt → (outcome k).Retried retryable
  ordered : sent.Pairwise fun x y => x.attempt < y.attempt

/-- One attempt, and no other. -/
theorem sentFrom_one (left first : ℕ) (sent : Bool) :
    SentFrom frame retryable outcome (left + 1) first (if sent then [⟨first, frame⟩] else []) := by
  cases sent with
  | false => exact ⟨Nat.zero_le _, by simp, by simp, by simp, .nil⟩
  | true =>
    refine ⟨?_, by simp, by simp, ?_, by simp⟩
    · rw [if_pos rfl, List.length_singleton]
      omega
    · intro x hx k hk hlt
      rw [if_pos rfl, List.mem_singleton] at hx
      rw [hx] at hlt
      exact absurd hlt (not_lt.2 hk)

/-- An attempt that is retried, and those that follow. -/
theorem SentFrom.retry {left first : ℕ} {more : List Transmission}
    (h : SentFrom frame retryable outcome left (first + 1) more)
    (hretried : (outcome first).Retried retryable) (sent : Bool) :
    SentFrom frame retryable outcome (left + 1) first
      ((if sent then [⟨first, frame⟩] else []) ++ more) := by
  have hone : SentFrom frame retryable outcome 1 first (if sent then [⟨first, frame⟩] else []) :=
    sentFrom_one 0 first sent
  constructor
  · have hlength := hone.length
    have hmore := h.length
    rw [List.length_append]
    omega
  · intro x hx
    rcases List.mem_append.1 hx with hx | hx
    · exact hone.same x hx
    · exact h.same x hx
  · intro x hx
    rcases List.mem_append.1 hx with hx | hx
    · exact hone.later x hx
    · exact (Nat.le_succ first).trans (h.later x hx)
  · intro x hx k hk hlt
    rcases List.mem_append.1 hx with hx | hx
    · exact hone.retried x hx k hk hlt
    · rcases hk.eq_or_lt with rfl | hlater
      · exact hretried
      · exact h.retried x hx k hlater hlt
  · refine List.pairwise_append.2 ⟨hone.ordered, h.ordered, fun x hx y hy => ?_⟩
    have hy' := h.later y hy
    cases sent with
    | false => cases hx
    | true =>
      rw [if_pos rfl, List.mem_singleton] at hx
      rw [hx]
      exact hy'

/-- **The loop.** By induction on the attempts that are left. -/
theorem sentFrom_requestConfirmedNegative (left first : ℕ) :
    SentFrom frame retryable outcome left first
      (requestConfirmedNegative frame retryable outcome left first).1 := by
  induction left generalizing first with
  | zero => exact ⟨le_rfl, by simp [requestConfirmedNegative], by simp [requestConfirmedNegative],
      by simp [requestConfirmedNegative], .nil⟩
  | succ left ih =>
    rw [requestConfirmedNegative]
    cases hresult : (outcome first).result with
    | error error => exact sentFrom_one left first _
    | ok response =>
      dsimp only
      split
      · exact sentFrom_one left first _
      · rename_i hagain
        rw [not_or, Bool.not_eq_true, Bool.not_eq_false'] at hagain
        exact (ih (first + 1)).retry ⟨response, hresult, hagain.2⟩ _

end Attempts

theorem attempts_le (policy : RetryPolicy) : policy.attempts ≤ max 1 policy.maximumAttempts := by
  unfold RetryPolicy.attempts
  split
  · rw [max_comm]
  · exact le_max_left _ _

/-- **An enqueue is applied at most once.** -/
theorem enqueued_once (sh : Shared) (policy : RetryPolicy) (route : String) (body : Bytes)
    (options : QueueEnqueueOptions) (outcome : ℕ → Attempt) (applied : ℕ → Bool)
    (happlied : ∀ k, (outcome k).Rejected → applied k = false) :
    let sent := (enqueueWithOptions sh policy route body options outcome).1
    sent.length ≤ max 1 policy.maximumAttempts ∧
      (∀ x ∈ sent, ∀ y ∈ sent, x.frame = y.frame) ∧
      (∀ x ∈ sent, ∀ k, 1 ≤ k → k < x.attempt → (outcome k).Rejected) ∧
      sent.countP (fun x => applied x.attempt) ≤ 1 := by
  intro sent
  have hrejected : ∀ a : Attempt, a.Retried isRetryableEnqueueRejection → a.Rejected :=
    fun a ⟨response, hresult, hretryable⟩ =>
      ⟨response, hresult, errorEnvelope_of_retryable hretryable⟩
  have hsent : ∃ frame, SentFrom frame isRetryableEnqueueRejection outcome policy.attempts 1 sent := by
    simp only [sent, enqueueWithOptions]
    split
    · exact ⟨⟨0, [], 0⟩, Nat.zero_le _, by simp, by simp, by simp, .nil⟩
    · exact ⟨_, sentFrom_requestConfirmedNegative _ _⟩
  obtain ⟨frame, h⟩ := hsent
  refine ⟨h.length.trans (attempts_le policy), fun x hx y hy => ?_, fun x hx k hk hlt => ?_, ?_⟩
  · rw [h.same x hx, h.same y hy]
  · exact hrejected _ (h.retried x hx k hk hlt)
  · -- of two, the first was rejected
    have hlater : ∀ (i j : ℕ) x y, sent[i]? = some x → sent[j]? = some y → applied x.attempt = true →
        ¬i < j := by
      intro i j x y hi hj hx hlt
      obtain ⟨hi', rfl⟩ := List.getElem?_eq_some_iff.1 hi
      obtain ⟨hj', rfl⟩ := List.getElem?_eq_some_iff.1 hj
      have hless := List.pairwise_iff_getElem.1 h.ordered i j hi' hj' hlt
      have hback := happlied _ (hrejected _ (h.retried _ (List.getElem_mem hj') _
        (h.later _ (List.getElem_mem hi')) hless))
      rw [hback] at hx
      cases hx
    refine Tables.countP_le_one fun i j x y hi hj hx hy => ?_
    have hij := hlater i j x y hi hj hx
    have hji := hlater j i y x hj hi hy
    omega

/-- A broker that is overloaded at first, and takes the message then. -/
def overloadedOnce (attempt : ℕ) : Attempt :=
  ⟨true, .ok (if attempt = 1 then [1] ++ putU16 4001 ++ [5, 0] ++ putString "overloaded" else [0])⟩

/-- The second attempt is the one that is applied. -/
theorem enqueued_once_overloaded :
    let sent := (enqueueWithOptions (Conn.new ⟨4, ⟨true, 0⟩⟩).shared ⟨true, 3⟩ "queue://a/b/c" [7]
      ⟨none, none⟩ overloadedOnce).1
    sent.map (·.attempt) = [1, 2] ∧ sent.countP (fun x => x.attempt = 2) ≤ 1 := by
  have happlied : ∀ k, (overloadedOnce k).Rejected → decide (k = 2) = false := by
    rintro k ⟨response, hresult, code, cls, message, -, -, henvelope⟩
    rw [decide_eq_false_iff_not]
    rintro rfl
    have hresponse : [0] = response := Except.ok.inj hresult
    rw [henvelope] at hresponse
    cases hresponse
  exact ⟨by decide +kernel, (enqueued_once _ _ _ _ _ overloadedOnce _ happlied).2.2.2⟩

end Fitz
