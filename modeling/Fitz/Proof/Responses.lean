import Fitz.Model.Responses
import Fitz.Proof.Enqueue

/-!
# What the broker reports reaches the caller

A broker refuses an operation with a status of one and an envelope: a code, a class, an
effect and a text. Every operation has a decoder of its own, and all treat the envelope
alike: `broker_errors_exact` says that the operation fails with a broker's error exactly
when the response is one whole envelope, and then with its code, class, effect and text,
before which an operation of a stream puts its name. The failures of the decoders
themselves are never taken for a broker's (`Local`).

An acquisition that waits is answered twice. The first answer is the response here; the
completion that ends the wait comes as a notification (`Fitz.Model.Acquire`) and is left
out.
-/

namespace Fitz

/-- No broker reported the error. -/
def FitzError.Local (error : FitzError) : Prop :=
  ∀ code cls effect message, error ≠ .domainWire code cls effect message

/-- The response is the envelope of an error, with nothing missing and nothing left over. -/
def Reports (response : Bytes) (code : UInt16) (cls effect : UInt8) (text : String) : Prop :=
  cls ≤ 10 ∧ effect ≤ 2 ∧ text.toUTF8.toList.length < 2 ^ 32 ∧
    response = putU8 1 ++ (putU16 code ++ putU8 cls ++ putU8 effect ++ putString text)

/-! ## Failures of decoders -/

namespace Decode

variable {α β : Type} {m : Decode α} {f : α → Decode β}

/-- Running on a whole buffer changes no error. -/
theorem on_error_iff {buf : Bytes} {error : FitzError} :
    m.on buf = .error error ↔ m.run (.new buf) = .error error := by
  refine ⟨on_error, fun h => ?_⟩
  unfold Decode.on
  rw [h]
  rfl

/-- The decoder never fails with a broker's error. -/
def Local (m : Decode α) : Prop := ∀ d error, m.run d = .error error → error.Local

theorem local_pure (a : α) : Local (pure a) := by
  intro d error h
  cases h

/-- An error of the client's own. -/
theorem local_throw {error : FitzError} (h : error.Local) : Local (throw error : Decode α) := by
  intro d error' hrun
  cases hrun
  exact h

/-- A sequence reports no broker's error if its parts do not. -/
theorem Local.bind (hm : Local m) (hf : ∀ a, Local (f a)) : Local (m >>= f) := by
  intro d error h
  rcases bind_error h with h | ⟨a, d', -, h⟩
  · exact hm d error h
  · exact hf a d' error h

theorem Local.ite {c : Prop} [Decidable c] {n : Decode α} (hm : Local m) (hn : Local n) :
    Local (if c then m else n) := by
  split
  · exact hm
  · exact hn

theorem local_get : Local (get : Decode PayloadDecoder) := by
  intro d error h
  cases h

theorem local_set (d : PayloadDecoder) : Local (set d : Decode PUnit) := by
  intro d error h
  cases h

theorem local_isEmpty : Local isEmpty := local_get.bind fun _ => local_pure _

theorem local_remaining : Local remaining := local_get.bind fun _ => local_pure _

theorem local_protocol (message : String) : (FitzError.protocol message).Local := by
  intro code cls effect text h
  cases h

theorem local_codec (message : String) : (FitzError.codec message).Local := by
  intro code cls effect text h
  cases h

/-- A slice that does not fit is an error of the codec. -/
theorem local_getSlice (n : ℕ) : Local (getSlice n) := by
  have hcheck : Local (checkLen n) := by
    refine local_get.bind fun d => ?_
    exact (local_throw (local_codec _)).ite (local_pure _)
  exact hcheck.bind fun _ => local_get.bind fun _ => (local_set _).bind fun _ => local_pure _

theorem local_getU8 : Local getU8 := (local_getSlice 1).bind fun _ => local_pure _
theorem local_getU16 : Local getU16 := (local_getSlice 2).bind fun _ => local_pure _
theorem local_getU32 : Local getU32 := (local_getSlice 4).bind fun _ => local_pure _
theorem local_getU64 : Local getU64 := (local_getSlice 8).bind fun _ => local_pure _
theorem local_getBytes : Local getBytes := local_getU32.bind fun _ => local_getSlice _

/-- Text that is no UTF-8 is too. -/
theorem local_getString : Local getString := by
  refine local_getBytes.bind fun bytes => ?_
  split
  · exact local_pure _
  · exact local_throw (local_codec _)

/-- The check that nothing is left, before the value is returned. -/
theorem local_ended (message : String) (a : α) :
    Local (isEmpty >>= fun empty =>
      if !empty then (throw (.protocol message) : Decode Unit) >>= fun _ => pure a else pure a) := by
  refine local_isEmpty.bind fun empty => ?_
  exact Local.ite ((local_throw (local_protocol _)).bind fun _ => local_pure _) (local_pure _)

/-- A flag that is refused is refused with an error of the client's own. -/
theorem local_optionalField {refused : UInt8 → FitzError} (hrefused : ∀ flag, (refused flag).Local)
    (hm : Local m) : Local (optionalField refused m) := by
  refine local_getU8.bind fun flag => ?_
  exact (local_pure _).ite ((hm.bind fun _ => local_pure _).ite (local_throw (hrefused flag)))

theorem local_flagField {refused : UInt8 → FitzError} (hrefused : ∀ flag, (refused flag).Local) :
    Local (flagField refused) := by
  refine local_getU8.bind fun flag => ?_
  exact (local_pure _).ite ((local_pure _).ite (local_throw (hrefused flag)))

end Decode

open Decode

/-! ## The envelope -/

/-- The envelope is decoded to a value; it is thrown elsewhere. -/
theorem local_decodeDomainError : Local decodeDomainError := by
  refine local_getU16.bind fun code => local_getU8.bind fun cls =>
    local_getU8.bind fun effect => local_getString.bind fun message =>
      local_isEmpty.bind fun empty => ?_
  exact Local.ite ((local_throw (local_protocol _)).bind fun _ => local_pure _) (local_pure _)

/-- The fields of an envelope, without a check of the rest. -/
def envelopeFields : Decode (UInt16 × UInt8 × UInt8 × String) := do
  return (← getU16, ← getU8, ← getU8, ← getString)

/-- The fields of an envelope, read back exactly. -/
theorem reads_envelopeFields : Reads envelopeFields fun r bytes =>
    r.2.2.2.toUTF8.toList.length < 2 ^ 32 ∧
      bytes = putU16 r.1 ++ putU8 r.2.1 ++ putU8 r.2.2.1 ++ putString r.2.2.2 := by
  refine (reads_getU16.bind fun code => reads_getU8.bind fun cls => reads_getU8.bind fun effect =>
    Reads.map (fun text => (code, cls, effect, text)) reads_getString).congr fun r bytes => ?_
  obtain ⟨code, cls, effect, text⟩ := r
  constructor
  · rintro ⟨_, _, _, rfl, ⟨_, _, _, rfl, ⟨_, _, _, rfl, ⟨_, ⟨rfl, hshort⟩, heq⟩, rfl⟩, rfl⟩, rfl⟩
    cases heq
    exact ⟨hshort, by simp only [List.append_assoc]⟩
  · rintro ⟨hshort, rfl⟩
    exact ⟨code, _, _, rfl, ⟨cls, _, _, rfl, ⟨effect, _, _, rfl, ⟨text, ⟨rfl, hshort⟩, rfl⟩, rfl⟩, rfl⟩,
      by simp only [List.append_assoc]⟩

/-- What is behind a status of one is an envelope. -/
theorem reports_iff {response : Bytes} {code : UInt16} {cls effect : UInt8} {text : String}
    {rest : Bytes} (h : response = putU8 1 ++ rest) :
    Reports response code cls effect text ↔
      cls ≤ 10 ∧ effect ≤ 2 ∧ ∃ d, envelopeFields.run ⟨response, 1⟩ = .ok ((code, cls, effect, text), d) ∧
        d.pos ≥ d.buf.length := by
  have hsize : response.length = 1 + rest.length := by
    rw [h, List.length_append]
    rfl
  have hlen : 1 ≤ response.length := by omega
  have hdrop : response.drop 1 = rest := by
    rw [h]
    rfl
  refine and_congr_right fun _ => and_congr_right fun _ => ?_
  constructor
  · rintro ⟨hshort, heq⟩
    rw [h] at heq
    have hrest := List.append_cancel_left heq
    refine ⟨⟨response, 1 + rest.length⟩, ?_, ?_⟩
    · exact (reads_envelopeFields response 1 _ _ hlen).2
        ⟨rest, ⟨hshort, hrest⟩, by rw [hdrop], rfl⟩
    · exact hsize.le
  · rintro ⟨d, hrun, hend⟩
    obtain ⟨bytes, ⟨hshort, rfl⟩, hpre, rfl⟩ := (reads_envelopeFields response 1 _ _ hlen).1 hrun
    rw [hdrop] at hpre
    have hend' : 1 + rest.length ≤ 1 + _ := hsize ▸ hend
    have hwhole := hpre.eq_of_length_le (Nat.le_of_add_le_add_left hend')
    exact ⟨hshort, by rw [hwhole, ← h]⟩

/-- The decoder of the envelope: its fields, and the checks behind them. -/
theorem decodeDomainError_eq : decodeDomainError = envelopeFields >>= fun r =>
    isEmpty >>= fun empty =>
      if r.2.1 > 10 ∨ r.2.2.1 > 2 ∨ (!empty) = true then
        (throw (.protocol "invalid common domain error envelope") : Decode Unit) >>= fun _ =>
          pure (.domainWire r.1 r.2.1 r.2.2.1 r.2.2.2)
      else pure (.domainWire r.1 r.2.1 r.2.2.1 r.2.2.2) := by
  simp only [decodeDomainError, envelopeFields, bind_assoc, pure_bind]

/-- What `decode_domain_error` returns behind a status of one. -/
theorem domainError_iff {response : Bytes} {code : UInt16} {cls effect : UInt8} {text : String}
    {rest : Bytes} (h : response = putU8 1 ++ rest) :
    (∃ d, decodeDomainError.run ⟨response, 1⟩ = .ok (.domainWire code cls effect text, d)) ↔
      Reports response code cls effect text := by
  rw [reports_iff h, decodeDomainError_eq]
  constructor
  · rintro ⟨d, hrun⟩
    obtain ⟨⟨code', cls', effect', text'⟩, d', hfields, hrun⟩ := bind_ok hrun
    obtain ⟨empty, d'', hempty, hrun⟩ := bind_ok hrun
    cases hempty
    split at hrun
    · cases hrun
    · rename_i hchecks
      cases hrun
      simp only [not_or, Bool.not_eq_true, Bool.not_eq_false', decide_eq_true_eq] at hchecks
      exact ⟨UInt8.not_lt.1 hchecks.1, UInt8.not_lt.1 hchecks.2.1, _, hfields, hchecks.2.2⟩
  · rintro ⟨hcls, heffect, d, hfields, hend⟩
    refine ⟨d, ?_⟩
    have hempty : isEmpty.run d = .ok (decide (d.pos ≥ d.buf.length), d) := rfl
    have hpass : ¬(cls > 10 ∨ effect > 2 ∨ (!decide (d.pos ≥ d.buf.length)) = true) := by
      simp only [not_or, Bool.not_eq_true, Bool.not_eq_false', decide_eq_true_eq]
      exact ⟨UInt8.not_lt.2 hcls, UInt8.not_lt.2 heffect, hend⟩
    rw [run_bind_of_ok hfields, run_bind_of_ok hempty, if_neg hpass]
    rfl

/-- A decoder of the status: what comes behind a zero is left to the operation. -/
def statusDecoder (other : UInt8 → FitzError) : Decode Unit := do
  let status ← getU8
  if status = 0 then return
  else if status = 1 then throw (← decodeDomainError)
  else throw (other status)

theorem success_eq (operation : String) : success operation =
    statusDecoder fun status => .protocol (operation ++ " returned status " ++ toString status) := rfl

/-- The first byte, and where the decoder goes from there. -/
theorem getU8_cases (response : Bytes) : (∃ error, getU8.run (.new response) = .error error) ∨
    ∃ status rest, response = putU8 status ++ rest ∧
      getU8.run (.new response) = .ok (status, ⟨response, 1⟩) := by
  cases hrun : getU8.run (.new response) with
  | error error => exact .inl ⟨error, rfl⟩
  | ok p =>
    obtain ⟨_, rfl, ⟨rest, hrest⟩, hd⟩ := (reads_getU8 response 0 p.1 p.2 (Nat.zero_le _)).1 hrun
    refine .inr ⟨p.1, rest, hrest.symm, ?_⟩
    rw [← Prod.eta p, hd]
    rfl

theorem putU8_append_inj {a b : UInt8} {x y : Bytes} (h : putU8 a ++ x = putU8 b ++ y) : a = b :=
  (List.cons.inj h).1

/-- A response with a status: which of its failures are a broker's is decided behind a
status of one, or of zero. -/
theorem firstByte_error_iff {α : Type} {zero one : Decode α} {other : UInt8 → FitzError}
    {response : Bytes} {code : UInt16} {cls effect : UInt8} {text : String} {P Q : Prop}
    (hother : ∀ status, (other status).Local)
    (hone : ∀ rest, response = putU8 1 ++ rest →
      (one.run ⟨response, 1⟩ = .error (.domainWire code cls effect text) ↔ P))
    (hzero : ∀ rest, response = putU8 0 ++ rest →
      (zero.run ⟨response, 1⟩ = .error (.domainWire code cls effect text) ↔ Q))
    (hP : P → ∃ rest, response = putU8 1 ++ rest) (hQ : Q → ∃ rest, response = putU8 0 ++ rest) :
    (getU8 >>= fun status => if status = 0 then zero else if status = 1 then one
      else throw (other status)).on response = .error (.domainWire code cls effect text) ↔ P ∨ Q := by
  have hread : ∀ status rest, response = putU8 status ++ rest →
      getU8.run (.new response) = .ok (status, ⟨response, 1⟩) := fun status rest h =>
    (reads_getU8 response 0 status ⟨response, 1⟩ (Nat.zero_le _)).2
      ⟨putU8 status, rfl, h ▸ List.prefix_append _ _, rfl⟩
  rw [on_error_iff]
  rcases getU8_cases response with ⟨error, hfail⟩ | ⟨status, rest, hresponse, hstatus⟩
  · have hnone : ∀ status rest, response ≠ putU8 status ++ rest := by
      intro status rest h
      rw [hread status rest h] at hfail
      cases hfail
    constructor
    · intro hrun
      rw [StateT.run_bind, hfail] at hrun
      cases hrun
      exact absurd rfl (local_getU8 _ _ hfail code cls effect text)
    · rintro (hp | hq)
      · obtain ⟨rest, hrest⟩ := hP hp
        exact absurd hrest (hnone 1 rest)
      · obtain ⟨rest, hrest⟩ := hQ hq
        exact absurd hrest (hnone 0 rest)
  have hsame : ∀ other rest', response = putU8 other ++ rest' → status = other :=
    fun other rest' h => putU8_append_inj (hresponse.symm.trans h)
  rw [run_bind_of_ok hstatus]
  by_cases hszero : status = 0
  · rw [if_pos hszero, hzero rest (hszero ▸ hresponse)]
    refine ⟨.inr, fun h => h.resolve_left fun hp => ?_⟩
    obtain ⟨rest', hrest⟩ := hP hp
    have hone := hsame 1 rest' hrest
    rw [hszero] at hone
    cases hone
  rw [if_neg hszero]
  have hnq : ¬Q := fun hq => by
    obtain ⟨rest', hrest⟩ := hQ hq
    exact hszero (hsame 0 rest' hrest)
  by_cases hsone : status = 1
  · rw [if_pos hsone, hone rest (hsone ▸ hresponse)]
    exact ⟨.inl, fun h => h.resolve_right hnq⟩
  · rw [if_neg hsone]
    constructor
    · intro h
      have herror : other status = .domainWire code cls effect text := Except.error.inj h
      exact absurd herror (hother status code cls effect text)
    · rintro (hp | hq)
      · obtain ⟨rest', hrest⟩ := hP hp
        exact absurd (hsame 1 rest' hrest) hsone
      · exact absurd hq hnq

/-- Where the data behind a status of zero are only read, an envelope decides. -/
theorem envelope_error_iff {α : Type} {zero one : Decode α} {other : UInt8 → FitzError}
    {response : Bytes} {code : UInt16} {cls effect : UInt8} {text : String} {P : Prop}
    (hzero : Local zero) (hother : ∀ status, (other status).Local)
    (hone : ∀ rest, response = putU8 1 ++ rest →
      (one.run ⟨response, 1⟩ = .error (.domainWire code cls effect text) ↔ P))
    (hP : P → ∃ rest, response = putU8 1 ++ rest) :
    (getU8 >>= fun status => if status = 0 then zero else if status = 1 then one
      else throw (other status)).on response = .error (.domainWire code cls effect text) ↔ P := by
  have hquiet : ∀ rest, response = putU8 0 ++ rest →
      (zero.run ⟨response, 1⟩ = .error (.domainWire code cls effect text) ↔ False) := fun rest _ =>
    ⟨fun hrun => hzero _ _ hrun code cls effect text rfl, False.elim⟩
  rw [firstByte_error_iff hother hone hquiet hP False.elim, or_false]

theorem Reports.one {response : Bytes} {code : UInt16} {cls effect : UInt8} {text : String}
    (h : Reports response code cls effect text) : ∃ rest, response = putU8 1 ++ rest :=
  ⟨_, h.2.2.2⟩

/-- Behind a status of one the envelope is thrown if it is whole, and only then. -/
theorem domainError_run_iff {α : Type} {response rest : Bytes} {code : UInt16} {cls effect : UInt8}
    {text : String} (hresponse : response = putU8 1 ++ rest) :
    (decodeDomainError >>= fun error => (throw error : Decode α)).run ⟨response, 1⟩ =
      .error (.domainWire code cls effect text) ↔ Reports response code cls effect text := by
  rw [← domainError_iff hresponse]
  cases hrun : decodeDomainError.run ⟨response, 1⟩ with
  | error error =>
    rw [StateT.run_bind, hrun]
    constructor
    · intro h
      cases h
      exact absurd rfl (local_decodeDomainError _ _ hrun code cls effect text)
    · rintro ⟨d, h⟩
      cases h
  | ok r =>
    have hrun' : decodeDomainError.run ⟨response, 1⟩ = .ok (r.1, r.2) := hrun
    rw [run_bind_of_ok hrun']
    constructor
    · intro h
      refine ⟨r.2, ?_⟩
      have herror : r.1 = .domainWire code cls effect text := Except.error.inj h
      rw [← herror]
    · rintro ⟨d, h⟩
      cases h
      rfl

theorem throw_bind {α β : Type} (error : FitzError) (f : α → Decode β) :
    (throw error : Decode α) >>= f = throw error := rfl

/-- What every decoder does with the status: zero goes on, one throws the envelope, others
are refused. -/
theorem statusDecoder_bind {α : Type} (other : UInt8 → FitzError) (f : Unit → Decode α) :
    statusDecoder other >>= f = getU8 >>= fun status => if status = 0 then f ()
      else if status = 1 then decodeDomainError >>= fun error => throw error
      else throw (other status) := by
  rw [statusDecoder, bind_assoc]
  refine congrArg (getU8 >>= ·) (funext fun status => ?_)
  by_cases hzero : status = 0
  · rw [if_pos hzero, if_pos hzero, pure_bind]
  · rw [if_neg hzero, if_neg hzero]
    by_cases hone : status = 1
    · rw [if_pos hone, if_pos hone, bind_assoc]
      rfl
    · rw [if_neg hone, if_neg hone, throw_bind]

/-- **A status and an envelope.** The operation fails with a broker's error exactly when the
response is one whole envelope, whatever it makes of other responses. -/
theorem status_error_iff {α : Type} {other : UInt8 → FitzError} (hother : ∀ status, (other status).Local)
    {f : Unit → Decode α} (hf : Local (f ())) {response : Bytes} {code : UInt16} {cls effect : UInt8}
    {text : String} :
    (statusDecoder other >>= f).on response = .error (.domainWire code cls effect text) ↔
      Reports response code cls effect text := by
  rw [statusDecoder_bind]
  exact envelope_error_iff hf hother (fun rest h => domainError_run_iff h) Reports.one

/-! ## Stream responses -/

/-- What a stream response holds behind a status of zero. -/
def streamData (operation : String) (buf : Bytes) : Decode StreamResponsePayload := do
  if operation = "BEGIN" then return ⟨some (← getU64), ← getBytes⟩
  else if operation = "APPEND" ∨ operation = "COMMIT" then return ⟨none, ← getBytes⟩
  else if operation = "ROLLBACK" ∨ operation = "UNSUBSCRIBE" then return ⟨none, []⟩
  else if operation = "LAST" ∨ operation = "METADATA" then return ⟨none, buf.drop 1⟩
  else
    let hasSessionId ← getU8
    if hasSessionId = 0 then return ⟨none, ← getBytes⟩
    else if hasSessionId = 1 then return ⟨some (← getU64), ← getBytes⟩
    else
      throw (.protocol (operation ++ " response has invalid optional-id flag: " ++
        toString hasSessionId))

/-- What is behind a status of one. -/
def streamError (operation : String) : Decode StreamResponsePayload := do
  let (code, cls, effect, message) ← envelopeFields
  if cls > 10 ∨ effect > 2 then
    throw (.protocol (operation ++ " error response has invalid class or effect"))
  if (← remaining) ≠ 0 then
    throw (.protocol (operation ++ " error response has trailing data"))
  throw (.domainWire code cls effect (operation ++ " failed: " ++ message))

/-- The response of a stream by its status. -/
theorem decodeStreamResponse_eq_data (operation : String) (buf : Bytes) :
    decodeStreamResponse operation buf = Decode.on (getU8 >>= fun status =>
      if status = 0 then streamData operation buf
      else if status = 1 then streamError operation
      else throw (.protocol (operation ++ " failed with unknown status byte: " ++ toString status)))
        buf := by
  simp only [decodeStreamResponse, streamData, streamError, envelopeFields, bind_assoc, pure_bind]

theorem local_streamData (operation : String) (buf : Bytes) : Local (streamData operation buf) := by
  have hsome : Local (do return (⟨some (← getU64), ← getBytes⟩ : StreamResponsePayload)) :=
    local_getU64.bind fun _ => local_getBytes.bind fun _ => local_pure _
  have hnone : Local (do return (⟨none, ← getBytes⟩ : StreamResponsePayload)) :=
    local_getBytes.bind fun _ => local_pure _
  refine hsome.ite (hnone.ite ((local_pure _).ite ((local_pure _).ite ?_)))
  refine local_getU8.bind fun flag => hnone.ite (hsome.ite (local_throw (local_protocol _)))

/-- The envelope of a stream is decoded by the same fields, with the name of the operation
in its errors. -/
theorem streamError_eq (operation : String) : streamError operation = envelopeFields >>= fun r =>
    if r.2.1 > 10 ∨ r.2.2.1 > 2 then
      throw (.protocol (operation ++ " error response has invalid class or effect"))
    else remaining >>= fun left =>
      if left ≠ 0 then throw (.protocol (operation ++ " error response has trailing data"))
      else throw (.domainWire r.1 r.2.1 r.2.2.1 (operation ++ " failed: " ++ r.2.2.2)) := by
  refine congrArg (envelopeFields >>= ·) (funext fun r => ?_)
  obtain ⟨code, cls, effect, text⟩ := r
  by_cases hchecks : cls > 10 ∨ effect > 2
  · simp only [hchecks, if_true, throw_bind]
  · simp only [hchecks, if_false]
    refine congrArg (remaining >>= ·) (funext fun left => ?_)
    by_cases hleft : left ≠ 0
    · rw [if_pos hleft, if_pos hleft]
      rfl
    · rw [if_neg hleft, if_neg hleft]

theorem local_envelopeFields : Local envelopeFields :=
  local_getU16.bind fun _ => local_getU8.bind fun _ => local_getU8.bind fun _ =>
    local_getString.bind fun _ => local_pure _

/-- The operation of a stream puts its name before the text. -/
theorem stream_error_iff {operation : String} {response : Bytes} {code : UInt16} {cls effect : UInt8}
    {message : String} :
    decodeStreamResponse operation response = .error (.domainWire code cls effect message) ↔
      ∃ text, Reports response code cls effect text ∧ message = operation ++ " failed: " ++ text := by
  rw [decodeStreamResponse_eq_data]
  refine envelope_error_iff (local_streamData _ _) (fun _ => local_protocol _) (fun rest h => ?_)
    fun ⟨text, h, _⟩ => h.one
  simp only [reports_iff h, streamError_eq]
  have hleft : ∀ d : PayloadDecoder, remaining.run d = .ok (d.buf.length - d.pos, d) := fun _ => rfl
  constructor
  · intro hrun
    rcases bind_error hrun with hrun | ⟨⟨code', cls', effect', text⟩, d, hfields, hrun⟩
    · exact absurd rfl (local_envelopeFields _ _ hrun code cls effect message)
    split at hrun
    · cases hrun
    rename_i hchecks
    rw [run_bind_of_ok (hleft d)] at hrun
    split at hrun
    · cases hrun
    rename_i hend
    cases hrun
    simp only [not_or] at hchecks
    exact ⟨text, ⟨UInt8.not_lt.1 hchecks.1, UInt8.not_lt.1 hchecks.2, d, hfields, by omega⟩, rfl⟩
  · rintro ⟨text, ⟨hcls, heffect, d, hfields, hend⟩, rfl⟩
    have hchecks : ¬(cls > 10 ∨ effect > 2) := by
      rw [not_or]
      exact ⟨UInt8.not_lt.2 hcls, UInt8.not_lt.2 heffect⟩
    have hnone : ¬d.buf.length - d.pos ≠ 0 := by omega
    rw [run_bind_of_ok hfields, if_neg hchecks, run_bind_of_ok (hleft d), if_neg hnone]
    rfl

/-! ## The other parts of a response -/

/-- The outcome is no broker's error. -/
def Unreported {α : Type} (x : Result α) : Prop := ∀ error, x = .error error → error.Local

theorem unreported_ok {α : Type} (a : α) : Unreported (.ok a : Result α) := by
  intro error h
  cases h

theorem unreported_invalid {α : Type} (message : String) : Unreported (invalid message : Result α) := by
  intro error h
  cases h
  exact local_protocol message

/-- Two steps fail with no broker's error if neither does. -/
theorem Unreported.bind {α β : Type} {x : Result α} {f : α → Result β} (hx : Unreported x)
    (hf : ∀ a, Unreported (f a)) : Unreported (x >>= f) := by
  intro error h
  cases hcase : x with
  | error e =>
    rw [hcase] at h
    cases h
    exact hx _ hcase
  | ok a =>
    rw [hcase] at h
    exact hf a error h

/-- So a decoder that throws none returns none. -/
theorem Decode.Local.on {α : Type} {m : Decode α} (h : Local m) (buf : Bytes) : Unreported (m.on buf) :=
  fun error herror => h _ error (on_error herror)

theorem unreported_scanSegments (segments : List Bytes) (shape : Shape) (prev : Bool) :
    Unreported (scanSegments segments shape prev) := by
  induction segments generalizing shape prev with
  | nil => exact unreported_ok shape
  | cons segment rest ih =>
    simp only [scanSegments]
    split
    · exact unreported_invalid _
    split
    · split
      · exact unreported_invalid _
      · exact ih _ _
    split
    · exact unreported_invalid _
    · exact ih _ _

/-- A route that is refused is refused by the client. -/
theorem unreported_scan (route scheme : String) : Unreported (scan route scheme) := by
  simp only [scan]
  split
  · exact unreported_invalid _
  split
  · exact unreported_invalid _
  · exact unreported_scanSegments _ _ _

theorem unreported_classify (route : String) : Unreported (classifyStreamSelector route) := by
  have hscope : ∀ segments, Unreported (selectorScope segments) := by
    intro segments
    unfold selectorScope
    split
    · split
      · exact unreported_ok _
      · exact unreported_invalid _
    · split
      · exact unreported_ok _
      · exact unreported_invalid _
    · exact unreported_invalid _
  unfold classifyStreamSelector
  split
  · exact unreported_ok _
  · exact (unreported_scan _ _).bind fun _ => hscope _

/-- A route in a response is checked in the same way. -/
theorem unreported_validateResponse (route scheme operation : String) (segments : ℕ) :
    Unreported (validateResponseFixedRoute route scheme segments operation) := by
  intro error h
  unfold validateResponseFixedRoute at h
  cases hcase : validateFixedRoute route scheme segments with
  | ok u =>
    rw [hcase] at h
    cases h
  | error e =>
    rw [hcase] at h
    cases h
    exact local_protocol _

theorem local_optionalU64 : Local decodeOptionalU64 :=
  local_optionalField (fun _ => local_protocol _) local_getU64

theorem local_optionalBytes : Local decodeOptionalBytes :=
  local_optionalField (fun _ => local_protocol _) local_getBytes

theorem local_globalU64 (global : Bool) : Local (decodeGlobalU64 global) :=
  local_optionalU64.ite (local_pure _)

/-- A loop of one item a pass. -/
theorem local_loop {α : Type} {item : Decode α} (h : Local item) (loop : ℕ → Decode (List α))
    (hzero : loop 0 = pure []) (hsucc : ∀ n, loop (n + 1) = do return (← item) :: (← loop n)) (n : ℕ) :
    Local (loop n) := by
  induction n with
  | zero =>
    rw [hzero]
    exact local_pure _
  | succ n ih =>
    rw [hsucc]
    exact h.bind fun _ => ih.bind fun _ => local_pure _

/-- The count of a SCAN behind its status. -/
def scanCount : Decode ℕ := do
  let count ← getU32
  let available ← remaining
  let maximumCount := (available - 1) / 8
  let capacity := count.toNat
  if capacity > maximumCount then
    throw (.protocol ("KV SCAN item count " ++ toString count ++
      " exceeds the remaining response payload"))
  return capacity

/-- A SCAN behind its status. -/
def scanBody : Decode KvScanPage := do
  let pairs ← scanPairs (← scanCount)
  let hasMore ← flagField fun flag =>
    .protocol ("KV SCAN returned invalid has_more flag " ++ toString flag)
  if !(← isEmpty) then throw (.protocol "KV SCAN response contains trailing bytes")
  return ⟨pairs, hasMore⟩

theorem decodeScanResponse_body : decodeScanResponse = success "KV SCAN" >>= fun _ => scanBody := by
  have hcapacity : scanCapacity = success "KV SCAN" >>= fun _ => scanCount := rfl
  rw [decodeScanResponse, hcapacity, bind_assoc]
  rfl

/-- The pages behind a success: no broker's error comes from them. -/
theorem local_scanBody : Local scanBody := by
  have hpair : Local scanPair := local_getBytes.bind fun _ => local_getBytes.bind fun _ => local_pure _
  have hcount : Local scanCount := by
    refine local_getU32.bind fun count => local_remaining.bind fun available => ?_
    exact Local.ite ((local_throw (local_protocol _)).bind fun _ => local_pure _) (local_pure _)
  refine hcount.bind fun count => (local_loop hpair scanPairs rfl (fun _ => rfl) _).bind fun pairs => ?_
  exact (local_flagField fun _ => local_protocol _).bind fun hasMore => local_ended _ _

theorem local_listPage : Local decodeListPage := by
  have hitem : Local listItem := local_getString.bind fun _ => local_getString.bind fun _ =>
    local_getU64.bind fun _ => local_getString.bind fun _ => local_getU64.bind fun _ =>
      local_getU32.bind fun _ => local_pure _
  have hcursor : Local (do return some (⟨← getU64, ← getU32⟩ : LeaseListCursor)) :=
    local_getU64.bind fun _ => local_getU32.bind fun _ => local_pure _
  refine local_getU32.bind fun count => ?_
  refine (local_loop hitem listItems rfl (fun _ => rfl) _).bind fun items => ?_
  refine local_getU8.bind fun hasNext => ?_
  split
  · exact local_ended _ _
  split
  · exact local_getU64.bind fun _ => local_getU32.bind fun _ => local_ended _ _
  · exact (local_throw (local_protocol _)).bind fun _ => local_ended _ _

theorem local_deliveryMode : Local decodeDeliveryMode := by
  refine local_getU8.bind fun mode => ?_
  exact (local_pure _).ite ((local_pure _).ite (local_throw (local_protocol _)))

theorem local_scheduleEntries (passes : ℕ) : Local (scheduleEntries passes) := by
  have hentry : Local scheduleEntry := local_getString.bind fun _ => local_getString.bind fun _ =>
    local_deliveryMode.bind fun _ => local_getBytes.bind fun _ => local_pure _
  induction passes with
  | zero => exact local_throw (local_codec _)
  | succ passes ih =>
    refine local_getU8.bind fun flag => (local_pure _).ite ?_
    exact (hentry.bind fun _ => ih.bind fun _ => local_pure _).ite (local_throw (local_protocol _))

theorem local_cursorPage : Local decodeCursorPage := by
  refine local_getU8.bind fun version => ?_
  refine Local.ite ((local_throw (local_protocol _)).bind fun _ => ?_) ?_
  all_goals
    refine (local_flagField fun _ => local_protocol _).bind fun hasMore => ?_
    refine (local_optionalField (fun _ => local_protocol _) local_getString).bind fun _ => ?_
    refine local_remaining.bind fun left => (local_scheduleEntries left).bind fun entries => ?_
    exact local_ended _ _

theorem local_streamRecord (route : String) (global : Bool) : Local (decodeStreamRecord route global) :=
  local_getU64.bind fun _ => local_optionalU64.bind fun _ => local_optionalU64.bind fun _ =>
    (local_globalU64 global).bind fun _ => local_getBytes.bind fun _ =>
      local_optionalBytes.bind fun _ => local_getU64.bind fun _ => local_pure _

theorem local_filteredReason : Local decodeStreamFilteredReason := by
  refine local_getU8.bind fun tag => (local_pure _).ite ((local_pure _).ite ((local_pure _).ite ?_))
  exact (local_pure _).ite (local_throw (local_protocol _))

theorem local_readPage (global : Bool) : Local (decodeStreamReadPage global) := by
  have hread : ∀ route, Local (decodeStreamReadItem route global) := by
    intro route
    refine local_getU8.bind fun tag => Local.ite ((local_streamRecord route global).bind fun _ =>
      local_pure _) (Local.ite ?_ (Local.ite ?_ (local_throw (local_protocol _))))
    · exact local_getU64.bind fun _ => local_filteredReason.bind fun _ => local_pure _
    · exact local_getU64.bind fun _ => local_getU64.bind fun _ => local_filteredReason.bind fun _ =>
        local_pure _
  have hitem : Local (readPageItem global) := by
    refine local_getString.bind fun route => ?_
    cases hvalid : validateResponseFixedRoute route "stream" 3 "READ" with
    | ok u => exact hread route
    | error e => exact local_throw (unreported_validateResponse _ _ _ _ e hvalid)
  have hcursor : Local (decodeStreamReadCursor global) :=
    local_getU64.bind fun _ => local_optionalU64.bind fun _ => local_optionalU64.bind fun _ =>
      (local_globalU64 global).bind fun _ => (local_flagField fun _ => local_protocol _).bind fun _ =>
        (local_globalU64 global).bind fun _ => (local_globalU64 global).bind fun _ => local_pure _
  refine (local_getU32.bind fun _ => local_pure _).bind fun count => ?_
  refine (local_loop hitem (readPageItems global) rfl (fun _ => rfl) count).bind fun items => ?_
  exact hcursor.bind fun cursor => local_ended _ _

theorem local_reservedItems (route : String) (generation : UInt64) (count : ℕ) :
    Local (reservedItems route generation count) := by
  have hroute : Local (reservedRoute route) := by
    refine Local.ite (local_getString.bind fun concrete => ?_) (local_pure _)
    refine Decode.Local.bind ?_ fun _ => local_pure _
    intro d error h
    cases hvalid : validateResponseFixedRoute concrete "queue" 3 "RESERVE" with
    | ok u =>
      rw [hvalid] at h
      cases h
    | error e =>
      rw [hvalid] at h
      cases h
      exact unreported_validateResponse _ _ _ _ _ hvalid
  induction count with
  | zero => exact local_pure _
  | succ count ih =>
    exact hroute.bind fun _ => local_getU64.bind fun _ => local_getU64.bind fun _ =>
      local_getBytes.bind fun _ => ih.bind fun _ => local_pure _

theorem local_streamMetadata : Local decodeStreamMetadata :=
  local_optionalU64.bind fun _ => local_optionalU64.bind fun _ => local_getU64.bind fun _ =>
    local_getU64.bind fun _ => local_getU64.bind fun _ => local_optionalU64.bind fun _ =>
      local_getU64.bind fun _ => local_getU64.bind fun _ => local_pure _

/-! ## The operations -/

/-- What is made of a success behind the status adds no error. -/
theorem map_error_iff {α β : Type} {x : Result α} {f : α → Result β} {error : FitzError}
    (hf : ∀ a, f a ≠ .error error) : x >>= f = .error error ↔ x = .error error := by
  cases x with
  | error e =>
    constructor
    · intro h
      cases h
      rfl
    · intro h
      cases h
      rfl
  | ok a =>
    constructor
    · intro h
      exact absurd h (hf a)
    · intro h
      cases h

variable {response : Bytes} {code : UInt16} {cls effect : UInt8} {message : String}

/-- A local step after a response was decoded. -/
theorem bind_reported_iff {α β : Type} {x : Result α} {f : α → Result β} {P : Prop}
    (hx : x = .error (.domainWire code cls effect message) ↔ P) (hf : ∀ a, Unreported (f a)) :
    x >>= f = .error (.domainWire code cls effect message) ↔ P := by
  rw [map_error_iff fun a h => hf a _ h code cls effect message rfl]
  exact hx

/-- An operation whose response is a status and data. -/
theorem success_error_iff {α : Type} (operation : String) {f : Unit → Decode α} (hf : Local (f ())) :
    (success operation >>= f).on response = .error (.domainWire code cls effect message) ↔
      Reports response code cls effect message :=
  status_error_iff (fun _ => local_protocol _) hf

/-- The three decoders that look at the status alone report what the envelope says. -/
theorem decodeOk_error_iff : decodeOk response = .error (.domainWire code cls effect message) ↔
    Reports response code cls effect message := by
  have h : (statusDecoder (fun status => .protocol ("unknown response status " ++ toString status)) >>=
      fun u => pure u).on response = .error (.domainWire code cls effect message) ↔
        Reports response code cls effect message :=
    status_error_iff (fun _ => local_protocol _) (local_pure ())
  rwa [bind_pure] at h

theorem queuePlainOk_error_iff :
    decodeQueuePlainOk response = .error (.domainWire code cls effect message) ↔
      Reports response code cls effect message := by
  refine success_error_iff "Queue operation" ?_
  refine local_isEmpty.bind fun empty => ?_
  exact (local_throw (local_protocol _)).ite (local_pure _)

theorem success_only_error_iff (operation : String) :
    (success operation).on response = .error (.domainWire code cls effect message) ↔
      Reports response code cls effect message := by
  have h : (success operation >>= fun u => pure u).on response =
      .error (.domainWire code cls effect message) ↔ Reports response code cls effect message :=
    success_error_iff operation (local_pure ())
  rwa [bind_pure] at h

/-- What the broker's text becomes: the operations of a stream put their name before it. -/
def DomainCall.report (c : DomainCall) (text : String) : String :=
  match c with
  | .opening (.streamBegin _ _) => "BEGIN failed: " ++ text
  | .operation _ (.streamAppend _ _ _ _) => "APPEND failed: " ++ text
  | .operation _ (.streamCommit _) => "COMMIT failed: " ++ text
  | .operation _ .streamRollback => "ROLLBACK failed: " ++ text
  | .subscribe .stream _ => "SUBSCRIBE failed: " ++ text
  | .unsubscribe .stream _ _ => "UNSUBSCRIBE failed: " ++ text
  | .readPage _ _ _ _ => "READ failed: " ++ text
  | .peek _ => "LAST failed: " ++ text
  | .metadata _ => "METADATA failed: " ++ text
  | _ => text

/-- The acquisition was accepted, but not at once, and the caller does not wait: the client
itself makes this a broker's error. -/
def NotAcquired (waitSeconds : UInt32) (response : Bytes) : Prop :=
  ∃ kind rest, response = 0 :: kind :: rest ∧ 2 ≤ kind ∧ kind ≠ 3 ∧ ¬(kind = 2 ∧ waitSeconds > 0)

def DomainCall.NotAcquired : DomainCall → Bytes → Prop
  | .opening (.leaseAcquire _ _ _ waitSeconds) => Fitz.NotAcquired waitSeconds
  | _ => fun _ => False

/-- An operation that leaves the text of the envelope as it is. -/
theorem plain_text {P : Prop} (h : P ↔ Reports response code cls effect message) :
    P ↔ ∃ text, Reports response code cls effect text ∧ message = text := by
  rw [h]
  constructor
  · exact fun h => ⟨message, h, rfl⟩
  · rintro ⟨text, h, rfl⟩
    exact h

/-- The operations of handles. -/
theorem Operation.reports {op : Operation} {handle : Handle} {decode : Bytes → Result CallResult}
    (h : op.decode = some decode) :
    decode response = .error (.domainWire code cls effect message) ↔
      ∃ text, Reports response code cls effect text ∧
        message = (DomainCall.operation handle op).report text := by
  cases op with
  | kvGet key =>
    cases h
    refine plain_text (bind_reported_iff (success_error_iff "KV GET" ?_) fun _ => unreported_ok _)
    refine local_getU8.bind fun found => ?_
    exact (local_getBytes.bind fun _ => local_pure _).ite (local_pure _)
  | kvPut | kvInsert | kvDelete | kvDeleteRange | kvCommit | kvRollback =>
    cases h
    exact plain_text (bind_reported_iff decodeOk_error_iff fun _ => unreported_ok _)
  | kvScan options =>
    cases h
    refine plain_text (bind_reported_iff ?_ fun _ => unreported_ok _)
    rw [decodeScanResponse_body]
    exact success_error_iff "KV SCAN" local_scanBody
  | streamAppend expectedOffset body metadata discriminator =>
    cases h
    refine bind_reported_iff stream_error_iff fun decoded => Unreported.bind ?_ fun _ => unreported_ok _
    unfold appendedOffset
    split
    · exact unreported_ok _
    · exact (local_getU64.on _).bind fun _ => unreported_ok _
  | streamCommit mode =>
    cases h
    exact bind_reported_iff stream_error_iff fun _ => unreported_ok _
  | streamRollback =>
    cases h
    exact bind_reported_iff stream_error_iff fun _ => unreported_ok _
  | leaseExtend ttlSecs =>
    cases h
    exact plain_text (bind_reported_iff (success_error_iff "Lease RENEW" local_getU64)
      fun _ => unreported_ok _)
  | leaseRelease =>
    cases h
    exact plain_text (bind_reported_iff (success_only_error_iff "Lease RELEASE") fun _ => unreported_ok _)
  | leaseDrop => cases h
  | queueExtend | queueComplete | queueNack =>
    cases h
    exact plain_text (bind_reported_iff queuePlainOk_error_iff fun _ => unreported_ok _)

/-- SUBSCRIBE, by domain. -/
theorem Topic.subscription_reports {topic : Topic} {pattern : String} :
    topic.decodeSubscriptionId response = .error (.domainWire code cls effect message) ↔
      ∃ text, Reports response code cls effect text ∧
        message = (DomainCall.subscribe topic pattern).report text := by
  have hrefused : ∀ (text : String) (rest : Decode UInt64), Local rest →
      Local ((throw (.protocol text) : Decode Unit) >>= fun _ => rest) := fun text rest hrest =>
    (local_throw (local_protocol _)).bind fun _ => hrest
  cases topic with
  | kv => exact plain_text (success_error_iff "KV SUBSCRIBE" local_getU64)
  | queue =>
    refine plain_text (success_error_iff "Queue SUBSCRIBE" ?_)
    exact local_getU8.bind fun flag => (hrefused _ _ local_getU64).ite local_getU64
  | lease =>
    refine plain_text (success_error_iff "Lease SUBSCRIBE" ?_)
    exact local_getU64.bind fun id => local_ended _ _
  | notice =>
    refine plain_text (success_error_iff "NOTICE SUBSCRIBE" ?_)
    refine local_remaining.bind fun left => Local.ite ?_ local_getU64
    exact local_getU8.bind fun flag => (hrefused _ _ local_getU64).ite local_getU64
  | stream =>
    refine bind_reported_iff stream_error_iff fun decoded => ?_
    cases decoded.sessionId with
    | none => exact unreported_invalid _
    | some id => exact unreported_ok _
  | schedule =>
    refine plain_text (success_error_iff "Schedule SUBSCRIBE" ?_)
    refine local_getU8.bind fun flag => Local.ite ?_ ?_
    · exact hrefused _ _ (local_getU64.bind fun id => local_ended _ _)
    · exact local_getU64.bind fun id => local_ended _ _

/-- UNSUBSCRIBE, by domain. -/
theorem Topic.unsubscribe_reports {topic : Topic} {pattern : String} {wireId : UInt64} :
    topic.decodeUnsubscribe response = .error (.domainWire code cls effect message) ↔
      ∃ text, Reports response code cls effect text ∧
        message = (DomainCall.unsubscribe topic pattern wireId).report text := by
  cases topic with
  | kv | notice => exact plain_text decodeOk_error_iff
  | queue => exact plain_text queuePlainOk_error_iff
  | lease => exact plain_text (success_only_error_iff "Lease UNSUBSCRIBE")
  | stream => exact bind_reported_iff stream_error_iff fun _ => unreported_ok _
  | schedule =>
    refine plain_text (success_error_iff "Schedule UNSUBSCRIBE" ?_)
    refine local_isEmpty.bind fun empty => ?_
    exact (local_throw (local_protocol _)).ite (local_pure _)

/-- What an ACQUIRE says behind its status. -/
def acquiredBody (waitSeconds : UInt32) : Decode (Option UInt64) := do
  let kind ← getU8
  if kind = 3 then throw .leaseAlreadyQueued
  else if kind < 2 then return some (← getU64)
  else if kind = 2 ∧ waitSeconds > 0 then return none
  else throw (.domainWire 5050 0 0 "lease acquisition queued")

/-- ACQUIRE, with the refusal that the client makes up. -/
theorem acquire_reports {waitSeconds : UInt32} :
    acquireKind waitSeconds response = .error (.domainWire code cls effect message) ↔
      Reports response code cls effect message ∨ NotAcquired waitSeconds response ∧
        FitzError.domainWire code cls effect message =
          .domainWire 5050 0 0 "lease acquisition queued" := by
  have heq : acquireKind waitSeconds response =
      (success "Lease ACQUIRE" >>= fun _ => acquiredBody waitSeconds).on response := rfl
  rw [heq, success_eq, statusDecoder_bind]
  refine firstByte_error_iff (fun _ => local_protocol _) (fun rest h => domainError_run_iff h)
    (fun rest hresponse => ?_) Reports.one fun ⟨⟨kind, rest, h, _⟩, _⟩ => ⟨kind :: rest, h⟩
  have hlen : 1 ≤ response.length := by
    rw [hresponse]
    exact Nat.le_add_left 1 rest.length
  have hdrop : response.drop 1 = rest := by
    rw [hresponse]
    rfl
  constructor
  · intro hrun
    rcases bind_error hrun with hrun | ⟨kind, d, hkind, hrun⟩
    · exact absurd rfl (local_getU8 _ _ hrun code cls effect message)
    obtain ⟨_, rfl, ⟨after, hafter⟩, -⟩ := (reads_getU8 response 1 kind d hlen).1 hkind
    rw [hdrop] at hafter
    split at hrun
    · cases hrun
    rename_i hthree
    split at hrun
    · rcases bind_error hrun with hrun | ⟨token, d', -, hrun⟩
      · exact absurd rfl (local_getU64 _ _ hrun code cls effect message)
      · cases hrun
    rename_i htwo
    split at hrun
    · cases hrun
    rename_i hwait
    cases hrun
    exact ⟨⟨kind, after, by rw [hresponse, ← hafter]; rfl, UInt8.not_lt.1 htwo, hthree, hwait⟩, rfl⟩
  · rintro ⟨⟨kind, after, hkind, htwo, hthree, hwait⟩, herror⟩
    have hread := (reads_getU8 response 1 kind ⟨response, 1 + (putU8 kind).length⟩ hlen).2
      ⟨putU8 kind, rfl, by rw [hkind]; exact List.prefix_append [kind] after, rfl⟩
    rw [acquiredBody, run_bind_of_ok hread, if_neg hthree, if_neg (UInt8.not_lt.2 htwo), if_neg hwait,
      herror]
    rfl

/-- An operation that never makes up an error, and the text it reports. -/
theorem named_reports {P Q : Prop} (h : P ↔ Q) :
    P ↔ Q ∨ False ∧ FitzError.domainWire code cls effect message =
      .domainWire 5050 0 0 "lease acquisition queued" := by
  rw [h, false_and, or_false]

theorem plain_reports {P : Prop} (h : P ↔ Reports response code cls effect message) :
    P ↔ (∃ text, Reports response code cls effect text ∧ message = text) ∨
      False ∧ FitzError.domainWire code cls effect message =
        .domainWire 5050 0 0 "lease acquisition queued" :=
  named_reports (plain_text h)

/-- The calls that open a handle. -/
theorem Opening.reports {o : Opening} {generation : UInt64} {decode : Bytes → Result CallResult}
    (h : (DomainCall.opening o).decode generation = some decode) :
    decode response = .error (.domainWire code cls effect message) ↔
      (∃ text, Reports response code cls effect text ∧
        message = (DomainCall.opening o).report text) ∨
        (DomainCall.opening o).NotAcquired response ∧
          FitzError.domainWire code cls effect message =
            .domainWire 5050 0 0 "lease acquisition queued" := by
  cases h
  cases o with
  | kvBegin route mode =>
    refine plain_reports (bind_reported_iff (success_error_iff "KV BEGIN" ?_) fun _ => unreported_ok _)
    exact local_getU64.bind fun id => local_pure _
  | streamBegin route ingestMetadata =>
    refine named_reports (bind_reported_iff (bind_reported_iff stream_error_iff fun decoded => ?_)
      fun _ => unreported_ok _)
    cases decoded.sessionId with
    | none => exact unreported_invalid _
    | some id => exact unreported_ok _
  | leaseAcquire route ownerId ttlSecs waitSeconds =>
    have hkind : acquireKind waitSeconds response = .error (.domainWire code cls effect message) ↔ _ :=
      acquire_reports
    refine Iff.trans ?_ (hkind.trans (or_congr_left (plain_text Iff.rfl)))
    simp only [Opening.handles]
    cases acquireKind waitSeconds response with
    | error error =>
      constructor
      · intro h
        cases h
        rfl
      · intro h
        cases h
        rfl
    | ok token =>
      constructor
      · intro h
        cases token with
        | none => cases h
        | some token => cases h
      · intro h
        cases h
  | queueReserve route leaseSeconds batchSize waitSeconds =>
    refine plain_reports (bind_reported_iff (success_error_iff "Queue RESERVE" ?_) fun _ => unreported_ok _)
    refine local_isEmpty.bind fun empty => (local_pure _).ite ?_
    exact local_getU32.bind fun count => (local_reservedItems _ _ _).bind fun items => local_pure _

/-- **A broker's error reaches the caller, and no other error is taken for one.** Whatever the
operation and whatever the response, the operation fails with a broker's error exactly when
the response is one whole envelope, and the error is the one in the envelope; the operations
of a stream put their name before its text. The one error that the client makes up is that
of an acquisition the caller does not wait for. -/
theorem broker_errors_exact (c : DomainCall) (generation : UInt64) (decode : Bytes → Result CallResult)
    (h : c.decode generation = some decode) (response : Bytes) (code : UInt16) (cls effect : UInt8)
    (message : String) :
    decode response = .error (.domainWire code cls effect message) ↔
      (∃ text, Reports response code cls effect text ∧ message = c.report text) ∨
        c.NotAcquired response ∧ FitzError.domainWire code cls effect message =
          .domainWire 5050 0 0 "lease acquisition queued" := by
  cases c with
  | opening o => exact Opening.reports h
  | operation handle op => exact named_reports (Operation.reports h)
  | subscribe topic pattern =>
    cases h
    exact named_reports (bind_reported_iff topic.subscription_reports fun _ => unreported_ok _)
  | unsubscribe topic pattern wireId =>
    cases h
    exact named_reports (bind_reported_iff topic.unsubscribe_reports fun _ => unreported_ok _)
  | enqueue route body options =>
    cases h
    refine plain_reports (bind_reported_iff (success_error_iff "Queue ENQUEUE" ?_) fun _ => unreported_ok _)
    exact local_isEmpty.bind fun empty => (local_pure _).ite local_getU64
  | leaseList pattern cursor limit =>
    cases h
    exact plain_reports (bind_reported_iff (success_error_iff "Lease LIST" local_listPage)
      fun _ => unreported_ok _)
  | leaseQuery route =>
    cases h
    refine plain_reports (bind_reported_iff (success_error_iff "Lease QUERY" ?_) fun _ => unreported_ok _)
    refine local_getU8.bind fun held => Local.ite ?_ (local_getU32.bind fun _ => local_pure _)
    exact local_getString.bind fun _ => local_getU64.bind fun _ => local_getU32.bind fun _ => local_pure _
  | publishWithAck | unsubscribeAll | registerWorker | deregister =>
    cases h
    exact plain_reports (bind_reported_iff decodeOk_error_iff fun _ => unreported_ok _)
  | readPage route startOffset limit options =>
    cases h
    refine named_reports (bind_reported_iff stream_error_iff fun decoded =>
      Unreported.bind ?_ fun _ => unreported_ok _)
    refine (unreported_classify route).bind fun scope => ?_
    change Unreported (if decoded.data = [] then _ else _)
    split
    · exact unreported_ok _
    · exact (local_readPage _).on _
  | peek route =>
    cases h
    refine named_reports (bind_reported_iff stream_error_iff fun decoded =>
      Unreported.bind ?_ fun _ => unreported_ok _)
    unfold parseStreamLastResponse
    split
    · exact unreported_ok _
    · refine (unreported_validateResponse _ _ _ _).bind fun _ => Decode.Local.on ?_ _
      exact (local_streamRecord route false).bind fun record => local_ended _ _
  | metadata route =>
    cases h
    refine named_reports (bind_reported_iff stream_error_iff fun decoded =>
      Unreported.bind ?_ fun _ => unreported_ok _)
    unfold streamMetadata
    split
    · exact unreported_ok _
    · exact local_streamMetadata.on _
  | create | createBatch | cancelSchedule =>
    cases h
    refine plain_reports (bind_reported_iff (success_error_iff _ ?_) fun _ => unreported_ok _)
    refine local_isEmpty.bind fun empty => ?_
    exact (local_throw (local_protocol _)).ite (local_pure _)
  | listV2 continuation limit =>
    cases h
    exact plain_reports (bind_reported_iff (success_error_iff "Schedule LIST_V2" local_cursorPage)
      fun _ => unreported_ok _)
  | publish | call | respond | cancelCall | cleanup => cases h

/-- A QUERY that was refused. -/
theorem broker_errors_exact_query :
    ((DomainCall.leaseQuery "lease://a/b/c").decode 1).map
      (fun decode => decode [1, 19, 186, 3, 1, 0, 0, 0, 0]) =
        some (.error (.domainWire 5050 3 1 "")) := by
  have hreports : Reports [1, 19, 186, 3, 1, 0, 0, 0, 0] 5050 3 1 "" :=
    ⟨by decide, by decide, by decide +kernel, by decide +kernel⟩
  exact congrArg some ((broker_errors_exact (.leaseQuery "lease://a/b/c") 1 _ rfl
    [1, 19, 186, 3, 1, 0, 0, 0, 0] 5050 3 1 "").2 (.inl ⟨"", hreports, rfl⟩))

end Fitz
