import Fitz.Model.Renewal
import Fitz.Proof.Fields
import Fitz.Proof.Sessions

/-!
# Uncertain renewals

A handle goes stale by its generation or by its `release` only, and an `extend` that
ends without a verdict changes neither. `renewals_stale`: in every run in which each
such end finds the generation moved on from that of the handle, nothing is requested
for the handle afterwards, and every later call is told that it is stale.
-/

namespace Fitz

open Machine

namespace Leased

variable {cfg : Config} {s : Leased} {b : ℕ}

/-- An `extend` ends without a verdict. -/
def loses (s : Leased) : LeasedEvent → Bool
  | .returned error =>
    match s.stage with
    | .awaiting (.extend _) t => !renewalVerdict ((s.conn.settled t).getD (.error error))
    | _ => false
  | .cancelled =>
    match s.stage with
    | .awaiting (.extend _) t => s.conn.enqueued t
    | _ => false
  | _ => false

/-- An `extend` that ends without a verdict finds the connection at another generation,
and the counter does not wrap. -/
def Parted (s : Leased) (e : LeasedEvent) : Prop :=
  s.conn.bumps < 2 ^ 64 ∧
    (s.loses e = true → s.conn.shared.generation ≠ s.handle.generation)

instance : ∀ (s : Leased) (e : LeasedEvent), Decidable (s.Parted e) := fun s e =>
  inferInstanceAs (Decidable (s.conn.bumps < 2 ^ 64 ∧
    (s.loses e = true → s.conn.shared.generation ≠ s.handle.generation)))

end Leased

/-- Nothing is requested, and a call returns that the handle is stale. -/
def LeasedAct.Refused : LeasedAct → Prop
  | .requested .. => False
  | .returned _ result => result = .error .staleHandle
  | .uncertain => True

/-- An act that follows an uncertain end. -/
def AfterUncertain (before : List LeasedAct) (act : LeasedAct) : Prop :=
  .uncertain ∈ before → act.Refused

namespace Leased

variable {cfg : Config} {s : Leased} {b : ℕ}

/-! ## The invariant -/

/-- The handle was built at `b` bumps, and there are more of them once an `extend` has
ended uncertain. -/
structure PartingInv (b : ℕ) (s : Leased) : Prop where
  negotiated : s.conn.negotiated
  sessions : s.conn.sessionsInv
  built : s.handle.generation = UInt64.ofNat b
  since : b ≤ s.conn.bumps
  parted : .uncertain ∈ s.trace → b < s.conn.bumps
  awaiting : ∀ call t, s.stage = .awaiting call t → .uncertain ∉ s.trace
  spawned : s.spawned = true → s.stage = .dropped ∧ .uncertain ∉ s.trace
  refused : Each AfterUncertain s.trace

theorem partingInv_start (cfg : Config) (before : List Event) (route ownerId : String)
    (fencingToken : UInt64) :
    ∃ b, PartingInv b (start (run (Conn.step cfg) (.new cfg) before) route ownerId fencingToken) := by
  have hsessions := Conn.sessions_run cfg before
  have hbase := Conn.base_run cfg before
  refine ⟨(run (Conn.step cfg) (.new cfg) before).bumps, hbase.negotiated, hsessions,
    hsessions.generation, le_rfl, ?_, ?_, ?_, each_nil _⟩
  · simp [start]
  · simp [start]
  · simp [start]

/-- The connection takes a step. -/
theorem PartingInv.conn (h : PartingInv b s) (cfg : Config) (e : Event) :
    PartingInv b { s with conn := s.conn.step cfg e } where
  negotiated := Conn.negotiated_step s.conn e h.negotiated
  sessions := Conn.sessionsInv_step s.conn e h.negotiated h.sessions
  built := h.built
  since := h.since.trans (Conn.bumps_step cfg s.conn e)
  parted := fun hu => (h.parted hu).trans_le (Conn.bumps_step cfg s.conn e)
  awaiting := h.awaiting
  spawned := h.spawned
  refused := h.refused

theorem PartingInv.returnCall (h : PartingInv b s) (cfg : Config) (t : Ticket) :
    PartingInv b { s with conn := s.conn.returnCall cfg t } := by
  unfold Conn.returnCall
  exact h.conn cfg _

/-- Until the counter wraps, the generation tells how many bumps there were. -/
theorem PartingInv.generation_iff (h : PartingInv b s) (hwrap : s.conn.bumps < 2 ^ 64) :
    s.conn.shared.generation = s.handle.generation ↔ b = s.conn.bumps := by
  have hgen := h.sessions.generation
  have hsince := h.since
  rw [hgen, h.built]
  constructor
  · intro heq
    have hnat := congrArg UInt64.toNat heq
    simp only [UInt64.toNat_ofNat'] at hnat
    omega
  · rintro rfl
    rfl

/-- A handle that is current has seen no uncertain end. -/
theorem PartingInv.certain (h : PartingInv b s) (hwrap : s.conn.bumps < 2 ^ 64)
    (hcurrent : s.current = .ok ()) : .uncertain ∉ s.trace := by
  intro hu
  have hlt := h.parted hu
  have heq : s.conn.shared.generation = s.handle.generation := by
    unfold current LeaseHandle.current fence at hcurrent
    split at hcurrent
    · rename_i hfence
      simp only [Bool.and_eq_true, beq_iff_eq] at hfence
      exact hfence.2
    · cases hcurrent
  have := (h.generation_iff hwrap).1 heq
  omega

theorem current_error {error : FitzError} (h : s.current = .error error) : error = .staleHandle := by
  unfold current LeaseHandle.current fence at h
  split at h <;> cases h
  rfl

/-! ## Steps of the handle -/

/-- The handle moves on without an uncertain end. -/
theorem PartingInv.act (h : PartingInv b s) {act : LeasedAct} {handle : LeaseHandle}
    {stage : LeaseStage} (hact : act ≠ .uncertain) (hrefused : AfterUncertain s.trace act)
    (hhandle : handle.generation = s.handle.generation)
    (hstage : ∀ call t, stage = .awaiting call t → .uncertain ∉ s.trace)
    (hspawned : s.spawned = true → stage = .dropped) :
    PartingInv b { s.note [act] with handle := handle, stage := stage } where
  negotiated := h.negotiated
  sessions := h.sessions
  built := hhandle.trans h.built
  since := h.since
  parted := fun hu => by
    have hmem : .uncertain ∈ s.trace := by simpa [note, hact.symm] using hu
    exact h.parted hmem
  awaiting := fun call t hcall => by
    have hno := hstage call t hcall
    simp [note, hno, hact.symm]
  spawned := fun hs => by
    have hno := (h.spawned hs).2
    exact ⟨hspawned hs, by simp [note, hno, hact.symm]⟩
  refused := each_concat.2 ⟨h.refused, hrefused⟩

/-- An `extend` ends uncertain. -/
theorem PartingInv.uncertain (h : PartingInv b s) (hlt : b < s.conn.bumps)
    (hspawned : s.spawned = false) :
    PartingInv b { s.note [.uncertain] with stage := .idle } where
  negotiated := h.negotiated
  sessions := h.sessions
  built := h.built
  since := h.since
  parted := fun _ => hlt
  awaiting := by simp
  spawned := fun hs => by
    have hs' : s.spawned = true := hs
    rw [hspawned] at hs'
    cases hs'
  refused := each_concat.2 ⟨h.refused, fun _ => trivial⟩

theorem PartingInv.stage (h : PartingInv b s) (stage : LeaseStage)
    (hstage : ∀ call t, stage ≠ .awaiting call t) (hspawned : s.spawned = false) :
    PartingInv b { s with stage := stage } where
  negotiated := h.negotiated
  sessions := h.sessions
  built := h.built
  since := h.since
  parted := h.parted
  awaiting := fun call t hcall => absurd hcall (hstage call t)
  spawned := fun hs => by
    have hs' : s.spawned = true := hs
    rw [hspawned] at hs'
    cases hs'
  refused := h.refused

/-- With a task of `Drop`, the handle is gone. -/
theorem PartingInv.unspawned (h : PartingInv b s) (hstage : s.stage ≠ .dropped) :
    s.spawned = false := by
  cases hs : s.spawned with
  | false => rfl
  | true => exact absurd (h.spawned hs).1 hstage

theorem PartingInv.call (h : PartingInv b s) (hwrap : s.conn.bumps < 2 ^ 64) (call : LeaseCall)
    {stage : LeaseStage} (hstage : ∀ call t, stage ≠ .awaiting call t)
    (hidle : s.stage ≠ .dropped) : PartingInv b (s.call cfg call stage) := by
  have hspawned := h.unspawned hidle
  unfold Leased.call
  cases hcurrent : s.current with
  | ok u =>
    have hcertain := h.certain hwrap hcurrent
    have hact : PartingInv b { s.note [.requested s.conn.nextTicket call s.handle.fencingToken] with
        stage := .awaiting call s.conn.nextTicket } :=
      h.act (by simp) (fun hu => absurd hu hcertain) rfl (fun _ _ _ => hcertain)
        (fun hs => absurd hs (by simp [hspawned]))
    exact hact.conn cfg (.allocate (.request 0) (s.payload call).1 (s.payload call).2)
  | error error =>
    have hstale := current_error hcurrent
    exact h.act (by simp) (fun _ => by rw [hstale]; rfl) rfl
      (fun call t hcall => absurd hcall (hstage call t)) (fun hs => absurd hs (by simp [hspawned]))

/-- What a verdict leaves, or the lack of one. -/
theorem PartingInv.conclude (h : PartingInv b s) {call : LeaseCall} {t : Ticket}
    (hstage : s.stage = .awaiting call t) (answer : Result Bytes)
    (hlt : ∀ ttlSecs, call = .extend ttlSecs → renewalVerdict answer = false → b < s.conn.bumps) :
    PartingInv b (s.conclude call answer) := by
  have hno := h.awaiting call t hstage
  have hspawned := h.unspawned (by simp [hstage])
  have hact : ∀ (act : LeasedAct) (handle : LeaseHandle) (stage : LeaseStage),
      act ≠ .uncertain → handle.generation = s.handle.generation →
      (∀ call t, stage ≠ .awaiting call t) →
      PartingInv b { s.note [act] with handle := handle, stage := stage } := by
    intro act handle stage hne hhandle hst
    exact h.act hne (fun hu => absurd hu hno) hhandle (fun call t hcall => absurd hcall (hst call t))
      (fun hs => absurd hs (by simp [hspawned]))
  unfold Leased.conclude
  cases call with
  | extend ttlSecs =>
    simp only
    cases hanswer : answer.bind renewed with
    | ok token => exact hact _ _ _ (by simp) rfl (by simp)
    | error error =>
      cases hv : renewalVerdict answer with
      | true => exact hact _ s.handle _ (by simp) rfl (by simp)
      | false =>
        have hreturned := hact (.returned (.extend ttlSecs) (.error error)) s.handle .idle
          (by simp) rfl (by simp)
        have huncertain := hreturned.uncertain (hlt ttlSecs rfl hv) hspawned
        simpa [note] using huncertain
  | release | drop =>
    simp only
    split
    · exact hact _ _ _ (by simp) rfl (by simp)
    · exact hact _ s.handle _ (by simp) rfl (by simp)

/-- **One step keeps the invariant.** -/
theorem partingInv_step (s : Leased) (e : LeasedEvent) (h : PartingInv b s) (hparted : s.Parted e) :
    PartingInv b (s.step cfg e) := by
  obtain ⟨hwrap, hloses⟩ := hparted
  -- an uncertain end comes after a bump
  have hlt : s.loses e = true → b < s.conn.bumps := by
    intro hl
    have hne := mt (h.generation_iff hwrap).2 (hloses hl)
    have := h.since
    omega
  cases e with
  | conn e =>
    simp only [step]
    split
    · exact h.conn cfg e
    · exact h
  | extend ttlSecs =>
    simp only [step]
    split
    · rename_i hstage
      exact h.call hwrap _ (by simp) (by simp [hstage])
    · exact h
  | release =>
    simp only [step]
    split
    · rename_i hstage
      exact h.call hwrap _ (by simp) (by simp [hstage])
    · exact h
  | returned error =>
    simp only [step]
    split
    · rename_i call t hstage
      have hreturned := h.returnCall cfg t
      have hmono : s.conn.bumps ≤ (s.conn.returnCall cfg t).bumps := Conn.bumps_step cfg s.conn _
      refine hreturned.conclude hstage _ ?_
      rintro ttlSecs rfl hv
      exact (hlt (by simp [loses, hstage, hv])).trans_le hmono
    · exact h
  | cancelled =>
    simp only [step]
    split
    · rename_i call t hstage
      have hspawned := h.unspawned (by simp [hstage])
      unfold cancel
      cases call with
      | extend ttlSecs =>
        cases hq : s.conn.enqueued t with
        | true =>
          have hu := h.uncertain (hlt (by simp [loses, hstage, hq])) hspawned
          exact hu.conn cfg _
        | false =>
          have hi := h.stage .idle (by simp) hspawned
          simpa [note] using hi.conn cfg (.abandon t)
      | release | drop => exact (h.stage .dropping (by simp) hspawned).conn cfg _
    · exact h
  | drop runtime =>
    have hdrop : s.stage ≠ .dropped → PartingInv b (s.drop runtime) := by
      intro hstage
      unfold drop
      cases hcurrent : s.current with
      | error error => exact h.stage _ (by simp) (h.unspawned hstage)
      | ok u =>
        have hcertain := h.certain hwrap hcurrent
        exact ⟨h.negotiated, h.sessions, h.built, h.since, h.parted, by simp,
          fun _ => ⟨rfl, hcertain⟩, h.refused⟩
    simp only [step]
    split
    · rename_i hstage
      exact hdrop (by simp [hstage])
    · rename_i hstage
      exact hdrop (by simp [hstage])
    · exact h
  | task =>
    simp only [step]
    split
    · rename_i hs
      obtain ⟨hstage, hno⟩ := h.spawned hs
      have hact : PartingInv b { s.note [.requested s.conn.nextTicket .drop s.handle.fencingToken] with
          handle := s.handle, stage := .dropped } :=
        h.act (by simp) (fun hu => absurd hu hno) rfl (by simp) (fun _ => rfl)
      have hconn := hact.conn cfg (.allocate (.request 0) (s.payload .drop).1 (s.payload .drop).2)
      exact ⟨hconn.negotiated, hconn.sessions, hconn.built, hconn.since, hconn.parted,
        by simp [request, note, hstage], by simp, hconn.refused⟩
    · exact h

end Leased

open Leased in
/-- **Uncertain renewals.** In every run in which each `extend` that ends without a
verdict finds the generation moved on, nothing is requested for the handle after
such an end, and each of its later calls returns `StaleHandle`. -/
theorem renewals_stale (cfg : Config) (before : List Event) (route ownerId : String)
    (fencingToken : UInt64) (es : List LeasedEvent)
    (h : Along (Leased.step cfg) Leased.Parted
      (start (run (Conn.step cfg) (.new cfg) before) route ownerId fencingToken) es) :
    Each AfterUncertain (run (Leased.step cfg)
      (start (run (Conn.step cfg) (.new cfg) before) route ownerId fencingToken) es).trace := by
  obtain ⟨b, h0⟩ := partingInv_start cfg before route ownerId fencingToken
  exact (along_inv (fun s e => partingInv_step s e) h0 h).refused

/-- While its generation lasts, a handle that is not released makes its next request,
whatever came before. -/
theorem extend_requests_iff (cfg : Config) {s : Leased} (hidle : s.stage = .idle)
    (hreleased : s.handle.released = false) (ttlSecs : UInt64) :
    (s.step cfg (.extend ttlSecs)).trace =
        s.trace ++ [.requested s.conn.nextTicket (.extend ttlSecs) s.handle.fencingToken] ↔
      s.conn.shared.generation = s.handle.generation := by
  simp only [Leased.step, hidle, Leased.call]
  have hcurrent : s.current =
      if s.conn.shared.generation = s.handle.generation then .ok () else .error .staleHandle := by
    simp [Leased.current, LeaseHandle.current, fence, hreleased]
  by_cases heq : s.conn.shared.generation = s.handle.generation
  · rw [hcurrent, if_pos heq]
    exact iff_of_true rfl heq
  · rw [hcurrent, if_neg heq]
    exact iff_of_false (by simp [Leased.note]) heq

/-! ## Runs -/

/-- A handle of the first session. -/
def leasedHandle : Leased :=
  .start (run (Conn.step ⟨4, ⟨true, 0⟩⟩) (.new ⟨4, ⟨true, 0⟩⟩) (firstSession 8)) "lease://r/a/s" "o" 7

/-- The request of the handle is written. -/
def leaseSent (t : Ticket) : List LeasedEvent :=
  [.conn (.stamp t), .conn (.enqueue t), .conn (.command (.ok ()))]

/-- The session is lost while an `extend` waits, and the next `extend` is refused. -/
def lostRenewal : List LeasedEvent :=
  .extend 30 :: leaseSent 1 ++ (reopenRun 8 ++ enterRun).map .conn ++
    [.returned .connectionClosed, .extend 30]

theorem renewals_stale_lost :
    (run (Leased.step ⟨4, ⟨true, 0⟩⟩) leasedHandle lostRenewal).trace =
        [.requested 1 (.extend 30) 7, .returned (.extend 30) (.error .connectionClosed), .uncertain,
          .returned (.extend 30) (.error .staleHandle)] ∧
      Each AfterUncertain (run (Leased.step ⟨4, ⟨true, 0⟩⟩) leasedHandle lostRenewal).trace :=
  ⟨by decide +kernel, renewals_stale ⟨4, ⟨true, 0⟩⟩ (firstSession 8) "lease://r/a/s" "o" 7
    lostRenewal (by decide +kernel)⟩

/-- An `extend` times out, and the handle is asked to extend again. -/
def renewedTwice : List LeasedEvent :=
  .extend 30 :: leaseSent 1 ++ [.returned .timeout, .extend 30] ++ leaseSent 2

/-- The future of an `extend` is dropped, and then the handle. -/
def renewedDropped : List LeasedEvent :=
  .extend 30 :: leaseSent 1 ++ [.cancelled, .drop true, .task] ++ leaseSent 2

/-- The old token is written again, by the next `extend` and by `Drop`. -/
theorem renewal_repeated :
    (¬Each AfterUncertain (run (Leased.step ⟨4, ⟨true, 0⟩⟩) leasedHandle renewedTwice).trace ∧
      Obs.wrote 1 (.request 2) ∈
        (run (Leased.step ⟨4, ⟨true, 0⟩⟩) leasedHandle renewedTwice).conn.log) ∧
    ¬Each AfterUncertain (run (Leased.step ⟨4, ⟨true, 0⟩⟩) leasedHandle renewedDropped).trace ∧
      Obs.wrote 1 (.request 2) ∈
        (run (Leased.step ⟨4, ⟨true, 0⟩⟩) leasedHandle renewedDropped).conn.log := by
  have htwice : (run (Leased.step ⟨4, ⟨true, 0⟩⟩) leasedHandle renewedTwice).trace =
      [.requested 1 (.extend 30) 7, .returned (.extend 30) (.error .timeout), .uncertain] ++
        [.requested 2 (.extend 30) 7] := by decide +kernel
  have hdropped : (run (Leased.step ⟨4, ⟨true, 0⟩⟩) leasedHandle renewedDropped).trace =
      [.requested 1 (.extend 30) 7, .uncertain] ++ [.requested 2 .drop 7] := by decide +kernel
  refine ⟨⟨?_, by decide +kernel⟩, ?_, by decide +kernel⟩
  · intro heach
    exact heach _ _ [] htwice (by simp)
  · intro heach
    exact heach _ _ [] hdropped (by simp)

end Fitz
