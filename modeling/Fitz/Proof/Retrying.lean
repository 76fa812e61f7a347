import Mathlib.Algebra.Order.BigOperators.Group.List
import Fitz.Lib.Doubling
import Fitz.Lib.Machine
import Fitz.Model.Retrying

/-!
# Waiting between attempts

Both loops double the delay between attempts up to the maximum of their policy.
`replayed_exactly` says of a read, for every behaviour of the requests and the generation,
which requests are sent, how long each wait is and what is returned. `ready_in_time` says
of `connect_when_ready`, for every behaviour of `connect`, the timer and the cancellation,
that no wait passes the deadline, how many attempts there can be, and that only the
errors it promises are returned.
-/

namespace Fitz

open Doubling Machine

theorem Delay.nanos_next (d maximum : Delay) :
    (d.next maximum).nanos = Doubling.next maximum.nanos d.nanos := by
  have hle := maximum.le
  have hmin : ∀ a b : Delay, (a.min b).nanos = min a.nanos b.nanos := by
    intro a b
    unfold Delay.min
    split <;> omega
  have hmul : (d.saturatingMul 2).nanos = min (d.nanos * 2) durationMax := rfl
  rw [Delay.next, hmin, hmul, Doubling.next]
  omega

/-! ## Reads -/

/-- The attempt is followed by another one. -/
def Replay.Repeated (expected : Option UInt64) (r : Replay) : Prop :=
  staleGeneration expected r.before = false ∧
    (∃ error, r.result = .error error ∧ error.isRetryable = true) ∧
      staleGeneration expected r.after = false

/-- How the loop ends at an attempt: whether the attempt sends its request, and what is
returned. -/
inductive ReplayEnd (expected : Option UInt64) (last : Prop) (r : Replay) : Bool → Result Bytes → Prop
  /-- the generation had changed -/
  | stale (h : staleGeneration expected r.before = true) :
      ReplayEnd expected last r false (.error .staleHandle)
  | answered (h : staleGeneration expected r.before = false) {response : Bytes}
      (hresult : r.result = .ok response) : ReplayEnd expected last r true (.ok response)
  /-- no attempt is left, or the error is final -/
  | failed (h : staleGeneration expected r.before = false) {error : FitzError}
      (hresult : r.result = .error error) (hfinal : last ∨ error.isRetryable = false) :
      ReplayEnd expected last r true (.error error)
  /-- the generation changed while the request failed -/
  | outlived (h : staleGeneration expected r.before = false) {error : FitzError}
      (hresult : r.result = .error error) (hretry : error.isRetryable = true) (hleft : ¬last)
      (hstale : staleGeneration expected r.after = true) :
      ReplayEnd expected last r true (.error .staleHandle)

/-- The delay after the attempt `k + 1`. -/
def ReplayPolicy.delayAt (policy : ReplayPolicy) (k : ℕ) : Delay :=
  (fun d => d.next policy.maximumDelay)^[k] policy.baseDelay

/-- So many attempts, each with the wait after it. -/
def trailFrom (maximum : Delay) : ℕ → Delay → ℕ → List ReplayAct
  | _, _, 0 => []
  | attempt, delay, n + 1 =>
    .requested attempt :: .slept delay :: trailFrom maximum (attempt + 1) (delay.next maximum) n

theorem nanos_delayAt (policy : ReplayPolicy) (k : ℕ) :
    (policy.delayAt k).nanos = doubled policy.maximumDelay.nanos policy.baseDelay.nanos k := by
  induction k with
  | zero => rfl
  | succ k ih =>
    rw [ReplayPolicy.delayAt, Function.iterate_succ_apply', ← ReplayPolicy.delayAt, Delay.nanos_next,
      ih, doubled_succ]

theorem trailFrom_eq (policy : ReplayPolicy) (first j n : ℕ) :
    trailFrom policy.maximumDelay first (policy.delayAt j) n = (List.range n).flatMap fun k =>
      [.requested (first + k), .slept (policy.delayAt (j + k))] := by
  induction n generalizing first j with
  | zero => rfl
  | succ n ih =>
    have hnext : (policy.delayAt j).next policy.maximumDelay = policy.delayAt (j + 1) :=
      (Function.iterate_succ_apply' (fun d => d.next policy.maximumDelay) j policy.baseDelay).symm
    rw [trailFrom, hnext, ih, List.range_succ_eq_map, List.flatMap_cons, List.flatMap_map]
    simp only [Nat.add_zero, List.cons_append, List.nil_append, Nat.succ_eq_add_one]
    simp only [Nat.add_assoc, Nat.add_comm 1]

/-- One pass: the loop ends there, or waits and goes on. -/
theorem requestReplayable_cases {policy : ReplayPolicy} {expected : Option UInt64}
    {world : ℕ → Replay} {left attempt : ℕ} {delay : Delay} {acts : List ReplayAct}
    {result : Result Bytes}
    (h : requestReplayable policy expected world (left + 1) attempt delay = (acts, result)) :
    (∃ requested, ReplayEnd expected (left = 0) (world attempt) requested result ∧
      acts = if requested then [.requested attempt] else []) ∨
    (left ≠ 0 ∧ (world attempt).Repeated expected ∧ ∃ rest,
      requestReplayable policy expected world left (attempt + 1) (delay.next policy.maximumDelay) =
        (rest, result) ∧ acts = .requested attempt :: .slept delay :: rest) := by
  rw [requestReplayable] at h
  by_cases hbefore : staleGeneration expected (world attempt).before = true
  · rw [if_pos hbefore] at h
    cases h
    exact .inl ⟨false, .stale hbefore, rfl⟩
  have hfresh : staleGeneration expected (world attempt).before = false := Bool.not_eq_true _ ▸ hbefore
  rw [if_neg hbefore] at h
  cases hresult : (world attempt).result with
  | ok response =>
    simp only [hresult] at h
    cases h
    exact .inl ⟨true, .answered hfresh hresult, rfl⟩
  | error error =>
    simp only [hresult] at h
    by_cases hfinal : left = 0 ∨ (!error.isRetryable) = true
    · rw [if_pos hfinal] at h
      cases h
      exact .inl ⟨true, .failed hfresh hresult (hfinal.imp_right fun h => by simpa using h), rfl⟩
    rw [if_neg hfinal] at h
    simp only [not_or, Bool.not_eq_true, Bool.not_eq_false'] at hfinal
    by_cases hafter : staleGeneration expected (world attempt).after = true
    · rw [if_pos hafter] at h
      cases h
      exact .inl ⟨true, .outlived hfresh hresult hfinal.2 hfinal.1 hafter, rfl⟩
    · rw [if_neg hafter] at h
      cases h
      exact .inr ⟨hfinal.1, ⟨hfresh, ⟨error, hresult, hfinal.2⟩, Bool.not_eq_true _ ▸ hafter⟩, _,
        rfl, rfl⟩

/-- The loop, from some attempt on. -/
theorem requestReplayable_spec (policy : ReplayPolicy) (expected : Option UInt64) (world : ℕ → Replay)
    (left attempt : ℕ) (delay : Delay) {acts : List ReplayAct} {result : Result Bytes}
    (h : requestReplayable policy expected world (left + 1) attempt delay = (acts, result)) :
    ∃ n requested, n ≤ left ∧ (∀ k < n, (world (attempt + k)).Repeated expected) ∧
      ReplayEnd expected (n = left) (world (attempt + n)) requested result ∧
        acts = trailFrom policy.maximumDelay attempt delay n ++
          if requested then [.requested (attempt + n)] else [] := by
  induction left generalizing attempt delay acts with
  | zero =>
    obtain ⟨requested, hend, hacts⟩ | ⟨hne, -⟩ := requestReplayable_cases h
    · exact ⟨0, requested, Nat.le_refl 0, fun k hk => absurd hk (Nat.not_lt_zero k), hend, hacts⟩
    · exact absurd rfl hne
  | succ left ih =>
    obtain ⟨requested, hend, hacts⟩ | ⟨-, hrepeated, rest, hrest, rfl⟩ := requestReplayable_cases h
    · have hlast : (0 = left + 1) = (left + 1 = 0) := propext eq_comm
      refine ⟨0, requested, Nat.zero_le _, fun k hk => absurd hk (Nat.not_lt_zero k), ?_, hacts⟩
      rw [hlast]
      exact hend
    · obtain ⟨n, requested, hn, hall, hend, rfl⟩ := ih (attempt + 1) _ hrest
      have hshift : attempt + 1 + n = attempt + (n + 1) := by omega
      have hlast : (n + 1 = left + 1) = (n = left) := propext Nat.succ_inj
      refine ⟨n + 1, requested, Nat.succ_le_succ hn, fun k hk => ?_, ?_, ?_⟩
      · cases k with
        | zero => exact hrepeated
        | succ k =>
          have hk' := hall k (Nat.lt_of_succ_lt_succ hk)
          rwa [show attempt + 1 + k = attempt + (k + 1) by omega] at hk'
      · rw [hlast, ← hshift]
        exact hend
      · rw [hshift]
        rfl

/-- **A read is repeated as its policy says.** For every behaviour of the requests and of the
generation: attempts one to `n` found the expected generation before and after and failed
with a retryable error; each was sent, and followed by a wait of its own length, the base
delay first and then its powers of two up to the maximum; and the next attempt ends the
loop, within the number of attempts that the policy allows, with its own outcome or, if the
generation is another one, as stale. -/
theorem replayed_exactly (policy : ReplayPolicy) (expected : Option UInt64) (world : ℕ → Replay) :
    ∃ n requested, n < policy.attempts ∧
      (∀ k < n, (world (k + 1)).Repeated expected) ∧
      ReplayEnd expected (n + 1 = policy.attempts) (world (n + 1)) requested
        (requestReplayableInGeneration policy expected world).2 ∧
      (requestReplayableInGeneration policy expected world).1 =
        ((List.range n).flatMap fun k => [.requested (k + 1), .slept (policy.delayAt k)]) ++
          (if requested then [.requested (n + 1)] else []) ∧
      policy.delayAt 0 = policy.baseDelay ∧
      ∀ k, (policy.delayAt (k + 1)).nanos =
        min (2 ^ (k + 1) * policy.baseDelay.nanos) policy.maximumDelay.nanos := by
  have hpos : 0 < policy.attempts := by
    unfold RetryPolicy.attempts
    split <;> omega
  obtain ⟨left, hleft⟩ : ∃ left, policy.attempts = left + 1 := ⟨policy.attempts - 1, by omega⟩
  have hrun : requestReplayable policy expected world (left + 1) 1 policy.baseDelay =
      ((requestReplayableInGeneration policy expected world).1,
        (requestReplayableInGeneration policy expected world).2) := by
    rw [requestReplayableInGeneration, hleft]
  obtain ⟨n, requested, hn, hall, hend, hacts⟩ := requestReplayable_spec policy expected world left 1 _ hrun
  have hlast : (n = left) = (n + 1 = policy.attempts) := by
    rw [hleft]
    exact propext Nat.succ_inj.symm
  refine ⟨n, requested, by omega, fun k hk => ?_, ?_, ?_, rfl, fun k => ?_⟩
  · have hk' := hall k hk
    rwa [Nat.add_comm] at hk'
  · rw [hlast, Nat.add_comm 1 n] at hend
    exact hend
  · have htrail := trailFrom_eq policy 1 0 n
    rw [hacts, show policy.baseDelay = policy.delayAt 0 from rfl, htrail]
    simp only [Nat.add_comm 1, Nat.zero_add]
  · rw [nanos_delayAt, doubled_eq]

/-! ## Readiness -/

/-- The attempt failed, and the call goes on after it. -/
def Tried.Transient (t : Tried) : Prop := ∃ error, t.result = .error error ∧ error.endsReadiness = false

/-- The attempt connected, or failed in a way that waiting does not cure. -/
def Tried.Decisive (t : Tried) : Prop := ∀ error, t.result = .error error → error.endsReadiness = true

namespace ConnectWhenReadyOptions

/-- The delay before the deadline cuts it. -/
def delayAt (options : ConnectWhenReadyOptions) (k : ℕ) : ℕ :=
  doubled options.maximumDelay.nanos options.initialDelay.nanos k

def fullWaits (options : ConnectWhenReadyOptions) (n : ℕ) : List ℕ := (List.range n).map options.delayAt

/-- The waits of a call: each is decided before the deadline, all but the last one are
full, and the deadline cuts the last one. -/
inductive Paced (options : ConnectWhenReadyOptions) : List ℕ → Prop
  | none : Paced options []
  | waited {n now : ℕ} (hspent : (options.fullWaits n).sum ≤ now) (hnow : now < options.timeout.nanos) :
    Paced options (options.fullWaits n ++ [min (options.delayAt n) (options.timeout.nanos - now)])

variable {options : ConnectWhenReadyOptions}

theorem fullWaits_succ (n : ℕ) :
    options.fullWaits (n + 1) = options.fullWaits n ++ [options.delayAt n] := by
  unfold fullWaits
  rw [List.range_succ, List.map_append, List.map_singleton]

@[simp] theorem length_fullWaits (n : ℕ) : (options.fullWaits n).length = n := by
  rw [fullWaits, List.length_map, List.length_range]

/-- The waits together are not longer than the call may take. -/
theorem Paced.sum_le {waits : List ℕ} (h : Paced options waits) : waits.sum ≤ options.timeout.nanos := by
  cases h with
  | none => exact Nat.zero_le _
  | @waited n now hspent hnow =>
    rw [List.sum_append, List.sum_singleton]
    omega

/-- All but the last one of the waits have their full length, so they are not many. -/
theorem Paced.length_le {waits : List ℕ} (h : Paced options waits) :
    (waits.length - 1) * min options.initialDelay.nanos options.maximumDelay.nanos ≤
      options.timeout.nanos := by
  cases h with
  | none => exact (Nat.zero_mul _).trans_le (Nat.zero_le _)
  | @waited n now hspent hnow =>
    have hfull : ∀ w ∈ options.fullWaits n,
        min options.initialDelay.nanos options.maximumDelay.nanos ≤ w := by
      intro w hw
      obtain ⟨k, -, rfl⟩ := List.mem_map.1 hw
      exact min_le_doubled k
    have hcount := List.card_nsmul_le_sum _ _ hfull
    rw [length_fullWaits, nsmul_eq_mul, Nat.cast_id] at hcount
    rw [List.length_append, List.length_singleton, length_fullWaits, Nat.add_sub_cancel]
    omega

end ConnectWhenReadyOptions

/-- Why the call returns what it returns. -/
inductive Ready.Verdict (options : ConnectWhenReadyOptions) (s : Ready) : Result Unit → Prop
  /-- the token was cancelled, and no attempt had decided the call -/
  | canceled (hall : ∀ t ∈ s.tried, t.Transient) : Verdict options s (.error .canceled)
  /-- the deadline passed before the last attempt failed -/
  | timeout (hlate : options.timeout.nanos ≤ s.now) (hne : s.tried ≠ [])
      (hall : ∀ t ∈ s.tried, t.Transient) : Verdict options s (.error .timeout)
  /-- the last attempt, and no other, decided the call -/
  | decided {before : List Tried} (t : Tried) (htried : s.tried = before ++ [t])
      (hall : ∀ t ∈ before, t.Transient) (hlast : t.Decisive) : Verdict options s t.result

/-- What holds of a call wherever it stands. -/
def Ready.At (options : ConnectWhenReadyOptions) (s : Ready) : ReadyPc → Prop
  | .connecting start late =>
    (∀ t ∈ s.tried, t.Transient) ∧ s.tried.length = s.waits.length ∧
      start ≤ options.timeout.nanos + late ∧ s.waits.sum ≤ s.now ∧
        s.delay.nanos = options.delayAt s.waits.length ∧
        -- a wait that was cut short ended after the deadline
        (s.waits = options.fullWaits s.waits.length ∨ options.timeout.nanos ≤ s.now)
  | .sleeping wait =>
    (∀ t ∈ s.tried, t.Transient) ∧ s.tried.length = s.waits.length + 1 ∧ s.waits.sum ≤ s.now ∧
      s.delay.nanos = options.delayAt s.waits.length ∧
        s.waits = options.fullWaits s.waits.length ∧ s.now < options.timeout.nanos ∧
          wait = min s.delay.nanos (options.timeout.nanos - s.now)
  | .returned result => s.Verdict options result ∧ s.tried.length ≤ s.waits.length + 1

structure Ready.Inv (options : ConnectWhenReadyOptions) (s : Ready) : Prop where
  starts : ∀ t ∈ s.tried, t.start ≤ options.timeout.nanos + t.late
  paced : options.Paced s.waits
  stands : s.At options s.pc

namespace Ready

variable {options : ConnectWhenReadyOptions} {s : Ready}

/-- `connect` returned, and the attempt is one more of those tried. -/
theorem inv_connected {start late elapsed : ℕ} {result : Result Unit} (h : s.Inv options)
    (hpc : s.pc = .connecting start late) : (step options s (.connected elapsed result)).Inv options := by
  have hat := h.stands
  rw [hpc] at hat
  obtain ⟨hall, hlen, hstart, hspent, hdelay, hfull⟩ := hat
  have hstarts : ∀ t ∈ s.tried ++ [(⟨start, late, result⟩ : Tried)],
      t.start ≤ options.timeout.nanos + t.late := by
    intro t ht
    rcases List.mem_append.1 ht with ht | ht
    · exact h.starts t ht
    · rw [List.mem_singleton.1 ht]
      exact hstart
  have hone : (s.tried ++ [(⟨start, late, result⟩ : Tried)]).length = s.waits.length + 1 := by
    rw [List.length_append, List.length_singleton, hlen]
  cases result with
  | ok value =>
    simp only [step, hpc]
    refine ⟨hstarts, h.paced, .decided ⟨start, late, .ok value⟩ rfl hall ?_, hone.le⟩
    intro error herror
    cases herror
  | error error =>
    simp only [step, hpc]
    by_cases hends : error.endsReadiness = true
    · rw [if_pos hends]
      refine ⟨hstarts, h.paced, .decided ⟨start, late, .error error⟩ rfl hall ?_, hone.le⟩
      intro error' herror
      cases herror
      exact hends
    · rw [if_neg hends]
      have htransient : ∀ t ∈ s.tried ++ [(⟨start, late, .error error⟩ : Tried)], t.Transient := by
        intro t ht
        rcases List.mem_append.1 ht with ht | ht
        · exact hall t ht
        · rw [List.mem_singleton.1 ht]
          exact ⟨error, rfl, Bool.not_eq_true _ ▸ hends⟩
      simp only [pause]
      by_cases hover : options.timeout.nanos - (s.now + elapsed) = 0
      · rw [if_pos hover]
        refine ⟨hstarts, h.paced, .timeout ?_ ?_ htransient, hone.le⟩
        · show options.timeout.nanos ≤ s.now + elapsed
          omega
        · exact List.concat_ne_nil _ _
      · rw [if_neg hover]
        -- before the deadline no wait has been cut short
        have hfull' : s.waits = options.fullWaits s.waits.length := by
          rcases hfull with hfull | hlate
          · exact hfull
          · omega
        exact ⟨hstarts, h.paced, htransient, hone, by show s.waits.sum ≤ s.now + elapsed; omega, hdelay,
          hfull', by show s.now + elapsed < _; omega, rfl⟩

/-- The timer fired. -/
theorem inv_woke {wait late : ℕ} (h : s.Inv options) (hpc : s.pc = .sleeping wait) :
    (step options s (.woke late)).Inv options := by
  have hat := h.stands
  rw [hpc] at hat
  obtain ⟨hall, hlen, hspent, hdelay, hfull, hnow, rfl⟩ := hat
  rw [hdelay] at hpc
  simp only [step, hpc]
  have hone : ∀ w, (s.waits ++ [w]).length = s.waits.length + 1 := by
    intro w
    rw [List.length_append, List.length_singleton]
  refine ⟨h.starts, ?_, hall, ?_, ?_, ?_, ?_, ?_⟩
  · show options.Paced (s.waits ++ [_])
    rw [hfull] at hspent
    rw [congrArg (· ++ [_]) hfull]
    exact .waited hspent hnow
  · show s.tried.length = (s.waits ++ [_]).length
    rw [hone, hlen]
  · omega
  · show (s.waits ++ [_]).sum ≤ s.now + _ + late
    rw [List.sum_append, List.sum_singleton]
    omega
  · show (s.delay.next options.maximumDelay).nanos = options.delayAt (s.waits ++ [_]).length
    rw [Delay.nanos_next, hdelay, hone, ConnectWhenReadyOptions.delayAt,
      ConnectWhenReadyOptions.delayAt, doubled_succ]
  · show s.waits ++ [_] = options.fullWaits (s.waits ++ [_]).length ∨ _
    rcases Nat.le_total (options.delayAt s.waits.length) (options.timeout.nanos - s.now) with hle | hle
    · left
      rw [hone, ConnectWhenReadyOptions.fullWaits_succ, ← hfull, Nat.min_eq_left hle]
    · right
      show options.timeout.nanos ≤ s.now + _ + late
      omega

theorem inv_step (s : Ready) (e : ReadyEvent) (h : s.Inv options) : (step options s e).Inv options := by
  cases hpc : s.pc with
  | connecting start late =>
    cases e with
    | canceled =>
      have hat := h.stands
      rw [hpc] at hat
      obtain ⟨hall, hlen, -⟩ := hat
      simp only [step, hpc]
      exact ⟨h.starts, h.paced, .canceled hall, hlen.le.trans (Nat.le_succ _)⟩
    | connected elapsed result => exact inv_connected h hpc
    | woke late =>
      simp only [step, hpc]
      exact h
  | sleeping wait =>
    cases e with
    | canceled =>
      have hat := h.stands
      rw [hpc] at hat
      obtain ⟨hall, hlen, -⟩ := hat
      simp only [step, hpc]
      exact ⟨h.starts, h.paced, .canceled hall, hlen.le⟩
    | connected elapsed result =>
      simp only [step, hpc]
      exact h
    | woke late => exact inv_woke h hpc
  | returned result =>
    simp only [step, hpc]
    exact h

theorem inv_start (options : ConnectWhenReadyOptions) : (start options).Inv options := by
  refine ⟨?_, .none, ?_⟩
  · intro t ht
    exact absurd ht List.not_mem_nil
  · exact ⟨fun t ht => absurd ht List.not_mem_nil, rfl, Nat.zero_le _, Nat.le_refl 0, rfl, .inl rfl⟩

/-- One attempt more than waits at the most. -/
theorem Inv.length_tried (h : s.Inv options) : s.tried.length ≤ s.waits.length + 1 := by
  have hat := h.stands
  cases hpc : s.pc with
  | connecting start late =>
    rw [hpc] at hat
    exact hat.2.1.le.trans (Nat.le_succ _)
  | sleeping wait =>
    rw [hpc] at hat
    exact hat.2.1.le
  | returned result =>
    rw [hpc] at hat
    exact hat.2

end Ready

/-- **Readiness is reached in time or given up.** Whatever `connect` comes to, however long
it takes, and whenever the token is cancelled: an attempt starts by the deadline, or
as much after it as its timer was late; the waits are the initial delay and its doublings up to the
maximum, the deadline cutting the last one, so that together they fit in the timeout and the
attempts are at most two more than the shortest delay fits in it; and the call returns
what its last attempt came to, cancellation, or a timeout once the deadline has passed, all other attempts
having failed in a way that may pass. -/
theorem ready_in_time (options : ConnectWhenReadyOptions) (es : List ReadyEvent) :
    let s := run (Ready.step options) (Ready.start options) es
    (∀ result, s.pc = .returned result → s.Verdict options result) ∧
    (∀ t ∈ s.tried, t.start ≤ options.timeout.nanos + t.late) ∧
    options.Paced s.waits ∧ s.waits.sum ≤ options.timeout.nanos ∧
    (s.tried.length - 2) * min options.initialDelay.nanos options.maximumDelay.nanos ≤
      options.timeout.nanos := by
  intro s
  have hinv : s.Inv options := run_inv Ready.inv_step (Ready.inv_start options) es
  refine ⟨?_, hinv.starts, hinv.paced, hinv.paced.sum_le, ?_⟩
  · intro result hpc
    have hat := hinv.stands
    rw [hpc] at hat
    exact hat.1
  · have hlen : s.tried.length - 2 ≤ s.waits.length - 1 := by
      have htried := hinv.length_tried
      omega
    exact (Nat.mul_le_mul_right _ hlen).trans hinv.paced.length_le

end Fitz
