import Fitz.Lib.Machine
import Fitz.Model.Acquire

/-!
# Who is granted a deferred lease

A completion carries no identity, and every open receiver gets it; the gate keeps
the acquires of one `LeaseClient` apart, and those of another value, or of a future
that was dropped while queued, not. `grants_attributed`: in every run in which no
completion that grants a lease arrives while it is the first one for the receiver of
another call, a completion is returned by no call but the one it was sent for, with
its token.
-/

namespace Fitz

open Machine

/-! ## The condition and the property -/

/-- A completion that grants is the first one only for the receiver of its own call. -/
def Targeted (s : Acquiring) : AcquireEvent → Prop
  | .complete j payload => (completionToken payload).isOk = true →
    ∀ i < s.calls.length, i ≠ j →
      (s.calls[i]?.bind fun call => call.stage.mark?) ≠ some s.completions.length
  | _ => True

instance (s : Acquiring) : ∀ e, Decidable (Targeted s e)
  | .complete j payload => inferInstanceAs (Decidable ((completionToken payload).isOk = true →
      ∀ i < s.calls.length, i ≠ j →
        (s.calls[i]?.bind fun call => call.stage.mark?) ≠ some s.completions.length))
  | .acquire _ _ | .enter _ | .reply _ _ | .receive _ | .drop _ => inferInstanceAs (Decidable True)

/-- Whatever call a completion made return `Ok`, it is the one the broker granted,
and has its token. -/
def GrantsOwn (s : Acquiring) : Prop :=
  ∀ (i k : ℕ) (call : Acquisition) (token : UInt64), s.calls[i]? = some call →
    call.stage = .returned (.ok token) (some k) →
      ∃ payload, s.completions[k]? = some (i, payload) ∧ completionToken payload = .ok token

/-! ## Invariant -/

structure GrantInv (s : Acquiring) : Prop where
  /-- receivers are on the channel -/
  marks : ∀ (i : ℕ) (call : Acquisition) (mark : ℕ), s.calls[i]? = some call →
    call.stage.mark? = some mark → mark ≤ s.completions.length
  /-- the first completion of a receiver, if it grants, is its call's -/
  first : ∀ (i : ℕ) (call : Acquisition) (mark j : ℕ) (payload : Bytes), s.calls[i]? = some call →
    call.stage.mark? = some mark → s.completions[mark]? = some (j, payload) →
    (completionToken payload).isOk = true → j = i
  own : GrantsOwn s

namespace Acquiring

variable {s : Acquiring}

theorem getElem?_setStage (s : Acquiring) (i i' : ℕ) (stage : AcquireStage) :
    (s.setStage i stage).calls[i']? =
      if i = i' then s.calls[i']?.map fun call => { call with stage := stage } else s.calls[i']? := by
  simp only [setStage, List.getElem?_modify]
  split <;> simp

theorem getElem?_setStage_eq {i i' : ℕ} {stage : AcquireStage} {call : Acquisition}
    (h : (s.setStage i stage).calls[i']? = some call) :
    i' = i ∧ call.stage = stage ∨ s.calls[i']? = some call := by
  rw [getElem?_setStage] at h
  split at h
  · rename_i heq
    obtain ⟨c, -, rfl⟩ := Option.map_eq_some_iff.1 h
    exact .inl ⟨heq.symm, rfl⟩
  · exact .inr h

end Acquiring

/-- One call moves on: to a receiver as good as the one it had, or to a return that
is its own. -/
theorem GrantInv.setStage {s : Acquiring} (h : GrantInv s) {i : ℕ} {stage : AcquireStage}
    (hmark : ∀ mark, stage.mark? = some mark → mark ≤ s.completions.length ∧
      ∀ j payload, s.completions[mark]? = some (j, payload) →
        (completionToken payload).isOk = true → j = i)
    (hown : ∀ k token, stage = .returned (.ok token) (some k) →
      ∃ payload, s.completions[k]? = some (i, payload) ∧ completionToken payload = .ok token) :
    GrantInv (s.setStage i stage) := by
  refine ⟨fun i' call mark hc hm => ?_, fun i' call mark j payload hc hm hp hok => ?_,
    fun i' k call token hc hst => ?_⟩
  · rcases Acquiring.getElem?_setStage_eq hc with ⟨rfl, rfl⟩ | hc
    · exact (hmark mark hm).1
    · exact h.marks i' call mark hc hm
  · rcases Acquiring.getElem?_setStage_eq hc with ⟨rfl, rfl⟩ | hc
    · exact (hmark mark hm).2 j payload hp hok
    · exact h.first i' call mark j payload hc hm hp hok
  · rcases Acquiring.getElem?_setStage_eq hc with ⟨rfl, rfl⟩ | hc
    · exact hown k token hst
    · exact h.own i' k call token hc hst

/-- A call that ends otherwise than by a completion. -/
theorem GrantInv.finish {s : Acquiring} (h : GrantInv s) {i : ℕ} {stage : AcquireStage}
    (hmark : stage.mark? = none) (hvia : ∀ r k, stage ≠ .returned r (some k)) :
    GrantInv (s.setStage i stage) :=
  h.setStage (fun mark hm => by rw [hmark] at hm; cases hm)
    fun k token hst => (hvia _ _ hst).elim

namespace Acquiring

variable {s : Acquiring}

theorem grantInv_acquire (h : GrantInv s) (client : ℕ) (order : LeaseOrder) :
    GrantInv (s.acquire client order) := by
  have hnew : ∀ (i : ℕ) (call : Acquisition), (s.acquire client order).calls[i]? = some call →
      s.calls[i]? = some call ∨
        call.stage.mark? = none ∧ ∀ r k, call.stage ≠ .returned r (some k) := by
    intro i call hc
    simp only [acquire, List.getElem?_append] at hc
    split at hc
    · exact .inl hc
    · obtain ⟨hlt, hcall⟩ := List.getElem?_eq_some_iff.1 hc
      right
      rw [← hcall]
      simp only [List.getElem_singleton]
      split <;> simp [AcquireStage.mark?]
  refine ⟨fun i call mark hc hm => ?_, fun i call mark j payload hc hm hp hok => ?_,
    fun i k call token hc hst => ?_⟩
  · rcases hnew i call hc with hc | ⟨hnone, -⟩
    · exact h.marks i call mark hc hm
    · rw [hnone] at hm
      cases hm
  · rcases hnew i call hc with hc | ⟨hnone, -⟩
    · exact h.first i call mark j payload hc hm hp hok
    · rw [hnone] at hm
      cases hm
  · rcases hnew i call hc with hc | ⟨-, hvia⟩
    · exact h.own i k call token hc hst
    · exact (hvia _ _ hst).elim

theorem grantInv_complete (h : GrantInv s) {j : ℕ} {payload : Bytes}
    (hcond : Targeted s (.complete j payload)) :
    GrantInv { s with completions := s.completions ++ [(j, payload)] } := by
  refine ⟨fun i call mark hc hm => ?_, fun i call mark j' payload' hc hm hp hok => ?_,
    fun i k call token hc hst => ?_⟩
  · have hle := h.marks i call mark hc hm
    simp only [List.length_append, List.length_singleton]
    omega
  · have hle := h.marks i call mark hc hm
    rcases Nat.lt_or_eq_of_le hle with hlt | rfl
    · rw [List.getElem?_append_left hlt] at hp
      exact h.first i call mark j' payload' hc hm hp hok
    · -- the receiver had read all there was: the new completion is its first
      simp only [List.getElem?_concat_length, Option.some.injEq, Prod.mk.injEq] at hp
      obtain ⟨rfl, rfl⟩ := hp
      by_contra hne
      have hi : i < s.calls.length := (List.getElem?_eq_some_iff.1 hc).1
      refine hcond hok i hi (Ne.symm hne) ?_
      rw [show s.calls[i]? = some call from hc]
      exact hm
  · obtain ⟨payload', hk, htoken⟩ := h.own i k call token hc hst
    have hlt : k < s.completions.length := (List.getElem?_eq_some_iff.1 hk).1
    exact ⟨payload', by rw [List.getElem?_append_left hlt]; exact hk, htoken⟩

theorem grantInv_receive (h : GrantInv s) (i : ℕ) : GrantInv (s.receive i) := by
  unfold receive
  split
  · rename_i client order mark hcall
    split
    · exact h
    · rename_i j payload hp
      split
      · exact h.finish rfl (by simp)
      · refine h.setStage (by simp [AcquireStage.mark?]) fun k token hst => ?_
        simp only [AcquireStage.returned.injEq, Option.some.injEq] at hst
        obtain ⟨htoken, rfl⟩ := hst
        have hj : j = i := h.first i _ mark j payload hcall rfl hp (by rw [htoken]; rfl)
        exact ⟨payload, by rw [hp, hj], htoken⟩
  · exact h

theorem grantInv_step (s : Acquiring) (e : AcquireEvent) (h : GrantInv s) (hcond : Targeted s e) :
    GrantInv (s.step e) := by
  cases e with
  | acquire client order => exact grantInv_acquire h client order
  | complete j payload => exact grantInv_complete h hcond
  | receive i => exact grantInv_receive h i
  | enter i =>
    simp only [step, enter]
    split
    · split
      · -- a new receiver has nothing to read
        refine h.setStage (fun mark hm => ?_) (by simp)
        obtain rfl : s.completions.length = mark := Option.some.inj hm
        refine ⟨le_rfl, fun j payload hp => ?_⟩
        simp at hp
      · exact h
    · exact h
  | reply i result =>
    simp only [step, reply]
    split
    · rename_i client order mark hcall
      split
      · exact h.finish rfl (by simp)
      · exact h.finish rfl (by simp)
      · refine h.setStage (fun mark' hm => ?_) (by simp)
        obtain rfl : mark = mark' := Option.some.inj hm
        exact ⟨h.marks i _ mark hcall rfl, fun j payload hp hok =>
          h.first i _ mark j payload hcall rfl hp hok⟩
    · exact h
  | drop i =>
    simp only [step, drop]
    split
    · exact h
    · exact h.finish rfl (by simp)
    · exact h

theorem grantInv_new : GrantInv new := ⟨by simp [new], by simp [new], by simp [GrantsOwn, new]⟩

end Acquiring

/-- **A completion grants the lease it was sent for.** -/
theorem grants_attributed (es : List AcquireEvent)
    (h : Along Acquiring.step Targeted .new es) : GrantsOwn (run Acquiring.step .new es) := by
  have hinv : GrantInv (run Acquiring.step .new es) :=
    along_inv (fun s e hs hc => Acquiring.grantInv_step s e hs hc) Acquiring.grantInv_new h
  exact hinv.own

/-- An acquire of a lease through the `LeaseClient` with the number `client`, queued
by the broker. -/
def queueRun (client i : ℕ) (route ownerId : String) : List AcquireEvent :=
  [.acquire client ⟨route, ownerId, 30, 60⟩, .enter i, .reply i (.ok [0, 2])]

/-- The completion that grants a lease with the token 9. -/
def grantPayload : Bytes := [0, 0] ++ putU64 9

/-- Two acquires of one `LeaseClient`: the second is queued when the first has
returned. -/
def gatedRun : List AcquireEvent :=
  queueRun 0 0 "lease://r/a/s" "first" ++ [.complete 0 grantPayload, .receive 0] ++
    queueRun 0 1 "lease://r/a/t" "second" ++ [.complete 1 grantPayload, .receive 1]

theorem grants_attributed_gated : Along Acquiring.step Targeted .new gatedRun ∧
    GrantsOwn (run Acquiring.step .new gatedRun) :=
  have h : Along Acquiring.step Targeted .new gatedRun := by decide +kernel
  ⟨h, grants_attributed _ h⟩

/-- Two `LeaseClient` values of one `Client` wait for two leases, and the broker
grants the first. -/
def crossedRun : List AcquireEvent :=
  queueRun 0 0 "lease://r/a/s" "first" ++ queueRun 1 1 "lease://r/a/t" "second" ++
    [.complete 0 grantPayload, .receive 0, .receive 1]

/-- The future of a queued acquire is dropped; the next one of the same value takes
the completion meant for it. -/
def abandonedRun : List AcquireEvent :=
  queueRun 0 0 "lease://r/a/s" "first" ++ [.drop 0] ++ queueRun 0 1 "lease://r/a/t" "second" ++
    [.complete 0 grantPayload, .receive 1]

/-- One completion makes two calls return `Ok`, or one it was not meant for. -/
theorem grant_misdelivered :
    (((run Acquiring.step .new crossedRun).calls.map fun call => call.stage) =
        [.returned (.ok 9) (some 0), .returned (.ok 9) (some 0)] ∧
      ¬ GrantsOwn (run Acquiring.step .new crossedRun)) ∧
    ((run Acquiring.step .new abandonedRun).calls.map fun call => call.stage) =
        [.dropped, .returned (.ok 9) (some 0)] ∧
      ¬ GrantsOwn (run Acquiring.step .new abandonedRun) := by
  refine ⟨⟨by decide +kernel, fun h => ?_⟩, by decide +kernel, fun h => ?_⟩
  · obtain ⟨payload, hk, -⟩ := h 1 0 ⟨1, ⟨"lease://r/a/t", "second", 30, 60⟩, .returned (.ok 9) (some 0)⟩ 9
      (by decide +kernel) rfl
    have hsent : (run Acquiring.step .new crossedRun).completions[0]? = some (0, grantPayload) := by
      decide +kernel
    rw [hsent] at hk
    simp at hk
  · obtain ⟨payload, hk, -⟩ := h 1 0 ⟨0, ⟨"lease://r/a/t", "second", 30, 60⟩, .returned (.ok 9) (some 0)⟩ 9
      (by decide +kernel) rfl
    have hsent : (run Acquiring.step .new abandonedRun).completions[0]? =
        some (0, grantPayload) := by decide +kernel
    rw [hsent] at hk
    simp at hk

end Fitz
