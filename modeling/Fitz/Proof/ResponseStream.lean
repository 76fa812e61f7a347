import Fitz.Model.ResponseStream

/-!
# A call is cancelled once

Whoever swaps the flag of a call has its one cancel message to send: the messages sent
and those about to be sent count the flag (`OnceInv`). So one message at most is handed to
the connection, and to a stream that ends early belongs exactly one, sent or in the hands
of a task (`call_canceled_once`). The connection may refuse it, and nobody tries again
(`cancellation_refused`).
-/

namespace Fitz

open Machine

/-- `cancel` is past its swap. -/
def OwnerStage.past : OwnerStage → Bool
  | .sending | .awaitingSend | .awaitingResult | .settling _ => true
  | _ => false

namespace RpcResponseStream

variable {s s' : RpcResponseStream}

/-- The messages that somebody is about to send. -/
def pending (s : RpcResponseStream) : ℕ :=
  (decide (s.deadlineTask = .sending)).toNat + (decide (s.parentTask = .sending)).toNat +
    (decide (s.owner = .sending)).toNat + s.spawned.isSome.toNat

/-- The messages that the connection took. -/
def handed (s : RpcResponseStream) : List CancelAttempt := s.attempts.filter (·.taken = .ok ())

/-! ## The flag -/

/-- The flag counts the messages, and what needs it set has it set. -/
structure OnceInv (s : RpcResponseStream) : Prop where
  tally : s.attempts.length + s.pending = s.cancellationSent.toNat
  past : s.owner.past = true → s.cancellationSent = true
  ended : ∀ e, s.ended = some e → e.runtime = true →
    s.cancellationSent = true ∧ s.owner ≠ .sending

theorem onceInv_start (correlationId : Bytes) (timed parented : Bool) :
    OnceInv (start correlationId timed parented) where
  tally := by cases timed <;> cases parented <;> rfl
  past := by
    intro h
    cases h
  ended := by
    intro e he
    cases he

/-- A step that leaves the flag and the messages alone. -/
theorem OnceInv.same (h : OnceInv s) (hattempts : s'.attempts = s.attempts)
    (hsent : s'.cancellationSent = s.cancellationSent) (hdeadline : s'.deadlineTask = s.deadlineTask)
    (hparent : s'.parentTask = s.parentTask) (hspawned : s'.spawned = s.spawned)
    (hended : s'.ended = s.ended) (hfrom : s.owner ≠ .sending) (hto : s'.owner ≠ .sending)
    (hpast : s'.owner.past = true → s.cancellationSent = true) : OnceInv s' where
  tally := by
    have htally := h.tally
    simp only [pending, hattempts, hsent, hdeadline, hparent, hspawned, hfrom, hto] at htally ⊢
    exact htally
  past := by
    rw [hsent]
    exact hpast
  ended := by
    intro e he hruntime
    rw [hended] at he
    rw [hsent]
    exact ⟨(h.ended e he hruntime).1, hto⟩

theorem OnceInv.finish (h : OnceInv s) (kind : EndKind) (runtime : Bool)
    (hsent : runtime = true → s.cancellationSent = true) (howner : s.owner ≠ .sending) :
    OnceInv (s.finish kind runtime) := by
  unfold RpcResponseStream.finish
  split
  · refine ⟨h.tally, h.past, fun e he hruntime => ?_⟩
    cases he
    exact ⟨hsent hruntime, howner⟩
  · exact h

/-! ## The tasks -/

/-- A helper task that gets to its `send` won the flag. -/
theorem helper_tally (s : RpcResponseStream) (stage : HelperStage) (due toCancel : Bool) :
    (decide ((s.helper stage due toCancel).1 = .sending)).toNat + s.cancellationSent.toNat =
      (s.helper stage due toCancel).2.toNat := by
  unfold helper
  cases stage with
  | waiting =>
    dsimp only
    split
    · simp
    · split <;> simp
  | swapping => cases s.cancellationSent <;> rfl
  | sending | absent | done => simp

/-- The flag stays set, and then no task gets to its `send`. -/
theorem helper_sent (hsent : s.cancellationSent = true) (stage : HelperStage) (due toCancel : Bool) :
    (s.helper stage due toCancel).2 = true ∧ (s.helper stage due toCancel).1 ≠ .sending := by
  have htally := helper_tally s stage due toCancel
  rw [hsent] at htally
  cases hflag : (s.helper stage due toCancel).2 with
  | false =>
    rw [hflag, Bool.toNat_true, Bool.toNat_false] at htally
    omega
  | true =>
    refine ⟨rfl, fun heq => ?_⟩
    rw [hflag, heq] at htally
    cases htally

/-- A helper task's step moves its message from those about to be sent to those sent. -/
theorem helper_moves (s : RpcResponseStream) (stage : HelperStage) (due toCancel : Bool)
    (message : CancelAttempt) :
    (if stage = .sending then s.attempts ++ [message] else s.attempts).length +
        (decide ((s.helper stage due toCancel).1 = .sending)).toNat + s.cancellationSent.toNat =
      s.attempts.length + (decide (stage = .sending)).toNat +
        (s.helper stage due toCancel).2.toNat := by
  have htally := helper_tally s stage due toCancel
  by_cases hsending : stage = .sending
  · rw [if_pos hsending, List.length_append, List.length_singleton, decide_eq_true hsending,
      Bool.toNat_true]
    omega
  · rw [if_neg hsending, decide_eq_false hsending, Bool.toNat_false]
    omega

theorem OnceInv.deadlineStep (h : OnceInv s) (toCancel : Bool) (taken : Result Unit) :
    OnceInv (s.deadlineStep toCancel taken) where
  tally := by
    have htally := h.tally
    have hmoves := helper_moves s s.deadlineTask s.expired toCancel (s.cancelMessage 2 taken)
    unfold pending at htally
    show (if s.deadlineTask = .sending then s.attempts ++ [s.cancelMessage 2 taken]
        else s.attempts).length +
      ((decide ((s.helper s.deadlineTask s.expired toCancel).1 = .sending)).toNat +
        (decide (s.parentTask = .sending)).toNat +
          (decide (s.owner = .sending)).toNat + s.spawned.isSome.toNat) =
        (s.helper s.deadlineTask s.expired toCancel).2.toNat
    omega
  past := fun hpast => (helper_sent (h.past hpast) _ _ _).1
  ended := fun e he hruntime =>
    ⟨(helper_sent (h.ended e he hruntime).1 _ _ _).1, (h.ended e he hruntime).2⟩

theorem OnceInv.parentStep (h : OnceInv s) (toCancel : Bool) (taken : Result Unit) :
    OnceInv (s.parentStep toCancel taken) where
  tally := by
    have htally := h.tally
    have hmoves := helper_moves s s.parentTask s.parentCanceled toCancel (s.cancelMessage 1 taken)
    unfold pending at htally
    show (if s.parentTask = .sending then s.attempts ++ [s.cancelMessage 1 taken]
        else s.attempts).length +
      ((decide (s.deadlineTask = .sending)).toNat +
        (decide ((s.helper s.parentTask s.parentCanceled toCancel).1 = .sending)).toNat +
          (decide (s.owner = .sending)).toNat + s.spawned.isSome.toNat) =
        (s.helper s.parentTask s.parentCanceled toCancel).2.toNat
    omega
  past := fun hpast => (helper_sent (h.past hpast) _ _ _).1
  ended := fun e he hruntime =>
    ⟨(helper_sent (h.ended e he hruntime).1 _ _ _).1, (h.ended e he hruntime).2⟩

theorem OnceInv.spawnedStep (h : OnceInv s) (taken : Result Unit) : OnceInv (s.spawnedStep taken) := by
  unfold RpcResponseStream.spawnedStep
  split
  · rename_i reason hspawned
    refine ⟨?_, h.past, h.ended⟩
    have htally := h.tally
    simp only [pending, hspawned, Option.isSome_some, Option.isSome_none, List.length_append,
      List.length_singleton, Bool.toNat_true, Bool.toNat_false] at htally ⊢
    omega
  · exact h

/-! ## The owner -/

/-- The owner goes on, with the flag and the messages as they are. -/
theorem OnceInv.goto (h : OnceInv s) {owner : OwnerStage} (hfrom : s.owner ≠ .sending)
    (hto : owner ≠ .sending) (hpast : owner.past = true → s.cancellationSent = true) :
    OnceInv (s.goto owner) :=
  h.same rfl rfl rfl rfl rfl rfl hfrom hto hpast

theorem OnceInv.poll (h : OnceInv s) (howner : s.owner = .idle) : OnceInv s.poll := by
  have hfrom : s.owner ≠ .sending := howner.trans_ne nofun
  unfold RpcResponseStream.poll
  split
  · exact h.same rfl rfl rfl rfl rfl rfl hfrom nofun nofun
  split
  · exact h.same rfl rfl rfl rfl rfl rfl hfrom nofun nofun
  · exact h.goto hfrom nofun nofun

theorem OnceInv.receive (h : OnceInv s) (howner : s.owner = .receiving) (input : ResponseInput) :
    OnceInv (s.receive input) := by
  have hfrom : s.owner ≠ .sending := howner.trans_ne nofun
  cases input with
  | pending => exact h.goto hfrom nofun nofun
  | lagged | closed => exact h.same rfl rfl rfl rfl rfl rfl hfrom nofun nofun
  | payload payload =>
    unfold RpcResponseStream.receive
    dsimp only
    split
    · exact h
    · exact h.same rfl rfl rfl rfl rfl rfl hfrom nofun nofun
    · exact h.same rfl rfl rfl rfl rfl rfl hfrom nofun nofun

theorem OnceInv.cancel (h : OnceInv s) (howner : s.owner = .idle) : OnceInv s.cancel := by
  unfold RpcResponseStream.cancel
  split
  · exact h
  split
  · exact h
  · exact h.goto (howner.trans_ne nofun) nofun nofun

/-- `cancel` is over, past its swap. -/
theorem OnceInv.settle (h : OnceInv s) (hpast : s.owner.past = true) (hfrom : s.owner ≠ .sending)
    (outcome : RpcCancellationOutcome) : OnceInv (s.settle outcome) :=
  h.same rfl rfl rfl rfl rfl rfl hfrom nofun fun _ => h.past hpast

theorem OnceInv.awaited (h : OnceInv s) (howner : s.owner = .awaitingResult) (result : CancelWait) :
    OnceInv (s.awaited result) := by
  have hfrom : s.owner ≠ .sending := howner.trans_ne nofun
  have hpast : s.owner.past = true := congrArg OwnerStage.past howner
  cases result with
  | received payload =>
    unfold RpcResponseStream.awaited
    dsimp only
    split
    · exact h.settle hpast hfrom _
    · exact h
  | lagged => exact h
  | elapsed => exact h.settle hpast hfrom _
  | connectionClosed =>
    unfold RpcResponseStream.awaited
    dsimp only
    split
    · exact h.settle hpast hfrom _
    · exact h

/-- `spawn_cancellation_once` sets the flag with a message to send, if there is a runtime. -/
theorem OnceInv.spawnOnce (h : OnceInv s) (reason : UInt8) (runtime : Bool) :
    OnceInv (s.spawnOnce reason runtime) ∧
      (runtime = true → (s.spawnOnce reason runtime).cancellationSent = true) := by
  unfold RpcResponseStream.spawnOnce
  split
  · rename_i hnot
    refine ⟨h, fun hruntime => ?_⟩
    rw [hruntime] at hnot
    exact hnot.resolve_left nofun
  · rename_i hfree
    have hunsent : s.cancellationSent = false := by
      cases hsent : s.cancellationSent with
      | false => rfl
      | true => exact absurd (.inr hsent) hfree
    refine ⟨⟨?_, fun _ => rfl, fun e he hruntime => ⟨rfl, (h.ended e he hruntime).2⟩⟩, fun _ => rfl⟩
    have htally := h.tally
    rw [hunsent] at htally
    simp only [pending, Option.isSome_some, Bool.toNat_true, Bool.toNat_false] at htally ⊢
    omega

theorem OnceInv.abandoned (h : OnceInv s) (hfrom : s.owner ≠ .sending) (kind : EndKind) :
    OnceInv (s.abandoned kind) := by
  cases kind with
  | timedOut | parentCanceled | lagged => exact h.same rfl rfl rfl rfl rfl rfl hfrom nofun nofun
  | canceled | dropped => exact h.goto hfrom nofun nofun

/-- `cancel` swaps the flag. -/
theorem OnceInv.swap (h : OnceInv s) (howner : s.owner = .swapping) (hsent : s.cancellationSent = false) :
    OnceInv { s with cancellationSent := true, owner := .sending } where
  tally := by
    have htally := h.tally
    simp only [pending, hsent, howner, reduceCtorEq, decide_false, decide_true, Bool.toNat_true,
      Bool.toNat_false] at htally ⊢
    omega
  past := fun _ => rfl
  ended := by
    intro e he hruntime
    have hset := (h.ended e he hruntime).1
    rw [hsent] at hset
    cases hset

/-- `cancel` sends its message. -/
theorem OnceInv.sent (h : OnceInv s) (howner : s.owner = .sending) (message : CancelAttempt)
    (owner : OwnerStage) (finished timeout : Bool) (hto : owner ≠ .sending) :
    OnceInv { s with
      attempts := s.attempts ++ [message]
      finished := finished
      timeout := timeout
      owner := owner } := by
  have hsent : s.cancellationSent = true := h.past (congrArg OwnerStage.past howner)
  refine ⟨?_, fun _ => hsent, fun e he hruntime => ⟨hsent, hto⟩⟩
  have htally := h.tally
  simp only [pending, howner, hto, List.length_append, List.length_singleton, decide_true,
    decide_false, Bool.toNat_true, Bool.toNat_false] at htally ⊢
  omega

theorem OnceInv.advance (h : OnceInv s) (runtime : Bool) (taken : Result Unit) :
    OnceInv (s.advance runtime taken) := by
  cases howner : s.owner with
  | sending =>
    simp only [RpcResponseStream.advance, howner]
    rcases taken with error | ⟨⟩
    · exact h.sent howner _ (.settling (sendFailed error)) true false nofun
    · exact h.sent howner _ .awaitingSend s.finished s.timeout nofun
  | swapping =>
    simp only [RpcResponseStream.advance, howner]
    split
    · rename_i hsent
      exact h.goto (howner.trans_ne nofun) nofun fun _ => hsent
    · rename_i hsent
      exact h.swap howner (by simpa using hsent)
  | spawning kind reason =>
    have hfrom : s.owner ≠ .sending := howner.trans_ne nofun
    obtain ⟨hspawn, hset⟩ := h.spawnOnce reason runtime
    have hsame : (s.spawnOnce reason runtime).owner = s.owner := by
      unfold RpcResponseStream.spawnOnce
      split <;> rfl
    have hfinish := hspawn.finish kind runtime hset (hsame ▸ hfrom)
    have hsame' : ((s.spawnOnce reason runtime).finish kind runtime).owner = s.owner := by
      unfold RpcResponseStream.finish
      split <;> exact hsame
    simp only [RpcResponseStream.advance, howner]
    exact hfinish.abandoned (hsame' ▸ hfrom) kind
  | settling outcome =>
    have hfrom : s.owner ≠ .sending := howner.trans_ne nofun
    have hset : s.cancellationSent = true := h.past (congrArg OwnerStage.past howner)
    have hshut : OnceInv { s with shutdown := true, cancellationOutcome := some outcome } :=
      h.same rfl rfl rfl rfl rfl rfl hfrom hfrom fun _ => hset
    have hfinish := hshut.finish .canceled true (fun _ => hset) hfrom
    have hadvance : s.advance runtime taken =
        ({ s with shutdown := true, cancellationOutcome := some outcome }.finish .canceled true).goto
          .idle := by
      unfold RpcResponseStream.advance
      rw [howner]
    rw [hadvance]
    refine hfinish.goto ?_ nofun nofun
    unfold RpcResponseStream.finish
    split <;> exact hfrom
  | pollParent | pollTimeout =>
    have hfrom : s.owner ≠ .sending := howner.trans_ne nofun
    simp only [RpcResponseStream.advance, howner]
    split
    · exact h.same rfl rfl rfl rfl rfl rfl hfrom nofun nofun
    · exact h.goto hfrom nofun nofun
  | leaving | abandoning | disposing =>
    have hfrom : s.owner ≠ .sending := howner.trans_ne nofun
    simp only [RpcResponseStream.advance, howner]
    exact h.same rfl rfl rfl rfl rfl rfl hfrom nofun nofun
  | idle | receiving | awaitingSend | awaitingResult | gone =>
    simp only [RpcResponseStream.advance, howner]
    exact h

theorem onceInv_step (s : RpcResponseStream) (e : CallEvent) (h : OnceInv s) : OnceInv (s.step e) := by
  cases e with
  | expire | cancelParent | changeGeneration => exact ⟨h.tally, h.past, h.ended⟩
  | deadlineTask toCancel taken => exact h.deadlineStep toCancel taken
  | parentTask toCancel taken => exact h.parentStep toCancel taken
  | spawnedTask taken => exact h.spawnedStep taken
  | poll =>
    simp only [step]
    split
    · rename_i howner
      exact h.poll howner
    · exact h
  | receive input =>
    simp only [step]
    split
    · rename_i howner
      exact h.receive howner input
    · exact h
  | cancel =>
    simp only [step]
    split
    · rename_i howner
      exact h.cancel howner
    · exact h
  | sent result =>
    simp only [step]
    split
    · rename_i howner
      have hfrom : s.owner ≠ .sending := howner.trans_ne nofun
      have hpast : s.owner.past = true := congrArg OwnerStage.past howner
      split
      · exact h.goto hfrom nofun fun _ => h.past hpast
      · exact h.settle hpast hfrom _
    · exact h
  | await result =>
    simp only [step]
    split
    · rename_i howner
      exact h.awaited howner result
    · exact h
  | abort =>
    simp only [step]
    split
    · rename_i howner
      have hfrom : s.owner ≠ .sending := by
        rcases howner with heq | heq
        · exact heq.trans_ne nofun
        · exact heq.trans_ne nofun
      exact h.goto hfrom nofun nofun
    · exact h
  | drop =>
    simp only [step]
    split
    · rename_i howner
      have hfrom : s.owner ≠ .sending := howner.trans_ne nofun
      split
      · exact h.goto hfrom nofun nofun
      · exact h.goto hfrom nofun nofun
    · exact h
  | advance runtime taken => exact h.advance runtime taken

/-! ## The law -/

/-- Every task takes its next step. -/
def tasksRun (taken taken' taken'' : Result Unit) : List CallEvent :=
  [.deadlineTask true taken, .parentTask true taken', .spawnedTask taken'']

/-- When the flag is set and `cancel` has not its message to send, a task has. -/
theorem OnceInv.drained (h : OnceInv s) (hsent : s.cancellationSent = true) (howner : s.owner ≠ .sending)
    (taken taken' taken'' : Result Unit) :
    (run step s (tasksRun taken taken' taken'')).attempts.length = 1 := by
  have hlast := ((h.deadlineStep true taken).parentStep true taken').spawnedStep taken''
  have hfirst := helper_sent hsent s.deadlineTask s.expired true
  have hsecond := helper_sent (s := s.deadlineStep true taken) hfirst.1 s.parentTask s.parentCanceled true
  generalize hs : (s.deadlineStep true taken).parentStep true taken' = s₂ at hlast
  have hdeadline : s₂.deadlineTask ≠ .sending := by
    rw [← hs]
    exact hfirst.2
  have hparent : s₂.parentTask ≠ .sending := by
    rw [← hs]
    exact hsecond.2
  have hset : s₂.cancellationSent = true := by
    rw [← hs]
    exact hsecond.1
  have howner' : s₂.owner ≠ .sending := by
    rw [← hs]
    exact howner
  have hrun : run step s (tasksRun taken taken' taken'') = s₂.spawnedStep taken'' := by
    rw [← hs]
    rfl
  rw [hrun]
  have htally := hlast.tally
  unfold RpcResponseStream.spawnedStep at htally ⊢
  split at htally
  · simp only [pending, hdeadline, hparent, howner', hset, decide_false, Bool.toNat_false,
      Bool.toNat_true, Option.isSome_none] at htally
    exact htally
  · rename_i hspawned
    simp only [pending, hdeadline, hparent, howner', hset, hspawned, decide_false, Bool.toNat_false,
      Bool.toNat_true, Option.isSome_none] at htally
    exact htally

/-- The cancellation of a call. -/
structure CanceledOnce (s : RpcResponseStream) : Prop where
  at_most : s.handed.length ≤ 1
  /-- a stream that has ended early gave one message to `send`, or somebody is about to -/
  ended : ∀ e, s.ended = some e → e.runtime = true → s.attempts.length + s.pending = 1
  /-- that is a task at its next step, and the connection has the message unless it refuses -/
  sent : ∀ e, s.ended = some e → e.runtime = true → ∀ taken taken' taken'',
    ∃ attempt, (run step s (tasksRun taken taken' taken'')).attempts = [attempt] ∧
      (attempt.taken = .ok () → (run step s (tasksRun taken taken' taken'')).handed = [attempt])

theorem OnceInv.canceledOnce (h : OnceInv s) : CanceledOnce s where
  at_most := by
    have hle : s.handed.length ≤ s.attempts.length := List.length_filter_le _ _
    have htally := h.tally
    have hone := Bool.toNat_le s.cancellationSent
    omega
  ended := by
    intro e he hruntime
    have htally := h.tally
    rw [(h.ended e he hruntime).1] at htally
    exact htally
  sent := by
    intro e he hruntime taken taken' taken''
    obtain ⟨hsent, howner⟩ := h.ended e he hruntime
    obtain ⟨attempt, hattempt⟩ :=
      List.length_eq_one_iff.1 (h.drained hsent howner taken taken' taken'')
    refine ⟨attempt, hattempt, fun htaken => ?_⟩
    simp [handed, hattempt, htaken]

end RpcResponseStream

/-- **A call is cancelled once**, in every interleaving of its tasks and its owner. -/
theorem call_canceled_once (correlationId : Bytes) (timed parented : Bool) (es : List CallEvent) :
    RpcResponseStream.CanceledOnce
      (run RpcResponseStream.step (.start correlationId timed parented) es) :=
  (run_inv RpcResponseStream.onceInv_step
    (RpcResponseStream.onceInv_start correlationId timed parented) es).canceledOnce

/-- The stream is dropped while the channel of the connection is full. -/
def refusedRun : List CallEvent :=
  [.drop, .advance true (.ok ()), .advance true (.ok ()),
    .spawnedTask (.error (.backpressure "outbound request queue is full"))]

/-- It has ended, nobody has a message to send, and the connection has none. -/
theorem cancellation_refused :
    (run RpcResponseStream.step (.start [] false false) refusedRun).ended = some ⟨.dropped, true⟩ ∧
      (run RpcResponseStream.step (.start [] false false) refusedRun).excused = false ∧
      (run RpcResponseStream.step (.start [] false false) refusedRun).pending = 0 ∧
      (run RpcResponseStream.step (.start [] false false) refusedRun).handed = [] := by
  decide +kernel

end Fitz
