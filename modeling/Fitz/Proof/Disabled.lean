import Fitz.Proof.Moves

/-!
# Reconnection disabled

`connect_and_run` consults `ReconnectPolicy::enabled` where `open_session` failed,
and not where a session was lost. `disabled_attempts`: with the flag off, a run
makes each `open_session` on behalf of its own `Connect` command and announces
each loss as `Disconnected` exactly when it loses no session.
-/

namespace Fitz

open Machine

/-- What a history leaves open: an attempt owed to a `Connect` command, or a loss
not yet announced. -/
inductive Phase
  | idle
  | owed (response : Ticket)
  | lost
  deriving DecidableEq

def Phase.add (p : Phase) : Act → Phase
  | .call t => .owed t
  | .openSession _ => .idle
  | .lost => .lost
  | .publish _ => if p = .lost then .idle else p
  | _ => p

def phase (h : List Act) : Phase := h.foldl Phase.add .idle

@[simp] theorem phase_append (h l : List Act) : phase (h ++ l) = l.foldl Phase.add (phase h) := by
  simp [phase]

/-- What a disabled policy promises of an act after the history `h`: a session is
opened only for the command that is owed one, and a loss is announced as
`Disconnected`. -/
def OneAttempt (h : List Act) : Act → Prop
  | .openSession onBehalf => ∃ t, onBehalf = some t ∧ phase h = .owed t
  | .publish state => phase h = .lost → state = .disconnected
  | _ => True

/-- The promise over a whole history; a task that is suspended has announced
every loss. -/
def DisabledOk (s : Supervised) : Prop :=
  Each OneAttempt s.acts ∧ (s.sup.pc.suspended = true → phase s.acts ≠ .lost)

/-- The step does not end a session by a loss. -/
def KeepsSession (s : Supervised) (e : SupEvent) : Prop :=
  ¬(s.sup.pc = .session ∧ e = .disconnected)

instance (s : Supervised) (e : SupEvent) : Decidable (KeepsSession s e) :=
  inferInstanceAs (Decidable (¬_))

variable {policy : ReconnectPolicy}

/-- No session was lost: the promise holds, and nothing is retried. -/
structure Unbroken (sup : Sup) (h : List Act) : Prop where
  each : Each OneAttempt h
  attempts : sup.attempts = 0
  pc : sup.pc ≠ .lost ∧ sup.pc ≠ .retrying ∧ sup.pc ≠ .sleeping
  announced : phase h ≠ .lost
  owed : sup.pc = .starting ∨ sup.pc = .checking →
    ∃ t, sup.initialResponse = some t ∧ phase h = .owed t
  caller : sup.pc.opening = true → sup.initialResponse.isSome = true

/-- The first loss is not announced yet. -/
structure Losing (sup : Sup) (h : List Act) : Prop where
  attempts : sup.attempts = 0
  pc : sup.pc = .lost ∨ sup.pc = .retrying
  phase : phase h = .lost

/-- Replies leave a history as open as it was. -/
theorem foldl_replyInitial (s : Sup) (r : Result Unit) (p : Phase) :
    (s.replyInitial r).foldl Phase.add p = p := by
  unfold Sup.replyInitial
  split <;> rfl

theorem eachFrom_replyInitial (s : Sup) (r : Result Unit) (h : List Act) :
    EachFrom OneAttempt h (s.replyInitial r) := by
  unfold Sup.replyInitial
  split
  · exact ⟨trivial, trivial⟩
  · trivial

/-- A move that opens nothing and finds every loss announced. -/
theorem Unbroken.goto {s s' : Sup} {h acts : List Act} (hu : Unbroken s h)
    (heach : EachFrom OneAttempt h acts) (hphase : acts.foldl Phase.add (phase h) = phase h)
    (hn : s'.attempts = 0) (hpc : s'.pc ≠ .lost ∧ s'.pc ≠ .retrying ∧ s'.pc ≠ .sleeping)
    (howed : s'.pc = .starting ∨ s'.pc = .checking →
      (s.pc = .starting ∨ s.pc = .checking) ∧ s'.initialResponse = s.initialResponse)
    (hcall : s'.pc.opening = true →
      s.pc.opening = true ∧ s'.initialResponse = s.initialResponse) :
    Unbroken s' (h ++ acts) := by
  refine ⟨each_append.2 ⟨hu.each, heach⟩, hn, hpc, ?_, fun hp => ?_, fun hp => ?_⟩
  · rw [phase_append, hphase]
    exact hu.announced
  · obtain ⟨hp', hi⟩ := howed hp
    rw [phase_append, hphase, hi]
    exact hu.owed hp'
  · obtain ⟨hp', hi⟩ := hcall hp
    rw [hi]
    exact hu.caller hp'

/-- While no session is lost, a publication is free and leaves the history as
open as it was. -/
theorem Unbroken.publish {s : Sup} {h : List Act} (hu : Unbroken s h) (state : ConnectionState) :
    OneAttempt h (.publish state) ∧ (phase h).add (.publish state) = phase h :=
  ⟨fun hl => absurd hl hu.announced, by simp [Phase.add, hu.announced]⟩

theorem Unbroken.announce {s s' : Sup} {h : List Act} (hu : Unbroken s h) (state : ConnectionState)
    (hn : s'.attempts = 0) (hpc : s'.pc ≠ .lost ∧ s'.pc ≠ .retrying ∧ s'.pc ≠ .sleeping)
    (howed : s'.pc = .starting ∨ s'.pc = .checking →
      (s.pc = .starting ∨ s.pc = .checking) ∧ s'.initialResponse = s.initialResponse)
    (hcall : s'.pc.opening = true →
      s.pc.opening = true ∧ s'.initialResponse = s.initialResponse) :
    Unbroken s' (h ++ [.publish state]) :=
  hu.goto ⟨(hu.publish state).1, trivial⟩ (hu.publish state).2 hn hpc howed hcall

/-- **One transition of a supervisor that has lost nothing.** With the flag off
it keeps the promise, or loses the session. -/
theorem move_unbroken (hen : policy.enabled = false) {e : SupEvent} {s s' : Sup}
    {acts h : List Act} (hm : Move policy e s s' acts) (hu : Unbroken s h) :
    Unbroken s' (h ++ acts) ∨ Act.lost ∈ acts ∧ Losing s' (h ++ acts) := by
  have hpub := hu.publish
  cases hm with
  | stay => exact .inl (by simpa using hu)
  | requestClose =>
    exact .inl (hu.goto trivial rfl hu.attempts hu.pc (fun hp => ⟨hp, rfl⟩) (fun hp => ⟨hp, rfl⟩))
  | call t =>
    refine .inl ⟨each_append.2 ⟨hu.each, trivial, trivial⟩, rfl, by simp, by simp [Phase.add],
      fun _ => ⟨t, rfl, by simp [Phase.add]⟩, fun _ => rfl⟩
  | closeIdle t =>
    refine .inl (hu.goto ⟨(hpub _).1, trivial, trivial⟩ ?_ hu.attempts ?_ ?_ ?_)
    · exact (hpub .closed).2
    all_goals simp [Pc.opening]
  | hangupIdle =>
    exact .inl (hu.goto trivial rfl hu.attempts (by simp) (by simp) (by simp [Pc.opening]))
  | start =>
    exact .inl (hu.announce _ hu.attempts (by simp) (by simp)
      (by simp [Pc.opening]))
  | closedBefore =>
    exact .inl (hu.announce _ rfl (by simp) (by simp)
      (by simp [Pc.opening]))
  | openSession =>
    refine .inl ⟨each_append.2 ⟨hu.each, hu.owed (.inr rfl), trivial⟩, hu.attempts, by simp,
      by simp [Phase.add], by simp, fun _ => hu.caller rfl⟩
  | dial =>
    exact .inl (hu.announce _ hu.attempts (by simp) (by simp)
      (by simp [Pc.opening]))
  | connect =>
    exact .inl (hu.announce _ hu.attempts (by simp) (by simp)
      (by simp [Pc.opening]))
  | hello =>
    exact .inl (hu.goto trivial rfl hu.attempts (by simp) (by simp) (by simp [Pc.opening]))
  | fail error hpc =>
    refine .inl (hu.goto trivial rfl hu.attempts (by simp) (by simp) (fun _ => ⟨?_, rfl⟩))
    rcases hpc with rfl | rfl | rfl <;> rfl
  | closedAfter =>
    exact .inl (hu.announce _ rfl (by simp) (by simp)
      (by simp [Pc.opening]))
  | restore =>
    exact .inl (hu.goto trivial rfl hu.attempts (by simp) (by simp) (by simp [Pc.opening]))
  | restored =>
    exact .inl (hu.goto trivial rfl hu.attempts (by simp) (by simp) (by simp [Pc.opening]))
  | resetIds =>
    exact .inl (hu.goto trivial rfl hu.attempts (by simp) (by simp) (by simp [Pc.opening]))
  | announce =>
    refine .inl (hu.goto ⟨(hpub _).1, eachFrom_replyInitial _ _ _⟩ ?_ hu.attempts (by simp) (by simp)
      (by simp [Pc.opening]))
    rw [List.foldl_cons, foldl_replyInitial, (hpub _).2]
  | enter =>
    exact .inl (hu.goto trivial rfl hu.attempts (by simp) (by simp) (by simp [Pc.opening]))
  | giveUp state r =>
    refine .inl (hu.goto ⟨(hpub _).1, eachFrom_replyInitial _ _ _⟩ ?_ rfl (by simp) (by simp)
      (by simp [Pc.opening]))
    rw [List.foldl_cons, foldl_replyInitial, (hpub _).2]
  -- with reconnection off nothing is retried
  | retry hen' => simp [hen] at hen'
  | connected t =>
    exact .inl (hu.goto ⟨trivial, trivial⟩ rfl hu.attempts (by simp) (by simp) (by simp [Pc.opening]))
  | close t =>
    exact .inl (hu.goto trivial rfl hu.attempts (by simp) (by simp) (by simp [Pc.opening]))
  | closed t =>
    refine .inl (hu.goto ⟨trivial, ?_, trivial⟩ (hpub .closed).2 rfl (by simp) (by simp)
      (by simp [Pc.opening]))
    intro hl
    exact absurd (by simpa [Phase.add] using hl) hu.announced
  | hangup => exact .inl (hu.goto trivial rfl rfl (by simp) (by simp) (by simp [Pc.opening]))
  -- the loss is recorded, and the task stands at its end
  | lose => exact .inr ⟨List.mem_singleton_self _, hu.attempts, .inl rfl, by simp [Phase.add]⟩
  -- these moves are of a task that has lost its session
  | bump => exact absurd rfl hu.pc.1
  | exhaust => exact absurd rfl hu.pc.2.1
  | sleep => exact absurd rfl hu.pc.2.1
  | wake => exact absurd rfl hu.pc.2.2

/-- **The transition after the first loss** announces it as `Reconnecting`. -/
theorem move_losing {e : SupEvent} {s s' : Sup} {acts h : List Act}
    (hm : Move policy e s s' acts)
    (hl : Losing s h) : Losing s' (h ++ acts) ∨ ¬ Each OneAttempt (h ++ acts) := by
  have hpc := hl.pc
  cases hm with
  | stay => exact .inl (by simpa using hl)
  | requestClose => exact .inl ⟨hl.attempts, hl.pc, by simpa using hl.phase⟩
  | bump => exact .inl ⟨hl.attempts, .inr rfl, by simpa using hl.phase⟩
  | exhaust hmax hn =>
    have h0 : _ = 0 := hl.attempts
    subst h0
    omega
  | sleep hn =>
    right
    intro heach
    have hpub := (each_append.1 heach).2.1
    exact absurd (hpub hl.phase) (by simp)
  | fail error hpc' => rcases hpc' with rfl | rfl | rfl <;> simp at hpc
  | _ => simp at hpc

/-- A loss is the end of a live session by its transport. -/
theorem lost_mem_move {e : SupEvent} {s s' : Sup} {acts : List Act} (hm : Move policy e s s' acts)
    (h : Act.lost ∈ acts) : s.pc = .session ∧ e = .disconnected := by
  have hreply : ∀ (s : Sup) r, Act.lost ∉ s.replyInitial r := by
    intro s r
    unfold Sup.replyInitial
    split <;> simp
  cases hm with
  | lose => exact ⟨rfl, rfl⟩
  | _ => simp [hreply] at h

/-! ## Whole runs -/

theorem step_unbroken (hen : policy.enabled = false) (s : Supervised) (e : SupEvent)
    (hu : Unbroken s.sup s.acts) :
    (KeepsSession s e → Unbroken (s.step policy e).sup (s.step policy e).acts) ∧
      (¬ KeepsSession s e → Losing (s.step policy e).sup (s.step policy e).acts) := by
  have hm := move_unbroken hen (step_move policy s.sup e) hu
  constructor
  · intro hk
    rcases hm with hm | ⟨hlost, -⟩
    · exact hm
    · exact absurd (lost_mem_move (step_move policy s.sup e) hlost) hk
  · intro hk
    obtain ⟨hpc, rfl⟩ := not_not.1 hk
    have hstep : s.sup.step policy .disconnected = s.sup.goto .lost [.lost] := by
      unfold Sup.step; split <;> simp_all
    exact ⟨by simp [Supervised.step, hstep, Sup.goto, hu.attempts],
      by simp [Supervised.step, hstep, Sup.goto],
      by simp [Supervised.step, hstep, Sup.goto, Phase.add]⟩

/-- Once the first loss is on its way, or was announced, the promise is not kept
when the task suspends. -/
def Broken (s : Supervised) : Prop := Losing s.sup s.acts ∨ ¬ Each OneAttempt s.acts

theorem step_broken (s : Supervised) (e : SupEvent) (hb : Broken s) :
    Broken (s.step policy e) := by
  rcases hb with hl | he
  · exact move_losing (step_move policy s.sup e) hl
  · exact .inr fun h => he (each_append.1 h).1

theorem run_broken (hen : policy.enabled = false) (s : Supervised) (es : List SupEvent)
    (hu : Unbroken s.sup s.acts) (hk : ¬ Along (Supervised.step policy) KeepsSession s es) :
    Broken (run (Supervised.step policy) s es) := by
  induction es generalizing s with
  | nil => exact absurd trivial hk
  | cons e es ih =>
    by_cases hke : KeepsSession s e
    · exact ih _ ((step_unbroken hen s e hu).1 hke) fun h => hk ⟨hke, h⟩
    · exact run_inv step_broken (.inl ((step_unbroken hen s e hu).2 hke)) es

theorem unbroken_new : Unbroken Supervised.new.sup Supervised.new.acts :=
  ⟨each_nil _, rfl, by simp [Supervised.new, Sup.new], by simp [Supervised.new, phase],
    by simp [Supervised.new, Sup.new], by simp [Supervised.new, Sup.new, Pc.opening]⟩

theorem Broken.not_ok {s : Supervised} (hb : Broken s) (hs : s.sup.pc.suspended = true) :
    ¬ DisabledOk s := by
  rintro ⟨heach, -⟩
  rcases hb with hl | he
  · rcases hl.pc with hpc | hpc <;> simp [hpc, Pc.suspended] at hs
  · exact he heach

/-- **Reconnection disabled.** With `enabled` off, in every run that ends with the
task suspended: every `open_session` is the one attempt of a `Connect` command
and every loss is announced as `Disconnected`, exactly when no step of the run
loses a session. -/
theorem disabled_attempts (policy : ReconnectPolicy) (hen : policy.enabled = false)
    (es : List SupEvent)
    (hs : (run (Supervised.step policy) .new es).sup.pc.suspended = true) :
    DisabledOk (run (Supervised.step policy) .new es) ↔
      Along (Supervised.step policy) KeepsSession .new es := by
  constructor
  · intro hok
    by_contra hk
    exact (run_broken hen .new es unbroken_new hk).not_ok hs hok
  · intro hk
    have hu := along_inv (fun s e hu hke => (step_unbroken hen s e hu).1 hke)
      (I := fun s : Supervised => Unbroken s.sup s.acts) unbroken_new hk
    exact ⟨hu.each, fun _ => hu.announced⟩

theorem disabled_attempts_connected :
    DisabledOk (run (Supervised.step ⟨false, 0⟩) .new ([.connect 0, .advance] ++ openRun)) :=
  (disabled_attempts ⟨false, 0⟩ rfl _ (by decide +kernel)).2 (by decide +kernel)

/-- With the flag off, a lost session is announced as `Reconnecting`, and a
session is opened on behalf of nobody. -/
theorem disabled_reopens :
    ∃ es, (run (Supervised.step ⟨false, 0⟩) .new es).sup.pc.suspended = true ∧
      Act.openSession none ∈ (run (Supervised.step ⟨false, 0⟩) .new es).acts ∧
      ¬ DisabledOk (run (Supervised.step ⟨false, 0⟩) .new es) := by
  refine ⟨[.connect 0, .advance] ++ openRun ++ loseRun ++ [.wake, .advance], by decide +kernel,
    by decide +kernel, ?_⟩
  rintro ⟨heach, -⟩
  obtain ⟨t, ht, -⟩ := heach (run (Supervised.step ⟨false, 0⟩) .new
    ([.connect 0, .advance] ++ openRun ++ loseRun ++ [.wake])).acts (.openSession none) []
    (by decide +kernel)
  exact absurd ht (by simp)

end Fitz
