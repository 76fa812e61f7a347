import Fitz.Proof.Moves

/-!
# The reconnect budget

`connect_and_run` keeps one counter of attempts for all the sessions it runs, and
never resets it. `budget_per_outage`: in every run, an outage has the full budget
of `maximum_attempts` and a backoff that starts from exponent zero exactly when
it is the first loss of its `connect_and_run` call.
-/

namespace Fitz

open Machine

/-- What a history says about the running `connect_and_run`: sessions lost and
delays taken since it was called, attempts and delays since the last loss. -/
structure Tally where
  losses : ℕ
  sleeps : ℕ
  opens : ℕ
  delays : ℕ
  deriving DecidableEq

def Tally.add (t : Tally) : Act → Tally
  | .call _ => ⟨0, 0, 0, 0⟩
  | .lost => ⟨t.losses + 1, t.sleeps, 0, 0⟩
  | .sleep _ => ⟨t.losses, t.sleeps + 1, t.opens, t.delays + 1⟩
  | .openSession _ => { t with opens := t.opens + 1 }
  | _ => t

def tally (h : List Act) : Tally := h.foldl Tally.add ⟨0, 0, 0, 0⟩

@[simp] theorem tally_append (h l : List Act) : tally (h ++ l) = l.foldl Tally.add (tally h) := by
  simp [tally]

/-- What an outage is entitled to, at each decision after the history `h`: the
exponent counts the attempts of this outage, there are at most `maximum_attempts`
of them, and the supervisor gives up only when there were that many. -/
def OutageOk (policy : ReconnectPolicy) (h : List Act) : Act → Prop
  | .sleep exponent =>
    exponent = backoffExponent ((tally h).opens + 1) ∧
      (policy.maximumAttempts ≠ 0 → (tally h).opens < policy.maximumAttempts)
  | .exhausted => policy.maximumAttempts ≠ 0 ∧ (tally h).opens = policy.maximumAttempts
  | _ => True

/-- The decisions that show how an outage is treated: its first delay, and giving
up. -/
def Decisive (h : List Act) : Act → Prop
  | .sleep _ => (tally h).opens = 0
  | .exhausted => True
  | _ => False

/-- The two directions together, at one entry of a history. -/
def BudgetEntry (policy : ReconnectPolicy) (h : List Act) (a : Act) : Prop :=
  ((tally h).losses = 1 → OutageOk policy h a) ∧
    (Decisive h a → OutageOk policy h a → (tally h).losses = 1)

/-- An act that is no decision satisfies its entry. -/
theorem budgetEntry_of_quiet {policy : ReconnectPolicy} {h : List Act} {a : Act}
    (ha : ∀ e, a ≠ .sleep e) (hx : a ≠ .exhausted) : BudgetEntry policy h a := by
  cases a with
  | sleep e => exact absurd rfl (ha e)
  | exhausted => exact absurd rfl hx
  | _ => exact ⟨fun _ => trivial, fun hd => absurd hd id⟩

/-- How far the attempts and delays of an outage agree, by program counter. -/
def Balance (t : Tally) : Pc → Prop
  | .recv | .done => True
  | .starting => False
  | .lost => t.opens = 0 ∧ t.delays = 0
  | .retrying => t.opens = t.delays
  | .sleeping | .checking => t.delays = t.opens + 1
  | _ => t.opens = t.delays ∧ 1 ≤ t.delays

/-- The invariant of `connect_and_run`: `attempts` counts the delays since the
call, and those exceed the delays of the outage from the second loss on. -/
structure BudgetInv (policy : ReconnectPolicy) (sup : Sup) (t : Tally) : Prop where
  attempts : sup.attempts = t.sleeps
  bound : policy.maximumAttempts ≠ 0 → t.sleeps ≤ policy.maximumAttempts
  first : t.losses = 0 → t.sleeps = 0
  single : t.losses = 1 → t.sleeps = t.delays
  later : 2 ≤ t.losses → t.delays < t.sleeps
  balance : 1 ≤ t.losses → Balance t sup.pc
  initial : sup.pc.opening = true → (sup.initialResponse.isSome ↔ t.losses = 0)
  outage : sup.pc = .lost ∨ sup.pc = .retrying ∨ sup.pc = .sleeping → 1 ≤ t.losses
  answered : sup.pc.opening = false → sup.initialResponse = none

variable {policy : ReconnectPolicy}

/-- Acts that neither count nor decide. -/
def Act.quiet : Act → Bool
  | .publish _ | .reply _ _ => true
  | _ => false

theorem foldl_add_quiet (l : List Act) (hl : ∀ a ∈ l, a.quiet = true) (t : Tally) :
    l.foldl Tally.add t = t := by
  induction l with
  | nil => rfl
  | cons a l ih =>
    have ha := hl a List.mem_cons_self
    have hadd : t.add a = t := by cases a <;> first | rfl | simp [Act.quiet] at ha
    rw [List.foldl_cons, hadd]
    exact ih (fun b hb => hl b (List.mem_cons_of_mem _ hb))

theorem eachFrom_quiet (l : List Act) (hl : ∀ a ∈ l, a.quiet = true) (h : List Act) :
    EachFrom (BudgetEntry policy) h l := by
  induction l generalizing h with
  | nil => trivial
  | cons a l ih =>
    have ha := hl a List.mem_cons_self
    refine ⟨budgetEntry_of_quiet ?_ ?_, ih (fun b hb => hl b (List.mem_cons_of_mem _ hb)) _⟩
    · rintro e rfl; simp [Act.quiet] at ha
    · rintro rfl; simp [Act.quiet] at ha

theorem replyInitial_quiet (s : Sup) (r : Result Unit) :
    ∀ a ∈ s.replyInitial r, a.quiet = true := by
  unfold Sup.replyInitial
  intro a ha
  split at ha
  · rw [List.mem_singleton.1 ha]; rfl
  · simp at ha

/-- The invariant over whole states: inside `connect_and_run`. -/
def BudgetState (policy : ReconnectPolicy) (s : Supervised) : Prop :=
  (s.sup.pc ≠ .recv → s.sup.pc ≠ .done → BudgetInv policy s.sup (tally s.acts)) ∧
    Each (BudgetEntry policy) s.acts

/-- A move within `connect_and_run` that counts nothing. -/
theorem BudgetInv.goto {pc pc' : Pc} {n : ℕ} {i : Option Ticket} {c : Bool} {t : Tally}
    (h : BudgetInv policy ⟨pc, n, i, c⟩ t) (hb : Balance t pc → Balance t pc')
    (ho : pc'.opening = true → pc.opening = true)
    (hx : pc' = .lost ∨ pc' = .retrying ∨ pc' = .sleeping → 1 ≤ t.losses)
    (hn : pc'.opening = false → i = none) : BudgetInv policy ⟨pc', n, i, c⟩ t :=
  ⟨h.attempts, h.bound, h.first, h.single, h.later, fun hl => hb (h.balance hl),
    fun hp => h.initial (ho hp), hx, hn⟩

/-- A lost session starts an outage with no attempts of its own. -/
theorem BudgetInv.lose {n : ℕ} {i : Option Ticket} {c : Bool} {t : Tally}
    (h : BudgetInv policy ⟨.session, n, i, c⟩ t) :
    BudgetInv policy ⟨.lost, n, i, c⟩ (t.add .lost) := by
  have hbal : 1 ≤ t.losses → t.opens = t.delays ∧ 1 ≤ t.delays := h.balance
  have hsingle := h.single
  have hlater := h.later
  refine ⟨h.attempts, h.bound, ?_, ?_, ?_, fun _ => ⟨rfl, rfl⟩, by simp [Pc.opening], fun _ => ?_,
    fun _ => h.answered rfl⟩
  all_goals simp only [Tally.add]
  · omega
  · intro hl
    exact h.first (by omega)
  · intro hl
    have := hbal (by omega)
    rcases Nat.eq_or_lt_of_le (show 1 ≤ t.losses by omega) with h1 | h1
    · have := hsingle h1.symm; omega
    · have := hlater h1; omega
  · omega

/-- A delay is counted by the call and by the outage alike. -/
theorem BudgetInv.sleep {n : ℕ} {i : Option Ticket} {c : Bool} {t : Tally} (e : ℕ)
    (h : BudgetInv policy ⟨.retrying, n, i, c⟩ t)
    (hn : policy.maximumAttempts ≠ 0 → n + 1 ≤ policy.maximumAttempts) :
    BudgetInv policy ⟨.sleeping, n + 1, i, c⟩ (t.add (.sleep e)) := by
  have hloss : 1 ≤ t.losses := h.outage (.inr (.inl rfl))
  have hbal : t.opens = t.delays := h.balance hloss
  have hatt : n = t.sleeps := h.attempts
  refine ⟨?_, ?_, ?_, ?_, ?_, fun _ => ?_, by simp [Pc.opening], fun _ => hloss,
    fun _ => h.answered rfl⟩
  all_goals simp only [Tally.add, Balance]
  · omega
  · intro hmax
    have := hn hmax; omega
  · omega
  · intro hl
    have := h.single hl; omega
  · intro hl
    have := h.later hl; omega
  · omega

/-- The first delay of an outage, and every delay of a first outage. -/
theorem BudgetInv.sleep_entry {n : ℕ} {i : Option Ticket} {c : Bool} {h : List Act}
    (hinv : BudgetInv policy ⟨.retrying, n, i, c⟩ (tally h))
    (hn : policy.maximumAttempts ≠ 0 → n + 1 ≤ policy.maximumAttempts) :
    BudgetEntry policy h (.sleep (backoffExponent (n + 1))) := by
  have hloss : 1 ≤ (tally h).losses := hinv.outage (.inr (.inl rfl))
  have hbal : (tally h).opens = (tally h).delays := hinv.balance hloss
  have hatt : n = (tally h).sleeps := hinv.attempts
  constructor
  · intro hl
    have := hinv.single hl
    have hno : n = (tally h).opens := by omega
    exact ⟨by rw [hno], fun hmax => hno ▸ hn hmax⟩
  · intro hd hok
    simp only [Decisive] at hd
    have hexp : backoffExponent (n + 1) = backoffExponent ((tally h).opens + 1) := hok.1
    simp only [backoffExponent, hd] at hexp
    have hn0 : n = 0 := by omega
    by_contra hne
    have := hinv.later (by omega)
    omega

/-- Giving up. -/
theorem BudgetInv.exhaust_entry {n : ℕ} {i : Option Ticket} {c : Bool} {h : List Act}
    (hinv : BudgetInv policy ⟨.retrying, n, i, c⟩ (tally h)) (hmax : policy.maximumAttempts ≠ 0)
    (hn : policy.maximumAttempts < n + 1) : BudgetEntry policy h .exhausted := by
  have hloss : 1 ≤ (tally h).losses := hinv.outage (.inr (.inl rfl))
  have hbal : (tally h).opens = (tally h).delays := hinv.balance hloss
  have hatt : n = (tally h).sleeps := hinv.attempts
  have hle := hinv.bound hmax
  constructor
  · intro hl
    have := hinv.single hl
    exact ⟨hmax, by omega⟩
  · rintro - ⟨-, hok⟩
    by_contra hne
    have := hinv.later (by omega)
    omega

/-- **One transition keeps the invariant** and settles the decisions it takes. -/
theorem move_budget {e : SupEvent} {s s' : Sup} {acts : List Act}
    (hm : Move policy e s s' acts) (h : List Act)
    (hinv : s.pc ≠ .recv → s.pc ≠ .done → BudgetInv policy s (tally h)) :
    (s'.pc ≠ .recv → s'.pc ≠ .done → BudgetInv policy s' (acts.foldl Tally.add (tally h))) ∧
      EachFrom (BudgetEntry policy) h acts := by
  have hq : ∀ st, BudgetEntry policy h (.publish st) := fun st =>
    budgetEntry_of_quiet (by simp) (by simp)
  cases hm with
  | stay => exact ⟨hinv, trivial⟩
  | requestClose =>
    refine ⟨fun h1 h2 => ?_, trivial⟩
    obtain ⟨a1, a2, a3, a4, a5, a6, a7, a8, a9⟩ := hinv h1 h2
    exact ⟨a1, a2, a3, a4, a5, a6, a7, a8, a9⟩
  | call t =>
    refine ⟨fun _ _ => ?_, budgetEntry_of_quiet (by simp) (by simp), trivial⟩
    refine ⟨rfl, fun _ => Nat.zero_le _, fun _ => rfl, ?_, ?_, ?_, ?_, ?_, ?_⟩ <;>
      simp [Tally.add, Pc.opening]
  | closeIdle t => exact ⟨fun _ h2 => absurd rfl h2, eachFrom_quiet _ (by simp [Act.quiet]) h⟩
  | hangupIdle => exact ⟨fun _ h2 => absurd rfl h2, trivial⟩
  | closedBefore | closedAfter => exact ⟨fun h1 => absurd rfl h1, hq _, trivial⟩
  | giveUp state r =>
    refine ⟨fun h1 => absurd rfl h1, hq _, eachFrom_quiet _ (replyInitial_quiet _ _) _⟩
  | closed t => exact ⟨fun h1 => absurd rfl h1, eachFrom_quiet _ (by simp [Act.quiet]) h⟩
  | hangup => exact ⟨fun h1 => absurd rfl h1, trivial⟩
  | start =>
    refine ⟨fun _ _ => ?_, hq _, trivial⟩
    exact (hinv (by simp) (by simp)).goto (fun hf => absurd hf id) (by simp [Pc.opening]) (by simp)
      (by simp [Pc.opening])
  | openSession =>
    have hi := hinv (by simp) (by simp)
    refine ⟨fun _ _ => ?_, budgetEntry_of_quiet (by simp) (by simp), trivial⟩
    -- the attempt uses up the delay before it
    refine ⟨hi.attempts, hi.bound, hi.first, hi.single, hi.later, fun hl => ?_, hi.initial,
      by simp, by simp [Pc.opening]⟩
    have hb : (tally h).delays = (tally h).opens + 1 := hi.balance hl
    simp only [List.foldl_cons, List.foldl_nil, Tally.add, Balance]
    omega
  | dial | connect =>
    refine ⟨fun _ _ => ?_, hq _, trivial⟩
    exact (hinv (by simp) (by simp)).goto id (by simp [Pc.opening]) (by simp) (by simp [Pc.opening])
  | hello | restore | restored | resetIds =>
    refine ⟨fun _ _ => ?_, trivial⟩
    exact (hinv (by simp) (by simp)).goto id (by simp [Pc.opening]) (by simp) (by simp [Pc.opening])
  | fail error hpc =>
    refine ⟨fun _ _ => ?_, trivial⟩
    rcases hpc with rfl | rfl | rfl <;>
      exact (hinv (by simp) (by simp)).goto id (by simp [Pc.opening]) (by simp) (by simp [Pc.opening])
  | announce =>
    have hi := hinv (by simp) (by simp)
    refine ⟨fun _ _ => ?_, hq _, eachFrom_quiet _ (replyInitial_quiet _ _) _⟩
    rw [List.foldl_cons, foldl_add_quiet _ (replyInitial_quiet _ _)]
    exact ⟨hi.attempts, hi.bound, hi.first, hi.single, hi.later, hi.balance, by simp [Pc.opening], by simp,
      fun _ => rfl⟩
  | enter =>
    have hi := hinv (by simp) (by simp)
    exact ⟨fun _ _ => hi.goto id (by simp [Pc.opening]) (by simp) (fun _ => hi.answered rfl), trivial⟩
  | retry hen =>
    have hi := hinv (by simp) (by simp)
    -- without an initial caller there was a session, and it was lost
    have hloss : 1 ≤ (tally h).losses := by
      have h0 := hi.initial rfl
      simp only [Option.isSome_none, Bool.false_eq_true, false_iff] at h0
      omega
    exact ⟨fun _ _ => hi.goto And.left (by simp [Pc.opening]) (fun _ => hloss) (fun _ => rfl), trivial⟩
  | connected t => exact ⟨hinv, eachFrom_quiet _ (by simp [Act.quiet]) h⟩
  | close t =>
    have hi := hinv (by simp) (by simp)
    exact ⟨fun _ _ => hi.goto id (by simp [Pc.opening]) (by simp) (fun _ => hi.answered rfl), trivial⟩
  | lose =>
    exact ⟨fun _ _ => (hinv (by simp) (by simp)).lose,
      budgetEntry_of_quiet (by simp) (by simp), trivial⟩
  | bump =>
    have hi := hinv (by simp) (by simp)
    refine ⟨fun _ _ => hi.goto ?_ (by simp [Pc.opening]) (fun _ => hi.outage (.inl rfl))
      (fun _ => hi.answered rfl), trivial⟩
    rintro ⟨h1, h2⟩
    exact h1.trans h2.symm
  | exhaust hmax hn =>
    have hi := hinv (by simp) (by simp)
    exact ⟨fun h1 => absurd rfl h1, hi.exhaust_entry hmax hn,
      eachFrom_quiet _ (by simpa [Act.quiet] using replyInitial_quiet _ _) _⟩
  | sleep hn =>
    have hi := hinv (by simp) (by simp)
    refine ⟨fun _ _ => hi.sleep 0 hn, hq _, ?_, trivial⟩
    have ht : tally (h ++ [.publish .reconnecting]) = tally h := by simp [Tally.add]
    exact (ht ▸ hi).sleep_entry hn
  | wake =>
    have hi := hinv (by simp) (by simp)
    have hloss : 1 ≤ (tally h).losses := hi.outage (by simp)
    have hnone := hi.answered rfl
    refine ⟨fun _ _ => ⟨hi.attempts, hi.bound, hi.first, hi.single, hi.later, hi.balance,
      fun _ => ?_, by simp, by simp [Pc.opening]⟩, trivial⟩
    simp only at hnone
    subst hnone
    simp only [Option.isSome_none, Bool.false_eq_true, false_iff]
    exact Nat.one_le_iff_ne_zero.1 hloss

theorem step_budget (s : Supervised) (e : SupEvent) (h : BudgetState policy s) :
    BudgetState policy (s.step policy e) := by
  have hm := move_budget (step_move policy s.sup e) s.acts h.1
  refine ⟨?_, each_append.2 ⟨h.2, hm.2⟩⟩
  simp only [Supervised.step, tally_append]
  exact hm.1

theorem budgetState_new : BudgetState policy .new := ⟨fun h => absurd rfl h, each_nil _⟩

/-- **The reconnect budget.** In every run, each decision of the supervisor about
the first loss of a `connect_and_run` call is the one the policy promises an
outage; and where its first delay or its giving up is the promised one, the
outage is the first of its call. -/
theorem budget_per_outage (policy : ReconnectPolicy) (es : List SupEvent) (h after : List Act)
    (a : Act) (hacts : (run (Supervised.step policy) .new es).acts = h ++ a :: after) :
    ((tally h).losses = 1 → OutageOk policy h a) ∧
      (Decisive h a → OutageOk policy h a → (tally h).losses = 1) :=
  (run_inv step_budget budgetState_new es).2 h a after hacts

theorem budget_per_outage_firstLoss :
    OutageOk ⟨true, 1⟩ (run (Supervised.step ⟨true, 1⟩) .new
      ([.connect 0, .advance] ++ openRun ++ [.disconnected, .advance])).acts (.sleep 0) := by
  have hrun := budget_per_outage ⟨true, 1⟩ ([.connect 0, .advance] ++ openRun ++ loseRun)
    ((run (Supervised.step ⟨true, 1⟩) .new
      ([.connect 0, .advance] ++ openRun ++ [.disconnected, .advance])).acts ++
        [.publish .reconnecting]) [] (.sleep 0) (by decide +kernel)
  have hok := hrun.1 (by decide +kernel)
  simpa [OutageOk, Tally.add] using hok

/-- After a recovered outage the second one has no attempt at all: the supervisor
gives up with no `open_session` since the loss. -/
theorem budget_spent_by_first_outage :
    ∃ es h after, (run (Supervised.step ⟨true, 1⟩) .new es).acts = h ++ .exhausted :: after ∧
      (tally h).opens = 0 ∧ ¬ OutageOk ⟨true, 1⟩ h .exhausted := by
  refine ⟨[.connect 0, .advance] ++ openRun ++ loseRun ++ [.wake] ++ openRun ++ loseRun,
    (run (Supervised.step ⟨true, 1⟩) .new
      ([.connect 0, .advance] ++ openRun ++ loseRun ++ [.wake] ++ openRun ++ [.disconnected])).acts,
    [.publish .disconnected], by decide +kernel, by decide +kernel, ?_⟩
  rintro ⟨-, hopens⟩
  exact absurd hopens (by decide +kernel)

end Fitz
