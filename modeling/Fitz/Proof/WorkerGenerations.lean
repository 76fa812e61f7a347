import Fitz.Proof.WorkerCancels

/-!
# A generation change and the requests at a worker

The task of a worker that finds the generation changed cancels every call in its table
and drops what is in its inbox (`src/client_domains/rpc/worker.rs`). `changes_spare`: in
every run in which no worker accepts a request while a change is still before it, this
touches no request of the connection's generation. The change is polled for before the
requests are, and a request that arrives after both is cancelled (`change_cancels_fresh`).
-/

namespace Fitz

open Machine Tables

namespace Worker

variable {ch : Channels} {w : Worker} {e : WorkerEvent}

/-- The next step of the task is one that handles a generation change. -/
def handlesChange (w : Worker) : Bool := w.pc = .pollGeneration ∨ w.pc = .clearing

/-- From `w` to `w'` the requests of the connection's generation keep their tokens, their
places in the table and those in the inbox. -/
structure Spares (ch : Channels) (w w' : Worker) : Prop where
  tokens : ∀ (key : ℕ) r, w.requests[key]? = some r → r.generation = ch.generation →
    w'.requests[key]? = some r
  table : ∀ (key : ℕ) r, w.requests[key]? = some r → r.generation = ch.generation →
    ∀ id, w.active.lookup id = some key → w'.active.lookup id = some key
  inbox : ∀ (key : ℕ) r, w.requests[key]? = some r → r.generation = ch.generation →
    .ok key ∈ w.inbox → .ok key ∈ w'.inbox

/-- There is a generation change that the task is not through with. -/
def Changing (ch : Channels) (w : Worker) : Prop :=
  w.pc = .clearing ∨ w.seen ≠ ch.version ∨ ch.unannounced ≠ 0

instance : Decidable (Changing ch w) :=
  inferInstanceAs (Decidable (w.pc = .clearing ∨ w.seen ≠ ch.version ∨ ch.unannounced ≠ 0))

/-- The step makes a request of the frame it reads. -/
def accepts (ch : Channels) (w : Worker) (e : WorkerEvent) : Bool :=
  match w.touch ch e with
  | .request key _ => key = w.requests.length
  | _ => false

/-- No request is accepted with a generation change to come. -/
def Orders (ch : Channels) (w : Worker) (e : WorkerEvent) : Prop :=
  w.accepts ch e = true → ¬w.Changing ch

instance : Decidable (w.Orders ch e) :=
  inferInstanceAs (Decidable (w.accepts ch e = true → ¬w.Changing ch))

/-! ## What a step does about a change -/

theorem pc_pollRequests (w : Worker) (expired : Bool) :
    (w.pollRequests ch expired).pc ≠ .clearing := by
  intro h
  simp only [pollRequests, receive, goto] at h
  split at h
  · cases h
  split at h
  · cases h
  split at h
  · split at h <;> cases h
  · cases h

theorem pc_pollSignals (w : Worker) : (w.pollSignals ch).pc ≠ .clearing := by
  intro h
  simp only [pollSignals, goto] at h
  split at h
  · cases h
  split at h
  · cases h
  split at h <;> cases h

theorem pc_dropItem (item : Result ℕ) (runtime : Bool) : (w.dropItem ch item runtime).pc = w.pc := by
  cases item <;> rfl

theorem pc_dropWorker (runtime : Bool) : (w.dropWorker ch runtime).pc = w.pc := by
  unfold dropWorker
  split
  case h_4 => split <;> rfl
  case h_5 item items _ => exact pc_dropItem item runtime
  all_goals rfl

/-- The task begins to clear only when it has seen a change. -/
theorem clearing_origin (h : (w.step ch e).pc = .clearing) :
    w.pc = .clearing ∨ w.pc = .pollGeneration ∧ w.seen ≠ ch.version := by
  cases e with
  | advance expired =>
    cases hpc : w.pc with
    | pollGeneration =>
      simp only [step, advance, hpc] at h
      split at h
      · cases h
      · rename_i hseen
        exact .inr ⟨rfl, hseen⟩
    | pollRequest =>
      simp only [step, advance, hpc] at h
      exact absurd h (pc_pollRequests w expired)
    | pollSignal =>
      simp only [step, advance, hpc] at h
      exact absurd h (pc_pollSignals w)
    | clearing => exact .inl rfl
    | pollShutdown =>
      simp only [step, advance, hpc] at h
      split at h <;> cases h
    | pushing item =>
      simp only [step, advance, hpc] at h
      split at h
      · split at h <;> cases h
      · cases h
    | removing id =>
      simp only [step, advance, hpc, remove] at h
      split at h <;> cases h
    | dropping items =>
      simp only [step, advance, hpc] at h
      split at h <;> simp_all [goto]
    | _ =>
      simp only [step, advance, hpc] at h
      simp_all [cancelWorkerCall]
  | subscribed result =>
    simp only [step, subscribed] at h
    split at h
    · cases h
    · cases h
    · exact .inl h
  | responded =>
    simp only [step, responded] at h
    split at h
    · cases h
    · exact .inl h
  | poll =>
    simp only [step, poll] at h
    split at h
    · split at h <;> exact .inl h
    · exact .inl h
  | release key runtime =>
    simp only [step, release] at h
    split at h <;> exact .inl h
  | expire key =>
    simp only [step, expire] at h
    split at h <;> exact .inl h
  | dropWorker runtime =>
    rw [step, pc_dropWorker] at h
    exact .inl h

theorem seen_step (ch : Channels) (w : Worker) (e : WorkerEvent) :
    (w.step ch e).seen = w.seen ∨ (w.step ch e).seen = ch.version := by
  have hmoved := moved_step ch w e
  generalize w.step ch e = w', w.touch ch e = t at hmoved
  cases hmoved with
  | started | regenerated => exact .inr rfl
  | _ => exact .inl rfl

/-- A step of a worker begins no change. -/
theorem changing_step (h : (w.step ch e).Changing ch) : w.Changing ch := by
  rcases h with hpc | hseen | hunannounced
  · rcases clearing_origin hpc with hpc | ⟨-, hseen⟩
    · exact .inl hpc
    · exact .inr (.inl hseen)
  · rcases seen_step ch w e with heq | heq
    · rw [heq] at hseen
      exact .inr (.inl hseen)
    · exact absurd heq hseen
  · exact .inr (.inr hunannounced)

/-- The requests in the table, in the inbox and in the hands of the task. -/
def working (w : Worker) : List ℕ := w.activeKeys ++ (keysOf w.inbox ++ keysOf w.pc.items)

theorem mem_working {key : ℕ} :
    key ∈ w.working ↔ key ∈ w.activeKeys ∨ key ∈ keysOf w.inbox ∨ key ∈ keysOf w.pc.items := by
  rw [working, List.mem_append, List.mem_append]

theorem mem_keysOf {key : ℕ} {items : List (Result ℕ)} : key ∈ keysOf items ↔ .ok key ∈ items := by
  rw [keysOf, List.mem_filterMap]
  constructor
  · rintro ⟨item, hmem, hitem⟩
    cases item with
    | ok key' =>
      obtain rfl : key' = key := Option.some.inj hitem
      exact hmem
    | error error => cases hitem
  · intro hmem
    exact ⟨_, hmem, rfl⟩

theorem mem_entries_of_erase {m : HashMap Bytes ℕ} {id : Bytes} {key : ℕ}
    (h : key ∈ (m.erase id).entries.map fun e => e.2) : key ∈ m.entries.map fun e => e.2 := by
  obtain ⟨entry, hentry, heq⟩ := List.mem_map.1 h
  exact List.mem_map.2 ⟨entry, (List.kerase_sublist _ _).subset hentry, heq⟩

/-- Nothing but accepting gives the worker another request to work on. -/
theorem working_step (hnot : w.accepts ch e = false) {key : ℕ} (hmem : key ∈ (w.step ch e).working) :
    key ∈ w.working := by
  have hmoved := moved_step ch w e
  simp only [accepts] at hnot
  generalize w.step ch e = w', w.touch ch e = t at hmoved hmem hnot
  rw [mem_working] at hmem ⊢
  cases hmoved with
  | accepted => simp at hnot
  | went hitems =>
    rw [← hitems]
    exact hmem
  | passed hpc hget hnot hpc' =>
    rcases hmem with hmem | hmem | hmem
    · exact .inl hmem
    · exact .inr (.inl hmem)
    · rcases hpc' with rfl | ⟨error, rfl⟩ <;> cases hmem
  | locked hpc =>
    rw [hpc]
    exact hmem
  | stored hpc =>
    rw [hpc]
    rcases hmem with hmem | hmem | hmem
    · exact .inl hmem
    · rw [keysOf_append, List.mem_append] at hmem
      exact .inr hmem
    · cases hmem
  | removed hpc hfind =>
    rcases hmem with hmem | hmem | hmem
    · exact .inl hmem
    · exact .inr (.inl (mem_keysOf.2 (List.eraseP_subset (mem_keysOf.1 hmem))))
    · obtain rfl := List.mem_singleton.1 hmem
      exact .inr (.inl (mem_keysOf.2 (List.mem_of_find?_eq_some hfind)))
  | regenerated hpc =>
    rcases hmem with hmem | hmem | hmem
    · cases hmem
    · exact .inr (.inl hmem)
    · cases hmem
  | taken hpc =>
    rcases hmem with hmem | hmem | hmem
    · exact .inl hmem
    · cases hmem
    · exact .inr (.inl hmem)
  | discarded hpc =>
    rw [hpc]
    rcases hmem with hmem | hmem | hmem
    · exact .inl (mem_entries_of_erase hmem)
    · exact .inr (.inl hmem)
    · exact .inr (.inr (List.mem_cons_of_mem _ hmem))
  | discardedError hpc =>
    rw [hpc]
    exact hmem
  | rejected hpc =>
    rcases hmem with hmem | hmem | hmem
    · exact .inl (mem_entries_of_erase hmem)
    · exact .inr (.inl hmem)
    · cases hmem
  | delivered hopen hlock hinbox =>
    rw [hinbox]
    rcases hmem with hmem | hmem | hmem
    · exact .inl hmem
    · exact .inr (.inl (List.mem_cons_of_mem _ hmem))
    · exact .inr (.inr hmem)
  | failed hopen hlock hinbox =>
    rw [hinbox]
    exact hmem
  | released =>
    rcases hmem with hmem | hmem
    · exact .inl (mem_entries_of_erase hmem)
    · exact .inr hmem
  | emptied hstage hlock =>
    rcases hmem with hmem | hmem | hmem
    · exact .inl hmem
    · cases hmem
    · exact .inr (.inr hmem)
  | dropped hstage =>
    rcases hmem with hmem | hmem
    · exact .inl (mem_entries_of_erase hmem)
    · exact .inr hmem
  | stay | expired | shut | silenced | closed | droppedError | gone => exact hmem
  | listened | started | refused | left | skipped | signalsLost | signalIgnored | signaled | absent
  | called =>
    rcases hmem with hmem | hmem | hmem
    · exact .inl hmem
    · exact .inr (.inl hmem)
    · cases hmem

/-! ## Before a change everything is old -/

structure GenerationInv (ch : Channels) (w : Worker) : Prop where
  dated : ∀ (key : ℕ) r, w.requests[key]? = some r → r.generation ≤ ch.generation
  stale : w.Changing ch → ∀ (key : ℕ) r, w.requests[key]? = some r → key ∈ w.working →
    r.generation ≠ ch.generation

theorem generationInv_new (ch : Channels) (pattern : String) (capacity : ℕ) :
    GenerationInv ch (new ch pattern capacity) where
  dated := by
    intro key r hget
    cases hget
  stale := by
    intro _ key r hget
    cases hget

theorem length_requests_step (hnot : w.accepts ch e = false) :
    (w.step ch e).requests.length = w.requests.length := by
  have hmoved := moved_step ch w e
  simp only [accepts] at hnot
  generalize w.step ch e = w', w.touch ch e = t at hmoved hnot
  cases hmoved with
  | accepted => simp at hnot
  | called | regenerated | silenced | expired => exact length_cancelAll w _
  | _ => rfl

theorem generationInv_step (ch : Channels) (w : Worker) (e : WorkerEvent) (h : GenerationInv ch w)
    (hc : w.Orders ch e) : GenerationInv ch (w.step ch e) where
  dated := by
    intro key r hget
    cases (moved_step ch w e).requested with
    | same hnext hrequests =>
      obtain ⟨old, hold, hlater⟩ := hrequests key r hget
      rw [hlater.generation]
      exact h.dated key old hold
    | added hnext hreceived htakes hrequests =>
      rw [hrequests] at hget
      rcases getElem?_concat_eq_some hget with hold | ⟨-, rfl⟩
      · exact h.dated key r hold
      · exact htakes.1.le
  stale := by
    intro hchanging key r hget hmem
    have hbefore := changing_step hchanging
    have hnot : w.accepts ch e = false := by
      rw [← Bool.not_eq_true]
      exact fun haccepts => hc haccepts hbefore
    have hlength := length_requests_step hnot
    cases (moved_step ch w e).requested with
    | same hnext hrequests =>
      obtain ⟨old, hold, hlater⟩ := hrequests key r hget
      rw [hlater.generation]
      exact h.stale hbefore key old hold (working_step hnot hmem)
    | added hnext hreceived htakes hrequests =>
      rw [hrequests, List.length_append, List.length_singleton] at hlength
      omega

/-- **What a step that handles a change leaves alone.** -/
theorem GenerationInv.spares (h : GenerationInv ch w) (hhandles : w.handlesChange = true)
    (expired : Bool) : w.Spares ch (w.advance ch expired) := by
  simp only [handlesChange, Bool.decide_or, Bool.or_eq_true, decide_eq_true_eq] at hhandles
  rcases hhandles with hpc | hpc
  · by_cases hseen : w.seen = ch.version
    · have hstep : w.advance ch expired = w.goto .pollRequest := by
        simp only [advance, hpc, if_pos hseen]
      rw [hstep]
      exact ⟨fun _ _ hget _ => hget, fun _ _ _ _ _ hlookup => hlookup, fun _ _ _ _ hmem => hmem⟩
    · have hstep : w.advance ch expired =
          { w.cancelAll w.activeKeys with seen := ch.version, active := ∅, pc := .clearing } := by
        simp only [advance, hpc, if_neg hseen]
      have hstale := h.stale (.inr (.inl hseen))
      rw [hstep]
      constructor
      · intro key r hget hcurrent
        have hnot : key ∉ w.activeKeys := fun hmem =>
          hstale key r hget (mem_working.2 (.inl hmem)) hcurrent
        exact (getElem?_cancelAll w _ key).trans (by rw [hget, Option.map_some, if_neg hnot])
      · intro key r hget hcurrent id hlookup
        have hmem := mem_working.2 (.inl (mem_activeKeys hlookup))
        exact absurd hcurrent (hstale key r hget hmem)
      · intro key r _ _ hmem
        exact hmem
  · have hstep : w.advance ch expired = { w with inbox := [], pc := .dropping w.inbox } := by
      simp only [advance, hpc]
    rw [hstep]
    constructor
    · intro key r hget _
      exact hget
    · intro key r _ _ id hlookup
      exact hlookup
    · intro key r hget hcurrent hmem
      have hmem' := mem_working.2 (.inr (.inl (mem_keysOf.2 hmem)))
      exact absurd hcurrent (h.stale (.inl hpc) key r hget hmem')

end Worker

namespace Workers

/-- No step of a worker accepts a request with a generation change to come. -/
def Orders (s : Workers) : WorkersEvent → Prop
  | .worker index e => ∀ w ∈ s.workers[index]?, w.Orders s.channels e
  | _ => True

instance Orders.decidable (s : Workers) : ∀ e, Decidable (Orders s e)
  | .worker index e => inferInstanceAs (Decidable (∀ w ∈ s.workers[index]?, w.Orders s.channels e))
  | .bump | .announce | .publishRequest _ | .publishSignal _ | .register .. =>
    inferInstanceAs (Decidable True)

/-- A bump makes every request an old one. -/
theorem generationInv_channels (s : Workers) (e : WorkersEvent) (w : Worker)
    (h : w.GenerationInv s.channels) : w.GenerationInv (s.step e).channels := by
  cases e with
  | bump =>
    constructor
    · intro key r hget
      exact Nat.le_succ_of_le (h.dated key r hget)
    · intro _ key r hget _
      exact Nat.ne_of_lt (Nat.lt_succ_of_le (h.dated key r hget))
  | announce =>
    simp only [step]
    split
    · exact h
    · rename_i hunannounced
      exact ⟨h.dated, fun _ => h.stale (.inr (.inr hunannounced))⟩
  | register pattern maxConcurrency =>
    simp only [step, register]
    split <;> exact h
  | publishRequest payload | publishSignal payload => exact ⟨h.dated, h.stale⟩
  | worker index e => exact h

def GenerationInv (s : Workers) : Prop := ∀ w ∈ s.workers, w.GenerationInv s.channels

theorem generationInv_step (s : Workers) (e : WorkersEvent) (h : GenerationInv s) (hc : Orders s e) :
    GenerationInv (s.step e) := by
  refine inv_step_of (c := fun ch w e => w.Orders ch e) Worker.generationInv_step
    (generationInv_channels s e) ?_ h ?_
  · intro pattern capacity
    exact Worker.generationInv_new _ _ _
  · intro index e' heq w hw
    subst heq
    exact hc w hw

end Workers

/-- **A generation change touches only old work**, in every run in which no worker accepts
a request with a change to come. -/
theorem changes_spare (signalCapacity : ℕ) (es : List WorkersEvent)
    (h : Along Workers.step Workers.Orders (.new signalCapacity) es) :
    ∀ w ∈ (run Workers.step (.new signalCapacity) es).workers, w.handlesChange = true →
      ∀ expired, w.Spares (run Workers.step (.new signalCapacity) es).channels
        (w.advance (run Workers.step (.new signalCapacity) es).channels expired) := by
  have hnew : Workers.GenerationInv (.new signalCapacity) := by
    intro w hw
    cases hw
  have hinv := along_inv Workers.generationInv_step hnew h
  intro w hw hhandles expired
  exact (hinv w hw).spares hhandles expired

/-! ## A request behind a change -/

/-- A worker takes `before` steps, a session ends and the next one brings a request, and
the worker takes `after` more. -/
def changeRun (before after : ℕ) : List WorkersEvent :=
  registerRun 0 "rpc://a/work" ++ turnsRun 0 before ++
    [.bump, .announce, .publishRequest (invocationPayload 7 "rpc://a/work")] ++ turnsRun 0 after

/-- A worker that sees the change before it accepts the request of the new session. -/
theorem changes_spare_seen :
    ∃ w ∈ (run Workers.step (.new 1024) (changeRun 0 10)).workers,
      w.handlesChange = true ∧ w.inbox = [.ok 0] ∧
        w.Spares (run Workers.step (.new 1024) (changeRun 0 10)).channels
          (w.advance (run Workers.step (.new 1024) (changeRun 0 10)).channels false) := by
  have hrun : ∃ w ∈ (run Workers.step (.new 1024) (changeRun 0 10)).workers,
      w.handlesChange = true ∧ w.inbox = [.ok 0] := by
    decide +kernel
  obtain ⟨w, hw, hhandles, hinbox⟩ := hrun
  exact ⟨w, hw, hhandles, hinbox, changes_spare 1024 _ (by decide +kernel) w hw hhandles false⟩

/-- The task has polled for a change when the session ends: it accepts the request of the
new session, finds the change and cancels the request. -/
theorem change_cancels_fresh :
    ∃ w ∈ (run Workers.step (.new 1024) (changeRun 2 4)).workers,
      w.handlesChange = true ∧ w.inbox = [.ok 0] ∧
        ¬w.Spares (run Workers.step (.new 1024) (changeRun 2 4)).channels
          (w.advance (run Workers.step (.new 1024) (changeRun 2 4)).channels false) := by
  let s := run Workers.step (.new 1024) (changeRun 2 4)
  let r : RpcRequest := ⟨0, ⟨List.replicate 16 7, "rpc://a/work", [], none⟩, 2, false⟩
  have hrun : ∃ w ∈ s.workers, w.handlesChange = true ∧ w.inbox = [.ok 0] ∧
      w.requests[0]? = some r ∧ s.channels.generation = 2 ∧
        (w.advance s.channels false).requests[0]? ≠ some r := by
    decide +kernel
  obtain ⟨w, hw, hhandles, hinbox, hget, hgeneration, hcanceled⟩ := hrun
  refine ⟨w, hw, hhandles, hinbox, fun hspares => hcanceled ?_⟩
  exact hspares.tokens 0 r hget hgeneration.symm

end Fitz
