import Fitz.Proof.WorkerMoves

/-!
# What becomes of a worker's requests

`requests_conserved`: in every run, each request a worker accepted is in one place (in
the hands of its task, in the inbox, with its `RpcWorker`, with the application, or
released), the inbox is within `max_concurrency` and empty once the `RpcWorker` has
cleared it, and the acknowledgments are those of the requests that were released in
their own generation.
-/

namespace Fitz

open Machine

namespace Worker

variable {ch : Channels} {w : Worker} {t : Touch}

/-- Where the requests of a worker are. -/
def places (w : Worker) : List ℕ :=
  keysOf w.pc.items ++ keysOf w.inbox ++ keysOf w.handle.items ++ w.held ++
    w.released.map fun r => r.key

def generationOf (w : Worker) (key : ℕ) : Option ℕ :=
  (w.requests[key]?).map fun r => r.generation

/-- The release is to be acknowledged: the generation was still the request's own, and
there was a runtime. -/
def Owed (w : Worker) (r : Release) : Prop :=
  w.generationOf r.key = some r.generation ∧ r.runtime = true

instance (w : Worker) (r : Release) : Decidable (w.Owed r) := inferInstanceAs (Decidable (_ ∧ _))

/-- Every request is accounted for. -/
structure Conserved (w : Worker) : Prop where
  /-- each accepted request is in one place, and nothing else is -/
  placed : ∀ key, w.places.count key = if key < w.requests.length then 1 else 0
  bounded : w.inbox.length ≤ w.capacity
  /-- nothing stays in the inbox, and nothing gets into it any more -/
  emptied : w.handle.cleared = true → w.inbox = []
  /-- one acknowledgment for each release that is owed one, in that order -/
  acknowledged : w.acknowledged = (w.released.filter (w.Owed ·)).map fun r => r.key

structure RequestsInv (w : Worker) : Prop where
  placed : ∀ key, w.places.count key = if key < w.requests.length then 1 else 0
  room : w.inbox.length + w.inboxLocked.toNat ≤ w.capacity
  early : w.pc = .listening ∨ w.pc = .registering → w.inbox = [] ∧ w.handle = .pending
  shut : w.handle.live = false → w.shutdown = true ∨ w.pc = .done
  sealed : w.handle = .clearing → w.closed = true
  cleared : w.handle.cleared = true →
    w.inbox = [] ∧ w.inboxLocked = false ∧ (w.closed = true ∨ w.pc = .done)
  acknowledged : w.acknowledged = (w.released.filter (w.Owed ·)).map fun r => r.key

theorem requestsInv_new (ch : Channels) (pattern : String) (capacity : ℕ) :
    RequestsInv (new ch pattern capacity) where
  placed := by
    intro key
    simp [places, new, TaskPc.items, HandleStage.items]
  room := Nat.zero_le _
  early := fun _ => ⟨rfl, rfl⟩
  shut := fun h => by cases h
  sealed := fun h => by cases h
  cleared := fun h => by cases h
  acknowledged := rfl

theorem inboxLocked_of_plain (h : w.pc.plain = true) : w.inboxLocked = false := by
  unfold inboxLocked
  split
  · rename_i hpc
    rw [hpc] at h
    cases h
  · rfl

/-! ## One place -/

/-- A release takes the request from where it was. -/
theorem count_released (w : Worker) (key : ℕ) (runtime : Bool) (key' : ℕ) :
    ((w.finishCleanup ch key runtime).released.map fun r => r.key).count key' =
      (w.released.map fun r => r.key).count key' + [key].count key' := by
  rw [finishCleanup, List.map_append, List.count_append]
  rfl

/-- What `inbox.remove` finds is taken out. -/
theorem count_eraseP {p : Result ℕ → Bool} {items : List (Result ℕ)} {item : Result ℕ}
    (h : items.find? p = some item) (key : ℕ) :
    (keysOf items).count key = (keysOf [item]).count key + (keysOf (items.eraseP p)).count key := by
  obtain ⟨hp, before, after, rfl, hnot⟩ := List.find?_eq_some_iff_append.1 h
  have herase : (before ++ item :: after).eraseP p = before ++ after := by
    rw [List.eraseP_append_right]
    · rw [List.eraseP_cons_of_pos hp]
    · intro b hb
      simpa using hnot b hb
  rw [herase, ← List.singleton_append]
  simp only [keysOf_append, List.count_append]
  omega

theorem count_erase_held {key : ℕ} (h : key ∈ w.held) (key' : ℕ) :
    w.held.count key' = [key].count key' + (w.held.erase key).count key' := by
  have hperm := List.perm_cons_erase h
  rw [hperm.count_eq, ← List.singleton_append, List.count_append]

/-- No step but an acceptance changes what is accounted for. -/
theorem count_places {w' : Worker} (h : RequestsInv w) (hm : Moved ch w t w')
    (hlen : w'.requests.length = w.requests.length) (key : ℕ) :
    w'.places.count key = w.places.count key := by
  unfold places
  simp only [List.count_append]
  cases hm with
  | accepted =>
    simp only [List.length_append, List.length_singleton] at hlen
    omega
  | stay | expired => rfl
  | went hitems => rw [hitems]
  | listened hpc | left hpc | skipped hpc | signalsLost hpc | signalIgnored hpc | signaled hpc
  | absent hpc | called hpc | regenerated hpc | locked hpc =>
    rw [hpc]
    rfl
  | started hpc | refused hpc =>
    rw [hpc, (h.early (.inr hpc)).2]
    rfl
  | passed hpc hget hnot hpc' =>
    rcases hpc' with rfl | ⟨error, rfl⟩ <;> rw [hpc] <;> rfl
  | stored hpc =>
    rw [hpc]
    simp only [TaskPc.items, keysOf_nil, keysOf_append, List.count_append, List.count_nil]
    omega
  | removed hpc hfind =>
    have hcount := count_eraseP hfind key
    rw [hpc]
    simp only [TaskPc.items, keysOf_nil, List.count_nil]
    omega
  | taken hpc =>
    rw [hpc]
    simp only [TaskPc.items, keysOf_nil, List.count_nil]
    omega
  | discarded hpc | rejected hpc =>
    rw [count_released, hpc]
    simp only [TaskPc.items, keysOf_ok, keysOf_nil, List.count_cons, List.count_nil]
    dsimp only [finishCleanup]
    omega
  | discardedError hpc =>
    rw [hpc]
    rfl
  | delivered hopen hlock hinbox =>
    rw [hinbox]
    simp only [keysOf_ok, List.count_append, List.count_cons, List.count_nil]
    omega
  | failed hopen hlock hinbox =>
    rw [hinbox]
    rfl
  | released hheld =>
    have hcount := count_erase_held hheld key
    rw [count_released]
    dsimp only [finishCleanup]
    omega
  | shut hstage | silenced hstage | closed hstage | gone hstage | droppedError hstage =>
    rw [hstage]
    rfl
  | emptied hstage =>
    rw [hstage]
    simp only [HandleStage.items, keysOf_nil, List.count_nil]
    omega
  | dropped hstage =>
    rw [count_released, hstage]
    simp only [HandleStage.items, keysOf_ok, List.count_cons, List.count_nil]
    dsimp only [finishCleanup]
    omega

theorem length_moved {w' : Worker} (hm : Moved ch w t w') :
    w'.requests.length = w.requests.length ∨
      w'.requests.length = w.requests.length + 1 ∧ w.pc.items = [] ∧
        w'.pc = .pushing (.ok w.requests.length) ∧ w'.inbox = w.inbox ∧ w'.handle = w.handle ∧
        w'.held = w.held ∧ w'.released = w.released := by
  cases hm with
  | accepted hpc =>
    refine .inr ⟨List.length_append, by rw [hpc]; rfl, rfl, rfl, rfl, rfl, rfl⟩
  | called | regenerated | silenced | expired => exact .inl (length_cancelAll w _)
  | _ => exact .inl rfl

/-- A new request is in the hands of the task. -/
theorem placed_moved {w' : Worker} (h : RequestsInv w) (hm : Moved ch w t w') (key : ℕ) :
    w'.places.count key = if key < w'.requests.length then 1 else 0 := by
  have hold := h.placed key
  rcases length_moved hm with hlen | ⟨hlen, hitems, hpc, hinbox, hhandle, hheld, hreleased⟩
  · rw [count_places h hm hlen, hlen, hold]
  · unfold places at hold ⊢
    rw [hitems] at hold
    rw [hpc, hinbox, hhandle, hheld, hreleased, hlen]
    simp only [TaskPc.items, keysOf_ok, keysOf_nil, List.count_append, List.count_cons,
      List.count_nil, beq_iff_eq] at hold ⊢
    split_ifs at hold ⊢ <;> omega

/-! ## The inbox -/

theorem length_eraseP_find {items : List (Result ℕ)} {p : Result ℕ → Bool} {item : Result ℕ}
    (h : items.find? p = some item) : (items.eraseP p).length + 1 = items.length := by
  have hlen := List.length_eraseP_of_mem (List.mem_of_find?_eq_some h) (List.find?_some h)
  have hpos := List.length_pos_of_mem (List.mem_of_find?_eq_some h)
  omega

theorem room_moved {w' : Worker} (h : RequestsInv w) (hm : Moved ch w t w') :
    w'.inbox.length + w'.inboxLocked.toNat ≤ w'.capacity := by
  have hroom := h.room
  cases hm with
  | went hitems hdrop hfrom hplain =>
    have hopen : ({ w with pc := _ } : Worker).inboxLocked = false := inboxLocked_of_plain hplain
    rw [hopen]
    simp only [Bool.toNat_false]
    omega
  | passed hpc hget hnot hpc' =>
    rcases hpc' with rfl | ⟨error, rfl⟩ <;> simp [inboxLocked] <;> omega
  | locked hpc hopen hspace =>
    simp only [inboxLocked, Bool.toNat_true]
    omega
  | stored hpc =>
    simp only [inboxLocked, hpc, Bool.toNat_true] at hroom
    simp only [inboxLocked, List.length_append, List.length_singleton, Bool.toNat_false]
    omega
  | removed hpc hfind =>
    have hlen := length_eraseP_find hfind
    simp only [inboxLocked, Bool.toNat_false]
    omega
  | delivered hopen hlock hinbox | failed hopen hlock hinbox =>
    rw [hinbox, List.length_cons] at hroom
    dsimp only [inboxLocked] at hroom ⊢
    omega
  | emptied hstage hlock =>
    simp only [inboxLocked, List.length_nil] at hroom ⊢
    omega
  | stay | expired | released | shut | silenced | closed | dropped | droppedError | gone =>
    exact hroom
  | taken => exact Nat.zero_le _
  -- the others leave the inbox, and the task does not hold the lock
  | _ => exact le_trans (Nat.le_add_right _ _) hroom

/-! ## The end of a worker -/

theorem early_moved {w' : Worker} (h : RequestsInv w) (hm : Moved ch w t w')
    (hpc' : w'.pc = .listening ∨ w'.pc = .registering) : w'.inbox = [] ∧ w'.handle = .pending := by
  cases hm with
  | stay | expired => exact h.early hpc'
  | went hitems hdrop hfrom hplain =>
    rcases hpc' with hpc' | hpc' <;> simp only at hpc' <;> rw [hpc'] at hplain <;> cases hplain
  | listened hpc => exact h.early (.inl hpc)
  | passed hpc hget hnot hnext =>
    rcases hnext with rfl | ⟨error, rfl⟩ <;> simp at hpc'
  | delivered hopen | failed hopen =>
    rw [(h.early hpc').2] at hopen
    cases hopen
  | released => exact h.early hpc'
  | shut hstage | silenced hstage | closed hstage | emptied hstage | dropped hstage
  | droppedError hstage | gone hstage =>
    rw [(h.early hpc').2] at hstage
    cases hstage
  | _ => simp at hpc'

theorem shut_moved {w' : Worker} (h : RequestsInv w) (hm : Moved ch w t w')
    (hdead : w'.handle.live = false) : w'.shutdown = true ∨ w'.pc = .done := by
  cases hm with
  | shut => exact .inl rfl
  | refused | left => exact .inr rfl
  | stay | expired | delivered | failed | released => exact h.shut hdead
  | silenced hstage | closed hstage | emptied hstage | dropped hstage | droppedError hstage
  | gone hstage => exact h.shut (by rw [hstage]; rfl)
  | started => cases hdead
  | went hitems hdrop hfrom =>
    refine .inl ((h.shut hdead).resolve_right fun hdone => ?_)
    rw [hdone] at hfrom
    cases hfrom
  | listened hpc | skipped hpc | passed hpc | accepted hpc | locked hpc | stored hpc
  | signalsLost hpc | signalIgnored hpc | signaled hpc | removed hpc | absent hpc | called hpc
  | regenerated hpc | taken hpc | discarded hpc | discardedError hpc | rejected hpc =>
    exact .inl ((h.shut hdead).resolve_right (by rw [hpc]; simp))

theorem sealed_moved {w' : Worker} (h : RequestsInv w) (hm : Moved ch w t w')
    (hstage' : w'.handle = .clearing) : w'.closed = true := by
  cases hm with
  | left | closed => rfl
  | started | refused | shut | silenced | emptied | dropped | droppedError | gone => simp at hstage'
  | _ => exact h.sealed hstage'

theorem cleared_moved {w' : Worker} (h : RequestsInv w) (hm : Moved ch w t w')
    (hcleared : w'.handle.cleared = true) :
    w'.inbox = [] ∧ w'.inboxLocked = false ∧ (w'.closed = true ∨ w'.pc = .done) := by
  cases hm with
  | started | shut | silenced | closed => cases hcleared
  | refused hpc => exact ⟨(h.early (.inr hpc)).1, rfl, .inr rfl⟩
  | left hpc => exact ⟨(h.cleared hcleared).1, rfl, .inl rfl⟩
  | emptied hstage hlock => exact ⟨rfl, hlock, .inl (h.sealed hstage)⟩
  | dropped hstage | droppedError hstage | gone hstage =>
    exact h.cleared (by rw [hstage]; rfl)
  | delivered hopen | failed hopen =>
    simp only [hopen] at hcleared
    cases hcleared
  | stay | expired | released => exact h.cleared hcleared
  | went hitems hdrop hfrom hplain =>
    obtain ⟨hinbox, -, hend⟩ := h.cleared hcleared
    refine ⟨hinbox, inboxLocked_of_plain hplain, .inl (hend.resolve_right ?_)⟩
    intro hdone
    rw [hdone] at hfrom
    cases hfrom
  | passed hpc hget hnot hpc' =>
    obtain ⟨hinbox, -, hend⟩ := h.cleared hcleared
    refine ⟨hinbox, ?_, .inl (hend.resolve_right (by rw [hpc]; simp))⟩
    rcases hpc' with rfl | ⟨error, rfl⟩ <;> rfl
  | locked hpc hopen =>
    obtain ⟨-, -, hend⟩ := h.cleared hcleared
    rw [hpc, hopen] at hend
    simp at hend
  | stored hpc =>
    obtain ⟨-, hlock, -⟩ := h.cleared hcleared
    simp [inboxLocked, hpc] at hlock
  | removed hpc hfind =>
    obtain ⟨hinbox, -, -⟩ := h.cleared hcleared
    rw [hinbox] at hfind
    cases hfind
  | taken hpc =>
    obtain ⟨-, -, hend⟩ := h.cleared hcleared
    exact ⟨rfl, rfl, .inl (hend.resolve_right (by rw [hpc]; simp))⟩
  | listened hpc | skipped hpc | accepted hpc | signalsLost hpc | signalIgnored hpc | signaled hpc
  | absent hpc | called hpc | regenerated hpc | discarded hpc | discardedError hpc | rejected hpc =>
    obtain ⟨hinbox, -, hend⟩ := h.cleared hcleared
    exact ⟨hinbox, rfl, .inl (hend.resolve_right (by rw [hpc]; simp))⟩

/-! ## Acknowledgments -/

theorem generationOf_cancelAll (w : Worker) (keys : List ℕ) (key : ℕ) :
    (w.cancelAll keys).generationOf key = w.generationOf key := by
  unfold generationOf
  rw [getElem?_cancelAll, Option.map_map]
  congr 1
  funext r
  simp only [Function.comp_apply]
  split <;> rfl

/-- A released request is one that was accepted. -/
theorem lt_of_released (h : RequestsInv w) {r : Release} (hr : r ∈ w.released) :
    r.key < w.requests.length := by
  by_contra hlt
  have hplaced := h.placed r.key
  rw [if_neg hlt] at hplaced
  have hmem : r.key ∈ w.places := List.mem_append_right _ (List.mem_map_of_mem hr)
  exact absurd hplaced (List.count_pos_iff.2 hmem).ne'

/-- The worker issues its acknowledgments on release. -/
theorem acknowledged_finishCleanup (h : w.acknowledged = (w.released.filter (w.Owed ·)).map fun r => r.key)
    (key : ℕ) (runtime : Bool) :
    (w.finishCleanup ch key runtime).acknowledged =
      ((w.finishCleanup ch key runtime).released.filter (w.Owed ·)).map fun r => r.key := by
  have howed : ((w.requests[key]?).any (·.generation = ch.generation) = true ∧ runtime = true) ↔
      w.Owed ⟨key, ch.generation, runtime⟩ := by
    unfold Owed generationOf
    cases w.requests[key]? <;> simp
  simp only [finishCleanup, List.filter_append, List.map_append, ← h]
  by_cases hacks : w.Owed ⟨key, ch.generation, runtime⟩
  · rw [if_pos (howed.2 hacks), List.filter_cons_of_pos (by simpa using hacks)]
    rfl
  · rw [if_neg (fun hany => hacks (howed.1 hany)), List.filter_cons_of_neg (by simpa using hacks)]
    simp

theorem generationOf_append {w' : Worker} {r : RpcRequest} (h : w'.requests = w.requests ++ [r])
    {key : ℕ} (hlt : key < w.requests.length) : w'.generationOf key = w.generationOf key := by
  unfold generationOf
  rw [h, List.getElem?_append_left hlt]

theorem owed_congr {w' : Worker} (hgen : ∀ key, key < w.requests.length →
      w'.generationOf key = w.generationOf key) {released : List Release}
    (hlt : ∀ r ∈ released, r.key < w.requests.length) :
    released.filter (w'.Owed ·) = released.filter (w.Owed ·) := by
  apply List.filter_congr
  intro r hr
  have heq : w'.Owed r ↔ w.Owed r := by
    unfold Owed
    rw [hgen r.key (hlt r hr)]
  exact decide_eq_decide.2 heq

theorem acknowledged_moved {w' : Worker} (h : RequestsInv w) (hm : Moved ch w t w') :
    w'.acknowledged = (w'.released.filter (w'.Owed ·)).map fun r => r.key := by
  have hack := h.acknowledged
  cases hm with
  | accepted hpc hget htakes =>
    refine hack.trans (congrArg (List.map _) (owed_congr (fun key hlt => ?_) fun r hr => ?_).symm)
    · exact generationOf_append rfl hlt
    · exact lt_of_released h hr
  | called | regenerated | silenced | expired =>
    refine hack.trans (congrArg (List.map _) (owed_congr (fun key _ => ?_) fun r hr => ?_).symm)
    · exact generationOf_cancelAll w _ key
    · exact lt_of_released h hr
  | discarded | rejected | released | dropped => exact acknowledged_finishCleanup hack _ _
  | _ => exact hack

theorem requestsInv_step (ch : Channels) (w : Worker) (e : WorkerEvent) (h : RequestsInv w) :
    RequestsInv (w.step ch e) := by
  have hm := moved_step ch w e
  exact ⟨placed_moved h hm, room_moved h hm, early_moved h hm, shut_moved h hm,
    sealed_moved h hm, cleared_moved h hm,
    acknowledged_moved h hm⟩

/-! ## The task comes to an end -/

/-- An upper bound of the turns the task takes once it is to shut down. -/
def turnsLeft (w : Worker) : ℕ :=
  match w.pc with
  | .listening | .registering | .done => 0
  | .leaving => 1
  | .pollShutdown => 2
  | .locked _ | .rejecting _ | .canceling _ => 3
  | .dropping items => 3 + items.length
  | .pushing _ => 4
  | .clearing => 4 + w.inbox.length
  | .removing _ => 5
  | .pollSignal => 6
  | .pollRequest => 7
  | .pollGeneration => 8 + w.inbox.length

/-- The task goes on, or its overload response is sent. -/
def turn (ch : Channels) (w : Worker) (_ : Unit) : Worker := (w.step ch (.advance false)).step ch .responded

theorem turnsLeft_receive (received : Received) (frame : ℕ) (expired : Bool) :
    (w.receive frame received expired).turnsLeft ≤ 4 := by
  unfold receive
  split <;> simp [turnsLeft, goto]

theorem turnsLeft_pollRequests (ch : Channels) (w : Worker) (expired : Bool) :
    (w.pollRequests ch expired).turnsLeft ≤ 6 := by
  unfold pollRequests
  split
  · simp [turnsLeft]
  · split
    · simp [turnsLeft, goto]
    · dsimp only
      split
      · exact le_trans (turnsLeft_receive _ _ _) (by omega)
      · simp [turnsLeft, goto]

theorem turnsLeft_pollSignals (ch : Channels) (w : Worker) : (w.pollSignals ch).turnsLeft ≤ 5 := by
  unfold pollSignals
  split
  · simp [turnsLeft]
  · split
    · simp [turnsLeft, goto]
    · dsimp only
      split <;> simp [turnsLeft, goto]

theorem turnsLeft_advance (hshut : w.shutdown = true) (hlive : w.turnsLeft ≠ 0)
    (hreject : ∀ key, w.pc ≠ .rejecting key) :
    (w.advance ch false).turnsLeft < w.turnsLeft := by
  cases hpc : w.pc with
  | listening | registering | done => exact absurd (by simp [turnsLeft, hpc]) hlive
  | rejecting key => exact absurd hpc (hreject key)
  | pollShutdown | locked | leaving => simp [advance, turnsLeft, goto, hpc, hshut]
  | pollGeneration =>
    by_cases hseen : w.seen = ch.version
    · simp only [advance, hpc, if_pos hseen, turnsLeft, goto]
      omega
    · simp only [advance, hpc, if_neg hseen, turnsLeft, cancelAll]
      omega
  | pollRequest =>
    have hle := turnsLeft_pollRequests ch w false
    simp only [advance, hpc, turnsLeft] at hle ⊢
    omega
  | pollSignal =>
    have hle := turnsLeft_pollSignals ch w
    simp only [advance, hpc, turnsLeft] at hle ⊢
    omega
  | clearing => simp [advance, turnsLeft, hpc]
  | pushing item =>
    by_cases hfull : w.closed = true ∨ w.inbox.length ≥ w.capacity
    · simp only [advance, hpc, if_pos hfull]
      cases item <;> simp [turnsLeft, goto, hpc]
    · simp [advance, hpc, if_neg hfull, turnsLeft, goto]
  | removing id =>
    simp only [advance, hpc, remove]
    cases w.inbox.find? (w.names id) <;> simp [turnsLeft, goto, hpc]
  | canceling id => simp [advance, turnsLeft, hpc, cancelWorkerCall]
  | dropping items =>
    cases items with
    | nil => simp [advance, turnsLeft, goto, hpc]
    | cons item items => simp [advance, turnsLeft, goto, hpc]

theorem turnsLeft_responded : (w.responded ch).turnsLeft ≤ w.turnsLeft ∧
    ∀ key, w.pc = .rejecting key → (w.responded ch).turnsLeft < w.turnsLeft := by
  unfold responded
  split
  · rename_i key hpc
    simp [turnsLeft, goto, hpc]
  · rename_i hnot
    exact ⟨le_rfl, fun key hpc => absurd hpc (hnot key)⟩

theorem turnsLeft_turn (ch : Channels) (hshut : w.shutdown = true) (hlive : w.turnsLeft ≠ 0) :
    (w.turn ch ()).turnsLeft < w.turnsLeft := by
  by_cases hreject : ∃ key, w.pc = .rejecting key
  · obtain ⟨key, hpc⟩ := hreject
    have hstay : w.advance ch false = w := by simp only [advance, hpc]
    unfold turn step
    simp only [hstay]
    exact turnsLeft_responded.2 key hpc
  · rw [not_exists] at hreject
    exact lt_of_le_of_lt turnsLeft_responded.1 (turnsLeft_advance hshut hlive hreject)

/-- What the task leaves to the application. -/
structure Kept (w w' : Worker) : Prop where
  shutdown : w'.shutdown = w.shutdown
  handle : w'.handle = w.handle
  held : w'.held = w.held

theorem kept_receive (frame : ℕ) (received : Received) (expired : Bool) :
    Kept w (w.receive frame received expired) := by
  unfold receive
  split <;> exact ⟨rfl, rfl, rfl⟩

theorem kept_pollRequests (expired : Bool) : Kept w (w.pollRequests ch expired) := by
  unfold pollRequests
  split
  · exact ⟨rfl, rfl, rfl⟩
  · split
    · exact ⟨rfl, rfl, rfl⟩
    · dsimp only
      split
      · have hreceive := kept_receive (w := { w with nextRequest := w.nextRequest + 1 }) w.nextRequest
          (by assumption) expired
        exact ⟨hreceive.shutdown, hreceive.handle, hreceive.held⟩
      · exact ⟨rfl, rfl, rfl⟩

theorem kept_advance (expired : Bool) : Kept w (w.advance ch expired) := by
  unfold advance
  split
  case h_11 item items hpc =>
    cases item <;> exact ⟨rfl, rfl, rfl⟩
  case h_5 hpc =>
    exact kept_pollRequests expired
  case h_6 hpc =>
    unfold pollSignals
    repeat' split
    all_goals exact ⟨rfl, rfl, rfl⟩
  case h_9 id hpc =>
    unfold remove
    split <;> exact ⟨rfl, rfl, rfl⟩
  all_goals
    repeat' split
    all_goals exact ⟨rfl, rfl, rfl⟩

theorem kept_responded : Kept w (w.responded ch) := by
  unfold responded
  split <;> exact ⟨rfl, rfl, rfl⟩

theorem kept_turn : Kept w (w.turn ch ()) := by
  have hadvance : Kept w (w.advance ch false) := kept_advance false
  have hresponded : Kept (w.advance ch false) ((w.advance ch false).responded ch) := kept_responded
  exact ⟨hresponded.shutdown.trans hadvance.shutdown, hresponded.handle.trans hadvance.handle,
    hresponded.held.trans hadvance.held⟩

/-- Once the `RpcWorker` is gone the task ends by itself, and then what the application
does not hold is released. -/
def Settles (ch : Channels) (w : Worker) : Prop :=
  w.handle = .gone → ∃ turns, (run (turn ch) w turns).pc = .done ∧
    ∀ key < (run (turn ch) w turns).requests.length, key ∉ w.held →
      ((run (turn ch) w turns).released.map fun r => r.key).count key = 1

theorem turnsLeft_eq_zero (h : RequestsInv w) (hgone : w.handle = .gone) (hzero : w.turnsLeft = 0) :
    w.pc = .done := by
  have hearly : ¬(w.pc = .listening ∨ w.pc = .registering) := by
    intro hpc
    rw [(h.early hpc).2] at hgone
    cases hgone
  cases hpc : w.pc with
  | done => rfl
  | listening => exact absurd (.inl hpc) hearly
  | registering => exact absurd (.inr hpc) hearly
  | _ => simp [turnsLeft, hpc] at hzero

/-- What is not with the task, in the inbox, with the `RpcWorker` or with the
application is released. -/
theorem released_of_done (h : RequestsInv w) (hgone : w.handle = .gone) (hpc : w.pc = .done) {key : ℕ}
    (hlt : key < w.requests.length) (hheld : key ∉ w.held) :
    (w.released.map fun r => r.key).count key = 1 := by
  have hplaced := h.placed key
  have hinbox := (h.cleared (by rw [hgone]; rfl)).1
  rw [if_pos hlt] at hplaced
  simp only [places, hpc, hinbox, hgone, TaskPc.items, HandleStage.items, keysOf_nil,
    List.count_append, List.count_nil, List.count_eq_zero_of_not_mem hheld] at hplaced
  omega

theorem requestsInv_turn (h : RequestsInv w) : RequestsInv (w.turn ch ()) :=
  requestsInv_step ch _ .responded (requestsInv_step ch w (.advance false) h)

theorem RequestsInv.settles (h : RequestsInv w) : Settles ch w := by
  intro hgone
  -- by induction on the turns that are left
  induction hturns : w.turnsLeft using Nat.strong_induction_on generalizing w with
  | _ n ih =>
    by_cases hzero : w.turnsLeft = 0
    · have hpc := turnsLeft_eq_zero h hgone hzero
      exact ⟨[], hpc, fun key hlt hheld => released_of_done h hgone hpc hlt hheld⟩
    · have hshut : w.shutdown = true := by
        refine (h.shut (by rw [hgone]; rfl)).resolve_right fun hpc => hzero ?_
        simp [turnsLeft, hpc]
      have hkept : Kept w (w.turn ch ()) := kept_turn
      have hless := turnsLeft_turn ch hshut hzero
      obtain ⟨turns, hdone, hreleased⟩ := ih _ (hturns ▸ hless) (requestsInv_turn h)
        (hkept.handle.trans hgone) rfl
      rw [hkept.held] at hreleased
      exact ⟨() :: turns, hdone, hreleased⟩

theorem RequestsInv.conserved (h : RequestsInv w) : Conserved w where
  placed := h.placed
  bounded := le_trans (Nat.le_add_right _ _) h.room
  emptied := fun hcleared => (h.cleared hcleared).1
  acknowledged := h.acknowledged

end Worker

/-- **No request of a worker is lost, and none is released twice.** -/
theorem requests_conserved (signalCapacity : ℕ) (es : List WorkersEvent) :
    ∀ w ∈ (run Workers.step (.new signalCapacity) es).workers, w.Conserved ∧
      w.Settles (run Workers.step (.new signalCapacity) es).channels := by
  have hinv : ∀ w ∈ (run Workers.step (.new signalCapacity) es).workers, w.RequestsInv := by
    refine run_inv (I := fun s : Workers => ∀ w ∈ s.workers, w.RequestsInv) (fun s e hs => ?_) ?_ es
    · exact Workers.inv_step (I := fun _ w => w.RequestsInv) (c := fun _ _ _ => True)
        (fun ch w e h _ => Worker.requestsInv_step ch w e h) (fun _ _ _ _ h => h)
        (Worker.requestsInv_new s.channels) hs (fun _ _ _ _ _ => trivial)
    · intro w hw
      cases hw
  intro w hw
  exact ⟨(hinv w hw).conserved, (hinv w hw).settles⟩

/-- The call `id` of the route, without a body or a budget. -/
def invocationPayload (id : UInt8) (route : String) : Bytes :=
  List.replicate 16 id ++ putString route ++ putBytes [] ++ [0]

def registerRun (index : ℕ) (pattern : String) : List WorkersEvent :=
  [.register pattern 1, .worker index (.advance false), .worker index (.subscribed (.ok ()))]

def turnsRun (index n : ℕ) : List WorkersEvent := List.replicate n (.worker index (.advance false))

/-- A worker that has taken a request. -/
def takenRun : List WorkersEvent :=
  registerRun 0 "rpc://a/work" ++ [.publishRequest (invocationPayload 7 "rpc://a/work")] ++
    turnsRun 0 5 ++ [.worker 0 .poll]

theorem requests_conserved_taken :
    ∃ w ∈ (run Workers.step (.new 1024) takenRun).workers, w.held = [0] ∧ w.Conserved ∧
      w.Settles (run Workers.step (.new 1024) takenRun).channels := by
  have hrun : ∃ w ∈ (run Workers.step (.new 1024) takenRun).workers, w.held = [0] := by
    decide +kernel
  obtain ⟨w, hw, hheld⟩ := hrun
  exact ⟨w, hw, hheld, requests_conserved 1024 takenRun w hw⟩

end Fitz
