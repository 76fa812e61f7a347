import Fitz.Model.Worker

/-!
# What a step of a worker does

`Worker.Moved` has one constructor for each thing a step can do to the inbox, the
table and the requests of a worker, and `moved_step` is the only place where the
functions of the model are unfolded. `Workers.inv_step` carries what every worker
keeps to the workers of a connection.
-/

namespace Fitz

/-! ## Items -/

/-- The requests among the items of an inbox. -/
def keysOf (items : List (Result ℕ)) : List ℕ := items.filterMap Except.toOption

@[simp] theorem keysOf_nil : keysOf [] = [] := rfl

@[simp] theorem keysOf_ok (key : ℕ) (items : List (Result ℕ)) :
    keysOf (.ok key :: items) = key :: keysOf items := rfl

@[simp] theorem keysOf_error (error : FitzError) (items : List (Result ℕ)) :
    keysOf (.error error :: items) = keysOf items := rfl

@[simp] theorem keysOf_append (items items' : List (Result ℕ)) :
    keysOf (items ++ items') = keysOf items ++ keysOf items' := List.filterMap_append

/-- What the task has in its hands. -/
def TaskPc.items : TaskPc → List (Result ℕ)
  | .pushing item | .locked item => [item]
  | .rejecting key => [.ok key]
  | .dropping items => items
  | _ => []

/-- What the task took out of the inbox and is about to drop. -/
def TaskPc.dropped : TaskPc → List (Result ℕ)
  | .dropping items => items
  | _ => []

/-- What the `RpcWorker` took out of the inbox and is about to drop. -/
def HandleStage.items : HandleStage → List (Result ℕ)
  | .dropping items => items
  | _ => []

/-- The application has not begun to drop the worker. -/
def HandleStage.live : HandleStage → Bool
  | .pending | .opened => true
  | _ => false

/-- The task runs, and neither holds the lock nor works off a cancellation. -/
def TaskPc.plain : TaskPc → Bool
  | .listening | .registering | .locked _ | .removing _ | .canceling _ | .done => false
  | _ => true

/-- The `RpcWorker` has taken what was in the inbox. -/
def HandleStage.cleared : HandleStage → Bool
  | .dropping _ | .gone => true
  | _ => false

namespace Worker

variable {ch : Channels} {w : Worker}

/-- The frame is one that the worker takes. -/
def Takes (ch : Channels) (w : Worker) (received : Received) (invocation : Invocation) : Prop :=
  received.generation = ch.generation ∧
    decodeRequest w.pattern received.payload = .ok (some invocation)

/-- What of a worker a step touches. -/
inductive Touch
  | nothing
  /-- a request is accepted, taken out of the inbox for a cancellation, or released -/
  | request (key : ℕ) (id : Bytes)
  /-- a cancellation is received, which was published after `before` frames -/
  | signal (id : Bytes) (before : ℕ)
  deriving DecidableEq

def touchRequests (ch : Channels) (w : Worker) : Touch :=
  if ch.requests.length - w.nextRequest > ch.requestCapacity then .nothing
  else
    match ch.requests[w.nextRequest]? with
    | none => .nothing
    | some received =>
      if received.generation = ch.generation then
        match decodeRequest w.pattern received.payload with
        | .ok (some invocation) => .request w.requests.length invocation.correlationId
        | _ => .nothing
      else .nothing

def touchSignals (ch : Channels) (w : Worker) : Touch :=
  if ch.signals.length - w.nextSignal > ch.signalCapacity then .nothing
  else
    match ch.signals[w.nextSignal]? with
    | none => .nothing
    | some signal =>
      match canceledCall signal.payload with
      | some id => .signal id signal.before
      | none => .nothing

def touchItem (w : Worker) : List (Result ℕ) → Touch
  | .ok key :: _ => .request key (w.correlationId key)
  | _ => .nothing

def touch (ch : Channels) (w : Worker) : WorkerEvent → Touch
  | .advance _ =>
    match w.pc with
    | .pollRequest => w.touchRequests ch
    | .pollSignal => w.touchSignals ch
    | .removing id =>
      match w.inbox.find? (w.names id) with
      | some (.ok key) => .request key id
      | _ => .nothing
    | .dropping items => w.touchItem items
    | _ => .nothing
  | .responded =>
    match w.pc with
    | .rejecting key => .request key (w.correlationId key)
    | _ => .nothing
  | .release key _ => if key ∈ w.held then .request key (w.correlationId key) else .nothing
  | .dropWorker _ => w.touchItem w.handle.items
  | _ => .nothing

/-- What a step makes of the worker. -/
inductive Moved (ch : Channels) (w : Worker) : Touch → Worker → Prop
  | stay : Moved ch w .nothing w
  /-- the task goes on, with what it has in its hands -/
  | went {pc : TaskPc} (hitems : keysOf pc.items = keysOf w.pc.items) (hdrop : w.pc.dropped = [])
      (hfrom : w.pc.plain = true) (hplain : pc.plain = true) : Moved ch w .nothing { w with pc := pc }
  | listened (hpc : w.pc = .listening) :
      Moved ch w .nothing { w with nextSignal := ch.signals.length, pc := .registering }
  | started (hpc : w.pc = .registering) :
      Moved ch w .nothing { w with seen := ch.version, handle := .opened, pc := .pollShutdown }
  | refused (hpc : w.pc = .registering) : Moved ch w .nothing { w with handle := .gone, pc := .done }
  | left (hpc : w.pc = .leaving) : Moved ch w .nothing { w with closed := true, pc := .done }
  /-- the receiver has lagged -/
  | skipped {error : FitzError} (hpc : w.pc = .pollRequest)
      (hlag : ch.requests.length - w.nextRequest > ch.requestCapacity) :
      Moved ch w .nothing { w with
        nextRequest := ch.requests.length - ch.requestCapacity
        pc := .pushing (.error error) }
  /-- a frame that is not taken -/
  | passed {received : Received} {pc : TaskPc} (hpc : w.pc = .pollRequest)
      (hget : ch.requests[w.nextRequest]? = some received)
      (hnot : ∀ invocation, ¬w.Takes ch received invocation)
      (hpc' : pc = .pollShutdown ∨ ∃ error, pc = .pushing (.error error)) :
      Moved ch w .nothing { w with nextRequest := w.nextRequest + 1, pc := pc }
  | accepted {received : Received} {invocation : Invocation} {canceled : Bool}
      (hpc : w.pc = .pollRequest) (hget : ch.requests[w.nextRequest]? = some received)
      (htakes : w.Takes ch received invocation) :
      Moved ch w (.request w.requests.length invocation.correlationId) { w with
        nextRequest := w.nextRequest + 1
        active := w.active.insert invocation.correlationId w.requests.length
        requests := w.requests ++ [⟨w.nextRequest, invocation, received.generation, canceled⟩]
        pc := .pushing (.ok w.requests.length) }
  | locked {item : Result ℕ} (hpc : w.pc = .pushing item) (hopen : w.closed = false)
      (hroom : w.inbox.length < w.capacity) : Moved ch w .nothing { w with pc := .locked item }
  | stored {item : Result ℕ} (hpc : w.pc = .locked item) :
      Moved ch w .nothing { w with inbox := w.inbox ++ [item], pc := .pollShutdown }
  | signalsLost (hpc : w.pc = .pollSignal) (hlag : ch.signals.length - w.nextSignal > ch.signalCapacity) :
      Moved ch w .nothing { w with nextSignal := ch.signals.length - ch.signalCapacity, pc := .pollShutdown }
  | signalIgnored {signal : Signal} (hpc : w.pc = .pollSignal)
      (hget : ch.signals[w.nextSignal]? = some signal) (hnone : canceledCall signal.payload = none) :
      Moved ch w .nothing { w with
        nextSignal := w.nextSignal + 1
        handled := w.handled ++ [w.nextSignal]
        pc := .pollShutdown }
  | signaled {signal : Signal} {id : Bytes} (hpc : w.pc = .pollSignal)
      (hlag : ¬ch.signals.length - w.nextSignal > ch.signalCapacity)
      (hget : ch.signals[w.nextSignal]? = some signal) (hsome : canceledCall signal.payload = some id) :
      Moved ch w (.signal id signal.before) { w with nextSignal := w.nextSignal + 1, pc := .removing id }
  | removed {id : Bytes} {key : ℕ} (hpc : w.pc = .removing id)
      (hfind : w.inbox.find? (w.names id) = some (.ok key)) :
      Moved ch w (.request key id) { w with
        inbox := w.inbox.eraseP (w.names id)
        handled := w.handled ++ [w.nextSignal - 1]
        pc := .dropping [.ok key] }
  | absent {id : Bytes} (hpc : w.pc = .removing id) : Moved ch w .nothing { w with pc := .canceling id }
  | called {id : Bytes} (hpc : w.pc = .canceling id) :
      Moved ch w .nothing { w.cancelAll (w.active.lookup id).toList with
        handled := w.handled ++ [w.nextSignal - 1]
        pc := .pollShutdown }
  | regenerated (hpc : w.pc = .pollGeneration) :
      Moved ch w .nothing { w.cancelAll w.activeKeys with seen := ch.version, active := ∅, pc := .clearing }
  | taken (hpc : w.pc = .clearing) : Moved ch w .nothing { w with inbox := [], pc := .dropping w.inbox }
  | discarded {key : ℕ} {items : List (Result ℕ)} (hpc : w.pc = .dropping (.ok key :: items)) :
      Moved ch w (.request key (w.correlationId key))
        { w.finishCleanup ch key true with pc := .dropping items }
  | discardedError {error : FitzError} {items : List (Result ℕ)}
      (hpc : w.pc = .dropping (.error error :: items)) : Moved ch w .nothing { w with pc := .dropping items }
  | rejected {key : ℕ} (hpc : w.pc = .rejecting key) :
      Moved ch w (.request key (w.correlationId key))
        { w.finishCleanup ch key true with pc := .pollShutdown }
  | delivered {key : ℕ} {items : List (Result ℕ)} (hopen : w.handle = .opened)
      (hlock : w.inboxLocked = false) (hinbox : w.inbox = .ok key :: items) :
      Moved ch w .nothing { w with
        inbox := items
        held := w.held ++ [key]
        delivered := w.delivered ++ [key] }
  | failed {error : FitzError} {items : List (Result ℕ)} (hopen : w.handle = .opened)
      (hlock : w.inboxLocked = false) (hinbox : w.inbox = .error error :: items) :
      Moved ch w .nothing { w with inbox := items }
  | released {key : ℕ} {runtime : Bool} (hheld : key ∈ w.held) :
      Moved ch w (.request key (w.correlationId key))
        { w.finishCleanup ch key runtime with held := w.held.erase key }
  | expired {key : ℕ} : Moved ch w .nothing (w.cancelAll [key])
  | shut (hstage : w.handle = .opened) : Moved ch w .nothing { w with shutdown := true, handle := .canceling }
  | silenced (hstage : w.handle = .canceling) :
      Moved ch w .nothing { w.cancelAll w.activeKeys with handle := .closing }
  | closed (hstage : w.handle = .closing) : Moved ch w .nothing { w with closed := true, handle := .clearing }
  | emptied (hstage : w.handle = .clearing) (hlock : w.inboxLocked = false) :
      Moved ch w .nothing { w with inbox := [], handle := .dropping w.inbox }
  | dropped {key : ℕ} {items : List (Result ℕ)} {runtime : Bool}
      (hstage : w.handle = .dropping (.ok key :: items)) :
      Moved ch w (.request key (w.correlationId key))
        { w.finishCleanup ch key runtime with handle := .dropping items }
  | droppedError {error : FitzError} {items : List (Result ℕ)}
      (hstage : w.handle = .dropping (.error error :: items)) :
      Moved ch w .nothing { w with handle := .dropping items }
  | gone (hstage : w.handle = .dropping []) : Moved ch w .nothing { w with handle := .gone }

theorem moved_pollRequests (expired : Bool) (hpc : w.pc = .pollRequest) :
    Moved ch w (w.touchRequests ch) (w.pollRequests ch expired) := by
  unfold pollRequests touchRequests
  by_cases hlag : ch.requests.length - w.nextRequest > ch.requestCapacity
  · rw [if_pos hlag, if_pos hlag]
    exact .skipped hpc hlag
  rw [if_neg hlag, if_neg hlag]
  cases hget : ch.requests[w.nextRequest]? with
  | none => exact .went (by rw [hpc]; rfl) (by rw [hpc]; rfl) (by rw [hpc]; rfl) rfl
  | some received =>
    by_cases hgen : received.generation = ch.generation
    · simp only [if_pos hgen, receive]
      cases hdec : decodeRequest w.pattern received.payload with
      | error error =>
        refine .passed hpc hget (fun invocation htakes => ?_) (.inr ⟨error, rfl⟩)
        rw [htakes.2] at hdec
        cases hdec
      | ok result =>
        cases result with
        | none =>
          refine .passed hpc hget (fun invocation htakes => ?_) (.inl rfl)
          rw [htakes.2] at hdec
          cases hdec
        | some invocation => exact .accepted hpc hget ⟨hgen, hdec⟩
    · simp only [if_neg hgen]
      exact .passed hpc hget (fun _ htakes => hgen htakes.1) (.inl rfl)

theorem moved_pollSignals (hpc : w.pc = .pollSignal) :
    Moved ch w (w.touchSignals ch) (w.pollSignals ch) := by
  unfold pollSignals touchSignals
  by_cases hlag : ch.signals.length - w.nextSignal > ch.signalCapacity
  · rw [if_pos hlag, if_pos hlag]
    exact .signalsLost hpc hlag
  rw [if_neg hlag, if_neg hlag]
  cases hget : ch.signals[w.nextSignal]? with
  | none => exact .went (by rw [hpc]; rfl) (by rw [hpc]; rfl) (by rw [hpc]; rfl) rfl
  | some signal =>
    dsimp only
    cases hsome : canceledCall signal.payload with
    | some id => exact .signaled hpc hlag hget hsome
    | none => exact .signalIgnored hpc hget hsome

theorem moved_remove {id : Bytes} (hpc : w.pc = .removing id) :
    Moved ch w (w.touch ch (.advance false)) (w.remove id) := by
  simp only [touch, hpc, remove]
  cases hfind : w.inbox.find? (w.names id) with
  | none => exact .absent hpc
  | some item =>
    cases item with
    | ok key => exact .removed hpc hfind
    | error error => cases List.find?_some hfind

theorem moved_advance (expired : Bool) :
    Moved ch w (w.touch ch (.advance expired)) (w.advance ch expired) := by
  cases hpc : w.pc with
  | listening =>
    simp only [touch, advance, hpc]
    exact .listened hpc
  | pollShutdown =>
    simp only [touch, advance, hpc]
    split <;> exact .went (by rw [hpc]; rfl) (by rw [hpc]; rfl) (by rw [hpc]; rfl) rfl
  | pollGeneration =>
    simp only [touch, advance, hpc]
    split
    · exact .went (by rw [hpc]; rfl) (by rw [hpc]; rfl) (by rw [hpc]; rfl) rfl
    · exact .regenerated hpc
  | clearing =>
    simp only [touch, advance, hpc]
    exact .taken hpc
  | pollRequest =>
    simp only [touch, advance, hpc]
    exact moved_pollRequests expired hpc
  | pollSignal =>
    simp only [touch, advance, hpc]
    exact moved_pollSignals hpc
  | pushing item =>
    simp only [touch, advance, hpc]
    split
    · cases item with
      | ok key => exact .went (by rw [hpc]; rfl) (by rw [hpc]; rfl) (by rw [hpc]; rfl) rfl
      | error error => exact .went (by rw [hpc]; rfl) (by rw [hpc]; rfl) (by rw [hpc]; rfl) rfl
    · rename_i hfull
      rw [not_or, not_le, Bool.not_eq_true] at hfull
      exact .locked hpc hfull.1 hfull.2
  | locked item =>
    simp only [touch, advance, hpc]
    exact .stored hpc
  | removing id =>
    simp only [advance, hpc]
    exact moved_remove hpc
  | canceling id =>
    simp only [touch, advance, hpc]
    exact .called hpc
  | dropping items =>
    cases items with
    | nil =>
      simp only [touch, advance, hpc]
      exact .went (by rw [hpc]; rfl) (by rw [hpc]; rfl) (by rw [hpc]; rfl) rfl
    | cons item items =>
      simp only [touch, advance, hpc]
      cases item with
      | ok key => exact .discarded hpc
      | error error => exact .discardedError hpc
  | leaving =>
    simp only [touch, advance, hpc]
    exact .left hpc
  | registering | rejecting | done =>
    simp only [touch, advance, hpc]
    exact .stay

theorem moved_dropWorker (runtime : Bool) :
    Moved ch w (w.touch ch (.dropWorker runtime)) (w.dropWorker ch runtime) := by
  cases hstage : w.handle with
  | pending | gone =>
    simp only [touch, dropWorker, hstage]
    exact .stay
  | opened =>
    simp only [touch, dropWorker, hstage]
    exact .shut hstage
  | canceling =>
    simp only [touch, dropWorker, hstage]
    exact .silenced hstage
  | closing =>
    simp only [touch, dropWorker, hstage]
    exact .closed hstage
  | clearing =>
    simp only [touch, dropWorker, hstage]
    split
    · exact .stay
    · rename_i hlock
      exact .emptied hstage (Bool.not_eq_true _ ▸ hlock)
  | dropping items =>
    simp only [touch, dropWorker, hstage]
    cases items with
    | nil => exact .gone hstage
    | cons item items =>
      cases item with
      | ok key => exact .dropped hstage
      | error error => exact .droppedError hstage

/-- **What a step does.** -/
theorem moved_step (ch : Channels) (w : Worker) (e : WorkerEvent) :
    Moved ch w (w.touch ch e) (w.step ch e) := by
  cases e with
  | advance expired => exact moved_advance expired
  | subscribed result =>
    simp only [step, subscribed, touch]
    split
    · rename_i hpc
      exact .started hpc
    · rename_i hpc
      exact .refused hpc
    · exact .stay
  | responded =>
    cases hpc : w.pc with
    | rejecting key =>
      simp only [step, responded, touch, hpc]
      exact .rejected hpc
    | _ =>
      simp only [step, responded, touch, hpc]
      exact .stay
  | poll =>
    simp only [step, poll, touch]
    split
    · rename_i item items hopen hlock hinbox
      cases item with
      | ok key => exact .delivered hopen hlock hinbox
      | error error => exact .failed hopen hlock hinbox
    · exact .stay
  | release key runtime =>
    simp only [step, release, touch]
    split
    · rename_i hheld
      exact .released hheld
    · exact .stay
  | expire key =>
    simp only [step, expire, touch]
    split
    · exact .expired
    · exact .stay
  | dropWorker runtime => exact moved_dropWorker runtime

/-! ## What a step keeps -/

@[simp] theorem length_cancelAll (w : Worker) (keys : List ℕ) :
    (w.cancelAll keys).requests.length = w.requests.length := List.length_mapIdx

theorem getElem?_cancelAll (w : Worker) (keys : List ℕ) (key : ℕ) :
    (w.cancelAll keys).requests[key]? = (w.requests[key]?).map fun r =>
      if key ∈ keys then { r with canceled := true } else r := List.getElem?_mapIdx

/-- Only the token of a request changes. -/
structure Later (r r' : RpcRequest) : Prop where
  frame : r'.frame = r.frame
  invocation : r'.invocation = r.invocation
  generation : r'.generation = r.generation
  canceled : r.canceled = true → r'.canceled = true

theorem Later.refl (r : RpcRequest) : Later r r := ⟨rfl, rfl, rfl, id⟩

/-- What is never changed of a worker, and what only grows. -/
structure Grown (w w' : Worker) : Prop where
  pattern : w'.pattern = w.pattern
  capacity : w'.capacity = w.capacity
  start : w'.start = w.start
  requests : ∀ (key : ℕ) r, w.requests[key]? = some r → ∃ r', w'.requests[key]? = some r' ∧ Later r r'
  released : w.released <+: w'.released

theorem Grown.refl (w : Worker) : Grown w w :=
  ⟨rfl, rfl, rfl, fun _ r hget => ⟨r, hget, .refl r⟩, List.prefix_rfl⟩

/-- The table is the same, or longer. -/
theorem Grown.of_isPrefix {w w' : Worker} (hpattern : w'.pattern = w.pattern)
    (hcapacity : w'.capacity = w.capacity) (hstart : w'.start = w.start)
    (hrequests : w.requests <+: w'.requests) (hreleased : w.released <+: w'.released) :
    Grown w w' := by
  refine ⟨hpattern, hcapacity, hstart, fun key r hget => ⟨r, ?_, .refl r⟩, hreleased⟩
  obtain ⟨more, hmore⟩ := hrequests
  rw [← hmore]
  exact List.getElem?_append_left (List.getElem?_eq_some_iff.1 hget).1 |>.trans hget

theorem grown_cancelAll (w : Worker) (keys : List ℕ) : Grown w (w.cancelAll keys) := by
  refine ⟨rfl, rfl, rfl, fun key r hget => ?_, List.prefix_rfl⟩
  rw [getElem?_cancelAll, hget]
  refine ⟨_, rfl, ?_⟩
  split
  · exact ⟨rfl, rfl, rfl, fun _ => rfl⟩
  · exact .refl r

theorem Moved.grown {t : Touch} {w' : Worker} (h : Moved ch w t w') : Grown w w' := by
  cases h with
  | accepted => exact .of_isPrefix rfl rfl rfl (List.prefix_append _ _) List.prefix_rfl
  | discarded | dropped | rejected | released =>
    exact .of_isPrefix rfl rfl rfl List.prefix_rfl (List.prefix_append _ _)
  | called => exact ⟨rfl, rfl, rfl, (grown_cancelAll w _).requests, List.prefix_rfl⟩
  | regenerated | silenced => exact ⟨rfl, rfl, rfl, (grown_cancelAll w _).requests, List.prefix_rfl⟩
  | expired => exact grown_cancelAll w _
  | _ => exact .of_isPrefix rfl rfl rfl List.prefix_rfl List.prefix_rfl

end Worker

/-! ## The workers of a connection -/

namespace Workers

/-- The connection goes on: the logs grow by what is published now. -/
structure Continues (ch ch' : Channels) : Prop where
  generation : ch.generation ≤ ch'.generation
  requests : ch'.requests = ch.requests ∨
    ∃ payload, ch'.requests = ch.requests ++ [⟨payload, ch'.generation⟩]
  signals : ch'.signals = ch.signals ∨
    ∃ payload, ch'.signals = ch.signals ++ [⟨payload, ch'.requests.length⟩]

theorem Continues.requests_isPrefix {ch ch' : Channels} (h : Continues ch ch') :
    ch.requests <+: ch'.requests := by
  rcases h.requests with heq | ⟨payload, heq⟩ <;> rw [heq]
  exact List.prefix_append _ _

theorem continues_step (s : Workers) (e : WorkersEvent) :
    Continues s.channels (s.step e).channels := by
  have hrefl : Continues s.channels s.channels := ⟨le_rfl, .inl rfl, .inl rfl⟩
  cases e with
  | bump => exact ⟨Nat.le_succ _, .inl rfl, .inl rfl⟩
  | announce =>
    simp only [step]
    split
    · exact hrefl
    · exact ⟨le_rfl, .inl rfl, .inl rfl⟩
  | publishRequest payload => exact ⟨le_rfl, .inr ⟨payload, rfl⟩, .inl rfl⟩
  | publishSignal payload => exact ⟨le_rfl, .inl rfl, .inr ⟨payload, rfl⟩⟩
  | register pattern maxConcurrency =>
    simp only [step, register]
    split <;> exact hrefl
  | worker index e => exact hrefl

/-- What a step of a worker keeps, and the step of the connection for a worker that does
nothing, is kept by all workers of the connection. -/
theorem inv_step_of {I : Channels → Worker → Prop} {c : Channels → Worker → WorkerEvent → Prop}
    (hstep : ∀ ch w e, I ch w → c ch w e → I ch (w.step ch e)) {s : Workers} {e : WorkersEvent}
    (hgrow : ∀ w, I s.channels w → I (s.step e).channels w)
    (hnew : ∀ pattern capacity, I s.channels (.new s.channels pattern capacity))
    (hI : ∀ w ∈ s.workers, I s.channels w)
    (hc : ∀ index e', e = .worker index e' → ∀ w ∈ s.workers[index]?, c s.channels w e') :
    ∀ w ∈ (s.step e).workers, I (s.step e).channels w := by
  have hold : ∀ w ∈ s.workers, I (s.step e).channels w := fun w hw => hgrow w (hI w hw)
  cases e with
  | announce =>
    intro w hw
    refine hold w ?_
    simp only [step] at hw
    split at hw <;> exact hw
  | register pattern maxConcurrency =>
    intro w hw
    simp only [step, register] at hw hold ⊢
    split at hw
    · rcases List.mem_append.1 hw with hw | hw
      · exact hI w hw
      · rw [List.mem_singleton.1 hw]
        exact hnew _ _
    · exact hI w hw
  | worker index e' =>
    intro w hw
    obtain ⟨i, hi⟩ := List.mem_iff_getElem?.1 hw
    simp only [step, List.getElem?_modify, Option.map_eq_map, Option.map_eq_some_iff] at hi
    obtain ⟨old, hget, rfl⟩ := hi
    have hmem := List.mem_of_getElem? hget
    split
    · rename_i heq
      subst heq
      exact hstep _ _ _ (hI old hmem) (hc index e' rfl old hget)
    · exact hI old hmem
  | bump | publishRequest payload | publishSignal payload => exact hold

/-- **What every step of a worker keeps is kept by all workers of a connection.** -/
theorem inv_step {I : Channels → Worker → Prop} {c : Channels → Worker → WorkerEvent → Prop}
    (hstep : ∀ ch w e, I ch w → c ch w e → I ch (w.step ch e))
    (hgrow : ∀ ch ch' w, Continues ch ch' → I ch w → I ch' w) {s : Workers} {e : WorkersEvent}
    (hnew : ∀ pattern capacity, I s.channels (.new s.channels pattern capacity))
    (hI : ∀ w ∈ s.workers, I s.channels w)
    (hc : ∀ index e', e = .worker index e' → ∀ w ∈ s.workers[index]?, c s.channels w e') :
    ∀ w ∈ (s.step e).workers, I (s.step e).channels w :=
  inv_step_of hstep (fun w hw => hgrow _ _ w (continues_step s e) hw) hnew hI hc

end Workers

end Fitz
