import Fitz.Model.Subscription
import Fitz.Proof.Restore

/-!
# Attribution of notifications

A stream compares the bare id of an item with the wire id of its registration at
the moment it is polled. `notifications_attributed`: in every run in which
responses and restores are attributed and each item that matches is compared with
an id assigned on the transport it arrived on, what a stream yields was sent for
the registration its own handle holds there. A buffered item of a lost session, or
a wire id a failed restore left behind, meets ids of another session.
-/

namespace Fitz

open Machine

@[simp] theorem Effect.payload?_write (frame : Bytes) : (Effect.write frame).payload? = none := rfl

@[simp] theorem Effect.payload?_acknowledge (t : Ticket) (r : Result Unit) :
    (Effect.acknowledge t r).payload? = none := rfl

namespace Loop

variable {sh : Shared} {l : Loop}

@[simp] theorem payload?_refuse (response : Option Ticket) (error : FitzError) :
    (refuse response error).filterMap Effect.payload? = [] := by
  cases response <;> rfl

@[simp] theorem payload?_releaseOpt (response : Option Ticket) :
    (releaseOpt response).filterMap Effect.payload? = [] := by
  cases response <;> rfl

/-- Only an inbound frame hands a caller a payload. -/
theorem payload?_onCommand (c : Command) (written : Result Unit) :
    (l.onCommand sh c written).effects.filterMap Effect.payload? = [] := by
  cases c with
  | request id generation messageType flags payload t =>
    simp only [onCommand, onRequest]
    split
    · rfl
    · rw [List.filterMap_append, List.append_eq_nil_iff]
      refine ⟨by split <;> rfl, ?_⟩
      simp only [requestCorrelated, requestPending]
      repeat' split
      all_goals
        simp only [next, finish, List.filterMap_append, List.filterMap_cons, List.filterMap_nil,
          Effect.payload?_write, payload?_refuse, payload?_releaseOpt, payload?_failAll, List.append_nil]
  | send id generation messageType payload t =>
    simp only [onCommand, onSend]
    repeat' split
    all_goals rfl
  | connect t => rfl
  | close t =>
    simp only [onCommand, finish, List.filterMap_append, List.filterMap_cons, List.filterMap_nil,
      Effect.payload?_acknowledge, payload?_failAll, List.append_nil]

theorem payload?_onCancel (id : UInt64) : (l.onCancel id).effects.filterMap Effect.payload? = [] := by
  have hpending : ∀ p ∈ l.cancelPending id, p.2.filterMap Effect.payload? = [] := by
    intro p hp
    obtain ⟨e, -, rfl⟩ := Option.map_eq_some_iff.1 hp
    simp
  have hqueued : ∀ p ∈ l.cancelQueued id, p.2.filterMap Effect.payload? = [] := by
    intro p hp
    obtain ⟨e, -, rfl⟩ := Option.map_eq_some_iff.1 hp
    simp
  unfold onCancel
  split
  · rename_i l' effects h
    unfold cancelAllPending at h
    split at h
    · cases h
      simp [next]
    · cases hp : l.cancelPending id with
      | some p =>
        rw [hp] at h
        cases h
        exact hpending _ hp
      | none =>
        rw [hp] at h
        exact hqueued _ h
  · rfl

end Loop

namespace Conn

variable {cfg : Config} {s : Conn}

/-! ## Answers -/

/-- A payload a caller finds was handed over by a frame, unless it is the empty
one of an acknowledgement. -/
def AnswersDelivered (answers : List (Ticket × Option (Result Bytes))) (log : List Obs) : Prop :=
  ∀ t payload, (t, some (.ok payload)) ∈ answers →
    payload = [] ∨ ∃ serial frame source, .delivered serial t payload frame source ∈ log

theorem payload_of_answer {effects : List Effect} {t : Ticket} {payload : Bytes}
    (h : (t, some (.ok payload)) ∈ effects.filterMap answer?) :
    payload = [] ∨ (t, payload) ∈ effects.filterMap Effect.payload? := by
  obtain ⟨x, hx, ha⟩ := List.mem_filterMap.1 h
  cases x with
  | respond t' r =>
    cases ha
    exact .inr (List.mem_filterMap.2 ⟨_, hx, rfl⟩)
  | acknowledge t' r =>
    cases r with
    | ok =>
      cases ha
      exact .inl rfl
    | error => simp [answer?, Except.map] at ha
  | release | write | publish => simp [answer?] at ha

theorem AnswersDelivered.grow {answers : List (Ticket × Option (Result Bytes))} {log log' : List Obs}
    (h : AnswersDelivered answers log) (hlog : ∀ o ∈ log, o ∈ log') (effects : List Effect)
    (heff : ∀ t payload, (t, payload) ∈ effects.filterMap Effect.payload? →
      ∃ serial frame source, .delivered serial t payload frame source ∈ log') :
    AnswersDelivered (answers ++ effects.filterMap answer?) log' := by
  intro t payload hmem
  rcases List.mem_append.1 hmem with hmem | hmem
  · rcases h t payload hmem with hp | ⟨serial, frame, source, ho⟩
    · exact .inl hp
    · exact .inr ⟨serial, frame, source, hlog _ ho⟩
  · exact (payload_of_answer hmem).imp id (heff t payload)

theorem answersDelivered_step (s : Conn) (e : Event) (h : AnswersDelivered s.answers s.log) :
    AnswersDelivered (s.step cfg e).answers (s.step cfg e).log := by
  -- a turn that hands over no payload
  have hturn : ∀ {log' : List Obs} {effects : List Effect}, (∀ o ∈ s.log, o ∈ log') →
      effects.filterMap Effect.payload? = [] →
      AnswersDelivered (s.answers ++ effects.filterMap answer?) log' := by
    intro log' effects hlog hp
    refine h.grow hlog effects fun t payload hmem => ?_
    rw [hp] at hmem
    cases hmem
  cases e with
  | command written =>
    simp only [step, command, turn_eq]
    split
    · split
      all_goals exact hturn (fun o ho => by simp [supStep, ho]) (Loop.payload?_onCommand _ written)
    · exact h
  | cancel =>
    simp only [step, cancel, turn_eq]
    split
    · exact hturn (fun o ho => by simp [ho]) (Loop.payload?_onCancel _)
    · exact h
  | readError | hangup =>
    simp only [step, readError, hangup, turn_eq]
    split
    · refine hturn (fun o ho => by simp [supStep, ho]) ?_
      simp only [Loop.onReadError, Loop.onHangup, Loop.finish, List.nil_append, Loop.payload?_failAll]
    all_goals exact h
  | inbound frame answers written =>
    simp only [step, inbound, turn_eq]
    split
    · refine h.grow (fun o ho => by simp [read, ho]) _ fun t payload hmem => ?_
      obtain ⟨x, hx, hp⟩ := List.mem_filterMap.1 hmem
      cases x with
      | respond t' r =>
        cases r with
        | ok payload' =>
          cases hp
          refine ⟨s.serial, frame, s.source answers, List.mem_append_left _ ?_⟩
          exact List.mem_append_right _ (List.mem_filterMap.2 ⟨_, hx, rfl⟩)
        | error => cases hp
      | release | acknowledge | write | publish => cases hp
    · exact h
  | receive =>
    simp only [step, receive]
    split
    · split
      · exact h
      -- neither a refusal nor a dropped sender carries a payload
      all_goals
        intro t payload hmem
        rcases List.mem_append.1 hmem with hmem | hmem
        · exact h t payload hmem
        · simp at hmem
    · exact h
  | restoreNext cell written | restoreRead frame answers =>
    have hgrow : ∀ log', (∀ o ∈ s.log, o ∈ log') → AnswersDelivered s.answers log' :=
      fun log' hlog => by simpa using h.grow hlog [] (by simp)
    simp only [step, restoreNext, restoreRead]
    repeat' split
    all_goals first
      | exact h
      | exact hgrow _ fun o ho => by simp [read, wrote, ho]
  | advance =>
    have ha := advance_advanced cfg s
    simp only [step]
    generalize s.advance cfg = s' at ha
    cases ha <;> exact h
  | allocate kind messageType payload =>
    simp only [step, allocate]
    split <;> exact h
  | stamp t | enqueue t | resume t | abandon t | connect | close | requestClose | dial result
  | auth answer | restoreFail | restored =>
    simp only [step, stamp, enqueue, resume, abandon, dropGuard, push, requestClose, dial, auth,
      restoreFail, restored]
    repeat' split
    all_goals exact h
  | register | deactivate | token | wake => exact h

/-- What is handed to a caller was read. -/
def DeliveriesReceived (log : List Obs) : Prop :=
  ∀ serial t payload frame source, .delivered serial t payload frame source ∈ log →
    .received serial source frame ∈ log

theorem deliveriesReceived_step (s : Conn) (e : Event) (hn : s.negotiated)
    (h : DeliveriesReceived s.log) : DeliveriesReceived (s.step cfg e).log := by
  obtain ⟨new, hnew, hex⟩ := log_step cfg s e hn
  intro serial t payload frame source hmem
  rw [hnew] at hmem
  rcases List.mem_append.1 hmem with hmem | hmem
  · exact mem_log_step hn (h serial t payload frame source hmem)
  · obtain ⟨answers, written, rfl, hpc, rfl, rfl, -⟩ := hex _ hmem
    simp only [step, inbound, hpc, turn_eq]
    exact List.mem_append_left _ (List.mem_append_left _ (List.mem_append_right _ (by simp)))

/-! ## Attributed connections -/

/-- An echoing broker answers each frame under its own correlation. -/
theorem Echoes.honest {e : Event} (h : Echoes s e) : Honest s e := by
  cases e with
  | inbound frame answers written =>
    intro header hh hcorr
    have hecho := h header hh
    cases hsrc : s.source answers with
    | none =>
      rw [hsrc] at hecho
      exact absurd hecho.1 hcorr
    | some f =>
      rw [hsrc] at hecho
      rw [Option.map_some, hecho.1]
  | _ => trivial

/-- What a run keeps in which responses and restores are attributed. -/
structure Attributed (s : Conn) : Prop where
  base : Base s
  session : s.sessionInv
  own : OwnDeliveries s.log
  restores : RestoresInv s
  received : DeliveriesReceived s.log
  answers : AnswersDelivered s.answers s.log

theorem attributed_new (cfg : Config) : Attributed (.new cfg) where
  base := base_new cfg
  session := SessionInv.idle
  own := by simp [OwnDeliveries, Conn.new]
  restores := restoresInv_new cfg
  received := by simp [DeliveriesReceived, Conn.new]
  answers := by simp [AnswersDelivered, Conn.new]

/-- The condition of a step over the connection. -/
def Attributes (s : Conn) (e : Event) : Prop := OwnIds s e ∧ RestoresAlone s e ∧ Echoes s e

theorem attributed_step (s : Conn) (e : Event) (h : Attributed s) (hcond : Attributes s e) :
    Attributed (s.step cfg e) where
  base := base_step s e h.base
  session := sessionInv_step s e h.base h.session hcond.1
  own := ownDeliveries_step s e h.base h.session (Echoes.honest hcond.2.2) h.own
  restores := restoresInv_step s e h.restores hcond.2
  received := deliveriesReceived_step s e h.base.negotiated h.received
  answers := answersDelivered_step s e h.answers

/-- The transport `responseOn` names is one of a delivery. -/
theorem delivered_of_responseOn {log : List Obs} {t : Ticket} {response : Bytes} {serial : ℕ}
    (h : responseOn log t response = some serial) :
    ∃ frame source, .delivered serial t response frame source ∈ log := by
  obtain ⟨o, ho, hsome⟩ := List.exists_of_findSome?_eq_some h
  cases o with
  | delivered serial' t' payload' frame source =>
    simp only at hsome
    split at hsome
    · rename_i heq
      obtain ⟨rfl, rfl⟩ := heq
      cases hsome
      exact ⟨frame, source, ho⟩
    · cases hsome
  | wrote | received | dropped | published => cases hsome

/-- The transport of a response is one on which the broker answered the call. -/
theorem assigned_of_response (h : Attributed s) {t : Ticket} {payload : Bytes}
    (hdel : ∃ serial frame source, .delivered serial t payload frame source ∈ s.log)
    {decoder : Bytes → Result UInt64} {id : UInt64} (hdec : decoder payload = .ok id) :
    Assigned s.log ((responseOn s.log t payload).getD 0) (·.ticket? = some t) decoder id := by
  obtain ⟨serial, frame, source, hmem⟩ := hdel
  cases hon : responseOn s.log t payload with
  | none =>
    have hne := List.findSome?_eq_none_iff.1 hon _ hmem
    simp at hne
  | some on =>
    obtain ⟨frame', source', ho⟩ := delivered_of_responseOn hon
    obtain ⟨⟨f, rfl, hf⟩, hfinal⟩ := h.own _ _ _ _ _ ho
    exact ⟨f, frame', payload, h.received _ _ _ _ _ ho, hf, hfinal, hdec⟩

end Conn

theorem Topic.decodeSubscriptionId_nil (topic : Topic) (id : UInt64) :
    topic.decodeSubscriptionId [] ≠ .ok id := by
  intro h
  cases topic <;> cases h

/-! ## The condition and the property -/

/-- What a handle holds: its domain and cell, and of its first wire id the call
and the transport. -/
structure Holding where
  topic : Topic
  cell : Cell
  call : Ticket
  on : ℕ
  deriving DecidableEq

namespace Holding

/-- The SUBSCRIBE frames of the handle's registration. -/
def owns (h : Holding) (o : Origin) : Prop := o = .restore h.cell ∨ o.ticket? = some h.call

/-- The transport the wire id in the cell was assigned on. -/
def assignedOn (h : Holding) (conn : Conn) : ℕ :=
  match conn.held h.cell with
  | some p => p.1
  | none => h.on

/-- On transport `serial` the broker gave `id` to the handle's registration. -/
def Given (h : Holding) (conn : Conn) (serial : ℕ) (id : UInt64) : Prop :=
  Assigned conn.log serial h.owns h.topic.decodeSubscriptionId id

end Holding

def Subscription.holding (sub : Subscription) : Option Holding :=
  match sub.stage with
  | .registered cell t on => some ⟨sub.topic, cell, t, on⟩
  | _ => none

def Subs.holding (s : Subs) (i : ℕ) : Option Holding := s.subs[i]?.bind (·.holding)

/-- An item that matches the wire id is compared with an id assigned on the
transport it arrived on. -/
def Sourced (s : Subs) : SubEvent → Prop
  | .poll i => ∀ sub ∈ s.subs[i]?, ∀ h ∈ sub.holding, ∀ m ∈ (Subs.unread s.conn.log sub).head?,
      (getU64.on m.2).toOption = some (s.conn.wireIds h.cell) → m.1 = h.assignedOn s.conn
  | _ => True

/-- Responses and restores are attributed. -/
def Attributing (s : Subs) : SubEvent → Prop
  | .conn e => s.conn.Attributes e
  | _ => True

/-- The broker gives distinct ids to distinct registrations of one session. -/
def DistinctRegistrations (s : Subs) : Prop :=
  ∀ i j h h' serial id, s.holding i = some h → s.holding j = some h' → h.topic = h'.topic →
    h.Given s.conn serial id → h'.Given s.conn serial id → h.cell = h'.cell

/-- The item was published on the transport under the id. -/
def Arrived (json : Bytes → Except String DecodedStreamNotifyPayload) (conn : Conn) (topic : Topic)
    (y : Yield) : Prop :=
  ∃ payload, .published y.serial topic.notifyType payload ∈ conn.log ∧
    getU64.on payload = .ok y.id ∧
    Decode.on (do let _ ← getU64; topic.item json) payload = .ok y.item

/-- What a stream yielded arrived on its transport under the id the broker gave
there to the registration of the stream's own handle, and to no other. -/
def YieldsOwn (json : Bytes → Except String DecodedStreamNotifyPayload) (s : Subs) : Prop :=
  ∀ y ∈ s.yields, ∃ h, s.holding y.sub = some h ∧ Arrived json s.conn h.topic y ∧
    h.Given s.conn y.serial y.id ∧
    ∀ j h', s.holding j = some h' → h'.topic = h.topic → h'.Given s.conn y.serial y.id →
      h'.cell = h.cell

/-! ## The invariant -/

/-- A handle knows its cell: nothing but its own registration sets it. -/
structure HoldingInv (conn : Conn) (h : Holding) : Prop where
  cell : h.cell < conn.nextCell
  known : ∀ r, conn.Known r → r.wireId = h.cell → r.decoder = h.topic.decodeSubscriptionId
  restored : ∀ p, conn.held h.cell = some p → p.2.decoder = h.topic.decodeSubscriptionId
  first : conn.held h.cell = none → h.Given conn h.on (conn.wireIds h.cell)

theorem Assigned.imp {log : List Obs} {serial : ℕ} {own own' : Origin → Prop}
    {decoder : Bytes → Result UInt64} {id : UInt64} (h : Assigned log serial own decoder id)
    (hown : ∀ o, own o → own' o) : Assigned log serial own' decoder id := by
  obtain ⟨f, frame, payload, hmem, ho, hrest⟩ := h
  exact ⟨f, frame, payload, hmem, hown _ ho, hrest⟩

section

variable {cfg : Config} {conn : Conn} {h : Holding}

/-- The wire id of a handle was given to its own registration. -/
theorem HoldingInv.given (hi : HoldingInv conn h) (ha : conn.Attributed) :
    h.Given conn (h.assignedOn conn) (conn.wireIds h.cell) := by
  unfold Holding.assignedOn
  cases hheld : conn.held h.cell with
  | none => exact hi.first hheld
  | some p =>
    have hown := ha.restores.cells.own h.cell p hheld
    rw [hi.restored p hheld] at hown
    exact hown.imp fun o ho => .inl ho

theorem HoldingInv.step (hi : HoldingInv conn h) (hn : conn.negotiated) (e : Event) :
    HoldingInv (conn.step cfg e) h := by
  refine ⟨lt_of_lt_of_le hi.cell (Conn.nextCell_step conn e), fun r hr hcell => ?_, fun p hp => ?_,
    fun hnone => ?_⟩
  · rcases Conn.known_step hr with hr | ⟨-, -, -, -, -, hnew⟩
    · exact hi.known r hr hcell
    · exact absurd (hcell.symm.trans hnew) (Nat.ne_of_lt hi.cell)
  · rcases Conn.cell_step cfg e hi.cell with ⟨hheld, -⟩ | ⟨r, hr, hcell, hheld⟩
    · exact hi.restored p (hheld ▸ hp)
    · rw [hheld] at hp
      cases hp
      exact hi.known r hr hcell
  · rcases Conn.cell_step cfg e hi.cell with ⟨hheld, hid⟩ | ⟨r, hr, hcell, hheld⟩
    · have hgiven := hi.first (hheld ▸ hnone)
      unfold Holding.Given at hgiven ⊢
      rw [hid]
      exact hgiven.mono fun o ho => Conn.mem_log_step hn ho
    · rw [hheld] at hnone
      cases hnone

/-- A new registration, its id answered to its own call. -/
theorem HoldingInv.register (cfg : Config) (ha : conn.Attributed) {topic : Topic} {t : Ticket}
    {response : Bytes} {id : UInt64} (hdel : ∃ serial frame source, .delivered serial t response frame source ∈ conn.log)
    (hdec : topic.decodeSubscriptionId response = .ok id) (messageType : UInt16) (payload : Bytes) :
    HoldingInv (conn.step cfg (.register messageType payload id topic.decodeSubscriptionId))
      ⟨topic, conn.nextCell, t, (responseOn conn.log t response).getD 0⟩ := by
  have hcells := ha.restores.cells
  refine ⟨Nat.lt_succ_self _, fun r hr hcell => ?_, fun p hp => ?_, fun _ => ?_⟩
  · -- the cell is new, so only the new entry has it
    rcases hr with ⟨e, he, rfl⟩ | hr | hr
    · simp only [Conn.step, Conn.register, AList.entries_insert, List.mem_cons] at he
      rcases he with rfl | he
      · rfl
      · exact absurd hcell (Nat.ne_of_lt
          (hcells.registrations e ((List.kerase_sublist _ _).subset he)))
    · exact absurd hcell (Nat.ne_of_lt (hcells.todo r hr))
    · exact absurd hcell (Nat.ne_of_lt (hcells.current r hr))
  · exact absurd (hcells.bound _ p hp) (Nat.lt_irrefl _)
  · have hid : (conn.step cfg (.register messageType payload id topic.decodeSubscriptionId)).wireIds
        conn.nextCell = id := Function.update_self ..
    unfold Holding.Given
    rw [hid]
    exact (Conn.assigned_of_response ha hdel hdec).imp fun o ho => .inr ho

end

namespace Subs

variable {cfg : Config} {json : Bytes → Except String DecodedStreamNotifyPayload} {s : Subs}

/-- What a run under the condition keeps. -/
structure SourcedInv (json : Bytes → Except String DecodedStreamNotifyPayload) (s : Subs) : Prop where
  conn : s.conn.Attributed
  answered : ∀ sub ∈ s.subs, ∀ t response, sub.stage = .answered t response →
    response = [] ∨ ∃ serial frame source, .delivered serial t response frame source ∈ s.conn.log
  handles : ∀ sub ∈ s.subs, ∀ h ∈ sub.holding, HoldingInv s.conn h
  yields : ∀ y ∈ s.yields, ∃ h, s.holding y.sub = some h ∧ Arrived json s.conn h.topic y ∧
    h.Given s.conn y.serial y.id

theorem SourcedInv.conn_step (hs : SourcedInv json s) (cfg : Config) {e : Event}
    (hcond : s.conn.Attributes e) :
    SourcedInv json { s with conn := s.conn.step cfg e } where
  conn := Conn.attributed_step s.conn e hs.conn hcond
  answered sub hsub t response hst := by
    rcases hs.answered sub hsub t response hst with h | ⟨serial, frame, source, h⟩
    · exact .inl h
    · exact .inr ⟨serial, frame, source, Conn.mem_log_step hs.conn.base.negotiated h⟩
  handles sub hsub h hh := (hs.handles sub hsub h hh).step hs.conn.base.negotiated e
  yields y hy := by
    obtain ⟨h, hh, ⟨payload, hpub, hitem⟩, hgiven⟩ := hs.yields y hy
    exact ⟨h, hh, ⟨payload, Conn.mem_log_step hs.conn.base.negotiated hpub, hitem⟩,
      hgiven.mono fun o ho => Conn.mem_log_step hs.conn.base.negotiated ho⟩

theorem mem_modify {i : ℕ} {f : Subscription → Subscription} {sub : Subscription}
    (h : sub ∈ s.subs.modify i f) : sub ∈ s.subs ∨ ∃ sub' ∈ s.subs[i]?, sub = f sub' := by
  obtain ⟨j, hj⟩ := List.mem_iff_getElem?.1 h
  rw [List.getElem?_modify] at hj
  obtain ⟨sub', hsub', rfl⟩ := Option.map_eq_some_iff.1 hj
  split
  · rename_i hij
    exact .inr ⟨sub', hij ▸ hsub', rfl⟩
  · exact .inl (List.mem_of_getElem? hsub')

/-- A step of one subscription that keeps what its handle holds. -/
theorem SourcedInv.modify (hs : SourcedInv json s) {i : ℕ} {f : Subscription → Subscription}
    (hans : ∀ sub ∈ s.subs[i]?, ∀ t response, (f sub).stage = .answered t response →
      response = [] ∨ ∃ serial frame source, .delivered serial t response frame source ∈ s.conn.log)
    (hnew : ∀ sub ∈ s.subs[i]?, ∀ h ∈ (f sub).holding, HoldingInv s.conn h)
    (hkeep : ∀ sub ∈ s.subs[i]?, ∀ h ∈ sub.holding, h ∈ (f sub).holding) :
    SourcedInv json { s with subs := s.subs.modify i f } := by
  refine ⟨hs.conn, fun sub hsub => ?_, fun sub hsub => ?_, fun y hy => ?_⟩
  · rcases mem_modify hsub with hsub | ⟨sub', hsub', rfl⟩
    · exact hs.answered sub hsub
    · exact hans sub' hsub'
  · rcases mem_modify hsub with hsub | ⟨sub', hsub', rfl⟩
    · exact hs.handles sub hsub
    · exact hnew sub' hsub'
  · obtain ⟨h, hh, hrest⟩ := hs.yields y hy
    refine ⟨h, ?_, hrest⟩
    obtain ⟨sub, hsub, hhold⟩ := Option.bind_eq_some_iff.1 hh
    simp only [holding, List.getElem?_modify]
    rw [hsub]
    by_cases hij : i = y.sub
    · simpa [hij] using hkeep sub (hij ▸ hsub) h hhold
    · simpa [hij] using hhold

/-- A step from a stage without a handle to one without a response. -/
theorem SourcedInv.setStage (hs : SourcedInv json s) {i : ℕ} {stage : SubStage}
    (hold : ∀ sub ∈ s.subs[i]?, sub.holding = none)
    (hans : ∀ t response, stage = .answered t response →
      response = [] ∨ ∃ serial frame source, .delivered serial t response frame source ∈ s.conn.log)
    (hnew : ∀ sub ∈ s.subs[i]?, ∀ cell t on, stage = .registered cell t on →
      HoldingInv s.conn ⟨sub.topic, cell, t, on⟩) :
    SourcedInv json (s.setStage i stage) := by
  refine hs.modify (fun sub _ => hans) (fun sub hsub h hh => ?_) (fun sub hsub h hh => ?_)
  · simp only [Subscription.holding] at hh
    cases hst : stage with
    | registered cell t on =>
      rw [hst] at hh
      cases hh
      exact hnew sub hsub cell t on hst
    | listening | requested | answered =>
      rw [hst] at hh
      cases hh
  · rw [hold sub hsub] at hh
    cases hh

theorem holding_of_stage {sub : Subscription} (h : ∀ cell t on, sub.stage ≠ .registered cell t on) :
    sub.holding = none := by
  unfold Subscription.holding
  split
  · rename_i cell t on hst
    exact absurd hst (h cell t on)
  · rfl

/-- A stream is ready with an item only under its own wire id. -/
theorem pollItem_ready {topic : Topic} {wireId : UInt64} {payload : Bytes} {item : Notification}
    (h : pollItem json topic wireId payload = .ready (.ok item)) :
    getU64.on payload = .ok wireId ∧
      Decode.on (do let _ ← getU64; topic.item json) payload = .ok item := by
  unfold pollItem at h
  split at h
  · cases h
  · rename_i id hid
    split at h
    · cases h
    · rename_i heq
      obtain rfl : id = wireId := not_not.1 heq
      exact ⟨hid, by simpa using h⟩

/-- What a receiver has not read was published. -/
theorem mem_unread {log : List Obs} {sub : Subscription} {serial : ℕ} {payload : Bytes}
    (h : (serial, payload) ∈ unread log sub) :
    .published serial sub.topic.notifyType payload ∈ log := by
  obtain ⟨o, ho, hsome⟩ := List.mem_filterMap.1 (List.mem_of_mem_drop h)
  split at hsome
  · split at hsome
    · rename_i hkind
      cases hsome
      exact hkind ▸ List.mem_of_mem_drop ho
    · cases hsome
  · cases hsome

/-- An item that is yielded matched the wire id, which was given on the transport it
arrived on. -/
theorem sourcedInv_poll (hs : SourcedInv json s) {i : ℕ} (hcond : Sourced s (.poll i)) :
    SourcedInv json (s.poll json i) := by
  have htaken : ∀ taken, SourcedInv json (s.setTaken i taken) := fun taken =>
    hs.modify (fun sub hsub => hs.answered sub (List.mem_of_getElem? hsub))
      (fun sub hsub => hs.handles sub (List.mem_of_getElem? hsub)) (fun _ _ _ hh => hh)
  unfold poll
  split
  · rename_i sub hsub
    split
    · rename_i cell t on serial payload rest hst hclosed hunread
      split
      · exact htaken _
      · split
        · rename_i item hitem
          obtain ⟨hid, hdecode⟩ := pollItem_ready hitem
          have hhold : sub.holding = some ⟨sub.topic, cell, t, on⟩ := by
            simp [Subscription.holding, hst]
          have hserial : serial = (⟨sub.topic, cell, t, on⟩ : Holding).assignedOn s.conn :=
            hcond sub hsub _ hhold (serial, payload) (by rw [hunread]; rfl) (by rw [hid]; rfl)
          have hpublished : .published serial sub.topic.notifyType payload ∈ s.conn.log :=
            mem_unread (by rw [hunread]; exact List.mem_cons_self)
          have hgiven := (hs.handles sub (List.mem_of_getElem? hsub) _ hhold).given hs.conn
          rw [← hserial] at hgiven
          refine ⟨hs.conn, (htaken _).answered, (htaken _).handles, fun y hy => ?_⟩
          rcases List.mem_append.1 hy with hy | hy
          · exact (htaken (sub.taken + 1)).yields y hy
          · rw [List.mem_singleton.1 hy]
            refine ⟨⟨sub.topic, cell, t, on⟩, ?_, ⟨payload, hpublished, hid, hdecode⟩, hgiven⟩
            simp [holding, setTaken, hsub, Subscription.holding, hst]
        · exact htaken _
    · exact hs
  · exact hs

theorem sourcedInv_listen (hs : SourcedInv json s) (topic : Topic) (pattern : String) :
    SourcedInv json (s.listen topic pattern) := by
  unfold listen
  split
  · refine ⟨hs.conn, fun sub hsub t response hst => ?_, fun sub hsub h hh => ?_, fun y hy => ?_⟩
    · rcases List.mem_append.1 hsub with hsub | hsub
      · exact hs.answered sub hsub t response hst
      · rw [List.mem_singleton.1 hsub] at hst
        cases hst
    · rcases List.mem_append.1 hsub with hsub | hsub
      · exact hs.handles sub hsub h hh
      · rw [List.mem_singleton.1 hsub] at hh
        cases hh
    · obtain ⟨h, hh, hrest⟩ := hs.yields y hy
      obtain ⟨sub, hsub, hhold⟩ := Option.bind_eq_some_iff.1 hh
      refine ⟨h, ?_, hrest⟩
      simp only [holding]
      rw [List.getElem?_append_left (List.getElem?_eq_some_iff.1 hsub).1, hsub]
      exact hhold
  · exact hs

theorem sourcedInv_request (hs : SourcedInv json s) (i : ℕ) : SourcedInv json (s.request cfg i) := by
  unfold request
  split
  · rename_i sub hsub
    split
    · rename_i hst
      refine (hs.conn_step cfg (e := .allocate _ _ _) (by simp [Conn.Attributes, OwnIds,
        RestoresAlone, Echoes])).setStage (fun sub' hsub' => ?_) (by simp) (by simp)
      cases hsub.symm.trans hsub'
      exact holding_of_stage (by simp [hst])
    · exact hs
  · exact hs

theorem sourcedInv_receive (hs : SourcedInv json s) (i : ℕ) : SourcedInv json (s.receive cfg i) := by
  unfold receive
  split
  · rename_i sub hsub
    split
    · rename_i t hst
      split
      · rename_i call t' response hcall hfind
        have hmem : (t, some (.ok response)) ∈ s.conn.answers := by
          have ht : t' = t := by simpa using List.find?_some hfind
          exact ht ▸ List.mem_of_find?_eq_some hfind
        have hstep := hs.conn_step cfg (e := .resume t) (by simp [Conn.Attributes, OwnIds,
          RestoresAlone, Echoes])
        refine hstep.setStage (fun sub' hsub' => ?_) (fun t' response' hst' => ?_) (by simp)
        · cases hsub.symm.trans hsub'
          exact holding_of_stage (by simp [hst])
        · cases hst'
          rcases hs.conn.answers t response hmem with h | ⟨serial, frame, source, h⟩
          · exact .inl h
          · exact .inr ⟨serial, frame, source, Conn.mem_log_step hs.conn.base.negotiated h⟩
      · exact hs
    · exact hs
  · exact hs

theorem sourcedInv_register (hs : SourcedInv json s) (i : ℕ) :
    SourcedInv json (s.register cfg i) := by
  unfold register
  split
  · rename_i sub hsub
    split
    · rename_i t response hst
      split
      · rename_i id hdec
        have hdel := (hs.answered sub (List.mem_of_getElem? hsub) t response hst).resolve_left
          (fun h => sub.topic.decodeSubscriptionId_nil id (h ▸ hdec))
        have hstep := hs.conn_step cfg
          (e := .register sub.topic.subscribeType (putString sub.pattern) id
            sub.topic.decodeSubscriptionId) (by simp [Conn.Attributes, OwnIds, RestoresAlone, Echoes])
        refine hstep.setStage (fun sub' hsub' => ?_) (by simp) (fun sub' hsub' cell t' on hreg => ?_)
        · cases hsub.symm.trans hsub'
          exact holding_of_stage (by simp [hst])
        · cases hsub.symm.trans hsub'
          cases hreg
          exact HoldingInv.register cfg hs.conn hdel hdec _ _
      · exact hs
    · exact hs
  · exact hs

theorem sourcedInv_share (hs : SourcedInv json s) (i j : ℕ) : SourcedInv json (s.share i j) := by
  unfold share
  split
  · rename_i sub other hsub hother
    split
    · rename_i cell t on hst hreg
      split
      · rename_i hshare
        refine hs.setStage (fun sub' hsub' => ?_) (by simp) (fun sub' hsub' cell' t' on' heq => ?_)
        · cases hsub.symm.trans hsub'
          exact holding_of_stage (by simp [hst])
        · cases hsub.symm.trans hsub'
          cases heq
          rw [hshare.2.1]
          exact hs.handles other (List.mem_of_getElem? hother) _
            (by simp [Subscription.holding, hreg])
      · exact hs
    · exact hs
  · exact hs

/-- **One step keeps the attribution** under the condition. -/
theorem sourcedInv_step (s : Subs) (e : SubEvent) (hs : SourcedInv json s)
    (hcond : Attributing s e ∧ Sourced s e) : SourcedInv json (s.step cfg json e) := by
  cases e with
  | conn e => exact hs.conn_step cfg hcond.1
  | listen topic pattern => exact sourcedInv_listen hs topic pattern
  | request i => exact sourcedInv_request hs i
  | receive i => exact sourcedInv_receive hs i
  | register i => exact sourcedInv_register hs i
  | share i j => exact sourcedInv_share hs i j
  | poll i => exact sourcedInv_poll hs hcond.2
  | close i =>
    exact hs.modify (fun sub hsub => hs.answered sub (List.mem_of_getElem? hsub))
      (fun sub hsub => hs.handles sub (List.mem_of_getElem? hsub)) (fun _ _ _ hh => hh)

end Subs

open Subs in
/-- **Notifications are attributed.** In every run in which responses and restores
are attributed, and each item that matches the wire id of the stream that polls it
is compared with an id assigned on the transport it arrived on: if the broker gave
distinct ids to distinct registrations of a session, a stream yields only what
arrived under the id of its own handle's registration on that transport. -/
theorem notifications_attributed (cfg : Config)
    (json : Bytes → Except String DecodedStreamNotifyPayload) (es : List SubEvent)
    (h : Along (Subs.step cfg json) (fun s e => Attributing s e ∧ Sourced s e) (.new cfg) es)
    (hd : DistinctRegistrations (run (Subs.step cfg json) (.new cfg) es)) :
    YieldsOwn json (run (Subs.step cfg json) (.new cfg) es) := by
  have hnew : SourcedInv json (.new cfg) :=
    ⟨Conn.attributed_new cfg, by simp [Subs.new], by simp [Subs.new], by simp [Subs.new]⟩
  have hinv := along_inv sourcedInv_step hnew h
  intro y hy
  obtain ⟨x, hx, harr, hgiven⟩ := hinv.yields y hy
  exact ⟨x, hx, harr, hgiven, fun j x' hx' htopic hgiven' =>
    hd j y.sub x' x y.serial y.id hx' hx htopic hgiven' hgiven⟩

section Decidable

instance (s : Conn) (e : Event) : Decidable (s.Attributes e) :=
  inferInstanceAs (Decidable (OwnIds s e ∧ RestoresAlone s e ∧ Echoes s e))

instance (s : Subs) (e : SubEvent) : Decidable (Attributing s e) :=
  match e with
  | .conn e => inferInstanceAs (Decidable (s.conn.Attributes e))
  | .listen .. | .request _ | .receive _ | .register _ | .share .. | .poll _ | .close _ =>
    isTrue trivial

instance (s : Subs) (e : SubEvent) : Decidable (Sourced s e) :=
  match e with
  | .poll i => inferInstanceAs (Decidable (∀ sub ∈ s.subs[i]?, ∀ h ∈ sub.holding,
      ∀ m ∈ (Subs.unread s.conn.log sub).head?,
        (getU64.on m.2).toOption = some (s.conn.wireIds h.cell) → m.1 = h.assignedOn s.conn))
  | .conn _ | .listen .. | .request _ | .receive _ | .register _ | .share .. | .close _ =>
    isTrue trivial

end Decidable

/-- The origin that was given an id by a frame, and the id. -/
def assignment? (decoder : Bytes → Result UInt64) : Obs → Option (ℕ × Origin × UInt64)
  | .received serial (some f) frame =>
    match decodeFrameHeader frame with
    | .ok header =>
      if header.flags &&& responseFinal = 0 then none
      else
        (Wire3.decode (frame.drop header.payloadStart) header.messageType header.flags).toOption.bind
          fun p => (decoder p.1).toOption.map fun id => (serial, f.origin, id)
    | .error _ => none
  | _ => none

/-- An assignment stands in the table of the log. -/
theorem Assigned.mem {log : List Obs} {serial : ℕ} {own : Origin → Prop}
    {decoder : Bytes → Result UInt64} {id : UInt64} (h : Assigned log serial own decoder id) :
    ∃ o, own o ∧ (serial, o, id) ∈ log.filterMap (assignment? decoder) := by
  obtain ⟨f, frame, payload, hmem, hown, ⟨header, mask, hh, hfinal, hwire⟩, hdec⟩ := h
  refine ⟨f.origin, hown, List.mem_filterMap.2 ⟨_, hmem, ?_⟩⟩
  simp [assignment?, hh, hfinal, hwire, hdec, Except.toOption]

theorem Subs.mem_holdings {s : Subs} {i : ℕ} {h : Holding} (hi : s.holding i = some h) :
    h ∈ s.subs.filterMap Subscription.holding := by
  obtain ⟨sub, hsub, hhold⟩ := Option.bind_eq_some_iff.1 hi
  exact List.mem_filterMap.2 ⟨sub, List.mem_of_getElem? hsub, hhold⟩

/-- A notification with the id `id`. -/
def kvNotification (id : UInt64) : Bytes :=
  (tryEncodeFrame MessageType.kvNotify 0 0 (putU64 id ++ putString "kv://r/a/s" ++ putU64 1)).toOption.getD []

/-- Subscription number `i` by the call `t` of the first session, answered with `id`. -/
def subscribeRun (i : ℕ) (t : Ticket) (correlationId id : UInt64) : List SubEvent :=
  [.listen .kv "kv://r/a/s", .request i, .conn (.stamp t), .conn (.enqueue t),
    .conn (.command (.ok ())),
    .conn (.inbound (replyFrame 109 correlationId (0 :: putU64 id)) (some 0) (.ok ())),
    .receive i, .register i]

/-- One subscription, and a notification for it. -/
def notifiedRun : List SubEvent :=
  (firstSession 8).map .conn ++ subscribeRun 0 1 1 7 ++
    [.conn (.inbound (kvNotification 7) none (.ok ())), .poll 0]

theorem notifications_attributed_one :
    (run (Subs.step ⟨4, ⟨true, 0⟩⟩ fun _ => .error "") (.new ⟨4, ⟨true, 0⟩⟩) notifiedRun).yields =
        [⟨0, 1, 7, .kv "kv://r/a/s" 1⟩] ∧
      YieldsOwn (fun _ => .error "")
        (run (Subs.step ⟨4, ⟨true, 0⟩⟩ fun _ => .error "") (.new ⟨4, ⟨true, 0⟩⟩) notifiedRun) := by
  refine ⟨by decide +kernel, notifications_attributed ⟨4, ⟨true, 0⟩⟩ _ notifiedRun (by decide +kernel) ?_⟩
  have hone : ∀ h ∈ (run (Subs.step ⟨4, ⟨true, 0⟩⟩ fun _ => .error "") (.new ⟨4, ⟨true, 0⟩⟩)
      notifiedRun).subs.filterMap Subscription.holding, h.cell = 0 := by decide +kernel
  intro i j h h' serial id hi hj _ _ _
  rw [hone h (Subs.mem_holdings hi), hone h' (Subs.mem_holdings hj)]

/-- The next session gives the ids of two registrations the other way round. -/
def restoreSwapped : List Event :=
  [.restoreNext 0 (.ok ()), .restoreRead (replyFrame 109 1 (0 :: putU64 8)) (some 0),
    .restoreNext 1 (.ok ()), .restoreRead (replyFrame 109 1 (0 :: putU64 7)) (some 0)]

/-- Two subscriptions of one session; a notification for the second is unread when
the session is lost, and the next gives its id to the first. -/
def reusedIdRun : List SubEvent :=
  (firstSession 8).map .conn ++ subscribeRun 0 1 1 7 ++ subscribeRun 1 2 2 8 ++
    [.conn (.inbound (kvNotification 8) none (.ok ()))] ++
    (reopenRun 8 ++ restoreSwapped ++ enterRun).map .conn ++ [.poll 0]

/-- The first handle yields the notification the broker sent for the second, though
all responses and restores are attributed and ids are distinct in each session. -/
theorem notification_of_other_handle :
    Along (Subs.step ⟨4, ⟨true, 0⟩⟩ fun _ => .error "") Attributing (.new ⟨4, ⟨true, 0⟩⟩) reusedIdRun ∧
      DistinctRegistrations
        (run (Subs.step ⟨4, ⟨true, 0⟩⟩ fun _ => .error "") (.new ⟨4, ⟨true, 0⟩⟩) reusedIdRun) ∧
      ¬ YieldsOwn (fun _ => .error "")
        (run (Subs.step ⟨4, ⟨true, 0⟩⟩ fun _ => .error "") (.new ⟨4, ⟨true, 0⟩⟩) reusedIdRun) := by
  set s := run (Subs.step ⟨4, ⟨true, 0⟩⟩ fun _ => .error "") (.new ⟨4, ⟨true, 0⟩⟩) reusedIdRun with hs
  have hsubs : s.subs.filterMap Subscription.holding = [⟨.kv, 0, 1, 1⟩, ⟨.kv, 1, 2, 1⟩] := by
    rw [hs]
    decide +kernel
  have htable : s.conn.log.filterMap (assignment? Topic.kv.decodeSubscriptionId) =
      [(1, .request 1, 7), (1, .request 2, 8), (2, .restore 0, 8), (2, .restore 1, 7)] := by
    rw [hs]
    decide +kernel
  have hgiven : ∀ cell t serial id, Holding.Given ⟨.kv, cell, t, 1⟩ s.conn serial id →
      serial = 1 ∧ t = 1 ∧ id = 7 ∨ serial = 1 ∧ t = 2 ∧ id = 8 ∨ serial = 2 ∧ cell = 0 ∧ id = 8 ∨
        serial = 2 ∧ cell = 1 ∧ id = 7 := by
    intro cell t serial id hg
    obtain ⟨o, ho, hmem⟩ := hg.mem
    rw [htable] at hmem
    simp only [List.mem_cons, List.not_mem_nil, or_false, Prod.mk.injEq] at hmem
    rcases hmem with ⟨rfl, rfl, rfl⟩ | ⟨rfl, rfl, rfl⟩ | ⟨rfl, rfl, rfl⟩ | ⟨rfl, rfl, rfl⟩
    all_goals simpa [Holding.owns, Origin.ticket?, eq_comm] using ho
  have hapart : ∀ serial id, Holding.Given ⟨.kv, 0, 1, 1⟩ s.conn serial id →
      ¬ Holding.Given ⟨.kv, 1, 2, 1⟩ s.conn serial id := by
    intro serial id hg hg'
    have h0 := hgiven 0 1 serial id hg
    have h1 := hgiven 1 2 serial id hg'
    rcases h0 with ⟨rfl, -, rfl⟩ | ⟨-, h, -⟩ | ⟨rfl, -, rfl⟩ | ⟨-, h, -⟩
    · simp at h1
    · cases h
    · simp at h1
    · cases h
  refine ⟨by decide +kernel, fun i j h h' serial id hi hj _ hg hg' => ?_, fun hown => ?_⟩
  · have hh := hsubs ▸ Subs.mem_holdings hi
    have hh' := hsubs ▸ Subs.mem_holdings hj
    simp only [List.mem_cons, List.not_mem_nil, or_false] at hh hh'
    rcases hh with rfl | rfl <;> rcases hh' with rfl | rfl
    · rfl
    · exact (hapart serial id hg hg').elim
    · exact (hapart serial id hg' hg).elim
    · rfl
  · obtain ⟨h, hh, -, hg, -⟩ := hown ⟨0, 1, 8, .kv "kv://r/a/s" 1⟩ (by rw [hs]; decide +kernel)
    have hzero : s.holding 0 = some ⟨.kv, 0, 1, 1⟩ := by
      rw [hs]
      decide +kernel
    cases hzero.symm.trans hh
    simpa using hgiven 0 1 1 8 hg

end Fitz
