import Fitz.Lib.Census
import Fitz.Proof.RoundTrip
import Fitz.Proof.Transports

/-!
# Every request has one outcome

The session loops keep the callers of their requests in three maps, and settle
them at some fifteen places. `requests_settled`: in either loop, after any inputs,
every request taken from the channel was settled once or waits in one slot; when
the loop has returned nothing waits. A caller is answered with the payload of a
frame that answers its request, an encoding error, the in-flight refusal or
`ConnectionClosed`. One pass is accounted for as a whole (`Accounted`), and passes
compose.
-/

namespace Fitz

open Machine Census

/-! ## The property -/

/-- The caller an effect settles. -/
def Effect.settled? (e : Effect) : Option Ticket := e.outcome?.map Prod.fst

/-- The caller of a request. -/
def Command.requester? : Command → Option Ticket
  | .request _ _ _ _ _ t => some t
  | _ => none

/-- The frame an input brings. -/
def Input.frame? : Input → Option Bytes
  | .frame bytes _ => some bytes
  | _ => none

def WebSocket.frame? : WsInput → Option Bytes
  | .io input => input.frame?
  | _ => none

/-- The frame answers the request `id` of the type with `payload`: under its id and
final, or, uncorrelated, by the type. -/
def AnswersRequest (sh : Shared) (frame : Option Bytes) (id : UInt64) (messageType : UInt16)
    (payload : Bytes) : Prop :=
  ∃ bytes sh' records, frame = some bytes ∧ decodeIncoming sh bytes = .ok (sh', records) ∧
    ∃ record ∈ records, record.payload = payload ∧
      (record.correlationId = id ∧ record.responseFinal = true ∨
        record.correlationId = 0 ∧ record.messageType = messageType)

/-- What a request may be answered with; `none` is a sender that is dropped, which
its caller takes for `ConnectionClosed`. -/
def Allowed (sh : Shared) (frame : Option Bytes) : Command → Option (Result Bytes) → Prop
  | .request id _ messageType _ _ _, some (.ok payload) =>
    AnswersRequest sh frame id messageType payload
  | .request id _ messageType flags body _, some (.error error) =>
    error = .connectionClosed ∨ error = .backpressure "broker max in-flight limit reached" ∨
      encodeOutbound sh messageType flags id body = .error error
  | .request .., none => True
  | _, _ => False

/-- The maps of outstanding requests are empty. -/
structure Loop.Cleared (l : Loop) : Prop where
  correlated : l.correlated = ∅
  pending : l.pending = ∅
  queued : l.queued = ∅

/-- Each taken request was settled or waits, once, and if the loop has returned
each was settled. -/
structure SettledOnce (s : Session) : Prop where
  once : ∀ t, (s.taken.filterMap Command.requester?).count t =
    (s.effects.filterMap Effect.settled?).count t + s.loop.waiters.count t
  cleared : s.result ≠ none → s.loop.Cleared
  returned : s.result ≠ none → ∀ t, (s.taken.filterMap Command.requester?).count t =
    (s.effects.filterMap Effect.settled?).count t

/-- What one pass of the loop `l` does with the request and the frame it took. -/
structure PassOk (sh : Shared) (l : Loop) (taken : List Command) (frame : Option Bytes) (t : Turn) :
    Prop where
  /-- who is settled had a request taken, and gets what it may -/
  allowed : ∀ p ∈ t.effects.filterMap Effect.outcome?,
    ∃ c ∈ taken, c.requester? = some p.1 ∧ Allowed sh frame c p.2
  /-- a correlated frame that is not final does nothing -/
  unfinished : ∀ bytes sh' records, frame = some bytes → decodeIncoming sh bytes = .ok (sh', records) →
    ∀ record ∈ records, record.correlationId ≠ 0 → record.responseFinal = false →
      record.correlationId ∈ l.correlated → t = l.next []
  /-- a correlated frame for an unknown id ends the session -/
  unknown : ∀ bytes sh' records, frame = some bytes → decodeIncoming sh bytes = .ok (sh', records) →
    ∀ record ∈ records, record.correlationId ≠ 0 → record.correlationId ∉ l.correlated →
      t.result = some .disconnected

/-- Whatever `run_io` is fed next. -/
def Session.PassesOk (s : Session) : Prop :=
  s.result = none → ∀ input : Input,
    PassOk s.shared s.loop (s.taken ++ input.request?.toList) input.frame?
      (runIo s.shared s.loop input).2

/-- Whatever `run_websocket` is fed next. -/
def WebSocket.PassesOk (enabled : Bool) (s : WebSocket) : Prop :=
  s.session.result = none → ∀ input : WsInput,
    PassOk s.session.shared s.session.loop (s.session.taken ++ (request? input).toList)
      (frame? input) (runWebSocket enabled s.session.shared s.session.loop s.beat input).2.1

/-! ## The slots -/

/-- Every slot that still has a sender is that of a request taken. -/
structure SlotInv (taken : List Command) (l : Loop) : Prop where
  correlated : ∀ id slot t, l.correlated.lookup id = some slot → slot.response = some t →
    ∃ generation messageType flags body,
      Command.request id generation messageType flags body t ∈ taken
  pending : ∀ messageType slots slot t, l.pending.lookup messageType = some slots → slot ∈ slots →
    slot.response = some t →
    ∃ id generation flags body, Command.request id generation messageType flags body t ∈ taken
  queued : ∀ messageType slots slot t, l.queued.lookup messageType = some slots → slot ∈ slots →
    slot.response = some t →
    ∃ id generation flags body, Command.request id generation messageType flags body t ∈ taken

/-- The senders in the maps, map by map. -/
theorem count_waiters (l : Loop) (t : Ticket) :
    l.waiters.count t =
      census (List.filterMap PendingRequest.response) l.pending t +
        census (fun slot : PendingRequest => slot.response.toList) l.correlated t +
        census (List.filterMap QueuedRequest.response) l.queued t := by
  simp only [Loop.waiters, census, List.count_append, List.filterMap_eq_flatMap_toList]

theorem SlotInv.mono {taken taken' : List Command} {l : Loop} (h : SlotInv taken l)
    (hsub : ∀ c ∈ taken, c ∈ taken') : SlotInv taken' l := by
  refine ⟨fun id slot t hl hr => ?_, fun k slots slot t hl hs hr => ?_,
    fun k slots slot t hl hs hr => ?_⟩
  · obtain ⟨g, m, f, b, hmem⟩ := h.correlated id slot t hl hr
    exact ⟨g, m, f, b, hsub _ hmem⟩
  · obtain ⟨i, g, f, b, hmem⟩ := h.pending k slots slot t hl hs hr
    exact ⟨i, g, f, b, hsub _ hmem⟩
  · obtain ⟨i, g, f, b, hmem⟩ := h.queued k slots slot t hl hs hr
    exact ⟨i, g, f, b, hsub _ hmem⟩

/-- A sender in the maps is that of a request taken. -/
theorem SlotInv.requester {taken : List Command} {l : Loop} (h : SlotInv taken l) {t : Ticket}
    (ht : t ∈ l.waiters) :
    ∃ id generation messageType flags body,
      Command.request id generation messageType flags body t ∈ taken := by
  simp only [Loop.waiters, List.mem_append, List.mem_flatMap, List.mem_filterMap] at ht
  rcases ht with (⟨e, he, slot, hslot, hr⟩ | ⟨e, he, hr⟩) | ⟨e, he, slot, hslot, hr⟩
  · have hl := List.mem_dlookup l.pending.nodupKeys he
    obtain ⟨i, g, f, b, hmem⟩ := h.pending e.1 e.2 slot t hl hslot hr
    exact ⟨i, g, e.1, f, b, hmem⟩
  · have hl := List.mem_dlookup l.correlated.nodupKeys he
    obtain ⟨g, m, f, b, hmem⟩ := h.correlated e.1 e.2 t hl hr
    exact ⟨e.1, g, m, f, b, hmem⟩
  · have hl := List.mem_dlookup l.queued.nodupKeys he
    obtain ⟨i, g, f, b, hmem⟩ := h.queued e.1 e.2 slot t hl hslot hr
    exact ⟨i, g, e.1, f, b, hmem⟩

/-! ## Accounts -/

/-- From `l` to `l'` with these effects, the callers `entered` that came in and those
that waited were settled or wait; and whoever was settled gets what it may. -/
structure Accounted (sh : Shared) (frame : Option Bytes) (taken : List Command)
    (entered : List Ticket) (l l' : Loop) (effects : List Effect) : Prop where
  balance : ∀ t, entered.count t + l.waiters.count t =
    (effects.filterMap Effect.settled?).count t + l'.waiters.count t
  slots : SlotInv taken l'
  allowed : ∀ p ∈ effects.filterMap Effect.outcome?,
    ∃ c ∈ taken, c.requester? = some p.1 ∧ Allowed sh frame c p.2

section

variable {sh : Shared} {frame : Option Bytes} {taken : List Command} {entered entered' : List Ticket}
  {l l' l'' : Loop} {effects effects' : List Effect}

theorem Accounted.refl (h : SlotInv taken l) : Accounted sh frame taken [] l l [] :=
  ⟨fun t => by simp, h, by simp⟩

theorem Accounted.trans (h : Accounted sh frame taken entered l l' effects)
    (h' : Accounted sh frame taken entered' l' l'' effects') :
    Accounted sh frame taken (entered ++ entered') l l'' (effects ++ effects') := by
  refine ⟨fun t => ?_, h'.slots, fun p hp => ?_⟩
  · have h1 := h.balance t
    have h2 := h'.balance t
    rw [List.count_append, List.filterMap_append, List.count_append]
    omega
  · rw [List.filterMap_append, List.mem_append] at hp
    rcases hp with hp | hp
    · exact h.allowed p hp
    · exact h'.allowed p hp

/-- Effects that settle nobody. -/
theorem Accounted.silent (h : Accounted sh frame taken entered l l' effects)
    (hs : effects'.filterMap Effect.outcome? = []) :
    Accounted sh frame taken entered l l' (effects ++ effects') := by
  have hset : effects'.filterMap Effect.settled? = [] := by
    refine List.filterMap_eq_nil_iff.2 fun e he => ?_
    rw [Effect.settled?, List.filterMap_eq_nil_iff.1 hs e he]
    rfl
  refine ⟨fun t => ?_, h.slots, fun p hp => ?_⟩
  · rw [List.filterMap_append, hset, List.append_nil]
    exact h.balance t
  · rw [List.filterMap_append, hs, List.append_nil] at hp
    exact h.allowed p hp

/-- One caller is refused. -/
theorem Accounted.refuse (h : SlotInv taken l) (response : Option Ticket) (error : FitzError)
    (hc : ∀ t, response = some t →
      ∃ c ∈ taken, c.requester? = some t ∧ Allowed sh frame c (some (.error error))) :
    Accounted sh frame taken response.toList l l (Loop.refuse response error) := by
  cases response with
  | none => exact .refl h
  | some t =>
    refine ⟨fun t' => ?_, h, fun p hp => ?_⟩
    · simp [Loop.refuse, Effect.settled?, Effect.outcome?]
    · simp only [Loop.refuse, List.filterMap_cons, Effect.outcome?, List.filterMap_nil,
        List.mem_singleton] at hp
      rw [hp]
      exact hc t rfl

/-- What `fail_all` does to the loop. -/
theorem Accounted.failAll (h : SlotInv taken l) :
    Accounted sh frame taken [] l l.failAll.1 l.failAll.2 := by
  have hsettled : l.failAll.2.filterMap Effect.settled? = l.waiters := by
    simp only [Loop.failAll, List.filterMap_map]
    exact List.filterMap_some
  refine ⟨fun t => ?_, ⟨?_, ?_, ?_⟩, fun p hp => ?_⟩
  · have hzero : l.failAll.1.waiters.count t = 0 := by
      rw [count_waiters]
      simp [Loop.failAll]
    rw [hsettled, hzero]
    simp
  · intro id slot t hl
    simp [Loop.failAll] at hl
  · intro k slots slot t hl
    simp [Loop.failAll] at hl
  · intro k slots slot t hl
    simp [Loop.failAll] at hl
  · simp only [Loop.failAll, List.filterMap_map, List.mem_filterMap] at hp
    obtain ⟨t, ht, hp⟩ := hp
    cases hp
    obtain ⟨id, generation, messageType, flags, body, hmem⟩ := h.requester ht
    exact ⟨_, hmem, rfl, .inl rfl⟩

theorem Loop.Cleared.waiters {l : Loop} (h : l.Cleared) : l.waiters = [] := by
  simp [Loop.waiters, h.correlated, h.pending, h.queued]

theorem cleared_failAll (l : Loop) : l.failAll.1.Cleared := ⟨rfl, rfl, rfl⟩

/-- The loop returns. -/
theorem Accounted.finish (h : Accounted sh frame taken entered l l' effects) (r : SessionResult) :
    Accounted sh frame taken entered l (l'.finish effects r).loop (l'.finish effects r).effects := by
  have hfail : Accounted sh frame taken [] l' l'.failAll.1 l'.failAll.2 := .failAll h.slots
  have h' := h.trans hfail
  rwa [List.append_nil] at h'

end

/-! ## Changes of the maps -/

section

variable {sh : Shared} {frame : Option Bytes} {taken : List Command} {entered : List Ticket}
  {l l' : Loop} {effects : List Effect}

theorem SlotInv.setCorrelated (h : SlotInv taken l) {id : UInt64} {slot : PendingRequest}
    (hs : ∀ t, slot.response = some t → ∃ generation messageType flags body,
      Command.request id generation messageType flags body t ∈ taken) :
    SlotInv taken { l with correlated := l.correlated.insert id slot } := by
  refine ⟨fun id' slot' t hl hr => ?_, h.pending, h.queued⟩
  by_cases hid : id' = id
  · subst hid
    rw [AList.lookup_insert] at hl
    cases hl
    exact hs t hr
  · rw [AList.lookup_insert_ne hid] at hl
    exact h.correlated id' slot' t hl hr

theorem SlotInv.eraseCorrelated (h : SlotInv taken l) (id : UInt64) :
    SlotInv taken { l with correlated := l.correlated.erase id } := by
  refine ⟨fun id' slot' t hl hr => ?_, h.pending, h.queued⟩
  by_cases hid : id' = id
  · subst hid
    rw [AList.lookup_erase] at hl
    cases hl
  · rw [AList.lookup_erase_ne hid] at hl
    exact h.correlated id' slot' t hl hr

theorem SlotInv.setPending (h : SlotInv taken l) {messageType : UInt16} {slots : List PendingRequest}
    (hs : ∀ slot ∈ slots, ∀ t, slot.response = some t → ∃ id generation flags body,
      Command.request id generation messageType flags body t ∈ taken) :
    SlotInv taken { l with pending := l.pending.insert messageType slots } := by
  refine ⟨h.correlated, fun k slots' slot t hl hmem hr => ?_, h.queued⟩
  by_cases hk : k = messageType
  · subst hk
    rw [AList.lookup_insert] at hl
    cases hl
    exact hs slot hmem t hr
  · rw [AList.lookup_insert_ne hk] at hl
    exact h.pending k slots' slot t hl hmem hr

theorem SlotInv.setQueued (h : SlotInv taken l) {messageType : UInt16} {slots : List QueuedRequest}
    (hs : ∀ slot ∈ slots, ∀ t, slot.response = some t → ∃ id generation flags body,
      Command.request id generation messageType flags body t ∈ taken) :
    SlotInv taken { l with queued := l.queued.insert messageType slots } := by
  refine ⟨h.correlated, h.pending, fun k slots' slot t hl hmem hr => ?_⟩
  by_cases hk : k = messageType
  · subst hk
    rw [AList.lookup_insert] at hl
    cases hl
    exact hs slot hmem t hr
  · rw [AList.lookup_insert_ne hk] at hl
    exact h.queued k slots' slot t hl hmem hr

theorem SlotInv.pending_getD (h : SlotInv taken l) {messageType : UInt16} {slot : PendingRequest}
    (hs : slot ∈ (l.pending.lookup messageType).getD []) {t : Ticket} (hr : slot.response = some t) :
    ∃ id generation flags body, Command.request id generation messageType flags body t ∈ taken := by
  cases hl : l.pending.lookup messageType with
  | none => simp [hl] at hs
  | some slots =>
    rw [hl] at hs
    exact h.pending messageType slots slot t hl hs hr

theorem SlotInv.queued_getD (h : SlotInv taken l) {messageType : UInt16} {slot : QueuedRequest}
    (hs : slot ∈ (l.queued.lookup messageType).getD []) {t : Ticket} (hr : slot.response = some t) :
    ∃ id generation flags body, Command.request id generation messageType flags body t ∈ taken := by
  cases hl : l.queued.lookup messageType with
  | none => simp [hl] at hs
  | some slots =>
    rw [hl] at hs
    exact h.queued messageType slots slot t hl hs hr

theorem filterMap_settled (effects : List Effect) :
    effects.filterMap Effect.settled? = (effects.filterMap Effect.outcome?).map Prod.fst := by
  rw [List.map_filterMap]
  rfl

/-- At most one caller is settled, and its slot is gone. -/
theorem Accounted.settle (hslots : SlotInv taken l') {r : Option Ticket} {o : Option (Result Bytes)}
    (heffects : effects.filterMap Effect.outcome? = r.toList.map fun t => (t, o))
    (hbalance : ∀ t, entered.count t + l.waiters.count t = r.toList.count t + l'.waiters.count t)
    (hr : ∀ t, r = some t → ∃ c ∈ taken, c.requester? = some t ∧ Allowed sh frame c o) :
    Accounted sh frame taken entered l l' effects := by
  refine ⟨fun t => ?_, hslots, fun p hp => ?_⟩
  · have hfst : (r.toList.map fun t => (t, o)).map Prod.fst = r.toList := by cases r <;> rfl
    rw [filterMap_settled, heffects, hfst]
    exact hbalance t
  · rw [heffects] at hp
    cases r with
    | none => cases hp
    | some t =>
      simp only [Option.toList_some, List.map_singleton, List.mem_singleton] at hp
      rw [hp]
      exact hr t rfl

theorem outcome?_releaseOpt (r : Option Ticket) :
    (Loop.releaseOpt r).filterMap Effect.outcome? = r.toList.map fun t => (t, none) := by
  cases r <;> rfl

/-- A correlated slot takes the place of the one there was, which loses its sender. -/
theorem accounted_correlate (h : SlotInv taken l) {id : UInt64} {response : Option Ticket}
    (hs : ∀ t, response = some t → ∃ generation messageType flags body,
      Command.request id generation messageType flags body t ∈ taken) :
    Accounted sh frame taken response.toList l
      { l with correlated := l.correlated.insert id ⟨id, response⟩ }
      (Loop.releaseOpt ((l.correlated.lookup id).bind (·.response))) := by
  refine .settle (h.setCorrelated hs) (outcome?_releaseOpt _) (fun t => ?_) fun t ht => ?_
  · have hsplit := census_split (fun slot : PendingRequest => slot.response.toList) l.correlated id t
    have hold : (((l.correlated.lookup id).map fun slot : PendingRequest =>
        slot.response.toList).getD []).count t =
        ((l.correlated.lookup id).bind (·.response)).toList.count t := by
      cases l.correlated.lookup id <;> rfl
    simp only [count_waiters, census_insert]
    omega
  · cases hl : l.correlated.lookup id with
    | none => simp [hl] at ht
    | some slot =>
      rw [hl] at ht
      obtain ⟨g, m, f, b, hmem⟩ := h.correlated id slot t hl ht
      exact ⟨_, hmem, rfl, trivial⟩

/-- A request joins the pending ones of its type. -/
theorem accounted_pend (h : SlotInv taken l) {id : UInt64} {messageType : UInt16}
    {response : Option Ticket}
    (hs : ∀ t, response = some t → ∃ id generation flags body,
      Command.request id generation messageType flags body t ∈ taken) :
    Accounted sh frame taken response.toList l
      { l with
        pending := l.pending.insert messageType
          ((l.pending.lookup messageType).getD [] ++ [PendingRequest.mk id response]) } [] := by
  refine .settle (r := none) (o := none) (h.setPending fun slot hslot t hr => ?_) rfl (fun t => ?_)
    (by simp)
  · rcases List.mem_append.1 hslot with hslot | hslot
    · exact h.pending_getD hslot hr
    · rw [List.mem_singleton.1 hslot] at hr
      exact hs t hr
  · have hjoin := census_enqueue PendingRequest.response l.pending messageType t ⟨id, response⟩
    simp only [count_waiters, hjoin, Option.toList_none, List.count_nil]
    omega

/-- A request joins the queued ones of its type. -/
theorem accounted_queue (h : SlotInv taken l) {id : UInt64} {messageType : UInt16} {payload : Bytes}
    {response : Option Ticket}
    (hs : ∀ t, response = some t → ∃ id generation flags body,
      Command.request id generation messageType flags body t ∈ taken) :
    Accounted sh frame taken response.toList l
      { l with
        queued := l.queued.insert messageType
          ((l.queued.lookup messageType).getD [] ++ [QueuedRequest.mk id payload response]) } [] := by
  refine .settle (r := none) (o := none) (h.setQueued fun slot hslot t hr => ?_) rfl (fun t => ?_)
    (by simp)
  · rcases List.mem_append.1 hslot with hslot | hslot
    · exact h.queued_getD hslot hr
    · rw [List.mem_singleton.1 hslot] at hr
      exact hs t hr
  · have hjoin := census_enqueue QueuedRequest.response l.queued messageType t
      ⟨id, payload, response⟩
    simp only [count_waiters, hjoin, Option.toList_none, List.count_nil]
    omega

end

/-! ## Passes -/

/-- A turn that accounts for the callers and, if the loop returns, leaves nobody. -/
structure AccountedTurn (sh : Shared) (frame : Option Bytes) (taken : List Command)
    (entered : List Ticket) (l : Loop) (t : Turn) : Prop where
  accounted : Accounted sh frame taken entered l t.loop t.effects
  cleared : t.result ≠ none → t.loop.Cleared

section

variable {sh : Shared} {frame : Option Bytes} {taken : List Command} {entered entered' : List Ticket}
  {l l' : Loop} {effects : List Effect} {t : Turn}

theorem Accounted.next (h : Accounted sh frame taken entered l l' effects) :
    AccountedTurn sh frame taken entered l (l'.next effects) := ⟨h, fun hr => absurd rfl hr⟩

theorem Accounted.finished (h : Accounted sh frame taken entered l l' effects) (r : SessionResult) :
    AccountedTurn sh frame taken entered l (l'.finish effects r) :=
  ⟨h.finish r, fun _ => cleared_failAll l'⟩

/-- A turn after what came before it in the pass. -/
theorem Accounted.andThen (h : Accounted sh frame taken entered l l' effects)
    (ht : AccountedTurn sh frame taken entered' l' t) :
    AccountedTurn sh frame taken (entered ++ entered') l { t with effects := effects ++ t.effects } :=
  ⟨h.trans ht.accounted, ht.cleared⟩

theorem SlotInv.uncancel (h : SlotInv taken l) (canceled : Finset UInt64) :
    SlotInv taken { l with canceled := canceled } := ⟨h.correlated, h.pending, h.queued⟩

/-- The tombstones are no slots. -/
theorem Accounted.uncancel (h : SlotInv taken l) (canceled : Finset UInt64) :
    Accounted sh frame taken [] l { l with canceled := canceled } [] :=
  ⟨fun _ => rfl, SlotInv.uncancel h canceled, by simp⟩

/-- An effect that settles nobody. -/
theorem outcome?_write (bytes : Bytes) : [Effect.write bytes].filterMap Effect.outcome? = [] := rfl

theorem requestCorrelated_accounted (h : SlotInv taken l) {id : UInt64} {messageType : UInt16}
    {flags : UInt8} {payload : Bytes} {response : Option Ticket}
    (hs : ∀ t, response = some t →
      ∃ generation, Command.request id generation messageType flags payload t ∈ taken)
    (written : Result Unit) :
    AccountedTurn sh frame taken response.toList l
      (l.requestCorrelated sh id messageType flags payload response written) := by
  have hrefuse : ∀ error, (error = .backpressure "broker max in-flight limit reached" ∨
      encodeOutbound sh messageType flags id payload = .error error) →
      Accounted sh frame taken response.toList l l (Loop.refuse response error) := by
    intro error herror
    refine .refuse h response error fun t ht => ?_
    obtain ⟨generation, hmem⟩ := hs t ht
    exact ⟨_, hmem, rfl, .inr herror⟩
  unfold Loop.requestCorrelated
  split
  · exact (hrefuse _ (.inl rfl)).next
  · cases henc : encodeOutbound sh messageType flags id payload with
    | error error => exact (hrefuse error (.inr henc)).next
    | ok bytes =>
      have hins : Accounted sh frame taken response.toList l
          { l with correlated := l.correlated.insert id ⟨id, response⟩ }
          (Loop.releaseOpt ((l.correlated.lookup id).bind (·.response))) :=
        accounted_correlate h fun t ht => by
          obtain ⟨generation, hmem⟩ := hs t ht
          exact ⟨generation, messageType, flags, payload, hmem⟩
      cases written with
      | ok => exact (hins.silent (outcome?_write bytes)).next
      | error e => exact (hins.silent (outcome?_write bytes)).finished .disconnected

theorem requestPending_accounted (h : SlotInv taken l) {id : UInt64} {messageType : UInt16}
    {payload : Bytes} {response : Option Ticket}
    (hs : ∀ t, response = some t → ∃ id generation flags body,
      Command.request id generation messageType flags body t ∈ taken)
    (written : Result Unit) :
    AccountedTurn sh frame taken response.toList l
      (l.requestPending id messageType payload response written) := by
  unfold Loop.requestPending
  split
  · have hpend : Accounted sh frame taken response.toList l
        { l with
          pending := l.pending.insert messageType
            ((l.pending.lookup messageType).getD [] ++ [PendingRequest.mk id response]) } [] :=
      accounted_pend h hs
    simp only
    cases tryEncodeMessageFrame messageType payload with
    | error e => exact hpend.finished .disconnected
    | ok bytes =>
      cases written with
      | ok => exact (hpend.silent (outcome?_write bytes)).next
      | error e => exact (hpend.silent (outcome?_write bytes)).finished .disconnected
  · exact (accounted_queue h hs).next

/-- A request that was taken enters, or is settled at once. -/
theorem onRequest_accounted (h : SlotInv taken l) {id generation : UInt64} {messageType : UInt16}
    {flags : UInt8} {payload : Bytes} {t : Ticket}
    (hmem : Command.request id generation messageType flags payload t ∈ taken)
    (written : Result Unit) :
    AccountedTurn sh frame taken [t] l
      (l.onRequest sh id generation messageType flags payload t written) := by
  unfold Loop.onRequest
  split
  · exact (Accounted.refuse h (some t) .connectionClosed fun t' ht => by
      cases ht
      exact ⟨_, hmem, rfl, .inl rfl⟩).next
  · have h0 : SlotInv taken { l with canceled := l.canceled.erase id } := h.uncancel _
    have hturn : ∀ response : Option Ticket, (∀ t', response = some t' → t' = t) →
        AccountedTurn sh frame taken response.toList { l with canceled := l.canceled.erase id }
          (if supervisorCorrelationEnabled sh then
            Loop.requestCorrelated sh { l with canceled := l.canceled.erase id } id messageType flags
              payload response written
          else
            Loop.requestPending { l with canceled := l.canceled.erase id } id messageType payload
              response written) := by
      intro response hresponse
      split
      · refine requestCorrelated_accounted h0 (fun t' ht' => ?_) written
        obtain rfl := hresponse t' ht'
        exact ⟨generation, hmem⟩
      · refine requestPending_accounted h0 (fun t' ht' => ?_) written
        obtain rfl := hresponse t' ht'
        exact ⟨id, generation, flags, payload, hmem⟩
    by_cases hcan : id ∈ l.canceled
    · -- the caller is gone: its sender is dropped, and the request goes on without
      simp only [hcan, if_true]
      have hdrop : Accounted sh frame taken [t] l { l with canceled := l.canceled.erase id }
          [.release t] :=
        .settle (r := some t) (o := none) h0 rfl (fun _ => rfl) fun t' ht' => by
          cases ht'
          exact ⟨_, hmem, rfl, trivial⟩
      exact hdrop.andThen (hturn none (by simp))
    · simp only [hcan, if_false]
      have hstart : Accounted sh frame taken [] l { l with canceled := l.canceled.erase id } [] :=
        .uncancel h _
      exact hstart.andThen (hturn (some t) (by simp))

theorem onSend_accounted (h : SlotInv taken l) (id generation : UInt64) (messageType : UInt16)
    (payload : Bytes) (ticket : Ticket) (written : Result Unit) :
    AccountedTurn sh frame taken [] l
      (l.onSend sh id generation messageType payload ticket written) := by
  have hsilent : ∀ effects, effects.filterMap Effect.outcome? = [] →
      AccountedTurn sh frame taken [] l (l.next effects) :=
    fun effects he => ((Accounted.refl h).silent he).next
  unfold Loop.onSend
  repeat' split
  all_goals exact hsilent _ rfl

theorem onCommand_accounted (h : SlotInv taken l) {c : Command}
    (hmem : c.requester?.isSome = true → c ∈ taken) (written : Result Unit) :
    AccountedTurn sh frame taken c.requester?.toList l (l.onCommand sh c written) := by
  cases c with
  | request id generation messageType flags payload t => exact onRequest_accounted h (hmem rfl) written
  | send id generation messageType payload t =>
    exact onSend_accounted h id generation messageType payload t written
  | connect t => exact ((Accounted.refl h).silent rfl).next
  | close t => exact ((Accounted.refl h).silent rfl).finished .closed

/-! ### Cancellations -/

theorem count_clearSlot (id : UInt64) (slots : List PendingRequest) (t : Ticket) :
    (slots.filterMap PendingRequest.response).count t =
      ((slots.find? (·.id == id)).bind (·.response)).toList.count t +
        ((Loop.clearSlot id slots).filterMap PendingRequest.response).count t := by
  induction slots with
  | nil => rfl
  | cons slot slots ih =>
    rw [count_filterMap_cons]
    by_cases hid : slot.id = id
    · simp [Loop.clearSlot, hid]
    · simp only [Loop.clearSlot, hid, if_false]
      rw [List.find?_cons_of_neg (by simpa using hid), count_filterMap_cons]
      omega

theorem mem_clearSlot {id : UInt64} {slots : List PendingRequest} {slot : PendingRequest}
    (h : slot ∈ Loop.clearSlot id slots) : slot ∈ slots ∨ slot.response = none := by
  induction slots with
  | nil => cases h
  | cons slot' slots ih =>
    simp only [Loop.clearSlot] at h
    split at h
    · rcases List.mem_cons.1 h with rfl | h
      · exact .inr rfl
      · exact .inl (List.mem_cons_of_mem _ h)
    · rcases List.mem_cons.1 h with rfl | h
      · exact .inl (List.mem_cons_self ..)
      · rcases ih h with h | h
        · exact .inl (List.mem_cons_of_mem _ h)
        · exact .inr h

/-- The sender of a slot that was found is that of a request taken. -/
theorem find_bind {α : Type} {p : α → Bool} {response : α → Option Ticket} {slots : List α}
    {t : Ticket} (h : (slots.find? p).bind response = some t) :
    ∃ slot ∈ slots, response slot = some t := by
  cases hf : slots.find? p with
  | none => simp [hf] at h
  | some slot =>
    rw [hf] at h
    exact ⟨slot, List.mem_of_find?_eq_some hf, h⟩

theorem cancelPending_accounted (h : SlotInv taken l) {id : UInt64} {r : Loop × List Effect}
    (hr : l.cancelPending id = some r) : Accounted sh frame taken [] l r.1 r.2 := by
  simp only [Loop.cancelPending, Option.map_eq_some_iff] at hr
  obtain ⟨e, he, rfl⟩ := hr
  have hl : l.pending.lookup e.1 = some e.2 :=
    List.mem_dlookup l.pending.nodupKeys (List.mem_of_find?_eq_some he)
  refine .settle (h.setPending fun slot hslot t ht => ?_) (outcome?_releaseOpt _) (fun t => ?_)
    fun t ht => ?_
  · rcases mem_clearSlot hslot with hslot | hnone
    · exact h.pending e.1 e.2 slot t hl hslot ht
    · rw [hnone] at ht
      cases ht
  · have hsplit := census_of_lookup (List.filterMap PendingRequest.response) l.pending e.1 t hl
    have hclear := count_clearSlot id e.2 t
    simp only [count_waiters, census_insert, List.count_nil]
    omega
  · obtain ⟨slot, hslot, ht⟩ := find_bind ht
    obtain ⟨i, g, f, b, hmem⟩ := h.pending e.1 e.2 slot t hl hslot ht
    exact ⟨_, hmem, rfl, trivial⟩

theorem cancelQueued_accounted (h : SlotInv taken l) {id : UInt64} {r : Loop × List Effect}
    (hr : l.cancelQueued id = some r) : Accounted sh frame taken [] l r.1 r.2 := by
  simp only [Loop.cancelQueued, Option.map_eq_some_iff] at hr
  obtain ⟨e, he, rfl⟩ := hr
  have hl : l.queued.lookup e.1 = some e.2 :=
    List.mem_dlookup l.queued.nodupKeys (List.mem_of_find?_eq_some he)
  refine .settle (h.setQueued fun slot hslot t ht => ?_) (outcome?_releaseOpt _) (fun t => ?_)
    fun t ht => ?_
  · exact h.queued e.1 e.2 slot t hl (List.mem_of_mem_eraseP hslot) ht
  · have hsplit := census_of_lookup (List.filterMap QueuedRequest.response) l.queued e.1 t hl
    have herase : (e.2.filterMap QueuedRequest.response).count t =
        ((e.2.find? (·.id == id)).bind (·.response)).toList.count t +
          ((e.2.eraseP (·.id == id)).filterMap QueuedRequest.response).count t :=
      count_filterMap_eraseP QueuedRequest.response t (·.id == id) e.2
    simp only [count_waiters, census_insert, List.count_nil]
    omega
  · obtain ⟨slot, hslot, ht⟩ := find_bind ht
    obtain ⟨i, g, f, b, hmem⟩ := h.queued e.1 e.2 slot t hl hslot ht
    exact ⟨_, hmem, rfl, trivial⟩

theorem onCancel_accounted (h : SlotInv taken l) (id : UInt64) :
    AccountedTurn sh frame taken [] l (l.onCancel id) := by
  unfold Loop.onCancel Loop.cancelAllPending
  cases hl : l.correlated.lookup id with
  | some slot =>
    refine (Accounted.settle (h.setCorrelated (by simp)) (outcome?_releaseOpt _) (fun t => ?_)
      fun t ht => ?_).next
    · have hsplit := census_of_lookup (fun slot : PendingRequest => slot.response.toList)
        l.correlated id t hl
      simp only [count_waiters, census_insert, List.count_nil, Option.toList_none]
      omega
    · obtain ⟨g, m, f, b, hmem⟩ := h.correlated id slot t hl ht
      exact ⟨_, hmem, rfl, trivial⟩
  | none =>
    cases hp : l.cancelPending id with
    | some r => exact (cancelPending_accounted h hp).next
    | none =>
      cases hq : l.cancelQueued id with
      | some r =>
        simp only [Option.orElse_none]
        exact (cancelQueued_accounted h hq).next
      | none =>
        simp only [Option.orElse_none]
        exact (Accounted.uncancel h _).next

/-! ### Frames -/

section

variable {bytes : Bytes} {sh' : Shared} {records : List IncomingRecord} {record : IncomingRecord}

theorem dispatchCorrelated_accounted (h : SlotInv taken l) (hf : frame = some bytes)
    (hd : decodeIncoming sh bytes = .ok (sh', records)) (hrec : record ∈ records)
    {r : Loop × List Effect}
    (hr : l.dispatchCorrelated record.correlationId record.payload record.responseFinal = .ok r) :
    Accounted sh frame taken [] l r.1 r.2 := by
  unfold Loop.dispatchCorrelated at hr
  cases hl : l.correlated.lookup record.correlationId with
  | none => simp [hl] at hr
  | some slot =>
    simp only [hl] at hr
    cases hfinal : record.responseFinal with
    | false =>
      simp only [hfinal, Bool.false_eq_true, if_false] at hr
      cases hr
      exact .refl h
    | true =>
      simp only [hfinal, if_true] at hr
      cases hr
      refine .settle (r := slot.response) (o := some (.ok record.payload)) (h.eraseCorrelated _)
        (by cases slot.response <;> rfl) (fun t => ?_) fun t ht => ?_
      · have hsplit := census_of_lookup (fun slot : PendingRequest => slot.response.toList)
          l.correlated record.correlationId t hl
        simp only [count_waiters, List.count_nil]
        omega
      · obtain ⟨g, m, f, b, hmem⟩ := h.correlated record.correlationId slot t hl ht
        exact ⟨_, hmem, rfl, bytes, sh', records, hf, hd, record, hrec, rfl, .inl ⟨rfl, hfinal⟩⟩

theorem dispatch_accounted (h : SlotInv taken l) (hf : frame = some bytes)
    (hd : decodeIncoming sh bytes = .ok (sh', records)) (hrec : record ∈ records)
    (hcorr : record.correlationId = 0) :
    Accounted sh frame taken [] l (l.dispatch record.messageType record.payload).1
      (l.dispatch record.messageType record.payload).2.1 := by
  unfold Loop.dispatch
  cases hslots : (l.pending.lookup record.messageType).getD [] with
  | nil => exact (Accounted.refl h).silent rfl
  | cons slot slots =>
    have hin : ∀ s ∈ slot :: slots, s ∈ (l.pending.lookup record.messageType).getD [] :=
      fun s hs => hslots ▸ hs
    simp only
    refine .settle (r := slot.response) (o := some (.ok record.payload))
      (h.setPending fun s hs t ht => ?_) (by cases slot.response <;> rfl) (fun t => ?_)
      fun t ht => ?_
    · exact h.pending_getD (hin s (List.mem_cons_of_mem _ hs)) ht
    · have hleave := census_dequeue PendingRequest.response l.pending record.messageType t hslots
      simp only [count_waiters, List.count_nil]
      omega
    · obtain ⟨i, g, f, b, hmem⟩ := h.pending_getD (hin slot (List.mem_cons_self ..)) ht
      exact ⟨_, hmem, rfl, bytes, sh', records, hf, hd, record, hrec, rfl, .inr ⟨hcorr, rfl⟩⟩

/-- A queued request becomes a pending one. -/
theorem accounted_promote (h : SlotInv taken l) {messageType : UInt16} {q : QueuedRequest}
    {qs : List QueuedRequest} (hq : (l.queued.lookup messageType).getD [] = q :: qs) :
    Accounted sh frame taken [] l
      { l with
        queued := l.queued.insert messageType qs
        pending := l.pending.insert messageType
          ((l.pending.lookup messageType).getD [] ++ [PendingRequest.mk q.id q.response]) } [] := by
  have hin : ∀ s ∈ q :: qs, s ∈ (l.queued.lookup messageType).getD [] := fun s hs => hq ▸ hs
  have hslots : SlotInv taken { l with queued := l.queued.insert messageType qs } :=
    h.setQueued fun s hs t ht => h.queued_getD (hin s (List.mem_cons_of_mem _ hs)) ht
  have hpush : Accounted sh frame taken q.response.toList
      { l with queued := l.queued.insert messageType qs }
      { l with
        queued := l.queued.insert messageType qs
        pending := l.pending.insert messageType
          ((l.pending.lookup messageType).getD [] ++ [PendingRequest.mk q.id q.response]) } [] :=
    accounted_pend hslots fun t ht => h.queued_getD (hin q (List.mem_cons_self ..)) ht
  refine ⟨fun t => ?_, hpush.slots, by simp⟩
  have hbalance := hpush.balance t
  have hleave := census_dequeue QueuedRequest.response l.queued messageType t hq
  simp only [count_waiters, List.filterMap_nil, List.count_nil] at hbalance ⊢
  omega

theorem promote_accounted (h : SlotInv taken l) (messageType : UInt16)
    {l₀ : Loop} (h₀ : Accounted sh frame taken [] l₀ l effects) (written : Result Unit) :
    AccountedTurn sh frame taken [] l₀ (l.promote messageType effects written) := by
  unfold Loop.promote
  cases hq : (l.queued.lookup messageType).getD [] with
  | nil => exact h₀.next
  | cons q qs =>
    have hpro : Accounted sh frame taken [] l₀ _ _ := h₀.trans (accounted_promote h hq)
    rw [List.append_nil] at hpro
    simp only
    cases tryEncodeMessageFrame messageType q.payload with
    | error e => exact hpro.finished .disconnected
    | ok bytes =>
      cases written with
      | ok => exact (hpro.silent (outcome?_write bytes)).next
      | error e => exact (hpro.silent (outcome?_write bytes)).finished .disconnected

theorem onRecord_accounted (h : SlotInv taken l) (hf : frame = some bytes)
    (hd : decodeIncoming sh bytes = .ok (sh', records)) (hrec : record ∈ records)
    (written : Result Unit) : AccountedTurn sh frame taken [] l (l.onRecord record written) := by
  unfold Loop.onRecord
  by_cases hcorr : record.correlationId ≠ 0
  · rw [if_pos hcorr]
    cases hr : l.dispatchCorrelated record.correlationId record.payload record.responseFinal with
    | error e => exact (Accounted.refl h).finished .disconnected
    | ok r => exact (dispatchCorrelated_accounted h hf hd hrec hr).next
  · rw [if_neg hcorr]
    have hdisp := dispatch_accounted h hf hd hrec (not_not.1 hcorr)
    simp only
    split
    · exact promote_accounted hdisp.slots record.messageType hdisp written
    · exact hdisp.next

/-- The records of a frame, one after the other. -/
theorem onRecords_accounted (h : SlotInv taken l) (hf : frame = some bytes)
    (hd : decodeIncoming sh bytes = .ok (sh', records)) (written : Result Unit)
    {rest : List IncomingRecord} (hrest : ∀ r ∈ rest, r ∈ records) :
    AccountedTurn sh frame taken [] l (l.onRecords written rest) := by
  induction rest generalizing l with
  | nil => exact (Accounted.refl h).next
  | cons r rest ih =>
    have hone := onRecord_accounted h hf hd (hrest r (List.mem_cons_self ..)) written
    simp only [Loop.onRecords]
    split
    · exact hone
    · exact hone.accounted.andThen
        (ih hone.accounted.slots fun r' hr' => hrest r' (List.mem_cons_of_mem _ hr'))

end

theorem onFrame_accounted (h : SlotInv taken l) (bytes : Bytes) (written : Result Unit) :
    AccountedTurn sh (some bytes) taken [] l (l.onFrame sh bytes written).2 := by
  unfold Loop.onFrame
  cases hd : decodeIncoming sh bytes with
  | error e => exact (Accounted.refl h).finished .disconnected
  | ok r =>
    obtain ⟨sh', records⟩ := r
    exact onRecords_accounted h rfl hd written fun r hr => hr

/-- **One pass of `run_io` accounts for every caller.** -/
theorem runIo_accounted {input : Input} (h : SlotInv (taken ++ input.request?.toList) l) :
    AccountedTurn sh input.frame? (taken ++ input.request?.toList)
      (input.request?.toList.filterMap Command.requester?) l (runIo sh l input).2 := by
  cases input with
  | command c write =>
    have hentered : (Input.command c write).request?.toList.filterMap Command.requester? =
        c.requester?.toList := by
      cases c <;> rfl
    have hmem : c.requester?.isSome = true → c ∈ (Input.command c write).request?.toList := by
      intro hc
      cases c with
      | request => simp [Input.request?]
      | send | connect | close => cases hc
    rw [hentered]
    exact onCommand_accounted h (fun hc => List.mem_append_right _ (hmem hc)) write.tcp
  | hangup => exact (Accounted.refl h).finished .closed
  | cancel id => exact onCancel_accounted h id
  | frame bytes write =>
    simp only [runIo]
    cases hread : readTcpFrame bytes with
    | error e => exact (Accounted.refl h).finished .disconnected
    | ok bytes' =>
      have heq : bytes' = bytes := by
        unfold readTcpFrame at hread
        split at hread
        · exact (Except.ok.inj hread).symm
        · cases hread
      subst heq
      exact onFrame_accounted h bytes' write.tcp
  | ended => exact (Accounted.refl h).finished .disconnected

/-- One pass of `run_websocket`: where both loops take part they agree, and the rest
settles nobody or everybody. -/
theorem runWebSocket_accounted (enabled : Bool) (beat : Heartbeat) {input : WsInput}
    (h : SlotInv (taken ++ (WebSocket.request? input).toList) l) :
    AccountedTurn sh (WebSocket.frame? input) (taken ++ (WebSocket.request? input).toList)
      ((WebSocket.request? input).toList.filterMap Command.requester?) l
      (runWebSocket enabled sh l beat input).2.1 := by
  cases input with
  | io input =>
    obtain ⟨-, hagree⟩ := pass_agrees sh l beat enabled input
    have hio : AccountedTurn sh input.frame? (taken ++ input.request?.toList)
        (input.request?.toList.filterMap Command.requester?) l (runIo sh l input).2 :=
      runIo_accounted h
    have houtcome := filterMap_agrees (f := Effect.outcome?) (fun _ _ => rfl) hagree.effects
    refine ⟨⟨fun t => ?_, ?_, fun p hp => ?_⟩, fun hr => ?_⟩
    · rw [filterMap_settled, ← houtcome, ← filterMap_settled, hagree.loop]
      exact hio.accounted.balance t
    · rw [hagree.loop]
      exact hio.accounted.slots
    · rw [← houtcome] at hp
      exact hio.accounted.allowed p hp
    · rw [hagree.loop]
      exact hio.cleared (hagree.result ▸ hr)
  | ping write =>
    cases write with
    | done => exact (Accounted.refl h).next
    | failed io text => exact (Accounted.refl h).finished .disconnected
  | pong => exact (Accounted.refl h).next
  | message => exact (Accounted.refl h).next
  | heartbeat write =>
    simp only [runWebSocket]
    repeat' split
    · exact (Accounted.refl h).finished .disconnected
    · exact (Accounted.refl h).next
    · exact (Accounted.refl h).next

end

/-! ## Runs -/

/-- A session whose callers are all accounted for. -/
structure OutcomeInv (s : Session) : Prop where
  settled : SettledOnce s
  slots : SlotInv s.taken s.loop

theorem outcomeInv_start (sh : Shared) : OutcomeInv (.start sh) := by
  refine ⟨⟨fun t => ?_, fun h => absurd rfl h, fun h => absurd rfl h⟩, ⟨?_, ?_, ?_⟩⟩
  · simp [Session.start, count_waiters, Loop.new]
  · intro id slot t hl
    simp [Session.start, Loop.new] at hl
  · intro k slots slot t hl
    simp [Session.start, Loop.new] at hl
  · intro k slots slot t hl
    simp [Session.start, Loop.new] at hl

/-- An accounted turn keeps the account of the session. -/
theorem OutcomeInv.pass {s : Session} (h : OutcomeInv s) {frame : Option Bytes}
    {request : Option Command} {sh sh' : Shared} {t : Turn}
    (ht : AccountedTurn sh frame (s.taken ++ request.toList)
      (request.toList.filterMap Command.requester?) s.loop t) :
    OutcomeInv (s.pass request sh' t) := by
  have honce : ∀ ticket, ((s.pass request sh' t).taken.filterMap Command.requester?).count ticket =
      ((s.pass request sh' t).effects.filterMap Effect.settled?).count ticket +
        (s.pass request sh' t).loop.waiters.count ticket := by
    intro ticket
    have hbefore := h.settled.once ticket
    have hpass := ht.accounted.balance ticket
    simp only [Session.pass, List.filterMap_append, List.count_append]
    omega
  refine ⟨⟨honce, ht.cleared, fun hr ticket => ?_⟩, ht.accounted.slots⟩
  have hwait : (s.pass request sh' t).loop.waiters = [] := (ht.cleared hr).waiters
  rw [honce ticket, hwait]
  rfl

theorem outcomeInv_step (s : Session) (input : Input) (h : OutcomeInv s) :
    OutcomeInv (s.step input) := by
  unfold Session.step
  split
  · exact h
  · exact h.pass (runIo_accounted (h.slots.mono fun c hc => List.mem_append_left _ hc))

theorem outcomeInv_webSocket (enabled : Bool) (s : WebSocket) (input : WsInput)
    (h : OutcomeInv s.session) : OutcomeInv (s.step enabled input).session := by
  unfold WebSocket.step
  split
  · exact h
  · exact h.pass (runWebSocket_accounted enabled s.beat
      (h.slots.mono fun c hc => List.mem_append_left _ hc))

/-! ## Correlated frames -/

/-- A frame makes one record at most. -/
theorem decodeIncoming_singleton {sh sh' : Shared} {bytes : Bytes} {records : List IncomingRecord}
    {record : IncomingRecord} (hd : decodeIncoming sh bytes = .ok (sh', records))
    (hrec : record ∈ records) :
    records = [record] ∧ ∃ header, decodeFrameHeader bytes = .ok header := by
  cases hh : decodeFrameHeader bytes with
  | error e =>
    unfold decodeIncoming at hd
    split at hd
    · cases hd
    · simp [hh, bind, Except.bind] at hd
  | ok header =>
    obtain ⟨-, core, mask, -, rfl | ⟨-, rfl⟩⟩ := decodeIncoming_accepted hh hd
    · cases hrec
    · exact ⟨by rw [List.mem_singleton.1 hrec], header, rfl⟩

theorem onRecords_singleton (l : Loop) (record : IncomingRecord) (written : Result Unit) :
    l.onRecords written [record] = l.onRecord record written := by
  simp only [Loop.onRecords]
  generalize l.onRecord record written = t
  obtain ⟨loop, effects, result⟩ := t
  cases result <;> simp [Loop.next]

/-- A frame with a record goes through `run_io` as that record. -/
theorem runIo_record {sh sh' : Shared} {bytes : Bytes} {records : List IncomingRecord}
    {record : IncomingRecord} (hd : decodeIncoming sh bytes = .ok (sh', records))
    (hrec : record ∈ records) (l : Loop) (write : Write) :
    (runIo sh l (.frame bytes write)).2 = l.onRecord record write.tcp := by
  obtain ⟨rfl, header, hh⟩ := decodeIncoming_singleton hd hrec
  have hread : readTcpFrame bytes = .ok bytes := by
    unfold readTcpFrame
    rw [if_pos]
    by_contra hsize
    obtain ⟨e, he, -⟩ := decodeFrameHeader_size hsize
    exact absurd (hh.symm.trans he) (by simp)
  simp only [runIo, hread, Loop.onFrame, hd, onRecords_singleton]

theorem passOk_io {sh : Shared} {l : Loop} {taken : List Command} {input : Input}
    (ht : AccountedTurn sh input.frame? taken (input.request?.toList.filterMap Command.requester?) l
      (runIo sh l input).2) :
    PassOk sh l taken input.frame? (runIo sh l input).2 := by
  refine ⟨ht.accounted.allowed, ?_, ?_⟩
  · intro bytes sh' records hf hd record hrec hcorr hfinal hin
    cases input with
    | frame bytes' write =>
      cases hf
      obtain ⟨slot, hslot⟩ := Option.isSome_iff_exists.1 (AList.lookup_isSome.2 hin)
      rw [runIo_record hd hrec]
      simp [Loop.onRecord, hcorr, Loop.dispatchCorrelated, hslot, hfinal]
    | command | hangup | cancel | ended => cases hf
  · intro bytes sh' records hf hd record hrec hcorr hnot
    cases input with
    | frame bytes' write =>
      cases hf
      have hslot : l.correlated.lookup record.correlationId = none := AList.lookup_eq_none.2 hnot
      rw [runIo_record hd hrec]
      simp [Loop.onRecord, hcorr, Loop.dispatchCorrelated, hslot, Loop.finish]
    | command | hangup | cancel | ended => cases hf

theorem passOk_webSocket (enabled : Bool) {sh : Shared} {l : Loop} {beat : Heartbeat}
    {taken : List Command} {input : WsInput}
    (h : SlotInv (taken ++ (WebSocket.request? input).toList) l) :
    PassOk sh l (taken ++ (WebSocket.request? input).toList) (WebSocket.frame? input)
      (runWebSocket enabled sh l beat input).2.1 := by
  have ht : AccountedTurn sh (WebSocket.frame? input) (taken ++ (WebSocket.request? input).toList)
      ((WebSocket.request? input).toList.filterMap Command.requester?) l
      (runWebSocket enabled sh l beat input).2.1 := runWebSocket_accounted enabled beat h
  cases input with
  | io input =>
    obtain ⟨-, hagree⟩ := pass_agrees sh l beat enabled input
    have hio : PassOk sh l (taken ++ input.request?.toList) input.frame? (runIo sh l input).2 :=
      passOk_io (runIo_accounted h)
    refine ⟨ht.accounted.allowed, ?_, ?_⟩
    · intro bytes sh' records hf hd record hrec hcorr hfinal hin
      have hturn := hio.unfinished bytes sh' records hf hd record hrec hcorr hfinal hin
      rw [hturn] at hagree
      generalize (runWebSocket enabled sh l beat (.io input)).2.1 = t at hagree ⊢
      obtain ⟨loop, effects, result⟩ := t
      obtain ⟨hloop, hresult, heffects⟩ := hagree
      cases hloop
      cases hresult
      cases heffects
      rfl
    · intro bytes sh' records hf hd record hrec hcorr hnot
      rw [hagree.result]
      exact hio.unknown bytes sh' records hf hd record hrec hcorr hnot
  | ping | pong | message | heartbeat =>
    refine ⟨ht.accounted.allowed, ?_, ?_⟩ <;>
    · intro bytes sh' records hf
      cases hf

/-- **Every request has one outcome.** Of both loops, after any inputs, and of the
next pass while the loop runs. -/
theorem requests_settled (enabled : Bool) (sh : Shared) :
    (∀ inputs : List Input, SettledOnce (run Session.step (.start sh) inputs) ∧
      (run Session.step (.start sh) inputs).PassesOk) ∧
    ∀ inputs : List WsInput,
      SettledOnce (run (WebSocket.step enabled) (.start sh) inputs).session ∧
        (run (WebSocket.step enabled) (.start sh) inputs).PassesOk enabled := by
  refine ⟨fun inputs => ?_, fun inputs => ?_⟩
  · have hinv : OutcomeInv (run Session.step (.start sh) inputs) :=
      run_inv (fun s input h => outcomeInv_step s input h) (outcomeInv_start sh) inputs
    refine ⟨hinv.settled, fun _ input => passOk_io (runIo_accounted ?_)⟩
    exact hinv.slots.mono fun c hc => List.mem_append_left _ hc
  · have hinv : OutcomeInv (run (WebSocket.step enabled) (.start sh) inputs).session :=
      run_inv (I := fun s : WebSocket => OutcomeInv s.session)
        (fun s input h => outcomeInv_webSocket enabled s input h) (outcomeInv_start sh) inputs
    refine ⟨hinv.settled, fun _ input => passOk_webSocket enabled ?_⟩
    exact hinv.slots.mono fun c hc => List.mem_append_left _ hc

end Fitz
