import Fitz.Proof.WorkerFrames

/-!
# The broker's cancellations

A worker receives requests and cancellations on two channels, and looks a cancelled
call up in its inbox and its table of active calls by the correlation id alone.
`cancellations_heeded`: in every run in which a cancellation is received after the
frame it is for, and no request takes another's place in the table, each request that
was published before a cancellation of it is cancelled, dropped or released once the
worker is through with the cancellation. A frame that comes in between the two polls
of one pass is lost to its cancellation (`cancellation_overtakes`).
-/

namespace Fitz

open Machine Tables

/-! ## The channels -/

structure ChannelsInv (ch : Channels) : Prop where
  aged : ∀ received ∈ ch.requests, received.generation ≤ ch.generation
  bounded : ∀ signal ∈ ch.signals, signal.before ≤ ch.requests.length

theorem ChannelsInv.grow {ch ch' : Channels} (h : ChannelsInv ch) (hc : Workers.Continues ch ch') :
    ChannelsInv ch' := by
  have haged : ∀ received ∈ ch.requests, received.generation ≤ ch'.generation :=
    fun received hmem => le_trans (h.aged received hmem) hc.generation
  have hlen : ch.requests.length ≤ ch'.requests.length := hc.requests_isPrefix.length_le
  have hbounded : ∀ signal ∈ ch.signals, signal.before ≤ ch'.requests.length :=
    fun signal hmem => le_trans (h.bounded signal hmem) hlen
  constructor
  · rcases hc.requests with heq | ⟨payload, heq⟩
    · rw [heq]
      exact haged
    · rw [heq]
      intro received hmem
      rcases List.mem_append.1 hmem with hmem | hmem
      · exact haged received hmem
      · rw [List.mem_singleton.1 hmem]
  · rcases hc.signals with heq | ⟨payload, heq⟩
    · rw [heq]
      exact hbounded
    · rw [heq]
      intro signal hmem
      rcases List.mem_append.1 hmem with hmem | hmem
      · exact hbounded signal hmem
      · rw [List.mem_singleton.1 hmem]

namespace Worker

variable {ch : Channels} {w : Worker} {t : Touch}

/-! ## The condition and the property -/

def isReleased (w : Worker) (key : ℕ) : Bool := w.released.any (·.key = key)

/-- The request is not released, and its token not cancelled. -/
def isLive (w : Worker) (key : ℕ) : Bool := (w.requests[key]?).any (!·.canceled) && !w.isReleased key

/-- The worker would make a request of the frame, with this id. -/
def awaits (ch : Channels) (w : Worker) (frame : ℕ) (id : Bytes) : Bool :=
  match ch.requests[frame]? with
  | some received =>
    received.generation == ch.generation &&
      match decodeRequest w.pattern received.payload with
      | .ok (some invocation) => invocation.correlationId == id
      | _ => false
  | none => false

/-- The step meets no other request of the same id: no live one, where a request comes
into the table or goes, and where a cancellation is received, none that was published
before it and is still to be read. -/
def Orderly (ch : Channels) (w : Worker) : Touch → Prop
  | .nothing => True
  | .request key id =>
    ∀ other < w.requests.length, other ≠ key → w.isLive other = true → w.correlationId other ≠ id
  | .signal id before => ∀ frame < before, w.nextRequest ≤ frame → w.awaits ch frame id = false

instance Orderly.decidable (ch : Channels) (w : Worker) : ∀ t, Decidable (Orderly ch w t)
  | .nothing => inferInstanceAs (Decidable True)
  | .request key id => inferInstanceAs (Decidable (∀ other < w.requests.length,
      other ≠ key → w.isLive other = true → w.correlationId other ≠ id))
  | .signal id before => inferInstanceAs (Decidable (∀ frame < before,
      w.nextRequest ≤ frame → w.awaits ch frame id = false))

/-- The request is cancelled, released, or out of the inbox and about to be released. -/
def Stopped (w : Worker) (key : ℕ) (r : RpcRequest) : Prop :=
  r.canceled = true ∨ w.isReleased key = true ∨ .ok key ∈ w.pc.dropped ∨ .ok key ∈ w.handle.items

/-- The worker is through with the cancellation `signal` of the call `id`: of the frames
published before it none is still to be read, and every request made of one is
stopped. -/
structure Heeds (ch : Channels) (w : Worker) (signal : Signal) (id : Bytes) : Prop where
  read : ∀ frame < signal.before, w.nextRequest ≤ frame → w.awaits ch frame id = false
  stopped : ∀ (key : ℕ) r, w.requests[key]? = some r → r.frame < signal.before →
    r.invocation.correlationId = id → w.Stopped key r

/-- No cancellation was lost. -/
def Heeded (ch : Channels) (w : Worker) : Prop :=
  ∀ i ∈ w.handled, ∀ signal ∈ ch.signals[i]?, ∀ id ∈ canceledCall signal.payload, w.Heeds ch signal id

/-! ## The invariant -/

structure SignalsInv (ch : Channels) (w : Worker) : Prop where
  frames : FramesInv ch w
  /-- a live request has the entry of its id -/
  entered : ∀ (key : ℕ) r, w.requests[key]? = some r → r.canceled = false → w.isReleased key = false →
    w.active.lookup r.invocation.correlationId = some key
  past : ∀ i ∈ w.handled, i < ch.signals.length
  heeded : Heeded ch w
  working : ∀ id, w.pc = .removing id ∨ w.pc = .canceling id →
    ∃ signal, ch.signals[w.nextSignal - 1]? = some signal ∧ canceledCall signal.payload = some id ∧
      ∀ frame < signal.before, w.nextRequest ≤ frame → w.awaits ch frame id = false

theorem signalsInv_new (ch : Channels) (pattern : String) (capacity : ℕ) :
    SignalsInv ch (new ch pattern capacity) where
  frames := framesInv_new ch pattern capacity
  entered := by
    intro key r hget
    cases hget
  past := by
    intro i hi
    cases hi
  heeded := by
    intro i hi
    cases hi
  working := by
    intro id hpc
    rcases hpc with hpc | hpc <;> cases hpc

/-! ### The connection goes on -/

theorem awaits_grow {ch' : Channels} (hch : ChannelsInv ch) (hc : Workers.Continues ch ch')
    {frame : ℕ} {id : Bytes} (hlt : frame < ch.requests.length) (h : w.awaits ch frame id = false) :
    w.awaits ch' frame id = false := by
  have hget : ch'.requests[frame]? = ch.requests[frame]? := by
    obtain ⟨more, hmore⟩ := hc.requests_isPrefix
    rw [← hmore, List.getElem?_append_left hlt]
  unfold awaits at h ⊢
  rw [hget]
  rw [List.getElem?_eq_getElem hlt] at h ⊢
  -- after a bump the frame is of an old generation
  by_cases hgen : ch'.generation = ch.generation
  · rw [hgen]
    exact h
  · have hold := hch.aged _ (List.getElem_mem hlt)
    have hlt := hc.generation
    have hne : (ch.requests[frame].generation == ch'.generation) = false := by
      rw [beq_eq_false_iff_ne]
      omega
    simp only [hne, Bool.false_and]

theorem getElem?_signals {ch' : Channels} (hc : Workers.Continues ch ch') {i : ℕ}
    (hlt : i < ch.signals.length) : ch'.signals[i]? = ch.signals[i]? := by
  rcases hc.signals with heq | ⟨payload, heq⟩ <;> rw [heq]
  exact List.getElem?_append_left hlt

theorem SignalsInv.grow {ch' : Channels} (hch : ChannelsInv ch) (h : SignalsInv ch w)
    (hc : Workers.Continues ch ch') : SignalsInv ch' w := by
  have hread : ∀ signal ∈ ch.signals, ∀ id,
      (∀ frame < signal.before, w.nextRequest ≤ frame → w.awaits ch frame id = false) →
      ∀ frame < signal.before, w.nextRequest ≤ frame → w.awaits ch' frame id = false := by
    intro signal hmem id hawaits frame hlt hnext
    exact awaits_grow hch hc (lt_of_lt_of_le hlt (hch.bounded signal hmem)) (hawaits frame hlt hnext)
  refine ⟨h.frames.grow hc, h.entered, fun i hi => ?_, fun i hi signal hget id hid => ?_,
    fun id hpc => ?_⟩
  · have hlen : ch.signals.length ≤ ch'.signals.length := by
      rcases hc.signals with heq | ⟨payload, heq⟩ <;> rw [heq]
      rw [List.length_append]
      omega
    exact lt_of_lt_of_le (h.past i hi) hlen
  · rw [getElem?_signals hc (h.past i hi)] at hget
    have hheeds := h.heeded i hi signal hget id hid
    exact ⟨hread signal (List.mem_of_getElem? hget) id hheeds.read, hheeds.stopped⟩
  · obtain ⟨signal, hget, hid, hawaits⟩ := h.working id hpc
    have hlt := (List.getElem?_eq_some_iff.1 hget).1
    refine ⟨signal, ?_, hid, hread signal (List.mem_of_getElem? hget) id hawaits⟩
    rw [getElem?_signals hc hlt, hget]

/-! ### A step -/

theorem correlationId_eq {key : ℕ} {r : RpcRequest} (h : w.requests[key]? = some r) :
    w.correlationId key = r.invocation.correlationId := by
  rw [correlationId, h]
  rfl

theorem isLive_of {key : ℕ} {r : RpcRequest} (hget : w.requests[key]? = some r)
    (hlive : r.canceled = false) (hkept : w.isReleased key = false) : w.isLive key = true := by
  rw [isLive, hget, hkept]
  simp [hlive]

/-- What another request leaves, where the step is orderly. -/
theorem id_ne_of_orderly {key other : ℕ} {id : Bytes} {r : RpcRequest}
    (ho : Orderly ch w (.request key id)) (hne : other ≠ key) (hget : w.requests[other]? = some r)
    (hlive : r.canceled = false) (hkept : w.isReleased other = false) :
    r.invocation.correlationId ≠ id := by
  have hlt := (List.getElem?_eq_some_iff.1 hget).1
  rw [← correlationId_eq hget]
  exact ho other hlt hne (isLive_of hget hlive hkept)

/-- A live token was not cancelled now. -/
theorem live_of_cancelAll {keys : List ℕ} {key : ℕ} {r : RpcRequest}
    (hget : (w.cancelAll keys).requests[key]? = some r) (hlive : r.canceled = false) :
    w.requests[key]? = some r ∧ key ∉ keys := by
  rw [getElem?_cancelAll, Option.map_eq_some_iff] at hget
  obtain ⟨old, hold, rfl⟩ := hget
  split at hlive
  · cases hlive
  · rename_i hnot
    rw [if_neg hnot]
    exact ⟨hold, hnot⟩

theorem isReleased_finishCleanup {key other : ℕ} {runtime : Bool}
    (h : (w.finishCleanup ch key runtime).isReleased other = false) :
    w.isReleased other = false ∧ other ≠ key := by
  simp only [isReleased, finishCleanup, List.any_append, List.any_cons, List.any_nil,
    Bool.or_false, Bool.or_eq_false_iff, decide_eq_false_iff_not] at h ⊢
  exact ⟨h.1, fun heq => h.2 heq.symm⟩

/-- What a release leaves in the table. -/
theorem entered_finishCleanup (h : SignalsInv ch w) {key : ℕ} {runtime : Bool}
    (ho : Orderly ch w (.request key (w.correlationId key))) (other : ℕ) (r : RpcRequest)
    (hget : w.requests[other]? = some r) (hlive : r.canceled = false)
    (hkept : (w.finishCleanup ch key runtime).isReleased other = false) :
    (w.finishCleanup ch key runtime).active.lookup r.invocation.correlationId = some other := by
  obtain ⟨hbefore, hne⟩ := isReleased_finishCleanup hkept
  have hid := id_ne_of_orderly ho hne hget hlive hbefore
  have hentry := h.entered other r hget hlive hbefore
  rw [finishCleanup, AList.lookup_erase_ne hid]
  exact hentry

theorem mem_activeKeys {id : Bytes} {key : ℕ} (h : w.active.lookup id = some key) :
    key ∈ w.activeKeys := by
  have hmem := AList.mem_lookup_iff.1 h
  exact List.mem_map.2 ⟨_, hmem, rfl⟩

theorem entered_moved {w' : Worker} (h : SignalsInv ch w) (hm : Moved ch w t w') (ho : Orderly ch w t)
    (key : ℕ) (r : RpcRequest) (hget : w'.requests[key]? = some r) (hlive : r.canceled = false)
    (hkept : w'.isReleased key = false) :
    w'.active.lookup r.invocation.correlationId = some key := by
  cases hm with
  | @accepted received invocation canceled hpc hreceived htakes =>
    rcases getElem?_concat_eq_some hget with hold | ⟨rfl, rfl⟩
    · have hlt := (List.getElem?_eq_some_iff.1 hold).1
      have hid := id_ne_of_orderly ho (Nat.ne_of_lt hlt) hold hlive hkept
      exact (AList.lookup_insert_ne hid).trans (h.entered key r hold hlive hkept)
    · exact AList.lookup_insert _
  | discarded | rejected | released | dropped =>
    exact entered_finishCleanup h ho key r hget hlive hkept
  | called | silenced | expired =>
    obtain ⟨hold, -⟩ := live_of_cancelAll hget hlive
    exact h.entered key r hold hlive hkept
  | regenerated =>
    -- every token in the table is cancelled
    obtain ⟨hold, hnot⟩ := live_of_cancelAll hget hlive
    exact absurd (mem_activeKeys (h.entered key r hold hlive hkept)) hnot
  | _ => exact h.entered key r hget hlive hkept

theorem isReleased_self (w : Worker) (key : ℕ) (runtime : Bool) :
    (w.finishCleanup ch key runtime).isReleased key = true := by
  simp [isReleased, finishCleanup]

/-- What is about to be dropped is dropped, or released. -/
theorem dropped_moved {w' : Worker} (h : RequestsInv w) (hm : Moved ch w t w') {key : ℕ}
    (hmem : .ok key ∈ w.pc.dropped ∨ .ok key ∈ w.handle.items) :
    w'.isReleased key = true ∨ .ok key ∈ w'.pc.dropped ∨ .ok key ∈ w'.handle.items := by
  cases hm with
  | stay | expired | delivered | failed | released => exact .inr hmem
  | went hitems hdrop =>
    rw [hdrop] at hmem
    exact .inr (.inr (hmem.resolve_left List.not_mem_nil))
  | listened hpc | left hpc | skipped hpc | passed hpc | accepted hpc | locked hpc | stored hpc
  | signalsLost hpc | signalIgnored hpc | signaled hpc | removed hpc | absent hpc | called hpc
  | regenerated hpc | taken hpc | rejected hpc =>
    rw [hpc] at hmem
    exact .inr (.inr (hmem.resolve_left List.not_mem_nil))
  | started hpc | refused hpc =>
    rw [hpc, (h.early (.inr hpc)).2] at hmem
    rcases hmem with hmem | hmem <;> cases hmem
  | discarded hpc =>
    rw [hpc] at hmem
    rcases hmem with hmem | hmem
    · rcases List.mem_cons.1 hmem with heq | hmem
      · cases heq
        exact .inl (isReleased_self _ _ _)
      · exact .inr (.inl hmem)
    · exact .inr (.inr hmem)
  | discardedError hpc =>
    rw [hpc] at hmem
    rcases hmem with hmem | hmem
    · rcases List.mem_cons.1 hmem with heq | hmem
      · cases heq
      · exact .inr (.inl hmem)
    · exact .inr (.inr hmem)
  | shut hstage | silenced hstage | closed hstage | emptied hstage | gone hstage =>
    rw [hstage] at hmem
    exact .inr (.inl (hmem.resolve_right List.not_mem_nil))
  | dropped hstage =>
    rw [hstage] at hmem
    rcases hmem with hmem | hmem
    · exact .inr (.inl hmem)
    · rcases List.mem_cons.1 hmem with heq | hmem
      · cases heq
        exact .inl (isReleased_self _ _ _)
      · exact .inr (.inr hmem)
  | droppedError hstage =>
    rw [hstage] at hmem
    rcases hmem with hmem | hmem
    · exact .inr (.inl hmem)
    · rcases List.mem_cons.1 hmem with heq | hmem
      · cases heq
      · exact .inr (.inr hmem)

/-- What is stopped stays so. -/
theorem stopped_moved {w' : Worker} (h : RequestsInv w) (hm : Moved ch w t w') {key : ℕ}
    {r r' : RpcRequest} (hlater : Later r r') (hs : w.Stopped key r) : w'.Stopped key r' := by
  rcases hs with hcanceled | hreleased | hdropped
  · exact .inl (hlater.canceled hcanceled)
  · right
    left
    obtain ⟨more, hmore⟩ := hm.grown.released
    rw [isReleased, ← hmore, List.any_append]
    rw [isReleased] at hreleased
    rw [hreleased]
    rfl
  · exact .inr (dropped_moved h hm hdropped)

theorem awaits_moved {w' : Worker} (hm : Moved ch w t w') (frame : ℕ) (id : Bytes) :
    w'.awaits ch frame id = w.awaits ch frame id := by
  rw [awaits, awaits, hm.grown.pattern]

theorem nextRequest_moved {w' : Worker} (hm : Moved ch w t w') : w.nextRequest ≤ w'.nextRequest := by
  cases hm.requested with
  | same hnext => exact hnext
  | added hnext => omega

/-- A cancellation the worker is through with stays heeded: a new request is of a frame
that was still to be read. -/
theorem heeds_moved {w' : Worker} {signal : Signal} {id : Bytes} (h : SignalsInv ch w)
    (hm : Moved ch w t w') (hh : w.Heeds ch signal id) : w'.Heeds ch signal id := by
  constructor
  · intro frame hlt hnext
    rw [awaits_moved hm]
    exact hh.read frame hlt (le_trans (nextRequest_moved hm) hnext)
  · intro key r' hget' hlt hid
    cases hm.requested with
    | same hnext hrequests =>
      obtain ⟨r, hget, hlater⟩ := hrequests key r' hget'
      rw [hlater.frame] at hlt
      rw [hlater.invocation] at hid
      exact stopped_moved h.frames.requests hm hlater (hh.stopped key r hget hlt hid)
    | @added received invocation canceled hnext hreceived htakes hrequests =>
      rw [hrequests] at hget'
      rcases getElem?_concat_eq_some hget' with hget | ⟨-, rfl⟩
      · exact stopped_moved h.frames.requests hm (.refl r') (hh.stopped key r' hget hlt hid)
      · have hawaits : w.awaits ch w.nextRequest id = true := by
          rw [awaits, hreceived]
          simp only [htakes.1, htakes.2, beq_self_eq_true, Bool.true_and, beq_iff_eq]
          exact hid
        rw [hh.read _ hlt le_rfl] at hawaits
        cases hawaits

/-- What the table or the inbox held of the id is stopped. -/
theorem heeds_removed {id : Bytes} {key : ℕ} {signal : Signal}
    (ho : Orderly ch w (.request key id))
    (hread : ∀ frame < signal.before, w.nextRequest ≤ frame → w.awaits ch frame id = false)
    (inbox : List (Result ℕ)) (handled : List ℕ) :
    Heeds ch { w with inbox := inbox, handled := handled, pc := .dropping [.ok key] } signal id := by
  refine ⟨hread, fun other r hget hlt hid => ?_⟩
  by_cases hne : other = key
  · exact .inr (.inr (.inl (by rw [hne]; exact List.mem_singleton_self _)))
  by_cases hcanceled : r.canceled = true
  · exact .inl hcanceled
  by_cases hreleased : w.isReleased other = true
  · exact .inr (.inl hreleased)
  rw [Bool.not_eq_true] at hcanceled hreleased
  exact absurd hid (id_ne_of_orderly ho hne hget hcanceled hreleased)

theorem heeds_called {id : Bytes} {signal : Signal} (h : SignalsInv ch w)
    (hread : ∀ frame < signal.before, w.nextRequest ≤ frame → w.awaits ch frame id = false)
    (handled : List ℕ) :
    Heeds ch { w.cancelAll (w.active.lookup id).toList with handled := handled, pc := .pollShutdown }
      signal id := by
  refine ⟨hread, fun key r hget hlt hid => ?_⟩
  by_cases hcanceled : r.canceled = true
  · exact .inl hcanceled
  by_cases hreleased : w.isReleased key = true
  · exact .inr (.inl hreleased)
  rw [Bool.not_eq_true] at hcanceled hreleased
  -- a live request would be the one in the table, and its token was cancelled now
  obtain ⟨hold, hnot⟩ := live_of_cancelAll hget hcanceled
  have hentry := h.entered key r hold hcanceled hreleased
  rw [hid] at hentry
  rw [hentry] at hnot
  exact absurd (List.mem_singleton_self key) hnot

/-- The worker is through with a cancellation: that is the one it was working off. -/
theorem heeds_new {w' : Worker} (h : SignalsInv ch w) (hm : Moved ch w t w') (ho : Orderly ch w t)
    {i : ℕ} (hi : i ∈ w'.handled) (hnew : i ∉ w.handled) {signal : Signal}
    (hget : ch.signals[i]? = some signal) {id : Bytes} (hid : canceledCall signal.payload = some id) :
    w'.Heeds ch signal id := by
  have hlast : ∀ n, i ∈ w.handled ++ [n] → i = n := by
    intro n hmem
    rcases List.mem_append.1 hmem with hmem | hmem
    · exact absurd hmem hnew
    · exact List.mem_singleton.1 hmem
  have hworking : ∀ id', w.pc = .removing id' ∨ w.pc = .canceling id' → i = w.nextSignal - 1 →
      id' = id ∧ ∀ frame < signal.before, w.nextRequest ≤ frame → w.awaits ch frame id = false := by
    intro id' hpc heq
    obtain ⟨signal', hget', hid', hread⟩ := h.working id' hpc
    rw [← heq, hget] at hget'
    cases hget'
    rw [hid] at hid'
    cases hid'
    exact ⟨rfl, hread⟩
  cases hm with
  | signalIgnored hpc hget' hnone =>
    rw [hlast _ hi, hget'] at hget
    cases hget
    rw [hnone] at hid
    cases hid
  | removed hpc hfind =>
    obtain ⟨rfl, hread⟩ := hworking _ (.inl hpc) (hlast _ hi)
    exact heeds_removed ho hread _ _
  | called hpc =>
    obtain ⟨rfl, hread⟩ := hworking _ (.inr hpc) (hlast _ hi)
    exact heeds_called h hread _
  | _ => exact absurd hi hnew

theorem past_moved {w' : Worker} (h : SignalsInv ch w) (hm : Moved ch w t w') (i : ℕ)
    (hi : i ∈ w'.handled) : i < ch.signals.length := by
  have hlast : ∀ n, n < ch.signals.length → i ∈ w.handled ++ [n] → i < ch.signals.length := by
    intro n hlt hmem
    rcases List.mem_append.1 hmem with hmem | hmem
    · exact h.past i hmem
    · rw [List.mem_singleton.1 hmem]
      exact hlt
  cases hm with
  | signalIgnored hpc hget => exact hlast _ (List.getElem?_eq_some_iff.1 hget).1 hi
  | removed hpc =>
    obtain ⟨signal, hget, -⟩ := h.working _ (.inl hpc)
    exact hlast _ (List.getElem?_eq_some_iff.1 hget).1 hi
  | called hpc =>
    obtain ⟨signal, hget, -⟩ := h.working _ (.inr hpc)
    exact hlast _ (List.getElem?_eq_some_iff.1 hget).1 hi
  | _ => exact h.past i hi

theorem working_moved {w' : Worker} (h : SignalsInv ch w) (hm : Moved ch w t w') (ho : Orderly ch w t)
    (id : Bytes) (hpc' : w'.pc = .removing id ∨ w'.pc = .canceling id) :
    ∃ signal, ch.signals[w'.nextSignal - 1]? = some signal ∧ canceledCall signal.payload = some id ∧
      ∀ frame < signal.before, w'.nextRequest ≤ frame → w'.awaits ch frame id = false := by
  cases hm with
  | stay | expired | delivered | failed | released | shut | silenced | closed | emptied | dropped
  | droppedError | gone => exact h.working id hpc'
  | went hitems hdrop hfrom hplain =>
    rcases hpc' with hpc' | hpc' <;> simp only at hpc' <;> rw [hpc'] at hplain <;> cases hplain
  | passed hpc hget hnot hnext =>
    rcases hnext with rfl | ⟨error, rfl⟩ <;> simp at hpc'
  | @signaled signal id' hpc hlag hget hsome =>
    have heq : id' = id := by simpa using hpc'
    subst heq
    exact ⟨signal, hget, hsome, ho⟩
  | @absent id' hpc =>
    have heq : id' = id := by simpa using hpc'
    subst heq
    exact h.working id' (.inl hpc)
  | _ => simp at hpc'

theorem signalsInv_step (ch : Channels) (w : Worker) (e : WorkerEvent) (h : SignalsInv ch w)
    (ho : Orderly ch w (w.touch ch e)) : SignalsInv ch (w.step ch e) := by
  have hm := moved_step ch w e
  refine ⟨framesInv_step ch w e h.frames, entered_moved h hm ho, past_moved h hm, ?_,
    working_moved h hm ho⟩
  intro i hi signal hget id hid
  by_cases hold : i ∈ w.handled
  · exact heeds_moved h hm (h.heeded i hold signal hget id hid)
  · exact heeds_new h hm ho hi hold hget hid

end Worker

/-! ## Runs -/

namespace Workers

/-- Each step of a worker is orderly. -/
def Orderly (s : Workers) : WorkersEvent → Prop
  | .worker index e => ∀ w ∈ s.workers[index]?, w.Orderly s.channels (w.touch s.channels e)
  | _ => True

instance Orderly.decidable (s : Workers) : ∀ e, Decidable (Orderly s e)
  | .worker index e =>
    inferInstanceAs (Decidable (∀ w ∈ s.workers[index]?, w.Orderly s.channels (w.touch s.channels e)))
  | .bump | .announce | .publishRequest _ | .publishSignal _ | .register .. =>
    inferInstanceAs (Decidable True)

structure CancelsInv (s : Workers) : Prop where
  channels : ChannelsInv s.channels
  signals : ∀ w ∈ s.workers, w.SignalsInv s.channels

theorem cancelsInv_new (signalCapacity : ℕ) : CancelsInv (.new signalCapacity) where
  channels := by
    constructor
    · intro received hmem
      cases hmem
    · intro signal hmem
      cases hmem
  signals := by
    intro w hw
    cases hw

theorem cancelsInv_step (s : Workers) (e : WorkersEvent) (h : CancelsInv s) (hc : Orderly s e) :
    CancelsInv (s.step e) := by
  have hboth : ∀ w ∈ (s.step e).workers,
      ChannelsInv (s.step e).channels ∧ w.SignalsInv (s.step e).channels := by
    refine inv_step (I := fun ch w => ChannelsInv ch ∧ w.SignalsInv ch)
      (c := fun ch w e => w.Orderly ch (w.touch ch e)) ?_ ?_ ?_ ?_ ?_
    · intro ch w e hw ho
      exact ⟨hw.1, Worker.signalsInv_step ch w e hw.2 ho⟩
    · intro ch ch' w hgrow hw
      exact ⟨hw.1.grow hgrow, hw.2.grow hw.1 hgrow⟩
    · intro pattern capacity
      exact ⟨h.channels, Worker.signalsInv_new _ _ _⟩
    · intro w hw
      exact ⟨h.channels, h.signals w hw⟩
    · intro index e' heq w hw
      subst heq
      exact hc w hw
  exact ⟨h.channels.grow (continues_step s e), fun w hw => (hboth w hw).2⟩

end Workers

/-- **No cancellation is lost** in a run of orderly steps. -/
theorem cancellations_heeded (signalCapacity : ℕ) (es : List WorkersEvent)
    (h : Along Workers.step Workers.Orderly (.new signalCapacity) es) :
    ∀ w ∈ (run Workers.step (.new signalCapacity) es).workers,
      w.Heeded (run Workers.step (.new signalCapacity) es).channels := by
  have hinv := along_inv Workers.cancelsInv_step (Workers.cancelsInv_new signalCapacity) h
  intro w hw
  exact (hinv.signals w hw).heeded

/-! ## A cancellation between two polls -/

/-- The broker cancels the call `id`. -/
def cancelPayload (id : UInt8) : Bytes := 2 :: (List.replicate 16 id ++ [1])

/-- A request and its cancellation are published after `before` steps of the task, and
the task takes `after` more. -/
def cancelRun (before after : ℕ) : List WorkersEvent :=
  registerRun 0 "rpc://a/work" ++ turnsRun 0 before ++
    [.publishRequest (invocationPayload 7 "rpc://a/work"), .publishSignal (cancelPayload 7)] ++
    turnsRun 0 after

/-- A request that is read before its cancellation. -/
theorem cancellations_heeded_read :
    ∃ w ∈ (run Workers.step (.new 1024) (cancelRun 0 14)).workers, w.handled = [0] ∧
      w.Heeded (run Workers.step (.new 1024) (cancelRun 0 14)).channels := by
  have hrun : ∃ w ∈ (run Workers.step (.new 1024) (cancelRun 0 14)).workers, w.handled = [0] := by
    decide +kernel
  obtain ⟨w, hw, hhandled⟩ := hrun
  exact ⟨w, hw, hhandled, cancellations_heeded 1024 _ (by decide +kernel) w hw⟩

/-- The task has polled for requests when both are published: it finds the cancellation
first, and the request is executed. -/
theorem cancellation_overtakes :
    ∃ w ∈ (run Workers.step (.new 1024) (cancelRun 3 8 ++ [.worker 0 .poll])).workers,
      w.held = [0] ∧ w.handled = [0] ∧ w.isLive 0 = true ∧
        ¬w.Heeded (run Workers.step (.new 1024) (cancelRun 3 8 ++ [.worker 0 .poll])).channels := by
  let r : RpcRequest := ⟨0, ⟨List.replicate 16 7, "rpc://a/work", [], none⟩, 1, false⟩
  have hrun : ∃ w ∈ (run Workers.step (.new 1024) (cancelRun 3 8 ++ [.worker 0 .poll])).workers,
      w.held = [0] ∧ w.handled = [0] ∧ w.isLive 0 = true ∧ w.requests[0]? = some r ∧
        w.pc.dropped = [] ∧ w.handle.items = [] := by
    decide +kernel
  have hsignal : (run Workers.step (.new 1024)
      (cancelRun 3 8 ++ [.worker 0 .poll])).channels.signals[0]? = some ⟨cancelPayload 7, 1⟩ := by
    decide +kernel
  obtain ⟨w, hw, hheld, hhandled, hlive, hget, hdropped, hitems⟩ := hrun
  refine ⟨w, hw, hheld, hhandled, hlive, fun hheeded => ?_⟩
  have hmem : 0 ∈ w.handled := by
    rw [hhandled]
    exact List.mem_singleton_self 0
  have hheeds := hheeded 0 hmem _ hsignal (List.replicate 16 7) (by decide)
  rcases hheeds.stopped 0 r hget Nat.zero_lt_one rfl with hcanceled | hreleased | hmem | hmem
  · cases hcanceled
  · simp [Worker.isLive, hreleased] at hlive
  · rw [hdropped] at hmem
    cases hmem
  · rw [hitems] at hmem
    cases hmem

end Fitz
