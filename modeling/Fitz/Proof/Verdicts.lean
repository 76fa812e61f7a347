import Fitz.Proof.Replies
import Fitz.Proof.Pages
import Fitz.Proof.Responses
import Fitz.Proof.StreamPages

/-!
# What an operation makes of a success

Behind a status of zero each operation reads the data of its own format, some to their end
and some not. `results_exact`: an operation succeeds exactly on the responses that its format
writes (`DomainCall.Yields`), and returns what was written; what it does with a broker's
error is `broker_errors_exact`. As there, the completion of an acquisition that waits is
left out.
-/

namespace Fitz

open Framing BigEndian

/-! ## Rules for what is left -/

namespace RestReads

variable {α β : Type} {m : Decode α} {R : α → Bytes → Prop}

theorem never (h : ∀ d a d', m.run d ≠ .ok (a, d')) : RestReads m fun _ _ => False := by
  intro buf pos a _
  refine iff_of_false ?_ id
  rintro ⟨d', hrun⟩
  exact h _ _ _ hrun

/-- A format, of which nothing asks that it is all that is left. -/
theorem front (h : Reads m R) : RestReads m fun a rest => ∃ bytes, R a bytes ∧ bytes <+: rest := by
  intro buf pos a hpos
  constructor
  · rintro ⟨d, hrun⟩
    obtain ⟨bytes, hR, hpre, -⟩ := (h buf pos a d hpos).1 hrun
    exact ⟨bytes, hR, hpre⟩
  · rintro ⟨bytes, hR, hpre⟩
    exact ⟨_, (h buf pos a _ hpos).2 ⟨bytes, hR, hpre, rfl⟩⟩

/-- A format that is all that is left. -/
theorem whole (h : Reads m R) (error : FitzError) : RestReads (ended error m) R := by
  refine (RestReads.after h fun a => RestReads.checked a error fun empty => (!empty) = true).congr
    fun a rest => ?_
  constructor
  · rintro ⟨a', x, y, hR, ⟨rfl, hempty⟩, rfl⟩
    have hnil : y = [] := by simpa using hempty
    rw [hnil, List.append_nil]
    exact hR
  · intro hR
    exact ⟨a, rest, [], hR, ⟨rfl, by simp⟩, (List.append_nil rest).symm⟩

/-- A decoder that looks whether anything is left. -/
theorem empties {f : Bool → Decode α} {T : Bool → α → Bytes → Prop}
    (h : ∀ empty, RestReads (f empty) (T empty)) :
    RestReads (isEmpty >>= f) fun a rest => T rest.isEmpty a rest := by
  intro buf pos a hpos
  have hempty : decide (pos ≥ buf.length) = (buf.drop pos).isEmpty := by
    rw [Bool.eq_iff_iff, decide_eq_true_eq, List.isEmpty_iff, List.drop_eq_nil_iff]
  rw [Decode.run_bind_of_ok (isEmpty_run ⟨buf, pos⟩)]
  dsimp only
  rw [hempty]
  exact h _ buf pos a hpos

/-- A decoder that looks how much is left. -/
theorem left {f : ℕ → Decode α} {T : ℕ → α → Bytes → Prop} (h : ∀ n, RestReads (f n) (T n)) :
    RestReads (remaining >>= f) fun a rest => T rest.length a rest := by
  intro buf pos a hpos
  have hrun : (remaining >>= f).run ⟨buf, pos⟩ = (f (buf.length - pos)).run ⟨buf, pos⟩ := rfl
  rw [hrun, ← List.length_drop]
  exact h _ buf pos a hpos

/-- A byte, and what it decides. -/
theorem flag {f : UInt8 → Decode α} {T : UInt8 → α → Bytes → Prop}
    (h : ∀ flag, RestReads (f flag) (T flag)) :
    RestReads (getU8 >>= f) fun a rest => ∃ flag more, rest = flag :: more ∧ T flag a more := by
  refine (RestReads.after reads_getU8 h).congr fun a rest => ?_
  constructor
  · rintro ⟨flag, _, more, rfl, hT, rfl⟩
    exact ⟨flag, more, rfl, hT⟩
  · rintro ⟨flag, more, rfl, hT⟩
    exact ⟨flag, _, more, rfl, hT, rfl⟩

end RestReads

/-! ## Behind the status -/

/-- The response reports success, and `P` holds of the data behind. -/
def Behind (response : Bytes) (P : Bytes → Prop) : Prop := ∃ rest, response = 0 :: rest ∧ P rest

theorem Behind.congr {response : Bytes} {P Q : Bytes → Prop} (h : ∀ rest, P rest ↔ Q rest) :
    Behind response P ↔ Behind response Q :=
  exists_congr fun rest => and_congr_right fun _ => h rest

section Status

variable {α β : Type} {response : Bytes} {R : α → Bytes → Prop}

/-- A response with a status, and nothing but failures behind a one. -/
theorem status_ok_iff {zero one : Decode α} {other : UInt8 → FitzError} (hzero : RestReads zero R)
    (hone : ∀ d a d', one.run d ≠ .ok (a, d')) {a : α} :
    (getU8 >>= fun status => if status = 0 then zero else if status = 1 then one
      else throw (other status)).on response = .ok a ↔ Behind response (R a) := by
  rw [(RestReads.flag fun status => RestReads.ite (status = 0) hzero
    (RestReads.ite (status = 1) (RestReads.never hone) (RestReads.throw (other status)))).on_iff]
  constructor
  · rintro ⟨_, rest, rfl, ⟨rfl, hR⟩ | ⟨-, ⟨-, hfails⟩ | ⟨-, hfails⟩⟩⟩
    · exact ⟨rest, rfl, hR⟩
    · exact hfails.elim
    · exact hfails.elim
  · rintro ⟨rest, rfl, hR⟩
    exact ⟨0, rest, rfl, .inl ⟨rfl, hR⟩⟩

theorem success_ok_iff (operation : String) {m : Decode α} (h : RestReads m R) {a : α} :
    (success operation >>= fun _ => m).on response = .ok a ↔ Behind response (R a) := by
  rw [(RestReads.after (reads_success operation) fun _ => h).on_iff]
  constructor
  · rintro ⟨_, _, rest, rfl, hR, rfl⟩
    exact ⟨rest, rfl, hR⟩
  · rintro ⟨rest, rfl, hR⟩
    exact ⟨(), _, rest, rfl, hR, rfl⟩

/-- An operation of which only the status counts. -/
theorem success_only_ok_iff (operation : String) :
    (success operation).on response = .ok () ↔ Behind response fun _ => True := by
  rw [← bind_pure (success operation)]
  exact (success_ok_iff operation (RestReads.pure ())).trans
    (Behind.congr fun rest => iff_true_intro rfl)

theorem decodeOk_ok_iff : decodeOk response = .ok () ↔ Behind response fun _ => True := by
  refine (status_ok_iff (RestReads.pure ()) fun d a d' hrun => ?_).trans
    (Behind.congr fun rest => iff_true_intro rfl)
  obtain ⟨error, d'', -, hthrow⟩ := Decode.bind_ok hrun
  cases hthrow

/-- A step that only wraps what was read. -/
theorem wrapped_iff {x : Result α} {g : α → β} {b : β} (h : ∀ a, x = .ok a ↔ Behind response (R a)) :
    (x >>= fun a => .ok (g a)) = .ok b ↔
      Behind response fun rest => ∃ a, R a rest ∧ b = g a := by
  constructor
  · intro hx
    cases x with
    | error error => cases hx
    | ok a =>
      obtain ⟨rest, hresponse, hR⟩ := (h a).1 rfl
      cases hx
      exact ⟨rest, hresponse, a, hR, rfl⟩
  · rintro ⟨rest, hresponse, a, hR, rfl⟩
    rw [(h a).2 ⟨rest, hresponse, hR⟩]
    rfl

theorem done_iff {x : Result Unit} {P : Bytes → Prop} {result : CallResult}
    (h : x = .ok () ↔ Behind response P) :
    (x >>= fun _ => .ok CallResult.done) = .ok result ↔
      Behind response fun rest => P rest ∧ result = .done := by
  refine (wrapped_iff (R := fun _ => P) (g := fun _ => CallResult.done) fun _ => h).trans
    (Behind.congr fun rest => ?_)
  constructor
  · rintro ⟨_, h⟩
    exact h
  · exact fun h => ⟨(), h⟩

end Status

/-! ## The formats -/

/-- A concrete route of so many segments, within the limit of its length. -/
def FixedRoute (scheme : String) (n : ℕ) (route : String) : Prop :=
  route.toUTF8.toList.length ≤ 65535 ∧
    ∃ segments, ConcreteText scheme route segments ∧ segments.length = n

/-- The data of a stream response, behind an id that may be missing. -/
def StreamData (sessionId : Option UInt64) (data rest : Bytes) : Prop :=
  data.length < 2 ^ 32 ∧ putOptional putU64 sessionId ++ putBytes data <+: rest

/-- A reserved item. A reservation under a pattern names the route. -/
def putReserved (route : String) (item : QueueItem) : Bytes :=
  (if star ∈ route.toUTF8.toList then putString item.route else []) ++ putU64 item.id ++
    putU64 item.token ++ putBytes item.body

/-- The item is an open one of this reservation. -/
def FitsReserved (route : String) (generation : UInt64) (item : QueueItem) : Prop :=
  item.generation = generation ∧ item.state = 0 ∧ item.body.length < 2 ^ 32 ∧
    if star ∈ route.toUTF8.toList then FixedRoute "queue" 3 item.route else item.route = route

/-- The metadata of a stream; that an offset is missing and that it is zero come to the same. -/
def putMetadata (first last : Option UInt64) (m : StreamMetadata) : Bytes :=
  putOptional putU64 first ++ putOptional putU64 last ++ putU64 m.recordCount ++
    putU64 m.maxBatchEvents ++ putU64 m.maxBatchBytes ++ putOptional putU64 m.ttlSeconds ++
      putU64 m.areaWatermark ++ putU64 m.realmWatermark

/-- What the data hold that grant these handles. -/
def Opening.Yields (generation : UInt64) (result : CallResult) (rest : Bytes) : Opening → Prop
  | .kvBegin route _ =>
    ∃ id, putU64 id <+: rest ∧ result = .handles [.kv ⟨generation, id, route, false⟩]
  | .streamBegin _ _ =>
    ∃ id data, data.length < 2 ^ 32 ∧ putU64 id ++ putBytes data <+: rest ∧
      result = .handles [.stream ⟨generation, id, true⟩]
  | .leaseAcquire route ownerId _ waitSeconds =>
    (∃ kind token, kind < 2 ∧ putU8 kind ++ putU64 token <+: rest ∧
      result = .handles [.lease ⟨generation, route, ownerId, token, false⟩]) ∨
    waitSeconds > 0 ∧ putU8 2 <+: rest ∧ result = .queued
  | .queueReserve route _ _ _ =>
    rest = [] ∧ result = .handles [] ∨
    ∃ items, (items.length < 2 ^ 32 ∧ ∀ item ∈ items, FitsReserved route generation item) ∧
      toBe 4 items.length ++ stream (putReserved route) items <+: rest ∧
        result = .handles (items.map .queue)

def Operation.Yields (result : CallResult) (rest : Bytes) : Operation → Prop
  | .kvGet _ =>
    (∃ value, value.length < 2 ^ 32 ∧ putU8 1 ++ putBytes value <+: rest ∧
      result = .value (some value)) ∨
    ∃ found, found ≠ 1 ∧ putU8 found <+: rest ∧ result = .value none
  | .kvPut _ _ | .kvInsert _ _ | .kvDelete _ | .kvDeleteRange _ _ | .kvCommit _ | .kvRollback
  | .streamRollback | .leaseRelease => result = .done
  | .kvScan _ => ∃ page, FitsScanPage page ∧ putU8 0 ++ rest = putScanPage page ∧ result = .scanned page
  | .streamAppend _ _ _ _ =>
    ∃ data, data.length < 2 ^ 32 ∧ putBytes data <+: rest ∧
      (data.length < 8 ∧ result = .appended none ∨
        ∃ offset, putU64 offset <+: data ∧ result = .appended (some offset))
  | .streamCommit _ => ∃ data, data.length < 2 ^ 32 ∧ putBytes data <+: rest ∧ result = .done
  | .leaseExtend _ => ∃ token, putU64 token <+: rest ∧ result = .renewed token
  | .leaseDrop => False
  | .queueExtend _ | .queueComplete | .queueNack _ => rest = [] ∧ result = .done

/-- What the data hold that register a subscription under this id. -/
def Topic.Registers (id : UInt64) (rest : Bytes) : Topic → Prop
  | .kv => putU64 id <+: rest
  | .queue => putU8 1 ++ putU64 id <+: rest
  | .lease => rest = putU64 id
  | .notice => rest = putU8 1 ++ putU64 id ∨ rest.length ≠ 9 ∧ putU64 id <+: rest
  | .stream => ∃ data, StreamData (some id) data rest
  | .schedule => rest = putU8 1 ++ putU64 id

/-- The data behind the end of a subscription. -/
def Topic.Ends (rest : Bytes) : Topic → Prop
  | .queue | .schedule => rest = []
  | _ => True

/-- What the data behind the status hold, where the operation returns this. -/
def DomainCall.Yields (generation : UInt64) (result : CallResult) (rest : Bytes) : DomainCall → Prop
  | .opening o => o.Yields generation result rest
  | .operation _ op => op.Yields result rest
  | .subscribe topic _ => ∃ id, topic.Registers id rest ∧ result = .subscribed id
  | .unsubscribe topic _ _ => topic.Ends rest ∧ result = .done
  | .enqueue _ _ _ =>
    rest = [] ∧ result = .enqueued 0 ∨ ∃ id, putU64 id <+: rest ∧ result = .enqueued id
  | .leaseList _ _ _ => ∃ page, FitsListPage page ∧ rest = putListPage page ∧ result = .leases page
  | .leaseQuery _ =>
    (∃ owner ttl waiters, owner.toUTF8.toList.length < 2 ^ 32 ∧
      putU8 1 ++ putString owner ++ putU64 ttl ++ putU32 waiters <+: rest ∧
        result = .info ⟨true, some owner, some ttl, waiters⟩) ∨
    ∃ held waiters, held ≠ 1 ∧ putU8 held ++ putU32 waiters <+: rest ∧
      result = .info ⟨false, none, none, waiters⟩
  | .publishWithAck _ _ | .unsubscribeAll | .registerWorker _ _ | .deregister _ => result = .done
  | .readPage route _ _ _ =>
    ∃ sessionId data scope page, StreamData sessionId data rest ∧
      classifyStreamSelector route = .ok scope ∧
        (data = [] ∧ page = ⟨[], ⟨0, none, none, none, none, none, false⟩⟩ ∨
          FitsPage (scope = .global) page ∧ data = putPage (scope = .global) page) ∧
        result = .page page
  | .peek route =>
    rest = [] ∧ result = .record none ∨
    ∃ record, StreamRoute route ∧ record.route = route ∧ FitsRecord false record ∧
      rest = putRecord false record ∧ result = .record (some record)
  | .metadata _ =>
    rest = [] ∧ result = .metadata ⟨0, 0, 0, 0, 0, none, 0, 0⟩ ∨
    ∃ first last m, m.firstOffset = first.getD 0 ∧ m.lastOffset = last.getD 0 ∧
      putMetadata first last m <+: rest ∧ result = .metadata m
  | .create _ | .createBatch _ | .cancelSchedule _ => rest = [] ∧ result = .done
  | .listV2 _ _ =>
    ∃ page, FitsCursorPage page ∧ rest = putCursorPage page ∧ result = .schedules page
  | .publish _ _ | .call _ _ _ _ _ | .respond _ _ _ _ | .cancelCall _ _ | .cleanup _ => False

/-! ## Handles -/

variable {response : Bytes}

theorem responseFixedRoute_iff {route scheme operation : String} {n : ℕ} :
    validateResponseFixedRoute route scheme n operation = .ok () ↔ FixedRoute scheme n route := by
  unfold validateResponseFixedRoute FixedRoute
  rw [← fixedRoute_iff]
  cases validateFixedRoute route scheme n with
  | error error =>
    refine iff_of_false (fun h => ?_) fun h => ?_
    · cases h
    · cases h
  | ok u => exact iff_of_true rfl rfl

/-- The route of a reserved item is sent only where the reservation does not say it. -/
theorem reads_reservedRoute (route : String) : Reads (reservedRoute route) fun r bytes =>
    if star ∈ route.toUTF8.toList then FixedRoute "queue" 3 r ∧ bytes = putString r
    else r = route ∧ bytes = [] := by
  unfold reservedRoute
  split
  · refine (reads_getString.bind (T := fun concrete r bytes =>
      FixedRoute "queue" 3 concrete ∧ r = concrete ∧ bytes = []) fun concrete => ?_).congr
        fun r bytes => ?_
    · cases hvalid : validateResponseFixedRoute concrete "queue" 3 "RESERVE" with
      | error error =>
        refine (Reads.throw error).congr fun r bytes => ⟨False.elim, fun h => ?_⟩
        rw [responseFixedRoute_iff.2 h.1] at hvalid
        cases hvalid
      | ok u =>
        refine (Reads.pure concrete).congr fun r bytes => ?_
        exact (and_iff_right (responseFixedRoute_iff.1 hvalid)).symm
    · constructor
      · rintro ⟨concrete, _, _, ⟨rfl, -⟩, ⟨hroute, rfl, rfl⟩, rfl⟩
        exact ⟨hroute, List.append_nil _⟩
      · rintro ⟨hroute, rfl⟩
        exact ⟨r, _, [], ⟨rfl, lt_of_le_of_lt hroute.1 (by decide)⟩, ⟨hroute, rfl, rfl⟩,
          (List.append_nil _).symm⟩
  · exact Reads.pure route

/-- One reserved item. -/
def reservedItem (route : String) (generation : UInt64) : Decode QueueItem := do
  let concreteRoute ← reservedRoute route
  return ⟨generation, concreteRoute, ← getU64, ← getU64, ← getBytes, 0⟩

theorem reads_reservedItem (route : String) (generation : UInt64) :
    Inverts (reservedItem route generation) (putReserved route) (FitsReserved route generation) := by
  have hread := (reads_reservedRoute route).bind fun r => reads_getU64.bind fun id =>
    reads_getU64.bind fun token => Reads.map (fun body => QueueItem.mk generation r id token body 0)
      reads_getBytes
  refine Reads.congr hread fun item bytes => ?_
  unfold FitsReserved putReserved
  split
  · constructor
    · rintro ⟨r, _, _, ⟨hroute, rfl⟩, ⟨id, _, _, rfl, ⟨token, _, _, rfl, ⟨body, ⟨rfl, hbody⟩, rfl⟩, rfl⟩,
        rfl⟩, rfl⟩
      exact ⟨⟨rfl, rfl, hbody, hroute⟩, by simp only [List.append_assoc]⟩
    · rintro ⟨⟨rfl, hstate, hbody, hroute⟩, rfl⟩
      refine ⟨item.route, _, _, ⟨hroute, rfl⟩, ⟨item.id, _, _, rfl, ⟨item.token, _, _, rfl,
        ⟨item.body, ⟨rfl, hbody⟩, ?_⟩, rfl⟩, rfl⟩, by simp only [List.append_assoc]⟩
      rw [← hstate]
  · constructor
    · rintro ⟨r, _, _, ⟨rfl, rfl⟩, ⟨id, _, _, rfl, ⟨token, _, _, rfl, ⟨body, ⟨rfl, hbody⟩, rfl⟩, rfl⟩,
        rfl⟩, rfl⟩
      exact ⟨⟨rfl, rfl, hbody, rfl⟩, by simp only [List.append_assoc]⟩
    · rintro ⟨⟨rfl, hstate, hbody, rfl⟩, rfl⟩
      refine ⟨item.route, _, _, ⟨rfl, rfl⟩, ⟨item.id, _, _, rfl, ⟨item.token, _, _, rfl,
        ⟨item.body, ⟨rfl, hbody⟩, ?_⟩, rfl⟩, rfl⟩, by simp only [List.append_assoc]⟩
      rw [← hstate]

theorem reads_reserved (route : String) (generation : UInt64) :
    Inverts (do reservedItems route generation (← getU32).toNat)
      (fun items => toBe 4 items.length ++ stream (putReserved route) items) fun items =>
        items.length < 2 ^ 32 ∧ ∀ item ∈ items, FitsReserved route generation item := by
  have hsucc : ∀ n, reservedItems route generation (n + 1) = do
      return (← reservedItem route generation) :: (← reservedItems route generation n) := by
    intro n
    simp only [reservedItems, reservedItem, bind_assoc, pure_bind]
  have hread := reads_counted fun n => reads_loop (reads_reservedItem route generation)
    (reservedItems route generation) rfl hsucc n
  rw [bind_assoc] at hread
  exact hread

/-! ## Stream responses -/

theorem streamError_fails (operation : String) (d : PayloadDecoder) (p : StreamResponsePayload)
    (d' : PayloadDecoder) : (streamError operation).run d ≠ .ok (p, d') := by
  intro hrun
  rw [streamError_eq] at hrun
  obtain ⟨r, d1, -, hrun⟩ := Decode.bind_ok hrun
  split at hrun
  · cases hrun
  · obtain ⟨n, d2, -, hrun⟩ := Decode.bind_ok hrun
    split at hrun
    · cases hrun
    · cases hrun

theorem stream_ok_iff {operation : String} {R : StreamResponsePayload → Bytes → Prop}
    (h : RestReads (streamData operation response) R) {p : StreamResponsePayload} :
    decodeStreamResponse operation response = .ok p ↔ Behind response (R p) := by
  rw [decodeStreamResponse_eq_data]
  exact status_ok_iff h (streamError_fails operation)

theorem reads_noneData : Reads (do return (⟨none, ← getBytes⟩ : StreamResponsePayload)) fun p bytes =>
    p.sessionId = none ∧ p.data.length < 2 ^ 32 ∧ bytes = putBytes p.data := by
  refine (Reads.map (fun data => StreamResponsePayload.mk none data) reads_getBytes).congr
    fun p bytes => ?_
  constructor
  · rintro ⟨data, ⟨rfl, hdata⟩, rfl⟩
    exact ⟨rfl, hdata, rfl⟩
  · rintro ⟨hnone, hdata, rfl⟩
    exact ⟨p.data, ⟨rfl, hdata⟩, by rw [← hnone]⟩

theorem reads_someData :
    Reads (do return (⟨some (← getU64), ← getBytes⟩ : StreamResponsePayload)) fun p bytes =>
      ∃ id, p.sessionId = some id ∧ p.data.length < 2 ^ 32 ∧ bytes = putU64 id ++ putBytes p.data := by
  refine (reads_getU64.bind fun id =>
    Reads.map (fun data => StreamResponsePayload.mk (some id) data) reads_getBytes).congr
      fun p bytes => ?_
  constructor
  · rintro ⟨id, _, _, rfl, ⟨data, ⟨rfl, hdata⟩, rfl⟩, rfl⟩
    exact ⟨id, rfl, hdata, rfl⟩
  · rintro ⟨id, hid, hdata, rfl⟩
    exact ⟨id, _, _, rfl, ⟨p.data, ⟨rfl, hdata⟩, by rw [← hid]⟩, rfl⟩

/-- BEGIN, whose id is always there. -/
theorem begin_ok_iff {p : StreamResponsePayload} :
    decodeStreamResponse "BEGIN" response = .ok p ↔ Behind response fun rest =>
      ∃ id, p.sessionId = some id ∧ p.data.length < 2 ^ 32 ∧ putU64 id ++ putBytes p.data <+: rest := by
  have hdata : streamData "BEGIN" response = do return ⟨some (← getU64), ← getBytes⟩ := rfl
  refine (stream_ok_iff (hdata ▸ RestReads.front reads_someData)).trans (Behind.congr fun rest => ?_)
  constructor
  · rintro ⟨_, ⟨id, hid, hdata, rfl⟩, hpre⟩
    exact ⟨id, hid, hdata, hpre⟩
  · rintro ⟨id, hid, hdata, hpre⟩
    exact ⟨_, ⟨id, hid, hdata, rfl⟩, hpre⟩

/-- APPEND and COMMIT, which have no id. -/
theorem written_ok_iff {operation : String} (h : operation = "APPEND" ∨ operation = "COMMIT")
    {p : StreamResponsePayload} :
    decodeStreamResponse operation response = .ok p ↔ Behind response fun rest =>
      p.sessionId = none ∧ p.data.length < 2 ^ 32 ∧ putBytes p.data <+: rest := by
  have hdata : streamData operation response = do return ⟨none, ← getBytes⟩ := by
    rcases h with rfl | rfl
    · rfl
    · rfl
  refine (stream_ok_iff (hdata ▸ RestReads.front reads_noneData)).trans (Behind.congr fun rest => ?_)
  constructor
  · rintro ⟨_, ⟨hnone, hshort, rfl⟩, hpre⟩
    exact ⟨hnone, hshort, hpre⟩
  · rintro ⟨hnone, hshort, hpre⟩
    exact ⟨_, ⟨hnone, hshort, rfl⟩, hpre⟩

/-- ROLLBACK and UNSUBSCRIBE, which have no data. -/
theorem ended_ok_iff {operation : String} (h : operation = "ROLLBACK" ∨ operation = "UNSUBSCRIBE")
    {p : StreamResponsePayload} :
    decodeStreamResponse operation response = .ok p ↔ Behind response fun _ => p = ⟨none, []⟩ := by
  have hdata : streamData operation response = pure ⟨none, []⟩ := by
    rcases h with rfl | rfl
    · rfl
    · rfl
  exact stream_ok_iff (hdata ▸ RestReads.pure _)

/-- LAST and METADATA, whose data are all that is behind the status. -/
theorem whole_ok_iff {operation : String} (h : operation = "LAST" ∨ operation = "METADATA")
    {p : StreamResponsePayload} :
    decodeStreamResponse operation response = .ok p ↔ Behind response fun rest => p = ⟨none, rest⟩ := by
  have hdata : streamData operation response = pure ⟨none, response.drop 1⟩ := by
    rcases h with rfl | rfl
    · rfl
    · rfl
  refine (stream_ok_iff (hdata ▸ RestReads.pure _)).trans ?_
  constructor
  · rintro ⟨rest, rfl, rfl⟩
    exact ⟨rest, rfl, rfl⟩
  · rintro ⟨rest, rfl, rfl⟩
    exact ⟨rest, rfl, rfl⟩

/-- READ and SUBSCRIBE, whose id is behind a flag. -/
theorem flagged_ok_iff {operation : String} (h : operation = "READ" ∨ operation = "SUBSCRIBE")
    {p : StreamResponsePayload} :
    decodeStreamResponse operation response = .ok p ↔
      Behind response (StreamData p.sessionId p.data) := by
  have hdata : streamData operation response = getU8 >>= fun hasSessionId =>
      if hasSessionId = 0 then do return ⟨none, ← getBytes⟩
      else if hasSessionId = 1 then do return ⟨some (← getU64), ← getBytes⟩
      else throw (.protocol (operation ++ " response has invalid optional-id flag: " ++
        toString hasSessionId)) := by
    rcases h with rfl | rfl
    · rfl
    · rfl
  have hread := Reads.flag fun hasSessionId => Reads.ite (hasSessionId = 0) reads_noneData
    (Reads.ite (hasSessionId = 1) reads_someData (Reads.throw (.protocol (operation ++
      " response has invalid optional-id flag: " ++ toString hasSessionId))))
  refine (stream_ok_iff (hdata ▸ RestReads.front hread)).trans (Behind.congr fun rest => ?_)
  constructor
  · rintro ⟨_, ⟨hasSessionId, _, ⟨rfl, hnone, hshort, rfl⟩ |
      ⟨-, ⟨rfl, id, hid, hshort, rfl⟩ | ⟨-, hfails⟩⟩, rfl⟩, hpre⟩
    · exact ⟨hshort, hnone ▸ hpre⟩
    · exact ⟨hshort, hid ▸ hpre⟩
    · exact hfails.elim
  · rintro ⟨hshort, hpre⟩
    obtain ⟨sessionId, data⟩ := p
    cases sessionId with
    | none => exact ⟨_, ⟨0, _, .inl ⟨rfl, rfl, hshort, rfl⟩, rfl⟩, hpre⟩
    | some id => exact ⟨_, ⟨1, _, .inr ⟨by decide, .inl ⟨rfl, id, rfl, hshort, rfl⟩⟩, rfl⟩, hpre⟩

/-! ## The operations -/

variable {result : CallResult} {generation : UInt64}

/-- What is read stands for the result, and nothing asks for more. -/
theorem RestReads.yields {α β : Type} {m : Decode α} {enc : α → Bytes} {ok : α → Prop} (g : α → β)
    (h : Inverts m enc ok) :
    RestReads (do return g (← m)) fun b rest => ∃ a, ok a ∧ enc a <+: rest ∧ b = g a := by
  refine (RestReads.front (Reads.map g h)).congr fun b rest => ?_
  constructor
  · rintro ⟨_, ⟨a, ⟨hok, rfl⟩, rfl⟩, hpre⟩
    exact ⟨a, hok, hpre, rfl⟩
  · rintro ⟨a, hok, hpre, rfl⟩
    exact ⟨_, ⟨a, ⟨hok, rfl⟩, rfl⟩, hpre⟩

theorem front_u64 : RestReads getU64 fun a rest => putU64 a <+: rest :=
  (RestReads.front reads_getU64).congr fun a rest => by simp

theorem restReads_acquired (waitSeconds : UInt32) : RestReads (acquiredBody waitSeconds) fun token rest =>
    (∃ kind id, kind < 2 ∧ putU8 kind ++ putU64 id <+: rest ∧ token = some id) ∨
      waitSeconds > 0 ∧ putU8 2 <+: rest ∧ token = none := by
  refine (RestReads.flag fun kind => RestReads.ite (kind = 3) (RestReads.throw _)
    (RestReads.ite (kind < 2) (RestReads.yields some reads_u64)
      (RestReads.ite (kind = 2 ∧ waitSeconds > 0) (RestReads.pure none) (RestReads.throw _)))).congr
        fun token rest => ?_
  constructor
  · rintro ⟨kind, more, rfl, ⟨-, hfails⟩ | ⟨-, ⟨hkind, id, -, hpre, rfl⟩ |
      ⟨-, ⟨⟨rfl, hwait⟩, rfl⟩ | ⟨-, hfails⟩⟩⟩⟩
    · exact hfails.elim
    · exact .inl ⟨kind, id, hkind, List.cons_prefix_cons.2 ⟨rfl, hpre⟩, rfl⟩
    · exact .inr ⟨hwait, List.prefix_append [2] more, rfl⟩
    · exact hfails.elim
  · rintro (⟨kind, id, hkind, ⟨more, rfl⟩, rfl⟩ | ⟨hwait, ⟨more, rfl⟩, rfl⟩)
    · have hthree : kind ≠ 3 := by
        rintro rfl
        exact absurd hkind (by decide)
      exact ⟨kind, _, rfl, .inr ⟨hthree, .inl ⟨hkind, id, trivial, List.prefix_append _ _, rfl⟩⟩⟩
    · exact ⟨2, more, rfl, .inr ⟨by decide, .inr ⟨by decide, .inl ⟨⟨rfl, hwait⟩, rfl⟩⟩⟩⟩

/-- What a RESERVE says behind its status; without a count there are no items. -/
def reservedBody (route : String) (generation : UInt64) : Decode (List Handle) := do
  if ← isEmpty then return []
  let count ← getU32
  return (← reservedItems route generation count.toNat).map .queue

theorem restReads_reserve (route : String) (generation : UInt64) :
    RestReads (reservedBody route generation) fun handles rest =>
        rest = [] ∧ handles = [] ∨
          ∃ items, (items.length < 2 ^ 32 ∧ ∀ item ∈ items, FitsReserved route generation item) ∧
            toBe 4 items.length ++ stream (putReserved route) items <+: rest ∧
              handles = items.map Handle.queue := by
  have hitems := RestReads.yields (List.map Handle.queue) (reads_reserved route generation)
  rw [bind_assoc] at hitems
  refine (RestReads.empties fun empty =>
    RestReads.ite (empty = true) (RestReads.pure []) hitems).congr fun handles rest => ?_
  constructor
  · rintro (⟨hempty, rfl⟩ | ⟨-, hsome⟩)
    · exact .inl ⟨List.isEmpty_iff.1 hempty, rfl⟩
    · exact .inr hsome
  · rintro (⟨rfl, rfl⟩ | hsome)
    · exact .inl ⟨rfl, rfl⟩
    · refine .inr ⟨fun hempty => ?_, hsome⟩
      obtain ⟨items, -, hpre, -⟩ := hsome
      rw [List.isEmpty_iff.1 hempty] at hpre
      have hlen := congrArg List.length (List.prefix_nil.1 hpre)
      rw [List.length_append, length_toBe, List.length_nil] at hlen
      omega

theorem Opening.ok_iff (o : Opening) :
    (match o.handles generation response none with
      | some result => do
        let handles ← result
        return CallResult.handles handles
      | none => .ok .queued) = .ok result ↔
        Behind response fun rest => o.Yields generation result rest := by
  cases o with
  | kvBegin route mode =>
    refine (wrapped_iff (g := CallResult.handles) fun _ => success_ok_iff "KV BEGIN"
      (RestReads.yields (fun id => [Handle.kv ⟨generation, id, route, false⟩]) reads_u64)).trans
        (Behind.congr fun rest => ?_)
    constructor
    · rintro ⟨_, ⟨id, -, hpre, rfl⟩, rfl⟩
      exact ⟨id, hpre, rfl⟩
    · rintro ⟨id, hpre, rfl⟩
      exact ⟨_, ⟨id, trivial, hpre, rfl⟩, rfl⟩
  | streamBegin route ingestMetadata =>
    simp only [Opening.handles]
    constructor
    · intro h
      cases hdecoded : decodeStreamResponse "BEGIN" response with
      | error error =>
        rw [hdecoded] at h
        cases h
      | ok p =>
        obtain ⟨rest, rfl, id, hid, hdata, hpre⟩ := begin_ok_iff.1 hdecoded
        rw [hdecoded] at h
        simp only [bind, Except.bind, hid] at h
        cases h
        exact ⟨rest, rfl, id, p.data, hdata, hpre, rfl⟩
    · rintro ⟨rest, rfl, id, data, hdata, hpre, rfl⟩
      have hdecoded : decodeStreamResponse "BEGIN" (0 :: rest) = .ok ⟨some id, data⟩ :=
        begin_ok_iff.2 ⟨rest, rfl, id, rfl, hdata, hpre⟩
      rw [hdecoded]
      rfl
  | leaseAcquire route ownerId ttlSecs waitSeconds =>
    have hkind : ∀ token, acquireKind waitSeconds response = .ok token ↔ _ := fun _ =>
      success_ok_iff "Lease ACQUIRE" (restReads_acquired waitSeconds)
    simp only [Opening.handles]
    constructor
    · intro h
      cases hdecoded : acquireKind waitSeconds response with
      | error error =>
        rw [hdecoded] at h
        cases h
      | ok token =>
        obtain ⟨rest, rfl, ⟨kind, id, hlt, hpre, rfl⟩ | ⟨hwait, hpre, rfl⟩⟩ := (hkind token).1 hdecoded
        · rw [hdecoded] at h
          cases h
          exact ⟨rest, rfl, .inl ⟨kind, id, hlt, hpre, rfl⟩⟩
        · rw [hdecoded] at h
          cases h
          exact ⟨rest, rfl, .inr ⟨hwait, hpre, rfl⟩⟩
    · rintro ⟨rest, rfl, ⟨kind, id, hlt, hpre, rfl⟩ | ⟨hwait, hpre, rfl⟩⟩
      · rw [(hkind (some id)).2 ⟨rest, rfl, .inl ⟨kind, id, hlt, hpre, rfl⟩⟩]
        rfl
      · rw [(hkind none).2 ⟨rest, rfl, .inr ⟨hwait, hpre, rfl⟩⟩]
        rfl
  | queueReserve route leaseSeconds batchSize waitSeconds =>
    have heq : (Opening.queueReserve route leaseSeconds batchSize waitSeconds).handles generation
        response none = some ((success "Queue RESERVE" >>= fun _ => reservedBody route generation).on
          response) := rfl
    have hbody : ∀ handles, (success "Queue RESERVE" >>= fun _ => reservedBody route generation).on
        response = .ok handles ↔ _ := fun _ =>
      success_ok_iff "Queue RESERVE" (restReads_reserve route generation)
    rw [heq]
    refine (wrapped_iff (g := CallResult.handles) hbody).trans ?_
    refine Behind.congr fun rest => ?_
    constructor
    · rintro ⟨handles, ⟨rfl, rfl⟩ | ⟨items, hitems, hpre, rfl⟩, rfl⟩
      · exact .inl ⟨rfl, rfl⟩
      · exact .inr ⟨items, hitems, hpre, rfl⟩
    · rintro (⟨rfl, rfl⟩ | ⟨items, hitems, hpre, rfl⟩)
      · exact ⟨_, .inl ⟨rfl, rfl⟩, rfl⟩
      · exact ⟨_, .inr ⟨items, hitems, hpre, rfl⟩, rfl⟩

/-- A step on what was read, which may refuse it. -/
theorem step_iff {α β : Type} {x : Result α} {f : α → Result β} {R : α → Bytes → Prop} {b : β}
    (h : ∀ a, x = .ok a ↔ Behind response (R a)) :
    x >>= f = .ok b ↔ Behind response fun rest => ∃ a, R a rest ∧ f a = .ok b := by
  constructor
  · intro hx
    cases x with
    | error error => cases hx
    | ok a =>
      obtain ⟨rest, hresponse, hR⟩ := (h a).1 rfl
      exact ⟨rest, hresponse, a, hR, hx⟩
  · rintro ⟨rest, hresponse, a, hR, hb⟩
    rw [(h a).2 ⟨rest, hresponse, hR⟩]
    exact hb

/-- Nothing is behind the status. -/
theorem nothing_ok_iff (operation : String) (error : FitzError) :
    Decode.on (success operation >>= fun _ => isEmpty >>= fun empty =>
      if !empty then throw error else pure ()) response = .ok () ↔ Behind response (· = []) := by
  refine (success_ok_iff operation (RestReads.empties fun empty =>
    RestReads.ite ((!empty) = true) (RestReads.throw error) (RestReads.pure ()))).trans ?_
  exact Behind.congr fun rest => by simp

theorem queuePlainOk_ok_iff : decodeQueuePlainOk response = .ok () ↔ Behind response (· = []) :=
  nothing_ok_iff "Queue operation" _

theorem appendedOffset_iff {data : Bytes} {offset : Option UInt64} :
    appendedOffset data = .ok offset ↔
      data.length < 8 ∧ offset = none ∨ ∃ o, putU64 o <+: data ∧ offset = some o := by
  unfold appendedOffset
  split
  · rename_i hshort
    constructor
    · intro h
      cases h
      exact .inl ⟨hshort, rfl⟩
    · rintro (⟨-, rfl⟩ | ⟨o, hpre, -⟩)
      · rfl
      · have hlen := hpre.length_le
        rw [length_putU64] at hlen
        omega
  · rename_i hlong
    have hread : ∀ o, getU64.on data = .ok o ↔ putU64 o <+: data := fun o => front_u64.on_iff
    constructor
    · intro h
      cases ho : getU64.on data with
      | error error =>
        rw [ho] at h
        cases h
      | ok o =>
        rw [ho] at h
        cases h
        exact .inr ⟨o, (hread o).1 ho, rfl⟩
    · rintro (⟨hshort, -⟩ | ⟨o, hpre, rfl⟩)
      · exact absurd hshort hlong
      · rw [(hread o).2 hpre]
        rfl

theorem Operation.ok_iff {op : Operation} {decode : Bytes → Result CallResult}
    (h : op.decode = some decode) :
    decode response = .ok result ↔ Behind response fun rest => op.Yields result rest := by
  cases op with
  | kvGet key =>
    cases h
    have hvalue := RestReads.yields some (inverts_of_reads reads_getBytes)
    refine (wrapped_iff (g := CallResult.value) fun _ => success_ok_iff "KV GET"
      (RestReads.flag fun found => RestReads.ite (found = 1) hvalue (RestReads.pure none))).trans ?_
    refine Behind.congr fun rest => ?_
    constructor
    · rintro ⟨_, ⟨found, more, rfl, ⟨rfl, value, hshort, hpre, rfl⟩ | ⟨hfound, rfl⟩⟩, rfl⟩
      · exact .inl ⟨value, hshort, List.cons_prefix_cons.2 ⟨rfl, hpre⟩, rfl⟩
      · exact .inr ⟨found, hfound, List.prefix_append [found] more, rfl⟩
    · rintro (⟨value, hshort, ⟨more, rfl⟩, rfl⟩ | ⟨found, hfound, ⟨more, rfl⟩, rfl⟩)
      · exact ⟨some value, ⟨1, _, rfl, .inl ⟨rfl, value, hshort, List.prefix_append _ _, rfl⟩⟩, rfl⟩
      · exact ⟨none, ⟨found, more, rfl, .inr ⟨hfound, rfl⟩⟩, rfl⟩
  | kvPut | kvInsert | kvDelete | kvDeleteRange | kvCommit | kvRollback =>
    cases h
    exact (done_iff decodeOk_ok_iff).trans (Behind.congr fun rest => iff_of_eq (true_and _))
  | kvScan options =>
    cases h
    have hpage : ∀ page, decodeScanResponse.on response = .ok page ↔
        Behind response fun rest => FitsScanPage page ∧ putU8 0 ++ rest = putScanPage page := by
      intro page
      rw [list_pages_iff.1]
      constructor
      · rintro ⟨hfits, rfl⟩
        exact ⟨_, rfl, hfits, rfl⟩
      · rintro ⟨rest, rfl, hfits, heq⟩
        exact ⟨hfits, heq⟩
    refine (wrapped_iff (g := CallResult.scanned) hpage).trans (Behind.congr fun rest => ?_)
    exact exists_congr fun page => and_assoc
  | streamAppend expectedOffset body metadata discriminator =>
    cases h
    refine (step_iff fun _ => written_ok_iff (.inl rfl)).trans (Behind.congr fun rest => ?_)
    constructor
    · rintro ⟨p, ⟨-, hshort, hpre⟩, hoffset⟩
      refine ⟨p.data, hshort, hpre, ?_⟩
      cases ho : appendedOffset p.data with
      | error error =>
        rw [ho] at hoffset
        cases hoffset
      | ok offset =>
        rw [ho] at hoffset
        cases hoffset
        rcases appendedOffset_iff.1 ho with ⟨hlen, rfl⟩ | ⟨o, ho', rfl⟩
        · exact .inl ⟨hlen, rfl⟩
        · exact .inr ⟨o, ho', rfl⟩
    · rintro ⟨data, hshort, hpre, ⟨hlen, rfl⟩ | ⟨o, ho, rfl⟩⟩
      · refine ⟨⟨none, data⟩, ⟨rfl, hshort, hpre⟩, ?_⟩
        change appendedOffset data >>= _ = _
        rw [appendedOffset_iff.2 (.inl ⟨hlen, rfl⟩)]
        rfl
      · refine ⟨⟨none, data⟩, ⟨rfl, hshort, hpre⟩, ?_⟩
        change appendedOffset data >>= _ = _
        rw [appendedOffset_iff.2 (.inr ⟨o, ho, rfl⟩)]
        rfl
  | streamCommit mode =>
    cases h
    refine (wrapped_iff (g := fun _ => CallResult.done) fun _ => written_ok_iff (.inr rfl)).trans
      (Behind.congr fun rest => ?_)
    constructor
    · rintro ⟨p, ⟨-, hshort, hpre⟩, rfl⟩
      exact ⟨p.data, hshort, hpre, rfl⟩
    · rintro ⟨data, hshort, hpre, rfl⟩
      exact ⟨⟨none, data⟩, ⟨rfl, hshort, hpre⟩, rfl⟩
  | streamRollback =>
    cases h
    refine (wrapped_iff (g := fun _ => CallResult.done) fun _ => ended_ok_iff (.inl rfl)).trans
      (Behind.congr fun rest => ?_)
    constructor
    · rintro ⟨_, _, h⟩
      exact h
    · exact fun h => ⟨_, rfl, h⟩
  | leaseExtend ttlSecs =>
    cases h
    exact wrapped_iff (g := CallResult.renewed) fun _ => success_ok_iff "Lease RENEW" front_u64
  | leaseRelease =>
    cases h
    exact (done_iff (success_only_ok_iff "Lease RELEASE")).trans
      (Behind.congr fun rest => iff_of_eq (true_and _))
  | leaseDrop => cases h
  | queueExtend | queueComplete | queueNack =>
    cases h
    exact done_iff queuePlainOk_ok_iff

/-! ## Subscriptions -/

/-- An id, and nothing behind it. -/
theorem restReads_lastU64 (error : FitzError) : RestReads (do
    let id ← getU64
    if !(← isEmpty) then throw error
    return id) fun id rest => rest = putU64 id :=
  RestReads.whole reads_getU64 error

/-- A flag that must be one, and what is behind it. -/
theorem RestReads.flagOne {α : Type} {m : Decode α} {R : α → Bytes → Prop} (error : FitzError)
    (h : RestReads m R) :
    RestReads (getU8 >>= fun flag => if flag ≠ 1 then MonadExcept.throw error >>= fun _ : Unit => m
      else m) fun a rest => ∃ more, rest = 1 :: more ∧ R a more := by
  refine (RestReads.flag fun flag => RestReads.guard (flag ≠ 1) error h).congr fun a rest => ?_
  constructor
  · rintro ⟨flag, more, rfl, hflag, hR⟩
    obtain rfl := not_not.1 hflag
    exact ⟨more, rfl, hR⟩
  · rintro ⟨more, rfl, hR⟩
    exact ⟨1, more, rfl, not_not.2 rfl, hR⟩

theorem cons_front {bytes rest : Bytes} {b : UInt8} :
    (∃ more, rest = b :: more ∧ bytes <+: more) ↔ putU8 b ++ bytes <+: rest := by
  constructor
  · rintro ⟨more, rfl, hpre⟩
    exact List.cons_prefix_cons.2 ⟨rfl, hpre⟩
  · rintro ⟨more, rfl⟩
    exact ⟨bytes ++ more, rfl, List.prefix_append _ _⟩

theorem Topic.registers_iff {topic : Topic} {id : UInt64} :
    topic.decodeSubscriptionId response = .ok id ↔
      Behind response fun rest => topic.Registers id rest := by
  cases topic with
  | kv => exact success_ok_iff "KV SUBSCRIBE" front_u64
  | queue =>
    refine (success_ok_iff "Queue SUBSCRIBE" (RestReads.flagOne
      (.protocol "Queue SUBSCRIBE response missing subscription id") front_u64)).trans ?_
    exact Behind.congr fun rest => cons_front
  | lease =>
    exact success_ok_iff "Lease SUBSCRIBE"
      (restReads_lastU64 (.protocol "lease SUBSCRIBE response has trailing bytes"))
  | notice =>
    refine (success_ok_iff "NOTICE SUBSCRIBE" (RestReads.left fun n => RestReads.ite (n = 9)
      (RestReads.flagOne (.protocol "NOTICE SUBSCRIBE response omitted subscription id") front_u64)
        front_u64)).trans (Behind.congr fun rest => ?_)
    rw [cons_front]
    refine or_congr_left ⟨?_, fun heq => ?_⟩
    · rintro ⟨hlen, hpre⟩
      refine (hpre.eq_of_length ?_).symm
      rw [hlen, List.length_append, length_putU64]
      rfl
    · rw [heq]
      refine ⟨?_, List.prefix_refl _⟩
      rw [List.length_append, length_putU64]
      rfl
  | stream =>
    refine (step_iff fun _ => flagged_ok_iff (.inr rfl)).trans (Behind.congr fun rest => ?_)
    constructor
    · rintro ⟨⟨sessionId, data⟩, hdata, hid⟩
      cases sessionId with
      | none => cases hid
      | some id' =>
        cases hid
        exact ⟨data, hdata⟩
    · rintro ⟨data, hdata⟩
      exact ⟨⟨some id, data⟩, hdata, rfl⟩
  | schedule =>
    refine (success_ok_iff "Schedule SUBSCRIBE" (RestReads.flagOne
      (.protocol "schedule SUBSCRIBE response is missing subscription id")
        (restReads_lastU64 (.protocol "schedule SUBSCRIBE response has trailing bytes")))).trans ?_
    refine Behind.congr fun rest => ?_
    constructor
    · rintro ⟨_, rfl, rfl⟩
      rfl
    · rintro rfl
      exact ⟨_, rfl, rfl⟩

theorem Topic.ends_iff {topic : Topic} :
    topic.decodeUnsubscribe response = .ok () ↔ Behind response topic.Ends := by
  cases topic with
  | kv | notice => exact decodeOk_ok_iff
  | queue => exact queuePlainOk_ok_iff
  | lease => exact success_only_ok_iff "Lease UNSUBSCRIBE"
  | stream =>
    refine (step_iff fun _ => ended_ok_iff (.inr rfl)).trans (Behind.congr fun rest => ?_)
    exact iff_of_true ⟨_, rfl, rfl⟩ trivial
  | schedule => exact nothing_ok_iff "Schedule UNSUBSCRIBE" _

/-! ## Reads of a stream -/

theorem readPage_iff {data : Bytes} {route : String} {page : StreamReadPage} :
    parseStreamReadPageWithScope data route = .ok page ↔
      ∃ scope, classifyStreamSelector route = .ok scope ∧
        (data = [] ∧ page = ⟨[], ⟨0, none, none, none, none, none, false⟩⟩ ∨
          FitsPage (scope = .global) page ∧ data = putPage (scope = .global) page) := by
  cases hscope : classifyStreamSelector route with
  | error error =>
    have hfails : parseStreamReadPageWithScope data route = .error error := by
      unfold parseStreamReadPageWithScope
      rw [hscope]
      rfl
    rw [hfails]
    simp
  | ok scope =>
    have hone : ∀ P : StreamSelectorScope → Prop,
        (∃ scope', (.ok scope : Result StreamSelectorScope) = .ok scope' ∧ P scope') ↔ P scope := by
      intro P
      simp
    rw [hone]
    by_cases hdata : data = []
    · have hempty : parseStreamReadPageWithScope data route =
          .ok ⟨[], ⟨0, none, none, none, none, none, false⟩⟩ := by
        unfold parseStreamReadPageWithScope
        rw [hscope]
        change (if data = [] then _ else _) = _
        rw [if_pos hdata]
        rfl
      have hpage : ¬(FitsPage (scope = .global) page ∧ data = putPage (scope = .global) page) := by
        rintro ⟨-, heq⟩
        have hlen := congrArg List.length (hdata.symm.trans heq)
        rw [putPage, List.length_append, List.length_append, length_toBe, List.length_nil] at hlen
        omega
      rw [hempty, or_iff_left hpage, and_iff_right hdata, Except.ok.injEq]
      exact eq_comm
    · rw [stream_page_iff route data page scope hscope hdata]
      exact ⟨.inr, fun h => h.resolve_left fun hnil => hdata hnil.1⟩

theorem lastRecord_iff {data : Bytes} {route : String} {record : Option StreamRecord} :
    parseStreamLastResponse data route = .ok record ↔
      data = [] ∧ record = none ∨ ∃ r, StreamRoute route ∧ r.route = route ∧ FitsRecord false r ∧
        data = putRecord false r ∧ record = some r := by
  unfold parseStreamLastResponse
  by_cases hdata : data = []
  · have hrecord : ¬∃ r, StreamRoute route ∧ r.route = route ∧ FitsRecord false r ∧
        data = putRecord false r ∧ record = some r := by
      rintro ⟨r, -, -, -, heq, -⟩
      have hlen := congrArg List.length (hdata.symm.trans heq)
      rw [putRecord, List.length_append, length_putU64, List.length_nil] at hlen
      omega
    rw [if_pos hdata, or_iff_left hrecord, and_iff_right hdata]
    constructor
    · intro h
      cases h
      rfl
    · rintro rfl
      rfl
  · rw [if_neg hdata]
    have hread : RestReads (do
        let record ← decodeStreamRecord route false
        if !(← isEmpty) then throw (.protocol "LAST response has trailing bytes")
        return some record) fun record rest => ∃ r,
          ((r.route = route ∧ FitsRecord false r) ∧ rest = putRecord false r) ∧ record = some r := by
      have h := RestReads.map some (RestReads.whole (reads_record route false)
        (.protocol "LAST response has trailing bytes"))
      simp only [ended, bind_assoc] at h
      refine Eq.mp (congrArg (RestReads · _) ?_) h
      refine bind_congr fun r => bind_congr fun empty => ?_
      split
      · rfl
      · rfl
    constructor
    · intro h
      cases hvalid : validateResponseFixedRoute route "stream" 3 "LAST" with
      | error error =>
        rw [hvalid] at h
        cases h
      | ok u =>
        rw [hvalid] at h
        obtain ⟨r, ⟨⟨hroute, hfits⟩, heq⟩, hrecord⟩ := hread.on_iff.1 h
        exact .inr ⟨r, responseRoute_iff.1 hvalid, hroute, hfits, heq, hrecord⟩
    · rintro (⟨hnil, -⟩ | ⟨r, hroute, hr, hfits, heq, hrecord⟩)
      · exact absurd hnil hdata
      · rw [responseRoute_iff.2 hroute]
        exact hread.on_iff.2 ⟨r, ⟨⟨hr, hfits⟩, heq⟩, hrecord⟩

theorem restReads_metadata : RestReads decodeStreamMetadata fun m rest => ∃ first last,
    m.firstOffset = first.getD 0 ∧ m.lastOffset = last.getD 0 ∧ putMetadata first last m <+: rest := by
  have hread := reads_optionalU64.bind fun first => reads_optionalU64.bind fun last =>
    reads_getU64.bind fun count => reads_getU64.bind fun events => reads_getU64.bind fun bytes =>
      reads_optionalU64.bind fun ttl => reads_getU64.bind fun area =>
        Reads.map (fun realm => StreamMetadata.mk (first.getD 0) (last.getD 0) count events bytes ttl area
          realm) reads_getU64
  refine (RestReads.front hread).congr fun m rest => ?_
  constructor
  · rintro ⟨_, ⟨first, _, _, ⟨-, rfl⟩, ⟨last, _, _, ⟨-, rfl⟩, ⟨count, _, _, rfl, ⟨events, _, _, rfl,
      ⟨bytes, _, _, rfl, ⟨ttl, _, _, ⟨-, rfl⟩, ⟨area, _, _, rfl, ⟨realm, rfl, rfl⟩, rfl⟩, rfl⟩, rfl⟩,
        rfl⟩, rfl⟩, rfl⟩, rfl⟩, hpre⟩
    refine ⟨first, last, rfl, rfl, ?_⟩
    simpa only [putMetadata, List.append_assoc] using hpre
  · rintro ⟨first, last, hfirst, hlast, hpre⟩
    simp only [putMetadata, List.append_assoc] at hpre
    refine ⟨_, ⟨first, _, _, ⟨trivial, rfl⟩, ⟨last, _, _, ⟨trivial, rfl⟩, ⟨m.recordCount, _, _, rfl,
      ⟨m.maxBatchEvents, _, _, rfl, ⟨m.maxBatchBytes, _, _, rfl, ⟨m.ttlSeconds, _, _, ⟨trivial, rfl⟩,
        ⟨m.areaWatermark, _, _, rfl, ⟨m.realmWatermark, rfl, ?_⟩, rfl⟩, rfl⟩, rfl⟩, rfl⟩, rfl⟩, rfl⟩,
          rfl⟩, hpre⟩
    rw [← hfirst, ← hlast]

theorem metadata_iff {data : Bytes} {m : StreamMetadata} :
    streamMetadata data = .ok m ↔ data = [] ∧ m = ⟨0, 0, 0, 0, 0, none, 0, 0⟩ ∨
      ∃ first last, m.firstOffset = first.getD 0 ∧ m.lastOffset = last.getD 0 ∧
        putMetadata first last m <+: data := by
  unfold streamMetadata
  by_cases hdata : data = []
  · have hnone : ¬∃ first last, m.firstOffset = first.getD 0 ∧ m.lastOffset = last.getD 0 ∧
        putMetadata first last m <+: data := by
      rintro ⟨first, last, -, -, hpre⟩
      have hlen := congrArg List.length (List.prefix_nil.1 (hdata ▸ hpre))
      simp only [putMetadata, List.length_append, length_putU64, List.length_nil] at hlen
      omega
    rw [if_pos hdata, or_iff_left hnone, and_iff_right hdata, Except.ok.injEq]
    exact eq_comm
  · rw [if_neg hdata, restReads_metadata.on_iff]
    exact ⟨.inr, fun h => h.resolve_left fun hnil => hdata hnil.1⟩

/-! ## All of them -/

/-- What an operation makes of the data behind a status, where each result has its own. -/
theorem data_iff {α : Type} {x : Result StreamResponsePayload} {f : Bytes → Result α} {g : α → CallResult}
    {R : StreamResponsePayload → Bytes → Prop} {T : α → Bytes → Prop}
    (h : ∀ p, x = .ok p ↔ Behind response (R p)) (hf : ∀ data a, f data = .ok a ↔ T a data) :
    (x >>= fun p => f p.data >>= fun a => .ok (g a)) = .ok result ↔
      Behind response fun rest => ∃ p a, R p rest ∧ T a p.data ∧ result = g a := by
  refine (step_iff h).trans (Behind.congr fun rest => exists_congr fun p => ?_)
  constructor
  · rintro ⟨hR, hresult⟩
    cases ha : f p.data with
    | error error =>
      rw [ha] at hresult
      cases hresult
    | ok a =>
      rw [ha] at hresult
      cases hresult
      exact ⟨a, hR, (hf p.data a).1 ha, rfl⟩
  · rintro ⟨a, hR, hT, rfl⟩
    rw [(hf p.data a).2 hT]
    exact ⟨hR, rfl⟩

theorem restReads_leaseInfo : RestReads (do
    let held ← getU8
    if held = 1 then return (⟨true, some (← getString), some (← getU64), ← getU32⟩ : LeaseInfo)
    else return ⟨false, none, none, ← getU32⟩) fun info rest =>
      (∃ owner ttl waiters, owner.toUTF8.toList.length < 2 ^ 32 ∧
        putU8 1 ++ putString owner ++ putU64 ttl ++ putU32 waiters <+: rest ∧
          info = ⟨true, some owner, some ttl, waiters⟩) ∨
      ∃ held waiters, held ≠ 1 ∧ putU8 held ++ putU32 waiters <+: rest ∧
        info = ⟨false, none, none, waiters⟩ := by
  have hheld := RestReads.front (reads_getString.bind fun owner => reads_getU64.bind fun ttl =>
    Reads.map (fun waiters => LeaseInfo.mk true (some owner) (some ttl) waiters) reads_getU32)
  have hfree := RestReads.front (Reads.map (fun waiters => LeaseInfo.mk false none none waiters)
    reads_getU32)
  refine (RestReads.flag fun held => RestReads.ite (held = 1) hheld hfree).congr fun info rest => ?_
  constructor
  · rintro ⟨held, more, rfl, ⟨rfl, _, ⟨owner, _, _, ⟨rfl, howner⟩, ⟨ttl, _, _, rfl, ⟨waiters, rfl, rfl⟩,
      rfl⟩, rfl⟩, hpre⟩ | ⟨hheld, _, ⟨waiters, rfl, rfl⟩, hpre⟩⟩
    · refine .inl ⟨owner, ttl, waiters, howner, ?_, rfl⟩
      rw [List.append_assoc, List.append_assoc]
      exact List.cons_prefix_cons.2 ⟨rfl, hpre⟩
    · exact .inr ⟨held, waiters, hheld, List.cons_prefix_cons.2 ⟨rfl, hpre⟩, rfl⟩
  · rintro (⟨owner, ttl, waiters, howner, hpre, rfl⟩ | ⟨held, waiters, hheld, hpre, rfl⟩)
    · rw [List.append_assoc, List.append_assoc] at hpre
      obtain ⟨more, rfl, hmore⟩ := cons_front.2 hpre
      exact ⟨1, more, rfl, .inl ⟨rfl, _, ⟨owner, _, _, ⟨rfl, howner⟩, ⟨ttl, _, _, rfl,
        ⟨waiters, rfl, rfl⟩, rfl⟩, rfl⟩, hmore⟩⟩
    · obtain ⟨more, rfl, hmore⟩ := cons_front.2 hpre
      exact ⟨held, more, rfl, .inr ⟨hheld, _, ⟨waiters, rfl, rfl⟩, hmore⟩⟩

/-- **An operation succeeds exactly on the responses that its format writes.** Whatever the
operation and whatever the bytes, it returns a result if and only if the response is a status
of zero and data that hold this result; a format that is not read to its end is followed by
anything. -/
theorem results_exact (c : DomainCall) (generation : UInt64) (decode : Bytes → Result CallResult)
    (h : c.decode generation = some decode) (response : Bytes) (result : CallResult) :
    decode response = .ok result ↔
      ∃ rest, response = 0 :: rest ∧ c.Yields generation result rest := by
  cases c with
  | opening o =>
    cases h
    exact o.ok_iff
  | operation handle op => exact Operation.ok_iff h
  | subscribe topic pattern =>
    cases h
    exact wrapped_iff (g := CallResult.subscribed) fun _ => topic.registers_iff
  | unsubscribe topic pattern wireId =>
    cases h
    exact done_iff topic.ends_iff
  | enqueue route body options =>
    cases h
    refine (wrapped_iff (g := CallResult.enqueued) fun _ => success_ok_iff "Queue ENQUEUE"
      (RestReads.empties fun empty => RestReads.ite (empty = true) (RestReads.pure 0) front_u64)).trans
        (Behind.congr fun rest => ?_)
    constructor
    · rintro ⟨id, ⟨hempty, rfl⟩ | ⟨-, hpre⟩, rfl⟩
      · exact .inl ⟨List.isEmpty_iff.1 hempty, rfl⟩
      · exact .inr ⟨id, hpre, rfl⟩
    · rintro (⟨rfl, rfl⟩ | ⟨id, hpre, rfl⟩)
      · exact ⟨0, .inl ⟨rfl, rfl⟩, rfl⟩
      · refine ⟨id, .inr ⟨fun hempty => ?_, hpre⟩, rfl⟩
        have hlen := hpre.length_le
        rw [List.isEmpty_iff.1 hempty, length_putU64] at hlen
        exact absurd hlen (by decide)
  | leaseList pattern cursor limit =>
    cases h
    have hpage := RestReads.whole reads_listPage (.protocol "Lease LIST response has trailing bytes")
    rw [← decodeListPage_eq] at hpage
    refine (wrapped_iff (g := CallResult.leases) fun _ => success_ok_iff "Lease LIST" hpage).trans ?_
    exact Behind.congr fun rest => exists_congr fun page => and_assoc
  | leaseQuery route =>
    cases h
    refine (wrapped_iff (g := CallResult.info) fun _ => success_ok_iff "Lease QUERY"
      restReads_leaseInfo).trans (Behind.congr fun rest => ?_)
    constructor
    · rintro ⟨_, ⟨owner, ttl, waiters, howner, hpre, rfl⟩ | ⟨held, waiters, hheld, hpre, rfl⟩, rfl⟩
      · exact .inl ⟨owner, ttl, waiters, howner, hpre, rfl⟩
      · exact .inr ⟨held, waiters, hheld, hpre, rfl⟩
    · rintro (⟨owner, ttl, waiters, howner, hpre, rfl⟩ | ⟨held, waiters, hheld, hpre, rfl⟩)
      · exact ⟨_, .inl ⟨owner, ttl, waiters, howner, hpre, rfl⟩, rfl⟩
      · exact ⟨_, .inr ⟨held, waiters, hheld, hpre, rfl⟩, rfl⟩
  | publishWithAck | unsubscribeAll | registerWorker | deregister =>
    cases h
    exact (done_iff decodeOk_ok_iff).trans (Behind.congr fun rest => iff_of_eq (true_and _))
  | readPage route startOffset limit options =>
    cases h
    refine (data_iff (f := fun data => parseStreamReadPageWithScope data route)
      (g := CallResult.page) (fun _ => flagged_ok_iff (.inl rfl))
      fun data page => readPage_iff).trans (Behind.congr fun rest => ?_)
    constructor
    · rintro ⟨p, page, hdata, ⟨scope, hscope, hpage⟩, rfl⟩
      exact ⟨p.sessionId, p.data, scope, page, hdata, hscope, hpage, rfl⟩
    · rintro ⟨sessionId, data, scope, page, hdata, hscope, hpage, rfl⟩
      exact ⟨⟨sessionId, data⟩, page, hdata, ⟨scope, hscope, hpage⟩, rfl⟩
  | peek route =>
    cases h
    refine (data_iff (f := fun data => parseStreamLastResponse data route)
      (g := CallResult.record) (fun _ => whole_ok_iff (.inl rfl))
      fun data record => lastRecord_iff).trans (Behind.congr fun rest => ?_)
    constructor
    · rintro ⟨_, record, rfl, ⟨rfl, rfl⟩ | ⟨r, hroute, hr, hfits, rfl, rfl⟩, rfl⟩
      · exact .inl ⟨rfl, rfl⟩
      · exact .inr ⟨r, hroute, hr, hfits, rfl, rfl⟩
    · rintro (⟨rfl, rfl⟩ | ⟨r, hroute, hr, hfits, rfl, rfl⟩)
      · exact ⟨_, none, rfl, .inl ⟨rfl, rfl⟩, rfl⟩
      · exact ⟨_, some r, rfl, .inr ⟨r, hroute, hr, hfits, rfl, rfl⟩, rfl⟩
  | metadata route =>
    cases h
    refine (data_iff (f := streamMetadata) (g := CallResult.metadata) (fun _ => whole_ok_iff (.inr rfl))
      fun data m => metadata_iff).trans (Behind.congr fun rest => ?_)
    constructor
    · rintro ⟨_, m, rfl, ⟨rfl, rfl⟩ | ⟨first, last, hfirst, hlast, hpre⟩, rfl⟩
      · exact .inl ⟨rfl, rfl⟩
      · exact .inr ⟨first, last, m, hfirst, hlast, hpre, rfl⟩
    · rintro (⟨rfl, rfl⟩ | ⟨first, last, m, hfirst, hlast, hpre, rfl⟩)
      · exact ⟨_, _, rfl, .inl ⟨rfl, rfl⟩, rfl⟩
      · exact ⟨_, m, rfl, .inr ⟨first, last, hfirst, hlast, hpre⟩, rfl⟩
  | create | createBatch | cancelSchedule =>
    cases h
    exact done_iff (nothing_ok_iff _ _)
  | listV2 continuation limit =>
    cases h
    refine (wrapped_iff (g := CallResult.schedules) (R := fun page rest => FitsCursorPage page ∧
      rest = putCursorPage page) fun _ => listV2Answer_iff.trans ?_).trans
        (Behind.congr fun rest => exists_congr fun page => and_assoc)
    constructor
    · rintro ⟨hfits, rfl⟩
      exact ⟨_, rfl, hfits, rfl⟩
    · rintro ⟨_, rfl, hfits, rfl⟩
      exact ⟨hfits, rfl⟩
  | publish | call | respond | cancelCall | cleanup => cases h

/-- A free lease with three waiters; the last byte is not looked at. -/
theorem results_exact_query :
    ((DomainCall.leaseQuery "lease://a/b/c").decode 1).map
      (fun decode => decode [0, 0, 0, 0, 0, 3, 9]) = some (.ok (.info ⟨false, none, none, 3⟩)) := by
  have hpre : putU8 0 ++ putU32 3 <+: [0, 0, 0, 0, 3, 9] := by decide
  exact congrArg some ((results_exact (.leaseQuery "lease://a/b/c") 1 _ rfl [0, 0, 0, 0, 0, 3, 9]
    (.info ⟨false, none, none, 3⟩)).2 ⟨_, rfl, .inr ⟨0, 3, by decide, hpre, rfl⟩⟩)

end Fitz
