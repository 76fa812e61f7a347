import Fitz.Lib.Outputs
import Fitz.Proof.Calls
import Fitz.Proof.ResponseStream

/-!
# What a caller hears of its worker

`responses_delivered`: in every run of an `RpcResponseStream`, with whatever responses on its
channel, what `poll_next` returns of them are those of its own call, each once, in
order and as they were written; and behind a terminal response, a timeout, a lost
connection or an overflow nothing but the end is returned.
-/

namespace Fitz

open Framing Machine

/-! ## A response -/

/-- An RPC_RESPONSE that a worker writes. -/
structure WorkerResponse where
  correlationId : CorrelationId
  sequence : UInt64
  isEnd : Bool
  body : Bytes

namespace WorkerResponse

def payload (r : WorkerResponse) : Bytes := respondPayload r.correlationId r.sequence r.isEnd r.body

/-- What its caller makes of it: the last body may be one that reports an error. -/
def heard (r : WorkerResponse) : ResponsePolled :=
  if r.isEnd then
    match decodeTerminalError r.body with
    | some error => .terminal (.error error)
    | none => .terminal (.ok ⟨r.body, r.sequence⟩)
  else .frame ⟨r.body, r.sequence⟩

end WorkerResponse

/-- A check between two reads. -/
theorem RestReads.guard {α : Type} {m : Decode α} {R : α → Bytes → Prop} (refused : Prop)
    [Decidable refused] (error : FitzError) {f : Unit → Decode α} (h : RestReads m R) :
    RestReads (if refused then MonadExcept.throw error >>= f else m) fun a rest =>
      ¬refused ∧ R a rest := by
  have hfails : RestReads (MonadExcept.throw error >>= f) fun _ _ => False := by
    intro buf pos a _
    refine iff_of_false ?_ id
    rintro ⟨d, hrun⟩
    obtain ⟨_, _, hthrow, -⟩ := Decode.bind_ok hrun
    cases hthrow
  refine (hfails.ite refused h).congr fun a rest => ?_
  simp only [and_false, false_or]

/-- The fields of a response, behind its correlation id. -/
theorem restReads_responseFrame : RestReads decodeRpcResponseFrame fun r rest =>
    r.2.2.length < 2 ^ 32 ∧
      rest = putU64 r.1 ++ putU8 (if r.2.1 then 1 else 0) ++ putBytes r.2.2 := by
  refine (RestReads.after reads_getU64 fun sequence => RestReads.after reads_getU8 fun flags =>
    RestReads.guard (flags ≠ 0 ∧ flags ≠ 1) _ (RestReads.after reads_getBytes fun body =>
      RestReads.checked (sequence, flags == 1, body) _ (fun empty => (!empty) = true))).congr
        fun r rest => ?_
  constructor
  · rintro ⟨sequence, _, _, rfl, ⟨flags, _, _, rfl, ⟨hflags, body, _, z, ⟨rfl, hshort⟩, ⟨rfl, hempty⟩, rfl⟩,
      rfl⟩, rfl⟩
    have hnil : z = [] := by simpa using hempty
    have hbyte : (if (flags == 1) = true then (1 : UInt8) else 0) = flags := by
      rcases eq_or_ne flags 1 with rfl | hone
      · rfl
      · have hzero : flags = 0 := by
          by_contra hne
          exact hflags ⟨hne, hone⟩
        rw [hzero]
        rfl
    refine ⟨hshort, ?_⟩
    dsimp only
    rw [hbyte, hnil, List.append_nil, List.append_assoc]
  · obtain ⟨sequence, isEnd, body⟩ := r
    rintro ⟨hshort, rfl⟩
    refine ⟨sequence, _, _, rfl, ⟨if isEnd then 1 else 0, _, _, rfl, ⟨?_, body, _, [], ⟨rfl, hshort⟩,
      ⟨?_, by simp⟩, (List.append_nil _).symm⟩, rfl⟩, List.append_assoc _ _ _⟩
    · cases isEnd <;> decide
    · cases isEnd <;> rfl

/-- The decoding in `receive_response`. -/
def ownResponse (correlationId : Bytes) : Decode (Option (UInt64 × Bool × Bytes)) := do
  let id ← getSlice 16
  if id ≠ correlationId then return none
  return some (← decodeRpcResponseFrame)

theorem restReads_ownResponse (correlationId : Bytes) : RestReads (ownResponse correlationId)
    fun result rest => ∃ id tail, id.length = 16 ∧ rest = id ++ tail ∧
      (id ≠ correlationId ∧ result = none ∨ id = correlationId ∧ ∃ sequence isEnd body,
        body.length < 2 ^ 32 ∧ result = some (sequence, isEnd, body) ∧
          tail = putU64 sequence ++ putU8 (if isEnd then 1 else 0) ++ putBytes body) := by
  refine (RestReads.after (reads_getSlice 16) fun id =>
    RestReads.ite (id ≠ correlationId) (RestReads.pure (none : Option (UInt64 × Bool × Bytes)))
      (restReads_responseFrame.map some)).congr fun result rest => ?_
  constructor
  · rintro ⟨_, id, tail, ⟨rfl, hid⟩,
      ⟨hother, rfl⟩ | ⟨hown, ⟨sequence, isEnd, body⟩, ⟨hshort, htail⟩, rfl⟩, rfl⟩
    · exact ⟨_, tail, hid, rfl, .inl ⟨hother, rfl⟩⟩
    · exact ⟨_, tail, hid, rfl, .inr ⟨not_not.1 hown, sequence, isEnd, body, hshort, rfl, htail⟩⟩
  · rintro ⟨id, tail, hid, rfl, ⟨hother, rfl⟩ | ⟨hown, sequence, isEnd, body, hshort, rfl, htail⟩⟩
    · exact ⟨id, _, tail, ⟨rfl, hid⟩, .inl ⟨hother, rfl⟩, rfl⟩
    · exact ⟨id, _, tail, ⟨rfl, hid⟩,
        .inr ⟨not_not.2 hown, (sequence, isEnd, body), ⟨hshort, htail⟩, rfl⟩, rfl⟩

/-- A response of another call is passed over. -/
theorem receiveResponse_other {correlationId payload : Bytes}
    (h : (ownResponse correlationId).on payload = .ok none) :
    receiveResponse correlationId payload = none := by
  rw [receiveResponse, ← ownResponse, h]

theorem receiveResponse_own {correlationId payload : Bytes} {r : WorkerResponse}
    (h : (ownResponse correlationId).on payload = .ok (some (r.sequence, r.isEnd, r.body))) :
    receiveResponse correlationId payload = some r.heard := by
  rw [receiveResponse, ← ownResponse, h]
  dsimp only
  rw [WorkerResponse.heard]
  cases r.isEnd with
  | false => rfl
  | true => cases decodeTerminalError r.body <;> rfl

/-- A response as it was written is heard by its own caller. -/
theorem receiveResponse_payload (id : CorrelationId) {r : WorkerResponse} (h : r.body.length < 2 ^ 32) :
    receiveResponse id.bytes r.payload = if r.correlationId = id then some r.heard else none := by
  have hpayload : r.payload = r.correlationId.bytes ++
      (putU64 r.sequence ++ putU8 (if r.isEnd then 1 else 0) ++ putBytes r.body) := by
    simp only [WorkerResponse.payload, respondPayload, List.append_assoc]
  by_cases hown : r.correlationId = id
  · have hread := (restReads_ownResponse id.bytes).on_iff.2
      ⟨_, _, r.correlationId.length_eq, hpayload, .inr ⟨congrArg CorrelationId.bytes hown,
        r.sequence, r.isEnd, r.body, h, rfl, rfl⟩⟩
    rw [receiveResponse_own hread, if_pos hown]
  · have hother : r.correlationId.bytes ≠ id.bytes := fun heq => hown (Wire.eq_of_bytes heq)
    have hread := (restReads_ownResponse id.bytes).on_iff.2
      ⟨_, _, r.correlationId.length_eq, hpayload, .inl ⟨hother, rfl⟩⟩
    rw [receiveResponse_other hread, if_neg hown]

/-! ## The stream -/

namespace ResponsePolled

/-- It was made of a payload. -/
def read : ResponsePolled → Bool
  | .frame _ | .terminal _ | .failed _ => true
  | _ => false

/-- Nothing but the end comes behind it. -/
def closes : ResponsePolled → Bool
  | .terminal _ | .connectionClosed | .timedOut | .overflow => true
  | _ => false

end ResponsePolled

/-- `poll_next` found the stream open. -/
def OwnerStage.polling : OwnerStage → Bool
  | .pollParent | .pollTimeout | .receiving | .leaving _ => true
  | .abandoning kind _ | .spawning kind _ => kind ≠ .dropped
  | _ => false

/-- And has since closed it. -/
def OwnerStage.closing : OwnerStage → Bool
  | .leaving _ => true
  | .abandoning kind _ | .spawning kind _ => kind ≠ .dropped
  | _ => false

theorem OwnerStage.polling_of_closing {owner : OwnerStage} (h : owner.closing = true) :
    owner.polling = true := by
  cases owner with
  | leaving => rfl
  | abandoning | spawning => exact h
  | _ => cases h

namespace RpcResponseStream

variable {s s' : RpcResponseStream} {callId : Bytes} {payloads : List Bytes}

/-- The payload that `poll_next` takes out of its receiver in the step. -/
def taken (s : RpcResponseStream) : CallEvent → List Bytes
  | .receive (.payload payload) => if s.owner = .receiving then [payload] else []
  | _ => []

/-- What `poll_next` is about to return of a payload. -/
def arriving (s : RpcResponseStream) : List ResponsePolled :=
  match s.owner with
  | .leaving polled => [polled].filter (·.read)
  | _ => []

structure ReadInv (callId : Bytes) (payloads : List Bytes) (s : RpcResponseStream) : Prop where
  own : s.correlationId = callId
  read : s.polled.filter (·.read) ++ s.arriving = payloads.filterMap (receiveResponse callId)
  /-- an open stream has returned nothing that closes it -/
  quiet : s.finished = false ∨ s.owner.polling = true → ∀ polled ∈ s.polled, polled.closes = false
  finished : s.owner.closing = true → s.finished = true
  last : ∀ front polled back, s.polled = front ++ polled :: back → polled.closes = true →
    ∀ later ∈ back, later = .ended

theorem readInv_start (callId : Bytes) (timed parented : Bool) :
    ReadInv callId [] (start callId timed parented) where
  own := rfl
  read := rfl
  quiet := by
    intro _ polled hpolled
    cases hpolled
  finished := by
    intro h
    cases h
  last := by
    intro front polled back h
    exact absurd h.symm (List.append_ne_nil_of_right_ne_nil _ (List.cons_ne_nil _ _))

theorem arriving_eq_nil (h : ∀ polled, s.owner ≠ .leaving polled) : s.arriving = [] := by
  unfold arriving
  split
  · rename_i polled howner
    exact absurd howner (h polled)
  · rfl

/-- Unless it has one ready, `poll_next` has returned all it made of payloads. -/
theorem ReadInv.returned (h : ReadInv callId payloads s) (hfrom : ∀ polled, s.owner ≠ .leaving polled) :
    s.polled.filter (·.read) ++ [] = payloads.filterMap (receiveResponse callId) := by
  have hread := h.read
  rwa [arriving_eq_nil hfrom] at hread

/-- A step that returns nothing. -/
theorem ReadInv.went (h : ReadInv callId payloads s) {payloads' : List Bytes}
    (hown : s'.correlationId = s.correlationId) (hpolled : s'.polled = s.polled)
    (hread : s.polled.filter (·.read) ++ s'.arriving = payloads'.filterMap (receiveResponse callId))
    (hfinished : s.finished = true → s'.finished = true)
    (hpolling : s'.owner.polling = true → s.finished = false ∨ s.owner.polling = true)
    (hclosing : s'.owner.closing = true → s'.finished = true) : ReadInv callId payloads' s' where
  own := hown.trans h.own
  read := by rw [hpolled, hread]
  quiet := by
    intro hopen
    rw [hpolled]
    refine h.quiet ?_
    rcases hopen with hopen | hopen
    · by_cases hold : s.finished = true
      · rw [hfinished hold] at hopen
        cases hopen
      · exact .inl (Bool.not_eq_true _ ▸ hold)
    · exact hpolling hopen
  finished := hclosing
  last := by
    rw [hpolled]
    exact h.last

/-- A step of another task. -/
theorem ReadInv.side (h : ReadInv callId payloads s) (hown : s'.correlationId = s.correlationId)
    (hpolled : s'.polled = s.polled) (howner : s'.owner = s.owner)
    (hfinished : s'.finished = s.finished) : ReadInv callId payloads s' := by
  have harriving : s'.arriving = s.arriving := by
    unfold arriving
    rw [howner]
  refine h.went hown hpolled (by rw [harriving, h.read]) (fun hold => hfinished.trans hold) ?_ ?_
  · rw [howner]
    exact .inr
  · rw [howner, hfinished]
    exact h.finished

/-- The owner leaves `poll_next`, or was not in it. -/
theorem ReadInv.turn (h : ReadInv callId payloads s) (hown : s'.correlationId = s.correlationId)
    (hpolled : s'.polled = s.polled) (hfinished : s.finished = true → s'.finished = true)
    (hfrom : ∀ polled, s.owner ≠ .leaving polled) (hto : s'.owner.polling = false) :
    ReadInv callId payloads s' := by
  have harriving : s'.arriving = s.arriving := by
    rw [arriving_eq_nil hfrom, arriving_eq_nil]
    intro polled howner
    rw [howner] at hto
    cases hto
  refine h.went hown hpolled (by rw [harriving, h.read]) hfinished ?_ ?_
  · intro hpolling
    rw [hto] at hpolling
    cases hpolling
  · intro hclose
    rw [OwnerStage.polling_of_closing hclose] at hto
    cases hto

/-- `poll_next` returns. -/
theorem ReadInv.yield (h : ReadInv callId payloads s) {polled : ResponsePolled} {payloads' : List Bytes}
    (hread : s.polled.filter (·.read) ++ [polled].filter (·.read) =
      payloads'.filterMap (receiveResponse callId))
    (hquiet : polled = .ended ∨ s.finished = false ∨ s.owner.polling = true)
    (hcloses : polled.closes = true → s.finished = true) : ReadInv callId payloads' (s.yield polled) where
  own := h.own
  read := by
    show (s.polled ++ [polled]).filter (·.read) ++ [] = _
    rw [List.append_nil, List.filter_append, hread]
  quiet := by
    rintro (hopen | hopen)
    · intro p hp
      rcases List.mem_append.1 hp with hp | hp
      · exact h.quiet (.inl hopen) p hp
      · rw [List.mem_singleton.1 hp]
        by_contra hclose
        have hfinished : s.finished = true := hcloses (Bool.not_eq_false _ ▸ hclose)
        rw [show s.finished = false from hopen] at hfinished
        cases hfinished
    · cases hopen
  finished := by
    intro hclosing
    cases hclosing
  last := by
    intro front p back heq hclose later hlater
    rcases List.eq_nil_or_concat' back with rfl | ⟨back, x, rfl⟩
    · cases hlater
    · have hsplit : s.polled ++ [polled] = (front ++ p :: back) ++ [x] := by
        rw [List.append_assoc, List.cons_append]
        exact heq
      obtain ⟨hold, hx⟩ := List.append_inj' hsplit rfl
      have hmem : p ∈ s.polled := by
        rw [hold]
        exact List.mem_append_right _ List.mem_cons_self
      -- only the end is returned behind it
      have hended : polled = .ended := by
        rcases hquiet with hended | hopen
        · exact hended
        · rw [h.quiet hopen p hmem] at hclose
          cases hclose
      rcases List.mem_append.1 hlater with hlater | hlater
      · exact h.last front p back hold hclose later hlater
      · rw [List.mem_singleton.1 hlater, ← List.singleton_inj.1 hx, hended]

theorem ReadInv.poll (h : ReadInv callId payloads s) (howner : s.owner = .idle) :
    ReadInv callId payloads s.poll := by
  have hread := h.returned (by simp [howner])
  unfold RpcResponseStream.poll
  by_cases hfinished : s.finished = true
  · rw [if_pos hfinished]
    exact h.yield hread (.inl rfl) fun hclosing => by cases hclosing
  rw [if_neg hfinished]
  have hopen : s.finished = false := Bool.not_eq_true _ ▸ hfinished
  split
  · exact h.went rfl rfl hread (fun _ => rfl) (fun _ => .inl hopen) fun _ => rfl
  · exact h.went rfl rfl hread id (fun _ => .inl hopen) fun hclosing => by cases hclosing

theorem ReadInv.receive (h : ReadInv callId payloads s) (howner : s.owner = .receiving)
    (input : ResponseInput) :
    ReadInv callId (payloads ++ s.taken (.receive input)) (s.receive input) := by
  have hfrom : ∀ polled, s.owner ≠ .leaving polled := by simp [howner]
  have hread := h.returned hfrom
  have hpolling : s.owner.polling = true := by
    rw [howner]
    rfl
  cases input with
  | pending =>
    rw [show s.taken (.receive .pending) = [] from rfl, List.append_nil]
    exact h.turn rfl rfl id hfrom rfl
  | lagged =>
    rw [show s.taken (.receive .lagged) = [] from rfl, List.append_nil]
    exact h.went rfl rfl hread (fun _ => rfl) (fun _ => .inr hpolling) fun _ => rfl
  | closed =>
    rw [show s.taken (.receive .closed) = [] from rfl, List.append_nil]
    exact h.yield hread (.inl rfl) fun hclosing => by cases hclosing
  | payload payload =>
    have htaken : s.taken (.receive (.payload payload)) = [payload] := if_pos howner
    have hmade : (payloads ++ [payload]).filterMap (receiveResponse callId) =
        payloads.filterMap (receiveResponse callId) ++ (receiveResponse callId payload).toList := by
      rw [List.filterMap_append]
      cases hreceived : receiveResponse callId payload <;> simp [hreceived]
    have hkind : ∀ polled, receiveResponse callId payload = some polled → polled.read = true := by
      intro polled hpolled
      unfold receiveResponse at hpolled
      split at hpolled
      · cases hpolled
        rfl
      · cases hpolled
      · split at hpolled
        · split at hpolled <;> cases hpolled <;> rfl
        · cases hpolled
          rfl
    have hsame : receiveResponse s.correlationId payload = receiveResponse callId payload := by rw [h.own]
    rw [htaken]
    simp only [RpcResponseStream.receive, hsame]
    cases hreceived : receiveResponse callId payload with
    | none =>
      refine h.went rfl rfl ?_ id .inr h.finished
      rw [hmade, hreceived, h.read]
      exact (List.append_nil _).symm
    | some polled =>
      have hone : [polled].filter (·.read) = [polled] := by
        rw [List.filter_cons_of_pos (hkind polled hreceived), List.filter_nil]
      rw [hreceived] at hmade
      cases polled with
      | terminal result =>
        refine h.went rfl rfl ?_ (fun _ => rfl) (fun _ => .inr hpolling) fun _ => rfl
        rw [hmade, ← hread, List.append_nil]
        rfl
      | frame | failed =>
        refine h.yield ?_ (.inr (.inr hpolling)) fun hclosing => by cases hclosing
        rw [hmade, ← hread, List.append_nil, hone]
        rfl
      | connectionClosed | timedOut | overflow | ended => cases hkind _ hreceived

theorem ReadInv.finish (h : ReadInv callId payloads s) (kind : EndKind) (runtime : Bool) :
    ReadInv callId payloads (s.finish kind runtime) ∧ (s.finish kind runtime).owner = s.owner := by
  unfold RpcResponseStream.finish
  split
  · exact ⟨h.side rfl rfl rfl rfl, rfl⟩
  · exact ⟨h, rfl⟩

theorem ReadInv.spawnOnce (h : ReadInv callId payloads s) (reason : UInt8) (runtime : Bool) :
    ReadInv callId payloads (s.spawnOnce reason runtime) ∧ (s.spawnOnce reason runtime).owner = s.owner := by
  unfold RpcResponseStream.spawnOnce
  split
  · exact ⟨h, rfl⟩
  · exact ⟨h.side rfl rfl rfl rfl, rfl⟩

/-- The end of `abandon` or `drop`. -/
theorem ReadInv.abandoned (h : ReadInv callId payloads s) {kind : EndKind} {reason : UInt8}
    (howner : s.owner = .spawning kind reason) : ReadInv callId payloads (s.abandoned kind) := by
  have hfrom : ∀ polled, s.owner ≠ .leaving polled := by simp [howner]
  have hread := h.returned hfrom
  cases kind with
  | timedOut | lagged =>
    refine h.yield hread (.inr (.inr ?_)) fun _ => h.finished ?_
    · rw [howner]
      rfl
    · rw [howner]
      rfl
  | parentCanceled => exact h.yield hread (.inl rfl) fun hclosing => by cases hclosing
  | canceled | dropped => exact h.turn rfl rfl id hfrom rfl

theorem ReadInv.advance (h : ReadInv callId payloads s) (runtime : Bool) (taken : Result Unit) :
    ReadInv callId payloads (s.advance runtime taken) := by
  cases howner : s.owner with
  | pollParent | pollTimeout =>
    have hfrom : ∀ polled, s.owner ≠ .leaving polled := by simp [howner]
    have hread := h.returned hfrom
    have hpolling : s.owner.polling = true := by
      rw [howner]
      rfl
    simp only [RpcResponseStream.advance, howner]
    split
    · exact h.went rfl rfl hread (fun _ => rfl) (fun _ => .inr hpolling) fun _ => rfl
    · exact h.went rfl rfl hread id (fun _ => .inr hpolling) fun hclosing => by cases hclosing
  | leaving polled =>
    have hread := h.read
    have hpolling : s.owner.polling = true := by
      rw [howner]
      rfl
    have hfinished : s.finished = true := by
      refine h.finished ?_
      rw [howner]
      rfl
    simp only [arriving, howner] at hread
    have hyield : ∀ s' : RpcResponseStream, s'.correlationId = s.correlationId → s'.polled = s.polled →
        s'.owner = s.owner → s'.finished = s.finished → ReadInv callId payloads (s'.yield polled) := by
      intro s' hown hpolled howner' hfinished'
      refine (h.side hown hpolled howner' hfinished').yield ?_ (.inr (.inr ?_)) fun _ => ?_
      · rw [hpolled, hread]
      · rw [howner', hpolling]
      · rw [hfinished', hfinished]
    simp only [RpcResponseStream.advance, howner]
    exact hyield _ rfl rfl howner.symm rfl
  | abandoning kind reason =>
    have hfrom : ∀ polled, s.owner ≠ .leaving polled := by simp [howner]
    have hread := h.returned hfrom
    simp only [RpcResponseStream.advance, howner]
    refine h.went rfl rfl hread id (fun hpolling => .inr ?_) fun hclosing => h.finished ?_
    · rw [howner]
      exact hpolling
    · rw [howner]
      exact hclosing
  | spawning kind reason =>
    simp only [RpcResponseStream.advance, howner]
    obtain ⟨hspawned, howner'⟩ := h.spawnOnce reason runtime
    obtain ⟨hended, howner''⟩ := hspawned.finish kind runtime
    exact hended.abandoned ((howner''.trans howner').trans howner)
  | swapping =>
    have hfrom : ∀ polled, s.owner ≠ .leaving polled := by simp [howner]
    simp only [RpcResponseStream.advance, howner]
    split
    · exact h.turn rfl rfl id hfrom rfl
    · exact h.turn rfl rfl id hfrom rfl
  | sending =>
    have hfrom : ∀ polled, s.owner ≠ .leaving polled := by simp [howner]
    simp only [RpcResponseStream.advance, howner]
    cases taken with
    | ok value => exact h.turn rfl rfl id hfrom rfl
    | error error => exact h.turn rfl rfl (fun _ => rfl) hfrom rfl
  | settling outcome =>
    have hfrom : ∀ polled, s.owner ≠ .leaving polled := by simp [howner]
    have hsettled : ∀ s' : RpcResponseStream, s'.correlationId = s.correlationId → s'.polled = s.polled →
        s'.owner = s.owner → s'.finished = s.finished →
          ReadInv callId payloads ((s'.finish .canceled true).goto .idle) := by
      intro s' hown hpolled howner' hfinished
      obtain ⟨hended, howner''⟩ := (h.side hown hpolled howner' hfinished).finish .canceled true
      refine hended.turn rfl rfl id (fun polled => ?_) rfl
      rw [howner'', howner']
      exact hfrom polled
    simp only [RpcResponseStream.advance, howner]
    exact hsettled _ rfl rfl howner.symm rfl
  | disposing =>
    have hfrom : ∀ polled, s.owner ≠ .leaving polled := by simp [howner]
    simp only [RpcResponseStream.advance, howner]
    exact h.turn rfl rfl id hfrom rfl
  | idle | receiving | awaitingSend | awaitingResult | gone =>
    simp only [RpcResponseStream.advance, howner]
    exact h

theorem readInv_step (payloads : List Bytes) (s : RpcResponseStream) (e : CallEvent)
    (h : ReadInv callId payloads s) : ReadInv callId (payloads ++ s.taken e) (s.step e) := by
  cases e with
  | receive input =>
    by_cases howner : s.owner = .receiving
    · simp only [step, if_pos howner]
      exact h.receive howner input
    · have hnone : s.taken (.receive input) = [] := by
        cases input with
        | payload payload => exact if_neg howner
        | _ => rfl
      simp only [step, if_neg howner]
      rw [hnone, List.append_nil]
      exact h
  | expire | cancelParent | changeGeneration =>
    rw [show s.taken _ = [] from rfl, List.append_nil]
    exact h.side rfl rfl rfl rfl
  | deadlineTask toCancel taken | parentTask toCancel taken =>
    rw [show s.taken _ = [] from rfl, List.append_nil]
    exact h.side rfl rfl rfl rfl
  | spawnedTask taken =>
    rw [show s.taken _ = [] from rfl, List.append_nil]
    simp only [step, spawnedStep]
    split
    · exact h.side rfl rfl rfl rfl
    · exact h
  | poll =>
    rw [show s.taken _ = [] from rfl, List.append_nil]
    by_cases howner : s.owner = .idle
    · simp only [step, if_pos howner]
      exact h.poll howner
    · simp only [step, if_neg howner]
      exact h
  | cancel =>
    rw [show s.taken _ = [] from rfl, List.append_nil]
    by_cases howner : s.owner = .idle
    · simp only [step, if_pos howner, RpcResponseStream.cancel]
      split
      · exact h
      · split
        · exact h
        · exact h.turn rfl rfl id (by simp [howner]) rfl
    · simp only [step, if_neg howner]
      exact h
  | sent result =>
    rw [show s.taken _ = [] from rfl, List.append_nil]
    by_cases howner : s.owner = .awaitingSend
    · have hfrom : ∀ polled, s.owner ≠ .leaving polled := by simp [howner]
      simp only [step, if_pos howner]
      split
      · exact h.turn rfl rfl id hfrom rfl
      · exact h.turn rfl rfl (fun _ => rfl) hfrom rfl
    · simp only [step, if_neg howner]
      exact h
  | await result =>
    rw [show s.taken _ = [] from rfl, List.append_nil]
    by_cases howner : s.owner = .awaitingResult
    · have hfrom : ∀ polled, s.owner ≠ .leaving polled := by simp [howner]
      have hsettle : ∀ outcome, ReadInv callId payloads (s.settle outcome) :=
        fun outcome => h.turn rfl rfl (fun _ => rfl) hfrom rfl
      simp only [step, if_pos howner]
      cases result with
      | received payload =>
        simp only [awaited]
        split
        · exact hsettle _
        · exact h
      | lagged => exact h
      | elapsed => exact hsettle _
      | connectionClosed =>
        simp only [awaited]
        split
        · exact hsettle _
        · exact h
    · simp only [step, if_neg howner]
      exact h
  | abort =>
    rw [show s.taken _ = [] from rfl, List.append_nil]
    by_cases howner : s.owner = .awaitingSend ∨ s.owner = .awaitingResult
    · simp only [step, if_pos howner]
      refine h.turn rfl rfl id (fun polled => ?_) rfl
      rcases howner with howner | howner
      · simp [howner]
      · simp [howner]
    · simp only [step, if_neg howner]
      exact h
  | drop =>
    rw [show s.taken _ = [] from rfl, List.append_nil]
    by_cases howner : s.owner = .idle
    · have hfrom : ∀ polled, s.owner ≠ .leaving polled := by simp [howner]
      simp only [step, if_pos howner]
      split
      · exact h.turn rfl rfl id hfrom rfl
      · exact h.turn rfl rfl id hfrom rfl
    · simp only [step, if_neg howner]
      exact h
  | advance runtime taken =>
    rw [show s.taken _ = [] from rfl, List.append_nil]
    exact h.advance runtime taken

end RpcResponseStream

/-- **A caller hears its worker, and no other.** In every run of the stream of a call, with
whatever payloads on its channel and however it is cancelled, timed out or dropped: what
`poll_next` returns of payloads, and is about to return, are the responses of its own call,
each once and in the order in which they came; where workers wrote the payloads, they are what
its own worker wrote. Behind a terminal response, a lost connection, a timeout or an
overflow it returns nothing but the end. -/
theorem responses_delivered (id : CorrelationId) (timed parented : Bool) (es : List CallEvent) :
    let start := RpcResponseStream.start id.bytes timed parented
    let s := run RpcResponseStream.step start es
    let payloads := outputs RpcResponseStream.step RpcResponseStream.taken start es
    s.polled.filter (·.read) ++ s.arriving = payloads.filterMap (receiveResponse id.bytes) ∧
    (∀ responses : List WorkerResponse, (∀ r ∈ responses, r.body.length < 2 ^ 32) →
      payloads = responses.map WorkerResponse.payload →
        s.polled.filter (·.read) ++ s.arriving =
          (responses.filter (·.correlationId = id)).map WorkerResponse.heard) ∧
    ∀ front polled back, s.polled = front ++ polled :: back → polled.closes = true →
      ∀ later ∈ back, later = .ended := by
  intro start s payloads
  have hinv : RpcResponseStream.ReadInv id.bytes payloads s :=
    outputs_inv RpcResponseStream.readInv_step (RpcResponseStream.readInv_start id.bytes timed parented) es
  refine ⟨hinv.read, ?_, hinv.last⟩
  intro responses hshort hpayloads
  rw [hinv.read, hpayloads, List.filterMap_map]
  have hheard : ∀ r ∈ responses, (receiveResponse id.bytes ∘ WorkerResponse.payload) r =
      if r.correlationId = id then some r.heard else none :=
    fun r hr => receiveResponse_payload id (hshort r hr)
  calc responses.filterMap (receiveResponse id.bytes ∘ WorkerResponse.payload)
    _ = responses.filterMap fun r => if r.correlationId = id then some r.heard else none :=
        List.filterMap_congr hheard
    _ = (responses.filter (·.correlationId = id)).filterMap (some ∘ WorkerResponse.heard) := by
        simp only [List.filterMap_filter, decide_eq_true_eq, Function.comp_apply]
    _ = (responses.filter (·.correlationId = id)).map WorkerResponse.heard := by rw [List.filterMap_eq_map]

end Fitz
