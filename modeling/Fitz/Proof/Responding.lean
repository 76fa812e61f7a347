import Fitz.Proof.Sends

/-!
# The sequence of responses

`respond` counts a response once `send` reports it, and a `send` that gives up may leave
its frame to be written later. `responses_sequenced`: in every run in which no response
is sent while one that was not counted is written or still in the channel, the frames
written for a request carry the numbers from 0 on, and only the last one ends it.
-/

namespace Fitz

open Machine

/-! ## Calls that are over -/

namespace Conn

variable {cfg : Config} {s : Conn} {t : Ticket}

/-- A call that is over stays so. -/
theorem ended_step (hfresh : t < s.nextTicket) (h : s.calls.lookup t = none) (e : Event) :
    (s.step cfg e).calls.lookup t = none := by
  cases hcall : (s.step cfg e).calls.lookup t with
  | none => rfl
  | some call =>
    rcases called_lookup hcall with hold | ⟨rfl, -⟩ | ⟨old, stage, hold, -⟩
    · rw [h] at hold
      cases hold
    · exact absurd hfresh (Nat.lt_irrefl _)
    · rw [h] at hold
      cases hold

/-- A call that has returned is over. -/
theorem lookup_abandon (s : Conn) (t : Ticket) : (s.abandon t).calls.lookup t = none := by
  unfold abandon
  split
  · unfold dropGuard
    split <;> simp [endCall]
  · assumption

theorem lookup_returnCall (cfg : Config) (s : Conn) (t : Ticket) :
    (s.returnCall cfg t).calls.lookup t = none := by
  unfold returnCall settled
  cases hfind : s.answers.find? (·.1 = t) with
  | none => exact lookup_abandon s t
  | some answer =>
    obtain ⟨t', r⟩ := answer
    simp only [Option.map_some, Option.isSome_some, if_true, step, resume, hfind]
    cases hcall : s.calls.lookup t with
    | none => simp [hcall]
    | some call =>
      cases r with
      | some r => simp [endCall]
      | none =>
        simp only [dropGuard]
        split <;> simp [endCall]

/-- A success that the caller finds is in its `oneshot`. -/
theorem answer_of_settled {payload : Bytes} (h : s.settled t = some (.ok payload)) :
    (t, some (.ok payload)) ∈ s.answers := by
  simp only [settled, Option.map_eq_some_iff] at h
  obtain ⟨⟨t', r⟩, hfind, hr⟩ := h
  have hkey : t' = t := by simpa using List.find?_some hfind
  subst hkey
  cases r with
  | none => cases hr
  | some r =>
    simp only [Option.getD_some] at hr
    rw [← hr]
    exact List.mem_of_find?_eq_some hfind

end Conn

/-! ## Sequences -/

/-- The frames carry their places, and only the last may end. -/
def Sequenced (l : List Response) : Prop :=
  ∀ k r, l[k]? = some r → r.sequence.toNat = k ∧ (r.isEnd = true → k + 1 = l.length)

theorem sequenced_nil : Sequenced [] := by simp [Sequenced]

theorem sequenced_concat {l : List Response} {r : Response} (h : Sequenced l)
    (hopen : ∀ r ∈ l, r.isEnd = false) (hr : r.sequence.toNat = l.length) :
    Sequenced (l ++ [r]) := by
  intro k r' hk
  rcases Nat.lt_trichotomy k l.length with hlt | rfl | hlt
  · rw [List.getElem?_append_left hlt] at hk
    have hno := hopen r' (List.mem_of_getElem? hk)
    exact ⟨(h k r' hk).1, fun hend => absurd hend (by simp [hno])⟩
  · simp only [List.getElem?_concat_length, Option.some.injEq] at hk
    rw [← hk]
    exact ⟨hr, fun _ => by simp⟩
  · rw [List.getElem?_eq_none (by simp; omega)] at hk
    cases hk

namespace Responding

variable {cfg : Config} {s : Responding}

/-! ## The condition -/

/-- The call goes as far as `send`. -/
def sends (s : Responding) : RespondingEvent → Bool
  | .respond _ _ | .finish =>
    s.stage = .idle && !s.finished && s.conn.shared.generation == s.generation
  | _ => false

/-- The frame of a response is written, or its command in the channel. -/
def lingers (s : Responding) (r : Response) : Bool :=
  r ∈ s.written || s.conn.commands.any fun c => c.response == r.ticket

/-- No response is sent while one that was not counted lingers, nor after `2 ^ 64`. -/
def Clear (s : Responding) (e : RespondingEvent) : Prop :=
  s.sends e = true →
    s.acked.length < 2 ^ 64 ∧ ∀ r ∈ s.responses, r ∉ s.acked → s.lingers r = false

instance : ∀ (s : Responding) (e : RespondingEvent), Decidable (s.Clear e) := fun s e =>
  inferInstanceAs (Decidable (s.sends e = true →
    s.acked.length < 2 ^ 64 ∧ ∀ r ∈ s.responses, r ∉ s.acked → s.lingers r = false))

/-! ## The invariant -/

/-- The response is the last that was sent. -/
def Latest (s : Responding) (r : Response) : Prop := s.responses.getLast? = some r

structure SequenceInv (s : Responding) : Prop where
  numbered : s.conn.Numbered
  sending : ∀ r ∈ s.responses, Conn.Sending r.ticket (decide (r ∈ s.written)) s.conn
  tickets : (s.responses.map (·.ticket)).Nodup
  known : ∀ r ∈ s.written, r ∈ s.responses
  awaited : ∀ r consumed, s.stage = .sending r consumed → s.Latest r ∧ r ∉ s.acked
  returned : ∀ r ∈ s.responses, (∀ consumed, s.stage ≠ .sending r consumed) →
    s.conn.calls.lookup r.ticket = none
  queued : ∀ r ∈ s.responses, ¬s.Latest r → ∀ c ∈ s.conn.commands, c.response ≠ r.ticket
  count : s.nextSequence = UInt64.ofNat s.acked.length
  opened : s.finished = false → ∀ r ∈ s.acked, r.isEnd = false
  sequenced : Sequenced s.acked
  written : s.written = s.acked ∨ ∃ r, s.Latest r ∧ r ∉ s.acked ∧ s.written = s.acked ++ [r]
  latest : ∀ r, s.Latest r → r ∉ s.acked →
    r.sequence.toNat = s.acked.length ∧ s.finished = false

theorem sequenceInv_start {conn : Conn} (h : conn.Numbered) (correlationId : Bytes)
    (generation : UInt64) : SequenceInv (start conn correlationId generation) where
  numbered := h
  sending := by simp [start]
  tickets := by simp [start]
  known := by simp [start]
  awaited := by simp [start]
  returned := by simp [start]
  queued := by simp [start]
  count := rfl
  opened := by simp [start]
  sequenced := sequenced_nil
  written := .inl rfl
  latest := by simp [start, Latest]

theorem Latest.mem {r : Response} (h : s.Latest r) : r ∈ s.responses := List.mem_of_getLast? h

/-- What was counted was written. -/
theorem SequenceInv.acked_written (h : SequenceInv s) {r : Response} (hr : r ∈ s.acked) :
    r ∈ s.written := by
  rcases h.written with heq | ⟨r', -, -, heq⟩
  · rw [heq]
    exact hr
  · rw [heq]
    exact List.mem_append_left _ hr

/-- A response is named by its ticket. -/
theorem SequenceInv.eq_of_ticket (h : SequenceInv s) {r r' : Response} (hr : r ∈ s.responses)
    (hr' : r' ∈ s.responses) (heq : r.ticket = r'.ticket) : r = r' :=
  List.inj_on_of_nodup_map h.tickets hr hr' heq

/-- What is transmitted is the latest response, which was not written. -/
theorem SequenceInv.transmitted (h : SequenceInv s) {e : Event} {r : Response}
    (hr : r ∈ s.responses) (htransmitted : s.conn.transmitted e = some r.ticket) :
    s.Latest r ∧ r ∉ s.written := by
  obtain ⟨-, -, id, generation, messageType, payload, cs, hcs⟩ := Conn.transmitted_some htransmitted
  have hmem : Command.send id generation messageType payload r.ticket ∈ s.conn.commands := by
    rw [hcs]
    exact List.mem_cons_self
  constructor
  · by_contra hold
    exact h.queued r hr hold _ hmem rfl
  · intro hwritten
    have hsent := (h.sending r hr).once (by simpa using hwritten)
    exact hsent.1 _ hmem rfl

/-- **The law of the frames** follows. -/
theorem SequenceInv.law (h : SequenceInv s) : Sequenced s.written := by
  rcases h.written with heq | ⟨r, hlatest, hnot, heq⟩
  · rw [heq]
    exact h.sequenced
  · obtain ⟨hseq, hopen⟩ := h.latest r hlatest hnot
    rw [heq]
    exact sequenced_concat h.sequenced (h.opened hopen) hseq

/-! ## Steps -/

/-- The frames of a step of the connection. -/
theorem SequenceInv.transmits (h : SequenceInv s) (e : Event) :
    (s.responses.filter fun r => s.conn.transmitted e = some r.ticket) = [] ∨
      ∃ r, s.conn.transmitted e = some r.ticket ∧ s.Latest r ∧ r ∉ s.written ∧
        (s.responses.filter fun r => s.conn.transmitted e = some r.ticket) = [r] := by
  rcases List.eq_nil_or_concat
    (s.responses.filter fun r => s.conn.transmitted e = some r.ticket) with hnil | ⟨l, r, hl⟩
  · exact .inl hnil
  · have hmem : ∀ r', r' ∈ l ++ [r] →
        r' ∈ s.responses ∧ s.conn.transmitted e = some r'.ticket := by
      intro r' hr'
      rw [← List.concat_eq_append, ← hl] at hr'
      simpa using hr'
    obtain ⟨hr, htransmitted⟩ := hmem r (by simp)
    obtain ⟨hlatest, hnot⟩ := h.transmitted hr htransmitted
    refine .inr ⟨r, htransmitted, hlatest, hnot, ?_⟩
    -- no other response has the ticket
    have hall : ∀ r' ∈ l ++ [r], r' = r := by
      intro r' hr'
      obtain ⟨hr'', ht⟩ := hmem r' hr'
      exact h.eq_of_ticket hr'' hr (Option.some.inj (ht.symm.trans htransmitted))
    have hnodup : (l ++ [r]).Nodup := by
      rw [← List.concat_eq_append, ← hl]
      exact (List.Nodup.of_map _ h.tickets).filter _
    cases l with
    | nil => simpa using hl
    | cons r' l =>
      have hr' := hall r' (by simp)
      rw [hr', List.cons_append, List.nodup_cons] at hnodup
      exact absurd (List.mem_append_right l (List.mem_singleton_self r)) hnodup.1

/-- The connection takes a step. -/
theorem SequenceInv.conn (h : SequenceInv s) (cfg : Config) (e : Event) :
    SequenceInv (s.connStep cfg e) where
  numbered := Conn.numbered_step cfg s.conn e h.numbered
  sending := by
    intro r hr
    have hstep := Conn.sending_step cfg h.numbered.base (h.sending r hr) e
    have hsame : (decide (r ∈ s.written) || decide (s.conn.transmitted e = some r.ticket)) =
        decide (r ∈ (s.connStep cfg e).written) := by
      have hr' : r ∈ s.responses := hr
      simp [connStep, hr']
    rw [← hsame]
    exact hstep
  tickets := h.tickets
  known := by
    intro r hr
    rcases List.mem_append.1 hr with hr | hr
    · exact h.known r hr
    · exact (List.mem_filter.1 hr).1
  awaited := h.awaited
  returned := fun r hr hstage =>
    Conn.ended_step (h.sending r hr).fresh (h.returned r hr hstage) e
  queued := by
    intro r hr hold c hc hresponse
    have hover : s.conn.calls.lookup r.ticket = none :=
      h.returned r hr fun consumed hstage => hold (h.awaited r consumed hstage).1
    rcases Conn.pushed_step hc with hc | hnew | ⟨call, g, hcall, -⟩
    · exact h.queued r hr hold c hc hresponse
    · have hfresh := (h.sending r hr).fresh
      rw [← hresponse, hnew.1] at hfresh
      exact absurd hfresh (Nat.lt_irrefl _)
    · rw [hresponse, hover] at hcall
      cases hcall
  count := h.count
  opened := h.opened
  sequenced := h.sequenced
  written := by
    rcases h.transmits e with hnone | ⟨r, -, hlatest, hnot, hone⟩
    · have hsame : (s.connStep cfg e).written = s.written := by simp [connStep, hnone]
      rw [hsame]
      exact h.written
    · have hmore : (s.connStep cfg e).written = s.written ++ [r] := by simp [connStep, hone]
      refine .inr ⟨r, hlatest, fun hacked => hnot (h.acked_written hacked), ?_⟩
      rw [hmore]
      rcases h.written with heq | ⟨r', hlatest', -, heq⟩
      · rw [heq]
        rfl
      · have hsame : r' = r := Option.some.inj (hlatest'.symm.trans hlatest)
        rw [heq, hsame] at hnot
        simp at hnot
  latest := h.latest

/-- A step of the connection that transmits nothing. -/
theorem connStep_silent {e : Event} (he : s.conn.transmitted e = none) :
    s.connStep cfg e = { s with conn := s.conn.step cfg e } := by
  simp [connStep, he]

/-- The call gives up, or the request is dropped. -/
theorem SequenceInv.idle (h : SequenceInv s) {stage : RespondingStage}
    (hstage : ∀ r consumed, stage ≠ .sending r consumed)
    (hover : ∀ r consumed, s.stage = .sending r consumed → s.conn.calls.lookup r.ticket = none) :
    SequenceInv { s with stage := stage } where
  numbered := h.numbered
  sending := h.sending
  tickets := h.tickets
  known := h.known
  awaited := fun r consumed heq => absurd heq (hstage r consumed)
  returned := by
    intro r hr _
    by_cases hawaited : ∃ consumed, s.stage = .sending r consumed
    · obtain ⟨consumed, heq⟩ := hawaited
      exact hover r consumed heq
    · exact h.returned r hr fun consumed heq => hawaited ⟨consumed, heq⟩
  queued := h.queued
  count := h.count
  opened := h.opened
  sequenced := h.sequenced
  written := h.written
  latest := h.latest

/-- `send` succeeded. -/
theorem SequenceInv.succeed (h : SequenceInv s) {response : Response} {consumed : Bool}
    (hstage : s.stage = .sending response consumed) (hwritten : response ∈ s.written)
    (hover : s.conn.calls.lookup response.ticket = none) {stage : RespondingStage}
    (hidle : ∀ r consumed, stage ≠ .sending r consumed) :
    SequenceInv { s with
      stage := stage
      nextSequence := s.nextSequence + 1
      finished := response.isEnd
      acked := s.acked ++ [response] } := by
  obtain ⟨hlatest, hnot⟩ := h.awaited response consumed hstage
  obtain ⟨hseq, hopen⟩ := h.latest response hlatest hnot
  have hall : s.written = s.acked ++ [response] := by
    rcases h.written with heq | ⟨r, hlatest', -, heq⟩
    · rw [heq] at hwritten
      exact absurd hwritten hnot
    · have hsame : r = response := Option.some.inj (hlatest'.symm.trans hlatest)
      rw [heq, hsame]
  have hopened := h.opened hopen
  have hi := h.idle hidle (by
    intro r consumed' heq
    rw [hstage] at heq
    cases heq
    exact hover)
  exact {
    numbered := hi.numbered
    sending := hi.sending
    tickets := hi.tickets
    known := hi.known
    awaited := fun r consumed heq => absurd heq (hidle r consumed)
    returned := hi.returned
    queued := hi.queued
    count := by
      have hcount := h.count
      simp only [List.length_append, List.length_singleton]
      rw [hcount, Conn.ofNat_succ]
    opened := by
      intro hend r hr
      rcases List.mem_append.1 hr with hr | hr
      · exact hopened r hr
      · rw [List.mem_singleton.1 hr]
        exact hend
    sequenced := sequenced_concat h.sequenced hopened hseq
    written := .inl hall
    latest := by
      intro r hr hnot'
      have hsame : r = response := Option.some.inj (hr.symm.trans hlatest)
      rw [hsame] at hnot'
      simp at hnot' }

/-- A response is sent, when none that was not counted lingers. -/
theorem SequenceInv.respond (h : SequenceInv s) (body : Bytes) (isEnd consumed : Bool)
    (hidle : s.stage = .idle)
    (hclear : s.finished = false → s.conn.shared.generation = s.generation →
      s.acked.length < 2 ^ 64 ∧ ∀ r ∈ s.responses, r ∉ s.acked → s.lingers r = false) :
    SequenceInv (s.respond cfg body isEnd consumed) := by
  unfold Responding.respond
  split
  · refine h.idle ?_ (by simp [hidle])
    intro r c
    split <;> simp
  · rename_i hgo
    obtain ⟨hfinished, hgeneration⟩ := not_or.1 hgo
    have hopen : s.finished = false := by simpa using hfinished
    obtain ⟨hlen, hlingers⟩ := hclear hopen (not_not.1 hgeneration)
    have hstep := h.conn cfg (.allocate .send MessageType.rpcResponse (s.payload body isEnd))
    rw [connStep_silent rfl] at hstep
    have hcommands : (s.conn.step cfg
        (.allocate .send MessageType.rpcResponse (s.payload body isEnd))).commands =
          s.conn.commands := by
      simp only [Conn.step, Conn.allocate]
      split <;> rfl
    have hnew : ∀ r ∈ s.responses, r.ticket ≠ s.conn.nextTicket := fun r hr heq =>
      absurd (heq ▸ (h.sending r hr).fresh) (Nat.lt_irrefl _)
    have hall : s.written = s.acked := by
      rcases h.written with heq | ⟨r, hlatest, hnot, heq⟩
      · exact heq
      · have hno := hlingers r hlatest.mem hnot
        rw [lingers, heq] at hno
        simp at hno
    exact {
      numbered := hstep.numbered
      sending := by
        intro r hr
        rcases List.mem_append.1 hr with hr | hr
        · exact hstep.sending r hr
        · rw [List.mem_singleton.1 hr]
          have hfresh : (⟨s.conn.nextTicket, s.nextSequence, isEnd⟩ : Response) ∉ s.written :=
            fun hmem => hnew _ (h.known _ hmem) rfl
          simpa [hfresh] using Conn.sending_allocate h.numbered MessageType.rpcResponse
            (s.payload body isEnd)
      tickets := by
        rw [List.map_append, List.nodup_append]
        refine ⟨h.tickets, List.nodup_singleton _, ?_⟩
        intro t ht t' ht'
        obtain ⟨r, hr, rfl⟩ := List.mem_map.1 ht
        rw [List.mem_singleton.1 ht']
        exact hnew r hr
      known := fun r hr => List.mem_append_left _ (h.known r hr)
      awaited := by
        intro r c heq
        cases heq
        refine ⟨by simp [Latest], fun hacked => ?_⟩
        exact hnew _ (h.known _ (h.acked_written hacked)) rfl
      returned := by
        intro r hr hstage
        rcases List.mem_append.1 hr with hr | hr
        · exact hstep.returned r hr (by simp [hidle])
        · exact absurd rfl (List.mem_singleton.1 hr ▸ hstage consumed)
      queued := by
        intro r hr hold c hc hresponse
        rw [hcommands] at hc
        rcases List.mem_append.1 hr with hr | hr
        · by_cases hacked : r ∈ s.acked
          · have hsent := (h.sending r hr).once (by simpa using h.acked_written hacked)
            exact hsent.1 c hc hresponse
          · have hno := hlingers r hr hacked
            simp only [lingers, Bool.or_eq_false_iff, List.any_eq_false, beq_iff_eq] at hno
            exact hno.2 c hc hresponse
        · rw [List.mem_singleton.1 hr] at hold
          exact hold (by simp [Latest])
      count := h.count
      opened := h.opened
      sequenced := h.sequenced
      written := .inl hall
      latest := by
        intro r hr _
        simp only [Latest, List.getLast?_append, List.getLast?_singleton, Option.some_or,
          Option.some.injEq] at hr
        rw [← hr]
        refine ⟨?_, hopen⟩
        have hcount := h.count
        simp only
        rw [hcount, UInt64.toNat_ofNat', Nat.mod_eq_of_lt hlen] }

/-- **One step keeps the invariant.** -/
theorem sequenceInv_step (s : Responding) (e : RespondingEvent) (h : SequenceInv s)
    (hclear : s.Clear e) : SequenceInv (s.step cfg e) := by
  cases e with
  | conn e =>
    simp only [step]
    split
    · exact h.conn cfg e
    · exact h
  | respond body isEnd =>
    simp only [step]
    split
    · rename_i hidle
      refine h.respond body isEnd false hidle fun hfinished hgeneration => hclear ?_
      simp [sends, hidle, hfinished, hgeneration]
    · exact h
  | finish =>
    simp only [step]
    split
    · rename_i hidle
      split
      · exact h.idle (by simp) (by simp [hidle])
      · refine h.respond [] true true hidle fun hfinished hgeneration => hclear ?_
        simp [sends, hidle, hfinished, hgeneration]
    · exact h
  | returned error =>
    simp only [step]
    split
    · rename_i response consumed hstage
      have hstep := h.conn cfg
        (if (s.conn.settled response.ticket).isSome then .resume response.ticket
          else .abandon response.ticket)
      rw [connStep_silent (by split <;> rfl)] at hstep
      have hover : (s.conn.returnCall cfg response.ticket).calls.lookup response.ticket = none :=
        Conn.lookup_returnCall cfg s.conn response.ticket
      have hidle : ∀ r c, (if consumed then RespondingStage.dropped else .idle) ≠ .sending r c := by
        intro r c
        split <;> simp
      unfold conclude
      cases hanswer : (s.conn.settled response.ticket).getD (.error error) with
      | ok payload =>
        have hsettled : s.conn.settled response.ticket = some (.ok payload) := by
          cases hs : s.conn.settled response.ticket with
          | none =>
            rw [hs] at hanswer
            cases hanswer
          | some r =>
            rw [hs] at hanswer
            exact congrArg some hanswer
        obtain ⟨hlatest, -⟩ := h.awaited response consumed hstage
        have hwritten := (h.sending response hlatest.mem).answered payload
          (Conn.answer_of_settled hsettled)
        exact hstep.succeed hstage (by simpa using hwritten) hover hidle
      | error error =>
        refine hstep.idle hidle ?_
        intro r c heq
        have hsame : r = response := by
          have heq' : s.stage = .sending r c := heq
          rw [hstage] at heq'
          cases heq'
          rfl
        rw [hsame]
        exact hover
    · exact h
  | cancelled =>
    simp only [step]
    split
    · rename_i response consumed hstage
      have hstep := h.conn cfg (.abandon response.ticket)
      rw [connStep_silent rfl] at hstep
      refine hstep.idle ?_ ?_
      · intro r c
        split <;> simp
      · intro r c heq
        have heq' : s.stage = .sending r c := heq
        rw [hstage] at heq'
        cases heq'
        exact Conn.lookup_abandon s.conn response.ticket
    · exact h
  | drop =>
    simp only [step]
    split
    · rename_i hidle
      exact h.idle (by simp) (by simp [hidle])
    · exact h

end Responding

open Responding in
/-- **Response sequencing.** In every run in which nothing is sent for a request while
a response that was not counted lingers, the frames written for it are numbered from 0
on, and only the last may end it. -/
theorem responses_sequenced (cfg : Config) (before : List Event) (correlationId : Bytes)
    (generation : UInt64) (es : List RespondingEvent)
    (h : Along (Responding.step cfg) Clear
      (start (run (Conn.step cfg) (.new cfg) before) correlationId generation) es) :
    Sequenced (run (Responding.step cfg)
      (start (run (Conn.step cfg) (.new cfg) before) correlationId generation) es).written :=
  (along_inv sequenceInv_step
    (sequenceInv_start (Conn.numbered_run cfg before) correlationId generation) h).law

/-! ## Runs -/

/-- A request received in the first session. -/
def receivedRequest : Responding :=
  .start (run (Conn.step ⟨4, ⟨true, 0⟩⟩) (.new ⟨4, ⟨true, 0⟩⟩) (firstSession 8))
    (List.replicate 16 7) 0

/-- The command of the call is put into the channel. -/
def responseQueued (t : Ticket) : List RespondingEvent := [.conn (.stamp t), .conn (.enqueue t)]

/-- Two responses, the second of which ends. -/
def respondedRun : List RespondingEvent :=
  .respond [1] false :: responseQueued 1 ++ [.conn (.command (.ok ())), .returned .timeout] ++
    .finish :: responseQueued 2 ++ [.conn (.command (.ok ())), .returned .timeout]

theorem responses_sequenced_two :
    (run (Responding.step ⟨4, ⟨true, 0⟩⟩) receivedRequest respondedRun).written =
        [⟨1, 0, false⟩, ⟨2, 1, true⟩] ∧
      Sequenced (run (Responding.step ⟨4, ⟨true, 0⟩⟩) receivedRequest respondedRun).written :=
  ⟨by decide +kernel, responses_sequenced ⟨4, ⟨true, 0⟩⟩ (firstSession 8) (List.replicate 16 7) 0
    respondedRun (by decide +kernel)⟩

/-- A response is dropped with its command in the channel, and another one sent. -/
def overtakenResponse (isEnd : Bool) : List RespondingEvent :=
  .respond [1] isEnd :: responseQueued 1 ++ .cancelled :: .respond [2] false :: responseQueued 2 ++
    [.conn (.command (.ok ())), .conn (.command (.ok ()))]

/-- The number is written twice, and a frame after the end. -/
theorem response_repeated :
    ((run (Responding.step ⟨4, ⟨true, 0⟩⟩) receivedRequest (overtakenResponse false)).written =
        [⟨1, 0, false⟩, ⟨2, 0, false⟩] ∧
      ¬Sequenced (run (Responding.step ⟨4, ⟨true, 0⟩⟩) receivedRequest
        (overtakenResponse false)).written) ∧
    (run (Responding.step ⟨4, ⟨true, 0⟩⟩) receivedRequest (overtakenResponse true)).written =
        [⟨1, 0, true⟩, ⟨2, 0, false⟩] ∧
      ¬Sequenced (run (Responding.step ⟨4, ⟨true, 0⟩⟩) receivedRequest
        (overtakenResponse true)).written := by
  have hrepeated : (run (Responding.step ⟨4, ⟨true, 0⟩⟩) receivedRequest
      (overtakenResponse false)).written = [⟨1, 0, false⟩, ⟨2, 0, false⟩] := by decide +kernel
  have hended : (run (Responding.step ⟨4, ⟨true, 0⟩⟩) receivedRequest
      (overtakenResponse true)).written = [⟨1, 0, true⟩, ⟨2, 0, false⟩] := by decide +kernel
  refine ⟨⟨hrepeated, ?_⟩, hended, ?_⟩
  · rw [hrepeated]
    intro hlaw
    exact absurd (hlaw 1 ⟨2, 0, false⟩ rfl).1 (by decide)
  · rw [hended]
    intro hlaw
    exact absurd ((hlaw 0 ⟨1, 0, true⟩ rfl).2 rfl) (by decide)

end Fitz
