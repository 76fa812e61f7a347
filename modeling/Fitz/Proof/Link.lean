import Fitz.Model.Link
import Fitz.Proof.Reader
import Fitz.Proof.History

/-!
# What the connection reads of its transport

As long as no read that holds bytes is dropped, and the broker writes whole frames, the
reader stands at the first byte of a frame of the broker (`Intact`) until the transport
ends: a read that completes is the next frame the broker wrote (`intact_carry`). What a
broker promised of its frames where it wrote them then holds where they are read
(`vouched_step`), so that a result on `Conn` whose condition is about the frames read
becomes one about the frames written.
-/

namespace Fitz

open Machine Framing

/-- The broker writes one frame of admissible size. -/
def Reply.Framed (reply : Reply) : Transport → Prop
  | .tcp => FrameSize (reply.frame .tcp) ∧ reply.bytes = writeTcpFrame (reply.frame .tcp)
  | .webSocket => True

instance (reply : Reply) (transport : Transport) : Decidable (reply.Framed transport) :=
  match transport with
  | .tcp => inferInstanceAs (Decidable (_ ∧ _))
  | .webSocket => isTrue trivial

namespace Link

variable {cfg : Config} {s : Link}

/-! ## Whole frames -/

/-- The reader stands where the broker began a frame, and every frame from there on is
whole. -/
structure Intact (s : Link) : Prop where
  into : s.into = 0
  future : s.future.Ok
  still : s.transport = .webSocket → s.future = .new
  bytes : s.transport = .tcp →
    s.replies.flatMap (·.bytes) = s.future.held ++ (s.socket ++ s.transit)
  framed : ∀ r ∈ s.replies, r.Framed s.transport
  order : s.written.map (·.frame s.transport) =
    s.frames ++ s.replies.map (·.frame s.transport)

/-- The broker has closed its end and all that arrived is taken. -/
structure Drained (s : Link) : Prop where
  transport : s.transport = .tcp
  eof : s.eof = true
  socket : s.socket = []
  future : s.future = .new
  order : s.frames <+: s.written.map (·.frame s.transport)

/-- What the broker wrote has been read frame by frame and, until it closes its end, lies
whole before the reader otherwise. -/
def Undiscarded (s : Link) : Prop :=
  s.frames <+: s.written.map (·.frame s.transport) ∧
    (s.eof = false →
      s.written.map (·.frame s.transport) = s.frames ++ s.replies.map (·.frame s.transport) ∧
        (s.transport = .tcp →
          s.replies.flatMap (·.bytes) = s.future.held ++ (s.socket ++ s.transit)))

theorem intact_fresh (transport : Transport) (conn : Conn) : (fresh transport conn).Intact where
  into := rfl
  future := new_ok
  still := fun _ => rfl
  bytes := fun _ => rfl
  framed := by simp [fresh]
  order := rfl

/-- The pieces behind a whole frame. -/
theorem skip_frame {reply : Reply} {replies : List Reply}
    (hframed : ∀ r ∈ replies, r.Framed .tcp) :
    skip (reply :: replies) reply.bytes.length = (replies, 0) := by
  rw [skip, if_pos le_rfl, Nat.sub_self]
  cases replies with
  | nil => rfl
  | cons next replies =>
    obtain ⟨-, hbytes⟩ := hframed next List.mem_cons_self
    have hpos : ¬ next.bytes.length ≤ 0 := by
      rw [Nat.le_zero, List.length_eq_zero_iff, hbytes]
      exact writeTcpFrame_ne_nil _
    rw [skip, if_neg hpos]

theorem flatMap_bytes {replies : List Reply} (hframed : ∀ r ∈ replies, r.Framed .tcp) :
    replies.flatMap (·.bytes) = stream writeTcpFrame (replies.map (·.frame .tcp)) := by
  rw [stream, List.flatMap_map]
  exact List.flatMap_congr fun r hr => (hframed r hr).2

/-- A WebSocket stream gives the message in front, whole, or its end, or nothing yet. -/
theorem read_webSocket (ht : s.transport = .webSocket) {polled : Polled} {rest : Bytes}
    (hread : s.read = (polled, rest)) :
    (∃ reply replies, s.replies = reply :: replies ∧
      polled = .ready (.ok (reply.frame .webSocket))) ∨
    (s.eof = true ∧ polled = .ready (.error .connectionClosed)) ∨
    (polled = .pending s.future ∧ rest = s.socket) := by
  simp only [read, ht] at hread
  split at hread
  · rename_i reply replies hreplies
    split at hread
    · cases hread
      exact .inl ⟨reply, replies, hreplies, rfl⟩
    · split at hread
      · rename_i heof
        cases hread
        exact .inr (.inl ⟨heof, rfl⟩)
      · cases hread
        exact .inr (.inr ⟨rfl, rfl⟩)
  · split at hread
    · rename_i heof
      cases hread
      exact .inr (.inl ⟨heof, rfl⟩)
    · cases hread
      exact .inr (.inr ⟨rfl, rfl⟩)

/-- **A read that completes is the broker's next frame.** -/
theorem Intact.read_ok (h : s.Intact) {frame rest : Bytes}
    (hread : s.read = (.ready (.ok frame), rest)) :
    ∃ reply replies, s.replies = reply :: replies ∧ frame = reply.frame s.transport ∧
      (s.complete (.ok frame) rest).replies = replies ∧ (s.complete (.ok frame) rest).Intact := by
  obtain ⟨transport, conn, future, socket, eof, transit, replies, into, frames, written, cuts⟩ := s
  obtain rfl : into = 0 := h.into
  cases transport with
  | tcp =>
    have hspec := poll_spec h.future socket eof
    have hrest := poll_rest future socket eof
    simp only [read] at hread
    rw [hread] at hspec hrest
    obtain ⟨hsize, hheld⟩ := hspec
    have hframed : ∀ r ∈ replies, r.Framed .tcp := h.framed
    have hbytes : replies.flatMap (·.bytes) = future.held ++ (socket ++ transit) := h.bytes rfl
    rw [← List.append_assoc, hheld, List.append_assoc, flatMap_bytes hframed] at hbytes
    -- frames are prefix-free, so the one that was read is the first of the stream
    obtain ⟨gs, hgs, -⟩ := stream_head writeTcpFrame_prefixFree writeTcpFrame_ne_nil hsize
      (fun g hg => by
        obtain ⟨r, hr, rfl⟩ := List.mem_map.1 hg
        exact (hframed r hr).1) (by rw [hbytes])
    obtain ⟨reply, replies, rfl, hreply, rfl⟩ := List.map_eq_cons_iff.1 hgs
    have htail : ∀ r ∈ replies, r.Framed .tcp := fun r hr => hframed r (List.mem_cons_of_mem _ hr)
    have hwhole : reply.bytes = writeTcpFrame frame := by
      rw [← hreply]
      exact (hframed reply List.mem_cons_self).2
    -- the bytes taken are those of the piece in front
    have hlen : future.held.length + (socket.length - rest.length) = reply.bytes.length := by
      have htotal := congrArg List.length hheld
      have hle : rest.length ≤ socket.length := hrest.length_le
      simp only [List.length_append] at htotal
      rw [hwhole]
      omega
    have hskip : skip (reply :: replies)
        (0 + (future.held.length + (socket.length - rest.length))) = (replies, 0) := by
      rw [Nat.zero_add, hlen]
      exact skip_frame htail
    refine ⟨reply, replies, rfl, hreply.symm, ?_, ?_⟩
    · simp only [complete, pass, hskip]
    · refine ⟨?_, new_ok, fun _ => rfl, fun _ => ?_, ?_, ?_⟩
      · simp only [complete, pass, hskip]
      · rw [List.map_cons, stream_cons, hreply] at hbytes
        simp only [complete, pass, hskip]
        rw [flatMap_bytes htail]
        exact List.append_cancel_left hbytes
      · simpa only [complete, pass, hskip] using htail
      · have horder := h.order
        simp only [List.map_cons, hreply] at horder
        simp only [complete, pass, hskip, Except.toOption, Option.toList_some, List.append_assoc,
          List.singleton_append]
        exact horder
  | webSocket =>
    rcases read_webSocket rfl hread with ⟨reply, rest', rfl, hframe⟩ | ⟨-, hend⟩ | ⟨hnone, -⟩
    · cases hframe
      refine ⟨reply, rest', rfl, rfl, rfl, rfl, h.future, h.still, fun hne => (by cases hne), ?_, ?_⟩
      · exact fun r hr => h.framed r (List.mem_cons_of_mem _ hr)
      · have horder := h.order
        simp only [List.map_cons] at horder
        simp only [complete, List.tail_cons, List.append_assoc, List.singleton_append]
        exact horder
    · cases hend
    · cases hnone

/-- A read fails where the transport ends. -/
theorem Intact.read_error (h : s.Intact) {error : FitzError} {rest : Bytes}
    (hread : s.read = (.ready (.error error), rest)) :
    s.eof = true ∧ ((s.complete (.error error) rest).Drained ∨
      (s.complete (.error error) rest).Intact ∧
        (s.complete (.error error) rest).replies = s.replies) := by
  obtain ⟨transport, conn, future, socket, eof, transit, replies, into, frames, written, cuts⟩ := s
  cases transport with
  | tcp =>
    have hframed : ∀ r ∈ replies, r.Framed .tcp := h.framed
    have hbytes : replies.flatMap (·.bytes) = future.held ++ (socket ++ transit) := h.bytes rfl
    rw [← List.append_assoc, flatMap_bytes hframed] at hbytes
    rcases poll_error h.future hread with ⟨heof, rfl⟩ | hbad
    · refine ⟨heof, .inl ⟨rfl, heof, rfl, rfl, ?_⟩⟩
      have horder := h.order
      simp only [complete, pass, Except.toOption, Option.toList_none, List.append_nil] at horder ⊢
      rw [horder]
      exact List.prefix_append _ _
    · -- a frame of the broker has an admissible length
      refine absurd hbad (not_badLength (fun g hg => ?_) ⟨transit, hbytes.symm⟩)
      obtain ⟨r, hr, rfl⟩ := List.mem_map.1 hg
      exact (hframed r hr).1
  | webSocket =>
    rcases read_webSocket rfl hread with ⟨reply, rest', -, hframe⟩ | ⟨heof, -⟩ | ⟨hnone, -⟩
    · cases hframe
    · exact ⟨heof, .inr ⟨⟨h.into, h.future, h.still, fun hne => (by cases hne), h.framed, h.order⟩,
        rfl⟩⟩
    · cases hnone

theorem pending_webSocket (ht : s.transport = .webSocket) {future : ReadFuture} {rest : Bytes}
    (hread : s.read = (.pending future, rest)) : future = s.future ∧ rest = s.socket := by
  rcases read_webSocket ht hread with ⟨reply, replies, -, hframe⟩ | ⟨-, hend⟩ | ⟨hsame, hrest⟩
  · cases hframe
  · cases hend
  · cases hsame
    exact ⟨rfl, hrest⟩

theorem Intact.read_pending (h : s.Intact) {future : ReadFuture} {rest : Bytes}
    (hread : s.read = (.pending future, rest)) :
    ({ s with future := future, socket := rest } : Link).Intact := by
  obtain ⟨transport, conn, future', socket, eof, transit, replies, into, frames, written, cuts⟩ := s
  cases transport with
  | tcp =>
    have hspec := poll_spec h.future socket eof
    simp only [read] at hread
    rw [hread] at hspec
    obtain ⟨hok, hheld, rfl⟩ := hspec
    refine ⟨h.into, hok, fun hne => (by cases hne), fun _ => ?_, h.framed, h.order⟩
    have hbytes := h.bytes rfl
    simp only [hheld, List.nil_append, List.append_assoc] at hbytes ⊢
    exact hbytes
  | webSocket =>
    obtain ⟨rfl, rfl⟩ := pending_webSocket rfl hread
    exact h

/-- Behind the end of the transport every read fails. -/
theorem Drained.read (h : s.Drained) : s.read = (.ready (.error earlyEof), []) := by
  simp only [Link.read, h.transport, h.future, h.socket, h.eof]
  rfl

theorem Drained.complete (h : s.Drained) (error : FitzError) :
    (s.complete (.error error) []).Drained := by
  obtain ⟨transport, conn, future, socket, eof, transit, replies, into, frames, written, cuts⟩ := s
  obtain rfl : transport = .tcp := h.transport
  refine ⟨rfl, h.eof, rfl, rfl, ?_⟩
  simpa only [Link.complete, pass, Except.toOption, Option.toList_none, List.append_nil] using h.order

/-! ## What an event does to the bytes -/

/-- The connection after what it sees of an event. -/
def after (cfg : Config) (s : Link) (seen : Option Event) : Conn :=
  (seen.map (s.conn.step cfg)).getD s.conn

theorem step_eq (s : Link) (e : LinkEvent) :
    s.step cfg e = { s.carry e with conn := s.after cfg (s.event e) } := rfl

/-- The event makes `who` drop the read. -/
def Drops (s : Link) (e : LinkEvent) : Interrupter → Prop
  | .command =>
    s.conn.pc = .session ∧ s.conn.commands ≠ [] ∧ ∃ written, e = .conn (.command written)
  | .cancellation cause =>
    s.conn.pc = .session ∧ e = .conn .cancel ∧ ∃ id rest, s.conn.cancellations = (id, cause) :: rest
  | .timeout => s.conn.pc = .restoring ∧ s.reading = true ∧ ∃ error, e = .fail error

/-- The event is that a new transport is open. -/
def Opens (s : Link) (e : LinkEvent) : Prop := s.conn.pc = .dialing ∧ e = .conn (.dial (.ok ()))

inductive Carried (s : Link) (e : LinkEvent) : Link → Prop
  | still (ho : ¬ s.Opens e) (he : ∀ written, e = .poll written → s.reading = false)
      (hw : ∀ reply, e ≠ .write reply) : Carried s e s
  | opened (ho : s.Opens e) : Carried s e (fresh s.transport s.conn)
  | dropped (who : Interrupter) (hd : s.Drops e who) : Carried s e (s.interrupt who)
  | wrote (reply : Reply) (he : e = .write reply) : Carried s e
      { s with
        transit := s.transit ++ reply.bytes
        replies := s.replies ++ [reply]
        written := s.written ++ [reply] }
  | arrived (n : ℕ) (he : e = .arrive n) (heof : s.eof = false) : Carried s e
      { s with socket := s.socket ++ s.transit.take n, transit := s.transit.drop n }
  | closed (he : e = .eof) : Carried s e { s with eof := true }
  | pending {future : ReadFuture} {rest : Bytes} (he : ∃ written, e = .poll written)
      (hreading : s.reading = true) (hread : s.read = (.pending future, rest)) :
      Carried s e { s with future := future, socket := rest }
  | completed {result : Result Bytes} {rest : Bytes} (he : ∃ written, e = .poll written)
      (hreading : s.reading = true) (hread : s.read = (.ready result, rest)) :
      Carried s e (s.complete result rest)

theorem carry_carried (s : Link) (e : LinkEvent) : Carried s e (s.carry e) := by
  cases e with
  | conn e =>
    have hstill : (¬ s.Opens (.conn e)) → Carried s (.conn e) s := fun ho =>
      .still ho (fun _ h => by cases h) (fun _ h => by cases h)
    cases e with
    | dial result =>
      cases result with
      | ok u =>
        simp only [carry]
        split
        · rename_i hpc
          exact .opened ⟨hpc, rfl⟩
        · rename_i hpc
          exact hstill fun ho => hpc ho.1
      | error error => exact hstill fun ho => by cases ho.2
    | command written =>
      simp only [carry]
      split
      · rename_i hpc hcs
        exact .dropped .command ⟨hpc, by simp [hcs], written, rfl⟩
      · exact hstill fun ho => by cases ho.2
    | cancel =>
      simp only [carry]
      split
      · rename_i id cause rest hpc hcan
        exact .dropped (.cancellation cause) ⟨hpc, rfl, id, rest, hcan⟩
      · exact hstill fun ho => by cases ho.2
    | _ => exact hstill fun ho => by cases ho.2
  | write reply => exact .wrote reply rfl
  | arrive n =>
    simp only [carry]
    split
    · exact .still (fun ho => by cases ho.2) (fun _ h => by cases h) (fun _ h => by cases h)
    · rename_i heof
      exact .arrived n rfl (by simpa using heof)
  | eof => exact .closed rfl
  | poll written =>
    simp only [carry]
    split
    · rename_i hreading
      split
      · rename_i hread
        exact .pending ⟨written, rfl⟩ hreading hread
      · rename_i hread
        exact .completed ⟨written, rfl⟩ hreading hread
    · rename_i hreading
      exact .still (fun ho => by cases ho.2) (fun _ _ => by simpa using hreading)
        (fun _ h => by cases h)
  | fail error =>
    have hstill : Carried s (.fail error) s :=
      .still (fun ho => by cases ho.2) (fun _ h => by cases h) (fun _ h => by cases h)
    simp only [carry]
    split
    · rename_i hpc
      split
      · rename_i hreading
        exact .dropped .timeout ⟨hpc, hreading, error, rfl⟩
      · exact hstill
    · exact hstill

theorem carry_transport (s : Link) (e : LinkEvent) : (s.carry e).transport = s.transport := by
  have hc := carry_carried s e
  generalize s.carry e = s' at hc
  cases hc with
  | dropped who =>
    simp only [interrupt, pass]
    split <;> rfl
  | completed =>
    simp only [complete, pass]
    split <;> rfl
  | _ => rfl

/-- The history of a transport grows until the next one is open. -/
theorem Carried.past {e : LinkEvent} {s' : Link} (hc : Carried s e s') :
    s' = fresh s.transport s.conn ∨ s.cuts <+: s'.cuts ∧ s.written <+: s'.written := by
  cases hc with
  | opened => exact .inl rfl
  | dropped who =>
    simp only [interrupt, pass]
    split
    · exact .inr ⟨List.prefix_rfl, List.prefix_rfl⟩
    · exact .inr ⟨List.prefix_append _ _, List.prefix_rfl⟩
  | wrote reply => exact .inr ⟨List.prefix_rfl, List.prefix_append _ _⟩
  | completed =>
    simp only [complete, pass]
    split <;> exact .inr ⟨List.prefix_rfl, List.prefix_rfl⟩
  | _ => exact .inr ⟨List.prefix_rfl, List.prefix_rfl⟩

theorem interrupt_new (h : s.future = .new) (who : Interrupter) : s.interrupt who = s := by
  rw [interrupt, if_pos h]

/-- A read that holds bytes is dropped with a record of it. -/
theorem new_of_cuts {who : Interrupter} (h : (s.interrupt who).cuts = []) : s.future = .new := by
  by_contra hne
  rw [interrupt, if_neg hne] at h
  simp at h

theorem Drops.quiet {e : LinkEvent} {who : Interrupter} (hd : s.Drops e who) :
    ¬ s.Opens e ∧ ∀ written, e ≠ .poll written := by
  cases who with
  | command =>
    obtain ⟨-, -, written, rfl⟩ := hd
    exact ⟨fun ho => (by cases ho.2), fun _ he => (by cases he)⟩
  | cancellation cause =>
    obtain ⟨-, rfl, -⟩ := hd
    exact ⟨fun ho => (by cases ho.2), fun _ he => (by cases he)⟩
  | timeout =>
    obtain ⟨-, -, error, rfl⟩ := hd
    exact ⟨fun ho => (by cases ho.2), fun _ he => (by cases he)⟩

/-- Only a new transport ends the silence behind the end of one. -/
theorem Drained.carried (h : s.Drained) {e : LinkEvent} {s' : Link} (hc : Carried s e s') :
    s'.Drained ∨ s' = fresh s.transport s.conn := by
  cases hc with
  | still => exact .inl h
  | opened => exact .inr rfl
  | dropped who =>
    rw [interrupt_new h.future]
    exact .inl h
  | wrote reply =>
    refine .inl ⟨h.transport, h.eof, h.socket, h.future, h.order.trans ?_⟩
    rw [List.map_append]
    exact List.prefix_append _ _
  | arrived n he heof =>
    -- nothing arrives behind the end
    rw [h.eof] at heof
    cases heof
  | closed => exact .inl ⟨h.transport, rfl, h.socket, h.future, h.order⟩
  | pending he hreading hread =>
    rw [h.read] at hread
    cases hread
  | completed he hreading hread =>
    rw [h.read] at hread
    cases hread
    exact .inl (h.complete _)

/-- **The reader stays aligned** when no read that holds bytes is dropped and the broker writes
whole frames. -/
theorem Intact.carried (h : s.Intact) {e : LinkEvent} {s' : Link} (hc : Carried s e s')
    (hnew : ∀ who, s.Drops e who → s' = s.interrupt who → s.future = .new)
    (hframed : ∀ reply, e = .write reply → reply.Framed s.transport) : s'.Drained ∨ s'.Intact := by
  cases hc with
  | still => exact .inr h
  | opened => exact .inr (intact_fresh _ _)
  | dropped who hd =>
    rw [interrupt_new (hnew who hd rfl)]
    exact .inr h
  | wrote reply he =>
    refine .inr ⟨h.into, h.future, h.still, fun ht => ?_, fun r hr => ?_, ?_⟩
    · simp only [List.flatMap_append, h.bytes ht, List.flatMap_cons, List.flatMap_nil,
        List.append_nil, List.append_assoc]
    · rcases List.mem_append.1 hr with hr | hr
      · exact h.framed r hr
      · rw [List.mem_singleton.1 hr]
        exact hframed reply he
    · simp only [List.map_append, h.order, List.append_assoc]
  | arrived n he heof =>
    refine .inr ⟨h.into, h.future, h.still, fun ht => ?_, h.framed, h.order⟩
    simp only [h.bytes ht, List.append_assoc, List.take_append_drop]
  | closed => exact .inr ⟨h.into, h.future, h.still, h.bytes, h.framed, h.order⟩
  | pending he hreading hread => exact .inr (h.read_pending hread)
  | @completed result rest he hreading hread =>
    cases result with
    | ok frame =>
      obtain ⟨-, -, -, -, -, hintact⟩ := h.read_ok hread
      exact .inr hintact
    | error error => exact (h.read_error hread).2.imp_right And.left

/-- Read in order, or still to be read. -/
theorem undiscarded_of_aligned (h : s.Drained ∨ s.Intact) : s.Undiscarded := by
  rcases h with h | h
  · exact ⟨h.order, fun heof => by rw [h.eof] at heof; cases heof⟩
  · refine ⟨?_, fun _ => ⟨h.order, h.bytes⟩⟩
    rw [h.order]
    exact List.prefix_append _ _

/-- The connection is no part of it. -/
theorem Drained.of_conn (h : s.Drained) (conn : Conn) : ({ s with conn := conn } : Link).Drained :=
  ⟨h.transport, h.eof, h.socket, h.future, h.order⟩

theorem Intact.of_conn (h : s.Intact) (conn : Conn) : ({ s with conn := conn } : Link).Intact :=
  ⟨h.into, h.future, h.still, h.bytes, h.framed, h.order⟩

/-- **Without a cut nothing is discarded.** The invariant of every run, for a broker that writes
whole frames. -/
theorem aligned_step
    (h : s.cuts = [] → (∀ r ∈ s.written, r.Framed s.transport) → s.Drained ∨ s.Intact)
    {e : LinkEvent} (hcuts : (s.step cfg e).cuts = [])
    (hframed : ∀ r ∈ (s.step cfg e).written, r.Framed (s.step cfg e).transport) :
    (s.step cfg e).Drained ∨ (s.step cfg e).Intact := by
  have hc := carry_carried s e
  have htransport := carry_transport s e
  have hwrote : ∀ reply, e = .write reply → reply ∈ (s.carry e).written := by
    rintro reply rfl
    exact List.mem_append_right _ List.mem_cons_self
  rw [step_eq] at hcuts hframed ⊢
  generalize s.carry e = s' at hc htransport hwrote hcuts hframed
  simp only [htransport] at hcuts hframed
  rcases hc.past with rfl | ⟨hpast, hwritten⟩
  · exact .inr ((intact_fresh _ _).of_conn _)
  · -- the histories only grow, so there was no cut before and every piece was a frame
    rw [hcuts, List.prefix_nil] at hpast
    have hnew : ∀ who, s.Drops e who → s' = s.interrupt who → s.future = .new := by
      rintro who - rfl
      exact new_of_cuts hcuts
    have hwrite : ∀ reply, e = .write reply → reply.Framed s.transport :=
      fun reply he => hframed reply (hwrote reply he)
    rcases h hpast fun r hr => hframed r (hwritten.subset hr) with h | h
    · rcases h.carried hc with h' | rfl
      · exact .inl (h'.of_conn _)
      · exact .inr ((intact_fresh _ _).of_conn _)
    · exact (h.carried hc hnew hwrite).imp (fun h' => h'.of_conn _) fun h' => h'.of_conn _

/-! ## No read is dropped with bytes in it -/

/-- A WebSocket stream keeps what has arrived of a message itself. -/
theorem still_step (h : s.transport = .webSocket → s.future = .new) (e : LinkEvent)
    (ht : (s.step cfg e).transport = .webSocket) : (s.step cfg e).future = .new := by
  have hc := carry_carried s e
  have htransport := carry_transport s e
  rw [step_eq] at ht ⊢
  generalize s.carry e = s' at hc htransport ht
  have hs : s.transport = .webSocket := htransport ▸ ht
  cases hc with
  | opened => rfl
  | dropped who => rw [interrupt_new (h hs)]; exact h hs
  | pending he hreading hread => exact (pending_webSocket hs hread).1.trans (h hs)
  | @completed result rest =>
    simp only [complete, hs]
    cases result <;> exact h hs
  | _ => exact h hs

/-- Over TCP no command, cancellation or timeout drops a read that holds bytes. -/
def WholeReads (s : Link) (e : LinkEvent) : Prop :=
  s.transport = .tcp → match e with
    | .conn (.command _) => s.conn.pc = .session → s.conn.commands ≠ [] → s.future = .new
    | .conn .cancel => s.conn.pc = .session → s.conn.cancellations ≠ [] → s.future = .new
    | .fail _ => s.conn.pc = .restoring → s.reading = true → s.future = .new
    | _ => True

theorem WholeReads.new {e : LinkEvent} (h : s.WholeReads e)
    (hstill : s.transport = .webSocket → s.future = .new) {who : Interrupter}
    (hd : s.Drops e who) : s.future = .new := by
  cases ht : s.transport with
  | webSocket => exact hstill ht
  | tcp =>
    have hwhole := h ht
    cases who with
    | command =>
      obtain ⟨hpc, hcs, written, rfl⟩ := hd
      exact hwhole hpc hcs
    | cancellation cause =>
      obtain ⟨hpc, rfl, id, rest, hcan⟩ := hd
      exact hwhole hpc (by simp [hcan])
    | timeout =>
      obtain ⟨hpc, hreading, error, rfl⟩ := hd
      exact hwhole hpc hreading

end Link

/-! ## What the broker answers -/

namespace Reply

variable (p : Sent → Prop) (transport : Transport)

/-- A frame with a correlation answers a frame among `owed` that meets `p`, under that
frame's own correlation. -/
def Answers (owed : List Sent) (reply : Reply) : Prop :=
  ∀ header ∈ (decodeFrameHeader (reply.frame transport)).toOption, header.correlationId ≠ 0 →
    ∃ f ∈ reply.answers, f ∈ owed ∧ p f ∧ f.correlationId = header.correlationId

/-- What is left of `owed` behind the reply. -/
def settle (reply : Reply) (owed : List Sent) : List Sent :=
  match reply.answers, Conn.isFinal (reply.frame transport) with
  | some f, true => owed.erase f
  | _, _ => owed

/-- Each of the replies answers, in its turn, what is still owed. -/
def Vouched : List Reply → List Sent → Prop
  | [], _ => True
  | reply :: replies, owed =>
    reply.Answers p transport owed ∧ Vouched replies (reply.settle transport owed)

variable {p transport}

theorem settle_mono (reply : Reply) {owed owed' : List Sent} (h : owed.Sublist owed') :
    (reply.settle transport owed).Sublist (reply.settle transport owed') := by
  unfold settle
  split
  · exact h.erase _
  · exact h

/-- More may be owed. -/
theorem Vouched.mono {replies : List Reply} {owed owed' : List Sent}
    (h : Vouched p transport replies owed) (hsub : owed.Sublist owed') :
    Vouched p transport replies owed' := by
  induction replies generalizing owed owed' with
  | nil => trivial
  | cons reply replies ih =>
    refine ⟨fun header hheader hcorr => ?_, ih h.2 (reply.settle_mono hsub)⟩
    obtain ⟨f, hf, hmem, hp⟩ := h.1 header hheader hcorr
    exact ⟨f, hf, hsub.subset hmem, hp⟩

theorem vouched_concat {replies : List Reply} {reply : Reply} {owed : List Sent}
    (h : Vouched p transport replies owed)
    (hreply : reply.Answers p transport
      (replies.foldl (fun owed r => r.settle transport owed) owed)) :
    Vouched p transport (replies ++ [reply]) owed := by
  induction replies generalizing owed with
  | nil => exact ⟨hreply, trivial⟩
  | cons r replies ih => exact ⟨h.1, ih h.2 hreply⟩

end Reply

namespace Conn

variable {cfg : Config}

/-- What is unanswered once the frame of an event is read. -/
def unansweredBehind (s : Conn) : Event → List Sent
  | .restoreRead frame answers | .inbound frame answers _ => (s.read frame answers).unanswered
  | _ => s.unanswered

theorem unansweredBehind_sublist (s : Conn) (e : Event) :
    (s.unansweredBehind e).Sublist s.unanswered := by
  cases e with
  | restoreRead frame answers | inbound frame answers written => exact read_unanswered s frame answers
  | _ => exact List.Sublist.refl _

theorem unanswered_aside {s : Conn} {e : Event} (he : aside e = true) :
    (s.unansweredBehind e).Sublist (s.step cfg e).unanswered := by
  rw [(untouched_step cfg s he).unanswered]
  exact unansweredBehind_sublist s e

/-- On one transport only the read of an answer takes a frame from the unanswered. -/
theorem unanswered_step (cfg : Config) (s : Conn) (e : Event)
    (hdial : s.pc = .dialing → e ≠ .dial (.ok ())) :
    (s.unansweredBehind e).Sublist (s.step cfg e).unanswered := by
  cases e with
  | command written =>
    simp only [step, command, unansweredBehind]
    split
    · split <;> simp [turn_eq, supStep]
    · exact List.Sublist.refl _
  | cancel =>
    simp only [step, cancel, unansweredBehind]
    split
    · simp [turn_eq]
    · exact List.Sublist.refl _
  | inbound frame answers written =>
    simp only [step, inbound]
    split
    · simp [turn_eq, unansweredBehind]
    · exact unansweredBehind_sublist s _
  | restoreRead frame answers =>
    simp only [step, restoreRead]
    repeat' split
    all_goals first
      | exact unansweredBehind_sublist s (.restoreRead frame answers)
      | exact List.Sublist.refl _
  | restoreNext cell written =>
    simp only [step, restoreNext, unansweredBehind]
    repeat' split
    all_goals first
      | exact List.Sublist.refl _
      | exact List.sublist_append_left _ _
  | readError =>
    simp only [step, readError, unansweredBehind]
    split
    · simp [turn_eq]
    · exact List.Sublist.refl _
  | hangup =>
    simp only [step, hangup, unansweredBehind]
    repeat' split
    · simp [turn_eq, supStep]
    all_goals exact List.Sublist.refl _
  | dial result =>
    simp only [step, dial, unansweredBehind]
    split
    · rename_i hpc
      exact absurd rfl (hdial hpc)
    · exact List.Sublist.refl _
  | allocate kind messageType payload =>
    simp only [step, allocate, unansweredBehind]
    split <;> exact List.Sublist.refl _
  | advance =>
    have ha := advance_advanced cfg s
    simp only [step, unansweredBehind]
    generalize s.advance cfg = s' at ha
    cases ha <;> exact List.Sublist.refl _
  | restoreFail =>
    simp only [step, restoreFail, unansweredBehind]
    split <;> exact List.Sublist.refl _
  | _ => exact unanswered_aside rfl

end Conn

namespace Link

variable {cfg : Config} {s : Link} {p : Sent → Prop}

/-- What the broker has not answered yet, with the answers on their way taken off. -/
def owed (s : Link) : List Sent :=
  s.replies.foldl (fun owed reply => reply.settle s.transport owed) s.conn.unanswered

/-- The broker writes whole frames, and each one with a correlation answers a frame that it
still owes an answer and that meets `p`, under that frame's own correlation. -/
def Vouches (p : Sent → Prop) (s : Link) : LinkEvent → Prop
  | .write reply => reply.Framed s.transport ∧ reply.Answers p s.transport s.owed
  | _ => True

/-- The reader is aligned, and what it is about to read answers what is unanswered. -/
def Followed (p : Sent → Prop) (s : Link) : Prop :=
  s.Drained ∨ s.Intact ∧ Reply.Vouched p s.transport s.replies s.conn.unanswered

theorem followed_fresh (p : Sent → Prop) (transport : Transport) (conn : Conn) :
    (fresh transport conn).Followed p :=
  .inr ⟨intact_fresh transport conn, trivial⟩

theorem source_answered (hinto : s.into = 0) {reply : Reply} {replies : List Reply}
    (hreplies : s.replies = reply :: replies) {f : Sent} (hf : f ∈ reply.answers)
    (hmem : f ∈ s.conn.unanswered) : s.conn.source s.answered = some f := by
  obtain ⟨i, hi⟩ := Option.isSome_iff_exists.1 (List.isSome_idxOf?.2 hmem)
  have hanswered : s.answered = some i := by
    simp only [answered, hinto, if_true, hreplies, List.head?_cons, Option.bind_some, hi,
      Option.mem_def.1 hf]
  obtain ⟨hlt, hget, -⟩ := List.idxOf?_eq_some_iff.1 hi
  rw [hanswered, Conn.source, Option.bind_some, List.getElem?_eq_getElem hlt, hget]

theorem read_settle (hinto : s.into = 0) {reply : Reply} {replies : List Reply}
    (hreplies : s.replies = reply :: replies) :
    (s.conn.read (reply.frame s.transport) s.answered).unanswered =
      reply.settle s.transport s.conn.unanswered := by
  simp only [Conn.read, Reply.settle, answered, hinto, if_true, hreplies, List.head?_cons,
    Option.bind_some]
  cases reply.answers with
  | none => rfl
  | some f =>
    cases Conn.isFinal (reply.frame s.transport) with
    | false =>
      rw [Option.bind_some]
      cases s.conn.unanswered.idxOf? f <;> rfl
    | true =>
      have herase := List.erase_eq_eraseIdx s.conn.unanswered f
      rw [Option.bind_some]
      cases hi : s.conn.unanswered.idxOf? f with
      | none =>
        rw [hi] at herase
        exact herase.symm
      | some i =>
        rw [hi] at herase
        exact herase.symm

theorem unanswered_ok (cfg : Config) (s : Link) (frame : Bytes) (written : Result Unit) :
    (s.conn.read frame s.answered).unanswered.Sublist
      (s.after cfg (s.completes (.ok frame) written)).unanswered := by
  have hread := Conn.read_unanswered s.conn frame s.answered
  simp only [completes, after]
  split
  · exact hread.trans (Conn.unanswered_step cfg s.conn (.auth _) (fun _ h => by cases h))
  · rename_i heq
    cases heq
    exact Conn.unanswered_step cfg s.conn (.restoreRead _ _) (fun _ h => by cases h)
  · rename_i heq
    cases heq
  · rename_i heq
    cases heq
    exact Conn.unanswered_step cfg s.conn (.inbound _ _ _) (fun _ h => by cases h)
  · rename_i heq
    cases heq
  · exact hread

theorem unanswered_error (cfg : Config) (s : Link) (error : FitzError) (written : Result Unit) :
    s.conn.unanswered.Sublist
      (s.after cfg (s.completes (.error error) written)).unanswered := by
  simp only [completes, after]
  split
  · exact Conn.unanswered_step cfg s.conn (.auth _) (fun _ h => by cases h)
  · rename_i heq
    cases heq
  · exact Conn.unanswered_step cfg s.conn .restoreFail (fun _ h => by cases h)
  · rename_i heq
    cases heq
  · exact Conn.unanswered_step cfg s.conn .readError (fun _ h => by cases h)
  · exact List.Sublist.refl _

/-- Without a completed read and a new transport, frames only join the unanswered. -/
theorem unanswered_after (cfg : Config) {e : LinkEvent} (ho : ¬ s.Opens e)
    (hpoll : ∀ written, e = .poll written → s.reading = true → ∃ future rest,
      s.read = (.pending future, rest)) :
    s.conn.unanswered.Sublist (s.after cfg (s.event e)).unanswered := by
  cases e with
  | conn e =>
    simp only [event]
    split
    · exact List.Sublist.refl _
    · rename_i hr
      have hstep := Conn.unanswered_step cfg s.conn e (fun hpc he => ho ⟨hpc, he ▸ rfl⟩)
      cases e with
      | restoreRead | inbound => exact absurd rfl hr
      | _ => exact hstep
  | poll written =>
    simp only [event]
    split
    · rename_i hreading
      obtain ⟨future, rest, hread⟩ := hpoll written rfl hreading
      rw [hread]
      exact List.Sublist.refl _
    · exact List.Sublist.refl _
  | fail error =>
    simp only [event]
    split
    · exact unanswered_error cfg s error _
    · exact List.Sublist.refl _
  | write | arrive | eof => exact List.Sublist.refl _

/-- What is about to be read answers what is unanswered, once more. -/
theorem Intact.vouched (cfg : Config) (h : s.Intact)
    (hvouched : Reply.Vouched p s.transport s.replies s.conn.unanswered) {e : LinkEvent}
    {s' : Link} (hc : Carried s e s') (hw : s.WholeReads e) (hv : s.Vouches p e) :
    s'.Drained ∨
      Reply.Vouched p s.transport s'.replies (s.after cfg (s.event e)).unanswered := by
  have hkept : (¬ s.Opens e) → (∀ written, e = .poll written → s.reading = true →
      ∃ future rest, s.read = (.pending future, rest)) →
      Reply.Vouched p s.transport s.replies (s.after cfg (s.event e)).unanswered :=
    fun ho hpoll => hvouched.mono (unanswered_after cfg ho hpoll)
  cases hc with
  | still ho hpoll =>
    refine .inr (hkept ho fun written he hreading => ?_)
    rw [hpoll written he] at hreading
    cases hreading
  | opened => exact .inr trivial
  | dropped who hd =>
    -- the dropped read holds nothing, so no byte is lost
    rw [interrupt_new (hw.new h.still hd)]
    exact .inr (hkept hd.quiet.1 fun written he => absurd he (hd.quiet.2 written))
  | wrote reply he =>
    subst he
    exact .inr (Reply.vouched_concat hvouched hv.2)
  | arrived n he | closed he =>
    subst he
    exact .inr hvouched
  | pending he hreading hread =>
    obtain ⟨written, rfl⟩ := he
    exact .inr (hkept (fun ho => by cases ho.2) fun _ _ _ => ⟨_, _, hread⟩)
  | @completed result rest he hreading hread =>
    obtain ⟨written, rfl⟩ := he
    simp only [event, hreading, if_true, hread]
    cases result with
    | ok frame =>
      -- what the frame in front answers is taken off on both sides
      obtain ⟨reply, replies, hreplies, rfl, hrest, -⟩ := h.read_ok hread
      rw [hreplies] at hvouched
      rw [hrest]
      refine .inr (hvouched.2.mono ?_)
      rw [← read_settle h.into hreplies]
      exact unanswered_ok cfg s _ written
    | error error =>
      refine (h.read_error hread).2.imp_right fun hstay => ?_
      rw [hstay.2]
      exact hvouched.mono (unanswered_error cfg s error written)

/-- **What the broker promises where it writes holds where it is read.** -/
theorem followed_step (h : s.Followed p) {e : LinkEvent} (hw : s.WholeReads e)
    (hv : s.Vouches p e) : (s.step cfg e).Followed p := by
  have hc := carry_carried s e
  have htransport := carry_transport s e
  rw [step_eq]
  generalize s.carry e = s' at hc htransport
  rcases h with h | ⟨h, hvouched⟩
  · rcases h.carried hc with h' | rfl
    · exact .inl (h'.of_conn _)
    · exact followed_fresh p s.transport _
  · have hframed : ∀ reply, e = .write reply → reply.Framed s.transport := by
      rintro reply rfl
      exact hv.1
    rcases h.carried hc (fun who hd _ => hw.new h.still hd) hframed with h' | h'
    · exact .inl (h'.of_conn _)
    · rcases h.vouched cfg hvouched hc hw hv with hd | hvouched'
      · exact .inl (hd.of_conn _)
      · rw [← htransport] at hvouched'
        exact .inr ⟨h'.of_conn _, hvouched'⟩

/-- A completed read answers a frame that is unanswered. -/
theorem answers_of_read (h : s.Followed p) {frame rest : Bytes}
    (hread : s.read = (.ready (.ok frame), rest)) :
    ∀ header ∈ (decodeFrameHeader frame).toOption, header.correlationId ≠ 0 →
      ∃ f ∈ s.conn.source s.answered, p f ∧ f.correlationId = header.correlationId := by
  intro header hheader hcorr
  rcases h with h | ⟨h, hvouched⟩
  · rw [h.read] at hread
    cases hread
  · obtain ⟨reply, replies, hreplies, rfl, -, -⟩ := h.read_ok hread
    rw [hreplies] at hvouched
    obtain ⟨f, hf, hmem, hp, hid⟩ := hvouched.1 header hheader hcorr
    exact ⟨f, source_answered h.into hreplies hf hmem, hp, hid⟩

/-! ## From the connection to the link -/

/-- What the connection sees of the event meets `c`. -/
def Through (c : Conn → Event → Prop) (s : Link) (e : LinkEvent) : Prop :=
  ∀ e' ∈ s.event e, c s.conn e'

/-- What the steps of the connection keep under `c`, those of the link keep. -/
theorem through_step {c : Conn → Event → Prop} {I : Conn → Prop}
    (hstep : ∀ s e, I s → c s e → I (s.step cfg e)) {e : LinkEvent} (hI : I s.conn)
    (hc : s.Through c e) : I (s.step cfg e).conn := by
  cases he : s.event e with
  | none => simpa only [step_eq, after, he, Option.map_none, Option.getD_none] using hI
  | some e' =>
    simpa only [step_eq, after, he, Option.map_some, Option.getD_some] using
      hstep s.conn e' hI (hc e' he)

/-- What the connection sees is a step of its own, or a read that is over. -/
theorem event_cases {e : LinkEvent} {e' : Event} (h : e' ∈ s.event e) :
    e = .conn e' ∧ isRead e' = false ∨
      (∃ written result rest, e = .poll written ∧ s.read = (.ready result, rest) ∧
        s.completes result written = some e') ∨
      ∃ error, e = .fail error ∧ s.completes (.error error) (.ok ()) = some e' := by
  cases e with
  | conn e =>
    simp only [event] at h
    split at h
    · cases h
    · rename_i hr
      cases h
      exact .inl ⟨rfl, by simpa using hr⟩
  | poll written =>
    simp only [event] at h
    split at h
    · split at h
      · cases h
      · rename_i result rest hread
        exact .inr (.inl ⟨written, result, rest, rfl, hread, h⟩)
    · cases h
  | fail error =>
    simp only [event] at h
    split at h
    · exact .inr (.inr ⟨error, rfl, h⟩)
    · cases h
  | write | arrive | eof => cases h

theorem completes_inbound {result : Result Bytes} {w written : Result Unit} {frame : Bytes}
    {answers : Option ℕ} (h : s.completes result w = some (.inbound frame answers written)) :
    s.conn.pc = .session ∧ result = .ok frame ∧ answers = s.answered ∧ w = written := by
  unfold completes at h
  split at h <;> cases h
  exact ⟨by assumption, rfl, rfl, rfl⟩

theorem completes_readError {result : Result Bytes} {w : Result Unit}
    (h : s.completes result w = some .readError) :
    s.conn.pc = .session ∧ ∃ error, result = .error error := by
  unfold completes at h
  split at h <;> cases h
  exact ⟨by assumption, _, rfl⟩

/-- The connection hears of a frame where a read completes. -/
theorem read_of_inbound {e : LinkEvent} {frame : Bytes} {answers : Option ℕ}
    {written : Result Unit} (h : .inbound frame answers written ∈ s.event e) :
    e = .poll written ∧ s.conn.pc = .session ∧ answers = s.answered ∧
      ∃ rest, s.read = (.ready (.ok frame), rest) := by
  rcases event_cases h with ⟨-, hr⟩ | ⟨w, result, rest, rfl, hread, hc⟩ | ⟨error, rfl, hc⟩
  · cases hr
  · obtain ⟨hpc, rfl, rfl, rfl⟩ := completes_inbound hc
    exact ⟨rfl, hpc, rfl, rest, hread⟩
  · cases (completes_inbound hc).2.1

section Decidable

instance (c : Conn → Event → Prop) [∀ s e, Decidable (c s e)] (s : Link) (e : LinkEvent) :
    Decidable (s.Through c e) :=
  inferInstanceAs (Decidable (∀ e' ∈ s.event e, c s.conn e'))

instance (p : Sent → Prop) [DecidablePred p] (transport : Transport) (owed : List Sent)
    (reply : Reply) : Decidable (reply.Answers p transport owed) :=
  inferInstanceAs (Decidable (∀ header ∈ (decodeFrameHeader (reply.frame transport)).toOption,
    _ → ∃ f ∈ reply.answers, f ∈ owed ∧ p f ∧ f.correlationId = header.correlationId))

instance (p : Sent → Prop) [DecidablePred p] (s : Link) (e : LinkEvent) :
    Decidable (s.Vouches p e) :=
  match e with
  | .write reply => inferInstanceAs (Decidable
    (reply.Framed s.transport ∧ reply.Answers p s.transport s.owed))
  | .conn _ | .arrive _ | .eof | .poll _ | .fail _ => isTrue trivial

instance (s : Link) (e : LinkEvent) : Decidable (s.WholeReads e) := by
  unfold WholeReads
  refine @instDecidableForall _ _ _ ?_
  split <;> infer_instance

end Decidable

end Link

/-! ## Runs over TCP -/

/-- The broker writes a frame; it arrives and is read. -/
def heard (frame : Bytes) (answers : Option Sent) : List LinkEvent :=
  [.write ⟨writeTcpFrame frame, answers⟩, .arrive (frame.length + 4), .poll (.ok ())]

/-- The HELLO is read, and a session lost, over the transport. -/
def wired (es : List Event) : List LinkEvent :=
  es.flatMap fun e => match e with
    | .auth (.ok frame) => heard frame none
    | .readError => [.fail .connectionClosed]
    | e => [.conn e]

end Fitz
