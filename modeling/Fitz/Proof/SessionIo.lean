import Fitz.Proof.Link
import Fitz.Proof.Passages

/-!
# The session loop of a TCP link

`Fitz.Model.Reader` has `run_io` alone, and `Fitz.Model.Link` within the connection.
`session_runIo`: as long as a session over TCP lasts, what the link does to its loop, its
read future and its socket is a run of `RunIo`, and the frames it reads are those that
this run decodes.
-/

namespace Fitz

open Machine

/-! ## What the loop reads of the shared state -/

/-- The same but for the sequence of the ids and the generation, which the loop does not
read. -/
def Shared.beside (sh : Shared) (n g : UInt64) : Shared :=
  { sh with nextRequestId := n, generation := g }

theorem onCommand_beside (sh : Shared) (l : Loop) (c : Command) (written : Result Unit)
    (n g : UInt64) : l.onCommand (sh.beside n g) c written = l.onCommand sh c written := by
  cases c <;> rfl

theorem applyServerHello_beside (sh : Shared) (payload : Bytes) (mask : UInt16) (n g : UInt64) :
    applyServerHello (sh.beside n g) payload mask =
      (applyServerHello sh payload mask).map fun sh' => sh'.beside n g := by
  by_cases hcap : sh.capabilities = 0
  · have hcap' : (sh.beside n g).capabilities = 0 := hcap
    cases hhello : decodeHello payload with
    | error error => simp [applyServerHello, hcap, hcap', hhello, bind, Except.bind, Except.map]
    | ok h =>
      cases hvalid : h.valid <;>
        simp [applyServerHello, hcap, hhello, hvalid, bind, Except.bind, Except.map, throw,
          throwThe, MonadExceptOf.throw, Shared.beside, pure, Except.pure]
  · -- a second HELLO is refused
    have hcap' : (sh.beside n g).capabilities ≠ 0 := hcap
    simp [applyServerHello, hcap, hcap', throw, throwThe, MonadExceptOf.throw, bind, Except.bind,
      Except.map]

theorem decodeIncoming_beside (sh : Shared) (frame : Bytes) (n g : UInt64) :
    decodeIncoming (sh.beside n g) frame =
      (decodeIncoming sh frame).map fun r => (r.1.beside n g, r.2) := by
  have hlimit : (sh.beside n g).maxMessageBytes = sh.maxMessageBytes := rfl
  unfold decodeIncoming
  rw [hlimit]
  split
  · rfl
  · cases decodeFrameHeader frame with
    | error error => rfl
    | ok header =>
      simp only [bind, Except.bind]
      cases Wire3.decode (frame.drop header.payloadStart) header.messageType header.flags with
      | error error => rfl
      | ok decoded =>
        obtain ⟨payload, mask⟩ := decoded
        dsimp only
        split
        · split
          · rfl
          · rw [applyServerHello_beside]
            cases applyServerHello sh payload mask <;> rfl
        · split
          · split
            · rfl
            · cases decodeGoaway payload <;> rfl
          · split <;> rfl

theorem onFrame_beside (sh : Shared) (l : Loop) (frame : Bytes) (written : Result Unit)
    (n g : UInt64) : l.onFrame (sh.beside n g) frame written =
      ((l.onFrame sh frame written).1.beside n g, (l.onFrame sh frame written).2) := by
  unfold Loop.onFrame
  rw [decodeIncoming_beside]
  cases decodeIncoming sh frame <;> rfl

/-! ## Turns that close nothing -/

theorem closed_requestCorrelated (sh : Shared) (l : Loop) (id : UInt64) (messageType : UInt16)
    (flags : UInt8) (payload : Bytes) (response : Option Ticket) (written : Result Unit) :
    (l.requestCorrelated sh id messageType flags payload response written).result ≠
      some .closed := by
  unfold Loop.requestCorrelated
  split
  · simp [Loop.next]
  · split
    · simp [Loop.next]
    · cases written <;> simp [Loop.next, Loop.finish]

theorem closed_requestPending (l : Loop) (id : UInt64) (messageType : UInt16) (payload : Bytes)
    (response : Option Ticket) (written : Result Unit) :
    (l.requestPending id messageType payload response written).result ≠ some .closed := by
  unfold Loop.requestPending
  split
  · cases tryEncodeMessageFrame messageType payload <;> cases written <;>
      simp [Loop.next, Loop.finish]
  · simp [Loop.next]

theorem closed_onRequest (sh : Shared) (l : Loop) (id generation : UInt64) (messageType : UInt16)
    (flags : UInt8) (payload : Bytes) (response : Ticket) (written : Result Unit) :
    (l.onRequest sh id generation messageType flags payload response written).result ≠
      some .closed := by
  unfold Loop.onRequest
  split
  · simp [Loop.next]
  · dsimp only
    split
    · exact closed_requestCorrelated sh _ id messageType flags payload _ written
    · exact closed_requestPending _ id messageType payload _ written

theorem closed_onSend (sh : Shared) (l : Loop) (id generation : UInt64) (messageType : UInt16)
    (payload : Bytes) (response : Ticket) (written : Result Unit) :
    (l.onSend sh id generation messageType payload response written).result ≠ some .closed := by
  unfold Loop.onSend
  repeat' split
  all_goals simp [Loop.next]

theorem closed_onRecord (l : Loop) (record : IncomingRecord) (written : Result Unit) :
    (l.onRecord record written).result ≠ some .closed := by
  unfold Loop.onRecord Loop.promote
  repeat' split
  all_goals simp [Loop.next, Loop.finish]

theorem closed_onRecords (written : Result Unit) (records : List IncomingRecord) (l : Loop) :
    (l.onRecords written records).result ≠ some .closed := by
  induction records generalizing l with
  | nil => simp [Loop.onRecords, Loop.next]
  | cons record records ih =>
    unfold Loop.onRecords
    dsimp only
    split
    · exact closed_onRecord l record written
    · exact ih _

theorem closed_onFrame (sh : Shared) (l : Loop) (frame : Bytes) (written : Result Unit) :
    (l.onFrame sh frame written).2.result ≠ some .closed := by
  unfold Loop.onFrame
  split
  · simp [Loop.finish]
  · exact closed_onRecords written _ l

namespace Link

variable {cfg : Config} {s : Link} {e : LinkEvent} {io : RunIo}

/-- What an event of the link is to `run_io`. -/
def ioEvent (s : Link) : LinkEvent → Option IoEvent
  | .conn (.command written) => s.conn.commands.head?.map fun c => .command c written
  | .conn .cancel => s.conn.cancellations.head?.map fun c => .cancel c.1
  | .arrive n => if s.eof then none else some (.arrive (s.transit.take n))
  | .eof => some .eof
  | .poll written => some (.pollRead written)
  | _ => none

/-- `run_io` is where the session loop of the link is. -/
structure RunsIn (io : RunIo) (s : Link) : Prop where
  shared : ∃ n g, io.shared = s.conn.shared.beside n g
  loop : io.loop = s.conn.loop
  future : io.future = s.future
  socket : io.socket = s.socket
  eof : io.eof = s.eof
  decoded : io.decoded <:+ s.frames
  ended : io.ended = none

/-- The loop does not run. -/
theorem RunsIn.congr (h : RunsIn io s) {s' : Link}
    (hshared : ∃ n g, s'.conn.shared = s.conn.shared.beside n g)
    (hloop : s'.conn.loop = s.conn.loop) (hfuture : s'.future = s.future)
    (hsocket : s'.socket = s.socket) (heof : s'.eof = s.eof) (hframes : s'.frames = s.frames) :
    RunsIn io s' where
  shared := by
    obtain ⟨n, g, hio⟩ := h.shared
    obtain ⟨n', g', hsame⟩ := hshared
    exact ⟨n, g, by rw [hio, hsame]; rfl⟩
  loop := h.loop.trans hloop.symm
  future := h.future.trans hfuture.symm
  socket := h.socket.trans hsocket.symm
  eof := h.eof.trans heof.symm
  decoded := by
    rw [hframes]
    exact h.decoded
  ended := h.ended

/-- A branch wins the pass, and the session goes on. -/
theorem RunsIn.pass (h : RunsIn io s) {s' : Link} {turn : Turn}
    (hloop : s'.conn.loop = turn.loop) (hshared : s'.conn.shared = s.conn.shared)
    (hresult : turn.result = none) (hfuture : s'.future = .new) (hsocket : s'.socket = s.socket)
    (heof : s'.eof = s.eof) (hframes : s'.frames = s.frames) : RunsIn (io.finishPass turn) s' where
  shared := by
    rw [hshared]
    exact h.shared
  loop := hloop.symm
  future := hfuture.symm
  socket := h.socket.trans hsocket.symm
  eof := h.eof.trans heof.symm
  decoded := by
    rw [hframes]
    exact h.decoded
  ended := hresult

/-- The loop does not run in the other events of the connection. -/
theorem step_aside (cfg : Config) {c : Conn} (hpc : c.pc = .session) {e : Event}
    (hcommand : ∀ written, e ≠ .command written) (hcancel : e ≠ .cancel)
    (hhangup : e ≠ .hangup) (hread : isRead e = false) :
    (c.step cfg e).loop = c.loop ∧ ∃ n g, (c.step cfg e).shared = c.shared.beside n g := by
  have hsame : c.loop = c.loop ∧ ∃ n g, c.shared = c.shared.beside n g :=
    ⟨rfl, c.shared.nextRequestId, c.shared.generation, rfl⟩
  cases e with
  -- the events of the loop
  | command written => exact absurd rfl (hcommand written)
  | cancel => exact absurd rfl hcancel
  | hangup => exact absurd rfl hhangup
  | auth | restoreRead | restoreFail | inbound | readError => cases hread
  | allocate kind messageType payload =>
    simp only [Conn.step, Conn.allocate]
    split <;> exact ⟨rfl, _, c.shared.generation, rfl⟩
  | requestClose =>
    simp only [Conn.step, Conn.requestClose]
    split
    · exact hsame
    · exact ⟨rfl, c.shared.nextRequestId, _, rfl⟩
  | advance =>
    have hstay : (c.supStep cfg .advance).pc = .session :=
      Conn.supStep_session hpc (by simp) (by simp) (by simp)
    simp only [Conn.step, Conn.advance, hpc, hstay]
    exact hsame
  | stamp t | enqueue t | resume t | abandon t | connect | close =>
    simp only [Conn.step, Conn.stamp, Conn.enqueue, Conn.resume, Conn.abandon, Conn.dropGuard,
      Conn.push]
    repeat' split
    all_goals exact hsame
  | receive =>
    have hstay : c.step cfg .receive = c := by
      simp only [Conn.step, Conn.receive, hpc]
    rw [hstay]
    exact hsame
  | dial result =>
    have htask : c.step cfg (.dial result) = c.supStep cfg (.dial result) := by
      cases result <;> simp only [Conn.step, Conn.dial, hpc]
    rw [htask]
    exact hsame
  | restoreNext cell written =>
    have hstay : c.step cfg (.restoreNext cell written) = c := by
      simp only [Conn.step, Conn.restoreNext, hpc]
    rw [hstay]
    exact hsame
  | restored =>
    simp only [Conn.step, Conn.restored]
    split <;> exact hsame
  | register | deactivate | token | wake => exact hsame

/-- A read future that is dropped leaves the loop to a new one. -/
theorem interrupt_kept (s : Link) (who : Interrupter) :
    (s.interrupt who).future = .new ∧ (s.interrupt who).socket = s.socket ∧
      (s.interrupt who).eof = s.eof ∧ (s.interrupt who).frames = s.frames := by
  unfold interrupt
  split
  · rename_i hnew
    exact ⟨hnew, rfl, rfl, rfl⟩
  · exact ⟨rfl, rfl, rfl, rfl⟩

/-- A turn after which the session goes on has not ended it. -/
theorem result_none (cfg : Config) {task : Supervised} (hpc : task.sup.pc = .session)
    {r : Option SessionResult} (hr : r ≠ some .closed)
    (h : (Conn.afterTurn cfg task r).sup.pc = .session) : r = none := by
  cases r with
  | none => rfl
  | some r =>
    cases r with
    | closed => exact absurd rfl hr
    | disconnected =>
      have hlost := Conn.afterTurn_lost cfg hpc
      rw [h] at hlost
      cases hlost

/-- The last caller that goes ends the session, and `supervise` returns. -/
theorem step_hangup (cfg : Config) {task : Supervised} (hpc : task.sup.pc = .session) :
    ((task.step cfg.reconnect .hangup).step cfg.reconnect .hangup).sup.pc = .done := by
  obtain ⟨⟨pc, n, i, closeRequested⟩, state, acts⟩ := task
  cases hpc
  rfl

/-- A command after which the session goes on. -/
theorem command_session {conn : Conn} (hpc : conn.pc = .session) {c : Command} {cs : List Command}
    (hcs : conn.commands = c :: cs) {written : Result Unit}
    (hpc' : (conn.command cfg written).pc = .session) :
    (conn.command cfg written).loop = (conn.loop.onCommand conn.shared c written).loop ∧
      (conn.command cfg written).shared = conn.shared ∧
      (conn.loop.onCommand conn.shared c written).result = none := by
  simp only [Conn.command, hpc, hcs, Conn.turn_eq] at hpc' ⊢
  cases c with
  | connect t => exact ⟨rfl, rfl, rfl⟩
  | close t =>
    -- the session would be over
    have hclosing := Conn.step_close cfg hpc t
    exact absurd (hclosing.symm.trans hpc') (by simp)
  | request id generation messageType flags payload t =>
    refine ⟨rfl, rfl, result_none cfg hpc ?_ hpc'⟩
    exact closed_onRequest conn.shared conn.loop id generation messageType flags payload t written
  | send id generation messageType payload t =>
    refine ⟨rfl, rfl, result_none cfg hpc ?_ hpc'⟩
    exact closed_onSend conn.shared conn.loop id generation messageType payload t written

theorem runsIn_command (h : RunsIn io s) (hpc : s.conn.pc = .session) (written : Result Unit)
    (hpc' : (s.step cfg (.conn (.command written))).conn.pc = .session) :
    RunsIn (((s.ioEvent (.conn (.command written))).map io.step).getD io)
      (s.step cfg (.conn (.command written))) := by
  have hstep : s.step cfg (.conn (.command written)) =
      { s.carry (.conn (.command written)) with conn := s.conn.command cfg written } := rfl
  rw [hstep] at hpc' ⊢
  cases hcs : s.conn.commands with
  | nil =>
    have hcarry : s.carry (.conn (.command written)) = s := by
      simp only [carry, hpc, hcs]
    have hconn : s.conn.command cfg written = s.conn := by
      simp only [Conn.command, hpc, hcs]
    rw [hcarry, hconn]
    simp only [ioEvent, hcs, List.head?_nil, Option.map_none, Option.getD_none]
    exact h
  | cons c cs =>
    -- the command wins the pass, and both drop the read with what it holds
    have hcarry : s.carry (.conn (.command written)) = s.interrupt .command := by
      simp only [carry, hpc, hcs]
    obtain ⟨hfuture, hsocket, heof, hframes⟩ := s.interrupt_kept .command
    obtain ⟨n, g, hshared⟩ := h.shared
    obtain ⟨hloop, hsame, hresult⟩ := command_session hpc hcs hpc'
    rw [hcarry]
    simp only [ioEvent, hcs, List.head?_cons, Option.map_some, Option.getD_some, RunIo.step,
      h.ended, Option.isSome_none, Bool.false_eq_true, if_false, hshared, h.loop, onCommand_beside]
    exact h.pass hloop hsame hresult hfuture hsocket heof hframes

/-- A cancellation does not end the session. -/
theorem result_onCancel (l : Loop) (id : UInt64) : (l.onCancel id).result = none := by
  unfold Loop.onCancel
  split <;> rfl

theorem runsIn_cancel (h : RunsIn io s) (hpc : s.conn.pc = .session) :
    RunsIn (((s.ioEvent (.conn .cancel)).map io.step).getD io) (s.step cfg (.conn .cancel)) := by
  have hstep : s.step cfg (.conn .cancel) =
      { s.carry (.conn .cancel) with conn := s.conn.cancel cfg } := rfl
  rw [hstep]
  cases hcs : s.conn.cancellations with
  | nil =>
    have hcarry : s.carry (.conn .cancel) = s := by
      simp only [carry, hpc, hcs]
    have hconn : s.conn.cancel cfg = s.conn := by
      simp only [Conn.cancel, hpc, hcs]
    rw [hcarry, hconn]
    simp only [ioEvent, hcs, List.head?_nil, Option.map_none, Option.getD_none]
    exact h
  | cons c cs =>
    obtain ⟨id, cause⟩ := c
    have hcarry : s.carry (.conn .cancel) = s.interrupt (.cancellation cause) := by
      simp only [carry, hpc, hcs]
    obtain ⟨hfuture, hsocket, heof, hframes⟩ := s.interrupt_kept (.cancellation cause)
    rw [hcarry]
    simp only [ioEvent, hcs, List.head?_cons, Option.map_some, Option.getD_some, RunIo.step,
      h.ended, Option.isSome_none, Bool.false_eq_true, if_false, h.loop, Conn.cancel, hpc,
      Conn.turn_eq]
    exact h.pass rfl rfl (result_onCancel _ id) hfuture hsocket heof hframes

/-- A frame after which the session goes on. -/
theorem inbound_session {conn : Conn} (hpc : conn.pc = .session) {frame : Bytes}
    {answers : Option ℕ} {written : Result Unit}
    (hpc' : (conn.inbound cfg frame answers written).pc = .session) :
    (conn.inbound cfg frame answers written).loop =
        (conn.loop.onFrame conn.shared frame written).2.loop ∧
      (conn.inbound cfg frame answers written).shared =
        (conn.loop.onFrame conn.shared frame written).1 ∧
      (conn.loop.onFrame conn.shared frame written).2.result = none := by
  have htask : (conn.read frame answers).task = conn.task := by
    unfold Conn.read
    split <;> rfl
  simp only [Conn.inbound, hpc, Conn.turn_eq] at hpc' ⊢
  refine ⟨trivial, trivial, result_none cfg hpc ?_ ?_⟩
  · exact closed_onFrame conn.shared conn.loop frame written
  · rw [← htask]
    exact hpc'

/-- A failed read ends the session. -/
theorem readError_session {conn : Conn} (hpc : conn.pc = .session) :
    (conn.readError cfg).pc ≠ .session := by
  intro hpc'
  simp only [Conn.readError, hpc, Conn.turn_eq] at hpc'
  have hnone := result_none cfg hpc (by simp [Loop.onReadError, Loop.finish]) hpc'
  cases hnone

/-- A read of a TCP stream that completes leaves the next one to a new future. -/
theorem complete_tcp (ht : s.transport = .tcp) (frame rest : Bytes) :
    (s.complete (.ok frame) rest).future = .new ∧ (s.complete (.ok frame) rest).socket = rest ∧
      (s.complete (.ok frame) rest).eof = s.eof ∧
      (s.complete (.ok frame) rest).frames = s.frames ++ [frame] := by
  unfold complete
  rw [ht]
  exact ⟨rfl, rfl, rfl, rfl⟩

theorem reading_session (hpc : s.conn.pc = .session) : s.reading = true := by
  simp only [reading, hpc]

/-- The read completes, and the session goes on after the frame. -/
theorem runsIn_frame (h : RunsIn io s) (ht : s.transport = .tcp) (hpc : s.conn.pc = .session)
    {written : Result Unit} {frame rest : Bytes} (hread : s.read = (.ready (.ok frame), rest))
    (hpoll : io.future.poll io.socket io.eof = (.ready (.ok frame), rest))
    (hpc' : (s.step cfg (.poll written)).conn.pc = .session) :
    RunsIn (io.pollRead written) (s.step cfg (.poll written)) := by
  obtain ⟨n, g, hshared⟩ := h.shared
  obtain ⟨hfuture, hsocket, heof, hframes⟩ := complete_tcp ht frame rest
  have hstep : s.step cfg (.poll written) =
      { s.complete (.ok frame) rest with
        conn := s.conn.inbound cfg frame s.answered written } := by
    simp only [step, carry, event, reading_session hpc, hread, if_true, completes, hpc,
      Option.map_some, Option.getD_some, Conn.step]
  rw [hstep] at hpc' ⊢
  obtain ⟨hloop, hsame, hresult⟩ := inbound_session hpc hpc'
  have hio : io.pollRead written =
      ({ io with
        shared := (s.conn.loop.onFrame s.conn.shared frame written).1.beside n g
        socket := rest
        decoded := io.decoded ++ [frame] } : RunIo).finishPass
          (s.conn.loop.onFrame s.conn.shared frame written).2 := by
    simp only [RunIo.pollRead, hpoll, hshared, h.loop, onFrame_beside]
  rw [hio]
  refine ⟨⟨n, g, ?_⟩, hloop.symm, hfuture.symm, hsocket.symm, h.eof.trans heof.symm, ?_, hresult⟩
  · exact congrArg (Shared.beside · n g) hsame.symm
  · change io.decoded ++ [frame] <:+ (s.complete (.ok frame) rest).frames
    rw [hframes]
    obtain ⟨before, hbefore⟩ := h.decoded
    exact ⟨before, by rw [← List.append_assoc, hbefore]⟩

theorem runsIn_poll (h : RunsIn io s) (ht : s.transport = .tcp) (hpc : s.conn.pc = .session)
    (written : Result Unit) (hpc' : (s.step cfg (.poll written)).conn.pc = .session) :
    RunsIn (io.step (.pollRead written)) (s.step cfg (.poll written)) := by
  have hreading := reading_session hpc
  have hio : io.step (.pollRead written) = io.pollRead written := by
    simp only [RunIo.step, h.ended, Option.isSome_none, Bool.false_eq_true, if_false]
  have hpoll : io.future.poll io.socket io.eof = s.read := by
    simp only [read, ht, h.future, h.socket, h.eof]
  rw [hio]
  rcases hread : s.read with ⟨polled, rest⟩
  rw [hread] at hpoll
  cases polled with
  | pending future =>
    have hstep : s.step cfg (.poll written) = { s with future := future, socket := rest } := by
      simp only [step, carry, event, hreading, hread, if_true, Option.map_none, Option.getD_none]
    have hpending : io.pollRead written = { io with future := future, socket := rest } := by
      simp only [RunIo.pollRead, hpoll]
    rw [hstep, hpending]
    exact ⟨h.shared, h.loop, rfl, rfl, h.eof, h.decoded, h.ended⟩
  | ready result =>
    cases result with
    | error error =>
      -- the session would be lost
      have hconn : (s.step cfg (.poll written)).conn = s.conn.readError cfg := by
        simp only [step, event, hreading, hread, if_true, completes, hpc, Option.map_some,
          Option.getD_some, Conn.step]
      rw [hconn] at hpc'
      exact absurd hpc' (readError_session hpc)
    | ok frame => exact runsIn_frame h ht hpc hread hpoll hpc'

theorem runsIn_hangup (h : RunsIn io s) (hpc : s.conn.pc = .session)
    (hpc' : (s.step cfg (.conn .hangup)).conn.pc = .session) :
    RunsIn io (s.step cfg (.conn .hangup)) := by
  have hstep : s.step cfg (.conn .hangup) = { s with conn := s.conn.hangup cfg } := rfl
  rw [hstep] at hpc' ⊢
  cases hcs : s.conn.commands with
  | nil =>
    -- the task has left the session
    exfalso
    simp only [Conn.hangup, hpc, hcs, Conn.turn_eq] at hpc'
    cases (step_hangup cfg hpc).symm.trans hpc'
  | cons c cs =>
    have hconn : s.conn.hangup cfg = s.conn := by
      simp only [Conn.hangup, hpc, hcs]
    rw [hconn]
    exact h

/-- The session loop of the link does not run in the other events. -/
theorem runsIn_aside (h : RunsIn io s) (hpc : s.conn.pc = .session) {event : Event}
    (hcommand : ∀ written, event ≠ .command written) (hcancel : event ≠ .cancel)
    (hhangup : event ≠ .hangup) : RunsIn io (s.step cfg (.conn event)) := by
  have hsame : ∃ n g, s.conn.shared = s.conn.shared.beside n g :=
    ⟨s.conn.shared.nextRequestId, s.conn.shared.generation, rfl⟩
  have hcarry : s.carry (.conn event) = s := by
    cases event with
    | command written => exact absurd rfl (hcommand written)
    | cancel => exact absurd rfl hcancel
    | dial result => cases result <;> simp [carry, hpc]
    | _ => rfl
  cases hread : isRead event with
  | true =>
    have hstep : s.step cfg (.conn event) = s := by
      simp only [step, hcarry, Link.event, hread, if_true, Option.map_none, Option.getD_none]
    rw [hstep]
    exact h
  | false =>
    have hstep : s.step cfg (.conn event) = { s with conn := s.conn.step cfg event } := by
      simp only [step, hcarry, Link.event, hread, Bool.false_eq_true, if_false, Option.map_some,
        Option.getD_some]
    obtain ⟨hloop, hshared⟩ := step_aside cfg hpc hcommand hcancel hhangup hread
    rw [hstep]
    exact h.congr hshared hloop rfl rfl rfl rfl

/-- **One step of the session loop**, in the link and in `run_io`. -/
theorem runsIn_step (h : RunsIn io s) (ht : s.transport = .tcp) (hpc : s.conn.pc = .session)
    (hfail : ∀ error, e ≠ .fail error) (hpc' : (s.step cfg e).conn.pc = .session) :
    RunsIn (((s.ioEvent e).map io.step).getD io) (s.step cfg e) := by
  have hsame : ∃ n g, s.conn.shared = s.conn.shared.beside n g :=
    ⟨s.conn.shared.nextRequestId, s.conn.shared.generation, rfl⟩
  cases e with
  | write reply => exact h.congr hsame rfl rfl rfl rfl rfl
  | arrive n =>
    cases heof : s.eof with
    | true =>
      have hcarry : s.carry (.arrive n) = s := by
        unfold carry
        exact if_pos heof
      have hstep : s.step cfg (.arrive n) = s := by
        simp only [step, hcarry, Link.event, Option.map_none, Option.getD_none]
      rw [hstep]
      simp only [ioEvent, heof, if_true, Option.map_none, Option.getD_none]
      exact h
    | false =>
      have hstep : s.step cfg (.arrive n) = { s with
          socket := s.socket ++ s.transit.take n
          transit := s.transit.drop n } := by
        simp only [step, carry, Link.event, heof, Bool.false_eq_true, if_false, Option.map_none,
          Option.getD_none]
      rw [hstep]
      simp only [ioEvent, heof, Bool.false_eq_true, if_false, Option.map_some, Option.getD_some,
        RunIo.step, h.ended, Option.isSome_none]
      exact ⟨h.shared, h.loop, h.future, congrArg (· ++ s.transit.take n) h.socket,
        h.eof.trans heof, h.decoded, rfl⟩
  | eof =>
    simp only [ioEvent, Option.map_some, Option.getD_some, RunIo.step, h.ended, Option.isSome_none,
      Bool.false_eq_true, if_false]
    exact ⟨h.shared, h.loop, h.future, h.socket, rfl, h.decoded, rfl⟩
  | poll written => exact runsIn_poll h ht hpc written hpc'
  | fail error => exact absurd rfl (hfail error)
  | conn event =>
    cases event with
    | command written => exact runsIn_command h hpc written hpc'
    | cancel => exact runsIn_cancel h hpc
    | hangup => exact runsIn_hangup h hpc hpc'
    | _ => exact runsIn_aside h hpc (by simp) (by simp) (by simp)

/-- The session goes on, and its transport does not fail but by its end. -/
def Lasts (cfg : Config) (s : Link) (e : LinkEvent) : Prop :=
  (∀ error, e ≠ .fail error) ∧ (s.step cfg e).conn.pc = .session

/-- The run lemma: the session lasts through all the events. -/
theorem runsIn_run {es : List LinkEvent} (h : RunsIn io s) (ht : s.transport = .tcp)
    (hpc : s.conn.pc = .session) (hlasts : Along (step cfg) (Lasts cfg) s es) :
    ∃ ios, RunsIn (run RunIo.step io ios) (run (step cfg) s es) := by
  -- on the events of the link; those that are none of `run_io` leave it where it is
  induction es generalizing s io with
  | nil => exact ⟨[], h⟩
  | cons e es ih =>
    obtain ⟨⟨hfail, hpc'⟩, hrest⟩ := hlasts
    have hstep := runsIn_step h ht hpc hfail hpc'
    obtain ⟨ios, hios⟩ := ih hstep ((carry_transport s e).trans ht) hpc' hrest
    cases hio : s.ioEvent e with
    | none =>
      rw [hio] at hios
      exact ⟨ios, hios⟩
    | some event =>
      rw [hio] at hios
      exact ⟨event :: ios, hios⟩

/-- `run_io` as it finds the connection and the transport. -/
def sessionIo (s : Link) : RunIo where
  shared := s.conn.shared
  loop := s.conn.loop
  future := s.future
  socket := s.socket
  eof := s.eof
  decoded := []
  effects := []
  ended := none

theorem sessionIo_runsIn (s : Link) : RunsIn s.sessionIo s where
  shared := ⟨s.conn.shared.nextRequestId, s.conn.shared.generation, rfl⟩
  loop := rfl
  future := rfl
  socket := rfl
  eof := rfl
  decoded := List.nil_suffix
  ended := rfl

/-- **The session loop of a TCP link is `run_io`.** As long as the session lasts, the loop,
the read future and the socket of the link go through a run of `RunIo`. -/
theorem session_runIo {es : List LinkEvent} (ht : s.transport = .tcp)
    (hpc : s.conn.pc = .session) (hlasts : Along (step cfg) (Lasts cfg) s es) :
    ∃ ios, RunsIn (run RunIo.step s.sessionIo ios) (run (step cfg) s es) :=
  runsIn_run s.sessionIo_runsIn ht hpc hlasts

end Link

end Fitz
