import Fitz.Proof.Notifications
import Fitz.Proof.Asked
import Fitz.Model.LeaseObserver

/-!
# Where a call was answered

`Delivering` holds in every run of a connection: what a caller finds in its `oneshot`
was delivered to it, and whatever was delivered is there. So `responseOn` names the
transport of the session in which the answer arrived (`responseOn_step`).
-/

namespace Fitz

open Machine

namespace Conn

variable {cfg : Config} {s : Conn} {e : Event}

/-- Answers are only added. -/
theorem answers_step (cfg : Config) (s : Conn) (e : Event) :
    ∃ new, (s.step cfg e).answers = s.answers ++ new := by
  have hsame : ∃ new, s.answers = s.answers ++ new := ⟨[], (List.append_nil _).symm⟩
  cases e with
  | advance =>
    have ha := advance_advanced cfg s
    simp only [step]
    generalize s.advance cfg = s' at ha
    cases ha <;> exact hsame
  | command written =>
    simp only [step, command, turn_eq]
    split
    · split <;> exact ⟨_, rfl⟩
    · exact hsame
  | cancel =>
    simp only [step, cancel, turn_eq]
    split
    · exact ⟨_, rfl⟩
    · exact hsame
  | inbound frame answers written =>
    simp only [step, inbound, turn_eq]
    split
    · exact ⟨_, rfl⟩
    · exact hsame
  | readError | hangup =>
    simp only [step, readError, hangup, turn_eq]
    split
    · exact ⟨_, rfl⟩
    all_goals exact hsame
  | receive =>
    simp only [step, receive]
    split
    · split
      · exact hsame
      all_goals exact ⟨_, rfl⟩
    · exact hsame
  | allocate kind messageType payload =>
    simp only [step, allocate]
    split <;> exact hsame
  | stamp t | enqueue t | resume t | abandon t | connect | close | requestClose | dial result
  | auth answer | restoreNext cell written | restoreRead frame answers | restoreFail | restored =>
    simp only [step, stamp, enqueue, resume, abandon, dropGuard, push, requestClose, dial, auth,
      restoreNext, restoreRead, restoreFail, restored]
    repeat' split
    all_goals exact hsame
  | register | deactivate | token | wake => exact hsame

/-- What was delivered to a caller is in its `oneshot`, or was too late for it. -/
def DeliveriesAnswered (log : List Obs) (answers : List (Ticket × Option (Result Bytes))) : Prop :=
  ∀ serial t payload frame source, .delivered serial t payload frame source ∈ log →
    (t, some (.ok payload)) ∈ answers

theorem deliveriesAnswered_step (s : Conn) (e : Event) (hn : s.negotiated)
    (h : DeliveriesAnswered s.log s.answers) :
    DeliveriesAnswered (s.step cfg e).log (s.step cfg e).answers := by
  intro serial t payload frame source hmem
  obtain ⟨new, hnew, hex⟩ := log_step cfg s e hn
  rw [hnew] at hmem
  rcases List.mem_append.1 hmem with hmem | hmem
  · obtain ⟨more, hmore⟩ := answers_step cfg s e
    rw [hmore]
    exact List.mem_append_left _ (h serial t payload frame source hmem)
  · -- the turn that logs a delivery settles the `oneshot`
    obtain ⟨answers, written, rfl, hpc, -, -, heff⟩ := hex _ hmem
    simp only [step, inbound, hpc, turn_eq]
    exact List.mem_append_right _ (List.mem_filterMap.2 ⟨_, heff, rfl⟩)

/-- What every run of a connection keeps about its answers. -/
structure Delivering (s : Conn) : Prop where
  base : Base s
  answers : AnswersDelivered s.answers s.log
  answered : DeliveriesAnswered s.log s.answers
  asked : ∃ asked taken, AskedInv s asked taken

theorem delivering_new (cfg : Config) : Delivering (.new cfg) where
  base := base_new cfg
  answers := by simp [AnswersDelivered, Conn.new]
  answered := by simp [DeliveriesAnswered, Conn.new]
  asked := ⟨_, _, askedInv_new cfg⟩

theorem delivering_step (cfg : Config) (s : Conn) (e : Event) (h : Delivering s) :
    Delivering (s.step cfg e) where
  base := base_step s e h.base
  answers := answersDelivered_step s e h.answers
  answered := deliveriesAnswered_step s e h.base.negotiated h.answered
  asked := by
    obtain ⟨asked, taken, hasked⟩ := h.asked
    exact ⟨_, _, askedInv_step s e h.base hasked⟩

/-- Only a call that was made is answered. -/
theorem Delivering.lt_nextTicket (h : Delivering s) {serial : ℕ} {t : Ticket} {payload frame : Bytes}
    {source : Option Sent} (hmem : .delivered serial t payload frame source ∈ s.log) :
    t < s.nextTicket := by
  obtain ⟨asked, taken, hasked⟩ := h.asked
  obtain ⟨ask, hask, -⟩ := hasked.delivered serial t payload frame source hmem
  exact hasked.fresh t ask hask

/-! ## The events of callers -/

/-- A caller leaves the session, the answers and the log as they are. -/
structure Kept (s s' : Conn) : Prop where
  pc : s'.pc = s.pc
  serial : s'.serial = s.serial
  answers : s'.answers = s.answers
  log : s'.log = s.log

theorem kept_step (cfg : Config) (s : Conn) {e : Event} (he : e.supervised = false) :
    Kept s (s.step cfg e) := by
  cases e with
  | allocate kind messageType payload =>
    simp only [step, allocate]
    split <;> exact ⟨rfl, rfl, rfl, rfl⟩
  | requestClose =>
    simp only [step, requestClose]
    split
    · exact ⟨rfl, rfl, rfl, rfl⟩
    · have hpc : (s.task.sup.step cfg.reconnect .requestClose).1.pc = s.task.sup.pc := by
        unfold Sup.step
        split <;> simp_all
      exact ⟨hpc, rfl, rfl, rfl⟩
  | stamp t | enqueue t | resume t | abandon t | connect | close =>
    simp only [step, stamp, enqueue, resume, abandon, dropGuard, push]
    repeat' split
    all_goals exact ⟨rfl, rfl, rfl, rfl⟩
  | register | deactivate => exact ⟨rfl, rfl, rfl, rfl⟩
  | _ => cases he

/-! ## Sessions -/

/-- A session is on one transport. -/
theorem serial_session (hn : s.negotiated) (hpc : s.pc = .session) :
    (s.step cfg e).serial = s.serial :=
  serial_step cfg hn e (by simp [stretch, hpc, Pc.stretch])

/-- A session goes on, or begins. -/
theorem session_step (hn : s.negotiated) (h' : (s.step cfg e).pc = .session) :
    (s.pc = .session ∧ (s.step cfg e).serial = s.serial) ∨ e = .advance ∧ s.pc = .entering := by
  rcases session_before s e h' with hpc | ⟨hpc, he, -⟩
  · exact .inl ⟨hpc, serial_session hn hpc⟩
  · exact .inr ⟨he, hpc⟩

/-! ## The transport of an answer -/

theorem responseOn_append {log new : List Obs} {t : Ticket} {response : Bytes} {serial : ℕ}
    (h : responseOn log t response = some serial) : responseOn (log ++ new) t response = some serial := by
  unfold responseOn at h ⊢
  rw [List.findSome?_append, h]
  rfl

theorem responseOn_of_delivered {log : List Obs} {t : Ticket} {response : Bytes} {serial : ℕ}
    (hmem : ∃ frame source, .delivered serial t response frame source ∈ log)
    (hall : ∀ serial' payload frame source, .delivered serial' t payload frame source ∈ log →
      serial' = serial) : responseOn log t response = some serial := by
  obtain ⟨frame, source, hmem⟩ := hmem
  cases hon : responseOn log t response with
  | none =>
    have hne := List.findSome?_eq_none_iff.1 hon _ hmem
    simp at hne
  | some on =>
    obtain ⟨frame', source', ho⟩ := delivered_of_responseOn hon
    rw [hall on response frame' source' ho]

/-- **An answer arrives in the session of its transport.** -/
theorem responseOn_step (h : Delivering s) {t : Ticket} {response : Bytes}
    (hnone : s.answers.find? (·.1 = t) = none)
    (hsome : (s.step cfg e).answers.find? (·.1 = t) = some (t, some (.ok response)))
    (hne : response ≠ []) : s.pc = .session ∧ e ≠ .advance ∧
      responseOn (s.step cfg e).log t response = some s.serial := by
  -- nothing was delivered to the call before
  have hbefore : ∀ serial payload frame source, .delivered serial t payload frame source ∉ s.log := by
    intro serial payload frame source hmem
    have hanswer := h.answered serial t payload frame source hmem
    have hnot := List.find?_eq_none.1 hnone _ hanswer
    exact hnot (decide_eq_true rfl)
  obtain ⟨new, hnew, hex⟩ := log_step cfg s e h.base.negotiated
  have hdelivered := ((delivering_step cfg s e h).answers t response
    (List.mem_of_find?_eq_some hsome)).resolve_left hne
  obtain ⟨serial, frame, source, hmem⟩ := hdelivered
  have hlate : ∀ serial payload frame source,
      .delivered serial t payload frame source ∈ (s.step cfg e).log →
        .delivered serial t payload frame source ∈ new := by
    intro serial payload frame source hmem
    rw [hnew] at hmem
    exact (List.mem_append.1 hmem).resolve_left (hbefore serial payload frame source)
  obtain ⟨answers, written, rfl, hpc, rfl, -, -⟩ := hex _ (hlate serial response frame source hmem)
  refine ⟨hpc, by simp, responseOn_of_delivered ⟨frame, source, hmem⟩ ?_⟩
  intro serial payload frame' source' hmem'
  obtain ⟨-, -, -, -, hserial, -, -⟩ := hex _ (hlate serial payload frame' source' hmem')
  exact hserial

end Conn

end Fitz
