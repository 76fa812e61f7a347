import Fitz.Proof.Outcomes
import Fitz.Proof.Sends

/-!
# The way of a command

Where a call can be in the connection: its command in the channel, its sender in a slot
of the session loop, or its `oneshot` settled. `Passed` lists what a step can do to these
three places and to the frames written for calls, guards included, and `passed_step`
shows that it does nothing else. What the connection keeps of its callers is proved from
this table.
-/

namespace Fitz

open Machine

/-- The command an effect tells that it was received or sent. -/
def Effect.acknowledged? : Effect → Option Ticket
  | .acknowledge t _ => some t
  | _ => none

/-! ## Acknowledgements -/

@[simp] theorem acknowledged?_failAll (l : Loop) :
    l.failAll.2.filterMap Effect.acknowledged? = [] := by
  simp only [Loop.failAll, List.filterMap_map]
  exact List.filterMap_eq_nil_iff.2 fun _ _ => rfl

theorem acknowledged?_eq_nil {effects : List Effect}
    (h : ∀ t r, Effect.acknowledge t r ∉ effects) : effects.filterMap Effect.acknowledged? = [] := by
  refine List.filterMap_eq_nil_iff.2 fun e he => ?_
  cases e with
  | acknowledge t r => exact absurd he (h t r)
  | respond | release | write | publish => rfl

/-- What a turn settles is what it answers and what it acknowledges. -/
theorem count_answer? (effects : List Effect) (t : Ticket) :
    ((effects.filterMap Conn.answer?).map Prod.fst).count t =
      (effects.filterMap Effect.settled?).count t +
        (effects.filterMap Effect.acknowledged?).count t := by
  induction effects with
  | nil => rfl
  | cons e effects ih =>
    cases e <;>
      simp only [List.filterMap_cons, Conn.answer?, Effect.settled?, Effect.outcome?, Option.map_some,
        Option.map_none, Effect.acknowledged?, List.map_cons, List.count_cons] at ih ⊢ <;>
      omega

/-- A served command is a request, whose caller then waits or is answered, or it is
acknowledged. -/
theorem onCommand_acknowledged (sh : Shared) (l : Loop) (c : Command) (written : Result Unit) :
    c.requester?.toList ++
      (l.onCommand sh c written).effects.filterMap Effect.acknowledged? = [c.response] := by
  cases c with
  | request id generation messageType flags payload t =>
    have hnone : (l.onRequest sh id generation messageType flags payload t
        written).effects.filterMap Effect.acknowledged? = [] :=
      acknowledged?_eq_nil fun _ _ => Conn.acknowledge_onRequest
    simp only [Loop.onCommand, hnone]
    rfl
  | send id generation messageType payload t =>
    simp only [Loop.onCommand, Loop.onSend]
    repeat' split
    all_goals rfl
  | connect t => rfl
  | close t =>
    simp only [Loop.onCommand, Loop.finish, List.filterMap_append, acknowledged?_failAll]
    rfl

theorem onCancel_acknowledged {l : Loop} (hl : l.Correlating) (id : UInt64) :
    (l.onCancel id).effects.filterMap Effect.acknowledged? = [] := by
  have hc := Loop.onCancel_canceled hl id
  generalize l.onCancel id = turn at hc
  cases hc with
  | @outstanding slot _ =>
    cases slot.response <;> simp [Loop.next, Loop.releaseOpt, Effect.acknowledged?]
  | early => rfl

/-! ## Slots -/

/-- In a session that correlates, each slot stands for a request. -/
theorem slotInv_correlating {l : Loop} (hl : l.Correlating) : ∃ taken, SlotInv taken l := by
  refine ⟨l.correlated.entries.filterMap fun e => e.2.response.map fun t =>
    .request e.1 0 0 0 [] t, fun id slot t hid ht => ?_, ?_, ?_⟩
  · refine ⟨0, 0, 0, [], List.mem_filterMap.2 ⟨⟨id, slot⟩, ?_, by simp [ht]⟩⟩
    exact AList.mem_lookup_iff.1 hid
  · simp [hl.pending]
  · simp [hl.queued]

namespace Conn

variable {cfg : Config} {s : Conn} {e : Event}

/-- The calls whose frames were written, oldest first. -/
def written (s : Conn) : List Ticket := s.log.filterMap Obs.wrote?

/-- The call whose command `e` puts into the channel. -/
def enters (cfg : Config) (s : Conn) : Event → List Ticket
  | .enqueue t =>
    match (s.calls.lookup t).map Call.stage with
    | some (.stamped _) =>
      if s.pc = .done ∨ s.commands.length ≥ cfg.capacity.toNat then [] else [t]
    | _ => []
  | _ => []

/-- A turn that takes no command: it settles callers in the slots, or nobody. -/
structure Settles (s : Conn) (turn : Turn) : Prop where
  accounted : ∃ sh frame, ∀ taken, SlotInv taken s.loop →
    AccountedTurn sh frame taken [] s.loop turn
  acknowledged : turn.effects.filterMap Effect.acknowledged? = []

/-- What the event `e` in `s` does to commands, slots and answers. -/
inductive Passed (cfg : Config) (s : Conn) (e : Event) (s' : Conn) : Prop
  /-- nothing moves -/
  | kept (hcommands : s'.commands = s.commands) (hloop : s'.loop = s.loop)
      (hanswers : s'.answers = s.answers) (hwritten : s'.written = s.written)
      (hpc : s.pc = .session → s'.pc = .session) (henters : s.enters cfg e = [])
  /-- a command joins the channel -/
  | joined {c : Command} (hcommands : s'.commands = s.commands ++ [c]) (hloop : s'.loop = s.loop)
      (hanswers : s'.answers = s.answers) (hwritten : s'.written = s.written)
      (hpc : s.pc = .session → s'.pc = .session) (henters : s.enters cfg e = c.ticket?.toList)
  /-- `supervise` receives a command: calls are refused -/
  | received {c : Command} {cs : List Command} (hpc : s.pc ≠ .session) (hcs : s.commands = c :: cs)
      (hcommands : s'.commands = cs) (hloop : s'.loop = s.loop)
      (hanswers : s'.answers = s.answers ++
        c.ticket?.toList.map fun t => (t, some (.error .connectionClosed)))
      (hwritten : s'.written = s.written) (henters : s.enters cfg e = [])
  /-- `supervise` receives `Close` and returns: the senders of what is queued behind it are
  dropped -/
  | shut {t : Ticket} {cs : List Command} (hpc : s.pc ≠ .session)
      (hcs : s.commands = .close t :: cs) (hcommands : s'.commands = []) (hloop : s'.loop = s.loop)
      (hanswers : s'.answers = s.answers ++
        (cs.filterMap Command.ticket?).map fun t => (t, none))
      (hwritten : s'.written = s.written) (henters : s.enters cfg e = [])
  /-- a session begins -/
  | began {generation : UInt64} (hpc : s.pc ≠ .session) (hcommands : s'.commands = s.commands)
      (hloop : s'.loop = .new generation) (hanswers : s'.answers = s.answers)
      (hwritten : s'.written = s.written) (henters : s.enters cfg e = [])
  /-- the session loop serves a command -/
  | served {c : Command} {cs : List Command} {written : Result Unit} (hpc : s.pc = .session)
      (hcs : s.commands = c :: cs) (hcommands : s'.commands = cs)
      (hloop : s'.loop = (s.loop.onCommand s.shared c written).loop)
      (hanswers : s'.answers = s.answers ++
        (s.loop.onCommand s.shared c written).effects.filterMap answer?)
      (hwritten : s'.written = s.written ∨
        ∃ t, c.ticket? = some t ∧ s'.written = s.written ++ [t])
      (hend : s'.pc ≠ .session → (s.loop.onCommand s.shared c written).result ≠ none)
      (henters : s.enters cfg e = [])
  /-- the session loop takes another branch -/
  | turned {turn : Turn} (hpc : s.pc = .session) (hturn : Settles s turn)
      (hcommands : s'.commands = s.commands) (hloop : s'.loop = turn.loop)
      (hanswers : s'.answers = s.answers ++ turn.effects.filterMap answer?)
      (hwritten : s'.written = s.written) (hend : s'.pc ≠ .session → turn.result ≠ none)
      (henters : s.enters cfg e = [])

/-! ## The task in a session -/

/-- What the supervisor is told in a session does not end it, unless the transport
failed, a caller closes or all are gone. -/
theorem sup_session {policy : ReconnectPolicy} {sup : Sup} {e : SupEvent} (hpc : sup.pc = .session)
    (hclose : ∀ t, e ≠ .close t) (hhangup : e ≠ .hangup) (hlost : e ≠ .disconnected) :
    (sup.step policy e).1.pc = .session := by
  obtain ⟨pc, n, i, c⟩ := sup
  cases hpc
  cases e with
  | close t => exact absurd rfl (hclose t)
  | hangup => exact absurd rfl hhangup
  | disconnected => exact absurd rfl hlost
  | connect | advance | token | dial | auth | restored | wake | requestClose => rfl

theorem supStep_session {e : SupEvent} (hpc : s.pc = .session) (hclose : ∀ t, e ≠ .close t)
    (hhangup : e ≠ .hangup) (hlost : e ≠ .disconnected) : (s.supStep cfg e).pc = .session :=
  sup_session hpc hclose hhangup hlost

/-- A turn after which the task has left the session said that it ends. -/
theorem result_of_left {task : Supervised} (hpc : task.sup.pc = .session) {r : Option SessionResult}
    (h : (afterTurn cfg task r).sup.pc ≠ .session) : r ≠ none := by
  intro hr
  rw [hr] at h
  exact h hpc

/-- `Close` ends the session. -/
theorem step_close (cfg : Config) {task : Supervised} (hpc : task.sup.pc = .session) (t : Ticket) :
    (task.step cfg.reconnect (.close t)).sup.pc = .closing t := by
  obtain ⟨⟨pc, n, i, closeRequested⟩, state, acts⟩ := task
  cases hpc
  rfl

/-! ## The task that returns -/

/-- `supervise` returns upon a close that it receives, or when all callers are gone. -/
theorem move_done {policy : ReconnectPolicy} {e : SupEvent} {s s' : Sup} {acts : List Act}
    (hm : Move policy e s s' acts) (hpc : s'.pc = .done) :
    s.pc = .done ∨ (∃ t, e = .close t) ∨ e = .hangup := by
  cases hm with
  | stay | requestClose => exact .inl hpc
  | closeIdle t => exact .inr (.inl ⟨t, rfl⟩)
  | hangupIdle => exact .inr (.inr rfl)
  | _ => cases hpc

theorem supStep_done {e' : SupEvent} (hclose : ∀ t, e' ≠ .close t) (hhangup : e' ≠ .hangup)
    (hpc : (s.supStep cfg e').pc = .done) : s.pc = .done := by
  rcases move_done (step_move cfg.reconnect s.task.sup e') hpc with h | ⟨t, h⟩ | h
  · exact h
  · exact absurd h (hclose t)
  · exact absurd h hhangup

/-- No turn of the session loop returns from `supervise`. -/
theorem afterTurn_done {task : Supervised} (hpc : task.sup.pc = .session)
    (r : Option SessionResult) : (afterTurn cfg task r).sup.pc ≠ .done := by
  intro hdone
  cases r with
  | none => exact absurd (hpc.symm.trans hdone) (by simp)
  | some r =>
    cases r with
    | closed => exact absurd (hpc.symm.trans hdone) (by simp)
    | disconnected =>
      have hlost := afterTurn_lost cfg hpc
      rw [hdone] at hlost
      cases hlost

/-! ## What is written -/

/-- The frames of a turn, as the log has them. -/
theorem wrote?_obs (serial : ℕ) (origin : Origin) (effects : List Effect) :
    (effects.filterMap (obs? serial origin)).filterMap Obs.wrote? =
      (effects.filterMap Effect.frame?).filterMap fun _ => origin.ticket? := by
  induction effects with
  | nil => rfl
  | cons e effects ih =>
    cases e <;> simp only [List.filterMap_cons, obs?, Effect.frame?, Obs.wrote?, ih]

theorem wrote?_queued (serial : ℕ) (effects : List Effect) :
    (effects.filterMap (obs? serial .queued)).filterMap Obs.wrote? = [] := by
  rw [wrote?_obs]
  exact List.filterMap_eq_nil_iff.2 fun _ _ => rfl

theorem wrote?_buried (s : Conn) (c : Command) : (s.buried c).filterMap Obs.wrote? = [] := by
  unfold buried
  split
  · split <;> rfl
  · rfl

theorem wrote?_releases (cause : Ticket) (effects : List Effect) :
    (releases cause effects).filterMap Obs.wrote? = [] := by
  refine List.filterMap_eq_nil_iff.2 fun o ho => ?_
  obtain ⟨e, -, he⟩ := List.mem_filterMap.1 ho
  cases e with
  | release t =>
    cases he
    rfl
  | respond | acknowledge | write | publish => cases he

theorem wrote?_deliveries (s : Conn) (frame : Bytes) (answers : Option ℕ) (effects : List Effect) :
    (s.deliveries frame answers effects).filterMap Obs.wrote? = [] := by
  refine List.filterMap_eq_nil_iff.2 fun o ho => ?_
  obtain ⟨e, -, he⟩ := List.mem_filterMap.1 ho
  cases e with
  | respond t r =>
    cases r with
    | ok =>
      cases he
      rfl
    | error => cases he
  | release | acknowledge | write | publish => cases he

/-- A served command writes its call's frame, or none. -/
theorem written_command (hn : s.negotiated) (hpc : s.pc = .session) {c : Command}
    {cs : List Command} (hcs : s.commands = c :: cs) (written : Result Unit) :
    (s.command cfg written).written = s.written ∨
      ∃ t, c.ticket? = some t ∧ (s.command cfg written).written = s.written ++ [t] := by
  obtain ⟨-, hcorr, -⟩ := (negotiated_iff hpc).1 hn
  have hframes := onCommand_frames (l := s.loop) hcorr c written
  cases c with
  | connect t | close t =>
    left
    simp only [Conn.written, command, hpc, hcs, turn_eq, supStep, List.filterMap_append,
      wrote?_buried, wrote?_queued, List.append_nil]
  | request id generation messageType flags payload t | send id generation messageType payload t =>
    simp only [Conn.written, command, hpc, hcs, turn_eq, List.filterMap_append, wrote?_buried,
      wrote?_obs, List.append_nil]
    rcases hframes with hw | ⟨-, frame, hw⟩
    · left
      simp [hw]
    · exact .inr ⟨t, rfl, by simp [hw, Origin.ticket?]⟩

/-! ## The table -/

theorem passed_advance (s : Conn) : Passed cfg s .advance (s.advance cfg) := by
  have hsession : s.pc = .session → (s.advance cfg).pc = .session := by
    intro hpc
    have hstay : (s.supStep cfg .advance).pc = .session :=
      supStep_session hpc (by simp) (by simp) (by simp)
    simp only [advance, hpc, hstay]
  have ha := advance_advanced cfg s
  generalize s.advance cfg = s' at ha hsession
  cases ha with
  | enter hpc => exact .began (by rw [hpc]; simp) rfl rfl rfl rfl rfl
  | plain | negotiate | collect | restart | lose => exact .kept rfl rfl rfl rfl hsession rfl

theorem passed_command (hn : s.negotiated) (written : Result Unit) :
    Passed cfg s (.command written) (s.command cfg written) := by
  by_cases hpc : s.pc = .session
  · cases hcs : s.commands with
    | nil =>
      have hstay : s.command cfg written = s := by simp only [command, hpc, hcs]
      rw [hstay]
      exact .kept rfl rfl rfl rfl id rfl
    | cons c cs =>
      have hwritten : (s.command cfg written).written = s.written ∨
          ∃ t, c.ticket? = some t ∧ (s.command cfg written).written = s.written ++ [t] :=
        written_command hn hpc hcs written
      have hloop : (s.command cfg written).loop = (s.loop.onCommand s.shared c written).loop := by
        cases c <;> simp only [command, hpc, hcs, turn_eq, supStep]
      have hcommands : (s.command cfg written).commands = cs := by
        cases c <;> simp only [command, hpc, hcs, turn_eq, supStep]
      have hanswers : (s.command cfg written).answers = s.answers ++
          (s.loop.onCommand s.shared c written).effects.filterMap answer? := by
        cases c <;> simp only [command, hpc, hcs, turn_eq, supStep]
      refine .served hpc hcs hcommands hloop hanswers hwritten (fun hleft => ?_) rfl
      cases c with
      | request id generation messageType flags payload t
      | send id generation messageType payload t =>
        simp only [command, hpc, hcs, turn_eq] at hleft
        exact result_of_left hpc hleft
      | close t => simp [Loop.onCommand, Loop.finish]
      | connect t =>
        simp only [command, hpc, hcs, turn_eq, Loop.onCommand, Loop.next, afterTurn] at hleft
        exact absurd (supStep_session hpc (by simp) (by simp) (by simp)) hleft
  · have hstay : s.command cfg written = s := by
      unfold command
      split
      · exact absurd ‹_› hpc
      · rfl
    rw [hstay]
    exact .kept rfl rfl rfl rfl id rfl

/-- The end of the session. -/
theorem settles_finish (s : Conn) (result : SessionResult) : Settles s (s.loop.finish [] result) where
  accounted := ⟨s.shared, none, fun _ h => (Accounted.refl h).finished result⟩
  acknowledged := by simp only [Loop.finish, List.nil_append, acknowledged?_failAll]

theorem passed_cancel (hn : s.negotiated) : Passed cfg s .cancel (s.cancel cfg) := by
  unfold cancel
  split
  · rename_i id cause rest hpc hcan
    obtain ⟨-, -, hl⟩ := (negotiated_iff hpc).1 hn
    have hturn : Settles s (s.loop.onCancel id) :=
      ⟨⟨s.shared, none, fun _ h => onCancel_accounted h id⟩, onCancel_acknowledged hl id⟩
    simp only [turn_eq]
    refine .turned hpc hturn rfl rfl rfl ?_ (fun hleft => result_of_left hpc hleft) rfl
    simp only [Conn.written, List.filterMap_append, wrote?_releases, wrote?_queued, List.append_nil]
  · exact .kept rfl rfl rfl rfl id rfl

theorem passed_inbound (s : Conn) (frame : Bytes) (answers : Option ℕ) (written : Result Unit) :
    Passed cfg s (.inbound frame answers written) (s.inbound cfg frame answers written) := by
  unfold inbound
  split
  · rename_i hpc
    have hturn : Settles s (s.loop.onFrame s.shared frame written).2 :=
      ⟨⟨s.shared, some frame, fun _ h => onFrame_accounted h frame written⟩,
        acknowledged?_eq_nil fun _ _ => acknowledge_onFrame⟩
    simp only [turn_eq]
    refine .turned hpc hturn rfl rfl rfl ?_ (fun hleft => result_of_left hpc hleft) rfl
    have hread : [Obs.received s.serial (s.source answers) frame].filterMap Obs.wrote? = [] := rfl
    simp only [Conn.written, read, List.filterMap_append, wrote?_deliveries, wrote?_queued, hread,
      List.append_nil]
  · exact .kept rfl rfl rfl rfl id rfl

theorem passed_enqueue (s : Conn) (t : Ticket) : Passed cfg s (.enqueue t) (s.enqueue cfg t) := by
  unfold enqueue
  cases hcall : s.calls.lookup t with
  | none => exact .kept rfl rfl rfl rfl id (by simp [enters, hcall])
  | some call =>
    cases hstage : call.stage with
    | allocated | waiting =>
      simp only [hstage]
      exact .kept rfl rfl rfl rfl id (by simp [enters, hcall, hstage])
    | stamped generation =>
      simp only [hstage]
      by_cases hfull : s.pc = .done ∨ s.commands.length ≥ cfg.capacity.toNat
      · rw [if_pos hfull]
        refine .kept rfl rfl rfl rfl id ?_
        simp only [enters, hcall, hstage, Option.map_some, if_pos hfull]
      · rw [if_neg hfull]
        refine .joined (c := commandOf t call generation) rfl rfl rfl rfl id ?_
        simp only [enters, hcall, hstage, Option.map_some, if_neg hfull, commandOf]
        split <;> rfl

/-- **What a step does to commands, slots and answers.** -/
theorem passed_step (cfg : Config) (s : Conn) (e : Event) (hn : s.negotiated) :
    Passed cfg s e (s.step cfg e) := by
  have hkept : ∀ {s' : Conn}, s'.commands = s.commands → s'.loop = s.loop →
      s'.answers = s.answers → s'.log = s.log → (s.pc = .session → s'.pc = .session) →
      s.enters cfg e = [] → Passed cfg s e s' := fun h1 h2 h3 h4 h5 h6 =>
    .kept h1 h2 h3 (congrArg (List.filterMap Obs.wrote?) h4) h5 h6
  have hstay : ∀ e' : SupEvent, (∀ t, e' ≠ .close t) → e' ≠ .hangup → e' ≠ .disconnected →
      s.pc = .session → (s.supStep cfg e').pc = .session := fun e' h1 h2 h3 hpc =>
    supStep_session hpc h1 h2 h3
  cases e with
  | advance => exact passed_advance s
  | command written => exact passed_command hn written
  | cancel => exact passed_cancel hn
  | inbound frame answers written => exact passed_inbound s frame answers written
  | enqueue t => exact passed_enqueue s t
  | readError =>
    simp only [step, readError, turn_eq]
    split
    · rename_i hpc
      refine .turned hpc (settles_finish s _) rfl rfl rfl ?_ (fun _ => by simp [Loop.finish]) rfl
      simp only [Conn.written, List.filterMap_append, wrote?_queued, List.append_nil]
    · exact hkept rfl rfl rfl rfl id rfl
  | hangup =>
    simp only [step, hangup, turn_eq]
    split
    · rename_i hpc hcs
      refine .turned hpc (settles_finish s .closed) rfl rfl rfl ?_ (fun _ => by simp [Loop.finish]) rfl
      simp only [Conn.written, supStep, List.filterMap_append, wrote?_queued, List.append_nil]
    · rename_i hpc hcs
      exact hkept rfl rfl rfl rfl (fun h => by rw [hpc] at h; cases h) rfl
    · exact hkept rfl rfl rfl rfl id rfl
  | receive =>
    simp only [step, receive]
    split
    · rename_i c cs hpc hcs
      have hidle : s.pc ≠ .session := by rw [hpc]; simp
      cases c with
      | connect t =>
        exact .received hidle hcs rfl rfl (by simp [supStep, Command.ticket?]) rfl rfl
      | close t => exact .shut hidle hcs rfl rfl rfl rfl rfl
      | request id generation messageType flags payload t
      | send id generation messageType payload t => exact .received hidle hcs rfl rfl rfl rfl rfl
    · exact hkept rfl rfl rfl rfl id rfl
  | connect | close =>
    simp only [step, push]
    repeat' split
    all_goals first
      | exact hkept rfl rfl rfl rfl id rfl
      | exact .joined rfl rfl rfl rfl id rfl
  | restoreNext cell written =>
    simp only [step, restoreNext]
    repeat' split
    all_goals first
      | exact hkept rfl rfl rfl rfl id rfl
      | exact .kept rfl rfl rfl (by simp [Conn.written, wrote, Obs.wrote?, Origin.ticket?]) id rfl
  | restoreRead frame answers =>
    simp only [step, restoreRead]
    repeat' split
    all_goals first
      | exact hkept rfl rfl rfl rfl id rfl
      | exact .kept rfl rfl rfl (by simp [Conn.written, read, Obs.wrote?]) id rfl
  | allocate kind messageType payload =>
    simp only [step, allocate]
    split <;> exact hkept rfl rfl rfl rfl id rfl
  | stamp t | resume t | abandon t | restoreFail =>
    simp only [step, stamp, resume, abandon, dropGuard, restoreFail]
    repeat' split
    all_goals exact hkept rfl rfl rfl rfl id rfl
  | requestClose =>
    simp only [step, requestClose]
    split
    · exact hkept rfl rfl rfl rfl id rfl
    · exact hkept rfl rfl rfl rfl (hstay .requestClose (by simp) (by simp) (by simp)) rfl
  | dial result =>
    simp only [step, dial]
    split
    · exact hkept rfl rfl rfl rfl (hstay (.dial _) (by simp) (by simp) (by simp)) rfl
    · exact hkept rfl rfl rfl rfl (hstay (.dial _) (by simp) (by simp) (by simp)) rfl
  | auth answer =>
    simp only [step, auth]
    split
    · split
      · exact hkept rfl rfl rfl rfl (hstay (.auth _) (by simp) (by simp) (by simp)) rfl
      · exact hkept rfl rfl rfl rfl (hstay (.auth _) (by simp) (by simp) (by simp)) rfl
    · exact hkept rfl rfl rfl rfl id rfl
  | restored =>
    simp only [step, restored]
    split
    · exact hkept rfl rfl rfl rfl (hstay .restored (by simp) (by simp) (by simp)) rfl
    · exact hkept rfl rfl rfl rfl id rfl
  | token result =>
    exact hkept rfl rfl rfl rfl (hstay (.token result) (by simp) (by simp) (by simp)) rfl
  | wake => exact hkept rfl rfl rfl rfl (hstay .wake (by simp) (by simp) (by simp)) rfl
  | register | deactivate => exact hkept rfl rfl rfl rfl id rfl

end Conn

end Fitz
