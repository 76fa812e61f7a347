import Fitz.Proof.Cancellation

/-!
# Tombstones

A cancellation that finds no slot leaves its id in `canceled`, for the request that still
waits in the channel. `tombstones_wait_iff`: in every state a run reaches, each tombstone
belongs to such a request if and only if every cancellation taken so far named a request
in flight or in the channel, and no request of an earlier generation was refused before
its tombstone was looked at. `tombstone_left` is a run that breaks it.
-/

namespace Fitz

open Machine

/-- The id under which a request can be canceled. -/
def Command.requestId? : Command → Option UInt64
  | .request id _ _ _ _ _ => some id
  | _ => none

/-- The ids of the requests that wait in the channel. -/
def waiting (commands : List Command) : List UInt64 := commands.filterMap Command.requestId?

/-- The id of a request that the loop refuses for its generation. -/
def Command.staleId? (sessionGeneration : UInt64) : Command → Option UInt64
  | .request id generation _ _ _ _ => if generation = sessionGeneration then none else some id
  | _ => none

/-- While the session loop runs, each tombstone belongs to a request in the channel, so
there is none once the channel is drained. -/
structure TombstonesWait (s : Conn) : Prop where
  waits : s.pc = .session → ∀ id ∈ s.loop.canceled, id ∈ waiting s.commands
  drained : s.pc = .session → s.commands = [] → s.loop.canceled = ∅

/-- The session loop takes no cancellation of a request that is neither in flight nor in
the channel, and refuses no request for its generation that has a tombstone, unless
another one in the channel has the same id. -/
def TakesTimely (s : Conn) : Event → Prop
  | .cancel => s.pc = .session → ∀ p ∈ s.cancellations.head?,
      (s.loop.correlated.lookup p.1).isSome ∨ p.1 ∈ waiting s.commands
  | .command _ => s.pc = .session → ∀ c ∈ s.commands.head?,
      ∀ id ∈ c.staleId? s.loop.sessionGeneration, id ∈ s.loop.canceled →
        id ∈ waiting s.commands.tail
  | _ => True

namespace Conn

variable {cfg : Config} {s : Conn}

theorem tombstonesWait_iff :
    TombstonesWait s ↔ (s.pc = .session → ∀ id ∈ s.loop.canceled, id ∈ waiting s.commands) := by
  constructor
  · exact fun h => h.waits
  · intro h
    refine ⟨h, fun hpc hnil => Finset.eq_empty_of_forall_notMem fun id hid => ?_⟩
    have hmem := h hpc id hid
    rw [hnil] at hmem
    cases hmem

theorem waiting_cons {c : Command} {cs : List Command} {id : UInt64} :
    id ∈ waiting (c :: cs) ↔ c.requestId? = some id ∨ id ∈ waiting cs := by
  unfold waiting
  rw [List.mem_filterMap, List.mem_filterMap, List.exists_mem_cons_iff]

/-! ## The channel -/

theorem commands_command (cfg : Config) (hpc : s.pc = .session) {c : Command} {cs : List Command}
    (hcs : s.commands = c :: cs) (written : Result Unit) : (s.command cfg written).commands = cs := by
  simp only [command, hpc, hcs, turn_eq]
  cases c <;> rfl

/-- Only the loop takes commands from the channel. -/
theorem commands_kept (s : Conn) (e : Event) (hpc : s.pc = .session)
    (he : ∀ written, e ≠ .command written) {id : UInt64} (hid : id ∈ waiting s.commands) :
    id ∈ waiting (s.step cfg e).commands := by
  have hkept : ∀ {commands : List Command}, s.commands <+: commands → id ∈ waiting commands := by
    rintro _ ⟨rest, rfl⟩
    rw [waiting, List.filterMap_append]
    exact List.mem_append_left _ hid
  cases e with
  | command written => exact absurd rfl (he written)
  | enqueue | connect | close =>
    simp only [step, enqueue, push]
    repeat' split
    all_goals first
      | exact hid
      | exact hkept (List.prefix_append _ _)
  | advance =>
    have ha := advance_advanced cfg s
    simp only [step]
    generalize s.advance cfg = s' at ha
    cases ha <;> exact hid
  | cancel | inbound | readError | hangup =>
    simp only [step, cancel, inbound, readError, hangup, turn_eq]
    repeat' split
    all_goals exact hid
  | allocate | stamp | resume | abandon | requestClose | restored | receive | dial | auth
  | restoreNext | restoreRead | restoreFail =>
    simp only [step, allocate, stamp, resume, abandon, dropGuard, requestClose, restored, receive,
      dial, auth, restoreNext, restoreRead, restoreFail, hpc]
    repeat' split
    all_goals exact hid
  | register | deactivate | token | wake => exact hid

/-! ## The branches of the loop -/

/-- Where no tombstone is left for the command taken, each one left waits, and the command
is under no condition. -/
theorem waits_passes (hpc : s.pc = .session) (h : TombstonesWait s) {c : Command} {cs : List Command}
    (hcs : s.commands = c :: cs) {canceled : Finset UInt64}
    (hsub : ∀ id ∈ canceled, id ∈ s.loop.canceled ∧ c.requestId? ≠ some id) {alive : Prop}
    {condition : UInt64 → Prop} :
    (alive → ∀ id ∈ canceled, id ∈ waiting cs) ↔ ∀ id ∈ (none : Option UInt64), condition id := by
  refine iff_of_true (fun _ id hid => ?_) fun id hid => absurd hid (Option.not_mem_none id)
  obtain ⟨hmem, hne⟩ := hsub id hid
  have hwait := h.waits hpc id hmem
  rw [hcs, waiting_cons] at hwait
  exact hwait.resolve_left hne

/-- A refusal does not end the session. -/
theorem command_stale (cfg : Config) (hpc : s.pc = .session) {id generation : UInt64}
    {messageType : UInt16} {flags : UInt8} {payload : Bytes} {t : Ticket} {cs : List Command}
    (hcs : s.commands = .request id generation messageType flags payload t :: cs)
    (hgen : generation ≠ s.loop.sessionGeneration) (written : Result Unit) :
    (s.command cfg written).pc = .session := by
  simp only [command, hpc, hcs, turn_eq, Loop.onCommand, Loop.onRequest, if_pos hgen]
  exact hpc

/-- The tombstone of a refused request stays, without the request. -/
theorem waits_stale (hpc : s.pc = .session) (h : TombstonesWait s) {id generation : UInt64}
    {messageType : UInt16} {flags : UInt8} {payload : Bytes} {t : Ticket} {cs : List Command}
    (hcs : s.commands = .request id generation messageType flags payload t :: cs) :
    (∀ id' ∈ s.loop.canceled, id' ∈ waiting cs) ↔ (id ∈ s.loop.canceled → id ∈ waiting cs) := by
  constructor
  · exact fun hall => hall id
  · intro hid id' hid'
    by_cases heq : id' = id
    · rw [heq] at hid' ⊢
      exact hid hid'
    · have hwait := h.waits hpc id' hid'
      rw [hcs, waiting_cons] at hwait
      exact hwait.resolve_left fun hsome => heq (Option.some.inj hsome).symm

theorem tombstonesWait_command (hb : Base s) (hpc : s.pc = .session) (h : TombstonesWait s)
    (written : Result Unit) :
    TombstonesWait (s.command cfg written) ↔ TakesTimely s (.command written) := by
  obtain ⟨-, hcorr, -⟩ := (negotiated_iff hpc).1 hb.negotiated
  cases hcs : s.commands with
  | nil =>
    have hstay : s.command cfg written = s := by simp only [command, hpc, hcs]
    rw [hstay]
    refine ⟨fun _ _ c hc => ?_, fun _ => h⟩
    rw [hcs] at hc
    cases hc
  | cons c cs =>
    obtain ⟨hf, -⟩ := command_frame cfg hpc hcs written
    have hafter : TombstonesWait (s.command cfg written) ↔ ((s.command cfg written).pc = .session →
        ∀ id ∈ (s.loop.onCommand s.shared c written).loop.canceled, id ∈ waiting cs) := by
      rw [tombstonesWait_iff, hf.loop, commands_command cfg hpc hcs]
    have hlive := hf.live
    have htimely : TakesTimely s (.command written) ↔
        ∀ id ∈ c.staleId? s.loop.sessionGeneration, id ∈ s.loop.canceled → id ∈ waiting cs := by
      unfold TakesTimely
      rw [hcs]
      exact ⟨fun hall => hall hpc c rfl, fun hall _ c' hc' => by cases hc'; exact hall⟩
    rw [hafter, htimely]
    cases c with
    | connect t | close t =>
      exact waits_passes hpc h hcs fun id hid => ⟨hid, (Option.some_ne_none id).symm⟩
    | send id generation messageType payload t =>
      obtain ⟨effects, heq, -⟩ := Loop.onSend_sent s.shared s.loop id generation messageType payload t
        written
      rw [Loop.onCommand, heq]
      exact waits_passes hpc h hcs fun id' hid' => ⟨hid', (Option.some_ne_none id').symm⟩
    | request id generation messageType flags payload t =>
      have hreq := Loop.onRequest_requested (l := s.loop) hcorr id generation messageType flags
        payload t written
      simp only [Loop.onCommand] at hlive ⊢
      generalize s.loop.onRequest s.shared id generation messageType flags payload t written = turn
        at hreq hlive
      cases hreq with
      -- the request leaves the channel before `canceled` is looked at
      | stale hgen =>
        simp only [Loop.next, Command.staleId?, if_neg hgen, command_stale cfg hpc hcs hgen written,
          forall_const, Option.mem_some_iff, forall_eq']
        exact waits_stale hpc h hcs
      | refused hgen | written hgen =>
        simp only [Command.staleId?, if_pos hgen]
        refine waits_passes hpc h hcs fun id' hid' => ?_
        obtain ⟨hne, hmem⟩ := Finset.mem_erase.1 hid'
        exact ⟨hmem, fun hsome => hne (Option.some.inj hsome).symm⟩
      | failed hgen =>
        simp only [Command.staleId?, if_pos hgen]
        constructor
        · intro _ id' hid'
          exact absurd hid' (Option.not_mem_none id')
        · intro _ hpc'
          exact absurd rfl (hlive hpc')

theorem tombstonesWait_cancel (hb : Base s) (hpc : s.pc = .session) (h : TombstonesWait s) :
    TombstonesWait (s.cancel cfg) ↔ TakesTimely s .cancel := by
  obtain ⟨-, -, hl⟩ := (negotiated_iff hpc).1 hb.negotiated
  cases hcan : s.cancellations with
  | nil =>
    have hstay : s.cancel cfg = s := by simp only [cancel, hpc, hcan]
    rw [hstay]
    refine ⟨fun _ _ p hp => ?_, fun _ => h⟩
    rw [hcan] at hp
    cases hp
  | cons p rest =>
    obtain ⟨id, cause⟩ := p
    obtain ⟨hf, -⟩ := cancel_frame cfg hpc hcan
    have htimely : TakesTimely s .cancel ↔
        ((s.loop.correlated.lookup id).isSome ∨ id ∈ waiting s.commands) := by
      unfold TakesTimely
      rw [hcan]
      exact ⟨fun hall => hall hpc (id, cause) rfl, fun hall _ p hp => by cases hp; exact hall⟩
    have hcommands : (s.cancel cfg).commands = s.commands := by
      simp only [cancel, hpc, hcan, turn_eq]
    rw [tombstonesWait_iff, hf.loop, hcommands, htimely]
    have hturn := Loop.onCancel_canceled hl id
    have hstays : (s.loop.onCancel id).result = none → (s.cancel cfg).pc = .session := by
      intro hnone
      simp only [cancel, hpc, hcan, turn_eq, hnone]
      exact hpc
    generalize s.loop.onCancel id = turn at hturn hstays
    cases hturn with
    | outstanding hslot =>
      rw [hslot]
      exact ⟨fun _ => .inl rfl, fun _ _ => h.waits hpc⟩
    -- the id stays, whether its request is still to come or long gone
    | early hslot =>
      simp only [Loop.next, hstays rfl, hslot, Option.isSome_none, Bool.false_eq_true, false_or,
        forall_const]
      constructor
      · exact fun hall => hall id (Finset.mem_insert_self _ _)
      · intro hid id' hid'
        rcases Finset.mem_insert.1 hid' with rfl | hid'
        · exact hid
        · exact h.waits hpc id' hid'

theorem tombstonesWait_inbound (hb : Base s) (hpc : s.pc = .session) (h : TombstonesWait s)
    (frame : Bytes) (answers : Option ℕ) (written : Result Unit) :
    TombstonesWait (s.inbound cfg frame answers written) := by
  obtain ⟨hcap, -, hl⟩ := (negotiated_iff hpc).1 hb.negotiated
  obtain ⟨hf, -⟩ := inbound_frame cfg hb.negotiated hpc frame answers written
  rw [tombstonesWait_iff, hf.loop]
  intro hpc' id hid
  have hlive := hf.live hpc'
  have hmem : id ∈ s.loop.canceled := by
    have hframed := (Loop.onFrame_framed hl hcap frame written).2
    generalize (s.loop.onFrame s.shared frame written).2 = turn at hframed hlive hid
    cases hframed with
    | ended => exact absurd rfl hlive
    | ignored | published | answered => exact hid
  exact commands_kept s (.inbound frame answers written) hpc nofun (h.waits hpc id hmem)

/-- **What one step does to the tombstones.** -/
theorem tombstonesWait_step (s : Conn) (e : Event) (hb : Base s) (h : TombstonesWait s) :
    TombstonesWait (s.step cfg e) ↔ TakesTimely s e := by
  by_cases hpc : s.pc = .session
  · cases he : inSession e with
    | false =>
      have htimely : TakesTimely s e := by
        cases e with
        | command | cancel => cases he
        | _ => trivial
      refine ⟨fun _ => htimely, fun _ => tombstonesWait_iff.2 fun hpc' id hid => ?_⟩
      rw [(session_frame s e hb hpc he hpc').loop] at hid
      refine commands_kept s e hpc (fun written heq => ?_) (h.waits hpc id hid)
      rw [heq] at he
      cases he
    | true =>
      cases e with
      | command written => exact tombstonesWait_command hb hpc h written
      | cancel => exact tombstonesWait_cancel hb hpc h
      | inbound frame answers written =>
        exact ⟨fun _ => trivial, fun _ => tombstonesWait_inbound hb hpc h frame answers written⟩
      | _ => cases he
  · have htimely : TakesTimely s e := by
      cases e with
      | command | cancel => exact fun hs => absurd hs hpc
      | _ => trivial
    refine ⟨fun _ => htimely, fun _ => tombstonesWait_iff.2 fun hpc' id hid => ?_⟩
    -- a loop that was just entered has no tombstone
    rcases session_before s e hpc' with hs | ⟨-, -, hloop⟩
    · exact absurd hs hpc
    · rw [hloop] at hid
      cases hid

end Conn

/-- **Tombstones wait for their requests.** In every state a run reaches each tombstone
belongs to a request in the channel if and only if the session loops of the run took
cancellations and refused requests in time. -/
theorem tombstones_wait_iff (cfg : Config) (es : List Event) :
    (∀ past, past <+: es → TombstonesWait (run (Conn.step cfg) (.new cfg) past)) ↔
      Along (Conn.step cfg) TakesTimely (.new cfg) es :=
  along_iff (J := Conn.Base) (fun s e hb => Conn.base_step s e hb)
    (fun s e hb h => Conn.tombstonesWait_step s e hb h) (Conn.base_new cfg)
    (Conn.tombstonesWait_iff.2 nofun) es

/-- A call times out, and its response is read before its cancellation. -/
def answeredFirstRun : List Event :=
  firstSession 8 ++ requestRun 100 1 ++
    [.command (.ok ()), .abandon 1, .inbound (replyFrame 100 1 [7]) (some 0) (.ok ()), .cancel]

/-- The channel is drained, the id stays in the set. -/
theorem tombstone_left :
    (run (Conn.step ⟨4, ⟨true, 0⟩⟩) (.new ⟨4, ⟨true, 0⟩⟩) answeredFirstRun).pc = .session ∧
      (run (Conn.step ⟨4, ⟨true, 0⟩⟩) (.new ⟨4, ⟨true, 0⟩⟩) answeredFirstRun).commands = [] ∧
      (run (Conn.step ⟨4, ⟨true, 0⟩⟩) (.new ⟨4, ⟨true, 0⟩⟩) answeredFirstRun).loop.canceled = {1} ∧
      ¬ TombstonesWait (run (Conn.step ⟨4, ⟨true, 0⟩⟩) (.new ⟨4, ⟨true, 0⟩⟩) answeredFirstRun) := by
  have hpc : (run (Conn.step ⟨4, ⟨true, 0⟩⟩) (.new ⟨4, ⟨true, 0⟩⟩) answeredFirstRun).pc = .session := by
    decide +kernel
  have hcommands :
      (run (Conn.step ⟨4, ⟨true, 0⟩⟩) (.new ⟨4, ⟨true, 0⟩⟩) answeredFirstRun).commands = [] := by
    decide +kernel
  have hcanceled :
      (run (Conn.step ⟨4, ⟨true, 0⟩⟩) (.new ⟨4, ⟨true, 0⟩⟩) answeredFirstRun).loop.canceled = {1} := by
    decide +kernel
  refine ⟨hpc, hcommands, hcanceled, fun h => ?_⟩
  have hempty := h.drained hpc hcommands
  rw [hcanceled] at hempty
  exact absurd hempty (Finset.singleton_ne_empty 1)

end Fitz
