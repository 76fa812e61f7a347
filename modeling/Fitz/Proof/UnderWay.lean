import Fitz.Model.Feeds
import Fitz.Proof.Conservation

/-!
# What is under way

A request is under way from its id until the broker has answered it, and so is the
SUBSCRIBE of a restore from the snapshot of the registry. No step brings back what is not
(`underWay_step`), but for the ids that are allocated and the next snapshot
(`underWay_collects`); on one transport a registration is restored once
(`restores_step`).
-/

namespace Fitz

open Machine

namespace Conn

variable {cfg : Config} {s : Conn} {e : Event} {t : Ticket}

/-! ## Transports -/

theorem connected_iff (pc : Pc) : pc.connected = true ↔ pc.stretch = .restoring ∨
    pc.stretch = .ready ∨ pc.stretch = .announced ∨ pc.stretch = .session := by
  cases pc <;> simp [Pc.connected, Pc.stretch]

/-- A restore takes its snapshot of the registry. -/
def Collects (cfg : Config) (s : Conn) (e : Event) : Prop :=
  s.pc = .opened ∧ (s.step cfg e).pc = .restoring

theorem restoring_of_stretch (h : s.stretch = .restoring) : s.pc = .restoring := by
  unfold stretch at h
  cases hpc : s.pc <;> simp [hpc, Pc.stretch] at h ⊢

/-- A transport comes up with the snapshot. -/
theorem connected_step (h : (s.step cfg e).pc.connected = true) :
    s.pc.connected = true ∨ s.Collects cfg e := by
  have hst := stretch_step cfg s e
  have hrestoring := restoring_of_stretch (s := s.step cfg e)
  rw [connected_iff] at h
  change (s.step cfg e).stretch = _ ∨ (s.step cfg e).stretch = _ ∨ (s.step cfg e).stretch = _ ∨
    (s.step cfg e).stretch = _ at h
  generalize (s.step cfg e).stretch = st at hst h hrestoring
  cases hst with
  | same => exact .inl ((connected_iff _).2 h)
  | idle | negotiating | dialed | greeted => simp at h
  | collected he hpc => exact .inr ⟨hpc, hrestoring rfl⟩
  | restored he hpc | announced he hpc | entered he hpc =>
    rw [hpc]
    exact .inl rfl

/-! ## Frames -/

/-- The SUBSCRIBEs of restores that are not answered, on whatever transport. -/
def cells (s : Conn) : List Cell := s.unanswered.filterMap (·.origin.cell?)

/-- What a step from `s` to `s'` does to the frames that are not answered, and to the
snapshot. -/
inductive Flown (s s' : Conn) : Prop
  | kept (h : s'.unanswered.Sublist s.unanswered) (htodo : s'.todo = s.todo)
  /-- a restore takes its snapshot -/
  | collected (hpc : s.pc = .opened) (hpc' : s'.pc = .restoring)
      (h : s'.unanswered = s.unanswered)
      (htodo : s'.todo = s.registrations.entries.map fun e => e.2)
  /-- the head of the channel is served -/
  | served {c : Command} {cs : List Command} {origin : Origin} {frames : List Bytes}
      (hpc : s.pc = .session) (hcs : s.commands = c :: cs)
      (h : s'.unanswered = s.unanswered ++ frames.map (sent origin)) (htodo : s'.todo = s.todo)
      (horigin : origin = .queued ∨ ∃ t, c.ticket? = some t ∧ (origin = .request t ∨ origin = .send t))
  /-- the session loop takes another branch -/
  | turned {unanswered : List Sent} {frames : List Bytes} (hpc : s.pc = .session)
      (hsub : unanswered.Sublist s.unanswered)
      (h : s'.unanswered = unanswered ++ frames.map (sent .queued)) (htodo : s'.todo = s.todo)
  /-- a restore goes on to the next registration -/
  | resent {cell : Cell} {r : Registration} (hpc : s.pc = .restoring) (hpc' : s'.pc = .restoring)
      (hfind : s.todo.find? (·.wireId = cell) = some r)
      (htodo : s'.todo = s.todo.eraseP (·.wireId = cell))
      (h : s'.unanswered = s.unanswered ∨
        ∃ frame, s'.unanswered = s.unanswered ++ [sent (.restore cell) frame])

theorem flown_step (cfg : Config) (s : Conn) (e : Event) : Flown s (s.step cfg e) := by
  have hsame : ∀ {s' : Conn}, s'.unanswered = s.unanswered → s'.todo = s.todo → Flown s s' :=
    fun hun htodo => .kept (hun ▸ List.Sublist.refl _) htodo
  cases e with
  | command written =>
    simp only [step, command, turn_eq]
    split
    · rename_i c cs hpc hcs
      split
      · exact .served hpc hcs rfl rfl (.inl rfl)
      · exact .served hpc hcs rfl rfl (.inl rfl)
      · exact .served hpc hcs rfl rfl (.inr ⟨_, rfl, .inl rfl⟩)
      · exact .served hpc hcs rfl rfl (.inr ⟨_, rfl, .inr rfl⟩)
    · exact hsame rfl rfl
  | cancel =>
    simp only [step, cancel, turn_eq]
    split
    · exact .turned (by assumption) (List.Sublist.refl _) rfl rfl
    · exact hsame rfl rfl
  | readError | hangup =>
    simp only [step, readError, hangup, turn_eq]
    split
    · exact .turned (by assumption) (List.Sublist.refl _) rfl rfl
    all_goals exact hsame rfl rfl
  | inbound frame answers written =>
    simp only [step, inbound, turn_eq]
    split
    · exact .turned (by assumption) (read_unanswered s frame answers) rfl rfl
    · exact hsame rfl rfl
  | advance =>
    have ha := advance_advanced cfg s
    simp only [step]
    generalize s.advance cfg = s' at ha
    cases ha with
    | collect hpc hpc' => exact .collected hpc hpc' rfl rfl
    | plain | negotiate | restart | enter | lose => exact hsame rfl rfl
  | restoreNext cell written =>
    simp only [step, restoreNext]
    split
    · rename_i r hpc hcur hfind
      split
      · exact .resent hpc hpc hfind rfl (.inl rfl)
      · split
        · exact .resent hpc hpc hfind rfl (.inr ⟨_, rfl⟩)
        · exact .resent hpc hpc hfind rfl (.inr ⟨_, rfl⟩)
    · exact hsame rfl rfl
  | restoreRead frame answers =>
    have hread : (s.read frame answers).unanswered.Sublist s.unanswered :=
      read_unanswered s frame answers
    simp only [step, restoreRead]
    repeat' split
    all_goals first
      | exact hsame rfl rfl
      | exact .kept hread rfl
  | dial result =>
    simp only [step, dial]
    split
    · exact .kept (List.nil_sublist _) rfl
    · exact hsame rfl rfl
  | allocate kind messageType payload =>
    simp only [step, allocate]
    split <;> exact hsame rfl rfl
  | stamp t | enqueue t | resume t | abandon t | connect | close | requestClose | receive
  | auth answer | restoreFail | restored =>
    simp only [step, stamp, enqueue, resume, abandon, dropGuard, push, requestClose, receive,
      dropCommands, auth, restoreFail, restored]
    repeat' split
    all_goals exact hsame rfl rfl
  | register | deactivate | token | wake => exact hsame rfl rfl

/-- A frame of a request is there before, or its command is in the channel. -/
theorem mem_unanswered_step {f : Sent} (h : f ∈ (s.step cfg e).unanswered)
    (ho : f.origin = .request t) :
    f ∈ s.unanswered ∨ ∃ c ∈ s.commands, c.ticket? = some t := by
  -- a new frame has the origin it is written with
  have hnew : ∀ {unanswered : List Sent} {origin : Origin} {frames : List Bytes},
      f ∈ unanswered ++ frames.map (sent origin) → f ∈ unanswered ∨ origin = .request t := by
    intro unanswered origin frames hmem
    rcases List.mem_append.1 hmem with hmem | hmem
    · exact .inl hmem
    · obtain ⟨frame, -, rfl⟩ := List.mem_map.1 hmem
      exact .inr ((sent_origin origin frame).symm.trans ho)
  cases flown_step cfg s e with
  | kept hun => exact .inl (hun.subset h)
  | collected _ _ hun => exact .inl (hun ▸ h)
  | @served c cs origin frames _ hcs hun _ horigin =>
    rw [hun] at h
    refine (hnew h).imp_right fun hrequest => ⟨c, hcs ▸ List.mem_cons_self, ?_⟩
    obtain rfl | ⟨t', hc, rfl | rfl⟩ := horigin
    · cases hrequest
    · cases hrequest
      exact hc
    · cases hrequest
  | turned _ hsub hun =>
    rw [hun] at h
    exact .inl (hsub.subset ((hnew h).resolve_right (by simp)))
  | @resent cell _ _ _ _ _ hun =>
    rcases hun with hun | ⟨frame, hun⟩
    · exact .inl (hun ▸ h)
    · rw [hun] at h
      have hframe : f ∈ s.unanswered ++ [frame].map (sent (.restore cell)) := h
      exact .inl ((hnew hframe).resolve_right (by simp))

/-- Nothing has been written to the transport that shakes hands. -/
def Clean (s : Conn) : Prop := s.stretch = .handshaking ∨ s.stretch = .opened → s.unanswered = []

/-- Frames join the unanswered in the restore phase and in the session only. -/
theorem unanswered_idle (hrestoring : s.pc ≠ .restoring) (hsession : s.pc ≠ .session) :
    (s.step cfg e).unanswered.Sublist s.unanswered := by
  cases flown_step cfg s e with
  | kept hun => exact hun
  | collected _ _ hun => exact hun ▸ List.Sublist.refl _
  | served hpc | turned hpc => exact absurd hpc hsession
  | resent hpc => exact absurd hpc hrestoring

theorem clean_step (cfg : Config) (s : Conn) (e : Event) (h : s.Clean) : (s.step cfg e).Clean := by
  have hidle : ∀ {st : Stretch}, s.stretch = st → st = .handshaking ∨ st = .opened →
      (s.step cfg e).unanswered = [] := by
    intro st hst hopening
    rw [← hst] at hopening
    have hpcs : s.pc ≠ .restoring ∧ s.pc ≠ .session := by
      constructor <;> intro hpc <;> simp [stretch, hpc, Pc.stretch] at hopening
    have hsub : (s.step cfg e).unanswered.Sublist s.unanswered := unanswered_idle hpcs.1 hpcs.2
    rw [h hopening] at hsub
    exact List.sublist_nil.1 hsub
  have hst := stretch_step cfg s e
  intro hopening
  generalize (s.step cfg e).stretch = st at hst hopening
  cases hst with
  | same => exact hidle rfl hopening
  | dialed he hpc =>
    subst he
    simp only [step, dial, hpc]
  | greeted he hpc => exact hidle (by rw [stretch, hpc]; rfl) (.inl rfl)
  | idle | negotiating | collected | restored | announced | entered => simp at hopening

/-! ## Restores -/

theorem restores_eq (s : Conn) :
    s.restores = s.todo.map (·.wireId) ++ if s.pc.connected then s.cells else [] := by
  unfold restores awaited cells
  split <;> rfl

/-- The frames of calls restore nothing. -/
theorem cells_sent (unanswered : List Sent) {origin : Origin} (ho : origin.cell? = none)
    (frames : List Bytes) :
    (unanswered ++ frames.map (sent origin)).filterMap (·.origin.cell?) =
      unanswered.filterMap (·.origin.cell?) := by
  rw [List.filterMap_append, List.filterMap_map]
  have hnone : frames.filterMap ((·.origin.cell?) ∘ sent origin) = [] :=
    List.filterMap_eq_nil_iff.2 fun frame _ => by simp [ho]
  rw [hnone, List.append_nil]

/-- Outside the restore phase no SUBSCRIBE of a restore is written. -/
theorem restores_sublist {s' : Conn} (hup : s'.pc.connected = true → s.pc.connected = true)
    (htodo : s'.todo = s.todo) (hcells : s'.cells.Sublist s.cells) :
    s'.restores.Sublist s.restores := by
  rw [restores_eq, restores_eq, htodo]
  refine List.Sublist.append_left ?_ _
  split
  · rename_i hconnected
    rw [if_pos (hup hconnected)]
    exact hcells
  · exact List.nil_sublist _

/-- **A registration is restored once.** Its cell goes from the snapshot to the frames, and
no step but the next snapshot brings it back. -/
theorem restores_step (hno : ¬ s.Collects cfg e) :
    (s.step cfg e).restores.Subperm s.restores := by
  have hup : (s.step cfg e).pc.connected = true → s.pc.connected = true :=
    fun h => (connected_step h).resolve_right hno
  cases flown_step cfg s e with
  | kept hun htodo => exact (restores_sublist hup htodo (hun.filterMap _)).subperm
  | collected hpc hpc' => exact absurd ⟨hpc, hpc'⟩ hno
  | @served c cs origin frames _ _ hun htodo horigin =>
    have ho : origin.cell? = none := by
      obtain rfl | ⟨t, -, rfl | rfl⟩ := horigin <;> rfl
    refine (restores_sublist hup htodo ?_).subperm
    unfold cells
    rw [hun, cells_sent _ ho]
  | turned _ hsub hun htodo =>
    refine (restores_sublist hup htodo ?_).subperm
    unfold cells
    rw [hun, cells_sent _ rfl]
    exact hsub.filterMap _
  | @resent cell r hpc hpc' hfind htodo hun =>
    have hcell : r.wireId = cell := by simpa using List.find?_some hfind
    have hmem : cell ∈ s.todo.map (·.wireId) :=
      List.mem_map.2 ⟨r, List.mem_of_find?_eq_some hfind, hcell⟩
    have herase : (s.step cfg e).todo.map (·.wireId) = (s.todo.map (·.wireId)).erase cell := by
      rw [htodo, List.erase_eq_eraseP', List.eraseP_map]
      rfl
    have hcells : (s.step cfg e).cells.Sublist (s.cells ++ [cell]) := by
      unfold cells
      rcases hun with hun | ⟨frame, hun⟩
      · rw [hun]
        exact List.sublist_append_left _ _
      · rw [hun]
        simp [Origin.cell?]
    have hperm : ((s.todo.map (·.wireId)).erase cell ++ (s.cells ++ [cell])).Perm
        (s.todo.map (·.wireId) ++ s.cells) := by
      rw [← List.append_assoc]
      exact (List.perm_append_singleton cell _).trans
        ((List.perm_cons_erase hmem).symm.append_right s.cells)
    rw [restores_eq, restores_eq, hpc, hpc', herase]
    exact (hcells.append_left _).subperm.trans hperm.subperm

/-- The snapshot is the registry, and nothing else is to be restored. -/
theorem restores_collects (hclean : s.Clean) (h : s.Collects cfg e) :
    (s.step cfg e).restores = s.registrations.entries.map fun e => e.2.wireId := by
  obtain ⟨hpc, hpc'⟩ := h
  have hopened : s.stretch = .opened := by rw [stretch, hpc]; rfl
  have hrestoring : (s.step cfg e).stretch = .restoring := by rw [stretch, hpc']; rfl
  have he : e = .advance := by
    have hst := stretch_step cfg s e
    rw [hrestoring] at hst
    generalize hst' : Stretch.restoring = st at hst
    cases hst with
    | same => cases hst'.trans hopened
    | collected he => exact he
    | idle | negotiating | dialed | greeted | restored | announced | entered => cases hst'
  subst he
  have hnone : s.unanswered = [] := hclean (.inr hopened)
  have ha := advance_advanced cfg s
  simp only [step] at hpc' hrestoring ⊢
  generalize s.advance cfg = s' at ha hpc' hrestoring
  cases ha with
  | collect =>
    rw [restores_eq, hpc']
    simp [cells, hnone]
  | plain hst =>
    rcases hst with hst | hst
    · cases hrestoring.symm.trans (hst.trans hopened)
    · cases hrestoring.symm.trans hst
  | negotiate h' => cases h'.symm.trans hpc'
  | restart _ h' => cases h'.symm.trans hpc'
  | enter _ h' => cases h'.symm.trans hpc'
  | lose h' => cases h'.symm.trans hrestoring

/-! ## Requests -/

theorem pending_iff : s.pending t = true ↔
    (∃ call, s.calls.lookup t = some call ∧ call.stage ≠ .waiting) ∨
      ∃ c ∈ s.commands, c.ticket? = some t := by
  unfold pending
  rw [Bool.or_eq_true, Option.any_eq_true, List.any_eq_true]
  simp only [decide_eq_true_eq]

/-- A call comes to have a command to send with its id only. -/
theorem pending_step (hb : Base s) (h : (s.step cfg e).pending t = true) :
    s.pending t = true ∨ t = s.nextTicket := by
  rw [pending_iff] at h ⊢
  rcases h with ⟨call, hcall, hearly⟩ | ⟨c, hc, ht⟩
  · have hwaits := waits_step hb hcall
    rcases called_lookup hcall with hold | ⟨rfl, -⟩ | ⟨old, stage, hold, -⟩
    · exact .inl (.inl ⟨call, hold, hearly⟩)
    · exact .inr rfl
    · exact .inl (.inl ⟨old, hold, fun hst => hearly (hwaits.2 (.inr ⟨old, hold, hst⟩))⟩)
  · rcases commands_step hc ht with hold | ⟨call, g, hcall, hst, -⟩
    · exact .inl (.inr ⟨c, hold, ht⟩)
    · exact .inl (.inl ⟨call, hcall, by rw [hst]; simp⟩)

theorem underWay_request : s.underWay (.request t) = true ↔
    s.pending t = true ∨ ∃ f ∈ s.awaited, f.origin = .request t := by
  unfold underWay
  rw [Bool.or_eq_true, List.any_eq_true]
  simp only [decide_eq_true_eq]

theorem underWay_restore {cell : Cell} :
    s.underWay (.restore cell) = true ↔ cell ∈ s.restores := by
  unfold underWay
  exact decide_eq_true_iff

theorem mem_awaited {f : Sent} : f ∈ s.awaited ↔ s.pc.connected = true ∧ f ∈ s.unanswered := by
  unfold awaited
  split <;> simp [*]

/-- A request that is written was to be written. -/
theorem awaited_step (hclean : s.Clean) {f : Sent} (h : f ∈ (s.step cfg e).awaited)
    (ho : f.origin = .request t) : s.underWay (.request t) = true := by
  obtain ⟨hup, hmem⟩ := mem_awaited.1 h
  rw [underWay_request]
  rcases mem_unanswered_step hmem ho with hold | hcommand
  · rcases connected_step hup with hup | ⟨hpc, -⟩
    · exact .inr ⟨f, mem_awaited.2 ⟨hup, hold⟩, ho⟩
    · rw [hclean (.inr (by rw [stretch, hpc]; rfl))] at hold
      cases hold
  · exact .inl (pending_iff.2 (.inr hcommand))

/-- **What is under way was under way**, but for the next id. -/
theorem underWay_step (hb : Base s) (hclean : s.Clean) (hno : ¬ s.Collects cfg e) {o : Origin}
    (h : (s.step cfg e).underWay o = true) :
    s.underWay o = true ∨ o = .request s.nextTicket := by
  cases o with
  | request t =>
    rcases underWay_request.1 h with hpending | ⟨f, hf, ho⟩
    · rcases pending_step hb hpending with hold | rfl
      · exact .inl (underWay_request.2 (.inl hold))
      · exact .inr rfl
    · exact .inl (awaited_step hclean hf ho)
  | restore cell =>
    exact .inl (underWay_restore.2 ((restores_step hno).subset (underWay_restore.1 h)))
  | send | queued => cases h

/-- With a snapshot the registry is under way, and the requests that are yet to be
written. -/
theorem underWay_collects (hb : Base s) (hclean : s.Clean) (h : s.Collects cfg e) {o : Origin}
    (ho : (s.step cfg e).underWay o = true) :
    (∃ t, o = .request t ∧ (s.pending t = true ∨ t = s.nextTicket)) ∨
      ∃ entry ∈ s.registrations.entries, o = .restore entry.2.wireId := by
  cases o with
  | request t =>
    refine .inl ⟨t, rfl, ?_⟩
    rcases underWay_request.1 ho with hpending | ⟨f, hf, hrequest⟩
    · exact pending_step hb hpending
    · have hnone : s.awaited = [] := by
        unfold awaited
        rw [h.1]
        rfl
      rcases underWay_request.1 (awaited_step hclean hf hrequest) with hpending | ⟨f, hf, -⟩
      · exact .inl hpending
      · rw [hnone] at hf
        cases hf
  | restore cell =>
    rw [underWay_restore, restores_collects hclean h] at ho
    obtain ⟨entry, hmem, rfl⟩ := List.mem_map.1 ho
    exact .inr ⟨entry, hmem, rfl⟩
  | send | queued => cases ho

/-- A frame of a call is written for the head of the channel. -/
theorem pending_of_callsWritten (hn : s.negotiated) (h : t ∈ s.callsWritten cfg e) :
    s.pending t = true := by
  obtain ⟨new, hnew, -⟩ := log_step cfg s e hn
  have hwritten : (s.step cfg e).written = s.written ++ s.callsWritten cfg e := by
    rw [callsWritten, written, written, hnew, List.drop_left, List.filterMap_append]
  -- the written calls are as before, but for that of the head
  have hnone : (s.step cfg e).written = s.written → s.pending t = true := by
    intro heq
    rw [List.append_right_eq_self.1 (hwritten.symm.trans heq)] at h
    cases h
  have hp := passed_step cfg s e hn
  generalize hs' : s.step cfg e = s' at hp
  rw [hs'] at hnone hwritten
  cases hp with
  | kept _ _ _ heq | joined _ _ _ heq | received _ _ _ _ _ heq | shut _ _ _ _ _ heq
  | began _ _ _ _ heq | turned _ _ _ _ _ heq => exact hnone heq
  | @served c cs _ _ hcs _ _ _ heq =>
    rcases heq with heq | ⟨t', hc, heq⟩
    · exact hnone heq
    · rw [List.append_cancel_left (hwritten.symm.trans heq)] at h
      obtain rfl := List.mem_singleton.1 h
      exact pending_iff.2 (.inr ⟨c, hcs ▸ List.mem_cons_self, hc⟩)

/-- The same connection but for its registry. -/
structure Beside (s s' : Conn) : Prop where
  calls : s'.calls = s.calls
  commands : s'.commands = s.commands
  todo : s'.todo = s.todo
  unanswered : s'.unanswered = s.unanswered
  pc : s'.pc = s.pc
  nextTicket : s'.nextTicket = s.nextTicket

theorem Beside.pending {s' : Conn} (h : s.Beside s') (t : Ticket) : s'.pending t = s.pending t := by
  rw [Conn.pending, Conn.pending, h.calls, h.commands]

theorem Beside.underWay {s' : Conn} (h : s.Beside s') (o : Origin) :
    s'.underWay o = s.underWay o := by
  have hawaited : s'.awaited = s.awaited := by
    rw [awaited, awaited, h.pc, h.unanswered]
  cases o with
  | request t => rw [Conn.underWay, Conn.underWay, h.pending, hawaited]
  | restore cell => rw [Conn.underWay, Conn.underWay, restores, restores, h.todo, hawaited]
  | send | queued => rfl

/-! ## Runs -/

/-- The cells of what is registered and of what is restored are new ones, and differ. -/
structure Celled (s : Conn) : Prop where
  known : ∀ r, Known s r → r.wireId < s.nextCell
  registry : (s.registrations.entries.map fun e => e.2.wireId).Nodup
  restored : ∀ cell ∈ s.restores, cell < s.nextCell
  once : s.restores.Nodup

theorem celled_step (cfg : Config) (s : Conn) (e : Event) (hclean : s.Clean) (h : s.Celled) :
    (s.step cfg e).Celled := by
  have hnext : s.nextCell ≤ (s.step cfg e).nextCell := nextCell_step s e
  refine ⟨fun r hr => ?_, ?_, ?_, ?_⟩
  · rcases known_step hr with hold | ⟨_, _, _, _, rfl, hnew⟩
    · exact (h.known r hold).trans_le hnext
    · rw [hnew]
      exact Nat.lt_succ_self _
  · have hb := booked_step cfg s e
    change ((s.step cfg e).book.registrations.entries.map fun e => e.2.wireId).Nodup
    generalize (s.step cfg e).book = b at hb
    cases hb with
    | registered he =>
      rw [AList.entries_insert, List.map_cons, List.nodup_cons]
      have hsub : (s.registrations.entries.kerase s.nextRegistrationId).Sublist
        s.registrations.entries := List.kerase_sublist _ _
      refine ⟨fun hmem => ?_, h.registry.sublist (hsub.map _)⟩
      obtain ⟨entry, hentry, heq⟩ := List.mem_map.1 hmem
      have hlt := h.known entry.2 (.inl ⟨entry, hsub.subset hentry, rfl⟩)
      exact absurd heq (Nat.ne_of_lt hlt)
    | deactivated he => exact h.registry.sublist ((List.kerase_sublist _ _).map _)
    | kept | collected | replayed | given | answered => exact h.registry
  · by_cases hc : s.Collects cfg e
    · rw [restores_collects hclean hc]
      intro cell hmem
      obtain ⟨entry, hentry, rfl⟩ := List.mem_map.1 hmem
      exact (h.known entry.2 (.inl ⟨entry, hentry, rfl⟩)).trans_le hnext
    · exact fun cell hmem => (h.restored cell ((restores_step hc).subset hmem)).trans_le hnext
  · by_cases hc : s.Collects cfg e
    · rw [restores_collects hclean hc]
      exact h.registry
    · obtain ⟨cells, hperm, hsub⟩ := restores_step hc
      exact hperm.nodup_iff.1 (h.once.sublist hsub)

/-- What every run of a connection keeps. -/
structure Running (s : Conn) : Prop where
  counted : ∃ entered, Conserved entered s
  clean : s.Clean
  celled : s.Celled

theorem Running.base (h : s.Running) : Base s := by
  obtain ⟨entered, hcounted⟩ := h.counted
  exact hcounted.numbered.base

theorem running_new (cfg : Config) : (new cfg).Running := by
  have hnone : (new cfg).restores = [] := rfl
  refine ⟨⟨[], conserved_new cfg⟩, fun _ => rfl, ?_, ?_, ?_, ?_⟩
  · simp [Known, new]
  · simp [new]
  · simp [hnone]
  · simp [hnone]

theorem running_step (cfg : Config) (s : Conn) (e : Event) (h : s.Running) :
    (s.step cfg e).Running := by
  obtain ⟨entered, hcounted⟩ := h.counted
  exact ⟨⟨_, conserved_step hcounted⟩, clean_step cfg s e h.clean,
    celled_step cfg s e h.clean h.celled⟩

/-- **A request that is answered is not yet to be written.** -/
theorem not_pending_of_response (h : s.Running) {payload : Bytes}
    (hresponse : s.response t = some payload) : s.pending t = false := by
  obtain ⟨entered, hcounted⟩ := h.counted
  have htickets := hcounted.numbered.base.tickets
  have hanswered : t ∈ s.answers.map Prod.fst := by
    unfold response at hresponse
    split at hresponse
    · rename_i t' payload' hfind
      have ht' : t' = t := by simpa using List.find?_some hfind
      exact List.mem_map.2 ⟨_, List.mem_of_find?_eq_some hfind, ht'⟩
    · cases hresponse
  have hsettled : 0 < (s.answers.map Prod.fst).count t := List.count_pos_iff.2 hanswered
  rw [← Bool.not_eq_true, pending_iff]
  rintro (⟨call, hcall, hearly⟩ | ⟨c, hc, ht⟩)
  · -- it never entered the channel
    obtain ⟨epoch, hissued⟩ := htickets.call t call hcall
    have hnot : t ∉ entered := fun hin => hearly ((hcounted.waits t call hcall).2 hin)
    have hplaces := hcounted.places t (by rw [hissued]; rfl)
    rw [List.count_eq_zero_of_not_mem hnot, places] at hplaces
    omega
  · -- it would have two places
    have hqueued : t ∈ s.queuedCalls := List.mem_filterMap.2 ⟨c, hc, ht⟩
    have hcount : 0 < s.queuedCalls.count t := List.count_pos_iff.2 hqueued
    have hissued := htickets.flown t (List.mem_append_left _ hqueued)
    have hplaces := hcounted.places t hissued
    have honce := List.nodup_iff_count_le_one.1 hcounted.nodup t
    rw [places] at hplaces
    omega

end Conn

end Fitz
