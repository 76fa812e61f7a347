import Fitz.Proof.Correlation
import Fitz.Proof.Registry

/-!
# Restored registrations

Every restore request carries correlation 1, and a round trip takes the first
frame of its type for its reply. `restores_attributed`: in every run in which no
round trip starts, and no session loop, while a request that would be mistaken
for its own is unanswered, a registration whose restore succeeded holds the id
the broker gave to its own request, and no restore reply reaches a caller.
-/

namespace Fitz

open Machine

/-! ## The condition and the property -/

/-- The frame ends an answer, and its payload carries no extension envelope. -/
def SingleReply (frame : Bytes) (header : FrameHeader) : Prop :=
  header.flags &&& responseFinal ≠ 0 ∧
    (Wire3.decode (frame.drop header.payloadStart) header.messageType header.flags).toOption.map
      Prod.fst = some (frame.drop header.payloadStart)

/-- A round trip starts with no request of its type unanswered, a session loop
with no restore request unanswered, and the reply a round trip takes is whole. -/
def RestoresAlone (s : Conn) : Event → Prop
  | .restoreNext cell _ => s.pc = .restoring → ∀ r ∈ s.todo.find? (·.wireId = cell),
      ∀ f ∈ s.unanswered, f.messageType ≠ r.messageType
  | .advance => s.pc = .entering → ∀ f ∈ s.unanswered, f.origin.isRestore = false
  | .restoreRead frame _ => ∀ header ∈ (decodeFrameHeader frame).toOption, ∀ r ∈ s.current,
      header.messageType = r.messageType → SingleReply frame header
  | _ => True

/-- A reply echoes the correlation and the type of the frame it answers; a frame
that answers nothing has no correlation, and no type that is subscribed with. -/
def Echoes (s : Conn) : Event → Prop
  | .restoreRead frame answers | .inbound frame answers _ =>
    ∀ header ∈ (decodeFrameHeader frame).toOption,
      match s.source answers with
      | some f => header.correlationId = f.correlationId ∧ header.messageType = f.messageType
      | none => header.correlationId = 0 ∧ ∀ r ∈ s.current, header.messageType ≠ r.messageType
  | _ => True

/-- On transport `serial` the broker gave `id` to a frame of an origin in `own`. -/
def Assigned (log : List Obs) (serial : ℕ) (own : Origin → Prop) (decoder : Bytes → Result UInt64)
    (id : UInt64) : Prop :=
  ∃ f frame payload, .received serial (some f) frame ∈ log ∧ own f.origin ∧
    FinalAnswer frame payload ∧ decoder payload = .ok id

/-- No caller was handed the reply to a restore request. -/
def RestoresUndelivered (log : List Obs) : Prop :=
  ∀ serial t payload frame f, .delivered serial t payload frame (some f) ∈ log →
    f.origin.isRestore = false

/-! ## The invariant -/

/-- The unanswered frames, by stretch. -/
structure RestoreInv (st : Stretch) (current : Option Registration) (unanswered : List Sent) :
    Prop where
  alone : st = .restoring → ∀ r ∈ current, ∀ f ∈ unanswered, f.messageType = r.messageType →
    f.origin = .restore r.wireId
  session : st = .session → ∀ f ∈ unanswered, f.origin.isRestore = false

/-- Cells are fresh, and one a restore has set holds what its own reply says. -/
structure HeldInv (nextCell : Cell) (registrations : HashMap UInt64 Registration)
    (todo : List Registration) (current : Option Registration)
    (held : Cell → Option (ℕ × Registration)) (wireIds : Cell → UInt64) (log : List Obs) :
    Prop where
  registrations : ∀ e ∈ registrations.entries, e.2.wireId < nextCell
  todo : ∀ r ∈ todo, r.wireId < nextCell
  current : ∀ r ∈ current, r.wireId < nextCell
  bound : ∀ c p, held c = some p → c < nextCell
  own : ∀ c p, held c = some p → Assigned log p.1 (· = .restore c) p.2.decoder (wireIds c)

theorem Assigned.mono {log log' : List Obs} {serial : ℕ} {own : Origin → Prop}
    {decoder : Bytes → Result UInt64} {id : UInt64} (h : Assigned log serial own decoder id)
    (hlog : ∀ o ∈ log, o ∈ log') : Assigned log' serial own decoder id := by
  obtain ⟨f, frame, payload, hmem, hrest⟩ := h
  exact ⟨f, frame, payload, hlog _ hmem, hrest⟩

section

variable {st st' : Stretch} {current current' : Option Registration} {un un' : List Sent}

/-- A step within a stretch takes frames off the list. -/
theorem RestoreInv.stay (h : RestoreInv st current un) (hst : st' = st ∨ st' = .idle)
    (hcur : ∀ r ∈ current', r ∈ current) (hun : ∀ f ∈ un', f ∈ un) : RestoreInv st' current' un' := by
  rcases hst with rfl | rfl
  · exact ⟨fun hs r hr f hf => h.alone hs r (hcur r hr) f (hun f hf),
      fun hs f hf => h.session hs f (hun f hf)⟩
  · exact ⟨by simp, by simp⟩

/-- A stretch between the two says nothing. -/
theorem RestoreInv.other (h : st ≠ .restoring) (h' : st ≠ .session) : RestoreInv st current un :=
  ⟨fun hs => absurd hs h, fun hs => absurd hs h'⟩

variable {next : Cell} {regs regs' : HashMap UInt64 Registration} {todo todo' : List Registration}
  {held : Cell → Option (ℕ × Registration)} {wireIds : Cell → UInt64} {log log' : List Obs}

/-- A step that sets no cell. -/
theorem HeldInv.keep (h : HeldInv next regs todo current held wireIds log)
    (hregs : ∀ e ∈ regs'.entries, e ∈ regs.entries)
    (htodo : ∀ r ∈ todo', r ∈ todo ∨ ∃ e ∈ regs.entries, r = e.2)
    (hcur : ∀ r ∈ current', r ∈ current ∨ r ∈ todo) (hlog : ∀ o ∈ log, o ∈ log') :
    HeldInv next regs' todo' current' held wireIds log' where
  registrations e he := h.registrations e (hregs e he)
  todo r hr := by
    rcases htodo r hr with hr | ⟨e, he, rfl⟩
    · exact h.todo r hr
    · exact h.registrations e he
  current r hr := (hcur r hr).elim (h.current r) (h.todo r)
  bound := h.bound
  own c p hp := (h.own c p hp).mono hlog

/-- A new registration has a cell of its own. -/
theorem HeldInv.register (h : HeldInv next regs todo current held wireIds log) (key : UInt64)
    (messageType : UInt16) (payload : Bytes) (decoder : Bytes → Result UInt64) (wireId : UInt64) :
    HeldInv (next + 1) (regs.insert key ⟨messageType, payload, next, decoder⟩) todo current held
      (Function.update wireIds next wireId) log where
  registrations e he := by
    rw [AList.entries_insert, List.mem_cons] at he
    rcases he with rfl | he
    · exact Nat.lt_succ_self next
    · exact Nat.lt_succ_of_lt (h.registrations e ((List.kerase_sublist key _).subset he))
  todo r hr := Nat.lt_succ_of_lt (h.todo r hr)
  current r hr := Nat.lt_succ_of_lt (h.current r hr)
  bound c p hp := Nat.lt_succ_of_lt (h.bound c p hp)
  own c p hp := by
    rw [Function.update_of_ne (Nat.ne_of_lt (h.bound c p hp))]
    exact h.own c p hp

/-- A round trip sets the cell of its registration from its own reply. -/
theorem HeldInv.restore (h : HeldInv next regs todo current held wireIds log) {r : Registration}
    (hr : r ∈ current) {serial : ℕ} {wireId : UInt64}
    (hown : Assigned log' serial (· = .restore r.wireId) r.decoder wireId)
    (hlog : ∀ o ∈ log, o ∈ log') :
    HeldInv next regs todo none (Function.update held r.wireId (some (serial, r)))
      (Function.update wireIds r.wireId wireId) log' where
  registrations := h.registrations
  todo := h.todo
  current := (by simp)
  bound c p hp := by
    by_cases hc : c = r.wireId
    · exact hc ▸ h.current r hr
    · exact h.bound c p (by rwa [Function.update_of_ne hc] at hp)
  own c p hp := by
    by_cases hc : c = r.wireId
    · subst hc
      rw [Function.update_self] at hp ⊢
      cases hp
      exact hown
    · rw [Function.update_of_ne hc] at hp ⊢
      exact (h.own c p hp).mono hlog

end

namespace Conn

variable {cfg : Config} {s : Conn}

def restoreInv (s : Conn) : Prop := RestoreInv s.stretch s.current s.unanswered

def heldInv (s : Conn) : Prop :=
  HeldInv s.nextCell s.registrations s.todo s.current s.held s.wireIds s.log

theorem restoreInv_iff {p : Pc} (hpc : s.pc = p) :
    s.restoreInv ↔ RestoreInv p.stretch s.current s.unanswered := by
  rw [restoreInv, stretch, hpc]

theorem restoreInv_supStep (h : s.restoreInv) {e : SupEvent}
    (hst : (s.supStep cfg e).stretch = s.stretch ∨ (s.supStep cfg e).stretch = .idle) :
    (s.supStep cfg e).restoreInv :=
  h.stay hst (fun _ hr => hr) (fun _ hf => hf)

/-- Frames of the session loop are no restore requests. -/
theorem restoreInv_turn (h : s.restoreInv) (hpc : s.pc = .session) {origin : Origin}
    (ho : origin.isRestore = false) (t : Turn) : (s.turn cfg origin t).restoreInv := by
  rw [turn_eq]
  have hlive : RestoreInv .session s.current
      (s.unanswered ++ (t.effects.filterMap Effect.frame?).map (sent origin)) := by
    refine ⟨by simp, fun _ f hf => ?_⟩
    rcases List.mem_append.1 hf with hf | hf
    · exact ((restoreInv_iff hpc).1 h).session rfl f hf
    · obtain ⟨frame, -, rfl⟩ := List.mem_map.1 hf
      rw [sent_origin]
      exact ho
  simp only [restoreInv, stretch, pc] at hpc ⊢
  rcases afterTurn_stretch cfg s.task t.result with hst | hst
  · rw [hst, hpc]
    exact hlive
  · rw [hst]
    exact ⟨by simp, by simp⟩

theorem restoreInv_advance (h : s.restoreInv) (hcond : RestoresAlone s .advance) :
    (s.advance cfg).restoreInv := by
  have ha := advance_advanced cfg s
  generalize s.advance cfg = s' at ha
  cases ha with
  | plain hst => exact h.stay hst (fun _ hr => hr) (fun _ hf => hf)
  | negotiate h' =>
    rw [restoreInv_iff (p := .token) (by exact h')]
    exact .other (by simp [Pc.stretch]) (by simp [Pc.stretch])
  | collect hpc h' =>
    rw [restoreInv_iff (p := .restoring) (by exact h')]
    exact ⟨by simp, by simp [Pc.stretch]⟩
  | restart hpc h' =>
    rw [restoreInv_iff (p := .announcing) (by exact h')]
    exact .other (by simp [Pc.stretch]) (by simp [Pc.stretch])
  | enter hpc h' =>
    rw [restoreInv_iff (p := .session) (by exact h')]
    exact ⟨by simp [Pc.stretch], fun _ => hcond hpc⟩
  | lose h' =>
    simp only [restoreInv, stretch, pc, h']
    exact ⟨by simp, by simp⟩

theorem restoreInv_restoreNext (h : s.restoreInv) {cell : Cell} {written : Result Unit}
    (hcond : RestoresAlone s (.restoreNext cell written)) :
    (s.restoreNext cell written).restoreInv := by
  simp only [restoreNext]
  split
  · rename_i r hpc hcur hfind
    have hcell : r.wireId = cell := by simpa using List.find?_some hfind
    split
    · exact h
    · rename_i frame henc
      split
      · rw [restoreInv_iff (p := .restoring) (by exact hpc)]
        refine ⟨fun _ r' hr' f hf htype => ?_, by simp [Pc.stretch]⟩
        cases hr'
        rcases List.mem_append.1 hf with hf | hf
        · exact absurd htype (hcond hpc r hfind f hf)
        · rw [List.mem_singleton.1 hf, sent_origin, hcell]
      · rw [restoreInv_iff (p := .restoring) (by exact hpc)]
        refine ⟨fun _ r' hr' => ?_, by simp [Pc.stretch]⟩
        simp [wrote, hcur] at hr'
  · exact h

theorem restoreInv_aside (h : s.restoreInv) {e : Event} (he : aside e = true) :
    (s.step cfg e).restoreInv := by
  have hu := untouched_step cfg s he
  have hst := stretch_step cfg s e
  unfold restoreInv
  rw [hu.current, hu.unanswered]
  generalize (s.step cfg e).stretch = st at hst
  cases hst with
  | same => exact h
  | idle | greeted | restored => exact .other (by simp) (by simp)
  | negotiating hadv | dialed hadv | collected hadv | announced hadv | entered hadv =>
    subst hadv
    cases he

theorem restoreInv_step (s : Conn) (e : Event) (h : s.restoreInv) (hcond : RestoresAlone s e) :
    (s.step cfg e).restoreInv := by
  cases e with
  | advance => exact restoreInv_advance h hcond
  | restoreNext cell written => exact restoreInv_restoreNext h hcond
  | restoreRead frame answers =>
    have hread : ∀ current', (∀ r ∈ current', r ∈ s.current) →
        RestoreInv s.stretch current' (s.read frame answers).unanswered :=
      fun current' hcur => h.stay (.inl rfl) hcur fun _ => mem_read
    simp only [step, restoreRead]
    repeat' split
    all_goals first | exact hread none (by simp) | exact hread _ fun _ hr => hr | exact h
  | restoreFail =>
    simp only [step, restoreFail]
    split
    · exact h.stay (.inl rfl) (by simp) (fun _ hf => hf)
    · exact h
  | command written =>
    simp only [step, command]
    split
    · rename_i hpc _
      split
      · exact restoreInv_supStep (restoreInv_turn (by exact h) (by exact hpc) rfl _)
          (supStep_stretch (by simp) (by simp) (by simp) (by simp))
      · exact restoreInv_supStep (restoreInv_turn (by exact h) (by exact hpc) rfl _)
          (supStep_stretch (by simp) (by simp) (by simp) (by simp))
      · exact restoreInv_turn (by exact h) (by exact hpc) rfl _
      · exact restoreInv_turn (by exact h) (by exact hpc) rfl _
    · exact h
  | cancel =>
    simp only [step, cancel]
    split
    · rename_i hpc _
      exact restoreInv_turn (by exact h) (by exact hpc) rfl _
    · exact h
  | inbound frame answers written =>
    simp only [step, inbound]
    split
    · rename_i hpc
      refine restoreInv_turn ?_ (by exact hpc) rfl _
      exact h.stay (.inl rfl) (fun _ hr => hr) fun _ => mem_read
    · exact h
  | readError =>
    simp only [step, readError]
    split
    · rename_i hpc
      exact restoreInv_turn h hpc rfl _
    · exact h
  | hangup =>
    simp only [step, hangup]
    split
    · rename_i hpc _
      refine restoreInv_supStep ?_ (supStep_stretch (by simp) (by simp) (by simp) (by simp))
      exact restoreInv_supStep (restoreInv_turn h hpc rfl _)
        (supStep_stretch (by simp) (by simp) (by simp) (by simp))
    · exact restoreInv_supStep h (supStep_stretch (by simp) (by simp) (by simp) (by simp))
    · exact h
  | dial result =>
    simp only [step, dial]
    split
    · rename_i hpc
      -- a new transport has no restore under way
      rw [restoreInv_iff (p := .handshake) (by exact supStep_dial hpc)]
      exact .other (by simp [Pc.stretch]) (by simp [Pc.stretch])
    · exact restoreInv_supStep h (supStep_dial_ne (by assumption))
  | allocate kind messageType payload =>
    simp only [step, allocate]
    split <;> exact h
  | _ => exact restoreInv_aside h rfl

/-! ## Cells -/

/-- The reply a round trip takes answers its own request. -/
theorem assigned_restore (h : s.restoreInv) {frame : Bytes} {answers : Option ℕ}
    (hcond : RestoresAlone s (.restoreRead frame answers))
    (hecho : Echoes s (.restoreRead frame answers)) (hpc : s.pc = .restoring) {r : Registration}
    (hcur : s.current = some r) {header : FrameHeader} (hh : decodeFrameHeader frame = .ok header)
    (htype : header.messageType = r.messageType) {wireId : UInt64}
    (hdec : r.decoder (frame.drop header.payloadStart) = .ok wireId) :
    Assigned (s.read frame answers).log s.serial (· = .restore r.wireId) r.decoder wireId := by
  have hmem : header ∈ (decodeFrameHeader frame).toOption := by rw [hh]; rfl
  obtain ⟨hfinal, hplain⟩ := hcond header hmem r hcur htype
  obtain ⟨⟨payload, mask⟩, hd, heq⟩ := Option.map_eq_some_iff.1 hplain
  cases heq
  have hwire : Wire3.decode (frame.drop header.payloadStart) header.messageType header.flags =
      .ok (frame.drop header.payloadStart, mask) := by
    cases hw : Wire3.decode (frame.drop header.payloadStart) header.messageType header.flags with
    | error e => rw [hw] at hd; cases hd
    | ok p => rw [hw] at hd; cases hd; rfl
  have hecho' := hecho header hmem
  cases hsrc : s.source answers with
  | none =>
    rw [hsrc] at hecho'
    exact absurd htype (hecho'.2 r hcur)
  | some f =>
    rw [hsrc] at hecho'
    have hf : f ∈ s.unanswered := by
      obtain ⟨i, rfl, hi⟩ := Option.bind_eq_some_iff.1 hsrc
      exact List.mem_of_getElem? hi
    have horigin := ((restoreInv_iff hpc).1 h).alone rfl r hcur f hf (hecho'.2.symm.trans htype)
    refine ⟨f, frame, _, ?_, horigin, ⟨header, mask, hh, hfinal, hwire⟩, hdec⟩
    simp [read, hsrc]

theorem heldInv_step (s : Conn) (e : Event) (hn : s.negotiated) (hr : s.restoreInv) (h : s.heldInv)
    (hcond : RestoresAlone s e) (hecho : Echoes s e) : (s.step cfg e).heldInv := by
  have hlog : ∀ o ∈ s.log, o ∈ (s.step cfg e).log := fun _ => mem_log_step hn
  have hb := booked_step cfg s e
  change HeldInv (s.step cfg e).book.nextCell (s.step cfg e).book.registrations
    (s.step cfg e).book.todo (s.step cfg e).book.current (s.step cfg e).book.held
    (s.step cfg e).book.wireIds (s.step cfg e).log
  generalize (s.step cfg e).book = b at hb
  cases hb with
  | kept => exact h.keep (fun _ he => he) (fun _ hr => .inl hr) (fun _ hr => .inl hr) hlog
  | registered =>
    exact (h.keep (fun _ he => he) (fun _ hr => .inl hr) (fun _ hr => .inl hr) hlog).register ..
  | @deactivated key =>
    refine h.keep (fun e he => ?_) (fun _ hr => .inl hr) (fun _ hr => .inl hr) hlog
    exact (List.kerase_sublist key _).subset he
  | collected =>
    refine h.keep (fun _ he => he) (fun r hr => .inr ?_) (by simp) hlog
    obtain ⟨e, he, rfl⟩ := List.mem_map.1 hr
    exact ⟨e, he, rfl⟩
  | @replayed _ _ r _ _ hfind hcur =>
    refine h.keep (fun _ he => he) (fun _ hr => .inl (List.eraseP_sublist.subset hr))
      (fun r' hr' => ?_) hlog
    rcases hcur with rfl | rfl
    · exact .inl hr'
    · cases hr'
      exact .inr (List.mem_of_find?_eq_some hfind)
  | given => exact h.keep (fun _ he => he) (fun _ hr => .inl hr) (by simp) hlog
  | @answered frame answers _ r _ he hpc hcur hh htype hdec =>
    -- the cell is set from the reply to its own request
    subst he
    have hstep : (s.step cfg (.restoreRead frame answers)).log = (s.read frame answers).log := by
      simp only [step, restoreRead, hpc, hcur, hh, htype, hdec, if_true]
    rw [hstep] at hlog ⊢
    exact h.restore hcur (assigned_restore hr hcond hecho hpc hcur hh htype hdec) hlog

theorem restoresUndelivered_step (s : Conn) (e : Event) (hn : s.negotiated) (h : s.restoreInv)
    (hlog : RestoresUndelivered s.log) : RestoresUndelivered (s.step cfg e).log := by
  obtain ⟨new, hnew, hex⟩ := log_step cfg s e hn
  intro serial t payload frame f hmem
  rw [hnew] at hmem
  rcases List.mem_append.1 hmem with hmem | hmem
  · exact hlog serial t payload frame f hmem
  · obtain ⟨answers, written, -, hpc, -, hsrc, -⟩ := hex _ hmem
    obtain ⟨i, -, hi⟩ := Option.bind_eq_some_iff.1 hsrc.symm
    exact ((restoreInv_iff hpc).1 h).session rfl f (List.mem_of_getElem? hi)

/-- What a run under the condition keeps. -/
structure RestoresInv (s : Conn) : Prop where
  negotiated : s.negotiated
  frames : s.restoreInv
  cells : s.heldInv
  undelivered : RestoresUndelivered s.log

theorem restoresInv_new (cfg : Config) : RestoresInv (.new cfg) where
  negotiated := negotiated_new cfg
  frames := ⟨nofun, nofun⟩
  cells := ⟨by simp [Conn.new], by simp [Conn.new], by simp [Conn.new], by simp [Conn.new],
    by simp [Conn.new]⟩
  undelivered := by simp [RestoresUndelivered, Conn.new]

theorem restoresInv_step (s : Conn) (e : Event) (h : RestoresInv s)
    (hcond : RestoresAlone s e ∧ Echoes s e) : RestoresInv (s.step cfg e) :=
  ⟨negotiated_step s e h.negotiated, restoreInv_step s e h.frames hcond.1,
    heldInv_step s e h.negotiated h.frames h.cells hcond.1 hcond.2,
    restoresUndelivered_step s e h.negotiated h.frames h.undelivered⟩

end Conn

section Decidable

variable (s : Conn)

instance (frame : Bytes) (header : FrameHeader) : Decidable (SingleReply frame header) :=
  inferInstanceAs (Decidable (_ ∧ _))

instance (e : Event) : Decidable (RestoresAlone s e) :=
  match e with
  | .restoreNext cell _ => inferInstanceAs (Decidable (s.pc = .restoring →
      ∀ r ∈ s.todo.find? (·.wireId = cell), ∀ f ∈ s.unanswered, f.messageType ≠ r.messageType))
  | .advance => inferInstanceAs (Decidable (_ → ∀ f ∈ s.unanswered, f.origin.isRestore = false))
  | .restoreRead frame _ => inferInstanceAs (Decidable (∀ header ∈ (decodeFrameHeader frame).toOption,
      ∀ r ∈ s.current, _ → SingleReply frame header))
  | .allocate .. | .stamp .. | .enqueue .. | .resume .. | .abandon .. | .connect | .requestClose
  | .close | .register .. | .deactivate .. | .receive | .hangup | .token .. | .dial .. | .auth ..
  | .restoreFail | .restored | .wake | .cancel | .command .. | .inbound .. | .readError =>
    isTrue trivial

/-- What `Echoes` asks of one frame. -/
instance (frame : Bytes) (answers : Option ℕ) :
    Decidable (∀ header ∈ (decodeFrameHeader frame).toOption,
      match s.source answers with
      | some f => header.correlationId = f.correlationId ∧ header.messageType = f.messageType
      | none => header.correlationId = 0 ∧ ∀ r ∈ s.current, header.messageType ≠ r.messageType) :=
  match s.source answers with
  | some f => inferInstanceAs (Decidable (∀ header ∈ (decodeFrameHeader frame).toOption,
      header.correlationId = f.correlationId ∧ header.messageType = f.messageType))
  | none => inferInstanceAs (Decidable (∀ header ∈ (decodeFrameHeader frame).toOption,
      header.correlationId = 0 ∧ ∀ r ∈ s.current, header.messageType ≠ r.messageType))

instance (e : Event) : Decidable (Echoes s e) :=
  match e with
  | .restoreRead frame answers | .inbound frame answers _ =>
    inferInstanceAs (Decidable (∀ header ∈ (decodeFrameHeader frame).toOption,
      match s.source answers with
      | some f => header.correlationId = f.correlationId ∧ header.messageType = f.messageType
      | none => header.correlationId = 0 ∧ ∀ r ∈ s.current, header.messageType ≠ r.messageType))
  | .allocate .. | .stamp .. | .enqueue .. | .resume .. | .abandon .. | .connect | .requestClose
  | .close | .register .. | .deactivate .. | .receive | .hangup | .token .. | .dial .. | .auth ..
  | .restoreNext .. | .restoreFail | .restored | .wake | .cancel | .command .. | .advance
  | .readError => isTrue trivial

end Decidable

end Fitz
