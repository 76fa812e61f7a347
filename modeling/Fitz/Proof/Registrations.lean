import Fitz.Proof.Asked
import Fitz.Proof.Notifications

/-!
# No registration is lost

A live handle is registered, and the restore of a new session replays what it finds
registered; a handle that registers after that snapshot, with a response of the
session before, is not replayed, and its own request was not sent here either.
`registrations_sent`: in every run in which no handle registers so late and no write
of a restore fails, every live handle has had its registration sent on each session
that is announced, by the restore or by its own `subscribe`.
-/

namespace Fitz

open Machine

/-! ## Handles over a connection -/

namespace Subscription

/-- The cell of the registration, once there is a handle. -/
def cell? (sub : Subscription) : Option Cell :=
  match sub.stage with
  | .registered cell _ _ => some cell
  | _ => none

/-- The call of a `subscribe` that has not returned. -/
def pending? (sub : Subscription) : Option Ticket :=
  match sub.stage with
  | .requested t | .answered t _ => some t
  | _ => none

/-- What it subscribes with. -/
def ask (sub : Subscription) : UInt16 × Bytes := (sub.topic.subscribeType, putString sub.pattern)

end Subscription

/-- The cell is that of a registration in the registry. -/
def Conn.InRegistry (s : Conn) (cell : Cell) : Prop :=
  ∃ e ∈ s.registrations.entries, e.2.wireId = cell

instance (s : Conn) (cell : Cell) : Decidable (s.InRegistry cell) :=
  inferInstanceAs (Decidable (∃ e ∈ s.registrations.entries, e.2.wireId = cell))

/-- `deactivate` is called through the last handle of its registration, when it is
unsubscribed or dropped; a registration is shared while it is registered. -/
def Subs.Possible (s : Subs) : SubEvent → Prop
  | .conn (.deactivate key) => ∀ r ∈ s.conn.registrations.lookup key, ∀ sub ∈ s.subs,
      sub.cell? = some r.wireId → sub.closed = true
  | .share _ j => ∀ other ∈ s.subs[j]?, ∀ cell ∈ other.cell?, s.conn.InRegistry cell
  | _ => True

/-- Subscriptions, with what calls asked for and the frames the transports took. -/
structure Roster where
  subs : Subs
  asked : Ticket → Option (UInt16 × Bytes)
  taken : List (ℕ × Bytes)

section Decidable

instance (s : Subs) (e : SubEvent) : Decidable (s.Possible e) :=
  match e with
  | .conn (.deactivate key) => inferInstanceAs (Decidable (∀ r ∈ s.conn.registrations.lookup key,
      ∀ sub ∈ s.subs, sub.cell? = some r.wireId → sub.closed = true))
  | .share _ j => inferInstanceAs (Decidable (∀ other ∈ s.subs[j]?, ∀ cell ∈ other.cell?,
      s.conn.InRegistry cell))
  | .conn (.allocate ..) | .conn (.stamp _) | .conn (.enqueue _) | .conn (.resume _)
  | .conn (.abandon _) | .conn .connect | .conn .requestClose | .conn .close
  | .conn (.register ..) | .conn .advance | .conn .receive | .conn .hangup | .conn (.token _)
  | .conn (.dial _) | .conn (.auth _) | .conn (.restoreNext ..) | .conn (.restoreRead ..)
  | .conn .restoreFail | .conn .restored | .conn .wake | .conn (.command _) | .conn .cancel
  | .conn (.inbound ..) | .conn .readError | .listen .. | .request _ | .receive _ | .register _
  | .poll _ | .close _ => isTrue trivial

end Decidable

namespace Roster

def new (cfg : Config) : Roster := ⟨.new cfg, fun _ => none, []⟩

def step (cfg : Config) (json : Bytes → Except String DecodedStreamNotifyPayload) (r : Roster)
    (e : SubEvent) : Roster :=
  if r.subs.Possible e then
    let subs := r.subs.step cfg json e
    let frames := match e with
      | .conn e => r.subs.conn.takes e
      | _ => []
    ⟨subs, Conn.remember r.asked subs.conn.calls, r.taken ++ frames.map (r.subs.conn.serial, ·)⟩
  else r

end Roster

/-! ## The condition and the property -/

/-- The restore of the transport has taken its snapshot of the registry. -/
def Conn.collected (s : Conn) : Bool :=
  match s.stretch with
  | .restoring | .ready | .announced | .session => true
  | _ => false

/-- The key of the next registration is not in use. -/
def Conn.FreeKey (s : Conn) : Prop := (s.registrations.lookup s.nextRegistrationId).isNone

instance (s : Conn) : Decidable s.FreeKey :=
  inferInstanceAs (Decidable ((s.registrations.lookup s.nextRegistrationId).isNone = true))

/-- The response of a `subscribe` is of the transport, if its snapshot is taken. -/
def SubStage.InTime (s : Conn) : SubStage → Prop
  | .answered t response => s.collected = true → responseOn s.log t response = some s.serial
  | _ => True

instance (s : Conn) (stage : SubStage) : Decidable (stage.InTime s) :=
  match stage with
  | .answered t response => inferInstanceAs
      (Decidable (s.collected = true → responseOn s.log t response = some s.serial))
  | .listening | .requested _ | .registered .. => isTrue trivial

/-- No handle registers after the snapshot of a session with the response of another,
or under a key that is in use, and no write of a restore fails. -/
def Timely (r : Roster) : SubEvent → Prop
  | .register i => r.subs.conn.FreeKey ∧ ∀ sub ∈ r.subs.subs[i]?, sub.stage.InTime r.subs.conn
  | .conn (.register ..) => r.subs.conn.FreeKey
  | .conn (.restoreNext _ written) => written = .ok ()
  | _ => True

instance (r : Roster) (e : SubEvent) : Decidable (Timely r e) :=
  match e with
  | .register i => inferInstanceAs
      (Decidable (r.subs.conn.FreeKey ∧ ∀ sub ∈ r.subs.subs[i]?, sub.stage.InTime r.subs.conn))
  | .conn (.register ..) => inferInstanceAs (Decidable r.subs.conn.FreeKey)
  | .conn (.restoreNext _ written) => inferInstanceAs (Decidable (written = .ok ()))
  | .conn (.allocate ..) | .conn (.stamp _) | .conn (.enqueue _) | .conn (.resume _)
  | .conn (.abandon _) | .conn .connect | .conn .requestClose | .conn .close
  | .conn (.deactivate _) | .conn .advance | .conn .receive | .conn .hangup | .conn (.token _)
  | .conn (.dial _) | .conn (.auth _) | .conn (.restoreRead ..)
  | .conn .restoreFail | .conn .restored | .conn .wake | .conn (.command _) | .conn .cancel
  | .conn (.inbound ..) | .conn .readError | .listen .. | .request _ | .receive _ | .share ..
  | .poll _ | .close _ => isTrue trivial

/-- **No registration is lost.** Once the session is announced, each live handle has
had its registration sent on it. -/
def RegistrationsSent (r : Roster) : Prop :=
  r.subs.conn.pc = .entering ∨ r.subs.conn.pc = .session →
    ∀ sub ∈ r.subs.subs, sub.cell?.isSome → sub.closed = false →
      Carried r.taken r.subs.conn.serial sub.ask

/-! ## The registry and its snapshot -/

namespace Conn

variable {cfg : Config} {s : Conn} {taken : List (ℕ × Bytes)} {cell : Cell} {ask : UInt16 × Bytes}

/-- A registration in the registry was there before, or is new. -/
theorem inRegistry_before {e : Event} (hcell : cell < s.nextCell)
    (h : (s.step cfg e).InRegistry cell) : s.InRegistry cell := by
  have hb := booked_step cfg s e
  obtain ⟨entry, hmem, hw⟩ := h
  change entry ∈ (s.step cfg e).book.registrations.entries at hmem
  generalize (s.step cfg e).book = b at hb hmem
  cases hb with
  | registered =>
    rw [AList.entries_insert, List.mem_cons] at hmem
    rcases hmem with rfl | hmem
    · exact absurd hw.symm (Nat.ne_of_lt hcell)
    · exact ⟨entry, (List.kerase_sublist _ _).subset hmem, hw⟩
  | deactivated => exact ⟨entry, (List.kerase_sublist _ _).subset hmem, hw⟩
  | kept | collected | replayed | given | answered => exact ⟨entry, hmem, hw⟩

/-- A registration stays in the registry, unless it is deactivated or its key taken
again. -/
theorem inRegistry_step {e : Event} (h : s.InRegistry cell)
    (hfree : ∀ messageType payload wireId decoder,
      e = .register messageType payload wireId decoder → s.FreeKey)
    (hkept : ∀ key, e = .deactivate key → ∀ r ∈ s.registrations.lookup key, r.wireId ≠ cell) :
    (s.step cfg e).InRegistry cell := by
  have hb := booked_step cfg s e
  obtain ⟨entry, hmem, hw⟩ := h
  have hlookup : s.registrations.lookup entry.1 = some entry.2 :=
    AList.mem_lookup_iff.2 hmem
  refine ⟨entry, ?_, hw⟩
  change entry ∈ (s.step cfg e).book.registrations.entries
  generalize (s.step cfg e).book = b at hb
  cases hb with
  | kept | collected | replayed | given | answered => exact hmem
  | registered he =>
    -- the key is free, so the insertion erases nothing
    have hnone := hfree _ _ _ _ he
    rw [AList.entries_insert, List.mem_cons]
    right
    rw [List.kerase_of_notMem_keys]
    · exact hmem
    · intro hkey
      have hsome := AList.lookup_isSome.2 (show s.nextRegistrationId ∈ s.registrations from hkey)
      rw [FreeKey, Option.isNone_iff_eq_none] at hnone
      rw [hnone] at hsome
      cases hsome
  | @deactivated key he =>
    -- no entry of the cell is under the key, and others stay
    have hne : entry.1 ≠ key := by
      rintro rfl
      exact hkept _ he entry.2 hlookup hw
    have hlookup' : (s.registrations.erase key).lookup entry.1 = some entry.2 := by
      rw [AList.lookup_erase_ne hne, hlookup]
    exact AList.mem_lookup_iff.1 hlookup'

/-! ## One registration -/

/-- How far the restore has got with a registration. -/
def Covered (s : Conn) (taken : List (ℕ × Bytes)) (cell : Cell) (ask : UInt16 × Bytes) : Prop :=
  match s.stretch with
  | .restoring => (∃ r ∈ s.todo, r.wireId = cell) ∨ Carried taken s.serial ask
  | .ready | .announced | .session => Carried taken s.serial ask
  | _ => True

/-- A registration with the cell, which asks for `ask`. -/
structure ListedInv (s : Conn) (taken : List (ℕ × Bytes)) (cell : Cell) (ask : UInt16 × Bytes) :
    Prop where
  bound : cell < s.nextCell
  known : ∀ r, s.Known r → r.wireId = cell → (r.messageType, r.payload) = ask
  fits : frameHeaderLen + ask.2.length ≤ maxMessageSize
  covered : s.InRegistry cell → s.Covered taken cell ask

theorem covered_of_carried (h : Carried taken s.serial ask) : s.Covered taken cell ask := by
  unfold Covered
  split
  · exact .inr h
  all_goals first | exact h | trivial

theorem tryEncodeFrame_of_fits (messageType : UInt16) (correlationId : UInt64) {payload : Bytes}
    (h : frameHeaderLen + payload.length ≤ maxMessageSize) :
    ∃ frame, tryEncodeFrame messageType 0 correlationId payload = .ok frame := by
  unfold frameHeaderLen maxMessageSize at h
  simp only [tryEncodeFrame]
  rw [if_neg (by unfold frameHeaderLen maxMessageSize; omega), if_neg (by decide)]
  exact ⟨_, rfl⟩

/-- A replay takes its registration off the list and sends it. -/
theorem restoreNext_covered (h : ListedInv s taken cell ask) (hpc : s.pc = .restoring) (cell' : Cell)
    (hcov : (∃ r ∈ s.todo, r.wireId = cell) ∨ Carried taken s.serial ask) :
    (∃ r ∈ (s.restoreNext cell' (.ok ())).todo, r.wireId = cell) ∨
      Carried (taken ++ (s.takes (.restoreNext cell' (.ok ()))).map (s.serial, ·)) s.serial ask := by
  rcases hcov with ⟨r, hr, hcell⟩ | hcarried
  · cases hcur : s.current with
    -- a round trip is under way, or the cell is not on the list: nothing happens
    | some r' =>
      left
      simp only [restoreNext, hpc, hcur]
      exact ⟨r, hr, hcell⟩
    | none =>
      cases hfind : s.todo.find? (·.wireId = cell') with
      | none =>
        left
        simp only [restoreNext, hpc, hcur, hfind]
        exact ⟨r, hr, hcell⟩
      | some r' =>
        have hcell' : r'.wireId = cell' := by simpa using List.find?_some hfind
        by_cases heq : cell' = cell
        · -- the registration's own turn
          -- it fits, since its own `subscribe` was sent
          right
          have hask := h.known r' (.inr (.inl (List.mem_of_find?_eq_some hfind))) (hcell'.trans heq)
          obtain ⟨frame, henc⟩ := tryEncodeFrame_of_fits ask.1 1 h.fits
          refine ⟨frame, 0, 1, List.mem_append_right _ (List.mem_map.2 ⟨frame, ?_, rfl⟩), henc⟩
          rw [← hask] at henc
          simp [takes, Event.written, writes, hpc, hcur, hfind, henc, Except.toOption]
        · -- another registration's turn
          left
          refine ⟨r, ?_, hcell⟩
          have hkeep : r ∈ s.todo.eraseP (·.wireId = cell') :=
            (List.mem_eraseP_of_neg (by simpa [hcell] using Ne.symm heq)).2 hr
          simp only [restoreNext, hpc, hcur, hfind]
          split <;> exact hkeep
  · exact .inr (hcarried.mono _)

theorem pc_of_restoring (h : s.stretch = .restoring) : s.pc = .restoring := by
  unfold stretch at h
  cases hpc : s.pc <;> rw [hpc] at h <;> first | rfl | cases h

theorem collect_todo (hpc : s.pc = .opened) (hst : (s.step cfg .advance).stretch = .restoring) :
    (s.step cfg .advance).todo = s.registrations.entries.map fun e => e.2 := by
  have ha := advance_advanced cfg s
  simp only [step] at hst ⊢
  generalize s.advance cfg = s' at ha hst
  cases ha with
  | collect => rfl
  | @plain task h =>
    have hs : task.sup.pc.stretch = .restoring := hst
    rw [hs, stretch, hpc] at h
    rcases h with h | h <;> cases h
  | negotiate h' | restart _ h' | enter _ h' =>
    exact absurd (hst.symm.trans (congrArg Pc.stretch h')) (by simp [Pc.stretch])
  | lose h' => exact absurd (hst.symm.trans h') (by simp)

/-- **From stretch to stretch with a registration.** -/
theorem covered_step (hn : s.negotiated) (h : ListedInv s taken cell ask) {e : Event}
    (hreg : s.InRegistry cell)
    (hwritten : ∀ cell' written, e = .restoreNext cell' written → written = .ok ()) :
    (s.step cfg e).Covered (taken ++ (s.takes e).map (s.serial, ·)) cell ask := by
  have hcov := h.covered hreg
  have hst := stretch_step cfg s e
  unfold Covered at hcov ⊢
  generalize hs' : (s.step cfg e).stretch = st' at hst
  cases hst with
  | idle | negotiating | dialed | greeted => trivial
  | collected he hpc =>
    -- the snapshot has every registration
    subst he
    obtain ⟨entry, hmem, hw⟩ := hreg
    left
    rw [collect_todo hpc hs']
    exact ⟨entry.2, List.mem_map.2 ⟨entry, hmem, rfl⟩, hw⟩
  | restored _ hpc _ htodo =>
    rw [serial_step cfg hn e (by rw [stretch, hpc]; simp [Pc.stretch])]
    rw [stretch, hpc] at hcov
    rcases hcov with ⟨r, hr, -⟩ | hcarried
    · rw [htodo] at hr
      cases hr
    · exact hcarried.mono _
  | announced _ hpc | entered _ hpc =>
    rw [serial_step cfg hn e (by rw [stretch, hpc]; simp [Pc.stretch])]
    rw [stretch, hpc] at hcov
    exact Carried.mono hcov _
  | same =>
    have hserial : s.stretch ≠ .dialing → (s.step cfg e).serial = s.serial := serial_step cfg hn e
    cases hstr : s.stretch with
    | idle | dialing | handshaking | opened => trivial
    | restoring =>
      rw [hstr] at hcov
      rw [hserial (by rw [hstr]; simp)]
      have hpc := pc_of_restoring hstr
      have hb := booked_step cfg s e
      have hsame : (∃ r ∈ s.todo, r.wireId = cell) ∨
          Carried (taken ++ (s.takes e).map (s.serial, ·)) s.serial ask :=
        hcov.imp_right fun hc => hc.mono _
      change (∃ r ∈ (s.step cfg e).book.todo, r.wireId = cell) ∨ _
      generalize hbook : (s.step cfg e).book = b at hb
      cases hb with
      | kept | registered | deactivated | given | answered => exact hsame
      | collected _ hopened => exact absurd (hpc.symm.trans hopened) (by simp)
      | @replayed cell' written _ _ he =>
        subst he
        obtain rfl := hwritten cell' written rfl
        rw [← hbook]
        exact restoreNext_covered h hpc cell' hcov
    | ready | announced | session =>
      rw [hstr] at hcov
      rw [hserial (by rw [hstr]; simp)]
      exact Carried.mono hcov _

theorem ListedInv.step (h : ListedInv s taken cell ask) (cfg : Config) (hn : s.negotiated)
    (e : Event) (hwritten : ∀ cell' written, e = .restoreNext cell' written → written = .ok ()) :
    ListedInv (s.step cfg e) (taken ++ (s.takes e).map (s.serial, ·)) cell ask where
  bound := h.bound.trans_le (nextCell_step s e)
  known r hr hcell := by
    rcases known_step hr with hr | ⟨-, -, -, -, -, hnew⟩
    · exact h.known r hr hcell
    · exact absurd (hcell.symm.trans hnew) (Nat.ne_of_lt h.bound)
  fits := h.fits
  covered hreg := covered_step hn h (inRegistry_before h.bound hreg) hwritten

end Conn

/-! ## The invariant -/

/-- What is known of one subscription. -/
structure SubInv (conn : Conn) (asked : Ticket → Option (UInt16 × Bytes))
    (taken : List (ℕ × Bytes)) (sub : Subscription) : Prop where
  pending : ∀ t, sub.pending? = some t →
    t < conn.nextTicket ∧ ∀ ask, asked t = some ask → ask = sub.ask
  answered : ∀ t response, sub.stage = .answered t response →
    response = [] ∨ ∃ serial frame source, .delivered serial t response frame source ∈ conn.log
  listed : ∀ cell, sub.cell? = some cell → conn.ListedInv taken cell sub.ask
  live : ∀ cell, sub.cell? = some cell → sub.closed = false → conn.InRegistry cell

/-- What is known of the connection below them. -/
structure WireInv (conn : Conn) (asked : Ticket → Option (UInt16 × Bytes))
    (taken : List (ℕ × Bytes)) : Prop where
  base : conn.Base
  asked : conn.AskedInv asked taken
  answers : Conn.AnswersDelivered conn.answers conn.log
  cells : ∀ r, conn.Known r → r.wireId < conn.nextCell

structure RosterInv (r : Roster) : Prop where
  wire : WireInv r.subs.conn r.asked r.taken
  subs : ∀ sub ∈ r.subs.subs, SubInv r.subs.conn r.asked r.taken sub

section

variable {cfg : Config} {conn : Conn} {asked : Ticket → Option (UInt16 × Bytes)}
  {taken : List (ℕ × Bytes)} {sub : Subscription}

theorem WireInv.step (h : WireInv conn asked taken) (cfg : Config) (e : Event) :
    WireInv (conn.step cfg e) (Conn.remember asked (conn.step cfg e).calls)
      (taken ++ (conn.takes e).map (conn.serial, ·)) where
  base := Conn.base_step conn e h.base
  asked := Conn.askedInv_step conn e h.base h.asked
  answers := Conn.answersDelivered_step conn e h.answers
  cells r hr := by
    rcases Conn.known_step hr with hr | ⟨messageType, payload, wireId, decoder, rfl, hnew⟩
    · exact (h.cells r hr).trans_le (Conn.nextCell_step conn e)
    · rw [hnew]
      exact Nat.lt_succ_self _

/-- A step of the connection keeps what is known of a subscription. -/
theorem SubInv.step (h : SubInv conn asked taken sub) (hw : WireInv conn asked taken) (cfg : Config)
    (e : Event)
    (hwritten : ∀ cell written, e = .restoreNext cell written → written = .ok ())
    (hfree : ∀ messageType payload wireId decoder,
      e = .register messageType payload wireId decoder → conn.FreeKey)
    (hkept : ∀ key, e = .deactivate key → ∀ r ∈ conn.registrations.lookup key,
      sub.cell? = some r.wireId → sub.closed = true) :
    SubInv (conn.step cfg e) (Conn.remember asked (conn.step cfg e).calls)
      (taken ++ (conn.takes e).map (conn.serial, ·)) sub where
  pending t ht := by
    obtain ⟨hlt, hask⟩ := h.pending t ht
    refine ⟨hlt.trans_le (Conn.counters_step cfg conn e).1, fun ask hremember => ?_⟩
    cases hold : asked t with
    | some ask' =>
      rw [Conn.remember_of_some hold] at hremember
      cases hremember
      exact hask ask hold
    | none =>
      -- no call is made under an old ticket
      simp only [Conn.remember, hold, Option.none_or, Option.map_eq_some_iff] at hremember
      obtain ⟨call, hcall, -⟩ := hremember
      rcases Conn.calls_content hcall with ⟨call', hcall', -⟩ | rfl
      · rw [hw.asked.call t call' hcall'] at hold
        cases hold
      · exact absurd hlt (Nat.lt_irrefl _)
  answered t response hst := by
    rcases h.answered t response hst with hnil | ⟨serial, frame, source, hmem⟩
    · exact .inl hnil
    · exact .inr ⟨serial, frame, source, Conn.mem_log_step hw.base.negotiated hmem⟩
  listed cell hcell := (h.listed cell hcell).step cfg hw.base.negotiated e hwritten
  live cell hcell hopen := by
    refine Conn.inRegistry_step (h.live cell hcell hopen) hfree fun key he r hr hw' => ?_
    have hclosed := hkept key he r hr (by rw [hw']; exact hcell)
    rw [hopen] at hclosed
    cases hclosed

end

namespace Roster

variable {cfg : Config} {json : Bytes → Except String DecodedStreamNotifyPayload} {r : Roster}

theorem remember_self (h : RosterInv r) : Conn.remember r.asked r.subs.conn.calls = r.asked := by
  funext t
  cases hold : r.asked t with
  | some ask => exact Conn.remember_of_some hold _
  | none =>
    have hcall : r.subs.conn.calls.lookup t = none := by
      cases hl : r.subs.conn.calls.lookup t with
      | none => rfl
      | some call =>
        rw [h.wire.asked.call t call hl] at hold
        cases hold
    simp [Conn.remember, hold, hcall]

/-- The steps that a connection may take below its handles. -/
structure Sound (r : Roster) (e : Event) : Prop where
  written : ∀ cell written, e = .restoreNext cell written → written = .ok ()
  free : ∀ messageType payload wireId decoder,
    e = .register messageType payload wireId decoder → r.subs.conn.FreeKey
  kept : ∀ key, e = .deactivate key → ∀ reg ∈ r.subs.conn.registrations.lookup key,
    ∀ sub ∈ r.subs.subs, sub.cell? = some reg.wireId → sub.closed = true

/-- The roster when the connection takes the step. -/
def below (cfg : Config) (r : Roster) (e : Event) : Roster :=
  ⟨{ r.subs with conn := r.subs.conn.step cfg e },
    Conn.remember r.asked (r.subs.conn.step cfg e).calls,
    r.taken ++ (r.subs.conn.takes e).map (r.subs.conn.serial, ·)⟩

theorem rosterInv_below (h : RosterInv r) (cfg : Config) {e : Event} (hs : r.Sound e) :
    RosterInv (r.below cfg e) where
  wire := h.wire.step cfg e
  subs sub hsub := (h.subs sub hsub).step h.wire cfg e hs.written hs.free
    fun key he reg hreg => hs.kept key he reg hreg sub hsub

/-- One subscription goes on. -/
theorem rosterInv_modify (h : RosterInv r) {i : ℕ} {f : Subscription → Subscription}
    (hnew : ∀ sub ∈ r.subs.subs[i]?, SubInv r.subs.conn r.asked r.taken (f sub)) :
    RosterInv { r with subs := { r.subs with subs := r.subs.subs.modify i f } } where
  wire := h.wire
  subs sub hsub := by
    rcases Subs.mem_modify hsub with hsub | ⟨sub', hsub', rfl⟩
    · exact h.subs sub hsub
    · exact hnew sub' hsub'

/-- A `subscribe` makes its request. -/
theorem subInv_request (h : RosterInv r) (sub : Subscription) :
    SubInv (r.subs.conn.step cfg (.allocate (.request 0) sub.topic.subscribeType
        (putString sub.pattern)))
      (Conn.remember r.asked (r.subs.conn.step cfg (.allocate (.request 0) sub.topic.subscribeType
        (putString sub.pattern))).calls)
      r.taken { sub with stage := .requested r.subs.conn.nextTicket } where
  pending t ht := by
    obtain rfl : r.subs.conn.nextTicket = t := Option.some.inj ht
    -- the ticket is new, so only this call is remembered under it
    have hnone : r.asked r.subs.conn.nextTicket = none := by
      cases hold : r.asked r.subs.conn.nextTicket with
      | none => rfl
      | some ask => exact absurd (h.wire.asked.fresh _ ask hold) (Nat.lt_irrefl _)
    simp only [Conn.step, Conn.allocate]
    split
    · refine ⟨Nat.lt_succ_self _, fun ask hask => ?_⟩
      simp only [remember_self h, hnone] at hask
      cases hask
    · refine ⟨Nat.lt_succ_self _, fun ask hask => ?_⟩
      simp only [Conn.remember, hnone, AList.lookup_insert, Option.map_some, Option.none_or,
        Option.some.injEq] at hask
      exact hask.symm
  answered t response hst := by cases hst
  listed cell hcell := by cases hcell
  live cell hcell := by cases hcell

/-- A `subscribe` gets its response, which the loop delivered. -/
theorem subInv_receive (h : RosterInv r) {i : ℕ} {sub : Subscription}
    (hsub : r.subs.subs[i]? = some sub) {t : Ticket} (hst : sub.stage = .requested t)
    {entry : Ticket} {response : Bytes}
    (hfind : r.subs.conn.answers.find? (·.1 = t) = some (entry, some (.ok response))) :
    SubInv (r.subs.conn.step cfg (.resume t))
      (Conn.remember r.asked (r.subs.conn.step cfg (.resume t)).calls) r.taken
      { sub with stage := .answered t response } := by
  have hmem : sub ∈ r.subs.subs := List.mem_of_getElem? hsub
  have hold : sub.pending? = some t := by simp [Subscription.pending?, hst]
  have hstep := (h.subs sub hmem).step h.wire cfg (.resume t) (by simp) (by simp) (by simp)
  have hentry : entry = t := by simpa using List.find?_some hfind
  refine ⟨fun t' ht' => ?_, fun t' response' hst' => ?_, fun cell hcell => ?_, fun cell hcell => ?_⟩
  · obtain rfl : t = t' := Option.some.inj ht'
    exact hstep.pending t hold
  · cases hst'
    subst hentry
    rcases h.wire.answers entry response (List.mem_of_find?_eq_some hfind) with
      hnil | ⟨serial, frame, source, hdel⟩
    · exact .inl hnil
    · exact .inr ⟨serial, frame, source, Conn.mem_log_step h.wire.base.negotiated hdel⟩
  · cases hcell
  · cases hcell

/-- The transport of a response took the request of its caller. -/
theorem carried_of_response (h : RosterInv r) {sub : Subscription} (hsub : sub ∈ r.subs.subs)
    {t : Ticket} {response : Bytes} (hst : sub.stage = .answered t response) {serial : ℕ}
    {frame : Bytes} {source : Option Sent}
    (hmem : .delivered serial t response frame source ∈ r.subs.conn.log) :
    Carried r.taken serial sub.ask := by
  obtain ⟨ask, hask, hcarried⟩ := h.wire.asked.delivered serial t response frame source hmem
  have hpending : sub.pending? = some t := by simp [Subscription.pending?, hst]
  rw [← ((h.subs sub hsub).pending t hpending).2 ask hask]
  exact hcarried

/-- A handle is made: its registration is new, and was sent if the snapshot is past. -/
theorem subInv_register (h : RosterInv r) {i : ℕ} {sub : Subscription}
    (hsub : r.subs.subs[i]? = some sub) {t : Ticket} {response : Bytes}
    (hst : sub.stage = .answered t response) {id : UInt64}
    (hdec : sub.topic.decodeSubscriptionId response = .ok id)
    (hcond : r.subs.conn.collected = true →
      responseOn r.subs.conn.log t response = some r.subs.conn.serial) (on : ℕ) :
    SubInv (r.subs.conn.step cfg (.register sub.topic.subscribeType (putString sub.pattern) id
        sub.topic.decodeSubscriptionId))
      (Conn.remember r.asked (r.subs.conn.step cfg (.register sub.topic.subscribeType
        (putString sub.pattern) id sub.topic.decodeSubscriptionId)).calls)
      r.taken { sub with stage := .registered r.subs.conn.nextCell t on } where
  pending t' ht := by cases ht
  answered t' response' hst' := by cases hst'
  listed cell hcell := by
    obtain rfl : r.subs.conn.nextCell = cell := Option.some.inj hcell
    have hmem : sub ∈ r.subs.subs := List.mem_of_getElem? hsub
    refine ⟨Nat.lt_succ_self _, fun reg hreg hcell' => ?_, ?_, fun _ => ?_⟩
    · -- the cell is new, so only the new entry has it
      have hold : ¬ r.subs.conn.Known reg := fun hk =>
        absurd hcell' (Nat.ne_of_lt (h.wire.cells reg hk))
      rcases hreg with ⟨entry, he, rfl⟩ | hreg | hreg
      · simp only [Conn.step, Conn.register, AList.entries_insert, List.mem_cons] at he
        rcases he with rfl | he
        · rfl
        · exact absurd (.inl ⟨entry, (List.kerase_sublist _ _).subset he, rfl⟩) hold
      · exact absurd (.inr (.inl hreg)) hold
      · exact absurd (.inr (.inr hreg)) hold
    · -- the response was delivered, so the request was sent, and fits
      obtain ⟨serial, frame, source, hdel⟩ := ((h.subs sub hmem).answered t response hst).resolve_left
        fun hnil => sub.topic.decodeSubscriptionId_nil id (hnil ▸ hdec)
      exact (carried_of_response h hmem hst hdel).fits
    · cases hcol : r.subs.conn.collected with
      | true =>
        -- the snapshot is past, so the response is of this transport
        obtain ⟨frame, source, hdel⟩ := Conn.delivered_of_responseOn (hcond hcol)
        exact Conn.covered_of_carried (carried_of_response h hmem hst hdel)
      | false =>
        -- the snapshot is still to come
        show Conn.Covered _ _ _ _
        unfold Conn.collected at hcol
        unfold Conn.Covered
        have hstretch : (r.subs.conn.step cfg (.register sub.topic.subscribeType
          (putString sub.pattern) id sub.topic.decodeSubscriptionId)).stretch =
            r.subs.conn.stretch := rfl
        rw [hstretch]
        cases hs : r.subs.conn.stretch <;> rw [hs] at hcol <;> trivial
  live cell hcell _ := by
    obtain rfl : r.subs.conn.nextCell = cell := Option.some.inj hcell
    refine ⟨⟨r.subs.conn.nextRegistrationId, ⟨sub.topic.subscribeType, putString sub.pattern,
      r.subs.conn.nextCell, sub.topic.decodeSubscriptionId⟩⟩, ?_, rfl⟩
    simp [Conn.step, Conn.register, AList.entries_insert]

/-! ## Steps -/

/-- The roster with other subscriptions, when no frame is taken. -/
def settle (r : Roster) (subs : Subs) : Roster :=
  ⟨subs, Conn.remember r.asked subs.conn.calls, r.taken⟩

theorem rosterInv_settle (h : RosterInv r) {subs : Subs} (hconn : subs.conn = r.subs.conn)
    (hsubs : ∀ sub ∈ subs.subs, SubInv r.subs.conn r.asked r.taken sub) : RosterInv (r.settle subs) := by
  unfold settle
  rw [hconn, remember_self h]
  exact ⟨by simpa [hconn] using h.wire, by simpa [hconn] using hsubs⟩

theorem rosterInv_kept (h : RosterInv r) : RosterInv (r.settle r.subs) := rosterInv_settle h rfl h.subs

/-- A step of the connection that takes no frame, with one of a subscription. -/
theorem rosterInv_over (h : RosterInv r) {e : Event} (hs : r.Sound e) (htakes : r.subs.conn.takes e = [])
    {i : ℕ} {stage : SubStage} (hnew : ∀ sub ∈ r.subs.subs[i]?,
      SubInv (r.subs.conn.step cfg e) (Conn.remember r.asked (r.subs.conn.step cfg e).calls) r.taken
        { sub with stage := stage }) :
    RosterInv (r.settle { r.subs.setStage i stage with conn := r.subs.conn.step cfg e }) := by
  have hbelow := rosterInv_below h cfg hs
  unfold below at hbelow
  rw [htakes, List.map_nil, List.append_nil] at hbelow
  exact rosterInv_modify hbelow hnew

theorem rosterInv_request (h : RosterInv r) (i : ℕ) : RosterInv (r.settle (r.subs.request cfg i)) := by
  unfold Subs.request
  split
  · rename_i sub hsub
    split
    · refine rosterInv_over h ⟨by simp, by simp, by simp⟩ rfl fun sub' hsub' => ?_
      obtain rfl : sub = sub' := Option.some.inj (hsub.symm.trans hsub')
      exact subInv_request h sub
    · exact rosterInv_kept h
  · exact rosterInv_kept h

theorem rosterInv_receive (h : RosterInv r) (i : ℕ) : RosterInv (r.settle (r.subs.receive cfg i)) := by
  unfold Subs.receive
  split
  · rename_i sub hsub
    split
    · rename_i t hst
      split
      · rename_i call entry response hcall hfind
        refine rosterInv_over h ⟨by simp, by simp, by simp⟩ rfl fun sub' hsub' => ?_
        obtain rfl : sub = sub' := Option.some.inj (hsub.symm.trans hsub')
        exact subInv_receive h hsub hst hfind
      · exact rosterInv_kept h
    · exact rosterInv_kept h
  · exact rosterInv_kept h

theorem rosterInv_register (h : RosterInv r) (i : ℕ) (hcond : Timely r (.register i)) :
    RosterInv (r.settle (r.subs.register cfg i)) := by
  unfold Subs.register
  split
  · rename_i sub hsub
    have htimely := hcond.2 sub hsub
    split
    · rename_i t response hst
      rw [hst] at htimely
      split
      · rename_i id hdec
        refine rosterInv_over h ⟨by simp, fun _ _ _ _ _ => hcond.1, by simp⟩ rfl fun sub' hsub' => ?_
        obtain rfl : sub = sub' := Option.some.inj (hsub.symm.trans hsub')
        exact subInv_register h hsub hst hdec htimely _
      · exact rosterInv_kept h
    · exact rosterInv_kept h
  · exact rosterInv_kept h

/-- A shared registration is that of the other handle, which asked for the same. -/
theorem rosterInv_share (h : RosterInv r) (i j : ℕ) (hp : r.subs.Possible (.share i j)) :
    RosterInv (r.settle (r.subs.share i j)) := by
  unfold Subs.share
  split
  · rename_i sub other hsub hother
    split
    · rename_i cell t on hst hst'
      split
      · rename_i hsame
        have hcell : other.cell? = some cell := by simp [Subscription.cell?, hst']
        -- both handles ask for the same, so what is known of one holds of the other
        have hask : sub.ask = other.ask := by
          simp only [Subscription.ask, hsame.2.1, hsame.2.2]
        have hreg : r.subs.conn.InRegistry cell := hp other hother cell hcell
        have hlisted := (h.subs other (List.mem_of_getElem? hother)).listed cell hcell
        refine rosterInv_settle h rfl fun sub' hsub' => ?_
        rcases Subs.mem_modify hsub' with hsub' | ⟨sub'', hsub'', rfl⟩
        · exact h.subs sub' hsub'
        · obtain rfl : sub = sub'' := Option.some.inj (hsub.symm.trans hsub'')
          refine ⟨fun t' ht' => ?_, fun t' response hst' => ?_, fun cell' hcell' => ?_,
            fun cell' hcell' _ => ?_⟩
          · cases ht'
          · cases hst'
          · obtain rfl : cell = cell' := Option.some.inj hcell'
            rw [← hask] at hlisted
            exact hlisted
          · obtain rfl : cell = cell' := Option.some.inj hcell'
            exact hreg
      · exact rosterInv_kept h
    · exact rosterInv_kept h
  · exact rosterInv_kept h

theorem rosterInv_listen (h : RosterInv r) (topic : Topic) (pattern : String) :
    RosterInv (r.settle (r.subs.listen topic pattern)) := by
  unfold Subs.listen
  split
  · refine rosterInv_settle h rfl fun sub hsub => ?_
    rcases List.mem_append.1 hsub with hsub | hsub
    · exact h.subs sub hsub
    · cases List.mem_singleton.1 hsub
      refine ⟨fun t ht => ?_, fun t response hst => ?_, fun cell hcell => ?_, fun cell hcell => ?_⟩
      · cases ht
      · cases hst
      · cases hcell
      · cases hcell
  · exact rosterInv_kept h

/-- Reading and closing leave the stage of a subscription as it is. -/
theorem subInv_congr {conn : Conn} {asked : Ticket → Option (UInt16 × Bytes)}
    {taken : List (ℕ × Bytes)} {sub sub' : Subscription} (h : SubInv conn asked taken sub)
    (hstage : sub'.stage = sub.stage) (hask : sub'.ask = sub.ask)
    (hclosed : sub.closed = true → sub'.closed = true) : SubInv conn asked taken sub' := by
  have hpending : sub'.pending? = sub.pending? := by simp only [Subscription.pending?, hstage]
  have hcell : sub'.cell? = sub.cell? := by simp only [Subscription.cell?, hstage]
  refine ⟨?_, ?_, ?_, fun cell hc hopen => ?_⟩
  · rw [hpending, hask]
    exact h.pending
  · rw [hstage]
    exact h.answered
  · rw [hcell, hask]
    exact h.listed
  · rw [hcell] at hc
    cases hc' : sub.closed with
    | false => exact h.live cell hc hc'
    | true =>
      rw [hclosed hc'] at hopen
      cases hopen

theorem rosterInv_setTaken (h : RosterInv r) (i taken : ℕ) (yields : List Yield) :
    RosterInv (r.settle { r.subs.setTaken i taken with yields := yields }) := by
  refine rosterInv_settle h rfl fun sub hsub => ?_
  rcases Subs.mem_modify hsub with hsub | ⟨sub', hsub', rfl⟩
  · exact h.subs sub hsub
  · exact subInv_congr (h.subs sub' (List.mem_of_getElem? hsub')) rfl rfl id

theorem rosterInv_poll (h : RosterInv r) (i : ℕ) : RosterInv (r.settle (r.subs.poll json i)) := by
  unfold Subs.poll
  split
  · split
    · split
      · exact rosterInv_setTaken h i _ _
      · dsimp only
        split
        · exact rosterInv_setTaken h i _ _
        · exact rosterInv_setTaken h i _ _
    · exact rosterInv_kept h
  · exact rosterInv_kept h

theorem rosterInv_close (h : RosterInv r) (i : ℕ) : RosterInv (r.settle (r.subs.close i)) := by
  refine rosterInv_settle h rfl fun sub hsub => ?_
  rcases Subs.mem_modify hsub with hsub | ⟨sub', hsub', rfl⟩
  · exact h.subs sub hsub
  · exact subInv_congr (h.subs sub' (List.mem_of_getElem? hsub')) rfl rfl fun _ => rfl

/-- The steps of a timely run are sound for the connection. -/
theorem sound_of_timely {e : Event} (hp : r.subs.Possible (.conn e)) (hcond : Timely r (.conn e)) :
    r.Sound e := by
  refine ⟨?_, ?_, ?_⟩
  · rintro cell written rfl
    exact hcond
  · rintro messageType payload wireId decoder rfl
    exact hcond
  · rintro key rfl
    exact hp

theorem rosterInv_step (cfg : Config) (json : Bytes → Except String DecodedStreamNotifyPayload)
    (r : Roster) (e : SubEvent) (h : RosterInv r) (hcond : Timely r e) :
    RosterInv (r.step cfg json e) := by
  -- the handles take no frame themselves
  have hquiet : ∀ subs : Subs, RosterInv (r.settle subs) →
      RosterInv ⟨subs, Conn.remember r.asked subs.conn.calls,
        r.taken ++ List.map (r.subs.conn.serial, ·) []⟩ := by
    intro subs hinv
    rwa [List.map_nil, List.append_nil]
  unfold step
  split
  · rename_i hp
    cases e with
    | conn e => exact rosterInv_below h cfg (sound_of_timely hp hcond)
    | listen topic pattern => exact hquiet _ (rosterInv_listen h topic pattern)
    | request i => exact hquiet _ (rosterInv_request h i)
    | receive i => exact hquiet _ (rosterInv_receive h i)
    | register i => exact hquiet _ (rosterInv_register h i hcond)
    | share i j => exact hquiet _ (rosterInv_share h i j hp)
    | poll i => exact hquiet _ (rosterInv_poll h i)
    | close i => exact hquiet _ (rosterInv_close h i)
  · exact h

theorem rosterInv_new (cfg : Config) : RosterInv (.new cfg) where
  wire := {
    base := Conn.base_new cfg
    asked := Conn.askedInv_new cfg
    answers := (by simp [Conn.AnswersDelivered, Roster.new, Subs.new, Conn.new])
    cells := (by simp [Conn.Known, Roster.new, Subs.new, Conn.new]) }
  subs sub hsub := by cases hsub

theorem registrationsSent_of_inv (h : RosterInv r) : RegistrationsSent r := by
  intro hpc sub hsub hsome hopen
  obtain ⟨cell, hcell⟩ := Option.isSome_iff_exists.1 hsome
  have hreg := (h.subs sub hsub).live cell hcell hopen
  have hcov := ((h.subs sub hsub).listed cell hcell).covered hreg
  unfold Conn.Covered Conn.stretch at hcov
  rcases hpc with hpc | hpc
  · rw [hpc] at hcov
    exact hcov
  · rw [hpc] at hcov
    exact hcov

end Roster

/-- **No registration is lost.** In every run in which no handle registers with the
response of another session after the snapshot of the restore, and no write of a
restore fails, every live handle has had its registration sent on each announced
session. -/
theorem registrations_sent (cfg : Config) (json : Bytes → Except String DecodedStreamNotifyPayload)
    (es : List SubEvent) (h : Along (Roster.step cfg json) Timely (.new cfg) es) :
    RegistrationsSent (run (Roster.step cfg json) (.new cfg) es) :=
  Roster.registrationsSent_of_inv
    (along_inv (Roster.rosterInv_step cfg json) (Roster.rosterInv_new cfg) h)

/-- A subscription of the first session, replayed in the second. -/
def replayedRun : List SubEvent :=
  (firstSession 8).map .conn ++ subscribeRun 0 1 1 7 ++ (reopenRun 8).map .conn ++
    [.conn (.restoreNext 0 (.ok ())),
      .conn (.restoreRead (replyFrame 109 1 (0 :: putU64 8)) (some 0))] ++ enterRun.map .conn

theorem registrations_sent_replayed :
    let r := run (Roster.step ⟨4, ⟨true, 0⟩⟩ fun _ => .error "") (.new ⟨4, ⟨true, 0⟩⟩) replayedRun
    r.subs.conn.pc = .session ∧ r.subs.conn.serial = 2 ∧ RegistrationsSent r :=
  ⟨by decide +kernel, by decide +kernel,
    registrations_sent ⟨4, ⟨true, 0⟩⟩ _ replayedRun (by decide +kernel)⟩

/-- The response of the first session is registered once the second has taken its
snapshot. -/
def lateRun : List SubEvent :=
  (firstSession 8).map .conn ++ (subscribeRun 0 1 1 7).dropLast ++ (reopenRun 8).map .conn ++
    [.register 0] ++ enterRun.map .conn

/-- Its handle is live, and nothing is sent for it on the second session. -/
theorem registration_lost :
    ¬ RegistrationsSent
      (run (Roster.step ⟨4, ⟨true, 0⟩⟩ fun _ => .error "") (.new ⟨4, ⟨true, 0⟩⟩) lateRun) := by
  set r := run (Roster.step ⟨4, ⟨true, 0⟩⟩ fun _ => .error "") (.new ⟨4, ⟨true, 0⟩⟩) lateRun with hr
  have hsubs : r.subs.subs.map (fun sub => (sub.cell?, sub.closed)) = [(some 0, false)] := by
    rw [hr]
    decide +kernel
  have hsession : r.subs.conn.pc = .session ∧ r.subs.conn.serial = 2 := by
    rw [hr]
    decide +kernel
  have htaken : ∀ p ∈ r.taken, p.1 = 1 := by
    rw [hr]
    decide +kernel
  intro h
  obtain ⟨sub, hsub, heq⟩ := List.mem_map.1 (hsubs ▸ List.mem_singleton_self (some 0, false))
  obtain ⟨hcell, hclosed⟩ := Prod.mk.inj heq
  have hcarried := h (.inr hsession.1) sub hsub (by rw [hcell]; rfl) hclosed
  obtain ⟨frame, flags, correlationId, hmem, -⟩ := hcarried
  have hserial := htaken _ hmem
  simp [hsession.2] at hserial

end Fitz
