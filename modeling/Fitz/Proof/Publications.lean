import Fitz.Proof.Handshake
import Fitz.Proof.Wiring

/-!
# What a connection publishes

`history_lawful`: over every run of a connection, what its supervisor publishes, tries and
replies is lawful after what came before (`Lawful`). A `Connect` command is tried once and
in its own name, is answered before anything is retried, and hears of success when the
connection is authenticated. `task_kept` is the invariant rule for the supervisor of a
connection; `Announced` says what the supervisor published last where the task stands. The
watch itself may say something else, since `Client::connect` and `Client::close` write it too
(`Fitz.Model.Client`).
-/

namespace Fitz

open Machine

/-! ## What a history leaves open -/

/-- The `Connect` command that waits for an answer. -/
inductive Caller
  | nobody
  | called (response : Ticket)
  /-- a session was opened on its behalf -/
  | tried (response : Ticket)
  deriving DecidableEq

def Caller.add (w : Caller) : Act → Caller
  | .call t => .called t
  | .openSession _ =>
    match w with
    | .called t => .tried t
    | w => w
  | .reply t _ => if w = .called t ∨ w = .tried t then .nobody else w
  | _ => w

def callerOf (h : List Act) : Caller := h.foldl Caller.add .nobody

theorem callerOf_append (h l : List Act) : callerOf (h ++ l) = l.foldl Caller.add (callerOf h) :=
  List.foldl_append

theorem published_append (state : ConnectionState) (h l : List Act) :
    published state (h ++ l) = published (published state h) l :=
  List.foldl_append

/-- The states in which nothing is tried. -/
def ConnectionState.idle : ConnectionState → Bool
  | .disconnected | .closed => true
  | _ => false

/-- The state `after` may be published where `before` was published last. -/
def ConnectionState.follows (before : ConnectionState) : ConnectionState → Bool
  | .connecting => before.idle || before = .connecting || before = .reconnecting
  | .authenticating => before = .connecting
  | .authenticated => before = .authenticating
  | .reconnecting | .disconnected => !before.idle
  | .closed => true
  | .connected => false

/-- The last state that the watch of a connection was given. -/
def lastPublished (h : List Act) : ConnectionState := published .disconnected h

/-- What the supervisor may do after the history `h`. -/
def Lawful (h : List Act) : Act → Prop
  | .call _ => (lastPublished h).idle = true
  | .openSession onBehalf =>
    (∃ t, callerOf h = .called t ∧ onBehalf = some t ∧ lastPublished h = .connecting) ∨
      callerOf h = .nobody ∧ onBehalf = none ∧ lastPublished h = .reconnecting
  | .publish state =>
    (lastPublished h).follows state = true ∧ (state = .reconnecting → callerOf h = .nobody)
  | .sleep _ => lastPublished h = .reconnecting ∧ callerOf h = .nobody
  | .lost => lastPublished h = .authenticated ∧ callerOf h = .nobody
  | .exhausted => (lastPublished h).idle = false ∧ callerOf h = .nobody
  | .reply _ (.ok _) => lastPublished h = .authenticated ∨ lastPublished h = .closed
  | .reply t (.error _) => (lastPublished h).idle = true ∧ callerOf h = .tried t

/-! ## Where the task stands -/

/-- The initial caller of `connect_and_run` is the command that waits. -/
def Attends (w : Caller) : Option Ticket → Prop
  | some t => w = .tried t
  | none => w = .nobody

/-- What was published last, and who waits, where the task stands. -/
def Announced (state : ConnectionState) (w : Caller) (initial : Option Ticket) : Pc → Prop
  | .recv => state.idle = true
  | .starting => state.idle = true ∧ ∃ t, initial = some t ∧ w = .called t
  | .checking =>
    (∃ t, initial = some t ∧ w = .called t ∧ state = .connecting) ∨
      initial = none ∧ w = .nobody ∧ state = .reconnecting
  | .token => (state = .connecting ∨ state = .reconnecting) ∧ Attends w initial
  | .dialing => state = .connecting ∧ Attends w initial
  | .handshake | .opened | .restoring | .ready | .announcing =>
    state = .authenticating ∧ Attends w initial
  | .failed _ => state.idle = false ∧ Attends w initial
  | .entering | .session | .closing _ | .lost => state = .authenticated ∧ initial = none ∧ w = .nobody
  | .retrying => state.idle = false ∧ initial = none ∧ w = .nobody
  | .sleeping => state = .reconnecting ∧ initial = none ∧ w = .nobody
  | .done => True

/-- The history is lawful so far, and leaves the task where it stands. -/
structure Lives (sup : Sup) (h : List Act) : Prop where
  each : Each Lawful h
  stage : Announced (lastPublished h) (callerOf h) sup.initialResponse sup.pc

variable {policy : ReconnectPolicy}

/-- Some acts more. -/
theorem Lives.next {s s' : Sup} {h acts : List Act} (hl : Lives s h) (heach : EachFrom Lawful h acts)
    (hstage : Announced (published (lastPublished h) acts) (acts.foldl Caller.add (callerOf h))
      s'.initialResponse s'.pc) : Lives s' (h ++ acts) := by
  refine ⟨each_append.2 ⟨hl.each, heach⟩, ?_⟩
  rw [callerOf_append, lastPublished, published_append]
  exact hstage

/-- The answer to the initial caller. -/
theorem add_replyInitial {s : Sup} {w : Caller} (hw : Attends w s.initialResponse) (r : Result Unit) :
    (s.replyInitial r).foldl Caller.add w = .nobody := by
  unfold Sup.replyInitial
  cases hi : s.initialResponse with
  | none =>
    rw [hi] at hw
    exact hw
  | some t =>
    rw [hi] at hw
    simp only [List.foldl_cons, List.foldl_nil, Caller.add]
    rw [if_pos (.inr hw)]

/-- The answer after a failure. -/
theorem eachFrom_replyInitial_error {s : Sup} {h : List Act} (hw : Attends (callerOf h) s.initialResponse)
    (hidle : (lastPublished h).idle = true) {r : Result Unit}
    (hr : ∀ t, Act.reply t (.ok ()) ∉ s.replyInitial r) : EachFrom Lawful h (s.replyInitial r) := by
  unfold Sup.replyInitial at hr ⊢
  cases hi : s.initialResponse with
  | none => trivial
  | some t =>
    rw [hi] at hw hr
    cases r with
    | ok value => exact absurd (List.mem_singleton_self _) (hr t)
    | error error => exact ⟨⟨hidle, hw⟩, trivial⟩

theorem eachFrom_replyInitial_ok {s : Sup} {h : List Act} (hstate : lastPublished h = .authenticated) :
    EachFrom Lawful h (s.replyInitial (.ok ())) := by
  unfold Sup.replyInitial
  split
  · exact ⟨.inl hstate, trivial⟩
  · trivial

theorem lastPublished_publish (h : List Act) (state : ConnectionState) :
    lastPublished (h ++ [.publish state]) = state :=
  published_append _ _ _

theorem callerOf_publish (h : List Act) (state : ConnectionState) :
    callerOf (h ++ [.publish state]) = callerOf h :=
  callerOf_append _ _

/-- Any state but `Reconnecting` may be published while a command waits. -/
theorem lawful_publish {h : List Act} {state : ConnectionState}
    (hfollows : (lastPublished h).follows state = true) (hne : state ≠ .reconnecting) :
    Lawful h (.publish state) :=
  ⟨hfollows, fun heq => absurd heq hne⟩

theorem lawful_closed (h : List Act) : Lawful h (.publish .closed) :=
  lawful_publish rfl (by decide)

/-- What a running attempt publishes. -/
theorem lawful_after {h : List Act} {before state : ConnectionState} (hstate : lastPublished h = before)
    (hfollows : before.follows state = true) (hne : state ≠ .reconnecting) :
    Lawful h (.publish state) :=
  lawful_publish (hstate ▸ hfollows) hne

theorem Caller.add_reply_nobody (t : Ticket) (r : Result Unit) :
    Caller.nobody.add (.reply t r) = .nobody := by
  simp [Caller.add]

/-- **One transition of the supervisor**, but the end of a session whose callers are gone.
What follows a failed attempt tells nobody of success. -/
theorem move_lives {e : SupEvent} {s s' : Sup} {acts h : List Act} (hm : Move policy e s s' acts)
    (hfailed : ∀ error, s.pc = .failed error → ∀ t, Act.reply t (.ok ()) ∉ acts)
    (hhangup : e = .hangup → s.pc ≠ .session) (hl : Lives s h) : Lives s' (h ++ acts) := by
  have hstage := hl.stage
  cases hm with
  | stay => simpa using hl
  | requestClose => exact hl.next trivial hstage
  | call t => exact hl.next ⟨hstage, trivial⟩ ⟨hstage, t, rfl, rfl⟩
  | closeIdle t =>
    exact hl.next ⟨lawful_closed h, .inr (lastPublished_publish h _), trivial⟩ trivial
  | hangupIdle => exact hl.next trivial trivial
  | start =>
    obtain ⟨hidle, t, hi, hw⟩ := hstage
    refine hl.next ⟨lawful_publish ?_ (by decide), trivial⟩ (.inl ⟨t, hi, hw, rfl⟩)
    rw [ConnectionState.follows, hidle]
    rfl
  | closedBefore => exact hl.next ⟨lawful_closed h, trivial⟩ rfl
  | openSession =>
    rcases hstage with ⟨t, rfl, hw, hstate⟩ | ⟨rfl, hw, hstate⟩
    · refine hl.next ⟨.inl ⟨t, hw, rfl, hstate⟩, trivial⟩ ⟨.inl hstate, ?_⟩
      rw [hw]
      rfl
    · refine hl.next ⟨.inr ⟨hw, rfl, hstate⟩, trivial⟩ ⟨.inr hstate, ?_⟩
      rw [hw]
      rfl
  | dial =>
    obtain ⟨hstate, hw⟩ := hstage
    refine hl.next ⟨?_, trivial⟩ ⟨rfl, hw⟩
    rcases hstate with hstate | hstate
    · exact lawful_after hstate rfl (by decide)
    · exact lawful_after hstate rfl (by decide)
  | connect =>
    obtain ⟨hstate, hw⟩ := hstage
    exact hl.next ⟨lawful_after hstate rfl (by decide), trivial⟩ ⟨rfl, hw⟩
  | hello => exact hl.next trivial hstage
  | fail error hpc =>
    refine hl.next trivial ?_
    rcases hpc with rfl | rfl | rfl
    · obtain ⟨hstate | hstate, hw⟩ := hstage
      all_goals
        refine ⟨?_, hw⟩
        change (lastPublished h).idle = false
        rw [hstate]
        rfl
    all_goals
      obtain ⟨hstate, hw⟩ := hstage
      refine ⟨?_, hw⟩
      change (lastPublished h).idle = false
      rw [hstate]
      rfl
  | closedAfter => exact hl.next ⟨lawful_closed h, trivial⟩ rfl
  | restore => exact hl.next trivial hstage
  | restored => exact hl.next trivial hstage
  | resetIds => exact hl.next trivial hstage
  | announce =>
    obtain ⟨hstate, hw⟩ := hstage
    refine hl.next ⟨lawful_after hstate rfl (by decide),
      eachFrom_replyInitial_ok (lastPublished_publish h _)⟩ ⟨?_, rfl, ?_⟩
    · exact published_replyInitial _ _ _
    · exact add_replyInitial hw _
  | enter => exact hl.next trivial hstage
  | giveUp state r hst =>
    obtain ⟨hidle, hw⟩ := hstage
    have hafter : state.idle = true := by rcases hst with rfl | rfl <;> rfl
    refine hl.next ⟨?_, eachFrom_replyInitial_error ?_ ?_ fun t hin => ?_⟩ ?_
    · rcases hst with rfl | rfl
      · exact lawful_closed h
      · refine lawful_publish ?_ (by decide)
        rw [ConnectionState.follows, hidle]
        rfl
    · rw [callerOf_publish]
      exact hw
    · rw [lastPublished_publish]
      exact hafter
    · exact hfailed _ rfl t (List.mem_cons_of_mem _ hin)
    · exact (congrArg ConnectionState.idle (published_replyInitial state _ r)).trans hafter
  | retry => exact hl.next trivial ⟨hstage.1, rfl, hstage.2⟩
  | connected t =>
    obtain ⟨hstate, hi, hw⟩ := hstage
    refine hl.next ⟨.inl hstate, trivial⟩ ⟨hstate, hi, ?_⟩
    rw [hw]
    exact Caller.add_reply_nobody t (.ok ())
  | close t => exact hl.next trivial hstage
  | closed t => exact hl.next ⟨.inl hstage.1, lawful_closed _, trivial⟩ rfl
  | hangup => exact absurd rfl (hhangup rfl)
  | lose => exact hl.next ⟨⟨hstage.1, hstage.2.2⟩, trivial⟩ hstage
  | bump =>
    obtain ⟨hstate, hi, hw⟩ := hstage
    refine hl.next trivial ⟨?_, hi, hw⟩
    change (lastPublished h).idle = false
    rw [hstate]
    rfl
  | exhaust =>
    obtain ⟨hidle, rfl, hw⟩ := hstage
    refine hl.next ⟨⟨hidle, hw⟩, lawful_publish ?_ (by decide), trivial⟩ rfl
    rw [lastPublished, published_append]
    change (lastPublished h).follows .disconnected = true
    rw [ConnectionState.follows, hidle]
    rfl
  | sleep =>
    obtain ⟨hidle, hi, hw⟩ := hstage
    have hfollows : (lastPublished h).follows .reconnecting = true := by
      rw [ConnectionState.follows, hidle]
      rfl
    exact hl.next ⟨⟨hfollows, fun _ => hw⟩,
      ⟨lastPublished_publish h _, (callerOf_publish h _).trans hw⟩, trivial⟩ ⟨rfl, hi, hw⟩
  | wake => exact hl.next trivial (.inr ⟨hstage.2.1, hstage.2.2, hstage.1⟩)

/-! ## The supervisor of a connection -/

theorem failed_reply (s : Sup) (e : SupEvent) {error : FitzError} (hpc : s.pc = .failed error)
    (t : Ticket) : Act.reply t (.ok ()) ∉ (s.step policy e).2 := by
  obtain ⟨pc, n, i, c⟩ := s
  obtain rfl : pc = .failed error := hpc
  have hreply : ∀ error',
      Act.reply t (.ok ()) ∉ (⟨.failed error, n, i, c⟩ : Sup).replyInitial (.error error') := by
    intro error'
    unfold Sup.replyInitial
    split <;> simp
  cases e with
  | advance =>
    simp only [Sup.step, Sup.advance, Sup.onOpenError]
    repeat' split
    all_goals simp [Sup.leave, Sup.goto, hreply]
  | _ => simp [Sup.step]

theorem lives_step (task : Supervised) (e : SupEvent) (hhangup : e = .hangup → task.sup.pc ≠ .session)
    (h : Lives task.sup task.acts) :
    Lives (task.step policy e).sup (task.step policy e).acts :=
  move_lives (step_move policy task.sup e) (fun _ hpc t => failed_reply task.sup e hpc t) hhangup h

/-- The end of a session whose callers are gone, and of the task. -/
theorem lives_last (task : Supervised) (h : Lives task.sup task.acts) :
    Lives ((task.step policy .hangup).step policy .hangup).sup
      ((task.step policy .hangup).step policy .hangup).acts := by
  by_cases hpc : task.sup.pc = .session
  · obtain ⟨⟨pc, n, i, c⟩, state, acts⟩ := task
    obtain rfl : pc = .session := hpc
    refine ⟨?_, trivial⟩
    simpa [Supervised.step, Sup.step, Sup.leave, Sup.goto] using h.each
  · refine lives_step _ .hangup (fun _ => ?_) (lives_step task .hangup (fun _ => hpc) h)
    obtain ⟨⟨pc, n, i, c⟩, state, acts⟩ := task
    cases pc with
    | session => exact absurd rfl hpc
    | _ => simp [Supervised.step, Sup.step, Sup.goto]

namespace Conn

variable {cfg : Config} {s : Conn}

/-- **The invariant rule for the supervisor of a connection.** A session whose callers are
gone ends together with the task. -/
theorem task_kept {I : Supervised → Prop}
    (hstep : ∀ task e, (e = .hangup → task.sup.pc ≠ .session) → I task →
      I (task.step cfg.reconnect e))
    (hlast : ∀ task, I task →
      I ((task.step cfg.reconnect .hangup).step cfg.reconnect .hangup))
    (e : Event) (h : I s.task) : I (s.step cfg e).task := by
  have hsup : ∀ (s' : Conn) (e' : SupEvent), e' ≠ .hangup → I s'.task → I (s'.supStep cfg e').task :=
    fun s' e' hne h' => hstep s'.task e' (fun heq => absurd heq hne) h'
  -- a turn of the session loop, of a state with the same task
  have hturn : ∀ (s' : Conn) (origin : Origin) (t : Turn), s'.task = s.task →
      I (s'.turn cfg origin t).task := by
    intro s' origin t hs
    rw [turn_eq]
    unfold afterTurn
    split
    · exact hstep _ _ (by simp) (hs ▸ h)
    · exact hs ▸ h
  cases e with
  | advance =>
    simp only [step, advance]
    split <;> exact hsup s .advance (by simp) h
  | command written =>
    simp only [step, command]
    split
    · split
      · exact hsup _ _ (by simp) (hturn _ _ _ rfl)
      · exact hsup _ _ (by simp) (hturn _ _ _ rfl)
      · exact hturn _ _ _ rfl
      · exact hturn _ _ _ rfl
    · exact h
  | cancel =>
    simp only [step, cancel]
    split
    · exact hturn _ _ _ rfl
    · exact h
  | inbound frame answers written =>
    simp only [step, inbound]
    split
    · exact hturn _ _ _ rfl
    · exact h
  | readError =>
    simp only [step, readError]
    split
    · exact hturn _ _ _ rfl
    · exact h
  | hangup =>
    simp only [step, hangup]
    split
    · exact hlast _ (hturn _ _ _ rfl)
    · rename_i hpc _
      exact hstep s.task .hangup (fun _ => by simp [show s.task.sup.pc = .recv from hpc]) h
    · exact h
  | requestClose =>
    simp only [step, requestClose]
    split
    · exact h
    · exact hsup s .requestClose (by simp) h
  | receive =>
    simp only [step, receive]
    split
    · split
      · exact hsup { s with commands := _ } _ (by simp) h
      · exact hsup { s with commands := _ } _ (by simp) h
      · exact h
      · exact h
    · exact h
  | token result => exact hsup s (.token result) (by simp) h
  | dial result =>
    simp only [step, dial]
    split <;> exact hstep s.task (.dial _) (by simp) h
  | auth answer =>
    simp only [step, auth]
    split
    · split <;> exact hstep s.task (.auth _) (by simp) h
    · exact h
  | restored =>
    simp only [step, restored]
    split
    · exact hsup s .restored (by simp) h
    · exact h
  | wake => exact hsup s .wake (by simp) h
  | register messageType payload wireId decoder => exact h
  | deactivate key => exact h
  | allocate kind messageType payload =>
    simp only [step, allocate]
    split <;> exact h
  | stamp t | enqueue t | resume t | abandon t | connect | close | restoreNext key written
  | restoreRead frame answers | restoreFail =>
    simp only [step, stamp, enqueue, resume, abandon, dropGuard, push, restoreNext, restoreRead,
      restoreFail]
    repeat' split
    all_goals exact h

/-- **What a connection publishes.** In every run of a connection, whatever its callers,
the broker and the timers do, each act of its supervisor is lawful after those before it: a
session is opened once for a `Connect` command and in its name, or after `Reconnecting` for
nobody; `Authenticating` follows `Connecting`, and `Authenticated` it alone; nothing is
retried, and no session lost, while a command waits; an error is replied to the command that
was tried, and only when the connection has come to rest; success is replied only when
`Authenticated` or `Closed` was published last. Where the task stands says what it published
last. -/
theorem history_lawful (cfg : Config) (es : List Event) :
    let task := (run (Conn.step cfg) (.new cfg) es).task
    Each Lawful task.acts ∧
      Announced (lastPublished task.acts) (callerOf task.acts) task.sup.initialResponse
        task.sup.pc := by
  intro task
  have hlives : Lives task.sup task.acts := by
    refine run_inv (I := fun s : Conn => Lives s.task.sup s.task.acts) (fun s e h => ?_) ?_ es
    · refine task_kept (I := fun task => Lives task.sup task.acts) ?_ lives_last e h
      exact fun task e hhangup hlives => lives_step task e hhangup hlives
    · exact ⟨each_nil _, rfl⟩
  exact ⟨hlives.each, hlives.stage⟩

end Conn

end Fitz
