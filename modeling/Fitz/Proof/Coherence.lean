import Fitz.Proof.Answers
import Fitz.Lib.Machine

/-!
# A view is a pass of one session

Each page of LIST is asked for until some session answers it, and nothing compares
that session with the one of the page before. `observations_coherent`: in every run in
which no session begins while a pass is midway, a ready view is the union of the pages
of one whole pass, all of them answered on one transport. Otherwise the observer may be
ready with pages of two sessions (`pages_of_two_sessions`).

The invariant is on what the pass has so far (`Collected`): while the connection is in
a session, its pages are of that session (`Current`), and an answer that waits in the
`oneshot` is of the session of the pages before it (`Awaits`).
-/

namespace Fitz

open Machine

/-! ## Passes -/

/-- Pages one after the other, each asked for at the cursor of the one before, and the
cursor to ask at next, unless the last page named none. -/
inductive Paging : List ListedPage → Option (Option LeaseListCursor) → Prop
  | first : Paging [] (some none)
  | next {pages : List ListedPage} {listed : ListedPage} (h : Paging pages (some listed.cursor))
      (later : ∀ p ∈ pages, p.ticket < listed.ticket) :
      Paging (pages ++ [listed]) (listed.page.nextCursor.map some)

/-- The union of the pages, by route. -/
def listing (pages : List ListedPage) : List LeaseListItem :=
  (pages.flatMap (·.page.items)).foldl insertItem []

theorem listing_concat (pages : List ListedPage) (listed : ListedPage) :
    listing (pages ++ [listed]) = listed.page.items.foldl insertItem (listing pages) := by
  unfold listing
  rw [List.flatMap_append, List.foldl_append, List.flatMap_singleton]

namespace LeaseObserver

/-! ## The condition and the property -/

/-- A page is answered, be it in the `oneshot`, and another one is to come. -/
def awaitsMidway (s : LeaseObserver) (pages : List ListedPage) (t : Ticket) : Bool :=
  match s.settled t with
  | some (.ok response) => ((listAnswer (.ok response)).toOption.bind (·.nextCursor)).isSome
  | _ => !pages.isEmpty

/-- A page of the pass is answered, and its last page is not. -/
def midway (s : LeaseObserver) : Bool :=
  match s.pc with
  | .passing pass =>
    match pass.stage with
    | .asking _ => !pass.pages.isEmpty
    | .awaiting _ t => s.awaitsMidway pass.pages t
    | _ => false
  | _ => false

/-- The connection enters a session. -/
def begins (s : LeaseObserver) (e : LeaseObserverEvent) : Bool :=
  match e with
  | .conn .advance => s.idle && s.conn.pc = .entering
  | _ => false

end LeaseObserver

/-- No session begins while a pass is midway. -/
def Undivided (s : LeaseObserver) (e : LeaseObserverEvent) : Prop :=
  s.begins e = true → s.midway = false

instance (s : LeaseObserver) (e : LeaseObserverEvent) : Decidable (Undivided s e) :=
  inferInstanceAs (Decidable (s.begins e = true → s.midway = false))

namespace LeaseObserver

variable (cfg : Config) (policy : RetryPolicy) (pattern : String) (pageSize : UInt32)

/-- The page is what the broker answered to its call, on its transport. -/
def Answered (asked : Ticket → Option Bytes) (log : List Obs) (p : ListedPage) : Prop :=
  asked p.ticket = some (listPayload pattern p.cursor pageSize) ∧
    ∃ response frame source, .delivered p.serial p.ticket response frame source ∈ log ∧
      listAnswer (.ok response) = .ok p.page

/-- The pages of a pass up to `next`, all of one session, and their union. -/
structure Collected (asked : Ticket → Option Bytes) (log : List Obs) (pages : List ListedPage)
    (next : Option (Option LeaseListCursor)) (items : List LeaseListItem) : Prop where
  paging : Paging pages next
  union : items = listing pages
  answered : ∀ p ∈ pages, Answered pattern pageSize asked log p
  session : ∃ n, ∀ p ∈ pages, p.serial = n

/-- **A ready view is a whole pass of one session.** -/
def Coherent (s : LeaseObserver) : Prop :=
  s.ready = true → Collected pattern pageSize s.asked s.conn.log s.installed none s.view

/-! ## Invariant -/

/-- In a session, the pages are of that session. -/
def Current (s : LeaseObserver) (pages : List ListedPage) : Prop :=
  s.conn.pc = .session → ∀ p ∈ pages, p.serial = s.conn.serial

/-- A page in the `oneshot` is of the session of the pages before it, and of the session
the connection is in if another page is to come. -/
def Awaits (s : LeaseObserver) (pages : List ListedPage) (t : Ticket) : Prop :=
  match s.settled t with
  | some (.ok response) => ∀ page, listAnswer (.ok response) = .ok page →
    ∃ n, responseOn s.conn.log t response = some n ∧ (∀ p ∈ pages, p.serial = n) ∧
      (page.nextCursor.isSome = true → s.conn.pc = .session → s.conn.serial = n)
  | _ => s.Current pages

def Fine (s : LeaseObserver) (pass : ListPass) : Prop :=
  match pass.stage with
  | .starting => True
  | .asking _ =>
    Collected pattern pageSize s.asked s.conn.log pass.pages (some pass.cursor) pass.fresh ∧
      s.Current pass.pages
  | .awaiting _ t =>
    Collected pattern pageSize s.asked s.conn.log pass.pages (some pass.cursor) pass.fresh ∧
      s.asked t = some (listPayload pattern pass.cursor pageSize) ∧
      (∀ p ∈ pass.pages, p.ticket < t) ∧ s.Awaits pass.pages t
  | .draining _ | .drained => Collected pattern pageSize s.asked s.conn.log pass.pages none pass.fresh

/-- What holds between passes, and in them. -/
structure Sound (s : LeaseObserver) : Prop where
  delivering : Conn.Delivering s.conn
  coherent : s.Coherent pattern pageSize

structure CoherenceInv (s : LeaseObserver) : Prop where
  sound : s.Sound pattern pageSize
  fine : ∀ pass, s.pc = .passing pass → s.Fine pattern pageSize pass

variable {cfg policy pattern pageSize} {s : LeaseObserver}

theorem inv_new : (new cfg).CoherenceInv pattern pageSize where
  sound := ⟨Conn.delivering_new cfg, fun h => absurd h Bool.false_ne_true⟩
  fine := by
    intro pass h
    cases h

/-! ## The connection -/

theorem Collected.conn {conn : Conn} (hn : conn.negotiated) (e : Event)
    {asked : Ticket → Option Bytes} {pages : List ListedPage}
    {next : Option (Option LeaseListCursor)} {items : List LeaseListItem}
    (h : Collected pattern pageSize asked conn.log pages next items) :
    Collected pattern pageSize asked (conn.step cfg e).log pages next items := by
  obtain ⟨new, hnew, -⟩ := Conn.log_step cfg conn e hn
  refine ⟨h.paging, h.union, fun p hp => ?_, h.session⟩
  obtain ⟨hasked, response, frame, source, hmem, hpage⟩ := h.answered p hp
  refine ⟨hasked, response, frame, source, ?_, hpage⟩
  rw [hnew]
  exact List.mem_append_left _ hmem

/-- Whatever the connection does, the view stands. -/
theorem Sound.conn (cfg : Config) (h : s.Sound pattern pageSize) (e : Event) :
    Sound pattern pageSize { s with conn := s.conn.step cfg e } where
  delivering := Conn.delivering_step cfg s.conn e h.delivering
  coherent := fun hready => (h.coherent hready).conn h.delivering.base.negotiated e

/-- A session that begins finds no page to add to. -/
theorem current_conn (hn : s.conn.negotiated) {e : Event} {pages : List ListedPage}
    (h : s.Current pages)
    (hb : e = .advance → s.conn.pc = .entering → pages = []) :
    Current { s with conn := s.conn.step cfg e } pages := by
  intro hpc p hp
  change p.serial = (s.conn.step cfg e).serial
  rcases Conn.session_step hn hpc with ⟨hold, hserial⟩ | ⟨he, hentering⟩
  · rw [hserial]
    exact h hold p hp
  · rw [hb he hentering] at hp
    cases hp

/-- An empty answer is no page. -/
theorem ne_nil_of_page {response : Bytes} {page : LeaseListPage}
    (h : listAnswer (.ok response) = .ok page) : response ≠ [] := by
  rintro rfl
  cases h

theorem answer_of_settled {t : Ticket} {response : Bytes} (h : s.settled t = some (.ok response)) :
    s.conn.answers.find? (·.1 = t) = some (t, some (.ok response)) := by
  unfold settled at h
  obtain ⟨⟨t', answer⟩, hfind, hok⟩ := Option.map_eq_some_iff.1 h
  have ht : t' = t := by simpa using List.find?_some hfind
  subst ht
  cases answer with
  | none => cases hok
  | some result =>
    have hresult : result = .ok response := hok
    rw [hfind, hresult]

/-- What is in a `oneshot` stays there. -/
theorem settled_conn (e : Event) {t : Ticket} {result : Result Bytes} (h : s.settled t = some result) :
    settled { s with conn := s.conn.step cfg e } t = some result := by
  unfold settled at h ⊢
  obtain ⟨answer, hfind, hresult⟩ := Option.map_eq_some_iff.1 h
  obtain ⟨new, hnew⟩ := Conn.answers_step cfg s.conn e
  change ((s.conn.step cfg e).answers.find? _).map _ = _
  rw [hnew, List.find?_append, hfind]
  exact congrArg some hresult

/-- **The answer to a page is of the session of the pages before it.** -/
theorem awaits_conn (h : Conn.Delivering s.conn) {e : Event} {pages : List ListedPage} {t : Ticket}
    (ha : s.Awaits pages t)
    (hb : e = .advance → s.conn.pc = .entering → s.awaitsMidway pages t = false) :
    Awaits { s with conn := s.conn.step cfg e } pages t := by
  unfold Awaits at ha
  unfold awaitsMidway at hb
  cases hold : s.settled t with
  | some result =>
    unfold Awaits
    rw [settled_conn e hold]
    rw [hold] at ha hb
    cases result with
    | error error => exact current_conn h.base.negotiated ha fun he hpc => by simpa using hb he hpc
    | ok response =>
      intro page hpage
      obtain ⟨n, hon, hpages, hserial⟩ := ha page hpage
      obtain ⟨new, hnew, -⟩ := Conn.log_step cfg s.conn e h.base.negotiated
      refine ⟨n, ?_, hpages, fun hmore hpc => ?_⟩
      · change responseOn (s.conn.step cfg e).log t response = some n
        rw [hnew]
        exact Conn.responseOn_append hon
      · change (s.conn.step cfg e).serial = n
        rcases Conn.session_step h.base.negotiated hpc with ⟨hpc, hsame⟩ | ⟨he, hpc⟩
        · rw [hsame]
          exact hserial hmore hpc
        · -- another page is to come, so the pass is midway
          have hlast := hb he hpc
          simp [hpage, Except.toOption, hmore] at hlast
  | none =>
    rw [hold] at ha hb
    have hcurrent : Current { s with conn := s.conn.step cfg e } pages :=
      current_conn h.base.negotiated ha fun he hpc => by simpa using hb he hpc
    unfold Awaits
    split
    · rename_i response hsettled
      intro page hpage
      have hanswer : (s.conn.step cfg e).answers.find? (·.1 = t) = some (t, some (.ok response)) :=
        answer_of_settled hsettled
      have hnone : s.conn.answers.find? (·.1 = t) = none := Option.map_eq_none_iff.1 hold
      obtain ⟨hpc, -, hon⟩ := Conn.responseOn_step h hnone hanswer (ne_nil_of_page hpage)
      exact ⟨s.conn.serial, hon, ha hpc, fun _ _ => Conn.serial_session h.base.negotiated hpc⟩
    · exact hcurrent

/-- A step of the connection keeps the pass, unless a session begins midway. -/
theorem inv_conn (h : s.CoherenceInv pattern pageSize) {e : Event}
    (hb : e = .advance → s.conn.pc = .entering → s.midway = false) :
    CoherenceInv pattern pageSize { s with conn := s.conn.step cfg e } where
  sound := h.sound.conn cfg e
  fine := by
    intro pass hpc
    have hfine := h.fine pass hpc
    have hd := h.sound.delivering
    have hn := hd.base.negotiated
    have hpass : s.pc = .passing pass := hpc
    unfold midway at hb
    rw [hpass] at hb
    unfold Fine at hfine ⊢
    cases hstage : pass.stage with
    | starting => trivial
    | asking attempt =>
      simp only [hstage] at hfine hb ⊢
      exact ⟨hfine.1.conn hn e, current_conn hn hfine.2 fun he hpc => by simpa using hb he hpc⟩
    | awaiting attempt t =>
      simp only [hstage] at hfine hb ⊢
      obtain ⟨hpages, hasked, hlt, hawaits⟩ := hfine
      exact ⟨hpages.conn hn e, hasked, hlt, awaits_conn hd hawaits hb⟩
    | draining | drained =>
      simp only [hstage] at hfine ⊢
      exact hfine.conn hn e

/-! ## Outside of a pass -/

/-- The observer has no page of a view to come. -/
structure Apart (pattern : String) (pageSize : UInt32) (s : LeaseObserver) : Prop where
  sound : s.Sound pattern pageSize
  unpaged : ∀ pass, s.pc = .passing pass → pass.stage = .starting

theorem Apart.inv (h : s.Apart pattern pageSize) : s.CoherenceInv pattern pageSize where
  sound := h.sound
  fine := by
    intro pass hpc
    unfold Fine
    rw [h.unpaged pass hpc]
    trivial

theorem sound_goto (h : s.Sound pattern pageSize) (pc : ObserveLoopPc) :
    (s.goto pc).Sound pattern pageSize :=
  ⟨h.delivering, h.coherent⟩

theorem apart_goto (h : s.Sound pattern pageSize) {pc : ObserveLoopPc}
    (hpc : ∀ pass, pc = .passing pass → pass.stage = .starting) :
    (s.goto pc).Apart pattern pageSize :=
  ⟨sound_goto h pc, hpc⟩

theorem sound_unready (h : s.Sound pattern pageSize) :
    Sound pattern pageSize { s with ready := false } :=
  ⟨h.delivering, fun hready => absurd hready Bool.false_ne_true⟩

theorem sound_endCall (h : s.Sound pattern pageSize) (t : Ticket) :
    (s.endCall cfg t).Sound pattern pageSize := by
  unfold endCall
  split <;> exact h.conn cfg _

theorem sound_take (h : s.Sound pattern pageSize) : s.take.Sound pattern pageSize := by
  unfold take
  split
  · exact h
  all_goals exact ⟨h.delivering, h.coherent⟩

theorem apart_unsubscribe (h : s.Sound pattern pageSize) {requested : Ticket → ObserveLoopPc}
    {closed : ObserveLoopPc} (hrequested : ∀ t pass, requested t ≠ .passing pass)
    (hclosed : ∀ pass, closed ≠ .passing pass) :
    (s.unsubscribe cfg pattern requested closed).Apart pattern pageSize := by
  unfold unsubscribe
  split
  · rename_i key cell hreg
    have hdeactivated : Sound pattern pageSize
        { s with registration := none, conn := s.conn.step cfg (.deactivate key) } :=
      ⟨(h.conn cfg _).delivering, (h.conn cfg _).coherent⟩
    exact apart_goto (hdeactivated.conn cfg _) fun pass heq => absurd heq (hrequested _ pass)
  · exact apart_goto h fun pass heq => absurd heq (hclosed pass)

theorem apart_leave (h : s.Sound pattern pageSize) : (s.leave cfg pattern).Apart pattern pageSize :=
  apart_unsubscribe h (by simp) (by simp)

theorem apart_replace (h : s.Sound pattern pageSize) (subscriber : Subscriber) :
    (s.replace cfg pattern subscriber).Apart pattern pageSize :=
  apart_unsubscribe (sound_unready h) (by simp) (by simp)

theorem apart_subscribe (h : s.Sound pattern pageSize) (subscriber : Subscriber) :
    (s.subscribe cfg pattern subscriber).Apart pattern pageSize :=
  apart_goto (h.conn cfg _) (by simp)

theorem apart_subscribed (h : s.Sound pattern pageSize) (subscriber : Subscriber) (mark : ℕ)
    (result : Result Bytes) :
    (s.subscribed cfg pattern subscriber mark result).Apart pattern pageSize := by
  unfold subscribed
  split
  · refine ⟨⟨(h.conn cfg _).delivering, (h.conn cfg _).coherent⟩, fun pass hpc => ?_⟩
    change (if subscriber = .bootstrap then ObserveLoopPc.pausing else .looping) = .passing pass at hpc
    split at hpc <;> cases hpc
  · split
    · exact apart_goto h (by simp)
    · split
      · exact apart_leave h
      · exact apart_goto h (by simp)

theorem apart_reconcile (h : s.Sound pattern pageSize) (origin : PassOrigin) :
    (s.reconcile origin).Apart pattern pageSize := by
  refine apart_goto h fun pass hpc => ?_
  cases hpc
  rfl

theorem apart_reconnected (h : s.Sound pattern pageSize) : s.reconnected.Apart pattern pageSize :=
  ⟨sound_unready (sound_goto h .looping), fun pass hpc => by cases hpc⟩

theorem apart_failed (h : s.Sound pattern pageSize) (origin : PassOrigin) (error : FitzError) :
    (s.failed cfg pattern origin error).Apart pattern pageSize := by
  unfold failed
  split
  · exact apart_leave h
  · split
    · exact apart_replace h _
    · cases origin with
      | bootstrap => exact apart_goto h (by simp)
      | invalidation => exact apart_reconnected h
      | periodic => exact apart_goto h (by simp)

/-! ## In a pass -/

/-- The observer stays in a pass. -/
theorem inv_passing (h : s.Sound pattern pageSize) {pass : ListPass}
    (hfine : s.Fine pattern pageSize pass) :
    (s.goto (.passing pass)).CoherenceInv pattern pageSize where
  sound := sound_goto h _
  fine := by
    intro pass' hpc
    cases hpc
    exact hfine

/-- A page came from a call that was made. -/
theorem Answered.lt_nextTicket (hd : Conn.Delivering s.conn) {p : ListedPage}
    (h : Answered pattern pageSize s.asked s.conn.log p) : p.ticket < s.conn.nextTicket := by
  obtain ⟨-, response, frame, source, hmem, -⟩ := h
  exact hd.lt_nextTicket hmem

theorem Collected.ask (hd : Conn.Delivering s.conn) (payload : Bytes) {pages : List ListedPage}
    {next : Option (Option LeaseListCursor)} {items : List LeaseListItem}
    (h : Collected pattern pageSize s.asked s.conn.log pages next items) :
    Collected pattern pageSize (Function.update s.asked s.conn.nextTicket (some payload)) s.conn.log
      pages next items := by
  refine ⟨h.paging, h.union, fun p hp => ⟨?_, (h.answered p hp).2⟩, h.session⟩
  have hlt := (h.answered p hp).lt_nextTicket hd
  rw [Function.update_of_ne hlt.ne]
  exact (h.answered p hp).1

/-- The `oneshot` of a call that was not made holds no page. -/
theorem no_page_of_fresh (h : Conn.Delivering s.conn) {response : Bytes} {page : LeaseListPage}
    (hsettled : s.settled s.conn.nextTicket = some (.ok response)) :
    listAnswer (.ok response) ≠ .ok page := by
  intro hpage
  have hanswer := List.mem_of_find?_eq_some (answer_of_settled hsettled)
  obtain ⟨serial, frame, source, hmem⟩ :=
    (h.answers _ response hanswer).resolve_left (ne_nil_of_page hpage)
  exact absurd (h.lt_nextTicket hmem) (lt_irrefl _)

theorem inv_ask (h : s.Sound pattern pageSize) {pass : ListPass} (attempt : ℕ)
    (hpages : Collected pattern pageSize s.asked s.conn.log pass.pages (some pass.cursor) pass.fresh)
    (hcurrent : s.Current pass.pages) :
    (s.ask cfg pattern pageSize pass attempt).CoherenceInv pattern pageSize := by
  have hd := h.delivering
  have hn := hd.base.negotiated
  have hasked : Sound pattern pageSize
      { s with asked := Function.update s.asked s.conn.nextTicket
                 (some (listPayload pattern pass.cursor pageSize)) } :=
    ⟨hd, fun hready => (h.coherent hready).ask hd _⟩
  have hcalled := hasked.conn cfg
    (.allocate (.request 0) MessageType.leaseList (listPayload pattern pass.cursor pageSize))
  refine ⟨⟨hcalled.delivering, hcalled.coherent⟩, fun pass' hpc => ?_⟩
  cases hpc
  refine ⟨(hpages.ask hd _).conn hn _, Function.update_self .., fun p hp => ?_, ?_⟩
  · exact (hpages.answered p hp).lt_nextTicket hd
  -- what is in this `oneshot` is no page
  have hawaits : s.Awaits pass.pages s.conn.nextTicket := by
    unfold Awaits
    split
    · rename_i response hsettled
      intro page hpage
      exact absurd hpage (no_page_of_fresh hd hsettled)
    · exact hcurrent
  exact awaits_conn hd hawaits fun he => by cases he

theorem inv_collect (h : s.Sound pattern pageSize) {pass : ListPass} {t : Ticket} {response : Bytes}
    {page : LeaseListPage}
    (hpages : Collected pattern pageSize s.asked s.conn.log pass.pages (some pass.cursor) pass.fresh)
    (hasked : s.asked t = some (listPayload pattern pass.cursor pageSize))
    (hlater : ∀ p ∈ pass.pages, p.ticket < t) (hpage : listAnswer (.ok response) = .ok page)
    {n : ℕ} (hon : responseOn s.conn.log t response = some n) (hsame : ∀ p ∈ pass.pages, p.serial = n)
    (hserial : page.nextCursor.isSome = true → s.conn.pc = .session → s.conn.serial = n) :
    (s.collect pass t response page).CoherenceInv pattern pageSize := by
  obtain ⟨frame, source, hmem⟩ := Conn.delivered_of_responseOn hon
  have hall : ∀ p ∈ pass.pages ++ [⟨pass.cursor, t, n, page⟩], p.serial = n := by
    intro p hp
    rcases List.mem_append.1 hp with hp | hp
    · exact hsame p hp
    · rw [List.mem_singleton.1 hp]
  have hcollected : Collected pattern pageSize s.asked s.conn.log (pass.pages ++ [⟨pass.cursor, t, n, page⟩])
      (page.nextCursor.map some) (page.items.foldl insertItem pass.fresh) := by
    refine ⟨.next hpages.paging hlater, ?_, fun p hp => ?_, n, hall⟩
    · rw [listing_concat, hpages.union]
    · rcases List.mem_append.1 hp with hp | hp
      · exact hpages.answered p hp
      · rw [List.mem_singleton.1 hp]
        exact ⟨hasked, response, frame, source, hmem, hpage⟩
  unfold collect
  simp only [hon, Option.getD_some]
  cases hnext : page.nextCursor with
  | some cursor =>
    rw [hnext] at hcollected hserial
    refine inv_passing h ⟨hcollected, fun hpc p hp => ?_⟩
    rw [hall p hp, hserial rfl hpc]
  | none =>
    rw [hnext] at hcollected
    exact inv_passing h hcollected

theorem inv_listed (h : s.Sound pattern pageSize) {pass : ListPass} {attempt : ℕ} {t : Ticket}
    (hpages : Collected pattern pageSize s.asked s.conn.log pass.pages (some pass.cursor) pass.fresh)
    (hasked : s.asked t = some (listPayload pattern pass.cursor pageSize))
    (hlater : ∀ p ∈ pass.pages, p.ticket < t) (hawaits : s.Awaits pass.pages t) (error : FitzError) :
    (s.listed cfg policy pattern pass attempt t
      ((s.settled t).getD (.error error))).CoherenceInv pattern pageSize := by
  -- a request that failed is made again, or ends the pass
  have hagain : ∀ error : FitzError, s.Current pass.pages →
      (s.listed cfg policy pattern pass attempt t (.error error)).CoherenceInv pattern pageSize := by
    intro error hcurrent
    simp only [listed]
    split
    · exact inv_passing h ⟨hpages, hcurrent⟩
    · exact (apart_failed h _ _).inv
  unfold Awaits at hawaits
  cases hsettled : s.settled t with
  | none =>
    rw [hsettled] at hawaits
    exact hagain error hawaits
  | some result =>
    rw [hsettled] at hawaits
    cases result with
    | error error' => exact hagain error' hawaits
    | ok response =>
      simp only [Option.getD_some, listed]
      split
      · rename_i page hpage
        obtain ⟨n, hon, hsame, hserial⟩ := hawaits page hpage
        exact inv_collect h hpages hasked hlater hpage hon hsame hserial
      · exact (apart_failed h _ _).inv

theorem inv_take (h : s.CoherenceInv pattern pageSize) : s.take.CoherenceInv pattern pageSize := by
  unfold take
  split
  · exact h
  all_goals exact ⟨⟨h.sound.delivering, h.sound.coherent⟩, h.fine⟩

theorem inv_drain (h : s.CoherenceInv pattern pageSize) {pass : ListPass} (invalidated : Bool)
    (hpages : Collected pattern pageSize s.asked s.conn.log pass.pages none pass.fresh) :
    (s.drain cfg pattern pass invalidated).CoherenceInv pattern pageSize := by
  have hs := h.sound
  have htaken : Collected pattern pageSize s.take.asked s.take.conn.log pass.pages none pass.fresh := by
    unfold take
    split
    · exact hpages
    all_goals exact hpages
  unfold drain
  split
  · cases invalidated with
    | true => exact inv_passing hs trivial
    | false => exact inv_passing hs hpages
  · exact (apart_failed (sound_take hs) _ _).inv
  · exact inv_take h
  · exact inv_passing (sound_take hs) htaken
  · exact (apart_failed (sound_take hs) _ _).inv

/-- What is installed is a whole pass. -/
theorem inv_install (h : s.Sound pattern pageSize) {pass : ListPass}
    (hpages : Collected pattern pageSize s.asked s.conn.log pass.pages none pass.fresh) :
    (s.install pass).CoherenceInv pattern pageSize := by
  unfold install
  split
  · refine Apart.inv ⟨⟨h.delivering, fun _ => hpages⟩, fun pass' hpc => ?_⟩
    · change (if pass.origin = .bootstrap then ObserveLoopPc.comparing else .pollShutdown) =
        .passing pass' at hpc
      split at hpc <;> cases hpc
  · exact inv_passing h trivial

theorem inv_passStep (h : s.CoherenceInv pattern pageSize) {pass : ListPass}
    (hpc : s.pc = .passing pass) :
    (s.passStep cfg pattern pageSize pass).CoherenceInv pattern pageSize := by
  have hs := h.sound
  have hfine := h.fine pass hpc
  unfold Fine at hfine
  unfold passStep
  cases hstage : pass.stage with
  | starting =>
    refine inv_passing hs ⟨⟨.first, rfl, ?_, 0, ?_⟩, fun _ => ?_⟩ <;> simp
  | asking attempt =>
    simp only [hstage] at hfine
    exact inv_ask hs attempt hfine.1 hfine.2
  | awaiting attempt t => exact h
  | draining invalidated =>
    simp only [hstage] at hfine
    exact inv_drain h invalidated hfine
  | drained =>
    simp only [hstage] at hfine
    exact inv_install hs hfine

/-! ## Steps -/

theorem inv_receive (h : s.CoherenceInv pattern pageSize) :
    (s.receive cfg pattern).CoherenceInv pattern pageSize := by
  have hs := h.sound
  unfold receive
  split
  · exact (apart_goto hs (by simp)).inv
  · exact (apart_replace (sound_take hs) _).inv
  · exact inv_take h
  · exact (apart_reconcile (sound_take hs) _).inv
  · split
    · exact (apart_leave (sound_take hs)).inv
    · exact (apart_replace (sound_take hs) _).inv

theorem inv_observe (h : s.CoherenceInv pattern pageSize) :
    (s.observe cfg pattern pageSize).CoherenceInv pattern pageSize := by
  have hs := h.sound
  -- the fields that are set beside the place are in no invariant
  have hgoto : ∀ pc : ObserveLoopPc, (∀ pass, pc ≠ .passing pass) →
      (s.goto pc).CoherenceInv pattern pageSize :=
    fun pc hpc => (apart_goto hs fun pass heq => absurd heq (hpc pass)).inv
  have hpoll : CoherenceInv pattern pageSize { s.goto .pollShutdown with seen := s.conn.bumps } := by
    have hinv := hgoto .pollShutdown (by simp)
    exact ⟨⟨hinv.sound.delivering, hinv.sound.coherent⟩, hinv.fine⟩
  unfold observe
  dsimp only
  split
  · exact (apart_subscribe hs _).inv
  · split
    · exact (apart_leave hs).inv
    · have hinv := (apart_reconcile hs .bootstrap).inv
      exact ⟨⟨hinv.sound.delivering, hinv.sound.coherent⟩, hinv.fine⟩
  · exact (apart_reconcile hs _).inv
  · rename_i pass hpc
    exact inv_passStep h hpc
  · split
    · exact hgoto _ (by simp)
    · exact (apart_reconnected hs).inv
  · split
    · exact hpoll
    · exact (apart_reconnected hs).inv
  · split
    · exact (apart_leave hs).inv
    · exact hgoto _ (by simp)
  · split
    · exact hgoto _ (by simp)
    · split
      · exact hpoll
      · exact (apart_reconnected hs).inv
  · exact inv_receive h
  · exact hgoto _ (by simp)
  · exact hgoto _ (by simp)
  · exact h

theorem inv_endCall (cfg : Config) (h : s.CoherenceInv pattern pageSize) (t : Ticket) :
    (s.endCall cfg t).CoherenceInv pattern pageSize := by
  unfold endCall
  split <;> exact inv_conn h fun he => by cases he

theorem settled_endCall (t : Ticket) : (s.endCall cfg t).settled t = s.settled t := by
  unfold settled endCall
  split
  · exact congrArg _ (congrArg _ (Conn.kept_step cfg s.conn (by rfl)).answers)
  · exact congrArg _ (congrArg _ (Conn.kept_step cfg s.conn (by rfl)).answers)

theorem inv_returned (h : s.CoherenceInv pattern pageSize) (error : FitzError) :
    (s.returned cfg policy pattern error).CoherenceInv pattern pageSize := by
  have hs := h.sound
  unfold returned
  split
  · exact (apart_subscribed (sound_endCall hs _) _ _ _).inv
  · exact (apart_goto (sound_endCall hs _) (by simp)).inv
  · rename_i pass hpc
    split
    · rename_i attempt t hstage
      have hended := inv_endCall cfg h t
      have hpc' : (s.endCall cfg t).pc = .passing pass := hpc
      have hfine := hended.fine pass hpc'
      unfold Fine at hfine
      simp only [hstage] at hfine
      obtain ⟨hpages, hasked, hlater, hawaits⟩ := hfine
      have hlisted : ((s.endCall cfg t).listed cfg policy pattern pass attempt t
          (((s.endCall cfg t).settled t).getD (.error error))).CoherenceInv pattern pageSize :=
        inv_listed hended.sound hpages hasked hlater hawaits error
      rwa [settled_endCall] at hlisted
    · exact h
  · exact (apart_goto (sound_endCall hs _) (by simp)).inv
  · exact h

theorem inv_stop (h : s.CoherenceInv pattern pageSize) :
    (s.stop cfg pattern).CoherenceInv pattern pageSize := by
  have hs := h.sound
  have hdropped : ∀ t, ((s.dropCall cfg t).leave cfg pattern).CoherenceInv pattern pageSize :=
    fun t => (apart_leave (hs.conn cfg _)).inv
  have hleft : (s.leave cfg pattern).CoherenceInv pattern pageSize := (apart_leave hs).inv
  unfold stop
  split
  · split
    · split
      · exact hdropped _
      · exact hleft
      · exact hleft
      · exact h
      · exact h
    · exact h
  · split
    · exact h
    · exact hdropped _
  · exact hdropped _
  · exact hleft
  · exact hleft
  · exact h

theorem inv_step (s : LeaseObserver) (e : LeaseObserverEvent) (h : s.CoherenceInv pattern pageSize)
    (hc : Undivided s e) : (s.step cfg policy pattern pageSize e).CoherenceInv pattern pageSize := by
  have hs := h.sound
  cases e with
  | conn e =>
    simp only [step]
    split
    · rename_i hpermits
      refine inv_conn h fun he hpc => ?_
      subst he
      have hidle : s.idle = true := by simpa [permits, Event.supervised] using hpermits
      exact hc (by simp [begins, hidle, hpc])
    · exact h
  | broadcast =>
    simp only [step]
    split
    · exact h
    · exact ⟨⟨hs.delivering, hs.coherent⟩, h.fine⟩
  | start =>
    simp only [step]
    split
    · exact (apart_subscribe hs _).inv
    · exact h
  | observe => exact inv_observe h
  | returned error => exact inv_returned h error
  | tick =>
    simp only [step]
    split
    · exact (apart_reconcile hs _).inv
    · exact h
  | shutdown => exact ⟨⟨hs.delivering, hs.coherent⟩, h.fine⟩
  | stop =>
    simp only [step]
    split
    · exact inv_stop h
    · exact h

end LeaseObserver

open LeaseObserver in
/-- **Ready means coherent.** In every run in which no session begins while a LIST pass
is midway, a ready view is the union of the pages of one whole pass, each of them the
answer to its own request, and all of them on one transport. -/
theorem observations_coherent (cfg : Config) (policy : RetryPolicy) (pattern : String)
    (pageSize : UInt32) (es : List LeaseObserverEvent)
    (h : Along (step cfg policy pattern pageSize) Undivided (.new cfg) es) :
    (run (step cfg policy pattern pageSize) (.new cfg) es).Coherent pattern pageSize := by
  have hinv := along_inv (I := CoherenceInv pattern pageSize) inv_step inv_new h
  exact hinv.sound.coherent

/-- A lease in a page. -/
def leaseItem (route : String) : Bytes :=
  putString route ++ putString "o" ++ putU64 1 ++ putString "" ++ putU64 9 ++ putU32 0

/-- A page of one lease, with a cursor to the next. -/
def firstPage : Bytes :=
  [0] ++ putU32 1 ++ leaseItem "lease://r/a/s" ++ [1] ++ putU64 5 ++ putU32 1

/-- A page of another lease, the last. -/
def lastPage : Bytes := [0] ++ putU32 1 ++ leaseItem "lease://r/a/t" ++ [0]

/-- The observer's call is sent. -/
def sendRun (t : Ticket) : List LeaseObserverEvent :=
  [.conn (.stamp t), .conn (.enqueue t), .conn (.command (.ok ()))]

/-- The same, and it is answered. -/
def callRun (messageType : UInt16) (t : Ticket) (correlationId : UInt64) (payload : Bytes) :
    List LeaseObserverEvent :=
  sendRun t ++ [.conn (.inbound (replyFrame messageType correlationId payload) (some 0) (.ok ())),
    .returned .timeout]

/-- The next page of a pass. -/
def pageRun (t : Ticket) (correlationId : UInt64) (page : Bytes) : List LeaseObserverEvent :=
  .observe :: callRun MessageType.leaseList t correlationId page

/-- `observe` subscribes, and a bootstrap begins. -/
def observedRun : List LeaseObserverEvent :=
  (firstSession 8).map .conn ++ [.start] ++
    callRun MessageType.leaseSubscribe 1 1 (0 :: putU64 7) ++ [.observe, .observe]

/-- A bootstrap with two pages. -/
def bootstrapRun : List LeaseObserverEvent :=
  observedRun ++ pageRun 2 2 firstPage ++ pageRun 3 3 lastPage ++ [.observe, .observe]

theorem observations_coherent_bootstrap :
    (run (LeaseObserver.step ⟨4, ⟨true, 0⟩⟩ ⟨true, 3⟩ "lease://r/a/*" 1) (.new ⟨4, ⟨true, 0⟩⟩)
      bootstrapRun).ready = true ∧
      (run (LeaseObserver.step ⟨4, ⟨true, 0⟩⟩ ⟨true, 3⟩ "lease://r/a/*" 1) (.new ⟨4, ⟨true, 0⟩⟩)
        bootstrapRun).Coherent "lease://r/a/*" 1 :=
  ⟨by decide +kernel, observations_coherent _ _ _ _ _ (by decide +kernel)⟩

/-- The session is lost with the observer's call `t`, and the next one restores the
subscription. -/
def lostRun (t : Ticket) : List LeaseObserverEvent :=
  sendRun t ++ (reopenRun 8).map .conn ++ [.returned .timeout] ++
    [.conn (.restoreNext 0 (.ok ())),
      .conn (.restoreRead (replyFrame MessageType.leaseSubscribe 1 (0 :: putU64 8)) (some 0))] ++
    enterRun.map .conn

/-- The second page of the bootstrap is asked for again in the next session. -/
def bootstrapLostRun : List LeaseObserverEvent :=
  observedRun ++ pageRun 2 2 firstPage ++ [.observe] ++ lostRun 3 ++ pageRun 4 1 lastPage ++
    [.observe, .observe]

/-- The same in a pass of the timer. -/
def periodicLostRun : List LeaseObserverEvent :=
  bootstrapRun ++ List.replicate 5 .observe ++ [.tick, .observe] ++ pageRun 4 4 firstPage ++
    [.observe] ++ lostRun 5 ++ pageRun 6 1 lastPage ++ [.observe, .observe]

theorem not_coherent_of_serials {s : LeaseObserver} {pattern : String} {pageSize : UInt32}
    (hready : s.ready = true) (hserials : s.installed.map (·.serial) = [1, 2]) :
    ¬ s.Coherent pattern pageSize := by
  intro hcoherent
  obtain ⟨n, hsame⟩ := (hcoherent hready).session
  have hn : ∀ m ∈ [1, 2], m = n := by
    rw [← hserials]
    exact List.forall_mem_map.2 hsame
  have hone : 1 = n := hn 1 (by simp)
  have htwo : 2 = n := hn 2 (by simp)
  omega

/-- The observer is ready with a page of each of two sessions. -/
theorem pages_of_two_sessions :
    ((run (LeaseObserver.step ⟨4, ⟨true, 0⟩⟩ ⟨true, 3⟩ "lease://r/a/*" 1) (.new ⟨4, ⟨true, 0⟩⟩)
      bootstrapLostRun).ready = true ∧
      ¬ (run (LeaseObserver.step ⟨4, ⟨true, 0⟩⟩ ⟨true, 3⟩ "lease://r/a/*" 1) (.new ⟨4, ⟨true, 0⟩⟩)
        bootstrapLostRun).Coherent "lease://r/a/*" 1) ∧
    (run (LeaseObserver.step ⟨4, ⟨true, 0⟩⟩ ⟨true, 3⟩ "lease://r/a/*" 1) (.new ⟨4, ⟨true, 0⟩⟩)
      periodicLostRun).ready = true ∧
      ¬ (run (LeaseObserver.step ⟨4, ⟨true, 0⟩⟩ ⟨true, 3⟩ "lease://r/a/*" 1) (.new ⟨4, ⟨true, 0⟩⟩)
        periodicLostRun).Coherent "lease://r/a/*" 1 := by
  constructor
  · have hready : (run (LeaseObserver.step ⟨4, ⟨true, 0⟩⟩ ⟨true, 3⟩ "lease://r/a/*" 1)
        (.new ⟨4, ⟨true, 0⟩⟩) bootstrapLostRun).ready = true := by decide +kernel
    exact ⟨hready, not_coherent_of_serials hready (by decide +kernel)⟩
  · have hready : (run (LeaseObserver.step ⟨4, ⟨true, 0⟩⟩ ⟨true, 3⟩ "lease://r/a/*" 1)
        (.new ⟨4, ⟨true, 0⟩⟩) periodicLostRun).ready = true := by decide +kernel
    exact ⟨hready, not_coherent_of_serials hready (by decide +kernel)⟩

end Fitz
