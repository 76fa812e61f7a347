import Fitz.Proof.WorkerRequests
import Fitz.Lib.Tables

/-!
# One frame, one execution

Every worker of a connection receives every RPC_REQUEST, and takes those its own
pattern matches. `requests_executed_once`: in every run in which each published frame
is taken by at most one worker, it is delivered at most once; two workers whose
patterns match one route execute it twice (`overlap_executes_twice`).
-/

namespace Fitz

open Machine Tables

namespace Worker

variable {ch : Channels} {w : Worker} {t : Touch}

/-- The worker makes a request of the frame. -/
def decodes (w : Worker) (payload : Bytes) : Bool :=
  match decodeRequest w.pattern payload with
  | .ok (some _) => true
  | _ => false

theorem decodes_of_ok {payload : Bytes} {invocation : Invocation}
    (h : decodeRequest w.pattern payload = .ok (some invocation)) : w.decodes payload = true := by
  rw [decodes, h]

def frameOf (w : Worker) (key : ℕ) : Option ℕ := (w.requests[key]?).map fun r => r.frame

/-- The frames of the requests that the application was handed. -/
def deliveredFrames (w : Worker) : List ℕ := w.delivered.filterMap w.frameOf

/-! ## The frames of a worker -/

structure FramesInv (ch : Channels) (w : Worker) : Prop where
  requests : RequestsInv w
  start : w.start ≤ w.nextRequest
  /-- a request comes from a frame the worker has read -/
  frames : ∀ (key : ℕ) r, w.requests[key]? = some r → w.start ≤ r.frame ∧ r.frame < w.nextRequest ∧
    ∃ received, ch.requests[r.frame]? = some received ∧ r.generation = received.generation ∧
      decodeRequest w.pattern received.payload = .ok (some r.invocation)
  /-- and no two from one -/
  distinct : ∀ (key key' : ℕ) r r', w.requests[key]? = some r → w.requests[key']? = some r' →
    r.frame = r'.frame → key = key'
  delivered : w.delivered.Nodup
  kept : ∀ key ∈ w.delivered, key ∈ w.held ∨ key ∈ w.released.map fun r => r.key

theorem framesInv_new (ch : Channels) (pattern : String) (capacity : ℕ) :
    FramesInv ch (new ch pattern capacity) where
  requests := requestsInv_new ch pattern capacity
  start := le_rfl
  frames := by
    intro key r hget
    cases hget
  distinct := by
    intro key key' r r' hget
    cases hget
  delivered := List.nodup_nil
  kept := by
    intro key hkey
    cases hkey

/-- The frames stay where they are when the logs grow. -/
theorem FramesInv.grow {ch' : Channels} (h : FramesInv ch w) (hc : Workers.Continues ch ch') :
    FramesInv ch' w := by
  refine ⟨h.requests, h.start, fun key r hget => ?_, h.distinct, h.delivered, h.kept⟩
  obtain ⟨hstart, hlt, received, hreceived, hrest⟩ := h.frames key r hget
  refine ⟨hstart, hlt, received, ?_, hrest⟩
  obtain ⟨more, hmore⟩ := hc.requests_isPrefix
  rw [← hmore]
  exact List.getElem?_append_left (List.getElem?_eq_some_iff.1 hreceived).1 |>.trans hreceived

/-- What a step makes of the table of requests. -/
inductive Requested (ch : Channels) (w w' : Worker) : Prop
  | same (hnext : w.nextRequest ≤ w'.nextRequest)
      (hrequests : ∀ (key : ℕ) r', w'.requests[key]? = some r' → ∃ r, w.requests[key]? = some r ∧ Later r r')
  | added {received : Received} {invocation : Invocation} {canceled : Bool}
      (hnext : w'.nextRequest = w.nextRequest + 1)
      (hget : ch.requests[w.nextRequest]? = some received) (htakes : w.Takes ch received invocation)
      (hrequests : w'.requests =
        w.requests ++ [⟨w.nextRequest, invocation, received.generation, canceled⟩])

theorem later_of_cancelAll {keys : List ℕ} {key : ℕ} {r' : RpcRequest}
    (h : (w.cancelAll keys).requests[key]? = some r') : ∃ r, w.requests[key]? = some r ∧ Later r r' := by
  rw [getElem?_cancelAll, Option.map_eq_some_iff] at h
  obtain ⟨r, hget, rfl⟩ := h
  refine ⟨r, hget, ?_⟩
  split
  · exact ⟨rfl, rfl, rfl, fun _ => rfl⟩
  · exact .refl r

theorem Moved.requested {w' : Worker} (hm : Moved ch w t w') : Requested ch w w' := by
  cases hm with
  | accepted hpc hget htakes => exact .added rfl hget htakes rfl
  | called | regenerated | silenced | expired =>
    exact .same le_rfl fun key r' hget => later_of_cancelAll hget
  | skipped hpc hlag => exact .same (by dsimp only; omega) fun key r hget => ⟨r, hget, .refl r⟩
  | passed => exact .same (Nat.le_succ _) fun key r hget => ⟨r, hget, .refl r⟩
  | _ => exact .same le_rfl fun key r hget => ⟨r, hget, .refl r⟩

theorem frames_moved {w' : Worker} (h : FramesInv ch w) (hm : Moved ch w t w') (key : ℕ) (r' : RpcRequest)
    (hget' : w'.requests[key]? = some r') : w'.start ≤ r'.frame ∧ r'.frame < w'.nextRequest ∧
      ∃ received, ch.requests[r'.frame]? = some received ∧ r'.generation = received.generation ∧
        decodeRequest w'.pattern received.payload = .ok (some r'.invocation) := by
  have hgrown := hm.grown
  rw [hgrown.start, hgrown.pattern]
  cases hm.requested with
  | same hnext hrequests =>
    obtain ⟨r, hget, hlater⟩ := hrequests key r' hget'
    obtain ⟨hstart, hlt, received, hreceived, hgen, hdec⟩ := h.frames key r hget
    rw [hlater.frame, hlater.generation, hlater.invocation]
    exact ⟨hstart, by omega, received, hreceived, hgen, hdec⟩
  | @added received invocation canceled hnext hreceived htakes hrequests =>
    rw [hrequests] at hget'
    rcases getElem?_concat_eq_some hget' with hget | ⟨-, rfl⟩
    · obtain ⟨hstart, hlt, rest⟩ := h.frames key r' hget
      exact ⟨hstart, by omega, rest⟩
    · exact ⟨h.start, by dsimp only; omega, received, hreceived, rfl, htakes.2⟩

theorem distinct_moved {w' : Worker} (h : FramesInv ch w) (hm : Moved ch w t w') (key key' : ℕ)
    (r r' : RpcRequest) (hget : w'.requests[key]? = some r) (hget' : w'.requests[key']? = some r')
    (hframe : r.frame = r'.frame) : key = key' := by
  cases hm.requested with
  | same hnext hrequests =>
    obtain ⟨old, hold, hlater⟩ := hrequests key r hget
    obtain ⟨old', hold', hlater'⟩ := hrequests key' r' hget'
    exact h.distinct key key' old old' hold hold' (by rw [← hlater.frame, ← hlater'.frame, hframe])
  | @added received invocation canceled hnext hreceived htakes hrequests =>
    -- the new request has the frame that was to be read next
    have hbefore : ∀ (k : ℕ) q, w'.requests[k]? = some q →
        w.requests[k]? = some q ∨ k = w.requests.length ∧ q.frame = w.nextRequest := by
      intro k q hq
      rw [hrequests] at hq
      exact (getElem?_concat_eq_some hq).imp_right fun ⟨hk, heq⟩ => ⟨hk, heq ▸ rfl⟩
    rcases hbefore key r hget with hold | ⟨rfl, hnew⟩
    · rcases hbefore key' r' hget' with hold' | ⟨rfl, hnew'⟩
      · exact h.distinct key key' r r' hold hold' hframe
      · have hlt := (h.frames key r hold).2.1
        omega
    · rcases hbefore key' r' hget' with hold' | ⟨rfl, hnew'⟩
      · have hlt := (h.frames key' r' hold').2.1
        omega
      · rfl

/-- A request in the inbox was not delivered. -/
theorem not_delivered {key : ℕ} {items : List (Result ℕ)} (h : FramesInv ch w)
    (hinbox : w.inbox = .ok key :: items) : key ∉ w.delivered := by
  intro hmem
  have hplaced := h.requests.placed key
  simp only [places, hinbox, keysOf_ok, List.count_append, List.count_cons_self] at hplaced
  rcases h.kept key hmem with hheld | hreleased
  · have hpos := List.count_pos_iff.2 hheld
    split at hplaced <;> omega
  · have hpos := List.count_pos_iff.2 hreleased
    split at hplaced <;> omega

theorem delivered_moved {w' : Worker} (h : FramesInv ch w) (hm : Moved ch w t w') :
    w'.delivered.Nodup ∧ ∀ key ∈ w'.delivered, key ∈ w'.held ∨ key ∈ w'.released.map fun r => r.key := by
  cases hm with
  | delivered hopen hlock hinbox =>
    refine ⟨?_, fun key hkey => ?_⟩
    · rw [List.nodup_append_comm]
      exact List.nodup_cons.2 ⟨not_delivered h hinbox, h.delivered⟩
    · rcases List.mem_append.1 hkey with hkey | hkey
      · exact (h.kept key hkey).imp_left (List.mem_append_left _)
      · exact .inl (List.mem_append_right _ hkey)
  | @released dropped runtime hheld =>
    refine ⟨h.delivered, fun key hkey => ?_⟩
    rw [finishCleanup, List.map_append]
    rcases h.kept key hkey with hmem | hmem
    · by_cases heq : key = dropped
      · exact .inr (List.mem_append_right _ (by simp [heq]))
      · exact .inl ((List.mem_erase_of_ne heq).2 hmem)
    · exact .inr (List.mem_append_left _ hmem)
  | discarded | rejected | dropped =>
    refine ⟨h.delivered, fun key hkey => (h.kept key hkey).imp_right fun hmem => ?_⟩
    rw [finishCleanup, List.map_append]
    exact List.mem_append_left _ hmem
  | _ => exact ⟨h.delivered, h.kept⟩

theorem framesInv_step (ch : Channels) (w : Worker) (e : WorkerEvent) (h : FramesInv ch w) :
    FramesInv ch (w.step ch e) := by
  have hm := moved_step ch w e
  obtain ⟨hdelivered, hkept⟩ := delivered_moved h hm
  refine ⟨requestsInv_step ch w e h.requests, ?_, frames_moved h hm, distinct_moved h hm, hdelivered, hkept⟩
  rw [hm.grown.start]
  cases hm.requested with
  | same hnext => exact le_trans h.start hnext
  | added hnext =>
    rw [hnext]
    exact le_trans h.start (Nat.le_succ _)

/-! ## Who may still execute a frame -/

/-- The worker has executed the frame, or may do so. -/
def Executes (ch : Channels) (w : Worker) (frame : ℕ) : Prop :=
  w.start ≤ frame ∧ (∃ received, ch.requests[frame]? = some received ∧ w.decodes received.payload = true) ∧
    (w.handle.live = true ∨ frame ∈ w.deliveredFrames)

theorem executes_of_delivered (h : FramesInv ch w) {frame : ℕ} (hmem : frame ∈ w.deliveredFrames) :
    Executes ch w frame := by
  obtain ⟨key, -, hkey⟩ := List.mem_filterMap.1 hmem
  obtain ⟨r, hget, rfl⟩ := Option.map_eq_some_iff.1 hkey
  obtain ⟨hstart, -, received, hreceived, -, hdec⟩ := h.frames key r hget
  exact ⟨hstart, ⟨received, hreceived, decodes_of_ok hdec⟩, .inr hmem⟩

theorem live_moved {w' : Worker} (hinv : RequestsInv w) (hm : Moved ch w t w')
    (hlive : w'.handle.live = true) : w.handle.live = true := by
  cases hm with
  | started hpc | refused hpc =>
    rw [(hinv.early (.inr hpc)).2]
    rfl
  | shut | silenced | closed | emptied | dropped | droppedError | gone => cases hlive
  | _ => exact hlive

theorem lt_of_delivered {key : ℕ} (h : FramesInv ch w) (hkey : key ∈ w.delivered) :
    key < w.requests.length := by
  by_contra hlt
  have hplaced := h.requests.placed key
  rw [if_neg hlt, List.count_eq_zero] at hplaced
  rcases h.kept key hkey with hmem | hmem
  · exact hplaced (List.mem_append_left _ (List.mem_append_right _ hmem))
  · exact hplaced (List.mem_append_right _ hmem)

/-- Only what may be executed is delivered. -/
theorem deliveredFrames_moved {w' : Worker} (h : FramesInv ch w) (hm : Moved ch w t w') {frame : ℕ}
    (hmem : frame ∈ w'.deliveredFrames) : w.handle.live = true ∨ frame ∈ w.deliveredFrames := by
  obtain ⟨key, hkey, hframe⟩ := List.mem_filterMap.1 hmem
  obtain ⟨r', hget', rfl⟩ := Option.map_eq_some_iff.1 hframe
  have hbefore : w.handle.live = true ∨ key ∈ w.delivered := by
    cases hm with
    | delivered hopen => exact .inl (by rw [hopen]; rfl)
    | _ => exact .inr hkey
  refine hbefore.imp_right fun hkey => List.mem_filterMap.2 ⟨key, hkey, ?_⟩
  cases hm.requested with
  | same hnext hrequests =>
    obtain ⟨r, hget, hlater⟩ := hrequests key r' hget'
    rw [frameOf, hget, hlater.frame]
    rfl
  | added hnext hreceived htakes hrequests =>
    rw [hrequests] at hget'
    rcases getElem?_concat_eq_some hget' with hget | ⟨rfl, -⟩
    · rw [frameOf, hget]
      rfl
    · exact absurd (lt_of_delivered h hkey) (lt_irrefl _)

/-- A step makes no new executor. -/
theorem executes_moved {w' : Worker} (h : FramesInv ch w) (hm : Moved ch w t w') {frame : ℕ}
    (hexec : Executes ch w' frame) : Executes ch w frame := by
  obtain ⟨hstart, ⟨received, hreceived, hdec⟩, hmay⟩ := hexec
  have hgrown := hm.grown
  refine ⟨hgrown.start ▸ hstart, ⟨received, hreceived, ?_⟩, ?_⟩
  · rw [decodes, hgrown.pattern] at hdec
    exact hdec
  · rcases hmay with hlive | hmem
    · exact .inl (live_moved h.requests hm hlive)
    · exact deliveredFrames_moved h hm hmem

/-- A worker hands out each frame once. -/
theorem deliveredFrames_nodup (h : FramesInv ch w) : w.deliveredFrames.Nodup := by
  refine h.delivered.filterMap fun key key' frame hkey hkey' => ?_
  obtain ⟨r, hget, hr⟩ := Option.map_eq_some_iff.1 hkey
  obtain ⟨r', hget', hr'⟩ := Option.map_eq_some_iff.1 hkey'
  exact h.distinct key key' r r' hget hget' (hr.trans hr'.symm)

end Worker

/-! ## Runs -/

namespace Workers

/-- The workers that take a frame published now. -/
def takers (s : Workers) (payload : Bytes) : List Worker :=
  s.workers.filter fun w => w.handle.live && w.decodes payload

/-- A frame is published for one worker at most. -/
def SoleTaker (s : Workers) : WorkersEvent → Prop
  | .publishRequest payload => (s.takers payload).length ≤ 1
  | _ => True

instance SoleTaker.decidable (s : Workers) : ∀ e, Decidable (SoleTaker s e)
  | .publishRequest payload => inferInstanceAs (Decidable ((s.takers payload).length ≤ 1))
  | .bump | .announce | .publishSignal _ | .register .. | .worker .. => inferInstanceAs (Decidable True)

/-- The frames of the requests that were delivered, over all workers. -/
def deliveredFrames (s : Workers) : List ℕ := s.workers.flatMap Worker.deliveredFrames

structure ExecutionInv (s : Workers) : Prop where
  frames : ∀ w ∈ s.workers, w.FramesInv s.channels
  sole : ∀ (i j : ℕ) w w' frame, s.workers[i]? = some w → s.workers[j]? = some w' →
    w.Executes s.channels frame → w'.Executes s.channels frame → i = j

theorem executes_grow {ch ch' : Channels} {w : Worker} {frame : ℕ}
    (hrequests : ch.requests <+: ch'.requests) (hlt : frame < ch.requests.length)
    (h : w.Executes ch' frame) : w.Executes ch frame := by
  obtain ⟨hstart, ⟨received, hreceived, hdec⟩, hmay⟩ := h
  obtain ⟨more, hmore⟩ := hrequests
  rw [← hmore, List.getElem?_append_left hlt] at hreceived
  exact ⟨hstart, ⟨received, hreceived, hdec⟩, hmay⟩

theorem requests_step {s : Workers} {e : WorkersEvent} (he : ∀ payload, e ≠ .publishRequest payload) :
    (s.step e).channels.requests = s.channels.requests := by
  cases e with
  | publishRequest payload => exact absurd rfl (he payload)
  | announce | register =>
    simp only [step, register]
    split <;> rfl
  | bump | publishSignal | worker => rfl

/-- Who may execute an old frame after a step could do so before it. -/
theorem executes_before {s : Workers} (h : ∀ w ∈ s.workers, w.FramesInv s.channels) (e : WorkersEvent)
    {i frame : ℕ} {w' : Worker} (hlt : frame < s.channels.requests.length)
    (hget' : (s.step e).workers[i]? = some w') (hexec : w'.Executes (s.step e).channels frame) :
    ∃ w, s.workers[i]? = some w ∧ w.Executes s.channels frame := by
  have hrequests := (continues_step s e).requests_isPrefix
  cases e with
  | announce =>
    refine ⟨w', ?_, executes_grow hrequests hlt hexec⟩
    simp only [step] at hget'
    split at hget' <;> exact hget'
  | register pattern maxConcurrency =>
    have hexec' := executes_grow hrequests hlt hexec
    simp only [step, register] at hget'
    split at hget'
    · rcases getElem?_concat_eq_some hget' with hget | ⟨-, rfl⟩
      · exact ⟨w', hget, hexec'⟩
      · -- its receiver begins behind the frame
        exact absurd hexec'.1 (not_le.2 hlt)
    · exact ⟨w', hget', hexec'⟩
  | worker index e' =>
    simp only [step, List.getElem?_modify, Option.map_eq_map, Option.map_eq_some_iff] at hget'
    obtain ⟨w, hget, rfl⟩ := hget'
    refine ⟨w, hget, ?_⟩
    have hframes := h w (List.mem_of_getElem? hget)
    split at hexec
    · exact Worker.executes_moved hframes (Worker.moved_step _ _ _) hexec
    · exact hexec
  | bump | publishRequest payload | publishSignal payload =>
    exact ⟨w', hget', executes_grow hrequests hlt hexec⟩

/-- A new frame is executed by those that take it. -/
theorem executes_published {s : Workers} (h : ∀ w ∈ s.workers, w.FramesInv s.channels)
    {payload : Bytes} {w : Worker} (hw : w ∈ s.workers) {frame : ℕ}
    (hge : s.channels.requests.length ≤ frame)
    (hexec : w.Executes (s.step (.publishRequest payload)).channels frame) :
    (w.handle.live && w.decodes payload) = true := by
  obtain ⟨-, ⟨received, hreceived, hdec⟩, hmay⟩ := hexec
  rcases getElem?_concat_eq_some hreceived with hold | ⟨-, rfl⟩
  · have hlt := (List.getElem?_eq_some_iff.1 hold).1
    omega
  · have hlive : w.handle.live = true := by
      refine hmay.resolve_right fun hmem => ?_
      obtain ⟨-, ⟨received, hreceived, -⟩, -⟩ := Worker.executes_of_delivered (h w hw) hmem
      have hlt := (List.getElem?_eq_some_iff.1 hreceived).1
      omega
    rw [hlive, hdec]
    rfl

theorem executionInv_step (s : Workers) (e : WorkersEvent) (h : ExecutionInv s) (hc : SoleTaker s e) :
    ExecutionInv (s.step e) := by
  have hframes : ∀ w ∈ (s.step e).workers, w.FramesInv (s.step e).channels :=
    inv_step (I := fun ch w => w.FramesInv ch) (c := fun _ _ _ => True)
      (fun ch w e hw _ => Worker.framesInv_step ch w e hw) (fun _ _ _ hgrow hw => hw.grow hgrow)
      (Worker.framesInv_new s.channels) h.frames (fun _ _ _ _ _ => trivial)
  refine ⟨hframes, fun i j w w' frame hi hj hexec hexec' => ?_⟩
  by_cases hlt : frame < s.channels.requests.length
  · obtain ⟨old, hold, hbefore⟩ := executes_before h.frames e hlt hi hexec
    obtain ⟨old', hold', hbefore'⟩ := executes_before h.frames e hlt hj hexec'
    exact h.sole i j old old' frame hold hold' hbefore hbefore'
  · have hge : s.channels.requests.length ≤ frame := not_lt.1 hlt
    cases e with
    | publishRequest payload =>
      rw [SoleTaker, takers, ← List.countP_eq_length_filter] at hc
      exact eq_of_countP_le_one hc hi hj
        (executes_published h.frames (List.mem_of_getElem? hi) hge hexec)
        (executes_published h.frames (List.mem_of_getElem? hj) hge hexec')
    | bump | announce | publishSignal payload | register pattern maxConcurrency | worker index e' =>
      -- there is no such frame
      obtain ⟨-, ⟨received, hreceived, -⟩, -⟩ := hexec
      rw [requests_step fun payload => by simp, List.getElem?_eq_none hge] at hreceived
      cases hreceived

theorem executionInv_new (signalCapacity : ℕ) : ExecutionInv (.new signalCapacity) where
  frames := by
    intro w hw
    cases hw
  sole := by
    intro i j w w' frame hi
    cases hi

theorem deliveredFrames_nodup {s : Workers} (h : ExecutionInv s) : s.deliveredFrames.Nodup := by
  refine List.nodup_flatMap.2 ⟨fun w hw => Worker.deliveredFrames_nodup (h.frames w hw), ?_⟩
  refine List.pairwise_iff_getElem.2 fun i j hi hj hij => ?_
  intro frame hmem hmem'
  have hexec := Worker.executes_of_delivered (h.frames _ (List.getElem_mem hi)) hmem
  have hexec' := Worker.executes_of_delivered (h.frames _ (List.getElem_mem hj)) hmem'
  have heq := h.sole i j _ _ frame (List.getElem?_eq_getElem hi) (List.getElem?_eq_getElem hj) hexec hexec'
  omega

end Workers

/-- **A frame is executed at most once**, where at most one worker takes each frame. -/
theorem requests_executed_once (signalCapacity : ℕ) (es : List WorkersEvent)
    (h : Along Workers.step Workers.SoleTaker (.new signalCapacity) es) :
    (run Workers.step (.new signalCapacity) es).deliveredFrames.Nodup :=
  Workers.deliveredFrames_nodup
    (along_inv Workers.executionInv_step (Workers.executionInv_new signalCapacity) h)

/-! ## Two workers -/

/-- Workers for one route and for a pattern, a request of the route, and a poll of each. -/
def twoWorkersRun (pattern : String) : List WorkersEvent :=
  registerRun 0 "rpc://a/work" ++ registerRun 1 pattern ++
    [.publishRequest (invocationPayload 7 "rpc://a/work")] ++ turnsRun 0 5 ++ [.worker 0 .poll] ++
    turnsRun 1 5 ++ [.worker 1 .poll]

theorem requests_executed_once_disjoint :
    (run Workers.step (.new 1024) (twoWorkersRun "rpc://b/**")).deliveredFrames.Nodup :=
  requests_executed_once 1024 _ (by decide +kernel)

/-- Where the pattern matches the route, both workers execute the request. -/
theorem overlap_executes_twice :
    (run Workers.step (.new 1024) (twoWorkersRun "rpc://a/**")).deliveredFrames = [0, 0] ∧
      ¬(run Workers.step (.new 1024) (twoWorkersRun "rpc://a/**")).deliveredFrames.Nodup := by
  have htwice : (run Workers.step (.new 1024) (twoWorkersRun "rpc://a/**")).deliveredFrames =
      [0, 0] := by
    decide +kernel
  refine ⟨htwice, ?_⟩
  rw [htwice]
  decide

end Fitz
