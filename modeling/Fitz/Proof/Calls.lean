import Fitz.Model.ResponseStream
import Fitz.Proof.Requests
import Fitz.Proof.WorkerFrames

/-!
# A call reaches its worker as it was made

`decode_request` checks that nothing is left of a payload, but leaves the rest unread when
the route is not the worker's: `RestReads` says of such a decoder what it takes of what is left
of the buffer. `calls_delivered`: in every run of the workers of a connection, what the
application is handed comes from frames in the order of their publication, each at most
once, and is what the frame says; if the frame is the one a caller wrote, it is the
caller's id, route, body and remaining budget.
-/

namespace Fitz

open Framing Machine Tables

/-! ## Decoders of the rest -/

/-- The decoder succeeds with `a` exactly if `R a` holds of the rest of the buffer. -/
def RestReads {α : Type} (m : Decode α) (R : α → Bytes → Prop) : Prop :=
  ∀ buf pos a, pos ≤ buf.length → ((∃ d, m.run ⟨buf, pos⟩ = .ok (a, d)) ↔ R a (buf.drop pos))

namespace RestReads

variable {α β : Type} {m : Decode α} {R S : α → Bytes → Prop}

theorem congr (h : RestReads m R) (hiff : ∀ a rest, R a rest ↔ S a rest) : RestReads m S := by
  have heq : R = S := funext fun a => funext fun rest => propext (hiff a rest)
  exact heq ▸ h

theorem on_iff (h : RestReads m R) {buf : Bytes} {a : α} : m.on buf = .ok a ↔ R a buf := by
  have hiff := h buf 0 a (Nat.zero_le _)
  rw [List.drop_zero] at hiff
  rw [← hiff]
  constructor
  · exact Decode.on_ok
  · rintro ⟨d, hrun⟩
    exact Decode.on_of_run hrun

theorem pure (a : α) : RestReads (Pure.pure a) fun b _ => b = a := by
  intro buf pos b _
  constructor
  · rintro ⟨d, hrun⟩
    cases hrun
    rfl
  · rintro rfl
    exact ⟨_, rfl⟩

theorem throw (error : FitzError) : RestReads (MonadExcept.throw error : Decode α) fun _ _ => False := by
  intro buf pos a _
  constructor
  · rintro ⟨d, hrun⟩
    cases hrun
  · exact False.elim

/-- A format, and then the rest. -/
theorem after {f : α → Decode β} {T : α → β → Bytes → Prop} (h : Reads m R)
    (hf : ∀ a, RestReads (f a) (T a)) :
    RestReads (m >>= f) fun b rest => ∃ a x y, R a x ∧ T a b y ∧ rest = x ++ y := by
  intro buf pos b hpos
  constructor
  · rintro ⟨d, hrun⟩
    obtain ⟨a, d', hm, hrest⟩ := Decode.bind_ok hrun
    obtain ⟨x, hx, ⟨y, hy⟩, rfl⟩ := (h buf pos a d' hpos).1 hm
    have hle := Reads.pos_le hpos ⟨y, hy⟩
    have hdrop : buf.drop (pos + x.length) = y := by
      rw [← List.drop_drop, ← hy, List.drop_left]
    have htail := (hf a buf _ b hle).1 ⟨d, hrest⟩
    rw [hdrop] at htail
    exact ⟨a, x, y, hx, htail, hy.symm⟩
  · rintro ⟨a, x, y, hx, hy, heq⟩
    have hpre : x <+: buf.drop pos := heq ▸ List.prefix_append x y
    have hm := (h buf pos a ⟨buf, pos + x.length⟩ hpos).2 ⟨x, hx, hpre, rfl⟩
    have hdrop : buf.drop (pos + x.length) = y := by
      rw [← List.drop_drop, heq, List.drop_left]
    obtain ⟨d, hrun⟩ := (hf a buf _ b (Reads.pos_le hpos hpre)).2 (hdrop ▸ hy)
    exact ⟨d, by rw [Decode.run_bind_of_ok hm, hrun]⟩

/-- What is read of the rest stands for some other value. -/
theorem map (g : α → β) (h : RestReads m R) :
    RestReads (do return g (← m)) fun b rest => ∃ a, R a rest ∧ b = g a := by
  intro buf pos b hpos
  constructor
  · rintro ⟨d, hrun⟩
    obtain ⟨a, d', hm, hpure⟩ := Decode.bind_ok hrun
    cases hpure
    exact ⟨a, (h buf pos a hpos).1 ⟨_, hm⟩, rfl⟩
  · rintro ⟨a, ha, rfl⟩
    obtain ⟨d, hm⟩ := (h buf pos a hpos).2 ha
    exact ⟨d, Decode.run_bind_of_ok hm⟩

/-- The check of what is left, before the value is returned. -/
theorem checked (a : α) (error : FitzError) (refused : Bool → Prop) [DecidablePred refused] :
    RestReads (isEmpty >>= fun empty =>
      if refused empty then (MonadExcept.throw error : Decode Unit) >>= fun _ => Pure.pure a
      else Pure.pure a) fun b rest => b = a ∧ ¬refused rest.isEmpty := by
  intro buf pos b hpos
  have hempty : decide (pos ≥ buf.length) = (buf.drop pos).isEmpty := by
    rw [Bool.eq_iff_iff, decide_eq_true_eq, List.isEmpty_iff, List.drop_eq_nil_iff]
  have hrun := Decode.run_bind_of_ok (isEmpty_run ⟨buf, pos⟩) (f := fun empty =>
    if refused empty then (MonadExcept.throw error : Decode Unit) >>= fun _ => Pure.pure a
    else Pure.pure a)
  rw [hrun]
  dsimp only
  rw [hempty]
  by_cases hrefused : refused (buf.drop pos).isEmpty
  · rw [if_pos hrefused]
    refine iff_of_false ?_ fun h => h.2 hrefused
    rintro ⟨d, h⟩
    cases h
  · rw [if_neg hrefused]
    constructor
    · rintro ⟨d, h⟩
      cases h
      exact ⟨rfl, hrefused⟩
    · rintro ⟨rfl, -⟩
      exact ⟨_, rfl⟩

theorem ite {n : Decode α} (c : Prop) [Decidable c] (h : RestReads m R) (h' : RestReads n S) :
    RestReads (if c then m else n) fun a rest => c ∧ R a rest ∨ ¬c ∧ S a rest := by
  by_cases hc : c
  · rw [if_pos hc]
    exact h.congr fun a rest => by simp only [hc, true_and, not_true, false_and, or_false]
  · rw [if_neg hc]
    exact h'.congr fun a rest => by simp only [hc, false_and, not_false_eq_true, true_and, false_or]

end RestReads

/-! ## What a worker reads -/

def Invocation.bytes (invocation : Invocation) : Bytes :=
  invocation.correlationId ++ putString invocation.route ++ putBytes invocation.body ++
    putOptional putU32 invocation.budget

/-- The format can hold the invocation, and its budget is not over a day. -/
structure Invocation.Fits (invocation : Invocation) : Prop where
  id : invocation.correlationId.length = 16
  route : invocation.route.toUTF8.toList.length < 2 ^ 32
  body : invocation.body.length < 2 ^ 32
  budget : ∀ budget ∈ invocation.budget, budget ≤ 86400000

theorem restReads_budget : RestReads decodeRpcRequestBudget fun budget rest =>
    rest = putOptional putU32 budget ∧ ∀ ms ∈ budget, ms ≤ 86400000 := by
  refine (RestReads.after reads_getU8 fun flag =>
    RestReads.ite (flag = 0) (RestReads.checked none (.protocol "RPC budget flag has trailing bytes")
      (fun empty => (!empty) = true))
    (RestReads.after reads_getU32 fun budget =>
      RestReads.checked (some budget) (.protocol "invalid RPC request budget extension")
        (fun empty => flag ≠ 1 ∨ (!empty) = true ∨ budget > 86400000))).congr fun budget rest => ?_
  constructor
  · rintro ⟨flag, _, y, rfl, ⟨rfl, rfl, hempty⟩ | ⟨-, ms, _, z, rfl, ⟨rfl, hchecks⟩, rfl⟩, rfl⟩
    · have hnil : y = [] := by simpa using hempty
      rw [hnil]
      exact ⟨rfl, fun ms hms => absurd hms (Option.not_mem_none ms)⟩
    · simp only [not_or, not_not, Bool.not_eq_true, Bool.not_eq_false', List.isEmpty_iff] at hchecks
      obtain ⟨rfl, rfl, hle⟩ := hchecks
      refine ⟨by rw [List.append_nil]; rfl, fun ms' hms => ?_⟩
      rw [Option.mem_some.1 hms] at hle
      exact UInt32.not_lt.1 hle
  · rintro ⟨rfl, hle⟩
    cases budget with
    | none => exact ⟨0, _, [], rfl, .inl ⟨rfl, rfl, by simp⟩, rfl⟩
    | some ms =>
      refine ⟨1, _, putU32 ms, rfl,
        .inr ⟨by decide, ms, _, [], rfl, ⟨rfl, ?_⟩, (List.append_nil _).symm⟩, rfl⟩
      have hms := UInt32.not_lt.2 (hle ms rfl)
      simp only [ne_eq, not_true, List.isEmpty_nil, Bool.not_true, Bool.false_eq_true, false_or]
      exact hms

/-- **What `decode_request` makes of a payload.** -/
theorem decodeRequest_iff {pattern : String} {payload : Bytes} {result : Option Invocation} :
    decodeRequest pattern payload = .ok result ↔
      (∃ invocation, invocation.Fits ∧ payload = invocation.bytes ∧
        routeMatchesPattern invocation.route pattern = true ∧ result = some invocation) ∨
      ∃ id route rest, id.length = 16 ∧ route.toUTF8.toList.length < 2 ^ 32 ∧
        payload = id ++ putString route ++ rest ∧ routeMatchesPattern route pattern = false ∧
          result = none := by
  have hreads := RestReads.after (reads_getSlice 16) fun id => RestReads.after reads_getString fun route =>
    RestReads.ite ((!routeMatchesPattern route pattern) = true) (RestReads.pure (none : Option Invocation))
      (RestReads.after reads_getBytes fun body =>
        restReads_budget.map fun budget => some (⟨id, route, body, budget⟩ : Invocation))
  have hon : decodeRequest pattern payload = .ok result ↔ _ := hreads.on_iff
  refine hon.trans ?_
  constructor
  · rintro ⟨_, id, _, ⟨rfl, hid⟩, ⟨route, _, rest, ⟨rfl, hroute⟩,
      ⟨hnot, rfl⟩ | ⟨hmatch, body, _, _, ⟨rfl, hbody⟩, ⟨budget, ⟨rfl, hbudget⟩, rfl⟩, rfl⟩, rfl⟩, rfl⟩
    · exact .inr ⟨_, route, rest, hid, hroute, (List.append_assoc _ _ _).symm, by simpa using hnot, rfl⟩
    · refine .inl ⟨⟨id, route, body, budget⟩, ⟨hid, hroute, hbody, hbudget⟩, ?_,
        by simpa using hmatch, rfl⟩
      simp only [Invocation.bytes, List.append_assoc]
  · rintro (⟨⟨id, route, body, budget⟩, hfits, rfl, hmatch, rfl⟩ |
      ⟨id, route, rest, hid, hroute, rfl, hnot, rfl⟩)
    · refine ⟨id, _, _, ⟨rfl, hfits.id⟩, ⟨route, _, _, ⟨rfl, hfits.route⟩, .inr ⟨by simpa using hmatch,
        body, _, _, ⟨rfl, hfits.body⟩, ⟨budget, ⟨rfl, hfits.budget⟩, rfl⟩, rfl⟩, rfl⟩, ?_⟩
      simp only [Invocation.bytes, List.append_assoc]
    · exact ⟨id, _, _, ⟨rfl, hid⟩, ⟨route, _, rest, ⟨rfl, hroute⟩, .inl ⟨by simpa using hnot, rfl⟩, rfl⟩,
        List.append_assoc _ _ _⟩

/-! ## What a caller writes -/

/-- What a call asks a worker to do. -/
def calledFor (id : CorrelationId) (route : String) (body : Bytes) (timeout : Option ℕ) (elapsed : ℕ) :
    Invocation :=
  ⟨id.bytes, route, body, timeout.map fun timeout => budgetMs timeout elapsed⟩

theorem budgetMs_le (timeout elapsed : ℕ) : budgetMs timeout elapsed ≤ 86400000 := by
  have hle : min ((timeout - elapsed) / millisecond) 86400000 ≤ 86400000 := Nat.min_le_right _ _
  rw [UInt32.le_iff_toNat_le, budgetMs, UInt32.toNat_ofNat_of_lt' (by simp [UInt32.size])]
  exact hle

section

variable {sh : Shared} {wireId : UInt64} {id : CorrelationId} {route : String} {body : Bytes}
  {timeout : Option ℕ} {elapsed : ℕ} {frame : Bytes}

/-- The frame of a call holds what the call is for. -/
theorem payload_of_call
    (h : (DomainCall.call id route body timeout elapsed).wire sh wireId = .ok (some frame)) :
    frame.drop frameHeaderLen = (calledFor id route body timeout elapsed).bytes ∧
      (calledFor id route body timeout elapsed).Fits := by
  obtain ⟨d, hd, hencoded⟩ := DomainCall.wire_eq h
  cases hd
  obtain ⟨hdrop, hlen⟩ := payload_of_encode hencoded
  have hbytes : (Demand.frame ⟨.call, id, route, body, timeout.map (budgetMs · elapsed)⟩).payload =
      (calledFor id route body timeout elapsed).bytes := by
    simp only [Demand.frame, RequestKind.format, Invocation.bytes, calledFor, List.append_assoc]
    rfl
  rw [hbytes] at hdrop hlen
  simp only [Invocation.bytes, calledFor, List.length_append, putString, length_putBytes] at hlen
  refine ⟨hdrop, ⟨id.length_eq, ?_, ?_, ?_⟩⟩
  · show route.toUTF8.toList.length < 2 ^ 32
    omega
  · show body.length < 2 ^ 32
    omega
  · intro budget hbudget
    obtain ⟨t, -, rfl⟩ := Option.map_eq_some_iff.1 hbudget
    exact budgetMs_le t elapsed

/-- A worker takes a call for what it is, or for none of its own. -/
theorem decodeRequest_call (pattern : String)
    (h : (DomainCall.call id route body timeout elapsed).wire sh wireId = .ok (some frame)) :
    decodeRequest pattern (frame.drop frameHeaderLen) = .ok
      (if routeMatchesPattern route pattern then some (calledFor id route body timeout elapsed)
      else none) := by
  obtain ⟨hbytes, hfits⟩ := payload_of_call h
  rw [hbytes, decodeRequest_iff]
  by_cases hmatch : routeMatchesPattern route pattern = true
  · rw [if_pos hmatch]
    exact .inl ⟨_, hfits, rfl, hmatch, rfl⟩
  · rw [if_neg hmatch]
    refine .inr ⟨id.bytes, route, putBytes body ++ putOptional putU32 (timeout.map fun timeout =>
      budgetMs timeout elapsed), id.length_eq, hfits.route, ?_, by simpa using hmatch, rfl⟩
    simp only [Invocation.bytes, calledFor, List.append_assoc]

end

/-! ## The order of delivery -/

/-- What the task has taken from the channel and not yet put into the inbox. -/
def TaskPc.hand : TaskPc → List (Result ℕ)
  | .pushing item | .locked item => [item]
  | .rejecting key => [.ok key]
  | _ => []

namespace Worker

variable {ch : Channels} {w w' : Worker} {t : Touch}

/-- The requests on their way to the application, in front of which are those it was handed. -/
def line (w : Worker) : List ℕ := w.delivered ++ keysOf w.inbox ++ keysOf w.pc.hand

theorem hand_sublist {pc pc' : TaskPc} (hitems : keysOf pc'.items = keysOf pc.items)
    (hdrop : pc.dropped = []) : (keysOf pc'.hand).Sublist (keysOf pc.hand) := by
  have hsub : (keysOf pc'.hand).Sublist (keysOf pc'.items) := by
    cases pc' <;> first | exact List.Sublist.refl _ | exact List.nil_sublist _
  have heq : keysOf pc.items = keysOf pc.hand := by
    cases pc with
    | dropping items =>
      rw [show items = [] from hdrop]
      rfl
    | _ => rfl
  rw [← heq, ← hitems]
  exact hsub

/-- Of those on their way, some may go; a request that is accepted comes last. -/
theorem Moved.line (hm : Moved ch w t w') :
    w'.line.Sublist w.line ∧ w'.requests.length = w.requests.length ∨
      w'.line = w.line ++ [w.requests.length] ∧ w'.requests.length = w.requests.length + 1 := by
  cases hm with
  | accepted hpc =>
    refine .inr ⟨?_, List.length_append⟩
    simp only [Worker.line, hpc, TaskPc.hand, keysOf_ok, keysOf_nil, List.append_nil]
  | stay => exact .inl ⟨List.Sublist.refl _, rfl⟩
  | went hitems hdrop => exact .inl ⟨(hand_sublist hitems hdrop).append_left _, rfl⟩
  | stored hpc =>
    refine .inl ⟨?_, rfl⟩
    simp only [Worker.line, hpc, TaskPc.hand, keysOf_append, keysOf_nil, List.append_nil, List.append_assoc]
    exact List.Sublist.refl _
  | delivered hopen hlock hinbox =>
    refine .inl ⟨?_, rfl⟩
    simp only [Worker.line, hinbox, keysOf_ok, List.append_assoc, List.cons_append, List.nil_append]
    exact List.Sublist.refl _
  | failed hopen hlock hinbox =>
    refine .inl ⟨?_, rfl⟩
    simp only [Worker.line, hinbox, keysOf_error]
    exact List.Sublist.refl _
  | removed hpc hfind =>
    refine .inl ⟨?_, rfl⟩
    simp only [Worker.line, hpc]
    exact (List.Sublist.append_left ((List.eraseP_sublist).filterMap _) _).append_right _
  | taken hpc =>
    refine .inl ⟨?_, rfl⟩
    simp only [Worker.line, hpc]
    exact (List.Sublist.append_left (List.nil_sublist _) _).append_right _
  | emptied hstage hlock =>
    refine .inl ⟨?_, rfl⟩
    exact (List.Sublist.append_left (List.nil_sublist _) _).append_right _
  | called hpc | regenerated hpc =>
    refine .inl ⟨?_, List.length_mapIdx⟩
    simp only [Worker.line, hpc]
    exact List.Sublist.refl _
  | silenced | expired => exact .inl ⟨List.Sublist.refl _, List.length_mapIdx⟩
  | passed hpc hget hnot hpc' =>
    refine .inl ⟨?_, rfl⟩
    rcases hpc' with rfl | ⟨error, rfl⟩ <;> simp only [Worker.line, hpc] <;> exact List.Sublist.refl _
  | discarded hpc | rejected hpc =>
    refine .inl ⟨?_, rfl⟩
    simp only [Worker.line, hpc]
    exact List.Sublist.append_left (List.nil_sublist _) _
  | listened hpc | started hpc | refused hpc | left hpc | skipped hpc | locked hpc | signalsLost hpc
  | signalIgnored hpc | signaled hpc | absent hpc | discardedError hpc =>
    refine .inl ⟨?_, rfl⟩
    simp only [Worker.line, hpc]
    exact List.Sublist.refl _
  | released | shut | closed | dropped | droppedError | gone => exact .inl ⟨List.Sublist.refl _, rfl⟩

/-- Requests are accepted in the order of their frames, and handed out in the order in which they were
accepted. -/
structure OrderInv (ch : Channels) (w : Worker) : Prop where
  frames : FramesInv ch w
  line : w.line.Pairwise (· < ·)
  accepted : ∀ key ∈ w.line, key < w.requests.length
  ordered : ∀ (key key' : ℕ) r r', w.requests[key]? = some r → w.requests[key']? = some r' →
    key < key' → r.frame < r'.frame

theorem orderInv_new (ch : Channels) (pattern : String) (capacity : ℕ) :
    OrderInv ch (new ch pattern capacity) where
  frames := framesInv_new ch pattern capacity
  line := List.Pairwise.nil
  accepted := by
    intro key hkey
    cases hkey
  ordered := by
    intro key key' r r' hget
    cases hget

theorem OrderInv.grow {ch' : Channels} (h : OrderInv ch w) (hc : Workers.Continues ch ch') :
    OrderInv ch' w := ⟨h.frames.grow hc, h.line, h.accepted, h.ordered⟩

theorem ordered_moved (h : OrderInv ch w) (hm : Moved ch w t w') (key key' : ℕ) (r r' : RpcRequest)
    (hget : w'.requests[key]? = some r) (hget' : w'.requests[key']? = some r') (hlt : key < key') :
    r.frame < r'.frame := by
  cases hm.requested with
  | same hnext hrequests =>
    obtain ⟨old, hold, hlater⟩ := hrequests key r hget
    obtain ⟨old', hold', hlater'⟩ := hrequests key' r' hget'
    rw [hlater.frame, hlater'.frame]
    exact h.ordered key key' old old' hold hold' hlt
  | @added received invocation canceled hnext hreceived htakes hrequests =>
    rw [hrequests] at hget hget'
    have hlen := (List.getElem?_eq_some_iff.1 hget').1
    rw [List.length_append, List.length_singleton] at hlen
    have hold : w.requests[key]? = some r := by
      rw [List.getElem?_append_left (by omega)] at hget
      exact hget
    rcases getElem?_concat_eq_some hget' with hold' | ⟨-, rfl⟩
    · exact h.ordered key key' r r' hold hold' hlt
    · -- the frame it was made of is the next one, and all others are behind
      exact (h.frames.frames key r hold).2.1

theorem orderInv_step (ch : Channels) (w : Worker) (e : WorkerEvent) (h : OrderInv ch w) :
    OrderInv ch (w.step ch e) := by
  have hm := moved_step ch w e
  have hframes := framesInv_step ch w e h.frames
  rcases hm.line with ⟨hsub, hlen⟩ | ⟨heq, hlen⟩
  · refine ⟨hframes, h.line.sublist hsub, fun key hkey => ?_, ordered_moved h hm⟩
    rw [hlen]
    exact h.accepted key (hsub.subset hkey)
  · refine ⟨hframes, ?_, fun key hkey => ?_, ordered_moved h hm⟩
    · rw [heq]
      refine List.pairwise_append.2 ⟨h.line, List.pairwise_singleton _ _, fun key hkey key' hkey' => ?_⟩
      rw [List.mem_singleton.1 hkey']
      exact h.accepted key hkey
    · rw [hlen]
      rw [heq] at hkey
      rcases List.mem_append.1 hkey with hkey | hkey
      · exact Nat.lt_succ_of_lt (h.accepted key hkey)
      · rw [List.mem_singleton.1 hkey]
        exact Nat.lt_succ_self _

/-- What the application was handed was called for. -/
structure Delivers (ch : Channels) (w : Worker) : Prop where
  /-- in the order in which the frames were published, and no frame twice -/
  ordered : w.deliveredFrames.Pairwise (· < ·)
  counted : w.deliveredFrames.length = w.delivered.length
  /-- a request is what its frame says, and the worker's own -/
  understood : ∀ key ∈ w.delivered, ∃ r received, w.requests[key]? = some r ∧ w.start ≤ r.frame ∧
    ch.requests[r.frame]? = some received ∧ r.generation = received.generation ∧
      r.invocation.Fits ∧ received.payload = r.invocation.bytes ∧
        routeMatchesPattern r.invocation.route w.pattern = true
  /-- and if the frame is that of a call, what the caller asked for -/
  called : ∀ key ∈ w.delivered, ∀ r received, w.requests[key]? = some r →
    ch.requests[r.frame]? = some received →
      ∀ sh wireId id route body timeout elapsed frame,
        (DomainCall.call id route body timeout elapsed).wire sh wireId = .ok (some frame) →
          frame.drop frameHeaderLen = received.payload →
            r.invocation = calledFor id route body timeout elapsed

/-- A request that was handed out is in the table. -/
theorem OrderInv.get (h : OrderInv ch w) {key : ℕ} (hkey : key ∈ w.delivered) :
    ∃ r, w.requests[key]? = some r := by
  have hlt : key < w.requests.length :=
    h.accepted key (List.mem_append_left _ (List.mem_append_left _ hkey))
  exact ⟨_, List.getElem?_eq_getElem hlt⟩

theorem OrderInv.delivers (h : OrderInv ch w) : Delivers ch w where
  ordered := by
    have hline : w.delivered.Pairwise (· < ·) :=
      h.line.sublist ((List.sublist_append_left _ _).trans (List.sublist_append_left _ _))
    refine hline.filterMap _ fun key key' hlt frame hframe frame' hframe' => ?_
    obtain ⟨r, hget, rfl⟩ := Option.map_eq_some_iff.1 hframe
    obtain ⟨r', hget', rfl⟩ := Option.map_eq_some_iff.1 hframe'
    exact h.ordered key key' r r' hget hget' hlt
  counted := by
    refine List.filterMap_length_eq_length.2 fun key hkey => ?_
    obtain ⟨r, hget⟩ := h.get hkey
    rw [frameOf, hget]
    rfl
  understood := by
    intro key hkey
    obtain ⟨r, hget⟩ := h.get hkey
    obtain ⟨hstart, -, received, hreceived, hgeneration, hdecode⟩ := h.frames.frames key r hget
    obtain ⟨invocation, hfits, hbytes, hmatch, heq⟩ | ⟨_, _, _, _, _, _, _, heq⟩ :=
      decodeRequest_iff.1 hdecode
    · cases heq
      exact ⟨r, received, hget, hstart, hreceived, hgeneration, hfits, hbytes, hmatch⟩
    · cases heq
  called := by
    intro key hkey r received hget hreceived sh wireId id route body timeout elapsed frame hwire hpayload
    obtain ⟨-, -, received', hreceived', -, hdecode⟩ := h.frames.frames key r hget
    rw [hreceived] at hreceived'
    cases hreceived'
    have hcall := decodeRequest_call w.pattern hwire
    rw [hpayload, hdecode] at hcall
    split at hcall
    · exact Option.some.inj (Except.ok.inj hcall)
    · cases hcall

end Worker

/-- **What a worker executes was called for.** In every run of the workers of a connection,
whatever frames and cancellations are published, sessions lost, and requests cancelled, rejected or
dropped: what the application of a worker is handed are requests of frames of its own routes, each
frame at most once and in the order of their publication. A request is exactly what its frame
says, and of a caller's frame the id, route, body and remaining budget that the
caller gave. -/
theorem calls_delivered (signalCapacity : ℕ) (es : List WorkersEvent) :
    ∀ w ∈ (run Workers.step (.new signalCapacity) es).workers,
      w.Delivers (run Workers.step (.new signalCapacity) es).channels := by
  have hinv : ∀ w ∈ (run Workers.step (.new signalCapacity) es).workers,
      w.OrderInv (run Workers.step (.new signalCapacity) es).channels := by
    refine run_inv (I := fun s : Workers => ∀ w ∈ s.workers, w.OrderInv s.channels) (fun s e hs => ?_) ?_ es
    · exact Workers.inv_step (c := fun _ _ _ => True) (fun ch w e h _ => Worker.orderInv_step ch w e h)
        (fun ch ch' w hc h => h.grow hc) (Worker.orderInv_new s.channels) hs (fun _ _ _ _ _ => trivial)
    · intro w hw
      cases hw
  intro w hw
  exact (hinv w hw).delivers

theorem calls_delivered_taken :
    ∃ w ∈ (run Workers.step (.new 1024) takenRun).workers, w.deliveredFrames = [0] ∧
      w.Delivers (run Workers.step (.new 1024) takenRun).channels := by
  have hrun : ∃ w ∈ (run Workers.step (.new 1024) takenRun).workers, w.deliveredFrames = [0] := by
    decide +kernel
  obtain ⟨w, hw, hframes⟩ := hrun
  exact ⟨w, hw, hframes, calls_delivered 1024 takenRun w hw⟩

end Fitz
