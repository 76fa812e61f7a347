import Fitz.Lib.Machine
import Fitz.Model.Managed

/-!
# The contract of a managed lease

`managed_contract`: in every run of `with_lease_authority_with_options`, whatever
the broker replies and whenever the callback returns, the callback is started at
most once, right after the ACQUIRE that was granted and with its token; every RENEW
and RELEASE carries the token of the last grant; the callback is told to stop
exactly when a renewal failed; and the result says which of callback and lifecycle
failed.
-/

namespace Fitz

open Machine

variable {T E : Type}

/-! ## What a history says -/

namespace LeaseAct

def started? : LeaseAct T E → Option UInt64
  | .started token => some token
  | _ => none

def refused? : LeaseAct T E → Option FitzError
  | .notAcquired error => some error
  | _ => none

def failed? : LeaseAct T E → Option FitzError
  | .renewalFailed error => some error
  | _ => none

def canceled? : LeaseAct T E → Option Unit
  | .canceled => some ()
  | _ => none

def finished? : LeaseAct T E → Option (Except E T)
  | .finished outcome => some outcome
  | _ => none

def released? : LeaseAct T E → Option (Result Unit)
  | .released result => some result
  | _ => none

def returned? : LeaseAct T E → Option (Except (LeaseExecutionError E) T)
  | .returned result => some result
  | _ => none

/-- The token of a successful ACQUIRE or RENEW. -/
def granted? : LeaseAct T E → Option UInt64
  | .acquired token | .renewed token => some token
  | _ => none

end LeaseAct

/-- The token of the most recent successful ACQUIRE or RENEW. -/
def lastGrant (acts : List (LeaseAct T E)) : Option UInt64 :=
  (acts.filterMap LeaseAct.granted?).getLast?

/-- A RENEW or RELEASE carries the last token granted, and a callback is called
with that of the ACQUIRE just granted. -/
def CarriesToken (order : LeaseOrder) (before : List (LeaseAct T E)) : LeaseAct T E → Prop
  | .sent messageType payload =>
    (messageType = MessageType.leaseRenew → ∃ token, lastGrant before = some token ∧
      payload = putString order.route ++ putString order.ownerId ++ putU64 token ++
        putU64 order.ttlSecs) ∧
    (messageType = MessageType.leaseRelease → ∃ token, lastGrant before = some token ∧
      payload = putString order.route ++ putString order.ownerId ++ putU64 token)
  | .started token => ∃ earlier, before = earlier ++ [.acquired token]
  | _ => True

/-- The contract of the call, over its history. -/
structure LeaseContract (order : LeaseOrder) (acts : List (LeaseAct T E)) : Prop where
  once : (acts.filterMap LeaseAct.started?).length ≤ 1
  tokens : Each (CarriesToken order) acts
  canceled : .canceled ∈ acts ↔ ∃ error, .renewalFailed error ∈ acts
  ok : ∀ value, .returned (.ok value) ∈ acts ↔
    .finished (.ok value) ∈ acts ∧ (∀ error, .renewalFailed error ∉ acts) ∧
      .released (.ok ()) ∈ acts
  callback : ∀ error, .returned (.error (.callback error)) ∈ acts ↔
    .finished (.error error) ∈ acts ∧ (∀ error', .renewalFailed error' ∉ acts) ∧
      .released (.ok ()) ∈ acts
  ownershipLost : ∀ error, .returned (.error (.ownershipLost error)) ∈ acts ↔
    (∃ value, .finished (.ok value) ∈ acts) ∧ .renewalFailed error ∈ acts
  release : ∀ error, .returned (.error (.release error)) ∈ acts ↔
    (∃ value, .finished (.ok value) ∈ acts) ∧ .released (.error error) ∈ acts
  combined : ∀ lifecycle error, .returned (.error (.combined lifecycle error)) ∈ acts ↔
    .finished (.error error) ∈ acts ∧
      (.renewalFailed lifecycle ∈ acts ∨ .released (.error lifecycle) ∈ acts)
  acquisition : ∀ error, .returned (.error (.acquisition error)) ∈ acts ↔
    .notAcquired error ∈ acts
  /-- who was refused has started nothing -/
  unstarted : ∀ error token, .notAcquired error ∈ acts → .started token ∉ acts

/-! ## Stories -/

/-- What happened, kind by kind. -/
structure Story (T E : Type) where
  started : List UInt64
  refused : List FitzError
  failed : List FitzError
  canceled : List Unit
  finished : List (Except E T)
  released : List (Result Unit)
  returned : List (Except (LeaseExecutionError E) T)

def story (acts : List (LeaseAct T E)) : Story T E where
  started := acts.filterMap LeaseAct.started?
  refused := acts.filterMap LeaseAct.refused?
  failed := acts.filterMap LeaseAct.failed?
  canceled := acts.filterMap LeaseAct.canceled?
  finished := acts.filterMap LeaseAct.finished?
  released := acts.filterMap LeaseAct.released?
  returned := acts.filterMap LeaseAct.returned?

/-- The story a future can have at each of its awaits. -/
inductive StoryAt : LeasePc T E → Story T E → Prop
  | start : StoryAt .start ⟨[], [], [], [], [], [], []⟩
  | acquiring : StoryAt .acquiring ⟨[], [], [], [], [], [], []⟩
  | queued : StoryAt .queued ⟨[], [], [], [], [], [], []⟩
  | running (t : UInt64) : StoryAt .running ⟨[t], [], [], [], [], [], []⟩
  | renewing (t : UInt64) : StoryAt .renewing ⟨[t], [], [], [], [], [], []⟩
  | stopping (t : UInt64) (e : FitzError) :
      StoryAt (.stopping e) ⟨[t], [], [e], [()], [], [], []⟩
  | releasing (t : UInt64) (o : Except E T) :
      StoryAt (.releasing o) ⟨[t], [], [], [], [o], [], []⟩
  | refused (e : FitzError) :
      StoryAt .done ⟨[], [e], [], [], [], [], [.error (.acquisition e)]⟩
  | settled (t : UInt64) (o : Except E T) (r : Result Unit) :
      StoryAt .done ⟨[t], [], [], [], [o], [r], [Managed.settle o r]⟩
  | lost (t : UInt64) (o : Except E T) (e : FitzError) :
      StoryAt .done ⟨[t], [], [e], [()], [o], [], [Managed.settleLost o e]⟩

namespace Managed

variable {order : LeaseOrder} {s : Managed T E}

theorem story_append (acts acts' : List (LeaseAct T E)) :
    story (acts ++ acts') =
      ⟨(story acts).started ++ (story acts').started, (story acts).refused ++ (story acts').refused,
        (story acts).failed ++ (story acts').failed,
        (story acts).canceled ++ (story acts').canceled,
        (story acts).finished ++ (story acts').finished,
        (story acts).released ++ (story acts').released,
        (story acts).returned ++ (story acts').returned⟩ := by
  simp [story]

theorem story_dropped (handle : LeaseHandle) (generation : UInt64) :
    story (dropped handle generation : List (LeaseAct T E)) = ⟨[], [], [], [], [], [], []⟩ := by
  unfold dropped
  split <;> rfl

theorem story_releaseFailed (s : Managed T E) (outcome : Except E T) (error : FitzError)
    (atDrop : UInt64) :
    story (releaseFailed s outcome error atDrop) =
      ⟨[], [], [], [], [], [.error error], [settle outcome (.error error)]⟩ := by
  rw [releaseFailed, story_append, story_dropped]
  rfl

/-- The story goes on as the await allows. -/
theorem storyAt_step (s : Managed T E) (e : LeaseEvent T E) (h : StoryAt s.pc (story s.acts)) :
    StoryAt (s.step order e).pc (story (s.step order e).acts) := by
  obtain ⟨pc, handle, acts⟩ := s
  simp only at h
  have hrefuse : ∀ error, story acts = ⟨[], [], [], [], [], [], []⟩ →
      StoryAt (refuse ⟨pc, handle, acts⟩ error).pc
        (story (refuse ⟨pc, handle, acts⟩ error).acts) := by
    intro error hs
    simp only [refuse, goto, story_append, hs]
    exact .refused error
  have hhold : ∀ generation token, story acts = ⟨[], [], [], [], [], [], []⟩ →
      StoryAt (hold ⟨pc, handle, acts⟩ order generation token).pc
        (story (hold ⟨pc, handle, acts⟩ order generation token).acts) := by
    intro generation token hs
    simp only [hold, goto, story_append, hs]
    exact .running token
  -- one case for each await, and in it one for the event that ends it
  generalize hst : story acts = st at h
  cases h with
  | start =>
    cases e with
    | call =>
      simp only [step, call]
      split
      · exact hrefuse _ hst
      · split
        · exact hrefuse _ hst
        · split
          · exact hrefuse _ hst
          · simp only [goto, story_append, hst]
            exact .acquiring
    | _ => exact hst ▸ .start
  | acquiring =>
    cases e with
    | acquireReply reply generation =>
      simp only [step]
      split
      · exact hrefuse _ hst
      · exact hhold _ _ hst
      · simp only [goto, List.append_nil, hst]
        exact .queued
    | _ => exact hst ▸ .acquiring
  | queued =>
    cases e with
    | completion received generation =>
      simp only [step]
      split
      · exact hrefuse _ hst
      · split
        · exact hrefuse _ hst
        · exact hhold _ _ hst
    | _ => exact hst ▸ .queued
  | running t =>
    cases e with
    | callback outcome generation atDrop =>
      simp only [step]
      split
      · rename_i error _
        have hnew : story (.finished outcome :: releaseFailed ⟨.running, handle, acts⟩ outcome error
            atDrop) = ⟨[], [], [], [], [outcome], [.error error], [settle outcome (.error error)]⟩ := by
          rw [← List.singleton_append, story_append, story_releaseFailed]
          rfl
        simp only [goto, story_append acts, hst, hnew]
        exact .settled t outcome (.error error)
      · simp only [goto, story_append, hst]
        exact .releasing t outcome
    | timer generation =>
      simp only [step]
      split
      · rename_i error _
        simp only [lose, goto, story_append, hst]
        exact .stopping t error
      · simp only [goto, story_append, hst]
        exact .renewing t
    | _ => exact hst ▸ .running t
  | renewing t =>
    cases e with
    | renewReply reply =>
      simp only [step]
      split
      · rename_i error _
        simp only [lose, goto, story_append, hst]
        exact .stopping t error
      · simp only [goto, story_append, hst]
        exact .running t
    | _ => exact hst ▸ .renewing t
  | stopping t error =>
    cases e with
    | callback outcome generation atDrop =>
      have hnew : story (.finished outcome :: dropped handle atDrop ++
          [.returned (settleLost outcome error)]) =
          ⟨[], [], [], [], [outcome], [], [settleLost outcome error]⟩ := by
        rw [List.cons_append, ← List.singleton_append, story_append, story_append, story_dropped]
        rfl
      simp only [step, goto, story_append acts, hst, hnew]
      exact .lost t outcome error
    | _ => exact hst ▸ .stopping t error
  | releasing t outcome =>
    cases e with
    | releaseReply reply atDrop =>
      simp only [step]
      split
      · rename_i error _
        simp only [goto, story_append acts, hst, story_releaseFailed]
        exact .settled t outcome (.error error)
      · simp only [goto, story_append, hst]
        exact .settled t outcome (.ok ())
    | _ => exact hst ▸ .releasing t outcome
  | refused error =>
    cases e <;> exact hst ▸ .refused error
  | settled t o r =>
    cases e <;> exact hst ▸ .settled t o r
  | lost t o error =>
    cases e <;> exact hst ▸ .lost t o error

/-! ## Tokens -/

end Managed

/-- The future holds the lease. -/
def LeasePc.holds : LeasePc T E → Bool
  | .running | .renewing | .stopping _ | .releasing _ => true
  | _ => false

namespace Managed

variable {order : LeaseOrder} {s : Managed T E}

/-- The handle is the order's, and carries the last token granted. -/
structure Holds (order : LeaseOrder) (handle : LeaseHandle) (acts : List (LeaseAct T E)) : Prop where
  route : handle.route = order.route
  ownerId : handle.ownerId = order.ownerId
  token : lastGrant acts = some handle.fencingToken

structure TokenInv (order : LeaseOrder) (s : Managed T E) : Prop where
  tokens : Each (CarriesToken order) s.acts
  holds : s.pc.holds = true → Holds order s.handle s.acts

/-- Nothing is granted in between. -/
theorem Holds.later {handle : LeaseHandle} {acts acts' : List (LeaseAct T E)}
    (h : Holds order handle acts) (hg : acts'.filterMap LeaseAct.granted? = []) :
    Holds order handle (acts ++ acts') :=
  ⟨h.route, h.ownerId, by rw [lastGrant, List.filterMap_append, hg, List.append_nil]; exact h.token⟩

theorem Holds.granted {handle : LeaseHandle} {acts : List (LeaseAct T E)} {token : UInt64}
    (hr : handle.route = order.route) (ho : handle.ownerId = order.ownerId)
    (ht : handle.fencingToken = token) {a : LeaseAct T E} (ha : a.granted? = some token)
    {acts' : List (LeaseAct T E)} (hg : acts'.filterMap LeaseAct.granted? = []) :
    Holds order handle (acts ++ a :: acts') := by
  refine ⟨hr, ho, ?_⟩
  rw [lastGrant, List.filterMap_append, List.filterMap_cons, ha, hg, List.getLast?_append]
  simp [ht]

theorem Holds.release {handle : LeaseHandle} {acts : List (LeaseAct T E)}
    (h : Holds order handle acts) :
    CarriesToken order acts (.sent MessageType.leaseRelease handle.releasePayload) := by
  refine ⟨fun hm => absurd hm (by decide), fun _ => ⟨handle.fencingToken, h.token, ?_⟩⟩
  rw [LeaseHandle.releasePayload, h.route, h.ownerId]

theorem Holds.renew {handle : LeaseHandle} {acts : List (LeaseAct T E)}
    (h : Holds order handle acts) :
    CarriesToken order acts (.sent MessageType.leaseRenew (renewPayload handle order)) := by
  refine ⟨fun _ => ⟨handle.fencingToken, h.token, ?_⟩, fun hm => absurd hm (by decide)⟩
  rw [renewPayload, LeaseHandle.releasePayload, h.route, h.ownerId]

/-- A dropped handle releases with the last token granted. -/
theorem eachFrom_dropped {handle : LeaseHandle} {acts acts' : List (LeaseAct T E)}
    (h : Holds order handle acts) (generation : UInt64)
    (hrest : ∀ before, EachFrom (CarriesToken order) before acts') :
    EachFrom (CarriesToken order) acts (dropped handle generation ++ acts') := by
  unfold dropped
  split
  · exact ⟨h.release, hrest _⟩
  · exact hrest _

/-- The future goes on to an await, with what it does before it. -/
theorem TokenInv.goto (h : TokenInv order s) {pc : LeasePc T E} {acts : List (LeaseAct T E)}
    (hacts : EachFrom (CarriesToken order) s.acts acts)
    (hholds : pc.holds = true → Holds order s.handle (s.acts ++ acts)) :
    TokenInv order (s.goto pc acts) := by
  refine ⟨?_, hholds⟩
  rw [Managed.goto, each_append]
  exact ⟨h.tokens, hacts⟩

theorem tokenInv_refuse (h : TokenInv order s) (error : FitzError) :
    TokenInv order (s.refuse error) :=
  h.goto ⟨trivial, trivial, trivial⟩ fun hh => by cases hh

theorem tokenInv_hold (h : TokenInv order s) (generation token : UInt64) :
    TokenInv order (s.hold order generation token) := by
  refine ⟨?_, fun _ => Holds.granted rfl rfl rfl rfl rfl⟩
  rw [hold, Managed.goto, each_append]
  exact ⟨h.tokens, trivial, ⟨s.acts, rfl⟩, trivial⟩

theorem tokenInv_lose (h : TokenInv order s) (hs : s.pc.holds = true) (error : FitzError) :
    TokenInv order (s.lose error) :=
  h.goto ⟨trivial, trivial, trivial⟩ fun _ => (h.holds hs).later rfl

/-- The ACQUIRE carries no token. -/
theorem tokenInv_call (h : TokenInv order s) : TokenInv order (s.call order) := by
  unfold call
  split
  · exact tokenInv_refuse h _
  · split
    · exact tokenInv_refuse h _
    · split
      · exact tokenInv_refuse h _
      · rename_i messageType payload hreq
        have htype : messageType = MessageType.leaseAcquire := by
          simp only [Opening.request, bind, Except.bind] at hreq
          split at hreq
          · cases hreq
          · cases hreq
            rfl
        subst htype
        refine h.goto ⟨⟨fun hm => ?_, fun hm => ?_⟩, trivial⟩ fun hh => by cases hh
        · exact absurd hm (by decide)
        · exact absurd hm (by decide)

theorem tokenInv_step (s : Managed T E) (e : LeaseEvent T E) (h : TokenInv order s) :
    TokenInv order (s.step order e) := by
  have hpc : ∀ pc, s.pc = pc → pc.holds = true → Holds order s.handle s.acts :=
    fun pc heq hh => h.holds (heq ▸ hh)
  unfold step
  split
  · exact tokenInv_call h
  · -- the reply to the ACQUIRE
    split
    · exact tokenInv_refuse h _
    · exact tokenInv_hold h _ _
    · exact h.goto trivial fun hh => by cases hh
  · -- the completion of a queued ACQUIRE
    split
    · exact tokenInv_refuse h _
    · split
      · exact tokenInv_refuse h _
      · exact tokenInv_hold h _ _
  · -- the callback ends while the lease is held
    rename_i outcome generation atDrop heq
    have hold := hpc _ heq rfl
    have hafter : Holds order s.handle (s.acts ++ [.finished outcome]) := hold.later rfl
    split
    · exact h.goto ⟨trivial, eachFrom_dropped hafter atDrop fun _ => ⟨trivial, trivial, trivial⟩⟩
        fun hh => by cases hh
    · exact h.goto ⟨trivial, hafter.release, trivial⟩ fun _ => hold.later rfl
  · -- the renewal timer
    rename_i generation heq
    have hold := hpc _ heq rfl
    split
    · exact tokenInv_lose h (by rw [heq]; rfl) _
    · exact h.goto ⟨hold.renew, trivial⟩ fun _ => hold.later rfl
  · -- the reply to the RENEW: from here on the handle carries its token
    rename_i reply heq
    have hold := hpc _ heq rfl
    split
    · exact tokenInv_lose h (by rw [heq]; rfl) _
    · rename_i token _
      have hnew : Holds order { s.handle with fencingToken := token } (s.acts ++ [.renewed token]) :=
        .granted (by exact hold.route) (by exact hold.ownerId) rfl rfl rfl
      refine ⟨?_, fun _ => hnew⟩
      rw [Managed.goto, each_append]
      exact ⟨h.tokens, trivial, trivial⟩
  · -- the callback ends after the loss
    rename_i error outcome generation atDrop heq
    have hold := hpc _ heq rfl
    have hafter : Holds order s.handle (s.acts ++ [.finished outcome]) := hold.later rfl
    exact h.goto ⟨trivial, eachFrom_dropped hafter atDrop fun _ => ⟨trivial, trivial⟩⟩
      fun hh => by cases hh
  · -- the reply to the RELEASE
    rename_i outcome reply atDrop heq
    have hold := hpc _ heq rfl
    split
    · exact h.goto (eachFrom_dropped hold atDrop fun _ => ⟨trivial, trivial, trivial⟩)
        fun hh => by cases hh
    · refine ⟨?_, fun hh => by cases hh⟩
      rw [Managed.goto, each_append]
      exact ⟨h.tokens, trivial, trivial, trivial⟩
  · exact h

theorem tokenInv_new : TokenInv order (new : Managed T E) := ⟨each_nil _, fun hh => by cases hh⟩

end Managed

/-! ## The contract -/

/-- An act of a kind is in the history if the kind's list has it. -/
theorem mem_of_kind {α : Type} {kind : LeaseAct T E → Option α} (act : α → LeaseAct T E)
    (hk : ∀ a x, kind a = some x ↔ a = act x) (x : α) (acts : List (LeaseAct T E)) :
    act x ∈ acts ↔ x ∈ acts.filterMap kind := by
  rw [List.mem_filterMap]
  exact ⟨fun h => ⟨_, h, (hk _ _).2 rfl⟩, fun ⟨a, ha, hx⟩ => (hk a x).1 hx ▸ ha⟩

section

variable (acts : List (LeaseAct T E))

theorem mem_started (token : UInt64) : .started token ∈ acts ↔ token ∈ (story acts).started :=
  mem_of_kind .started (fun a x => by cases a <;> simp [LeaseAct.started?]) token acts

theorem mem_notAcquired (error : FitzError) :
    .notAcquired error ∈ acts ↔ error ∈ (story acts).refused :=
  mem_of_kind .notAcquired (fun a x => by cases a <;> simp [LeaseAct.refused?]) error acts

theorem mem_renewalFailed (error : FitzError) :
    .renewalFailed error ∈ acts ↔ error ∈ (story acts).failed :=
  mem_of_kind .renewalFailed (fun a x => by cases a <;> simp [LeaseAct.failed?]) error acts

theorem mem_canceled : .canceled ∈ acts ↔ () ∈ (story acts).canceled :=
  mem_of_kind (fun _ : Unit => .canceled) (fun a x => by cases a <;> simp [LeaseAct.canceled?]) ()
    acts

theorem mem_finished (outcome : Except E T) :
    .finished outcome ∈ acts ↔ outcome ∈ (story acts).finished :=
  mem_of_kind .finished (fun a x => by cases a <;> simp [LeaseAct.finished?]) outcome acts

theorem mem_released (result : Result Unit) :
    .released result ∈ acts ↔ result ∈ (story acts).released :=
  mem_of_kind .released (fun a x => by cases a <;> simp [LeaseAct.released?]) result acts

theorem mem_returned (result : Except (LeaseExecutionError E) T) :
    .returned result ∈ acts ↔ result ∈ (story acts).returned :=
  mem_of_kind .returned (fun a x => by cases a <;> simp [LeaseAct.returned?]) result acts

end

/-- What the contract says of a story. -/
structure Story.Verdict (st : Story T E) : Prop where
  once : st.started.length ≤ 1
  canceled : () ∈ st.canceled ↔ ∃ error, error ∈ st.failed
  ok : ∀ value, .ok value ∈ st.returned ↔
    .ok value ∈ st.finished ∧ (∀ error, error ∉ st.failed) ∧ .ok () ∈ st.released
  callback : ∀ error, .error (.callback error) ∈ st.returned ↔
    .error error ∈ st.finished ∧ (∀ error', error' ∉ st.failed) ∧ .ok () ∈ st.released
  ownershipLost : ∀ error, .error (.ownershipLost error) ∈ st.returned ↔
    (∃ value, .ok value ∈ st.finished) ∧ error ∈ st.failed
  release : ∀ error, .error (.release error) ∈ st.returned ↔
    (∃ value, .ok value ∈ st.finished) ∧ .error error ∈ st.released
  combined : ∀ lifecycle error, .error (.combined lifecycle error) ∈ st.returned ↔
    .error error ∈ st.finished ∧ (lifecycle ∈ st.failed ∨ .error lifecycle ∈ st.released)
  acquisition : ∀ error, .error (.acquisition error) ∈ st.returned ↔ error ∈ st.refused
  unstarted : ∀ error token, error ∈ st.refused → token ∉ st.started

/-- **Every story has its verdict.** -/
theorem verdict_of_storyAt {pc : LeasePc T E} {st : Story T E} (h : StoryAt pc st) : st.Verdict := by
  cases h with
  | start | acquiring | queued => constructor <;> simp
  | running t | renewing t => constructor <;> simp
  | stopping t e => constructor <;> simp
  | releasing t o => constructor <;> simp
  | refused e => constructor <;> simp
  | settled t o r =>
    cases o with
    | ok value => cases r <;> constructor <;> simp [Managed.settle, eq_comm]
    | error error => cases r <;> constructor <;> simp [Managed.settle, eq_comm, and_comm]
  | lost t o e =>
    cases o with
    | ok value => constructor <;> simp [Managed.settleLost, eq_comm]
    | error error => constructor <;> simp [Managed.settleLost, eq_comm, and_comm]

theorem leaseContract_of_verdict {order : LeaseOrder} {acts : List (LeaseAct T E)}
    (h : (story acts).Verdict) (htokens : Each (CarriesToken order) acts) :
    LeaseContract order acts := by
  refine ⟨h.once, htokens, ?_, ?_, ?_, ?_, ?_, ?_, ?_, ?_⟩ <;>
    simp only [mem_started, mem_notAcquired, mem_renewalFailed, mem_canceled, mem_finished,
      mem_released, mem_returned]
  · exact h.canceled
  · exact h.ok
  · exact h.callback
  · exact h.ownershipLost
  · exact h.release
  · exact h.combined
  · exact h.acquisition
  · exact h.unstarted

/-- **The contract of a managed lease.** -/
theorem managed_contract (order : LeaseOrder) (es : List (LeaseEvent T E)) :
    LeaseContract order (run (Managed.step order) Managed.new es).acts := by
  have hstory : StoryAt (run (Managed.step order) Managed.new es).pc
      (story (run (Managed.step order) Managed.new es).acts) :=
    run_inv (I := fun s : Managed T E => StoryAt s.pc (story s.acts))
      (fun s e h => Managed.storyAt_step s e h) StoryAt.start es
  have htokens : Managed.TokenInv order (run (Managed.step order) Managed.new es) :=
    run_inv (fun s e h => Managed.tokenInv_step s e h) Managed.tokenInv_new es
  exact leaseContract_of_verdict (verdict_of_storyAt hstory) htokens.tokens

end Fitz
