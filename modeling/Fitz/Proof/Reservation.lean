import Fitz.Model.Reservation
import Fitz.Lib.Tables

/-!
# One reservation, many calls

The state of an item says how its calls stand: it is 1 while one of them holds the claim
and 2 once one was acknowledged (`ReservationInv`). Each step of a call keeps the tally
(`Keeps`), so `reservation_guarded` holds of every interleaving.
-/

namespace Fitz

open Machine Tables

/-! ## Where a call stands -/

/-- The call is between its claim and its release. -/
def ItemStage.between : ItemStage → Bool
  | .claimed | .requesting | .acknowledging | .releasing _ => true
  | _ => false

/-- It is, and has not stored that the item is done. -/
def ItemStage.holds : ItemStage → Bool
  | .claimed | .requesting | .acknowledging | .releasing none | .releasing (some (.error _)) => true
  | _ => false

/-- It has stored that the item is done. -/
def ItemStage.acknowledged : ItemStage → Bool
  | .releasing (some (.ok ())) | .returned (.ok ()) => true
  | _ => false

/-- A call that claims nothing gets here. -/
def ItemStage.plain : ItemStage → Bool
  | .entered | .fenced | .ensured | .requesting | .returned _ | .dropped => true
  | _ => false

/-- The call can only find the handle stale. -/
def ItemStage.stale : ItemStage → Bool
  | .entered | .fenced | .returned (.error .staleHandle) => true
  | _ => false

namespace ItemCall

def between (c : ItemCall) : Bool := c.op.claims && c.stage.between

def holds (c : ItemCall) : Bool := c.op.claims && c.stage.holds

def acknowledged (c : ItemCall) : Bool := c.op.claims && c.stage.acknowledged

/-- A `complete` or `nack` that returned `Ok`. -/
def succeeded (c : ItemCall) : Bool := c.op.claims && c.stage = .returned (.ok ())

end ItemCall

/-! ## What a step of a call keeps -/

/-- The claim is held while the state is 1, and acknowledged once it is 2. -/
structure Keeps (c : ItemCall) (state : UInt8) (t : ItemTurn) : Prop where
  holds : (decide (state = 1)).toNat + (c.op.claims && t.stage.holds).toNat =
    (decide (t.state = 1)).toNat + c.holds.toNat
  acknowledged : (decide (state = 2)).toNat + (c.op.claims && t.stage.acknowledged).toNat =
    (decide (t.state = 2)).toNat + c.acknowledged.toNat
  known : t.state = 0 ∨ t.state = 1 ∨ t.state = 2
  plain : c.op.claims = false → t.stage.plain = true

variable {c : ItemCall} {state : UInt8}

/-- What is known of a call and the state of its item. -/
structure Fits (c : ItemCall) (state : UInt8) : Prop where
  known : state = 0 ∨ state = 1 ∨ state = 2
  holds : c.holds = true → state = 1
  acknowledged : c.acknowledged = true → state = 2
  plain : c.op.claims = false → c.stage.plain = true

theorem Fits.claims (h : Fits c state) (hstage : c.stage.plain = false) : c.op.claims = true := by
  by_contra hno
  have hplain := h.plain (by simpa using hno)
  rw [hstage] at hplain
  cases hplain

/-- A step that changes neither the state nor how the call stands. -/
theorem Fits.same (h : Fits c state) {stage : ItemStage} {requests : Bool}
    (hholds : c.op.claims = true → stage.holds = c.stage.holds)
    (hacknowledged : c.op.claims = true → stage.acknowledged = c.stage.acknowledged)
    (hplain : c.op.claims = false → stage.plain = true) : Keeps c state ⟨stage, state, requests⟩ := by
  refine ⟨?_, ?_, h.known, hplain⟩
  · cases hc : c.op.claims with
    | false => simp [ItemCall.holds, hc]
    | true => simp [ItemCall.holds, hc, hholds hc]
  · cases hc : c.op.claims with
    | false => simp [ItemCall.acknowledged, hc]
    | true => simp [ItemCall.acknowledged, hc, hacknowledged hc]

/-- A step of a call that claims is counted by where the call stands. -/
theorem Keeps.of_claims (hclaims : c.op.claims = true) {t : ItemTurn}
    (hholds : (decide (state = 1)).toNat + t.stage.holds.toNat =
      (decide (t.state = 1)).toNat + c.stage.holds.toNat)
    (hacknowledged : (decide (state = 2)).toNat + t.stage.acknowledged.toNat =
      (decide (t.state = 2)).toNat + c.stage.acknowledged.toNat)
    (hknown : t.state = 0 ∨ t.state = 1 ∨ t.state = 2) : Keeps c state t where
  holds := by
    rw [ItemCall.holds, hclaims]
    exact hholds
  acknowledged := by
    rw [ItemCall.acknowledged, hclaims]
    exact hacknowledged
  known := hknown
  plain := by
    intro hno
    rw [hclaims] at hno
    cases hno

theorem Fits.tryClaim (h : Fits c state) (hclaims : c.op.claims = true)
    (hstage : c.stage = .ensured ∨ c.stage = .claiming) : Keeps c state (ItemCall.tryClaim state) := by
  have hnot : c.stage.holds = false ∧ c.stage.acknowledged = false := by
    rcases hstage with heq | heq <;> rw [heq] <;> exact ⟨rfl, rfl⟩
  unfold ItemCall.tryClaim
  split
  · rename_i hzero
    refine .of_claims hclaims ?_ ?_ (.inr (.inl rfl))
    · rw [hnot.1, hzero]
      rfl
    · rw [hnot.2, hzero]
      rfl
  · exact h.same (fun _ => hnot.1.symm) (fun _ => hnot.2.symm) fun _ => rfl

theorem Fits.acknowledge (h : Fits c state) (hstage : c.stage = .acknowledging) :
    Keeps c state ⟨.releasing (some (.ok ())), 2, false⟩ := by
  have hclaims := h.claims (by rw [hstage]; rfl)
  have hone : state = 1 := h.holds (by rw [ItemCall.holds, hclaims, hstage]; rfl)
  refine .of_claims hclaims ?_ ?_ (.inr (.inr rfl))
  · rw [hstage, hone]
    rfl
  · rw [hstage, hone]
    rfl

/-- The guard opens the item again unless it is done. -/
theorem Fits.release (h : Fits c state) {result : Option (Result Unit)}
    (hstage : c.stage = .releasing result) :
    Keeps c state ⟨.over result, if state = 1 then 0 else state, false⟩ := by
  have hclaims := h.claims (by rw [hstage]; rfl)
  have hheld : c.stage.holds = true → state = 1 := fun hholds =>
    h.holds (by rw [ItemCall.holds, hclaims, hholds]; rfl)
  have hdone : c.stage.acknowledged = true → state = 2 := fun hacknowledged =>
    h.acknowledged (by rw [ItemCall.acknowledged, hclaims, hacknowledged]; rfl)
  rw [hstage] at hheld hdone
  rcases result with _ | error | _
  · have hone := hheld rfl
    refine .of_claims hclaims ?_ ?_ (by rw [hone]; exact .inl rfl)
    · rw [hstage, hone]
      rfl
    · rw [hstage, hone]
      rfl
  · have hone := hheld rfl
    refine .of_claims hclaims ?_ ?_ (by rw [hone]; exact .inl rfl)
    · rw [hstage, hone]
      rfl
    · rw [hstage, hone]
      rfl
  · have htwo := hdone rfl
    refine .of_claims hclaims ?_ ?_ (by rw [htwo]; exact .inr (.inr rfl))
    · rw [hstage, htwo]
      rfl
    · rw [hstage, htwo]
      rfl

theorem Fits.advance {item : QueueItem} (h : Fits c item.state) (sh : Shared) :
    Keeps c item.state (c.advance sh item) := by
  cases hstage : c.stage with
  | entered | fenced =>
    simp only [ItemCall.advance, hstage]
    split <;> exact h.same (fun _ => by rw [hstage]; rfl) (fun _ => by rw [hstage]; rfl) fun _ => rfl
  | ensured =>
    simp only [ItemCall.advance, hstage]
    cases hop : c.op with
    | extend leaseSeconds =>
      have hclaims : ¬c.op.claims = true := by
        rw [hop]
        exact Bool.false_ne_true
      exact h.same (fun hyes => absurd hyes hclaims) (fun hyes => absurd hyes hclaims) fun _ => rfl
    | complete => exact h.tryClaim (by rw [hop]; rfl) (.inl hstage)
    | nack visibilitySeconds =>
      dsimp only
      split
      · refine h.same (fun _ => by rw [hstage]; rfl) (fun _ => by rw [hstage]; rfl) fun hno => ?_
        rw [hop] at hno
        cases hno
      · exact h.same (fun _ => by rw [hstage]; rfl) (fun _ => by rw [hstage]; rfl) fun _ => rfl
  | claiming =>
    simp only [ItemCall.advance, hstage]
    exact h.tryClaim (h.claims (by rw [hstage]; rfl)) (.inr hstage)
  | claimed =>
    simp only [ItemCall.advance, hstage]
    exact h.same (fun _ => by rw [hstage]; rfl) (fun _ => by rw [hstage]; rfl) fun _ => rfl
  | acknowledging =>
    simp only [ItemCall.advance, hstage]
    exact h.acknowledge hstage
  | releasing result =>
    simp only [ItemCall.advance, hstage]
    exact h.release hstage
  | requesting | returned | dropped =>
    simp only [ItemCall.advance, hstage]
    exact h.same (fun _ => by rw [hstage]) (fun _ => by rw [hstage]) fun _ => rfl

theorem Fits.stay {item : QueueItem} (h : Fits c item.state) :
    Keeps c item.state ⟨c.stage, item.state, false⟩ :=
  h.same (fun _ => rfl) (fun _ => rfl) h.plain

/-- The end of a request goes on to the release, with a claim, or out. -/
theorem Fits.settle (h : Fits c state) (hstage : c.stage = .requesting) {held free : ItemStage}
    (hholds : held.holds = true) (hnot : held.acknowledged = false) (hplain : free.plain = true) :
    Keeps c state ⟨if c.op.claims then held else free, state, false⟩ := by
  cases hclaims : c.op.claims with
  | false =>
    refine h.same (fun hyes => ?_) (fun hyes => ?_) fun _ => hplain
    · rw [hclaims] at hyes
      cases hyes
    · rw [hclaims] at hyes
      cases hyes
  | true =>
    refine h.same (fun _ => ?_) (fun _ => ?_) fun hno => ?_
    · rw [hstage]
      exact hholds
    · rw [hstage]
      exact hnot
    · rw [hclaims] at hno
      cases hno

theorem Fits.answer {item : QueueItem} (h : Fits c item.state) (response : Result Bytes) :
    Keeps c item.state (c.answer item response) := by
  unfold ItemCall.answer
  split
  · rename_i hstage
    split
    · exact h.settle hstage rfl rfl rfl
    · exact h.settle hstage rfl rfl rfl
  · exact h.stay

theorem Fits.drop {item : QueueItem} (h : Fits c item.state) :
    Keeps c item.state (c.drop item) := by
  unfold ItemCall.drop
  split
  · rename_i hstage
    exact h.settle hstage rfl rfl rfl
  · exact h.stay

/-! ## The tally -/

/-- The state of the item counts its calls. -/
structure ReservationInv (item : QueueItem) (s : Reservation) : Prop where
  item : s.item = { item with state := s.item.state }
  known : s.item.state = 0 ∨ s.item.state = 1 ∨ s.item.state = 2
  holds : s.calls.countP ItemCall.holds = (decide (s.item.state = 1)).toNat
  acknowledged : s.calls.countP ItemCall.acknowledged = (decide (s.item.state = 2)).toNat
  plain : ∀ c ∈ s.calls, c.op.claims = false → c.stage.plain = true
  requested : ∀ x ∈ s.requested, x.call < s.calls.length

namespace Reservation

variable {s : Reservation} {item : QueueItem}

theorem reservationInv_start (shared : Shared) (generation : UInt64) (route : String)
    (id token : UInt64) (body : Bytes) :
    ReservationInv ⟨generation, route, id, token, body, 0⟩
      (start shared generation route id token body) where
  item := rfl
  known := .inl rfl
  holds := rfl
  acknowledged := rfl
  plain := by
    intro c hc
    cases hc
  requested := by
    intro x hx
    cases hx

/-- A step requests in the name of its call. -/
theorem requested_turn {i : ℕ} {f : ItemCall → ItemTurn} {x : ItemRequest}
    (hx : x ∈ (s.turn i f).requested) :
    x ∈ s.requested ∨ x.call = i ∧ ∃ c, s.calls[i]? = some c ∧ (f c).requests = true := by
  unfold turn at hx
  split at hx
  · exact .inl hx
  rename_i c hget
  dsimp only at hx
  split at hx
  · rename_i hrequests
    rcases List.mem_append.1 hx with hx | hx
    · exact .inl hx
    · rw [List.mem_singleton.1 hx]
      exact .inr ⟨rfl, c, hget, hrequests⟩
  · exact .inl hx

theorem length_turn (i : ℕ) (f : ItemCall → ItemTurn) : (s.turn i f).calls.length = s.calls.length := by
  unfold turn
  split
  · rfl
  · exact List.length_modify _ _ _

theorem fits_of_inv (h : ReservationInv item s) {i : ℕ} {c : ItemCall} (hget : s.calls[i]? = some c) :
    Fits c s.item.state where
  known := h.known
  holds := by
    intro hc
    have hpos := countP_pos_of_getElem? hget hc
    rw [h.holds] at hpos
    by_contra hne
    simp [hne] at hpos
  acknowledged := by
    intro hc
    have hpos := countP_pos_of_getElem? hget hc
    rw [h.acknowledged] at hpos
    by_contra hne
    simp [hne] at hpos
  plain := h.plain c (List.mem_of_getElem? hget)

/-- One call takes a step that keeps the tally. -/
theorem reservationInv_turn (h : ReservationInv item s) {i : ℕ} {f : ItemCall → ItemTurn}
    (hf : ∀ c, Fits c s.item.state → Keeps c s.item.state (f c)) :
    ReservationInv item (s.turn i f) := by
  have hrequested : ∀ x ∈ (s.turn i f).requested, x.call < (s.turn i f).calls.length := by
    intro x hx
    rw [length_turn]
    rcases requested_turn hx with hx | ⟨rfl, c, hget, -⟩
    · exact h.requested x hx
    · exact (List.getElem?_eq_some_iff.1 hget).1
  unfold turn at hrequested ⊢
  split at hrequested
  · exact h
  rename_i c hget
  have hkeeps := hf c (fits_of_inv h hget)
  constructor
  · rw [h.item]
  · exact hkeeps.known
  · have hcount := countP_modify (p := ItemCall.holds) (f := fun c => { c with stage := (f c).stage }) hget
    have hbalance := hkeeps.holds
    have hbefore := h.holds
    simp only [ItemCall.holds] at hcount hbalance hbefore ⊢
    omega
  · have hcount := countP_modify (p := ItemCall.acknowledged)
      (f := fun c => { c with stage := (f c).stage }) hget
    have hbalance := hkeeps.acknowledged
    have hbefore := h.acknowledged
    simp only [ItemCall.acknowledged] at hcount hbalance hbefore ⊢
    omega
  · intro d hd
    obtain ⟨k, hk⟩ := List.mem_iff_getElem?.1 hd
    rcases getElem?_modify_eq_some hk with ⟨-, a, ha, rfl⟩ | ⟨-, hk⟩
    · rw [hget] at ha
      cases ha
      exact hkeeps.plain
    · exact h.plain d (List.mem_of_getElem? hk)
  · exact hrequested

theorem reservationInv_step (s : Reservation) (e : ItemEvent) (h : ReservationInv item s) :
    ReservationInv item (s.step e) := by
  cases e with
  | connection shared => exact ⟨h.item, h.known, h.holds, h.acknowledged, h.plain, h.requested⟩
  | call op =>
    have hholds : ItemCall.holds ⟨op, .entered⟩ = false := Bool.and_false _
    have hacknowledged : ItemCall.acknowledged ⟨op, .entered⟩ = false := Bool.and_false _
    refine ⟨h.item, h.known, ?_, ?_, ?_, fun x hx => ?_⟩
    · have hcount : (s.calls ++ [(⟨op, .entered⟩ : ItemCall)]).countP ItemCall.holds =
          s.calls.countP ItemCall.holds := by
        rw [List.countP_append, List.countP_singleton, hholds]
        rfl
      exact hcount.trans h.holds
    · have hcount : (s.calls ++ [(⟨op, .entered⟩ : ItemCall)]).countP ItemCall.acknowledged =
          s.calls.countP ItemCall.acknowledged := by
        rw [List.countP_append, List.countP_singleton, hacknowledged]
        rfl
      exact hcount.trans h.acknowledged
    · intro c hc
      rcases List.mem_append.1 hc with hc | hc
      · exact h.plain c hc
      · rw [List.mem_singleton.1 hc]
        exact fun _ => rfl
    · have hlt := h.requested x hx
      simp only [step, List.length_append, List.length_singleton]
      omega
  | advance i => exact reservationInv_turn h fun c hc => hc.advance s.shared
  | answer i response => exact reservationInv_turn h fun c hc => hc.answer response
  | drop i => exact reservationInv_turn h fun c hc => hc.drop

/-! ## After the acknowledgment -/

/-- The item is done, and the calls from `n` on find that. -/
structure Closed (n : ℕ) (s : Reservation) : Prop where
  state : s.item.state = 2
  stale : ∀ (j : ℕ) c, n ≤ j → s.calls[j]? = some c → c.stage.stale = true
  requested : ∀ x ∈ s.requested, x.call < n

theorem state_advance {c : ItemCall} {sh : Shared} (hstate : item.state = 2) :
    (c.advance sh item).state = 2 := by
  unfold ItemCall.advance ItemCall.tryClaim
  repeat' split
  all_goals first | exact hstate | rfl | simp_all

theorem stale_advance {c : ItemCall} {sh : Shared} (hstate : item.state = 2)
    (hstale : c.stage.stale = true) :
    (c.advance sh item).stage.stale = true ∧ (c.advance sh item).requests = false := by
  unfold ItemStage.stale at hstale
  split at hstale
  · rename_i hstage
    simp only [ItemCall.advance, hstage]
    split <;> exact ⟨rfl, rfl⟩
  · rename_i hstage
    have hne : ¬item.state = 0 := by
      rw [hstate]
      decide
    rw [ItemCall.advance, hstage]
    dsimp only
    rw [if_neg hne]
    exact ⟨rfl, rfl⟩
  · rename_i hstage
    simp only [ItemCall.advance, hstage]
    exact ⟨rfl, trivial⟩
  · cases hstale

theorem closed_turn {n : ℕ} (h : Closed n s) {i : ℕ} {f : ItemCall → ItemTurn}
    (hstate : ∀ c, (f c).state = 2)
    (hstale : ∀ c, c.stage.stale = true → (f c).stage.stale = true ∧ (f c).requests = false) :
    Closed n (s.turn i f) where
  state := by
    unfold turn
    split
    · exact h.state
    · exact hstate _
  stale := by
    intro j c hj hget
    unfold turn at hget
    split at hget
    · exact h.stale j c hj hget
    rename_i a ha
    rcases getElem?_modify_eq_some hget with ⟨rfl, b, hb, rfl⟩ | ⟨-, hget⟩
    · rw [ha] at hb
      cases hb
      exact (hstale a (h.stale j a hj ha)).1
    · exact h.stale j c hj hget
  requested := by
    intro x hx
    rcases requested_turn hx with hx | ⟨rfl, c, hget, hrequests⟩
    · exact h.requested x hx
    · by_contra hle
      rw [(hstale c (h.stale _ c (not_lt.1 hle) hget)).2] at hrequests
      cases hrequests

theorem closed_step {n : ℕ} (s : Reservation) (e : ItemEvent) (h : Closed n s) : Closed n (s.step e) := by
  cases e with
  | connection shared => exact ⟨h.state, h.stale, h.requested⟩
  | call op =>
    refine ⟨h.state, fun j c hj hget => ?_, h.requested⟩
    rcases getElem?_concat_eq_some hget with hget | ⟨-, rfl⟩
    · exact h.stale j c hj hget
    · rfl
  | advance i => exact closed_turn h (fun _ => state_advance h.state) fun _ => stale_advance h.state
  | answer i response =>
    refine closed_turn h (fun c => ?_) fun c hstale => ?_
    · unfold ItemCall.answer
      repeat' split
      all_goals exact h.state
    · unfold ItemCall.answer
      split
      · rename_i hstage
        rw [hstage] at hstale
        cases hstale
      · exact ⟨hstale, rfl⟩
  | drop i =>
    refine closed_turn h (fun c => ?_) fun c hstale => ?_
    · unfold ItemCall.drop
      split <;> exact h.state
    · unfold ItemCall.drop
      split
      · rename_i hstage
        rw [hstage] at hstale
        cases hstale
      · exact ⟨hstale, rfl⟩

theorem turn_some {i : ℕ} {c : ItemCall} (f : ItemCall → ItemTurn) (hget : s.calls[i]? = some c) :
    (s.turn i f).calls[i]? = some { c with stage := (f c).stage } := by
  unfold turn
  rw [hget]
  exact getElem?_modify_self hget

/-- The call returns `StaleHandle` within two steps of its own. -/
theorem stale_prompt {n : ℕ} (h : Closed n s) {j : ℕ} {c : ItemCall} (hj : n ≤ j)
    (hget : s.calls[j]? = some c) :
    (run step s [.advance j, .advance j]).calls[j]? =
      some { c with stage := .returned (.error .staleHandle) } := by
  have hstale := h.stale j c hj hget
  have hnext := closed_step s (.advance j) h
  have hget' := turn_some (fun c => c.advance s.shared s.item) hget
  have hget'' := turn_some
    (fun c => c.advance (s.step (.advance j)).shared (s.step (.advance j)).item) hget'
  have hne : ¬(s.step (.advance j)).item.state = 0 := by
    rw [hnext.state]
    decide
  refine hget''.trans (congrArg some ?_)
  unfold ItemStage.stale at hstale
  split at hstale
  · rename_i hstage
    by_cases hgeneration : s.shared.generation = s.item.generation
    · simp only [ItemCall.advance, hstage, if_pos hgeneration, if_neg hne]
    · simp only [ItemCall.advance, hstage, if_neg hgeneration]
  · rename_i hstage
    have hne' : ¬s.item.state = 0 := by
      rw [h.state]
      decide
    simp only [ItemCall.advance, hstage, if_neg hne']
  · rename_i hstage
    simp only [ItemCall.advance, hstage]
  · cases hstale

/-! ## After a release -/

/-- A `complete` or `nack` gets to its request, with the route, id and token of the item. -/
def Claimable (s : Reservation) : Prop :=
  ∀ op : ItemOp, op.claims = true → (∀ seconds, op = .nack seconds → requireCapability s.shared 2 = .ok ()) →
    s.shared.generation = s.item.generation →
    (run step s (.call op :: List.replicate 5 (.advance s.calls.length))).requested =
      s.requested ++ [⟨s.calls.length, s.item.request op⟩]

/-- The last call takes a step. -/
theorem turn_last (sh : Shared) (item : QueueItem) (calls : List ItemCall) (c : ItemCall)
    (requested : List ItemRequest) (f : ItemCall → ItemTurn) :
    (⟨sh, item, calls ++ [c], requested⟩ : Reservation).turn calls.length f =
      ⟨sh, { item with state := (f c).state }, calls ++ [{ c with stage := (f c).stage }],
        if (f c).requests then requested ++ [⟨calls.length, item.request c.op⟩] else requested⟩ := by
  have hget : (calls ++ [c])[calls.length]? = some c := by simp
  simp only [turn, hget, modify_concat]

/-- A call that claims gets to its request. -/
theorem run_claim (h : s.item.state = 0) {op : ItemOp} (hclaims : op.claims = true)
    (hcapability : ∀ seconds, op = .nack seconds → requireCapability s.shared 2 = .ok ())
    (hgeneration : s.shared.generation = s.item.generation) :
    run step s (.call op :: List.replicate 5 (.advance s.calls.length)) =
      ⟨s.shared, { s.item with state := 1 }, s.calls ++ [⟨op, .requesting⟩],
        s.requested ++ [⟨s.calls.length, s.item.request op⟩]⟩ := by
  obtain ⟨sh, item, calls, requested⟩ := s
  dsimp only at h hcapability hgeneration ⊢
  have hcall : (⟨sh, item, calls, requested⟩ : Reservation).step (.call op) =
      ⟨sh, item, calls ++ [⟨op, .entered⟩], requested⟩ := rfl
  have hfive : List.replicate 5 (ItemEvent.advance calls.length) =
      [.advance calls.length, .advance calls.length, .advance calls.length, .advance calls.length,
        .advance calls.length] := rfl
  rw [run_cons, hcall, hfive]
  cases op with
  | extend leaseSeconds => cases hclaims
  | complete =>
    simp [step, turn_last, ItemCall.advance, ItemCall.tryClaim, hgeneration, h, QueueItem.request,
      QueueItem.tokenPayload]
  | nack seconds =>
    simp [step, turn_last, ItemCall.advance, ItemCall.tryClaim, hgeneration, h,
      hcapability seconds rfl, QueueItem.request, QueueItem.tokenPayload]

theorem claimable_of_state (h : s.item.state = 0) : s.Claimable := by
  intro op hclaims hcapability hgeneration
  rw [run_claim h hclaims hcapability hgeneration]

/-- Alone on its item, a call does in its steps what it does to a handle in one claim and
one conclusion. -/
theorem run_alone (h : s.item.state = 0) {op : ItemOp} (hclaims : op.claims = true)
    (hcapability : ∀ seconds, op = .nack seconds → requireCapability s.shared 2 = .ok ())
    (hgeneration : s.shared.generation = s.item.generation) (response : Result Bytes) :
    ∃ claimed, (Handle.queue s.item).claim op.operation = .ok claimed ∧
      claimed.conclude op.operation (some response) =
        .queue (run step s (.call op :: List.replicate 5 (.advance s.calls.length) ++
          [.answer s.calls.length response, .advance s.calls.length, .advance s.calls.length])).item := by
  refine ⟨.queue { s.item with state := 1 }, ?_, ?_⟩
  · cases op <;> simp_all [ItemOp.claims, ItemOp.operation, Handle.claim]
  · rw [run_append, run_claim h hclaims hcapability hgeneration]
    simp only [run_cons, run_nil, step, turn_last, ItemCall.answer, hclaims, if_pos]
    cases op with
    | extend leaseSeconds => cases hclaims
    | complete | nack seconds =>
      cases response with
      | error error => simp [Except.bind, ItemCall.advance, ItemStage.over, ItemOp.operation, Handle.conclude]
      | ok bytes =>
        cases hbytes : decodeQueuePlainOk bytes with
        | ok => simp [Except.bind, hbytes, ItemCall.advance, ItemOp.operation, Handle.conclude]
        | error error =>
          simp [Except.bind, hbytes, ItemCall.advance, ItemStage.over, ItemOp.operation,
            Handle.conclude]

/-! ## The law -/

/-- What holds of a reservation in every state, with the item as it was reserved. -/
structure Guarded (item : QueueItem) (s : Reservation) : Prop where
  /-- between claim and release is one call at most -/
  one_claim : s.calls.countP ItemCall.between ≤ 1
  one_ok : s.calls.countP ItemCall.succeeded ≤ 1
  /-- what is called after the `Ok` returns `StaleHandle`, without a request -/
  closed : (∃ c ∈ s.calls, c.succeeded = true) → ∀ (es : List ItemEvent) (j : ℕ) c,
    s.calls.length ≤ j → (run step s es).calls[j]? = some c →
      c.stage.stale = true ∧ (∀ x ∈ (run step s es).requested, x.call ≠ j) ∧
        (run step (run step s es) [.advance j, .advance j]).calls[j]? =
          some { c with stage := .returned (.error .staleHandle) }
  /-- a claim that came to nothing leaves the item as it was reserved -/
  reopened : ∀ (i : ℕ) c result, s.calls[i]? = some c → c.op.claims = true →
    c.stage = .releasing result → result ≠ some (.ok ()) →
      (s.step (.advance i)).item = item ∧ (s.step (.advance i)).Claimable

/-- The calls that pass a test only in one state of the item, and once then, are one. -/
theorem countP_le_one_of_tally (h : ReservationInv item s) {p : ItemCall → Bool}
    (hp : ∀ c, p c = true → c.holds = true ∨ c.acknowledged = true) : s.calls.countP p ≤ 1 := by
  refine countP_le_one fun i j a b hi hj ha hb => ?_
  have hfits := fits_of_inv h hi
  have hfits' := fits_of_inv h hj
  have hone : s.calls.countP ItemCall.holds ≤ 1 := h.holds ▸ Bool.toNat_le _
  have hone' : s.calls.countP ItemCall.acknowledged ≤ 1 := h.acknowledged ▸ Bool.toNat_le _
  rcases hp a ha with ha | ha <;> rcases hp b hb with hb | hb
  · exact eq_of_countP_le_one hone hi hj ha hb
  · have hne := (hfits.holds ha).symm.trans (hfits'.acknowledged hb)
    cases hne
  · have hne := (hfits.acknowledged ha).symm.trans (hfits'.holds hb)
    cases hne
  · exact eq_of_countP_le_one hone' hi hj ha hb

theorem guarded_of_inv (h : ReservationInv item s) (hitem : item.state = 0) : Guarded item s where
  one_claim := by
    refine countP_le_one_of_tally h fun c hc => ?_
    obtain ⟨hclaims, hbetween⟩ := Bool.and_eq_true_iff.1 hc
    unfold ItemStage.between at hbetween
    simp only [ItemCall.holds, ItemCall.acknowledged, hclaims, Bool.true_and]
    split at hbetween
    · rename_i hstage
      rw [hstage]
      exact .inl rfl
    · rename_i hstage
      rw [hstage]
      exact .inl rfl
    · rename_i hstage
      rw [hstage]
      exact .inl rfl
    · rename_i result hstage
      rw [hstage]
      rcases result with _ | error | _
      · exact .inl rfl
      · exact .inl rfl
      · exact .inr rfl
    · cases hbetween
  one_ok := by
    refine countP_le_one_of_tally h fun c hc => .inr ?_
    obtain ⟨hclaims, hstage⟩ := Bool.and_eq_true_iff.1 hc
    rw [ItemCall.acknowledged, hclaims, of_decide_eq_true hstage]
    rfl
  closed := by
    rintro ⟨c, hc, hsucceeded⟩ es j d hj hget
    obtain ⟨hclaims, hstage⟩ := Bool.and_eq_true_iff.1 hsucceeded
    obtain ⟨i, hi⟩ := List.mem_iff_getElem?.1 hc
    have hstate : s.item.state = 2 := by
      refine (fits_of_inv h hi).acknowledged ?_
      rw [ItemCall.acknowledged, hclaims, of_decide_eq_true hstage]
      rfl
    have hstart : Closed s.calls.length s := by
      refine ⟨hstate, fun j c hj hget => ?_, h.requested⟩
      have hlt := (List.getElem?_eq_some_iff.1 hget).1
      omega
    have hclosed := run_inv closed_step hstart es
    refine ⟨hclosed.stale j d hj hget, fun x hx heq => ?_, stale_prompt hclosed hj hget⟩
    have hlt := hclosed.requested x hx
    omega
  reopened := by
    intro i c result hget hclaims hstage hresult
    have hone : s.item.state = 1 := by
      refine (fits_of_inv h hget).holds ?_
      rw [ItemCall.holds, hclaims, hstage]
      rcases result with _ | error | _
      · rfl
      · rfl
      · exact absurd rfl hresult
    have hstep : (s.step (.advance i)).item = { s.item with state := 0 } := by
      simp only [step, turn, hget, ItemCall.advance, hstage, hone, if_pos]
    have hsame : (s.step (.advance i)).item = item := by
      rw [hstep, h.item, ← hitem]
    refine ⟨hsame, claimable_of_state ?_⟩
    rw [hsame, hitem]

end Reservation

/-- **Calls on a reservation**, however they interleave and whatever they come to. -/
theorem reservation_guarded (shared : Shared) (generation : UInt64) (route : String)
    (id token : UInt64) (body : Bytes) (es : List ItemEvent) :
    Reservation.Guarded ⟨generation, route, id, token, body, 0⟩
      (run Reservation.step (.start shared generation route id token body) es) := by
  have hstart := Reservation.reservationInv_start shared generation route id token body
  exact Reservation.guarded_of_inv (run_inv Reservation.reservationInv_step hstart es) rfl

/-- A call runs up to its request. -/
def claimRun (i : ℕ) : List ItemEvent := .call .complete :: List.replicate 5 (.advance i)

/-- A completion that the broker has no room for, one that it takes, and one too many. -/
example : (run Reservation.step
    (.start (Conn.new ⟨4, ⟨true, 0⟩⟩).shared 0 "queue://realm/app/jobs" 7 11 [])
      (claimRun 0 ++ [.answer 0 (.ok (1 :: putU16 4005 ++ 5 :: 0 :: putString "")), .advance 0] ++
        claimRun 1 ++ [.answer 1 (.ok [0]), .advance 1, .advance 1] ++ claimRun 2)).calls =
      [⟨.complete, .returned (.error (.domainWire 4005 5 0 ""))⟩,
        ⟨.complete, .returned (.ok ())⟩, ⟨.complete, .returned (.error .staleHandle)⟩] := by
  decide +kernel

end Fitz
