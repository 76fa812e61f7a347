import Fitz.Model.Polling

/-!
# Streams without gaps

A subscription stream reports that its receiver lagged and stays open, so the next poll
goes on behind the gap. `polls_gapless`: in every run in which an open stream is not
polled after that report, and each entry is compared with the wire id of the session it
came on, the stream yields the first of its notifications without a gap, then at most
the one error, and then nothing but the end.
-/

namespace Fitz

open Machine

variable {json : Bytes → Except String DecodedStreamNotifyPayload} {s : SubscriptionStream}
  {e : PollEvent}

/-! ## The law -/

/-- What a notification is decoded to. -/
def Published.item (json : Bytes → Except String DecodedStreamNotifyPayload) (topic : Topic)
    (entry : Published) : Result Notification :=
  Decode.on (do let _ ← getU64; topic.item json) entry.payload

/-- The notifications of the registration. -/
def notificationsOf (json : Bytes → Except String DecodedStreamNotifyPayload) (topic : Topic)
    (published : List Published) : List (Result Notification) :=
  (published.filter (·.own)).map (·.item json topic)

/-- The entry names the wire id, or none. -/
def ItemPoll.isReady : ItemPoll → Bool
  | .skipped => false
  | .ready _ => true

namespace SubscriptionStream

/-- The stream yielded the first of its notifications, and then the end, or one error
and the end. -/
def Gapless (json : Bytes → Except String DecodedStreamNotifyPayload)
    (s : SubscriptionStream) : Prop :=
  ∃ k n, s.polled = ((notificationsOf json s.topic s.published).take k).map .item ++
        List.replicate n .ended ∨
      s.polled = ((notificationsOf json s.topic s.published).take k).map .item ++
        .overflow s.topic.overflow :: List.replicate n .ended

/-- It has reported that its receiver lagged. -/
def overflown (s : SubscriptionStream) : Bool := s.polled.any fun
  | .overflow _ => true
  | _ => false

/-- The pass takes an entry: neither is the stream closed, nor has the receiver lagged. -/
def taken (s : SubscriptionStream) : Option Published :=
  if s.closed ∧ ¬s.looping ∨ s.published.length - s.next > notificationCapacity then none
  else s.published[s.next]?

/-- The stream is not polled after the error unless it is closed, and an entry that is
taken is the registration's exactly if it names its wire id. -/
def Attentive (json : Bytes → Except String DecodedStreamNotifyPayload)
    (s : SubscriptionStream) (e : PollEvent) : Prop :=
  e = .poll → (s.overflown = true → s.closed = true ∧ s.looping = false) ∧
    ∀ entry ∈ s.taken, (pollItem json s.topic s.wireId entry.payload).isReady = entry.own

instance : ∀ (s : SubscriptionStream) (e : PollEvent), Decidable (s.Attentive json e) :=
  fun s e => inferInstanceAs (Decidable (e = .poll →
    (s.overflown = true → s.closed = true ∧ s.looping = false) ∧
      ∀ entry ∈ s.taken, (pollItem json s.topic s.wireId entry.payload).isReady = entry.own))

/-! ## The invariant -/

/-- The end, once reached. -/
def spent (s : SubscriptionStream) : Prop :=
  (s.closed = true ∧ s.looping = false) ∨ (s.hungUp = true ∧ s.published.length ≤ s.next)

structure GapInv (json : Bytes → Except String DecodedStreamNotifyPayload)
    (s : SubscriptionStream) : Prop where
  read : s.next ≤ s.published.length
  /-- all that was read was yielded -/
  yielded : s.overflown = false → ∃ n, (0 < n → s.spent) ∧
    s.polled = (notificationsOf json s.topic (s.published.take s.next)).map .item ++
      List.replicate n .ended
  overflow : s.overflown = true → ∃ k n,
    s.polled = ((notificationsOf json s.topic s.published).take k).map .item ++
      .overflow s.topic.overflow :: List.replicate n .ended

theorem gapInv_start (topic : Topic) (wireId : UInt64) : GapInv json (start topic wireId) where
  read := le_rfl
  yielded := fun _ => ⟨0, by simp, rfl⟩
  overflow := by simp [start, overflown]

theorem notificationsOf_append (topic : Topic) (l l' : List Published) :
    notificationsOf json topic (l ++ l') =
      notificationsOf json topic l ++ notificationsOf json topic l' := by
  simp [notificationsOf]

/-- What comes first in the channel comes first of the notifications. -/
theorem notificationsOf_take (topic : Topic) (l : List Published) (n : ℕ) :
    notificationsOf json topic (l.take n) = (notificationsOf json topic l).take
      (notificationsOf json topic (l.take n)).length := by
  have hsplit : notificationsOf json topic l =
      notificationsOf json topic (l.take n) ++ notificationsOf json topic (l.drop n) := by
    rw [← notificationsOf_append, List.take_append_drop]
  rw [hsplit, List.take_left']
  rfl

theorem GapInv.gapless (h : GapInv json s) : s.Gapless json := by
  cases ho : s.overflown with
  | false =>
    obtain ⟨n, -, heq⟩ := h.yielded ho
    refine ⟨(notificationsOf json s.topic (s.published.take s.next)).length, n, .inl ?_⟩
    rw [heq, ← notificationsOf_take]
  | true =>
    obtain ⟨k, n, heq⟩ := h.overflow ho
    exact ⟨k, n, .inr heq⟩

/-- An entry for the registration is decoded to its item. -/
theorem item_of_ready {topic : Topic} {wireId : UInt64} {entry : Published}
    {item : Result Notification} (h : pollItem json topic wireId entry.payload = .ready item) :
    item = entry.item json topic := by
  unfold pollItem at h
  unfold Published.item
  cases hid : getU64.run (.new entry.payload) with
  | error error =>
    have hon : getU64.on entry.payload = .error error := by
      simp only [Decode.on, hid, bind, Except.bind]
    simp only [hon, ItemPoll.ready.injEq] at h
    rw [Decode.on, StateT.run_bind, hid]
    exact h.symm
  | ok p =>
    have hon : getU64.on entry.payload = .ok p.1 := by
      simp only [Decode.on, hid, bind, Except.bind, pure, Except.pure]
    simp only [hon] at h
    split at h
    · cases h
    · simpa using h.symm

/-! ## Steps -/

theorem overflown_concat (polled : List StreamPolled) (p : StreamPolled) :
    (polled ++ [p]).any (fun | .overflow _ => true | _ => false) =
      (polled.any (fun | .overflow _ => true | _ => false) ||
        match p with | .overflow _ => true | _ => false) := by
  simp

/-- The end is reported. -/
theorem GapInv.ended (h : GapInv json s) (hover : s.spent)
    (hsame : s.looping = false ∨ s.hungUp = true ∧ s.published.length ≤ s.next) :
    GapInv json (s.yield s.next .ended) := by
  have hover' : (s.yield s.next .ended).spent := by
    rcases hsame with hl | hu
    · rcases hover with ⟨hc, -⟩ | hu
      · exact .inl ⟨hc, rfl⟩
      · exact .inr hu
    · exact .inr hu
  refine ⟨h.read, fun ho => ?_, fun ho => ?_⟩
  · have ho' : s.overflown = false := by
      simpa [overflown, yield, overflown_concat] using ho
    obtain ⟨n, -, heq⟩ := h.yielded ho'
    refine ⟨n + 1, fun _ => hover', ?_⟩
    simp only [yield, heq, List.append_assoc, List.replicate_succ']
  · have ho' : s.overflown = true := by
      simpa [overflown, yield, overflown_concat] using ho
    obtain ⟨k, n, heq⟩ := h.overflow ho'
    refine ⟨k, n + 1, ?_⟩
    simp only [yield, heq, List.append_assoc, List.cons_append, List.replicate_succ']

/-- Nothing was reported to have ended while there is more to read. -/
theorem GapInv.not_ended (h : GapInv json s) (ho : s.overflown = false)
    (hopen : ¬(s.closed = true ∧ ¬s.looping = true)) (hmore : s.next < s.published.length) :
    s.polled = (notificationsOf json s.topic (s.published.take s.next)).map .item := by
  obtain ⟨n, hover, heq⟩ := h.yielded ho
  rcases Nat.eq_zero_or_pos n with rfl | hpos
  · simpa using heq
  · rcases hover hpos with ⟨hc, hl⟩ | ⟨-, hle⟩
    · exact absurd ⟨hc, by simp [hl]⟩ hopen
    · omega

/-- **One pass keeps the invariant.** -/
theorem gapInv_poll (h : GapInv json s) (hattentive : s.Attentive json .poll) :
    GapInv json (s.poll json) := by
  obtain ⟨hquiet, hown⟩ := hattentive rfl
  unfold poll
  split
  · rename_i hclosed
    have hl : s.looping = false := by simpa using hclosed.2
    exact h.ended (.inl ⟨hclosed.1, hl⟩) (.inl hl)
  · rename_i hopen
    have ho : s.overflown = false := by
      cases ho : s.overflown with
      | false => rfl
      | true =>
        obtain ⟨hc, hl⟩ := hquiet ho
        exact absurd ⟨hc, by simp [hl]⟩ hopen
    split
    · -- the receiver lagged: the first error
      rename_i hlag
      have heq := h.not_ended ho hopen (by omega)
      refine ⟨by simp only [yield]; omega, fun ho' => ?_, fun _ => ?_⟩
      · simp [overflown, yield] at ho'
      · refine ⟨(notificationsOf json s.topic (s.published.take s.next)).length, 0, ?_⟩
        simp only [yield, heq, List.replicate_zero]
        rw [← notificationsOf_take]
    · rename_i hlag
      split
      · rename_i hnone
        have hread : s.published.length ≤ s.next := List.getElem?_eq_none_iff.1 hnone
        split
        · rename_i hhung
          exact h.ended (.inr ⟨hhung, hread⟩) (.inr ⟨hhung, hread⟩)
        · rename_i hhung
          refine ⟨h.read, fun ho' => ?_, h.overflow⟩
          obtain ⟨n, hover, heq⟩ := h.yielded ho'
          refine ⟨n, fun hpos => ?_, heq⟩
          rcases hover hpos with ⟨hc, hl⟩ | ⟨hu, -⟩
          · exact absurd ⟨hc, by simp [hl]⟩ hopen
          · exact absurd hu hhung
      · rename_i entry hentry
        have hlt : s.next < s.published.length := (List.getElem?_eq_some_iff.1 hentry).1
        have heq := h.not_ended ho hopen hlt
        have htaken : s.taken = some entry := by
          unfold taken
          rw [if_neg (by tauto)]
          exact hentry
        have hread : notificationsOf json s.topic (s.published.take (s.next + 1)) =
            notificationsOf json s.topic (s.published.take s.next) ++
              if entry.own then [entry.item json s.topic] else [] := by
          rw [List.take_add_one, hentry, notificationsOf_append]
          cases ho : entry.own <;> simp [notificationsOf, ho]
        have hmine := hown entry htaken
        split
        · -- an entry for another registration
          rename_i hskip
          have hno : entry.own = false := by
            rw [← hmine, hskip]
            rfl
          refine ⟨hlt, fun _ => ⟨0, by simp, ?_⟩, fun ho' => ?_⟩
          · simp [heq, hread, hno]
          · exact absurd (show s.overflown = true from ho') (by simp [ho])
        · rename_i item hitem
          have hyes : entry.own = true := by
            rw [← hmine, hitem]
            rfl
          refine ⟨hlt, fun _ => ⟨0, by simp, ?_⟩, fun ho' => ?_⟩
          · simp [yield, heq, hread, hyes, item_of_ready hitem]
          · have hov : s.overflown = true := by
              simpa [overflown, yield, overflown_concat] using ho'
            exact absurd hov (by simp [ho])

theorem gapInv_step (s : SubscriptionStream) (e : PollEvent) (h : GapInv json s)
    (hattentive : s.Attentive json e) : GapInv json (s.step json e) := by
  cases e with
  | publish payload own =>
    simp only [step]
    split
    · exact h
    · rename_i hhung
      refine ⟨h.read.trans (by simp), fun ho => ?_, fun ho => ?_⟩
      · obtain ⟨n, hover, heq⟩ := h.yielded ho
        refine ⟨n, fun hpos => ?_, ?_⟩
        · rcases hover hpos with hc | ⟨hu, -⟩
          · exact .inl hc
          · exact absurd hu hhung
        · simp only [List.take_append_of_le_length h.read]
          exact heq
      · obtain ⟨k, n, heq⟩ := h.overflow ho
        -- the error came after `k` of the notifications there were then
        refine ⟨min k (notificationsOf json s.topic s.published).length, n, ?_⟩
        simp only [notificationsOf_append]
        rw [List.take_append_of_le_length (Nat.min_le_right _ _), ← List.take_eq_take_min]
        exact heq
  | rebind wireId => exact ⟨h.read, h.yielded, h.overflow⟩
  | hangup =>
    refine ⟨h.read, fun ho => ?_, h.overflow⟩
    obtain ⟨n, hover, heq⟩ := h.yielded ho
    exact ⟨n, fun hpos => (hover hpos).imp id fun hu => ⟨rfl, hu.2⟩, heq⟩
  | close =>
    refine ⟨h.read, fun ho => ?_, h.overflow⟩
    obtain ⟨n, hover, heq⟩ := h.yielded ho
    exact ⟨n, fun hpos => (hover hpos).imp (fun hc => ⟨rfl, hc.2⟩) id, heq⟩
  | poll => exact gapInv_poll h hattentive

end SubscriptionStream

open SubscriptionStream in
/-- **No silent gap.** In every run in which an open stream is not polled after it
reported an overflow, and each entry it takes is the registration's exactly if it names
the wire id, the stream is gapless. -/
theorem polls_gapless (json : Bytes → Except String DecodedStreamNotifyPayload) (topic : Topic)
    (wireId : UInt64) (es : List PollEvent)
    (h : Along (SubscriptionStream.step json) (Attentive json) (start topic wireId) es) :
    (run (SubscriptionStream.step json) (start topic wireId) es).Gapless json :=
  (along_inv gapInv_step (gapInv_start topic wireId) h).gapless

/-! ## Runs -/

/-- Four notifications of two registrations, read as they come. -/
def keptUp : List PollEvent :=
  [.publish (putU64 7 ++ putString "lease://r/a/s") true,
    .publish (putU64 8 ++ putString "lease://r/b/s") false, .poll, .poll,
    .publish (putU64 7 ++ putString "lease://r/a/t") true, .poll, .poll, .close, .poll]

theorem polls_gapless_kept :
    (run (SubscriptionStream.step fun _ => .error "") (.start .lease 7) keptUp).polled =
        [.item (.ok (.lease "lease://r/a/s")), .item (.ok (.lease "lease://r/a/t")), .ended] ∧
      (run (SubscriptionStream.step fun _ => .error "") (.start .lease 7) keptUp).Gapless
        fun _ => .error "" :=
  ⟨by decide +kernel, polls_gapless (fun _ => .error "") .lease 7 keptUp (by decide +kernel)⟩

/-- More notifications than the channel holds, and two polls. -/
def fallenBehind : List PollEvent :=
  .publish (putU64 7 ++ putString "lease://r/a/s") true ::
    List.replicate 64 (.publish (putU64 7 ++ putString "lease://r/a/t") true) ++ [.poll, .poll]

/-- The stream goes on behind the gap. -/
theorem polled_after_overflow :
    (run (SubscriptionStream.step fun _ => .error "") (.start .lease 7) fallenBehind).polled =
        [.overflow (.backpressure "Lease subscription buffer is full"),
          .item (.ok (.lease "lease://r/a/t"))] ∧
      ¬(run (SubscriptionStream.step fun _ => .error "") (.start .lease 7) fallenBehind).Gapless
        fun _ => .error "" := by
  have hpolled : (run (SubscriptionStream.step fun _ => .error "") (.start .lease 7)
      fallenBehind).polled = [.overflow (.backpressure "Lease subscription buffer is full"),
        .item (.ok (.lease "lease://r/a/t"))] := by decide +kernel
  refine ⟨hpolled, ?_⟩
  rintro ⟨k, n, hgap | hgap⟩
  all_goals
    rw [hpolled] at hgap
    generalize List.take k _ = items at hgap
    cases items with
    | nil => cases n <;> simp [List.replicate_succ] at hgap
    | cons item items => simp at hgap

end Fitz
