import Fitz.Lib.Outputs
import Fitz.Proof.Calls
import Fitz.Proof.Polling

/-!
# What a subscription delivers

`notifications_delivered`: in every run of a subscription stream, however it is polled,
rebound and closed, the items it yields are those of the notifications it took for the wire
id of the moment, in the order of their publication and each at most once, with none left
out unless it reported an overflow. A payload is an item exactly if it is the wire id and
the notification behind it.
-/

namespace Fitz

open Framing Machine

variable {json : Bytes → Except String DecodedStreamNotifyPayload}

/-! ## The format of a notification -/

namespace Notification

def topic : Notification → Topic
  | .kv .. => .kv
  | .queue .. => .queue
  | .lease _ => .lease
  | .notice .. => .notice
  | .stream .. => .stream
  | .schedule .. => .schedule

/-- The payload behind the subscription id. -/
def bytes : Notification → Bytes
  | .kv route mutationCount => putString route ++ putU64 mutationCount
  | .lease route => putString route
  | .queue route payload | .notice route payload | .stream route _ payload
  | .schedule route payload => putString route ++ putBytes payload

/-- The format can hold the fields, and the body of a stream notification says what it was
parsed to. -/
def Fits (json : Bytes → Except String DecodedStreamNotifyPayload) : Notification → Prop
  | .kv route _ | .lease route => route.toUTF8.toList.length < 2 ^ 32
  | .queue route payload | .notice route payload | .schedule route payload =>
    route.toUTF8.toList.length < 2 ^ 32 ∧ payload.length < 2 ^ 32
  | .stream route parsed payload =>
    route.toUTF8.toList.length < 2 ^ 32 ∧ payload.length < 2 ^ 32 ∧ json payload = .ok parsed

end Notification

/-- What is left of the payload behind its subscription id holds the notification. Only the
queue asks that it holds nothing more. -/
def Topic.Holds (json : Bytes → Except String DecodedStreamNotifyPayload) (topic : Topic)
    (n : Notification) (rest : Bytes) : Prop :=
  n.topic = topic ∧ n.Fits json ∧ ∃ more, rest = n.bytes ++ more ∧ (topic = .queue → more = [])

/-- A route and a byte string, of which an item is made. -/
theorem restReads_routed {make : String → Bytes → Notification} :
    RestReads (do return make (← getString) (← getBytes)) fun n rest =>
      ∃ route payload more, route.toUTF8.toList.length < 2 ^ 32 ∧ payload.length < 2 ^ 32 ∧
        n = make route payload ∧ rest = putString route ++ putBytes payload ++ more := by
  refine (RestReads.after reads_getString fun route => RestReads.after reads_getBytes fun payload =>
    RestReads.pure (make route payload)).congr fun n rest => ?_
  constructor
  · rintro ⟨route, _, _, ⟨rfl, hroute⟩, ⟨payload, _, more, ⟨rfl, hpayload⟩, rfl, rfl⟩, rfl⟩
    exact ⟨route, payload, more, hroute, hpayload, rfl, (List.append_assoc _ _ _).symm⟩
  · rintro ⟨route, payload, more, hroute, hpayload, rfl, rfl⟩
    exact ⟨route, _, _, ⟨rfl, hroute⟩, ⟨payload, _, more, ⟨rfl, hpayload⟩, rfl, rfl⟩,
      List.append_assoc _ _ _⟩

/-- An item that is its route and a byte string. -/
theorem restReads_pair {make : String → Bytes → Notification} {topic : Topic} (hqueue : topic ≠ .queue)
    (hmake : ∀ n : Notification, n.topic = topic ∧ n.Fits json ↔ ∃ route payload,
      route.toUTF8.toList.length < 2 ^ 32 ∧ payload.length < 2 ^ 32 ∧ n = make route payload)
    (hbytes : ∀ route payload, (make route payload).bytes = putString route ++ putBytes payload) :
    RestReads (do return make (← getString) (← getBytes)) (topic.Holds json) := by
  refine restReads_routed.congr fun n rest => ?_
  constructor
  · rintro ⟨route, payload, more, hroute, hpayload, rfl, rfl⟩
    obtain ⟨htopic, hfits⟩ := (hmake _).2 ⟨route, payload, hroute, hpayload, rfl⟩
    exact ⟨htopic, hfits, more, by rw [hbytes], fun heq => absurd heq hqueue⟩
  · rintro ⟨htopic, hfits, more, rfl, -⟩
    obtain ⟨route, payload, hroute, hpayload, rfl⟩ := (hmake n).1 ⟨htopic, hfits⟩
    exact ⟨route, payload, more, hroute, hpayload, rfl, by rw [hbytes]⟩

theorem restReads_item (json : Bytes → Except String DecodedStreamNotifyPayload) (topic : Topic) :
    RestReads (topic.item json) (topic.Holds json) := by
  cases topic with
  | kv =>
    refine (RestReads.after reads_getString fun route => RestReads.after reads_getU64 fun count =>
      RestReads.pure (Notification.kv route count)).congr fun n rest => ?_
    constructor
    · rintro ⟨route, _, _, ⟨rfl, hroute⟩, ⟨count, _, more, rfl, rfl, rfl⟩, rfl⟩
      exact ⟨rfl, hroute, more, (List.append_assoc _ _ _).symm, by simp⟩
    · rintro ⟨htopic, hfits, more, rfl, -⟩
      cases n with
      | kv route count =>
        exact ⟨route, _, _, ⟨rfl, hfits⟩, ⟨count, _, more, rfl, rfl, rfl⟩, List.append_assoc _ _ _⟩
      | _ => cases htopic
  | queue =>
    refine (RestReads.after reads_getString fun route => RestReads.after reads_getBytes fun payload =>
      RestReads.checked (Notification.queue route payload) _ fun empty => (!empty) = true).congr
        fun n rest => ?_
    constructor
    · rintro ⟨route, _, _, ⟨rfl, hroute⟩, ⟨payload, _, more, ⟨rfl, hpayload⟩, ⟨rfl, hempty⟩, rfl⟩, rfl⟩
      have hnil : more = [] := by simpa using hempty
      exact ⟨rfl, ⟨hroute, hpayload⟩, more, (List.append_assoc _ _ _).symm, fun _ => hnil⟩
    · rintro ⟨htopic, hfits, more, rfl, hmore⟩
      obtain rfl := hmore rfl
      cases n with
      | queue route payload =>
        exact ⟨route, _, _, ⟨rfl, hfits.1⟩, ⟨payload, _, [], ⟨rfl, hfits.2⟩, ⟨rfl, by simp⟩, rfl⟩,
          List.append_assoc _ _ _⟩
      | _ => cases htopic
  | lease =>
    refine (RestReads.after reads_getString fun route => RestReads.pure (Notification.lease route)).congr
      fun n rest => ?_
    constructor
    · rintro ⟨route, _, more, ⟨rfl, hroute⟩, rfl, rfl⟩
      exact ⟨rfl, hroute, more, rfl, by simp⟩
    · rintro ⟨htopic, hfits, more, rfl, -⟩
      cases n with
      | lease route => exact ⟨route, _, more, ⟨rfl, hfits⟩, rfl, rfl⟩
      | _ => cases htopic
  | notice =>
    refine restReads_pair (by simp) (fun n => ?_) fun _ _ => rfl
    cases n <;> simp [Notification.topic, Notification.Fits]
  | stream =>
    refine (RestReads.after reads_getString fun route => RestReads.after reads_getBytes fun payload =>
      (?_ : RestReads _ fun n rest => ∃ parsed, json payload = .ok parsed ∧
        n = .stream route parsed payload)).congr fun n rest => ?_
    · cases hjson : json payload with
      | ok parsed => exact (RestReads.pure (Notification.stream route parsed payload)).congr (by simp)
      | error error => exact (RestReads.throw _).congr (by simp)
    · constructor
      · rintro ⟨route, _, _, ⟨rfl, hroute⟩,
          ⟨payload, _, more, ⟨rfl, hpayload⟩, ⟨parsed, hjson, rfl⟩, rfl⟩, rfl⟩
        exact ⟨rfl, ⟨hroute, hpayload, hjson⟩, more, (List.append_assoc _ _ _).symm, by simp⟩
      · rintro ⟨htopic, hfits, more, rfl, -⟩
        cases n with
        | stream route parsed payload =>
          exact ⟨route, _, _, ⟨rfl, hfits.1⟩,
            ⟨payload, _, more, ⟨rfl, hfits.2.1⟩, ⟨parsed, hfits.2.2, rfl⟩, rfl⟩,
            List.append_assoc _ _ _⟩
        | _ => cases htopic
  | schedule =>
    refine restReads_pair (by simp) (fun n => ?_) fun _ _ => rfl
    cases n <;> simp [Notification.topic, Notification.Fits]

theorem getU64_iff {payload : Bytes} {id : UInt64} :
    getU64.on payload = .ok id ↔ ∃ rest, payload = putU64 id ++ rest := by
  rw [Reads.on_iff reads_getU64]
  constructor
  · rintro ⟨_, rfl, rest, hrest⟩
    exact ⟨rest, hrest.symm⟩
  · rintro ⟨rest, rfl⟩
    exact ⟨_, rfl, List.prefix_append _ _⟩

/-- What the loop of `poll_next` makes of a payload: nothing, if it is for another wire id. -/
def received (json : Bytes → Except String DecodedStreamNotifyPayload) (topic : Topic)
    (wireId : UInt64) (payload : Bytes) : Option (Result Notification) :=
  match pollItem json topic wireId payload with
  | .skipped => none
  | .ready item => some item

theorem received_short {topic : Topic} {wireId : UInt64} {payload : Bytes} {error : FitzError}
    (hid : getU64.on payload = .error error) :
    received json topic wireId payload = some (.error error) := by
  unfold received pollItem
  rw [hid]

theorem received_other {topic : Topic} {wireId id : UInt64} {payload : Bytes}
    (hid : getU64.on payload = .ok id) (hne : id ≠ wireId) :
    received json topic wireId payload = none := by
  unfold received pollItem
  rw [hid]
  dsimp only
  rw [if_pos hne]

theorem received_own {topic : Topic} {wireId : UInt64} {payload : Bytes}
    (hid : getU64.on payload = .ok wireId) :
    received json topic wireId payload =
      some (Decode.on (do let _ ← getU64; topic.item json) payload) := by
  unfold received pollItem
  rw [hid]
  dsimp only
  rw [if_neg (not_not.2 rfl)]

/-- A payload is passed over exactly if it is for another wire id. -/
theorem received_none_iff {topic : Topic} {wireId : UInt64} {payload : Bytes} :
    received json topic wireId payload = none ↔
      ∃ id rest, id ≠ wireId ∧ payload = putU64 id ++ rest := by
  constructor
  · intro hnone
    cases hid : getU64.on payload with
    | error error =>
      rw [received_short hid] at hnone
      cases hnone
    | ok id =>
      obtain ⟨rest, hpayload⟩ := getU64_iff.1 hid
      refine ⟨id, rest, ?_, hpayload⟩
      rintro rfl
      rw [received_own hid] at hnone
      cases hnone
  · rintro ⟨id, rest, hne, hpayload⟩
    exact received_other (getU64_iff.2 ⟨rest, hpayload⟩) hne

/-- **A payload is an item exactly if it is the wire id and the notification.** -/
theorem received_ok_iff {topic : Topic} {wireId : UInt64} {payload : Bytes} {n : Notification} :
    received json topic wireId payload = some (.ok n) ↔
      ∃ rest, payload = putU64 wireId ++ rest ∧ topic.Holds json n rest := by
  have hread := RestReads.after reads_getU64 fun _ => restReads_item json topic
  constructor
  · intro hsome
    cases hid : getU64.on payload with
    | error error =>
      rw [received_short hid] at hsome
      cases hsome
    | ok id =>
      obtain rfl | hne := eq_or_ne id wireId
      · rw [received_own hid, Option.some.injEq, hread.on_iff] at hsome
        obtain ⟨id', _, rest, rfl, hholds, hpayload⟩ := hsome
        rw [getU64_iff.2 ⟨rest, hpayload⟩] at hid
        obtain rfl := Except.ok.inj hid
        exact ⟨rest, hpayload, hholds⟩
      · rw [received_other hid hne] at hsome
        cases hsome
  · rintro ⟨rest, hpayload, hholds⟩
    rw [received_own (getU64_iff.2 ⟨rest, hpayload⟩), Option.some.injEq, hread.on_iff]
    exact ⟨wireId, _, rest, rfl, hholds, hpayload⟩

/-- What a broker sends for a registration. -/
structure Announcement where
  wireId : UInt64
  notification : Notification

def Announcement.payload (m : Announcement) : Bytes := putU64 m.wireId ++ m.notification.bytes

theorem received_payload {topic : Topic} (wireId : UInt64) {m : Announcement}
    (htopic : m.notification.topic = topic)
    (hfits : m.notification.Fits json) :
    received json topic wireId m.payload =
      if m.wireId = wireId then some (.ok m.notification) else none := by
  split
  · rename_i heq
    rw [received_ok_iff]
    have hbytes : m.payload = putU64 wireId ++ m.notification.bytes := by
      rw [Announcement.payload, heq]
    exact ⟨m.notification.bytes, hbytes, htopic, hfits, [], (List.append_nil _).symm, fun _ => rfl⟩
  · rename_i hne
    exact received_none_iff.2 ⟨m.wireId, _, hne, rfl⟩

/-! ## The stream -/

def StreamPolled.item? : StreamPolled → Option (Result Notification)
  | .item result => some result
  | _ => none

namespace SubscriptionStream

variable {s : SubscriptionStream} {topic : Topic}

/-- The payload that a poll takes, with the wire id it compares. -/
def takes (s : SubscriptionStream) : PollEvent → List (UInt64 × Bytes)
  | .poll => s.taken.toList.map fun entry => (s.wireId, entry.payload)
  | _ => []

/-- What was taken so far is what was published so far, but for the entries an overflow
skipped, and what was yielded of it are its items. -/
structure TakenInv (json : Bytes → Except String DecodedStreamNotifyPayload) (topic : Topic)
    (took : List (UInt64 × Bytes)) (s : SubscriptionStream) : Prop where
  about : s.topic = topic
  read : s.next ≤ s.published.length
  items : s.polled.filterMap StreamPolled.item? =
    took.filterMap fun t => received json topic t.1 t.2
  order : (took.map Prod.snd).Sublist ((s.published.take s.next).map (·.payload))
  whole : s.overflown = false →
    took.map Prod.snd = (s.published.take s.next).map (·.payload)

theorem takenInv_start (wireId : UInt64) : TakenInv json topic [] (start topic wireId) where
  about := rfl
  read := le_rfl
  items := rfl
  order := List.Sublist.refl _
  whole := fun _ => rfl

/-- Nothing is taken, and nothing of it yielded. -/
theorem TakenInv.stay {took : List (UInt64 × Bytes)} (h : TakenInv json topic took s)
    {s' : SubscriptionStream} {polled : List StreamPolled} (htopic : s'.topic = s.topic)
    (hpublished : s.published <+: s'.published) (hread : s'.next ≤ s'.published.length)
    (hnext : s.next ≤ s'.next) (hpolled : s'.polled = s.polled ++ polled)
    (hitems : polled.filterMap StreamPolled.item? = [])
    (hover : s'.overflown = false → s.overflown = false ∧ s'.next = s.next) :
    TakenInv json topic (took ++ []) s' := by
  obtain ⟨more, hmore⟩ := hpublished
  have htake : s'.published.take s.next = s.published.take s.next := by
    rw [← hmore, List.take_append_of_le_length h.read]
  rw [List.append_nil]
  refine ⟨htopic.trans h.about, hread, ?_, ?_, fun hnone => ?_⟩
  · rw [hpolled, List.filterMap_append, hitems, List.append_nil, h.items]
  · refine h.order.trans (List.Sublist.map _ ?_)
    rw [← htake]
    exact (List.take_prefix_take_left hnext).sublist
  · obtain ⟨hbefore, heq⟩ := hover hnone
    rw [h.whole hbefore, heq, htake]

/-- An entry is taken, and what is yielded is its item. -/
theorem TakenInv.take {took : List (UInt64 × Bytes)} (h : TakenInv json topic took s)
    {s' : SubscriptionStream} {entry : Published} {polled : List StreamPolled}
    (hentry : s.published[s.next]? = some entry) (htopic : s'.topic = s.topic)
    (hpublished : s'.published = s.published) (hnext : s'.next = s.next + 1)
    (hpolled : s'.polled = s.polled ++ polled)
    (hitems : polled.filterMap StreamPolled.item? =
      (received json s.topic s.wireId entry.payload).toList)
    (hover : s'.overflown = s.overflown) :
    TakenInv json topic (took ++ [(s.wireId, entry.payload)]) s' := by
  have hlt : s.next < s.published.length := (List.getElem?_eq_some_iff.1 hentry).1
  have htake : (s.published.take (s.next + 1)).map (·.payload) =
      (s.published.take s.next).map (·.payload) ++ [entry.payload] := by
    rw [List.take_add_one, hentry, List.map_append]
    rfl
  refine ⟨htopic.trans h.about, ?_, ?_, ?_, fun hnone => ?_⟩
  · rw [hpublished, hnext]
    exact hlt
  · rw [hpolled, List.filterMap_append, List.filterMap_append, h.items, hitems, h.about]
    simp only [List.filterMap_cons, List.filterMap_nil]
    cases received json topic s.wireId entry.payload <;> rfl
  · rw [hpublished, hnext, htake, List.map_append]
    exact h.order.append (List.Sublist.refl _)
  · rw [hpublished, hnext, htake, List.map_append, h.whole (hover ▸ hnone)]
    rfl

/-- **One pass of the loop.** -/
theorem TakenInv.poll {took : List (UInt64 × Bytes)} (h : TakenInv json topic took s) :
    TakenInv json topic (took ++ s.takes .poll) (s.poll json) := by
  have hended : TakenInv json topic (took ++ []) (s.yield s.next .ended) := by
    refine h.stay rfl (List.prefix_refl _) h.read le_rfl rfl rfl fun hnone => ⟨?_, rfl⟩
    simpa [overflown, yield] using hnone
  by_cases hclosed : s.closed = true ∧ ¬s.looping = true
  · have htakes : s.takes .poll = [] := by simp [takes, taken, hclosed]
    rw [htakes, SubscriptionStream.poll, if_pos hclosed]
    exact hended
  by_cases hlag : s.published.length - s.next > notificationCapacity
  · have htakes : s.takes .poll = [] := by simp [takes, taken, hlag]
    rw [htakes, SubscriptionStream.poll, if_neg hclosed, if_pos hlag]
    refine h.stay rfl (List.prefix_refl _) (Nat.sub_le _ _) ?_ rfl rfl fun hnone => ?_
    · change s.next ≤ s.published.length - notificationCapacity
      omega
    · simp [overflown, yield] at hnone
  have htaken : s.taken = s.published[s.next]? := by
    unfold taken
    exact if_neg (by tauto)
  rw [SubscriptionStream.poll, if_neg hclosed, if_neg hlag, takes, htaken]
  cases hentry : s.published[s.next]? with
  | none =>
    dsimp only [Option.toList_none, List.map_nil]
    split
    · exact hended
    · refine h.stay rfl (List.prefix_refl _) h.read le_rfl (List.append_nil _).symm rfl
        fun hnone => ⟨hnone, rfl⟩
  | some entry =>
    have hreceived : received json s.topic s.wireId entry.payload =
        match pollItem json s.topic s.wireId entry.payload with
        | .skipped => none
        | .ready item => some item := rfl
    dsimp only [Option.toList_some, List.map_cons, List.map_nil]
    cases hitem : pollItem json s.topic s.wireId entry.payload with
    | skipped =>
      rw [hitem] at hreceived
      refine h.take hentry rfl rfl rfl (List.append_nil _).symm ?_ rfl
      rw [hreceived]
      rfl
    | ready item =>
      rw [hitem] at hreceived
      refine h.take hentry rfl rfl rfl rfl ?_ ?_
      · rw [hreceived]
        rfl
      · simp [overflown, yield]

theorem takenInv_step (took : List (UInt64 × Bytes)) (s : SubscriptionStream) (e : PollEvent)
    (h : TakenInv json topic took s) : TakenInv json topic (took ++ s.takes e) (s.step json e) := by
  cases e with
  | publish payload own =>
    simp only [step, takes]
    split
    · exact h.stay rfl (List.prefix_refl _) h.read le_rfl (List.append_nil _).symm rfl
        fun hnone => ⟨hnone, rfl⟩
    · refine h.stay rfl (List.prefix_append _ _) ?_ le_rfl (List.append_nil _).symm rfl
        fun hnone => ⟨hnone, rfl⟩
      rw [List.length_append]
      exact h.read.trans (Nat.le_add_right _ _)
  | rebind | hangup | close =>
    exact h.stay rfl (List.prefix_refl _) h.read le_rfl (List.append_nil _).symm rfl
      fun hnone => ⟨hnone, rfl⟩
  | poll => exact h.poll

/-- Where no restore stores another wire id, every entry is compared with the first one. -/
theorem takes_wireId {wireId : UInt64} {es : List PollEvent} (hbound : ∀ id, .rebind id ∉ es)
    {s : SubscriptionStream} (hs : s.wireId = wireId) :
    ∀ t ∈ outputs (step json) takes s es, t.1 = wireId := by
  induction es generalizing s with
  | nil => exact fun t ht => absurd ht List.not_mem_nil
  | cons e es ih =>
    have hrest : ∀ id, .rebind id ∉ es := fun id hin => hbound id (List.mem_cons_of_mem _ hin)
    have hnext : (s.step json e).wireId = wireId := by
      cases e with
      | rebind id => exact absurd List.mem_cons_self (hbound id)
      | publish payload own =>
        simp only [step]
        split <;> exact hs
      | hangup | close => exact hs
      | poll =>
        simp only [step, SubscriptionStream.poll]
        repeat' split
        all_goals exact hs
    intro t ht
    rcases List.mem_append.1 ht with ht | ht
    · cases e with
      | poll =>
        obtain ⟨entry, -, rfl⟩ := List.mem_map.1 ht
        exact hs
      | _ => cases ht
    · exact ih hrest hnext t ht

end SubscriptionStream

/-- **What a subscription delivers.** In every run of a subscription stream the items it
yields are those of the payloads it took, each compared with the wire id of the moment: a
payload is a notification exactly if it is the wire id and the fields of the notification. It
takes them in the order of their publication and each at most once, and until it reports an
overflow it leaves none out. Where the broker published notifications, and no restore changed
the wire id, the items are the notifications for this wire id, as they were sent. -/
theorem notifications_delivered (json : Bytes → Except String DecodedStreamNotifyPayload)
    (topic : Topic) (wireId : UInt64) (es : List PollEvent) :
    let s := run (SubscriptionStream.step json) (.start topic wireId) es
    let took := outputs (SubscriptionStream.step json) SubscriptionStream.takes (.start topic wireId) es
    s.polled.filterMap StreamPolled.item? = (took.filterMap fun t => received json topic t.1 t.2) ∧
      (∀ id payload n, received json topic id payload = some (.ok n) ↔
        ∃ rest, payload = putU64 id ++ rest ∧ topic.Holds json n rest) ∧
      (took.map Prod.snd).Sublist (s.published.map (·.payload)) ∧
      (s.overflown = false → took.map Prod.snd <+: s.published.map (·.payload)) ∧
      ∀ messages : List Announcement,
        (∀ m ∈ messages, m.notification.topic = topic ∧ m.notification.Fits json) →
        s.published.map (·.payload) = messages.map Announcement.payload →
        (∀ id, .rebind id ∉ es) →
        let own := (messages.filter (·.wireId = wireId)).map fun m => Except.ok m.notification
        (s.polled.filterMap StreamPolled.item?).Sublist own ∧
          (s.overflown = false → s.polled.filterMap StreamPolled.item? <+: own) := by
  intro s took
  have hinv : SubscriptionStream.TakenInv json topic took s :=
    outputs_inv SubscriptionStream.takenInv_step (SubscriptionStream.takenInv_start wireId) es
  have hpast : (s.published.take s.next).map (·.payload) <+: s.published.map (·.payload) :=
    (List.take_prefix _ _).map _
  have horder := hinv.order.trans hpast.sublist
  have hwhole : s.overflown = false → took.map Prod.snd <+: s.published.map (·.payload) := by
    intro hnone
    rw [hinv.whole hnone]
    exact hpast
  refine ⟨hinv.items, fun id payload n => received_ok_iff, horder, hwhole, ?_⟩
  intro messages hmessages hpublished hbound own
  have hown : (messages.map Announcement.payload).filterMap (received json topic wireId) = own := by
    rw [List.filterMap_map]
    calc messages.filterMap (received json topic wireId ∘ Announcement.payload)
      _ = messages.filterMap fun m =>
            if m.wireId = wireId then some (.ok m.notification) else none :=
          List.filterMap_congr fun m hm => received_payload wireId (hmessages m hm).1 (hmessages m hm).2
      _ = (messages.filter (·.wireId = wireId)).filterMap
            (some ∘ fun m => .ok m.notification) := by
          simp only [List.filterMap_filter, decide_eq_true_eq, Function.comp_apply]
      _ = own := by rw [List.filterMap_eq_map]
  have hitems : s.polled.filterMap StreamPolled.item? =
      (took.map Prod.snd).filterMap (received json topic wireId) := by
    rw [hinv.items, List.filterMap_map]
    refine List.filterMap_congr fun t ht => ?_
    rw [SubscriptionStream.takes_wireId hbound rfl t ht]
    rfl
  rw [hpublished] at horder hwhole
  rw [hitems, ← hown]
  exact ⟨horder.filterMap _, fun hnone => (hwhole hnone).filterMap _⟩

end Fitz
