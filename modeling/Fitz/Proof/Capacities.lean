import Fitz.Proof.Pages
import Fitz.Proof.StreamPages

/-!
# Capacities

What the list decoders pass to `Vec::with_capacity` against the bytes that are left. KV SCAN
and Lease LIST bound the declared count by these; Stream READ and Queue RESERVE take it as
it is, so there the capacity is bounded exactly if the count is (`capacity_bounded_iff`).
-/

namespace Fitz

open Framing BigEndian

/-- The room is no larger than the bytes left. -/
def Bounded (decoder : ListDecoder) (buf : Bytes) : Prop :=
  ∀ room, decoder.reserves buf = some room → room.capacity ≤ room.left

/-- The declared count is at most the number of bytes behind it, where the decoder does
not check this itself. -/
def CountFits : ListDecoder → Bytes → Prop
  | .kvScan, _ => True
  | .leaseList, _ => True
  | .streamRead selector, buf => SelectorAccepted selector →
      ∀ count rest, buf = putU32 count ++ rest → count.toNat ≤ rest.length
  | .queueReserve, buf =>
      ∀ count rest, buf = putU8 0 ++ (putU32 count ++ rest) → count.toNat ≤ rest.length
where
  /-- `classify_stream_selector` is `Ok`. -/
  SelectorAccepted (selector : String) : Prop := ∃ scope, classifyStreamSelector selector = .ok scope

/-! ## Rooms -/

theorem reserves_iff {decoder : ListDecoder} {buf : Bytes} {room : Room} :
    decoder.reserves buf = some room ↔ ∃ d, decoder.capacity.run (.new buf) = .ok (some room.capacity, d) ∧
      room.left = d.buf.length - d.pos := by
  unfold ListDecoder.reserves
  cases hrun : decoder.capacity.run (.new buf) with
  | error error =>
    refine iff_of_false (fun h => ?_) fun h => ?_
    · cases h
    · obtain ⟨d, h, -⟩ := h
      cases h
  | ok r =>
    obtain ⟨capacity, d⟩ := r
    cases capacity with
    | none =>
      refine iff_of_false (fun h => ?_) fun h => ?_
      · cases h
      · obtain ⟨d, h, -⟩ := h
        cases h
    | some n =>
      constructor
      · intro h
        cases h
        exact ⟨d, rfl, rfl⟩
      · rintro ⟨d', h, hleft⟩
        cases h
        exact congrArg (fun left => some (Room.mk room.capacity left)) hleft.symm

/-- A value that is returned as it is. -/
theorem run_some {m : Decode ℕ} {d d' : PayloadDecoder} {n : ℕ}
    (h : (do return some (← m) : Decode (Option ℕ)).run d = .ok (some n, d')) :
    m.run d = .ok (n, d') := by
  obtain ⟨k, d₁, hm, hrest⟩ := Decode.bind_ok h
  have hpure : Except.ok (some k, d₁) = .ok (some n, d') := hrest
  cases hpure
  exact hm

/-- **A SCAN reserves at most an eighth of what is left.** -/
theorem scanCapacity_le {d d' : PayloadDecoder} {n : ℕ} (h : scanCapacity.run d = .ok (n, d')) :
    n ≤ d'.buf.length - d'.pos := by
  obtain ⟨_, d₁, -, h⟩ := Decode.bind_ok h
  obtain ⟨count, d₂, -, h⟩ := Decode.bind_ok h
  have hleft : remaining.run d₂ = .ok (d₂.buf.length - d₂.pos, d₂) := rfl
  rw [Decode.run_bind_of_ok hleft] at h
  by_cases hmany : count.toNat > (d₂.buf.length - d₂.pos - 1) / 8
  · rw [if_pos hmany] at h
    obtain ⟨_, _, hthrow, -⟩ := Decode.bind_ok h
    cases hthrow
  · rw [if_neg hmany] at h
    have hpure : Except.ok (count.toNat, d₂) = .ok (n, d') := h
    cases hpure
    omega

/-- **A LIST reserves at most one item for 32 bytes left.** -/
theorem listCapacity_le {d d' : PayloadDecoder} {n : ℕ} (h : listCapacity.run d = .ok (n, d')) :
    n ≤ d'.buf.length - d'.pos := by
  obtain ⟨count, d₁, -, h⟩ := Decode.bind_ok h
  have hpure : Except.ok (min count.toNat ((d₁.buf.length - d₁.pos) / (4 + 4 + 8 + 4 + 8 + 4)), d₁) =
      .ok (n, d') := h
  cases hpure
  have hmin := Nat.min_le_right count.toNat ((d'.buf.length - d'.pos) / (4 + 4 + 8 + 4 + 8 + 4))
  omega

/-- **A declared capacity is the count**, whatever is behind it. -/
theorem declaredCapacity_run {buf : Bytes} {pos n : ℕ} {d : PayloadDecoder} (hpos : pos ≤ buf.length) :
    declaredCapacity.run ⟨buf, pos⟩ = .ok (some n, d) ↔
      ∃ count rest, buf.drop pos = putU32 count ++ rest ∧ n = count.toNat ∧ d = ⟨buf, pos + 4⟩ := by
  have hcount : ∀ d, readCapacity.run ⟨buf, pos⟩ = .ok (n, d) ↔
      ∃ count rest, buf.drop pos = putU32 count ++ rest ∧ n = count.toNat ∧ d = ⟨buf, pos + 4⟩ := by
    intro d
    refine (Reads.map UInt32.toNat reads_getU32 buf pos n d hpos).trans ?_
    constructor
    · rintro ⟨_, ⟨count, rfl, rfl⟩, ⟨rest, hrest⟩, rfl⟩
      exact ⟨count, rest, hrest.symm, rfl, by rw [length_putU32]⟩
    · rintro ⟨count, rest, hdrop, rfl, rfl⟩
      refine ⟨_, ⟨count, rfl, rfl⟩, ?_, by rw [length_putU32]⟩
      rw [hdrop]
      exact List.prefix_append _ _
  rw [declaredCapacity, Decode.run_bind_of_ok (isEmpty_run _)]
  by_cases hempty : pos ≥ buf.length
  · rw [decide_eq_true hempty]
    refine iff_of_false (fun h => ?_) ?_
    · have hnone : Except.ok ((none : Option ℕ), (⟨buf, pos⟩ : PayloadDecoder)) = .ok (some n, d) := h
      cases hnone
    · rintro ⟨count, rest, hdrop, -⟩
      have hlen := congrArg List.length hdrop
      rw [List.length_drop, List.length_append, length_putU32] at hlen
      omega
  · rw [decide_eq_false hempty, ← hcount]
    constructor
    · intro h
      exact run_some h
    · intro h
      change (do return some (← readCapacity) : Decode (Option ℕ)).run _ = _
      rw [Decode.run_bind_of_ok h]
      rfl

/-! ## What each decoder reserves -/

theorem reserves_kvScan {buf : Bytes} {room : Room}
    (h : ListDecoder.kvScan.reserves buf = some room) : room.capacity ≤ room.left := by
  obtain ⟨d, hrun, hleft⟩ := reserves_iff.1 h
  rw [hleft]
  exact scanCapacity_le (run_some hrun)

theorem reserves_leaseList {buf : Bytes} {room : Room}
    (h : ListDecoder.leaseList.reserves buf = some room) : room.capacity ≤ room.left := by
  obtain ⟨d, hrun, hleft⟩ := reserves_iff.1 h
  obtain ⟨_, d₁, -, hrun⟩ := Decode.bind_ok hrun
  rw [hleft]
  exact listCapacity_le (run_some hrun)

theorem reserves_streamRead {selector : String} {buf : Bytes} {room : Room} :
    (ListDecoder.streamRead selector).reserves buf = some room ↔
      CountFits.SelectorAccepted selector ∧
        ∃ count rest, buf = putU32 count ++ rest ∧ room = ⟨count.toNat, rest.length⟩ := by
  rw [reserves_iff, CountFits.SelectorAccepted, ListDecoder.capacity]
  cases classifyStreamSelector selector with
  | error error =>
    refine iff_of_false (fun h => ?_) fun h => ?_
    · obtain ⟨d, hrun, -⟩ := h
      obtain ⟨_, _, hthrow, -⟩ := Decode.bind_ok hrun
      cases hthrow
    · obtain ⟨⟨scope, hscope⟩, -⟩ := h
      cases hscope
  | ok scope =>
    rw [and_iff_right ⟨scope, rfl⟩]
    constructor
    · rintro ⟨d, hrun, hleft⟩
      obtain ⟨count, rest, hbuf, hcount, rfl⟩ := (declaredCapacity_run (Nat.zero_le _)).1 hrun
      have hsplit : buf = putU32 count ++ rest := hbuf
      refine ⟨count, rest, hsplit, ?_⟩
      have hrest : room.left = rest.length := by
        rw [hleft, hsplit, List.length_append, length_putU32]
        exact Nat.add_sub_cancel_left 4 _
      rw [← hcount, ← hrest]
    · rintro ⟨count, rest, rfl, rfl⟩
      refine ⟨_, (declaredCapacity_run (Nat.zero_le _)).2 ⟨count, rest, rfl, rfl, rfl⟩, ?_⟩
      rw [List.length_append, length_putU32]
      exact (Nat.add_sub_cancel_left 4 _).symm

theorem reserves_queueReserve {buf : Bytes} {room : Room} :
    ListDecoder.queueReserve.reserves buf = some room ↔
      ∃ count rest, buf = putU8 0 ++ (putU32 count ++ rest) ∧ room = ⟨count.toNat, rest.length⟩ := by
  have hleft : ∀ (count : UInt32) (rest : Bytes),
      (putU8 0 ++ (putU32 count ++ rest)).length = 5 + rest.length := by
    intro count rest
    rw [List.length_append, List.length_append, length_putU32, ← Nat.add_assoc]
    rfl
  have hstatus : ∀ rest : Bytes,
      (queueSuccess "RESERVE").run (.new (putU8 0 ++ rest)) = .ok ((), ⟨putU8 0 ++ rest, 1⟩) :=
    fun rest => (reads_success "Queue RESERVE" (putU8 0 ++ rest) 0 () _ (Nat.zero_le _)).2
      ⟨[0], rfl, List.prefix_append _ rest, rfl⟩
  rw [reserves_iff, ListDecoder.capacity]
  constructor
  · rintro ⟨d, hrun, hroom⟩
    obtain ⟨u, d₁, hsuccess, hrun⟩ := Decode.bind_ok hrun
    obtain ⟨_, rfl, ⟨tail, hbuf⟩, -⟩ :=
      (reads_success "Queue RESERVE" buf 0 u d₁ (Nat.zero_le _)).1 hsuccess
    have hcons : buf = putU8 0 ++ tail := hbuf.symm
    subst hcons
    rw [hstatus tail] at hsuccess
    cases hsuccess
    have hpos : 1 ≤ (putU8 0 ++ tail).length := by
      rw [List.length_append]
      exact Nat.le_add_right 1 _
    obtain ⟨count, rest, hdrop, hcount, rfl⟩ := (declaredCapacity_run hpos).1 hrun
    have hsplit : tail = putU32 count ++ rest := hdrop
    subst hsplit
    refine ⟨count, rest, rfl, ?_⟩
    have hrest : room.left = rest.length := by
      rw [hroom, hleft]
      exact Nat.add_sub_cancel_left 5 _
    rw [← hcount, ← hrest]
  · rintro ⟨count, rest, rfl, rfl⟩
    rw [Decode.run_bind_of_ok (hstatus _)]
    refine ⟨_, (declaredCapacity_run ?_).2 ⟨count, rest, rfl, rfl, rfl⟩, ?_⟩
    · rw [hleft]
      omega
    · rw [hleft]
      exact (Nat.add_sub_cancel_left 5 _).symm

/-- **A capacity is bounded exactly if the declared count is**, where the decoder leaves
this to the broker. -/
theorem capacity_bounded_iff (decoder : ListDecoder) (buf : Bytes) :
    Bounded decoder buf ↔ CountFits decoder buf := by
  cases decoder with
  | kvScan => exact iff_of_true (fun _ => reserves_kvScan) trivial
  | leaseList => exact iff_of_true (fun _ => reserves_leaseList) trivial
  | streamRead selector =>
    constructor
    · intro h haccepted count rest hbuf
      exact h ⟨count.toNat, rest.length⟩ (reserves_streamRead.2 ⟨haccepted, count, rest, hbuf, rfl⟩)
    · intro h room hroom
      obtain ⟨haccepted, count, rest, hbuf, rfl⟩ := reserves_streamRead.1 hroom
      exact h haccepted count rest hbuf
  | queueReserve =>
    constructor
    · intro h count rest hbuf
      exact h ⟨count.toNat, rest.length⟩ (reserves_queueReserve.2 ⟨count, rest, hbuf, rfl⟩)
    · intro h room hroom
      obtain ⟨count, rest, hbuf, rfl⟩ := reserves_queueReserve.1 hroom
      exact h count rest hbuf

/-- Four bytes of a READ and five of a RESERVE ask for room for 4294967295 items. -/
theorem capacity_unbounded :
    (ListDecoder.streamRead "stream://**").reserves [255, 255, 255, 255] = some ⟨4294967295, 0⟩ ∧
      ¬ Bounded (.streamRead "stream://**") [255, 255, 255, 255] ∧
      ListDecoder.queueReserve.reserves [0, 255, 255, 255, 255] = some ⟨4294967295, 0⟩ ∧
      ¬ Bounded .queueReserve [0, 255, 255, 255, 255] := by
  have hread : (ListDecoder.streamRead "stream://**").reserves [255, 255, 255, 255] =
      some ⟨4294967295, 0⟩ := by decide +kernel
  have hreserve : ListDecoder.queueReserve.reserves [0, 255, 255, 255, 255] =
      some ⟨4294967295, 0⟩ := by decide +kernel
  refine ⟨hread, fun h => ?_, hreserve, fun h => ?_⟩
  · exact absurd (h _ hread) (by decide)
  · exact absurd (h _ hreserve) (by decide)

/-! ## The decoders go on from there -/

/-- RESERVE reads so many items as it reserved room for. -/
theorem reserve_handles (route : String) (leaseSeconds : UInt64) (batchSize : UInt32)
    (waitSeconds : Option UInt64) (generation : UInt64) (response : Bytes)
    (completion : Option (Result Bytes)) :
    (Opening.queueReserve route leaseSeconds batchSize waitSeconds).handles generation response
        completion =
      some (Decode.on (do
        let capacity ← ListDecoder.queueReserve.capacity
        return (← reservedItems route generation (capacity.getD 0)).map .queue) response) := by
  have hrest : ∀ d, (do
        if ← isEmpty then return []
        let count ← getU32
        return (← reservedItems route generation count.toNat).map .queue : Decode (List Handle)).run d =
      (do
        let capacity ← declaredCapacity
        return (← reservedItems route generation (capacity.getD 0)).map .queue :
          Decode (List Handle)).run d := by
    intro d
    rw [declaredCapacity, readCapacity]
    simp only [bind_assoc]
    rw [Decode.run_bind_of_ok (isEmpty_run d), Decode.run_bind_of_ok (isEmpty_run d)]
    by_cases hempty : d.pos ≥ d.buf.length
    · rw [decide_eq_true hempty]
      rfl
    · rw [decide_eq_false hempty]
      simp only [Bool.false_eq_true, if_false, bind_assoc, pure_bind, Option.getD_some]
  have hwhole : (do
        queueSuccess "RESERVE"
        if ← isEmpty then return []
        let count ← getU32
        return (← reservedItems route generation count.toNat).map .queue : Decode (List Handle)) =
      (do
        let capacity ← ListDecoder.queueReserve.capacity
        return (← reservedItems route generation (capacity.getD 0)).map .queue) := by
    rw [ListDecoder.capacity, bind_assoc]
    exact bind_congr fun _ => funext hrest
  rw [Opening.handles, hwhole]

/-- An item of a LIST has 32 bytes or more. -/
theorem length_leaseItems (items : List LeaseListItem) :
    32 * items.length ≤ (stream putLeaseItem items).length := by
  induction items with
  | nil => exact Nat.zero_le _
  | cons item items ih =>
    have hitem : 32 ≤ (putLeaseItem item).length := by
      simp only [putLeaseItem, putString, List.length_append, length_putBytes, length_putU64,
        length_putU32]
      omega
    rw [stream_cons, List.length_append, List.length_cons]
    omega

/-- **A LIST that decodes had room for its items and no more.** -/
theorem listCapacity_page {buf : Bytes} {page : LeaseListPage} (h : decodeListPage.on buf = .ok page) :
    ∃ d, listCapacity.run (.new buf) = .ok (page.items.length, d) := by
  obtain ⟨⟨hcount, -⟩, rfl⟩ := (list_pages_iff.2.1 buf page).1 h
  have hval : (UInt32.ofNat page.items.length).toNat = page.items.length := by
    rw [UInt32.toNat_ofNat']
    omega
  have hbuf : putListPage page = putU32 (UInt32.ofNat page.items.length) ++
      (stream putLeaseItem page.items ++ putOptional putLeaseCursor page.nextCursor) := by
    rw [putListPage, putU32, hval, List.append_assoc]
  have hget : getU32.run (.new (putListPage page)) =
      .ok (UInt32.ofNat page.items.length, ⟨putListPage page, 4⟩) := by
    refine (reads_getU32 _ 0 _ _ (Nat.zero_le _)).2 ⟨_, rfl, ?_, by rw [length_putU32]⟩
    rw [List.drop_zero, hbuf]
    exact List.prefix_append _ _
  have hroom : page.items.length ≤ ((putListPage page).length - 4) / (4 + 4 + 8 + 4 + 8 + 4) := by
    have hitems := length_leaseItems page.items
    rw [hbuf, List.length_append, length_putU32, List.length_append]
    omega
  refine ⟨⟨putListPage page, 4⟩, ?_⟩
  rw [listCapacity, Decode.run_bind_of_ok hget]
  change Except.ok (min _ _, _) = _
  rw [hval, Nat.min_eq_left hroom]

end Fitz
