import Fitz.Model.Pages
import Fitz.Proof.Formats

/-!
# List pages

The wire formats of KV SCAN, Lease LIST and Schedule LIST, and that their decoders invert
them (`list_pages_iff`): a buffer decodes to a page exactly if it is the encoding of this
page. The count check of KV SCAN and the passes of the Schedule loop depend on how many
bytes are left; an encoding always leaves enough (`Reads.room`).
-/

namespace Fitz

open Framing BigEndian

/-! ## Responses -/

theorem reads_throws (m : Decode FitzError) {α : Type} :
    Reads (m >>= fun error => (throw error : Decode α)) fun _ _ => False := by
  intro buf pos a d _
  constructor
  · intro h
    obtain ⟨error, d', -, hthrow⟩ := Decode.bind_ok h
    cases hthrow
  · rintro ⟨_, h, -⟩
    exact h.elim

/-- Only status zero is a success. -/
theorem reads_success (operation : String) :
    Reads (success operation) fun _ bytes => bytes = [0] := by
  have hread := Reads.flag fun status => Reads.ite (status = 0) (Reads.pure ())
    (Reads.ite (status = 1) (reads_throws decodeDomainError)
      (Reads.throw (.protocol (operation ++ " returned status " ++ toString status))))
  refine Reads.congr hread fun u bytes => ?_
  constructor
  · rintro ⟨status, rest, ⟨rfl, -, rfl⟩ | ⟨-, ⟨-, hfails⟩ | ⟨-, hfails⟩⟩, rfl⟩
    · rfl
    · exact hfails.elim
    · exact hfails.elim
  · rintro rfl
    exact ⟨0, [], .inl ⟨rfl, rfl, rfl⟩, rfl⟩

/-! ## KV SCAN -/

def putPair (p : KvPair) : Bytes := putBytes p.key ++ putBytes p.value

def FitsPair (p : KvPair) : Prop := p.key.length < 2 ^ 32 ∧ p.value.length < 2 ^ 32

/-- The status, the count and the pairs, and whether there are more. -/
def putScanPage (page : KvScanPage) : Bytes :=
  putU8 0 ++ (toBe 4 page.pairs.length ++ (stream putPair page.pairs ++
    putU8 (if page.hasMore then 1 else 0)))

def FitsScanPage (page : KvScanPage) : Prop :=
  page.pairs.length < 2 ^ 32 ∧ ∀ pair ∈ page.pairs, FitsPair pair

theorem reads_pair : Inverts scanPair putPair FitsPair := by
  have hread := reads_getBytes.bind fun key => Reads.map (KvPair.mk key) reads_getBytes
  refine Reads.congr hread fun p bytes => ?_
  constructor
  · rintro ⟨key, _, _, ⟨rfl, hkey⟩, ⟨value, ⟨rfl, hvalue⟩, rfl⟩, rfl⟩
    exact ⟨⟨hkey, hvalue⟩, rfl⟩
  · rintro ⟨⟨hkey, hvalue⟩, rfl⟩
    exact ⟨_, _, _, ⟨rfl, hkey⟩, ⟨_, ⟨rfl, hvalue⟩, rfl⟩, rfl⟩

/-- Two length prefixes a pair. -/
theorem length_pairs (pairs : List KvPair) : 8 * pairs.length ≤ (stream putPair pairs).length := by
  induction pairs with
  | nil => exact Nat.zero_le _
  | cons p pairs ih =>
    rw [stream_cons, List.length_append, putPair, List.length_append, length_putBytes,
      length_putBytes, List.length_cons]
    omega

/-- The pairs and the flag, once the count is read. -/
theorem reads_pairs (n : ℕ) :
    Reads (do
      let pairs ← scanPairs n
      let hasMore ← flagField fun flag =>
        .protocol ("KV SCAN returned invalid has_more flag " ++ toString flag)
      return KvScanPage.mk pairs hasMore) fun page bytes =>
        (page.pairs.length = n ∧ ∀ pair ∈ page.pairs, FitsPair pair) ∧
          bytes = stream putPair page.pairs ++ putU8 (if page.hasMore then 1 else 0) := by
  have hpairs := reads_loop reads_pair scanPairs rfl (fun _ => rfl) n
  have hread := hpairs.bind fun pairs => Reads.map (KvScanPage.mk pairs) (reads_flagField fun flag =>
    .protocol ("KV SCAN returned invalid has_more flag " ++ toString flag))
  refine Reads.congr hread fun page bytes => ?_
  constructor
  · rintro ⟨pairs, _, _, ⟨hpairs, rfl⟩, ⟨hasMore, ⟨-, rfl⟩, rfl⟩, rfl⟩
    exact ⟨hpairs, rfl⟩
  · rintro ⟨hpairs, rfl⟩
    exact ⟨_, _, _, ⟨hpairs, rfl⟩, ⟨_, ⟨trivial, rfl⟩, rfl⟩, rfl⟩

/-- A response, before the check that it ends. -/
def scanResponse : Decode KvScanPage := do
  success "KV SCAN"
  let count ← getU32
  let available ← remaining
  if count.toNat > (available - 1) / 8 then
    throw (.protocol ("KV SCAN item count " ++ toString count ++
      " exceeds the remaining response payload"))
  let pairs ← scanPairs count.toNat
  let hasMore ← flagField fun flag =>
    .protocol ("KV SCAN returned invalid has_more flag " ++ toString flag)
  return ⟨pairs, hasMore⟩

theorem decodeScanResponse_eq :
    decodeScanResponse =
      ended (.protocol "KV SCAN response contains trailing bytes") scanResponse := by
  simp only [decodeScanResponse, scanCapacity, scanResponse, ended, bind_assoc]
  refine bind_congr fun _ => bind_congr fun count => bind_congr fun available => ?_
  split
  · simp only [bind_assoc, pure_bind]
  · simp only [bind_assoc, pure_bind]

/-- **The count check refuses no real page.** -/
theorem reads_scanResponse : Inverts scanResponse putScanPage FitsScanPage := by
  have hguarded : ∀ count : UInt32, Reads (do
      let available ← remaining
      if count.toNat > (available - 1) / 8 then
        throw (.protocol ("KV SCAN item count " ++ toString count ++
          " exceeds the remaining response payload"))
      let pairs ← scanPairs count.toNat
      let hasMore ← flagField fun flag =>
        .protocol ("KV SCAN returned invalid has_more flag " ++ toString flag)
      return KvScanPage.mk pairs hasMore) fun page bytes =>
        (page.pairs.length = count.toNat ∧ ∀ pair ∈ page.pairs, FitsPair pair) ∧
          bytes = stream putPair page.pairs ++ putU8 (if page.hasMore then 1 else 0) := by
    intro count
    refine Reads.room (fun available => Reads.guard (count.toNat > (available - 1) / 8) _
      (reads_pairs count.toNat)) fun available page bytes hlen => and_iff_right_of_imp ?_
    rintro ⟨⟨hcount, -⟩, rfl⟩ hmany
    have hpairs := length_pairs page.pairs
    rw [List.length_append] at hlen
    have hflag : (putU8 (if page.hasMore then 1 else 0)).length = 1 := rfl
    omega
  have hread := (reads_success "KV SCAN").bind fun _ => reads_getU32.bind hguarded
  refine Reads.congr hread fun page bytes => ?_
  constructor
  · rintro ⟨_, _, _, rfl, ⟨count, _, _, rfl, ⟨⟨hcount, hall⟩, rfl⟩, rfl⟩, rfl⟩
    refine ⟨⟨hcount ▸ count.toNat_lt, hall⟩, ?_⟩
    rw [putScanPage, hcount]
    rfl
  · rintro ⟨⟨hcount, hall⟩, rfl⟩
    have hval : (UInt32.ofNat page.pairs.length).toNat = page.pairs.length := by
      rw [UInt32.toNat_ofNat']
      omega
    refine ⟨(), _, _, rfl, ⟨UInt32.ofNat page.pairs.length, _, _, rfl, ⟨⟨hval.symm, hall⟩, rfl⟩,
      rfl⟩, ?_⟩
    rw [putScanPage, putU32, hval]
    rfl

/-! ## Lease LIST -/

def putLeaseItem (item : LeaseListItem) : Bytes :=
  putString item.route ++ (putString item.ownerId ++ (putU64 item.holderIncarnation ++
    (putString item.acquiredAt ++ (putU64 item.expiresInSecs ++ putU32 item.renewals))))

def putLeaseCursor (cursor : LeaseListCursor) : Bytes :=
  putU64 cursor.snapshotId ++ putU32 cursor.offset

def putListPage (page : LeaseListPage) : Bytes :=
  (toBe 4 page.items.length ++ stream putLeaseItem page.items) ++
    putOptional putLeaseCursor page.nextCursor

def FitsLeaseItem (item : LeaseListItem) : Prop :=
  item.route.toUTF8.toList.length < 2 ^ 32 ∧ item.ownerId.toUTF8.toList.length < 2 ^ 32 ∧
    item.acquiredAt.toUTF8.toList.length < 2 ^ 32

def FitsListPage (page : LeaseListPage) : Prop :=
  page.items.length < 2 ^ 32 ∧ ∀ item ∈ page.items, FitsLeaseItem item

theorem reads_leaseItem : Inverts listItem putLeaseItem FitsLeaseItem := by
  have hread := reads_getString.bind fun route => reads_getString.bind fun ownerId =>
    reads_getU64.bind fun holderIncarnation => reads_getString.bind fun acquiredAt =>
    reads_getU64.bind fun expiresInSecs => Reads.map (fun renewals =>
      LeaseListItem.mk route ownerId holderIncarnation acquiredAt expiresInSecs renewals) reads_getU32
  refine Reads.congr hread fun item bytes => ?_
  constructor
  · rintro ⟨route, _, _, ⟨rfl, hroute⟩, ⟨ownerId, _, _, ⟨rfl, howner⟩, ⟨incarnation, _, _, rfl,
      ⟨acquiredAt, _, _, ⟨rfl, hacquired⟩, ⟨expires, _, _, rfl, ⟨renewals, rfl, rfl⟩, rfl⟩, rfl⟩, rfl⟩,
        rfl⟩, rfl⟩
    exact ⟨⟨hroute, howner, hacquired⟩, rfl⟩
  · rintro ⟨⟨hroute, howner, hacquired⟩, rfl⟩
    exact ⟨_, _, _, ⟨rfl, hroute⟩, ⟨_, _, _, ⟨rfl, howner⟩, ⟨_, _, _, rfl,
      ⟨_, _, _, ⟨rfl, hacquired⟩, ⟨_, _, _, rfl, ⟨_, rfl, rfl⟩, rfl⟩, rfl⟩, rfl⟩, rfl⟩, rfl⟩

theorem reads_leaseCursor : Inverts (do return LeaseListCursor.mk (← getU64) (← getU32))
    putLeaseCursor fun _ => True := by
  have hread := reads_getU64.bind fun snapshotId => Reads.map (LeaseListCursor.mk snapshotId)
    reads_getU32
  refine Reads.congr hread fun cursor bytes => ?_
  constructor
  · rintro ⟨snapshotId, _, _, rfl, ⟨offset, rfl, rfl⟩, rfl⟩
    exact ⟨trivial, rfl⟩
  · rintro ⟨-, rfl⟩
    exact ⟨_, _, _, rfl, ⟨_, rfl, rfl⟩, rfl⟩

/-- A page, before the check that it ends. -/
def listPage : Decode LeaseListPage := do
  let items ← listItems (← (do return (← getU32).toNat))
  let nextCursor ← optionalField
    (fun hasNext => .protocol ("Lease LIST response has invalid has_next byte " ++ toString hasNext))
    (do return LeaseListCursor.mk (← getU64) (← getU32))
  return ⟨items, nextCursor⟩

theorem decodeListPage_eq :
    decodeListPage = ended (.protocol "Lease LIST response has trailing bytes") listPage := by
  simp only [decodeListPage, listPage, optionalField, ended, bind_assoc, pure_bind]
  refine bind_congr fun count => bind_congr fun items => bind_congr fun hasNext => ?_
  split
  · rw [pure_bind]
  · split
    · simp only [bind_assoc, pure_bind]
    · rfl

theorem reads_listPage : Inverts listPage putListPage FitsListPage := by
  have hcounted := reads_counted fun n =>
    reads_loop reads_leaseItem listItems rfl (fun _ => rfl) n
  have hcursor := reads_optionalField (fun hasNext =>
    .protocol ("Lease LIST response has invalid has_next byte " ++ toString hasNext)) reads_leaseCursor
  have hread := hcounted.bind fun items => Reads.map (LeaseListPage.mk items) hcursor
  rw [bind_assoc] at hread
  refine Reads.congr hread fun page bytes => ?_
  constructor
  · rintro ⟨items, _, _, ⟨hitems, rfl⟩, ⟨nextCursor, ⟨-, rfl⟩, rfl⟩, rfl⟩
    exact ⟨hitems, rfl⟩
  · rintro ⟨hitems, rfl⟩
    exact ⟨_, _, _, ⟨hitems, rfl⟩, ⟨_, ⟨fun _ _ => trivial, rfl⟩, rfl⟩, rfl⟩

/-! ## Schedule LIST -/

def putDeliveryMode : ScheduleDeliveryMode → Bytes
  | .broadcast => putU8 0
  | .single => putU8 1

def putEntry (entry : ScheduleEntry) : Bytes :=
  putString entry.route ++ (putString entry.cron ++ (putDeliveryMode entry.deliveryMode ++
    putBytes entry.payload))

/-- Each entry behind a one, and a zero behind the last. -/
def putEntries (entries : List ScheduleEntry) : Bytes :=
  stream (fun entry => putU8 1 ++ putEntry entry) entries ++ putU8 0

/-- The version, the flag, the cursor and the entries. -/
def putCursorPage (page : ScheduleCursorPage) : Bytes :=
  putU8 1 ++ (putU8 (if page.hasMore then 1 else 0) ++ (putOptional putString page.continuation ++
    putEntries page.entries))

def FitsEntry (entry : ScheduleEntry) : Prop :=
  entry.route.toUTF8.toList.length < 2 ^ 32 ∧ entry.cron.toUTF8.toList.length < 2 ^ 32 ∧
    entry.payload.length < 2 ^ 32

def FitsCursorPage (page : ScheduleCursorPage) : Prop :=
  (∀ cursor ∈ page.continuation, cursor.toUTF8.toList.length < 2 ^ 32) ∧
    ∀ entry ∈ page.entries, FitsEntry entry

theorem reads_deliveryMode : Inverts decodeDeliveryMode putDeliveryMode fun _ => True := by
  have hread := Reads.flag fun mode => Reads.ite (mode = 0) (Reads.pure ScheduleDeliveryMode.broadcast)
    (Reads.ite (mode = 1) (Reads.pure ScheduleDeliveryMode.single)
      (Reads.throw (.protocol "schedule LIST_V2 has invalid delivery mode")))
  refine Reads.congr hread fun deliveryMode bytes => ?_
  constructor
  · rintro ⟨mode, rest, ⟨rfl, rfl, rfl⟩ | ⟨-, ⟨rfl, rfl, rfl⟩ | ⟨-, hfails⟩⟩, rfl⟩
    · exact ⟨trivial, rfl⟩
    · exact ⟨trivial, rfl⟩
    · exact hfails.elim
  · rintro ⟨-, rfl⟩
    cases deliveryMode with
    | broadcast => exact ⟨0, [], .inl ⟨rfl, rfl, rfl⟩, rfl⟩
    | single => exact ⟨1, [], .inr ⟨by decide, .inl ⟨rfl, rfl, rfl⟩⟩, rfl⟩

theorem reads_entry : Inverts scheduleEntry putEntry FitsEntry := by
  have hread := reads_getString.bind fun route => reads_getString.bind fun cron =>
    reads_deliveryMode.bind fun deliveryMode =>
    Reads.map (ScheduleEntry.mk route cron deliveryMode) reads_getBytes
  refine Reads.congr hread fun entry bytes => ?_
  constructor
  · rintro ⟨route, _, _, ⟨rfl, hroute⟩, ⟨cron, _, _, ⟨rfl, hcron⟩, ⟨deliveryMode, _, _, ⟨-, rfl⟩,
      ⟨payload, ⟨rfl, hpayload⟩, rfl⟩, rfl⟩, rfl⟩, rfl⟩
    exact ⟨⟨hroute, hcron, hpayload⟩, rfl⟩
  · rintro ⟨⟨hroute, hcron, hpayload⟩, rfl⟩
    exact ⟨_, _, _, ⟨rfl, hroute⟩, ⟨_, _, _, ⟨rfl, hcron⟩, ⟨_, _, _, ⟨trivial, rfl⟩,
      ⟨_, ⟨rfl, hpayload⟩, rfl⟩, rfl⟩, rfl⟩, rfl⟩

/-- So many passes read lists that are shorter. -/
theorem reads_passes (n : ℕ) :
    Reads (scheduleEntries n) fun entries bytes =>
      (entries.length < n ∧ ∀ entry ∈ entries, FitsEntry entry) ∧ bytes = putEntries entries := by
  induction n with
  | zero =>
    refine (Reads.throw _).congr fun entries bytes => ⟨False.elim, fun h => ?_⟩
    exact Nat.not_lt_zero _ h.1.1
  | succ n ih =>
    have hmore := reads_entry.bind fun entry => Reads.map (List.cons entry) ih
    have hread := Reads.flag fun flag => Reads.ite (flag = 0) (Reads.pure ([] : List ScheduleEntry))
      (Reads.ite (flag = 1) hmore
        (Reads.throw (.protocol "schedule LIST_V2 has invalid entry flag")))
    refine Reads.congr hread fun entries bytes => ?_
    constructor
    · rintro ⟨flag, rest, hrest, rfl⟩
      rcases hrest with ⟨rfl, rfl, rfl⟩ | ⟨-, ⟨rfl, hentries⟩ | ⟨-, hfails⟩⟩
      · exact ⟨⟨Nat.succ_pos n, fun _ h => absurd h List.not_mem_nil⟩, rfl⟩
      · obtain ⟨entry, _, _, ⟨hentry, rfl⟩, ⟨others, ⟨⟨hlen, hothers⟩, rfl⟩, rfl⟩, rfl⟩ := hentries
        refine ⟨⟨?_, List.forall_mem_cons.2 ⟨hentry, hothers⟩⟩, ?_⟩
        · rw [List.length_cons]
          omega
        · rw [putEntries, putEntries, stream_cons, List.append_assoc, List.append_assoc]
          rfl
      · exact hfails.elim
    · rintro ⟨⟨hlen, hall⟩, rfl⟩
      cases entries with
      | nil => exact ⟨0, [], .inl ⟨rfl, rfl, rfl⟩, rfl⟩
      | cons entry others =>
        obtain ⟨hentry, hothers⟩ := List.forall_mem_cons.1 hall
        have hshort : others.length < n := by
          rw [List.length_cons] at hlen
          omega
        refine ⟨1, _, .inr ⟨by decide, .inl ⟨rfl, entry, _, _, ⟨hentry, rfl⟩,
          ⟨others, ⟨⟨hshort, hothers⟩, rfl⟩, rfl⟩, rfl⟩⟩, ?_⟩
        rw [putEntries, putEntries, stream_cons, List.append_assoc, List.append_assoc]
        rfl

/-- A flag byte an entry, and the last one. -/
theorem length_putEntries (entries : List ScheduleEntry) :
    entries.length < (putEntries entries).length := by
  rw [putEntries, List.length_append]
  induction entries with
  | nil => exact Nat.succ_pos 0
  | cons entry others ih =>
    rw [stream_cons, List.length_append, List.length_append, List.length_cons]
    have hflag : (putU8 1).length = 1 := rfl
    omega

/-- **As many passes as bytes are enough.** -/
theorem reads_entries :
    Inverts (do scheduleEntries (← remaining)) putEntries fun entries =>
      ∀ entry ∈ entries, FitsEntry entry := by
  refine Reads.room reads_passes fun n entries bytes hlen => and_congr_left ?_
  rintro rfl
  have hshort := length_putEntries entries
  exact and_iff_right (by omega)

/-- A page, before the check that it ends. -/
def cursorPage : Decode ScheduleCursorPage := do
  let version ← getU8
  if version ≠ 1 then throw (.protocol "schedule LIST_V2 has unknown response version")
  let hasMore ← flagField fun _ => .protocol "schedule LIST_V2 has invalid has_more flag"
  let continuation ←
    optionalField (fun _ => .protocol "schedule LIST_V2 has invalid cursor flag") getString
  let entries ← (do scheduleEntries (← remaining))
  return ⟨entries, hasMore, continuation⟩

theorem decodeCursorPage_eq :
    decodeCursorPage =
      ended (.protocol "schedule LIST_V2 response has trailing bytes") cursorPage := by
  simp only [decodeCursorPage, cursorPage, ended, bind_assoc]
  refine bind_congr fun version => ?_
  split
  · simp only [bind_assoc]
    rfl
  · simp only [bind_assoc, pure_bind]

theorem reads_cursorPage : Inverts cursorPage putCursorPage FitsCursorPage := by
  have hflag := reads_flagField fun _ => .protocol "schedule LIST_V2 has invalid has_more flag"
  have hcursor := reads_optionalField
    (fun _ => .protocol "schedule LIST_V2 has invalid cursor flag") (inverts_of_reads reads_getString)
  have hbody := hflag.bind fun hasMore => hcursor.bind fun continuation =>
    Reads.map (fun entries => ScheduleCursorPage.mk entries hasMore continuation) reads_entries
  refine Reads.congr (Reads.flag fun version => Reads.guard (version ≠ 1) _ hbody)
    fun page bytes => ?_
  constructor
  · rintro ⟨version, rest, ⟨hversion, hasMore, _, _, ⟨-, rfl⟩, ⟨continuation, _, _,
      ⟨hcontinuation, rfl⟩, ⟨entries, ⟨hentries, rfl⟩, rfl⟩, rfl⟩, rfl⟩, rfl⟩
    rw [not_not.1 hversion]
    exact ⟨⟨hcontinuation, hentries⟩, rfl⟩
  · rintro ⟨⟨hcontinuation, hentries⟩, rfl⟩
    exact ⟨1, _, ⟨not_not.2 rfl, _, _, _, ⟨trivial, rfl⟩, ⟨_, _, _, ⟨hcontinuation, rfl⟩,
      ⟨_, ⟨hentries, rfl⟩, rfl⟩, rfl⟩, rfl⟩, rfl⟩

/-! ## All three -/

/-- **List page decoders invert their formats.** A buffer is accepted exactly if it is the
encoding of the page returned, which is any page whose parts fit their prefixes. -/
theorem list_pages_iff :
    (∀ buf page, decodeScanResponse.on buf = .ok page ↔
      FitsScanPage page ∧ buf = putScanPage page) ∧
    (∀ buf page, decodeListPage.on buf = .ok page ↔ FitsListPage page ∧ buf = putListPage page) ∧
    (∀ buf page, decodeCursorPage.on buf = .ok page ↔
      FitsCursorPage page ∧ buf = putCursorPage page) := by
  rw [decodeScanResponse_eq, decodeListPage_eq, decodeCursorPage_eq]
  exact ⟨fun _ _ => Reads.ended reads_scanResponse _, fun _ _ => Reads.ended reads_listPage _,
    fun _ _ => Reads.ended reads_cursorPage _⟩

/-- The answer to `list_v2` is a page behind the status. -/
theorem listV2Answer_iff {response : Bytes} {page : ScheduleCursorPage} :
    listV2Answer (.ok response) = .ok page ↔
      FitsCursorPage page ∧ response = putU8 0 ++ putCursorPage page := by
  have hanswer : listV2Answer (.ok response) =
      (ended (.protocol "schedule LIST_V2 response has trailing bytes")
        (do success "Schedule LIST_V2"; cursorPage)).on response := by
    change Decode.on _ response = _
    rw [decodeCursorPage_eq]
    simp only [ended, bind_assoc]
  rw [hanswer, Reads.ended ((reads_success _).bind fun _ => reads_cursorPage)]
  constructor
  · rintro ⟨_, _, _, rfl, ⟨hfits, rfl⟩, rfl⟩
    exact ⟨hfits, rfl⟩
  · rintro ⟨hfits, rfl⟩
    exact ⟨(), _, _, rfl, ⟨hfits, rfl⟩, rfl⟩

end Fitz
