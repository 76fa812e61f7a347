import Fitz.Proof.Formats
import Fitz.Proof.RouteText

/-!
# Stream READ pages

The wire format of a READ page, and that `parse_stream_read_page_with_scope` inverts it:
a nonempty buffer decodes to a page exactly if it is the encoding of this page under the
scope of the selector (`stream_page_iff`). Each decoder below inverts one part of the
format, in the order of the source.
-/

namespace Fitz

open Framing BigEndian

/-! ## The format -/

def putReason : Option StreamFilteredReason → Bytes
  | none => putU8 0
  | some .serverFilter => putU8 1
  | some .permission => putU8 2
  | some .projection => putU8 3

/-- A field that only a global page has. -/
def putGlobal (global : Bool) (value : Option UInt64) : Bytes :=
  if global then putOptional putU64 value else []

def putRecord (global : Bool) (r : StreamRecord) : Bytes :=
  putU64 r.offset ++ (putOptional putU64 r.areaOffset ++ (putOptional putU64 r.realmOffset ++
    (putGlobal global r.globalOffset ++ (putBytes r.body ++ (putOptional putBytes r.metadata ++
      putU64 r.timestamp)))))

def StreamReadItem.route : StreamReadItem → String
  | .event record => record.route
  | .filtered route _ _ => route
  | .filteredRange route _ _ _ => route

/-- The tag of an item and its fields. -/
def putTagged (global : Bool) : StreamReadItem → Bytes
  | .event record => putU8 0 ++ putRecord global record
  | .filtered _ offset reason => putU8 1 ++ (putU64 offset ++ putReason reason)
  | .filteredRange _ fromOffset toOffset reason =>
    putU8 2 ++ (putU64 fromOffset ++ (putU64 toOffset ++ putReason reason))

def putItem (global : Bool) (item : StreamReadItem) : Bytes :=
  putString item.route ++ putTagged global item

def putCursor (global : Bool) (c : StreamReadCursor) : Bytes :=
  putU64 c.lastResourceOffset ++ (putOptional putU64 c.lastAreaOffset ++
    (putOptional putU64 c.lastRealmOffset ++ (putGlobal global c.lastGlobalOffset ++
      (putU8 (if c.hasMore then 1 else 0) ++ (putGlobal global c.cursorFingerprint ++
        putGlobal global c.capturedWatermark)))))

def putPage (global : Bool) (page : StreamReadPage) : Bytes :=
  (toBe 4 page.items.length ++ stream (putItem global) page.items) ++ putCursor global page.cursor

/-- A concrete three-segment stream route, within the limit of its length. -/
def StreamRoute (route : String) : Prop :=
  route.toUTF8.toList.length ≤ 65535 ∧
    ∃ segments, ConcreteText "stream" route segments ∧ segments.length = 3

/-- What only a global page has is none elsewhere. -/
def OnlyGlobal (global : Bool) (value : Option UInt64) : Prop := global = false → value = none

def FitsRecord (global : Bool) (r : StreamRecord) : Prop :=
  OnlyGlobal global r.globalOffset ∧ r.body.length < 2 ^ 32 ∧
    ∀ metadata ∈ r.metadata, metadata.length < 2 ^ 32

def FitsTagged (global : Bool) : StreamReadItem → Prop
  | .event record => FitsRecord global record
  | _ => True

def FitsItem (global : Bool) (item : StreamReadItem) : Prop :=
  StreamRoute item.route ∧ FitsTagged global item

def FitsCursor (global : Bool) (c : StreamReadCursor) : Prop :=
  OnlyGlobal global c.lastGlobalOffset ∧ OnlyGlobal global c.cursorFingerprint ∧
    OnlyGlobal global c.capturedWatermark

def FitsPage (global : Bool) (page : StreamReadPage) : Prop :=
  (page.items.length < 2 ^ 32 ∧ ∀ item ∈ page.items, FitsItem global item) ∧
    FitsCursor global page.cursor

/-! ## Its parts -/

theorem reads_u64 : Inverts getU64 putU64 fun _ => True :=
  reads_getU64.congr fun _ _ => (and_iff_right trivial).symm

theorem reads_optionalU64 : Inverts decodeOptionalU64 (putOptional putU64) fun _ => True := by
  refine (reads_optionalField _ reads_u64).congr fun value bytes => and_congr_left fun _ => ?_
  exact ⟨fun _ => trivial, fun _ _ _ => trivial⟩

theorem reads_optionalBytes :
    Inverts decodeOptionalBytes (putOptional putBytes) fun value =>
      ∀ bytes ∈ value, bytes.length < 2 ^ 32 :=
  reads_optionalField _ (inverts_of_reads reads_getBytes)

theorem reads_globalU64 (global : Bool) :
    Inverts (decodeGlobalU64 global) (putGlobal global) (OnlyGlobal global) := by
  cases global with
  | true =>
    refine reads_optionalU64.congr fun value bytes => and_congr_left fun _ => ?_
    exact ⟨fun _ h => (Bool.noConfusion h : value = none), fun _ => trivial⟩
  | false =>
    refine (Reads.pure none).congr fun value bytes => and_congr_left fun _ => ?_
    exact ⟨fun h _ => h, fun h => h rfl⟩

theorem reads_reason : Inverts decodeStreamFilteredReason putReason fun _ => True := by
  refine (Reads.flag fun tag =>
    Reads.ite (tag = 0) (Reads.pure none)
      (Reads.ite (tag = 1) (Reads.pure (some StreamFilteredReason.serverFilter))
        (Reads.ite (tag = 2) (Reads.pure (some StreamFilteredReason.permission))
          (Reads.ite (tag = 3) (Reads.pure (some StreamFilteredReason.projection)) (Reads.throw _))))).congr
            fun reason bytes => ?_
  constructor
  · rintro ⟨tag, rest, hrest, rfl⟩
    refine ⟨trivial, ?_⟩
    rcases hrest with ⟨rfl, rfl, rfl⟩ | ⟨-, ⟨rfl, rfl, rfl⟩ | ⟨-, ⟨rfl, rfl, rfl⟩ |
      ⟨-, ⟨rfl, rfl, rfl⟩ | ⟨-, hfails⟩⟩⟩⟩
    · rfl
    · rfl
    · rfl
    · rfl
    · exact hfails.elim
  · rintro ⟨-, rfl⟩
    cases reason with
    | none => exact ⟨0, [], .inl ⟨rfl, rfl, rfl⟩, rfl⟩
    | some reason =>
      cases reason with
      | serverFilter => exact ⟨1, [], .inr ⟨by decide, .inl ⟨rfl, rfl, rfl⟩⟩, rfl⟩
      | permission =>
        exact ⟨2, [], .inr ⟨by decide, .inr ⟨by decide, .inl ⟨rfl, rfl, rfl⟩⟩⟩, rfl⟩
      | projection =>
        exact ⟨3, [], .inr ⟨by decide, .inr ⟨by decide, .inr ⟨by decide, .inl ⟨rfl, rfl, rfl⟩⟩⟩⟩, rfl⟩

/-- The fields of a record, in their order. -/
theorem reads_record (route : String) (global : Bool) :
    Inverts (decodeStreamRecord route global) (putRecord global) fun r =>
      r.route = route ∧ FitsRecord global r := by
  have hread := reads_u64.bind fun offset => reads_optionalU64.bind fun areaOffset =>
    reads_optionalU64.bind fun realmOffset => (reads_globalU64 global).bind fun globalOffset =>
    reads_getBytes.bind fun body => reads_optionalBytes.bind fun metadata =>
    Reads.map (fun timestamp => StreamRecord.mk route offset body areaOffset realmOffset
      globalOffset metadata timestamp) reads_getU64
  refine Reads.congr hread fun r bytes => ?_
  constructor
  · rintro ⟨offset, _, _, ⟨-, rfl⟩, ⟨area, _, _, ⟨-, rfl⟩, ⟨realm, _, _, ⟨-, rfl⟩,
      ⟨globalOffset, _, _, ⟨hglobal, rfl⟩, ⟨body, _, _, ⟨rfl, hbody⟩, ⟨metadata, _, _,
        ⟨hmetadata, rfl⟩, ⟨timestamp, rfl, rfl⟩, rfl⟩, rfl⟩, rfl⟩, rfl⟩, rfl⟩, rfl⟩
    exact ⟨⟨rfl, hglobal, hbody, hmetadata⟩, rfl⟩
  · rintro ⟨⟨rfl, hglobal, hbody, hmetadata⟩, rfl⟩
    exact ⟨_, _, _, ⟨trivial, rfl⟩, ⟨_, _, _, ⟨trivial, rfl⟩, ⟨_, _, _, ⟨trivial, rfl⟩,
      ⟨_, _, _, ⟨hglobal, rfl⟩, ⟨_, _, _, ⟨rfl, hbody⟩, ⟨_, _, _, ⟨hmetadata, rfl⟩,
        ⟨_, rfl, rfl⟩, rfl⟩, rfl⟩, rfl⟩, rfl⟩, rfl⟩, rfl⟩

/-- An item behind its route. -/
theorem reads_tagged (route : String) (global : Bool) :
    Inverts (decodeStreamReadItem route global) (putTagged global) fun item =>
      item.route = route ∧ FitsTagged global item := by
  have hevent := Reads.map StreamReadItem.event (reads_record route global)
  have hfiltered := reads_u64.bind fun offset =>
    Reads.map (fun reason => StreamReadItem.filtered route offset reason) reads_reason
  have hrange := reads_u64.bind fun fromOffset => reads_u64.bind fun toOffset =>
    Reads.map (fun reason => StreamReadItem.filteredRange route fromOffset toOffset reason)
      reads_reason
  have hread := Reads.flag fun tag => Reads.ite (tag = 0) hevent
    (Reads.ite (tag = 1) hfiltered (Reads.ite (tag = 2) hrange
      (Reads.throw (.protocol ("unknown stream read item tag: " ++ toString tag)))))
  refine Reads.congr hread fun item bytes => ?_
  constructor
  · rintro ⟨tag, rest, hrest, rfl⟩
    rcases hrest with ⟨rfl, hrecord⟩ | ⟨-, ⟨rfl, hone⟩ | ⟨-, ⟨rfl, hmany⟩ | ⟨-, hfails⟩⟩⟩
    · obtain ⟨record, ⟨⟨hroute, hfits⟩, rfl⟩, rfl⟩ := hrecord
      exact ⟨⟨hroute, hfits⟩, rfl⟩
    · obtain ⟨offset, _, _, ⟨-, rfl⟩, ⟨reason, ⟨-, rfl⟩, rfl⟩, rfl⟩ := hone
      exact ⟨⟨rfl, trivial⟩, rfl⟩
    · obtain ⟨fromOffset, _, _, ⟨-, rfl⟩, ⟨toOffset, _, _, ⟨-, rfl⟩, ⟨reason, ⟨-, rfl⟩, rfl⟩, rfl⟩,
        rfl⟩ := hmany
      exact ⟨⟨rfl, trivial⟩, rfl⟩
    · exact hfails.elim
  · rintro ⟨⟨hroute, hfits⟩, rfl⟩
    cases item with
    | event record => exact ⟨0, _, .inl ⟨rfl, record, ⟨⟨hroute, hfits⟩, rfl⟩, rfl⟩, rfl⟩
    | filtered route' offset reason =>
      have heq : route' = route := hroute
      subst heq
      exact ⟨1, _, .inr ⟨by decide, .inl ⟨rfl, offset, _, _, ⟨trivial, rfl⟩,
        ⟨reason, ⟨trivial, rfl⟩, rfl⟩, rfl⟩⟩, rfl⟩
    | filteredRange route' fromOffset toOffset reason =>
      have heq : route' = route := hroute
      subst heq
      exact ⟨2, _, .inr ⟨by decide, .inr ⟨by decide, .inl ⟨rfl, fromOffset, _, _, ⟨trivial, rfl⟩,
        ⟨toOffset, _, _, ⟨trivial, rfl⟩, ⟨reason, ⟨trivial, rfl⟩, rfl⟩, rfl⟩, rfl⟩⟩⟩, rfl⟩

theorem responseRoute_iff {route operation : String} :
    validateResponseFixedRoute route "stream" 3 operation = .ok () ↔ StreamRoute route := by
  unfold validateResponseFixedRoute StreamRoute
  rw [← fixedRoute_iff]
  cases validateFixedRoute route "stream" 3 with
  | error error =>
    refine iff_of_false (fun h => ?_) fun h => ?_
    · cases h
    · cases h
  | ok u => exact iff_of_true rfl rfl

/-- A route within the limit fits its length prefix. -/
theorem StreamRoute.short {route : String} (h : StreamRoute route) :
    route.toUTF8.toList.length < 2 ^ 32 :=
  lt_of_le_of_lt h.1 (by decide)

theorem reads_item (global : Bool) : Inverts (readPageItem global) (putItem global) (FitsItem global) := by
  refine Reads.congr (reads_getString.bind (T := fun route item bytes => StreamRoute route ∧
    (item.route = route ∧ FitsTagged global item) ∧ bytes = putTagged global item)
      fun route => ?_) fun item bytes => ?_
  · cases hvalid : validateResponseFixedRoute route "stream" 3 "READ" with
    | error error =>
      refine (Reads.throw error).congr fun item bytes => ⟨False.elim, fun h => ?_⟩
      rw [responseRoute_iff.2 h.1] at hvalid
      cases hvalid
    | ok u =>
      refine (reads_tagged route global).congr fun item bytes => ?_
      exact (and_iff_right (responseRoute_iff.1 hvalid)).symm
  constructor
  · rintro ⟨route, _, _, ⟨rfl, -⟩, ⟨hroute, ⟨rfl, hfits⟩, rfl⟩, rfl⟩
    exact ⟨⟨hroute, hfits⟩, rfl⟩
  · rintro ⟨⟨hroute, hfits⟩, rfl⟩
    exact ⟨item.route, _, _, ⟨rfl, hroute.short⟩, ⟨hroute, ⟨rfl, hfits⟩, rfl⟩, rfl⟩

theorem reads_cursor (global : Bool) :
    Inverts (decodeStreamReadCursor global) (putCursor global) (FitsCursor global) := by
  have hflag : Inverts (decodeBoolU8 "stream read cursor has_more") _ _ := reads_flagField _
  have hread := reads_u64.bind fun lastResourceOffset => reads_optionalU64.bind fun lastAreaOffset =>
    reads_optionalU64.bind fun lastRealmOffset => (reads_globalU64 global).bind fun lastGlobalOffset =>
    hflag.bind fun hasMore => (reads_globalU64 global).bind fun cursorFingerprint =>
    Reads.map (fun capturedWatermark => StreamReadCursor.mk lastResourceOffset lastAreaOffset
      lastRealmOffset lastGlobalOffset cursorFingerprint capturedWatermark hasMore)
        (reads_globalU64 global)
  refine Reads.congr hread fun c bytes => ?_
  constructor
  · rintro ⟨lastResourceOffset, _, _, ⟨-, rfl⟩, ⟨lastAreaOffset, _, _, ⟨-, rfl⟩,
      ⟨lastRealmOffset, _, _, ⟨-, rfl⟩, ⟨lastGlobalOffset, _, _, ⟨hglobal, rfl⟩,
        ⟨hasMore, _, _, ⟨-, rfl⟩, ⟨cursorFingerprint, _, _, ⟨hfingerprint, rfl⟩,
          ⟨capturedWatermark, ⟨hwatermark, rfl⟩, rfl⟩, rfl⟩, rfl⟩, rfl⟩, rfl⟩, rfl⟩, rfl⟩
    exact ⟨⟨hglobal, hfingerprint, hwatermark⟩, rfl⟩
  · rintro ⟨⟨hglobal, hfingerprint, hwatermark⟩, rfl⟩
    exact ⟨_, _, _, ⟨trivial, rfl⟩, ⟨_, _, _, ⟨trivial, rfl⟩, ⟨_, _, _, ⟨trivial, rfl⟩,
      ⟨_, _, _, ⟨hglobal, rfl⟩, ⟨_, _, _, ⟨trivial, rfl⟩, ⟨_, _, _, ⟨hfingerprint, rfl⟩,
        ⟨_, ⟨hwatermark, rfl⟩, rfl⟩, rfl⟩, rfl⟩, rfl⟩, rfl⟩, rfl⟩, rfl⟩

/-! ## Pages -/

theorem reads_items (global : Bool) (n : ℕ) :
    Inverts (readPageItems global n) (stream (putItem global)) fun items =>
      items.length = n ∧ ∀ item ∈ items, FitsItem global item :=
  reads_loop (reads_item global) (readPageItems global) rfl (fun _ => rfl) n

/-- The page, before the check that the buffer ends. -/
theorem reads_page (global : Bool) :
    Inverts (do
      let items ← readPageItems global (← readCapacity)
      let cursor ← decodeStreamReadCursor global
      return StreamReadPage.mk items cursor) (putPage global) (FitsPage global) := by
  have hcounted := reads_counted (reads_items global)
  have hread := hcounted.bind fun items =>
    Reads.map (fun cursor => StreamReadPage.mk items cursor) (reads_cursor global)
  rw [bind_assoc] at hread
  refine Reads.congr hread fun page bytes => ?_
  constructor
  · rintro ⟨items, _, _, ⟨hitems, rfl⟩, ⟨cursor, ⟨hcursor, rfl⟩, rfl⟩, rfl⟩
    exact ⟨⟨hitems, hcursor⟩, rfl⟩
  · rintro ⟨⟨hitems, hcursor⟩, rfl⟩
    exact ⟨_, _, _, ⟨hitems, rfl⟩, ⟨_, ⟨hcursor, rfl⟩, rfl⟩, rfl⟩

theorem decodeStreamReadPage_eq (global : Bool) :
    decodeStreamReadPage global = ended (.protocol "READ response has trailing bytes") (do
      let items ← readPageItems global (← readCapacity)
      let cursor ← decodeStreamReadCursor global
      return StreamReadPage.mk items cursor) := by
  simp only [decodeStreamReadPage, ended, bind_assoc, pure_bind]

/-- **READ pages decode exactly.** Under the scope of an accepted selector a nonempty buffer
decodes to a page if and only if it is the encoding of this page. -/
theorem stream_page_iff (selector : String) (buf : Bytes) (page : StreamReadPage)
    (scope : StreamSelectorScope) (hscope : classifyStreamSelector selector = .ok scope)
    (hbuf : buf ≠ []) :
    parseStreamReadPageWithScope buf selector = .ok page ↔
      FitsPage (scope = .global) page ∧ buf = putPage (scope = .global) page := by
  have hparse : parseStreamReadPageWithScope buf selector =
      (decodeStreamReadPage (scope = .global)).on buf := by
    unfold parseStreamReadPageWithScope
    rw [hscope]
    change (if buf = [] then _ else _) = _
    rw [if_neg hbuf]
  rw [hparse, decodeStreamReadPage_eq]
  exact Reads.ended (reads_page _) _

/-- A global page of one filtered offset. -/
theorem stream_page_iff_global :
    parseStreamReadPageWithScope
        (putPage true ⟨[.filtered "stream://r/a/s" 42 (some .permission)],
          ⟨42, some 8, none, some 10, some 12, none, true⟩⟩) "stream://**" =
      .ok ⟨[.filtered "stream://r/a/s" 42 (some .permission)],
        ⟨42, some 8, none, some 10, some 12, none, true⟩⟩ := by
  have hlength : "stream://r/a/s".toUTF8.toList.length ≤ 65535 := by
    rw [toUTF8_eq]
    decide
  have hroute : ConcreteText "stream" "stream://r/a/s" ["r", "a", "s"] :=
    ⟨by decide, by decide, by decide, by decide⟩
  refine (stream_page_iff "stream://**" _ _ .global (by decide +kernel) (List.cons_ne_nil _ _)).2
    ⟨⟨⟨by decide, fun item hmem => ?_⟩, by simp [OnlyGlobal], by simp [OnlyGlobal], by simp [OnlyGlobal]⟩, rfl⟩
  rw [List.mem_singleton.1 hmem]
  exact ⟨⟨hlength, _, hroute, rfl⟩, trivial⟩

end Fitz
