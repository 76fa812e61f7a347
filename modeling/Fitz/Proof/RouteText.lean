import Fitz.Lib.Utf8
import Fitz.Proof.Matching
import Mathlib.Data.List.Chain

/-!
# Routes as text

`scan` cuts the bytes of a route; the grammar it accepts is one of texts: a scheme, `"://"`
and segments between slashes, each a literal, `*` or `**` (`PatternText`). `scan_iff` says
that `scan` accepts exactly these texts, up to a length, and `matched_iff` that
`route_matches_pattern` compares the segments, whatever their length.
-/

namespace Fitz

open Glob Utf8

/-! ## Texts -/

/-- `scheme://` and the segments behind it. -/
def routeOf (scheme : String) (segments : List String) : String :=
  scheme ++ "://" ++ "/".intercalate segments

/-- A nonempty segment without wildcards. -/
def Literal (segment : String) : Prop :=
  segment ≠ "" ∧ '/' ∉ segment.toList ∧ '*' ∉ segment.toList

instance (segment : String) : Decidable (Literal segment) :=
  inferInstanceAs (Decidable (segment ≠ "" ∧ '/' ∉ segment.toList ∧ '*' ∉ segment.toList))

def PatternSegment (segment : String) : Prop := Literal segment ∨ segment = "*" ∨ segment = "**"

/-- No two `**` stand next to each other. -/
def Separated (segments : List String) : Prop :=
  segments.IsChain fun a b => ¬(a = "**" ∧ b = "**")

/-- The text of a pattern: `scheme://` and nonempty segments, wildcards only as whole
segments and no two adjacent `**`. -/
structure PatternText (scheme pattern : String) (segments : List String) : Prop where
  text : pattern = routeOf scheme segments
  nonempty : segments ≠ []
  segment : ∀ segment ∈ segments, PatternSegment segment
  separated : Separated segments

/-- The text of a concrete route. The scheme is not empty: no validator accepts an empty one. -/
structure ConcreteText (scheme route : String) (segments : List String) : Prop where
  text : route = routeOf scheme segments
  scheme_ne : scheme ≠ ""
  nonempty : segments ≠ []
  literal : ∀ segment ∈ segments, Literal segment

/-! ## Bytes -/

/-- The bytes of a text. -/
theorem toUTF8_eq (s : String) : s.toUTF8.toList = utf8 s.toList := by
  rw [toList_eq, ← utf8_data, String.toUTF8_eq_toByteArray, String.utf8Encode_toList]

theorem slash_ascii : ('/' : Char).val < 128 := by decide
theorem star_ascii : ('*' : Char).val < 128 := by decide
theorem colon_ascii : (':' : Char).val < 128 := by decide

theorem star_mem_iff {s : String} : star ∈ s.toUTF8.toList ↔ '*' ∈ s.toList := by
  rw [toUTF8_eq]
  exact mem_utf8_iff star_ascii

theorem colon_mem_iff {s : String} : 58 ∈ s.toUTF8.toList ↔ ':' ∈ s.toList := by
  rw [toUTF8_eq]
  exact mem_utf8_iff colon_ascii

theorem toUTF8_nil_iff {s : String} : s.toUTF8.toList = [] ↔ s = "" := by
  rw [toUTF8_eq, utf8_eq_nil, String.toList_eq_nil_iff]

theorem toUTF8_star : "*".toUTF8.toList = [star] := by
  rw [toUTF8_eq]
  rfl

theorem toUTF8_stars : "**".toUTF8.toList = [star, star] := by
  rw [toUTF8_eq]
  rfl

theorem utf8_sep : utf8 "://".toList = [58, 47, 47] := rfl

theorem toUTF8_star_iff {s : String} : s.toUTF8.toList = [star] ↔ s = "*" := by
  rw [← toUTF8_star, toUTF8_inj]

theorem toUTF8_stars_iff {s : String} : s.toUTF8.toList = [star, star] ↔ s = "**" := by
  rw [← toUTF8_stars, toUTF8_inj]

theorem toUTF8_routeOf (scheme : String) (segments : List String) :
    (routeOf scheme segments).toUTF8.toList = scheme.toUTF8.toList ++ [58, 47, 47] ++
      utf8 (['/'].intercalate (segments.map String.toList)) := by
  have hslash : "/".toList = ['/'] := rfl
  rw [toUTF8_eq, toUTF8_eq, routeOf, String.toList_append, String.toList_append,
    String.toList_intercalate, utf8_append, utf8_append, utf8_sep, hslash]

/-- The bytes behind the scheme are cut into the bytes of the segments. -/
theorem splitOn_routeOf {segments : List String} (hne : segments ≠ [])
    (hslash : ∀ segment ∈ segments, '/' ∉ segment.toList) :
    (utf8 (['/'].intercalate (segments.map String.toList))).splitOn slash =
      segments.map fun segment => segment.toUTF8.toList := by
  have hparts : ∀ part ∈ segments.map String.toList, '/' ∉ part := by
    intro part hmem
    obtain ⟨segment, hsegment, rfl⟩ := List.mem_map.1 hmem
    exact hslash segment hsegment
  have hsplit := splitOn_utf8 slash_ascii (by rwa [Ne, List.map_eq_nil_iff]) hparts
  rw [List.map_map] at hsplit
  refine hsplit.trans (List.map_congr_left fun segment _ => ?_)
  exact (toUTF8_eq segment).symm

/-- The segments can be read off the text. -/
theorem routeOf_inj {scheme : String} {segments segments' : List String} (hne : segments ≠ [])
    (hne' : segments' ≠ []) (hslash : ∀ segment ∈ segments, '/' ∉ segment.toList)
    (hslash' : ∀ segment ∈ segments', '/' ∉ segment.toList)
    (h : routeOf scheme segments = routeOf scheme segments') : segments = segments' := by
  have hbytes := congrArg (fun s : String => s.toUTF8.toList) h
  simp only [toUTF8_routeOf, List.append_cancel_left_eq] at hbytes
  have hsplit := splitOn_routeOf hne hslash
  rw [hbytes, splitOn_routeOf hne' hslash'] at hsplit
  exact (List.map_injective_iff.2 fun _ _ heq => toUTF8_inj.1 heq) hsplit.symm

/-- Bytes that begin with a scheme and `"://"` are those of such a text. -/
theorem exists_routeOf {route scheme : String}
    (hpre : scheme.toUTF8.toList ++ [58, 47, 47] <+: route.toUTF8.toList) :
    ∃ segments, segments ≠ [] ∧ (∀ segment ∈ segments, '/' ∉ segment.toList) ∧
      route = routeOf scheme segments := by
  rw [toUTF8_eq, toUTF8_eq, ← utf8_sep, ← utf8_append, utf8_prefix_iff] at hpre
  obtain ⟨rest, hrest⟩ := hpre
  obtain ⟨parts, hne, hparts, rfl⟩ := exists_parts '/' rest
  refine ⟨parts.map String.ofList, by rwa [Ne, List.map_eq_nil_iff], ?_, ?_⟩
  · intro segment hmem
    obtain ⟨part, hpart, rfl⟩ := List.mem_map.1 hmem
    rw [String.toList_ofList]
    exact hparts part hpart
  · have hslash : "/".toList = ['/'] := rfl
    have hback : (parts.map String.ofList).map String.toList = parts := by
      rw [List.map_map]
      refine (List.map_congr_left fun part _ => ?_).trans (List.map_id parts)
      exact String.toList_ofList
    apply String.toList_inj.1
    rw [routeOf, String.toList_append, String.toList_append, String.toList_intercalate, hback,
      hslash, hrest]

/-! ## What `scan` accepts -/

theorem separated_cons {segment : String} {rest : List String} :
    Separated (segment :: rest) ↔
      Separated rest ∧ (segment = "**" → rest.head? ≠ some "**") := by
  unfold Separated
  cases rest with
  | nil => simp
  | cons next rest =>
    rw [List.isChain_cons_cons, List.head?_cons, Ne, Option.some_inj, not_and]
    exact and_comm

/-- What a segment between slashes can be. -/
theorem segment_cases (segment : String) (hslash : '/' ∉ segment.toList) :
    segment = "" ∨ segment = "*" ∨ segment = "**" ∨ Literal segment ∨
      (¬ PatternSegment segment ∧ segment ≠ "" ∧ segment ≠ "*" ∧ segment ≠ "**" ∧
        star ∈ segment.toUTF8.toList) := by
  by_cases hempty : segment = ""
  · exact .inl hempty
  by_cases hone : segment = "*"
  · exact .inr (.inl hone)
  by_cases hmany : segment = "**"
  · exact .inr (.inr (.inl hmany))
  by_cases hstar : '*' ∈ segment.toList
  · refine .inr (.inr (.inr (.inr ⟨?_, hempty, hone, hmany, star_mem_iff.2 hstar⟩)))
    rintro (hliteral | h | h)
    · exact hliteral.2.2 hstar
    · exact hone h
    · exact hmany h
  · exact .inr (.inr (.inr (.inl ⟨hempty, hslash, hstar⟩)))

/-- What `scan` notes of a segment. -/
def Shape.note (shape : Shape) (segment : String) : Shape :=
  if segment = "*" ∨ segment = "**" then
    { shape with
      segments := shape.segments + 1
      firstWildcard := shape.firstWildcard.getD shape.segments
      doubleWildcard := shape.doubleWildcard || segment == "**"
      doubleWildcardCount := shape.doubleWildcardCount + if segment = "**" then 1 else 0 }
  else
    { shape with
      segments := shape.segments + 1
      wildcardSuffix := shape.wildcardSuffix && shape.firstWildcard.isNone }

/-- **One pass of the scan.** -/
theorem scanSegments_cons {segment : String} (hslash : '/' ∉ segment.toList) (rest : List Bytes)
    (shape : Shape) (prev : Bool) :
    (PatternSegment segment ∧ ¬(prev = true ∧ segment = "**") ∧
      scanSegments (segment.toUTF8.toList :: rest) shape prev =
        scanSegments rest (shape.note segment) (segment == "**")) ∨
    (¬(PatternSegment segment ∧ ¬(prev = true ∧ segment = "**")) ∧
      ∃ error, scanSegments (segment.toUTF8.toList :: rest) shape prev = .error error) := by
  rcases segment_cases segment hslash with rfl | rfl | rfl | hliteral | hbad
  · refine .inr ⟨?_, ?_⟩
    · rintro ⟨h | h | h, -⟩
      · exact h.1 rfl
      · exact absurd h (by decide)
      · exact absurd h (by decide)
    · rw [toUTF8_nil_iff.2 rfl]
      exact ⟨_, rfl⟩
  · refine .inl ⟨.inr (.inl rfl), by simp, ?_⟩
    rw [toUTF8_star]
    rfl
  · cases prev with
    | true =>
      refine .inr ⟨fun h => h.2 ⟨rfl, rfl⟩, ?_⟩
      rw [toUTF8_stars]
      exact ⟨_, rfl⟩
    | false =>
      refine .inl ⟨.inr (.inr rfl), by simp, ?_⟩
      rw [toUTF8_stars]
      rfl
  · have hone : segment ≠ "*" := by
      rintro rfl
      exact hliteral.2.2 (by decide)
    have hmany : segment ≠ "**" := by
      rintro rfl
      exact hliteral.2.2 (by decide)
    refine .inl ⟨.inl hliteral, fun h => hmany h.2, ?_⟩
    have hne : segment.toUTF8.toList ≠ [] := fun h => hliteral.1 (toUTF8_nil_iff.1 h)
    have hno : star ∉ segment.toUTF8.toList := fun h => hliteral.2.2 (star_mem_iff.1 h)
    have hone' : (segment.toUTF8.toList == [star]) = false :=
      beq_false_of_ne fun h => hone (toUTF8_star_iff.1 h)
    have hmany' : (segment.toUTF8.toList == [star, star]) = false :=
      beq_false_of_ne fun h => hmany (toUTF8_stars_iff.1 h)
    have hbeq : (segment == "**") = false := beq_false_of_ne hmany
    have hnote : shape.note segment = { shape with
        segments := shape.segments + 1
        wildcardSuffix := shape.wildcardSuffix && shape.firstWildcard.isNone } :=
      if_neg (not_or.2 ⟨hone, hmany⟩)
    rw [hnote, hbeq, scanSegments, hone', hmany', if_neg hne, if_neg hno]
    rfl
  · obtain ⟨hnot, hempty, hone, hmany, hmem⟩ := hbad
    refine .inr ⟨fun h => hnot h.1, ?_⟩
    have hne : segment.toUTF8.toList ≠ [] := fun h => hempty (toUTF8_nil_iff.1 h)
    have hone' : (segment.toUTF8.toList == [star]) = false :=
      beq_false_of_ne fun h => hone (toUTF8_star_iff.1 h)
    have hmany' : (segment.toUTF8.toList == [star, star]) = false :=
      beq_false_of_ne fun h => hmany (toUTF8_stars_iff.1 h)
    rw [scanSegments, hone', hmany', if_neg hne, if_pos hmem]
    exact ⟨_, rfl⟩

/-- What the scan accepts, and what it notes. -/
theorem scanSegments_iff {segments : List String} (hslash : ∀ segment ∈ segments, '/' ∉ segment.toList)
    (shape shape' : Shape) (prev : Bool) :
    scanSegments (segments.map fun segment => segment.toUTF8.toList) shape prev = .ok shape' ↔
      (∀ segment ∈ segments, PatternSegment segment) ∧ Separated segments ∧
        (prev = true → segments.head? ≠ some "**") ∧ shape' = segments.foldl Shape.note shape := by
  induction segments generalizing shape prev with
  | nil =>
    rw [List.map_nil, scanSegments, Except.ok.injEq]
    constructor
    · rintro rfl
      refine ⟨fun _ h => absurd h List.not_mem_nil, List.isChain_nil, fun _ h => ?_, rfl⟩
      cases h
    · rintro ⟨-, -, -, rfl⟩
      rfl
  | cons segment rest ih =>
    obtain ⟨hsegment, hrest⟩ := List.forall_mem_cons.1 hslash
    have hhead : (prev = true → (segment :: rest).head? ≠ some "**") ↔
        (prev = true → segment ≠ "**") := by
      rw [List.head?_cons, Ne, Option.some_inj]
    rw [List.map_cons, List.forall_mem_cons, separated_cons, hhead]
    rcases scanSegments_cons hsegment (rest.map fun segment => segment.toUTF8.toList) shape prev with
      ⟨hpattern, hprev, hscan⟩ | ⟨hno, error, hscan⟩
    · rw [hscan, ih hrest, beq_iff_eq, List.foldl_cons]
      constructor
      · rintro ⟨hall, hsep, hhead, hshape⟩
        exact ⟨⟨hpattern, hall⟩, ⟨hsep, hhead⟩, fun h heq => hprev ⟨h, heq⟩, hshape⟩
      · rintro ⟨⟨-, hall⟩, ⟨hsep, hhead⟩, -, hshape⟩
        exact ⟨hall, hsep, hhead, hshape⟩
    · rw [hscan]
      constructor
      · intro h
        cases h
      · rintro ⟨⟨hpattern, -⟩, -, hhead, -⟩
        exact absurd ⟨hpattern, fun h => hhead h.1 h.2⟩ hno

theorem note_segments (segments : List String) (shape : Shape) :
    (segments.foldl Shape.note shape).segments = shape.segments + segments.length := by
  induction segments generalizing shape with
  | nil => rfl
  | cons segment rest ih =>
    have hnote : (shape.note segment).segments = shape.segments + 1 := by
      unfold Shape.note
      split <;> rfl
    rw [List.foldl_cons, ih, hnote, List.length_cons]
    omega

theorem note_doubleWildcardCount (segments : List String) (shape : Shape) :
    (segments.foldl Shape.note shape).doubleWildcardCount =
      shape.doubleWildcardCount + segments.count "**" := by
  induction segments generalizing shape with
  | nil => rfl
  | cons segment rest ih =>
    have hnote : (shape.note segment).doubleWildcardCount =
        shape.doubleWildcardCount + if segment = "**" then 1 else 0 := by
      unfold Shape.note
      split
      · rfl
      · rename_i h
        rw [if_neg fun heq => h (.inr heq)]
        rfl
    rw [List.foldl_cons, ih, hnote, List.count_cons]
    simp only [beq_iff_eq]
    omega

theorem note_firstWildcard (segments : List String) (shape : Shape) :
    (segments.foldl Shape.note shape).firstWildcard = none ↔
      shape.firstWildcard = none ∧ ∀ segment ∈ segments, segment ≠ "*" ∧ segment ≠ "**" := by
  induction segments generalizing shape with
  | nil => simp
  | cons segment rest ih =>
    have hnote : (shape.note segment).firstWildcard = none ↔
        shape.firstWildcard = none ∧ segment ≠ "*" ∧ segment ≠ "**" := by
      unfold Shape.note
      split
      · rename_i h
        simp only [reduceCtorEq, false_iff, not_and]
        rintro - hone
        exact absurd (h.resolve_left hone)
      · rename_i h
        exact (and_iff_left (not_or.1 h)).symm
    rw [List.foldl_cons, ih, hnote, List.forall_mem_cons, and_assoc]

/-- What `scan` starts from. -/
def Shape.start : Shape := ⟨0, none, false, 0, true⟩

/-- **`scan` accepts the texts of patterns**, of at most 65535 bytes. -/
theorem scan_iff {route scheme : String} {shape : Shape} :
    scan route scheme = .ok shape ↔ route.toUTF8.toList.length ≤ 65535 ∧ scheme ≠ "" ∧
      ∃ segments, PatternText scheme route segments ∧
        shape = segments.foldl Shape.note Shape.start := by
  have hsegments : ∀ segments, segments ≠ [] → (∀ segment ∈ segments, '/' ∉ segment.toList) →
      route = routeOf scheme segments →
      scanSegments ((route.toUTF8.toList.drop (scheme.toUTF8.toList.length + 3)).splitOn slash)
        Shape.start false = scanSegments (segments.map fun segment => segment.toUTF8.toList)
          Shape.start false := by
    intro segments hne hslash htext
    have hdrop : route.toUTF8.toList.drop (scheme.toUTF8.toList.length + 3) =
        utf8 (['/'].intercalate (segments.map String.toList)) := by
      rw [htext, toUTF8_routeOf]
      exact List.drop_left' (by simp)
    rw [hdrop, splitOn_routeOf hne hslash]
  have hslashes : ∀ segments : List String, (∀ segment ∈ segments, PatternSegment segment) →
      ∀ segment ∈ segments, '/' ∉ segment.toList := by
    intro segments hpattern segment hmem
    rcases hpattern segment hmem with h | rfl | rfl
    · exact h.2.1
    · decide
    · decide
  constructor
  · intro h
    simp only [scan] at h
    split at h
    · cases h
    rename_i hlen
    split at h
    · cases h
    rename_i hscheme
    rw [not_or, not_or, not_not] at hscheme
    obtain ⟨hne, -, hpre⟩ := hscheme
    obtain ⟨segments, hsne, hslash, htext⟩ := exists_routeOf (List.isPrefixOf_iff_prefix.1 hpre)
    change scanSegments _ Shape.start false = .ok shape at h
    rw [hsegments segments hsne hslash htext, scanSegments_iff hslash] at h
    obtain ⟨hpattern, hsep, -, hshape⟩ := h
    exact ⟨not_lt.1 hlen, fun heq => hne (toUTF8_nil_iff.2 heq), segments,
      ⟨htext, hsne, hpattern, hsep⟩, hshape⟩
  · rintro ⟨hlen, hne, segments, ⟨htext, hsne, hpattern, hsep⟩, hshape⟩
    have hslash := hslashes segments hpattern
    have hbytes := toUTF8_routeOf scheme segments
    rw [← htext] at hbytes
    -- the first segment is not empty
    have hpath : utf8 (['/'].intercalate (segments.map String.toList)) ≠ [] := by
      intro hnil
      have hsplit := splitOn_routeOf hsne hslash
      rw [hnil] at hsplit
      cases segments with
      | nil => exact hsne rfl
      | cons segment rest =>
        have hempty : segment = "" := toUTF8_nil_iff.1 (List.cons.inj hsplit).1.symm
        rcases hpattern segment List.mem_cons_self with h | h | h
        · exact h.1 hempty
        · rw [hempty] at h
          exact absurd h (by decide)
        · rw [hempty] at h
          exact absurd h (by decide)
    have hscheme : ¬(scheme.toUTF8.toList = [] ∨
        route.toUTF8.toList.length ≤ scheme.toUTF8.toList.length + 3 ∨
        ¬(scheme.toUTF8.toList ++ [58, 47, 47]).isPrefixOf route.toUTF8.toList = true) := by
      rw [not_or, not_or, not_not]
      refine ⟨fun heq => hne (toUTF8_nil_iff.1 heq), ?_, ?_⟩
      · have hpos := List.length_pos_iff.2 hpath
        rw [hbytes, List.length_append, List.length_append]
        simp only [List.length_cons, List.length_nil]
        omega
      · rw [List.isPrefixOf_iff_prefix, hbytes]
        exact List.prefix_append _ _
    simp only [scan]
    rw [if_neg (not_lt.2 hlen), if_neg hscheme]
    change scanSegments _ Shape.start false = .ok shape
    rw [hsegments segments hsne hslash htext, scanSegments_iff hslash]
    exact ⟨hpattern, hsep, fun h => Bool.noConfusion h, hshape⟩

theorem Literal.ne_wildcard {segment : String} (h : Literal segment) :
    segment ≠ "*" ∧ segment ≠ "**" := by
  constructor
  · rintro rfl
    exact h.2.2 (by decide)
  · rintro rfl
    exact h.2.2 (by decide)

/-- The text of a concrete route is that of a pattern without wildcards. -/
theorem concreteText_iff {scheme route : String} {segments : List String} :
    ConcreteText scheme route segments ↔ scheme ≠ "" ∧ PatternText scheme route segments ∧
      ∀ segment ∈ segments, segment ≠ "*" ∧ segment ≠ "**" := by
  constructor
  · rintro ⟨htext, hscheme, hne, hliteral⟩
    refine ⟨hscheme, ⟨htext, hne, fun segment hmem => .inl (hliteral segment hmem), ?_⟩,
      fun segment hmem => (hliteral segment hmem).ne_wildcard⟩
    have hpairs : segments.Pairwise fun a b => ¬(a = "**" ∧ b = "**") := by
      refine List.pairwise_of_forall_mem_list fun a ha b _ hab => ?_
      exact (hliteral a ha).ne_wildcard.2 hab.1
    exact hpairs.isChain
  · rintro ⟨hscheme, ⟨htext, hne, hpattern, -⟩, hplain⟩
    refine ⟨htext, hscheme, hne, fun segment hmem => ?_⟩
    obtain ⟨hone, hmany⟩ := hplain segment hmem
    exact (hpattern segment hmem).resolve_right fun h => h.elim hone hmany

/-- **`validate_fixed_route` accepts the texts of concrete routes** of so many segments. -/
theorem fixedRoute_iff {route scheme : String} {n : ℕ} :
    validateFixedRoute route scheme n = .ok () ↔ route.toUTF8.toList.length ≤ 65535 ∧
      ∃ segments, ConcreteText scheme route segments ∧ segments.length = n := by
  unfold validateFixedRoute
  constructor
  · intro h
    cases hscan : scan route scheme with
    | error error =>
      rw [hscan] at h
      cases h
    | ok shape =>
      rw [hscan] at h
      obtain ⟨hlen, hscheme, segments, hsegments, rfl⟩ := scan_iff.1 hscan
      have hshape : ¬((segments.foldl Shape.note Shape.start).segments ≠ n ∨
          (segments.foldl Shape.note Shape.start).firstWildcard.isSome = true) := by
        intro hwrong
        change (if _ then _ else _) = _ at h
        rw [if_pos hwrong] at h
        cases h
      rw [not_or, not_not, Bool.not_eq_true, Option.isSome_eq_false_iff, Option.isNone_iff_eq_none,
        note_segments, note_firstWildcard] at hshape
      refine ⟨hlen, segments, concreteText_iff.2 ⟨hscheme, hsegments, hshape.2.2⟩, ?_⟩
      rw [← hshape.1]
      exact (Nat.zero_add _).symm
  · rintro ⟨hlen, segments, hroute, hn⟩
    obtain ⟨hscheme, hsegments, hplain⟩ := concreteText_iff.1 hroute
    rw [scan_iff.2 ⟨hlen, hscheme, segments, hsegments, rfl⟩]
    have hnone : (segments.foldl Shape.note Shape.start).firstWildcard = none :=
      (note_firstWildcard segments _).2 ⟨rfl, hplain⟩
    have hcount : (segments.foldl Shape.note Shape.start).segments = n := by
      rw [note_segments, ← hn]
      exact Nat.zero_add _
    change (if _ then _ else _) = _
    rw [if_neg]
    · rfl
    · rw [hnone, hcount]
      simp

end Fitz
