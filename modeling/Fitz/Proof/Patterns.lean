import Fitz.Proof.RouteText

/-!
# Registration patterns

`validate_registration_pattern` decides by counting segments, `route_matches_pattern` by
going back to the latest `**`. They agree (`registration_reachable`): a pattern is accepted
for a depth exactly if it is well formed and some concrete route of this depth matches it.
-/

namespace Fitz

open Glob Utf8

/-! ## Matching texts -/

/-- What a segment of a pattern stands for. -/
def textPiece (segment : String) : Piece String :=
  if segment = "*" then .one else if segment = "**" then .many else .literal segment

theorem textPiece_one : textPiece "*" = .one := rfl

theorem textPiece_many : textPiece "**" = .many := rfl

theorem textPiece_literal {segment : String} (h : Literal segment) :
    textPiece segment = .literal segment := by
  unfold textPiece
  rw [if_neg h.ne_wildcard.1, if_neg h.ne_wildcard.2]

/-- The pieces of bytes are those of texts. -/
theorem segmentPiece_eq (segment : String) :
    segmentPiece segment.toUTF8.toList =
      (textPiece segment).map fun segment => segment.toUTF8.toList := by
  unfold segmentPiece textPiece
  simp only [toUTF8_star_iff, toUTF8_stars_iff]
  split
  · rfl
  · split <;> rfl

theorem PatternSegment.slash_free {segment : String} (h : PatternSegment segment) :
    '/' ∉ segment.toList := by
  rcases h with h | rfl | rfl
  · exact h.2.1
  · decide
  · decide

theorem PatternSegment.ne_empty {segment : String} (h : PatternSegment segment) : segment ≠ "" := by
  rcases h with h | rfl | rfl
  · exact h.1
  · decide
  · decide

theorem nil_not_mem_bytes {segments : List String} (h : ∀ segment ∈ segments, segment ≠ "") :
    [] ∉ segments.map fun segment => segment.toUTF8.toList := by
  intro hmem
  obtain ⟨segment, hsegment, hnil⟩ := List.mem_map.1 hmem
  exact h segment hsegment (toUTF8_nil_iff.1 hnil)

/-- **A concrete route matches a pattern as its segments do**, whatever their length. -/
theorem matched_iff {scheme route pattern : String} {segments pieces : List String}
    (hscheme : ':' ∉ scheme.toList) (hroute : ConcreteText scheme route segments)
    (hpattern : PatternText scheme pattern pieces) :
    routeMatchesPattern route pattern = true ↔ Matches (pieces.map textPiece) segments := by
  have hsplit := splitOn_routeOf hroute.nonempty fun segment hmem => (hroute.literal segment hmem).2.1
  have hsplit' := splitOn_routeOf hpattern.nonempty fun segment hmem =>
    (hpattern.segment segment hmem).slash_free
  have hcolon : 58 ∉ scheme.toUTF8.toList := fun h => hscheme (colon_mem_iff.1 h)
  have hbytes := toUTF8_routeOf scheme segments
  have hbytes' := toUTF8_routeOf scheme pieces
  rw [← hroute.text] at hbytes
  rw [← hpattern.text] at hbytes'
  have hempty := nil_not_mem_bytes fun segment hmem => (hroute.literal segment hmem).1
  have hempty' := nil_not_mem_bytes fun segment hmem => (hpattern.segment segment hmem).ne_empty
  have hstar : ∀ bytes ∈ segments.map (fun segment => segment.toUTF8.toList), star ∉ bytes := by
    intro bytes hmem
    obtain ⟨segment, hsegment, rfl⟩ := List.mem_map.1 hmem
    rw [star_mem_iff]
    exact (hroute.literal segment hsegment).2.2
  have hpaths := matched_paths hcolon hcolon hbytes hbytes' (by rwa [hsplit]) (by rwa [hsplit])
    (by rwa [hsplit'])
  have hpieces : (pieces.map fun segment => segment.toUTF8.toList).map segmentPiece =
      (pieces.map textPiece).map (Piece.map fun segment => segment.toUTF8.toList) := by
    rw [List.map_map, List.map_map]
    exact List.map_congr_left fun segment _ => segmentPiece_eq segment
  rw [hpaths, hsplit, hsplit', hpieces, matches_map fun _ _ heq => toUTF8_inj.1 heq]
  exact and_iff_right rfl

/-! ## Counting -/

theorem count_many (pieces : List String) :
    (pieces.map textPiece).count .many = pieces.count "**" := by
  induction pieces with
  | nil => rfl
  | cons piece rest ih =>
    rw [List.map_cons, List.count_cons, List.count_cons, ih]
    by_cases hmany : piece = "**"
    · rw [hmany]
      rfl
    · have hne : textPiece piece ≠ .many := by
        unfold textPiece
        rw [if_neg hmany]
        split <;> simp
      rw [beq_false_of_ne hmany, beq_false_of_ne hne]

theorem PatternText.literals {scheme pattern : String} {pieces : List String}
    (h : PatternText scheme pattern pieces) : LiteralsIn Literal (pieces.map textPiece) := by
  intro segment hmem
  obtain ⟨piece, hpiece, heq⟩ := List.mem_map.1 hmem
  rcases h.segment piece hpiece with hliteral | rfl | rfl
  · rw [textPiece_literal hliteral] at heq
    cases heq
    exact hliteral
  · cases heq
  · cases heq

/-- What is accepted as a registration pattern of so many segments. -/
theorem registration_iff {pattern scheme : String} {n : ℕ} (hn : n ≠ 0) :
    validateRegistrationPattern pattern scheme n = .ok () ↔
      pattern.toUTF8.toList.length ≤ 65535 ∧ scheme ≠ "" ∧
        ∃ pieces, PatternText scheme pattern pieces ∧
          if pieces.count "**" = 0 then pieces.length = n
          else pieces.length - pieces.count "**" ≤ n := by
  -- the decision after the scan
  have hdecide : ∀ pieces : List String,
      (let shape := pieces.foldl Shape.note Shape.start
       (do
          if n = 0 then return
          if shape.doubleWildcardCount = 0 then
            if shape.segments = n then return
          else if shape.segments - shape.doubleWildcardCount ≤ n then return
          invalid "registration pattern cannot match the required route depth" : Result Unit) =
        .ok ()) ↔
      if pieces.count "**" = 0 then pieces.length = n
      else pieces.length - pieces.count "**" ≤ n := by
    intro pieces
    simp only [note_doubleWildcardCount, note_segments, Shape.start, Nat.zero_add]
    rw [if_neg hn]
    split
    · by_cases hlen : pieces.length = n
      · rw [if_pos hlen]
        exact ⟨fun _ => hlen, fun _ => rfl⟩
      · rw [if_neg hlen]
        refine ⟨fun h => ?_, fun h => absurd h hlen⟩
        cases h
    · by_cases hle : pieces.length - pieces.count "**" ≤ n
      · rw [if_pos hle]
        exact ⟨fun _ => hle, fun _ => rfl⟩
      · rw [if_neg hle]
        refine ⟨fun h => ?_, fun h => absurd h hle⟩
        cases h
  unfold validateRegistrationPattern
  constructor
  · intro h
    cases hscan : scan pattern scheme with
    | error error =>
      rw [hscan] at h
      cases h
    | ok shape =>
      rw [hscan] at h
      obtain ⟨hlen, hscheme, pieces, hpieces, rfl⟩ := scan_iff.1 hscan
      exact ⟨hlen, hscheme, pieces, hpieces, (hdecide pieces).1 h⟩
  · rintro ⟨hlen, hscheme, pieces, hpieces, hcount⟩
    rw [scan_iff.2 ⟨hlen, hscheme, pieces, hpieces, rfl⟩]
    exact (hdecide pieces).2 hcount

/-- **Registration is sound and complete for depth.** -/
theorem registration_reachable (scheme pattern : String) (n : ℕ)
    (hscheme : ∀ c ∈ ['/', ':', '*'], c ∉ scheme.toList) (hn : 1 ≤ n)
    (hlen : pattern.toUTF8.toList.length ≤ 65535) :
    validateRegistrationPattern pattern scheme n = .ok () ↔
      (∃ pieces, PatternText scheme pattern pieces) ∧
        ∃ route segments, ConcreteText scheme route segments ∧ segments.length = n ∧
          routeMatchesPattern route pattern = true := by
  have hcolon : ':' ∉ scheme.toList := hscheme ':' (by simp)
  have hliteral : Literal "a" := by decide
  -- some list of literals of this length matches
  have hlengths : ∀ pieces, PatternText scheme pattern pieces →
      ((∃ segments, segments.length = n ∧ (∀ segment ∈ segments, Literal segment) ∧
        Matches (pieces.map textPiece) segments) ↔
      if pieces.count "**" = 0 then pieces.length = n
      else pieces.length - pieces.count "**" ≤ n) := by
    intro pieces hpieces
    have hiff := exists_matches_iff hliteral hpieces.literals n
    rwa [count_many, List.length_map] at hiff
  rw [registration_iff (by omega)]
  constructor
  · rintro ⟨-, hne, pieces, hpieces, hcount⟩
    refine ⟨⟨pieces, hpieces⟩, ?_⟩
    obtain ⟨segments, hsegments, hall, hmatch⟩ := (hlengths pieces hpieces).2 hcount
    have hnonempty : segments ≠ [] := by
      rintro rfl
      rw [List.length_nil] at hsegments
      omega
    have hroute : ConcreteText scheme (routeOf scheme segments) segments :=
      ⟨rfl, hne, hnonempty, hall⟩
    exact ⟨_, segments, hroute, hsegments, (matched_iff hcolon hroute hpieces).2 hmatch⟩
  · rintro ⟨⟨pieces, hpieces⟩, route, segments, hroute, hsegments, hmatched⟩
    have hmatch := (matched_iff hcolon hroute hpieces).1 hmatched
    exact ⟨hlen, hroute.scheme_ne, pieces, hpieces,
      (hlengths pieces hpieces).1 ⟨segments, hsegments, hroute.literal, hmatch⟩⟩

/-- Two `**` and a literal between them fit four segments. -/
theorem registration_reachable_between :
    validateRegistrationPattern "queue://**/b/**" "queue" 4 = .ok () := by
  have hbytes : "queue://**/b/**".toUTF8.toList.length = 15 := by
    rw [toUTF8_eq]
    rfl
  have hscheme : ∀ c ∈ ['/', ':', '*'], c ∉ "queue".toList := by simp
  have hpattern : PatternText "queue" "queue://**/b/**" ["**", "b", "**"] :=
    ⟨by decide, by decide, by simp [PatternSegment, Literal], by simp [Separated]⟩
  have hroute : ConcreteText "queue" "queue://a/a/b/c" ["a", "a", "b", "c"] :=
    ⟨by decide, by decide, by decide, by decide⟩
  exact (registration_reachable "queue" "queue://**/b/**" 4 hscheme (by decide) (by omega)).2
    ⟨⟨_, hpattern⟩, _, _, hroute, rfl, by decide +kernel⟩

end Fitz
