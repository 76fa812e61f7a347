import Fitz.Lib.Glob
import Fitz.Model.Routes
import Fitz.Proof.Fields
import Mathlib.Tactic.GCongr
import Mathlib.Tactic.Linarith

/-!
# Routes match patterns

`route_matches_pattern` walks over byte offsets. From an offset at a segment on, the
path is a list of segments (`segmentsFrom`), and over these lists the loop is the
greedy scan of `Glob` (`matchLoop_eq`). So it ends, and says whether the segments of
the route match those of the pattern (`routes_matched`).
-/

namespace Fitz

open Glob

/-! ## Segments -/

/-- The segments of a path from an offset on. -/
def segmentsFrom (path : Bytes) (start : ℕ) : List Bytes :=
  if start ≥ path.length then [] else (path.drop start).splitOn slash

/-- What follows the scheme and its `"://"`. -/
def routePath (route scheme : String) : Bytes :=
  route.toUTF8.toList.drop (scheme.toUTF8.toList.length + 3)

/-- The segments of a route of the scheme. -/
def routeSegments (route scheme : String) : List Bytes := (routePath route scheme).splitOn slash

/-- The passes `route_matches_pattern` is given. -/
def matchPasses (route pattern : Bytes) : ℕ := (route.length + 2) * (route.length + pattern.length + 3)

/-- What a segment of a pattern stands for. -/
def segmentPiece (segment : Bytes) : Piece Bytes :=
  if segment = [star] then .one else if segment = [star, star] then .many else .literal segment

theorem segmentsFrom_eq_nil {path : Bytes} {start : ℕ} :
    segmentsFrom path start = [] ↔ path.length ≤ start := by
  unfold segmentsFrom
  split
  · rename_i h
    exact ⟨fun _ => h, fun _ => rfl⟩
  · rename_i h
    exact ⟨fun heq => absurd heq (List.splitOn_ne_nil _ _), fun hle => absurd hle h⟩

/-- **The next segment is the head of what is left.** -/
theorem nextSegment_spec {path : Bytes} {start : ℕ} (hclean : [] ∉ segmentsFrom path start)
    (hstart : start < path.length) :
    ∃ segment next, nextSegment path start = some (segment, next) ∧ start < next ∧
      next ≤ path.length ∧ segmentsFrom path start = segment :: segmentsFrom path next := by
  have hsegments : segmentsFrom path start = (path.drop start).splitOn slash :=
    if_neg (by omega)
  unfold nextSegment
  rw [if_neg (by omega)]
  cases hfind : (path.drop start).findIdx? (· == slash) with
  | none =>
    have hno : ∀ b ∈ path.drop start, (b == slash) = false := by
      intro b hb
      simpa using List.findIdx?_eq_none_iff.1 hfind b hb
    refine ⟨path.drop start, path.length, rfl, hstart, le_rfl, ?_⟩
    rw [hsegments, List.splitOn_eq_splitOnP, List.splitOnP_eq_singleton hno,
      segmentsFrom_eq_nil.2 le_rfl]
  | some offset =>
    obtain ⟨hlt, hslash, hbefore⟩ := List.findIdx?_eq_some_iff_getElem.1 hfind
    have hlt' : start + offset < path.length := by
      rw [List.length_drop] at hlt
      omega
    have hdrop : path.drop start = (path.drop start).take offset ++
        slash :: path.drop (start + offset + 1) := by
      have hsplit := (List.take_append_drop offset (path.drop start)).symm
      rwa [List.drop_eq_getElem_cons hlt, eq_of_beq hslash, List.drop_drop,
        ← Nat.add_assoc] at hsplit
    have hno : ∀ b ∈ (path.drop start).take offset, (b == slash) = false := by
      intro b hb
      obtain ⟨j, hj, rfl⟩ := List.getElem_of_mem hb
      rw [List.length_take] at hj
      rw [List.getElem_take]
      simpa using hbefore j (by omega)
    have hsplit : (path.drop start).splitOn slash =
        (path.drop start).take offset :: (path.drop (start + offset + 1)).splitOn slash := by
      rw [List.splitOn_eq_splitOnP]
      nth_rewrite 1 [hdrop]
      rw [List.splitOnP_append_cons_of_forall_mem hno _ (by simp), ← List.splitOn_eq_splitOnP]
    refine ⟨_, _, rfl, by omega, by omega, ?_⟩
    rw [hsegments, hsplit]
    congr 1
    -- a path that ends in a slash has an empty segment
    have hnext : start + offset + 1 < path.length := by
      by_contra hend
      have hnil : path.drop (start + offset + 1) = [] := List.drop_eq_nil_of_le (by omega)
      rw [hsegments, hsplit, hnil] at hclean
      exact hclean (by simp)
    exact (if_neg (by omega)).symm

theorem length_segmentsFrom {path : Bytes} {start : ℕ} (hclean : [] ∉ segmentsFrom path start) :
    (segmentsFrom path start).length ≤ path.length - start := by
  induction h : segmentsFrom path start generalizing start with
  | nil => simp
  | cons segment rest ih =>
    have hstart : start < path.length := by
      by_contra hend
      rw [segmentsFrom_eq_nil.2 (by omega)] at h
      cases h
    obtain ⟨segment', next, -, hlt, hle, hcons⟩ := nextSegment_spec hclean hstart
    obtain ⟨rfl, rfl⟩ := List.cons.inj (h.symm.trans hcons)
    have hrest := ih (fun hmem => hclean (hcons ▸ List.mem_cons_of_mem _ hmem)) rfl
    rw [List.length_cons]
    omega

/-! ## The loop is the greedy scan -/

/-- A segment of a concrete route. -/
def Concrete (segment : Bytes) : Prop := segment ≠ [] ∧ segment ≠ [star, star]

/-- The scan of offsets and the scan of segments stand at the same place. -/
structure Simulates (route pattern : Bytes) (c : MatchScan) (s : Scan Bytes) : Prop where
  input : s.input = segmentsFrom route c.routeIndex
  pattern_eq : s.pattern = (segmentsFrom pattern c.patternIndex).map segmentPiece
  retry : s.retry = c.lastDoubleWildcard.map fun after =>
    ((segmentsFrom pattern after).map segmentPiece, segmentsFrom route c.lastDoubleMatch)
  concrete : ∀ segment ∈ segmentsFrom route c.routeIndex, Concrete segment
  concrete_last : ∀ segment ∈ segmentsFrom route c.lastDoubleMatch, Concrete segment
  whole : [] ∉ segmentsFrom pattern c.patternIndex ∧ c.patternIndex ≤ pattern.length
  whole_after : ∀ after ∈ c.lastDoubleWildcard,
    [] ∉ segmentsFrom pattern after ∧ after ≤ pattern.length

variable {route pattern : Bytes} {c : MatchScan} {s : Scan Bytes}

theorem takes_iff {segment x : Bytes} (hx : Concrete x) :
    (segmentPiece segment).Takes x ↔ segment = [star] ∨ segment = x := by
  unfold segmentPiece
  split
  · rename_i h
    exact ⟨fun _ => .inl h, fun _ => trivial⟩
  · rename_i hone
    split
    · rename_i hmany
      refine ⟨False.elim, ?_⟩
      rintro (h | h)
      · exact absurd h hone
      · exact absurd (h.symm.trans hmany) hx.2
    · exact ⟨.inr, fun h => h.resolve_left hone⟩

theorem many_iff {segment : Bytes} : segmentPiece segment = .many ↔ segment = [star, star] := by
  unfold segmentPiece
  split
  · rename_i h
    subst h
    simp
  · split
    · rename_i h
      exact ⟨fun _ => h, fun _ => rfl⟩
    · rename_i h
      simp [h]

theorem concrete_nil {segments : List Bytes} (h : ∀ segment ∈ segments, Concrete segment) :
    [] ∉ segments := fun hmem => (h [] hmem).1 rfl

/-- `matchStep` with its way back, as one of the branches that fail takes it. -/
def matchBack (route : Bytes) (scan : MatchScan) : Option MatchScan := do
  let afterDoubleWildcard ← scan.lastDoubleWildcard
  let (_, nextDoubleMatch) ← nextSegment route scan.lastDoubleMatch
  return { scan with
    lastDoubleMatch := nextDoubleMatch
    routeIndex := nextDoubleMatch
    patternIndex := afterDoubleWildcard }

theorem simulates_back (h : Simulates route pattern c s) :
    match matchBack route c, s.backtrack with
    | some c', some s' => Simulates route pattern c' s'
    | none, none => True
    | _, _ => False := by
  have hretry := h.retry
  unfold matchBack Scan.backtrack
  cases hlast : c.lastDoubleWildcard with
  | none =>
    rw [hlast, Option.map_none] at hretry
    rw [hretry]
    trivial
  | some after =>
    rw [hlast, Option.map_some] at hretry
    rw [hretry]
    obtain ⟨hwhole, hle⟩ := h.whole_after after hlast
    by_cases hend : c.lastDoubleMatch < route.length
    · obtain ⟨segment, next, hnext, -, -, hcons⟩ :=
        nextSegment_spec (concrete_nil h.concrete_last) hend
      have hconcrete : ∀ segment ∈ segmentsFrom route next, Concrete segment := fun seg hmem =>
        h.concrete_last seg (hcons ▸ List.mem_cons_of_mem _ hmem)
      simp only [hnext, hcons, Option.bind_eq_bind, Option.bind_some, Option.pure_def]
      refine ⟨rfl, rfl, rfl, hconcrete, hconcrete, ⟨hwhole, hle⟩, ?_⟩
      rintro _ ⟨⟩
      exact ⟨hwhole, hle⟩
    · have hnone : nextSegment route c.lastDoubleMatch = none := if_pos (by omega)
      simp only [hnone, segmentsFrom_eq_nil.2 (Nat.le_of_not_lt hend), Option.bind_eq_bind,
        Option.bind_some, Option.bind_none]

theorem simulates_step (h : Simulates route pattern c s) (hroute : c.routeIndex < route.length) :
    match matchStep route pattern c, s.step with
    | some c', some s' => Simulates route pattern c' s'
    | none, none => True
    | _, _ => False := by
  obtain ⟨x, nextRoute, hnextRoute, -, -, hinput⟩ := nextSegment_spec (concrete_nil h.concrete) hroute
  have hx : Concrete x := h.concrete x (hinput ▸ List.mem_cons_self)
  have hrest : ∀ segment ∈ segmentsFrom route nextRoute, Concrete segment := fun seg hmem =>
    h.concrete seg (hinput ▸ List.mem_cons_of_mem _ hmem)
  have hback := simulates_back h
  obtain ⟨p, xs, retry⟩ := s
  have hxs : xs = x :: segmentsFrom route nextRoute := h.input.trans hinput
  have hp : p = (segmentsFrom pattern c.patternIndex).map segmentPiece := h.pattern_eq
  subst hxs hp
  by_cases hend : c.patternIndex < pattern.length
  · obtain ⟨segment, nextPattern, hnextPattern, -, hle, hcons⟩ := nextSegment_spec h.whole.1 hend
    have hwhole : [] ∉ segmentsFrom pattern nextPattern := fun hmem =>
      h.whole.1 (hcons ▸ List.mem_cons_of_mem _ hmem)
    have hstep : matchStep route pattern c =
        if segment = [star] ∨ segment = x then
          some { c with routeIndex := nextRoute, patternIndex := nextPattern }
        else if segment = [star, star] then
          some { c with
            lastDoubleWildcard := some nextPattern
            lastDoubleMatch := c.routeIndex
            patternIndex := nextPattern }
        else matchBack route c := by
      unfold matchStep matchBack
      rw [hnextRoute, hnextPattern]
      rfl
    rw [hstep]
    simp only [hcons, List.map_cons, Scan.step, takes_iff hx, many_iff] at hback ⊢
    by_cases htakes : segment = [star] ∨ segment = x
    · rw [if_pos htakes, if_pos htakes]
      exact ⟨rfl, rfl, h.retry, hrest, h.concrete_last, ⟨hwhole, hle⟩, h.whole_after⟩
    · rw [if_neg htakes, if_neg htakes]
      by_cases hmany : segment = [star, star]
      · rw [if_pos hmany, if_pos hmany]
        refine ⟨hinput.symm, rfl, ?_, h.concrete, h.concrete, ⟨hwhole, hle⟩, ?_⟩
        · rw [hinput]
          rfl
        · rintro after ⟨⟩
          exact ⟨hwhole, hle⟩
      · rw [if_neg hmany, if_neg hmany]
        exact hback
  · have hnone : nextSegment pattern c.patternIndex = none := if_pos (by omega)
    have hstep : matchStep route pattern c = matchBack route c := by
      unfold matchStep matchBack
      rw [hnextRoute, hnone]
      rfl
    rw [hstep]
    simp only [segmentsFrom_eq_nil.2 (Nat.le_of_not_lt hend), List.map_nil, Scan.step] at hback ⊢
    exact hback

/-- What is left of the pattern at the end of the route must be `**`s. -/
theorem matchRest_eq {passes patternIndex : ℕ} (hwhole : [] ∉ segmentsFrom pattern patternIndex)
    (hle : patternIndex ≤ pattern.length)
    (hpasses : (segmentsFrom pattern patternIndex).length < passes) :
    matchRest pattern passes patternIndex =
      some (((segmentsFrom pattern patternIndex).map segmentPiece).all (· = .many)) := by
  induction passes generalizing patternIndex with
  | zero => omega
  | succ passes ih =>
    unfold matchRest
    by_cases hend : patternIndex < pattern.length
    · obtain ⟨segment, next, hnext, -, hle', hcons⟩ := nextSegment_spec hwhole hend
      rw [hcons, List.length_cons] at hpasses
      rw [hcons] at hwhole
      simp only [hnext, hcons, List.map_cons, List.all_cons, many_iff]
      by_cases hmany : segment = [star, star]
      · rw [if_pos hmany, ih (fun hmem => hwhole (List.mem_cons_of_mem _ hmem)) hle' (by omega)]
        simp [hmany]
      · rw [if_neg hmany]
        simp [hmany]
    · have hnone : nextSegment pattern patternIndex = none := if_pos (by omega)
      have heq : patternIndex = pattern.length := by omega
      simp only [hnone, segmentsFrom_eq_nil.2 (Nat.le_of_not_lt hend), List.map_nil, List.all_nil]
      rw [heq, beq_self_eq_true]

/-- **The loop over offsets is the greedy scan over segments.** -/
theorem matchLoop_eq {passes : ℕ} (h : Simulates route pattern c s) :
    matchLoop route pattern passes c = s.run passes := by
  induction passes generalizing c s with
  | zero => rfl
  | succ passes ih =>
    unfold matchLoop Scan.run
    by_cases hroute : c.routeIndex < route.length
    · have hinput : s.input ≠ [] := by
        rw [h.input]
        exact fun heq => absurd (segmentsFrom_eq_nil.1 heq) (by omega)
      rw [if_pos hroute, if_neg hinput]
      have hstep := simulates_step h hroute
      cases hc : matchStep route pattern c with
      | none =>
        rw [hc] at hstep
        cases hs : s.step with
        | none => rfl
        | some s' =>
          rw [hs] at hstep
          exact hstep.elim
      | some c' =>
        rw [hc] at hstep
        cases hs : s.step with
        | none =>
          rw [hs] at hstep
          exact hstep.elim
        | some s' =>
          rw [hs] at hstep
          exact ih hstep
    · have hinput : s.input = [] := by
        rw [h.input]
        exact segmentsFrom_eq_nil.2 (by omega)
      have hlength := length_segmentsFrom h.whole.1
      rw [if_neg hroute, if_pos hinput, matchRest_eq h.whole.1 h.whole.2 (by omega), h.pattern_eq]

/-! ## Validated routes -/

/-- The scheme is free of the bytes of `':'` and `'/'`. -/
def PlainScheme (scheme : String) : Prop := 58 ∉ scheme.toUTF8.toList ∧ slash ∉ scheme.toUTF8.toList

instance (scheme : String) : Decidable (PlainScheme scheme) :=
  inferInstanceAs (Decidable (58 ∉ scheme.toUTF8.toList ∧ slash ∉ scheme.toUTF8.toList))

/-- What `scan` says of the segments: none is empty, and without a wildcard none has a `*`. -/
theorem scanSegments_ok {segments : List Bytes} {shape shape' : Shape} {prev : Bool}
    (h : scanSegments segments shape prev = .ok shape') :
    [] ∉ segments ∧ (shape'.firstWildcard = none → shape.firstWildcard = none ∧
      ∀ segment ∈ segments, star ∉ segment) := by
  induction segments generalizing shape prev with
  | nil =>
    cases h
    simp
  | cons segment rest ih =>
    simp only [scanSegments] at h
    split at h
    · cases h
    · rename_i hne
      split at h
      · split at h
        · cases h
        · obtain ⟨hrest, hplain⟩ := ih h
          refine ⟨by simp [hrest, Ne.symm hne], fun hnone => ?_⟩
          -- a wildcard is noted
          have habsurd := (hplain hnone).1
          simp at habsurd
      · split at h
        · cases h
        · rename_i hstar
          obtain ⟨hrest, hplain⟩ := ih h
          refine ⟨by simp [hrest, Ne.symm hne], fun hnone => ?_⟩
          obtain ⟨hfirst, hall⟩ := hplain hnone
          refine ⟨hfirst, fun seg hmem => ?_⟩
          rcases List.mem_cons.1 hmem with rfl | hmem
          · exact hstar
          · exact hall seg hmem

theorem scan_ok {route scheme : String} {shape : Shape} (h : scan route scheme = .ok shape) :
    route.toUTF8.toList = scheme.toUTF8.toList ++ [58, 47, 47] ++ routePath route scheme ∧
      [] ∉ routeSegments route scheme ∧
      (shape.firstWildcard = none → ∀ segment ∈ routeSegments route scheme, star ∉ segment) := by
  simp only [scan] at h
  split at h
  · cases h
  · split at h
    · cases h
    · rename_i hscheme
      obtain ⟨hempty, hplain⟩ := scanSegments_ok h
      refine ⟨?_, hempty, fun hnone => (hplain hnone).2⟩
      have hprefix : scheme.toUTF8.toList ++ [58, 47, 47] <+: route.toUTF8.toList := by
        by_contra hno
        exact hscheme (.inr (.inr (by simpa using hno)))
      obtain ⟨path, hpath⟩ := hprefix
      rw [routePath, ← hpath, List.drop_left' (by simp)]

/-- A plain scheme ends at the first `"://"`. -/
theorem splitScheme_of_plain {scheme path : Bytes} (h : 58 ∉ scheme) :
    splitScheme (scheme ++ [58, 47, 47] ++ path) = some (scheme, path) := by
  induction scheme with
  | nil =>
    cases path <;> rfl
  | cons b scheme ih =>
    rw [List.mem_cons, not_or] at h
    have hno : ¬ [58, 47, 47].isPrefixOf (b :: (scheme ++ [58, 47, 47] ++ path)) = true := by
      simp [List.isPrefixOf, h.1]
    simp only [List.cons_append, splitScheme]
    rw [List.append_assoc] at ih
    rw [List.append_assoc] at hno ⊢
    rw [if_neg hno, ih h.2]
    rfl

theorem toUTF8_inj {s t : String} : s.toUTF8.toList = t.toUTF8.toList ↔ s = t := by
  constructor
  · intro h
    rw [toList_eq, toList_eq] at h
    exact String.toByteArray_inj.1 (ByteArray.ext (Array.toList_inj.1 h))
  · rintro rfl
    rfl

theorem segmentsFrom_zero {path : Bytes} (h : [] ∉ path.splitOn slash) :
    path ≠ [] ∧ segmentsFrom path 0 = path.splitOn slash := by
  have hne : path ≠ [] := by
    rintro rfl
    exact h (by simp)
  exact ⟨hne, if_neg (by have := List.length_pos_iff.2 hne; omega)⟩

/-- The loop over the paths decides whether the segments match. -/
theorem matchLoop_paths {route pattern : Bytes} (hroute : [] ∉ route.splitOn slash)
    (hstar : ∀ segment ∈ route.splitOn slash, star ∉ segment)
    (hpattern : [] ∉ pattern.splitOn slash) :
    ∃ matched, matchLoop route pattern (matchPasses route pattern) ⟨0, 0, none, 0⟩ = some matched ∧
      (matched = true ↔
        Matches ((pattern.splitOn slash).map segmentPiece) (route.splitOn slash)) := by
  have hr := segmentsFrom_zero hroute
  have hp := segmentsFrom_zero hpattern
  have hconcrete : ∀ segment ∈ segmentsFrom route 0, Concrete segment := by
    intro segment hmem
    rw [hr.2] at hmem
    refine ⟨fun heq => hroute (heq ▸ hmem), fun heq => hstar segment hmem ?_⟩
    rw [heq]
    exact List.mem_cons_self
  have hclean : [] ∉ segmentsFrom pattern 0 := by rwa [hp.2]
  have hsim : Simulates route pattern ⟨0, 0, none, 0⟩
      ⟨(segmentsFrom pattern 0).map segmentPiece, segmentsFrom route 0, none⟩ :=
    ⟨rfl, rfl, rfl, hconcrete, hconcrete, ⟨hclean, Nat.zero_le _⟩, fun _ h => by cases h⟩
  -- there are no more segments than bytes
  have hroutes := length_segmentsFrom (concrete_nil hconcrete)
  have hpatterns := length_segmentsFrom hclean
  rw [hr.2] at hroutes
  rw [hp.2] at hpatterns
  rw [matchLoop_eq hsim, hr.2, hp.2]
  refine Scan.run_iff ?_
  rw [List.length_map]
  calc ((route.splitOn slash).length + 1) * ((pattern.splitOn slash).length + 1) +
        (pattern.splitOn slash).length
      ≤ (route.length + 1) * (pattern.length + 1) + pattern.length := by gcongr <;> omega
    _ < (route.length + 2) * (route.length + pattern.length + 3) := by nlinarith
    _ = matchPasses route pattern := rfl

/-- A route and a pattern, each with a scheme that ends at its first `"://"`. -/
theorem matched_paths {route pattern : String} {scheme path scheme' path' : Bytes}
    (hscheme : 58 ∉ scheme) (hscheme' : 58 ∉ scheme')
    (hbytes : route.toUTF8.toList = scheme ++ [58, 47, 47] ++ path)
    (hbytes' : pattern.toUTF8.toList = scheme' ++ [58, 47, 47] ++ path')
    (hempty : [] ∉ path.splitOn slash) (hstar : ∀ segment ∈ path.splitOn slash, star ∉ segment)
    (hempty' : [] ∉ path'.splitOn slash) :
    routeMatchesPattern route pattern = true ↔ scheme = scheme' ∧
      Matches ((path'.splitOn slash).map segmentPiece) (path.splitOn slash) := by
  obtain ⟨matched, hloop, hmatched⟩ := matchLoop_paths hempty hstar hempty'
  have hsplit : splitScheme route.toUTF8.toList = some (scheme, path) := by
    rw [hbytes]
    exact splitScheme_of_plain hscheme
  have hsplit' : splitScheme pattern.toUTF8.toList = some (scheme', path') := by
    rw [hbytes']
    exact splitScheme_of_plain hscheme'
  simp only [routeMatchesPattern, hsplit, hsplit']
  by_cases hschemes : scheme = scheme'
  · have hgo : ¬(scheme ≠ scheme' ∨ path = [] ∨ path' = []) := by
      rintro (h | h | h)
      · exact h hschemes
      · exact (segmentsFrom_zero hempty).1 h
      · exact (segmentsFrom_zero hempty').1 h
    rw [matchPasses] at hloop
    rw [if_neg hgo, hloop, Option.getD_some, hmatched]
    exact (and_iff_right hschemes).symm
  · rw [if_pos (.inl hschemes)]
    exact ⟨fun h => absurd h Bool.false_ne_true, fun h => absurd h.1 hschemes⟩

/-- **Routes match patterns as their segments do.** The loop ends, and a concrete route
matches a registration pattern exactly if the schemes are equal and its segments match
those of the pattern, where a literal matches itself, `*` one segment and `**` any
number of them. -/
theorem routes_matched {route pattern routeScheme patternScheme : String}
    (hr : PlainScheme routeScheme) (hp : PlainScheme patternScheme)
    (hroute : validateConcreteRoute route routeScheme = .ok ())
    (hpattern : validateRegistrationPattern pattern patternScheme 0 = .ok ()) :
    (∃ matched, matchLoop (routePath route routeScheme) (routePath pattern patternScheme)
        (matchPasses (routePath route routeScheme) (routePath pattern patternScheme))
        ⟨0, 0, none, 0⟩ = some matched) ∧
      (routeMatchesPattern route pattern = true ↔ routeScheme = patternScheme ∧
        Matches ((routeSegments pattern patternScheme).map segmentPiece)
          (routeSegments route routeScheme)) := by
  have hscan : ∃ shape, scan route routeScheme = .ok shape ∧ shape.firstWildcard = none := by
    unfold validateConcreteRoute at hroute
    cases hs : scan route routeScheme with
    | error e =>
      rw [hs] at hroute
      cases hroute
    | ok shape =>
      rw [hs] at hroute
      refine ⟨shape, rfl, ?_⟩
      cases hwild : shape.firstWildcard with
      | none => rfl
      | some k => simp [hwild, invalid, bind, Except.bind] at hroute
  obtain ⟨shape, hscan, hnone⟩ := hscan
  have hscan' : ∃ shape, scan pattern patternScheme = .ok shape := by
    unfold validateRegistrationPattern at hpattern
    cases hs : scan pattern patternScheme with
    | error e =>
      rw [hs] at hpattern
      cases hpattern
    | ok shape => exact ⟨shape, rfl⟩
  obtain ⟨shape', hscan'⟩ := hscan'
  obtain ⟨hbytes, hempty, hstar⟩ := scan_ok hscan
  obtain ⟨hbytes', hempty', -⟩ := scan_ok hscan'
  obtain ⟨matched, hloop, -⟩ := matchLoop_paths hempty (hstar hnone) hempty'
  refine ⟨⟨matched, hloop⟩, ?_⟩
  rw [matched_paths hr.1 hp.1 hbytes hbytes' hempty (hstar hnone) hempty', toUTF8_inj]
  rfl

/-- A pattern with two `**`, which the scan has to go back to. -/
theorem routes_matched_twice :
    routeMatchesPattern "rpc://a/b/c/b/d" "rpc://**/b/**/d" = true ∧
      Matches ((routeSegments "rpc://**/b/**/d" "rpc").map segmentPiece)
        (routeSegments "rpc://a/b/c/b/d" "rpc") := by
  have hmatches : routeMatchesPattern "rpc://a/b/c/b/d" "rpc://**/b/**/d" = true := by decide +kernel
  have hplain : PlainScheme "rpc" := by decide +kernel
  have hroute : validateConcreteRoute "rpc://a/b/c/b/d" "rpc" = .ok () := by decide +kernel
  have hpattern : validateRegistrationPattern "rpc://**/b/**/d" "rpc" 0 = .ok () := by
    decide +kernel
  exact ⟨hmatches, ((routes_matched hplain hplain hroute hpattern).2.1 hmatches).2⟩

end Fitz
