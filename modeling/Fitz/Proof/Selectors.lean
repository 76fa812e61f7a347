import Fitz.Proof.Patterns

/-!
# Stream selectors

`classify_stream_selector` accepts three shapes of selectors, and the scope it gives to one
says what the concrete routes it matches have in common (`selector_scopes`). Each accepted
selector fixes some of realm, area and resource and leaves the others open
(`SelectorShape`); routes that differ where it is open tell the scopes apart. Only with
the limit on the length of routes there are selectors without routes, `FullRealm`.
-/

namespace Fitz

open Glob

/-! ## Routes of streams -/

/-- The segments of a concrete stream route. -/
structure StreamPath where
  realm : String
  area : String
  resource : String

namespace StreamPath

def segments (p : StreamPath) : List String := [p.realm, p.area, p.resource]

def route (p : StreamPath) : String := routeOf "stream" p.segments

def Concrete (p : StreamPath) : Prop := ∀ segment ∈ p.segments, Literal segment

end StreamPath

/-- The concrete three-segment routes a selector matches. -/
def Selected (selector : String) (p : StreamPath) : Prop :=
  p.Concrete ∧ routeMatchesPattern p.route selector = true

/-- Those that `validate_fixed_route` accepts, with its limit on the length. -/
def SelectedWithin (selector : String) (p : StreamPath) : Prop :=
  Selected selector p ∧ validateFixedRoute p.route "stream" 3 = .ok ()

/-- A literal or `*`. -/
def OpenSegment (segment : String) : Prop := Literal segment ∨ segment = "*"

/-- `stream://**`, `stream://R/**`, or `stream://R/A/S` of literals and `*`. -/
def SelectorText (selector : String) : Prop :=
  selector = "stream://**" ∨ selector.toUTF8.toList.length ≤ 65535 ∧
    ((∃ realm, Literal realm ∧ selector = routeOf "stream" [realm, "**"]) ∨
      ∃ realm area resource, (OpenSegment realm ∧ OpenSegment area ∧ OpenSegment resource) ∧
        selector = routeOf "stream" [realm, area, resource])

/-! ## What a scope means -/

/-- There is one path only; they share realm and area but not resource; they share the
realm but not the area; they differ in realm. -/
def StreamSelectorScope.Means (scope : StreamSelectorScope) (P : StreamPath → Prop) : Prop :=
  match scope with
  | .resource => ∃ p, P p ∧ ∀ q, P q → q = p
  | .area => (∀ p q, P p → P q → p.realm = q.realm ∧ p.area = q.area) ∧
      ∃ p q, P p ∧ P q ∧ p.resource ≠ q.resource
  | .realm => (∀ p q, P p → P q → p.realm = q.realm) ∧ ∃ p q, P p ∧ P q ∧ p.area ≠ q.area
  | .global => ∃ p q, P p ∧ P q ∧ p.realm ≠ q.realm

namespace StreamSelectorScope

variable {P : StreamPath → Prop}

/-- A selector of one path has no other scope. -/
theorem resource_only {s : StreamSelectorScope} (h : resource.Means P) (hs : s.Means P) :
    s = resource := by
  obtain ⟨o, -, ho⟩ := h
  have hone : ∀ {p q}, P p → P q → p = q := by
    intro p q hp hq
    rw [ho p hp, ho q hq]
  cases s with
  | resource => rfl
  | area =>
    obtain ⟨-, p, q, hp, hq, hpq⟩ := hs
    exact absurd (by rw [hone hp hq]) hpq
  | realm =>
    obtain ⟨-, p, q, hp, hq, hpq⟩ := hs
    exact absurd (by rw [hone hp hq]) hpq
  | global =>
    obtain ⟨p, q, hp, hq, hpq⟩ := hs
    exact absurd (by rw [hone hp hq]) hpq

/-- What the narrower scope shares, the wider one has two paths for. -/
theorem not_area_realm (h : area.Means P) : ¬ realm.Means P := by
  rintro ⟨-, p, q, hp, hq, hpq⟩
  exact hpq (h.1 p q hp hq).2

theorem not_area_global (h : area.Means P) : ¬ global.Means P := by
  rintro ⟨p, q, hp, hq, hpq⟩
  exact hpq (h.1 p q hp hq).1

theorem not_realm_global (h : realm.Means P) : ¬ global.Means P := by
  rintro ⟨p, q, hp, hq, hpq⟩
  exact hpq (h.1 p q hp hq)

/-- The scopes exclude each other. -/
theorem means_unique {s t : StreamSelectorScope} (hs : s.Means P) (ht : t.Means P) : s = t := by
  cases s with
  | resource => exact (resource_only hs ht).symm
  | area =>
    cases t with
    | resource => exact resource_only ht hs
    | area => rfl
    | realm => exact absurd ht (not_area_realm hs)
    | global => exact absurd ht (not_area_global hs)
  | realm =>
    cases t with
    | resource => exact resource_only ht hs
    | area => exact absurd hs (not_area_realm ht)
    | realm => rfl
    | global => exact absurd ht (not_realm_global hs)
  | global =>
    cases t with
    | resource => exact resource_only ht hs
    | area => exact absurd hs (not_area_global ht)
    | realm => exact absurd hs (not_realm_global ht)
    | global => rfl

end StreamSelectorScope

/-! ## Boxes -/

/-- What a selector fixes; nothing where it is open. -/
structure StreamBox where
  realm : Option String
  area : Option String
  resource : Option String

namespace StreamBox

/-- The path has the fixed segments. -/
def Has (b : StreamBox) (p : StreamPath) : Prop :=
  (∀ realm ∈ b.realm, p.realm = realm) ∧ (∀ area ∈ b.area, p.area = area) ∧
    ∀ resource ∈ b.resource, p.resource = resource

/-- The fixed segments, with others where the selector is open. -/
def fill (b : StreamBox) (realm area resource : String) : StreamPath :=
  ⟨b.realm.getD realm, b.area.getD area, b.resource.getD resource⟩

def scope (b : StreamBox) : StreamSelectorScope :=
  if b.realm = none then .global else if b.area = none then .realm
  else if b.resource = none then .area else .resource

theorem has_fill (b : StreamBox) (realm area resource : String) :
    b.Has (b.fill realm area resource) := by
  refine ⟨fun r hr => ?_, fun a ha => ?_, fun s hs => ?_⟩
  · rw [fill, Option.mem_def.1 hr, Option.getD_some]
  · rw [fill, Option.mem_def.1 ha, Option.getD_some]
  · rw [fill, Option.mem_def.1 hs, Option.getD_some]

/-- **Of the paths of a box its scope tells what they share**, if the box can be filled with
one of two segments at each open place. -/
theorem scope_means (b : StreamBox) {P : StreamPath → Prop} (hhas : ∀ p, P p → b.Has p)
    (hfill : ∀ u ∈ ["a", "b"], ∀ v ∈ ["a", "b"], ∀ w ∈ ["a", "b"], P (b.fill u v w)) :
    b.scope.Means P := by
  have ha : "a" ∈ ["a", "b"] := by simp
  have hb : "b" ∈ ["a", "b"] := by simp
  have hab : "a" ≠ "b" := by decide
  have hfirst := hfill "a" ha "a" ha "a" ha
  unfold scope
  cases hrealm : b.realm with
  | none =>
    rw [if_pos rfl]
    refine ⟨_, _, hfirst, hfill "b" hb "a" ha "a" ha, ?_⟩
    simp only [fill, hrealm, Option.getD_none]
    exact hab
  | some realm =>
    have hshare : ∀ p, P p → p.realm = realm := fun p hp => (hhas p hp).1 realm hrealm
    rw [if_neg (by simp)]
    cases harea : b.area with
    | none =>
      rw [if_pos rfl]
      refine ⟨fun p q hp hq => by rw [hshare p hp, hshare q hq], _, _, hfirst,
        hfill "a" ha "b" hb "a" ha, ?_⟩
      simp only [fill, harea, Option.getD_none]
      exact hab
    | some area =>
      have hshare' : ∀ p, P p → p.area = area := fun p hp => (hhas p hp).2.1 area harea
      rw [if_neg (by simp)]
      cases hresource : b.resource with
      | none =>
        rw [if_pos rfl]
        refine ⟨fun p q hp hq => ⟨by rw [hshare p hp, hshare q hq],
          by rw [hshare' p hp, hshare' q hq]⟩, _, _, hfirst, hfill "a" ha "a" ha "b" hb, ?_⟩
        simp only [fill, hresource, Option.getD_none]
        exact hab
      | some resource =>
        rw [if_neg (by simp)]
        refine ⟨_, hfirst, fun q hq => ?_⟩
        have hq' := (hhas q hq).2.2 resource hresource
        obtain ⟨realm', area', resource'⟩ := q
        simp only [fill, hrealm, harea, hresource, Option.getD_some]
        rw [StreamPath.mk.injEq]
        exact ⟨hshare _ hq, hshare' _ hq, hq'⟩

end StreamBox

/-! ## Shapes -/

/-- The accepted selectors, with what they fix. -/
inductive SelectorShape : String → StreamBox → Prop
  | all : SelectorShape "stream://**" ⟨none, none, none⟩
  | realm {realm : String} (literal : Literal realm)
      (short : (routeOf "stream" [realm, "**"]).toUTF8.toList.length ≤ 65535) :
      SelectorShape (routeOf "stream" [realm, "**"]) ⟨some realm, none, none⟩
  | full {realm area resource : Option String} (literalRealm : ∀ s ∈ realm, Literal s)
      (literalArea : ∀ s ∈ area, Literal s) (literalResource : ∀ s ∈ resource, Literal s)
      (short : (routeOf "stream" [realm.getD "*", area.getD "*",
        resource.getD "*"]).toUTF8.toList.length ≤ 65535) :
      SelectorShape (routeOf "stream" [realm.getD "*", area.getD "*", resource.getD "*"])
        ⟨realm, area, resource⟩

theorem openSegment_iff {segment : String} :
    OpenSegment segment ↔ ∃ fixed : Option String, (∀ s ∈ fixed, Literal s) ∧
      segment = fixed.getD "*" := by
  constructor
  · rintro (h | rfl)
    · exact ⟨some segment, fun s hs => Option.mem_some.1 hs ▸ h, rfl⟩
    · exact ⟨none, fun s hs => absurd hs (Option.not_mem_none s), rfl⟩
  · rintro ⟨fixed, hfixed, rfl⟩
    cases fixed with
    | none => exact .inr rfl
    | some s => exact .inl (hfixed s rfl)

theorem selectorText_iff {selector : String} :
    SelectorText selector ↔ ∃ b, SelectorShape selector b := by
  constructor
  · rintro (rfl | ⟨hlen, ⟨realm, hrealm, rfl⟩ | ⟨realm, area, resource, ⟨hr, ha, hs⟩, rfl⟩⟩)
    · exact ⟨_, .all⟩
    · exact ⟨_, .realm hrealm hlen⟩
    · obtain ⟨r, hfixed, rfl⟩ := openSegment_iff.1 hr
      obtain ⟨a, hfixed', rfl⟩ := openSegment_iff.1 ha
      obtain ⟨s, hfixed'', rfl⟩ := openSegment_iff.1 hs
      exact ⟨⟨r, a, s⟩, .full hfixed hfixed' hfixed'' hlen⟩
  · rintro ⟨b, h⟩
    cases h with
    | all => exact .inl rfl
    | realm literal short => exact .inr ⟨short, .inl ⟨_, literal, rfl⟩⟩
    | full hr ha hs short =>
      refine .inr ⟨short, .inr ⟨_, _, _, ⟨?_, ?_, ?_⟩, rfl⟩⟩
      · exact openSegment_iff.2 ⟨_, hr, rfl⟩
      · exact openSegment_iff.2 ⟨_, ha, rfl⟩
      · exact openSegment_iff.2 ⟨_, hs, rfl⟩

/-! ## What `classify_stream_selector` accepts -/

theorem PatternSegment.literal_iff {segment : String} (h : PatternSegment segment) :
    star ∉ segment.toUTF8.toList ↔ Literal segment := by
  rw [star_mem_iff]
  exact ⟨fun hstar => ⟨h.ne_empty, h.slash_free, hstar⟩, fun hliteral => hliteral.2.2⟩

theorem PatternSegment.open_iff {segment : String} (h : PatternSegment segment) :
    (star ∉ segment.toUTF8.toList ∨ segment.toUTF8.toList = [star]) ↔ OpenSegment segment := by
  rw [h.literal_iff, toUTF8_star_iff]
  rfl

theorem getD_star_iff {fixed : Option String} (h : ∀ s ∈ fixed, Literal s) :
    fixed.getD "*" = "*" ↔ fixed = none := by
  cases fixed with
  | none => exact iff_of_true rfl rfl
  | some s =>
    have hne := (h s rfl).ne_wildcard.1
    exact iff_of_false hne (by simp)

/-- The scope of two segments. -/
theorem selectorScope_two {realm area : String} (h : PatternSegment realm)
    {scope : StreamSelectorScope} :
    selectorScope ([realm, area].map fun segment => segment.toUTF8.toList) = .ok scope ↔
      (Literal realm ∧ area = "**") ∧ scope = .realm := by
  simp only [List.map_cons, List.map_nil, selectorScope, h.literal_iff, toUTF8_stars_iff]
  by_cases hboth : area = "**" ∧ Literal realm
  · rw [if_pos hboth, Except.ok.injEq, and_iff_right hboth.symm]
    exact eq_comm
  · rw [if_neg hboth]
    constructor
    · intro heq
      cases heq
    · rintro ⟨hpair, -⟩
      exact absurd hpair.symm hboth

/-- The scope of three segments. -/
theorem selectorScope_three {realm area resource : String} (hr : PatternSegment realm)
    (ha : PatternSegment area) (hs : PatternSegment resource) {scope : StreamSelectorScope} :
    selectorScope ([realm, area, resource].map fun segment => segment.toUTF8.toList) = .ok scope ↔
      (OpenSegment realm ∧ OpenSegment area ∧ OpenSegment resource) ∧
        scope = if realm = "*" then .global else if area = "*" then .realm
          else if resource = "*" then .area else .resource := by
  simp only [List.map_cons, List.map_nil, selectorScope, toUTF8_star_iff]
  have hcond := and_congr hr.open_iff (and_congr ha.open_iff hs.open_iff)
  simp only [toUTF8_star_iff] at hcond
  by_cases hopen : OpenSegment realm ∧ OpenSegment area ∧ OpenSegment resource
  · rw [if_pos (hcond.2 hopen), Except.ok.injEq, and_iff_right hopen]
    exact eq_comm
  · rw [if_neg fun h => hopen (hcond.1 h)]
    constructor
    · intro heq
      cases heq
    · rintro ⟨hall, -⟩
      exact absurd hall hopen

/-- Selectors of another number of segments have no scope. -/
theorem selectorScope_length {pieces : List Bytes} {scope : StreamSelectorScope}
    (h : selectorScope pieces = .ok scope) : pieces.length = 2 ∨ pieces.length = 3 := by
  unfold selectorScope at h
  split at h
  · exact .inl rfl
  · exact .inr rfl
  · cases h

theorem length_stream : "stream".toUTF8.toList.length = 6 := by
  rw [toUTF8_eq]
  rfl

/-- A selector but `stream://**`. -/
theorem classify_of_ne {selector : String} (hne : selector ≠ "stream://**")
    {scope : StreamSelectorScope} :
    classifyStreamSelector selector = .ok scope ↔ selector.toUTF8.toList.length ≤ 65535 ∧
      ∃ pieces, PatternText "stream" selector pieces ∧
        selectorScope (pieces.map fun segment => segment.toUTF8.toList) = .ok scope := by
  have hsegments : ∀ {pieces}, PatternText "stream" selector pieces →
      (selector.toUTF8.toList.drop 9).splitOn slash =
        pieces.map fun segment => segment.toUTF8.toList := by
    intro pieces h
    have hdrop : selector.toUTF8.toList.drop 9 =
        Utf8.utf8 (['/'].intercalate (pieces.map String.toList)) := by
      rw [h.text, toUTF8_routeOf]
      refine List.drop_left' ?_
      rw [List.length_append, length_stream]
      rfl
    rw [hdrop, splitOn_routeOf h.nonempty fun segment hmem => (h.segment segment hmem).slash_free]
  unfold classifyStreamSelector
  rw [if_neg hne]
  constructor
  · intro h
    cases hscan : scan selector "stream" with
    | error error =>
      rw [hscan] at h
      cases h
    | ok shape =>
      rw [hscan] at h
      obtain ⟨hlen, -, pieces, hpieces, -⟩ := scan_iff.1 hscan
      change selectorScope _ = _ at h
      rw [hsegments hpieces] at h
      exact ⟨hlen, pieces, hpieces, h⟩
  · rintro ⟨hlen, pieces, hpieces, hscope⟩
    rw [scan_iff.2 ⟨hlen, by decide, pieces, hpieces, rfl⟩]
    change selectorScope _ = _
    rw [hsegments hpieces]
    exact hscope

theorem OpenSegment.pattern {segment : String} (h : OpenSegment segment) :
    PatternSegment segment ∧ segment ≠ "**" := by
  rcases h with h | rfl
  · exact ⟨.inl h, h.ne_wildcard.2⟩
  · exact ⟨.inr (.inl rfl), by decide⟩

theorem patternText_all : PatternText "stream" "stream://**" ["**"] := by
  refine ⟨by decide +kernel, List.cons_ne_nil _ _, fun segment hmem => ?_, List.isChain_singleton _⟩
  exact .inr (.inr (List.mem_singleton.1 hmem))

theorem patternText_realm {realm : String} (h : Literal realm) :
    PatternText "stream" (routeOf "stream" [realm, "**"]) [realm, "**"] := by
  refine ⟨rfl, List.cons_ne_nil _ _, ?_, ?_⟩
  · intro segment hmem
    simp only [List.mem_cons, List.not_mem_nil, or_false] at hmem
    rcases hmem with rfl | rfl
    · exact .inl h
    · exact .inr (.inr rfl)
  · exact List.isChain_pair.2 fun hboth => h.ne_wildcard.2 hboth.1

theorem patternText_full {realm area resource : String} (hr : OpenSegment realm)
    (ha : OpenSegment area) (hs : OpenSegment resource) :
    PatternText "stream" (routeOf "stream" [realm, area, resource]) [realm, area, resource] := by
  refine ⟨rfl, List.cons_ne_nil _ _, ?_, ?_⟩
  · intro segment hmem
    simp only [List.mem_cons, List.not_mem_nil, or_false] at hmem
    rcases hmem with rfl | rfl | rfl
    · exact hr.pattern.1
    · exact ha.pattern.1
    · exact hs.pattern.1
  · refine List.isChain_cons_cons.2 ⟨fun hboth => hr.pattern.2 hboth.1, ?_⟩
    exact List.isChain_pair.2 fun hboth => ha.pattern.2 hboth.1

/-- A pattern of several segments is not `stream://**`. -/
theorem PatternText.ne_all {selector first : String} {rest : List String}
    (h : PatternText "stream" selector (first :: rest)) (hrest : rest ≠ []) :
    selector ≠ "stream://**" := by
  intro heq
  have hslash : ∀ {text pieces}, PatternText "stream" text pieces →
      ∀ segment ∈ pieces, '/' ∉ segment.toList :=
    fun h segment hmem => (h.segment segment hmem).slash_free
  have htexts : routeOf "stream" (first :: rest) = routeOf "stream" ["**"] := by
    rw [← h.text, heq]
    exact patternText_all.text
  have hpieces := routeOf_inj h.nonempty (List.cons_ne_nil _ _) (hslash h) (hslash patternText_all)
    htexts
  exact hrest (List.cons.inj hpieces).2

/-- **Each shape has the scope of what it leaves open**, and nothing else is accepted. -/
theorem classify_shape {selector : String} {scope : StreamSelectorScope} :
    classifyStreamSelector selector = .ok scope ↔ ∃ b, SelectorShape selector b ∧ scope = b.scope := by
  constructor
  · intro h
    by_cases hall : selector = "stream://**"
    · subst hall
      rw [classifyStreamSelector, if_pos rfl] at h
      cases h
      exact ⟨_, .all, rfl⟩
    · obtain ⟨hlen, pieces, hpieces, hscope⟩ := (classify_of_ne hall).1 h
      have htext := hpieces.text
      have hcount := selectorScope_length hscope
      rw [List.length_map] at hcount
      rcases hcount with htwo | hthree
      · obtain ⟨realm, area, rfl⟩ := List.length_eq_two.1 htwo
        have hrealm := hpieces.segment realm (by simp)
        obtain ⟨⟨hliteral, rfl⟩, rfl⟩ := (selectorScope_two hrealm).1 hscope
        subst htext
        exact ⟨_, .realm hliteral hlen, rfl⟩
      · obtain ⟨realm, area, resource, rfl⟩ := List.length_eq_three.1 hthree
        have hsegment := hpieces.segment
        simp only [List.forall_mem_cons] at hsegment
        obtain ⟨hr, ha, hs, -⟩ := hsegment
        obtain ⟨⟨hr, ha, hs⟩, rfl⟩ := (selectorScope_three hr ha hs).1 hscope
        obtain ⟨r, hfixed, rfl⟩ := openSegment_iff.1 hr
        obtain ⟨a, hfixed', rfl⟩ := openSegment_iff.1 ha
        obtain ⟨s, hfixed'', rfl⟩ := openSegment_iff.1 hs
        subst htext
        refine ⟨⟨r, a, s⟩, .full hfixed hfixed' hfixed'' hlen, ?_⟩
        simp only [getD_star_iff hfixed, getD_star_iff hfixed', getD_star_iff hfixed'']
        rfl
  · rintro ⟨b, h, rfl⟩
    cases h with
    | all => rw [classifyStreamSelector, if_pos rfl]; rfl
    | realm hliteral hlen =>
      have hpieces := patternText_realm hliteral
      refine (classify_of_ne (hpieces.ne_all (List.cons_ne_nil _ _))).2 ⟨hlen, _, hpieces, ?_⟩
      exact (selectorScope_two (.inl hliteral)).2 ⟨⟨hliteral, rfl⟩, rfl⟩
    | full hr ha hs hlen =>
      have hr' := openSegment_iff.2 ⟨_, hr, rfl⟩
      have ha' := openSegment_iff.2 ⟨_, ha, rfl⟩
      have hs' := openSegment_iff.2 ⟨_, hs, rfl⟩
      have hpieces := patternText_full hr' ha' hs'
      refine (classify_of_ne (hpieces.ne_all (List.cons_ne_nil _ _))).2 ⟨hlen, _, hpieces, ?_⟩
      refine (selectorScope_three hr'.pattern.1 ha'.pattern.1 hs'.pattern.1).2 ⟨⟨hr', ha', hs'⟩, ?_⟩
      simp only [getD_star_iff hr, getD_star_iff ha, getD_star_iff hs]
      rfl

/-! ## What a selector matches -/

/-- A segment of a selector takes the segment it fixes, or any. -/
theorem matches_open {fixed : Option String} (h : ∀ s ∈ fixed, Literal s) {pieces : List (Piece String)}
    {segment : String} {rest : List String} :
    Matches (textPiece (fixed.getD "*") :: pieces) (segment :: rest) ↔
      (∀ s ∈ fixed, segment = s) ∧ Matches pieces rest := by
  cases fixed with
  | none =>
    rw [Option.getD_none, textPiece_one]
    constructor
    · rintro ⟨x, xs, heq, hmatch⟩
      obtain ⟨-, rfl⟩ := List.cons.inj heq
      exact ⟨fun s hs => absurd hs (Option.not_mem_none s), hmatch⟩
    · rintro ⟨-, hmatch⟩
      exact ⟨segment, rest, rfl, hmatch⟩
  | some s =>
    rw [Option.getD_some, textPiece_literal (h s rfl)]
    constructor
    · rintro ⟨xs, heq, hmatch⟩
      obtain ⟨rfl, rfl⟩ := List.cons.inj heq
      exact ⟨fun t ht => Option.mem_some.1 ht, hmatch⟩
    · rintro ⟨hfixed, hmatch⟩
      exact ⟨rest, by rw [hfixed s rfl], hmatch⟩

/-- `**` at the end takes the rest. -/
theorem matches_many (xs : List String) : Matches [textPiece "**"] xs := by
  rw [textPiece_many]
  exact ⟨xs, [], (List.append_nil xs).symm, rfl⟩

/-- **A selector matches the paths that have what it fixes.** -/
theorem SelectorShape.selected {selector : String} {b : StreamBox} (h : SelectorShape selector b)
    {p : StreamPath} : Selected selector p ↔ p.Concrete ∧ b.Has p := by
  have hroute : p.Concrete → ConcreteText "stream" p.route p.segments :=
    fun hp => ⟨rfl, by decide, List.cons_ne_nil _ _, hp⟩
  have hmatched : ∀ {pieces}, PatternText "stream" selector pieces →
      (Matches (pieces.map textPiece) p.segments ↔ b.Has p) →
      (Selected selector p ↔ p.Concrete ∧ b.Has p) := by
    intro pieces hpieces hhas
    refine and_congr_right fun hp => ?_
    rw [matched_iff (by decide) (hroute hp) hpieces, hhas]
  cases h with
  | all =>
    refine hmatched patternText_all (iff_of_true (matches_many _) ?_)
    refine ⟨fun s hs => ?_, fun s hs => ?_, fun s hs => ?_⟩ <;>
      exact absurd hs (Option.not_mem_none s)
  | @realm realm hliteral hlen =>
    refine hmatched (patternText_realm hliteral) ?_
    have hfixed : ∀ s ∈ some realm, Literal s := fun s hs => Option.mem_some.1 hs ▸ hliteral
    refine (matches_open hfixed).trans ((and_iff_left (matches_many _)).trans ?_)
    refine (and_iff_left ⟨fun s hs => ?_, fun s hs => ?_⟩).symm <;>
      exact absurd hs (Option.not_mem_none s)
  | full hr ha hs hlen =>
    have hpieces := patternText_full (openSegment_iff.2 ⟨_, hr, rfl⟩)
      (openSegment_iff.2 ⟨_, ha, rfl⟩) (openSegment_iff.2 ⟨_, hs, rfl⟩)
    refine hmatched hpieces ?_
    refine (matches_open hr).trans (and_congr_right fun _ => (matches_open ha).trans
      (and_congr_right fun _ => (matches_open hs).trans ?_))
    exact and_iff_left rfl

/-! ## Lengths -/

/-- The bytes of a text. -/
def size (s : String) : ℕ := s.toUTF8.toList.length

theorem size_two (first second : String) :
    size (routeOf "stream" [first, second]) = size first + size second + 10 := by
  unfold size
  rw [toUTF8_routeOf, List.length_append, List.length_append, length_stream, toUTF8_eq, toUTF8_eq]
  rw [Utf8.utf8_intercalate slash_ascii]
  simp only [List.map_cons, List.map_nil, List.intercalate_cons_cons, List.intercalate_singleton,
    List.length_append, List.length_cons, List.length_nil]
  omega

theorem size_three (first second third : String) :
    size (routeOf "stream" [first, second, third]) = size first + size second + size third + 11 := by
  unfold size
  rw [toUTF8_routeOf, List.length_append, List.length_append, length_stream, toUTF8_eq, toUTF8_eq,
    toUTF8_eq]
  rw [Utf8.utf8_intercalate slash_ascii]
  simp only [List.map_cons, List.map_nil, List.intercalate_cons_cons, List.intercalate_singleton,
    List.length_append, List.length_cons, List.length_nil]
  omega

theorem size_star : size "*" = 1 := by rw [size, toUTF8_star, List.length_singleton]

theorem size_stars : size "**" = 2 := by
  rw [size, toUTF8_stars]
  rfl

theorem size_filler {u : String} (hu : u ∈ ["a", "b"]) : size u = 1 ∧ Literal u := by
  simp only [List.mem_cons, List.not_mem_nil, or_false] at hu
  rcases hu with rfl | rfl
  · refine ⟨?_, by decide⟩
    rw [size, toUTF8_eq]
    rfl
  · refine ⟨?_, by decide⟩
    rw [size, toUTF8_eq]
    rfl

theorem size_pos {segment : String} (h : Literal segment) : 1 ≤ size segment := by
  refine List.length_pos_iff.2 fun hnil => h.1 ?_
  exact toUTF8_nil_iff.1 hnil

theorem size_getD {fixed : Option String} {u : String} (hu : u ∈ ["a", "b"]) :
    size (fixed.getD u) = size (fixed.getD "*") := by
  cases fixed with
  | none => rw [Option.getD_none, Option.getD_none, (size_filler hu).1, size_star]
  | some s => rfl

theorem literal_getD {fixed : Option String} (h : ∀ s ∈ fixed, Literal s) {u : String}
    (hu : u ∈ ["a", "b"]) : Literal (fixed.getD u) := by
  cases fixed with
  | none => exact (size_filler hu).2
  | some s => exact h s rfl

/-- Concrete paths are accepted up to the limit. -/
theorem StreamPath.Concrete.fixedRoute {p : StreamPath} (h : p.Concrete) :
    validateFixedRoute p.route "stream" 3 = .ok () ↔ size p.route ≤ 65535 := by
  rw [fixedRoute_iff]
  refine and_iff_left ⟨p.segments, ⟨rfl, by decide, List.cons_ne_nil _ _, h⟩, rfl⟩

theorem SelectorShape.fill_selected {selector : String} {b : StreamBox}
    (h : SelectorShape selector b) {u v w : String} (hu : u ∈ ["a", "b"]) (hv : v ∈ ["a", "b"])
    (hw : w ∈ ["a", "b"]) : Selected selector (b.fill u v w) := by
  have hliteral : (∀ s ∈ b.realm, Literal s) ∧ (∀ s ∈ b.area, Literal s) ∧
      ∀ s ∈ b.resource, Literal s := by
    cases h with
    | all =>
      refine ⟨fun s hs => ?_, fun s hs => ?_, fun s hs => ?_⟩ <;>
        exact absurd hs (Option.not_mem_none s)
    | realm hliteral hlen =>
      refine ⟨fun s hs => Option.mem_some.1 hs ▸ hliteral, fun s hs => ?_, fun s hs => ?_⟩ <;>
        exact absurd hs (Option.not_mem_none s)
    | full hr ha hs hlen => exact ⟨hr, ha, hs⟩
  refine h.selected.2 ⟨?_, b.has_fill u v w⟩
  intro segment hmem
  simp only [StreamPath.segments, StreamBox.fill, List.mem_cons, List.not_mem_nil, or_false] at hmem
  rcases hmem with rfl | rfl | rfl
  · exact literal_getD hliteral.1 hu
  · exact literal_getD hliteral.2.1 hv
  · exact literal_getD hliteral.2.2 hw

/-- `stream://R/**` of just the limit. -/
def FullRealm (selector : String) : Prop :=
  size selector = 65535 ∧ ∃ realm, Literal realm ∧ selector = routeOf "stream" [realm, "**"]

/-- Any other selector can be filled within the limit. -/
theorem SelectorShape.fill_within {selector : String} {b : StreamBox} (h : SelectorShape selector b)
    (hfull : ¬ FullRealm selector) {u v w : String} (hu : u ∈ ["a", "b"]) (hv : v ∈ ["a", "b"])
    (hw : w ∈ ["a", "b"]) : SelectedWithin selector (b.fill u v w) := by
  have hselected := h.fill_selected hu hv hw
  refine ⟨hselected, hselected.1.fixedRoute.2 ?_⟩
  have hsize : size (b.fill u v w).route =
      size (b.realm.getD "*") + size (b.area.getD "*") + size (b.resource.getD "*") + 11 := by
    rw [← size_getD hu, ← size_getD hv, ← size_getD hw]
    exact size_three _ _ _
  rw [hsize]
  cases h with
  | all =>
    simp only [Option.getD_none, size_star]
    omega
  | @realm realm hliteral hlen =>
    have hshort : size (routeOf "stream" [realm, "**"]) ≤ 65535 := hlen
    have hne : size (routeOf "stream" [realm, "**"]) ≠ 65535 :=
      fun heq => hfull ⟨heq, realm, hliteral, rfl⟩
    rw [size_two, size_stars] at hshort hne
    simp only [Option.getD_none, Option.getD_some, size_star]
    omega
  | @full realm area resource hr ha hs hlen =>
    have hshort : size (routeOf "stream" [realm.getD "*", area.getD "*", resource.getD "*"]) ≤
        65535 := hlen
    rwa [size_three] at hshort

/-- **No route within the limit is matched by `stream://R/**` of just the limit.** -/
theorem FullRealm.selects_none {selector : String} (h : FullRealm selector) (p : StreamPath) :
    ¬ SelectedWithin selector p := by
  obtain ⟨hsize, realm, hrealm, rfl⟩ := h
  rintro ⟨hselected, hvalid⟩
  have hshape : SelectorShape (routeOf "stream" [realm, "**"]) ⟨some realm, none, none⟩ :=
    .realm hrealm (Nat.le_of_eq hsize)
  obtain ⟨hconcrete, hhas⟩ := hshape.selected.1 hselected
  have hrealmEq : p.realm = realm := hhas.1 realm rfl
  have hlimit := hconcrete.fixedRoute.1 hvalid
  have harea : 1 ≤ size p.area := size_pos (hconcrete p.area (by simp [StreamPath.segments]))
  have hresource : 1 ≤ size p.resource :=
    size_pos (hconcrete p.resource (by simp [StreamPath.segments]))
  rw [size_two, size_stars] at hsize
  rw [StreamPath.route, StreamPath.segments, size_three, hrealmEq] at hlimit
  omega

theorem StreamSelectorScope.Means.exists {scope : StreamSelectorScope} {P : StreamPath → Prop}
    (h : scope.Means P) : ∃ p, P p := by
  cases scope with
  | resource => exact ⟨h.choose, h.choose_spec.1⟩
  | area => exact ⟨h.2.choose, h.2.choose_spec.choose_spec.1⟩
  | realm => exact ⟨h.2.choose, h.2.choose_spec.choose_spec.1⟩
  | global => exact ⟨h.choose, h.choose_spec.choose_spec.1⟩

/-! ## Scopes -/

/-- **The scope of a selector says what the routes it matches share.** It accepts the
three shapes; over routes of any length each accepted selector has the scope its routes
mean, and over routes within the limit too, but for `stream://R/**` of just the limit,
which has the scope of a realm and no route. -/
theorem selector_scopes (selector : String) :
    ((∃ scope, classifyStreamSelector selector = .ok scope) ↔ SelectorText selector) ∧
    (∀ scope, classifyStreamSelector selector = .ok scope ↔
      SelectorText selector ∧ scope.Means (Selected selector)) ∧
    (∀ scope, classifyStreamSelector selector = .ok scope ↔
      SelectorText selector ∧
        (scope.Means (SelectedWithin selector) ∨ scope = .realm ∧ FullRealm selector)) ∧
    (FullRealm selector → ∀ p, ¬ SelectedWithin selector p) := by
  have hany : ∀ {b}, SelectorShape selector b → b.scope.Means (Selected selector) := by
    intro b h
    refine b.scope_means (fun p hp => (h.selected.1 hp).2) ?_
    exact fun u hu v hv w hw => h.fill_selected hu hv hw
  have hwithin : ∀ {b}, SelectorShape selector b → ¬ FullRealm selector →
      b.scope.Means (SelectedWithin selector) := by
    intro b h hfull
    refine b.scope_means (fun p hp => (h.selected.1 hp.1).2) ?_
    exact fun u hu v hv w hw => h.fill_within hfull hu hv hw
  have hrealm : FullRealm selector → classifyStreamSelector selector = .ok .realm := by
    rintro ⟨hsize, realm, hliteral, rfl⟩
    exact classify_shape.2 ⟨_, .realm hliteral (Nat.le_of_eq hsize), rfl⟩
  refine ⟨?_, fun scope => ?_, fun scope => ?_, fun h p => h.selects_none p⟩
  · rw [selectorText_iff]
    constructor
    · rintro ⟨scope, h⟩
      obtain ⟨b, hb, -⟩ := classify_shape.1 h
      exact ⟨b, hb⟩
    · rintro ⟨b, hb⟩
      exact ⟨b.scope, classify_shape.2 ⟨b, hb, rfl⟩⟩
  · rw [classify_shape, selectorText_iff]
    constructor
    · rintro ⟨b, hb, rfl⟩
      exact ⟨⟨b, hb⟩, hany hb⟩
    · rintro ⟨⟨b, hb⟩, hmeans⟩
      exact ⟨b, hb, StreamSelectorScope.means_unique hmeans (hany hb)⟩
  · rw [selectorText_iff]
    constructor
    · intro h
      obtain ⟨b, hb, rfl⟩ := classify_shape.1 h
      refine ⟨⟨b, hb⟩, ?_⟩
      by_cases hfull : FullRealm selector
      · have heq := hrealm hfull
        rw [h, Except.ok.injEq] at heq
        exact .inr ⟨heq, hfull⟩
      · exact .inl (hwithin hb hfull)
    · rintro ⟨⟨b, hb⟩, hmeans | ⟨rfl, hfull⟩⟩
      · have hfull : ¬ FullRealm selector := by
          intro hfull
          obtain ⟨p, hp⟩ := hmeans.exists
          exact hfull.selects_none p hp
        exact classify_shape.2 ⟨b, hb, StreamSelectorScope.means_unique hmeans (hwithin hb hfull)⟩
      · exact hrealm hfull

end Fitz
