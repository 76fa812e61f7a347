import Fitz.Model.Error

/-!
# Route shapes

`scan` and the validators of `src/domains/routes.rs` that the domain clients call
on routes, registration patterns and stream selectors.
-/

namespace Fitz

structure Shape where
  segments : ℕ
  firstWildcard : Option ℕ
  doubleWildcard : Bool
  doubleWildcardCount : ℕ
  wildcardSuffix : Bool
  deriving DecidableEq

def invalid {α : Type} (message : String) : Result α := .error (.protocol message)

/-- `'/'` and `'*'`. -/
def slash : UInt8 := 47
def star : UInt8 := 42

/-- The loop of `scan` over the segments after the scheme. -/
def scanSegments : List Bytes → Shape → Bool → Result Shape
  | [], shape, _ => .ok shape
  | segment :: rest, shape, prevDoubleWildcard =>
    let wildcard := segment == [star]
    let doubleWildcard := segment == [star, star]
    if segment = [] then invalid "route contains an empty segment"
    else if wildcard || doubleWildcard then
      if doubleWildcard && prevDoubleWildcard then invalid "adjacent ** segments are not allowed"
      else
        scanSegments rest { shape with
          segments := shape.segments + 1
          firstWildcard := shape.firstWildcard.getD shape.segments
          doubleWildcard := shape.doubleWildcard || doubleWildcard
          doubleWildcardCount := shape.doubleWildcardCount + if doubleWildcard then 1 else 0 }
          doubleWildcard
    else if star ∈ segment then invalid "wildcards must occupy a complete segment"
    else
      scanSegments rest { shape with
        segments := shape.segments + 1
        wildcardSuffix := shape.wildcardSuffix && shape.firstWildcard.isNone } doubleWildcard

def scan (route scheme : String) : Result Shape :=
  let bytes := route.toUTF8.toList
  let schemeBytes := scheme.toUTF8.toList
  if bytes.length > 65535 then invalid "route exceeds the 65,535-byte TLV value limit"
  else if schemeBytes = [] ∨ bytes.length ≤ schemeBytes.length + 3 ∨
      ¬ (schemeBytes ++ [58, 47, 47]).isPrefixOf bytes then
    invalid "route has the wrong scheme"
  else
    scanSegments ((bytes.drop (schemeBytes.length + 3)).splitOn slash) ⟨0, none, false, 0, true⟩ false

def validateRegistrationPattern (route scheme : String) (requiredSegments : ℕ) : Result Unit := do
  let shape ← scan route scheme
  if requiredSegments = 0 then return
  if shape.doubleWildcardCount = 0 then
    if shape.segments = requiredSegments then return
  else if shape.segments - shape.doubleWildcardCount ≤ requiredSegments then return
  invalid "registration pattern cannot match the required route depth"

inductive StreamSelectorScope
  | resource
  | area
  | realm
  | global
  deriving DecidableEq

/-- The scope of a selector by its segments, which `scan` has accepted. -/
def selectorScope : List Bytes → Result StreamSelectorScope
  | [realm, area] =>
    if area = [star, star] ∧ star ∉ realm then .ok .realm
    else invalid "stream selector has the wrong shape"
  | [realm, area, resource] =>
    if (star ∉ realm ∨ realm = [star]) ∧ (star ∉ area ∨ area = [star]) ∧
        (star ∉ resource ∨ resource = [star]) then
      .ok (if realm = [star] then .global else if area = [star] then .realm
        else if resource = [star] then .area else .resource)
    else invalid "stream selector has the wrong shape"
  | _ => invalid "stream selector has the wrong shape"

def classifyStreamSelector (route : String) : Result StreamSelectorScope := do
  if route = "stream://**" then return .global
  let _ ← scan route "stream"
  selectorScope ((route.toUTF8.toList.drop 9).splitOn slash)

def validateStreamSelector (route : String) : Result Unit := do
  let _ ← classifyStreamSelector route

def validateConcreteRoute (route scheme : String) : Result Unit := do
  let shape ← scan route scheme
  if shape.firstWildcard.isSome then invalid "wildcards are not allowed in concrete routes"

def validateFixedRoute (route scheme : String) (segments : ℕ) : Result Unit := do
  let shape ← scan route scheme
  if shape.segments ≠ segments ∨ shape.firstWildcard.isSome then invalid "route has the wrong shape"

def validateResponseFixedRoute (route scheme : String) (segments : ℕ) (operation : String) :
    Result Unit :=
  (validateFixedRoute route scheme segments).mapError fun _ =>
    .protocol (operation ++ " response contains invalid concrete " ++ scheme ++ " route: " ++ route)

/-! ## Matching -/

/-- `split_once("://")`. -/
def splitScheme : Bytes → Option (Bytes × Bytes)
  | [] => none
  | b :: rest =>
    if [58, 47, 47].isPrefixOf (b :: rest) then some ([], rest.drop 2)
    else (splitScheme rest).map fun (scheme, path) => (b :: scheme, path)

def nextSegment (path : Bytes) (start : ℕ) : Option (Bytes × ℕ) :=
  if start ≥ path.length then none
  else
    match (path.drop start).findIdx? (· == slash) with
    | some offset => some ((path.drop start).take offset, start + offset + 1)
    | none => some (path.drop start, path.length)

/-- Where the scan stands: the indices, and the latest `**` with the part of the route
it has taken. -/
structure MatchScan where
  routeIndex : ℕ
  patternIndex : ℕ
  lastDoubleWildcard : Option ℕ
  lastDoubleMatch : ℕ

/-- The body of the loop over the route. -/
def matchStep (route pattern : Bytes) (scan : MatchScan) : Option MatchScan := do
  let (routeSegment, nextRouteIndex) ← nextSegment route scan.routeIndex
  let backtrack : Option MatchScan := do
    let afterDoubleWildcard ← scan.lastDoubleWildcard
    let (_, nextDoubleMatch) ← nextSegment route scan.lastDoubleMatch
    return { scan with
      lastDoubleMatch := nextDoubleMatch
      routeIndex := nextDoubleMatch
      patternIndex := afterDoubleWildcard }
  match nextSegment pattern scan.patternIndex with
  | some (segment, nextPatternIndex) =>
    if segment = [star] ∨ segment = routeSegment then
      some { scan with routeIndex := nextRouteIndex, patternIndex := nextPatternIndex }
    else if segment = [star, star] then
      some { scan with
        lastDoubleWildcard := some nextPatternIndex
        lastDoubleMatch := scan.routeIndex
        patternIndex := nextPatternIndex }
    else backtrack
  | none => backtrack

/-- The loop over what is left of the pattern. -/
def matchRest (pattern : Bytes) : ℕ → ℕ → Option Bool
  | 0, _ => none
  | passes + 1, patternIndex =>
    match nextSegment pattern patternIndex with
    | some (segment, nextPatternIndex) =>
      if segment = [star, star] then matchRest pattern passes nextPatternIndex else some false
    | none => some (patternIndex == pattern.length)

def matchLoop (route pattern : Bytes) : ℕ → MatchScan → Option Bool
  | 0, _ => none
  | passes + 1, scan =>
    if scan.routeIndex < route.length then
      match matchStep route pattern scan with
      | some scan => matchLoop route pattern passes scan
      | none => some false
    else matchRest pattern (pattern.length + 1) scan.patternIndex

/-- `route_matches_pattern`. The scan goes back less often than the route is long, and
in between it moves on in the route or in the pattern. -/
def routeMatchesPattern (route pattern : String) : Bool :=
  match splitScheme route.toUTF8.toList, splitScheme pattern.toUTF8.toList with
  | some (routeScheme, routePath), some (patternScheme, patternPath) =>
    if routeScheme ≠ patternScheme ∨ routePath = [] ∨ patternPath = [] then false
    else
      (matchLoop routePath patternPath
        ((routePath.length + 2) * (routePath.length + patternPath.length + 3))
        ⟨0, 0, none, 0⟩).getD false
  | _, _ => false

end Fitz
