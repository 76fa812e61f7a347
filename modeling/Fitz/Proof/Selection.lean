import Fitz.Proof.Pages

/-!
# Schedule selection

`list_by_selector` filters page after page and follows the continuations. Its result does
not depend on how the broker cuts the list into pages, and a page that promises more
without a way on ends it with an error (`selection_independent`).
-/

namespace Fitz

/-- An answer from which `list_v2` gets this page. -/
def Answers (answer : Result Bytes) (page : ScheduleCursorPage) : Prop :=
  listV2Answer answer = .ok page

/-- A page with more behind it, and a way there. -/
def Continues (page : ScheduleCursorPage) : Prop :=
  page.hasMore = true ∧ page.entries ≠ [] ∧ page.continuation ≠ none

/-- A page that promises more but is empty or has no continuation. -/
def BrokenPage (page : ScheduleCursorPage) : Prop :=
  page.hasMore = true ∧ (page.entries = [] ∨ page.continuation = none)

/-- The entries whose route the selector matches, in order and with multiplicity. -/
def selected (selector : String) (entries : List ScheduleEntry) : List ScheduleEntry :=
  entries.filter fun entry => routeMatchesPattern entry.route selector

/-- The requests for pages after the one with this continuation. -/
def requestsFor (continuation : Option String) (pages : List ScheduleCursorPage) : List Bytes :=
  (continuation :: pages.map ScheduleCursorPage.continuation).map fun c => listV2Payload c (some 100)

variable {selector : String} {answers rest : List (Result Bytes)} {pages : List ScheduleCursorPage}
  {page : ScheduleCursorPage}

/-- A broker that encodes its pages is understood. -/
theorem answers_encoded (h : FitsCursorPage page) :
    Answers (.ok (putU8 0 ++ putCursorPage page)) page :=
  listV2Answer_iff.2 ⟨h, rfl⟩

/-! ## One page -/

/-- The loop takes what it selects of a page and goes on. -/
theorem selectPages_continues {answer : Result Bytes} (hanswer : Answers answer page)
    (hpage : Continues page) (found : List ScheduleEntry) (continuation : Option String) :
    selectPages selector (answer :: answers) found continuation =
      ⟨listV2Payload continuation (some 100) :: (selectPages selector answers
          (found ++ selected selector page.entries) page.continuation).requests,
        (selectPages selector answers (found ++ selected selector page.entries)
          page.continuation).returned⟩ := by
  obtain ⟨hmore, hentries, hcontinuation⟩ := hpage
  have hempty : page.entries.isEmpty = false := by
    rwa [← Bool.not_eq_true, List.isEmpty_iff]
  have hnone : page.continuation.isNone = false := by
    rwa [← Bool.not_eq_true, Option.isNone_iff_eq_none]
  rw [selectPages, show listV2Answer answer = .ok page from hanswer]
  simp only [hmore, hempty, hnone]
  rfl

/-- The loop ends with the last page. -/
theorem selectPages_last {answer : Result Bytes} (hanswer : Answers answer page)
    (hpage : page.hasMore = false) (found : List ScheduleEntry) (continuation : Option String) :
    selectPages selector (answer :: answers) found continuation =
      ⟨[listV2Payload continuation (some 100)],
        some (.ok (found ++ selected selector page.entries))⟩ := by
  rw [selectPages, show listV2Answer answer = .ok page from hanswer]
  simp only [hpage]
  rfl

/-- The loop ends with an error at a broken page. -/
theorem selectPages_broken {answer : Result Bytes} (hanswer : Answers answer page)
    (hpage : BrokenPage page) (found : List ScheduleEntry) (continuation : Option String) :
    ∃ error, selectPages selector (answer :: answers) found continuation =
      ⟨[listV2Payload continuation (some 100)], some (.error error)⟩ := by
  obtain ⟨hmore, hbroken⟩ := hpage
  rw [selectPages, show listV2Answer answer = .ok page from hanswer]
  simp only [hmore]
  by_cases hentries : page.entries = []
  · simp only [hentries]
    exact ⟨_, rfl⟩
  · have hempty : page.entries.isEmpty = false := by
      rwa [← Bool.not_eq_true, List.isEmpty_iff]
    have hnone : page.continuation.isNone = true :=
      Option.isNone_iff_eq_none.2 (hbroken.resolve_left hentries)
    simp only [hempty, hnone]
    exact ⟨_, rfl⟩

/-! ## All pages -/

/-- The pages before the last carry what is found and the continuation. -/
theorem selectPages_append (selector : String) (rest : List (Result Bytes))
    (hanswers : List.Forall₂ Answers answers pages)
    (hpages : ∀ page ∈ pages, Continues page) (found : List ScheduleEntry)
    (continuation : Option String) :
    ∃ last, (requestsFor continuation pages).getLast? = some (listV2Payload last (some 100)) ∧
      selectPages selector (answers ++ rest) found continuation =
        ⟨(requestsFor continuation pages).dropLast ++ (selectPages selector rest
            (found ++ selected selector (pages.flatMap ScheduleCursorPage.entries)) last).requests,
          (selectPages selector rest
            (found ++ selected selector (pages.flatMap ScheduleCursorPage.entries)) last).returned⟩ := by
  -- the pages before carry what was found and the way on
  induction hanswers generalizing found continuation with
  | nil =>
    refine ⟨continuation, rfl, ?_⟩
    simp [selected, requestsFor]
  | @cons answer page answers pages hanswer _ ih =>
    obtain ⟨hpage, hothers⟩ := List.forall_mem_cons.1 hpages
    obtain ⟨last, hlast, heq⟩ := ih hothers (found ++ selected selector page.entries) page.continuation
    refine ⟨last, ?_, ?_⟩
    · rw [← hlast]
      rfl
    · rw [List.cons_append, selectPages_continues hanswer hpage, heq]
      have hentries : found ++ selected selector page.entries ++
          selected selector (pages.flatMap ScheduleCursorPage.entries) =
          found ++ selected selector ((page :: pages).flatMap ScheduleCursorPage.entries) := by
        rw [List.flatMap_cons, selected, selected, selected, List.filter_append, List.append_assoc]
      rw [hentries]
      rfl

/-- The requests end with the one for the last continuation. -/
theorem requestsFor_concat {continuation last : Option String}
    (h : (requestsFor continuation pages).getLast? = some (listV2Payload last (some 100))) :
    (requestsFor continuation pages).dropLast ++ [listV2Payload last (some 100)] =
      requestsFor continuation pages :=
  List.dropLast_append_getLast? _ h

/-- **Selection does not depend on paging.** For every accepted selector and every way to
cut a list into pages, the result is what the selector matches of the list, and each
page but the first is asked for with the continuation of the one before it; a broken
page ends the loop with an error. -/
theorem selection_independent (selector : String) (answers rest : List (Result Bytes))
    (pages : List ScheduleCursorPage) (answer : Result Bytes) (page : ScheduleCursorPage)
    (hselector : validateRegistrationPattern selector "schedule" 4 = .ok ())
    (hanswers : List.Forall₂ Answers answers pages) (hanswer : Answers answer page)
    (hpages : ∀ page ∈ pages, Continues page) :
    (page.hasMore = false → listBySelector selector (answers ++ answer :: rest) =
      ⟨requestsFor none pages,
        some (.ok (selected selector ((pages ++ [page]).flatMap ScheduleCursorPage.entries)))⟩) ∧
    (BrokenPage page → ∃ error, listBySelector selector (answers ++ answer :: rest) =
      ⟨requestsFor none pages, some (.error error)⟩) := by
  have hloop : listBySelector selector (answers ++ answer :: rest) =
      selectPages selector (answers ++ answer :: rest) [] none := by
    rw [listBySelector, hselector]
  obtain ⟨last, hlast, heq⟩ := selectPages_append selector (answer :: rest) hanswers hpages []
    none
  have hrequests := requestsFor_concat hlast
  rw [hloop, heq, List.nil_append]
  constructor
  · intro hmore
    have hentries : selected selector (pages.flatMap ScheduleCursorPage.entries) ++
        selected selector page.entries =
        selected selector ((pages ++ [page]).flatMap ScheduleCursorPage.entries) := by
      rw [List.flatMap_append, List.flatMap_singleton, selected, selected, selected,
        List.filter_append]
    rw [selectPages_last hanswer hmore, hrequests, hentries]
  · intro hbroken
    obtain ⟨error, herror⟩ := selectPages_broken hanswer hbroken
      (selected selector (pages.flatMap ScheduleCursorPage.entries)) last
    exact ⟨error, by rw [herror, hrequests]⟩

/-- Three entries on two pages, of which the selector matches two. -/
theorem selection_independent_two :
    let entry := fun route => ScheduleEntry.mk route "* * * * *" .broadcast []
    let first : ScheduleCursorPage :=
      ⟨[entry "schedule://r/a/one", entry "schedule://r/b/two"], true, some "c"⟩
    let second : ScheduleCursorPage := ⟨[entry "schedule://r/a/three"], false, none⟩
    listBySelector "schedule://r/a/**" [.ok (putU8 0 ++ putCursorPage first),
        .ok (putU8 0 ++ putCursorPage second)] =
      ⟨[listV2Payload none (some 100), listV2Payload (some "c") (some 100)],
        some (.ok [entry "schedule://r/a/one", entry "schedule://r/a/three"])⟩ := by
  intro entry first second
  have hfirst : listV2Answer (.ok (putU8 0 ++ putCursorPage first)) = .ok first := by
    decide +kernel
  have hsecond : listV2Answer (.ok (putU8 0 ++ putCursorPage second)) = .ok second := by
    decide +kernel
  have h := (selection_independent "schedule://r/a/**" [.ok (putU8 0 ++ putCursorPage first)] []
    [first] (.ok (putU8 0 ++ putCursorPage second)) second (by decide +kernel)
    (.cons hfirst .nil) hsecond (List.forall_mem_singleton.2 ⟨rfl, List.cons_ne_nil _ _, nofun⟩)).1 rfl
  have hselected : selected "schedule://r/a/**" ([first, second].flatMap ScheduleCursorPage.entries) =
      [entry "schedule://r/a/one", entry "schedule://r/a/three"] := by
    decide +kernel
  exact h.trans (congrArg _ (congrArg _ (congrArg _ hselected)))

end Fitz
