import Mathlib.Data.List.Infix
import Mathlib.Tactic.Ring

/-!
# Wildcard patterns

A pattern is a list of pieces: a literal, one element or any number of elements.
`Matches` is its meaning. `Scan` is the greedy scan that goes through the input
once and remembers only the latest `many`: where an element does not fit, it goes
back there and lets `many` take one element more. `run_iff`: with enough passes
the scan ends, and accepts what matches.

Forgetting the earlier ones is right because the pieces between two of them take
one element each: whatever the earlier `many` could take instead, the later one can
take too (`matches_later`). The lengths a pattern has a match of are `exists_matches_iff`,
and an injective renaming of the elements changes no match (`matches_map`).
-/

namespace Glob

variable {α : Type*}

inductive Piece (α : Type*)
  | literal (a : α)
  | one
  | many
  deriving DecidableEq

/-- The meaning of a pattern. -/
def Matches : List (Piece α) → List α → Prop
  | [], xs => xs = []
  | .literal a :: ps, xs => ∃ rest, xs = a :: rest ∧ Matches ps rest
  | .one :: ps, xs => ∃ a rest, xs = a :: rest ∧ Matches ps rest
  | .many :: ps, xs => ∃ skipped rest, xs = skipped ++ rest ∧ Matches ps rest

/-! ## Matching -/

/-- The piece takes this element and no other one with it. -/
def Piece.Takes : Piece α → α → Prop
  | .literal a, x => a = x
  | .one, _ => True
  | .many, _ => False

instance [DecidableEq α] (p : Piece α) (x : α) : Decidable (p.Takes x) :=
  match p with
  | .literal a => inferInstanceAs (Decidable (a = x))
  | .one => inferInstanceAs (Decidable True)
  | .many => inferInstanceAs (Decidable False)

theorem matches_cons_iff {p : Piece α} {ps : List (Piece α)} {xs : List α} (hp : p ≠ .many) :
    Matches (p :: ps) xs ↔ ∃ x rest, xs = x :: rest ∧ p.Takes x ∧ Matches ps rest := by
  cases p with
  | literal a =>
    constructor
    · rintro ⟨rest, rfl, h⟩
      exact ⟨a, rest, rfl, rfl, h⟩
    · rintro ⟨x, rest, rfl, rfl, h⟩
      exact ⟨rest, rfl, h⟩
  | one =>
    constructor
    · rintro ⟨a, rest, rfl, h⟩
      exact ⟨a, rest, rfl, trivial, h⟩
    · rintro ⟨x, rest, rfl, -, h⟩
      exact ⟨x, rest, rfl, h⟩
  | many => exact absurd rfl hp

/-- `many` takes what stands before something it matches. -/
theorem Matches.prepend {ps : List (Piece α)} {xs : List α} (h : Matches (.many :: ps) xs)
    (ys : List α) : Matches (.many :: ps) (ys ++ xs) := by
  obtain ⟨skipped, rest, rfl, hrest⟩ := h
  exact ⟨ys ++ skipped, rest, by rw [List.append_assoc], hrest⟩

/-- Pieces that are not `many` take one element each. -/
theorem Matches.split {pre ps : List (Piece α)} (hpre : .many ∉ pre) {xs : List α}
    (h : Matches (pre ++ ps) xs) :
    ∃ taken rest, xs = taken ++ rest ∧ taken.length = pre.length ∧ Matches ps rest := by
  induction pre generalizing xs with
  | nil => exact ⟨[], xs, rfl, rfl, h⟩
  | cons p pre ih =>
    have hp : p ≠ .many := fun heq => hpre (heq ▸ List.mem_cons_self)
    obtain ⟨x, rest, rfl, -, hrest⟩ := (matches_cons_iff hp).1 h
    obtain ⟨taken, rest', rfl, hlen, hmatch⟩ :=
      ih (fun hmem => hpre (List.mem_cons_of_mem _ hmem)) hrest
    exact ⟨x :: taken, rest', rfl, by simp [hlen], hmatch⟩

/-- **What an earlier `many` leaves to a later one, the later one takes itself.** -/
theorem matches_later {pre ps : List (Piece α)} (hpre : .many ∉ pre) {taken xs skipped rest : List α}
    (hlen : taken.length = pre.length) (hsplit : taken ++ xs = skipped ++ rest)
    (h : Matches (pre ++ .many :: ps) rest) : Matches (.many :: ps) xs := by
  obtain ⟨taken', rest', rfl, hlen', hmatch⟩ := h.split hpre
  -- both are ends of the same input, and the one is shorter
  have hsuffix : rest' <:+ xs := by
    have hwhole : rest' <:+ taken ++ xs := by
      rw [hsplit, ← List.append_assoc]
      exact List.suffix_append _ _
    have htotal := congrArg List.length hsplit
    simp only [List.length_append] at htotal
    exact List.suffix_of_suffix_length_le hwhole (List.suffix_append _ _) (by omega)
  obtain ⟨ys, rfl⟩ := hsuffix
  exact hmatch.prepend ys

theorem matches_nil_iff {ps : List (Piece α)} : Matches ps [] ↔ ∀ p ∈ ps, p = .many := by
  induction ps with
  | nil => simp [Matches]
  | cons p ps ih =>
    by_cases hp : p = .many
    · subst hp
      rw [List.forall_mem_cons, ← ih]
      constructor
      · rintro ⟨skipped, rest, heq, h⟩
        obtain ⟨-, rfl⟩ := List.append_eq_nil_iff.1 heq.symm
        exact ⟨rfl, h⟩
      · rintro ⟨-, h⟩
        exact ⟨[], [], rfl, h⟩
    · rw [matches_cons_iff hp, List.forall_mem_cons]
      constructor
      · rintro ⟨x, rest, heq, -⟩
        cases heq
      · rintro ⟨heq, -⟩
        exact absurd heq hp

/-! ## Lengths -/

/-- Without `many` a pattern is as long as what it matches. -/
theorem Matches.length_eq {ps : List (Piece α)} (hps : .many ∉ ps) {xs : List α}
    (h : Matches ps xs) : xs.length = ps.length := by
  rw [← List.append_nil ps] at h
  obtain ⟨taken, rest, rfl, hlen, hrest⟩ := h.split hps
  have hnil : rest = [] := hrest
  rw [hnil, List.append_nil, hlen]

/-- Each piece but `many` takes an element. -/
theorem Matches.length_le [DecidableEq α] {ps : List (Piece α)} {xs : List α}
    (h : Matches ps xs) : ps.length ≤ xs.length + ps.count .many := by
  induction ps generalizing xs with
  | nil => exact Nat.zero_le _
  | cons p ps ih =>
    by_cases hp : p = .many
    · subst hp
      obtain ⟨skipped, rest, rfl, hrest⟩ := h
      have hle := ih hrest
      rw [List.length_cons, List.count_cons_self, List.length_append]
      omega
    · obtain ⟨x, rest, rfl, -, hrest⟩ := (matches_cons_iff hp).1 h
      have hle := ih hrest
      rw [List.length_cons, List.length_cons, List.count_cons_of_ne hp]
      omega

/-- Every element a literal stands for is of the kind `P`. -/
def LiteralsIn (P : α → Prop) (ps : List (Piece α)) : Prop := ∀ a, .literal a ∈ ps → P a

theorem LiteralsIn.tail {P : α → Prop} {p : Piece α} {ps : List (Piece α)}
    (h : LiteralsIn P (p :: ps)) : LiteralsIn P ps :=
  fun a hmem => h a (List.mem_cons_of_mem _ hmem)

/-- The shortest list a pattern matches. -/
theorem exists_shortest [DecidableEq α] {P : α → Prop} {a : α} (ha : P a) {ps : List (Piece α)}
    (hps : LiteralsIn P ps) :
    ∃ xs, xs.length + ps.count .many = ps.length ∧ (∀ x ∈ xs, P x) ∧ Matches ps xs := by
  induction ps with
  | nil => exact ⟨[], rfl, fun _ h => absurd h List.not_mem_nil, rfl⟩
  | cons p ps ih =>
    obtain ⟨xs, hlen, hxs, hmatch⟩ := ih hps.tail
    cases p with
    | literal b =>
      have hb : P b := hps b List.mem_cons_self
      refine ⟨b :: xs, ?_, List.forall_mem_cons.2 ⟨hb, hxs⟩, xs, rfl, hmatch⟩
      rw [List.count_cons_of_ne (by simp), List.length_cons, List.length_cons]
      omega
    | one =>
      refine ⟨a :: xs, ?_, List.forall_mem_cons.2 ⟨ha, hxs⟩, a, xs, rfl, hmatch⟩
      rw [List.count_cons_of_ne (by simp), List.length_cons, List.length_cons]
      omega
    | many =>
      refine ⟨xs, ?_, hxs, [], xs, rfl, hmatch⟩
      rw [List.count_cons_self, List.length_cons]
      omega

/-- With a `many`, any longer list will do. -/
theorem exists_longer [DecidableEq α] {P : α → Prop} {a : α} (ha : P a) {ps : List (Piece α)}
    (hps : LiteralsIn P ps) (hmany : .many ∈ ps) (extra : ℕ) :
    ∃ xs, xs.length + ps.count .many = ps.length + extra ∧ (∀ x ∈ xs, P x) ∧ Matches ps xs := by
  induction ps with
  | nil => exact absurd hmany List.not_mem_nil
  | cons p ps ih =>
    by_cases hp : p = .many
    · subst hp
      obtain ⟨xs, hlen, hxs, hmatch⟩ := exists_shortest ha hps.tail
      refine ⟨List.replicate extra a ++ xs, ?_, ?_, List.replicate extra a, xs, rfl, hmatch⟩
      · rw [List.count_cons_self, List.length_cons, List.length_append, List.length_replicate]
        omega
      · intro x hmem
        rcases List.mem_append.1 hmem with h | h
        · rw [List.eq_of_mem_replicate h]
          exact ha
        · exact hxs x h
    · have hrest : .many ∈ ps := (List.mem_cons.1 hmany).resolve_left fun h => hp h.symm
      obtain ⟨xs, hlen, hxs, hmatch⟩ := ih hps.tail hrest
      have htakes : ∃ x, P x ∧ p.Takes x := by
        cases p with
        | literal b => exact ⟨b, hps b List.mem_cons_self, rfl⟩
        | one => exact ⟨a, ha, trivial⟩
        | many => exact absurd rfl hp
      obtain ⟨x, hx, hpx⟩ := htakes
      refine ⟨x :: xs, ?_, List.forall_mem_cons.2 ⟨hx, hxs⟩,
        (matches_cons_iff hp).2 ⟨x, xs, rfl, hpx, hmatch⟩⟩
      rw [List.count_cons_of_ne hp, List.length_cons, List.length_cons]
      omega

/-- **The lengths a pattern matches.** Without `many` its own length, else every length
from the number of its other pieces on. -/
theorem exists_matches_iff [DecidableEq α] {P : α → Prop} {a : α} (ha : P a)
    {ps : List (Piece α)} (hps : LiteralsIn P ps) (n : ℕ) :
    (∃ xs, xs.length = n ∧ (∀ x ∈ xs, P x) ∧ Matches ps xs) ↔
      if ps.count .many = 0 then ps.length = n else ps.length - ps.count .many ≤ n := by
  split
  · rename_i hcount
    have hnone : .many ∉ ps := List.count_eq_zero.1 hcount
    constructor
    · rintro ⟨xs, rfl, -, hmatch⟩
      exact (hmatch.length_eq hnone).symm
    · rintro rfl
      obtain ⟨xs, hlen, hxs, hmatch⟩ := exists_shortest ha hps
      rw [hcount] at hlen
      exact ⟨xs, hlen, hxs, hmatch⟩
  · rename_i hcount
    have hmany : .many ∈ ps := List.count_pos_iff.1 (Nat.pos_of_ne_zero hcount)
    constructor
    · rintro ⟨xs, rfl, -, hmatch⟩
      have hle := hmatch.length_le
      omega
    · intro hle
      have hcountLe := List.count_le_length (a := Piece.many) (l := ps)
      obtain ⟨xs, hlen, hxs, hmatch⟩ :=
        exists_longer ha hps hmany (n - (ps.length - ps.count .many))
      exact ⟨xs, by omega, hxs, hmatch⟩

/-! ## Renaming -/

/-- The same piece for renamed elements. -/
def Piece.map {β : Type*} (f : α → β) : Piece α → Piece β
  | .literal a => .literal (f a)
  | .one => .one
  | .many => .many

/-- Elements that stay different can be renamed. -/
theorem matches_map {β : Type*} {f : α → β} (hf : Function.Injective f) {ps : List (Piece α)}
    {xs : List α} : Matches (ps.map (Piece.map f)) (xs.map f) ↔ Matches ps xs := by
  induction ps generalizing xs with
  | nil => exact List.map_eq_nil_iff
  | cons p ps ih =>
    cases p with
    | literal a =>
      constructor
      · rintro ⟨rest, heq, hmatch⟩
        obtain ⟨b, ys, rfl, hb, rfl⟩ := List.map_eq_cons_iff.1 heq
        exact ⟨ys, by rw [hf hb], ih.1 hmatch⟩
      · rintro ⟨rest, rfl, hmatch⟩
        exact ⟨rest.map f, rfl, ih.2 hmatch⟩
    | one =>
      constructor
      · rintro ⟨a, rest, heq, hmatch⟩
        obtain ⟨b, ys, rfl, -, rfl⟩ := List.map_eq_cons_iff.1 heq
        exact ⟨b, ys, rfl, ih.1 hmatch⟩
      · rintro ⟨a, rest, rfl, hmatch⟩
        exact ⟨f a, rest.map f, rfl, ih.2 hmatch⟩
    | many =>
      constructor
      · rintro ⟨skipped, rest, heq, hmatch⟩
        obtain ⟨ys, zs, rfl, rfl, rfl⟩ := List.map_eq_append_iff.1 heq
        exact ⟨ys, zs, rfl, ih.1 hmatch⟩
      · rintro ⟨skipped, rest, rfl, hmatch⟩
        exact ⟨skipped.map f, rest.map f, List.map_append, ih.2 hmatch⟩

/-! ## The scan -/

/-- What is left of the pattern and of the input, and for the latest `many` the pattern
after it and the input from which on that was tried last. -/
structure Scan (α : Type*) where
  pattern : List (Piece α)
  input : List α
  retry : Option (List (Piece α) × List α)

namespace Scan

variable [DecidableEq α]

/-- `many` takes one element more. -/
def backtrack (s : Scan α) : Option (Scan α) :=
  match s.retry with
  | some (after, _ :: input) => some ⟨after, input, some (after, input)⟩
  | _ => none

/-- One pass over the first element of the input. -/
def step (s : Scan α) : Option (Scan α) :=
  match s.pattern, s.input with
  | p :: ps, x :: xs =>
    if p.Takes x then some { s with pattern := ps, input := xs }
    else if p = .many then some ⟨ps, x :: xs, some (ps, x :: xs)⟩
    else s.backtrack
  | _, _ => s.backtrack

/-- So many passes, and then the rest of the pattern. -/
def run : ℕ → Scan α → Option Bool
  | 0, _ => none
  | passes + 1, s =>
    if s.input = [] then some (s.pattern.all (· = .many))
    else
      match s.step with
      | some s => run passes s
      | none => some false

/-- The scan can still accept. -/
def Accepts (s : Scan α) : Prop :=
  Matches s.pattern s.input ∨ ∃ after input skipped rest, s.retry = some (after, input) ∧
    input = skipped ++ rest ∧ skipped ≠ [] ∧ Matches after rest

/-- Since the latest `many` each piece took one element. -/
def Tracked (s : Scan α) : Prop :=
  ∀ after input, s.retry = some (after, input) → ∃ pre taken, after = pre ++ s.pattern ∧
    input = taken ++ s.input ∧ taken.length = pre.length ∧ .many ∉ pre

variable {s s' : Scan α}

omit [DecidableEq α] in
theorem accepts_backtrack (hno : ¬ Matches s.pattern s.input) :
    match s.backtrack with
    | some s' => s'.Tracked ∧ (s.Accepts ↔ s'.Accepts)
    | none => ¬ s.Accepts := by
  obtain ⟨pattern, input, retry⟩ := s
  have hretry : Accepts ⟨pattern, input, retry⟩ ↔ ∃ after input skipped rest,
      retry = some (after, input) ∧ input = skipped ++ rest ∧ skipped ≠ [] ∧ Matches after rest :=
    or_iff_right hno
  unfold backtrack
  match retry with
  | none =>
    rw [hretry]
    rintro ⟨after, input, skipped, rest, heq, -⟩
    cases heq
  | some (after, []) =>
    rw [hretry]
    rintro ⟨after, input, skipped, rest, heq, hsplit, hne, -⟩
    cases heq
    exact hne (List.append_eq_nil_iff.1 hsplit.symm).1
  | some (after, x :: input) =>
    constructor
    · intro after' input' heq
      cases heq
      exact ⟨[], [], rfl, rfl, rfl, List.not_mem_nil⟩
    rw [hretry]
    constructor
    · rintro ⟨after, input, skipped, rest, heq, hsplit, hne, h⟩
      cases heq
      cases skipped with
      | nil => exact absurd rfl hne
      | cons y skipped =>
        obtain ⟨rfl, rfl⟩ := List.cons.inj hsplit
        cases skipped with
        | nil => exact .inl h
        | cons z skipped => exact .inr ⟨_, _, z :: skipped, rest, rfl, rfl, by simp, h⟩
    · rintro (h | ⟨after, input, skipped, rest, heq, rfl, hne, h⟩)
      · exact ⟨after, _, [x], input, rfl, rfl, by simp, h⟩
      · cases heq
        exact ⟨_, _, x :: skipped, rest, rfl, rfl, by simp, h⟩

/-- **A pass keeps whether the scan accepts.** -/
theorem accepts_step (h : s.Tracked) (hinput : s.input ≠ []) :
    match s.step with
    | some s' => s'.Tracked ∧ (s.Accepts ↔ s'.Accepts)
    | none => ¬ s.Accepts := by
  obtain ⟨pattern, input, retry⟩ := s
  obtain ⟨x, xs, rfl⟩ := List.exists_cons_of_ne_nil hinput
  cases pattern with
  | nil => exact accepts_backtrack fun hmatch => hinput hmatch
  | cons p ps =>
    simp only [step]
    by_cases htakes : p.Takes x
    · rw [if_pos htakes]
      have hp : p ≠ .many := by
        rintro rfl
        exact htakes
      constructor
      · intro after input heq
        obtain ⟨pre, taken, rfl, rfl, hlen, hpre⟩ := h after input heq
        refine ⟨pre ++ [p], taken ++ [x], by simp, by simp, by simp [hlen], ?_⟩
        rw [List.mem_append, List.mem_singleton]
        exact fun hmem => hmem.elim hpre fun heq => hp heq.symm
      · refine or_congr ?_ Iff.rfl
        rw [matches_cons_iff hp]
        constructor
        · rintro ⟨y, rest, heq, -, hmatch⟩
          obtain ⟨rfl, rfl⟩ := List.cons.inj heq
          exact hmatch
        · exact fun hmatch => ⟨x, xs, rfl, htakes, hmatch⟩
    · rw [if_neg htakes]
      by_cases hmany : p = .many
      · subst hmany
        rw [if_pos rfl]
        constructor
        · intro after input heq
          cases heq
          exact ⟨[], [], rfl, rfl, rfl, List.not_mem_nil⟩
        constructor
        · intro haccepts
          have hmatch : Matches (.many :: ps) (x :: xs) := by
            rcases haccepts with hmatch | ⟨after, input, skipped, rest, heq, hsplit, -, hmatch⟩
            · exact hmatch
            · obtain ⟨pre, taken, rfl, rfl, hlen, hpre⟩ := h after input heq
              exact matches_later hpre hlen hsplit hmatch
          obtain ⟨skipped, rest, heq, hrest⟩ := hmatch
          by_cases hskipped : skipped = []
          · subst hskipped
            rw [List.nil_append] at heq
            exact .inl (by rwa [heq])
          · exact .inr ⟨ps, x :: xs, skipped, rest, rfl, heq, hskipped, hrest⟩
        · rintro (hmatch | ⟨after, input, skipped, rest, heq, hsplit, -, hmatch⟩)
          · exact .inl ⟨[], x :: xs, rfl, hmatch⟩
          · cases heq
            exact .inl ⟨skipped, rest, hsplit, hmatch⟩
      · rw [if_neg hmany]
        refine accepts_backtrack fun hmatch => htakes ?_
        obtain ⟨y, rest, heq, hy, -⟩ := (matches_cons_iff hmany).1 hmatch
        obtain ⟨rfl, -⟩ := List.cons.inj heq
        exact hy

omit [DecidableEq α] in
/-- At the end of the input `many` cannot take more. -/
theorem accepts_of_input_nil (h : s.Tracked) (hinput : s.input = []) :
    s.Accepts ↔ Matches s.pattern [] := by
  unfold Accepts
  rw [hinput]
  refine or_iff_left ?_
  rintro ⟨after, input, skipped, rest, heq, hsplit, hne, hmatch⟩
  obtain ⟨pre, taken, rfl, rfl, hlen, hpre⟩ := h after input heq
  obtain ⟨taken', rest', rfl, hlen', -⟩ := hmatch.split hpre
  have htotal := congrArg List.length hsplit
  have hpos := List.length_pos_iff.2 hne
  simp only [List.length_append, hinput, List.length_nil] at htotal
  omega

theorem run_accepts {passes : ℕ} (h : s.Tracked) {accepted : Bool}
    (hrun : s.run passes = some accepted) : accepted = true ↔ s.Accepts := by
  induction passes generalizing s with
  | zero => cases hrun
  | succ passes ih =>
    unfold run at hrun
    split at hrun
    · rename_i hinput
      cases hrun
      rw [accepts_of_input_nil h hinput, matches_nil_iff]
      simp
    · rename_i hinput
      have hstep := accepts_step h hinput
      cases hs : s.step with
      | none =>
        rw [hs] at hstep hrun
        cases hrun
        simpa using hstep
      | some s' =>
        rw [hs] at hstep hrun
        rw [hstep.2]
        exact ih hstep.1 hrun

/-! ## Passes -/

/-- The passes a scan can still make, of a pattern of at most `size` pieces: after each
time it goes back, one for each piece. -/
def passesLeft (size : ℕ) (s : Scan α) : ℕ :=
  (match s.retry with
    | some (_, input) => input.length
    | none => s.input.length + 1) * (size + 1) + s.pattern.length

/-- Both patterns have at most `size` pieces, and the input from which on the pattern
was tried last reaches at least to where the scan is. -/
def Within (size : ℕ) (s : Scan α) : Prop :=
  s.pattern.length ≤ size ∧ ∀ after input, s.retry = some (after, input) →
    after.length ≤ size ∧ s.input.length ≤ input.length

theorem within_step {size : ℕ} (h : s.Within size) (hstep : s.step = some s') :
    s'.Within size ∧ s'.passesLeft size < s.passesLeft size := by
  obtain ⟨pattern, input, retry⟩ := s
  obtain ⟨hpattern, hretry⟩ := h
  have hback : ∀ {s'}, backtrack ⟨pattern, input, retry⟩ = some s' →
      s'.Within size ∧ s'.passesLeft size < passesLeft size ⟨pattern, input, retry⟩ := by
    intro s' hs'
    unfold backtrack at hs'
    split at hs'
    · rename_i after x input' heq
      cases hs'
      obtain ⟨hafter, -⟩ := hretry after _ heq
      simp only at heq
      subst heq
      refine ⟨⟨hafter, ?_⟩, ?_⟩
      · intro after' input'' heq
        cases heq
        exact ⟨hafter, le_rfl⟩
      · simp only [passesLeft, List.length_cons, Nat.add_mul, Nat.one_mul]
        omega
    · cases hs'
  unfold step at hstep
  split at hstep
  · rename_i p ps x xs hpat hinp
    simp only at hpat hinp
    subst hpat hinp
    simp only [List.length_cons] at hpattern
    split at hstep
    · cases hstep
      refine ⟨⟨by simp only; omega, fun after input heq => ?_⟩, ?_⟩
      · obtain ⟨hafter, hle⟩ := hretry after input heq
        simp only [List.length_cons] at hle
        exact ⟨hafter, by simp only; omega⟩
      · unfold passesLeft
        cases retry with
        | none =>
          simp only [List.length_cons, Nat.add_mul, Nat.one_mul]
          omega
        | some last =>
          simp only [List.length_cons]
          omega
    · split at hstep
      · cases hstep
        refine ⟨⟨by simp only; omega, fun after input heq => ?_⟩, ?_⟩
        · cases heq
          exact ⟨by omega, le_rfl⟩
        · unfold passesLeft
          cases retry with
          | none =>
            simp only [List.length_cons, Nat.add_mul, Nat.one_mul]
            omega
          | some last =>
            obtain ⟨-, hle⟩ := hretry last.1 last.2 rfl
            have hmul := Nat.mul_le_mul_right (size + 1) hle
            simp only at hmul ⊢
            rw [List.length_cons (a := p)]
            omega
      · exact hback hstep
  · exact hback hstep

theorem run_isSome {size passes : ℕ} (h : s.Within size) (hpasses : s.passesLeft size < passes) :
    ∃ accepted, s.run passes = some accepted := by
  induction passes generalizing s with
  | zero => omega
  | succ passes ih =>
    unfold run
    split
    · exact ⟨_, rfl⟩
    · cases hs : s.step with
      | none => exact ⟨false, rfl⟩
      | some s' =>
        obtain ⟨hwithin, hless⟩ := within_step h hs
        exact ih hwithin (by omega)

/-- **The greedy scan ends, and accepts exactly what matches.** -/
theorem run_iff {ps : List (Piece α)} {xs : List α} {passes : ℕ}
    (hpasses : (xs.length + 1) * (ps.length + 1) + ps.length < passes) :
    ∃ accepted, run passes ⟨ps, xs, none⟩ = some accepted ∧ (accepted = true ↔ Matches ps xs) := by
  have hwithin : Within ps.length ⟨ps, xs, none⟩ := ⟨le_rfl, fun _ _ heq => by cases heq⟩
  have htracked : Tracked ⟨ps, xs, none⟩ := fun _ _ heq => by cases heq
  obtain ⟨accepted, hrun⟩ := run_isSome hwithin hpasses
  refine ⟨accepted, hrun, (run_accepts htracked hrun).trans (or_iff_left ?_)⟩
  rintro ⟨after, input, skipped, rest, heq, -⟩
  cases heq

end Scan

end Glob
