import Mathlib.Data.List.Infix

/-!
# Event machines

A machine is a state, a type of events and a total step; an event that cannot
happen in a state leaves it as it is. `run` folds the step over a list of
events. `Along c` says that each step of a run meets the condition `c` on the
state before it and its event, and `along_inv` is the invariant rule for such
runs; `along_iff` is the rule for a condition that is exact. `Each` reads a
history the machine writes: it says of every entry that it stands in a given
relation to the entries before it.
-/

namespace Machine

section Runs

variable {S E : Type*} (step : S → E → S)

/-- The state after the events `es`. -/
def run (s : S) (es : List E) : S := es.foldl step s

@[simp] theorem run_nil (s : S) : run step s [] = s := rfl

@[simp] theorem run_cons (s : S) (e : E) (es : List E) :
    run step s (e :: es) = run step (step s e) es := rfl

theorem run_append (s : S) (es fs : List E) :
    run step s (es ++ fs) = run step (run step s es) fs := by
  simp [run]

/-- Every step of the run from `s` meets `c`. -/
def Along (c : S → E → Prop) : S → List E → Prop
  | _, [] => True
  | s, e :: es => c s e ∧ Along c (step s e) es

instance Along.decidable (c : S → E → Prop) [∀ s e, Decidable (c s e)] :
    ∀ s es, Decidable (Along step c s es)
  | _, [] => inferInstanceAs (Decidable True)
  | s, e :: es =>
    have := Along.decidable c (step s e) es
    inferInstanceAs (Decidable (c s e ∧ Along step c (step s e) es))

variable {step}

theorem Along.imp {c d : S → E → Prop} (hcd : ∀ s e, c s e → d s e) {s : S} {es : List E}
    (h : Along step c s es) : Along step d s es := by
  induction es generalizing s with
  | nil => trivial
  | cons e es ih => exact ⟨hcd s e h.1, ih h.2⟩

theorem Along.and {c d : S → E → Prop} {s : S} {es : List E} (hc : Along step c s es)
    (hd : Along step d s es) : Along step (fun s e => c s e ∧ d s e) s es := by
  induction es generalizing s with
  | nil => trivial
  | cons e es ih => exact ⟨⟨hc.1, hd.1⟩, ih hc.2 hd.2⟩

/-- **The invariant rule.** What holds at the start and is kept by every step
that meets the condition holds after every run whose steps all meet it. -/
theorem along_inv {c : S → E → Prop} {I : S → Prop}
    (hstep : ∀ s e, I s → c s e → I (step s e)) {s : S} {es : List E} (h0 : I s)
    (h : Along step c s es) : I (run step s es) := by
  induction es generalizing s with
  | nil => exact h0
  | cons e es ih => exact ih (hstep s e h0 h.1) h.2

/-- The invariant rule when the invariant also speaks of the events to come. -/
theorem along_inv_rest {c : S → E → Prop} {I : S → List E → Prop}
    (hstep : ∀ s e es, I s (e :: es) → c s e → I (step s e) es) {s : S} {es : List E}
    (h0 : I s es) (h : Along step c s es) : I (run step s es) [] := by
  induction es generalizing s with
  | nil => exact h0
  | cons e es ih => exact ih (hstep s e es h0 h.1) h.2

theorem run_inv {I : S → Prop} (hstep : ∀ s e, I s → I (step s e)) {s : S} (h0 : I s)
    (es : List E) : I (run step s es) := by
  induction es generalizing s with
  | nil => exact h0
  | cons e es ih => exact ih (hstep s e h0)

/-- Every run meets what an invariant promises of each step. -/
theorem along_of_inv {c : S → E → Prop} {I : S → Prop} (hc : ∀ s e, I s → c s e)
    (hstep : ∀ s e, I s → c s e → I (step s e)) {s : S} (h0 : I s) (es : List E) :
    Along step c s es := by
  induction es generalizing s with
  | nil => trivial
  | cons e es ih => exact ⟨hc s e h0, ih (hstep s e h0 (hc s e h0))⟩

/-- Conditions that agree while an invariant holds, and of which one keeps it, are met by
the same runs. -/
theorem along_congr {c d : S → E → Prop} {I : S → Prop} (hcd : ∀ s e, I s → (c s e ↔ d s e))
    (hstep : ∀ s e, I s → c s e → I (step s e)) {s : S} (h0 : I s) (es : List E) :
    Along step c s es ↔ Along step d s es := by
  induction es generalizing s with
  | nil => exact Iff.rfl
  | cons e es ih =>
    constructor
    · rintro ⟨hc, hrest⟩
      exact ⟨(hcd s e h0).1 hc, (ih (hstep s e h0 hc)).1 hrest⟩
    · rintro ⟨hd, hrest⟩
      have hc := (hcd s e h0).2 hd
      exact ⟨hc, (ih (hstep s e h0 hc)).2 hrest⟩

/-- What holds in every state a run reaches holds at the start and after every step. -/
theorem along_reached {I : S → Prop} {s : S} {es : List E} :
    (∀ past, past <+: es → I (run step s past)) ↔
      I s ∧ Along step (fun s e => I (step s e)) s es := by
  constructor
  · intro h
    refine ⟨h [] List.nil_prefix, ?_⟩
    induction es generalizing s with
    | nil => trivial
    | cons e es ih =>
      have hrest : ∀ past, past <+: es → I (run step (step s e) past) :=
        fun past hpast => h (e :: past) (List.cons_prefix_cons.2 ⟨rfl, hpast⟩)
      exact ⟨hrest [] List.nil_prefix, ih hrest⟩
  · rintro ⟨h0, h⟩ past hpast
    induction past generalizing s es with
    | nil => exact h0
    | cons e past ih =>
      obtain ⟨rest, rfl⟩ := hpast
      exact ih h.1 h.2 (List.prefix_append past rest)

/-- **The exact condition.** Where a step keeps an invariant if and only if it meets the
condition, the steps of a run all meet it if and only if the invariant holds in every
state the run reaches. `J` is what the machine keeps by itself. -/
theorem along_iff {c : S → E → Prop} {J I : S → Prop} (hJ : ∀ s e, J s → J (step s e))
    (hstep : ∀ s e, J s → I s → (I (step s e) ↔ c s e)) {s : S} (hj : J s) (hi : I s)
    (es : List E) : (∀ past, past <+: es → I (run step s past)) ↔ Along step c s es := by
  have hcongr : Along step (fun s e => I (step s e)) s es ↔ Along step c s es :=
    along_congr (I := fun s => J s ∧ I s) (fun s e h => hstep s e h.1 h.2)
      (fun s e h hnext => ⟨hJ s e h.1, hnext⟩) ⟨hj, hi⟩ es
  rw [along_reached, hcongr]
  exact and_iff_right hi

/-- What does not hold at the start and holds after a run came to hold by one of its steps. -/
theorem exists_turning {P : S → Prop} {s : S} {es : List E} (h0 : ¬P s) (h : P (run step s es)) :
    ∃ before e after, es = before ++ e :: after ∧ ¬P (run step s before) ∧
      P (step (run step s before) e) := by
  induction es generalizing s with
  | nil => exact absurd h h0
  | cons e es ih =>
    by_cases he : P (step s e)
    · exact ⟨[], e, es, rfl, h0, he⟩
    · obtain ⟨before, e', after, rfl, hbefore, hafter⟩ := ih he h
      exact ⟨e :: before, e', after, rfl, hbefore, hafter⟩

end Runs

section Histories

variable {A : Type*}

/-- Every entry of the history `h` (oldest first) is related to the entries
before it. -/
def Each (P : List A → A → Prop) (h : List A) : Prop :=
  ∀ before a after, h = before ++ a :: after → P before a

theorem each_nil (P : List A → A → Prop) : Each P [] := by
  intro before a after h
  simp at h

/-- A history grows by one entry. -/
theorem each_concat {P : List A → A → Prop} {h : List A} {a : A} :
    Each P (h ++ [a]) ↔ Each P h ∧ P h a := by
  constructor
  · intro hE
    refine ⟨fun before b after hb => hE before b (after ++ [a]) (by simp [hb]), ?_⟩
    exact hE h a [] rfl
  · rintro ⟨hE, ha⟩ before b after hb
    rcases List.eq_nil_or_concat after with rfl | ⟨after', c, rfl⟩
    · obtain ⟨rfl, hab⟩ := List.append_inj' hb rfl
      cases hab
      exact ha
    · rw [List.concat_eq_append, ← List.cons_append, ← List.append_assoc] at hb
      obtain ⟨hh, -⟩ := List.append_inj' hb rfl
      exact hE before b after' hh

/-- The entries `l` written after the history `h`, each against all before it. -/
def EachFrom (P : List A → A → Prop) : List A → List A → Prop
  | _, [] => True
  | h, a :: l => P h a ∧ EachFrom P (h ++ [a]) l

/-- A history grows by several entries. -/
theorem each_append {P : List A → A → Prop} {h l : List A} :
    Each P (h ++ l) ↔ Each P h ∧ EachFrom P h l := by
  induction l generalizing h with
  | nil => simp [EachFrom]
  | cons a l ih => rw [List.append_cons, ih, each_concat, EachFrom, and_assoc]

theorem Each.imp {P Q : List A → A → Prop} (hPQ : ∀ h a, P h a → Q h a) {h : List A}
    (hE : Each P h) : Each Q h :=
  fun before a after hb => hPQ before a (hE before a after hb)

end Histories

end Machine
