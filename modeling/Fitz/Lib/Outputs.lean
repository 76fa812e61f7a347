import Fitz.Lib.Machine

/-!
# What a run puts out

`outputs out` lists what the steps of a run put out, in order, where `out s e` is
what the step from `s` by `e` does. `outputs_inv` is the invariant rule for a
statement about the state and all that was put out so far.
-/

namespace Machine

variable {S E A : Type*} (step : S → E → S) (out : S → E → List A)

/-- What the run from `s` puts out, oldest first. -/
def outputs : S → List E → List A
  | _, [] => []
  | s, e :: es => out s e ++ outputs (step s e) es

@[simp] theorem outputs_nil (s : S) : outputs step out s [] = [] := rfl

@[simp] theorem outputs_cons (s : S) (e : E) (es : List E) :
    outputs step out s (e :: es) = out s e ++ outputs step out (step s e) es := rfl

theorem outputs_append (s : S) (es fs : List E) :
    outputs step out s (es ++ fs) =
      outputs step out s es ++ outputs step out (run step s es) fs := by
  induction es generalizing s with
  | nil => rfl
  | cons e es ih => simp [ih]

variable {step out}

/-- **The invariant rule with outputs.** What holds at the start with nothing put out,
and is kept by every step with what the step puts out, holds after every run. -/
theorem outputs_inv {I : List A → S → Prop} (hstep : ∀ as s e, I as s → I (as ++ out s e) (step s e))
    {s : S} (h0 : I [] s) (es : List E) : I (outputs step out s es) (run step s es) := by
  have hfrom : ∀ (as : List A) (s : S), I as s →
      I (as ++ outputs step out s es) (run step s es) := by
    induction es with
    | nil =>
      intro as s h
      simpa using h
    | cons e es ih =>
      intro as s h
      have hnext := ih (as ++ out s e) (step s e) (hstep as s e h)
      rwa [List.append_assoc] at hnext
  simpa using hfrom [] s h0

end Machine
