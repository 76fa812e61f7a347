import Mathlib.Data.List.Infix

/-!
# Prefix-free encodings and byte streams

A writer concatenates the encodings of its messages; a reader that cuts the
stream at the end of a whole encoding recovers the messages one by one
(`stream_head`), provided no encoding is a prefix of another. Encodings with that
property can be told apart by what stands before them (`PrefixFree.tagged`) and counted
(`PrefixFree.counted`).
-/

namespace Framing

variable {α β : Type*}

/-- No encoding of a message satisfying `ok` is a prefix of another one. -/
def PrefixFree (enc : α → List β) (ok : α → Prop) : Prop :=
  ∀ a b, ok a → ok b → enc a <+: enc b → a = b

namespace PrefixFree

variable {γ : Type*} {enc : α → List β} {ok : α → Prop}

/-- Where two messages begin the same bytes they are the same, and what follows them
compares as the whole does. -/
theorem head (h : PrefixFree enc ok) {a b : α} {x y : List β} (ha : ok a) (hb : ok b)
    (hpre : enc a ++ x <+: enc b ++ y) : a = b ∧ x <+: y := by
  have hab : enc a <+: enc b ++ y := (List.prefix_append _ _).trans hpre
  have heq : a = b := by
    rcases List.prefix_or_prefix_of_prefix hab (List.prefix_append (enc b) y) with h1 | h1
    · exact h a b ha hb h1
    · exact (h b a hb ha h1).symm
  subst heq
  exact ⟨rfl, (List.prefix_append_right_inj _).1 hpre⟩

/-- A message is told by a mark the encoding begins with: within each mark the rest
only has to tell the messages of this mark apart. -/
theorem tagged (hmark : PrefixFree enc ok) {mark : γ → α} {rest : γ → List β} {ok' : γ → Prop}
    (hok : ∀ c, ok' c → ok (mark c))
    (hrest : ∀ c d, ok' c → ok' d → mark c = mark d → rest c <+: rest d → c = d) :
    PrefixFree (fun c => enc (mark c) ++ rest c) ok' := by
  intro c d hc hd hpre
  obtain ⟨heq, hpre⟩ := hmark.head (hok c hc) (hok d hd) hpre
  exact hrest c d hc hd heq hpre

end PrefixFree

/-- What a writer of the messages `fs` puts on the wire. -/
def stream (enc : α → List β) (fs : List α) : List β := fs.flatMap enc

@[simp] theorem stream_nil (enc : α → List β) : stream enc [] = [] := rfl

@[simp] theorem stream_cons (enc : α → List β) (f : α) (fs : List α) :
    stream enc (f :: fs) = enc f ++ stream enc fs := rfl

theorem stream_append (enc : α → List β) (fs gs : List α) :
    stream enc (fs ++ gs) = stream enc fs ++ stream enc gs := by
  simp [stream]

/-- **Reading one whole message.** If the bytes read so far are the encoding of
`f` followed by `rest`, then `f` is the first message written and `rest` is the
beginning of what was written after it. -/
theorem stream_head {enc : α → List β} {ok : α → Prop} (hpf : PrefixFree enc ok)
    (hne : ∀ a, enc a ≠ []) {f : α} {rest : List β} {fs : List α} (hf : ok f)
    (hfs : ∀ g ∈ fs, ok g) (h : enc f ++ rest <+: stream enc fs) :
    ∃ gs, fs = f :: gs ∧ rest <+: stream enc gs := by
  cases fs with
  | nil =>
    rw [stream_nil, List.prefix_nil] at h
    exact absurd (List.append_eq_nil_iff.1 h).1 (hne f)
  | cons g gs =>
    rw [stream_cons] at h
    obtain ⟨rfl, hrest⟩ := hpf.head hf (hfs g List.mem_cons_self) h
    exact ⟨gs, rfl, hrest⟩

/-! ## Counted lists -/

namespace PrefixFree

variable {enc : α → List β} {ok : α → Prop}

/-- Lists of the same length. -/
theorem stream_of_length (h : PrefixFree enc ok) {fs gs : List α} (hlen : fs.length = gs.length)
    (hfs : ∀ f ∈ fs, ok f) (hgs : ∀ g ∈ gs, ok g) (hpre : stream enc fs <+: stream enc gs) :
    fs = gs := by
  induction fs generalizing gs with
  | nil => exact (List.length_eq_zero_iff.1 hlen.symm).symm
  | cons f fs ih =>
    cases gs with
    | nil => cases hlen
    | cons g gs =>
      rw [stream_cons, stream_cons] at hpre
      obtain ⟨rfl, hrest⟩ := h.head (hfs f List.mem_cons_self) (hgs g List.mem_cons_self) hpre
      have htail : fs = gs :=
        ih (Nat.succ.inj hlen) (fun a ha => hfs a (List.mem_cons_of_mem _ ha))
          (fun a ha => hgs a (List.mem_cons_of_mem _ ha)) hrest
      rw [htail]

/-- A list behind its length. -/
theorem counted (h : PrefixFree enc ok) {count : ℕ → List β} {small : ℕ → Prop}
    (hcount : PrefixFree count small) :
    PrefixFree (fun fs => count fs.length ++ stream enc fs) fun fs =>
      small fs.length ∧ ∀ f ∈ fs, ok f := by
  refine hcount.tagged (fun fs hfs => hfs.1) fun fs gs hfs hgs hlen hpre => ?_
  exact h.stream_of_length hlen hfs.2 hgs.2 hpre

end PrefixFree

end Framing
