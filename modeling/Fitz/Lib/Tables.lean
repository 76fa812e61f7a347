import Mathlib.Data.List.Nodup

/-!
# Tables

A list read by place: it grows at its end and is changed at one place. The lemmas say
what stands where after a change, and how many entries pass a test then.
-/

namespace Tables

variable {α : Type*} {l : List α} {p : α → Bool}

/-- An entry of a table that has one more. -/
theorem getElem?_concat_eq_some {a b : α} {i : ℕ} (h : (l ++ [a])[i]? = some b) :
    l[i]? = some b ∨ i = l.length ∧ b = a := by
  rw [List.getElem?_append] at h
  split at h
  · exact .inl h
  · rename_i hle
    rw [List.getElem?_singleton] at h
    split at h
    · rename_i hzero
      cases h
      exact .inr ⟨by omega, rfl⟩
    · cases h

theorem getElem?_concat_of_some {a b : α} {i : ℕ} (h : l[i]? = some b) :
    (l ++ [a])[i]? = some b := by
  have hlt := (List.getElem?_eq_some_iff.1 h).1
  rw [List.getElem?_append_left hlt, h]

/-- An entry of a table that was changed at `j`. -/
theorem getElem?_modify_eq_some {f : α → α} {j k : ℕ} {b : α} (h : (l.modify j f)[k]? = some b) :
    (k = j ∧ ∃ a, l[j]? = some a ∧ b = f a) ∨ (k ≠ j ∧ l[k]? = some b) := by
  by_cases hk : k = j
  · subst hk
    rw [List.getElem?_modify_eq] at h
    obtain ⟨a, hget, rfl⟩ := Option.map_eq_some_iff.1 h
    exact .inl ⟨rfl, a, hget, rfl⟩
  · rw [List.getElem?_modify_ne f l (Ne.symm hk)] at h
    exact .inr ⟨hk, h⟩

theorem getElem?_modify_of_ne {f : α → α} {j k : ℕ} {b : α} (hk : k ≠ j) (h : l[k]? = some b) :
    (l.modify j f)[k]? = some b := by
  rw [List.getElem?_modify_ne f l (Ne.symm hk), h]

theorem getElem?_modify_self {f : α → α} {j : ℕ} {a : α} (h : l[j]? = some a) :
    (l.modify j f)[j]? = some (f a) := by
  rw [List.getElem?_modify_eq, h]
  rfl

/-- The last entry changes. -/
theorem modify_concat (f : α → α) (a : α) : (l ++ [a]).modify l.length f = l ++ [f a] := by
  induction l with
  | nil => rfl
  | cons x l ih => rw [List.cons_append, List.length_cons, List.modify_succ_cons, ih, List.cons_append]

/-! ## Counting -/

/-- A change counts at its place only. -/
theorem countP_modify {f : α → α} {j : ℕ} {a : α} (h : l[j]? = some a) :
    (l.modify j f).countP p + (p a).toNat = l.countP p + (p (f a)).toNat := by
  induction l generalizing j with
  | nil => cases h
  | cons x l ih =>
    cases j with
    | zero =>
      cases h
      rw [List.modify_zero_cons, List.countP_cons, List.countP_cons]
      cases p a <;> cases p (f a) <;> simp
    | succ j =>
      have hrest := ih h
      rw [List.modify_succ_cons, List.countP_cons, List.countP_cons]
      omega

theorem countP_pos_of_getElem? {j : ℕ} {a : α} (h : l[j]? = some a) (ha : p a = true) :
    0 < l.countP p :=
  List.countP_pos_iff.2 ⟨a, List.mem_of_getElem? h, ha⟩

/-- Two places that pass. -/
theorem two_le_countP {i j : ℕ} {a b : α} (hne : i ≠ j) (hi : l[i]? = some a) (hj : l[j]? = some b)
    (ha : p a = true) (hb : p b = true) : 2 ≤ l.countP p := by
  induction l generalizing i j with
  | nil => cases hi
  | cons x l ih =>
    rw [List.countP_cons]
    cases i with
    | zero =>
      cases hi
      cases j with
      | zero => exact absurd rfl hne
      | succ j =>
        have hpos := countP_pos_of_getElem? (l := l) hj hb
        rw [if_pos ha]
        omega
    | succ i =>
      cases j with
      | zero =>
        cases hj
        have hpos := countP_pos_of_getElem? (l := l) hi ha
        rw [if_pos hb]
        omega
      | succ j =>
        have htwo := ih (fun heq => hne (congrArg (· + 1) heq)) hi hj
        omega

/-- Where two pass, one of them is at another place than `j`. -/
theorem exists_ne_of_two_le (h : 2 ≤ l.countP p) (j : ℕ) :
    ∃ k b, k ≠ j ∧ l[k]? = some b ∧ p b = true := by
  induction l generalizing j with
  | nil => simp at h
  | cons x l ih =>
    rw [List.countP_cons] at h
    cases j with
    | zero =>
      have hpos : 0 < l.countP p := by
        split at h <;> omega
      obtain ⟨b, hmem, hb⟩ := List.countP_pos_iff.1 hpos
      obtain ⟨k, hk⟩ := List.mem_iff_getElem?.1 hmem
      exact ⟨k + 1, b, Nat.succ_ne_zero k, hk, hb⟩
    | succ j =>
      by_cases hx : p x = true
      · exact ⟨0, x, Ne.symm (Nat.succ_ne_zero j), rfl, hx⟩
      · rw [if_neg hx] at h
        obtain ⟨k, b, hne, hk, hb⟩ := ih h j
        exact ⟨k + 1, b, fun heq => hne (Nat.succ.inj heq), hk, hb⟩

/-- Two places of a table in which one entry at most passes are the same. -/
theorem eq_of_countP_le_one (h : l.countP p ≤ 1) {i j : ℕ} {a b : α} (hi : l[i]? = some a)
    (hj : l[j]? = some b) (ha : p a = true) (hb : p b = true) : i = j := by
  by_contra hne
  have htwo := two_le_countP hne hi hj ha hb
  omega

theorem countP_le_one (h : ∀ (i j : ℕ) a b, l[i]? = some a → l[j]? = some b → p a = true →
    p b = true → i = j) : l.countP p ≤ 1 := by
  by_contra hlt
  have htwo : 2 ≤ l.countP p := by omega
  obtain ⟨i, a, -, hi, ha⟩ := exists_ne_of_two_le htwo l.length
  obtain ⟨j, b, hne, hj, hb⟩ := exists_ne_of_two_le htwo i
  exact hne (h j i b a hj hi hb ha)

/-- Entries that pass are of one key, and no key is there twice. -/
theorem countP_le_one_of_nodup {β : Type*} [DecidableEq β] {f : α → Option β} {b : β}
    (hf : ∀ a ∈ l, p a = true → f a = some b) (hnodup : (l.filterMap f).Nodup) :
    l.countP p ≤ 1 := by
  have hone := List.nodup_iff_count_le_one.1 hnodup b
  rw [List.count_eq_countP, List.countP_filterMap] at hone
  refine Nat.le_trans (List.countP_mono_left fun a hmem ha => ?_) hone
  simp [hf a hmem ha]

end Tables
