import Mathlib.Data.List.AList

/-!
# Counting over finite maps

`census f m c` counts an item `c` over the lists `f v` of the values of `m`. What an
insertion or an erasure does to a census is said through the value at its key
(`census_split`), so a conservation law over several maps is linear arithmetic.
-/

namespace Census

variable {α β γ : Type*} [DecidableEq γ]

/-- How often `c` occurs in the lists of the values. -/
def census (f : β → List γ) (m : AList fun _ : α => β) (c : γ) : ℕ :=
  (m.entries.flatMap fun e => f e.2).count c

@[simp] theorem census_empty (f : β → List γ) (c : γ) :
    census f (∅ : AList fun _ : α => β) c = 0 := rfl

variable [DecidableEq α] (f : β → List γ) (m : AList fun _ : α => β) (k : α) (c : γ)

@[simp] theorem census_insert (v : β) :
    census f (m.insert k v) c = (f v).count c + census f (m.erase k) c := by
  have herase : (m.erase k).entries = m.entries.kerase k := rfl
  simp [census, AList.entries_insert, herase]

/-- The census is what the key holds and what the others hold. -/
theorem census_split :
    census f m c = (((m.lookup k).map f).getD []).count c + census f (m.erase k) c := by
  have hentries : (m.erase k).entries = m.entries.kerase k := rfl
  cases hk : m.lookup k with
  | none =>
    have hkeys : k ∉ m.entries.keys := List.dlookup_eq_none.1 hk
    simp [census, hentries, List.kerase_of_notMem_keys hkeys]
  | some v =>
    have hkeys : k ∈ m.entries.keys := List.dlookup_isSome.1 (by
      rw [show m.entries.dlookup k = some v from hk]
      rfl)
    obtain ⟨v', l₁, l₂, -, hl, herase⟩ := List.exists_of_kerase hkeys
    have hv : v = v' := by
      have hmem : (⟨k, v'⟩ : Sigma fun _ : α => β) ∈ m.entries := by simp [hl]
      have := List.mem_dlookup m.nodupKeys hmem
      exact Option.some.inj (hk.symm.trans this)
    subst hv
    simp only [census, hentries, herase]
    rw [hl]
    simp only [List.flatMap_append, List.flatMap_cons, List.count_append, Option.map_some,
      Option.getD_some]
    omega

theorem census_of_lookup {v : β} (h : m.lookup k = some v) :
    census f m c = (f v).count c + census f (m.erase k) c := by
  rw [census_split f m k c, h]
  rfl

/-! ## Maps of queues

Each entry of a queue has at most one item, `g x`. -/

section Queues

variable (g : β → Option γ) (m : AList fun _ : α => List β) (k : α) (c : γ)

theorem count_filterMap_cons (x : β) (xs : List β) :
    ((x :: xs).filterMap g).count c = (g x).toList.count c + (xs.filterMap g).count c := by
  cases hx : g x with
  | none => simp [hx]
  | some c' =>
    simp only [List.filterMap_cons, hx, List.count_cons, Option.toList_some, List.count_nil]
    omega

/-- The first entry with `p` leaves a queue. -/
theorem count_filterMap_eraseP (p : β → Bool) (xs : List β) :
    (xs.filterMap g).count c =
      ((xs.find? p).bind g).toList.count c + ((xs.eraseP p).filterMap g).count c := by
  induction xs with
  | nil => rfl
  | cons x xs ih =>
    rw [count_filterMap_cons]
    cases hp : p x with
    | true => simp [hp]
    | false =>
      rw [List.find?_cons_of_neg (by simp [hp]), List.eraseP_cons_of_neg (by simp [hp]),
        count_filterMap_cons]
      omega

/-- An entry joins the queue at its key. -/
theorem census_enqueue (x : β) :
    census (List.filterMap g) (m.insert k ((m.lookup k).getD [] ++ [x])) c =
      (g x).toList.count c + census (List.filterMap g) m c := by
  have hold : ((m.lookup k).map (List.filterMap g)).getD [] =
      ((m.lookup k).getD []).filterMap g := by
    cases m.lookup k <;> rfl
  have hsplit := census_split (List.filterMap g) m k c
  have hone := count_filterMap_cons g c x []
  rw [hold] at hsplit
  rw [List.filterMap_nil, List.count_nil] at hone
  rw [census_insert, List.filterMap_append, List.count_append]
  omega

/-- The first entry leaves the queue at its key. -/
theorem census_dequeue {x : β} {xs : List β} (h : (m.lookup k).getD [] = x :: xs) :
    census (List.filterMap g) m c =
      (g x).toList.count c + census (List.filterMap g) (m.insert k xs) c := by
  have hl : m.lookup k = some (x :: xs) := by
    cases hl : m.lookup k with
    | none =>
      rw [hl] at h
      cases h
    | some ys =>
      rw [hl] at h
      exact congrArg some h
  have hsplit := census_of_lookup (List.filterMap g) m k c hl
  rw [count_filterMap_cons] at hsplit
  rw [census_insert]
  omega

end Queues

end Census
