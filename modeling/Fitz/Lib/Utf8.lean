import Mathlib.Data.List.Infix

/-!
# The bytes of a text

`utf8 cs` is the UTF-8 encoding of the characters `cs`. An ASCII byte occurs in it only
where its character does (`mem_utf8_iff`), so bytes can be cut at an ASCII separator as
the characters are (`splitOn_utf8`), and a text begins another if its bytes do
(`utf8_prefix_iff`).
-/

namespace Utf8

def utf8 (cs : List Char) : List UInt8 := cs.flatMap String.utf8EncodeChar

@[simp] theorem utf8_nil : utf8 [] = [] := rfl

@[simp] theorem utf8_cons (c : Char) (cs : List Char) :
    utf8 (c :: cs) = String.utf8EncodeChar c ++ utf8 cs := rfl

@[simp] theorem utf8_append (cs ds : List Char) : utf8 (cs ++ ds) = utf8 cs ++ utf8 ds :=
  List.flatMap_append

theorem utf8_data (cs : List Char) : cs.utf8Encode.data.toList = utf8 cs := by
  simp [List.utf8Encode, utf8]

theorem utf8_eq_nil {cs : List Char} : utf8 cs = [] ↔ cs = [] := by
  cases cs with
  | nil => simp
  | cons c cs => simp

/-! ## ASCII -/

/-- A byte of a longer encoding has its top bit set. -/
theorem le_or {x m : UInt8} (hm : 128 ≤ m.toNat) : 128 ≤ (x ||| m).toNat := by
  rw [UInt8.toNat_or]
  exact le_trans hm Nat.right_le_or

/-- An ASCII byte stands for its character and is part of no other one. -/
theorem mem_utf8EncodeChar {a c : Char} (ha : a.val < 128) :
    a.val.toUInt8 ∈ String.utf8EncodeChar c ↔ c = a := by
  have hbyte : a.val.toUInt8.toNat < 128 := by
    have hlt : a.val.toNat < 128 := UInt32.lt_iff_toNat_lt.1 ha
    rw [UInt32.toNat_toUInt8]
    omega
  have hlong : ∀ {x m : UInt8}, 128 ≤ m.toNat → a.val.toUInt8 ≠ x ||| m := by
    intro x m hm heq
    have hle := le_or (x := x) hm
    rw [← heq] at hle
    omega
  constructor
  · intro hmem
    rcases c.utf8Size_eq with h1 | h2 | h3 | h4
    · rw [String.utf8EncodeChar_eq_singleton h1, List.mem_singleton] at hmem
      have hc : c.val.toNat ≤ 127 := UInt32.le_iff_toNat_le.1 (Char.utf8Size_eq_one_iff.1 h1)
      have ha' : a.val.toNat < 128 := UInt32.lt_iff_toNat_lt.1 ha
      have hnat := congrArg UInt8.toNat hmem
      rw [UInt32.toNat_toUInt8, UInt32.toNat_toUInt8] at hnat
      apply Char.ext
      rw [← UInt32.toNat_inj]
      omega
    · rw [String.utf8EncodeChar_eq_cons_cons h2] at hmem
      simp only [List.mem_cons, List.not_mem_nil, or_false] at hmem
      rcases hmem with h | h
      · exact absurd h (hlong (by decide))
      · exact absurd h (hlong (by decide))
    · rw [String.utf8EncodeChar_eq_cons_cons_cons h3] at hmem
      simp only [List.mem_cons, List.not_mem_nil, or_false] at hmem
      rcases hmem with h | h | h
      · exact absurd h (hlong (by decide))
      · exact absurd h (hlong (by decide))
      · exact absurd h (hlong (by decide))
    · rw [String.utf8EncodeChar_eq_cons_cons_cons_cons h4] at hmem
      simp only [List.mem_cons, List.not_mem_nil, or_false] at hmem
      rcases hmem with h | h | h | h
      · exact absurd h (hlong (by decide))
      · exact absurd h (hlong (by decide))
      · exact absurd h (hlong (by decide))
      · exact absurd h (hlong (by decide))
  · rintro rfl
    have hsize : c.utf8Size = 1 := by
      rw [Char.utf8Size_eq_one_iff, UInt32.le_iff_toNat_le]
      have hlt : c.val.toNat < 128 := UInt32.lt_iff_toNat_lt.1 ha
      change c.val.toNat ≤ 127
      omega
    rw [String.utf8EncodeChar_eq_singleton hsize]
    exact List.mem_singleton.2 rfl

theorem mem_utf8_iff {a : Char} (ha : a.val < 128) {cs : List Char} :
    a.val.toUInt8 ∈ utf8 cs ↔ a ∈ cs := by
  unfold utf8
  rw [List.mem_flatMap]
  constructor
  · rintro ⟨c, hc, hmem⟩
    rwa [(mem_utf8EncodeChar ha).1 hmem] at hc
  · intro hmem
    exact ⟨a, hmem, (mem_utf8EncodeChar ha).2 rfl⟩

theorem utf8_ascii {a : Char} (ha : a.val < 128) : String.utf8EncodeChar a = [a.val.toUInt8] := by
  apply String.utf8EncodeChar_eq_singleton
  rw [Char.utf8Size_eq_one_iff, UInt32.le_iff_toNat_le]
  have hlt : a.val.toNat < 128 := UInt32.lt_iff_toNat_lt.1 ha
  change a.val.toNat ≤ 127
  omega

/-! ## Prefixes -/

theorem utf8_prefix_iff {cs ds : List Char} : utf8 cs <+: utf8 ds ↔ cs <+: ds := by
  constructor
  · rintro ⟨rest, hrest⟩
    refine List.isPrefix_of_utf8Encode_append_eq_utf8Encode ⟨rest.toArray⟩ ?_
    apply ByteArray.ext
    apply Array.toList_inj.1
    rw [ByteArray.data_append, Array.toList_append, utf8_data, utf8_data]
    exact hrest
  · rintro ⟨rest, rfl⟩
    rw [utf8_append]
    exact List.prefix_append _ _

/-! ## Separators -/

theorem utf8_intercalate {a : Char} (ha : a.val < 128) (parts : List (List Char)) :
    utf8 ([a].intercalate parts) = [a.val.toUInt8].intercalate (parts.map utf8) := by
  induction parts with
  | nil => rfl
  | cons part parts ih =>
    cases parts with
    | nil => simp
    | cons next parts =>
      rw [List.intercalate_cons_cons, List.map_cons, List.map_cons, List.intercalate_cons_cons,
        utf8_append, utf8_append, ih, List.map_cons, utf8_cons, utf8_nil, utf8_ascii ha,
        List.append_nil]

/-- **The bytes are cut where the text is.** -/
theorem splitOn_utf8 {a : Char} (ha : a.val < 128) {parts : List (List Char)} (hne : parts ≠ [])
    (hparts : ∀ part ∈ parts, a ∉ part) :
    (utf8 ([a].intercalate parts)).splitOn a.val.toUInt8 = parts.map utf8 := by
  rw [utf8_intercalate ha]
  apply List.splitOn_intercalate
  · intro bytes hmem
    obtain ⟨part, hpart, rfl⟩ := List.mem_map.1 hmem
    rw [mem_utf8_iff ha]
    exact hparts part hpart
  · rwa [Ne, List.map_eq_nil_iff]

/-- Every text is made of the parts between its separators. -/
theorem exists_parts (a : Char) (cs : List Char) :
    ∃ parts, parts ≠ [] ∧ (∀ part ∈ parts, a ∉ part) ∧ cs = [a].intercalate parts := by
  induction cs with
  | nil =>
    refine ⟨[[]], List.cons_ne_nil _ _, fun part hmem => ?_, rfl⟩
    rw [List.mem_singleton.1 hmem]
    exact List.not_mem_nil
  | cons c cs ih =>
    obtain ⟨parts, hne, hparts, hcs⟩ := ih
    by_cases hc : c = a
    · refine ⟨[] :: parts, List.cons_ne_nil _ _, ?_, ?_⟩
      · exact List.forall_mem_cons.2 ⟨List.not_mem_nil, hparts⟩
      · rw [List.intercalate_cons_of_ne_nil hne, ← hcs, hc]
        rfl
    · cases parts with
      | nil => exact absurd rfl hne
      | cons part parts =>
        obtain ⟨hpart, hrest⟩ := List.forall_mem_cons.1 hparts
        refine ⟨(c :: part) :: parts, List.cons_ne_nil _ _, ?_, ?_⟩
        · refine List.forall_mem_cons.2 ⟨?_, hrest⟩
          rw [List.mem_cons, not_or]
          exact ⟨fun heq => hc heq.symm, hpart⟩
        · rw [hcs]
          cases parts with
          | nil => simp
          | cons next parts =>
            rw [List.intercalate_cons_cons, List.intercalate_cons_cons]
            rfl

end Utf8
