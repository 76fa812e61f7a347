import Fitz.Proof.Formats

/-!
# Stream filter sets

`encode_stream_filter_set` puts clauses of different shapes one behind the other and
nothing in the repository decodes them. No two filter sets have the same encoding, and
none of the encodings begins another: the tag tells the shape, and each shape is built
of prefix-free parts.
-/

namespace Fitz

open Framing BigEndian

/-! ## Parts -/

/-- The string fits its length prefix. -/
def ShortString (s : String) : Prop := s.toUTF8.toList.length < 2 ^ 32

theorem prefixFree_putU8 : PrefixFree putU8 fun _ => True := by
  intro a b _ _ hpre
  have heq : putU8 a = putU8 b := hpre.eq_of_length_le (Nat.le_refl _)
  exact List.singleton_inj.1 heq

theorem prefixFree_putString : PrefixFree putString ShortString :=
  (inverts_of_reads reads_getString).prefixFree

/-- The four bytes of a count. -/
theorem prefixFree_count : PrefixFree (toBe 4) (· < 2 ^ 32) := by
  intro m n hm hn hpre
  have heq : toBe 4 m = toBe 4 n := hpre.eq_of_length_le (by rw [length_toBe, length_toBe])
  have hbound : (2 : ℕ) ^ 32 = 256 ^ 4 := by norm_num
  rw [hbound] at hm hn
  exact toBe_inj hm hn heq

/-! ## Clauses -/

namespace StreamFilterClause

/-- Strings and lists fit their length prefixes. -/
def Fits : StreamFilterClause → Prop
  | .equals value | .notEquals value | .startsWith value => ShortString value
  | .anyOf values => values.length < 2 ^ 32 ∧ ∀ value ∈ values, ShortString value

def tag : StreamFilterClause → UInt8
  | .equals _ => 0
  | .notEquals _ => 1
  | .startsWith _ => 2
  | .anyOf _ => 3

/-- What stands behind the tag. -/
def body : StreamFilterClause → Bytes
  | .equals value | .notEquals value | .startsWith value => putString value
  | .anyOf values => toBe 4 values.length ++ stream putString values

theorem encode_eq {clause : StreamFilterClause} (h : clause.Fits) :
    encodeStreamFilterClause clause = .ok (putU8 clause.tag ++ clause.body) := by
  cases clause with
  | equals value => rfl
  | notEquals value => rfl
  | startsWith value => rfl
  | anyOf values =>
    have hlen : ¬ values.length ≥ 2 ^ 32 := not_le.2 h.1
    rw [encodeStreamFilterClause, if_neg hlen]
    rfl

/-- **Clauses are told apart.** -/
theorem prefixFree : PrefixFree (fun clause => putU8 (tag clause) ++ body clause) Fits := by
  have hvalues := prefixFree_putString.counted prefixFree_count
  refine prefixFree_putU8.tagged (fun _ _ => trivial) fun c d hc hd htag hpre => ?_
  cases c with
  | equals value =>
    cases d with
    | equals value' => rw [prefixFree_putString value value' hc hd hpre]
    | notEquals value' | startsWith value' | anyOf values' => cases htag
  | notEquals value =>
    cases d with
    | notEquals value' => rw [prefixFree_putString value value' hc hd hpre]
    | equals value' | startsWith value' | anyOf values' => cases htag
  | startsWith value =>
    cases d with
    | startsWith value' => rw [prefixFree_putString value value' hc hd hpre]
    | equals value' | notEquals value' | anyOf values' => cases htag
  | anyOf values =>
    cases d with
    | anyOf values' => rw [hvalues values values' hc hd hpre]
    | equals value' | notEquals value' | startsWith value' => cases htag

end StreamFilterClause

/-! ## Sets -/

def StreamFilterSet.Fits (filter : StreamFilterSet) : Prop :=
  filter.clauses.length < 2 ^ 32 ∧ ∀ clause ∈ filter.clauses, clause.Fits

/-- The clauses one behind the other. -/
def clauseStream (clauses : List StreamFilterClause) : Bytes :=
  stream (fun clause => putU8 clause.tag ++ clause.body) clauses

theorem encode_clauses_eq {clauses : List StreamFilterClause} (h : ∀ clause ∈ clauses, clause.Fits) :
    encodeStreamFilterClauses clauses = .ok (clauseStream clauses) := by
  induction clauses with
  | nil => rfl
  | cons clause clauses ih =>
    obtain ⟨hclause, hrest⟩ := List.forall_mem_cons.1 h
    rw [encodeStreamFilterClauses, StreamFilterClause.encode_eq hclause, ih hrest]
    rfl

theorem encode_filter_eq {filter : StreamFilterSet} (h : filter.Fits) :
    encodeStreamFilterSet filter =
      .ok ([0, 0xF1] ++ (toBe 4 filter.clauses.length ++ clauseStream filter.clauses)) := by
  have hlen : ¬ filter.clauses.length ≥ 2 ^ 32 := not_le.2 h.1
  unfold encodeStreamFilterSet
  rw [if_neg hlen, encode_clauses_eq h.2]
  rfl

theorem eq_of_prefix_filter {f g : StreamFilterSet} (hf : f.Fits) (hg : g.Fits)
    (hpre : [0, 0xF1] ++ (toBe 4 f.clauses.length ++ clauseStream f.clauses) <+:
      [0, 0xF1] ++ (toBe 4 g.clauses.length ++ clauseStream g.clauses)) : f = g := by
  have hclauses := StreamFilterClause.prefixFree.counted prefixFree_count
  rw [List.prefix_append_right_inj] at hpre
  have heq : f.clauses = g.clauses := hclauses f.clauses g.clauses hf hg hpre
  exact congrArg StreamFilterSet.mk heq

/-- **Stream filter encoding is unambiguous.** -/
theorem filters_unambiguous (f g : StreamFilterSet) (hf : f.Fits) (hg : g.Fits) :
    (∃ x y, encodeStreamFilterSet f = .ok x ∧ encodeStreamFilterSet g = .ok y ∧
      (x <+: y → x = y)) ∧
    (encodeStreamFilterSet f = encodeStreamFilterSet g → f = g) := by
  rw [encode_filter_eq hf, encode_filter_eq hg]
  constructor
  · refine ⟨_, _, rfl, rfl, fun hpre => ?_⟩
    rw [eq_of_prefix_filter hf hg hpre]
  · intro heq
    have hbytes := Except.ok.inj heq
    exact eq_of_prefix_filter hf hg (hbytes ▸ List.prefix_refl _)

theorem filters_unambiguous_two :
    (∃ x y, encodeStreamFilterSet ⟨[.equals "a", .anyOf ["b"]]⟩ = .ok x ∧
        encodeStreamFilterSet ⟨[.equals "a"]⟩ = .ok y ∧ (x <+: y → x = y)) ∧
      (encodeStreamFilterSet ⟨[.equals "a", .anyOf ["b"]]⟩ =
          encodeStreamFilterSet ⟨[.equals "a"]⟩ →
        (⟨[.equals "a", .anyOf ["b"]]⟩ : StreamFilterSet) = ⟨[.equals "a"]⟩) := by
  have ha : ShortString "a" := by
    have hlen : "a".toUTF8.toList.length = 1 := by decide +kernel
    unfold ShortString
    omega
  have hb : ShortString "b" := by
    have hlen : "b".toUTF8.toList.length = 1 := by decide +kernel
    unfold ShortString
    omega
  apply filters_unambiguous
  · refine ⟨by decide, fun clause hmem => ?_⟩
    simp only [List.mem_cons, List.not_mem_nil, or_false] at hmem
    rcases hmem with rfl | rfl
    · exact ha
    · refine ⟨by decide, fun value hvalue => ?_⟩
      rw [List.mem_singleton.1 hvalue]
      exact hb
  · refine ⟨by decide, fun clause hmem => ?_⟩
    rw [List.mem_singleton.1 hmem]
    exact ha

end Fitz
