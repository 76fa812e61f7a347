import Fitz.Lib.Framing
import Fitz.Model.StreamRead
import Fitz.Proof.Fields

/-!
# Formats with one encoding a value

`Inverts m enc ok`: the decoder `m` reads exactly the encodings `enc a` of the values that
are `ok`. Such a decoder returns what was encoded, refuses every truncation, and shows
its encodings to be prefix-free. The rules below are for what the page formats are
made of beside single fields: optional fields, loops and the check that the buffer ends.
-/

namespace Fitz

open Framing BigEndian

variable {α β : Type}

/-- The decoder reads the encodings of the values that are `ok`, and nothing else. -/
def Inverts (m : Decode α) (enc : α → Bytes) (ok : α → Prop) : Prop :=
  Reads m fun a bytes => ok a ∧ bytes = enc a

/-- A decoder that takes the whole buffer. -/
def ended (error : FitzError) (m : Decode α) : Decode α := do
  let a ← m
  if !(← isEmpty) then throw error
  return a

def putOptional (put : α → Bytes) : Option α → Bytes
  | none => putU8 0
  | some a => putU8 1 ++ put a

/-! ## What a decoder of a format does -/

theorem inverts_of_reads {m : Decode α} {enc : α → Bytes} {ok : α → Prop}
    (h : Reads m fun a bytes => bytes = enc a ∧ ok a) : Inverts m enc ok :=
  h.congr fun _ _ => and_comm

theorem isEmpty_run (d : PayloadDecoder) : isEmpty.run d = .ok (decide (d.pos ≥ d.buf.length), d) :=
  rfl

namespace Inverts

variable {m : Decode α} {enc : α → Bytes} {ok : α → Prop}

theorem run_encoded (h : Inverts m enc ok) {a : α} (ha : ok a) :
    m.run (.new (enc a)) = .ok (a, ⟨enc a, (enc a).length⟩) := by
  refine (h (enc a) 0 a _ (Nat.zero_le _)).2 ⟨enc a, ⟨ha, rfl⟩, List.prefix_refl _, ?_⟩
  rw [Nat.zero_add]

theorem on_iff (h : Inverts m enc ok) {buf : Bytes} {a : α} :
    m.on buf = .ok a ↔ ok a ∧ enc a <+: buf := by
  rw [Reads.on_iff h]
  constructor
  · rintro ⟨_, ⟨ha, rfl⟩, hpre⟩
    exact ⟨ha, hpre⟩
  · rintro ⟨ha, hpre⟩
    exact ⟨enc a, ⟨ha, rfl⟩, hpre⟩

/-- **What can be read back is prefix-free.** -/
theorem prefixFree (h : Inverts m enc ok) : PrefixFree enc ok := by
  intro a b ha hb hpre
  have hread : m.on (enc b) = .ok a := h.on_iff.2 ⟨ha, hpre⟩
  have hback : m.on (enc b) = .ok b := h.on_iff.2 ⟨hb, List.prefix_refl _⟩
  rw [hread] at hback
  exact Except.ok.inj hback

theorem on_truncated (h : Inverts m enc ok) {a : α} (ha : ok a) {bytes : Bytes}
    (hpre : bytes <+: enc a) (hne : bytes ≠ enc a) : ∃ error, m.on bytes = .error error := by
  cases hon : m.on bytes with
  | error error => exact ⟨error, rfl⟩
  | ok b =>
    obtain ⟨hb, hfront⟩ := h.on_iff.1 hon
    have hab : b = a := h.prefixFree b a hb ha (hfront.trans hpre)
    rw [hab] at hfront
    exact absurd (hpre.eq_of_length_le hfront.length_le) hne

end Inverts

/-- **A decoder that takes the whole buffer accepts the encodings and nothing else.** -/
theorem Reads.ended {m : Decode α} {R : α → Bytes → Prop} (h : Reads m R) (error : FitzError)
    {buf : Bytes} {a : α} : (Fitz.ended error m).on buf = .ok a ↔ R a buf := by
  have hrun : ∀ (b : α) (d : PayloadDecoder), m.run (.new buf) = .ok (b, d) →
      (Fitz.ended error m).run (.new buf) =
        if d.pos ≥ d.buf.length then .ok (b, d) else .error error := by
    intro b d hm
    rw [Fitz.ended, Decode.run_bind_of_ok hm, Decode.run_bind_of_ok (isEmpty_run d)]
    by_cases hpos : d.pos ≥ d.buf.length
    · rw [if_pos hpos, decide_eq_true hpos]
      rfl
    · rw [if_neg hpos, decide_eq_false hpos]
      rfl
  constructor
  · intro hon
    obtain ⟨d, hd⟩ := Decode.on_ok hon
    obtain ⟨b, d', hm, -⟩ := Decode.bind_ok hd
    obtain ⟨bytes, hR, hpre, rfl⟩ := (h buf 0 b d' (Nat.zero_le _)).1 hm
    rw [hrun b _ hm] at hd
    split at hd
    · rename_i hend
      cases hd
      have hlen : buf.length ≤ bytes.length := by simpa using hend
      have hwhole : bytes = buf := hpre.eq_of_length_le hlen
      rwa [← hwhole]
    · cases hd
  · intro hR
    have hm : m.run (.new buf) = .ok (a, ⟨buf, buf.length⟩) :=
      (h buf 0 a _ (Nat.zero_le _)).2 ⟨buf, hR, List.prefix_refl _, by rw [Nat.zero_add]⟩
    refine Decode.on_of_run (d := ⟨buf, buf.length⟩) ?_
    rw [hrun a _ hm, if_pos (Nat.le_refl _)]

/-- A decoder that looks at how many bytes are left, of which a format that fits in them
takes no notice. -/
theorem Reads.room {f : ℕ → Decode α} {T : ℕ → α → Bytes → Prop} {R : α → Bytes → Prop}
    (hf : ∀ n, Reads (f n) (T n))
    (hroom : ∀ n a bytes, bytes.length ≤ n → (T n a bytes ↔ R a bytes)) :
    Reads (remaining >>= f) R := by
  intro buf pos a d hpos
  have hrun : (remaining >>= f).run ⟨buf, pos⟩ = (f (buf.length - pos)).run ⟨buf, pos⟩ := rfl
  rw [hrun, hf (buf.length - pos) buf pos a d hpos]
  refine exists_congr fun bytes => ⟨fun h => ?_, fun h => ?_⟩
  · have hlen := h.2.1.length_le
    rw [List.length_drop] at hlen
    exact ⟨(hroom _ a bytes hlen).1 h.1, h.2⟩
  · have hlen := h.2.1.length_le
    rw [List.length_drop] at hlen
    exact ⟨(hroom _ a bytes hlen).2 h.1, h.2⟩

/-! ## Optional fields and loops -/

/-- A flag byte decides what is read next. -/
theorem Reads.flag {β : Type} {f : UInt8 → Decode β} {T : UInt8 → β → Bytes → Prop}
    (h : ∀ flag, Reads (f flag) (T flag)) :
    Reads (getU8 >>= f) fun b bytes => ∃ flag rest, T flag b rest ∧ bytes = flag :: rest := by
  refine (reads_getU8.bind h).congr fun b bytes => ?_
  constructor
  · rintro ⟨flag, _, rest, rfl, hT, rfl⟩
    exact ⟨flag, rest, hT, rfl⟩
  · rintro ⟨flag, rest, hT, rfl⟩
    exact ⟨flag, _, rest, rfl, hT, rfl⟩

/-- The fixed values a flag byte can take. -/
theorem Reads.ite {m₁ m₂ : Decode α} {R₁ R₂ : α → Bytes → Prop} (c : Prop) [Decidable c]
    (h₁ : Reads m₁ R₁) (h₂ : Reads m₂ R₂) :
    Reads (if c then m₁ else m₂) fun a bytes => c ∧ R₁ a bytes ∨ ¬c ∧ R₂ a bytes := by
  by_cases hc : c
  · rw [if_pos hc]
    exact h₁.congr fun a bytes => by simp only [hc, true_and, not_true, false_and, or_false]
  · rw [if_neg hc]
    exact h₂.congr fun a bytes => by simp only [hc, false_and, not_false_eq_true, true_and, false_or]

theorem reads_optionalField {m : Decode α} {enc : α → Bytes} {ok : α → Prop}
    (refused : UInt8 → FitzError) (h : Inverts m enc ok) :
    Inverts (optionalField refused m) (putOptional enc) fun value => ∀ a ∈ value, ok a := by
  have hsome : Reads (do return some (← m)) fun value bytes =>
      ∃ a, (ok a ∧ bytes = enc a) ∧ value = some a := Reads.map some h
  refine (Reads.flag fun flag =>
    Reads.ite (flag = 0) (Reads.pure none)
      (Reads.ite (flag = 1) hsome (Reads.throw (refused flag)))).congr fun value bytes => ?_
  constructor
  · rintro ⟨flag, rest, ⟨rfl, rfl, rfl⟩ | ⟨-, ⟨rfl, a, ⟨ha, rfl⟩, rfl⟩ | ⟨-, hfails⟩⟩, rfl⟩
    · exact ⟨fun a ha => absurd ha (Option.not_mem_none a), rfl⟩
    · exact ⟨fun b hb => Option.mem_some.1 hb ▸ ha, rfl⟩
    · exact hfails.elim
  · rintro ⟨hok, rfl⟩
    cases value with
    | none => exact ⟨0, [], .inl ⟨rfl, rfl, rfl⟩, rfl⟩
    | some a => exact ⟨1, enc a, .inr ⟨by decide, .inl ⟨rfl, a, ⟨hok a rfl, rfl⟩, rfl⟩⟩, rfl⟩

theorem reads_flagField (refused : UInt8 → FitzError) :
    Inverts (flagField refused) (fun value => putU8 (if value then 1 else 0)) fun _ => True := by
  refine (Reads.flag fun flag =>
    Reads.ite (flag = 0) (Reads.pure false)
      (Reads.ite (flag = 1) (Reads.pure true) (Reads.throw (refused flag)))).congr
        fun value bytes => ?_
  constructor
  · rintro ⟨flag, rest, ⟨rfl, rfl, rfl⟩ | ⟨-, ⟨rfl, rfl, rfl⟩ | ⟨-, hfails⟩⟩, rfl⟩
    · exact ⟨trivial, rfl⟩
    · exact ⟨trivial, rfl⟩
    · exact hfails.elim
  · rintro ⟨-, rfl⟩
    cases value with
    | false => exact ⟨0, [], .inl ⟨rfl, rfl, rfl⟩, rfl⟩
    | true => exact ⟨1, [], .inr ⟨by decide, .inl ⟨rfl, rfl, rfl⟩⟩, rfl⟩

/-- A loop that reads one item a pass. -/
theorem reads_loop {m : Decode α} {enc : α → Bytes} {ok : α → Prop} (h : Inverts m enc ok)
    (loop : ℕ → Decode (List α)) (hzero : loop 0 = pure [])
    (hsucc : ∀ n, loop (n + 1) = do return (← m) :: (← loop n)) (n : ℕ) :
    Inverts (loop n) (stream enc) fun items => items.length = n ∧ ∀ a ∈ items, ok a := by
  induction n with
  | zero =>
    rw [hzero]
    refine (Reads.pure []).congr fun items bytes => ?_
    constructor
    · rintro ⟨rfl, rfl⟩
      exact ⟨⟨rfl, fun a ha => absurd ha List.not_mem_nil⟩, rfl⟩
    · rintro ⟨⟨hlen, -⟩, rfl⟩
      have hnil : items = [] := List.length_eq_zero_iff.1 hlen
      rw [hnil]
      exact ⟨rfl, rfl⟩
  | succ n ih =>
    rw [hsucc]
    refine (Reads.bind h fun a => Reads.map (List.cons a) ih).congr fun items bytes => ?_
    constructor
    · rintro ⟨a, x, y, ⟨ha, rfl⟩, ⟨rest, ⟨⟨hlen, hrest⟩, rfl⟩, rfl⟩, rfl⟩
      refine ⟨⟨by rw [List.length_cons, hlen], ?_⟩, rfl⟩
      exact List.forall_mem_cons.2 ⟨ha, hrest⟩
    · rintro ⟨⟨hlen, hok⟩, rfl⟩
      cases items with
      | nil => cases hlen
      | cons a rest =>
        obtain ⟨ha, hrest⟩ := List.forall_mem_cons.1 hok
        exact ⟨a, _, _, ⟨ha, rfl⟩, ⟨rest, ⟨⟨Nat.succ.inj hlen, hrest⟩, rfl⟩, rfl⟩, rfl⟩

/-! ## Counted lists -/

theorem reads_count : Inverts (do return (← getU32).toNat) (toBe 4) (· < 2 ^ 32) := by
  refine (Reads.map UInt32.toNat reads_getU32).congr fun n bytes => ?_
  constructor
  · rintro ⟨a, rfl, rfl⟩
    exact ⟨a.toNat_lt, rfl⟩
  · rintro ⟨hn, rfl⟩
    have hval : (UInt32.ofNat n).toNat = n := by
      rw [UInt32.toNat_ofNat']
      omega
    exact ⟨UInt32.ofNat n, by rw [putU32, hval], hval.symm⟩

/-- A count and so many items. -/
theorem reads_counted {enc : α → Bytes} {ok : α → Prop} {loop : ℕ → Decode (List α)}
    (hloop : ∀ n, Inverts (loop n) (stream enc) fun items => items.length = n ∧ ∀ a ∈ items, ok a) :
    Inverts (do loop (← (do return (← getU32).toNat)))
      (fun items => toBe 4 items.length ++ stream enc items) fun items =>
        items.length < 2 ^ 32 ∧ ∀ a ∈ items, ok a := by
  refine (Reads.bind reads_count hloop).congr fun items bytes => ?_
  constructor
  · rintro ⟨n, x, y, ⟨hn, rfl⟩, ⟨⟨rfl, hall⟩, rfl⟩, rfl⟩
    exact ⟨⟨hn, hall⟩, rfl⟩
  · rintro ⟨⟨hn, hall⟩, rfl⟩
    exact ⟨items.length, _, _, ⟨hn, rfl⟩, ⟨⟨rfl, hall⟩, rfl⟩, rfl⟩

end Fitz
