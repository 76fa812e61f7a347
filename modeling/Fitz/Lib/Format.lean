import Mathlib.Data.List.Basic
import Fitz.Lib.Framing

/-!
# Formats told apart up to a length

A format writes values as lists of symbols so that, of encodings shorter than a bound, none
begins another. The bound is that of the whole message: a part of a short encoding is short,
so the parts of a message (pairs, optional values, marked and counted ones) need no size
condition of their own.
-/

namespace Framing

universe u v w

/-- An encoding that tells its values apart in messages shorter than the bound. -/
structure Format (bound : ℕ) (β : Type v) (α : Type u) where
  enc : α → List β
  told : PrefixFree enc fun a => (enc a).length < bound

namespace Format

variable {bound : ℕ} {β : Type v} {α : Type u} {γ : Type w}

/-- What a condition on the values tells apart, if every short encoding meets it. -/
def ofPrefixFree {enc : α → List β} {ok : α → Prop} (h : PrefixFree enc ok)
    (hok : ∀ a, (enc a).length < bound → ok a) : Format bound β α :=
  ⟨enc, fun a b ha hb hpre => h a b (hok a ha) (hok b hb) hpre⟩

/-- Encodings of one length. -/
def ofLength (enc : α → List β) (n : ℕ) (hlen : ∀ a, (enc a).length = n)
    (hinj : Function.Injective enc) : Format bound β α :=
  ⟨enc, fun a b _ _ hpre => hinj (hpre.eq_of_length (by rw [hlen a, hlen b]))⟩

/-- No symbol, for a type with one value. -/
def empty : Format bound β Unit := ⟨fun _ => [], fun _ _ _ _ _ => rfl⟩

/-- A value written as another one that stands for it alone. -/
def under (f : Format bound β α) (g : γ → α) (hg : Function.Injective g) : Format bound β γ :=
  ⟨fun c => f.enc (g c), fun c d hc hd hpre => hg (f.told (g c) (g d) hc hd hpre)⟩

/-- The same symbols before every value. -/
def mark (front : List β) (f : Format bound β α) : Format bound β α where
  enc a := front ++ f.enc a
  told a b ha hb hpre := by
    have ha' : front.length + (f.enc a).length < bound := List.length_append ▸ ha
    have hb' : front.length + (f.enc b).length < bound := List.length_append ▸ hb
    have hrest := (List.prefix_append_right_inj front).1 hpre
    exact f.told a b (by omega) (by omega) hrest

/-- Two values in order. -/
def pair (f : Format bound β α) (g : Format bound β γ) : Format bound β (α × γ) where
  enc p := f.enc p.1 ++ g.enc p.2
  told p q hp hq hpre := by
    have ha : (f.enc p.1).length + (g.enc p.2).length < bound := List.length_append ▸ hp
    have hb : (f.enc q.1).length + (g.enc q.2).length < bound := List.length_append ▸ hq
    obtain ⟨hfst, hrest⟩ := f.told.head (show (f.enc p.1).length < bound by omega)
      (show (f.enc q.1).length < bound by omega) hpre
    have hsnd := g.told p.2 q.2 (by omega) (by omega) hrest
    exact Prod.ext hfst hsnd

/-- A value and the same symbols after it. -/
def trail (f : Format bound β α) (back : List β) : Format bound β α where
  enc a := f.enc a ++ back
  told a b ha hb hpre := by
    have ha' : (f.enc a).length + back.length < bound := List.length_append ▸ ha
    have hb' : (f.enc b).length + back.length < bound := List.length_append ▸ hb
    exact (f.told.head (show (f.enc a).length < bound by omega)
      (show (f.enc b).length < bound by omega) hpre).1

/-- A value of either type, behind the mark of its type. -/
def sum (l r : β) (hne : l ≠ r) (f : Format bound β α) (g : Format bound β γ) :
    Format bound β (α ⊕ γ) where
  enc
    | .inl a => l :: f.enc a
    | .inr c => r :: g.enc c
  told p q hp hq hpre := by
    cases p with
    | inl a =>
      cases q with
      | inl b =>
        have ha : (f.enc a).length + 1 < bound := hp
        have hb : (f.enc b).length + 1 < bound := hq
        have hrest := (List.cons_prefix_cons.1 hpre).2
        rw [f.told a b (by omega) (by omega) hrest]
      | inr d => exact absurd (List.cons_prefix_cons.1 hpre).1 hne
    | inr c =>
      cases q with
      | inl b => exact absurd (List.cons_prefix_cons.1 hpre).1.symm hne
      | inr d =>
        have hc : (g.enc c).length + 1 < bound := hp
        have hd : (g.enc d).length + 1 < bound := hq
        have hrest := (List.cons_prefix_cons.1 hpre).2
        rw [g.told c d (by omega) (by omega) hrest]

/-- The whole encoding of a value as one field of lists, no shorter than what it holds. -/
def inside (outer : Format bound β (List β)) (hle : ∀ l, l.length ≤ (outer.enc l).length)
    (f : Format bound β α) : Format bound β α where
  enc a := outer.enc (f.enc a)
  told a b ha hb hpre := by
    have heq : f.enc a = f.enc b := outer.told _ _ ha hb hpre
    have hlt : (f.enc a).length < bound := (hle _).trans_lt ha
    have hlt' : (f.enc b).length < bound := heq ▸ hlt
    exact f.told a b hlt hlt' (heq ▸ List.prefix_refl _)

/-- A flag, and the value behind it if there is one. -/
def option (off on : β) (hne : off ≠ on) (f : Format bound β α) : Format bound β (Option α) where
  enc
    | none => [off]
    | some a => on :: f.enc a
  told p q hp hq hpre := by
    cases p with
    | none =>
      cases q with
      | none => rfl
      | some b => exact absurd (List.cons_prefix_cons.1 hpre).1 hne
    | some a =>
      cases q with
      | none => exact absurd (List.cons_prefix_cons.1 hpre).1.symm hne
      | some b =>
        have ha : (f.enc a).length + 1 < bound := hp
        have hb : (f.enc b).length + 1 < bound := hq
        have hrest := (List.cons_prefix_cons.1 hpre).2
        rw [f.told a b (by omega) (by omega) hrest]

/-- An encoding in a list of nonempty ones is no longer than the list's. -/
theorem length_le_stream {enc : α → List β} {items : List α} {a : α} (ha : a ∈ items) :
    (enc a).length ≤ (stream enc items).length := by
  induction items with
  | nil => cases ha
  | cons b items ih =>
    rw [stream_cons, List.length_append]
    cases ha with
    | head => omega
    | tail _ ha =>
      have := ih ha
      omega

theorem count_le_stream {enc : α → List β} (hne : ∀ a, enc a ≠ []) (items : List α) :
    items.length ≤ (stream enc items).length := by
  induction items with
  | nil => exact Nat.zero_le _
  | cons a items ih =>
    have hpos := List.length_pos_iff.2 (hne a)
    rw [stream_cons, List.length_append, List.length_cons]
    omega

/-- A list of nonempty encodings behind its length. -/
def list (count : ℕ → List β) (hcount : PrefixFree count (· < bound)) (f : Format bound β α)
    (hne : ∀ a, f.enc a ≠ []) : Format bound β (List α) where
  enc items := count items.length ++ stream f.enc items
  told xs ys hx hy hpre := by
    have hok : ∀ items : List α, (count items.length ++ stream f.enc items).length < bound →
        items.length < bound ∧ ∀ a ∈ items, (f.enc a).length < bound := by
      intro items hlen
      rw [List.length_append] at hlen
      have hn := count_le_stream hne items
      refine ⟨by omega, fun a ha => ?_⟩
      have hle : (f.enc a).length ≤ (stream f.enc items).length := length_le_stream ha
      omega
    exact (f.told.counted hcount) xs ys (hok xs hx) (hok ys hy) hpre

/-! ### What is written -/

@[simp] theorem enc_ofPrefixFree {enc : α → List β} {ok : α → Prop} (h : PrefixFree enc ok)
    (hok : ∀ a, (enc a).length < bound → ok a) : (ofPrefixFree h hok).enc = enc := rfl

@[simp] theorem enc_ofLength (enc : α → List β) (n : ℕ) (hlen : ∀ a, (enc a).length = n)
    (hinj : Function.Injective enc) : (ofLength enc n hlen hinj : Format bound β α).enc = enc := rfl

@[simp] theorem enc_empty (u : Unit) : (empty : Format bound β Unit).enc u = [] := rfl

@[simp] theorem enc_under (f : Format bound β α) (g : γ → α) (hg : Function.Injective g) (c : γ) :
    (f.under g hg).enc c = f.enc (g c) := rfl

@[simp] theorem enc_mark (front : List β) (f : Format bound β α) (a : α) :
    (f.mark front).enc a = front ++ f.enc a := rfl

@[simp] theorem enc_trail (f : Format bound β α) (back : List β) (a : α) :
    (f.trail back).enc a = f.enc a ++ back := rfl

@[simp] theorem enc_pair (f : Format bound β α) (g : Format bound β γ) (p : α × γ) :
    (f.pair g).enc p = f.enc p.1 ++ g.enc p.2 := rfl

@[simp] theorem enc_inside (outer : Format bound β (List β))
    (hle : ∀ l, l.length ≤ (outer.enc l).length) (f : Format bound β α) (a : α) :
    (inside outer hle f).enc a = outer.enc (f.enc a) := rfl

@[simp] theorem enc_list (count : ℕ → List β) (hcount : PrefixFree count (· < bound))
    (f : Format bound β α) (hne : ∀ a, f.enc a ≠ []) (items : List α) :
    (list count hcount f hne).enc items = count items.length ++ stream f.enc items := rfl

/-- Two short messages that are the same bytes hold the same value. -/
theorem eq_of_enc (f : Format bound β α) {a b : α} (ha : (f.enc a).length < bound)
    (h : f.enc a = f.enc b) : a = b := by
  have hb : (f.enc b).length < bound := h ▸ ha
  have hpre : f.enc a <+: f.enc b := h ▸ List.prefix_refl _
  exact f.told a b ha hb hpre

end Format

end Framing
