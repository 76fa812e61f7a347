import Fitz.Lib.Machine
import Fitz.Model.Usize
import Fitz.Proof.FieldCodec

/-!
# Decoding at a pointer width

`Agrees`: a read at the width `w` neither panics nor overflows and does what the read over
natural numbers does. Every read does while the end of the field fits the width
(`agrees_get`), and a length prefix whose field does not fit panics (`getBytes_panics`).
`decoder_safe_iff` is this along any sequence of reads: with 64 bits all of them are safe,
with 32 those whose length prefixes fit.
-/

namespace Fitz.Usize

open BigEndian Machine

variable {w n : ℕ} {d d' : Decoder} {α β : Type}

/-! ## Runs of reads -/

theorem on_bind_ok {m : Read α} {f : α → Read β} {a : α} (h : m.on d = some (.ok a, d')) :
    (m >>= f).on d = (f a).on d' := by
  unfold Read.on at h ⊢
  rw [ExceptT.run_bind, StateT.run_bind, h]
  rfl

theorem on_bind_error {m : Read α} {f : α → Read β} {error : FitzError}
    (h : m.on d = some (.error error, d')) : (m >>= f).on d = some (.error error, d') := by
  unfold Read.on at h ⊢
  rw [ExceptT.run_bind, StateT.run_bind, h]
  rfl

theorem on_bind_none {m : Read α} {f : α → Read β} (h : m.on d = none) : (m >>= f).on d = none := by
  unfold Read.on at h ⊢
  rw [ExceptT.run_bind, StateT.run_bind, h]
  rfl

theorem get_on (d : Decoder) : (get : Read Decoder).on d = some (.ok d, d) := rfl

/-! ## One slice -/

/-- A decoder within its buffer, which fits the memory, without an overflow so far. -/
structure Valid (w : ℕ) (d : Decoder) : Prop where
  pos : d.pos ≤ d.buf.length
  buf : d.buf.length < 2 ^ (w - 1)
  fits : d.overflowed = false

theorem add_on {a b : ℕ} (h : a + b < 2 ^ w) : (add w a b).on d = some (.ok (a + b), d) := by
  have hmod : (a + b) % 2 ^ w = a + b := Nat.mod_eq_of_lt h
  unfold add Read.on
  rw [if_neg (Nat.not_le.2 h), hmod]
  rfl

theorem checkLen_on (h : d.pos + n < 2 ^ w) :
    (checkLen w n).on d =
      some (if d.pos + n > d.buf.length then .error (.codec "Not enough bytes") else .ok (), d) := by
  rw [checkLen, on_bind_ok (get_on d), on_bind_ok (add_on h)]
  split <;> rfl

theorem checkLen_ok (h : d.pos + n < 2 ^ w) (hlen : d.pos + n ≤ d.buf.length) :
    (checkLen w n).on d = some (.ok (), d) := by
  rw [checkLen_on h, if_neg (Nat.not_lt.2 hlen)]

theorem checkLen_short (h : d.pos + n < 2 ^ w) (hlen : d.buf.length < d.pos + n) :
    (checkLen w n).on d = some (.error (.codec "Not enough bytes"), d) := by
  rw [checkLen_on h, if_pos hlen]

theorem advance_on (h : d.pos + n < 2 ^ w) :
    (advance w n).on d = some (.ok (), { d with pos := d.pos + n }) := by
  rw [advance, on_bind_ok (get_on d), on_bind_ok (add_on h)]
  rfl

theorem getSlice_ok (h : d.pos + n < 2 ^ w) (hlen : d.pos + n ≤ d.buf.length) :
    (getSlice w n).on d = some (.ok ((d.buf.drop d.pos).take n), { d with pos := d.pos + n }) := by
  have hslice : (sliceOf w n).on d = some (.ok ((d.buf.drop d.pos).take n), d) := by
    rw [sliceOf, on_bind_ok (get_on d), on_bind_ok (add_on h), if_pos ⟨Nat.le_add_right _ _, hlen⟩,
      List.drop_take, Nat.add_sub_cancel_left]
    rfl
  rw [getSlice, on_bind_ok (checkLen_ok h hlen), on_bind_ok hslice, on_bind_ok (advance_on h)]
  rfl

theorem getSlice_short (h : d.pos + n < 2 ^ w) (hlen : d.buf.length < d.pos + n) :
    (getSlice w n).on d = some (.error (.codec "Not enough bytes"), d) := by
  rw [getSlice]
  exact on_bind_error (checkLen_short h hlen)

theorem add_wraps {a b : ℕ} (ha : a < 2 ^ w) (hb : b < 2 ^ w) (h : 2 ^ w ≤ a + b) :
    (add w a b).on d = some (.ok (a + b - 2 ^ w), { d with overflowed := true }) := by
  have hmod : (a + b) % 2 ^ w = a + b - 2 ^ w := by
    rw [Nat.mod_eq_sub_mod h]
    exact Nat.mod_eq_of_lt (by omega)
  unfold add Read.on
  rw [if_pos h, hmod]
  rfl

/-- A sum that wrapped is before the position, so it passes the check, and the slice would
end before it starts. -/
theorem getSlice_panics (hpos : d.pos ≤ d.buf.length) (hbuf : d.buf.length < 2 ^ w) (hn : n < 2 ^ w)
    (h : 2 ^ w ≤ d.pos + n) : (getSlice w n).on d = none := by
  have hlt : d.pos < 2 ^ w := Nat.lt_of_le_of_lt hpos hbuf
  have hcheck : (checkLen w n).on d = some (.ok (), { d with overflowed := true }) := by
    rw [checkLen, on_bind_ok (get_on d), on_bind_ok (add_wraps hlt hn h), if_neg (by omega)]
    rfl
  have hbefore : d.pos + n - 2 ^ w < d.pos := by omega
  have hslice : (sliceOf w n).on { d with overflowed := true } = none := by
    rw [sliceOf, on_bind_ok (get_on _), on_bind_ok (add_wraps hlt hn h),
      if_neg fun hrange => absurd hrange.1 (Nat.not_le.2 hbefore)]
    rfl
  rw [getSlice, on_bind_ok hcheck]
  exact on_bind_none hslice

/-! ## Agreement with the reads over natural numbers -/

/-- The read neither panics nor overflows, and returns what `m'` does; where that moves on
the position is the same. -/
def Agrees (w : ℕ) (d : Decoder) (m : Read α) (m' : Decode α) : Prop :=
  ∃ r d', m.on d = some (r, d') ∧ Valid w d' ∧ d'.buf = d.buf ∧
    (∀ a, r = .ok a → m'.run ⟨d.buf, d.pos⟩ = .ok (a, ⟨d.buf, d'.pos⟩)) ∧
    ∀ error, r = .error error → m'.run ⟨d.buf, d.pos⟩ = .error error

namespace Agrees

variable {m : Read α} {m' : Decode α}

theorem pure (hd : Valid w d) (a : α) : Agrees w d (Pure.pure a) (Pure.pure a) := by
  refine ⟨.ok a, d, rfl, hd, rfl, fun b hb => ?_, nofun⟩
  cases hb
  rfl

theorem throw (hd : Valid w d) (error : FitzError) :
    Agrees w d (MonadExcept.throw error : Read α) (MonadExcept.throw error) := by
  refine ⟨.error error, d, rfl, hd, rfl, nofun, fun e he => ?_⟩
  cases he
  rfl

/-- What the second read agrees on is what the first left. -/
theorem bind {f : α → Read β} {f' : α → Decode β} (h : Agrees w d m m')
    (hf : ∀ a d', m.on d = some (.ok a, d') → Valid w d' → d'.buf = d.buf →
      Agrees w d' (f a) (f' a)) : Agrees w d (m >>= f) (m' >>= f') := by
  obtain ⟨r, d₁, hm, hvalid, hbuf, hok, herror⟩ := h
  cases r with
  | error error =>
    have hm' := herror error rfl
    refine ⟨.error error, d₁, on_bind_error hm, hvalid, hbuf, nofun, fun e he => ?_⟩
    cases he
    rw [StateT.run_bind, hm']
    rfl
  | ok a =>
    have hm' := hok a rfl
    obtain ⟨r, d₂, hfa, hvalid₂, hbuf₂, hok₂, herror₂⟩ := hf a d₁ hm hvalid hbuf
    rw [hbuf] at hok₂ herror₂
    refine ⟨r, d₂, (on_bind_ok hm).trans hfa, hvalid₂, hbuf₂.trans hbuf, fun b hb => ?_, fun e he => ?_⟩
    · rw [Decode.run_bind_of_ok hm']
      exact hok₂ b hb
    · rw [Decode.run_bind_of_ok hm']
      exact herror₂ e he

end Agrees

/-! ## The reads -/

theorem Valid.buf_lt (hd : Valid w d) : d.buf.length < 2 ^ w :=
  Nat.lt_of_lt_of_le hd.buf (Nat.pow_le_pow_right (by decide) (Nat.sub_le w 1))

/-- A `u32` fits a `usize`. -/
theorem pow_wide (hw : 32 ≤ w) : 2 ^ 32 ≤ 2 ^ w := Nat.pow_le_pow_right (by decide) hw

/-- No array is longer than the memory allows. -/
theorem Valid.room (hw : 32 ≤ w) (hd : Valid w d) (hn : n < 2 ^ (w - 1)) : d.pos + n < 2 ^ w := by
  have hpow : 2 ^ w = 2 ^ (w - 1) * 2 := by
    rw [← Nat.pow_succ, Nat.succ_eq_add_one, Nat.sub_add_cancel (by omega)]
  have hpos := hd.pos
  have hbuf := hd.buf
  omega

theorem Valid.few (hw : 32 ≤ w) (hd : Valid w d) (hn : n ≤ 8) : d.pos + n < 2 ^ w := by
  have hpow : 2 ^ 31 ≤ 2 ^ (w - 1) := Nat.pow_le_pow_right (by decide) (by omega)
  exact hd.room hw (by omega)

theorem agrees_getSlice (hd : Valid w d) (h : d.pos + n < 2 ^ w) :
    Agrees w d (getSlice w n) (Fitz.getSlice n) := by
  have hrun := getSlice_run n ⟨d.buf, d.pos⟩
  by_cases hlen : d.pos + n ≤ d.buf.length
  · rw [if_neg (Nat.not_lt.2 hlen)] at hrun
    refine ⟨_, _, getSlice_ok h hlen, ⟨hlen, hd.buf, hd.fits⟩, rfl, fun a ha => ?_, nofun⟩
    cases ha
    exact hrun
  · rw [if_pos (Nat.not_le.1 hlen)] at hrun
    refine ⟨_, _, getSlice_short h (Nat.not_le.1 hlen), hd, rfl, nofun, fun e he => ?_⟩
    cases he
    exact hrun

theorem agrees_number (hw : 32 ≤ w) (hd : Valid w d) (hn : n ≤ 8) (ofBytes : Bytes → α) :
    Agrees w d (do return ofBytes (← getSlice w n)) (do return ofBytes (← Fitz.getSlice n)) :=
  (agrees_getSlice hd (hd.few hw hn)).bind fun a _ _ hd' _ => Agrees.pure hd' (ofBytes a)

theorem getU8_on (hw : 32 ≤ w) (hd : Valid w d) :
    (getU8 w).on d = (do return UInt8.ofNat (fromBe (← getSlice w 1)) : Read UInt8).on d := by
  have h := hd.few hw (show 1 ≤ 8 by decide)
  -- the source indexes where the others take a slice
  by_cases hlen : d.pos + 1 ≤ d.buf.length
  · have hvalue := List.getElem?_eq_getElem (Nat.lt_of_succ_le hlen)
    have htake : (d.buf.drop d.pos).take 1 = [d.buf[d.pos]] := by
      rw [List.drop_eq_getElem_cons (Nat.lt_of_succ_le hlen), List.take_succ_cons, List.take_zero]
    rw [getU8, on_bind_ok (checkLen_ok h hlen), on_bind_ok (get_on d), hvalue,
      on_bind_ok (getSlice_ok h hlen), htake]
    simp only [on_bind_ok (advance_on h)]
    simp [Read.on, fromBe]
  · have hshort := Nat.not_le.1 hlen
    rw [getU8, on_bind_error (checkLen_short h hshort), on_bind_error (getSlice_short h hshort)]

/-- The length a prefix at the position declares. -/
def declaredLength (d : Decoder) : ℕ := fromBe ((d.buf.drop d.pos).take 4)

/-- A field behind a whole prefix ends within the width. -/
def PrefixFits (w : ℕ) (d : Decoder) : Prop :=
  d.pos + 4 ≤ d.buf.length → d.pos + 4 + declaredLength d < 2 ^ w

theorem declaredLength_lt (hlen : d.pos + 4 ≤ d.buf.length) : declaredLength d < 2 ^ 32 := by
  have hlt := fromBe_lt ((d.buf.drop d.pos).take 4)
  have hfour : ((d.buf.drop d.pos).take 4).length = 4 := by
    rw [List.length_take, List.length_drop]
    omega
  rwa [hfour] at hlt

theorem getU32_whole (hw : 32 ≤ w) (hd : Valid w d) (hlen : d.pos + 4 ≤ d.buf.length) :
    ∃ len, (getU32 w).on d = some (.ok len, { d with pos := d.pos + 4 }) ∧
      len.toNat % 2 ^ w = declaredLength d := by
  have hlt := declaredLength_lt hlen
  refine ⟨UInt32.ofNat (declaredLength d), ?_, ?_⟩
  · rw [getU32, on_bind_ok (getSlice_ok (hd.few hw (by decide)) hlen)]
    rfl
  · rw [UInt32.toNat_ofNat', Nat.mod_eq_of_lt hlt]
    exact Nat.mod_eq_of_lt (Nat.lt_of_lt_of_le hlt (pow_wide hw))

/-- A prefix that is read is whole. -/
theorem getU32_ok (hw : 32 ≤ w) (hd : Valid w d) {len : UInt32}
    (h : (getU32 w).on d = some (.ok len, d')) :
    d.pos + 4 ≤ d.buf.length ∧ d' = { d with pos := d.pos + 4 } ∧
      len.toNat % 2 ^ w = declaredLength d := by
  by_cases hlen : d.pos + 4 ≤ d.buf.length
  · obtain ⟨len', hrun, hlength⟩ := getU32_whole hw hd hlen
    rw [hrun] at h
    cases h
    exact ⟨hlen, rfl, hlength⟩
  · rw [getU32, on_bind_error (getSlice_short (hd.few hw (by decide)) (Nat.not_le.1 hlen))] at h
    cases h

theorem agrees_getU32 (hw : 32 ≤ w) (hd : Valid w d) : Agrees w d (getU32 w) Fitz.getU32 :=
  agrees_number hw hd (by decide) _

theorem agrees_getBytes (hw : 32 ≤ w) (hd : Valid w d) (h : PrefixFits w d) :
    Agrees w d (getBytes w) Fitz.getBytes := by
  refine (agrees_getU32 hw hd).bind fun len d' hrun hd' _ => ?_
  obtain ⟨hlen, rfl, hlength⟩ := getU32_ok hw hd hrun
  have hslice : len.toNat % 2 ^ w = len.toNat := by
    exact Nat.mod_eq_of_lt (Nat.lt_of_lt_of_le len.toNat_lt (pow_wide hw))
  rw [hslice] at hlength ⊢
  exact agrees_getSlice hd' (hlength ▸ h hlen)

theorem agrees_getString (hw : 32 ≤ w) (hd : Valid w d) (h : PrefixFits w d) :
    Agrees w d (getString w) Fitz.getString := by
  refine (agrees_getBytes hw hd h).bind fun bytes d' _ hd' _ => ?_
  cases String.fromUTF8? ⟨bytes.toArray⟩ with
  | some s => exact Agrees.pure hd' s
  | none => exact Agrees.throw hd' _

/-- Behind a prefix whose field does not fit there is no result. -/
theorem getBytes_panics (hw : 32 ≤ w) (hd : Valid w d) (h : ¬ PrefixFits w d) :
    (getBytes w).on d = none := by
  obtain ⟨hlen, hover⟩ := Classical.not_imp.1 h
  obtain ⟨len, hrun, hlength⟩ := getU32_whole hw hd hlen
  rw [getBytes, on_bind_ok hrun, hlength]
  exact getSlice_panics hlen hd.buf_lt (Nat.lt_of_lt_of_le (declaredLength_lt hlen) (pow_wide hw))
    (Nat.not_lt.1 hover)

theorem getString_panics (hw : 32 ≤ w) (hd : Valid w d) (h : ¬ PrefixFits w d) :
    (getString w).on d = none :=
  on_bind_none (getBytes_panics hw hd h)

/-- The slice has the length of the array. -/
theorem getFixed_on (h : d.pos + n < 2 ^ w) : (getFixed w n).on d = (getSlice w n).on d := by
  by_cases hlen : d.pos + n ≤ d.buf.length
  · have hn : ((d.buf.drop d.pos).take n).length = n := by
      rw [List.length_take, List.length_drop]
      omega
    rw [getFixed, on_bind_ok (getSlice_ok h hlen), if_pos hn, getSlice_ok h hlen]
    rfl
  · have hshort := getSlice_short h (Nat.not_le.1 hlen)
    rw [getFixed, on_bind_error hshort, hshort]

/-- `remaining` does not go below zero. -/
theorem remaining_on (hd : Valid w d) : (remaining w).on d = some (.ok (d.buf.length - d.pos), d) := by
  have hbuf := hd.buf_lt
  have hmod : (d.buf.length + 2 ^ w - d.pos) % 2 ^ w = d.buf.length - d.pos := by
    have hpos := hd.pos
    rw [show d.buf.length + 2 ^ w - d.pos = d.buf.length - d.pos + 2 ^ w by omega,
      Nat.add_mod_right]
    exact Nat.mod_eq_of_lt (by omega)
  rw [remaining, on_bind_ok (get_on d), if_neg (Nat.not_lt.2 hd.pos), hmod]
  rfl

/-! ## Sequences of reads -/

/-- A read; an array type has at most `isize::MAX` bytes. -/
inductive Call (w : ℕ)
  | field (type : FieldType)
  | fixed (n : Fin (2 ^ (w - 1)))

/-- What a read returns. -/
inductive Value
  | field (field : Field)
  | fixed (value : Bytes)

/-- How many bytes it takes up. -/
def Value.width : Value → ℕ
  | .field (.u8 _) => 1
  | .field (.u16 _) => 2
  | .field (.u32 _) => 4
  | .field (.u64 _) => 8
  | .field (.bytes value) => 4 + value.length
  | .field (.string value) => 4 + value.toUTF8.toList.length
  | .fixed value => value.length

def readField (w : ℕ) : FieldType → Read Field
  | .u8 => do return .u8 (← getU8 w)
  | .u16 => do return .u16 (← getU16 w)
  | .u32 => do return .u32 (← getU32 w)
  | .u64 => do return .u64 (← getU64 w)
  | .bytes => do return .bytes (← getBytes w)
  | .string => do return .string (← getString w)

def Call.read : Call w → Read Value
  | .field type => do return .field (← readField w type)
  | .fixed n => do return .fixed (← getFixed w n)

/-- The same read over natural numbers. -/
def Call.decode : Call w → Decode Value
  | .field type => do return .field (← type.get)
  | .fixed n => do return .fixed (← Fitz.getSlice n)

/-- The decoder after a read, none after a panic. -/
def step (w : ℕ) (s : Option Decoder) (call : Call w) : Option Decoder := do
  let d ← s
  let (_, d') ← call.read.on d
  return d'

/-- The read neither panics nor overflows, it leaves a position within the buffer from which
`remaining` does not go below zero, and moves on by what it returns. -/
def Safe (s : Option Decoder) (call : Call w) : Prop :=
  ∃ d r d', s = some d ∧ call.read.on d = some (r, d') ∧ d'.overflowed = false ∧
    d'.buf = d.buf ∧ d'.pos ≤ d'.buf.length ∧
    (remaining w).on d' = some (.ok (d'.buf.length - d'.pos), d') ∧
    ∀ value, r = .ok value → d'.pos = d.pos + value.width

/-- The length prefix of the read, if it has one, declares a field within the width. -/
def Fits : Option Decoder → Call w → Prop
  | some d, .field .bytes => PrefixFits w d
  | some d, .field .string => PrefixFits w d
  | _, _ => True

instance (w : ℕ) (d : Decoder) : Decidable (PrefixFits w d) := inferInstanceAs (Decidable (_ → _))

instance (s : Option Decoder) (call : Call w) : Decidable (Fits s call) :=
  match s, call with
  | some d, .field .bytes | some d, .field .string => inferInstanceAs (Decidable (PrefixFits w d))
  | none, _ | some _, .field .u8 | some _, .field .u16 | some _, .field .u32 | some _, .field .u64
  | some _, .fixed _ => isTrue trivial

theorem agrees_field {m : Read α} {m' : Decode α} (wrap : α → Field) (h : Agrees w d m m') :
    Agrees w d (do return wrap (← m)) (do return wrap (← m')) :=
  h.bind fun a _ _ hd' _ => Agrees.pure hd' (wrap a)

/-- **Reads at a width.** A read whose prefix fits does what it does over natural numbers. -/
theorem agrees_call (hw : 32 ≤ w) (hd : Valid w d) (call : Call w) (h : Fits (some d) call) :
    Agrees w d call.read call.decode := by
  cases call with
  | fixed n =>
    have hslice := agrees_getSlice hd (hd.room hw n.isLt)
    have hfixed : Agrees w d (getFixed w n) (Fitz.getSlice n) := by
      unfold Agrees
      rw [getFixed_on (hd.room hw n.isLt)]
      exact hslice
    exact hfixed.bind fun bytes _ _ hd' _ => Agrees.pure hd' (Value.fixed bytes)
  | field type =>
    have hfield : Agrees w d (readField w type) type.get := by
      cases type with
      | u8 =>
        have hnumber := agrees_number hw hd (show 1 ≤ 8 by decide) fun bytes =>
          UInt8.ofNat (fromBe bytes)
        have hread : Agrees w d (getU8 w) Fitz.getU8 := by
          unfold Agrees
          rw [getU8_on hw hd]
          exact hnumber
        exact agrees_field .u8 hread
      | u16 => exact agrees_field .u16 (agrees_number hw hd (by decide) _)
      | u32 => exact agrees_field .u32 (agrees_getU32 hw hd)
      | u64 => exact agrees_field .u64 (agrees_number hw hd (by decide) _)
      | bytes => exact agrees_field .bytes (agrees_getBytes hw hd h)
      | string => exact agrees_field .string (agrees_getString hw hd h)
    exact hfield.bind fun field _ _ hd' _ => Agrees.pure hd' (Value.field field)

theorem width_put (field : Field) : (Value.field field).width = field.put.length := by
  cases field with
  | u8 => rfl
  | u16 value => exact (length_putU16 value).symm
  | u32 value => exact (length_putU32 value).symm
  | u64 value => exact (length_putU64 value).symm
  | bytes value => exact (length_putBytes value).symm
  | string value => exact (length_putBytes value.toUTF8.toList).symm

/-- What a read returns has the width of what it read. -/
theorem decode_width (call : Call w) {buf : Bytes} {pos : ℕ} {value : Value} {after : PayloadDecoder}
    (hpos : pos ≤ buf.length) (h : call.decode.run ⟨buf, pos⟩ = .ok (value, after)) :
    after.pos = pos + value.width := by
  cases call with
  | field type =>
    obtain ⟨bytes, ⟨field, ⟨-, rfl⟩, rfl⟩, -, rfl⟩ :=
      ((reads_field type).map Value.field buf pos value after hpos).1 h
    rw [width_put]
  | fixed n =>
    obtain ⟨bytes, ⟨a, ⟨rfl, -⟩, rfl⟩, -, rfl⟩ :=
      ((reads_getSlice n).map Value.fixed buf pos value after hpos).1 h
    rfl

/-- **A read is safe if and only if its prefix fits.** -/
theorem safe_iff (hw : 32 ≤ w) (hd : Valid w d) (call : Call w) :
    Safe (some d) call ↔ Fits (some d) call := by
  constructor
  · rintro ⟨d, r, d', ⟨⟩, hread, -⟩
    by_contra hover
    -- only a field behind a prefix may not fit, and then the read panics
    cases call with
    | fixed n => exact hover trivial
    | field type =>
      have hnone : (readField w type).on d = none := by
        cases type with
        | bytes => exact on_bind_none (getBytes_panics hw hd hover)
        | string => exact on_bind_none (getString_panics hw hd hover)
        | u8 | u16 | u32 | u64 => exact absurd trivial hover
      have hpanic : (Call.field type : Call w).read.on d = none := on_bind_none hnone
      rw [hpanic] at hread
      cases hread
  · intro h
    obtain ⟨r, d', hread, hd', hbuf, hok, -⟩ := agrees_call hw hd call h
    refine ⟨d, r, d', rfl, hread, hd'.fits, hbuf, hd'.pos, remaining_on hd', fun value hr => ?_⟩
    exact decode_width call hd.pos (hok value hr)

/-- No read has panicked, and the decoder is valid. -/
def Live (w : ℕ) (s : Option Decoder) : Prop := ∃ d, s = some d ∧ Valid w d

theorem live_step (s : Option Decoder) (call : Call w) (h : Live w s) (hsafe : Safe s call) :
    Live w (step w s call) := by
  obtain ⟨d, rfl, hd⟩ := h
  obtain ⟨d, r, d', ⟨⟩, hread, hfits, hbuf, hpos, -⟩ := hsafe
  refine ⟨d', ?_, hpos, hbuf ▸ hd.buf, hfits⟩
  rw [step, Option.bind_eq_bind, Option.bind_some, hread]
  rfl

/-- With more than 32 bits every prefix fits. -/
theorem fits_wide (hw : 32 < w) (hd : Valid w d) (call : Call w) : Fits (some d) call := by
  have hprefix : PrefixFits w d := by
    intro hlen
    have hd' : Valid w { d with pos := d.pos + 4 } := ⟨hlen, hd.buf, hd.fits⟩
    refine hd'.room (Nat.le_of_lt hw) (Nat.lt_of_lt_of_le (declaredLength_lt hlen) ?_)
    exact Nat.pow_le_pow_right (by decide) (by omega)
  cases call with
  | fixed n => trivial
  | field type =>
    cases type with
    | bytes | string => exact hprefix
    | u8 | u16 | u32 | u64 => trivial

/-- **Payload decoding at a pointer width.** Every read of a sequence is safe if and only if
the length prefixes read on the way declare fields that end within the width; with 64 bits
they all do. -/
theorem decoder_safe_iff (w : ℕ) (hw : 32 ≤ w) (buf : Bytes) (hbuf : buf.length < 2 ^ (w - 1))
    (calls : List (Call w)) :
    (Along (step w) Safe (some (.new buf)) calls ↔ Along (step w) Fits (some (.new buf)) calls) ∧
      (32 < w → Along (step w) Safe (some (.new buf)) calls) := by
  have hlive : Live w (some (.new buf)) := ⟨.new buf, rfl, Nat.zero_le _, hbuf, rfl⟩
  constructor
  · refine along_congr (fun s call h => ?_) live_step hlive calls
    obtain ⟨d, rfl, hd⟩ := h
    exact safe_iff hw hd call
  · intro hwide
    refine along_of_inv (fun s call h => ?_) live_step hlive calls
    obtain ⟨d, rfl, hd⟩ := h
    exact (safe_iff hw hd call).2 (fits_wide hwide hd call)

/-- A string, an array of one byte and a truncated length prefix, at 32 bits. -/
theorem decoder_safe_iff_truncated :
    Along (step 32) Safe (some (.new [0, 0, 0, 2, 65, 66, 1, 255, 255]))
      [.field .string, .fixed ⟨1, by decide⟩, .field .bytes] :=
  (decoder_safe_iff 32 (by decide) _ (by decide) _).1.2 (by decide +kernel)

/-- A length prefix of `2 ^ 32 - 1` and nothing behind it. -/
theorem prefix_panics :
    (Call.field .bytes : Call 32).read.on (.new [255, 255, 255, 255]) = none ∧
      ¬ Along (step 32) Safe (some (.new [255, 255, 255, 255])) [.field .bytes] := by
  have hnone : (Call.field .bytes : Call 32).read.on (.new [255, 255, 255, 255]) = none := by
    decide +kernel
  refine ⟨hnone, ?_⟩
  rintro ⟨⟨d, r, d', ⟨⟩, hread, -⟩, -⟩
  rw [hnone] at hread
  cases hread

end Fitz.Usize
