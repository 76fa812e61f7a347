import Fitz.Model.Codec

/-!
# Reading fields

`Reads m R`: the decoder `m` returns a value exactly when what is left of its buffer
begins with bytes that are the value in the format `R`, and it moves past them. The
reads of `PayloadDecoder` invert the writes of `PayloadEncoder`, and formats compose
as decoders do (`Reads.bind`).
-/

namespace Fitz

open BigEndian

/-! ## Fixed widths -/

/-- Two bytes hold the field they were written from; likewise four and eight below. -/
theorem ofNat_fromBe_putU16 (v : UInt16) : UInt16.ofNat (fromBe (putU16 v)) = v := by
  rw [putU16, fromBe_toBe, ← UInt16.toNat_inj, UInt16.toNat_ofNat']
  have := v.toNat_lt
  omega

theorem ofNat_fromBe_putU32 (v : UInt32) : UInt32.ofNat (fromBe (putU32 v)) = v := by
  rw [putU32, fromBe_toBe, ← UInt32.toNat_inj, UInt32.toNat_ofNat']
  have := v.toNat_lt
  omega

theorem ofNat_fromBe_putU64 (v : UInt64) : UInt64.ofNat (fromBe (putU64 v)) = v := by
  rw [putU64, fromBe_toBe, ← UInt64.toNat_inj, UInt64.toNat_ofNat']
  have := v.toNat_lt
  omega

/-- Any two bytes are those of the field they are read as. -/
theorem putU16_ofNat_fromBe {bs : Bytes} (h : bs.length = 2) :
    putU16 (UInt16.ofNat (fromBe bs)) = bs := by
  have hlt := fromBe_lt bs
  rw [h] at hlt
  have hval : (UInt16.ofNat (fromBe bs)).toNat = fromBe bs := by
    rw [UInt16.toNat_ofNat']
    omega
  rw [putU16, hval, toBe_fromBe_of_length h]

theorem putU32_ofNat_fromBe {bs : Bytes} (h : bs.length = 4) :
    putU32 (UInt32.ofNat (fromBe bs)) = bs := by
  have hlt := fromBe_lt bs
  rw [h] at hlt
  have hval : (UInt32.ofNat (fromBe bs)).toNat = fromBe bs := by
    rw [UInt32.toNat_ofNat']
    omega
  rw [putU32, hval, toBe_fromBe_of_length h]

theorem putU64_ofNat_fromBe {bs : Bytes} (h : bs.length = 8) :
    putU64 (UInt64.ofNat (fromBe bs)) = bs := by
  have hlt := fromBe_lt bs
  rw [h] at hlt
  have hval : (UInt64.ofNat (fromBe bs)).toNat = fromBe bs := by
    rw [UInt64.toNat_ofNat']
    omega
  rw [putU64, hval, toBe_fromBe_of_length h]

@[simp] theorem length_putU16 (v : UInt16) : (putU16 v).length = 2 := by simp [putU16]

@[simp] theorem length_putU32 (v : UInt32) : (putU32 v).length = 4 := by simp [putU32]

@[simp] theorem length_putU64 (v : UInt64) : (putU64 v).length = 8 := by simp [putU64]

@[simp] theorem length_putBytes (bytes : Bytes) : (putBytes bytes).length = 4 + bytes.length := by
  simp [putBytes]

/-- The prefix is the length. -/
theorem putBytes_eq {bytes : Bytes} {length : UInt32} (h : length.toNat = bytes.length) :
    putBytes bytes = putU32 length ++ bytes := by
  rw [putBytes, putU32, h]

/-! ## Decoders and formats -/

/-- A sequence of reads succeeds through both of its parts. -/
theorem Decode.bind_ok {α β : Type} {m : Decode α} {f : α → Decode β} {d : PayloadDecoder}
    {r : β × PayloadDecoder} (h : (m >>= f).run d = .ok r) :
    ∃ a d', m.run d = .ok (a, d') ∧ (f a).run d' = .ok r := by
  simp only [StateT.run_bind] at h
  cases hm : m.run d with
  | error e => simp [hm, bind, Except.bind] at h
  | ok p => exact ⟨p.1, p.2, rfl, by simpa [hm, bind, Except.bind] using h⟩

theorem Decode.run_bind_of_ok {α β : Type} {m : Decode α} {f : α → Decode β} {d d' : PayloadDecoder}
    {a : α} (h : m.run d = .ok (a, d')) : (m >>= f).run d = (f a).run d' := by
  rw [StateT.run_bind, h]
  rfl

/-- A decoder on a whole buffer starts at its first byte. -/
theorem Decode.on_ok {α : Type} {m : Decode α} {buf : Bytes} {a : α} (h : m.on buf = .ok a) :
    ∃ d, m.run (.new buf) = .ok (a, d) := by
  unfold Decode.on at h
  cases hm : m.run (.new buf) with
  | error e => simp [hm, bind, Except.bind] at h
  | ok p =>
    simp only [hm, bind, Except.bind, pure, Except.pure, Except.ok.injEq] at h
    exact ⟨p.2, by rw [← h]⟩

theorem Decode.on_of_run {α : Type} {m : Decode α} {buf : Bytes} {a : α} {d : PayloadDecoder}
    (h : m.run (.new buf) = .ok (a, d)) : m.on buf = .ok a := by
  simp [Decode.on, h, bind, Except.bind, pure, Except.pure]

/-- The decoder reads the format `R`, and nothing else. -/
def Reads {α : Type} (m : Decode α) (R : α → Bytes → Prop) : Prop :=
  ∀ buf pos a d, pos ≤ buf.length → (m.run ⟨buf, pos⟩ = .ok (a, d) ↔
    ∃ bytes, R a bytes ∧ bytes <+: buf.drop pos ∧ d = ⟨buf, pos + bytes.length⟩)

namespace Reads

variable {α β : Type} {m : Decode α} {R S : α → Bytes → Prop}

/-- What is read, said in another way. -/
theorem congr (h : Reads m R) (hiff : ∀ a bytes, R a bytes ↔ S a bytes) : Reads m S := by
  have heq : R = S := funext fun a => funext fun bytes => propext (hiff a bytes)
  exact heq ▸ h

/-- A decoder that reads nothing. -/
theorem pure (a : α) : Reads (Pure.pure a) fun b bytes => b = a ∧ bytes = [] := by
  intro buf pos b d _
  constructor
  · intro h
    cases h
    exact ⟨[], ⟨rfl, rfl⟩, List.nil_prefix, rfl⟩
  · rintro ⟨_, ⟨rfl, rfl⟩, -, rfl⟩
    rfl

/-- A decoder that always fails reads no value. -/
theorem throw (error : FitzError) : Reads (MonadExcept.throw error : Decode α) fun _ _ => False := by
  intro buf pos a d _
  constructor
  · intro h
    cases h
  · rintro ⟨_, h, -⟩
    exact h.elim

/-- What is read of a prefix of the rest stays in the buffer. -/
theorem pos_le {buf bytes : Bytes} {pos : ℕ} (hpos : pos ≤ buf.length)
    (h : bytes <+: buf.drop pos) : pos + bytes.length ≤ buf.length := by
  have hlen := h.length_le
  rw [List.length_drop] at hlen
  omega

/-- A format after another. -/
theorem bind {f : α → Decode β} {T : α → β → Bytes → Prop} (h : Reads m R)
    (hf : ∀ a, Reads (f a) (T a)) :
    Reads (m >>= f) fun b bytes => ∃ a x y, R a x ∧ T a b y ∧ bytes = x ++ y := by
  intro buf pos b d hpos
  constructor
  · intro hrun
    obtain ⟨a, d', hm, hrest⟩ := Decode.bind_ok hrun
    obtain ⟨x, hx, hxpre, rfl⟩ := (h buf pos a d' hpos).1 hm
    obtain ⟨y, hy, hypre, rfl⟩ := (hf a buf _ b d (pos_le hpos hxpre)).1 hrest
    refine ⟨x ++ y, ⟨a, x, y, hx, hy, rfl⟩, ?_, by rw [List.length_append, Nat.add_assoc]⟩
    obtain ⟨u, hu⟩ := hxpre
    have hdrop : buf.drop (pos + x.length) = u := by
      rw [← List.drop_drop, ← hu, List.drop_left]
    rw [hdrop] at hypre
    rw [← hu]
    exact (List.prefix_append_right_inj x).2 hypre
  · rintro ⟨_, ⟨a, x, y, hx, hy, rfl⟩, hpre, rfl⟩
    have hxpre : x <+: buf.drop pos := (List.prefix_append x y).trans hpre
    have hypre : y <+: buf.drop (pos + x.length) := by
      obtain ⟨u, hu⟩ := hpre
      rw [← List.drop_drop, ← hu, List.append_assoc, List.drop_left]
      exact List.prefix_append y u
    have hm := (h buf pos a ⟨buf, pos + x.length⟩ hpos).2 ⟨x, hx, hxpre, rfl⟩
    rw [Decode.run_bind_of_ok hm]
    refine (hf a buf _ b _ (pos_le hpos hxpre)).2 ⟨y, hy, hypre, ?_⟩
    rw [List.length_append, Nat.add_assoc]

/-- A decoder run on a whole buffer. -/
theorem on_iff (h : Reads m R) {buf : Bytes} {a : α} :
    m.on buf = .ok a ↔ ∃ bytes, R a bytes ∧ bytes <+: buf := by
  constructor
  · intro hon
    obtain ⟨d, hrun⟩ := Decode.on_ok hon
    obtain ⟨bytes, hR, hpre, -⟩ := (h buf 0 a d (Nat.zero_le _)).1 hrun
    exact ⟨bytes, hR, hpre⟩
  · rintro ⟨bytes, hR, hpre⟩
    exact Decode.on_of_run ((h buf 0 a ⟨buf, 0 + bytes.length⟩ (Nat.zero_le _)).2 ⟨bytes, hR, hpre, rfl⟩)

/-- A check between two reads. -/
theorem guard (refused : Prop) [Decidable refused] (error : FitzError) {f : Unit → Decode α}
    (h : Reads m R) :
    Reads (if refused then MonadExcept.throw error >>= f else m) fun a bytes =>
      ¬refused ∧ R a bytes := by
  by_cases hrefused : refused
  · rw [if_pos hrefused]
    intro buf pos a d _
    constructor
    · intro hrun
      obtain ⟨_, _, hthrow, -⟩ := Decode.bind_ok hrun
      cases hthrow
    · rintro ⟨_, ⟨hnot, -⟩, -⟩
      exact absurd hrefused hnot
  · rw [if_neg hrefused]
    exact h.congr fun a bytes => (and_iff_right hrefused).symm

/-- A read that some value of another type stands for. -/
theorem map (g : α → β) (h : Reads m R) :
    Reads (do return g (← m)) fun b bytes => ∃ a, R a bytes ∧ b = g a := by
  refine (h.bind fun a => Reads.pure (g a)).congr fun b bytes => ?_
  constructor
  · rintro ⟨a, x, y, hx, ⟨rfl, rfl⟩, rfl⟩
    exact ⟨a, by rwa [List.append_nil], rfl⟩
  · rintro ⟨a, ha, rfl⟩
    exact ⟨a, bytes, [], ha, ⟨rfl, rfl⟩, (List.append_nil _).symm⟩

end Reads

/-! ## The reads of `PayloadDecoder` -/

/-- The slice is within the buffer or the read fails. -/
theorem getSlice_run (n : ℕ) (d : PayloadDecoder) :
    (getSlice n).run d =
      if d.pos + n > d.buf.length then .error (.codec "Not enough bytes")
      else .ok ((d.buf.drop d.pos).take n, { d with pos := d.pos + n }) := by
  have hcheck : (checkLen n).run d =
      if d.pos + n > d.buf.length then .error (.codec "Not enough bytes") else .ok ((), d) := by
    change (if d.pos + n > d.buf.length then (throw (.codec "Not enough bytes") : Decode Unit)
      else pure ()).run d = _
    split <;> rfl
  by_cases hlen : d.pos + n > d.buf.length
  · rw [if_pos hlen] at hcheck ⊢
    rw [getSlice, StateT.run_bind, hcheck]
    rfl
  · rw [if_neg hlen] at hcheck ⊢
    rw [getSlice, Decode.run_bind_of_ok hcheck]
    rfl

/-- A slice is any bytes of its length. -/
theorem reads_getSlice (n : ℕ) : Reads (getSlice n) fun a bytes => bytes = a ∧ a.length = n := by
  intro buf pos a d hpos
  have hrun : (getSlice n).run ⟨buf, pos⟩ =
      if pos + n > buf.length then .error (.codec "Not enough bytes")
      else .ok ((buf.drop pos).take n, ⟨buf, pos + n⟩) := getSlice_run n ⟨buf, pos⟩
  rw [hrun]
  constructor
  · intro h
    split at h
    · cases h
    · rename_i hlen
      cases h
      have hn : ((buf.drop pos).take n).length = n := by
        rw [List.length_take, List.length_drop]
        omega
      exact ⟨_, ⟨rfl, hn⟩, List.take_prefix _ _, by rw [hn]⟩
  · rintro ⟨bytes, ⟨rfl, rfl⟩, hpre, rfl⟩
    rw [if_neg (by have := Reads.pos_le hpos hpre; omega), ← List.prefix_iff_eq_take.1 hpre]

/-- The fixed-width reads take their bytes as a big-endian number. -/
theorem reads_number {α : Type} {n : ℕ} {ofBytes : Bytes → α} {toBytes : α → Bytes}
    (hlen : ∀ a, (toBytes a).length = n) (hleft : ∀ a, ofBytes (toBytes a) = a)
    (hright : ∀ bytes, bytes.length = n → toBytes (ofBytes bytes) = bytes) :
    Reads (do return ofBytes (← getSlice n)) fun a bytes => bytes = toBytes a := by
  refine ((reads_getSlice n).map ofBytes).congr fun a bytes => ?_
  constructor
  · rintro ⟨_, ⟨rfl, hn⟩, rfl⟩
    exact (hright _ hn).symm
  · rintro rfl
    exact ⟨toBytes a, ⟨rfl, hlen a⟩, (hleft a).symm⟩

/-- The fields of fixed width are read back exactly. -/
theorem reads_getU8 : Reads getU8 fun a bytes => bytes = putU8 a := by
  refine reads_number (fun _ => rfl) (fun a => ?_) fun bytes hn => ?_
  · simp [putU8, fromBe]
  · obtain ⟨b, rfl⟩ := List.length_eq_one_iff.1 hn
    simp [putU8, fromBe]

theorem reads_getU16 : Reads getU16 fun a bytes => bytes = putU16 a :=
  reads_number length_putU16 ofNat_fromBe_putU16 fun _ => putU16_ofNat_fromBe

theorem reads_getU32 : Reads getU32 fun a bytes => bytes = putU32 a :=
  reads_number length_putU32 ofNat_fromBe_putU32 fun _ => putU32_ofNat_fromBe

theorem reads_getU64 : Reads getU64 fun a bytes => bytes = putU64 a :=
  reads_number length_putU64 ofNat_fromBe_putU64 fun _ => putU64_ofNat_fromBe

/-- A byte field is its length and as many bytes, so fewer than `2 ^ 32` of them. -/
theorem reads_getBytes : Reads getBytes fun a bytes => bytes = putBytes a ∧ a.length < 2 ^ 32 := by
  refine (reads_getU32.bind fun len => reads_getSlice len.toNat).congr fun a bytes => ?_
  constructor
  · rintro ⟨len, x, y, rfl, ⟨rfl, hlen⟩, rfl⟩
    exact ⟨(putBytes_eq hlen.symm).symm, hlen ▸ len.toNat_lt⟩
  · rintro ⟨rfl, hlt⟩
    have hlen : (UInt32.ofNat a.length).toNat = a.length := by
      rw [UInt32.toNat_ofNat']
      omega
    exact ⟨UInt32.ofNat a.length, _, a, rfl, ⟨rfl, hlen.symm⟩, putBytes_eq hlen⟩

/-! ## Strings -/

theorem toList_loop (bs : ByteArray) (i : ℕ) (r : List UInt8) :
    ByteArray.toList.loop bs i r = r.reverse ++ bs.data.toList.drop i := by
  fun_induction ByteArray.toList.loop bs i r with
  | case1 i r h ih =>
    have hlt : i < bs.data.toList.length := by simpa using h
    have hget : bs.get! i = bs.data.toList[i] := by
      simp [ByteArray.get!, getElem!_pos, h]
    rw [ih, List.reverse_cons, hget, List.append_assoc, List.singleton_append,
      ← List.drop_eq_getElem_cons hlt]
  | case2 i r h =>
    have hle : bs.data.toList.length ≤ i := by simpa using h
    rw [List.drop_eq_nil_of_le hle, List.append_nil]

theorem toList_eq (bs : ByteArray) : bs.toList = bs.data.toList := by
  rw [ByteArray.toList, toList_loop, List.reverse_nil, List.nil_append, List.drop_zero]

/-- Text is read from the bytes of its encoding and from no others. -/
theorem fromUTF8?_eq_some {bytes : Bytes} {s : String} :
    String.fromUTF8? ⟨bytes.toArray⟩ = some s ↔ bytes = s.toUTF8.toList := by
  rw [toList_eq, String.fromUTF8?]
  constructor
  · intro h
    split at h
    · cases h
      rfl
    · cases h
  · rintro rfl
    exact dif_pos s.isValidUTF8

theorem reads_getString :
    Reads getString fun s bytes => bytes = putString s ∧ s.toUTF8.toList.length < 2 ^ 32 := by
  refine (reads_getBytes.bind
    (T := fun bytes s rest => bytes = s.toUTF8.toList ∧ rest = []) fun bytes => ?_).congr
      fun s bytes => ?_
  · cases hs : String.fromUTF8? ⟨bytes.toArray⟩ with
    | none =>
      refine (Reads.throw _).congr fun s rest => ⟨False.elim, fun h => ?_⟩
      rw [fromUTF8?_eq_some.2 h.1] at hs
      cases hs
    | some s =>
      refine (Reads.pure s).congr fun s' rest => and_congr_left fun _ => ?_
      rw [← fromUTF8?_eq_some, hs, Option.some.injEq]
      exact eq_comm
  constructor
  · rintro ⟨a, x, y, ⟨rfl, hlt⟩, ⟨rfl, rfl⟩, rfl⟩
    exact ⟨List.append_nil _, hlt⟩
  · rintro ⟨rfl, hlt⟩
    exact ⟨_, _, [], ⟨rfl, hlt⟩, ⟨rfl, rfl⟩, (List.append_nil _).symm⟩

end Fitz
