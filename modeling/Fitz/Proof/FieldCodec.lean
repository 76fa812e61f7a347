import Fitz.Proof.Formats

/-!
# Typed field lists

Any list of typed fields written with `PayloadEncoder`, read back with `PayloadDecoder` by
the same types: the values come back and the decoder is empty, and a truncation anywhere
fails at some field. Each field type inverts its writer (`reads_field`), and the list is
the fields one behind the other.
-/

namespace Fitz

open Framing

inductive FieldType
  | u8
  | u16
  | u32
  | u64
  | bytes
  | string
  deriving DecidableEq

inductive Field
  | u8 (value : UInt8)
  | u16 (value : UInt16)
  | u32 (value : UInt32)
  | u64 (value : UInt64)
  | bytes (value : Bytes)
  | string (value : String)
  deriving DecidableEq

namespace Field

def type : Field → FieldType
  | .u8 _ => .u8
  | .u16 _ => .u16
  | .u32 _ => .u32
  | .u64 _ => .u64
  | .bytes _ => .bytes
  | .string _ => .string

/-- What `put_u8` to `put_string` append. -/
def put : Field → Bytes
  | .u8 value => putU8 value
  | .u16 value => putU16 value
  | .u32 value => putU32 value
  | .u64 value => putU64 value
  | .bytes value => putBytes value
  | .string value => putString value

/-- `u32::try_from(len)` does not panic. -/
def Fits : Field → Prop
  | .bytes value => value.length < 2 ^ 32
  | .string value => value.toUTF8.toList.length < 2 ^ 32
  | _ => True

end Field

def FieldType.get : FieldType → Decode Field
  | .u8 => do return .u8 (← getU8)
  | .u16 => do return .u16 (← getU16)
  | .u32 => do return .u32 (← getU32)
  | .u64 => do return .u64 (← getU64)
  | .bytes => do return .bytes (← getBytes)
  | .string => do return .string (← getString)

/-- A `PayloadEncoder` the fields are put in one after the other. -/
def writeFields (fields : List Field) : Bytes := stream Field.put fields

def readFields : List FieldType → Decode (List Field)
  | [] => return []
  | type :: types => do return (← type.get) :: (← readFields types)

/-- One type inverts what is written of it. -/
theorem reads_field (type : FieldType) :
    Inverts type.get Field.put fun field => field.type = type ∧ field.Fits := by
  have hread : ∀ {α : Type} {m : Decode α} {enc : α → Bytes} {ok : α → Prop} (wrap : α → Field),
      Reads m (fun a bytes => bytes = enc a ∧ ok a) → (∀ a, (wrap a).put = enc a) →
      (∀ field, field.type = type ∧ field.Fits ↔ ∃ a, ok a ∧ field = wrap a) →
      Inverts (do return wrap (← m)) Field.put fun field => field.type = type ∧ field.Fits := by
    intro α m enc ok wrap hm hput hfits
    refine (Reads.map wrap hm).congr fun field bytes => ?_
    change _ ↔ (field.type = type ∧ field.Fits) ∧ bytes = field.put
    rw [hfits]
    constructor
    · rintro ⟨a, ⟨rfl, ha⟩, rfl⟩
      exact ⟨⟨a, ha, rfl⟩, (hput a).symm⟩
    · rintro ⟨⟨a, ha, rfl⟩, rfl⟩
      exact ⟨a, ⟨hput a, ha⟩, rfl⟩
  have hfixed : ∀ {α : Type} {m : Decode α} {enc : α → Bytes},
      Reads m (fun a bytes => bytes = enc a) → Reads m fun a bytes => bytes = enc a ∧ True :=
    fun h => h.congr fun _ _ => (and_iff_left trivial).symm
  cases type with
  | u8 =>
    refine hread .u8 (hfixed reads_getU8) (fun _ => rfl) fun field => ?_
    cases field <;> simp [Field.type, Field.Fits]
  | u16 =>
    refine hread .u16 (hfixed reads_getU16) (fun _ => rfl) fun field => ?_
    cases field <;> simp [Field.type, Field.Fits]
  | u32 =>
    refine hread .u32 (hfixed reads_getU32) (fun _ => rfl) fun field => ?_
    cases field <;> simp [Field.type, Field.Fits]
  | u64 =>
    refine hread .u64 (hfixed reads_getU64) (fun _ => rfl) fun field => ?_
    cases field <;> simp [Field.type, Field.Fits]
  | bytes =>
    refine hread .bytes reads_getBytes (fun _ => rfl) fun field => ?_
    cases field <;> simp [Field.type, Field.Fits]
  | string =>
    refine hread .string reads_getString (fun _ => rfl) fun field => ?_
    cases field <;> simp [Field.type, Field.Fits]

/-- The list of types inverts the list of fields. -/
theorem reads_fields (types : List FieldType) :
    Inverts (readFields types) writeFields fun fields =>
      fields.map Field.type = types ∧ ∀ field ∈ fields, field.Fits := by
  induction types with
  | nil =>
    refine (Reads.pure []).congr fun fields bytes => ?_
    constructor
    · rintro ⟨rfl, rfl⟩
      exact ⟨⟨rfl, fun field hmem => absurd hmem List.not_mem_nil⟩, rfl⟩
    · rintro ⟨⟨hnil, -⟩, rfl⟩
      rw [List.map_eq_nil_iff.1 hnil]
      exact ⟨rfl, rfl⟩
  | cons type types ih =>
    refine (Reads.bind (reads_field type) fun field => Reads.map (List.cons field) ih).congr
      fun fields bytes => ?_
    constructor
    · rintro ⟨field, x, y, ⟨⟨rfl, hfits⟩, rfl⟩, ⟨rest, ⟨⟨rfl, hrest⟩, rfl⟩, rfl⟩, rfl⟩
      exact ⟨⟨rfl, List.forall_mem_cons.2 ⟨hfits, hrest⟩⟩, rfl⟩
    · rintro ⟨⟨hmap, hfits⟩, rfl⟩
      cases fields with
      | nil => cases hmap
      | cons field rest =>
        obtain ⟨htype, hrest⟩ := List.cons.inj hmap
        obtain ⟨hfield, hothers⟩ := List.forall_mem_cons.1 hfits
        exact ⟨field, _, _, ⟨⟨htype, hfield⟩, rfl⟩, ⟨rest, ⟨⟨hrest, hothers⟩, rfl⟩, rfl⟩, rfl⟩

/-- **Fields read back as they were written, and every truncation fails.** -/
theorem fields_round_trip (fields : List Field) (hfits : ∀ field ∈ fields, field.Fits) :
    (do return (← readFields (fields.map Field.type), ← isEmpty, ← remaining) :
        Decode (List Field × Bool × ℕ)).on (writeFields fields) = .ok (fields, true, 0) ∧
    ∀ bytes, bytes <+: writeFields fields → bytes ≠ writeFields fields →
      ∃ error, (readFields (fields.map Field.type)).on bytes = .error error := by
  have hread := reads_fields (fields.map Field.type)
  have hok : fields.map Field.type = fields.map Field.type ∧ ∀ field ∈ fields, field.Fits :=
    ⟨rfl, hfits⟩
  constructor
  · refine Decode.on_of_run (d := ⟨writeFields fields, (writeFields fields).length⟩) ?_
    rw [Decode.run_bind_of_ok (hread.run_encoded hok), Decode.run_bind_of_ok (isEmpty_run _),
      decide_eq_true (Nat.le_refl _)]
    have hleft : remaining.run ⟨writeFields fields, (writeFields fields).length⟩ =
        .ok (0, ⟨writeFields fields, (writeFields fields).length⟩) := by
      change Except.ok (_ - _, _) = _
      rw [Nat.sub_self]
    rw [Decode.run_bind_of_ok hleft]
    rfl
  · intro bytes hpre hne
    exact hread.on_truncated hok hpre hne

theorem fields_round_trip_mixed :
    (do return (← readFields [.u16, .string, .bytes], ← isEmpty, ← remaining) :
        Decode (List Field × Bool × ℕ)).on
          (writeFields [.u16 513, .string "route", .bytes [7, 0]]) =
      .ok ([.u16 513, .string "route", .bytes [7, 0]], true, 0) ∧
    ∀ bytes, bytes <+: writeFields [.u16 513, .string "route", .bytes [7, 0]] →
      bytes ≠ writeFields [.u16 513, .string "route", .bytes [7, 0]] →
      ∃ error, (readFields [.u16, .string, .bytes]).on bytes = .error error := by
  have hroute : "route".toUTF8.toList.length = 5 := by decide +kernel
  refine fields_round_trip [.u16 513, .string "route", .bytes [7, 0]] fun field hmem => ?_
  simp only [List.mem_cons, List.not_mem_nil, or_false] at hmem
  rcases hmem with rfl | rfl | rfl
  · trivial
  · change "route".toUTF8.toList.length < 2 ^ 32
    omega
  · change 2 < 2 ^ 32
    omega

end Fitz
