import Fitz.Proof.Fields

/-!
# The extension envelope

What `wire3::decode` accepts is the grammar of `IsEnvelope`: a core, one or more
fields and nothing else, and for a HELLO exactly one field with the list of the
broker's capabilities. The cursor version of the function never panics and runs to
its end (`decodeAt_eq`).
-/

namespace Fitz

open BigEndian

namespace Wire3

/-- A field on the wire: its identifier, its length and its value. -/
def fieldBytes (field : UInt16 × Bytes) : Bytes := putU16 field.1 ++ putBytes field.2

/-- A payload made of a core and one or more fields. -/
structure IsEnvelope (payload core : Bytes) (fields : List (UInt16 × Bytes)) : Prop where
  bytes_eq : payload = putBytes core ++ fields.flatMap fieldBytes
  core_lt : core.length < 2 ^ 32
  fields_ne : fields ≠ []
  field_ok : ∀ field ∈ fields, field.1 ≠ 0 ∧ field.2.length < 2 ^ 32

/-- A value that lists `ids`: their count, and then each once in increasing order. -/
structure IsCapabilityList (value : Bytes) (ids : List UInt32) : Prop where
  bytes_eq : value = putU16 (UInt16.ofNat ids.length) ++ ids.flatMap putU32
  length_lt : ids.length < 2 ^ 16
  sorted : ids.Pairwise (· < ·)
  nonzero : ∀ id ∈ ids, id ≠ 0

/-- Bit 1 or 2 for each of the capabilities 1 and 2 in the list. -/
def capabilityMask (ids : List UInt32) : UInt16 :=
  (if 1 ∈ ids then 2 else 0) ||| (if 2 ∈ ids then 4 else 0)

/-! ## The capability list -/

/-- What the loop makes of the mask when it reads the identifier. -/
def noteCapability (mask : UInt16) (value : UInt32) : UInt16 :=
  if value = 1 ∨ value = 2 then mask ||| (1 <<< value.toUInt16) else mask

theorem capabilityMask_cons (id : UInt32) (ids : List UInt32) :
    capabilityMask (id :: ids) = noteCapability 0 id ||| capabilityMask ids := by
  unfold capabilityMask noteCapability
  by_cases h1 : id = 1
  · subst h1
    by_cases m1 : (1 : UInt32) ∈ ids <;> by_cases m2 : (2 : UInt32) ∈ ids <;> simp [m1, m2] <;> decide
  · by_cases h2 : id = 2
    · subst h2
      by_cases m1 : (1 : UInt32) ∈ ids <;> by_cases m2 : (2 : UInt32) ∈ ids <;>
        simp [m1, m2] <;> decide
    · simp [h1, h2, Ne.symm h1, Ne.symm h2]

theorem noteCapability_eq (mask : UInt16) (id : UInt32) :
    noteCapability mask id = mask ||| noteCapability 0 id := by
  unfold noteCapability
  split <;> simp

theorem foldl_noteCapability (ids : List UInt32) (mask : UInt16) :
    ids.foldl noteCapability mask = mask ||| capabilityMask ids := by
  induction ids generalizing mask with
  | nil => simp [capabilityMask]
  | cons id ids ih =>
    rw [List.foldl_cons, ih, capabilityMask_cons, noteCapability_eq, UInt16.or_assoc]

/-- The loop reads increasing identifiers and folds them into the mask. -/
theorem reads_capabilityLoop (count : ℕ) (previous : UInt32) (mask : UInt16) :
    Reads (capabilityLoop count previous mask) fun result bytes =>
      ∃ ids : List UInt32, ids.length = count ∧ bytes = ids.flatMap putU32 ∧
        (previous :: ids).Pairwise (· < ·) ∧ result = ids.foldl noteCapability mask := by
  induction count generalizing previous mask with
  | zero =>
    refine (Reads.pure mask).congr fun result bytes => ?_
    constructor
    · rintro ⟨rfl, rfl⟩
      exact ⟨[], rfl, rfl, List.pairwise_singleton _ _, rfl⟩
    · rintro ⟨ids, hlen, rfl, -, rfl⟩
      rw [List.length_eq_zero_iff.1 hlen]
      exact ⟨rfl, rfl⟩
  | succ count ih =>
    have hstep := reads_getU32.bind fun value =>
      Reads.guard (value ≤ previous) malformed
        (f := fun _ => capabilityLoop count value (noteCapability mask value))
        (ih value (noteCapability mask value))
    refine Reads.congr (m := capabilityLoop (count + 1) previous mask) hstep fun result bytes => ?_
    constructor
    · rintro ⟨value, _, _, rfl, ⟨hlt, ids, hlen, rfl, hsorted, rfl⟩, rfl⟩
      have hbelow : ∀ id ∈ value :: ids, previous < id := by
        intro id hid
        obtain rfl | hid := List.mem_cons.1 hid
        · exact UInt32.not_le.1 hlt
        · exact UInt32.lt_trans (UInt32.not_le.1 hlt) ((List.pairwise_cons.1 hsorted).1 id hid)
      exact ⟨value :: ids, congrArg (· + 1) hlen, rfl, List.pairwise_cons.2 ⟨hbelow, hsorted⟩, rfl⟩
    · rintro ⟨ids, hlen, rfl, hsorted, rfl⟩
      obtain ⟨value, ids, rfl⟩ := List.exists_cons_of_length_eq_add_one hlen
      obtain ⟨hbelow, hrest⟩ := List.pairwise_cons.1 hsorted
      have hlt : previous < value := hbelow value List.mem_cons_self
      exact ⟨value, _, _, rfl, ⟨UInt32.not_le.2 hlt, ids, Nat.succ.inj hlen, rfl, hrest, rfl⟩, rfl⟩

theorem length_flatMap_putU32 (ids : List UInt32) :
    (ids.flatMap putU32).length = 4 * ids.length := by
  induction ids with
  | nil => rfl
  | cons id ids ih =>
    rw [List.flatMap_cons, List.length_append, length_putU32, ih, List.length_cons]
    omega

/-- **A value is taken as a capability list exactly when it is one.** -/
theorem decodeCapabilities_iff {value : Bytes} {mask result : UInt16} :
    decodeCapabilities value mask = .ok result ↔
      ∃ ids, IsCapabilityList value ids ∧ result = mask ||| capabilityMask ids := by
  have hreads := reads_getU16.bind fun count =>
    Reads.guard (value.length ≠ 2 + 4 * count.toNat) malformed
      (f := fun _ => capabilityLoop count.toNat 0 mask) (reads_capabilityLoop count.toNat 0 mask)
  have hon : decodeCapabilities value mask = .ok result ↔ _ := hreads.on_iff
  rw [hon]
  constructor
  · rintro ⟨_, ⟨count, _, _, rfl, ⟨hlen, ids, hcount, rfl, hsorted, rfl⟩, rfl⟩, hpre⟩
    have hfull : value = putU16 count ++ ids.flatMap putU32 := by
      refine (hpre.eq_of_length ?_).symm
      rw [List.length_append, length_putU16, length_flatMap_putU32, hcount, not_not.1 hlen]
    obtain ⟨hpos, hrest⟩ := List.pairwise_cons.1 hsorted
    have hofNat : UInt16.ofNat ids.length = count := by rw [hcount, UInt16.ofNat_toNat]
    refine ⟨ids, ⟨by rw [hofNat, hfull], hcount ▸ count.toNat_lt, hrest, ?_⟩,
      foldl_noteCapability ids mask⟩
    intro id hid
    exact (UInt32.ne_of_lt (hpos id hid)).symm
  · rintro ⟨ids, hlist, rfl⟩
    have hcount : (UInt16.ofNat ids.length).toNat = ids.length := by
      have := hlist.length_lt
      rw [UInt16.toNat_ofNat']
      omega
    have hsorted : (0 :: ids).Pairwise (· < ·) := by
      refine List.pairwise_cons.2 ⟨fun id hid => ?_, hlist.sorted⟩
      exact UInt32.pos_iff_ne_zero.2 (hlist.nonzero id hid)
    refine ⟨value, ⟨UInt16.ofNat ids.length, _, _, rfl, ⟨?_, ids, hcount.symm, rfl, hsorted,
      (foldl_noteCapability ids mask).symm⟩, hlist.bytes_eq⟩, List.prefix_rfl⟩
    rw [hlist.bytes_eq, List.length_append, length_putU16, length_flatMap_putU32, hcount]
    exact not_not.2 rfl

/-! ## The fields -/

theorem length_fieldBytes (field : UInt16 × Bytes) :
    (fieldBytes field).length = 6 + field.2.length := by
  rw [fieldBytes, List.length_append, length_putU16, length_putBytes]
  omega

/-- The two numbers before a value. -/
theorem fieldHeader_iff {rest : Bytes} {id : UInt16} {length : UInt32} :
    Decode.on (do return (← getU16, ← getU32)) rest = .ok (id, length) ↔
      putU16 id ++ putU32 length <+: rest := by
  have hreads := reads_getU16.bind fun id => reads_getU32.map fun length => (id, length)
  have hon : Decode.on (do return (← getU16, ← getU32)) rest = .ok (id, length) ↔ _ := hreads.on_iff
  rw [hon]
  constructor
  · rintro ⟨_, ⟨_, _, _, rfl, ⟨_, rfl, heq⟩, rfl⟩, hpre⟩
    cases heq
    exact hpre
  · intro hpre
    exact ⟨_, ⟨id, _, _, rfl, ⟨length, rfl, rfl⟩, rfl⟩, hpre⟩

/-- A header with a value of its length behind it is a field. -/
theorem fieldBytes_of_header {rest : Bytes} {id : UInt16} {length : UInt32}
    (hheader : putU16 id ++ putU32 length <+: rest) (hroom : length.toNat ≤ (rest.drop 6).length) :
    rest = fieldBytes (id, (rest.drop 6).take length.toNat) ++
      (rest.drop 6).drop length.toNat := by
  obtain ⟨value, hrest⟩ := hheader
  have hdrop : rest.drop 6 = value := by
    rw [← hrest]
    exact List.drop_left' (by simp)
  rw [hdrop] at hroom ⊢
  have hlen : length.toNat = (value.take length.toNat).length := by
    rw [List.length_take]
    omega
  rw [fieldBytes, putBytes_eq hlen, List.append_assoc, List.append_assoc, List.take_append_drop,
    ← List.append_assoc, hrest]

theorem header_of_fieldBytes (id : UInt16) (value after : Bytes)
    (hlt : value.length < 2 ^ 32) :
    ∃ length : UInt32, length.toNat = value.length ∧
      putU16 id ++ putU32 length <+: fieldBytes (id, value) ++ after ∧
      (fieldBytes (id, value) ++ after).drop 6 = value ++ after := by
  have hlen : (UInt32.ofNat value.length).toNat = value.length := by
    rw [UInt32.toNat_ofNat']
    omega
  have hbytes : fieldBytes (id, value) ++ after =
      (putU16 id ++ putU32 (UInt32.ofNat value.length)) ++ (value ++ after) := by
    rw [fieldBytes, putBytes_eq hlen]
    simp only [List.append_assoc]
  refine ⟨UInt32.ofNat value.length, hlen, ?_, ?_⟩
  · rw [hbytes]
    exact List.prefix_append _ _
  · rw [hbytes]
    exact List.drop_left' (by simp)

/-- What one pass does with a field. -/
def takeField (handshake : Bool) (seen : Bool) (mask : UInt16) (field : UInt16 × Bytes) :
    Result (Bool × UInt16) :=
  if handshake && field.1 == 1 then
    if seen then .error malformed
    else (decodeCapabilities field.2 mask).map fun mask => (true, mask)
  else .ok (seen, mask)

theorem fieldLoop_of_error {handshake : Bool} {passes : ℕ} {rest : Bytes} {seen : Bool}
    {mask : UInt16} {error : FitzError} (hne : rest ≠ [])
    (h : Decode.on (do return (← getU16, ← getU32)) rest = .error error) :
    fieldLoop handshake (passes + 1) rest seen mask = .error error := by
  rw [fieldLoop, h]
  · rfl
  · intro hnil
    exact hne hnil

theorem fieldLoop_of_header {handshake : Bool} {passes : ℕ} {rest : Bytes} {seen : Bool}
    {mask : UInt16} {id : UInt16} {length : UInt32} (hne : rest ≠ [])
    (h : Decode.on (do return (← getU16, ← getU32)) rest = .ok (id, length)) :
    fieldLoop handshake (passes + 1) rest seen mask =
      if id = 0 ∨ length.toNat > (rest.drop 6).length then .error malformed
      else if handshake && id == 1 then
        if seen = true ∨ length.toNat < 2 then .error malformed
        else (decodeCapabilities ((rest.drop 6).take length.toNat) mask).bind fun mask =>
          fieldLoop handshake passes ((rest.drop 6).drop length.toNat) true mask
      else fieldLoop handshake passes ((rest.drop 6).drop length.toNat) seen mask := by
  rw [fieldLoop, h]
  · simp only [bind, Except.bind, throw, throwThe, MonadExceptOf.throw]
  · intro hnil
    exact hne hnil

theorem two_le_of_decodeCapabilities {value : Bytes} {mask result : UInt16}
    (h : decodeCapabilities value mask = .ok result) : 2 ≤ value.length := by
  obtain ⟨ids, hlist, -⟩ := decodeCapabilities_iff.1 h
  rw [hlist.bytes_eq, List.length_append, length_putU16]
  omega

/-- **One pass of the loop**: a field stands at the cursor and is taken. -/
theorem fieldLoop_succ_iff {handshake : Bool} {passes : ℕ} {rest : Bytes} {seen : Bool}
    {mask : UInt16} {result : Bool × UInt16} (hne : rest ≠ []) :
    fieldLoop handshake (passes + 1) rest seen mask = .ok result ↔
      ∃ field after, rest = fieldBytes field ++ after ∧ field.1 ≠ 0 ∧ field.2.length < 2 ^ 32 ∧
        ∃ taken, takeField handshake seen mask field = .ok taken ∧
          fieldLoop handshake passes after taken.1 taken.2 = .ok result := by
  constructor
  · intro h
    cases hheader : Decode.on (do return (← getU16, ← getU32)) rest with
    | error error =>
      rw [fieldLoop_of_error hne hheader] at h
      cases h
    | ok header =>
      obtain ⟨id, length⟩ := header
      rw [fieldLoop_of_header hne hheader] at h
      split at h
      · cases h
      · rename_i hfits
        rw [not_or, not_lt] at hfits
        have hlen : ((rest.drop 6).take length.toNat).length = length.toNat := by
          rw [List.length_take]
          omega
        have hlt : ((rest.drop 6).take length.toNat).length < 2 ^ 32 := by
          rw [hlen]
          exact length.toNat_lt
        refine ⟨_, _, fieldBytes_of_header (fieldHeader_iff.1 hheader) hfits.2, hfits.1, hlt, ?_⟩
        unfold takeField
        split at h
        · rename_i hcap
          rw [if_pos hcap]
          split at h
          · cases h
          · rename_i hseen
            rw [not_or] at hseen
            rw [if_neg hseen.1]
            cases hdec : decodeCapabilities ((rest.drop 6).take length.toNat) mask with
            | error error =>
              rw [hdec] at h
              cases h
            | ok mask' =>
              rw [hdec] at h
              exact ⟨_, rfl, h⟩
        · rename_i hcap
          rw [if_neg hcap]
          exact ⟨_, rfl, h⟩
  · rintro ⟨⟨id, value⟩, after, rfl, hid, hlt, taken, htake, hrest⟩
    obtain ⟨length, hlen, hheader, hdrop⟩ := header_of_fieldBytes id value after hlt
    have hvalue : (value ++ after).take length.toNat = value := List.take_left' hlen.symm
    have hafter : (value ++ after).drop length.toNat = after := List.drop_left' hlen.symm
    have hfits : ¬(id = 0 ∨ length.toNat > (value ++ after).length) := by
      rw [not_or, List.length_append]
      exact ⟨hid, by omega⟩
    rw [fieldLoop_of_header hne (fieldHeader_iff.2 hheader), hdrop, if_neg hfits, hvalue, hafter]
    unfold takeField at htake
    split at htake
    · rename_i hcap
      rw [if_pos hcap]
      split at htake
      · cases htake
      · rename_i hseen
        cases hdec : decodeCapabilities value mask with
        | error error =>
          rw [hdec] at htake
          cases htake
        | ok mask' =>
          have htwo := two_le_of_decodeCapabilities hdec
          rw [hdec] at htake
          cases htake
          rw [if_neg (by rw [not_or]; exact ⟨hseen, by omega⟩)]
          exact hrest
    · rename_i hcap
      cases htake
      rw [if_neg hcap]
      exact hrest

/-- The fields that count: those of identifier 1 of a HELLO. -/
def capabilityFields (handshake : Bool) (fields : List (UInt16 × Bytes)) : List (UInt16 × Bytes) :=
  fields.filter fun field => handshake && field.1 == 1

/-- What the loop over the fields ends with: at most one of them counts. -/
def Gathered (handshake : Bool) (fields : List (UInt16 × Bytes)) (seen : Bool) (mask : UInt16)
    (result : Bool × UInt16) : Prop :=
  (capabilityFields handshake fields = [] ∧ result = (seen, mask)) ∨
    ∃ field ids, capabilityFields handshake fields = [field] ∧ seen = false ∧
      IsCapabilityList field.2 ids ∧ result = (true, mask ||| capabilityMask ids)

theorem gathered_cons {handshake : Bool} {field : UInt16 × Bytes} {fields : List (UInt16 × Bytes)}
    {seen : Bool} {mask : UInt16} {result : Bool × UInt16} :
    Gathered handshake (field :: fields) seen mask result ↔
      ∃ taken, takeField handshake seen mask field = .ok taken ∧
        Gathered handshake fields taken.1 taken.2 result := by
  by_cases hcap : (handshake && field.1 == 1) = true
  · have hfields : capabilityFields handshake (field :: fields) =
        field :: capabilityFields handshake fields := List.filter_cons_of_pos hcap
    constructor
    · rintro (⟨hnil, -⟩ | ⟨_, ids, hone, rfl, hlist, rfl⟩)
      · rw [hfields] at hnil
        cases hnil
      · rw [hfields] at hone
        obtain ⟨rfl, hnil⟩ := List.cons.inj hone
        refine ⟨(true, mask ||| capabilityMask ids), ?_, .inl ⟨hnil, rfl⟩⟩
        have hdec : decodeCapabilities field.2 mask = .ok (mask ||| capabilityMask ids) :=
          decodeCapabilities_iff.2 ⟨ids, hlist, rfl⟩
        rw [takeField, if_pos hcap, if_neg Bool.false_ne_true, hdec]
        rfl
    · rintro ⟨taken, htake, hgathered⟩
      unfold takeField at htake
      rw [if_pos hcap] at htake
      split at htake
      · cases htake
      · rename_i hseen
        cases hdec : decodeCapabilities field.2 mask with
        | error error =>
          rw [hdec] at htake
          cases htake
        | ok mask' =>
          rw [hdec] at htake
          cases htake
          obtain ⟨ids, hlist, rfl⟩ := decodeCapabilities_iff.1 hdec
          obtain ⟨hnil, rfl⟩ | ⟨_, _, _, htrue, -⟩ := hgathered
          · refine .inr ⟨field, ids, ?_, Bool.not_eq_true _ ▸ hseen, hlist, rfl⟩
            rw [hfields, hnil]
          · cases htrue
  · have hfields : capabilityFields handshake (field :: fields) =
        capabilityFields handshake fields := List.filter_cons_of_neg hcap
    have htake : takeField handshake seen mask field = .ok (seen, mask) := if_neg hcap
    rw [htake]
    unfold Gathered
    rw [hfields]
    constructor
    · intro h
      exact ⟨_, rfl, h⟩
    · rintro ⟨taken, htaken, h⟩
      cases htaken
      exact h

/-- The fields a string of bytes is made of. -/
def AreFields (rest : Bytes) (fields : List (UInt16 × Bytes)) : Prop :=
  rest = fields.flatMap fieldBytes ∧ ∀ field ∈ fields, field.1 ≠ 0 ∧ field.2.length < 2 ^ 32

theorem areFields_nil {fields : List (UInt16 × Bytes)} : AreFields [] fields ↔ fields = [] := by
  constructor
  · rintro ⟨hbytes, -⟩
    cases fields with
    | nil => rfl
    | cons field fields =>
      have hlen := congrArg List.length hbytes
      rw [List.flatMap_cons, List.length_append, length_fieldBytes, List.length_nil] at hlen
      omega
  · rintro rfl
    exact ⟨rfl, fun field hfield => absurd hfield List.not_mem_nil⟩

theorem areFields_cons {rest : Bytes} (hne : rest ≠ []) {fields : List (UInt16 × Bytes)} :
    AreFields rest fields ↔ ∃ field after fields', fields = field :: fields' ∧
      rest = fieldBytes field ++ after ∧ field.1 ≠ 0 ∧ field.2.length < 2 ^ 32 ∧
        AreFields after fields' := by
  constructor
  · rintro ⟨rfl, hok⟩
    cases fields with
    | nil => exact absurd rfl hne
    | cons field fields =>
      obtain ⟨⟨hid, hlt⟩, hrest⟩ := List.forall_mem_cons.1 hok
      exact ⟨field, _, fields, rfl, rfl, hid, hlt, rfl, hrest⟩
  · rintro ⟨field, _, fields, rfl, rfl, hid, hlt, rfl, hrest⟩
    exact ⟨rfl, List.forall_mem_cons.2 ⟨⟨hid, hlt⟩, hrest⟩⟩

theorem fieldLoop_nil_iff {handshake : Bool} {passes : ℕ} {seen : Bool} {mask : UInt16}
    {result : Bool × UInt16} :
    fieldLoop handshake passes [] seen mask = .ok result ↔
      ∃ fields, AreFields [] fields ∧ Gathered handshake fields seen mask result := by
  rw [fieldLoop]
  constructor
  · intro h
    cases h
    exact ⟨[], areFields_nil.2 rfl, .inl ⟨rfl, rfl⟩⟩
  · rintro ⟨fields, hfields, hgathered⟩
    obtain rfl := areFields_nil.1 hfields
    obtain ⟨-, rfl⟩ | ⟨_, _, hone, -⟩ := hgathered
    · rfl
    · cases hone

/-- **The loop reads the fields to the end**, given as many passes as there are bytes. -/
theorem fieldLoop_iff {handshake : Bool} {passes : ℕ} {rest : Bytes} {seen : Bool} {mask : UInt16}
    {result : Bool × UInt16} (hpasses : rest.length ≤ passes) :
    fieldLoop handshake passes rest seen mask = .ok result ↔
      ∃ fields, AreFields rest fields ∧ Gathered handshake fields seen mask result := by
  induction passes generalizing rest seen mask with
  | zero =>
    obtain rfl := List.length_eq_zero_iff.1 (Nat.le_zero.1 hpasses)
    exact fieldLoop_nil_iff
  | succ passes ih =>
    by_cases hne : rest = []
    · subst hne
      exact fieldLoop_nil_iff
    have hshorter : ∀ {field : UInt16 × Bytes} {after : Bytes},
        rest = fieldBytes field ++ after → after.length ≤ passes := by
      rintro field after rfl
      rw [List.length_append, length_fieldBytes] at hpasses
      omega
    rw [fieldLoop_succ_iff hne]
    constructor
    · rintro ⟨field, after, hrest, hid, hlt, taken, htake, hloop⟩
      obtain ⟨fields, hfields, hgathered⟩ := (ih (hshorter hrest)).1 hloop
      exact ⟨field :: fields, (areFields_cons hne).2 ⟨field, after, fields, rfl, hrest, hid, hlt, hfields⟩,
        gathered_cons.2 ⟨taken, htake, hgathered⟩⟩
    · rintro ⟨fields, hfields, hgathered⟩
      obtain ⟨field, after, fields, rfl, hrest, hid, hlt, hafter⟩ := (areFields_cons hne).1 hfields
      obtain ⟨taken, htake, hgathered⟩ := gathered_cons.1 hgathered
      exact ⟨field, after, hrest, hid, hlt, taken, htake,
        (ih (hshorter hrest)).2 ⟨fields, hafter, hgathered⟩⟩

/-! ## No panic -/

theorem returned_ok_bind {α β : Type} (a : α) (f : α → Checked β) :
    returned (.ok a) >>= f = f a := rfl

theorem slice_eq {bytes : Bytes} {start stop : ℕ} (hstart : start ≤ stop)
    (hstop : stop ≤ bytes.length) :
    slice bytes start stop = returned (.ok ((bytes.take stop).drop start)) :=
  if_pos ⟨hstart, hstop⟩

theorem minus_eq {m n : ℕ} (h : n ≤ m) : minus m n = returned (.ok (m - n)) := if_pos h

/-- **The loop over the cursor** runs to the end of the payload, and every slice it takes
is inside. -/
theorem fieldLoopAt_eq {payload : Bytes} {handshake : Bool} {passes cursor : ℕ} {seen : Bool}
    {mask : UInt16} (hcursor : cursor ≤ payload.length)
    (hpasses : payload.length - cursor ≤ passes) :
    fieldLoopAt payload handshake (passes + 1) cursor seen mask =
      returned (fieldLoop handshake passes (payload.drop cursor) seen mask) := by
  induction passes generalizing cursor seen mask with
  | zero =>
    have hend : ¬cursor < payload.length := by omega
    rw [fieldLoopAt, if_neg hend, List.drop_eq_nil_of_le (by omega), fieldLoop]
    rfl
  | succ passes ih =>
    by_cases hlt : cursor < payload.length
    · have hne : payload.drop cursor ≠ [] := by
        intro hnil
        have hlen := congrArg List.length hnil
        rw [List.length_drop, List.length_nil] at hlen
        omega
      rw [fieldLoopAt, if_pos hlt, slice_eq hcursor le_rfl, returned_ok_bind, List.take_length]
      cases hheader : Decode.on (do return (← getU16, ← getU32)) (payload.drop cursor) with
      | error error =>
        rw [fieldLoop_of_error hne hheader]
        rfl
      | ok header =>
        obtain ⟨id, length⟩ := header
        have hsix : cursor + 6 ≤ payload.length := by
          have hlen := (fieldHeader_iff.1 hheader).length_le
          rw [List.length_append, length_putU16, length_putU32, List.length_drop] at hlen
          omega
        rw [fieldLoop_of_header hne hheader, returned_ok_bind, List.drop_drop, List.length_drop]
        simp only [minus_eq hsix, returned_ok_bind]
        by_cases hid : id = 0
        · have hbad : id = 0 ∨ length.toNat > payload.length - (cursor + 6) := .inl hid
          rw [if_pos hid, if_pos hbad]
          rfl
        by_cases hroom : length.toNat > payload.length - (cursor + 6)
        · have hbad : id = 0 ∨ length.toNat > payload.length - (cursor + 6) := .inr hroom
          rw [if_neg hid, if_pos hroom, if_pos hbad]
          rfl
        have hend : cursor + 6 + length.toNat ≤ payload.length := by omega
        have hleft : payload.length - (cursor + 6 + length.toNat) ≤ passes := by omega
        rw [if_neg hid, if_neg hroom, if_neg (not_or.2 ⟨hid, hroom⟩), List.drop_drop]
        by_cases hcap : (handshake && id == 1) = true
        · rw [if_pos hcap, if_pos hcap]
          by_cases hbad : seen = true ∨ length.toNat < 2
          · rw [if_pos hbad, if_pos hbad]
            rfl
          rw [if_neg hbad, if_neg hbad, slice_eq (Nat.le_add_right _ _) hend, returned_ok_bind,
            List.drop_take, Nat.add_sub_cancel_left]
          cases decodeCapabilities ((payload.drop (cursor + 6)).take length.toNat) mask with
          | error error => rfl
          | ok mask =>
            rw [returned_ok_bind, ih hend hleft]
            rfl
        · rw [if_neg hcap, if_neg hcap, ih hend hleft]
    · rw [fieldLoopAt, if_neg hlt, List.drop_eq_nil_of_le (by omega), fieldLoop]
      rfl

/-- What is done behind the length of the core. -/
theorem decode_of_core {payload : Bytes} {messageType : UInt16} {flags : UInt8}
    {coreLength : UInt32} (hflags : flags &&& extensionsPresent ≠ 0)
    (hcore : getU32.on payload = .ok coreLength) :
    decode payload messageType flags =
      if 4 + coreLength.toNat ≥ payload.length then .error malformed
      else (fieldLoop (messageType == MessageType.hello) payload.length
        (payload.drop (4 + coreLength.toNat)) false 0).bind fun result =>
          if (messageType == MessageType.hello && !result.1) = true then .error malformed
          else .ok ((payload.take (4 + coreLength.toNat)).drop 4, result.2) := by
  unfold decode
  rw [if_neg hflags, hcore]
  rfl

/-- **`decode` does not panic and comes to an end.** -/
theorem decodeAt_eq (payload : Bytes) (messageType : UInt16) (flags : UInt8) :
    decodeAt payload messageType flags = returned (decode payload messageType flags) := by
  by_cases hflags : flags &&& extensionsPresent = 0
  · unfold decodeAt decode
    simp only [if_pos hflags]
    split <;> rfl
  cases hcore : getU32.on payload with
  | error error =>
    unfold decodeAt decode
    rw [if_neg hflags, if_neg hflags, hcore]
    rfl
  | ok coreLength =>
    rw [decode_of_core hflags hcore]
    unfold decodeAt
    rw [if_neg hflags, hcore, returned_ok_bind]
    by_cases hend : 4 + coreLength.toNat ≥ payload.length
    · simp only [if_pos hend]
      rfl
    simp only [if_neg hend]
    rw [fieldLoopAt_eq (by omega) (Nat.sub_le _ _)]
    cases fieldLoop (messageType == MessageType.hello) payload.length
        (payload.drop (4 + coreLength.toNat)) false 0 with
    | error error => rfl
    | ok result =>
      rw [returned_ok_bind, slice_eq (Nat.le_add_right _ _) (by omega)]
      simp only [Except.bind]
      split <;> rfl

/-- The core and the fields behind it. -/
theorem isEnvelope_iff {payload core : Bytes} {fields : List (UInt16 × Bytes)} :
    IsEnvelope payload core fields ↔ ∃ coreLength : UInt32, getU32.on payload = .ok coreLength ∧
      4 + coreLength.toNat < payload.length ∧
      core = (payload.take (4 + coreLength.toNat)).drop 4 ∧
      AreFields (payload.drop (4 + coreLength.toNat)) fields := by
  have hread : ∀ coreLength, getU32.on payload = .ok coreLength ↔ putU32 coreLength <+: payload := by
    intro coreLength
    rw [reads_getU32.on_iff]
    constructor
    · rintro ⟨_, rfl, hpre⟩
      exact hpre
    · intro hpre
      exact ⟨_, rfl, hpre⟩
  constructor
  · intro h
    have hlen : (UInt32.ofNat core.length).toNat = core.length := by
      have := h.core_lt
      rw [UInt32.toNat_ofNat']
      omega
    have hbytes : payload = putU32 (UInt32.ofNat core.length) ++ core ++ fields.flatMap fieldBytes := by
      rw [h.bytes_eq, putBytes_eq hlen]
    have hfour : (putU32 (UInt32.ofNat core.length) ++ core).length = 4 + core.length := by
      rw [List.length_append, length_putU32]
    have hdrop : payload.drop (4 + core.length) = fields.flatMap fieldBytes := by
      rw [hbytes]
      exact List.drop_left' hfour
    refine ⟨UInt32.ofNat core.length, (hread _).2 ?_, ?_, ?_, ?_, h.field_ok⟩
    · rw [hbytes, List.append_assoc]
      exact List.prefix_append _ _
    · rw [hlen]
      by_contra hend
      have hnil : AreFields [] fields := by
        refine ⟨?_, h.field_ok⟩
        rw [← hdrop, List.drop_eq_nil_of_le (not_lt.1 hend)]
      exact h.fields_ne (areFields_nil.1 hnil)
    · rw [hlen, hbytes, List.take_left' hfour]
      exact (List.drop_left' (length_putU32 _)).symm
    · rw [hlen, hdrop]
  · rintro ⟨coreLength, hcore, hend, rfl, hfields⟩
    obtain ⟨tail, htail⟩ := (hread coreLength).1 hcore
    have hlen : coreLength.toNat = ((payload.take (4 + coreLength.toNat)).drop 4).length := by
      rw [List.length_drop, List.length_take]
      omega
    have hdrop : payload.drop 4 = tail := by
      rw [← htail]
      exact List.drop_left' (length_putU32 _)
    refine ⟨?_, ?_, ?_, hfields.2⟩
    · rw [putBytes_eq hlen, ← hfields.1, List.append_assoc, List.drop_take, ← List.drop_drop,
        Nat.add_sub_cancel_left, List.take_append_drop, hdrop, htail]
    · rw [← hlen]
      exact coreLength.toNat_lt
    · rintro rfl
      have hnil := congrArg List.length hfields.1
      rw [List.length_drop, List.flatMap_nil, List.length_nil] at hnil
      omega

/-- The fields decide of a HELLO, and of no other message. -/
theorem gathered_iff {handshake : Bool} {fields : List (UInt16 × Bytes)} {mask : UInt16} :
    (∃ seen, Gathered handshake fields false 0 (seen, mask) ∧ ¬(handshake && !seen) = true) ↔
      if handshake = true then
        ∃ value ids, fields.filter (·.1 = 1) = [(1, value)] ∧ IsCapabilityList value ids ∧
          mask = capabilityMask ids
      else mask = 0 := by
  cases handshake with
  | false =>
    have hnone : capabilityFields false fields = [] := List.filter_false fields
    constructor
    · rintro ⟨_, ⟨-, heq⟩ | ⟨_, _, hone, -⟩, -⟩
      · cases heq
        rfl
      · rw [hnone] at hone
        cases hone
    · rintro rfl
      exact ⟨false, .inl ⟨hnone, rfl⟩, Bool.false_ne_true⟩
  | true =>
    have hfields : capabilityFields true fields = fields.filter (·.1 = 1) := rfl
    constructor
    · rintro ⟨_, ⟨-, heq⟩ | ⟨⟨id, value⟩, ids, hone, -, hlist, heq⟩, hseen⟩
      · cases heq
        exact absurd rfl hseen
      · cases heq
        have hid : id = 1 := by
          have hmem : (id, value) ∈ capabilityFields true fields := hone ▸ List.mem_singleton_self _
          exact eq_of_beq (List.mem_filter.1 hmem).2
        subst hid
        exact ⟨value, ids, hone, hlist, UInt16.zero_or⟩
    · rintro ⟨value, ids, hone, hlist, rfl⟩
      refine ⟨true, .inr ⟨(1, value), ids, hone, rfl, hlist, ?_⟩, Bool.false_ne_true⟩
      rw [UInt16.zero_or]

/-- **What `decode` accepts**, where the flags say that extensions are present. -/
theorem decode_ok_iff {payload core : Bytes} {messageType : UInt16} {flags : UInt8} {mask : UInt16}
    (hflags : flags &&& extensionsPresent ≠ 0) :
    decode payload messageType flags = .ok (core, mask) ↔
      ∃ fields, IsEnvelope payload core fields ∧
        if messageType = MessageType.hello then
          ∃ value ids, fields.filter (·.1 = 1) = [(1, value)] ∧ IsCapabilityList value ids ∧
            mask = capabilityMask ids
        else mask = 0 := by
  have hhello : (messageType == MessageType.hello) = true ↔ messageType = MessageType.hello :=
    beq_iff_eq
  simp only [← hhello, ← gathered_iff, isEnvelope_iff]
  cases hcore : getU32.on payload with
  | error error =>
    have herror : decode payload messageType flags = .error error := by
      unfold decode
      rw [if_neg hflags, hcore]
      rfl
    rw [herror]
    constructor
    · intro h
      cases h
    · rintro ⟨_, ⟨_, h, -⟩, -⟩
      cases h
  | ok coreLength =>
    rw [decode_of_core hflags hcore]
    have hpasses : (payload.drop (4 + coreLength.toNat)).length ≤ payload.length := by
      rw [List.length_drop]
      exact Nat.sub_le _ _
    constructor
    · intro h
      split at h
      · cases h
      · rename_i hend
        cases hfields : fieldLoop (messageType == MessageType.hello) payload.length
            (payload.drop (4 + coreLength.toNat)) false 0 with
        | error error =>
          rw [hfields] at h
          cases h
        | ok result =>
          obtain ⟨fields, hare, hgathered⟩ := (fieldLoop_iff hpasses).1 hfields
          rw [hfields] at h
          simp only [Except.bind] at h
          split at h
          · cases h
          · rename_i hseen
            cases h
            exact ⟨fields, ⟨coreLength, rfl, not_le.1 hend, rfl, hare⟩, result.1, hgathered, hseen⟩
    · rintro ⟨fields, ⟨_, heq, hend, rfl, hare⟩, seen, hgathered, hseen⟩
      cases heq
      have hfields := (fieldLoop_iff hpasses).2 ⟨fields, hare, hgathered⟩
      rw [if_neg (not_le.2 hend), hfields]
      exact if_neg hseen

/-- What the encoder wrote, and the order of the fields it took. -/
theorem encodeFields_ok {previous : UInt16} {fields : List (UInt16 × Bytes)} {tail : Bytes}
    (h : encodeFields previous fields = .ok tail) :
    tail = fields.flatMap fieldBytes ∧ ∀ field ∈ fields, previous < field.1 := by
  induction fields generalizing previous tail with
  | nil =>
    cases h
    exact ⟨rfl, fun field hfield => absurd hfield List.not_mem_nil⟩
  | cons field fields ih =>
    obtain ⟨id, value⟩ := field
    simp only [encodeFields] at h
    split at h
    · cases h
    · rename_i hlt
      have hprevious : previous < id := UInt16.not_le.1 hlt
      cases hrest : encodeFields id fields with
      | error error =>
        rw [hrest] at h
        cases h
      | ok rest =>
        rw [hrest] at h
        cases h
        obtain ⟨rfl, hall⟩ := ih hrest
        refine ⟨?_, List.forall_mem_cons.2 ⟨hprevious, fun field hfield => ?_⟩⟩
        · rw [List.flatMap_cons, fieldBytes]
        · exact UInt16.lt_trans hprevious (hall field hfield)

theorem length_le_flatMap {fields : List (UInt16 × Bytes)} {field : UInt16 × Bytes}
    (h : field ∈ fields) : field.2.length ≤ (fields.flatMap fieldBytes).length := by
  obtain ⟨before, after, rfl⟩ := List.append_of_mem h
  rw [List.flatMap_append, List.flatMap_cons, List.length_append, List.length_append,
    length_fieldBytes]
  omega

/-- **An encoded envelope is one.** -/
theorem isEnvelope_of_encode {core payload : Bytes} {fields : List (UInt16 × Bytes)}
    (h : encode core fields = .ok payload) : IsEnvelope payload core fields := by
  unfold encode at h
  cases htail : encodeFields 0 fields with
  | error error =>
    rw [htail] at h
    cases h
  | ok tail =>
    obtain ⟨rfl, hall⟩ := encodeFields_ok htail
    simp only [htail, bind, Except.bind] at h
    split at h
    · cases h
    · rename_i hempty
      split at h
      · cases h
      · rename_i hsize
        cases h
        rw [List.length_append, length_putBytes] at hsize
        unfold maxMessageSize at hsize
        refine ⟨rfl, by omega, ?_, fun field hfield => ⟨?_, ?_⟩⟩
        · rintro rfl
          exact hempty rfl
        · exact UInt16.pos_iff_ne_zero.1 (hall field hfield)
        · have := length_le_flatMap hfield
          omega

/-- **The grammar of the extension envelope.** -/
theorem envelope_grammar {payload : Bytes} {messageType : UInt16} {flags : UInt8}
    (hflags : flags &&& extensionsPresent ≠ 0) :
    decodeAt payload messageType flags = returned (decode payload messageType flags) ∧
    (∀ core mask, decode payload messageType flags = .ok (core, mask) ↔
      ∃ fields, IsEnvelope payload core fields ∧
        if messageType = MessageType.hello then
          ∃ value ids, fields.filter (·.1 = 1) = [(1, value)] ∧ IsCapabilityList value ids ∧
            mask = capabilityMask ids
        else mask = 0) ∧
    ∀ core fields, encode core fields = .ok payload → messageType ≠ MessageType.hello →
      decode payload messageType flags = .ok (core, 0) := by
  refine ⟨decodeAt_eq payload messageType flags, fun core mask => decode_ok_iff hflags, ?_⟩
  intro core fields henc hother
  refine (decode_ok_iff hflags).2 ⟨fields, isEnvelope_of_encode henc, ?_⟩
  rw [if_neg hother]

/-- A HELLO that lists the first capability. -/
theorem envelope_grammar_hello :
    ∃ core, decode [0, 0, 0, 1, 9, 0, 1, 0, 0, 0, 6, 0, 1, 0, 0, 0, 1] MessageType.hello 4 =
      .ok (core, 2) := by
  refine ⟨[9], ((envelope_grammar (by decide)).2.1 [9] 2).2 ⟨[(1, [0, 1, 0, 0, 0, 1])], ?_, ?_⟩⟩
  · exact ⟨by decide, by decide, by decide, by decide⟩
  · exact ⟨[0, 1, 0, 0, 0, 1], [1], by decide, ⟨by decide, by decide, by simp, by simp⟩, by decide⟩

end Wire3

end Fitz
