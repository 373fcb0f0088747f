import Rellm.Foundation.Bytes
import Rellm.Foundation.Overflow

/-!
# Public ids

The id of a row is public as the text of four or of eight bytes, moved by an offset. A text
that a client sends is decoded to bytes, and those to an id. Arithmetic on fixed-width
integers may overflow.
-/

namespace Rellm.Ids

open Foundation

/-- The bytes of an `i32`. -/
def bytesOf32 (number : Int32) : List UInt8 := leBytes 4 number.toUInt32.toNat

/-- The bytes of an `i64`. -/
def bytesOf64 (number : Int64) : List UInt8 := leBytes 8 number.toUInt64.toNat

@[simp] theorem length_bytesOf32 (number : Int32) : (bytesOf32 number).length = 4 :=
  length_leBytes 4 _

@[simp] theorem length_bytesOf64 (number : Int64) : (bytesOf64 number).length = 8 :=
  length_leBytes 8 _

/-- The `i32` with some bytes. -/
def ofBytes32 (bytes : List UInt8) : Int32 := (UInt32.ofNat (ofLeBytes bytes)).toInt32

/-- The `i64` with some bytes. -/
def ofBytes64 (bytes : List UInt8) : Int64 := (UInt64.ofNat (ofLeBytes bytes)).toInt64

theorem ofBytes32_bytesOf32 (number : Int32) : ofBytes32 (bytesOf32 number) = number := by
  unfold ofBytes32 bytesOf32
  rw [ofLeBytes_leBytes_of_lt number.toUInt32.toNat_lt, UInt32.ofNat_toNat, Int32.toInt32_toUInt32]

theorem ofBytes64_bytesOf64 (number : Int64) : ofBytes64 (bytesOf64 number) = number := by
  unfold ofBytes64 bytesOf64
  rw [ofLeBytes_leBytes_of_lt number.toUInt64.toNat_lt, UInt64.ofNat_toNat, Int64.toInt64_toUInt64]

/-- What ids are moved by. -/
def idOffset : Int32 := 7

/-- Why a text is no id. -/
inductive IdDecodingError where
  | base58
  | invalidLength (length : Nat)
  | id0
  deriving DecidableEq, Repr

section

variable (codec : ByteCodec)

/-- The text of an `i32`. -/
def toProtoId32 (id : Int32) : Option String := do
  let offsetValue ← checked32 (id.toInt + idOffset.toInt)
  return codec.encode (bytesOf32 offsetValue)

/-- The text of an `i64`, or none where the arithmetic overflows. -/
def toProtoId64 (id : Int64) : Option String := do
  let offsetValue ← checked64 (id.toInt + idOffset.toInt)
  if offsetValue.toInt ≤ Int32.maxValue.toInt then toProtoId32 codec id.toInt32
  else return codec.encode (bytesOf64 offsetValue)

/-- The id with an offset value. -/
def ofOffsetValue (value : Int64) : Option (Except IdDecodingError Int64) :=
  if value = 0 then some (.error .id0)
  else (checked64 (value.toInt - idOffset.toInt)).map .ok

/-- The id with a text, or none where the arithmetic overflows. -/
def toDbId (text : String) : Option (Except IdDecodingError Int64) :=
  match codec.decode text with
  | none => some (.error .base58)
  | some bytes =>
    if bytes.length = 4 then ofOffsetValue (ofBytes32 bytes).toInt64
    else if bytes.length = 8 then ofOffsetValue (ofBytes64 bytes)
    else some (.error (.invalidLength bytes.length))

end

section

variable {codec : ByteCodec}

theorem offsetValue_ne_zero {value : Int64} (h : 0 < value.toInt) : value ≠ 0 := by
  rintro rfl
  exact absurd h (by decide)

/-- The value of an id that was moved is moved back. -/
theorem ofOffsetValue_of_toInt {id value : Int64} (h : value.toInt = id.toInt + idOffset.toInt)
    (hpos : 0 < value.toInt) : ofOffsetValue value = some (.ok id) := by
  unfold ofOffsetValue
  rw [if_neg (offsetValue_ne_zero hpos), h, Int.add_sub_cancel, checked64_toInt]
  rfl

theorem toDbId_of_length_four {text : String} {bytes : List UInt8}
    (h : codec.decode text = some bytes) (hlength : bytes.length = 4) :
    toDbId codec text = ofOffsetValue (ofBytes32 bytes).toInt64 := by
  unfold toDbId
  simp only [h]
  rw [if_pos hlength]

theorem toDbId_of_length_eight {text : String} {bytes : List UInt8}
    (h : codec.decode text = some bytes) (hlength : bytes.length = 8) :
    toDbId codec text = ofOffsetValue (ofBytes64 bytes) := by
  unfold toDbId
  simp only [h]
  rw [if_neg (by omega), if_pos hlength]

/-- The text of an id that is moved without overflow is decoded to it. -/
theorem toDbId_toProtoId64 (codec : ByteCodec) {id : Int64} (hpos : 1 ≤ id.toInt) (hbound : id.toInt ≤ 2 ^ 63 - 8) :
    ∃ text, toProtoId64 codec id = some text ∧ toDbId codec text = some (.ok id) := by
  have hoffset : idOffset.toInt = 7 := rfl
  have hmax : Int32.maxValue.toInt = 2 ^ 31 - 1 := rfl
  obtain ⟨value, hvalue, htoInt⟩ := checked64_of_bounds (id.toInt + idOffset.toInt)
    (by omega) (by omega)
  unfold toProtoId64
  rw [hvalue, Option.bind_eq_bind, Option.bind_some]
  split
  · -- the value fits in four bytes, and so does the id
    rename_i hsmall
    have hnarrow : id.toInt32.toInt = id.toInt := by
      rw [Int64.toInt_toInt32, Int.bmod_eq_of_le] <;> omega
    obtain ⟨value32, hvalue32, htoInt32⟩ :=
      checked32_of_bounds (id.toInt32.toInt + idOffset.toInt) (by omega) (by omega)
    refine ⟨codec.encode (bytesOf32 value32), ?_, ?_⟩
    · rw [toProtoId32, hvalue32]
      rfl
    · rw [toDbId_of_length_four (codec.decode_encode _) (length_bytesOf32 _),
        ofBytes32_bytesOf32]
      have hwide : value32.toInt64.toInt = id.toInt + idOffset.toInt := by
        rw [Int32.toInt_toInt64, htoInt32, hnarrow]
      exact ofOffsetValue_of_toInt hwide (by omega)
  · refine ⟨codec.encode (bytesOf64 value), rfl, ?_⟩
    rw [toDbId_of_length_eight (codec.decode_encode _) (length_bytesOf64 _),
      ofBytes64_bytesOf64]
    exact ofOffsetValue_of_toInt htoInt (by omega)

end

/-- The ids that rows may have. -/
def IsRowId (id : Int64) : Prop := 1 ≤ id.toInt ∧ id.toInt ≤ 2 ^ 63 - 8

/-- Public ids are decoded to the ids they stand for, and no two stand for one. -/
structure RoundTrips (codec : ByteCodec) : Prop where
  decodes : ∀ id, IsRowId id →
    ∃ text, toProtoId64 codec id = some text ∧ toDbId codec text = some (.ok id)
  injective : ∀ id id', IsRowId id → IsRowId id' →
    toProtoId64 codec id = toProtoId64 codec id' → id = id'

/-- Decoding a text does not overflow, and finds an id only in four or eight bytes. -/
structure DecodesSafely (codec : ByteCodec) (text : String) : Prop where
  returns : (toDbId codec text).isSome
  length : ∀ id, toDbId codec text = some (.ok id) →
    ∃ bytes, codec.decode text = some bytes ∧ (bytes.length = 4 ∨ bytes.length = 8)

/-- A text of eight bytes that are less than the offset above the least `i64`. -/
def NearMinimum (codec : ByteCodec) (text : String) : Prop :=
  ∃ bytes, codec.decode text = some bytes ∧ bytes.length = 8 ∧
    (ofBytes64 bytes).toInt < Int64.minValue.toInt + idOffset.toInt

theorem roundTrips (codec : ByteCodec) : RoundTrips codec where
  decodes := fun _ h => toDbId_toProtoId64 codec h.1 h.2
  injective := by
    intro id id' h h' heq
    obtain ⟨text, htext, hid⟩ := toDbId_toProtoId64 codec h.1 h.2
    obtain ⟨text', htext', hid'⟩ := toDbId_toProtoId64 codec h'.1 h'.2
    rw [htext, htext', Option.some.injEq] at heq
    rw [heq, hid', Option.some.injEq, Except.ok.injEq] at hid
    exact hid.symm

/-- Moving a value back overflows exactly near the least one. -/
theorem ofOffsetValue_isSome_iff (value : Int64) :
    (ofOffsetValue value).isSome ↔
      ¬ value.toInt < Int64.minValue.toInt + idOffset.toInt := by
  have hoffset : idOffset.toInt = 7 := rfl
  have hmin : Int64.minValue.toInt = -2 ^ 63 := rfl
  have hlt := value.toInt_lt
  unfold ofOffsetValue
  split
  · rename_i hzero
    subst hzero
    exact iff_of_true rfl (by decide)
  · rw [Option.isSome_map, ← Option.ne_none_iff_isSome, ne_eq, checked64_eq_none_iff]
    omega

/-- Public ids round trip, and a text is decoded safely exactly if it is not near the least
`i64`. -/
theorem decodesSafely_iff (codec : ByteCodec) (text : String) :
    RoundTrips codec ∧ DecodesSafely codec text ↔ ¬ NearMinimum codec text := by
  constructor
  · rintro ⟨_, hsafe⟩ ⟨bytes, hbytes, hlength, hnear⟩
    have hreturns := hsafe.returns
    rw [toDbId_of_length_eight hbytes hlength, ofOffsetValue_isSome_iff] at hreturns
    exact hreturns hnear
  · intro hfar
    refine ⟨roundTrips codec, ?_, ?_⟩
    · cases hbytes : codec.decode text with
      | none =>
        unfold toDbId
        simp only [hbytes]
        rfl
      | some bytes =>
        by_cases hfour : bytes.length = 4
        · rw [toDbId_of_length_four hbytes hfour, ofOffsetValue_isSome_iff]
          have hmin : Int64.minValue.toInt = -2 ^ 63 := rfl
          have hoffset : idOffset.toInt = 7 := rfl
          have hwide := (ofBytes32 bytes).le_toInt
          rw [Int32.toInt_toInt64]
          omega
        · by_cases height : bytes.length = 8
          · rw [toDbId_of_length_eight hbytes height, ofOffsetValue_isSome_iff]
            exact fun hnear => hfar ⟨bytes, hbytes, height, hnear⟩
          · unfold toDbId
            simp only [hbytes]
            rw [if_neg hfour, if_neg height]
            rfl
    · intro id hid
      cases hbytes : codec.decode text with
      | none =>
        unfold toDbId at hid
        simp only [hbytes] at hid
        cases hid
      | some bytes =>
        refine ⟨bytes, rfl, ?_⟩
        by_contra hlength
        rw [not_or] at hlength
        unfold toDbId at hid
        simp only [hbytes] at hid
        rw [if_neg hlength.1, if_neg hlength.2] at hid
        cases hid

/-- The text of the least `i64` overflows. -/
theorem minimum_overflows : ¬ (RoundTrips base58 ∧ ∀ text, DecodesSafely base58 text) := by
  rintro ⟨_, h⟩
  have hreturns := (h "11111113D").returns
  revert hreturns
  decide +kernel

end Rellm.Ids
