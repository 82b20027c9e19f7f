import DigIdentity.Fallible
import DigIdentity.Values

namespace DigIdentity.ValueCodec

open ByteStrings Fallible Errors Values

section Reader

/-- Indexing a slice. A failure `none` is a panic, `some e` is the error `e`. -/
def index (bytes : Bytes) (i : Nat) : Except (Option Error) UInt8 :=
  match bytes[i]? with
  | some b => .ok b
  | none => .error none

def sliceFrom (bytes : Bytes) (start : Nat) : Except (Option Error) Bytes :=
  if start ≤ bytes.length then .ok (bytes.drop start) else .error none

/-- `try_into` an array, and `expect`. -/
def expectArray (width : Nat) (bytes : Bytes) : Except (Option Error) Bytes :=
  if bytes.length = width then .ok bytes else .error none

/-- `Value::decode` with every index, slice and `expect` as it stands in the
source, each of which could panic. -/
def decodeOrPanic (blob : Bytes) : Except (Option Error) Value := do
  if blob.length < headerLen then throw (some (.truncatedValue "header shorter than 5 bytes"))
  let tag ← (ValueTag.fromByte (← index blob 0)).mapError some
  let declared := ofBe [← index blob 1, ← index blob 2, ← index blob 3, ← index blob 4]
  let payload ← sliceFrom blob headerLen
  if payload.length ≠ declared then throw (some (.lengthMismatch declared payload.length))
  if let some width := tag.fixedWidth then
    if payload.length ≠ width then throw (some (.wrongWidth (← index blob 0) width payload.length))
  match tag with
  | .utf8 =>
      match String.fromUTF8? ⟨payload.toArray⟩ with
      | some s => return .utf8 s
      | none => throw (some (.truncatedValue "utf8 payload is not valid UTF-8"))
  | .bytes => return .bytes payload
  | .u16 => return .u16 (UInt16.ofNat (ofBe [← index payload 0, ← index payload 1]))
  | .u32 => return .u32 (UInt32.ofNat (ofBe [← index payload 0, ← index payload 1, ← index payload 2,
      ← index payload 3]))
  | .u64 => return .u64 (UInt64.ofNat (ofBe (← expectArray 8 payload)))

@[simp] theorem index_zero (b : UInt8) (bytes : Bytes) : index (b :: bytes) 0 = .ok b := rfl

@[simp] theorem index_succ (b : UInt8) (bytes : Bytes) (i : Nat) :
    index (b :: bytes) (i + 1) = index bytes i := rfl

theorem exists_header {blob : Bytes} (h : headerLen ≤ blob.length) :
    ∃ b b₁ b₂ b₃ b₄ payload, blob = b :: b₁ :: b₂ :: b₃ :: b₄ :: payload := by
  match blob, h with
  | b :: b₁ :: b₂ :: b₃ :: b₄ :: payload, _ => exact ⟨b, b₁, b₂, b₃, b₄, payload, rfl⟩

end Reader

section Header

def fromPayload (tag : ValueTag) (payload : Bytes) : Except Error Value :=
  match tag with
  | .utf8 =>
      match String.fromUTF8? ⟨payload.toArray⟩ with
      | some s => .ok (.utf8 s)
      | none => .error (.truncatedValue "utf8 payload is not valid UTF-8")
  | .bytes => .ok (.bytes payload)
  | .u16 => .ok (.u16 (UInt16.ofNat (ofBe (payload.take 2))))
  | .u32 => .ok (.u32 (UInt32.ofNat (ofBe (payload.take 4))))
  | .u64 => .ok (.u64 (UInt64.ofNat (ofBe payload)))

variable (b b₁ b₂ b₃ b₄ : UInt8) (payload : Bytes)

/-- A decoder past its header: the two length checks, then the payload. -/
theorem decode_cons :
    Value.decode (b :: b₁ :: b₂ :: b₃ :: b₄ :: payload) =
      match ValueTag.fromByte b with
      | .error e => .error e
      | .ok tag =>
          if payload.length ≠ ofBe [b₁, b₂, b₃, b₄] then
            .error (.lengthMismatch (ofBe [b₁, b₂, b₃, b₄]) payload.length)
          else match tag.fixedWidth with
            | none => fromPayload tag payload
            | some width =>
                if payload.length ≠ width then .error (.wrongWidth b width payload.length)
                else fromPayload tag payload := by
  have hlen : ¬(b :: b₁ :: b₂ :: b₃ :: b₄ :: payload).length < headerLen := by
    simp [headerLen]
  rw [Value.decode, dif_neg hlen]
  cases ht : ValueTag.fromByte b with
  | error e => simp [ht]
  | ok tag =>
      simp only [List.getElem_cons_zero, List.getElem_cons_succ, ht, ok_bind, headerLen]
      by_cases hd : payload.length = ofBe [b₁, b₂, b₃, b₄]
      · cases tag with
        | utf8 =>
            cases hu : String.fromUTF8? ⟨payload.toArray⟩ with
            | none => simp [hd, ValueTag.fixedWidth, fromPayload, hu]
            | some s => simp [hd, ValueTag.fixedWidth, fromPayload, hu]
        | bytes | u16 | u32 | u64 => simp [hd, ValueTag.fixedWidth, fromPayload]
      · simp [hd]

theorem decodeOrPanic_cons :
    decodeOrPanic (b :: b₁ :: b₂ :: b₃ :: b₄ :: payload) =
      (Value.decode (b :: b₁ :: b₂ :: b₃ :: b₄ :: payload)).mapError some := by
  have hlen : ¬(b :: b₁ :: b₂ :: b₃ :: b₄ :: payload).length < headerLen := by
    simp [headerLen]
  have hslice : sliceFrom (b :: b₁ :: b₂ :: b₃ :: b₄ :: payload) headerLen = .ok payload := by
    simp [sliceFrom, headerLen]
  rw [decode_cons, decodeOrPanic, if_neg hlen]
  cases ht : ValueTag.fromByte b with
  | error e => simp [ht]
  | ok tag =>
      simp only [index_zero, index_succ, ht, hslice, ok_bind, ok_mapError]
      by_cases hd : payload.length = ofBe [b₁, b₂, b₃, b₄]
      · rw [if_neg (not_not.mpr hd), if_neg (not_not.mpr hd)]
        cases tag with
        | bytes => rfl
        | utf8 =>
            simp only [ValueTag.fixedWidth, fromPayload]
            cases String.fromUTF8? ⟨payload.toArray⟩ <;> rfl
        | u16 =>
            by_cases hw : payload.length = 2
            · obtain ⟨x, y, rfl⟩ := List.length_eq_two.mp hw
              rfl
            · simp [ValueTag.fixedWidth, hw]
        | u32 =>
            by_cases hw : payload.length = 4
            · match payload, hw with
              | [_, _, _, _], _ => rfl
            · simp [ValueTag.fixedWidth, hw]
        | u64 =>
            by_cases hw : payload.length = 8
            · simp [ValueTag.fixedWidth, hw, expectArray, fromPayload]
            · simp [ValueTag.fixedWidth, hw]
      · simp [hd]

/-- No index is out of range and no `expect` fails, whatever the bytes are. -/
theorem decode_never_panics (blob : Bytes) :
    decodeOrPanic blob = (Value.decode blob).mapError some := by
  by_cases h : blob.length < headerLen
  · rw [decodeOrPanic, if_pos h, Value.decode, dif_pos h]
    rfl
  · obtain ⟨b, b₁, b₂, b₃, b₄, payload, rfl⟩ := exists_header (Nat.le_of_not_lt h)
    exact decodeOrPanic_cons b b₁ b₂ b₃ b₄ payload

end Header

section Exactness

def payload (v : Value) : Bytes := v.tagAndPayload.2

theorem fromByte_eq_ok_iff {b : UInt8} {tag : ValueTag} :
    ValueTag.fromByte b = .ok tag ↔ b = tag.toByte := by
  constructor
  · intro h
    unfold ValueTag.fromByte at h
    split_ifs at h with h1 h2 h3 h4 h5 <;> cases h <;> assumption
  · rintro rfl
    cases tag <;> rfl

theorem fromUTF8_eq_some_iff {bytes : Bytes} {s : String} :
    String.fromUTF8? ⟨bytes.toArray⟩ = some s ↔ utf8Bytes s = bytes := by
  unfold String.fromUTF8?
  constructor
  · intro h
    by_cases hv : ByteArray.IsValidUTF8 ⟨bytes.toArray⟩
    · rw [dif_pos hv, Option.some.injEq] at h
      rw [← h]
      rfl
    · simp [hv] at h
  · rintro rfl
    exact dif_pos s.isValidUTF8

/-- Whichever kind a value has, its payload is read back from the bytes. -/
theorem fromPayload_eq_ok_iff {tag : ValueTag} {bytes : Bytes} {v : Value}
    (hw : ∀ w, tag.fixedWidth = some w → bytes.length = w) :
    fromPayload tag bytes = .ok v ↔ v.tagAndPayload = (tag, bytes) := by
  cases tag with
  | bytes => cases v <;> simp [fromPayload, Value.tagAndPayload, eq_comm]
  | utf8 =>
      cases v with
      | utf8 s =>
          simp only [Value.tagAndPayload, Prod.mk.injEq, true_and, ← fromUTF8_eq_some_iff, fromPayload]
          cases String.fromUTF8? ⟨bytes.toArray⟩ <;> simp
      | bytes | u16 | u32 | u64 =>
          simp only [Value.tagAndPayload, fromPayload]
          cases String.fromUTF8? ⟨bytes.toArray⟩ <;> simp
  | u16 =>
      have hl := hw 2 rfl
      have hb : ofBe bytes % 65536 = ofBe bytes := ofBe_mod hl
      cases v with
      | u16 n =>
          have hn := toBe_eq_iff hl n.toNat_lt
          simp [fromPayload, Value.tagAndPayload, ← UInt16.toNat_inj, List.take_of_length_le hl.le, hn,
            hb]
      | utf8 | bytes | u32 | u64 => simp [fromPayload, Value.tagAndPayload]
  | u32 =>
      have hl := hw 4 rfl
      have hb : ofBe bytes % 4294967296 = ofBe bytes := ofBe_mod hl
      cases v with
      | u32 n =>
          have hn := toBe_eq_iff hl n.toNat_lt
          simp [fromPayload, Value.tagAndPayload, ← UInt32.toNat_inj, List.take_of_length_le hl.le, hn,
            hb]
      | utf8 | bytes | u16 | u64 => simp [fromPayload, Value.tagAndPayload]
  | u64 =>
      have hl := hw 8 rfl
      have hb : ofBe bytes % 18446744073709551616 = ofBe bytes := ofBe_mod hl
      cases v with
      | u64 n =>
          have hn := toBe_eq_iff hl n.toNat_lt
          simp [fromPayload, Value.tagAndPayload, ← UInt64.toNat_inj, hn, hb]
      | utf8 | bytes | u16 | u32 => simp [fromPayload, Value.tagAndPayload]

theorem fixedWidth_payload {v : Value} {w : Nat} (h : v.tagAndPayload.1.fixedWidth = some w) :
    (payload v).length = w := by
  cases v <;> simp_all [Value.tagAndPayload, ValueTag.fixedWidth, payload]

/-- An accepted blob is a known tag, the length of the payload and the payload
of one value. -/
theorem decode_cons_eq_ok_iff {b b₁ b₂ b₃ b₄ : UInt8} {bytes : Bytes} {v : Value} :
    Value.decode (b :: b₁ :: b₂ :: b₃ :: b₄ :: bytes) = .ok v ↔
      v.tagAndPayload.1.toByte = b ∧ payload v = bytes ∧ ofBe [b₁, b₂, b₃, b₄] = bytes.length := by
  rw [decode_cons]
  constructor
  · intro h
    cases ht : ValueTag.fromByte b with
    | error e => simp [ht] at h
    | ok tag =>
        have hb := fromByte_eq_ok_iff.mp ht
        by_cases hd : bytes.length = ofBe [b₁, b₂, b₃, b₄]
        · have hv : v.tagAndPayload = (tag, bytes) := by
            cases hw : tag.fixedWidth with
            | none =>
                refine (fromPayload_eq_ok_iff ?_).mp (by simpa [ht, hd, hw] using h)
                simp [hw]
            | some width =>
                by_cases hl : bytes.length = width
                · refine (fromPayload_eq_ok_iff ?_).mp (by simpa [ht, ← hd, hw, hl] using h)
                  simp [hw, hl]
                · simp [ht, ← hd, hw, hl] at h
          exact ⟨by rw [hv, hb], congrArg Prod.snd hv, hd.symm⟩
        · simp [ht, hd] at h
  · rintro ⟨rfl, rfl, hd⟩
    have hv := (fromPayload_eq_ok_iff fun _ => fixedWidth_payload).mpr (Prod.eta v.tagAndPayload).symm
    rw [fromByte_eq_ok_iff.mpr rfl]
    cases hw : v.tagAndPayload.1.fixedWidth with
    | none => simpa [hd, hw] using hv
    | some width => simpa [hd, hw, fixedWidth_payload hw] using hv

/-- The length field holds the payload length modulo 2^32. -/
theorem encode_eq (v : Value) :
    v.encode = v.tagAndPayload.1.toByte :: (toBe 4 ((payload v).length % 2 ^ 32) ++ payload v) := by
  simp [Value.encode, payload]

theorem exists_length (n : Nat) : ∃ b₁ b₂ b₃ b₄, toBe 4 n = [b₁, b₂, b₃, b₄] := by
  have h := toBe_length 4 n
  match toBe 4 n, h with
  | [b₁, b₂, b₃, b₄], _ => exact ⟨b₁, b₂, b₃, b₄, rfl⟩

theorem length_field_iff {b₁ b₂ b₃ b₄ : UInt8} {n : Nat} (hn : n < 2 ^ 32) :
    toBe 4 n = [b₁, b₂, b₃, b₄] ↔ ofBe [b₁, b₂, b₃, b₄] = n :=
  toBe_eq_iff (by simp) (by simpa using hn)

theorem decode_eq_ok_iff (blob : Bytes) (v : Value) :
    Value.decode blob = .ok v ↔ blob = v.encode ∧ (payload v).length < 2 ^ 32 := by
  constructor
  · intro h
    by_cases hl : headerLen ≤ blob.length
    · obtain ⟨b, b₁, b₂, b₃, b₄, bytes, rfl⟩ := exists_header hl
      obtain ⟨rfl, rfl, hd⟩ := decode_cons_eq_ok_iff.mp h
      have hlt : (payload v).length < 2 ^ 32 := by
        rw [← hd]
        simpa using ofBe_lt [b₁, b₂, b₃, b₄]
      have hfield := (length_field_iff hlt).mpr hd
      refine ⟨?_, hlt⟩
      rw [encode_eq, Nat.mod_eq_of_lt hlt, hfield]
      rfl
    · rw [Value.decode, dif_pos (Nat.lt_of_not_le hl)] at h
      exact nomatch h
  · rintro ⟨rfl, hlt⟩
    obtain ⟨b₁, b₂, b₃, b₄, hfield⟩ := exists_length (payload v).length
    rw [encode_eq, Nat.mod_eq_of_lt hlt, hfield]
    refine decode_cons_eq_ok_iff.mpr ⟨rfl, rfl, ?_⟩
    exact (length_field_iff hlt).mp hfield

/-- What a reader makes of an encoding: past 2^32 bytes the length field has
wrapped, and the blob is refused. -/
theorem decode_encode (v : Value) :
    Value.decode v.encode =
      if (payload v).length < 2 ^ 32 then .ok v
      else .error (.lengthMismatch ((payload v).length % 2 ^ 32) (payload v).length) := by
  by_cases hlt : (payload v).length < 2 ^ 32
  · rw [if_pos hlt]
    exact (decode_eq_ok_iff _ _).mpr ⟨rfl, hlt⟩
  · obtain ⟨b₁, b₂, b₃, b₄, hfield⟩ := exists_length ((payload v).length % 2 ^ 32)
    have hd := (length_field_iff (Nat.mod_lt _ (by decide))).mp hfield
    have hne : (payload v).length ≠ (payload v).length % 2 ^ 32 := by omega
    rw [if_neg hlt, encode_eq, hfield]
    change Value.decode (_ :: b₁ :: b₂ :: b₃ :: b₄ :: payload v) = _
    rw [decode_cons, fromByte_eq_ok_iff.mpr rfl, hd]
    exact if_pos hne

end Exactness

/-- Encoding and decoding are exact in both directions, and decoding is total. -/
theorem value_codec_is_exact :
    (∀ blob v, Value.decode blob = .ok v ↔ blob = v.encode ∧ (payload v).length < 2 ^ 32) ∧
    (∀ blob blob' v, Value.decode blob = .ok v → Value.decode blob' = .ok v → blob = blob') ∧
    (∀ blob, decodeOrPanic blob = (Value.decode blob).mapError some) ∧
    Function.Injective Value.encode := by
  refine ⟨decode_eq_ok_iff, ?_, decode_never_panics, fun _ _ => encode_inj⟩
  intro blob blob' v h h'
  rw [((decode_eq_ok_iff blob v).mp h).1, ((decode_eq_ok_iff blob' v).mp h').1]

end DigIdentity.ValueCodec
