import DigIdentity.Errors

namespace DigIdentity.Values

open ByteStrings Errors

def headerLen : Nat := 1 + 4

inductive ValueTag
  | utf8
  | bytes
  | u16
  | u32
  | u64
deriving DecidableEq

def ValueTag.toByte : ValueTag → UInt8
  | .utf8 => 0x01
  | .bytes => 0x02
  | .u16 => 0x03
  | .u32 => 0x04
  | .u64 => 0x05

def ValueTag.fromByte (b : UInt8) : Except Error ValueTag :=
  if b = 0x01 then .ok .utf8
  else if b = 0x02 then .ok .bytes
  else if b = 0x03 then .ok .u16
  else if b = 0x04 then .ok .u32
  else if b = 0x05 then .ok .u64
  else .error (.unknownTag b)

def ValueTag.fixedWidth : ValueTag → Option Nat
  | .u16 => some 2
  | .u32 => some 4
  | .u64 => some 8
  | .utf8 | .bytes => none

inductive Value
  | utf8 (s : String)
  | bytes (b : Bytes)
  | u16 (n : UInt16)
  | u32 (n : UInt32)
  | u64 (n : UInt64)
deriving DecidableEq

def utf8Bytes (s : String) : Bytes := s.toUTF8.data.toList

def Value.tagAndPayload : Value → ValueTag × Bytes
  | .utf8 s => (.utf8, utf8Bytes s)
  | .bytes b => (.bytes, b)
  | .u16 n => (.u16, toBe 2 n.toNat)
  | .u32 n => (.u32, toBe 4 n.toNat)
  | .u64 n => (.u64, toBe 8 n.toNat)

/-- The payload length is cast to 32 bits, so it wraps from 2^32 bytes on. -/
def Value.encode (v : Value) : Bytes :=
  let (tag, payload) := v.tagAndPayload
  tag.toByte :: (toBe 4 (UInt32.ofNat payload.length).toNat ++ payload)

def Value.decode (blob : Bytes) : Except Error Value :=
  if h : blob.length < headerLen then .error (.truncatedValue "header shorter than 5 bytes")
  else do
    have hlen : 5 ≤ blob.length := Nat.le_of_not_lt h
    let tag ← ValueTag.fromByte blob[0]
    let declared := ofBe [blob[1], blob[2], blob[3], blob[4]]
    let payload := blob.drop headerLen
    if payload.length ≠ declared then throw (.lengthMismatch declared payload.length)
    if let some width := tag.fixedWidth then
      if payload.length ≠ width then throw (.wrongWidth blob[0] width payload.length)
    match tag with
    | .utf8 =>
        match String.fromUTF8? ⟨payload.toArray⟩ with
        | some s => return .utf8 s
        | none => throw (.truncatedValue "utf8 payload is not valid UTF-8")
    | .bytes => return .bytes payload
    | .u16 => return .u16 (UInt16.ofNat (ofBe (payload.take 2)))
    | .u32 => return .u32 (UInt32.ofNat (ofBe (payload.take 4)))
    | .u64 => return .u64 (UInt64.ofNat (ofBe payload))

theorem encode_ne_nil (v : Value) : v.encode ≠ [] := by
  simp [Value.encode]

theorem utf8Bytes_inj {s t : String} (h : utf8Bytes s = utf8Bytes t) : s = t :=
  String.toByteArray_inj.mp (ByteArray.ext (Array.toList_inj.mp h))

theorem toByte_inj {s t : ValueTag} (h : s.toByte = t.toByte) : s = t := by
  cases s <;> cases t <;> first | rfl | exact absurd h (by decide)

theorem tagAndPayload_inj {v w : Value} (h : v.tagAndPayload = w.tagAndPayload) : v = w := by
  cases v <;> cases w <;> simp only [Value.tagAndPayload, Prod.mk.injEq, reduceCtorEq, false_and,
    true_and] at h
  · exact congrArg Value.utf8 (utf8Bytes_inj h)
  · exact congrArg Value.bytes h
  · exact congrArg Value.u16 (UInt16.toNat_inj.mp (toBe_inj (UInt16.toNat_lt _) (UInt16.toNat_lt _) h))
  · exact congrArg Value.u32 (UInt32.toNat_inj.mp (toBe_inj (UInt32.toNat_lt _) (UInt32.toNat_lt _) h))
  · exact congrArg Value.u64 (UInt64.toNat_inj.mp (toBe_inj (UInt64.toNat_lt _) (UInt64.toNat_lt _) h))

/-- The length field has a fixed width, so the payload is read off behind it
whatever the field says. -/
theorem encode_inj {v w : Value} (h : v.encode = w.encode) : v = w := by
  simp only [Value.encode, List.cons.injEq] at h
  obtain ⟨ht, hr⟩ := h
  obtain ⟨_, hp⟩ := List.append_inj hr (by simp)
  exact tagAndPayload_inj (Prod.ext (toByte_inj ht) hp)

end DigIdentity.Values
