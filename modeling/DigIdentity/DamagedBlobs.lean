import DigIdentity.ValueCodec

namespace DigIdentity.DamagedBlobs

open ByteStrings Errors Values ValueCodec

section Frames

variable {b b₁ b₂ b₃ b₄ : UInt8} {bytes : Bytes} {v : Value}

/-- The parts of an accepted blob. -/
theorem exists_frame {blob : Bytes} (h : Value.decode blob = .ok v) :
    ∃ b₁ b₂ b₃ b₄, blob = v.tagAndPayload.1.toByte :: b₁ :: b₂ :: b₃ :: b₄ :: payload v ∧
      ofBe [b₁, b₂, b₃, b₄] = (payload v).length := by
  obtain ⟨rfl, hlt⟩ := (decode_eq_ok_iff blob v).mp h
  obtain ⟨b₁, b₂, b₃, b₄, hfield⟩ := exists_length (payload v).length
  refine ⟨b₁, b₂, b₃, b₄, ?_, (length_field_iff hlt).mp hfield⟩
  rw [encode_eq, Nat.mod_eq_of_lt hlt, hfield]
  rfl

/-- Behind a known tag, the length field is compared before anything else. -/
theorem decode_wrong_length (tag : ValueTag) (h : bytes.length ≠ ofBe [b₁, b₂, b₃, b₄]) :
    Value.decode (tag.toByte :: b₁ :: b₂ :: b₃ :: b₄ :: bytes) =
      .error (.lengthMismatch (ofBe [b₁, b₂, b₃, b₄]) bytes.length) := by
  rw [decode_cons, fromByte_eq_ok_iff.mpr rfl]
  exact if_pos h

theorem decode_short {blob : Bytes} (h : blob.length < headerLen) :
    Value.decode blob = .error (.truncatedValue "header shorter than 5 bytes") := by
  rw [Value.decode, dif_pos h]

theorem take_frame {n : Nat} (hn : headerLen ≤ n) :
    (b :: b₁ :: b₂ :: b₃ :: b₄ :: bytes).take n =
      b :: b₁ :: b₂ :: b₃ :: b₄ :: bytes.take (n - headerLen) := by
  obtain ⟨k, rfl⟩ := Nat.exists_eq_add_of_le' hn
  rw [Nat.add_sub_cancel]
  rfl

/-- Every cut of an accepted blob. -/
theorem decode_take {blob : Bytes} (h : Value.decode blob = .ok v) {n : Nat} (hn : n < blob.length) :
    Value.decode (blob.take n) = .error (if n < headerLen then
      .truncatedValue "header shorter than 5 bytes"
      else .lengthMismatch (payload v).length (n - headerLen)) := by
  obtain ⟨b₁, b₂, b₃, b₄, rfl, hfield⟩ := exists_frame h
  by_cases hs : n < headerLen
  · rw [if_pos hs]
    exact decode_short (lt_of_le_of_lt (List.length_take_le ..) hs)
  · have hcut : n - headerLen < (payload v).length := by
      simp only [List.length_cons, headerLen] at hn hs ⊢
      omega
    have hlen : ((payload v).take (n - headerLen)).length = n - headerLen :=
      List.length_take_of_le hcut.le
    rw [if_neg hs, take_frame (Nat.le_of_not_lt hs), decode_wrong_length _ (by omega), hfield, hlen]

theorem decode_append {blob extra : Bytes} (h : Value.decode blob = .ok v) (he : extra ≠ []) :
    Value.decode (blob ++ extra) =
      .error (.lengthMismatch (payload v).length ((payload v).length + extra.length)) := by
  obtain ⟨b₁, b₂, b₃, b₄, rfl, hfield⟩ := exists_frame h
  have hpos := List.length_pos_iff.mpr he
  have hne : (payload v ++ extra).length ≠ ofBe [b₁, b₂, b₃, b₄] := by
    rw [hfield, List.length_append]
    omega
  have hlen := decode_wrong_length v.tagAndPayload.1 hne
  rwa [hfield, List.length_append] at hlen

/-- No accepted blob is the start of another. -/
theorem eq_of_prefix {blob blob' : Bytes} {w : Value} (h : Value.decode blob = .ok v)
    (h' : Value.decode blob' = .ok w) (hp : blob <+: blob') : blob = blob' ∧ v = w := by
  obtain ⟨extra, rfl⟩ := hp
  cases extra with
  | nil =>
      rw [List.append_nil] at h' ⊢
      exact ⟨rfl, Except.ok.inj (h.symm.trans h')⟩
  | cons byte extra =>
      rw [decode_append h (List.cons_ne_nil byte extra)] at h'
      exact nomatch h'

end Frames

/-- What becomes of an accepted blob that is cut short, run over its end or has
another length field: it is refused, and the error gives both lengths. So no
accepted blob starts another. A changed tag alone can be accepted, as a value
of the new kind with the same payload. -/
theorem damaged_blobs_are_refused {blob : Bytes} {v : Value} (h : Value.decode blob = .ok v) :
    (∀ n < blob.length, Value.decode (blob.take n) = .error (if n < headerLen then
      .truncatedValue "header shorter than 5 bytes"
      else .lengthMismatch (payload v).length (n - headerLen))) ∧
    (∀ extra, extra ≠ [] → Value.decode (blob ++ extra) =
      .error (.lengthMismatch (payload v).length ((payload v).length + extra.length))) ∧
    (∀ b₁ b₂ b₃ b₄, [b₁, b₂, b₃, b₄] ≠ (blob.drop 1).take 4 →
      Value.decode (blob.take 1 ++ [b₁, b₂, b₃, b₄] ++ payload v) =
        .error (.lengthMismatch (ofBe [b₁, b₂, b₃, b₄]) (payload v).length)) ∧
    (∀ blob' w, Value.decode blob' = .ok w → blob <+: blob' → blob = blob' ∧ v = w) ∧
    (∀ b w, Value.decode (b :: blob.tail) = .ok w ↔
      w.tagAndPayload.1.toByte = b ∧ payload w = payload v) := by
  obtain ⟨c₁, c₂, c₃, c₄, hb, hfield⟩ := exists_frame h
  refine ⟨fun n => decode_take h, fun extra => decode_append h, ?_, fun _ _ => eq_of_prefix h, ?_⟩
  · intro b₁ b₂ b₃ b₄ hne
    have hlt := ((decode_eq_ok_iff blob v).mp h).2
    have hlen : (payload v).length ≠ ofBe [b₁, b₂, b₃, b₄] := by
      intro he
      apply hne
      rw [hb]
      exact ((length_field_iff hlt).mpr he.symm).symm.trans ((length_field_iff hlt).mpr hfield)
    rw [hb]
    exact decode_wrong_length _ hlen
  · intro b w
    rw [hb]
    refine decode_cons_eq_ok_iff.trans ?_
    simp [hfield]

/-- A cut payload, and the same payload as a text instead of bytes. -/
theorem greeting_damaged :
    Value.decode ((Value.bytes [104, 105]).encode.take 6) = .error (.lengthMismatch 2 1) ∧
      Value.decode (0x01 :: (Value.bytes [104, 105]).encode.tail) = .ok (.utf8 "hi") := by
  have h : Value.decode (Value.bytes [104, 105]).encode = .ok (.bytes [104, 105]) := by decide +kernel
  obtain ⟨hcut, _, _, _, htag⟩ := damaged_blobs_are_refused h
  refine ⟨hcut 6 (by decide), (htag 0x01 (.utf8 "hi")).mpr ?_⟩
  decide +kernel

end DigIdentity.DamagedBlobs
