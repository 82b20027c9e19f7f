import DigIdentity.References

namespace DigIdentity.PaymentAddresses

open Slots Values Profiles Addresses XchAddresses IdentityProfiles

section Contract

variable [AddressCodec]

/-- What a payer relies on: the address handed out for a stored text is the one
the text parses to, and it is an address as it stands. -/
structure Payable (stored handed : Option String) : Prop where
  parsed : handed = stored.bind parseXchAddress
  decodes : ∀ s, handed = some s → DecodesXch s
  canonical : ∀ s, handed = some s → parseXchAddress s = some s

/-- No address is stored with blanks around it; other texts may have them. -/
def Unpadded (stored : Option String) : Prop :=
  ∀ s, stored = some s → DecodesXch (trim s) → trim s = s

def RejectsPadding : Prop :=
  ∀ s address, AddressCodec.decode s = .ok address → trim s = s

theorem xchAddress_eq_some_iff (p : Profile) (s : String) :
    p.xchAddress = some s ↔ p.utf8 standard.xchAddress = some s ∧ DecodesXch (trim s) := by
  rw [Profile.xchAddress]
  cases p.utf8 standard.xchAddress with
  | none => simp
  | some raw =>
      by_cases hv : isValidXchAddress raw = true
      · have hd := (isValid_iff raw).mp hv
        simp only [Option.bind_eq_bind, Option.bind_some, hv, if_true, Option.some.injEq]
        constructor
        · rintro rfl
          exact ⟨rfl, hd⟩
        · exact And.left
      · simp only [Option.bind_eq_bind, Option.bind_some, hv, Bool.false_eq_true, if_false,
          reduceCtorEq, Option.some.injEq, false_iff]
        rintro ⟨rfl, hd⟩
        exact hv ((isValid_iff _).mpr hd)

theorem parsed_of_unpadded {p : Profile} (h : Unpadded (p.utf8 standard.xchAddress)) :
    p.xchAddress = (p.utf8 standard.xchAddress).bind parseXchAddress := by
  ext s
  rw [xchAddress_eq_some_iff, Option.bind_eq_some_iff]
  constructor
  · rintro ⟨hs, hd⟩
    have ht := h s hs hd
    exact ⟨s, hs, (parse_eq_some_iff s s).mpr ⟨ht, ht ▸ hd⟩⟩
  · rintro ⟨raw, hraw, hparse⟩
    obtain ⟨rfl, hd⟩ := (parse_eq_some_iff raw s).mp hparse
    have ht := h raw hraw hd
    rw [ht]
    exact ⟨hraw, hd⟩

theorem payable_iff_unpadded (p : Profile) :
    Payable (p.utf8 standard.xchAddress) p.xchAddress ↔ Unpadded (p.utf8 standard.xchAddress) := by
  constructor
  · intro hp s hs hd
    have hout := hp.canonical s ((xchAddress_eq_some_iff p s).mpr ⟨hs, hd⟩)
    exact ((parse_eq_some_iff s s).mp hout).1
  · intro h
    have hout : ∀ s, p.xchAddress = some s → parseXchAddress s = some s := by
      intro s hs
      rw [parsed_of_unpadded h] at hs
      obtain ⟨raw, _, hparse⟩ := Option.bind_eq_some_iff.mp hs
      exact parse_parse hparse
    exact ⟨parsed_of_unpadded h, fun s hs => ((parse_eq_some_iff s s).mp (hout s hs)).2, hout⟩

/-- A codec that rejects padding rejects every padded address handed out. -/
theorem decodes_iff_unpadded (hcodec : RejectsPadding) (p : Profile) :
    (∀ s, p.xchAddress = some s → DecodesXch s) ↔ Unpadded (p.utf8 standard.xchAddress) := by
  constructor
  · intro hdec s hs hd
    obtain ⟨k, hk⟩ := hdec s ((xchAddress_eq_some_iff p s).mpr ⟨hs, hd⟩)
    exact hcodec s _ hk
  · intro h
    exact ((payable_iff_unpadded p).mpr h).decodes

end Contract

/-- The accessor hands out the stored text, not the trimmed one that it checked:
what it hands out is payable just when no address is stored padded. -/
theorem payment_address_iff_unpadded [AddressCodec] :
    (∀ p : Profile,
      Payable (p.utf8 standard.xchAddress) p.xchAddress ↔ Unpadded (p.utf8 standard.xchAddress)) ∧
    (∀ p : IdentityProfile,
      Payable (p.metadata.utf8 standard.xchAddress) p.xchAddress ↔
        Unpadded (p.metadata.utf8 standard.xchAddress)) ∧
    (RejectsPadding → ∀ p : Profile,
      (∀ s, p.xchAddress = some s → DecodesXch s) ↔ Unpadded (p.utf8 standard.xchAddress)) :=
  ⟨payable_iff_unpadded, fun p => payable_iff_unpadded p.metadata, decodes_iff_unpadded⟩

section Sample

open References

theorem rejectsPadding : RejectsPadding := fun _ _ => decodeAddress_trimmed

def xchText : String := "xch19g4z52329g4z52329g4z52329g4z52329g4z52329g4z52329g4qt3exma"

def paddedText : String := " " ++ xchText ++ "\n"

def payee (text : String) : Profile := sampleProfile.set standard.xchAddress (.utf8 text)

theorem xchText_decodes : DecodesXch xchText := by
  refine ⟨coinId 42, ?_⟩
  change decodeAddress xchText = .ok ⟨coinId 42, xchAddressHrp⟩
  decide +kernel

theorem trim_paddedText : trim paddedText = xchText := by decide +kernel

theorem payee_utf8 (text : String) : (payee text).utf8 standard.xchAddress = some text := by
  rw [Profile.utf8, payee, Profile.get_set, if_pos rfl]

/-- A padded address is handed out with its padding, and nobody can pay to it. -/
theorem padded_address_handed_out :
    RejectsPadding ∧ (payee paddedText).xchAddress = some paddedText ∧
      (sampleIdentity (payee paddedText)).xchAddress = some paddedText ∧
      parseXchAddress paddedText = some xchText ∧ paddedText ≠ xchText ∧
      parseXchAddress paddedText ≠ some paddedText ∧ ¬DecodesXch paddedText := by
  have hne : paddedText ≠ xchText := by decide +kernel
  have hout : (payee paddedText).xchAddress = some paddedText :=
    (xchAddress_eq_some_iff _ _).mpr ⟨payee_utf8 _, trim_paddedText ▸ xchText_decodes⟩
  have hparse : parseXchAddress paddedText = some xchText :=
    (parse_eq_some_iff _ _).mpr ⟨trim_paddedText, xchText_decodes⟩
  refine ⟨rejectsPadding, hout, hout, hparse, hne, ?_, ?_⟩
  · rw [hparse]
    exact fun h => hne (Option.some.inj h).symm
  · rintro ⟨k, hk⟩
    exact hne ((rejectsPadding _ _ hk).symm.trans trim_paddedText)

theorem payee_payable :
    Unpadded ((payee xchText).utf8 standard.xchAddress) ∧
      Payable ((payee xchText).utf8 standard.xchAddress) (payee xchText).xchAddress ∧
      ¬∀ s, (payee paddedText).xchAddress = some s → DecodesXch s := by
  obtain ⟨hpayable, _, hdecodes⟩ := payment_address_iff_unpadded
  have hu : Unpadded ((payee xchText).utf8 standard.xchAddress) := by
    intro s hs _
    rw [payee_utf8, Option.some.injEq] at hs
    subst hs
    decide +kernel
  refine ⟨hu, (hpayable _).mpr hu, fun h => ?_⟩
  have ht := (hdecodes rejectsPadding _).mp h paddedText (payee_utf8 _) (trim_paddedText ▸ xchText_decodes)
  exact absurd ht (by decide +kernel)

end Sample

end DigIdentity.PaymentAddresses
