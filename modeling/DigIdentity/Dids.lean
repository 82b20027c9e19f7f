import DigIdentity.Addresses

namespace DigIdentity.Dids

open ByteStrings Addresses

def didChiaPrefix : String := "did:chia:"

variable [AddressCodec]

/-- A text that decodes, without trimming, to an address with the DID prefix. -/
def Decodes (text : String) (launcherId : Bytes32) : Prop :=
  AddressCodec.decode text = .ok ⟨launcherId, didChiaPrefix⟩

/-- A DID, together with the evidence that its text is one: a `Did` is only
ever built by parsing. -/
structure Did where
  text : String
  launcherId : Bytes32
  trimmed : trim text = text
  decodes : Decodes text launcherId
deriving DecidableEq

def parseDidFromDescription (description : String) : Option Did :=
  let candidate := trim description
  match h : AddressCodec.decode candidate with
  | .error _ => none
  | .ok address =>
      if hp : address.addressPrefix = didChiaPrefix then
        some ⟨candidate, address.puzzleHash, trim_trim description, by rw [Decodes, h, ← hp]⟩
      else none

def Did.parse (did : String) : Option Did := parseDidFromDescription did

theorem Decodes.unique {text : String} {k l : Bytes32} (hk : Decodes text k) (hl : Decodes text l) :
    k = l := by
  rw [Decodes, hl, Except.ok.injEq, Address.mk.injEq] at hk
  exact hk.1.symm

theorem Did.ext_text {did did' : Did} (h : did.text = did'.text) : did = did' := by
  obtain ⟨text, k, _, hk⟩ := did
  obtain ⟨text', l, _, hl⟩ := did'
  cases h
  cases hk.unique hl
  rfl

theorem parse_eq_some_iff (description : String) (did : Did) :
    parseDidFromDescription description = some did ↔ trim description = did.text := by
  dsimp only [parseDidFromDescription]
  constructor
  · intro h
    split at h
    · exact nomatch h
    · split at h
      · rw [← Option.some.inj h]
      · exact nomatch h
  · intro h
    have hd := did.decodes
    split
    · next e he =>
        rw [h, hd] at he
        exact nomatch he
    · next address he =>
        rw [h, hd, Except.ok.injEq] at he
        subst he
        simp only [dite_true, Option.some.injEq]
        exact Did.ext_text h

theorem parse_eq_none_iff (description : String) :
    parseDidFromDescription description = none ↔ ∀ k, ¬Decodes (trim description) k := by
  constructor
  · intro h k hk
    have hs := (parse_eq_some_iff description ⟨trim description, k, trim_trim _, hk⟩).mpr rfl
    exact nomatch h.symm.trans hs
  · intro h
    cases hp : parseDidFromDescription description with
    | none => rfl
    | some did => exact absurd ((parse_eq_some_iff _ _).mp hp ▸ did.decodes) (h did.launcherId)

end DigIdentity.Dids
