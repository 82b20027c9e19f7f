import DigIdentity.Addresses

namespace DigIdentity.XchAddresses

open ByteStrings Addresses

/-- Mainnet only: a `txch` address has another prefix. -/
def xchAddressHrp : String := "xch"

variable [AddressCodec]

def parseXchAddress (address : String) : Option String :=
  let candidate := trim address
  match AddressCodec.decode candidate with
  | .error _ => none
  | .ok decoded => if decoded.addressPrefix ≠ xchAddressHrp then none else some candidate

def isValidXchAddress (address : String) : Bool := (parseXchAddress address).isSome

/-- A text that decodes, without trimming, to a mainnet address. -/
def DecodesXch (text : String) : Prop :=
  ∃ puzzleHash, AddressCodec.decode text = .ok ⟨puzzleHash, xchAddressHrp⟩

theorem parse_eq_some_iff (address s : String) :
    parseXchAddress address = some s ↔ trim address = s ∧ DecodesXch s := by
  dsimp only [parseXchAddress]
  cases hd : AddressCodec.decode (trim address) with
  | error e =>
      constructor
      · exact nofun
      · rintro ⟨rfl, k, hk⟩
        exact nomatch hd.symm.trans hk
  | ok decoded =>
      obtain ⟨k, addressPrefix⟩ := decoded
      dsimp only
      by_cases hp : addressPrefix = xchAddressHrp
      · subst hp
        rw [if_neg (not_not.mpr rfl), Option.some.injEq]
        constructor
        · rintro rfl
          exact ⟨rfl, k, hd⟩
        · exact And.left
      · rw [if_pos hp]
        constructor
        · exact nofun
        · rintro ⟨rfl, l, hl⟩
          cases hd.symm.trans hl
          exact absurd rfl hp

theorem isValid_iff (address : String) :
    isValidXchAddress address = true ↔ DecodesXch (trim address) := by
  rw [isValidXchAddress, Option.isSome_iff_exists]
  constructor
  · rintro ⟨s, hs⟩
    obtain ⟨rfl, hd⟩ := (parse_eq_some_iff address s).mp hs
    exact hd
  · intro hd
    exact ⟨trim address, (parse_eq_some_iff _ _).mpr ⟨rfl, hd⟩⟩

/-- What the parser returns, it accepts again and leaves alone. -/
theorem parse_parse {address s : String} (h : parseXchAddress address = some s) :
    parseXchAddress s = some s := by
  obtain ⟨rfl, hd⟩ := (parse_eq_some_iff _ _).mp h
  exact (parse_eq_some_iff _ _).mpr ⟨trim_trim address, hd⟩

end DigIdentity.XchAddresses
