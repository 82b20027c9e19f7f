import DigIdentity.ByteStrings

namespace DigIdentity.Addresses

open ByteStrings

structure Address where
  puzzleHash : Bytes32
  addressPrefix : String
deriving DecidableEq

/-- The bech32m `Address` codec of the `chia-sdk-utils` crate. -/
class AddressCodec where
  Error : Type
  decode : String → Except Error Address

/-- The characters `str::trim` removes: those with the property White_Space. -/
def whiteSpace (c : Char) : Bool :=
  let n := c.toNat
  (0x9 ≤ n && n ≤ 0xD) || n == 0x20 || n == 0x85 || n == 0xA0 || n == 0x1680 ||
    (0x2000 ≤ n && n ≤ 0x200A) || n == 0x2028 || n == 0x2029 || n == 0x202F || n == 0x205F || n == 0x3000

def trim (s : String) : String :=
  String.ofList ((s.toList.dropWhile whiteSpace).rdropWhile whiteSpace)

theorem dropWhile_rdropWhile {α : Type} (p : α → Bool) (l : List α) :
    ((l.dropWhile p).rdropWhile p).dropWhile p = (l.dropWhile p).rdropWhile p := by
  rw [List.dropWhile_eq_self_iff]
  intro hl
  have hpre := List.rdropWhile_prefix p (l := l.dropWhile p)
  rw [hpre.getElem hl]
  exact List.dropWhile_get_zero_not p l _

theorem trim_trim (s : String) : trim (trim s) = trim s := by
  rw [trim, trim, String.toList_ofList, dropWhile_rdropWhile, List.rdropWhile_idempotent]

theorem trim_of_no_whiteSpace {s : String} (h : ∀ c ∈ s.toList, whiteSpace c = false) : trim s = s := by
  have hd : s.toList.dropWhile whiteSpace = s.toList := by
    rw [List.dropWhile_eq_self_iff]
    intro hl
    simp [h _ (List.getElem_mem hl)]
  have hr : s.toList.rdropWhile whiteSpace = s.toList := by
    rw [List.rdropWhile_eq_self_iff]
    intro hl
    simp [h _ (List.getLast_mem hl)]
  rw [trim, hd, hr, String.ofList_toList]

end DigIdentity.Addresses
