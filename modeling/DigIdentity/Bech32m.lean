import DigIdentity.ByteStrings

namespace DigIdentity.Bech32m

open ByteStrings

def charset : List Char := "qpzry9x8gf2tvdw0s3jn54khce6mua7l".toList

def generators : List Nat := [0x3b6a57b2, 0x26508e6d, 0x1ea119fa, 0x3d4233dd, 0x2a1462b3]

def polymod (values : List Nat) : Nat :=
  values.foldl (fun checksum v =>
    let top := checksum >>> 25
    generators.zipIdx.foldl (fun c g => if top.testBit g.2 then c ^^^ g.1 else c)
      (((checksum &&& 0x1ffffff) <<< 5) ^^^ v)) 1

def expand (hrp : List Char) : List Nat :=
  hrp.map (fun c => c.toNat >>> 5) ++ 0 :: hrp.map (fun c => c.toNat &&& 31)

def printable (c : Char) : Bool := 33 ≤ c.toNat && c.toNat ≤ 126

def singleCase (chars : List Char) : Bool := chars.all (!·.isUpper) || chars.all (!·.isLower)

/-- Regroup 5-bit digits into bytes; the bits left over are fewer than five and zero. -/
def regroup (digits : List Nat) : Option Bytes :=
  let value := digits.foldl (fun n d => n * 32 + d) 0
  let bits := 5 * digits.length
  if bits % 8 < 5 ∧ value % 2 ^ (bits % 8) = 0 then some (toBe (bits / 8) (value >>> (bits % 8)))
  else none

/-- The human-readable part, in lower case, and the payload of a bech32m string. -/
def decode (s : String) : Option (String × Bytes) := do
  let chars := s.toList
  guard (chars.all printable && singleCase chars)
  let lower := chars.map Char.toLower
  let data := lower.rtakeWhile (· ≠ '1')
  let hrp := lower.take (lower.length - data.length - 1)
  guard ('1' ∈ lower ∧ hrp ≠ [] ∧ hrp.length ≤ 83 ∧ 6 ≤ data.length)
  let digits ← data.mapM fun c => charset.idxOf? c
  guard (polymod (expand hrp ++ digits) = 0x2bc830a3)
  let payload ← regroup (digits.take (digits.length - 6))
  return (String.ofList hrp, payload)

/-- A string with a blank in it, anywhere, is no bech32m string. -/
theorem printable_of_decode {s : String} {r : String × Bytes} (h : decode s = some r) :
    ∀ c ∈ s.toList, printable c = true := by
  by_cases hg : (s.toList.all printable && singleCase s.toList) = true
  · exact List.all_eq_true.mp (Bool.and_eq_true_iff.mp hg).1
  · simp [decode, hg] at h

example : decode "did:chia:19g4z52329g4z52329g4z52329g4z52329g4z52329g4z52329g4qujx6pd" =
    some ("did:chia:", List.replicate 32 42) := by decide +kernel

end DigIdentity.Bech32m
