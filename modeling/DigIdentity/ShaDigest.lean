import DigIdentity.ByteStrings

namespace DigIdentity.ShaDigest

open ByteStrings

def rotr (x n : Nat) : Nat := (x >>> n) ||| ((x <<< (32 - n)) % 2 ^ 32)

def add (x y : Nat) : Nat := (x + y) % 2 ^ 32

def bigSigma0 (x : Nat) : Nat := rotr x 2 ^^^ rotr x 13 ^^^ rotr x 22

def bigSigma1 (x : Nat) : Nat := rotr x 6 ^^^ rotr x 11 ^^^ rotr x 25

def smallSigma0 (x : Nat) : Nat := rotr x 7 ^^^ rotr x 18 ^^^ (x >>> 3)

def smallSigma1 (x : Nat) : Nat := rotr x 17 ^^^ rotr x 19 ^^^ (x >>> 10)

def choose (x y z : Nat) : Nat := (x &&& y) ^^^ ((x ^^^ 0xffffffff) &&& z)

def majority (x y z : Nat) : Nat := (x &&& y) ^^^ (x &&& z) ^^^ (y &&& z)

def roundConstants : List Nat := [
  0x428a2f98, 0x71374491, 0xb5c0fbcf, 0xe9b5dba5, 0x3956c25b, 0x59f111f1, 0x923f82a4, 0xab1c5ed5,
  0xd807aa98, 0x12835b01, 0x243185be, 0x550c7dc3, 0x72be5d74, 0x80deb1fe, 0x9bdc06a7, 0xc19bf174,
  0xe49b69c1, 0xefbe4786, 0x0fc19dc6, 0x240ca1cc, 0x2de92c6f, 0x4a7484aa, 0x5cb0a9dc, 0x76f988da,
  0x983e5152, 0xa831c66d, 0xb00327c8, 0xbf597fc7, 0xc6e00bf3, 0xd5a79147, 0x06ca6351, 0x14292967,
  0x27b70a85, 0x2e1b2138, 0x4d2c6dfc, 0x53380d13, 0x650a7354, 0x766a0abb, 0x81c2c92e, 0x92722c85,
  0xa2bfe8a1, 0xa81a664b, 0xc24b8b70, 0xc76c51a3, 0xd192e819, 0xd6990624, 0xf40e3585, 0x106aa070,
  0x19a4c116, 0x1e376c08, 0x2748774c, 0x34b0bcb5, 0x391c0cb3, 0x4ed8aa4a, 0x5b9cca4f, 0x682e6ff3,
  0x748f82ee, 0x78a5636f, 0x84c87814, 0x8cc70208, 0x90befffa, 0xa4506ceb, 0xbef9a3f7, 0xc67178f2]

structure Working where
  a : Nat
  b : Nat
  c : Nat
  d : Nat
  e : Nat
  f : Nat
  g : Nat
  h : Nat

def initial : Working :=
  ⟨0x6a09e667, 0xbb67ae85, 0x3c6ef372, 0xa54ff53a, 0x510e527f, 0x9b05688c, 0x1f83d9ab, 0x5be0cd19⟩

def round (s : Working) (constant word : Nat) : Working :=
  let t := s.h + bigSigma1 s.e + choose s.e s.f s.g + constant + word
  ⟨add t (bigSigma0 s.a + majority s.a s.b s.c), s.a, s.b, s.c, add s.d t, s.e, s.f, s.g⟩

def nextWord (window : List Nat) : Nat :=
  match window with
  | [w0, w1, _, _, _, _, _, _, _, w9, _, _, _, _, w14, _] =>
      add (w0 + smallSigma0 w1) (w9 + smallSigma1 w14)
  | _ => 0

def rounds : List Nat → List Nat → Working → Working
  | constant :: constants, word :: window, s =>
      rounds constants (window ++ [nextWord (word :: window)]) (round s constant word)
  | _, _, s => s

def words : Bytes → List Nat
  | a :: b :: c :: d :: rest => ofBe [a, b, c, d] :: words rest
  | _ => []

def compress (s : Working) (block : Bytes) : Working :=
  let r := rounds roundConstants (words block) s
  ⟨add s.a r.a, add s.b r.b, add s.c r.c, add s.d r.d, add s.e r.e, add s.f r.f, add s.g r.g,
    add s.h r.h⟩

def compressAll : Nat → Bytes → Working → Working
  | 0, _, s => s
  | n + 1, bytes, s => compressAll n (bytes.drop 64) (compress s (bytes.take 64))

def pad (message : Bytes) : Bytes :=
  message ++ 0x80 :: List.replicate ((119 - message.length % 64) % 64) 0 ++ toBe 8 (8 * message.length)

def Working.bytes (s : Working) : Bytes :=
  toBe 4 s.a ++ toBe 4 s.b ++ toBe 4 s.c ++ toBe 4 s.d ++ toBe 4 s.e ++ toBe 4 s.f ++ toBe 4 s.g ++
    toBe 4 s.h

/-- SHA-256, executable on small messages. -/
def shaDigest (message : Bytes) : Bytes32 :=
  let padded := pad message
  ⟨(compressAll (padded.length / 64) padded initial).bytes.toArray, by simp [Working.bytes]⟩

example : ofBe (shaDigest [0x61, 0x62, 0x63]).toList =
    0xba7816bf8f01cfea414140de5dae2223b00361a396177a9cb410ff61f20015ad := by decide +kernel

end DigIdentity.ShaDigest
