/-
# SHA-256

The hash function of FIPS 180-4 over lists of bytes, on words kept as natural
numbers below `2 ^ 32`.  The development needs no property of the hash beyond
the shape of its hexadecimal form; where a result depends on two inputs not
colliding, that is a hypothesis of the result about the inputs in question.
-/

import MncsCommons.Data.Json

namespace MncsCommons.Data

namespace Sha256

/-- Addition modulo `2 ^ 32`. -/
def add (a b : Nat) : Nat := (a + b) % 4294967296

/-- Rotation to the right in a 32-bit word. -/
def rotr (n x : Nat) : Nat := (x >>> n) ||| ((x <<< (32 - n)) % 4294967296)

def smallSigma0 (x : Nat) : Nat := rotr 7 x ^^^ rotr 18 x ^^^ (x >>> 3)

def smallSigma1 (x : Nat) : Nat := rotr 17 x ^^^ rotr 19 x ^^^ (x >>> 10)

def bigSigma0 (x : Nat) : Nat := rotr 2 x ^^^ rotr 13 x ^^^ rotr 22 x

def bigSigma1 (x : Nat) : Nat := rotr 6 x ^^^ rotr 11 x ^^^ rotr 25 x

def choose (x y z : Nat) : Nat := (x &&& y) ^^^ ((4294967295 - x) &&& z)

def majority (x y z : Nat) : Nat := (x &&& y) ^^^ (x &&& z) ^^^ (y &&& z)

/-- The round constants. -/
def roundConstants : List Nat := [
  0x428a2f98, 0x71374491, 0xb5c0fbcf, 0xe9b5dba5, 0x3956c25b, 0x59f111f1, 0x923f82a4, 0xab1c5ed5,
  0xd807aa98, 0x12835b01, 0x243185be, 0x550c7dc3, 0x72be5d74, 0x80deb1fe, 0x9bdc06a7, 0xc19bf174,
  0xe49b69c1, 0xefbe4786, 0x0fc19dc6, 0x240ca1cc, 0x2de92c6f, 0x4a7484aa, 0x5cb0a9dc, 0x76f988da,
  0x983e5152, 0xa831c66d, 0xb00327c8, 0xbf597fc7, 0xc6e00bf3, 0xd5a79147, 0x06ca6351, 0x14292967,
  0x27b70a85, 0x2e1b2138, 0x4d2c6dfc, 0x53380d13, 0x650a7354, 0x766a0abb, 0x81c2c92e, 0x92722c85,
  0xa2bfe8a1, 0xa81a664b, 0xc24b8b70, 0xc76c51a3, 0xd192e819, 0xd6990624, 0xf40e3585, 0x106aa070,
  0x19a4c116, 0x1e376c08, 0x2748774c, 0x34b0bcb5, 0x391c0cb3, 0x4ed8aa4a, 0x5b9cca4f, 0x682e6ff3,
  0x748f82ee, 0x78a5636f, 0x84c87814, 0x8cc70208, 0x90befffa, 0xa4506ceb, 0xbef9a3f7, 0xc67178f2]

/-- The eight working variables. -/
structure State where
  a : Nat
  b : Nat
  c : Nat
  d : Nat
  e : Nat
  f : Nat
  g : Nat
  h : Nat

/-- The initial hash value. -/
def initial : State :=
  ⟨0x6a09e667, 0xbb67ae85, 0x3c6ef372, 0xa54ff53a, 0x510e527f, 0x9b05688c, 0x1f83d9ab, 0x5be0cd19⟩

/-- The rounds of one block, one for each remaining constant. The second list
holds the next sixteen words of the message schedule. -/
def rounds : List Nat → List Nat → State → State
  | k :: ks, w0 :: w1 :: w2 :: w3 :: w4 :: w5 :: w6 :: w7 :: w8 :: w9 :: w10 :: w11 :: w12 ::
      w13 :: w14 :: w15 :: _, ⟨a, b, c, d, e, f, g, h⟩ =>
      let t1 := add (add (add h (bigSigma1 e)) (add (choose e f g) k)) w0
      let t2 := add (bigSigma0 a) (majority a b c)
      let w16 := add (add (smallSigma1 w14) w9) (add (smallSigma0 w1) w0)
      rounds ks [w1, w2, w3, w4, w5, w6, w7, w8, w9, w10, w11, w12, w13, w14, w15, w16]
        ⟨add t1 t2, a, b, c, add d t1, e, f, g⟩
  | _, _, state => state

/-- One block. -/
def compress (s : State) (block : List Nat) : State :=
  let r := rounds roundConstants block s
  ⟨add s.a r.a, add s.b r.b, add s.c r.c, add s.d r.d, add s.e r.e, add s.f r.f, add s.g r.g,
    add s.h r.h⟩

/-- Big-endian words. -/
def words : List Nat → List Nat
  | a :: b :: c :: d :: rest => (((a * 256 + b) * 256 + c) * 256 + d) :: words rest
  | _ => []

/-- The blocks of a padded message, in order. -/
def blocks : Nat → List Nat → State → State
  | 0, _, state => state
  | n + 1, message, state => blocks n (message.drop 16) (compress state (message.take 16))

/-- The message followed by a one bit, zeros and its length in bits. -/
def pad (bytes : List Nat) : List Nat :=
  bytes ++ 0x80 :: List.replicate ((119 - bytes.length % 64) % 64) 0 ++
    (List.range 8).map fun i => 8 * bytes.length / 256 ^ (7 - i) % 256

/-- A word as eight hexadecimal digits. -/
def hexWord (word : Nat) : Text :=
  [28, 24, 20, 16, 12, 8, 4, 0].map fun shift => Nat.digitChar ((word >>> shift) % 16)

end Sha256

open Sha256

/-- The bytes of a text in UTF-8. -/
def utf8 (text : Text) : List Nat :=
  text.flatMap fun c => (String.utf8EncodeChar c).map UInt8.toNat

/-- The lower-case hexadecimal form of the SHA-256 hash of a text. -/
def sha256Hex (text : Text) : Text :=
  let message := words (pad (utf8 text))
  let state := blocks (message.length / 16) message initial
  [state.a, state.b, state.c, state.d, state.e, state.f, state.g, state.h].flatMap hexWord

/-- The lower-case hexadecimal form of the SHA-256 hash of bytes. -/
def sha256HexBytes (bytes : List Nat) : Text :=
  let message := words (pad bytes)
  let state := blocks (message.length / 16) message initial
  [state.a, state.b, state.c, state.d, state.e, state.f, state.g, state.h].flatMap hexWord

theorem sha256Hex_eq (text : Text) : sha256Hex text = sha256HexBytes (utf8 text) := rfl

theorem length_sha256Hex (text : Text) : (sha256Hex text).length = 64 := by
  simp [sha256Hex, hexWord]

/-- A lower-case hexadecimal digit. -/
def isLowerHex (c : Char) : Bool := c.isDigit || ('a' ≤ c && c ≤ 'f')

theorem isLowerHex_of_mem_sha256Hex {text : Text} {c : Char} (h : c ∈ sha256Hex text) :
    isLowerHex c = true := by
  have hdigit : ∀ n < 16, isLowerHex (Nat.digitChar n) = true := by decide
  simp only [sha256Hex, hexWord, List.mem_flatMap, List.mem_map] at h
  obtain ⟨_, _, _, _, rfl⟩ := h
  exact hdigit _ (Nat.mod_lt _ (by decide))

example : sha256Hex ['a', 'b', 'c'] =
    "ba7816bf8f01cfea414140de5dae2223b00361a396177a9cb410ff61f20015ad".toList := by
  decide +kernel

end MncsCommons.Data
