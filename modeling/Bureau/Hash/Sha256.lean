import Bureau.Words

/-!
# SHA-256, HMAC and HKDF

The hash of FIPS 180-4, the keyed hash built from it, and the extract-and-expand derivation of
keys. All of them work on byte strings; a block is sixteen words of 32 bits.
-/

namespace Bureau.Sha256

/-! ### Constants -/

/-- The leading bits of the fractional parts of the cube roots of the first 64 primes. -/
def roundConstants : List UInt32 := [
  0x428a2f98, 0x71374491, 0xb5c0fbcf, 0xe9b5dba5, 0x3956c25b, 0x59f111f1, 0x923f82a4, 0xab1c5ed5,
  0xd807aa98, 0x12835b01, 0x243185be, 0x550c7dc3, 0x72be5d74, 0x80deb1fe, 0x9bdc06a7, 0xc19bf174,
  0xe49b69c1, 0xefbe4786, 0x0fc19dc6, 0x240ca1cc, 0x2de92c6f, 0x4a7484aa, 0x5cb0a9dc, 0x76f988da,
  0x983e5152, 0xa831c66d, 0xb00327c8, 0xbf597fc7, 0xc6e00bf3, 0xd5a79147, 0x06ca6351, 0x14292967,
  0x27b70a85, 0x2e1b2138, 0x4d2c6dfc, 0x53380d13, 0x650a7354, 0x766a0abb, 0x81c2c92e, 0x92722c85,
  0xa2bfe8a1, 0xa81a664b, 0xc24b8b70, 0xc76c51a3, 0xd192e819, 0xd6990624, 0xf40e3585, 0x106aa070,
  0x19a4c116, 0x1e376c08, 0x2748774c, 0x34b0bcb5, 0x391c0cb3, 0x4ed8aa4a, 0x5b9cca4f, 0x682e6ff3,
  0x748f82ee, 0x78a5636f, 0x84c87814, 0x8cc70208, 0x90befffa, 0xa4506ceb, 0xbef9a3f7, 0xc67178f2]

/-- The eight words that are carried from block to block. -/
structure State where
  a : UInt32
  b : UInt32
  c : UInt32
  d : UInt32
  e : UInt32
  f : UInt32
  g : UInt32
  h : UInt32

/-- The leading bits of the fractional parts of the square roots of the first eight primes. -/
def initial : State :=
  ⟨0x6a09e667, 0xbb67ae85, 0x3c6ef372, 0xa54ff53a, 0x510e527f, 0x9b05688c, 0x1f83d9ab, 0x5be0cd19⟩

/-! ### One block -/

/-- The word turned to the right by some bits. -/
def rotate (n : UInt32) (x : UInt32) : UInt32 :=
  (x >>> n) ||| (x <<< (32 - n))

/-- Mixes the word fifteen places back in the schedule. -/
def smallSigma₀ (x : UInt32) : UInt32 := rotate 7 x ^^^ rotate 18 x ^^^ (x >>> 3)

/-- Mixes the word two places back in the schedule. -/
def smallSigma₁ (x : UInt32) : UInt32 := rotate 17 x ^^^ rotate 19 x ^^^ (x >>> 10)

/-- Mixes the first word of the state. -/
def bigSigma₀ (x : UInt32) : UInt32 := rotate 2 x ^^^ rotate 13 x ^^^ rotate 22 x

/-- Mixes the fifth word of the state. -/
def bigSigma₁ (x : UInt32) : UInt32 := rotate 6 x ^^^ rotate 11 x ^^^ rotate 25 x

/-- One step with the sum of its message word and its constant. -/
def step (s : State) (kw : UInt32) : State :=
  let t₁ := s.h + bigSigma₁ s.e + ((s.e &&& s.f) ^^^ (~~~s.e &&& s.g)) + kw
  let t₂ := bigSigma₀ s.a + ((s.a &&& s.b) ^^^ (s.a &&& s.c) ^^^ (s.b &&& s.c))
  ⟨t₁ + t₂, s.a, s.b, s.c, s.d + t₁, s.e, s.f, s.g⟩

/-- The message words from a window of the last sixteen on. -/
def schedule : Nat → List UInt32 → List UInt32
  | 0, _ => []
  | n + 1, window =>
    let next := smallSigma₁ (window.getD 14 0) + window.getD 9 0 + smallSigma₀ (window.getD 1 0) +
      window.getD 0 0
    window.headD 0 :: schedule n (window.drop 1 ++ [next])

/-- The words of a block, four bytes each. -/
def words : Bytes → List UInt32
  | a :: b :: c :: d :: rest => UInt32.ofNat (Bytes.toNat [a, b, c, d]) :: words rest
  | _ => []

/-- The state after a block of 64 bytes: what the rounds make of it is added word by word. -/
def compress (s : State) (block : Bytes) : State :=
  let kws := List.zipWith (· + ·) roundConstants (schedule 64 (words block))
  let t := kws.foldl step s
  ⟨s.a + t.a, s.b + t.b, s.c + t.c, s.d + t.d, s.e + t.e, s.f + t.f, s.g + t.g, s.h + t.h⟩

/-! ### Messages -/

/-- The message with a one bit, zeros up to a whole block, and its length in bits. -/
def pad (message : Bytes) : Bytes :=
  let n := message.length
  message ++ 0x80 :: List.replicate ((119 - n % 64) % 64) 0 ++ Bytes.ofNat 8 (8 * n)

/-- Compresses the blocks of a message one after another; the first argument bounds their number. -/
def compressAll : Nat → State → Bytes → State
  | 0, s, _ => s
  | n + 1, s, message => compressAll n (compress s (message.take 64)) (message.drop 64)

/-- The bytes of the state, which are the digest after the last block. -/
def State.toBytes (s : State) : Bytes :=
  [s.a, s.b, s.c, s.d, s.e, s.f, s.g, s.h].flatMap fun w => Bytes.ofNat 4 w.toNat

/-- The hash of 32 bytes. -/
def hash (message : Bytes) : Bytes :=
  let padded := pad message
  (compressAll (padded.length / 64) initial padded).toBytes

/-! ### Keys -/

/-- The keyed hash: a key longer than a block is hashed first. -/
def hmac (key message : Bytes) : Bytes :=
  let key := if 64 < key.length then hash key else key
  let key := key ++ List.replicate (64 - key.length) 0
  hash (key.map (· ^^^ 0x5c) ++ hash (key.map (· ^^^ 0x36) ++ message))

/-- The pseudorandom key of a secret. -/
def hkdfExtract (salt secret : Bytes) : Bytes :=
  hmac salt secret

/-- The first 32 bytes expanded from a pseudorandom key. -/
def hkdfExpand (key info : Bytes) : Bytes :=
  hmac key (info ++ [0x01])

end Bureau.Sha256
