import Bureau.Cipher.Aes256

/-!
# Galois counter mode

Authenticated encryption with AES-256, a nonce of twelve bytes and a tag of sixteen. The text is
added to a key stream of enciphered counters; the tag is an enciphered counter added to a
polynomial hash of what is authenticated, in the field of `2¹²⁸` elements.
-/

namespace Bureau.Gcm

/-! ### The polynomial hash

A field element is a block read as a number; its most significant bit is the coefficient of
`x⁰`. -/

/-- The remainder of `x¹²⁸`: `1 + x + x² + x⁷`. -/
def remainder : BitVec 128 := 0xe1#128 <<< 120

/-- Multiplication by `x`. -/
def timesX (v : BitVec 128) : BitVec 128 :=
  if v.getLsbD 0 then (v >>> 1) ^^^ remainder else v >>> 1

/-- Adds to `sum` the products of `v` with the last `n` coefficients of `x`. -/
def mulFrom (x : BitVec 128) : Nat → BitVec 128 → BitVec 128 → BitVec 128
  | 0, sum, _ => sum
  | n + 1, sum, v => mulFrom x n (if x.getLsbD n then sum ^^^ v else sum) (timesX v)

/-- The product of two field elements. -/
def mul (x y : BitVec 128) : BitVec 128 :=
  mulFrom x 128 0 y

/-- The field elements of a byte string, sixteen bytes each, the last one filled up with zeros. -/
def elements (bytes : Bytes) : List (BitVec 128) :=
  (List.range ((bytes.length + 15) / 16)).map fun i =>
    let block := (bytes.drop (16 * i)).take 16
    BitVec.ofNat 128 (Bytes.toNat (block ++ List.replicate (16 - block.length) 0))

/-- The value of the polynomial with these coefficients, from the highest one down, times `h`. -/
def hashElements (h : BitVec 128) (xs : List (BitVec 128)) : BitVec 128 :=
  xs.foldl (fun y x => mul (y ^^^ x) h) 0

/-- The lengths in bits of what is authenticated only and of what is enciphered as well. -/
def lengths (aad ciphertext : Bytes) : BitVec 128 :=
  BitVec.ofNat 128 (8 * aad.length * twoTo 64 + 8 * ciphertext.length)

/-- The hash of the associated data and the ciphertext, which the tag hides under a mask. -/
def ghash (h : BitVec 128) (aad ciphertext : Bytes) : BitVec 128 :=
  hashElements h (elements aad ++ elements ciphertext ++ [lengths aad ciphertext])

/-! ### The key stream -/

/-- Bytes of a nonce. -/
def nonceLength : Nat := 12

/-- Bytes of a tag. -/
def tagLength : Nat := 16

/-- The block cipher on sixteen bytes. -/
def encipher (keys : List Aes256.Block) (bytes : Bytes) : Bytes :=
  (Aes256.encryptWith keys (Aes256.Block.ofBytes bytes)).toBytes

/-- The nonce and a counter of four bytes. -/
def counterBlock (nonce : Bytes) (counter : Nat) : Bytes :=
  nonce ++ Bytes.ofNat 4 counter

/-- The first bytes of the key stream; its first counter is two. -/
def keystream (keys : List Aes256.Block) (nonce : Bytes) (length : Nat) : Bytes :=
  ((List.range ((length + 15) / 16)).flatMap fun i =>
    encipher keys (counterBlock nonce (i + 2))).take length

/-- The tag of a ciphertext. -/
def tag (keys : List Aes256.Block) (nonce aad ciphertext : Bytes) : Bytes :=
  let h := BitVec.ofNat 128 (Bytes.toNat (encipher keys (List.replicate 16 0)))
  Bytes.xor (encipher keys (counterBlock nonce 1)) (Bytes.ofNat 16 (ghash h aad ciphertext).toNat)

/-! ### Encryption and decryption -/

/-- The ciphertext with its tag behind it. -/
def encrypt (key : Aes256.Key) (nonce aad plaintext : Bytes) : Bytes :=
  let keys := key.expand
  let ciphertext := Bytes.xor plaintext (keystream keys nonce plaintext.length)
  ciphertext ++ tag keys nonce aad ciphertext

/-- The plaintext, if the tag behind the ciphertext is the right one. -/
def decrypt? (key : Aes256.Key) (nonce aad sealed : Bytes) : Option Bytes :=
  if sealed.length < tagLength then none
  else
    let keys := key.expand
    let ciphertext := sealed.take (sealed.length - tagLength)
    if sealed.drop (sealed.length - tagLength) = tag keys nonce aad ciphertext then
      some (Bytes.xor ciphertext (keystream keys nonce ciphertext.length))
    else none

end Bureau.Gcm
