import Bureau.Cipher.Gcm
import Mathlib.Algebra.Group.Nat.Defs

/-!
# Decryption undoes encryption

What is decrypted is the encryption of the plaintext that comes out, and of no other
(`decrypt?_eq_some_iff`). The key stream is as long as the text and is taken away by adding it
once more; the tag has always sixteen bytes, so it is known where it begins.
-/

namespace Bureau

namespace Bytes

@[simp] theorem length_ofNat (width n : Nat) : (ofNat width n).length = width := by
  induction width generalizing n with
  | zero => rfl
  | succ width ih => rw [ofNat, List.length_append, ih, List.length_singleton]

theorem toNat_append_singleton (bytes : Bytes) (b : UInt8) :
    toNat (bytes ++ [b]) = toNat bytes * 256 + b.toNat := by
  simp [toNat]

/-- Reading a number undoes writing it into bytes enough. -/
theorem toNat_ofNat {width n : Nat} (h : n < 256 ^ width) : toNat (ofNat width n) = n := by
  induction width generalizing n with
  | zero =>
    obtain rfl : n = 0 := by simpa using h
    rfl
  | succ width ih =>
    have high : n / 256 < 256 ^ width := by
      rw [Nat.pow_succ] at h
      omega
    rw [ofNat, toNat_append_singleton, ih high, UInt8.toNat_ofNat']
    omega

@[simp] theorem length_xor (a b : Bytes) : (xor a b).length = min a.length b.length :=
  List.length_zipWith

/-- Adding the same bytes twice changes nothing. -/
theorem xor_xor_cancel {a b : Bytes} (h : a.length ≤ b.length) : xor (xor a b) b = a := by
  induction a generalizing b with
  | nil => rfl
  | cons x xs ih =>
    cases b with
    | nil => simp at h
    | cons y ys =>
      have rest : xor (xor xs ys) ys = xs := ih (by simpa using h)
      have first : x ^^^ y ^^^ y = x := by rw [UInt8.xor_assoc, UInt8.xor_self, UInt8.xor_zero]
      rw [xor, xor, List.zipWith_cons_cons, List.zipWith_cons_cons, first]
      exact congrArg _ rest

end Bytes

namespace Gcm

@[simp] theorem length_encipher (keys : List Aes256.Block) (bytes : Bytes) :
    (encipher keys bytes).length = 16 := rfl

theorem length_keystream (keys : List Aes256.Block) (nonce : Bytes) (length : Nat) :
    (keystream keys nonce length).length = length := by
  rw [keystream, List.length_take, List.length_flatMap]
  have blocks : (List.range ((length + 15) / 16)).map (fun i =>
      (encipher keys (counterBlock nonce (i + 2))).length) =
        List.replicate ((length + 15) / 16) 16 := by
    simp [List.map_const']
  rw [blocks, List.sum_replicate_nat]
  omega

/-- A text with its key stream added is as long as the text. -/
theorem length_xor_keystream (keys : List Aes256.Block) (nonce text : Bytes) :
    (Bytes.xor text (keystream keys nonce text.length)).length = text.length := by
  rw [Bytes.length_xor, length_keystream, Nat.min_self]

theorem xor_keystream_cancel (keys : List Aes256.Block) (nonce text : Bytes) :
    Bytes.xor (Bytes.xor text (keystream keys nonce text.length))
      (keystream keys nonce text.length) = text :=
  Bytes.xor_xor_cancel (Nat.le_of_eq (length_keystream _ _ _).symm)

@[simp] theorem length_tag (keys : List Aes256.Block) (nonce aad ciphertext : Bytes) :
    (tag keys nonce aad ciphertext).length = tagLength := by
  simp [tag, tagLength]

variable {key : Aes256.Key} {nonce aad : Bytes}

theorem length_encrypt (plaintext : Bytes) :
    (encrypt key nonce aad plaintext).length = plaintext.length + tagLength := by
  rw [encrypt, List.length_append, length_xor_keystream, length_tag]

theorem decrypt?_encrypt (plaintext : Bytes) :
    decrypt? key nonce aad (encrypt key nonce aad plaintext) = some plaintext := by
  have length := length_xor_keystream key.expand nonce plaintext
  simp only [decrypt?, length_encrypt, Nat.add_sub_cancel]
  rw [if_neg (by omega), encrypt, List.take_left' length, List.drop_left' length, if_pos rfl,
    length, xor_keystream_cancel]

theorem encrypt_of_decrypt? {sealed plaintext : Bytes}
    (h : decrypt? key nonce aad sealed = some plaintext) :
    sealed = encrypt key nonce aad plaintext := by
  unfold decrypt? at h
  split at h
  · cases h
  · dsimp only at h
    split at h
    · rename_i genuine
      cases h
      have parts := (List.take_append_drop (sealed.length - tagLength) sealed).symm
      rw [genuine] at parts
      generalize sealed.take (sealed.length - tagLength) = ciphertext at parts
      rw [encrypt, length_xor_keystream, xor_keystream_cancel]
      exact parts
    · cases h

/-- A text is decrypted exactly when it is the encryption of what comes out. -/
theorem decrypt?_eq_some_iff {sealed plaintext : Bytes} :
    decrypt? key nonce aad sealed = some plaintext ↔ sealed = encrypt key nonce aad plaintext :=
  ⟨encrypt_of_decrypt?, fun h => h ▸ decrypt?_encrypt plaintext⟩

end Gcm

end Bureau
