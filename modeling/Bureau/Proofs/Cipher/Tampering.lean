import Bureau.Proofs.Cipher.Aes256
import Bureau.Proofs.Cipher.Gcm
import Bureau.Proofs.Cipher.Ghash

/-!
# One wrong bit

What is sealed does not open when a single bit of it is wrong. A bit of the tag shows at once. With
a bit of the nonce the tag is masked by another block of the key stream (`nonce_of_tag`), and with a
bit of the ciphertext the hash is another one (`tag_flip_ne`); the latter needs that the key of the
hash, the enciphered zero block, is not zero itself.
-/

namespace Bureau

namespace Bytes

/-! ### Bits of byte strings -/

/-- A bit of a byte string, counted from the least one of the first byte; `false` past the end. -/
def bitAt (bytes : Bytes) (i : Nat) : Bool :=
  (bytes.getD (i / 8) 0).toNat.testBit (i % 8)

/-- The byte string with one bit changed. -/
def flip (bytes : Bytes) (i : Nat) : Bytes :=
  bytes.modify (i / 8) (· ^^^ 1 <<< UInt8.ofNat (i % 8))

variable {bytes : Bytes}

@[simp] theorem length_flip (bytes : Bytes) (i : Nat) : (flip bytes i).length = bytes.length :=
  List.length_modify ..

theorem testBit_one_shiftLeft {i : Nat} (h : i < 8) (j : Nat) :
    (1 <<< UInt8.ofNat i : UInt8).toNat.testBit j = decide (j = i) := by
  have power : ∀ k < 8, (1 <<< UInt8.ofNat k : UInt8).toNat = 1 <<< k := by decide
  rw [power i h, Nat.one_shiftLeft, Nat.testBit_two_pow]
  simp [eq_comm]

/-- Only the one bit is changed. -/
theorem bitAt_flip {i : Nat} (inside : i < 8 * bytes.length) (j : Nat) :
    bitAt (flip bytes i) j = (bitAt bytes j ^^ decide (j = i)) := by
  have room : i / 8 < bytes.length := by omega
  simp only [bitAt, flip, List.getD_eq_getElem?_getD, List.getElem?_modify]
  by_cases same : i / 8 = j / 8
  · have bit : decide (j % 8 = i % 8) = decide (j = i) := by
      rw [decide_eq_decide]
      omega
    rw [same] at room
    simp only [if_pos same]
    rw [List.getElem?_eq_getElem room, Option.map_eq_map, Option.map_some, Option.getD_some,
      Option.getD_some, UInt8.toNat_xor, Nat.testBit_xor,
      testBit_one_shiftLeft (Nat.mod_lt i (by decide)), bit]
  · have : j ≠ i := by
      rintro rfl
      exact same rfl
    simp [same, this]

theorem flip_ne {i : Nat} (inside : i < 8 * bytes.length) : flip bytes i ≠ bytes := by
  intro same
  have := bitAt_flip inside i
  rw [same] at this
  simp at this

theorem flip_append_left (front back : Bytes) {i : Nat} (inside : i < 8 * front.length) :
    flip (front ++ back) i = flip front i ++ back := by
  have room : i / 8 < front.length := by omega
  refine List.ext_getElem? fun j => ?_
  rw [flip, flip, List.getElem?_modify, List.getElem?_append, List.getElem?_append,
    List.length_modify, List.getElem?_modify]
  by_cases first : j < front.length
  · simp only [if_pos first]
  · have : i / 8 ≠ j := by omega
    simp [first, this]

theorem flip_append_right (front back : Bytes) (i : Nat) :
    flip (front ++ back) (8 * front.length + i) = front ++ flip back i := by
  have place : (8 * front.length + i) / 8 = front.length + i / 8 := by omega
  have bit : (8 * front.length + i) % 8 = i % 8 := by omega
  refine List.ext_getElem? fun j => ?_
  rw [flip, flip, place, bit, List.getElem?_modify, List.getElem?_append, List.getElem?_append,
    List.getElem?_modify]
  by_cases first : j < front.length
  · have : front.length + i / 8 ≠ j := by omega
    simp [first, this]
  · have same : (front.length + i / 8 = j) = (i / 8 = j - front.length) := by
      rw [eq_iff_iff]
      omega
    simp only [if_neg first, same]

/-! ### Numbers in byte strings -/

theorem testBit_toNat (bytes : Bytes) (i : Nat) :
    (toNat bytes).testBit i = (bytes.reverse.getD (i / 8) 0).toNat.testBit (i % 8) := by
  induction bytes using List.reverseRecOn generalizing i with
  | nil => simp [toNat]
  | append_singleton front b ih =>
    have split : toNat (front ++ [b]) = 2 ^ 8 * toNat front + b.toNat := by
      rw [toNat_append_singleton]
      omega
    rw [split, Nat.testBit_two_pow_mul_add _ b.toNat_lt, List.reverse_append]
    by_cases low : i < 8
    · rw [if_pos low, Nat.div_eq_of_lt low, Nat.mod_eq_of_lt low]
      rfl
    · have next : i / 8 = (i - 8) / 8 + 1 := by omega
      have bit : i % 8 = (i - 8) % 8 := by omega
      rw [if_neg low, ih, next, bit]
      rfl

theorem toNat_lt (bytes : Bytes) : toNat bytes < 256 ^ bytes.length := by
  induction bytes using List.reverseRecOn with
  | nil => simp [toNat]
  | append_singleton front b ih =>
    have := b.toNat_lt
    rw [toNat_append_singleton, List.length_append, List.length_singleton, Nat.pow_succ]
    omega

theorem eq_zero_of_toNat_eq_zero (h : toNat bytes = 0) :
    bytes = List.replicate bytes.length 0 := by
  induction bytes using List.reverseRecOn with
  | nil => rfl
  | append_singleton front b ih =>
    rw [toNat_append_singleton] at h
    have last : b = 0 := UInt8.toNat_inj.1 (by simpa using (by omega : b.toNat = 0))
    rw [List.length_append, List.length_singleton, List.replicate_succ', ← ih (by omega), last]

/-! ### Sums -/

theorem xor_comm (a b : Bytes) : xor a b = xor b a := by
  rw [xor, List.zipWith_comm, xor]
  congr
  funext x y
  exact UInt8.xor_comm y x

theorem xor_right_cancel {a b c : Bytes} (ha : a.length ≤ c.length) (hb : b.length ≤ c.length)
    (h : xor a c = xor b c) : a = b := by
  rw [← xor_xor_cancel ha, h, xor_xor_cancel hb]

end Bytes

namespace Gcm

/-! ### One bit of a ciphertext -/

/-- A field element of a byte string: the sixteen bytes from a multiple of sixteen on. -/
def element (bytes : Bytes) (k : Nat) : BitVec 128 :=
  let block := (bytes.drop (16 * k)).take 16
  BitVec.ofNat 128 (Bytes.toNat (block ++ List.replicate (16 - block.length) 0))

theorem elements_eq (bytes : Bytes) :
    elements bytes = (List.range ((bytes.length + 15) / 16)).map (element bytes) := rfl

/-- The bytes of an element are those of the byte string, and zeros past its end. -/
theorem getElem?_padded (bytes : Bytes) (k : Nat) {m : Nat} (inside : m < 16) :
    let block := (bytes.drop (16 * k)).take 16
    (block ++ List.replicate (16 - block.length) 0)[m]? = some (bytes.getD (16 * k + m) 0) := by
  intro block
  have length : block.length = min 16 (bytes.length - 16 * k) := by
    rw [List.length_take, List.length_drop]
  rw [List.getElem?_append, List.getD_eq_getElem?_getD]
  by_cases present : 16 * k + m < bytes.length
  · rw [if_pos (by omega), List.getElem?_take_of_lt inside, List.getElem?_drop,
      List.getElem?_eq_getElem present, Option.getD_some]
  · rw [if_neg (by omega), List.getElem?_replicate_of_lt (by omega),
      List.getElem?_eq_none (by omega), Option.getD_none]

/-- The bytes of an element stand in their order, each with its highest bit first. -/
theorem getMsbD_element (bytes : Bytes) (k : Nat) {j : Nat} (inside : j < 128) :
    (element bytes k).getMsbD j = Bytes.bitAt bytes (8 * (16 * k + j / 8) + (7 - j % 8)) := by
  have byte : (8 * (16 * k + j / 8) + (7 - j % 8)) / 8 = 16 * k + j / 8 := by omega
  have bit : (8 * (16 * k + j / 8) + (7 - j % 8)) % 8 = 7 - j % 8 := by omega
  have place : (128 - 1 - j) / 8 = 15 - j / 8 := by omega
  have low : (128 - 1 - j) % 8 = 7 - j % 8 := by omega
  have padded := getElem?_padded bytes k (m := j / 8) (by omega)
  rw [Bytes.bitAt, byte, bit, element, BitVec.getMsbD, BitVec.getLsbD_ofNat, Bytes.testBit_toNat,
    place, low]
  dsimp only at padded ⊢
  have length : ((bytes.drop (16 * k)).take 16 ++ List.replicate
      (16 - ((bytes.drop (16 * k)).take 16).length) (0 : UInt8)).length = 16 := by
    simp
  generalize (bytes.drop (16 * k)).take 16 ++ List.replicate
    (16 - ((bytes.drop (16 * k)).take 16).length) (0 : UInt8) = block at padded length
  have reversed : block.reverse.getD (15 - j / 8) 0 = bytes.getD (16 * k + j / 8) 0 := by
    have last : 16 - 1 - (15 - j / 8) = j / 8 := by omega
    rw [List.getD_eq_getElem?_getD, List.getElem?_reverse (by omega), length, last, padded,
      Option.getD_some]
  rw [reversed]
  have : 128 - 1 - j < 128 := by omega
  simp [inside, this]

theorem element_flip {bytes : Bytes} {i : Nat} (inside : i < 8 * bytes.length) (k : Nat) :
    element (Bytes.flip bytes i) k =
      if k = i / 128 then element bytes k ^^^ power (8 * (i / 8 % 16) + (7 - i % 8))
      else element bytes k := by
  refine BitVec.eq_of_getMsbD_eq fun j small => ?_
  rw [getMsbD_element _ _ small, Bytes.bitAt_flip inside, ← getMsbD_element _ _ small]
  by_cases same : k = i / 128
  · rw [if_pos same, BitVec.getMsbD_xor, power, BitVec.getMsbD_twoPow]
    congr 1
    rw [Bool.eq_iff_iff]
    simp
    omega
  · have : 8 * (16 * k + j / 8) + (7 - j % 8) ≠ i := by omega
    simp [same, this]

/-- A wrong bit is in one element only, and is one bit of it. -/
theorem elements_flip {bytes : Bytes} {i : Nat} (inside : i < 8 * bytes.length) :
    ∃ xs ys a j, j < 128 ∧ elements bytes = xs ++ a :: ys ∧
      elements (Bytes.flip bytes i) = xs ++ (a ^^^ power j) :: ys := by
  have room : i / 128 < (elements bytes).length := by
    rw [elements_eq, List.length_map, List.length_range]
    omega
  have changed : elements (Bytes.flip bytes i) = (elements bytes).set (i / 128)
      ((elements bytes)[i / 128] ^^^ power (8 * (i / 8 % 16) + (7 - i % 8))) := by
    refine List.ext_getElem (by simp [elements_eq]) fun k _ _ => ?_
    simp only [elements_eq, List.getElem_map, List.getElem_range, List.getElem_set,
      element_flip inside]
    by_cases same : k = i / 128
    · simp [same]
    · simp [same, Ne.symm same]
  refine ⟨(elements bytes).take (i / 128), (elements bytes).drop (i / 128 + 1),
    (elements bytes)[i / 128], 8 * (i / 8 % 16) + (7 - i % 8), by omega, ?_, ?_⟩
  · rw [List.getElem_cons_drop, List.take_append_drop]
  · rw [changed, List.set_eq_take_append_cons_drop, if_pos room]

/-! ### Tags -/

variable {keys : List Aes256.Block} {nonce aad ciphertext : Bytes}

/-- The key of the hash: the enciphered zero block. -/
def hashKey (keys : List Aes256.Block) : BitVec 128 :=
  BitVec.ofNat 128 (Bytes.toNat (encipher keys (List.replicate 16 0)))

theorem hashKey_ne_zero
    (h : encipher keys (List.replicate 16 0) ≠ List.replicate 16 0) : hashKey keys ≠ 0 := by
  intro zero
  refine h (Bytes.eq_zero_of_toNat_eq_zero ?_)
  have small : Bytes.toNat (encipher keys (List.replicate 16 0)) < 2 ^ 128 :=
    Nat.lt_of_lt_of_eq (Bytes.toNat_lt _) (by rw [length_encipher]; norm_num)
  have value := congrArg BitVec.toNat zero
  rwa [hashKey, BitVec.toNat_ofNat, Nat.mod_eq_of_lt small] at value

theorem tag_eq (keys : List Aes256.Block) (nonce aad ciphertext : Bytes) :
    tag keys nonce aad ciphertext = Bytes.xor (encipher keys (counterBlock nonce 1))
      (Bytes.ofNat 16 (ghash (hashKey keys) aad ciphertext).toNat) := rfl

theorem encipher_injective {a b : Bytes} (ha : a.length = 16) (hb : b.length = 16)
    (h : encipher keys a = encipher keys b) : a = b := by
  have same := Aes256.encryptWith_injective (Aes256.Block.toBytes_injective h)
  rw [← Aes256.Block.toBytes_ofBytes ha, same, Aes256.Block.toBytes_ofBytes hb]

/-- Another nonce masks the hash with another block. -/
theorem nonce_of_tag {other : Bytes} (length : nonce.length = nonceLength)
    (otherLength : other.length = nonceLength)
    (h : tag keys other aad ciphertext = tag keys nonce aad ciphertext) : other = nonce := by
  rw [tag_eq, tag_eq] at h
  have masks := Bytes.xor_right_cancel (by simp) (by simp) h
  have block {n : Bytes} (twelve : n.length = nonceLength) : (counterBlock n 1).length = 16 := by
    rw [counterBlock, List.length_append, Bytes.length_ofNat, twelve]
    rfl
  exact List.append_cancel_right (encipher_injective (block otherLength) (block length) masks)

theorem ghash_of_tag {other : Bytes}
    (h : tag keys nonce aad other = tag keys nonce aad ciphertext) :
    ghash (hashKey keys) aad other = ghash (hashKey keys) aad ciphertext := by
  rw [tag_eq, tag_eq, Bytes.xor_comm, Bytes.xor_comm (encipher _ _)] at h
  have hashes := congrArg Bytes.toNat (Bytes.xor_right_cancel (by simp) (by simp) h)
  rw [Bytes.toNat_ofNat (BitVec.isLt _), Bytes.toNat_ofNat (BitVec.isLt _)] at hashes
  exact BitVec.eq_of_toNat_eq hashes

/-- A wrong bit in the ciphertext gives another tag. -/
theorem tag_flip_ne (nonzero : hashKey keys ≠ 0) {i : Nat} (inside : i < 8 * ciphertext.length) :
    tag keys nonce aad (Bytes.flip ciphertext i) ≠ tag keys nonce aad ciphertext := by
  intro same
  have hashes := ghash_of_tag same
  obtain ⟨xs, ys, a, j, small, before, after⟩ := elements_flip inside
  rw [ghash, ghash, before, after, lengths, lengths, Bytes.length_flip] at hashes
  refine hashElements_xor_ne nonzero small (elements aad ++ xs)
    (ys ++ [lengths aad ciphertext]) a ?_
  simpa [lengths] using hashes

/-! ### What is refused -/

theorem decrypt?_eq_none {key : Aes256.Key} {mark : Bytes} (length : mark.length = tagLength)
    (wrong : mark ≠ tag key.expand nonce aad ciphertext) :
    decrypt? key nonce aad (ciphertext ++ mark) = none := by
  have parts : (ciphertext ++ mark).length - tagLength = ciphertext.length := by
    rw [List.length_append, length, Nat.add_sub_cancel]
  rw [decrypt?, if_neg (by rw [List.length_append]; omega), parts]
  simp only [List.take_left, List.drop_left]
  exact if_neg wrong

end Gcm

end Bureau
