import Bureau.Cipher.Aes256
import Mathlib.Data.Fintype.EquivFin

/-!
# The block cipher is one-to-one

Every step of a round can be undone: no byte is substituted for two others, and a column that is
mixed four times comes back (`mixColumn_four`). So under any round keys different blocks are
enciphered differently (`encryptWith_injective`); the key itself plays no part in this.
-/

namespace Bureau.Aes256

/-! ### Bytes -/

/-- What holds of 256 bytes holds of all. -/
theorem forall_byte {p : UInt8 → Prop} (h : ∀ i : Fin 256, p (UInt8.ofFin i)) (b : UInt8) : p b :=
  h b.toFin

theorem xor_left_comm (a b c : UInt8) : a ^^^ (b ^^^ c) = b ^^^ (a ^^^ c) := by
  rw [← UInt8.xor_assoc, UInt8.xor_comm a, UInt8.xor_assoc]

theorem xor_cancel_left (a b : UInt8) : a ^^^ (a ^^^ b) = b := by
  rw [← UInt8.xor_assoc, UInt8.xor_self, UInt8.zero_xor]

theorem xor_and (a b c : UInt8) : (a ^^^ b) &&& c = (a &&& c) ^^^ (b &&& c) := by
  rw [← UInt8.toBitVec_inj]
  ext i
  simp [Bool.and_xor_distrib_right]

theorem and_high (b : UInt8) : b &&& 0x80 = 0 ∨ b &&& 0x80 = 0x80 := by
  revert b
  exact forall_byte (by decide +kernel)

/-- Multiplication by `x` respects sums. -/
theorem xtime_xor (a b : UInt8) : xtime (a ^^^ b) = xtime a ^^^ xtime b := by
  simp only [xtime, xor_and, UInt8.shiftLeft_xor]
  rcases and_high a with ha | ha <;> rcases and_high b with hb | hb <;>
    simp [ha, hb, UInt8.xor_assoc, xor_left_comm, UInt8.xor_comm]

/-! ### The substitution

Every byte stands in the table, so no byte stands in it twice. -/

/-- The bytes of a list as the places of the ones of a number. -/
def marks (bytes : List UInt8) : Nat :=
  bytes.foldr (fun b n => 1 <<< b.toNat ||| n) 0

theorem mem_of_testBit_marks {bytes : List UInt8} {b : UInt8}
    (h : (marks bytes).testBit b.toNat = true) : b ∈ bytes := by
  induction bytes with
  | nil => simp [marks] at h
  | cons c rest ih =>
    rw [marks, List.foldr_cons, Nat.testBit_or, Bool.or_eq_true] at h
    rcases h with first | later
    · rw [Nat.one_shiftLeft, Nat.testBit_two_pow, decide_eq_true_iff, UInt8.toNat_inj] at first
      exact first ▸ List.mem_cons_self
    · exact List.mem_cons_of_mem c (ih later)

theorem marks_sboxTable : marks sboxTable.toList = 1 <<< 256 - 1 := by decide +kernel

theorem size_sboxTable : sboxTable.size = 256 := by decide +kernel

theorem sbox_surjective (b : UInt8) : ∃ a, sbox a = b := by
  have found : b ∈ sboxTable.toList := by
    refine mem_of_testBit_marks ?_
    rw [marks_sboxTable, Nat.one_shiftLeft, Nat.testBit_two_pow_sub_one, decide_eq_true_iff]
    exact b.toNat_lt
  obtain ⟨i, lt, rfl⟩ := Array.mem_iff_getElem.1 (Array.mem_toList_iff.1 found)
  have small : i < UInt8.size := lt.trans_eq size_sboxTable
  refine ⟨UInt8.ofNatLT i small, ?_⟩
  rw [sbox, UInt8.toNat_ofNatLT, Array.getD_eq_getD_getElem?, Array.getElem?_eq_getElem lt]
  rfl

theorem sbox_injective {a b : UInt8} (h : sbox a = sbox b) : a = b := by
  let f : Fin 256 → Fin 256 := fun i => (sbox (UInt8.ofFin i)).toFin
  have onto : Function.Surjective f := by
    intro j
    obtain ⟨a, same⟩ := sbox_surjective (UInt8.ofFin j)
    exact ⟨a.toFin, congrArg UInt8.toFin same⟩
  have alike : f a.toFin = f b.toFin := congrArg UInt8.toFin h
  exact UInt8.toFin_inj.1 (Finite.injective_iff_surjective.2 onto alike)

/-! ### Columns -/

theorem Column.map_sbox_injective {c d : Column} (h : c.map sbox = d.map sbox) : c = d := by
  simp only [Column.map, Column.mk.injEq] at h
  obtain ⟨h₀, h₁, h₂, h₃⟩ := h
  cases c
  cases d
  simp only [Column.mk.injEq]
  exact ⟨sbox_injective h₀, sbox_injective h₁, sbox_injective h₂, sbox_injective h₃⟩

theorem Column.xor_injective {c d : Column} (k : Column) (h : c.xor k = d.xor k) : c = d := by
  simp only [Column.xor, Column.mk.injEq, UInt8.xor_left_inj] at h
  cases c
  cases d
  exact Column.mk.injEq .. ▸ h

/-- Mixed twice, a column gains four times the sums of its bytes that lie two apart. -/
theorem mixColumn_mixColumn (c : Column) :
    mixColumn (mixColumn c) =
      ⟨c.b₀ ^^^ xtime (xtime (c.b₀ ^^^ c.b₂)), c.b₁ ^^^ xtime (xtime (c.b₁ ^^^ c.b₃)),
       c.b₂ ^^^ xtime (xtime (c.b₀ ^^^ c.b₂)), c.b₃ ^^^ xtime (xtime (c.b₁ ^^^ c.b₃))⟩ := by
  simp only [mixColumn, mixByte, xtime_xor, UInt8.xor_assoc, UInt8.xor_comm, xor_left_comm,
    xor_cancel_left, UInt8.xor_self, UInt8.zero_xor]

theorem mixColumn_four (c : Column) : mixColumn (mixColumn (mixColumn (mixColumn c))) = c := by
  -- The sums two apart stay as they are, so what was gained is gained once more.
  rw [mixColumn_mixColumn, mixColumn_mixColumn]
  simp only [xtime_xor, UInt8.xor_comm, xor_left_comm, UInt8.xor_self, UInt8.xor_zero]

theorem mixColumn_injective {c d : Column} (h : mixColumn c = mixColumn d) : c = d := by
  rw [← mixColumn_four c, h, mixColumn_four]

/-! ### Blocks -/

theorem subBytes_injective {s t : Block} (h : subBytes s = subBytes t) : s = t := by
  simp only [subBytes, Block.mk.injEq] at h
  obtain ⟨h₀, h₁, h₂, h₃⟩ := h
  cases s
  cases t
  simp only [Block.mk.injEq]
  exact ⟨Column.map_sbox_injective h₀, Column.map_sbox_injective h₁,
    Column.map_sbox_injective h₂, Column.map_sbox_injective h₃⟩

theorem shiftRows_injective {s t : Block} (h : shiftRows s = shiftRows t) : s = t := by
  obtain ⟨⟨_, _, _, _⟩, ⟨_, _, _, _⟩, ⟨_, _, _, _⟩, ⟨_, _, _, _⟩⟩ := s
  obtain ⟨⟨_, _, _, _⟩, ⟨_, _, _, _⟩, ⟨_, _, _, _⟩, ⟨_, _, _, _⟩⟩ := t
  simp_all [shiftRows]

theorem mixColumns_injective {s t : Block} (h : mixColumns s = mixColumns t) : s = t := by
  simp only [mixColumns, Block.mk.injEq] at h
  obtain ⟨h₀, h₁, h₂, h₃⟩ := h
  cases s
  cases t
  simp only [Block.mk.injEq]
  exact ⟨mixColumn_injective h₀, mixColumn_injective h₁, mixColumn_injective h₂,
    mixColumn_injective h₃⟩

theorem Block.xor_injective {s t : Block} (k : Block) (h : s.xor k = t.xor k) : s = t := by
  simp only [Block.xor, Block.mk.injEq] at h
  obtain ⟨h₀, h₁, h₂, h₃⟩ := h
  cases s
  cases t
  simp only [Block.mk.injEq]
  exact ⟨Column.xor_injective _ h₀, Column.xor_injective _ h₁, Column.xor_injective _ h₂,
    Column.xor_injective _ h₃⟩

theorem rounds_injective {keys : List Block} {s t : Block} (h : rounds keys s = rounds keys t) :
    s = t := by
  fun_induction rounds keys s generalizing t with
  | case1 s => exact h
  | case2 k s => exact subBytes_injective (shiftRows_injective (Block.xor_injective k h))
  | case3 k ks s more ih =>
    rw [rounds] at h
    · exact subBytes_injective (shiftRows_injective (mixColumns_injective
        (Block.xor_injective k (ih h))))
    · exact more

/-- Different blocks are enciphered differently, whatever the round keys are. -/
theorem encryptWith_injective {keys : List Block} {s t : Block}
    (h : encryptWith keys s = encryptWith keys t) : s = t := by
  cases keys with
  | nil => exact h
  | cons k ks => exact Block.xor_injective k (rounds_injective h)

/-- Sixteen bytes are the bytes of their block. -/
theorem Block.toBytes_ofBytes {bytes : Bytes} (length : bytes.length = 16) :
    (Block.ofBytes bytes).toBytes = bytes := by
  match bytes, length with
  | [_, _, _, _, _, _, _, _, _, _, _, _, _, _, _, _], _ => rfl

theorem Block.toBytes_injective {s t : Block} (h : s.toBytes = t.toBytes) : s = t := by
  obtain ⟨⟨_, _, _, _⟩, ⟨_, _, _, _⟩, ⟨_, _, _, _⟩, ⟨_, _, _, _⟩⟩ := s
  obtain ⟨⟨_, _, _, _⟩, ⟨_, _, _, _⟩, ⟨_, _, _, _⟩, ⟨_, _, _, _⟩⟩ := t
  simpa [Block.toBytes, Column.toBytes, and_assoc] using h

end Bureau.Aes256
