import Bureau.Identity
import Mathlib.Algebra.Group.Nat.Defs

/-!
# Hexadecimal digits and identifiers

A number is read off its hexadecimal digits, so identifiers that are written alike are the same:
no two offers share a key in the cache. The grouped form of an identifier reads as the identifier.
-/

namespace Bureau

namespace Text.Hex

theorem digit_injective {m n : Nat} (hm : m < 16) (hn : n < 16) (h : digit m = digit n) :
    m = n := by
  have all : ∀ a b : Fin 16, digit a = digit b → a = b := by decide
  exact congrArg Fin.val (all ⟨m, hm⟩ ⟨n, hn⟩ h)

theorem padded_injective {width m n : Nat} (hm : m < 16 ^ width) (hn : n < 16 ^ width)
    (h : padded width m = padded width n) : m = n := by
  induction width generalizing m n with
  | zero => omega
  | succ width ih =>
    obtain ⟨front, last⟩ := List.append_inj' h rfl
    rw [Nat.pow_succ] at hm hn
    have high : m / 16 = n / 16 := ih (by omega) (by omega) front
    have low : m % 16 = n % 16 :=
      digit_injective (Nat.mod_lt _ (by decide)) (Nat.mod_lt _ (by decide)) (by simpa using last)
    omega

/-! ### Reading what is written -/

theorem value?_digit {n : Nat} (h : n < 16) : value? (digit n) = some n := by
  have all : ∀ d : Fin 16, value? (digit d) = some d.val := by decide
  exact all ⟨n, h⟩

theorem length_padded (width n : Nat) : (padded width n).length = width := by
  induction width generalizing n with
  | zero => rfl
  | succ width ih => simp [padded, ih]

theorem valueFrom_append (v : Nat) (as bs : List Char) :
    valueFrom v (as ++ bs) = (valueFrom v as).bind fun w => valueFrom w bs := by
  induction as generalizing v with
  | nil => rfl
  | cons a as ih =>
    simp only [List.cons_append, valueFrom]
    cases value? a with
    | none => rfl
    | some d => exact ih _

theorem valueFrom_padded {width n : Nat} (h : n < 16 ^ width) (v : Nat) :
    valueFrom v (padded width n) = some (v * 16 ^ width + n) := by
  induction width generalizing n with
  | zero => simp [padded, valueFrom]; omega
  | succ width ih =>
    rw [Nat.pow_succ] at h
    rw [padded, valueFrom_append, ih (by omega)]
    simp only [Option.bind_some, valueFrom, value?_digit (Nat.mod_lt n (by decide : 0 < 16)),
      Nat.pow_succ]
    congr 1
    rw [Nat.add_mul, Nat.mul_assoc]
    omega

theorem isSome_value?_of_mem_padded {width n : Nat} {c : Char} (h : c ∈ padded width n) :
    (value? c).isSome := by
  induction width generalizing n with
  | zero => cases h
  | succ width ih =>
    rcases List.mem_append.1 h with h | h
    · exact ih h
    · rw [List.mem_singleton.1 h, value?_digit (Nat.mod_lt n (by decide))]
      rfl

end Text.Hex

namespace Uuid

open Text.Hex

/-- Five groups of digits with hyphens between them are read as the digits without hyphens. -/
theorem ofGrouped?_groups {a b c d e : List Char} (ha : a.length = 8) (hb : b.length = 4)
    (hc : c.length = 4) (hd : d.length = 4) (he : e.length = 12) :
    ofGrouped? (a ++ '-' :: (b ++ '-' :: (c ++ '-' :: (d ++ '-' :: e)))) =
      (valueFrom 0 (a ++ b ++ c ++ d ++ e)).bind ofNat? := by
  rw [ofGrouped?, if_pos (by simp [ha, hb, hc, hd, he])]
  change (if _ then _ else none) = _
  have digits : (a ++ b ++ c ++ d ++ e).length = 32 := by
    simp [ha, hb, hc, hd, he]
  have groups : ((a ++ '-' :: (b ++ '-' :: (c ++ '-' :: (d ++ '-' :: e)))).take 8 ++
      ((a ++ '-' :: (b ++ '-' :: (c ++ '-' :: (d ++ '-' :: e)))).drop 9).take 4 ++
      ((a ++ '-' :: (b ++ '-' :: (c ++ '-' :: (d ++ '-' :: e)))).drop 14).take 4 ++
      ((a ++ '-' :: (b ++ '-' :: (c ++ '-' :: (d ++ '-' :: e)))).drop 19).take 4 ++
      (a ++ '-' :: (b ++ '-' :: (c ++ '-' :: (d ++ '-' :: e)))).drop 24) =
      a ++ b ++ c ++ d ++ e := by
    simp [List.drop_append, ha, hb, hc, hd, List.drop_eq_nil_of_le]
  rw [groups, if_pos digits]

/-- A text that begins with a digit is in no form but the digits alone or in groups. -/
theorem ofString?_cons {c : Char} (h : (value? c).isSome) {rest : List Char}
    (length : (c :: rest).length ≠ 32) :
    ofString? (String.ofList (c :: rest)) = ofGrouped? (c :: rest) := by
  unfold ofString?
  rw [String.toList_ofList]
  split
  · rename_i same
    cases same
    simp [value?] at h
  · rename_i same
    cases same
    simp [value?] at h
  · rename_i same
    cases same
    simp [value?] at h
  · exact if_neg length

/-- Digits that are cut into groups and joined again. -/
theorem groups_joined (ds : List Char) :
    ds.take 8 ++ (ds.drop 8).take 4 ++ (ds.drop 12).take 4 ++ (ds.drop 16).take 4 ++ ds.drop 20 =
      ds := by
  have third := List.take_append_drop 4 (ds.drop 16)
  have second := List.take_append_drop 4 (ds.drop 12)
  have first := List.take_append_drop 4 (ds.drop 8)
  simp only [List.drop_drop] at first second third
  simp only [List.append_assoc, third, second, first, List.take_append_drop]

theorem ofString?_toString (u : Uuid) : ofString? u.toString = some u := by
  have bound : u.number < 16 ^ 32 := u.number_lt
  have value := valueFrom_padded bound 0
  have length := Text.Hex.length_padded 32 u.number
  have digits : ∀ c ∈ padded 32 u.number, (value? c).isSome := fun c =>
    isSome_value?_of_mem_padded
  rw [toString]
  generalize padded 32 u.number = ds at value length digits
  have grouped : ofGrouped? (ds.take 8 ++ '-' :: ((ds.drop 8).take 4 ++ '-' ::
      ((ds.drop 12).take 4 ++ '-' :: ((ds.drop 16).take 4 ++ '-' :: ds.drop 20)))) = some u := by
    rw [ofGrouped?_groups (by simp [length]) (by simp [length]) (by simp [length])
      (by simp [length]) (by simp [length]), groups_joined, value]
    simp [ofNat?, u.number_lt]
  cases ds with
  | nil => cases length
  | cons c rest =>
    have first := digits c List.mem_cons_self
    have long : (c :: rest).length = 32 := length
    rw [← grouped]
    simp only [List.append_assoc, List.cons_append, List.take_succ_cons]
    refine ofString?_cons first ?_
    simp at long ⊢
    omega

theorem simple_injective {u v : Uuid} (h : u.simple = v.simple) : u = v := by
  have bound : twoTo 128 = 16 ^ 32 := by decide
  have digits : Text.Hex.padded 32 u.number = Text.Hex.padded 32 v.number :=
    String.ofList_injective h
  have number : u.number = v.number :=
    Text.Hex.padded_injective (bound ▸ u.number_lt) (bound ▸ v.number_lt) digits
  cases u
  cases v
  cases number
  rfl

end Uuid

theorem OfferId.cacheKey_injective {a b : OfferId} (h : a.cacheKey = b.cacheKey) : a = b := by
  have uuid : a.uuid = b.uuid := Uuid.simple_injective h
  cases a
  cases b
  cases uuid
  rfl

end Bureau
