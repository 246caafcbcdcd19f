import Bureau.Text.Base64Url

/-!
# Every byte string has one text

Reading Base64 undoes writing it (`decode?_encode`), and what is read is the text of some bytes and
of no others (`encode_of_decode?`): the alphabet, the lengths and the bits that the last character
does not need leave no second spelling.
-/

namespace Bureau.Text.Base64Url

/-! ### Characters and their values -/

theorem value?_digit {n : Nat} (h : n < 64) : value? (digit n) = some n := by
  have all : ∀ k : Fin 64, value? (digit k) = some k.val := by decide
  exact all ⟨n, h⟩

/-- A character of the alphabet is the digit of its value. -/
theorem digit_of_value? {c : Char} {n : Nat} (h : value? c = some n) : n < 64 ∧ digit n = c := by
  have bounds {a b : Char} (between : a ≤ c ∧ c ≤ b) : a.toNat ≤ c.toNat ∧ c.toNat ≤ b.toNat :=
    between
  have back {k : Nat} (hk : k = c.toNat) : Char.ofNat k = c := by rw [hk, Char.ofNat_toNat]
  have upper : 'A'.toNat = 65 ∧ 'Z'.toNat = 90 := ⟨rfl, rfl⟩
  have lower : 'a'.toNat = 97 ∧ 'z'.toNat = 122 := ⟨rfl, rfl⟩
  have figure : '0'.toNat = 48 ∧ '9'.toNat = 57 := ⟨rfl, rfl⟩
  unfold value? at h
  split at h
  · rename_i between
    have := bounds between
    cases h
    refine ⟨by omega, ?_⟩
    rw [digit, if_pos (by omega)]
    exact back (by omega)
  · split at h
    · rename_i between
      have := bounds between
      cases h
      refine ⟨by omega, ?_⟩
      rw [digit, if_neg (by omega), if_pos (by omega)]
      exact back (by omega)
    · split at h
      · rename_i between
        have := bounds between
        cases h
        refine ⟨by omega, ?_⟩
        rw [digit, if_neg (by omega), if_neg (by omega), if_pos (by omega)]
        exact back (by omega)
      · split at h
        · rename_i minus
          cases h
          exact ⟨by decide, minus.symm⟩
        · split at h
          · rename_i underscore
            cases h
            exact ⟨by decide, underscore.symm⟩
          · cases h

/-! ### Byte strings and their texts -/

theorem ofNat_eq {n : Nat} {b : UInt8} (h : n % 256 = b.toNat) : UInt8.ofNat n = b :=
  UInt8.toNat_inj.1 (by rw [UInt8.toNat_ofNat', h])

theorem decode?_encode (bytes : Bytes) : decode? (encode bytes) = some bytes := by
  fun_induction encode bytes with
  | case1 a b c rest n ih =>
    have ha := a.toNat_lt
    have hb := b.toNat_lt
    have hc := c.toNat_lt
    have first : n / 262144 < 64 := by omega
    have join : n / 262144 * 262144 + n / 4096 % 64 * 4096 + n / 64 % 64 * 64 + n % 64 = n := by
      omega
    simp only [decode?, value?_digit first, value?_digit (Nat.mod_lt _ (by decide : 0 < 64)), ih,
      Option.bind_eq_bind, Option.bind_some, join]
    rw [ofNat_eq (b := a) (by omega), ofNat_eq (b := b) (by omega), ofNat_eq (b := c) (by omega)]
    rfl
  | case2 a b n =>
    have ha := a.toNat_lt
    have hb := b.toNat_lt
    have first : n / 1024 < 64 := by omega
    have last : n % 16 * 4 < 64 := by omega
    have join : n / 1024 * 4096 + n / 16 % 64 * 64 + n % 16 * 4 = n * 4 := by omega
    simp only [decode?, value?_digit first, value?_digit (Nat.mod_lt _ (by decide : 0 < 64)),
      value?_digit last, Option.bind_eq_bind, Option.bind_some, join]
    rw [if_pos (by omega), ofNat_eq (b := a) (by omega), ofNat_eq (b := b) (by omega)]
  | case3 a =>
    have ha := a.toNat_lt
    have first : a.toNat / 4 < 64 := by omega
    have last : a.toNat % 4 * 16 < 64 := by omega
    have join : a.toNat / 4 * 64 + a.toNat % 4 * 16 = a.toNat * 16 := by omega
    simp only [decode?, value?_digit first, value?_digit last, Option.bind_eq_bind,
      Option.bind_some, join]
    rw [if_pos (by omega), ofNat_eq (b := a) (by omega)]
  | case4 => rfl

theorem encode_of_decode? {text : List Char} {bytes : Bytes} (h : decode? text = some bytes) :
    text = encode bytes := by
  fun_induction decode? text generalizing bytes with
  | case1 p q r s rest ih =>
    simp only [Option.bind_eq_bind, Option.bind_eq_some_iff] at h
    obtain ⟨i, hi, j, hj, k, hk, m, hm, tail, htail, h⟩ := h
    cases h
    obtain ⟨hi, rfl⟩ := digit_of_value? hi
    obtain ⟨hj, rfl⟩ := digit_of_value? hj
    obtain ⟨hk, rfl⟩ := digit_of_value? hk
    obtain ⟨hm, rfl⟩ := digit_of_value? hm
    simp only [encode, UInt8.toNat_ofNat', ih htail]
    have join (n : Nat) (small : n < 2 ^ 24) :
        n / 65536 % 2 ^ 8 * 65536 + n / 256 % 2 ^ 8 * 256 + n % 2 ^ 8 = n := by omega
    rw [join _ (by omega)]
    have first : (i * 262144 + j * 4096 + k * 64 + m) / 262144 = i := by omega
    have second : (i * 262144 + j * 4096 + k * 64 + m) / 4096 % 64 = j := by omega
    have third : (i * 262144 + j * 4096 + k * 64 + m) / 64 % 64 = k := by omega
    have fourth : (i * 262144 + j * 4096 + k * 64 + m) % 64 = m := by omega
    rw [first, second, third, fourth]
  | case2 p q r =>
    simp only [Option.bind_eq_bind, Option.bind_eq_some_iff] at h
    obtain ⟨i, hi, j, hj, k, hk, h⟩ := h
    obtain ⟨hi, rfl⟩ := digit_of_value? hi
    obtain ⟨hj, rfl⟩ := digit_of_value? hj
    obtain ⟨hk, rfl⟩ := digit_of_value? hk
    split at h
    · -- Bits of the last character that no byte needs are zero.
      rename_i spare
      cases h
      simp only [encode, UInt8.toNat_ofNat']
      have join (n : Nat) (small : n < 2 ^ 18) :
          n / 1024 % 2 ^ 8 * 256 + n / 4 % 2 ^ 8 = n / 4 := by omega
      rw [join _ (by omega)]
      have first : (i * 4096 + j * 64 + k) / 4 / 1024 = i := by omega
      have second : (i * 4096 + j * 64 + k) / 4 / 16 % 64 = j := by omega
      have third : (i * 4096 + j * 64 + k) / 4 % 16 * 4 = k := by omega
      rw [first, second, third]
    · cases h
  | case3 p q =>
    simp only [Option.bind_eq_bind, Option.bind_eq_some_iff] at h
    obtain ⟨i, hi, j, hj, h⟩ := h
    obtain ⟨hi, rfl⟩ := digit_of_value? hi
    obtain ⟨hj, rfl⟩ := digit_of_value? hj
    split at h
    · rename_i spare
      cases h
      simp only [encode, UInt8.toNat_ofNat']
      have first : (i * 64 + j) / 16 % 2 ^ 8 / 4 = i := by omega
      have second : (i * 64 + j) / 16 % 2 ^ 8 % 4 * 16 = j := by omega
      rw [first, second]
    · cases h
  | case4 => cases h
  | case5 => cases h; rfl

end Bureau.Text.Base64Url
