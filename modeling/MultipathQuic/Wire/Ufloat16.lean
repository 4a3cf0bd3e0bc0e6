import Mathlib.Data.Rat.Floor
import Mathlib.Order.Bounds.Basic
import Mathlib.Tactic.Linarith
import MultipathQuic.Library.RoundDown
import MultipathQuic.Wire.ByteOrder

/-!
# Delays as 16-bit floats

`float16.go`. A code is a mantissa with its hidden bit plus a multiple of 2^11, and counting codes
counts the values: the code after `m + e * 2^11` stands for `(m + 1) * 2^e`, also where the mantissa
overflows into the exponent. The writer shifts the highest bit of a value down to the hidden bit.
-/

namespace MultipathQuic

namespace ByteOrder

variable {v c e m : ℕ}

/-! ## Codes -/

theorem ufloat16Value_of_lt (h : c < 2 ^ 12) : ufloat16Value c = c := if_pos h

theorem ufloat16Bits_of_lt (h : v < 2 ^ 12) : ufloat16Bits v = v := if_pos h

theorem ufloat16Bits_of_le (h : uFloat16MaxValue ≤ v) : ufloat16Bits v = 2 ^ 16 - 1 := by
  have hlow : ¬v < 1 <<< 12 := Nat.not_lt.mpr (le_trans (by decide) h)
  exact (if_neg hlow).trans (if_pos h)

/-- A mantissa with its hidden bit, and an exponent. -/
theorem ufloat16Value_eq (hm : 2 ^ 11 ≤ m) (hm' : m < 2 ^ 12) (he : e ≤ 30) :
    ufloat16Value (m + e * 2 ^ 11) = m * 2 ^ e := by
  cases e with
  | zero => rw [zero_mul, add_zero, pow_zero, mul_one, ufloat16Value_of_lt hm']
  | succ e =>
    have hexponent : (m + (e + 1) * 2 ^ 11) >>> 11 - 1 = e + 1 := by
      rw [Nat.shiftRight_eq_div_pow]
      omega
    have hlt : m * 2 ^ (e + 1) < 2 ^ 64 := by
      calc m * 2 ^ (e + 1) < 2 ^ 12 * 2 ^ (e + 1) := by gcongr
        _ ≤ 2 ^ 12 * 2 ^ 30 := by gcongr; norm_num
        _ < 2 ^ 64 := by norm_num
    unfold ufloat16Value
    dsimp only
    rw [if_neg (by omega), hexponent, Nat.shiftLeft_eq (e + 1), Nat.add_sub_cancel,
      Nat.shiftLeft_eq, Nat.mod_eq_of_lt hlt]

/-- Every code that is not its own value has a mantissa and an exponent. -/
theorem exists_mantissa (hc : 2 ^ 11 ≤ c) (hc' : c < 2 ^ 16) :
    ∃ m e, c = m + e * 2 ^ 11 ∧ 2 ^ 11 ≤ m ∧ m < 2 ^ 12 ∧ e ≤ 30 :=
  ⟨c % 2 ^ 11 + 2 ^ 11, c / 2 ^ 11 - 1, by omega, by omega, by omega, by omega⟩

/-- The next code stands for the next mantissa, also where the mantissa overflows. -/
theorem ufloat16Value_add_one (hm : 2 ^ 11 ≤ m) (hm' : m < 2 ^ 12) (he : e ≤ 30)
    (hnext : m + e * 2 ^ 11 < 2 ^ 16 - 1) :
    ufloat16Value (m + e * 2 ^ 11 + 1) = (m + 1) * 2 ^ e := by
  rcases Nat.lt_or_ge (m + 1) (2 ^ 12) with hlt | hge
  · rw [Nat.add_right_comm, ufloat16Value_eq (by omega) hlt he]
  · have hcarry : m + e * 2 ^ 11 + 1 = 2 ^ 11 + (e + 1) * 2 ^ 11 := by omega
    have hm : m + 1 = 2 ^ 12 := by omega
    rw [hcarry, ufloat16Value_eq le_rfl (by norm_num) (by omega), hm, pow_succ]
    ring

theorem ufloat16Value_lt_succ (hc : c < 2 ^ 16 - 1) : ufloat16Value c < ufloat16Value (c + 1) := by
  rcases Nat.lt_or_ge c (2 ^ 11) with hlt | hge
  · rw [ufloat16Value_of_lt (by omega), ufloat16Value_of_lt (by omega)]
    exact Nat.lt_succ_self c
  · obtain ⟨m, e, rfl, hm, hm', he⟩ := exists_mantissa hge (by omega)
    rw [ufloat16Value_eq hm hm' he, ufloat16Value_add_one hm hm' he hc]
    exact Nat.mul_lt_mul_of_pos_right (Nat.lt_succ_self m) (Nat.two_pow_pos e)

/-! ## The binary search -/

/-- The offsets of a binary search over `2^k` exponents. -/
def halvings : ℕ → List ℕ
  | 0 => []
  | k + 1 => 2 ^ k :: halvings k

/-- The search shifts the highest bit of the value to position 11, and counts the shifts. -/
theorem normalizeUfloat16_halvings {value : ℕ} (k exponent : ℕ) (hlow : 2 ^ 11 ≤ value)
    (hhigh : value < 2 ^ (11 + 2 ^ k)) :
    ∃ n, normalizeUfloat16 (halvings k) (exponent, value) = (exponent + n, value >>> n) ∧
      2 ^ 11 ≤ value >>> n ∧ value >>> n < 2 ^ 12 := by
  induction k generalizing value exponent with
  | zero => exact ⟨0, rfl, hlow, hhigh⟩
  | succ k ih =>
    rw [halvings, normalizeUfloat16, Nat.shiftLeft_eq, one_mul]
    split_ifs with hshift
    · -- the highest bit is at or above `11 + 2^k`
      have hlow' : 2 ^ 11 ≤ value >>> 2 ^ k := by
        rw [Nat.shiftRight_eq_div_pow, Nat.le_div_iff_mul_le (Nat.two_pow_pos _), ← pow_add]
        exact hshift
      have hhigh' : value >>> 2 ^ k < 2 ^ (11 + 2 ^ k) := by
        rw [Nat.shiftRight_eq_div_pow, Nat.div_lt_iff_lt_mul (Nat.two_pow_pos _), ← pow_add]
        rwa [pow_succ, mul_two, ← add_assoc] at hhigh
      obtain ⟨n, heq, hle, hlt⟩ := ih (exponent + 2 ^ k) hlow' hhigh'
      rw [← Nat.shiftRight_add] at heq hle hlt
      exact ⟨2 ^ k + n, by rw [heq, add_assoc], hle, hlt⟩
    · exact ih exponent hlow (Nat.lt_of_not_le hshift)

/-- The code of a value in range that is not its own code. -/
theorem ufloat16Bits_eq (hlow : 2 ^ 12 ≤ v) (hhigh : v < uFloat16MaxValue) :
    ∃ m e, ufloat16Bits v = m + e * 2 ^ 11 ∧ m = v / 2 ^ e ∧ 2 ^ 11 ≤ m ∧ m < 2 ^ 12 ∧ e ≤ 30 := by
  have hmax : uFloat16MaxValue < 2 ^ 42 := by decide
  obtain ⟨e, heq, hle, hlt⟩ := normalizeUfloat16_halvings 5 0
    (le_trans (by norm_num) hlow) ((hhigh.trans hmax).trans (by norm_num))
  rw [Nat.shiftRight_eq_div_pow] at heq hle hlt
  have he : e ≤ 30 := by
    by_contra hgt
    have hpow : 2 ^ 42 ≤ v := by
      calc 2 ^ 42 = 2 ^ 11 * 2 ^ 31 := by norm_num
        _ ≤ v / 2 ^ e * 2 ^ e := by gcongr <;> omega
        _ ≤ v := Nat.div_mul_le_self v _
    omega
  refine ⟨v / 2 ^ e, e, ?_, rfl, hle, hlt, he⟩
  change normalizeUfloat16 [16, 8, 4, 2, 1] (0, v) = _ at heq
  have hbits : ufloat16Bits v = (v / 2 ^ e % 2 ^ 16 + (0 + e) <<< 11 % 2 ^ 16) % 2 ^ 16 := by
    have hlow : ¬v < 1 <<< 12 := Nat.not_lt.mpr hlow
    have hhigh : ¬v ≥ uFloat16MaxValue := Nat.not_le.mpr hhigh
    rw [ufloat16Bits, if_neg hlow, if_neg hhigh, heq]
  rw [hbits, zero_add, Nat.shiftLeft_eq]
  omega

/-! ## Rounding -/

theorem ufloat16Bits_lt (v : ℕ) : ufloat16Bits v < 2 ^ 16 := by
  rcases Nat.lt_or_ge v (2 ^ 12) with hlow | hlow
  · rw [ufloat16Bits_of_lt hlow]
    omega
  rcases Nat.lt_or_ge v uFloat16MaxValue with hhigh | hhigh
  · obtain ⟨m, e, heq, -, hm, hm', he⟩ := ufloat16Bits_eq hlow hhigh
    omega
  · rw [ufloat16Bits_of_le hhigh]
    omega

/-- The code of a value is the last one that does not exceed the value. -/
theorem roundsDown_ufloat16 : RoundDown ufloat16Value (2 ^ 16 - 1) ufloat16Bits where
  lt_succ := fun _ => ufloat16Value_lt_succ
  le_last := fun v => Nat.le_sub_one_of_lt (ufloat16Bits_lt v)
  value_le := by
    intro v
    rcases Nat.lt_or_ge v (2 ^ 12) with hlow | hlow
    · rw [ufloat16Bits_of_lt hlow, ufloat16Value_of_lt hlow]
    rcases Nat.lt_or_ge v uFloat16MaxValue with hhigh | hhigh
    · obtain ⟨m, e, heq, hdiv, hm, hm', he⟩ := ufloat16Bits_eq hlow hhigh
      rw [heq, ufloat16Value_eq hm hm' he, hdiv]
      exact Nat.div_mul_le_self v _
    · rw [ufloat16Bits_of_le hhigh]
      exact hhigh
  lt_next := by
    intro v hlast
    rcases Nat.lt_or_ge v (2 ^ 12) with hlow | hlow
    · rw [ufloat16Bits_of_lt hlow]
      rcases Nat.lt_or_ge (v + 1) (2 ^ 12) with hlt | hge
      · rw [ufloat16Value_of_lt hlt]
        exact Nat.lt_succ_self v
      · obtain rfl : v = 2 ^ 12 - 1 := by omega
        decide
    rcases Nat.lt_or_ge v uFloat16MaxValue with hhigh | hhigh
    · obtain ⟨m, e, heq, hdiv, hm, hm', he⟩ := ufloat16Bits_eq hlow hhigh
      rw [heq] at hlast ⊢
      rw [ufloat16Value_add_one hm hm' he hlast, hdiv, mul_comm]
      exact Nat.lt_mul_div_succ v (Nat.two_pow_pos e)
    · rw [ufloat16Bits_of_le hhigh] at hlast
      omega

theorem roundUfloat16_eq (v : ℕ) : roundUfloat16 v = ufloat16Value (ufloat16Bits v) := by
  have hlt : ufloat16Bits v < 256 ^ 2 := ufloat16Bits_lt v
  rw [roundUfloat16, Nat.mod_eq_of_lt hlt]

/-- Of a value in range, less than one part in 2^11 is lost. -/
theorem sub_roundUfloat16_lt (hv : v ≤ uFloat16MaxValue) (hpos : 0 < v) :
    (v - roundUfloat16 v) * 2 ^ 11 < v := by
  rw [roundUfloat16_eq]
  rcases Nat.lt_or_ge v (2 ^ 12) with hlow | hlow
  · rw [ufloat16Bits_of_lt hlow, ufloat16Value_of_lt hlow, Nat.sub_self, zero_mul]
    exact hpos
  rcases hv.lt_or_eq with hlt | rfl
  · obtain ⟨m, e, heq, hdiv, hm, hm', he⟩ := ufloat16Bits_eq hlow hlt
    rw [heq, ufloat16Value_eq hm hm' he, hdiv]
    have hrest : v - v / 2 ^ e * 2 ^ e = v % 2 ^ e := by
      rw [mul_comm]
      exact (Nat.mod_eq_sub_mul_div).symm
    calc (v - v / 2 ^ e * 2 ^ e) * 2 ^ 11 < 2 ^ e * 2 ^ 11 := by
          rw [hrest]
          exact Nat.mul_lt_mul_of_pos_right (Nat.mod_lt v (Nat.two_pow_pos e)) (by norm_num)
      _ ≤ v / 2 ^ e * 2 ^ e := by
          rw [mul_comm]
          exact Nat.mul_le_mul_right _ (hdiv ▸ hm)
      _ ≤ v := Nat.div_mul_le_self v _
  · decide

/-- **`writeUfloat16` rounds down.** What is read back is the largest value with a code that is at
most the value that was written, and the largest one of all from `uFloat16MaxValue` on. In range,
the relative error is below 2^-11. Larger values have larger codes. -/
theorem ufloat16_rounds_down (bo : ByteOrder) (v : UInt64) (r : List UInt8) :
    ∃ d, (bo.readUfloat16).run (bo.writeUfloat16 v.toNat ++ r) = .ok (d, r) ∧
      IsGreatest {x | (∃ code < 2 ^ 16, ufloat16Value code = x) ∧ x ≤ v.toNat} d ∧
      (uFloat16MaxValue ≤ v.toNat → IsGreatest {x | ∃ code < 2 ^ 16, ufloat16Value code = x} d) ∧
      (v.toNat ≤ uFloat16MaxValue → ((v.toNat : ℚ) - d) / v.toNat < 1 / 2 ^ 11) ∧
      ∀ w : UInt64, v ≤ w → ufloat16Bits v.toNat ≤ ufloat16Bits w.toNat := by
  refine ⟨_, run_readUfloat16_round bo v.toNat r, ?_, fun hmax => ?_, fun hrange => ?_,
    fun w hw => roundsDown_ufloat16.mono (UInt64.le_iff_toNat_le.mp hw)⟩
  · rw [roundUfloat16_eq]
    exact roundsDown_ufloat16.isGreatest v.toNat
  · rw [roundUfloat16_eq, ufloat16Bits_of_le hmax]
    refine ⟨⟨_, by norm_num, rfl⟩, ?_⟩
    rintro _ ⟨c, hc, rfl⟩
    exact roundsDown_ufloat16.value_mono (Nat.le_sub_one_of_lt hc) le_rfl
  · rcases Nat.eq_zero_or_pos v.toNat with hzero | hpos
    · rw [hzero]
      norm_num
    · have hle : roundUfloat16 v.toNat ≤ v.toNat := by
        rw [roundUfloat16_eq]
        exact roundsDown_ufloat16.value_le v.toNat
      have hlt := sub_roundUfloat16_lt hrange hpos
      rw [← Nat.cast_sub hle, div_lt_div_iff₀ (Nat.cast_pos.mpr hpos) (by positivity), one_mul]
      exact_mod_cast hlt

end ByteOrder

end MultipathQuic
