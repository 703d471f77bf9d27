import Provisioning.Proofs.Double.Nearest
import Provisioning.Proofs.Percentage
import Provisioning.Store.Save

namespace Provisioning

open Double

theorem millionths_eq_of_abs_lt {m k : ℕ} {x : ℤ}
    (h : |(m : ℚ) * 2 ^ x - k / 10 ^ 6| < 1 / 2 / 10 ^ 6) : millionths m x = k := by
  change roundDiv (scaleByTwo (m * 10 ^ 6) 1 x).1 (scaleByTwo (m * 10 ^ 6) 1 x).2 = k
  refine roundDiv_eq_of_abs_lt (scaleByTwo_snd_pos _ x Nat.one_pos) ?_
  rw [scaleByTwo_div]
  have hscale : ((m * 10 ^ 6 : ℕ) : ℚ) / (1 : ℕ) * 2 ^ x - k
      = ((m : ℚ) * 2 ^ x - k / 10 ^ 6) * 10 ^ 6 := by
    push_cast
    ring
  rw [hscale, abs_mul, abs_of_pos (by positivity : (0 : ℚ) < 10 ^ 6)]
  exact (lt_div_iff₀ (by positivity)).1 h

theorem exponentFor_le {n d : ℕ} (hn : 0 < n) (hd : 0 < d) (h : (n : ℚ) / d < 2 ^ (7 : ℤ)) :
    exponentFor n d ≤ -46 := by
  rcases (exponentFor_bounds hn hd).2 with hleast | hle
  · rw [hleast]
    decide
  · have hlt := (zpow_lt_zpow_iff_right₀ (by norm_num : (1 : ℚ) < 2)).1 (hle.trans_lt h)
    omega

theorem pow_digitCount_sub_one_le {c : ℕ} (hc : 0 < c) : 10 ^ (digitCount c - 1) ≤ c := by
  by_contra hlt
  have hpos : 0 < digitCount c - 1 := by
    by_contra hzero
    rw [Nat.eq_zero_of_not_pos hzero] at hlt
    omega
  have hle := (Nat.length_toDigits_le_iff (by decide) hpos).2 (not_le.1 hlt)
  have hcount := digitCount_pos c
  simp only [digitCount, digits] at hle hcount hpos
  omega

theorem leading_bounds {c k : ℕ} {e : ℤ} (hk0 : 0 < k) (hk : k ≤ 100 * 10 ^ 6)
    (hv : (c : ℚ) * 10 ^ e = k / 10 ^ 6) :
    -6 < e + digitCount c ∧ e + digitCount c ≤ 3 := by
  have hc : 0 < c := by
    rcases Nat.eq_zero_or_pos c with rfl | hc
    · have hzero : (k : ℚ) = 0 := by simpa using hv.symm
      exact absurd (Nat.cast_eq_zero.1 hzero) hk0.ne'
    · exact hc
  have hlow : (10 : ℚ) ^ (-6 : ℤ) ≤ k / 10 ^ 6 := by
    have : (1 : ℚ) ≤ k := by exact_mod_cast hk0
    rw [zpow_neg, ← one_div]
    exact div_le_div_of_nonneg_right this (by positivity)
  have hhigh : (k : ℚ) / 10 ^ 6 ≤ 10 ^ (2 : ℤ) := by
    have : (k : ℚ) ≤ 100 * 10 ^ 6 := by exact_mod_cast hk
    rw [div_le_iff₀ (by positivity)]
    norm_num at this ⊢
    exact this
  constructor
  · have hlt : (c : ℚ) * 10 ^ e < 10 ^ (e + digitCount c) := by
      have : (c : ℚ) < 10 ^ digitCount c := by exact_mod_cast Decimal.lt_pow_digitCount c
      rw [zpow_add₀ (by norm_num), mul_comm, zpow_natCast]
      have := Decimal.ten_zpow_pos e
      gcongr
    have := (hlow.trans_eq hv.symm).trans_lt hlt
    exact (zpow_lt_zpow_iff_right₀ (by norm_num)).1 this
  · have hle : (10 : ℚ) ^ (e + digitCount c - 1) ≤ c * 10 ^ e := by
      have : ((10 ^ (digitCount c - 1) : ℕ) : ℚ) ≤ c := by
        exact_mod_cast pow_digitCount_sub_one_le hc
      have hsplit : e + digitCount c - 1 = e + (digitCount c - 1 : ℕ) := by
        have := digitCount_pos c
        omega
      rw [hsplit, zpow_add₀ (by norm_num), mul_comm, zpow_natCast]
      push_cast at this
      have := Decimal.ten_zpow_pos e
      gcongr
    have := (hle.trans_eq hv).trans hhigh
    have := (zpow_le_zpow_iff_right₀ (by norm_num)).1 this
    omega

/-- The double nearest to a positive number of millionths up to 100 rounds back to it. -/
theorem exists_ofScientific_eq (neg : Bool) {c k : ℕ} {e : ℤ} (hk0 : 0 < k)
    (hk : k ≤ 100 * 10 ^ 6) (hv : (c : ℚ) * 10 ^ e = k / 10 ^ 6) :
    ∃ m x, ofScientific neg c e = .finite neg m x ∧ millionths m x = k := by
  obtain ⟨hlow, hhigh⟩ := leading_bounds hk0 hk hv
  have hc : c ≠ 0 := by
    intro h
    subst h
    have : (k : ℚ) = 0 := by simpa using hv.symm
    exact hk0.ne' (Nat.cast_eq_zero.1 this)
  have hquot : ((c * 10 ^ e.toNat : ℕ) : ℚ) / (10 ^ (-e).toNat : ℕ) = k / 10 ^ 6 := by
    rw [← hv, Decimal.ten_zpow_eq]
    push_cast
    ring
  have hn : 0 < c * 10 ^ e.toNat := Nat.mul_pos (Nat.pos_of_ne_zero hc) (by positivity)
  have hden : 0 < 10 ^ (-e).toNat := by positivity
  have hsmall : ((c * 10 ^ e.toNat : ℕ) : ℚ) / (10 ^ (-e).toNat : ℕ) < 2 ^ (7 : ℤ) := by
    have : (k : ℚ) ≤ 100 * 10 ^ 6 := by exact_mod_cast hk
    rw [hquot, div_lt_iff₀ (by positivity)]
    norm_num at this ⊢
    linarith
  have hexp := exponentFor_le hn hden hsmall
  obtain ⟨m, x, hnear, herr⟩ := exists_nearest_eq neg hn hden (hexp.trans_lt (by decide))
  refine ⟨m, x, ?_, millionths_eq_of_abs_lt ?_⟩
  · simp only [digitCount, digits] at hlow hhigh
    rw [ofScientific, if_neg (by omega), if_neg (by omega)]
    exact hnear
  · rw [hquot] at herr
    have hunit : (2 : ℚ) ^ exponentFor (c * 10 ^ e.toNat) (10 ^ (-e).toNat) ≤ 2 ^ (-46 : ℤ) :=
      zpow_le_zpow_right₀ (by norm_num) hexp
    refine (herr.trans (div_le_div_of_nonneg_right hunit (by norm_num))).trans_lt ?_
    norm_num

namespace Decimal

theorem stored?_eq {d : Decimal} {k : ℕ} (hk : k ≤ 100 * 10 ^ 6)
    (hd : d.value? = some ((k : ℚ) / 10 ^ 6)) : d.stored? = some (finite false k (-6)) := by
  cases d with
  | infinite neg => simp [value?] at hd
  | nan neg signalling payload => simp [value?] at hd
  | finite neg c e =>
    obtain ⟨hneg, hv⟩ : (neg = false ∨ (c : ℚ) * 10 ^ e = 0 ∧ (k : ℚ) / 10 ^ 6 = 0) ∧
        (c : ℚ) * 10 ^ e = k / 10 ^ 6 := by
      refine (sign_mul_eq_iff (by positivity) (by positivity) neg false).1 ?_
      simpa [value?, mul_assoc] using hd
    rcases Nat.eq_zero_or_pos k with rfl | hk0
    · have hc : c = 0 := by simpa [(ten_zpow_pos e).ne'] using hv
      have hzero : millionths 0 Double.leastExponent = 0 := millionths_eq_of_abs_lt (by norm_num)
      simp [stored?, ofScientific, hc, hzero]
    · have hneg' : neg = false := hneg.resolve_right fun h ↦ by
        have : (k : ℚ) = 0 := by simpa using h.2
        exact hk0.ne' (Nat.cast_eq_zero.1 this)
      subst hneg'
      obtain ⟨m, x, hsci, hround⟩ := exists_ofScientific_eq false hk0 hk hv
      simp [stored?, hsci, hround]

end Decimal
end Provisioning
