import Provisioning.Double.Basic
import Mathlib.Algebra.Order.Field.Power
import Mathlib.Data.Nat.Log
import Mathlib.Data.Rat.Defs
import Mathlib.Tactic.FieldSimp
import Mathlib.Tactic.Linarith
import Mathlib.Tactic.NormNum
import Mathlib.Tactic.Positivity
import Mathlib.Tactic.Ring

namespace Provisioning

theorem abs_roundDiv_sub_le (n : ℕ) {d : ℕ} (hd : 0 < d) :
    |(roundDiv n d : ℚ) - n / d| ≤ 1 / 2 := by
  have hd' : (0 : ℚ) < d := Nat.cast_pos.2 hd
  have hsplit : (n : ℚ) / d = (n / d : ℕ) + (n % d : ℕ) / d := by
    rw [div_eq_iff hd'.ne', add_mul, div_mul_cancel₀ _ hd'.ne']
    exact_mod_cast (Nat.div_add_mod' n d).symm
  have hlt : (n % d : ℕ) / (d : ℚ) < 1 := by
    rw [div_lt_one hd']
    exact_mod_cast Nat.mod_lt n hd
  have hnonneg : (0 : ℚ) ≤ (n % d : ℕ) / (d : ℚ) := by positivity
  rw [roundDiv, hsplit]
  split
  · rename_i h
    have hhalf : (n % d : ℕ) / (d : ℚ) ≤ 1 / 2 := by
      rw [div_le_iff₀ hd']
      have h2 : 2 * (n % d) ≤ d := h.elim Nat.le_of_lt fun h ↦ h.1.le
      have h2' : (2 * (n % d : ℕ) : ℚ) ≤ d := by exact_mod_cast h2
      linarith
    rw [abs_le]
    constructor <;> linarith
  · rename_i h
    have hhalf : 1 / 2 ≤ (n % d : ℕ) / (d : ℚ) := by
      rw [le_div_iff₀ hd']
      have h2 : d ≤ 2 * (n % d) := by
        push Not at h
        exact h.1
      have h2' : (d : ℚ) ≤ 2 * (n % d : ℕ) := by exact_mod_cast h2
      linarith
    push_cast
    rw [abs_le]
    constructor <;> linarith

theorem roundDiv_eq_of_abs_lt {n d k : ℕ} (hd : 0 < d) (h : |(n : ℚ) / d - k| < 1 / 2) :
    roundDiv n d = k := by
  have hr := abs_roundDiv_sub_le n hd
  have hclose : |((roundDiv n d : ℤ) - (k : ℤ) : ℚ)| < 1 := by
    have htri := abs_sub_le (roundDiv n d : ℚ) (n / d) k
    push_cast
    linarith
  have hzero : (roundDiv n d : ℤ) - k = 0 := Int.abs_lt_one_iff.1 (by exact_mod_cast hclose)
  omega

theorem scaleByTwo_div (n d : ℕ) (k : ℤ) :
    ((scaleByTwo n d k).1 : ℚ) / (scaleByTwo n d k).2 = n / d * 2 ^ k := by
  have hk : (2 : ℚ) ^ k = 2 ^ k.toNat / 2 ^ (-k).toNat := by
    rw [← zpow_natCast, ← zpow_natCast, ← zpow_sub₀ (by norm_num)]
    congr 1
    omega
  simp only [scaleByTwo, Nat.pow_eq]
  push_cast
  rw [hk, div_mul_div_comm]

theorem scaleByTwo_snd_pos (n : ℕ) {d : ℕ} (k : ℤ) (hd : 0 < d) : 0 < (scaleByTwo n d k).2 :=
  Nat.mul_pos hd (Nat.pow_pos (by decide))

namespace Double

/-- The logarithms of a quotient's parts tell its size up to a factor of two. -/
theorem log2_quotient_bounds {n d : ℕ} (hn : 0 < n) (hd : 0 < d) :
    (2 : ℚ) ^ ((n.log2 : ℤ) - d.log2 - 1) < n / d ∧
      (n : ℚ) / d < 2 ^ ((n.log2 : ℤ) - d.log2 + 1) := by
  have low (m : ℕ) (hm : 0 < m) : (2 : ℚ) ^ (m.log2 : ℤ) ≤ m := by
    exact_mod_cast Nat.log2_self_le hm.ne'
  have high (m : ℕ) : (m : ℚ) < 2 ^ ((m.log2 : ℤ) + 1) := by
    exact_mod_cast Nat.lt_log2_self (n := m)
  have hd' : (0 : ℚ) < d := Nat.cast_pos.2 hd
  constructor
  · rw [lt_div_iff₀ hd']
    calc (2 : ℚ) ^ ((n.log2 : ℤ) - d.log2 - 1) * d
        < 2 ^ ((n.log2 : ℤ) - d.log2 - 1) * 2 ^ ((d.log2 : ℤ) + 1) := by
          have := high d
          gcongr
      _ = 2 ^ (n.log2 : ℤ) := by
          rw [← zpow_add₀ (by norm_num)]
          congr 1
          ring
      _ ≤ n := low n hn
  · rw [div_lt_iff₀ hd']
    calc (n : ℚ) < 2 ^ ((n.log2 : ℤ) + 1) := high n
      _ = 2 ^ ((n.log2 : ℤ) - d.log2 + 1) * 2 ^ (d.log2 : ℤ) := by
          rw [← zpow_add₀ (by norm_num)]
          congr 1
          ring
      _ ≤ 2 ^ ((n.log2 : ℤ) - d.log2 + 1) * d := by
          have := low d hd
          gcongr

/-- In units of the chosen exponent the quotient has at most 53 bits, and no fewer unless the exponent
is the least. -/
theorem exponentFor_bounds {n d : ℕ} (hn : 0 < n) (hd : 0 < d) :
    (n : ℚ) / d < 2 ^ (exponentFor n d + 53) ∧
      (exponentFor n d = leastExponent ∨ (2 : ℚ) ^ (exponentFor n d + 52) ≤ n / d) := by
  obtain ⟨hlow, hhigh⟩ := log2_quotient_bounds hn hd
  set k : ℤ := (n.log2 : ℤ) - d.log2 with hk
  have hcmp : (scaleByTwo n d (-k)).2 ≤ (scaleByTwo n d (-k)).1 ↔ (2 : ℚ) ^ k ≤ n / d := by
    have hb : (0 : ℚ) < (scaleByTwo n d (-k)).2 := Nat.cast_pos.2 (scaleByTwo_snd_pos n (-k) hd)
    have hone := one_le_div hb (a := ((scaleByTwo n d (-k)).1 : ℚ))
    rw [scaleByTwo_div, zpow_neg, ← div_eq_mul_inv, one_le_div (by positivity)] at hone
    exact (Nat.cast_le (α := ℚ)).symm.trans hone.symm
  -- The exponent before the limit from below is applied.
  obtain ⟨e, he, hupper, hlower⟩ : ∃ e : ℤ, exponentFor n d = max e leastExponent ∧
      (n : ℚ) / d < 2 ^ (e + 53) ∧ (2 : ℚ) ^ (e + 52) ≤ n / d := by
    by_cases h : (2 : ℚ) ^ k ≤ n / d
    · refine ⟨k - 52, ?_, ?_, ?_⟩
      · simp only [exponentFor, ← hk, if_pos (hcmp.2 h)]
      · rwa [show k - 52 + 53 = k + 1 by ring]
      · rwa [show k - 52 + 52 = k by ring]
    · refine ⟨k - 53, ?_, ?_, ?_⟩
      · simp only [exponentFor, ← hk, if_neg (mt hcmp.1 h)]
      · rw [show k - 53 + 53 = k by ring]
        exact not_le.1 h
      · rw [show k - 53 + 52 = k - 1 by ring]
        exact hlow.le
  rw [he]
  constructor
  · refine hupper.trans_le (zpow_le_zpow_right₀ (by norm_num) ?_)
    omega
  · rcases le_total e leastExponent with hle | hle
    · exact .inl (max_eq_right hle)
    · rw [max_eq_left hle]
      exact .inr hlower

theorem normal_eq_finite (neg : Bool) {m : ℕ} {e : ℤ} (hm : m ≤ 2 ^ 53)
    (he : e < greatestExponent) :
    ∃ m' e', normal neg m e = finite neg m' e' ∧ (m' : ℚ) * 2 ^ e' = m * 2 ^ e := by
  rw [normal, Nat.pow_eq]
  split
  · exact ⟨m, e, if_neg (by omega), rfl⟩
  · have hm' : m = 2 ^ 53 := by omega
    refine ⟨m / 2, e + 1, if_neg (by omega), ?_⟩
    rw [hm', zpow_add₀ (by norm_num)]
    norm_num
    ring

theorem roundDiv_exponentFor_le {n d : ℕ} (hn : 0 < n) (hd : 0 < d) :
    roundDiv (scaleByTwo n d (-exponentFor n d)).1 (scaleByTwo n d (-exponentFor n d)).2 ≤ 2 ^ 53 := by
  obtain ⟨hupper, -⟩ := exponentFor_bounds hn hd
  set x := exponentFor n d
  have hpow : (0 : ℚ) < 2 ^ x := by positivity
  have hround := abs_roundDiv_sub_le (scaleByTwo n d (-x)).1 (scaleByTwo_snd_pos n (-x) hd)
  set r := roundDiv (scaleByTwo n d (-x)).1 (scaleByTwo n d (-x)).2
  rw [scaleByTwo_div, zpow_neg, ← div_eq_mul_inv] at hround
  have hlt : (n : ℚ) / d / 2 ^ x < 2 ^ 53 := by
    rw [div_lt_iff₀ hpow]
    calc (n : ℚ) / d < 2 ^ (x + 53) := hupper
      _ = 2 ^ 53 * 2 ^ x := by
        rw [zpow_add₀ (by norm_num), mul_comm]
        norm_num
  have hr : (r : ℚ) < (2 ^ 53 : ℕ) + 1 := by
    push_cast
    linarith [(abs_le.1 hround).2]
  have : r < 2 ^ 53 + 1 := by exact_mod_cast hr
  omega

theorem exists_nearest_eq (neg : Bool) {n d : ℕ} (hn : 0 < n) (hd : 0 < d)
    (he : exponentFor n d < greatestExponent) :
    ∃ m e, nearest neg n d = finite neg m e ∧
      |(m : ℚ) * 2 ^ e - n / d| ≤ 2 ^ exponentFor n d / 2 := by
  set x := exponentFor n d with hx
  have hpow : (0 : ℚ) < 2 ^ x := by positivity
  have hquot := scaleByTwo_div n d (-x)
  have hb := scaleByTwo_snd_pos n (-x) hd
  have hround := abs_roundDiv_sub_le (scaleByTwo n d (-x)).1 hb
  set r := roundDiv (scaleByTwo n d (-x)).1 (scaleByTwo n d (-x)).2 with hr
  rw [hquot, zpow_neg, ← div_eq_mul_inv] at hround
  have hsize : r ≤ 2 ^ 53 := roundDiv_exponentFor_le hn hd
  obtain ⟨m, e, hnormal, hvalue⟩ := normal_eq_finite neg hsize he
  refine ⟨m, e, ?_, ?_⟩
  · simp only [nearest, if_neg hn.ne', ← hx, ← hr, hnormal]
  · have hscale : (r : ℚ) * 2 ^ x - n / d = (r - n / d / 2 ^ x) * 2 ^ x := by
      rw [sub_mul, div_mul_cancel₀ _ hpow.ne']
    rw [hvalue, hscale, abs_mul, abs_of_pos hpow]
    have := mul_le_mul_of_nonneg_right hround hpow.le
    linarith

end Double
end Provisioning
