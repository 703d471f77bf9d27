import Provisioning.Proofs.Decimal.Value
import Provisioning.Proofs.Double.Nearest

namespace Provisioning

theorem roundDiv_le {n d b : ℕ} (hd : 0 < d) (h : (n : ℚ) / d ≤ b) : roundDiv n d ≤ b := by
  have hnear := (abs_le.1 (abs_roundDiv_sub_le n hd)).2
  have hlt : (roundDiv n d : ℚ) < b + 1 := by linarith
  exact Nat.lt_succ_iff.1 (by exact_mod_cast hlt)

theorem roundDiv_eq_iff {n d : ℕ} (hd : 0 < d) :
    (roundDiv n d : ℚ) = n / d ↔ ∃ k : ℕ, (n : ℚ) / d = k := by
  constructor
  · intro h
    exact ⟨roundDiv n d, h.symm⟩
  · intro h
    obtain ⟨k, hk⟩ := h
    have hround : roundDiv n d = k := roundDiv_eq_of_abs_lt hd (by simp [hk])
    rw [hk, hround]

namespace Decimal

/-- The nearest multiple of `10 ^ unit`, a tie to the even one, unless it has more than `precision`
digits. -/
def quantize? (precision : ℕ) (unit : ℤ) : Decimal → Option Decimal
  | finite neg c e =>
    let m := roundDiv (c * 10 ^ (e - unit).toNat) (10 ^ (unit - e).toNat)
    if digitCount m ≤ precision then some (finite neg m unit) else none
  | _ => none

theorem units_eq (c : ℕ) (e unit : ℤ) :
    ((c * 10 ^ (e - unit).toNat : ℕ) : ℚ) / (10 ^ (unit - e).toNat : ℕ) = c * 10 ^ e / 10 ^ unit := by
  have hpow : (10 : ℚ) ^ e / 10 ^ unit =
      (10 ^ (e - unit).toNat : ℕ) / (10 ^ (unit - e).toNat : ℕ) := by
    rw [← zpow_sub₀ (by norm_num), ten_zpow_eq, neg_sub]
  rw [mul_div_assoc, hpow, Nat.cast_mul, mul_div_assoc]

variable {precision : ℕ} {unit : ℤ} {d r : Decimal} {q : ℚ}

theorem abs_eq_of_value? {neg : Bool} {c : ℕ} {e : ℤ} (h : (finite neg c e).value? = some q) :
    |q| = c * 10 ^ e := by
  have hpos := ten_zpow_pos e
  have hnonneg : (0 : ℚ) ≤ c * 10 ^ e := by positivity
  simp only [value?, Option.some.injEq, mul_assoc] at h
  rw [← h, abs_mul, abs_of_nonneg hnonneg]
  cases neg <;> simp

theorem exists_int_mul_iff {u : ℚ} (hu : 0 < u) : (∃ k : ℤ, q = k * u) ↔ ∃ k : ℕ, |q| = k * u := by
  constructor
  · intro h
    obtain ⟨k, hk⟩ := h
    exact ⟨k.natAbs, by rw [hk, abs_mul, abs_of_pos hu, Nat.cast_natAbs, Int.cast_abs]⟩
  · intro h
    obtain ⟨k, hk⟩ := h
    rcases abs_choice q with hq | hq
    · exact ⟨k, by rw [Int.cast_natCast, ← hk, hq]⟩
    · have hneg : -q = k * u := hq.symm.trans hk
      exact ⟨-k, by rw [Int.cast_neg, Int.cast_natCast, neg_mul, ← hneg, neg_neg]⟩

theorem exists_quantize {b : ℕ} (hb : b < 10 ^ precision) (hp : 0 < precision)
    (hd : d.value? = some q) (hq : |q| ≤ b * 10 ^ unit) : ∃ r, d.quantize? precision unit = some r := by
  cases d with
  | finite neg c e =>
    have hunits : ((c * 10 ^ (e - unit).toNat : ℕ) : ℚ) / (10 ^ (unit - e).toNat : ℕ) ≤ b := by
      rw [units_eq, div_le_iff₀ (ten_zpow_pos unit), ← abs_eq_of_value? hd]
      exact hq
    have hle := roundDiv_le (Nat.pow_pos (by decide)) hunits
    have hdigits := digitCount_le hp (hle.trans_lt hb)
    simp [quantize?, hdigits]
  | infinite neg => simp [value?] at hd
  | nan neg signalling payload => simp [value?] at hd

/-- Nothing is lost by rounding a multiple of the unit, and something is by rounding any other number. -/
theorem eqv_quantize_iff (h : d.quantize? precision unit = some r) (hd : d.value? = some q) :
    r.eqv d = true ↔ ∃ k : ℤ, q = k * 10 ^ unit := by
  cases d with
  | finite neg c e =>
    have hunit := ten_zpow_pos unit
    have hround := roundDiv_eq_iff (n := c * 10 ^ (e - unit).toNat)
      (d := 10 ^ (unit - e).toNat) (Nat.pow_pos (by decide))
    rw [units_eq] at hround
    simp only [quantize?, Option.ite_none_right_eq_some, Option.some.injEq] at h
    obtain ⟨-, rfl⟩ := h
    rw [eqv_finite_iff, exists_int_mul_iff hunit, abs_eq_of_value? hd]
    simp only [← div_eq_iff hunit.ne', ← hround]
    rw [eq_div_iff hunit.ne']
    cases neg <;> simp [value?]
  | infinite neg => simp [value?] at hd
  | nan neg signalling payload => simp [value?] at hd

end Decimal
end Provisioning
