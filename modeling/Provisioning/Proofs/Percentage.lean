import Provisioning.Proofs.Decimal.Value

namespace Provisioning

namespace Decimal

def IsPercentage (d : Decimal) : Prop :=
  ∃ k : ℕ, k ≤ 100 * 10 ^ 6 ∧ d.value? = some ((k : ℚ) / 10 ^ 6)

theorem mul_zpow_of_nonneg (c : ℕ) {e : ℤ} (he : 0 ≤ e) :
    (c : ℚ) * 10 ^ e = (c * 10 ^ e.toNat : ℕ) := by
  have hn : (-e).toNat = 0 := by omega
  rw [ten_zpow_eq, hn]
  push_cast
  ring

theorem mul_zpow_of_neg (c : ℕ) {e : ℤ} (he : e < 0) :
    (c : ℚ) * 10 ^ e = c / (10 ^ (-e).toNat : ℕ) := by
  have hn : e.toNat = 0 := by omega
  rw [ten_zpow_eq, hn]
  push_cast
  ring

theorem mul_zpow_le_hundred_iff (c : ℕ) (e : ℤ) :
    (c : ℚ) * 10 ^ e ≤ 100 ↔
      c = 0 ∨ if 0 ≤ e then e ≤ 2 ∧ c * 10 ^ e.toNat ≤ 100
        else digitCount c ≤ (-e).toNat ∨ c ≤ 100 * 10 ^ (-e).toNat := by
  rcases Nat.eq_zero_or_pos c with rfl | hc
  · simp
  rw [or_iff_right hc.ne']
  split
  · rename_i he
    rw [mul_zpow_of_nonneg c he]
    have hcast : ((c * 10 ^ e.toNat : ℕ) : ℚ) ≤ 100 ↔ c * 10 ^ e.toNat ≤ 100 := by norm_cast
    rw [hcast, iff_and_self]
    intro h
    by_contra hlt
    have hpow : 10 ^ 3 ≤ 10 ^ e.toNat := Nat.pow_le_pow_right (by decide) (by omega)
    have hle : 10 ^ e.toNat ≤ c * 10 ^ e.toNat := Nat.le_mul_of_pos_left _ hc
    omega
  · rename_i he
    have hpos : (0 : ℚ) < (10 ^ (-e).toNat : ℕ) := by positivity
    rw [mul_zpow_of_neg c (by omega), div_le_iff₀ hpos]
    have hcast : (c : ℚ) ≤ 100 * (10 ^ (-e).toNat : ℕ) ↔ c ≤ 100 * 10 ^ (-e).toNat := by norm_cast
    rw [hcast, iff_comm, or_iff_right_iff_imp]
    intro hd
    have hpow : 10 ^ digitCount c ≤ 10 ^ (-e).toNat := Nat.pow_le_pow_right (by decide) hd
    have hlt := lt_pow_digitCount c
    omega

theorem isPercent_iff {d : Decimal} :
    d.isPercent = true ↔ ∃ q, d.value? = some q ∧ 0 ≤ q ∧ q ≤ 100 := by
  cases d with
  | infinite neg => simp [isPercent, value?]
  | nan neg signalling payload => simp [isPercent, value?]
  | finite neg c e =>
    have hle := mul_zpow_le_hundred_iff c e
    have hpos : 0 < c → 0 < (c : ℚ) * 10 ^ e := fun hc ↦
      mul_pos (Nat.cast_pos.2 hc) (ten_zpow_pos e)
    simp only [value?, Option.some_inj, exists_eq_left', mul_assoc]
    rcases Nat.eq_zero_or_pos c with rfl | hc
    · simp [isPercent]
    cases neg
    · rw [or_iff_right hc.ne'] at hle
      simp only [Bool.false_eq_true, ↓reduceIte, one_mul, hle, (hpos hc).le, true_and]
      simp only [isPercent, Nat.pow_eq, Bool.or_eq_true, beq_iff_eq, hc.ne', false_or,
        Bool.not_false, Bool.true_and]
      split <;> simp
    · have hneg : ¬ (c : ℚ) * 10 ^ e ≤ 0 := (hpos hc).not_ge
      simp [isPercent, hc.ne', hneg]

theorem isWholeMillionths_finite_iff {neg : Bool} {c : ℕ} {e : ℤ} :
    (finite neg c e).isWholeMillionths = true ↔ ∃ k : ℕ, (c : ℚ) * 10 ^ e = k / 10 ^ 6 := by
  have hshift : ∀ k : ℕ, (c : ℚ) * 10 ^ e = k / 10 ^ 6 ↔ (c : ℚ) * 10 ^ (e + 6) = k := by
    intro k
    rw [zpow_add₀ (by norm_num), ← mul_assoc, eq_div_iff (by norm_num)]
    norm_num
  simp only [hshift, isWholeMillionths, Nat.pow_eq]
  rcases Nat.eq_zero_or_pos c with rfl | hc
  · simpa using ⟨0, Nat.cast_zero.symm⟩
  by_cases he : -6 ≤ e
  · simpa [he] using ⟨_, mul_zpow_of_nonneg c (by omega)⟩
  · have hn : (-(e + 6)).toNat = (-6 - e).toNat := by omega
    rw [mul_zpow_of_neg c (by omega), hn]
    have hp : ((10 ^ (-6 - e).toNat : ℕ) : ℚ) ≠ 0 := by positivity
    have hdvd : (∃ k : ℕ, (c : ℚ) / (10 ^ (-6 - e).toNat : ℕ) = k) ↔ 10 ^ (-6 - e).toNat ∣ c := by
      simp only [div_eq_iff hp, Dvd.dvd, Nat.mul_comm (10 ^ _) _]
      exact exists_congr fun k ↦ by exact_mod_cast Iff.rfl
    rw [hdvd, Nat.dvd_iff_mod_eq_zero]
    simp only [hc.ne', he, beq_iff_eq, Bool.or_eq_true, Bool.and_eq_true, decide_eq_true_eq,
      false_or, decide_false, Bool.false_eq_true, and_iff_right_iff_imp]
    intro hmod
    exact pow_lt_pow_digitCount (Nat.le_of_dvd hc (Nat.dvd_of_mod_eq_zero hmod))

theorem isPercentage_iff {d : Decimal} :
    d.IsPercentage ↔ d.isPercent = true ∧ d.isWholeMillionths = true := by
  constructor
  · intro h
    obtain ⟨k, hk, hd⟩ := h
    have hk' : (k : ℚ) ≤ 100 * 10 ^ 6 := by exact_mod_cast hk
    refine ⟨isPercent_iff.2 ⟨_, hd, by positivity, ?_⟩, ?_⟩
    · rw [div_le_iff₀ (by norm_num)]
      exact hk'
    · cases d with
      | finite neg c e =>
        refine isWholeMillionths_finite_iff.2 ⟨k, ?_⟩
        have hv : (if neg then -1 else 1) * (c * 10 ^ e) = (1 : ℚ) * (k / 10 ^ 6) := by
          simpa [value?, mul_assoc] using hd
        exact ((sign_mul_eq_iff (by positivity) (by positivity) neg false).1 hv).2
      | infinite neg => simp [value?] at hd
      | nan neg signalling payload => simp [value?] at hd
  · intro h
    obtain ⟨hp, hw⟩ := h
    obtain ⟨q, hq, hq0, hq100⟩ := isPercent_iff.1 hp
    cases d with
    | finite neg c e =>
      obtain ⟨k, hk⟩ := isWholeMillionths_finite_iff.1 hw
      have hqk : q = k / 10 ^ 6 := by
        simp only [value?, Option.some_inj, mul_assoc, hk] at hq
        have hk0 : (0 : ℚ) ≤ k / 10 ^ 6 := by positivity
        cases neg
        · simpa using hq.symm
        · simp only [↓reduceIte, neg_one_mul] at hq
          linarith
      refine ⟨k, ?_, hq.trans (congrArg some hqk)⟩
      rw [hqk, div_le_iff₀ (by norm_num)] at hq100
      exact_mod_cast hq100
    | infinite neg => simp [value?] at hq
    | nan neg signalling payload => simp [value?] at hq

end Decimal

theorem checkPercentage_decimal_eq_ok_iff {d p : Decimal} :
    checkPercentage (.decimal d) = .ok p ↔ d.IsPercentage ∧ p = d := by
  rw [Decimal.isPercentage_iff]
  simp only [checkPercentage, Value.toDecimal?]
  split
  · split <;> simp [*, eq_comm]
  · simp [*]

end Provisioning
