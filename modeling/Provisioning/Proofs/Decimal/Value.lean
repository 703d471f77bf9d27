import Provisioning.Decimal.Basic
import Provisioning.Percentage
import Mathlib.Algebra.Order.Field.Power
import Mathlib.Data.Rat.Defs
import Mathlib.Tactic.FieldSimp
import Mathlib.Tactic.Linarith
import Mathlib.Tactic.NormNum
import Mathlib.Tactic.Positivity
import Mathlib.Tactic.Ring

namespace Provisioning.Decimal

def value? : Decimal → Option ℚ
  | finite neg c e => some ((if neg then -1 else 1) * c * 10 ^ e)
  | _ => none

theorem ten_zpow_pos (e : ℤ) : (0 : ℚ) < 10 ^ e := zpow_pos (by norm_num) e

theorem isFinite_iff {d : Decimal} : d.isFinite = true ↔ ∃ q, d.value? = some q := by
  cases d <;> simp [isFinite, value?]

theorem value?_millionths (k : ℕ) : (finite false k (-6)).value? = some ((k : ℚ) / 10 ^ 6) := by
  rw [value?]
  norm_num
  ring

theorem millionths_inj {k m : ℕ} (h : (finite false k (-6)).value? = (finite false m (-6)).value?) :
    k = m := by
  rw [value?_millionths, value?_millionths, Option.some_inj, div_left_inj' (by norm_num)] at h
  exact_mod_cast h

theorem ten_zpow_eq (e : ℤ) : (10 : ℚ) ^ e = (10 ^ e.toNat : ℕ) / (10 ^ (-e).toNat : ℕ) := by
  push_cast
  rw [← zpow_natCast, ← zpow_natCast, ← zpow_sub₀ (by norm_num)]
  congr 1
  omega

theorem lt_pow_digitCount (n : ℕ) : n < 10 ^ digitCount n :=
  (Nat.length_toDigits_le_iff (by decide) (digitCount_pos n)).1 le_rfl

theorem digitCount_le {n k : ℕ} (hk : 0 < k) (h : n < 10 ^ k) : digitCount n ≤ k :=
  (Nat.length_toDigits_le_iff (by decide) hk).2 h

theorem pow_lt_pow_digitCount {t c : ℕ} (h : 10 ^ t ≤ c) : t < digitCount c :=
  (Nat.pow_lt_pow_iff_right (by decide)).1 (h.trans_lt (lt_pow_digitCount c))

theorem scaledEq_iff {c c' : ℕ} {e e' : ℤ} (h : e' ≤ e) :
    scaledEq c e c' e' = true ↔ (c : ℚ) * 10 ^ e = c' * 10 ^ e' := by
  have hcast : (c : ℚ) * 10 ^ e = c' * 10 ^ e' ↔ c * 10 ^ (e - e').toNat = c' := by
    have he : (10 : ℚ) ^ e = 10 ^ (e - e').toNat * 10 ^ e' := by
      rw [← zpow_natCast, ← zpow_add₀ (by norm_num)]
      congr 1
      omega
    rw [he, ← mul_assoc, mul_left_inj' (ten_zpow_pos e').ne']
    exact_mod_cast Iff.rfl
  rw [hcast, scaledEq, Nat.pow_eq]
  split
  · rename_i h0
    have hp : 10 ^ (e - e').toNat ≠ 0 := (Nat.pow_pos (by decide)).ne'
    rcases h0 with rfl | rfl
    · rw [Nat.zero_mul, beq_iff_eq]
    · rw [Nat.mul_eq_zero, or_iff_left hp, beq_iff_eq]
  · rename_i h0
    push Not at h0
    simp only [Bool.and_eq_true, decide_eq_true_eq, beq_iff_eq, and_iff_right_iff_imp]
    intro hc
    have hle : 10 ^ (e - e').toNat ≤ c' := hc ▸ Nat.le_mul_of_pos_left _ (Nat.pos_of_ne_zero h0.1)
    exact (pow_lt_pow_digitCount hle).le

theorem neg_eq_iff_of_nonneg {a b : ℚ} (ha : 0 ≤ a) (hb : 0 ≤ b) : -a = b ↔ a = 0 ∧ b = 0 := by
  constructor
  · intro h
    exact ⟨by linarith, by linarith⟩
  · intro h
    obtain ⟨rfl, rfl⟩ := h
    exact neg_zero

theorem sign_mul_eq_iff {a b : ℚ} (ha : 0 ≤ a) (hb : 0 ≤ b) (n n' : Bool) :
    (if n then -1 else 1) * a = (if n' then -1 else 1) * b ↔
      (n = n' ∨ a = 0 ∧ b = 0) ∧ a = b := by
  have hab : a = 0 ∧ b = 0 → a = b := fun h ↦ h.1.trans h.2.symm
  cases n <;> cases n' <;> simp only [Bool.false_eq_true, ↓reduceIte, neg_one_mul, one_mul,
    neg_inj, true_or, true_and, false_or, reduceCtorEq]
  · rw [eq_comm, neg_eq_iff_of_nonneg hb ha, and_comm, and_iff_left_of_imp hab]
  · rw [neg_eq_iff_of_nonneg ha hb, and_iff_left_of_imp hab]

theorem eqv_finite_iff {n n' : Bool} {c c' : ℕ} {e e' : ℤ} :
    (finite n c e).eqv (finite n' c' e') = true ↔
      (finite n c e).value? = (finite n' c' e').value? := by
  have hz (c : ℕ) (e : ℤ) : (c : ℚ) * 10 ^ e = 0 ↔ c = 0 := by
    simp [(ten_zpow_pos e).ne']
  have hs : (if e' ≤ e then scaledEq c e c' e' else scaledEq c' e' c e) = true ↔
      (c : ℚ) * 10 ^ e = c' * 10 ^ e' := by
    split
    · exact scaledEq_iff ‹_›
    · rw [scaledEq_iff (by omega), eq_comm]
  simp only [eqv, value?, Option.some_inj, mul_assoc]
  rw [sign_mul_eq_iff (by positivity) (by positivity), hz, hz, Bool.and_eq_true, hs]
  simp

theorem eqv_iff_of_isFinite {a b : Decimal} (ha : a.isFinite = true) :
    a.eqv b = true ↔ a.value? = b.value? := by
  cases a <;> cases b <;> simp_all [isFinite, eqv_finite_iff]
  all_goals simp [eqv, value?]

end Provisioning.Decimal
