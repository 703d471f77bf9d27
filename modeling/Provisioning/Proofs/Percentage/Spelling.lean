import Provisioning.Proofs.Decimal.Rounding
import Provisioning.Proofs.Decimal.Text
import Provisioning.Proofs.Percentage

namespace Provisioning

/-- The value stands for a finite decimal: a whole number for itself, a decimal for itself, anything else for
what its text spells. -/
def Value.Denotes : Value → Decimal → Prop
  | .bool _, _ | .brokenText, _ => False
  | .int n, d => Decimal.ofInt n = d
  | .decimal d', d => d' = d ∧ d.isFinite = true
  | .str s, d => Decimal.Spelled s.toList d
  | v, d => Decimal.Spelled v.display.toList d

namespace Decimal

variable {d : Decimal}

theorem IsPercentage.isFinite (h : d.IsPercentage) : d.isFinite = true := by
  obtain ⟨k, -, hd⟩ := h
  exact isFinite_iff.2 ⟨_, hd⟩

theorem isPercentage_iff_value : d.IsPercentage ↔
    ∃ q, d.value? = some q ∧ (0 ≤ q ∧ q ≤ 100) ∧ ∃ k : ℤ, q = k * 10 ^ (-6 : ℤ) := by
  have hunit : (10 : ℚ) ^ (-6 : ℤ) = 1 / 10 ^ 6 := by norm_num
  simp only [hunit, mul_one_div]
  constructor
  · intro h
    obtain ⟨k, hk, hd⟩ := h
    have hk' : (k : ℚ) ≤ 100 * 10 ^ 6 := by exact_mod_cast hk
    refine ⟨_, hd, ⟨by positivity, ?_⟩, k, by simp⟩
    rw [div_le_iff₀ (by norm_num)]
    exact hk'
  · intro h
    obtain ⟨_, hd, ⟨hlow, hhigh⟩, k, rfl⟩ := h
    rw [le_div_iff₀ (by norm_num), zero_mul] at hlow
    rw [div_le_iff₀ (by norm_num)] at hhigh
    have hlow' : 0 ≤ k := by exact_mod_cast hlow
    have hhigh' : k ≤ 100 * 10 ^ 6 := by exact_mod_cast hhigh
    lift k to ℕ using hlow'
    exact ⟨k, by exact_mod_cast hhigh', by simpa using hd⟩

theorem representable_of_isPercentage_ofInt {n : ℤ} (h : (ofInt n).IsPercentage) :
    (ofInt n).Representable := by
  obtain ⟨q, hq, ⟨hlow, hhigh⟩, -⟩ := isPercentage_iff_value.1 h
  have habs := abs_eq_of_value? hq
  rw [abs_of_nonneg hlow, zpow_zero, mul_one] at habs
  rw [habs] at hhigh
  have hn : n.natAbs ≤ 100 := by exact_mod_cast hhigh
  have hdigits : digitCount n.natAbs ≤ 3 := digitCount_le (by omega) (by omega)
  exact representable_of_digitCount_le (by omega) (by decide)

end Decimal

section Denotes

variable {v w : Value} {d p : Decimal}

theorem toDecimal?_eq_some_iff_denotes (hp : p.IsPercentage) : v.toDecimal? = some p ↔ v.Denotes p := by
  have htext (s : List Char) : Decimal.read? s = some p ↔ Decimal.Spelled s p := by
    rw [← Decimal.read?_eq_some_iff_spelled, and_iff_left hp.isFinite]
  have hshown {v : Value} (hread : v.toDecimal? = Decimal.read? v.display.toList)
      (hdenotes : v.Denotes p = Decimal.Spelled v.display.toList p) :
      v.toDecimal? = some p ↔ v.Denotes p := by
    rw [hread, hdenotes, htext]
  cases v with
  | bool _ | brokenText => simp [Value.toDecimal?, Value.Denotes]
  | decimal d' => simp [Value.toDecimal?, Value.Denotes, hp.isFinite]
  | int n =>
    have hdisplay : (Value.int n).display.toList = (toString n).toList := String.toList_ofList
    have hread : Value.toDecimal? (.int n) = Decimal.read? (Value.int n).display.toList := rfl
    rw [hread, hdisplay, Value.Denotes, htext, Decimal.spelled_toString_iff, and_iff_left_iff_imp]
    rintro rfl
    exact Decimal.representable_of_isPercentage_ofInt hp
  | null | float _ | str _ | list _ | object _ | brokenObject _ => exact hshown rfl rfl

theorem checkPercentage_eq_ok_iff : checkPercentage v = .ok p ↔ v.Denotes p ∧ p.IsPercentage := by
  have hread : checkPercentage v = .ok p ↔ v.toDecimal? = some p ∧ p.IsPercentage := by
    rw [checkPercentage, Decimal.isPercentage_iff]
    cases v.toDecimal? with
    | none => simp
    | some d =>
      simp only [Option.some.injEq]
      split
      · split
        · grind
        · grind
      · grind
  rw [hread]
  exact and_congr_left toDecimal?_eq_some_iff_denotes

theorem eq_of_denotes {e : Decimal} (hd : v.Denotes d) (he : v.Denotes e) : d = e := by
  have hspelled {s : List Char} (hs : Decimal.Spelled s d) (hs' : Decimal.Spelled s e) : d = e := by
    have hread := (Decimal.read?_eq_some_iff_spelled.2 hs).1
    rw [(Decimal.read?_eq_some_iff_spelled.2 hs').1] at hread
    exact (Option.some.inj hread).symm
  cases v with
  | bool _ | brokenText => exact absurd hd id
  | int n => exact hd.symm.trans he
  | decimal d' => exact hd.1.symm.trans he.1
  | _ => exact hspelled hd he

/-- The number decides, in whatever spelling it comes. -/
theorem checkPercentage_of_value?_eq {e : Decimal} (hd : v.Denotes d) (he : w.Denotes e)
    (h : d.value? = e.value?) :
    (checkPercentage v = .ok d ∧ checkPercentage w = .ok e ∧ d.eqv e = true) ∨
      (∀ p, checkPercentage v ≠ .ok p) ∧ ∀ p, checkPercentage w ≠ .ok p := by
  have hsame : d.IsPercentage ↔ e.IsPercentage := by
    simp only [Decimal.IsPercentage, h]
  by_cases hp : d.IsPercentage
  · refine .inl ⟨checkPercentage_eq_ok_iff.2 ⟨hd, hp⟩, checkPercentage_eq_ok_iff.2 ⟨he, hsame.1 hp⟩, ?_⟩
    exact (Decimal.eqv_iff_of_isFinite hp.isFinite).2 h
  · refine .inr ⟨fun p hv ↦ ?_, fun p hw ↦ ?_⟩
    · obtain ⟨hdenotes, hperc⟩ := checkPercentage_eq_ok_iff.1 hv
      exact hp (eq_of_denotes hd hdenotes ▸ hperc)
    · obtain ⟨hdenotes, hperc⟩ := checkPercentage_eq_ok_iff.1 hw
      exact hp (hsame.2 (eq_of_denotes he hdenotes ▸ hperc))

theorem exists_quantize_of_denotes {q : ℚ} (hd : v.Denotes d) (hq : d.value? = some q) (hlow : 0 ≤ q)
    (hhigh : q ≤ 100) :
    ∃ r, d.quantize? 28 (-6) = some r ∧ (checkPercentage v = .ok d ↔ r.eqv d = true) := by
  have hsmall : |q| ≤ (10 ^ 8 : ℕ) * (10 : ℚ) ^ (-6 : ℤ) := by
    rw [abs_of_nonneg hlow]
    exact hhigh.trans (by norm_num)
  have hdigits : 10 ^ 8 < 10 ^ 28 := by norm_num
  obtain ⟨r, hr⟩ := Decimal.exists_quantize hdigits (by norm_num) hq hsmall
  refine ⟨r, hr, ?_⟩
  rw [Decimal.eqv_quantize_iff hr hq, checkPercentage_eq_ok_iff, Decimal.isPercentage_iff_value]
  simp only [hq, Option.some.injEq, exists_eq_left']
  exact ⟨fun h ↦ h.2.2, fun h ↦ ⟨hd, ⟨hlow, hhigh⟩, h⟩⟩

end Denotes

/-- What is accepted is a finite decimal from 0 to 100 that is a whole number of millionths, in the spelling
in which it comes. Another spelling of the number gets the same answer. Rounding to six places within 28
digits tells the whole numbers of millionths exactly: it never fails and never hides a digit. -/
theorem checkPercentage_exact (v : Value) :
    (∀ p, checkPercentage v = .ok p ↔ v.Denotes p ∧
      ∃ q, p.value? = some q ∧ (0 ≤ q ∧ q ≤ 100) ∧ ∃ k : ℤ, q = k * 10 ^ (-6 : ℤ)) ∧
    (∀ w d e, v.Denotes d → w.Denotes e → d.value? = e.value? →
      (checkPercentage v = .ok d ∧ checkPercentage w = .ok e ∧ d.eqv e = true) ∨
        (∀ p, checkPercentage v ≠ .ok p) ∧ ∀ p, checkPercentage w ≠ .ok p) ∧
    ∀ d q, v.Denotes d → d.value? = some q → 0 ≤ q → q ≤ 100 →
      ∃ r, d.quantize? 28 (-6) = some r ∧ (checkPercentage v = .ok d ↔ r.eqv d = true) := by
  refine ⟨fun p ↦ ?_, fun w d e ↦ checkPercentage_of_value?_eq, fun d q ↦ exists_quantize_of_denotes⟩
  rw [checkPercentage_eq_ok_iff, Decimal.isPercentage_iff_value]

theorem checkPercentage_exact_of_long :
    let v : Value := .str " +1_٢.3456780000000000000000000000000000000000 "
    let d : Decimal := .finite false (12345678 * 10 ^ 34) (-40)
    let e : Decimal := .finite false 12345678 (-6)
    v.Denotes d ∧ (Value.decimal e).Denotes e ∧ d.value? = e.value? ∧ checkPercentage v = .ok d ∧
      checkPercentage (.decimal e) = .ok e ∧ d.eqv e = true ∧
      ∃ r, d.quantize? 28 (-6) = some r ∧ r.eqv d = true := by
  intro v d e
  have hread : Decimal.ofText? " +1_٢.3456780000000000000000000000000000000000 " = some d := by
    decide +kernel
  have hd : v.Denotes d := Decimal.read?_eq_some_iff_spelled.1 ⟨hread, rfl⟩
  have he : (Value.decimal e).Denotes e := ⟨rfl, rfl⟩
  have hvalue : d.value? = e.value? := Decimal.eqv_finite_iff.1 (by decide +kernel)
  have hq : e.value? = some (((12345678 : ℤ) : ℚ) * 10 ^ (-6 : ℤ)) := by norm_num [e, Decimal.value?]
  have haccepted : checkPercentage (.decimal e) = .ok e :=
    ((checkPercentage_exact (.decimal e)).1 e).2 ⟨he, _, hq, by norm_num, _, rfl⟩
  rcases (checkPercentage_exact v).2.1 (.decimal e) d e hd he hvalue with ⟨hv, hw, heqv⟩ | ⟨-, hrefused⟩
  · obtain ⟨r, hr, hchecked⟩ :=
      (checkPercentage_exact v).2.2 d _ hd (hvalue.trans hq) (by norm_num) (by norm_num)
    exact ⟨hd, he, hvalue, hv, hw, heqv, r, hr, hchecked.1 hv⟩
  · exact absurd haccepted (hrefused e)

section Text

variable {d : Decimal}

/-- A decimal and its text get the same answer, in the same words if they are refused. What is printed of a
percentage is read back as that percentage. -/
theorem checkPercentage_text (hd : d.Representable) :
    ((∃ p, checkPercentage (.str d.text) = .ok p ∧ checkPercentage (.decimal d) = .ok p) ∨
      ∃ a b, checkPercentage (.str d.text) = .error a ∧ checkPercentage (.decimal d) = .error b ∧
        a.field = b.field ∧ a.text = b.text) ∧
    ∀ v, checkPercentage v = .ok d → checkPercentage (.str d.text) = .ok d := by
  have htext : Value.toDecimal? (.str d.text) = some d := Decimal.ofText?_text hd
  have hdecimal : Value.toDecimal? (.decimal d) = some d := rfl
  have hshown : (Value.str d.text).display = (Value.decimal d).display := rfl
  constructor
  · simp only [checkPercentage, htext, hdecimal]
    by_cases hrange : d.isPercent = true
    · by_cases hplaces : d.isWholeMillionths = true
      · exact .inl ⟨d, by simp [hrange, hplaces]⟩
      · have hwords : (Problem.tooPrecise (.str d.text)).text = (Problem.tooPrecise (.decimal d)).text :=
          congrArg ("must have at most 6 decimal places, got " ++ ·) hshown
        exact .inr ⟨.tooPrecise (.str d.text), .tooPrecise (.decimal d), by simp [hrange, hplaces],
          by simp [hrange, hplaces], rfl, hwords⟩
    · have hwords : (Problem.outOfRange (.str d.text)).text = (Problem.outOfRange (.decimal d)).text :=
        congrArg ("must be between 0 and 100, got " ++ ·) hshown
      exact .inr ⟨.outOfRange (.str d.text), .outOfRange (.decimal d), by simp [hrange], by simp [hrange], rfl,
        hwords⟩
  · intro v hv
    obtain ⟨-, hp⟩ := checkPercentage_eq_ok_iff.1 hv
    exact checkPercentage_eq_ok_iff.2 ⟨(toDecimal?_eq_some_iff_denotes hp).1 htext, hp⟩

end Text

theorem checkPercentage_text_of_scientific :
    let d : Decimal := .finite false 10 1
    let n : Decimal := .nan true true 12
    d.Representable ∧ n.Representable ∧ d.text = "1.0E+2" ∧ n.text = "-sNaN12" ∧
      checkPercentage (.str d.text) = .ok d ∧
      ∃ a b, checkPercentage (.str n.text) = .error a ∧ checkPercentage (.decimal n) = .error b ∧
        a.field = b.field ∧ a.text = b.text := by
  intro d n
  have hd : d.Representable := Decimal.representable_of_digitCount_le (by decide) (by decide)
  have hn : n.Representable := trivial
  have hvalue : d.value? = some (((100 * 10 ^ 6 : ℕ) : ℚ) / 10 ^ 6) := by norm_num [d, Decimal.value?]
  have haccepted : checkPercentage (.decimal d) = .ok d :=
    checkPercentage_decimal_eq_ok_iff.2 ⟨⟨100 * 10 ^ 6, le_rfl, hvalue⟩, rfl⟩
  refine ⟨hd, hn, by decide +kernel, by decide +kernel, (checkPercentage_text hd).2 _ haccepted, ?_⟩
  rcases (checkPercentage_text hn).1 with ⟨p, -, hp⟩ | hrefused
  · obtain ⟨⟨k, -, hk⟩, rfl⟩ := checkPercentage_decimal_eq_ok_iff.1 hp
    cases hk
  · exact hrefused

end Provisioning
