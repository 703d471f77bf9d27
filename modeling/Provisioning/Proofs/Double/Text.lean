import Provisioning.Double.Shortest
import Provisioning.Proofs.Decimal.Text
import Provisioning.Proofs.Decimal.Value
import Provisioning.Proofs.Double.Nearest
import Mathlib.Data.List.TakeWhile

namespace Provisioning

namespace Decimal

theorem numeral_lt {ds : List Char} (hds : AllDigits ds) : numeral ds < 10 ^ ds.length := by
  induction ds with
  | nil => exact Nat.one_pos
  | cons c ds ih =>
    obtain ⟨hc, hds⟩ := List.forall_mem_cons.1 hds
    have hdigit : c.toNat - '0'.toNat ≤ 9 := by
      simp only [Char.isDigit, Bool.and_eq_true, decide_eq_true_eq, UInt32.le_iff_toNat_le] at hc
      have hrange : c.toNat ≤ 57 := hc.2
      have hzero : '0'.toNat = 48 := rfl
      omega
    have hrest : numeral ds < 10 ^ ds.length := ih hds
    rw [numeral, Nat.ofDigitChars_cons, Nat.ofDigitChars_eq_ofDigitChars_zero, List.length_cons, pow_succ]
    change _ + numeral ds < _
    nlinarith [Nat.mul_le_mul_left (10 ^ ds.length) hdigit]

theorem digitCount_scaled_le {a k u v c : ℕ} (hk : k ≤ 2 ^ a) (hc : c ≤ k * 2 ^ u * 10 ^ v + 1) :
    digitCount c ≤ a + u + v + 1 := by
  refine digitCount_le (Nat.succ_pos _) ?_
  have hone : 1 ≤ 10 ^ (a + u + v) := Nat.one_le_pow _ _ (by decide)
  calc c ≤ k * 2 ^ u * 10 ^ v + 1 := hc
    _ ≤ 2 ^ a * 2 ^ u * 10 ^ v + 1 := by gcongr
    _ ≤ 10 ^ a * 10 ^ u * 10 ^ v + 1 := by gcongr <;> decide
    _ = 10 ^ (a + u + v) + 1 := by rw [pow_add, pow_add]
    _ < 10 ^ (a + u + v + 1) := by rw [pow_succ]; omega

theorem representable_of_le {neg : Bool} {ds : List Char} {e : ℤ} (hds : AllDigits ds)
    (hlength : ds.length ≤ 10 ^ 6) (he : e.natAbs ≤ 10 ^ 6) : (finite neg (numeral ds) e).Representable := by
  have hcount : digitCount (numeral ds) ≤ ds.length + 1 := by
    refine digitCount_le (Nat.succ_pos _) ((numeral_lt hds).trans ?_)
    exact Nat.pow_lt_pow_right (by decide) (Nat.lt_succ_self _)
  exact representable_of_digitCount_le (by omega) he

end Decimal

namespace Double

open Decimal (Sign Numeral AllDigits signOf exponentOf scientific fractional pointed)

section Layout

variable (sign : Sign) (ds : List Char) (point : ℤ)

def laidOut : Numeral :=
  if point ≤ -4 ∨ 16 < point then scientific sign (exponentOf 'e' 2 (point - 1)) ds
  else if point ≤ 0 then fractional sign ds (-point).toNat
  else if ds.length ≤ point then ⟨sign, ds ++ zeroes (point.toNat - ds.length), some ['0'], none⟩
  else pointed sign ds point.toNat

theorem text_laidOut : (laidOut sign ds point).text = sign.text ++ layout ds point := by
  have hexponent : (exponentOf 'e' 2 (point - 1)).text =
      'e' :: (if point - 1 < 0 then '-' else '+') ::
        (zeroes (2 - (digits (point - 1).natAbs).length) ++ digits (point - 1).natAbs) := by
    rw [Decimal.Exponent.text, exponentOf]
    split <;> rfl
  rw [laidOut, layout]
  split
  · rw [Decimal.text_scientific, hexponent]
  · split
    · rw [Decimal.text_fractional]
      rfl
    · split
      · exact congrArg _ (congrArg _ (List.append_nil _))
      · rw [Decimal.text_pointed]

variable {ds point}

theorem proper_laidOut (hds : AllDigits ds) (hne : ds = [] → 0 < point ∧ point ≤ 16) :
    (laidOut sign ds point).Proper := by
  have hzero : AllDigits ['0'] := List.forall_mem_singleton.2 rfl
  rw [laidOut]
  split
  · refine Decimal.proper_scientific _ hds (fun hnil ↦ ?_) (Decimal.proper_exponentOf _ _ (.inl rfl))
    have hpoint := hne hnil
    omega
  · split
    · exact Decimal.proper_fractional _ _ hds
    · split
      · exact ⟨hds.append (Decimal.allDigits_zeroes _), hzero, nofun, nofun⟩
      · rename_i hinside
        refine Decimal.proper_pointed _ _ hds fun hnil ↦ ?_
        have hpoint := hne hnil
        rw [hnil, List.length_nil] at hinside
        omega

theorem representable_laidOut (hds : AllDigits ds) (hlength : ds.length ≤ 10 ^ 4)
    (hpoint : point.natAbs ≤ 10 ^ 4) : (laidOut sign ds point).decimal.Representable := by
  rw [laidOut]
  split
  · rw [Decimal.decimal_scientific, Decimal.value_exponentOf]
    exact Decimal.representable_of_le hds (by omega) (by omega)
  · split
    · rw [Decimal.decimal_fractional]
      exact Decimal.representable_of_le hds (by omega) (by omega)
    · split
      · have hall : AllDigits (ds ++ zeroes (point.toNat - ds.length) ++ ['0']) :=
          (hds.append (Decimal.allDigits_zeroes _)).append (List.forall_mem_singleton.2 rfl)
        have hcount : (ds ++ zeroes (point.toNat - ds.length) ++ ['0']).length ≤ 10 ^ 6 := by
          rw [List.length_append, List.length_append, zeroes, List.length_replicate, List.length_singleton]
          omega
        have hscale : (-1 : ℤ).natAbs ≤ 10 ^ 6 := by decide
        exact Decimal.representable_of_le hall hcount hscale
      · rw [Decimal.decimal_pointed]
        exact Decimal.representable_of_le hds (by omega) (by omega)

end Layout

section Shortest

variable {i : Interval} {u p : ℤ} {c : ℕ}

theorem reads_zero (hlow : 0 < i.low) : i.reads u p 0 = false := by
  have hunit : 0 < Nat.pow 2 u.toNat * Nat.pow 10 (-p).toNat :=
    Nat.mul_pos (Nat.pow_pos (by decide)) (Nat.pow_pos (by decide))
  have hpos := Nat.mul_pos hlow hunit
  rw [Interval.reads, Nat.zero_mul, Nat.zero_mul]
  split
  · rw [decide_eq_false (Nat.not_le.2 hpos), Bool.false_and]
  · rw [decide_eq_false (Nat.not_lt.2 hpos.le), Bool.false_and]

theorem roundDiv_bounds (n d : ℕ) : n / d ≤ roundDiv n d ∧ roundDiv n d ≤ n / d + 1 := by
  rw [roundDiv]
  split <;> omega

theorem candidate?_bounds (hlow : 0 < i.low) (h : i.candidate? u p = some c) :
    0 < c ∧ c ≤ i.value * 2 ^ u.toNat * 10 ^ (-p).toNat + 1 := by
  rw [Interval.candidate?] at h
  set n := i.value * Nat.pow 2 u.toNat * Nat.pow 10 (-p).toNat
  set d := Nat.pow 2 (-u).toNat * Nat.pow 10 p.toNat
  have hdiv : n / d ≤ n := Nat.div_le_self n d
  have hround := roundDiv_bounds n d
  have hpos (hread : i.reads u p (n / d) = true) : 0 < n / d := by
    refine Nat.pos_of_ne_zero fun hzero ↦ ?_
    rw [hzero, reads_zero hlow] at hread
    cases hread
  change 0 < c ∧ c ≤ n + 1
  -- the candidates are the two neighbours of the value, of which only the lower one could be zero
  split at h
  · rename_i hread _
    have := hpos hread
    obtain rfl := Option.some.inj h
    omega
  · rename_i hread _
    have := hpos hread
    obtain rfl := Option.some.inj h
    omega
  · obtain rfl := Option.some.inj h
    exact ⟨Nat.succ_pos _, Nat.succ_le_succ hdiv⟩
  · cases h

theorem shortestFrom_spec (i : Interval) (u top : ℤ) (fuel count : ℕ) :
    shortestFrom i u top fuel count = (0, 0) ∨ ∃ k < fuel,
      i.candidate? u (top - (count + k : ℕ)) = some (shortestFrom i u top fuel count).1 ∧
      (shortestFrom i u top fuel count).2 = top - (count + k : ℕ) := by
  induction fuel generalizing count with
  | zero => exact .inl rfl
  | succ fuel ih =>
    rw [shortestFrom]
    split
    · rename_i c hc
      exact .inr ⟨0, Nat.succ_pos _, hc, rfl⟩
    · rcases ih (count + 1) with hzero | ⟨k, hk, hc, hp⟩
      · exact .inl hzero
      · refine .inr ⟨k + 1, Nat.succ_lt_succ hk, ?_⟩
        rw [← Nat.add_assoc, Nat.add_right_comm]
        exact ⟨hc, hp⟩

theorem magnitude_bounds (n d : ℕ) : (magnitude n d).natAbs ≤ digitCount n + digitCount d + 1 := by
  rw [magnitude]
  split <;> omega

end Shortest

section Format

variable (neg : Bool)

/-- The doubles that have 64 bits. -/
def OfFormat : Double → Prop
  | finite _ m e => m < 2 ^ 53 ∧ leastExponent ≤ e ∧ e ≤ greatestExponent
  | _ => True

theorem ofFormat_normal {m : ℕ} {e : ℤ} (hm : m ≤ 2 ^ 53) (he : leastExponent ≤ e) :
    (normal neg m e).OfFormat := by
  rw [normal]
  split
  · rename_i hshort
    split
    · trivial
    · rename_i hlarge
      exact ⟨hshort, he, not_lt.1 hlarge⟩
  · split
    · trivial
    · rename_i hlarge
      exact ⟨by omega, by omega, by omega⟩

theorem ofFormat_nearest (n : ℕ) {d : ℕ} (hd : 0 < d) : (nearest neg n d).OfFormat := by
  rw [nearest]
  split
  · exact ⟨by decide, le_rfl, by decide⟩
  · rename_i hn
    exact ofFormat_normal neg (roundDiv_exponentFor_le (Nat.pos_of_ne_zero hn) hd) (le_max_right _ _)

theorem ofFormat_ofScientific (c : ℕ) (e : ℤ) : (ofScientific neg c e).OfFormat := by
  rw [ofScientific]
  split
  · exact ⟨by decide, le_rfl, by decide⟩
  · split
    · trivial
    · exact ofFormat_nearest neg _ (Nat.pow_pos (by decide))

end Format

/-- Neither the digits nor the exponent of the shortest decimal are many. -/
theorem shortest_bounds {m : ℕ} {e : ℤ} (hm : 0 < m) (hx : (finite false m e).OfFormat) :
    shortest m e = (0, 0) ∨ 0 < (shortest m e).1 ∧ digitCount (shortest m e).1 ≤ 4000 ∧
      (shortest m e).2.natAbs ≤ 4000 := by
  obtain ⟨hm', hlow, hhigh⟩ := hx
  rw [leastExponent] at hlow
  rw [greatestExponent] at hhigh
  have hlow' : 0 < (interval m e).low := by
    rw [interval]
    dsimp only
    split <;> omega
  rw [shortest, scaleByTwo]
  -- powers of two are counted as powers of ten: nothing depends on how many digits there are
  have hn : digitCount (m * Nat.pow 2 e.toNat) ≤ 53 + e.toNat + 1 := by
    refine Decimal.digitCount_scaled_le (u := e.toNat) (v := 0) hm'.le ?_
    rw [pow_zero, mul_one]
    exact Nat.le_succ _
  have hd : digitCount (1 * Nat.pow 2 (-e).toNat) ≤ 0 + (-e).toNat + 1 := by
    refine Decimal.digitCount_scaled_le (u := (-e).toNat) (v := 0) le_rfl ?_
    rw [pow_zero, pow_zero, mul_one]
    exact Nat.le_succ _
  have htop := magnitude_bounds (m * Nat.pow 2 e.toNat) (1 * Nat.pow 2 (-e).toNat)
  dsimp only
  generalize magnitude (m * Nat.pow 2 e.toNat) (1 * Nat.pow 2 (-e).toNat) = top at htop ⊢
  rcases shortestFrom_spec (interval m e) (e - 2) top 17 1 with hzero | ⟨k, hk, hc, hp⟩
  · exact .inl hzero
  · obtain ⟨hpos, hle⟩ := candidate?_bounds hlow' hc
    have hvalue : (interval m e).value ≤ 2 ^ 55 := by
      rw [interval]
      dsimp only
      omega
    have hcount := Decimal.digitCount_scaled_le hvalue hle
    refine .inr ⟨hpos, ?_, ?_⟩
    · omega
    · rw [hp]
      omega

theorem dropZeros_sublist (ds : List Char) : (dropZeros ds).Sublist ds := by
  have hdrop := (List.dropWhile_sublist (p := fun c ↦ decide (c = '0')) (l := ds.reverse)).reverse
  rw [List.reverse_reverse] at hdrop
  exact hdrop

theorem dropZeros_digits_ne_nil {c : ℕ} (hc : 0 < c) : dropZeros (digits c) ≠ [] := by
  intro h
  have hzeros : ∀ d ∈ digits c, d = '0' := by
    intro d hd
    have := List.dropWhile_eq_nil_iff.1 (List.reverse_eq_nil_iff.1 h) d (List.mem_reverse.2 hd)
    exact of_decide_eq_true this
  have hreplicate : digits c = zeroes (digits c).length ++ [] := by
    rw [List.append_nil]
    exact List.eq_replicate_iff.2 ⟨rfl, hzeros⟩
  have hvalue := Decimal.numeral_digits c
  rw [hreplicate, Decimal.numeral_zeroes_append] at hvalue
  exact hc.ne hvalue

theorem proper_shortest {m : ℕ} {e : ℤ} (hm : 0 < m) (hx : (finite false m e).OfFormat) (sign : Sign) :
    let n := laidOut sign (dropZeros (digits (shortest m e).1))
      ((shortest m e).2 + digitCount (shortest m e).1)
    n.Proper ∧ n.decimal.Representable := by
  have hds : AllDigits (dropZeros (digits (shortest m e).1)) :=
    fun c hc ↦ Decimal.allDigits_digits _ c ((dropZeros_sublist _).subset hc)
  have hlength := (dropZeros_sublist (digits (shortest m e).1)).length_le
  rcases shortest_bounds hm hx with hzero | ⟨hpos, hcount, hexponent⟩
  · rw [hzero] at hds ⊢
    exact ⟨proper_laidOut sign hds fun _ ↦ by decide,
      representable_laidOut sign hds (by decide) (by decide)⟩
  · have hne : dropZeros (digits (shortest m e).1) = [] →
        0 < (shortest m e).2 + digitCount (shortest m e).1 ∧
          (shortest m e).2 + digitCount (shortest m e).1 ≤ 16 :=
      fun h ↦ absurd h (dropZeros_digits_ne_nil hpos)
    have hlength' : (dropZeros (digits (shortest m e).1)).length ≤ 10 ^ 4 :=
      hlength.trans (hcount.trans (by decide))
    exact ⟨proper_laidOut sign hds hne, representable_laidOut sign hds hlength' (by omega)⟩

/-- A double of 64 bits is written as a decimal if it is finite, and as a name otherwise. -/
theorem exists_spelled_toText_iff {x : Double} (hx : x.OfFormat) :
    (∃ d, Decimal.Spelled x.toText d) ↔ x.isFinite = true := by
  have hname {s : List Char} {d : Decimal} (hs : Decimal.read? s = some d) (hd : d.isFinite = false) :
      ¬ ∃ d, Decimal.Spelled s d := by
    rintro ⟨d', h⟩
    obtain ⟨hread, hfinite⟩ := Decimal.read?_eq_some_iff_spelled.2 h
    rw [Option.some.inj (hs.symm.trans hread), hfinite] at hd
    cases hd
  cases x with
  | nan =>
    have hread : Decimal.read? nan.toText = some (.nan false false 0) := by decide +kernel
    exact iff_of_false (hname hread rfl) nofun
  | infinite neg =>
    have hread : Decimal.read? (infinite neg).toText = some (.infinite neg) := by
      cases neg <;> decide +kernel
    exact iff_of_false (hname hread rfl) nofun
  | finite neg m e =>
    refine iff_of_true ?_ rfl
    rcases Nat.eq_zero_or_pos m with rfl | hm
    · have hzero : ∃ d, Decimal.read? (finite neg 0 e).toText = some d ∧ d.isFinite = true := by
        cases neg with
        | false => exact ⟨.finite false 0 (-1), by rw [toText, if_pos rfl]; decide +kernel, rfl⟩
        | true => exact ⟨.finite true 0 (-1), by rw [toText, if_pos rfl]; decide +kernel, rfl⟩
      exact hzero.imp fun d ↦ Decimal.read?_eq_some_iff_spelled.1
    · obtain ⟨hproper, hfits⟩ := proper_shortest hm hx (signOf neg)
      rw [toText, if_neg hm.ne', Decimal.signText_eq, ← text_laidOut]
      exact hproper.exists_spelled_iff.2 hfits

end Double
end Provisioning
