import Provisioning.Proofs.Decimal.Grammar

namespace Provisioning.Decimal

open Text

section Plain

variable {c : Char} {s : List Char}

def Plain (c : Char) : Prop :=
  isBlank c = false ∧ c ≠ '_' ∧ 0 < c.toNat ∧ c.toNat < 0x80

instance : DecidablePred Plain := fun c ↦ by
  unfold Plain
  infer_instance

theorem plain_of_isDigit (h : c.isDigit = true) : Plain c := by
  simp only [Char.isDigit, Bool.and_eq_true, decide_eq_true_eq, ge_iff_le, UInt32.le_iff_toNat_le] at h
  have hrange : 48 ≤ c.toNat ∧ c.toNat ≤ 57 := h
  refine ⟨?_, ?_, by omega, by omega⟩
  · rw [isBlank, isSpace, Bool.or_eq_false_iff]
    simp only [Bool.or_eq_false_iff, Bool.and_eq_false_iff, decide_eq_false_iff_not, beq_eq_false_iff_ne]
    omega
  · rintro rfl
    exact absurd hrange.2 (by decide)

theorem trim_eq_self {p : Char → Bool} (h : ∀ c ∈ s, p c = false) : trim p s = s := by
  have hdrop {t : List Char} (ht : ∀ c ∈ t, p c = false) : t.dropWhile p = t := by
    cases t with
    | nil => rfl
    | cons c t => rw [List.dropWhile_cons, ht c List.mem_cons_self, if_neg Bool.false_ne_true]
  rw [trim, hdrop h, hdrop fun c hc ↦ h c (List.mem_reverse.1 hc), List.reverse_reverse]

theorem toAscii_of_plain (h : ∀ c ∈ s, Plain c) : toAscii s = some s := by
  rw [toAscii_eq_some_iff, List.filter_eq_self.2 fun c hc ↦ decide_eq_true (h c hc).2.1, List.forall₂_same]
  exact fun c hc ↦ .ascii (h c hc).2.2.1 (h c hc).2.2.2

theorem read?_of_plain (h : ∀ c ∈ s, Plain c) :
    read? s = (readNumeral (takeSign s).1 (takeSign s).2).or (readSpecial (takeSign s).1 (takeSign s).2) := by
  rw [read?, trim_eq_self fun c hc ↦ (h c hc).1, toAscii_of_plain h]

theorem forall_plain_append {t : List Char} (hs : ∀ c ∈ s, Plain c) (ht : ∀ c ∈ t, Plain c) :
    ∀ c ∈ s ++ t, Plain c :=
  fun c hc ↦ (List.mem_append.1 hc).elim (hs c) (ht c)

theorem AllDigits.plain (h : AllDigits s) : ∀ c ∈ s, Plain c := fun c hc ↦ plain_of_isDigit (h c hc)

theorem forall_plain_of_all (h : s.all (fun c ↦ decide (Plain c)) = true) : ∀ c ∈ s, Plain c :=
  fun c hc ↦ of_decide_eq_true (List.all_eq_true.1 h c hc)

theorem plain_sign (sign : Sign) : ∀ c ∈ sign.text, Plain c :=
  forall_plain_of_all (by cases sign <;> decide)

end Plain

section Numerals

variable {n : Numeral}

theorem Numeral.Proper.plain (hn : n.Proper) : ∀ c ∈ n.text, Plain c := by
  have hpoint : ∀ c ∈ Numeral.pointText n.fraction, Plain c := by
    have hplaces := hn.places
    rw [Numeral.places] at hplaces
    cases hf : n.fraction with
    | none => exact List.forall_mem_nil _
    | some f =>
      rw [hf] at hplaces
      exact List.forall_mem_cons.2 ⟨by decide, hplaces.plain⟩
  have hpower : ∀ c ∈ Numeral.powerText n.exponent, Plain c := by
    cases hx : n.exponent with
    | none => exact List.forall_mem_nil _
    | some x =>
      have hproper := hn.exponent x hx
      have hletter : Plain x.letter := by
        rcases hproper.letter with h | h <;> rw [h] <;> decide
      exact List.forall_mem_cons.2
        ⟨hletter, forall_plain_append (plain_sign x.sign) hproper.digits.plain⟩
  exact forall_plain_append (plain_sign n.sign)
    (forall_plain_append hn.whole.plain (forall_plain_append hpoint hpower))

theorem Numeral.Proper.read?_text (hn : n.Proper) (hfits : n.decimal.Representable) :
    read? n.text = some n.decimal := by
  have hfits : fits n.coefficient n.scale = true := hfits
  rw [read?_of_plain hn.plain, takeSign_numeral hn, readNumeral_body hn, if_pos hfits, Option.some_or]

/-- A numeral spells a decimal unless its exponent is out of the limits. -/
theorem Numeral.Proper.exists_spelled_iff (hn : n.Proper) :
    (∃ d, Spelled n.text d) ↔ n.decimal.Representable := by
  constructor
  · rintro ⟨_, m, hm, htext, rfl, hfits⟩
    have htrim : trim isBlank n.text = n.text := trim_eq_self fun c hc ↦ (hn.plain c hc).1
    rw [htrim, ← toAscii_eq_some_iff, toAscii_of_plain hn.plain, Option.some.injEq] at htext
    have hsame := takeSign_numeral hm
    rw [← htext, takeSign_numeral hn, Prod.mk.injEq] at hsame
    have hfits : fits m.coefficient m.scale = true := hfits
    have hread := readNumeral_body hm
    rw [if_pos hfits, ← hsame.1, ← hsame.2, readNumeral_body hn] at hread
    split at hread
    · assumption
    · cases hread
  · intro hfits
    exact ⟨n.decimal, read?_eq_some_iff_spelled.1 ⟨hn.read?_text hfits, rfl⟩⟩

end Numerals

section Digits

theorem allDigits_digits (n : Nat) : AllDigits (digits n) :=
  fun _ hc ↦ Nat.isDigit_of_mem_toDigits (by decide) (by decide) hc

theorem digits_ne_nil (n : Nat) : digits n ≠ [] := List.ne_nil_of_length_pos (digitCount_pos n)

theorem allDigits_zeroes (n : Nat) : AllDigits (zeroes n) := fun c hc ↦ by
  rw [(List.mem_replicate.1 hc).2]
  rfl

theorem numeral_digits (n : Nat) : numeral (digits n) = n := Nat.ofDigitChars_toDigits (by decide) (by decide)

theorem numeral_zeroes_append (n : Nat) (ds : List Char) : numeral (zeroes n ++ ds) = numeral ds := by
  induction n with
  | zero => rfl
  | succ n ih => rw [← ih]; rfl

end Digits

section Layouts

variable (sign : Sign) (letter : Char) (width : Nat) (e : Int) (x : Exponent) (ds : List Char) (k : Nat)

def exponentOf : Exponent where
  letter
  sign := if e < 0 then .minus else .plus
  power := zeroes (width - (digits e.natAbs).length) ++ digits e.natAbs

def scientific : Numeral := ⟨sign, ds.take 1, if ds.length ≤ 1 then none else some (ds.drop 1), some x⟩

def fractional : Numeral := ⟨sign, ['0'], some (zeroes k ++ ds), none⟩

def pointed : Numeral := ⟨sign, ds.take k, some (ds.drop k), none⟩

theorem value_exponentOf : (exponentOf letter width e).value = e := by
  rw [Exponent.value, exponentOf, numeral_zeroes_append, numeral_digits]
  by_cases he : e < 0
  · rw [if_pos he]
    exact (congrArg Neg.neg (Int.ofNat_natAbs_of_nonpos (Int.le_of_lt he))).trans (Int.neg_neg e)
  · rw [if_neg he]
    exact Int.natAbs_of_nonneg (Int.not_lt.1 he)

theorem places_scientific : (scientific sign x ds).places = ds.drop 1 := by
  rw [scientific, Numeral.places]
  split
  · exact (List.drop_eq_nil_of_le ‹_›).symm
  · rfl

theorem text_scientific : (scientific sign x ds).text =
    sign.text ++ (ds.take 1 ++ (if ds.length ≤ 1 then [] else '.' :: ds.drop 1) ++ x.text) := by
  rw [Numeral.text, Numeral.body, scientific, List.append_assoc]
  dsimp only
  congr 3
  split <;> rfl

theorem text_fractional : (fractional sign ds k).text = sign.text ++ ('0' :: '.' :: (zeroes k ++ ds)) :=
  congrArg _ (congrArg _ (List.append_nil _))

theorem text_pointed : (pointed sign ds k).text = sign.text ++ (ds.take k ++ '.' :: ds.drop k) :=
  congrArg _ (congrArg _ (List.append_nil _))

theorem decimal_scientific : (scientific sign x ds).decimal =
    finite sign.isMinus (numeral ds) (x.value - (ds.length - 1 : Nat)) := by
  rw [Numeral.decimal, Numeral.coefficient, Numeral.scale, places_scientific, scientific,
    List.take_append_drop, List.length_drop]
  rfl

theorem decimal_fractional : (fractional sign ds k).decimal =
    finite sign.isMinus (numeral ds) (-(k + ds.length : Nat)) := by
  rw [Numeral.decimal, Numeral.coefficient, Numeral.scale, Numeral.places, fractional, Option.getD_some,
    List.length_append, zeroes, List.length_replicate, Numeral.power, Int.zero_sub]
  exact congrArg (finite _ · _) (numeral_zeroes_append (k + 1) ds)

theorem decimal_pointed : (pointed sign ds k).decimal =
    finite sign.isMinus (numeral ds) (-(ds.length - k : Nat)) := by
  rw [Numeral.decimal, Numeral.coefficient, Numeral.scale, Numeral.places, pointed, Option.getD_some,
    List.take_append_drop, List.length_drop, Numeral.power, Int.zero_sub]

variable {letter x ds}

theorem proper_exponentOf (h : letter = 'e' ∨ letter = 'E') : (exponentOf letter width e).Proper where
  letter := h
  nonempty := List.append_ne_nil_of_right_ne_nil _ (digits_ne_nil _)
  digits := (allDigits_zeroes _).append (allDigits_digits _)

theorem AllDigits.take (h : AllDigits ds) (k : Nat) : AllDigits (ds.take k) :=
  fun c hc ↦ h c (List.mem_of_mem_take hc)

theorem AllDigits.drop (h : AllDigits ds) (k : Nat) : AllDigits (ds.drop k) :=
  fun c hc ↦ h c (List.mem_of_mem_drop hc)

theorem proper_scientific (hds : AllDigits ds) (hne : ds ≠ []) (hx : x.Proper) :
    (scientific sign x ds).Proper where
  whole := hds.take 1
  places := by
    rw [places_scientific]
    exact hds.drop 1
  nonempty h := hne ((List.take_eq_nil_iff.1 h.1).resolve_left (by decide))
  exponent := by
    rintro _ ⟨⟩
    exact hx

theorem proper_fractional (hds : AllDigits ds) : (fractional sign ds k).Proper :=
  ⟨List.forall_mem_singleton.2 rfl, (allDigits_zeroes k).append hds, nofun, nofun⟩

theorem proper_pointed (hds : AllDigits ds) (hne : ds ≠ []) : (pointed sign ds k).Proper where
  whole := hds.take k
  places := hds.drop k
  nonempty h := hne <| by
    rw [← List.take_append_drop k ds]
    exact List.append_eq_nil_iff.2 h
  exponent := nofun

end Layouts

section Finite

variable (neg : Bool) (c : Nat) (e : Int)

def signOf (negative : Bool) : Sign := if negative then .minus else .none

theorem signText_eq : signText neg = (signOf neg).text := by
  cases neg <;> rfl

theorem isMinus_signOf : (signOf neg).isMinus = neg := by
  cases neg <;> rfl

theorem text_exponentOf : (exponentOf 'E' 0 e).text = exponentText e := by
  rw [Exponent.text, exponentText, exponentOf, Nat.zero_sub]
  split <;> rfl

def spelling : Numeral :=
  let ds := digits c
  let point := e + ds.length
  if 0 < e ∨ point ≤ -6 then scientific (signOf neg) (exponentOf 'E' 0 (point - 1)) ds
  else if e = 0 then ⟨signOf neg, ds, none, none⟩
  else if point ≤ 0 then fractional (signOf neg) ds (-point).toNat
  else pointed (signOf neg) ds point.toNat

theorem proper_spelling : (spelling neg c e).Proper := by
  have hds := allDigits_digits c
  have hnil := digits_ne_nil c
  rw [spelling]
  split
  · exact proper_scientific _ hds hnil (proper_exponentOf _ _ (.inr rfl))
  · split
    · exact ⟨hds, nofun, fun h ↦ hnil h.1, nofun⟩
    · split
      · exact proper_fractional _ _ hds
      · exact proper_pointed _ _ hds hnil

theorem text_spelling : (spelling neg c e).text = (finite neg c e).toText := by
  rw [toText, signText_eq, finiteText, spelling]
  split
  · rw [text_scientific, text_exponentOf]
  · split
    · exact congrArg _ (List.append_nil _)
    · split
      · rw [text_fractional]
        rfl
      · rw [text_pointed]

theorem decimal_spelling : (spelling neg c e).decimal = finite neg c e := by
  have hlength : 0 < (digits c).length := digitCount_pos c
  rw [spelling]
  split
  · rw [decimal_scientific, value_exponentOf, isMinus_signOf, numeral_digits]
    congr 1
    omega
  · rename_i hscientific
    split
    · rename_i hzero
      rw [Numeral.decimal, Numeral.coefficient, Numeral.places, Option.getD_none, List.append_nil,
        isMinus_signOf, numeral_digits, hzero]
      rfl
    · split
      · rw [decimal_fractional, isMinus_signOf, numeral_digits]
        congr 1
        omega
      · rw [decimal_pointed, isMinus_signOf, numeral_digits]
        congr 1
        omega

/-- The limits of exponents are far away. -/
theorem representable_of_digitCount_le {neg : Bool} {c : Nat} {e : Int} (hc : digitCount c ≤ 1000001)
    (he : e.natAbs ≤ 1000000) : (finite neg c e).Representable := by
  have hpositive := digitCount_pos c
  rw [Representable, fits, Bool.and_eq_true, decide_eq_true_eq, decide_eq_true_eq, adjusted, leastExponent,
    greatestExponent]
  omega

theorem toText_ofInt (n : Int) : (ofInt n).toText = (toString n).toList := by
  have hdigits (m : Nat) : finiteText m 0 = m.repr.toList := by
    rw [Nat.toList_repr, finiteText]
    have hpoint : ¬ ((0 : Int) < 0 ∨ 0 + ((digits m).length : Int) ≤ -6) := by omega
    rw [if_neg hpoint, if_pos rfl, digits]
  rw [ofInt, toText, hdigits]
  cases n with
  | ofNat n => rfl
  | negSucc n =>
    have htext : toString (Int.negSucc n) = "-" ++ (n + 1).repr := rfl
    rw [decide_eq_true (Int.negSucc_lt_zero n), htext, String.toList_append]
    rfl

theorem exists_spelled_toString_iff {n : Int} :
    (∃ d, Spelled (toString n).toList d) ↔ (ofInt n).Representable := by
  have hproper := proper_spelling (n < 0) n.natAbs 0
  rw [← toText_ofInt, ofInt, ← text_spelling, hproper.exists_spelled_iff, decimal_spelling]

end Finite

section Nan

variable {signalling : Bool} {ds : List Char}

def nanWord (signalling : Bool) : List Char := if signalling then "sNaN".toList else "NaN".toList

theorem read?_nan (neg signalling : Bool) (hds : AllDigits ds) :
    read? (signText neg ++ (nanWord signalling ++ ds)) = some (nan neg signalling (numeral ds)) := by
  have hword : ∀ c ∈ nanWord signalling, Plain c :=
    forall_plain_of_all (by cases signalling <;> decide)
  have hplain : ∀ c ∈ nanWord signalling ++ ds, Plain c := forall_plain_append hword hds.plain
  have hsign : takeSign ((signOf neg).text ++ (nanWord signalling ++ ds)) =
      (neg, nanWord signalling ++ ds) := by
    rw [takeSign_text, isMinus_signOf] <;> cases signalling <;> nofun
  have hnumeral : readNumeral neg (nanWord signalling ++ ds) = none := by cases signalling <;> rfl
  have hspecial : readSpecial neg (nanWord signalling ++ ds) = readNan neg signalling ds := by
    cases signalling <;> rfl
  rw [signText_eq, read?_of_plain (forall_plain_append (plain_sign _) hplain), hsign]
  dsimp only
  rw [hnumeral, hspecial, readNan, if_pos hds.all, Option.none_or]

end Nan

/-- The text of a decimal reads back as the decimal, with all its digits and its exponent. -/
theorem read?_toText {d : Decimal} (hd : d.Representable) : read? d.toText = some d := by
  cases d with
  | finite neg c e =>
    have hfits : (spelling neg c e).decimal.Representable := by
      rw [decimal_spelling]
      exact hd
    rw [← text_spelling, (proper_spelling neg c e).read?_text hfits, decimal_spelling]
  | infinite neg => cases neg <;> decide +kernel
  | nan neg signalling payload =>
    rw [toText, List.append_assoc]
    change read? (signText neg ++ (nanWord signalling ++ _)) = _
    split
    · rename_i hzero
      have hnone : AllDigits [] := nofun
      rw [read?_nan neg signalling hnone, hzero]
      rfl
    · rw [read?_nan neg signalling (allDigits_digits payload), numeral_digits]

theorem spelled_toString_iff {n : Int} {d : Decimal} :
    Spelled (toString n).toList d ↔ ofInt n = d ∧ d.Representable := by
  constructor
  · intro h
    have hfits := exists_spelled_toString_iff.1 ⟨d, h⟩
    have hread := (read?_eq_some_iff_spelled.2 h).1
    rw [← toText_ofInt, read?_toText hfits] at hread
    obtain rfl := Option.some.inj hread
    exact ⟨rfl, hfits⟩
  · rintro ⟨rfl, hfits⟩
    rw [← toText_ofInt]
    exact read?_eq_some_iff_spelled.1 ⟨read?_toText hfits, rfl⟩

theorem ofText?_text {d : Decimal} (hd : d.Representable) : ofText? d.text = some d := by
  rw [ofText?, text, String.toList_ofList]
  exact read?_toText hd

end Provisioning.Decimal
