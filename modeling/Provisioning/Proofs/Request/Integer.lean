import Provisioning.Proofs.Double.Text
import Provisioning.Request.Integer

namespace Provisioning

theorem signedQuotient_eq_some_iff (neg : Bool) (a : ℕ) {d : ℕ} {n : ℤ} (hd : 0 < d) :
    (if a % d = 0 then some (if neg then -((a / d : ℕ) : ℤ) else ((a / d : ℕ) : ℤ)) else none) = some n ↔
      (if neg then (-1 : ℚ) else 1) * (a / d) = n := by
  have hd' : (d : ℚ) ≠ 0 := Nat.cast_ne_zero.2 hd.ne'
  have hwhole (k : ℤ) : (a : ℚ) / d = k ↔ (a : ℤ) = k * d := by
    rw [div_eq_iff hd']
    exact_mod_cast Iff.rfl
  have hsigned : (if neg then (-1 : ℚ) else 1) * (a / d) = n ↔ (a : ℤ) = (if neg then -n else n) * d := by
    rw [← hwhole]
    cases neg <;> simp [neg_eq_iff_eq_neg]
  rw [hsigned]
  by_cases hdvd : a % d = 0
  · obtain ⟨k, rfl⟩ := Nat.dvd_of_mod_eq_zero hdvd
    have hne : (d : ℤ) ≠ 0 := Nat.cast_ne_zero.2 hd.ne'
    rw [if_pos hdvd, Nat.mul_div_cancel_left k hd, Option.some.injEq, Nat.cast_mul, mul_comm, mul_left_inj' hne]
    cases neg <;> simp [neg_eq_iff_eq_neg]
  · simp only [hdvd, if_false, reduceCtorEq, false_iff]
    intro h
    have hdiv : (d : ℤ) ∣ a := ⟨_, h.trans (mul_comm _ _)⟩
    exact hdvd (Nat.mod_eq_zero_of_dvd (Int.natCast_dvd_natCast.1 hdiv))

namespace Double

def value? : Double → Option ℚ
  | finite neg m e => some ((if neg then -1 else 1) * (m * 2 ^ e))
  | _ => none

theorem toInt?_eq_some_iff {x : Double} {n : ℤ} : x.toInt? = some n ↔ x.value? = some (n : ℚ) := by
  cases x with
  | finite neg m e =>
    have hquot := signedQuotient_eq_some_iff neg (scaleByTwo m 1 e).1 (n := n) (scaleByTwo_snd_pos m e one_pos)
    rw [scaleByTwo_div, Nat.cast_one, div_one] at hquot
    simpa [toInt?, value?] using hquot
  | infinite _ | nan => simp [toInt?, value?]

end Double

namespace Decimal

theorem toInt?_eq_some_iff {d : Decimal} {n : ℤ} : d.toInt? = some n ↔ d.value? = some (n : ℚ) := by
  cases d with
  | finite neg c e =>
    have hpos : 0 < 10 ^ (-e).toNat := by positivity
    have hquot := signedQuotient_eq_some_iff neg (c * 10 ^ e.toNat) (n := n) hpos
    rw [Nat.cast_mul, mul_div_assoc, ← ten_zpow_eq, ← mul_assoc] at hquot
    simpa [toInt?, value?, Nat.pow_eq] using hquot
  | infinite _ | nan => simp [toInt?, value?]

end Decimal

namespace Request

open Text
open Decimal (Sign AllDigits numeral takeSign)

section Groups

/-- Groups of digits that underscores may stand between. -/
def Groups (gs : List (List Char)) : Prop := gs ≠ [] ∧ ∀ g ∈ gs, g ≠ [] ∧ AllDigits g

variable {c d : Char} {s ds g : List Char} {gs : List (List Char)}

theorem intercalate_cons_head (c : Char) (g : List Char) (gs : List (List Char)) :
    ['_'].intercalate ((c :: g) :: gs) = c :: ['_'].intercalate (g :: gs) := by
  cases gs with
  | nil => simp
  | cons g' gs => simp [List.intercalate_cons_cons]

theorem ne_underscore_of_isDigit (h : c.isDigit = true) : c ≠ '_' := by
  rintro rfl
  cases h

theorem groupedDigits?_cons (hc : c.isDigit = true) (hd : d ≠ '_') :
    groupedDigits? (c :: d :: s) = (groupedDigits? (d :: s)).map (c :: ·) := by
  rw [groupedDigits?, if_pos hc]
  · nofun
  · rintro _ ⟨⟩
    exact hd rfl

theorem groupedDigits?_group (hne : g ≠ []) (hg : AllDigits g) : groupedDigits? g = some g := by
  induction g with
  | nil => exact absurd rfl hne
  | cons c g ih =>
    obtain ⟨hc, hg⟩ := List.forall_mem_cons.1 hg
    cases g with
    | nil => exact if_pos hc
    | cons d g =>
      have hd := ne_underscore_of_isDigit (hg d List.mem_cons_self)
      rw [groupedDigits?_cons hc hd, ih (List.cons_ne_nil _ _) hg, Option.map_some]

theorem groupedDigits?_group_append (hne : g ≠ []) (hg : AllDigits g) :
    groupedDigits? (g ++ '_' :: s) = (groupedDigits? s).map (g ++ ·) := by
  induction g with
  | nil => exact absurd rfl hne
  | cons c g ih =>
    obtain ⟨hc, hg⟩ := List.forall_mem_cons.1 hg
    cases g with
    | nil => exact if_pos hc
    | cons d g =>
      have hd := ne_underscore_of_isDigit (hg d List.mem_cons_self)
      have hrest := ih (List.cons_ne_nil _ _) hg
      rw [List.cons_append] at hrest
      rw [List.cons_append, List.cons_append, groupedDigits?_cons hc hd, hrest, Option.map_map]
      rfl

theorem Groups.groupedDigits? (h : Groups gs) :
    groupedDigits? (['_'].intercalate gs) = some gs.flatten := by
  obtain ⟨hne, hgs⟩ := h
  induction gs with
  | nil => exact absurd rfl hne
  | cons g gs ih =>
    obtain ⟨hg, hgs⟩ := List.forall_mem_cons.1 hgs
    cases gs with
    | nil =>
      rw [List.intercalate_singleton, List.flatten_singleton]
      exact groupedDigits?_group hg.1 hg.2
    | cons g' gs =>
      rw [List.intercalate_cons_cons, List.append_assoc, List.singleton_append,
        groupedDigits?_group_append hg.1 hg.2, ih (List.cons_ne_nil _ _) hgs, Option.map_some]
      rfl

theorem Groups.cons (hc : c.isDigit = true) (h : Groups gs) : Groups ([c] :: gs) :=
  ⟨List.cons_ne_nil _ _, List.forall_mem_cons.2
    ⟨⟨List.cons_ne_nil _ _, List.forall_mem_singleton.2 hc⟩, h.2⟩⟩

theorem Groups.cons_head (hc : c.isDigit = true) (h : Groups (g :: gs)) : Groups ((c :: g) :: gs) := by
  obtain ⟨⟨-, hg⟩, hgs⟩ := List.forall_mem_cons.1 h.2
  exact ⟨List.cons_ne_nil _ _, List.forall_mem_cons.2
    ⟨⟨List.cons_ne_nil _ _, List.forall_mem_cons.2 ⟨hc, hg⟩⟩, hgs⟩⟩

theorem exists_groups (h : groupedDigits? s = some ds) :
    ∃ gs, Groups gs ∧ ['_'].intercalate gs = s ∧ gs.flatten = ds := by
  induction s using groupedDigits?.induct generalizing ds with
  | case1 => cases h
  | case2 c hc =>
    rw [groupedDigits?, if_pos hc] at h
    obtain rfl := Option.some.inj h
    exact ⟨[[c]], ⟨List.cons_ne_nil _ _, by simpa [AllDigits] using hc⟩, rfl, rfl⟩
  | case3 c hc =>
    rw [groupedDigits?, if_neg hc] at h
    cases h
  | case4 c s hc ih =>
    rw [groupedDigits?, if_pos hc, Option.map_eq_some_iff] at h
    obtain ⟨ds', h, rfl⟩ := h
    obtain ⟨gs, hgs, rfl, rfl⟩ := ih h
    obtain ⟨g, gs, rfl⟩ := List.exists_cons_of_ne_nil hgs.1
    -- a digit that an underscore follows is a group of its own
    exact ⟨[c] :: g :: gs, hgs.cons hc, by rw [List.intercalate_cons_cons]; rfl, rfl⟩
  | case5 c s hc =>
    rw [groupedDigits?, if_neg hc] at h
    cases h
  | case6 c s hnil hunderscore hc ih =>
    rw [groupedDigits?, if_pos hc, Option.map_eq_some_iff] at h
    · obtain ⟨ds', h, rfl⟩ := h
      obtain ⟨gs, hgs, rfl, rfl⟩ := ih h
      obtain ⟨g, gs, rfl⟩ := List.exists_cons_of_ne_nil hgs.1
      exact ⟨(c :: g) :: gs, hgs.cons_head hc, intercalate_cons_head c g gs, rfl⟩
    · exact hnil
    · exact hunderscore
  | case7 c s hnil hunderscore hc =>
    rw [groupedDigits?, if_neg hc] at h
    · cases h
    · exact hnil
    · exact hunderscore

end Groups

/-- Zeros and underscores in front of a number, a zero first. -/
structure Padding (p : List Char) : Prop where
  chars : ∀ c ∈ p, c = '0' ∨ c = '_'
  head : p.head? ≠ some '_'

/-- A minus between the padding and the digits. An underscore may follow it. -/
inductive LateMinus where
  | none | bare | underscored
  deriving DecidableEq

def LateMinus.text : LateMinus → List Char
  | none => []
  | bare => ['-']
  | underscored => ['-', '_']

/-- A whole number as it is written: a sign, padding, digits in groups between underscores, and perhaps a point
with zeros after it, one more than `zeros` says. -/
structure Whole where
  sign : Sign
  padding : List Char
  late : LateMinus
  groups : List (List Char)
  zeros : Option ℕ

namespace Whole

structure Proper (w : Whole) : Prop where
  padding : Padding w.padding
  groups : Groups w.groups
  /-- A minus stands after the padding only of a number without one, which has no more zeros in front. -/
  late : w.late ≠ .none → w.padding ≠ [] ∧ w.sign ≠ .minus ∧
    (w.groups.flatten.head? = some '0' → w.groups.flatten = ['0'])

def pointText : Option ℕ → List Char
  | none => []
  | some k => '.' :: zeroes (k + 1)

def digitText (w : Whole) : List Char := ['_'].intercalate w.groups ++ pointText w.zeros

def text (w : Whole) : List Char := w.sign.text ++ (w.padding ++ (w.late.text ++ w.digitText))

def value (w : Whole) : ℤ := signed (w.sign.isMinus || w.late != .none) w.groups.flatten

end Whole

section Texts

variable {c : Char} {s p ds : List Char} {gs : List (List Char)} {n : ℤ} {w : Whole}

theorem isZeroFraction_iff : isZeroFraction s = true ↔ ∃ zeros, Whole.pointText zeros = s := by
  constructor
  · intro h
    cases s with
    | nil => exact ⟨none, rfl⟩
    | cons c s =>
      simp only [isZeroFraction, Bool.and_eq_true, beq_iff_eq, Bool.not_eq_true', List.isEmpty_eq_false_iff,
        List.all_eq_true] at h
      obtain ⟨⟨rfl, hne⟩, hs⟩ := h
      obtain ⟨k, hk⟩ := Nat.exists_eq_succ_of_ne_zero (List.length_pos_iff.2 hne).ne'
      refine ⟨some k, ?_⟩
      rw [Whole.pointText, zeroes, ← Nat.succ_eq_add_one, ← hk, ← List.eq_replicate_of_mem hs]
  · rintro ⟨_ | k, rfl⟩ <;> simp [Whole.pointText, isZeroFraction, zeroes]

theorem mem_intercalate_groups (h : Groups gs) (hc : c ∈ ['_'].intercalate gs) :
    c.isDigit = true ∨ c = '_' := by
  obtain ⟨hne, hgs⟩ := h
  induction gs with
  | nil => exact absurd rfl hne
  | cons g gs ih =>
    obtain ⟨hg, hgs⟩ := List.forall_mem_cons.1 hgs
    cases gs with
    | nil =>
      rw [List.intercalate_singleton] at hc
      exact .inl (hg.2 c hc)
    | cons g' gs =>
      rw [List.intercalate_cons_cons, List.append_assoc] at hc
      rcases List.mem_append.1 hc with hc | hc
      · exact .inl (hg.2 c hc)
      · rcases List.mem_cons.1 hc with rfl | hc
        · exact .inr rfl
        · exact ih hc (List.cons_ne_nil _ _) hgs

theorem digitText_eq_cons (h : Groups w.groups) : ∃ c s, c.isDigit = true ∧ w.digitText = c :: s := by
  obtain ⟨g, gs, hgs⟩ := List.exists_cons_of_ne_nil h.1
  obtain ⟨hne, hg⟩ := h.2 g (by simp [hgs])
  obtain ⟨c, g, rfl⟩ := List.exists_cons_of_ne_nil hne
  exact ⟨c, _, hg c List.mem_cons_self, by rw [Whole.digitText, hgs, intercalate_cons_head, List.cons_append]⟩

theorem wholeDigits?_digitText (h : Groups w.groups) : wholeDigits? w.digitText = some w.groups.flatten := by
  have hgs : ∀ c ∈ ['_'].intercalate w.groups, (c != '.') = true := by
    intro c hc
    rw [bne_iff_ne]
    rintro rfl
    rcases mem_intercalate_groups h hc with h | h <;> cases h
  have hpoint (zeros : Option ℕ) : (Whole.pointText zeros).takeWhile (· != '.') = [] ∧
      (Whole.pointText zeros).dropWhile (· != '.') = Whole.pointText zeros := by
    cases zeros <;> simp [Whole.pointText]
  rw [wholeDigits?, Whole.digitText, List.takeWhile_append_of_pos hgs, List.dropWhile_append_of_pos hgs,
    (hpoint _).1, (hpoint _).2, if_pos (isZeroFraction_iff.2 ⟨_, rfl⟩), List.append_nil, h.groupedDigits?]

theorem exists_of_wholeDigits? (h : wholeDigits? s = some ds) :
    ∃ gs zeros, Groups gs ∧ ['_'].intercalate gs ++ Whole.pointText zeros = s ∧ gs.flatten = ds := by
  rw [wholeDigits?] at h
  split at h
  · rename_i hzero
    obtain ⟨zeros, hzeros⟩ := isZeroFraction_iff.1 hzero
    obtain ⟨gs, hgs, htext, hds⟩ := exists_groups h
    exact ⟨gs, zeros, hgs, by rw [htext, hzeros, List.takeWhile_append_dropWhile], hds⟩
  · cases h

theorem Padding.eq_nil_or_cons (h : Padding p) : p = [] ∨ ∃ q, p = '0' :: q := by
  cases p with
  | nil => exact .inl rfl
  | cons c q =>
    have hc : c = '0' := (h.chars c List.mem_cons_self).resolve_right (by simpa using h.head)
    exact .inr ⟨q, by rw [hc]⟩

theorem dropPadding_append (last : Char) (hp : ∀ c ∈ p, c = '0' ∨ c = '_') :
    dropPadding last (p ++ s) = dropPadding (p.getLastD last) s := by
  induction p generalizing last with
  | nil => rfl
  | cons c p ih =>
    obtain ⟨hc, hp⟩ := List.forall_mem_cons.1 hp
    rw [List.cons_append, dropPadding, if_pos hc, ih c hp, List.getLastD_cons]

theorem exists_dropped {last : Char} (hlast : last = '0' ∨ last = '_') (s : List Char) :
    ∃ p, (∀ c ∈ p, c = '0' ∨ c = '_') ∧ p ++ dropPadding last s = last :: s := by
  induction s generalizing last with
  | nil => exact ⟨[], by simp, rfl⟩
  | cons c s ih =>
    rw [dropPadding]
    split
    · rename_i hc
      obtain ⟨p, hp, htext⟩ := ih hc
      exact ⟨last :: p, List.forall_mem_cons.2 ⟨hlast, hp⟩, by rw [List.cons_append, htext]⟩
    · split
      · exact ⟨[last], by simpa using hlast, rfl⟩
      · exact ⟨[], by simp, rfl⟩

theorem exists_dropPadding_groups (last : Char) (h : Groups gs) (zeros : Option ℕ) :
    ∃ gs', Groups gs' ∧ numeral gs'.flatten = numeral gs.flatten ∧
      dropPadding last (['_'].intercalate gs ++ Whole.pointText zeros) =
        ['_'].intercalate gs' ++ Whole.pointText zeros := by
  have hzero (ds : List Char) : numeral ('0' :: ds) = numeral ds := Decimal.numeral_zeroes_append 1 ds
  -- Zeros in front of the digits go with the padding: through the first group, and from one group to the next.
  induction gs generalizing last with
  | nil => exact absurd rfl h.1
  | cons g gs ihgs =>
    obtain ⟨⟨hg, hdigits⟩, hgs⟩ := List.forall_mem_cons.1 h.2
    clear h
    induction g generalizing last with
    | nil => exact absurd rfl hg
    | cons c g ih =>
      obtain ⟨hc, hdigits'⟩ := List.forall_mem_cons.1 hdigits
      rw [intercalate_cons_head, List.cons_append, dropPadding]
      by_cases hc0 : c = '0'
      · subst hc0
        rw [if_pos (.inl rfl), List.flatten_cons, List.cons_append, hzero]
        match g, gs with
        | d :: g, gs => exact ih '0' (List.cons_ne_nil d g) hdigits'
        | [], g' :: gs =>
          have htext : ['_'].intercalate ([] :: g' :: gs) = '_' :: ['_'].intercalate (g' :: gs) := by
            simp [List.intercalate_cons_cons]
          rw [htext, List.cons_append, dropPadding, if_pos (.inr rfl)]
          exact ihgs '_' ⟨List.cons_ne_nil _ _, hgs⟩
        | [], [] =>
          refine ⟨[['0']], ⟨by simp, by simp [AllDigits]⟩, rfl, ?_⟩
          cases zeros <;> simp [Whole.pointText, dropPadding]
      · have hstop : ¬ (c = '0' ∨ c = '_') := not_or.2 ⟨hc0, ne_underscore_of_isDigit hc⟩
        refine ⟨(c :: g) :: gs, ⟨by simp, List.forall_mem_cons.2 ⟨⟨hg, hdigits⟩, hgs⟩⟩, rfl, ?_⟩
        rw [if_neg hstop, if_pos (.inl hc), intercalate_cons_head, List.cons_append]

theorem afterZeros?_digit (neg : Bool) (hc : c.isDigit = true) :
    afterZeros? neg (c :: s) = (wholeDigits? (c :: s)).map (signed neg) := by
  rw [afterZeros?]
  rintro _ - ⟨⟩
  cases hc

theorem afterZeros?_digitText (neg : Bool) (last : Char) (h : Groups w.groups) :
    afterZeros? neg (dropPadding last w.digitText) = some (signed neg w.groups.flatten) := by
  obtain ⟨gs, hgs, hnumeral, hdrop⟩ := exists_dropPadding_groups last h w.zeros
  have hdrop : dropPadding last w.digitText = ({ w with groups := gs } : Whole).digitText := hdrop
  have hwhole := wholeDigits?_digitText (w := { w with groups := gs }) hgs
  obtain ⟨c, s, hc, htext⟩ := digitText_eq_cons (w := { w with groups := gs }) hgs
  rw [htext] at hdrop hwhole
  rw [hdrop, afterZeros?_digit neg hc, hwhole, Option.map_some, signed, signed, hnumeral]

theorem lateDigits?_digitText (h : w.Proper) (hlate : w.late ≠ .none) :
    ∃ s, w.late.text = '-' :: s ∧ lateDigits? (s ++ w.digitText) = some w.groups.flatten := by
  have hfilter : (wholeDigits? w.digitText).filter (fun ds ↦ ds.head? != some '0' || ds == ['0']) =
      some w.groups.flatten := by
    rw [wholeDigits?_digitText h.groups, Option.filter_some, if_pos]
    simpa [imp_iff_not_or] using (h.late hlate).2.2
  cases hkind : w.late with
  | none => exact absurd hkind hlate
  | bare =>
    obtain ⟨c, s, hc, htext⟩ := digitText_eq_cons h.groups
    refine ⟨[], rfl, ?_⟩
    have hdrop : dropUnderscore w.digitText = w.digitText := by
      rw [htext, dropUnderscore]
      rintro _ ⟨⟩
      cases hc
    rw [List.nil_append, lateDigits?, hdrop, hfilter]
  | underscored => exact ⟨['_'], rfl, hfilter⟩

theorem integer?_zero (sign : Sign) :
    integer? (sign.text ++ '0' :: s) = afterZeros? sign.isMinus (dropPadding '0' s) := by
  simp [integer?, Decimal.takeSign_text sign (s := '0' :: s) (by simp) (by simp)]

theorem integer?_digit (sign : Sign) (hc : c.isDigit = true) (hc0 : c ≠ '0') :
    integer? (sign.text ++ c :: s) = (wholeDigits? (c :: s)).map (signed sign.isMinus) := by
  have hnosign {d : Char} (hd : d.isDigit = false) : (c :: s).head? ≠ some d := by
    rintro ⟨⟩
    rw [hc] at hd
    cases hd
  rw [integer?, Decimal.takeSign_text sign (hnosign rfl) (hnosign rfl)]
  dsimp only
  split
  · rename_i heq
    exact absurd (List.cons.inj heq).1 hc0
  · rfl

theorem exists_late (s : List Char) :
    ∃ late : LateMinus, late ≠ .none ∧ late.text ++ dropUnderscore s = '-' :: s := by
  rw [dropUnderscore.eq_def]
  split
  · exact ⟨.underscored, by simp, rfl⟩
  · exact ⟨.bare, by simp, rfl⟩

theorem integer?_text (h : w.Proper) : integer? w.text = some w.value := by
  have hvalue (hkind : w.late = .none) : w.value = signed w.sign.isMinus w.groups.flatten := by
    simp [Whole.value, hkind]
  rcases h.padding.eq_nil_or_cons with hnil | ⟨q, hq⟩
  · have hkind : w.late = .none := not_not.1 fun hlate ↦ (h.late hlate).1 hnil
    obtain ⟨c, t, hc, htext⟩ := digitText_eq_cons h.groups
    have hwhole := wholeDigits?_digitText h.groups
    by_cases hc0 : c = '0'
    · subst hc0
      have hdrop : dropPadding '0' t = dropPadding '0' w.digitText := by
        rw [htext, dropPadding, if_pos (.inl rfl)]
      rw [Whole.text, hnil, hkind, LateMinus.text, List.nil_append, List.nil_append, htext,
        integer?_zero, hdrop, afterZeros?_digitText _ _ h.groups, hvalue hkind]
    · rw [htext] at hwhole
      rw [Whole.text, hnil, hkind, LateMinus.text, List.nil_append, List.nil_append, htext,
        integer?_digit w.sign hc hc0, hwhole, Option.map_some, hvalue hkind]
  · have hchars : ∀ c ∈ q, c = '0' ∨ c = '_' := fun c hc ↦ h.padding.chars c (by simp [hq, hc])
    rw [Whole.text, hq, List.cons_append, integer?_zero, dropPadding_append _ hchars]
    by_cases hkind : w.late = .none
    · rw [hkind, LateMinus.text, List.nil_append, afterZeros?_digitText _ _ h.groups, hvalue hkind]
    · have hsign : w.sign.isMinus = false := by
        cases hsign : w.sign <;> first | rfl | exact absurd hsign (h.late hkind).2.1
      obtain ⟨s, hs, hlate⟩ := lateDigits?_digitText h hkind
      have hminus : dropPadding (q.getLastD '0') ('-' :: (s ++ w.digitText)) = '-' :: (s ++ w.digitText) := by
        simp [dropPadding]
      rw [hs, List.cons_append, hminus, hsign, afterZeros?, hlate, Option.map_some,
        Whole.value, bne_iff_ne.2 hkind, Bool.or_true]

/-- The reader of whole numbers accepts the texts of its grammar and nothing else. -/
theorem integer?_eq_some_iff :
    integer? s = some n ↔ ∃ w : Whole, w.Proper ∧ w.text = s ∧ w.value = n := by
  constructor
  · intro h
    obtain ⟨sign, hsign, hneg⟩ := Decimal.exists_sign s
    rw [integer?] at h
    dsimp only at h
    split at h
    · rename_i t ht
      rw [ht] at hsign
      obtain ⟨p, hp, htext⟩ := exists_dropped (.inl rfl) t
      have hpadding : Padding p := by
        refine ⟨hp, ?_⟩
        cases p <;> simp_all
      rw [← htext] at hsign
      rw [afterZeros?.eq_def] at h
      split at h
      · rename_i v hneg' hcore
        obtain ⟨ds, hds, rfl⟩ := Option.map_eq_some_iff.1 h
        obtain ⟨hds, hfirst⟩ := Option.filter_eq_some_iff.1 hds
        obtain ⟨gs, zeros, hgs, hrest, rfl⟩ := exists_of_wholeDigits? hds
        obtain ⟨late, hlate, hlateText⟩ := exists_late v
        have hne : p ≠ [] := by
          rintro rfl
          simp [hcore] at htext
        have hproper : (⟨sign, p, late, gs, zeros⟩ : Whole).Proper := by
          refine ⟨hpadding, hgs, fun _ ↦ ⟨hne, ?_, ?_⟩⟩
          · rintro rfl
            simp [hneg', Sign.isMinus] at hneg
          · simpa [imp_iff_not_or] using hfirst
        refine ⟨_, hproper, ?_, by simp only [Whole.value, bne_iff_ne.2 hlate, Bool.or_true]⟩
        rw [← hsign, hcore, ← hlateText, ← hrest]
        rfl
      · obtain ⟨ds, hds, rfl⟩ := Option.map_eq_some_iff.1 h
        obtain ⟨gs, zeros, hgs, hcore, rfl⟩ := exists_of_wholeDigits? hds
        refine ⟨⟨sign, p, .none, gs, zeros⟩, ⟨hpadding, hgs, by simp⟩, ?_, by simp [Whole.value, hneg]⟩
        simpa [Whole.text, Whole.digitText, LateMinus.text, hcore] using hsign
    · obtain ⟨ds, hds, rfl⟩ := Option.map_eq_some_iff.1 h
      obtain ⟨gs, zeros, hgs, hcore, rfl⟩ := exists_of_wholeDigits? hds
      refine ⟨⟨sign, [], .none, gs, zeros⟩, ⟨⟨by simp, by simp⟩, hgs, by simp⟩, ?_, by simp [Whole.value, hneg]⟩
      simpa [Whole.text, Whole.digitText, LateMinus.text, hcore] using hsign
  · rintro ⟨w, hw, rfl, rfl⟩
    exact integer?_text hw

end Texts

theorem integerOfDouble_eq_ok_iff {x : Double} {n : ℤ} :
    integerOfDouble x = .ok n ↔ x.value? = some (n : ℚ) ∧ -2 ^ 63 < n ∧ n < 2 ^ 63 := by
  rw [← Double.toInt?_eq_some_iff, integerOfDouble]
  cases hx : x.toInt? with
  | none => exact iff_of_false nofun nofun
  | some m =>
    rw [Option.some.injEq]
    dsimp only
    split
    · rename_i hrange
      rw [Except.ok.injEq]
      refine ⟨?_, And.left⟩
      rintro rfl
      exact ⟨rfl, by omega, by omega⟩
    · rename_i hrange
      refine iff_of_false nofun ?_
      rintro ⟨rfl, hlow, hhigh⟩
      exact hrange ⟨by omega, by omega⟩

theorem integerOfDecimal_eq_ok_iff {d : Decimal} {n : ℤ} :
    integerOfDecimal d = .ok n ↔ d.value? = some (n : ℚ) := by
  rw [← Decimal.toInt?_eq_some_iff, integerOfDecimal]
  cases d.toInt? <;> simp

/-- The text is a whole number as it is written, but for white space around it, and the number has at most 4300
characters when a minus counts as one and zeros in front do not. -/
def SpelledInText (n : ℤ) (s : String) : Prop :=
  (∃ w : Whole, w.Proper ∧ w.text = trim isSpace s.toList ∧ w.value = n) ∧ width n ≤ 4300

theorem integerOfText_eq_ok_iff {s : String} {n : ℤ} : integerOfText s = .ok n ↔ SpelledInText n s := by
  rw [SpelledInText, ← integer?_eq_some_iff, integerOfText]
  cases integer? (trim isSpace s.toList) with
  | none => simp
  | some m =>
    by_cases hwidth : width m ≤ maxIntegerText
    · simp only [Option.filter_some, hwidth, decide_true, if_true, Except.ok.injEq, Option.some.injEq]
      exact ⟨fun h ↦ ⟨h, h ▸ hwidth⟩, And.left⟩
    · simp only [Option.filter_some, hwidth, decide_false, Bool.false_eq_true, if_false, reduceCtorEq, false_iff,
        Option.some.injEq, not_and]
      exact fun h ↦ h ▸ hwidth

/-- The value gives the whole number `n`: as a number, a truth value, a double strictly between `-2 ^ 63` and
`2 ^ 63` or a decimal, or written in a text. -/
def SpellsInteger (n : ℤ) : Value → Prop
  | .int m => m = n
  | .bool b => (if b then 1 else 0) = n
  | .float x => x.value? = some (n : ℚ) ∧ -2 ^ 63 < n ∧ n < 2 ^ 63
  | .decimal d => d.value? = some (n : ℚ)
  | .str s => SpelledInText n s
  | _ => False

theorem readInteger_eq_ok_iff {v : Value} {n : ℤ} : readInteger v = .ok n ↔ SpellsInteger n v := by
  cases v with
  | int m => simp [readInteger, SpellsInteger]
  | bool b => simp [readInteger, SpellsInteger]
  | float x => exact integerOfDouble_eq_ok_iff
  | decimal d => exact integerOfDecimal_eq_ok_iff
  | str s => exact integerOfText_eq_ok_iff
  | _ => simp [readInteger, SpellsInteger]

def IntegerForm (v : Value) : Prop := ∃ n, SpellsInteger n v

theorem exists_readInteger_iff {v : Value} : (∃ n, readInteger v = .ok n) ↔ IntegerForm v := by
  simp only [readInteger_eq_ok_iff, IntegerForm]

section Length

variable {w : Whole}

theorem Groups.length_le {gs : List (List Char)} (h : Groups gs) :
    gs.flatten.length ≤ (['_'].intercalate gs).length := by
  obtain ⟨hne, -⟩ := h
  induction gs with
  | nil => exact absurd rfl hne
  | cons g gs ih =>
    cases gs with
    | nil => simp
    | cons g' gs =>
      have hrest := ih (List.cons_ne_nil _ _)
      simp only [List.intercalate_cons_cons, List.flatten_cons, List.length_append] at hrest ⊢
      omega

theorem width_signed_le {neg : Bool} {ds : List Char} (hne : ds ≠ []) (h : AllDigits ds) :
    width (signed neg ds) ≤ ds.length + neg.toNat := by
  have hcount : digitCount (numeral ds) ≤ ds.length :=
    Decimal.digitCount_le (List.length_pos_iff.2 hne) (Decimal.numeral_lt h)
  cases neg with
  | false =>
    have hnonneg : ¬ (numeral ds : ℤ) < 0 := by omega
    simpa [width, signed, hnonneg] using hcount
  | true =>
    simp only [width, signed, if_true, Int.natAbs_neg, Int.natAbs_natCast, Bool.toNat_true]
    split <;> omega

theorem Whole.Proper.width_le (h : w.Proper) : width w.value ≤ w.text.length := by
  have hne : w.groups.flatten ≠ [] := by
    obtain ⟨g, gs, hgs⟩ := List.exists_cons_of_ne_nil h.groups.1
    simp [hgs, (h.groups.2 g (by simp [hgs])).1]
  have hdigits : AllDigits w.groups.flatten := by
    intro c hc
    obtain ⟨g, hg, hc⟩ := List.mem_flatten.1 hc
    exact (h.groups.2 g hg).2 c hc
  have hminus : (w.sign.isMinus || w.late != .none).toNat ≤ w.sign.text.length + w.late.text.length := by
    cases w.sign <;> cases w.late <;> decide
  have hgroups := h.groups.length_le
  have hwidth : width w.value ≤ w.groups.flatten.length + (w.sign.isMinus || w.late != .none).toNat :=
    width_signed_le hne hdigits
  simp only [Whole.text, Whole.digitText, List.length_append]
  omega

/-- A number that is written with at most 4300 characters does not have too many of them. -/
theorem spelledInText_of_length_le {s : String} (hlength : s.length ≤ 4300) (h : w.Proper)
    (htext : w.text = trim isSpace s.toList) : SpelledInText w.value s := by
  refine ⟨⟨w, h, htext, rfl⟩, ?_⟩
  have htrim : (trim isSpace s.toList).length ≤ s.toList.length := by
    have hback := (List.dropWhile_sublist isSpace (l := (s.toList.dropWhile isSpace).reverse)).length_le
    have hfront := (List.dropWhile_sublist isSpace (l := s.toList)).length_le
    rw [List.length_reverse] at hback
    rw [trim, List.length_reverse]
    exact hback.trans hfront
  calc width w.value ≤ (trim isSpace s.toList).length := htext ▸ h.width_le
    _ ≤ s.length := htrim
    _ ≤ 4300 := hlength

end Length

end Request
end Provisioning
