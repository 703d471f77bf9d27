import Provisioning.Proofs.Band.Disjoint
import Provisioning.Proofs.Decimal.Value

namespace Provisioning

variable {bs : List Band} {b : Band} {p : Problem} {i j : ℕ}

/-- The bands at two places of a list, the second after the first, share a day of a category. -/
def Clash (bs : List Band) (i j : ℕ) : Prop :=
  i < j ∧ ∃ a b category day, bs[i]? = some a ∧ bs[j]? = some b ∧
    a.Covers category day ∧ b.Covers category day

/-- The clash with the earliest first place and, for that one, the earliest second place. -/
structure FirstClash (bs : List Band) (i j : ℕ) : Prop where
  clash : Clash bs i j
  first : ∀ i' j', Clash bs i' j' → i < i' ∨ i = i' ∧ j ≤ j'

theorem Band.overlaps_eq_true_iff {a b : Band} (ha : a.minAge < a.maxAge) (hb : b.minAge < b.maxAge) :
    a.overlaps b = true ↔ ∃ category day, a.Covers category day ∧ b.Covers category day := by
  rw [← Bool.not_eq_false, overlaps_eq_false_iff ha hb, Disjoint]
  push Not
  rfl

theorem clash_cons_succ_iff : Clash (b :: bs) (i + 1) (j + 1) ↔ Clash bs i j := by
  simp only [Clash, Nat.add_lt_add_iff_right, List.getElem?_cons_succ]

theorem not_clash_zero : ¬ Clash bs i 0 :=
  fun h ↦ Nat.not_lt_zero i h.1

theorem FirstClash.unique (h : FirstClash bs i j) {i' j' : ℕ} (h' : FirstClash bs i' j') :
    i = i' ∧ j = j' := by
  have hle := h.first i' j' h'.clash
  have hge := h'.first i j h.clash
  omega

section Check

variable (hages : ∀ b ∈ bs, b.minAge < b.maxAge) (hids : (bandIds bs).Nodup)

include hages hids

theorem checkBands_eq_ok_iff_not_clash : checkBands bs = .ok () ↔ ∀ i j, ¬ Clash bs i j := by
  rw [checkBands_eq_ok_iff_disjoint hids hages, List.pairwise_iff_getElem]
  constructor
  · rintro h i j ⟨hij, a, b, category, day, hi, hj, hcovers⟩
    obtain ⟨hi', rfl⟩ := List.getElem?_eq_some_iff.1 hi
    obtain ⟨hj', rfl⟩ := List.getElem?_eq_some_iff.1 hj
    exact h i j hi' hj' hij category day hcovers
  · intro h i j hi hj hij category day hcovers
    exact h i j ⟨hij, _, _, category, day, List.getElem?_eq_getElem hi, List.getElem?_eq_getElem hj, hcovers⟩

end Check

theorem firstClash_of_checkNoOverlap (hages : ∀ o ∈ b :: bs, o.minAge < o.maxAge)
    (hversion : ∀ o ∈ bs, b.isVersionOf o = false) (h : b.checkNoOverlap bs = .error p) :
    ∃ j o, FirstClash (b :: bs) 0 (j + 1) ∧ bs[j]? = some o ∧ p = b.overlapProblem o := by
  have hb : b.minAge < b.maxAge := hages b List.mem_cons_self
  rw [Band.checkNoOverlap] at h
  cases hfind : bs.find? fun o ↦ !b.isVersionOf o && b.overlaps o with
  | none => simp [hfind] at h
  | some o =>
    rw [hfind] at h
    obtain ⟨hfound, j, hj, rfl, hbefore⟩ := List.find?_eq_some_iff_getElem.1 hfind
    have hmem : ∀ k (hk : k < bs.length), b.minAge < b.maxAge ∧ bs[k].minAge < bs[k].maxAge ∧
        b.isVersionOf bs[k] = false := fun k hk ↦
      ⟨hb, hages _ (List.mem_cons_of_mem b (List.getElem_mem hk)), hversion _ (List.getElem_mem hk)⟩
    simp only [(hmem j hj).2.2, Bool.not_false, Bool.true_and] at hfound
    obtain ⟨category, day, hcovers⟩ :=
      (Band.overlaps_eq_true_iff (hmem j hj).1 (hmem j hj).2.1).1 hfound
    refine ⟨j, bs[j], ⟨?_, ?_⟩, List.getElem?_eq_getElem hj, (Except.error.inj h).symm⟩
    · exact ⟨j.succ_pos, b, bs[j], category, day, rfl, List.getElem?_eq_getElem hj, hcovers⟩
    · rintro (_ | i') (_ | j') hclash
      · exact absurd hclash not_clash_zero
      · -- a clash of the first band with one before place `j` would have been found
        refine .inr ⟨rfl, Nat.succ_le_succ (Nat.le_of_not_lt fun hlt ↦ ?_)⟩
        obtain ⟨-, a, o, category, day, ha, ho, hcovers⟩ := hclash
        obtain rfl : b = a := Option.some.inj ha
        rw [List.getElem?_cons_succ] at ho
        obtain ⟨hk, rfl⟩ := List.getElem?_eq_some_iff.1 ho
        have hnot := hbefore j' hlt
        simp only [(hmem j' hk).2.2, Bool.not_false, Bool.true_and, Bool.not_eq_true'] at hnot
        exact (Band.overlaps_eq_false_iff hb (hmem j' hk).2.1).1 hnot category day hcovers
      · exact absurd hclash not_clash_zero
      · exact .inl i'.succ_pos

theorem firstClash_cons (hfree : ∀ j, ¬ Clash (b :: bs) 0 j) (h : FirstClash bs i j) :
    FirstClash (b :: bs) (i + 1) (j + 1) where
  clash := clash_cons_succ_iff.2 h.clash
  first := by
    rintro (_ | i') (_ | j') hclash
    · exact absurd hclash not_clash_zero
    · exact absurd hclash (hfree _)
    · exact absurd hclash not_clash_zero
    · have hle := h.first i' j' (clash_cons_succ_iff.1 hclash)
      omega

theorem firstClash_of_checkBands (hages : ∀ b ∈ bs, b.minAge < b.maxAge)
    (hversion : bs.Pairwise fun a b ↦ a.isVersionOf b = false) (h : checkBands bs = .error p) :
    ∃ i j a b, FirstClash bs i j ∧ bs[i]? = some a ∧ bs[j]? = some b ∧ p = a.overlapProblem b := by
  induction bs with
  | nil => cases h
  | cons b bs ih =>
    rw [List.pairwise_cons] at hversion
    rw [checkBands] at h
    cases hcheck : b.checkNoOverlap bs with
    | error q =>
      obtain rfl : q = p := by simpa [hcheck] using h
      obtain ⟨j, o, hfirst, ho, hp⟩ := firstClash_of_checkNoOverlap hages hversion.1 hcheck
      exact ⟨0, j + 1, b, o, hfirst, rfl, ho, hp⟩
    | ok u =>
      simp only [hcheck] at h
      obtain ⟨i, j, a, o, hfirst, ha, ho, hp⟩ :=
        ih (fun o ho ↦ hages o (List.mem_cons_of_mem b ho)) hversion.2 h
      refine ⟨i + 1, j + 1, a, o, firstClash_cons ?_ hfirst, ha, ho, hp⟩
      rintro (_ | k) hclash
      · exact not_clash_zero hclash
      · obtain ⟨-, b', o, category, day, hb', ho, hcovers⟩ := hclash
        obtain rfl : b = b' := Option.some.inj hb'
        have hmem : o ∈ bs := List.mem_of_getElem? ho
        have hnot := Band.checkNoOverlap_eq_ok_iff.1 hcheck o hmem (hversion.1 o hmem)
        refine (Band.overlaps_eq_false_iff (hages b List.mem_cons_self) ?_).1 hnot category day hcovers
        exact hages o (List.mem_cons_of_mem b hmem)

section Spec

variable (hages : ∀ b ∈ bs, b.minAge < b.maxAge) (hids : (bandIds bs).Nodup)

include hages hids

theorem checkBands_eq_error_iff :
    checkBands bs = .error p ↔
      ∃ i j a b, FirstClash bs i j ∧ bs[i]? = some a ∧ bs[j]? = some b ∧ p = a.overlapProblem b := by
  have hversion := pairwise_isVersionOf_eq_false hids
  refine ⟨firstClash_of_checkBands hages hversion, ?_⟩
  rintro ⟨i, j, a, b, hfirst, hi, hj, rfl⟩
  cases hcheck : checkBands bs with
  | ok u => exact absurd hfirst.clash ((checkBands_eq_ok_iff_not_clash hages hids).1 hcheck i j)
  | error q =>
    obtain ⟨i', j', a', b', hfirst', hi', hj', rfl⟩ := firstClash_of_checkBands hages hversion hcheck
    obtain ⟨rfl, rfl⟩ := hfirst.unique hfirst'
    rw [Option.some.inj (hi.symm.trans hi'), Option.some.inj (hj.symm.trans hj')]

end Spec

theorem checkBands_of_sublist {cs : List Band} (hsub : cs.Sublist bs) (h : checkBands bs = .ok ()) :
    checkBands cs = .ok () :=
  checkBands_eq_ok_iff.2 ((checkBands_eq_ok_iff.1 h).sublist hsub)

theorem Problem.failure_overlap (r o : AgeRange) (category : String) :
    Failure.problem (.overlap r o category) =
      if ∀ n ∈ [r.low, r.high, o.low, o.high], digitCount n.natAbs ≤ 4300 then
        .domain (.invalid (.overlap r o category))
      else .unwritable := by
  rw [Failure.problem, Failure.ofError]
  refine if_congr ?_ rfl rfl
  simp [DomainError.canShow, Problem.canShow, AgeRange.canShow, and_assoc]

/-- A list is accepted if no day of a category lies in two of its bands, so that neither their order
nor what is left out matters. Otherwise the two ages that are told are those of the first clash. They
cannot be told if one of the four numbers has more than 4300 digits, and then something else is raised. -/
theorem checkBands_decides (hages : ∀ b ∈ bs, b.minAge < b.maxAge) (hids : (bandIds bs).Nodup) :
    (checkBands bs = .ok () ↔ ∀ i j, ¬ Clash bs i j) ∧
    (∀ cs, bs.Perm cs → (checkBands bs = .ok () ↔ checkBands cs = .ok ())) ∧
    (checkBands bs = .ok () → ∀ cs, cs.Sublist bs → checkBands cs = .ok ()) ∧
    ∀ p, checkBands bs = .error p ↔
      ∃ i j a b, FirstClash bs i j ∧ bs[i]? = some a ∧ bs[j]? = some b ∧
        p = .overlap ⟨a.minAge, a.maxAge⟩ ⟨b.minAge, b.maxAge⟩ a.categoryName ∧
        p.field = "definitions" ∧
        p.text = "age band " ++ a.ages.text ++ " overlaps " ++ b.ages.text ++ " for category "
          ++ a.categoryName ∧
        Failure.problem p =
          if ∀ n ∈ [a.minAge, a.maxAge, b.minAge, b.maxAge], digitCount n.natAbs ≤ 4300 then
            .domain (.invalid p)
          else .unwritable := by
  refine ⟨checkBands_eq_ok_iff_not_clash hages hids, fun cs hperm ↦ ?_, fun h cs hsub ↦ ?_, fun p ↦ ?_⟩
  · exact ⟨checkBands_of_perm hperm, checkBands_of_perm hperm.symm⟩
  · exact checkBands_of_sublist hsub h
  · rw [checkBands_eq_error_iff hages hids]
    constructor
    · rintro ⟨i, j, a, b, hfirst, hi, hj, rfl⟩
      exact ⟨i, j, a, b, hfirst, hi, hj, rfl, rfl, rfl, Problem.failure_overlap a.ages b.ages a.categoryName⟩
    · rintro ⟨i, j, a, b, hfirst, hi, hj, rfl, -⟩
      exact ⟨i, j, a, b, hfirst, hi, hj, rfl⟩

namespace Sample

def aged (id : Option Int) (category low high : Int) : Band :=
  ⟨id, category, "Standard", low, high, .finite false 25 (-1), ⟨1, "2100", "Reserve"⟩, ⟨2, "6100", "Expense"⟩⟩

def nested : List Band :=
  [aged (some 1) 1 0 30, aged none 1 30 60, aged none 2 0 60, aged (some 2) 1 40 50, aged none 1 10 20]

end Sample

theorem checkBands_nested :
    (∀ b ∈ Sample.nested, b.minAge < b.maxAge) ∧ (bandIds Sample.nested).Nodup ∧
      ∃ i j a b, FirstClash Sample.nested i j ∧ Sample.nested[i]? = some a ∧ Sample.nested[j]? = some b ∧
        a.ages = ⟨0, 30⟩ ∧ b.ages = ⟨10, 20⟩ := by
  have hages : ∀ b ∈ Sample.nested, b.minAge < b.maxAge := by decide
  have hids : (bandIds Sample.nested).Nodup := by decide
  have hcheck : checkBands Sample.nested = .error (.overlap ⟨0, 30⟩ ⟨10, 20⟩ "Standard") := by rfl
  obtain ⟨i, j, a, b, hfirst, ha, hb, htold, -⟩ := ((checkBands_decides hages hids).2.2.2 _).1 hcheck
  obtain ⟨hages₁, hages₂, -⟩ := Problem.overlap.inj htold
  exact ⟨hages, hids, i, j, a, b, hfirst, ha, hb, hages₁.symm, hages₂.symm⟩

/-- Two bands with the same long age clash, but no text can tell of it. -/
theorem checkBands_of_long_age :
    let b := Sample.aged none 1 0 (10 ^ 4300)
    b.minAge < b.maxAge ∧ (bandIds [b, b]).Nodup ∧ checkBands [b, b] = .error (b.overlapProblem b) ∧
      Failure.problem (b.overlapProblem b) = .unwritable := by
  intro b
  obtain ⟨n, hn, hlong⟩ : ∃ n : ℕ, b.maxAge = n ∧ 4300 < digitCount n :=
    ⟨10 ^ 4300, (Nat.cast_pow 10 4300).symm, Decimal.pow_lt_pow_digitCount le_rfl⟩
  have hages : b.minAge < b.maxAge := Int.pow_pos (by decide)
  have hoverlaps : b.overlaps b = true := by simp [Band.overlaps, hages]
  have hversion : b.isVersionOf b = false := rfl
  refine ⟨hages, List.nodup_nil, ?_, ?_⟩
  · simp [checkBands, Band.checkNoOverlap, hversion, hoverlaps]
  · rw [Band.overlapProblem, Problem.failure_overlap, if_neg]
    simp [Band.ages, hn, hlong]

end Provisioning
