import Provisioning.Assembly
import Provisioning.Proofs.Percentage

namespace Provisioning

namespace Band

def Disjoint (a b : Band) : Prop :=
  ∀ category day, ¬ (a.Covers category day ∧ b.Covers category day)

theorem Disjoint.symm {a b : Band} (h : a.Disjoint b) : b.Disjoint a :=
  fun category day hab ↦ h category day hab.symm

theorem overlaps_eq_false_iff {a b : Band} (ha : a.minAge < a.maxAge) (hb : b.minAge < b.maxAge) :
    a.overlaps b = false ↔ a.Disjoint b := by
  rw [← Bool.not_eq_true]
  simp only [overlaps, Bool.and_eq_true, beq_iff_eq, decide_eq_true_eq]
  constructor
  · rintro h category day ⟨⟨hca, hal, hah⟩, hcb, hbl, hbh⟩
    exact h ⟨⟨hca.trans hcb.symm, by omega⟩, by omega⟩
  · rintro h ⟨⟨hc, hab⟩, hba⟩
    refine h a.categoryId (max a.minAge b.minAge) ⟨⟨rfl, ?_, ?_⟩, hc.symm, ?_, ?_⟩ <;> omega

theorem checkNoOverlap_eq_ok_iff {b : Band} {others : List Band} {u : Unit} :
    b.checkNoOverlap others = .ok u ↔
      ∀ o ∈ others, b.isVersionOf o = false → b.overlaps o = false := by
  rw [checkNoOverlap]
  cases hfind : others.find? fun o ↦ !b.isVersionOf o && b.overlaps o with
  | some o =>
    have hmem := List.mem_of_find?_eq_some hfind
    have hbad := List.find?_some hfind
    simp only [Bool.and_eq_true, Bool.not_eq_true'] at hbad
    simp only [reduceCtorEq, false_iff]
    intro h
    rw [h o hmem hbad.1] at hbad
    exact Bool.false_ne_true hbad.2
  | none =>
    rw [List.find?_eq_none] at hfind
    simp only [Bool.and_eq_true, Bool.not_eq_true', not_and, Bool.not_eq_true] at hfind
    exact iff_of_true rfl hfind

theorem checkNoOverlap_nil (b : Band) : b.checkNoOverlap [] = .ok () := rfl

theorem isVersionOf_of_id_eq_none {a b : Band} (h : a.id = none) : a.isVersionOf b = false := by
  simp [isVersionOf, h]

theorem overlaps_comm (a b : Band) : a.overlaps b = b.overlaps a := by
  rw [Bool.eq_iff_iff]
  simp only [overlaps, Bool.and_eq_true, beq_iff_eq, decide_eq_true_eq]
  constructor
  · rintro ⟨⟨hc, hab⟩, hba⟩
    exact ⟨⟨hc.symm, hba⟩, hab⟩
  · rintro ⟨⟨hc, hba⟩, hab⟩
    exact ⟨⟨hc.symm, hab⟩, hba⟩

theorem isVersionOf_comm (a b : Band) : a.isVersionOf b = b.isVersionOf a := by
  rw [Bool.eq_iff_iff]
  simp only [isVersionOf, Bool.and_eq_true, beq_iff_eq]
  constructor
  · rintro ⟨ha, hba⟩
    exact ⟨hba ▸ ha, hba.symm⟩
  · rintro ⟨hb, hab⟩
    exact ⟨hab ▸ hb, hab.symm⟩

end Band

def bandIds (bs : List Band) : List Int := bs.filterMap Band.id

theorem mem_bandIds_iff {bs : List Band} {i : Int} : i ∈ bandIds bs ↔ ∃ b ∈ bs, b.id = some i :=
  List.mem_filterMap

theorem forall_id_ne_of_nodup {front back : List Band} {b : Band} {i : Int}
    (hids : (bandIds (front ++ b :: back)).Nodup) (hb : b.id = some i) :
    ∀ a ∈ front ++ back, a.id ≠ some i := by
  have hsplit : bandIds (front ++ b :: back) = bandIds front ++ i :: bandIds back := by
    simp [bandIds, hb]
  rw [hsplit, List.nodup_middle, List.nodup_cons] at hids
  intro a ha hai
  apply hids.1
  rw [bandIds, bandIds, ← List.filterMap_append]
  exact mem_bandIds_iff.2 ⟨a, ha, hai⟩

theorem eq_of_id_eq {bs : List Band} (hids : (bandIds bs).Nodup) {a b : Band} {i : Int}
    (ha : a ∈ bs) (hb : b ∈ bs) (hai : a.id = some i) (hbi : b.id = some i) : a = b := by
  obtain ⟨front, back, rfl⟩ := List.append_of_mem ha
  have hother := forall_id_ne_of_nodup hids hai
  by_contra hne
  have hmem : b ∈ front ++ back := by
    simp only [List.mem_append, List.mem_cons, Ne.symm hne, false_or] at hb
    exact List.mem_append.2 hb
  exact hother b hmem hbi

theorem find?_id_eq_some_iff {bs : List Band} (hids : (bandIds bs).Nodup) {b : Band} {i : Int} :
    (bs.find? fun b ↦ b.id == some i) = some b ↔ b ∈ bs ∧ b.id = some i := by
  constructor
  · intro h
    have hid := List.find?_some h
    exact ⟨List.mem_of_find?_eq_some h, beq_iff_eq.1 hid⟩
  · intro h
    obtain ⟨hmem, hid⟩ := h
    have hfound : (bs.find? fun b ↦ b.id == some i).isSome = true :=
      List.find?_isSome.2 ⟨b, hmem, beq_iff_eq.2 hid⟩
    obtain ⟨a, ha⟩ := Option.isSome_iff_exists.1 hfound
    have hai := List.find?_some ha
    rw [ha, eq_of_id_eq hids (List.mem_of_find?_eq_some ha) hmem (beq_iff_eq.1 hai) hid]

theorem find?_reverse_eq_of_mem {bs : List Band} (hids : (bandIds bs).Nodup) {b : Band} (hb : b ∈ bs)
    {i : Int} (hbid : b.id = some i) : (bs.reverse.find? fun b ↦ b.id == some i) = some b := by
  have hreverse : (bandIds bs.reverse).Nodup := by simpa [bandIds] using hids
  exact (find?_id_eq_some_iff hreverse).2 ⟨List.mem_reverse.2 hb, hbid⟩

theorem pairwise_isVersionOf_eq_false {bs : List Band} (hids : (bandIds bs).Nodup) :
    bs.Pairwise fun a b ↦ a.isVersionOf b = false := by
  refine (List.pairwise_filterMap.1 hids).imp fun {a b} h ↦ ?_
  cases ha : a.id with
  | none => exact Band.isVersionOf_of_id_eq_none ha
  | some i =>
    have hne : b.id ≠ some i := fun hb ↦ h i ha i hb rfl
    simpa [Band.isVersionOf, ha] using hne

theorem checkBands_eq_ok_iff {bs : List Band} {u : Unit} :
    checkBands bs = .ok u ↔
      bs.Pairwise fun a b ↦ a.isVersionOf b = false → a.overlaps b = false := by
  induction bs with
  | nil => exact iff_of_true rfl .nil
  | cons b bs ih =>
    rw [List.pairwise_cons, ← ih, ← Band.checkNoOverlap_eq_ok_iff (u := ()), checkBands]
    cases b.checkNoOverlap bs with
    | error p => simp
    | ok _ => simp

/-- Each band is only checked against those after it; together that checks all pairs. -/
theorem checkBands_of_perm {as bs : List Band} (h : as.Perm bs) (has : checkBands as = .ok ()) :
    checkBands bs = .ok () := by
  rw [checkBands_eq_ok_iff] at has ⊢
  refine (h.pairwise_iff fun {a b} hab hversion ↦ ?_).1 has
  rw [Band.overlaps_comm]
  rw [Band.isVersionOf_comm] at hversion
  exact hab hversion

theorem checkBands_concat_iff {bs : List Band} {b : Band} :
    checkBands (bs ++ [b]) = .ok () ↔ checkBands bs = .ok () ∧ b.checkNoOverlap bs = .ok () := by
  rw [checkBands_eq_ok_iff, checkBands_eq_ok_iff, Band.checkNoOverlap_eq_ok_iff, List.pairwise_append]
  simp [Band.isVersionOf_comm b, Band.overlaps_comm b]

/-- The check stands for "no day twice" where ids are distinct and no range is empty. -/
theorem checkBands_eq_ok_iff_disjoint {bs : List Band} {u : Unit} (hids : (bandIds bs).Nodup)
    (hages : ∀ b ∈ bs, b.minAge < b.maxAge) :
    checkBands bs = .ok u ↔ bs.Pairwise Band.Disjoint := by
  have hversion := pairwise_isVersionOf_eq_false hids
  rw [checkBands_eq_ok_iff]
  constructor
  · intro h
    refine (h.and hversion).imp_of_mem fun {a b} ha hb hab ↦ ?_
    exact (Band.overlaps_eq_false_iff (hages a ha) (hages b hb)).1 (hab.1 hab.2)
  · intro h
    refine h.imp_of_mem fun {a b} ha hb hab _ ↦ ?_
    exact (Band.overlaps_eq_false_iff (hages a ha) (hages b hb)).2 hab

theorem natural?_eq_some_iff {v : Value} {n : Int} : v.natural? = some n ↔ v = .int n ∧ 0 ≤ n := by
  cases v with
  | int m =>
    simp only [Value.natural?, Value.int.injEq]
    grind
  | _ => simp [Value.natural?]

theorem checkAges_eq_ok_iff {v w : Value} {ages : AgeRange} :
    checkAges v w = .ok ages ↔
      (v = .int ages.low ∧ 0 ≤ ages.low) ∧ w = .int ages.high ∧ ages.low < ages.high := by
  have hread : checkAges v w = .ok ages ↔
      v.natural? = some ages.low ∧ w.natural? = some ages.high ∧ ages.low < ages.high := by
    obtain ⟨low, high⟩ := ages
    rw [checkAges]
    cases v.natural? with
    | none => simp
    | some m =>
      cases w.natural? with
      | none => simp
      | some n => by_cases hlt : m < n <;> simp [hlt] <;> omega
  rw [hread, natural?_eq_some_iff, natural?_eq_some_iff]
  constructor
  · intro h
    obtain ⟨hlow, ⟨hw, -⟩, hlt⟩ := h
    exact ⟨hlow, hw, hlt⟩
  · intro h
    obtain ⟨hlow, hw, hlt⟩ := h
    exact ⟨hlow, ⟨hw, by omega⟩, hlt⟩

theorem checkAccounts_eq_ok_iff {liability expense : Account} {u : Unit} :
    checkAccounts liability expense = .ok u ↔
      liability.kind = .liability ∧ expense.kind = .expense := by
  simp only [checkAccounts, Account.isLiability, Account.isExpense]
  by_cases hl : liability.kind = .liability <;> by_cases hx : expense.kind = .expense <;>
    simp [hl, hx]

end Provisioning
