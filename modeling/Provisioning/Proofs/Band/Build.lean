import Provisioning.Criteria
import Provisioning.Proofs.Band.Disjoint
import Provisioning.Proofs.Percentage.Spelling
import Provisioning.Proofs.Store.Table

namespace Provisioning

namespace Band

/-- The bands differ in the spelling of the percentage at most. -/
structure Alike (a b : Band) : Prop where
  rest : { a with percentage := b.percentage } = b
  value : a.percentage.value? = b.percentage.value?

theorem Alike.refl (a : Band) : a.Alike a := ⟨rfl, rfl⟩

theorem Alike.trans {a b c : Band} (h : a.Alike b) (h' : b.Alike c) : a.Alike c := by
  obtain ⟨hrest, hvalue⟩ := h
  obtain ⟨hrest', hvalue'⟩ := h'
  refine ⟨?_, hvalue.trans hvalue'⟩
  rw [← hrest', ← hrest]

theorem Alike.id_eq {a b : Band} (h : a.Alike b) : a.id = b.id := by rw [← h.rest]

theorem Alike.covers_iff {a b : Band} (h : a.Alike b) {category day : Int} :
    a.Covers category day ↔ b.Covers category day := by
  rw [← h.rest]
  rfl

theorem Alike.disjoint {a b a' b' : Band} (ha : a.Alike a') (hb : b.Alike b') (h : a.Disjoint b) :
    a'.Disjoint b' := by
  intro category day
  rw [← ha.covers_iff, ← hb.covers_iff]
  exact h category day

theorem Alike.symm {a b : Band} (h : a.Alike b) : b.Alike a :=
  ⟨by rw [← h.rest], h.value.symm⟩

theorem Alike.isVersionOf_eq {a b a' b' : Band} (ha : a.Alike a') (hb : b.Alike b') :
    a'.isVersionOf b' = a.isVersionOf b := by
  simp only [isVersionOf, ha.id_eq, hb.id_eq]

theorem Alike.overlaps_eq {a b a' b' : Band} (ha : a.Alike a') (hb : b.Alike b') :
    a'.overlaps b' = a.overlaps b := by
  rw [← ha.rest, ← hb.rest]
  rfl

theorem alike_iff {a b : Band} :
    a.Alike b ↔ { a with percentage := b.percentage } = b ∧ a.percentage.value? = b.percentage.value? :=
  ⟨fun h ↦ ⟨h.rest, h.value⟩, fun h ↦ ⟨h.1, h.2⟩⟩

instance (a b : Band) : Decidable (a.Alike b) := decidable_of_iff _ alike_iff.symm

theorem same_eq_true_iff {a b : Band} (ha : a.percentage.isFinite = true) :
    a.same b = true ↔ a.Alike b := by
  rw [same, Bool.and_eq_true, beq_iff_eq, Decimal.eqv_iff_of_isFinite ha, alike_iff]

end Band

section Request

variable {r : BandRequest} {k : Category} {l x : Account} {b : Band} {others : List Band}

structure BandRequest.Describes (r : BandRequest) (k : Category) (l x : Account) (b : Band) : Prop where
  id : b.id = r.id
  category : b.categoryId = k.id ∧ b.categoryName = k.name
  minAge : r.minAge = .int b.minAge ∧ 0 ≤ b.minAge
  maxAge : r.maxAge = .int b.maxAge ∧ b.minAge < b.maxAge
  percentage : r.percentage.Denotes b.percentage ∧ b.percentage.IsPercentage
  liability : b.liability = l.copy ∧ l.kind = .liability
  expense : b.expense = x.copy ∧ x.kind = .expense

theorem BandRequest.build_eq_ok_iff :
    r.build k l x others none = .ok b ↔ r.Describes k l x b ∧ b.checkNoOverlap others = .ok () := by
  simp only [BandRequest.build, bind_eq_ok_iff, checkAges_eq_ok_iff, checkPercentage_eq_ok_iff,
    checkAccounts_eq_ok_iff, Option.none_or]
  constructor
  · intro h
    obtain ⟨ages, ⟨hmin, hmax⟩, p, hp, _, ⟨hl, hx⟩, _, hfree, hb⟩ := h
    obtain rfl := Except.ok.inj hb
    exact ⟨⟨rfl, ⟨rfl, rfl⟩, hmin, hmax, hp, ⟨rfl, hl⟩, rfl, hx⟩, hfree⟩
  · intro h
    obtain ⟨⟨hid, ⟨hk, hname⟩, hmin, hmax, hp, ⟨hlc, hl⟩, hxc, hx⟩, hfree⟩ := h
    have hb : b = ⟨r.id, k.id, k.name, b.minAge, b.maxAge, b.percentage, l.copy, x.copy⟩ := by
      rw [← hid, ← hk, ← hname, ← hlc, ← hxc]
    refine ⟨⟨b.minAge, b.maxAge⟩, ⟨hmin, hmax⟩, b.percentage, hp, (), ⟨hl, hx⟩, (), ?_, ?_⟩
    · rw [← hb]
      exact hfree
    · exact congrArg Except.ok hb.symm

end Request

namespace Criteria

/-- A band without id comes last. Any other is a version of a stored band and takes its place, unless the two
are no different. -/
inductive Takes (c : Criteria) (b : Band) : Criteria → Bool → Prop where
  | appended (hid : b.id = none) : c.Takes b { c with bands := c.bands ++ [b] } true
  | replaced {front back : List Band} {old : Band} (hbands : c.bands = front ++ old :: back)
      (hid : old.id = b.id) (hsome : b.id ≠ none) (hnew : ¬ b.Alike old) :
      c.Takes b { c with bands := front ++ b :: back } true
  | kept {old : Band} (hmem : old ∈ c.bands) (hsome : b.id ≠ none) (hold : b.Alike old) : c.Takes b c false

variable {c c' : Criteria} {r : BandRequest} {k : Category} {l x : Account} {b : Band} {changed checked : Bool}

theorem replaceBand_append {front back : List Band} {old : Band} (hold : old.id = b.id)
    (hfront : ∀ a ∈ front, a.id ≠ b.id) : replaceBand b (front ++ old :: back) = front ++ b :: back := by
  induction front with
  | nil => simp [replaceBand, hold]
  | cons a front ih =>
    rw [List.forall_mem_cons] at hfront
    simp [replaceBand, hfront.1, ih hfront.2]

theorem apply_eq_ok_iff (hids : (bandIds c.bands).Nodup) :
    c.apply r k l x checked = .ok (c', changed) ↔
      ∃ b, r.Describes k l x b ∧ (checked = true → b.checkNoOverlap c.bands = .ok ()) ∧
        c.Takes b c' changed := by
  have hbuild (b : Band) : r.build k l x (if checked = true then c.bands else []) none = .ok b ↔
      r.Describes k l x b ∧ (checked = true → b.checkNoOverlap c.bands = .ok ()) := by
    rw [BandRequest.build_eq_ok_iff]
    cases checked <;> simp [Band.checkNoOverlap_nil]
  constructor
  · intro h
    rw [apply] at h
    cases hbuilt : r.build k l x (if checked = true then c.bands else []) none with
    | error p =>
      rw [hbuilt] at h
      split at h
      · cases h
      · split at h <;> cases h
    | ok b =>
      obtain ⟨hb, hfree⟩ := (hbuild b).1 hbuilt
      refine ⟨b, hb, hfree, ?_⟩
      rw [hbuilt] at h
      split at h
      · rename_i hid
        obtain ⟨rfl, rfl⟩ := Prod.mk.inj (Except.ok.inj h)
        exact .appended (hb.id.trans hid)
      · rename_i i hid
        have hbi : b.id = some i := hb.id.trans hid
        have hsome : b.id ≠ none := by simp [hbi]
        split at h
        · cases h
        · rename_i old hfind
          obtain ⟨holdi, front, back, hbands, hfront⟩ := List.find?_eq_some_iff_append.1 hfind
          rw [beq_iff_eq] at holdi
          dsimp only at h
          split at h
          · rename_i hsame
            rw [Band.same_eq_true_iff hb.percentage.2.isFinite] at hsame
            obtain ⟨rfl, rfl⟩ := Prod.mk.inj (Except.ok.inj h)
            exact .kept (List.mem_of_find?_eq_some hfind) hsome hsame
          · rename_i hsame
            rw [Band.same_eq_true_iff hb.percentage.2.isFinite] at hsame
            obtain ⟨rfl, rfl⟩ := Prod.mk.inj (Except.ok.inj h)
            rw [hbands, replaceBand_append (holdi.trans hbi.symm)]
            · exact .replaced hbands (holdi.trans hbi.symm) hsome hsame
            · intro a ha
              simpa [hbi] using hfront a ha
  · intro h
    obtain ⟨b, hb, hfree, htakes⟩ := h
    have hbuilt := (hbuild b).2 ⟨hb, hfree⟩
    rw [apply, ← hb.id, hbuilt]
    cases htakes with
    | appended hid => simp [hid]
    | @replaced front back old hbands hid hsome hnew =>
      obtain ⟨i, hbi⟩ := Option.ne_none_iff_exists'.1 hsome
      have hmem : old ∈ c.bands := by simp [hbands]
      have hfind := (find?_id_eq_some_iff hids).2 ⟨hmem, hid.trans hbi⟩
      have hsame : ¬ b.same old = true := by
        rw [Band.same_eq_true_iff hb.percentage.2.isFinite]
        exact hnew
      have hfront : ∀ a ∈ front, a.id ≠ b.id := by
        intro a ha
        rw [hbi]
        rw [hbands] at hids
        exact forall_id_ne_of_nodup hids (hid.trans hbi) a (List.mem_append_left back ha)
      simp only [hbi, hfind, hsame]
      rw [hbands, replaceBand_append hid hfront]
      rfl
    | kept hmem hsome hold =>
      obtain ⟨i, hbi⟩ := Option.ne_none_iff_exists'.1 hsome
      have hfind := (find?_id_eq_some_iff hids).2 ⟨hmem, hold.id_eq.symm.trans hbi⟩
      simp [hbi, hfind, (Band.same_eq_true_iff hb.percentage.2.isFinite).2 hold]

theorem exists_takes (h : ∀ i, b.id = some i → i ∈ bandIds c.bands) : ∃ c' changed, c.Takes b c' changed := by
  cases hb : b.id with
  | none => exact ⟨_, _, .appended hb⟩
  | some i =>
    have hsome : b.id ≠ none := by simp [hb]
    obtain ⟨old, hold, holdi⟩ := mem_bandIds_iff.1 (h i hb)
    by_cases hsame : b.Alike old
    · exact ⟨_, _, .kept hold hsome hsame⟩
    · obtain ⟨front, back, hbands⟩ := List.append_of_mem hold
      exact ⟨_, _, .replaced hbands (holdi.trans hb.symm) hsome hsame⟩

end Criteria
end Provisioning
