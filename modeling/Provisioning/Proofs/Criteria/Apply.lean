import Provisioning.Proofs.Band.Build
import Provisioning.Proofs.Band.Check

namespace Provisioning

theorem Band.Disjoint.not_alike {a b : Band} (h : a.Disjoint b) (ha : a.minAge < a.maxAge) : ¬ a.Alike b := by
  intro halike
  have hcovers : a.Covers a.categoryId a.minAge := ⟨rfl, by omega, ha⟩
  exact h _ _ ⟨hcovers, halike.covers_iff.1 hcovers⟩

namespace Criteria

/-- No band is empty, no id stands twice, and no day of a category lies in two bands. -/
structure Tidy (c : Criteria) : Prop where
  ages : ∀ b ∈ c.bands, b.minAge < b.maxAge
  ids : (bandIds c.bands).Nodup
  disjoint : c.bands.Pairwise Band.Disjoint

/-- The new band stands where the old one stood, or comes last if there was none, and both are versions of the
band. -/
structure Puts (c c' : Criteria) (b new : Band) (old : Option Band) (front back : List Band) : Prop where
  before : c.bands = front ++ old.toList ++ back
  after : c'.bands = front ++ new :: back
  alike : b.Alike new
  stored : ∀ a, old = some a → b.id ≠ none ∧ a.id = b.id
  last : old = none → b.id = none ∧ back = []

variable {c c' : Criteria} {b new : Band} {old : Option Band} {front back : List Band} {changed : Bool}

theorem Takes.exists_puts (h : c.Takes b c' changed) : ∃ new old front back, c.Puts c' b new old front back := by
  cases h with
  | appended hid => exact ⟨b, none, c.bands, [], by simp, rfl, .refl b, by simp, by simp [hid]⟩
  | @replaced front back a hbands hid hsome hnew =>
    exact ⟨b, some a, front, back, by simp [hbands], rfl, .refl b, by simp [hid, hsome], by simp⟩
  | @kept a hmem hsome hold =>
    obtain ⟨front, back, hbands⟩ := List.append_of_mem hmem
    exact ⟨a, some a, front, back, by simp [hbands], hbands, hold, by simp [hold.id_eq.symm, hsome], by simp⟩

section Puts

variable (h : c.Puts c' b new old front back)

include h

theorem Puts.mem_before_iff {a : Band} : a ∈ c.bands ↔ old = some a ∨ a ∈ front ++ back := by
  rw [h.before]
  simp only [List.mem_append, Option.mem_toList]
  tauto

theorem Puts.mem_after_iff {a : Band} : a ∈ c'.bands ↔ a = new ∨ a ∈ front ++ back := by
  rw [h.after]
  simp only [List.mem_append, List.mem_cons]
  tauto

theorem Puts.bandIds_eq : bandIds c'.bands = bandIds c.bands := by
  have hid : new.id = b.id := h.alike.id_eq.symm
  rw [h.before, h.after]
  cases old with
  | none => simp [bandIds, hid, (h.last rfl).1]
  | some a => simp [bandIds, List.filterMap_cons, hid, (h.stored a rfl).2]

theorem Puts.isVersionOf_eq_false (hids : (bandIds c.bands).Nodup) :
    ∀ a ∈ front ++ back, b.isVersionOf a = false := by
  intro a ha
  cases old with
  | none => exact Band.isVersionOf_of_id_eq_none (h.last rfl).1
  | some o =>
    obtain ⟨hsome, hid⟩ := h.stored o rfl
    obtain ⟨i, hi⟩ := Option.ne_none_iff_exists'.1 hsome
    rw [h.before, Option.toList_some, List.append_assoc, List.singleton_append] at hids
    have hne := forall_id_ne_of_nodup hids (hid.trans hi) a ha
    simp [Band.isVersionOf, hi, hne]

/-- The version that makes way is left out of the check, and no other band is. -/
theorem Puts.checkNoOverlap_eq_ok_iff (hc : c.Tidy) (hb : b.minAge < b.maxAge) :
    b.checkNoOverlap c.bands = .ok () ↔ ∀ a ∈ front ++ back, b.Disjoint a := by
  have hversion := h.isVersionOf_eq_false hc.ids
  have hold : ∀ a, old = some a → b.isVersionOf a = true := by
    intro a ha
    obtain ⟨hsome, hid⟩ := h.stored a ha
    simp [Band.isVersionOf, hid, Option.isSome_iff_ne_none, hsome]
  have hfree : ∀ a ∈ front ++ back, b.overlaps a = false ↔ b.Disjoint a := fun a ha ↦
    Band.overlaps_eq_false_iff hb (hc.ages a (h.mem_before_iff.2 (.inr ha)))
  rw [Band.checkNoOverlap_eq_ok_iff]
  constructor
  · intro hcheck a ha
    exact (hfree a ha).1 (hcheck a (h.mem_before_iff.2 (.inr ha)) (hversion a ha))
  · intro hdisjoint a ha hother
    rcases h.mem_before_iff.1 ha with ha | ha
    · simp [hold a ha] at hother
    · exact (hfree a ha).2 (hdisjoint a ha)

theorem Puts.ages (hc : c.Tidy) (hb : b.minAge < b.maxAge) : ∀ a ∈ c'.bands, a.minAge < a.maxAge := by
  intro a ha
  rcases h.mem_after_iff.1 ha with rfl | ha
  · rw [← h.alike.rest]
    exact hb
  · exact hc.ages a (h.mem_before_iff.2 (.inr ha))

theorem Puts.pairwise_disjoint_iff (hc : c.Tidy) :
    c'.bands.Pairwise Band.Disjoint ↔ ∀ a ∈ front ++ back, b.Disjoint a := by
  have hrest : (front ++ back).Pairwise Band.Disjoint := by
    apply List.Pairwise.sublist _ hc.disjoint
    simp [h.before]
  rw [h.after, List.pairwise_middle fun hab ↦ hab.symm, List.pairwise_cons, and_iff_left hrest]
  refine forall₂_congr fun a _ ↦ ⟨fun hnew ↦ ?_, fun hb ↦ ?_⟩
  · exact h.alike.symm.disjoint (.refl a) hnew
  · exact h.alike.disjoint (.refl a) hb

/-- The one band against those that were there, or all against all in the end. -/
theorem Puts.checkNoOverlap_iff_checkBands (hc : c.Tidy) (hb : b.minAge < b.maxAge) :
    b.checkNoOverlap c.bands = .ok () ↔ c'.checkBands = .ok () := by
  have hids : (bandIds c'.bands).Nodup := h.bandIds_eq ▸ hc.ids
  rw [h.checkNoOverlap_eq_ok_iff hc hb, checkBands, checkBands_eq_ok_iff_disjoint hids (h.ages hc hb),
    h.pairwise_disjoint_iff hc]

theorem Puts.tidy (hc : c.Tidy) (hb : b.minAge < b.maxAge) (hfree : c'.checkBands = .ok ()) : c'.Tidy := by
  have hids : (bandIds c'.bands).Nodup := h.bandIds_eq ▸ hc.ids
  have hages := h.ages hc hb
  exact ⟨hages, hids, (checkBands_eq_ok_iff_disjoint hids hages).1 hfree⟩

theorem Puts.countP_eq_one (hc : c'.Tidy) (hb : b.minAge < b.maxAge) (hp : b.percentage.isFinite = true) :
    c'.bands.countP b.same = 1 := by
  have hothers : ∀ a ∈ front ++ back, ¬ b.same a = true := by
    intro a ha
    have hpair := hc.disjoint
    rw [h.after, List.pairwise_middle fun hab ↦ hab.symm, List.pairwise_cons] at hpair
    rw [Band.same_eq_true_iff hp]
    have hdisjoint : b.Disjoint a := h.alike.symm.disjoint (.refl a) (hpair.1 a ha)
    exact hdisjoint.not_alike hb
  have hfront : front.countP b.same = 0 := List.countP_eq_zero.2 fun a ha ↦ hothers a (by simp [ha])
  have hback : back.countP b.same = 0 := List.countP_eq_zero.2 fun a ha ↦ hothers a (by simp [ha])
  have hnew : b.same new = true := (Band.same_eq_true_iff hp).2 h.alike
  simp [h.after, hfront, hback, hnew]

end Puts

theorem Takes.frame (h : c.Takes b c' changed) : c' = { c with bands := c'.bands } := by
  cases h <;> rfl

theorem Takes.changed_eq_false_iff (h : c.Takes b c' changed) :
    (changed = false ↔ c' = c) ∧ (changed = false ↔ List.Forall₂ Band.Alike c'.bands c.bands) := by
  have hrefl : List.Forall₂ Band.Alike c.bands c.bands := List.forall₂_same.2 fun a _ ↦ .refl a
  have hmoved {bs : List Band} (hbs : ¬ List.Forall₂ Band.Alike bs c.bands) : { c with bands := bs } ≠ c := by
    intro hc
    obtain rfl : bs = c.bands := congrArg Criteria.bands hc
    exact hbs hrefl
  cases h with
  | appended hid =>
    have hlonger : ¬ List.Forall₂ Band.Alike (c.bands ++ [b]) c.bands := by
      intro halike
      simpa using halike.length_eq
    simp [hmoved hlonger, hlonger]
  | @replaced front back old hbands hid hsome hnew =>
    have hother : ¬ List.Forall₂ Band.Alike (front ++ b :: back) c.bands := by
      intro halike
      rw [hbands] at halike
      have hat := halike.get (i := front.length) (by simp) (by simp)
      simp only [List.get_eq_getElem, List.getElem_append_right, le_refl, Nat.sub_self, List.getElem_cons_zero] at hat
      exact hnew hat
    simp [hmoved hother, hother]
  | kept hmem hsome hold => simp only [hrefl, and_self]

section Apply

variable {r : BandRequest} {k : Category} {l x : Account}

/-- A band is taken with the check against the stored bands if and only if it is taken without and all bands
then pass together, with the same outcome. The criteria stays tidy and keeps all but the band, which
it holds once: as the last one if it has no id, else in the place of the band with its id. -/
theorem apply_with_check (hc : c.Tidy) :
    (c.apply r k l x true = .ok (c', changed) ↔
      c.apply r k l x false = .ok (c', changed) ∧ c'.checkBands = .ok ()) ∧
    (c.apply r k l x true = .ok (c', changed) →
      c'.Tidy ∧ c' = { c with bands := c'.bands } ∧
      (changed = false ↔ c' = c) ∧ (changed = false ↔ List.Forall₂ Band.Alike c'.bands c.bands) ∧
      ∃ b, r.Describes k l x b ∧ c'.bands.countP b.same = 1 ∧
        (b.id = none ∧ c'.bands = c.bands ++ [b] ∨
          ∃ front old new back, c.bands = front ++ old :: back ∧ b.id ≠ none ∧ old.id = b.id ∧
            b.Alike new ∧ c'.bands = front ++ new :: back)) := by
  simp only [apply_eq_ok_iff hc.ids, true_implies, Bool.false_eq_true, false_implies, true_and]
  have hchecked {b : Band} (hb : r.Describes k l x b) (htakes : c.Takes b c' changed) :
      b.checkNoOverlap c.bands = .ok () ↔ c'.checkBands = .ok () := by
    obtain ⟨new, old, front, back, hputs⟩ := htakes.exists_puts
    exact hputs.checkNoOverlap_iff_checkBands hc hb.maxAge.2
  constructor
  · constructor
    · intro h
      obtain ⟨b, hb, hfree, htakes⟩ := h
      exact ⟨⟨b, hb, htakes⟩, (hchecked hb htakes).1 hfree⟩
    · intro h
      obtain ⟨⟨b, hb, htakes⟩, hfree⟩ := h
      exact ⟨b, hb, (hchecked hb htakes).2 hfree, htakes⟩
  · intro h
    obtain ⟨b, hb, hfree, htakes⟩ := h
    obtain ⟨new, old, front, back, hputs⟩ := htakes.exists_puts
    have htidy := hputs.tidy hc hb.maxAge.2 ((hchecked hb htakes).1 hfree)
    obtain ⟨hsame, halike⟩ := htakes.changed_eq_false_iff
    refine ⟨htidy, htakes.frame, hsame, halike, b, hb, ?_, ?_⟩
    · exact hputs.countP_eq_one htidy hb.maxAge.2 hb.percentage.2.isFinite
    · cases htakes with
      | appended hid => exact .inl ⟨hid, rfl⟩
      | @replaced front back old hbands hid hsome hnew =>
        exact .inr ⟨front, old, b, back, hbands, hsome, hid, .refl b, rfl⟩
      | @kept old hmem hsome hold =>
        obtain ⟨front, back, hbands⟩ := List.append_of_mem hmem
        exact .inr ⟨front, old, old, back, hbands, hsome, hold.id_eq.symm, hold, hbands⟩

end Apply

end Criteria

namespace Sample

def ageing : Criteria :=
  ⟨some 7, "Ageing", [aged (some 1) 1 0 30, aged none 1 30 60, aged (some 2) 1 60 90], []⟩

def endingAt (day : Int) : BandRequest :=
  ⟨some 1, 1, .int 0, .int day, .decimal (.finite false 25 (-1)), 1, 2⟩

end Sample

theorem Criteria.apply_with_check_of_moved_end :
    let category : Category := ⟨1, "Standard", none⟩
    let liability : Account := ⟨1, "Reserve", "2100", .liability⟩
    let expense : Account := ⟨2, "Expense", "6100", .expense⟩
    let shorter : Criteria := { Sample.ageing with bands := Sample.aged (some 1) 1 0 20 :: Sample.ageing.bands.tail }
    let longer : Criteria := { Sample.ageing with bands := Sample.aged (some 1) 1 0 40 :: Sample.ageing.bands.tail }
    Sample.ageing.Tidy ∧ shorter.Tidy ∧
      Sample.ageing.apply (Sample.endingAt 20) category liability expense true = .ok (shorter, true) ∧
      Sample.ageing.apply (Sample.endingAt 40) category liability expense false = .ok (longer, true) ∧
      Sample.ageing.apply (Sample.endingAt 40) category liability expense true ≠ .ok (longer, true) := by
  intro category liability expense shorter longer
  have hages : ∀ b ∈ Sample.ageing.bands, b.minAge < b.maxAge := by decide
  have hids : (bandIds Sample.ageing.bands).Nodup := by decide
  have htidy : Sample.ageing.Tidy := ⟨hages, hids, (checkBands_eq_ok_iff_disjoint hids hages).1 rfl⟩
  have hmoved : Sample.ageing.apply (Sample.endingAt 20) category liability expense false = .ok (shorter, true) := by
    rfl
  have haccepted : Sample.ageing.apply (Sample.endingAt 20) category liability expense true = .ok (shorter, true) :=
    (apply_with_check htidy).1.2 ⟨hmoved, rfl⟩
  have htaken : Sample.ageing.apply (Sample.endingAt 40) category liability expense false = .ok (longer, true) := by
    rfl
  refine ⟨htidy, ((apply_with_check htidy).2 haccepted).1, haccepted, htaken, fun h ↦ ?_⟩
  have hrefused : longer.checkBands = .error (.overlap ⟨0, 40⟩ ⟨30, 60⟩ "Standard") := by rfl
  rw [((apply_with_check htidy).1.1 h).2] at hrefused
  cases hrefused

end Provisioning
