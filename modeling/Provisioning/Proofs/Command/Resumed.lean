import Provisioning.Proofs.Command.Repeat
import Provisioning.Proofs.Store.Rewrite

namespace Provisioning

namespace Band

variable {own used : List Int} {a b c : Band}

theorem SameRow.symm (h : a.SameRow b) : b.SameRow a := fun id criteriaId ↦ (h id criteriaId).symm

theorem SameRow.trans (h : a.SameRow b) (h' : b.SameRow c) : a.SameRow c := fun id criteriaId ↦
  (h id criteriaId).trans (h' id criteriaId)

theorem SameRow.covers_iff (h : a.SameRow b) {category day : Int} :
    a.Covers category day ↔ b.Covers category day := by
  have hcategory : a.categoryId = b.categoryId := congrArg BandRow.categoryId (h 0 0)
  have hmin : a.minAge = b.minAge := congrArg BandRow.minAge (h 0 0)
  have hmax : a.maxAge = b.maxAge := congrArg BandRow.maxAge (h 0 0)
  rw [Covers, Covers, hcategory, hmin, hmax]

theorem SameRow.fits_eq (h : a.SameRow b) : a.fits = b.fits := by
  have hmin : a.minAge = b.minAge := congrArg BandRow.minAge (h 0 0)
  have hmax : a.maxAge = b.maxAge := congrArg BandRow.maxAge (h 0 0)
  have hliability : a.liability = b.liability := congrArg BandRow.liability (h 0 0)
  have hexpense : a.expense = b.expense := congrArg BandRow.expense (h 0 0)
  rw [fits, fits, hmin, hmax, hliability, hexpense]

theorem sameRow_of_value (ha : a.percentage.IsPercentage)
    (h : b = { a with id := b.id, categoryName := b.categoryName, percentage := b.percentage })
    (hvalue : b.percentage.value? = a.percentage.value?) : a.SameRow b := by
  intro id criteriaId
  obtain ⟨k, hk, hv⟩ := ha
  have hstored : b.percentage.stored? = a.percentage.stored? := by
    rw [Decimal.stored?_eq hk hv, Decimal.stored?_eq hk (hvalue.trans hv)]
  rw [h, toRow, toRow, hstored, Decimal.stored?_eq hk hv, Option.getD_some, Option.getD_some]

theorem Alike.sameRow (h : a.Alike b) (ha : a.percentage.IsPercentage) : a.SameRow b :=
  sameRow_of_value ha (h.rest.symm.trans (by rw [← h.rest])) h.value.symm

theorem Recalls.of_own (h : ∀ i, a.id = some i → i ∈ own) : a.Recalls own a := by
  refine ⟨fun _ _ ↦ rfl, ?_⟩
  cases ha : a.id with
  | none => rfl
  | some i => rw [Option.filter_some, if_pos (List.contains_iff_mem.2 (h i ha))]

theorem Recalls.of_alike (h : a.Alike b) (ha : a.percentage.IsPercentage) (hbc : b.Recalls own c) :
    a.Recalls own c :=
  ⟨(h.sameRow ha).trans hbc.row, by rw [hbc.id, h.id_eq]⟩

theorem StoredAs.recalls (h : a.StoredAs used b) (ha : a.percentage.IsPercentage)
    (hown : ∀ i, a.id = some i → i ∈ own) (hused : ∀ i ∈ own, i ∈ used) : b.Recalls own a := by
  refine ⟨(sameRow_of_value ha ?_ h.value).symm, ?_⟩
  · rw [h.rest]
  · cases hid : a.id with
    | none =>
      obtain ⟨i, hi, hnew⟩ := h.fresh hid
      rw [hi, Option.filter_some, if_neg fun hmem ↦ hnew (hused i (List.contains_iff_mem.1 hmem))]
    | some i =>
      rw [h.kept i hid, Option.filter_some, if_pos (List.contains_iff_mem.2 (hown i hid))]

end Band

section Lists

variable {s : Store} {es : List Request.BandEntry} {own : List Int} {a b : Band} {as bs : List Band}

theorem pairwise_disjoint_of_sameRow (h : List.Forall₂ Band.SameRow as bs)
    (has : as.Pairwise Band.Disjoint) : bs.Pairwise Band.Disjoint := by
  refine pairwise_of_forall₂ (fun a b a' b' hab hab' haa' category day ↦ ?_) h has
  rw [← hab.covers_iff, ← hab'.covers_iff]
  exact haa' category day

theorem pairwise_disjoint_iff_of_sameRow (h : List.Forall₂ Band.SameRow as bs) :
    as.Pairwise Band.Disjoint ↔ bs.Pairwise Band.Disjoint :=
  ⟨pairwise_disjoint_of_sameRow h, pairwise_disjoint_of_sameRow (h.flip.imp fun _ _ hab ↦ Band.SameRow.symm hab)⟩

theorem forall_fits_iff_of_sameRow (h : List.Forall₂ Band.SameRow as bs) :
    (∀ a ∈ as, a.fits = true) ↔ ∀ b ∈ bs, b.fits = true := by
  induction h with
  | nil => simp
  | cons hab _ ih => rw [List.forall_mem_cons, List.forall_mem_cons, ih, hab.fits_eq]

theorem Band.Recalls.revised (hes : ∀ e ∈ es, ∀ i, e.id.value? = some i → i ∈ own)
    (h : a.Recalls own b) : (a.revised s es).Recalls own (b.revised s es) := by
  cases ha : a.id with
  | none =>
    have hb : b.id = none := by rw [h.id, ha]; rfl
    rw [revised_of_id_eq_none ha, revised_of_id_eq_none hb]
    exact h
  | some i =>
    by_cases hi : i ∈ own
    · have hb : b.id = some i := (h.id_eq_some_iff hi).1 ha
      simp only [Band.revised, ha, hb]
      cases hfind : es.reverse.find? fun e ↦ e.id.value? == some i with
      | none => exact h
      | some e =>
        have he := List.mem_reverse.1 (List.mem_of_find?_eq_some hfind)
        exact .of_own fun j hj ↦ hes e he j hj
    · have hb : b.id = none := by
        rw [h.id, ha, Option.filter_some, if_neg fun hmem ↦ hi (List.contains_iff_mem.1 hmem)]
      rw [revised_of_id_eq_none hb, revised_of_forall_ne ha fun e he hid ↦ hi (hes e he i hid)]
      exact h

theorem forall₂_recalls_revisedBands (hes : ∀ e ∈ es, ∀ i, e.id.value? = some i → i ∈ own)
    (h : List.Forall₂ (Band.Recalls own) as bs) :
    List.Forall₂ (Band.Recalls own) (revisedBands s es as) (revisedBands s es bs) := by
  refine List.rel_append (List.rel_map (fun a b hab ↦ hab.revised hes) h) ?_
  refine List.forall₂_same.2 fun b hb ↦ .of_own fun i hi ↦ ?_
  obtain ⟨e, he, rfl⟩ := List.mem_map.1 hb
  exact hes e (List.mem_filter.1 he).1 i hi

end Lists

namespace Store

variable {s : Store} {b c d : Criteria} {r : Request.Changes} {written : List (Option Int)}

theorem Agrees.symm {t : Store} (h : s.Agrees t) : t.Agrees s :=
  ⟨h.foreignKeys.symm, h.categories.symm, h.accounts.symm, h.products.symm, h.entries.symm⟩

section Resumed

variable (hs : s.Consistent) (hb : b.Sound s)

include hs hb

theorem Consistent.recalls_rereadAs :
    List.Forall₂ (Band.Recalls (s.ownBandIds b.id)) (s.rereadAs b).bands b.bands := by
  have hsup := hs.supports hb
  have hused : ∀ i ∈ s.ownBandIds b.id, i ∈ s.bands.map BandRow.id := by
    intro i hi
    obtain ⟨r, hr, rfl, -⟩ := (mem_ownBandIds_iff (c := b.snapshot)).1 hi
    exact List.mem_map_of_mem hr
  have hmem : ∀ a ∈ b.bands, a.percentage.IsPercentage ∧ ∀ i, a.id = some i → i ∈ s.ownBandIds b.id :=
    fun a ha ↦ ⟨(hb.bands a ha).percentage, hsup.own a ha⟩
  refine (((List.forall₂_and_left _ _).2 ⟨hmem, hs.bands_rereadAs hb⟩).imp fun a a' haa' ↦ ?_).flip
  exact haa'.2.recalls haa'.1.1 haa'.1.2 hused

theorem Consistent.recalls_revisedBands {es : List Request.BandEntry}
    (hknown : ∀ e ∈ es, ∀ i, e.id.value? = some i → i ∈ Provisioning.bandIds b.bands) :
    List.Forall₂ (Band.Recalls (s.ownBandIds b.id))
      (revisedBands (s.written b.snapshot b.name) es (s.rereadAs b).bands)
      (revisedBands s es b.bands) := by
  rw [bandIds_of_map_id hb.ids] at hknown
  rw [(s.agrees_written b.snapshot b.name).revisedBands_eq]
  exact forall₂_recalls_revisedBands hknown (hs.recalls_rereadAs hb)

variable (hword : inWord (s.headerId b.snapshot) = true)
  (hknown : ∀ e ∈ r.entries, ∀ i, e.id.value? = some i → i ∈ Provisioning.bandIds b.bands)
  (h : r.Revision (s.written b.snapshot b.name) (s.rereadAs b) c written)

include hword hknown h

theorem Consistent.recalls_of_revision :
    List.Forall₂ (Band.Recalls (s.ownBandIds b.id)) c.bands (revisedBands s r.entries b.bands) := by
  have hsup := hs.supports hb
  have ht : (s.written b.snapshot b.name).Coherent := hs.coherent.written hsup
  have hsup' := ht.supports_of_revision (hs.ordered.get_written hsup hword) h
  have hpercentage : ∀ a ∈ c.bands, a.percentage.IsPercentage := fun a ha ↦ (hsup'.backed a ha).percentage
  have hrevised := (List.forall₂_and_left _ _).2 ⟨hpercentage, forall₂_alike_symm h.bands⟩
  exact forall₂_comp (fun _ _ _ hab hbc ↦ .of_alike hab.2 hab.1 hbc) hrevised
    (hs.recalls_revisedBands hb hknown)

/-- Written, read back, revised and written again, a criteria leaves what it leaves when it is revised
first and written once. -/
theorem Consistent.written_of_revision (hproducts : r.products.value? = none) (hd : r.Revises s b d) :
    (s.written b.snapshot b.name).written c.snapshot c.name = s.written d.snapshot d.name := by
  have hsup := hs.supports hb
  have hreserves := hs.intact.reserves hsup
  have hagrees := (s.agrees_written b.snapshot b.name).symm
  have ht : (s.written b.snapshot b.name).Coherent := hs.coherent.written hsup
  have hget := hs.ordered.get_written hsup hword
  have hname : d.name = c.name := hd.name.trans h.name.symm
  have hsound : ∀ a ∈ revisedBands s r.entries b.bands, a.Sound s := fun a ha ↦
    sound_of_mem_revisedBands (fun e he ↦ hagrees.acceptable (h.entries e he).1) hb.bands ha
  have hbands : List.Forall₂ (Band.Recalls (s.ownBandIds b.id)) c.bands d.bands := by
    refine forall₂_comp (fun a x x' hax hxx' ↦ ?_) (hs.recalls_of_revision hb hword hknown h)
      ((List.forall₂_and_left _ _).2 ⟨hsound, hd.bands⟩)
    exact ⟨hax.row.trans (hxx'.2.sameRow hxx'.1.percentage), hxx'.2.id_eq.symm.trans hax.id⟩
  rw [hname]
  refine hreserves.written_written hsup h.id hb.ids (ht.map_id_of_revision hget h)
    (ht.supports_of_revision hget h).distinct hd.id hbands (fun n ↦ ?_) fun n ↦ ?_
  · have hset := h.products n
    rw [hproducts, Option.getD_none, hsup.products_rereadAs hreserves, mem_ascending] at hset
    exact hset
  · have hset := hd.products n
    rw [hproducts, Option.getD_none] at hset
    exact hset

end Resumed
end Store
end Provisioning
