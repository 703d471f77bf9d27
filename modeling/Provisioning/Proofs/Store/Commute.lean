import Provisioning.Proofs.Store.Shuffle

namespace Provisioning

section Rows

variable {α : Type} {i j n : Int} {as bs : List Band} {r : BandRow} {rows : List BandRow}

theorem find?_putRow_of_ne {id : α → Int} {row : α} (h : id row ≠ n) (rows : List α) :
    ((putRow id row rows).find? fun r ↦ id r == n) = rows.find? fun r ↦ id r == n := by
  have hrow : (id row == n) = false := beq_false_of_ne h
  induction rows with
  | nil => rw [putRow, List.find?_cons, hrow]
  | cons r rows ih =>
    rw [putRow]
    split
    · rename_i hr
      rw [List.find?_cons, List.find?_cons, hrow, hr, hrow]
    · rw [List.find?_cons, List.find?_cons, ih]

theorem getRow_putRow_of_ne {id : α → Int} {row : α} (h : id row ≠ n) (rows : List α) (entity : Entity) :
    getRow id (putRow id row rows) entity n = getRow id rows entity n := by
  rw [getRow, getRow, findRow, findRow, find?_putRow_of_ne h]

theorem putRow_comm {id : α → Int} {a b : α} (hab : id a ≠ id b) {rows : List α}
    (ha : ∃ r ∈ rows, id r = id a) :
    putRow id a (putRow id b rows) = putRow id b (putRow id a rows) := by
  induction rows with
  | nil =>
    obtain ⟨r, hr, -⟩ := ha
    exact absurd hr List.not_mem_nil
  | cons r rows ih =>
    by_cases hra : id r = id a
    · have hrb : id r ≠ id b := fun hrb ↦ hab (hra.symm.trans hrb)
      simp only [putRow, if_pos hra, if_neg hrb, if_neg hab]
    · have ha : ∃ r ∈ rows, id r = id a := by
        obtain ⟨q, hq, hqa⟩ := ha
        rcases List.mem_cons.1 hq with rfl | hq
        · exact absurd hqa hra
        · exact ⟨q, hq, hqa⟩
      by_cases hrb : id r = id b
      · simp only [putRow, if_neg hra, if_pos hrb, if_neg hab.symm]
      · simp only [putRow, if_neg hra, if_neg hrb, ih ha]

theorem bind_rewritten_of_ne (h : r.criteriaId ≠ j) :
    (BandRow.rewritten i as r).bind (BandRow.rewritten j bs) = BandRow.rewritten i as r := by
  cases hr : BandRow.rewritten i as r with
  | none => rfl
  | some r' => exact if_neg (Store.criteriaId_of_rewritten hr ▸ h)

/-- A row belongs to one criteria, so that only one of two writes can touch it. -/
theorem filterMap_rewritten_comm (h : i ≠ j) (rows : List BandRow) :
    (rows.filterMap (BandRow.rewritten i as)).filterMap (BandRow.rewritten j bs) =
      (rows.filterMap (BandRow.rewritten j bs)).filterMap (BandRow.rewritten i as) := by
  rw [List.filterMap_filterMap, List.filterMap_filterMap]
  refine List.filterMap_congr fun r _ ↦ ?_
  by_cases hi : r.criteriaId = i
  · have hj : BandRow.rewritten j bs r = some r := if_neg fun hj ↦ h (hi.symm.trans hj)
    rw [bind_rewritten_of_ne fun hj ↦ h (hi.symm.trans hj), hj, Option.bind_some]
  · have hi' : BandRow.rewritten i as r = some r := if_neg hi
    rw [hi', Option.bind_some, bind_rewritten_of_ne hi]

end Rows

namespace Store

variable {s t : Store} {c d : Snapshot} {m n : String} {i j : Int}

section Frame

theorem productsOf_written_of_ne (h : j ≠ s.headerId c) :
    (s.written c m).productsOf j = s.productsOf j :=
  congrArg Criteria.products (criteria_written_of_ne (h := ⟨j, m⟩) h)

theorem linkedIds_written_of_ne (h : j ≠ s.headerId c) :
    (s.written c m).linkedIds (some j) = s.linkedIds (some j) :=
  congrArg (List.map Product.id) (productsOf_written_of_ne h)

theorem Agrees.readBand_eq (h : s.Agrees t) : t.readBand = s.readBand := by
  funext r
  rw [readBand, readBand, h.categories]

theorem Agrees.directory_eq (h : s.Agrees t) : t.directory = s.directory := by
  rw [directory, directory, funext h.category_eq, funext h.account_eq, funext h.product_eq]

theorem read_written_of_ne {h : Header} (hne : h.id ≠ s.headerId c) :
    (s.written c m).read h = s.read h := by
  rw [read, read, (s.agrees_written c m).readBand_eq, bandsOf_written_of_ne hne,
    productsOf_written_of_ne hne]

theorem get_written_of_ne (hne : j ≠ s.headerId c) : (s.written c m).get j = s.get j := by
  have hid : Header.id ⟨s.headerId c, m⟩ ≠ j := hne.symm
  have hrow : getRow Header.id (s.written c m).headers .criteria j =
      getRow Header.id s.headers .criteria j := getRow_putRow_of_ne hid s.headers .criteria
  rw [get, get, hrow]
  cases hget : getRow Header.id s.headers .criteria j with
  | error e => rfl
  | ok h =>
    refine read_written_of_ne ?_
    rw [(mem_and_id_of_getRow hget).2]
    exact hne

end Frame

/-- The stores have the same rows in the same order, except that links may be listed in another one. -/
structure SameRows (s t : Store) : Prop extends s.Agrees t where
  headers : t.headers = s.headers
  bands : t.bands = s.bands
  links : s.links.Perm t.links

theorem SameRows.read_eq (h : s.SameRows t) (q : Header) : t.read q = s.read q := by
  have hproducts : t.productsOf q.id = s.productsOf q.id := by
    rw [productsOf_eq, productsOf_eq, h.products]
    congr 1
    refine ascending_congr fun n ↦ ?_
    exact (((h.links.filter _).map _).mem_iff).symm
  rw [read, read, h.toAgrees.readBand_eq, bandsOf, bandsOf, h.bands, hproducts]

theorem SameRows.all_eq (h : s.SameRows t) : t.all = s.all := by
  rw [all, all, h.headers, funext h.read_eq]

section Commute

variable (hc : c.id = some i) (hd : d.id = some j) (hij : i ≠ j)

include hc hd

theorem keptLinks_comm :
    ((s.keptLinks c).filter fun l ↦ l.criteriaId != j || d.productIds.contains l.productId ||
        !(s.linkedIds d.id).contains l.productId) =
      (s.keptLinks d).filter fun l ↦ l.criteriaId != i || c.productIds.contains l.productId ||
        !(s.linkedIds c.id).contains l.productId := by
  rw [keptLinks, keptLinks, headerId_eq hc, headerId_eq hd, List.filter_filter, List.filter_filter]
  exact List.filter_congr fun l _ ↦ Bool.and_comm _ _

include hij

theorem addedIds_written_of_ne : (s.written c m).addedIds d = s.addedIds d := by
  have hne : j ≠ s.headerId c := headerId_eq hc ▸ hij.symm
  rw [addedIds, addedIds, hd, linkedIds_written_of_ne hne]

theorem links_written_written :
    ((s.written c m).written d n).links =
      ((s.keptLinks c).filter fun l ↦ l.criteriaId != j || d.productIds.contains l.productId ||
          !(s.linkedIds d.id).contains l.productId) ++
        ((s.addedIds c).map fun p ↦ ⟨i, p⟩) ++ (s.addedIds d).map fun p ↦ ⟨j, p⟩ := by
  have hi : s.headerId c = i := headerId_eq hc
  have hj : (s.written c m).headerId d = j := headerId_eq hd
  change (s.written c m).keptLinks d ++ _ = _
  rw [addedIds_written_of_ne hc hd hij, keptLinks, hj, hd, linkedIds_written_of_ne (hi ▸ hij.symm)]
  change List.filter _ (s.keptLinks c ++ _) ++ _ = _
  rw [List.filter_append, hi]
  congr 2
  refine List.filter_eq_self.2 fun l hl ↦ ?_
  obtain ⟨p, -, rfl⟩ := List.mem_map.1 hl
  rw [bne_iff_ne.2 hij, Bool.true_or, Bool.true_or]

/-- Writes of two stored criteria without new bands may change places. -/
theorem sameRows_written_comm (hstored : ∃ h ∈ s.headers, h.id = i)
    (hcbands : ∀ b ∈ c.bands, b.id ≠ none) (hdbands : ∀ b ∈ d.bands, b.id ≠ none) :
    ((s.written c m).written d n).SameRows ((s.written d n).written c m) := by
  have hnew {bs : List Band} (h : ∀ b ∈ bs, b.id ≠ none) : bs.filter (fun b ↦ b.id.isNone) = [] :=
    List.filter_eq_nil_iff.2 fun b hb hnone ↦ h b hb (Option.isNone_iff_eq_none.1 hnone)
  have hi : ∀ t : Store, t.headerId c = i := fun t ↦ headerId_eq hc
  have hj : ∀ t : Store, t.headerId d = j := fun t ↦ headerId_eq hd
  have hbands (t : Store) {e : Snapshot} (h : ∀ b ∈ e.bands, b.id ≠ none) (name : String) :
      (t.written e name).bands = t.bands.filterMap (BandRow.rewritten (t.headerId e) e.bands) := by
    change _ ++ newRows _ _ (e.bands.filter fun b ↦ b.id.isNone) = _
    rw [hnew h, newRows, List.append_nil]
  refine ⟨⟨rfl, rfl, rfl, rfl, rfl⟩, ?_, ?_, ?_⟩
  · change putRow Header.id ⟨_, m⟩ (putRow Header.id ⟨_, n⟩ s.headers) =
      putRow Header.id ⟨_, n⟩ (putRow Header.id ⟨_, m⟩ s.headers)
    rw [hi, hi, hj, hj]
    exact putRow_comm hij hstored
  · rw [hbands _ hcbands, hbands _ hdbands, hbands _ hdbands, hbands _ hcbands, hi, hi, hj, hj]
    exact filterMap_rewritten_comm hij.symm s.bands
  · rw [links_written_written hc hd hij, links_written_written hd hc hij.symm, keptLinks_comm hc hd,
      List.append_assoc, List.append_assoc]
    exact List.perm_append_comm.append_left _

end Commute

end Store
end Provisioning
