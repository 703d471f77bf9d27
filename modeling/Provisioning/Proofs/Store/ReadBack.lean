import Provisioning.Proofs.Store.Preservation

namespace Provisioning

/-- What a band is read as after it is written: the percentage may be spelled anew, and a band without
id has got an unused one. -/
structure Band.StoredAs (used : List Int) (b b' : Band) : Prop where
  rest : b' = { b with id := b'.id, percentage := b'.percentage }
  value : b'.percentage.value? = b.percentage.value?
  kept : ∀ i, b.id = some i → b'.id = some i
  fresh : b.id = none → ∃ i, b'.id = some i ∧ i ∉ used

structure Band.SavedAs (s : Store) (b b' : Band) : Prop where
  rest : b' = { b with
    id := b'.id
    categoryName := s.categoryName b.categoryId
    percentage := b'.percentage }
  value : b'.percentage.value? = b.percentage.value?
  places : ∃ k : ℕ, b'.percentage = .finite false k (-6)
  kept : ∀ i, b.id = some i → b'.id = some i
  fresh : b.id = none → ∃ i, b'.id = some i ∧ ∀ r ∈ s.bands, r.id < i

def others (id : Int) (cs : List Criteria) : List Criteria := cs.filter fun d ↦ d.id != some id

def NameFree (cs : List Criteria) (name : String) : Prop := ∀ c ∈ cs, c.name ≠ name

def ProductsFree (cs : List Criteria) (ids : List Int) : Prop :=
  ∀ c ∈ cs, ∀ p ∈ c.products, p.id ∉ ids

theorem productsFree_congr {cs : List Criteria} {ids ids' : List Int} (h : ∀ n, n ∈ ids ↔ n ∈ ids') :
    ProductsFree cs ids ↔ ProductsFree cs ids' :=
  forall₂_congr fun _ _ ↦ forall₂_congr fun _ _ ↦ not_congr (h _)

namespace Store

variable {s t : Store} {c d : Criteria}

theorem savedAs_of_writtenAs {b : Band} {r : BandRow} {id : Int} (hb : b.percentage.IsPercentage)
    (hr : b.WrittenAs id (nextId (s.bands.map BandRow.id)) r) : b.SavedAs s (r.toBand s) := by
  obtain ⟨⟨k, -, hplaces⟩, hvalue⟩ := percentage_toRow_eq hb r.id id
  refine ⟨?_, ?_, ?_, fun i hi ↦ ?_, fun hnone ↦ ?_⟩
  · rw [hr.row]
    rfl
  · rw [hr.row]
    exact hvalue
  · rw [hr.row]
    exact ⟨k, hplaces⟩
  · rw [← hr.kept i hi]
    rfl
  · exact ⟨r.id, rfl, fun q hq ↦ (lt_nextId (List.mem_map_of_mem hq)).trans_le (hr.fresh hnone)⟩

theorem storedAs_of_savedAs {b b' : Band} (hname : b.categoryName = s.categoryName b.categoryId)
    (h : b.SavedAs s b') : b.StoredAs (s.bands.map BandRow.id) b' := by
  refine ⟨?_, h.value, h.kept, fun hnone ↦ ?_⟩
  · rw [hname]
    exact h.rest
  · obtain ⟨i, hi, habove⟩ := h.fresh hnone
    refine ⟨i, hi, fun hmem ↦ ?_⟩
    obtain ⟨r, hr, rfl⟩ := List.mem_map.1 hmem
    exact (habove r hr).ne rfl

theorem forall₂_savedAs {bs : List Band} {rows : List BandRow} {id : Int}
    (hbs : ∀ b ∈ bs, b.percentage.IsPercentage)
    (h : List.Forall₂ (fun b r ↦ b.WrittenAs id (nextId (s.bands.map BandRow.id)) r) bs rows) :
    List.Forall₂ (Band.SavedAs s) bs (rows.map (BandRow.toBand s)) := by
  refine List.forall₂_map_right_iff.2 ?_
  exact ((List.forall₂_and_left _ _).2 ⟨hbs, h⟩).imp fun b r ⟨hb, hr⟩ ↦ savedAs_of_writtenAs hb hr

def rereadAs (s : Store) (c : Criteria) : Criteria :=
  (s.written c.snapshot c.name).criteria ⟨s.headerId c.snapshot, c.name⟩

theorem bands_rereadAs_eq (s : Store) (c : Criteria) :
    (s.rereadAs c).bands = ((s.written c.snapshot c.name).bandsOf (s.headerId c.snapshot)).map
      (BandRow.toBand s) := by
  rw [← (s.agrees_written c.snapshot c.name).toBand_eq]
  rfl

theorem Supports.bands_rereadAs (hc : s.Supports c.snapshot) :
    List.Forall₂ (Band.SavedAs s)
      (lastBands ((s.bandsOf (s.headerId c.snapshot)).map BandRow.id) c.bands ++
        c.bands.filter fun b ↦ b.id.isNone) (s.rereadAs c).bands := by
  rw [bands_rereadAs_eq]
  refine forall₂_savedAs (fun b hb ↦ ?_) (forall₂_bandsOf_written s c.snapshot c.name)
  rcases List.mem_append.1 hb with hb | hb
  · exact (hc.backed b (mem_of_mem_lastBands hb)).percentage
  · exact (hc.backed b (List.mem_filter.1 hb).1).percentage

theorem Supports.bands_rereadAs_of_ids (hc : s.Supports c.snapshot) (hr : s.Reserves c.snapshot)
    (hids : ∃ n, c.bands.map Band.id = (s.ownBandIds c.id).map some ++ List.replicate n none) :
    List.Forall₂ (Band.SavedAs s) c.bands (s.rereadAs c).bands := by
  rw [bands_rereadAs_eq]
  exact forall₂_savedAs (fun b hb ↦ (hc.backed b hb).percentage)
    (hr.forall₂_bandsOf_written hc c.name hids)

theorem Consistent.bands_rereadAs (hs : s.Consistent) (hc : c.Sound s) :
    List.Forall₂ (Band.StoredAs (s.bands.map BandRow.id)) c.bands (s.rereadAs c).bands := by
  have hsup := hs.supports hc
  have hsaved := hsup.bands_rereadAs_of_ids (hs.intact.reserves hsup) hc.ids
  have hboth := (List.forall₂_and_left _ _).2 ⟨hc.bands, hsaved⟩
  exact hboth.imp fun b b' ⟨hb, hb'⟩ ↦ storedAs_of_savedAs hb.categoryName_eq hb'

theorem Supports.products_rereadAs (hc : s.Supports c.snapshot) (hr : s.Reserves c.snapshot) :
    (s.rereadAs c).products.map Product.id = ascending (c.products.map Product.id) :=
  hr.map_id_productsOf_written hc c.name

theorem Ordered.distinct_bandIds (hs : s.Ordered) (h : Header) :
    (Provisioning.bandIds (s.criteria h).bands).Nodup := by
  rw [bandIds_criteria]
  exact hs.nodup_bandIds.sublist (List.filter_sublist.map _)

theorem Intact.product_of_mem_rereadAs (hs : s.Intact) (hc : s.Supports c.snapshot) {p : Product}
    (hp : p ∈ (s.rereadAs c).products) : s.product p.id = .ok p := by
  rw [← (s.agrees_written c.snapshot c.name).product_eq]
  exact product_eq_ok_of_mem_productsOf (hs.written hc).linkBacked hp

theorem Intact.all_written_of_new (hs : s.Intact) (hc : s.Supports c.snapshot) (hid : c.id = none) :
    (s.written c.snapshot c.name).all = .ok (s.headers.map s.criteria ++ [s.rereadAs c]) := by
  have hfresh : ∀ h ∈ s.headers, h.id ≠ s.headerId c.snapshot := by
    rcases headerId_stored_or_new hc with ⟨id, h, hsome, -⟩ | ⟨-, hnew⟩
    · cases hid.symm.trans hsome
    · exact fun h hh ↦ (hnew h hh).ne
  have hheaders : (s.written c.snapshot c.name).headers =
      s.headers ++ [⟨s.headerId c.snapshot, c.name⟩] := putRow_eq_append hfresh
  rw [all_eq (hs.written hc).readable, hheaders, List.map_append, List.map_singleton]
  have hsame : s.headers.map (s.written c.snapshot c.name).criteria = s.headers.map s.criteria :=
    List.map_congr_left fun h hh ↦ criteria_written_of_ne (hfresh h hh)
  rw [hsame]
  rfl

theorem Intact.all_written_of_stored (hs : s.Intact) (hc : s.Supports c.snapshot) {id : Int}
    (hid : c.id = some id) :
    (s.written c.snapshot c.name).all =
      .ok ((s.headers.map s.criteria).map fun d ↦ if d.id = some id then s.rereadAs c else d) := by
  have hheader : s.headerId c.snapshot = id := headerId_eq hid
  obtain ⟨q, hget⟩ := hc.stored id hid
  obtain ⟨hq, hqid⟩ := mem_and_id_of_getRow hget
  have hheaders : (s.written c.snapshot c.name).headers =
      s.headers.map fun h ↦ if h.id = s.headerId c.snapshot then ⟨s.headerId c.snapshot, c.name⟩ else h :=
    putRow_eq_map hs.nodup_headerIds ⟨q, hq, hqid.trans hheader.symm⟩
  rw [all_eq (hs.written hc).readable, hheaders, List.map_map, List.map_map]
  congr 1
  apply List.map_congr_left
  intro h _
  rw [Function.comp_apply, Function.comp_apply]
  by_cases hh : h.id = id
  · have hsome : (s.criteria h).id = some id := congrArg some hh
    rw [if_pos (hh.trans hheader.symm), if_pos hsome]
    rfl
  · have hsome : ¬ (s.criteria h).id = some id := fun he ↦ hh (Option.some.inj he)
    rw [if_neg fun he ↦ hh (he.trans hheader), if_neg hsome]
    exact criteria_written_of_ne fun he ↦ hh (he.trans hheader)

theorem Supports.read_written (hc : s.Supports c.snapshot) :
    (s.written c.snapshot c.name).read ⟨s.headerId c.snapshot, c.name⟩ = .ok (s.rereadAs c) := by
  apply read_eq_of_bands
  intro r hr
  obtain ⟨b, hb, hrow⟩ := exists_writtenAs hr
  rw [(s.agrees_written c.snapshot c.name).category_eq, hrow.row]
  exact (hc.backed b hb).category

theorem Ordered.getRow_written (hs : s.Ordered) (hc : s.Supports c.snapshot)
    (hid : inWord (s.headerId c.snapshot) = true) (entity : Entity) :
    getRow Header.id (s.written c.snapshot c.name).headers entity (s.headerId c.snapshot) =
      .ok ⟨s.headerId c.snapshot, c.name⟩ :=
  getRow_eq_ok_iff.2 ⟨hid, find?_eq_some_of_nodup (hs.written hc).nodup_headerIds
    (hs.mem_headers_written_iff.2 (.inl rfl))⟩

theorem Ordered.get_written (hs : s.Ordered) (hc : s.Supports c.snapshot)
    (hid : inWord (s.headerId c.snapshot) = true) :
    (s.written c.snapshot c.name).get (s.headerId c.snapshot) = .ok (s.rereadAs c) := by
  rw [get, hs.getRow_written hc hid]
  exact hc.read_written

theorem mem_others_iff {id : Int} {cs : List Criteria} : d ∈ others id cs ↔ d ∈ cs ∧ d.id ≠ some id := by
  rw [others, List.mem_filter, bne_iff_ne]

theorem nameFree_others_iff {id : Int} {name : String} :
    NameFree (others id (s.headers.map s.criteria)) name ↔ ¬ s.NameTaken id name := by
  constructor
  · rintro hfree ⟨h, hh, hid, hname⟩
    refine hfree (s.criteria h) (mem_others_iff.2 ⟨List.mem_map_of_mem hh, fun he ↦ ?_⟩) hname
    exact hid (Option.some.inj he)
  · intro htaken d hd hname
    obtain ⟨hd, hid⟩ := mem_others_iff.1 hd
    obtain ⟨h, hh, rfl⟩ := List.mem_map.1 hd
    exact htaken ⟨h, hh, fun he ↦ hid (congrArg some he), hname⟩

theorem Consistent.productsFree_others_iff (hs : s.Consistent) (hc : c.Sound s) :
    ProductsFree (others (s.headerId c.snapshot) (s.headers.map s.criteria))
      (c.products.map Product.id) ↔ ¬ s.ProductTaken c.snapshot := by
  rw [hs.productTaken_iff (hs.supports hc)]
  constructor
  · rintro hfree ⟨n, hn, l, hl, rfl, hid⟩
    obtain ⟨h, hh, hhid⟩ := hs.linkOwned l hl
    have hmem : l.productId ∈ (s.productsOf h.id).map Product.id := by
      rw [map_id_productsOf hs.linkBacked]
      exact mem_linkedTo_iff.2 ⟨l, hl, hhid.symm, rfl⟩
    obtain ⟨p, hp, hpid⟩ := List.mem_map.1 hmem
    refine hfree (s.criteria h) (mem_others_iff.2 ⟨List.mem_map_of_mem hh, fun he ↦ ?_⟩) p hp ?_
    · exact hid (hhid.symm.trans (Option.some.inj he))
    · exact hpid ▸ hn
  · intro htaken d hd p hp hn
    obtain ⟨hd, hid⟩ := mem_others_iff.1 hd
    obtain ⟨h, hh, rfl⟩ := List.mem_map.1 hd
    have hmem : p.id ∈ (s.productsOf h.id).map Product.id := List.mem_map_of_mem hp
    rw [map_id_productsOf hs.linkBacked] at hmem
    obtain ⟨l, hl, hlid, hpid⟩ := mem_linkedTo_iff.1 hmem
    exact htaken ⟨p.id, hn, l, hl, hpid, fun he ↦ hid (congrArg some (hlid.symm.trans he))⟩

end Store
end Provisioning
