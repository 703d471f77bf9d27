import Provisioning.Proofs.Revision
import Provisioning.Proofs.Store.ReadBack

namespace Provisioning

/-- A band row as a write leaves it, whatever has become of its category. -/
structure BandRow.Storable (s : Store) (r : BandRow) : Prop where
  percentage : ∃ k : ℕ, k ≤ 100 * 10 ^ 6 ∧ r.percentage = .finite false k (-6)
  category : inWord r.categoryId = true
  accounts : s.hasAccounts r = true

structure Store.Coherent (s : Store) : Prop extends s.Ordered where
  rows : ∀ r ∈ s.bands, r.Storable s
  links : ∀ l ∈ s.links, inWord l.productId = true

theorem BandRow.Storable.isPercentage {s : Store} {r : BandRow} (hr : r.Storable s) :
    r.percentage.IsPercentage := by
  obtain ⟨k, hk, hp⟩ := hr.percentage
  refine ⟨k, hk, ?_⟩
  rw [hp, Decimal.value?_millionths]

theorem BandRow.Sound.storable {s : Store} {r : BandRow} (hr : r.Sound s) : r.Storable s where
  percentage := by
    obtain ⟨k, hk⟩ := hr.scale
    obtain ⟨m, hm, hv⟩ := hr.band.percentage
    change r.percentage.value? = _ at hv
    rw [hk, ← Decimal.value?_millionths] at hv
    exact ⟨k, Decimal.millionths_inj hv ▸ hm, hk⟩
  category := by
    obtain ⟨c, hc, -⟩ := hr.band.category
    exact (Store.category_eq_ok_iff.1 hc).1
  accounts := Store.hasAccounts_eq_true_iff.2 ⟨hr.band.backs.liability, hr.band.backs.expense⟩

theorem BandRow.Storable.backs {s : Store} {r : BandRow} (hr : r.Storable s)
    (hcategory : ∃ k, s.category r.categoryId = .ok k) : s.Backs (r.toBand s) :=
  ⟨hcategory, (Store.hasAccounts_eq_true_iff.1 hr.accounts).1,
    (Store.hasAccounts_eq_true_iff.1 hr.accounts).2, hr.isPercentage⟩

theorem BandRow.Storable.toRow_eq {s : Store} {w : BandRow} (hw : w.Storable s) {b : Band}
    (h : (w.toBand s).Alike b) : b.toRow w.id w.criteriaId = w := by
  obtain ⟨k, hk, hp⟩ := hw.percentage
  have hb : b.percentage.IsPercentage := by
    obtain ⟨m, hm, hv⟩ := hw.isPercentage
    exact ⟨m, hm, h.value.symm.trans hv⟩
  obtain ⟨⟨m, -, hm⟩, hv⟩ := percentage_toRow_eq hb w.id w.criteriaId
  have hsame : (b.toRow w.id w.criteriaId).percentage = w.percentage := by
    have hvalue : (b.toRow w.id w.criteriaId).percentage.value? = w.percentage.value? :=
      hv.trans h.value.symm
    rw [hm, hp] at hvalue ⊢
    rw [Decimal.millionths_inj hvalue]
  calc
    b.toRow w.id w.criteriaId = { w with percentage := (b.toRow w.id w.criteriaId).percentage } := by
      rw [← h.rest]
      rfl
    _ = w := by rw [hsame]

theorem Band.Alike.backs {s : Store} {a b : Band} (h : a.Alike b) (ha : s.Backs a) : s.Backs b := by
  have hsame := h.rest
  refine ⟨?_, ?_, ?_, ?_⟩
  · rw [← hsame]
    exact ha.category
  · rw [← hsame]
    exact ha.liability
  · rw [← hsame]
    exact ha.expense
  · obtain ⟨k, hk, hv⟩ := ha.percentage
    exact ⟨k, hk, h.value.symm.trans hv⟩

namespace Store

variable {s t : Store} {c : Snapshot} {name : String}

theorem Supports.storable_toRow (hc : s.Supports c) {b : Band} (hb : b ∈ c.bands) (id criteriaId : Int) :
    (b.toRow id criteriaId).Storable s where
  percentage := (percentage_toRow_eq (hc.backed b hb).percentage id criteriaId).1
  category := by
    obtain ⟨k, hk⟩ := (hc.backed b hb).category
    exact (category_eq_ok_iff.1 hk).1
  accounts := hasAccounts_toRow (hc.backed b hb) id criteriaId

theorem Agrees.storable (h : s.Agrees t) {r : BandRow} (hr : r.Storable s) : r.Storable t where
  percentage := hr.percentage
  category := hr.category
  accounts := by
    rw [hasAccounts, h.foreignKeys, h.accounts]
    exact hr.accounts

theorem Consistent.coherent (hs : s.Consistent) : s.Coherent where
  toOrdered := hs.ordered
  rows r hr := (hs.sound r hr).storable
  links l hl := by
    obtain ⟨p, hp⟩ := hs.linkBacked l hl
    exact (product_eq_ok_iff.1 hp).1

theorem Coherent.written (hs : s.Coherent) (hc : s.Supports c) : (s.written c name).Coherent where
  toOrdered := hs.toOrdered.written hc
  rows r hr := by
    apply (s.agrees_written c name).storable
    rcases row_cases_written hr with ⟨-, b, hb, hrow, -⟩ | ⟨-, hr⟩
    · rw [hrow]
      exact hc.storable_toRow hb _ _
    · exact hs.rows r hr
  links l hl := by
    rcases mem_links_written_iff.1 hl with hl | ⟨-, hn⟩
    · exact hs.links l (mem_keptLinks_iff.1 hl).1
    · obtain ⟨p, hp⟩ := hc.products _ (mem_addedIds_iff.1 hn).1
      exact (product_eq_ok_iff.1 hp).1

theorem Coherent.of_delete (hs : s.Coherent) {id : Int} (h : s.delete id = .ok t) : t.Coherent := by
  have hsame := agrees_of_delete h
  have hdelete := delete_eq_ok h
  exact {
    headerIds := hs.headerIds.sublist (by rw [hdelete]; exact List.filter_sublist.map _)
    bandIds := hs.bandIds.sublist (by rw [hdelete]; exact List.filter_sublist.map _)
    rows := by
      intro r hr
      rw [hdelete] at hr
      exact hsame.storable (hs.rows r (List.mem_filter.1 hr).1)
    links := by
      intro l hl
      rw [hdelete] at hl
      exact hs.links l (List.mem_filter.1 hl).1 }

section Get

variable {id : Int} {c c' : Criteria} {r : Request.Changes} {written : List (Option Int)}

/-- What is read is the criteria of the header, with the categories of its bands at hand. -/
theorem Coherent.exists_of_get (hs : s.Coherent) (hget : s.get id = .ok c) :
    ∃ h, getRow Header.id s.headers .criteria id = .ok h ∧ c = s.criteria h ∧
      ∀ q ∈ s.bandsOf h.id, ∃ k, s.category q.categoryId = .ok k := by
  obtain ⟨h, hh, hread⟩ := bind_eq_ok_iff.1 hget
  have hcategories := categories_of_read (fun q hq ↦ (hs.rows q (List.mem_filter.1 hq).1).category) hread
  rw [read_eq_of_bands hcategories, Except.ok.injEq] at hread
  exact ⟨h, hh, hread.symm, hcategories⟩

theorem Coherent.distinct_of_get (hs : s.Coherent) (hget : s.get id = .ok c) :
    (Provisioning.bandIds c.bands).Nodup := by
  obtain ⟨h, -, rfl, -⟩ := hs.exists_of_get hget
  exact hs.distinct_bandIds h

theorem Coherent.product_of_get (hs : s.Coherent) (hget : s.get id = .ok c) {p : Product}
    (hp : p ∈ c.products) : s.product p.id = .ok p := by
  obtain ⟨h, -, rfl, -⟩ := hs.exists_of_get hget
  obtain ⟨n, hn, hfind⟩ := List.mem_filterMap.1 hp
  obtain ⟨l, hl, -, rfl⟩ := mem_linkedTo_iff.1 hn
  have hid := (mem_and_id_of_find? hfind).2
  rw [hid]
  exact product_eq_ok_iff.2 ⟨hs.links l hl, hfind⟩

theorem Coherent.backs_of_get (hs : s.Coherent) (hget : s.get id = .ok c) {b : Band}
    (hb : b ∈ c.bands) : s.Backs b := by
  obtain ⟨h, -, rfl, hcategories⟩ := hs.exists_of_get hget
  obtain ⟨q, hq, rfl⟩ := List.mem_map.1 hb
  exact (hs.rows q (List.mem_filter.1 hq).1).backs (hcategories q hq)

theorem Coherent.map_id_of_revision (hs : s.Coherent) (hget : s.get id = .ok c)
    (h : r.Revision s c c' written) :
    ∃ n, c'.bands.map Band.id = (s.ownBandIds c'.id).map some ++ List.replicate n none := by
  refine exists_map_id_of_alike h.bands ⟨0, ?_⟩
  obtain ⟨q, -, rfl, -⟩ := hs.exists_of_get hget
  rw [h.id, criteria, List.map_map, ownBandIds, List.map_map, List.replicate_zero, List.append_nil]
  rfl

/-- A revised criteria can be written. -/
theorem Coherent.supports_of_revision (hs : s.Coherent) (hget : s.get id = .ok c)
    (h : r.Revision s c c' written) : s.Supports c'.snapshot := by
  have hids := bandIds_of_map_id (hs.map_id_of_revision hget h)
  exact {
    stored := by
      intro i hi
      change c'.id = some i at hi
      obtain ⟨q, hq, rfl, -⟩ := hs.exists_of_get hget
      rw [h.id] at hi
      have hqid := (mem_and_id_of_getRow hq).2
      rw [← Option.some.inj hi]
      exact ⟨q, hqid.symm ▸ hq⟩
    own := by
      intro b hb i hi
      change i ∈ s.ownBandIds c'.id
      rw [← hids]
      exact mem_bandIds_iff.2 ⟨b, hb, hi⟩
    distinct := by
      change (Provisioning.bandIds c'.bands).Nodup
      rw [hids]
      exact hs.nodup_ownBandIds c'.id
    backed := by
      intro b hb
      obtain ⟨a, ha, hab⟩ := exists_of_mem_right h.bands hb
      refine hab.backs ?_
      rcases mem_revisedBands ha with ha | ⟨e, he, rfl⟩
      · exact hs.backs_of_get hget ha
      · exact ((h.entries e he).1.sound e.id.value?).backs
    products := by
      intro n hn
      obtain ⟨p, hp, rfl⟩ := List.mem_map.1 hn
      refine ⟨p, (h.resolved p hp).elim (fun hp ↦ hs.product_of_get hget hp) fun h ↦ h⟩ }

theorem Coherent.rewritten_eq_some (hs : s.Coherent) {h : Header} {bs : List Band}
    (hbs : List.Forall₂ Band.Alike (s.criteria h).bands bs) {w : BandRow} (hw : w ∈ s.bands) :
    BandRow.rewritten h.id bs w = some w := by
  rw [BandRow.rewritten]
  split
  · rename_i hid
    have hmem : w.toBand s ∈ (s.criteria h).bands :=
      List.mem_map_of_mem (List.mem_filter.2 ⟨hw, beq_iff_eq.2 hid⟩)
    obtain ⟨b, hb, halike⟩ := exists_of_mem_right hbs.flip hmem
    have hdistinct : (Provisioning.bandIds bs).Nodup := by
      rw [bandIds_eq_filterMap, map_id_of_alike hbs, ← bandIds_eq_filterMap]
      exact hs.distinct_bandIds h
    have hbi : b.id = some w.id := halike.id_eq.symm
    rw [find?_reverse_eq_of_mem hdistinct hb hbi, Option.map_some, ← hid, (hs.rows w hw).toRow_eq halike]
  · rfl

theorem addedIds_eq_nil {h : Header} (hid : c.id = some h.id)
    (hproducts : ∀ n, n ∈ c.products.map Product.id ↔ n ∈ (s.criteria h).products.map Product.id) :
    s.addedIds c.snapshot = [] := by
  refine List.eq_nil_iff_forall_not_mem.2 fun n hn ↦ ?_
  obtain ⟨hmem, hnew⟩ := mem_addedIds_iff.1 hn
  change n ∉ s.linkedIds c.id at hnew
  rw [hid] at hnew
  exact hnew ((hproducts n).1 hmem)

/-- Writing what is stored changes nothing. -/
theorem Coherent.written_eq_self (hs : s.Coherent) (hget : s.get id = .ok c) (hid : c'.id = c.id)
    (hname : c'.name = c.name)
    (hproducts : ∀ n, n ∈ c'.products.map Product.id ↔ n ∈ c.products.map Product.id)
    (hbands : List.Forall₂ Band.Alike c.bands c'.bands) : s.written c'.snapshot c'.name = s := by
  obtain ⟨q, hq, rfl, -⟩ := hs.exists_of_get hget
  have hheader : s.headerId c'.snapshot = q.id := headerId_eq hid
  have hheaders : putRow Header.id ⟨q.id, c'.name⟩ s.headers = s.headers := by
    rw [hname]
    exact putRow_eq_self hs.nodup_headerIds (mem_and_id_of_getRow hq).1
  have hrows : s.bands.filterMap (BandRow.rewritten q.id c'.bands) = s.bands := by
    rw [List.filterMap_congr fun w hw ↦ hs.rewritten_eq_some hbands hw, List.filterMap_some]
  have hnew : c'.bands.filter (fun b ↦ b.id.isNone) = [] := by
    refine List.filter_eq_nil_iff.2 fun b hb hnone ↦ ?_
    obtain ⟨a, ha, hab⟩ := exists_of_mem_right hbands hb
    obtain ⟨w, -, rfl⟩ := List.mem_map.1 ha
    rw [← hab.id_eq] at hnone
    cases hnone
  have hadded : s.addedIds c'.snapshot = [] := addedIds_eq_nil hid hproducts
  have hkept : s.keptLinks c'.snapshot = s.links := by
    refine List.filter_eq_self.2 fun l hl ↦ (List.mem_filter.1 (mem_keptLinks_iff.2 ⟨hl, ?_⟩)).2
    intro _ hlinked
    change l.productId ∈ s.linkedIds c'.id at hlinked
    rw [hid] at hlinked
    exact (hproducts _).2 hlinked
  rw [Store.written, hheader, hadded, hkept, List.map_nil, List.append_nil]
  change { s with
    headers := putRow Header.id ⟨q.id, c'.name⟩ s.headers
    bands := s.bands.filterMap (BandRow.rewritten q.id c'.bands) ++
      newRows q.id (nextId (s.bands.map BandRow.id)) (c'.bands.filter fun b ↦ b.id.isNone) } = s
  rw [hheaders, hrows, hnew, newRows, List.append_nil]

end Get
end Store
end Provisioning
