import Provisioning.Proofs.Store.Consistent

namespace Provisioning

theorem Band.WrittenAs.covers_iff {s : Store} {b : Band} {r : BandRow} {id leastId : Int}
    (h : b.WrittenAs id leastId r) {category day : Int} :
    (r.toBand s).Covers category day ↔ b.Covers category day := by
  rw [h.row]
  rfl

theorem Band.WrittenAs.disjoint {s : Store} {a b : Band} {r q : BandRow} {id leastId : Int}
    (hr : a.WrittenAs id leastId r) (hq : b.WrittenAs id leastId q) (h : a.Disjoint b) :
    (r.toBand s).Disjoint (q.toBand s) := by
  intro category day
  rw [hr.covers_iff, hq.covers_iff]
  exact h category day

namespace Store

variable {s t u : Store}

namespace Agrees

theorem records (h : s.Agrees t) {kind : AccountKind} {copy : AccountCopy}
    (hs : s.Records kind copy) : t.Records kind copy := by
  obtain ⟨a, ha, hkind⟩ := hs
  exact ⟨a, (h.account_eq _).trans ha, hkind⟩

theorem band_sound (h : s.Agrees t) {b : Band} (hb : b.Sound s) : b.Sound t where
  ages := hb.ages
  percentage := hb.percentage
  category := by
    obtain ⟨c, hc, hname⟩ := hb.category
    exact ⟨c, (h.category_eq _).trans hc, hname⟩
  liability := h.records hb.liability
  expense := h.records hb.expense

theorem row_sound (h : s.Agrees t) {r : BandRow} (hr : r.Sound s) : r.Sound t where
  band := by
    rw [h.toBand_eq]
    exact h.band_sound hr.band
  scale := hr.scale
  fits := hr.fits

end Agrees

section Written

variable {c : Snapshot} {name : String}

theorem Consistent.productTaken_iff (hs : s.Consistent) (hc : s.Supports c) :
    s.ProductTaken c ↔
      ∃ n ∈ c.productIds, ∃ l ∈ s.links, l.productId = n ∧ l.criteriaId ≠ s.headerId c := by
  refine ⟨hs.intact.exists_of_productTaken hc, fun h ↦ ?_⟩
  obtain ⟨n, hn, l, hl, rfl, hid⟩ := h
  have hnew : l.productId ∉ s.linkedIds c.id := by
    rw [hs.intact.linkedIds_eq hc]
    intro hmem
    obtain ⟨l', hl', hlid', hn'⟩ := mem_linkedTo_iff.1 hmem
    obtain rfl := List.inj_on_of_nodup_map hs.linkUnique hl' hl hn'
    exact hid hlid'
  exact ⟨_, mem_addedIds_iff.2 ⟨hn, hnew⟩, l,
    mem_keptLinks_iff.2 ⟨hl, fun h ↦ absurd h hid⟩, rfl⟩

theorem Consistent.linkUnique_written (hs : s.Consistent) (hfree : ¬ s.ProductTaken c) :
    ((s.written c name).links.map Link.productId).Nodup := by
  change (List.map Link.productId (s.keptLinks c ++ _)).Nodup
  rw [List.map_append, List.map_map, List.nodup_append]
  refine ⟨hs.linkUnique.sublist (List.filter_sublist.map _), ?_, ?_⟩
  · change (List.map (fun n ↦ n) (s.addedIds c)).Nodup
    rw [List.map_id']
    exact (pairwise_ascending _).imp Int.ne_of_lt
  · intro n hn m hm he
    obtain ⟨l, hl, rfl⟩ := List.mem_map.1 hn
    obtain ⟨k, hk, rfl⟩ := List.mem_map.1 hm
    exact hfree ⟨k, hk, l, hl, he⟩

theorem Consistent.written (hs : s.Consistent) {c : Criteria} (hc : c.Sound s)
    (hfits : ∀ b ∈ c.bands, b.fits = true)
    (hname : ¬ s.NameTaken (s.headerId c.snapshot) c.name) (hfree : ¬ s.ProductTaken c.snapshot) :
    (s.written c.snapshot c.name).Consistent := by
  have hsup := hs.supports hc
  have hsame := s.agrees_written c.snapshot c.name
  have hintact : (s.written c.snapshot c.name).Intact := hs.intact.written hsup
  have hbands := (hs.intact.reserves hsup).forall₂_bandsOf_written hsup c.name hc.ids
  exact {
    headerIds := hintact.headerIds
    names := nodup_map_putRow hs.ordered.nodup_headerIds hs.names fun h hh hid he ↦
      hname ⟨h, hh, hid, he⟩
    properNames := by
      intro h hh
      rcases hs.ordered.mem_headers_written_iff.1 hh with rfl | ⟨hh, -⟩
      · exact hc.name
      · exact hs.properNames h hh
    banded := by
      intro h hh
      rcases hs.ordered.mem_headers_written_iff.1 hh with rfl | ⟨hh, hid⟩
      · obtain ⟨b, bs, hcons⟩ : ∃ b bs, c.snapshot.bands = b :: bs :=
          List.exists_cons_of_ne_nil hc.nonempty
        rw [hcons] at hbands
        obtain ⟨r, rs, -, -, hrows⟩ := List.forall₂_cons_left_iff.1 hbands
        have hr : r ∈ (s.written c.snapshot c.name).bandsOf (s.headerId c.snapshot) :=
          hrows ▸ List.mem_cons_self
        exact ⟨r, (List.mem_filter.1 hr).1, beq_iff_eq.1 (List.mem_filter.1 hr).2⟩
      · obtain ⟨r, hr, hrid⟩ := hs.banded h hh
        have hmem : r ∈ (s.written c.snapshot c.name).bandsOf h.id := by
          rw [bandsOf_written_of_ne hid, ← hrid]
          exact mem_bands_iff_mem_bandsOf.1 hr
        exact ⟨r, (List.mem_filter.1 hmem).1, hrid⟩
    bandIds := hintact.bandIds
    owned := hintact.owned
    sound := by
      intro r hr
      rcases row_cases_written hr with ⟨-, b, hb, hrow, -⟩ | ⟨-, hr⟩
      · rw [hrow]
        exact hsame.row_sound ((hc.bands b hb).toRow (hfits b hb) _ _)
      · exact hsame.row_sound (hs.sound r hr)
    disjoint := by
      intro h hh
      rw [hsame.toBand_eq]
      rcases hs.ordered.mem_headers_written_iff.1 hh with rfl | ⟨hh, hid⟩
      · refine List.pairwise_map.2 (pairwise_of_forall₂ (fun a r b q hr hq hab ↦ ?_) hbands hc.disjoint)
        exact hr.disjoint hq hab
      · rw [bandsOf_written_of_ne hid]
        exact hs.disjoint h hh
    linkOwned := hintact.linkOwned
    linkBacked := hintact.linkBacked
    linkUnique := hs.linkUnique_written hfree }

end Written

section Delete

variable {id : Int}

theorem delete_eq_ok (h : s.delete id = .ok t) :
    t = { s with
      headers := s.headers.filter fun r ↦ r.id != id
      bands := s.bands.filter fun r ↦ r.criteriaId != id
      links := s.links.filter fun l ↦
        l.criteriaId != id || !s.foreignKeys && !(s.products.any fun p ↦ p.id == l.productId) } := by
  obtain ⟨_, -, h⟩ := bind_eq_ok_iff.1 h
  obtain ⟨_, -, h⟩ := bind_eq_ok_iff.1 h
  exact (Except.ok.inj h).symm

theorem Consistent.links_of_delete (hs : s.Consistent) (h : s.delete id = .ok t) :
    t.links = s.links.filter fun l ↦ l.criteriaId != id := by
  rw [delete_eq_ok h]
  refine List.filter_congr fun l hl ↦ ?_
  obtain ⟨p, hp⟩ := hs.linkBacked l hl
  obtain ⟨hmem, hpid⟩ := mem_and_id_of_getRow hp
  have hany : s.products.any (fun p ↦ p.id == l.productId) = true :=
    List.any_eq_true.2 ⟨p, hmem, by simp [hpid]⟩
  simp [hany]

theorem agrees_of_delete (h : s.delete id = .ok t) : s.Agrees t := by
  rw [delete_eq_ok h]
  exact ⟨rfl, rfl, rfl, rfl, rfl⟩

theorem bandsOf_of_delete (h : s.delete id = .ok t) {j : Int} (hj : j ≠ id) :
    t.bandsOf j = s.bandsOf j := by
  rw [delete_eq_ok h, bandsOf, List.filter_filter, bandsOf]
  apply List.filter_congr
  intro r _
  by_cases hr : r.criteriaId = j
  · simp [hr, hj]
  · simp [hr]

theorem Consistent.of_delete (hs : s.Consistent) (h : s.delete id = .ok t) : t.Consistent := by
  have hsame := agrees_of_delete h
  have hheaders : t.headers = s.headers.filter fun r ↦ r.id != id := by rw [delete_eq_ok h]
  have hrows : t.bands = s.bands.filter fun r ↦ r.criteriaId != id := by rw [delete_eq_ok h]
  have hmem {q : Header} : q ∈ t.headers ↔ q ∈ s.headers ∧ q.id ≠ id := by
    rw [hheaders, List.mem_filter, bne_iff_ne]
  have hlinks := hs.links_of_delete h
  have hlink {l : Link} : l ∈ t.links ↔ l ∈ s.links ∧ l.criteriaId ≠ id := by
    rw [hlinks, List.mem_filter, bne_iff_ne]
  have hrow {r : BandRow} : r ∈ t.bands ↔ r ∈ s.bands ∧ r.criteriaId ≠ id := by
    rw [hrows, List.mem_filter, bne_iff_ne]
  exact {
    headerIds := hs.headerIds.sublist (hheaders ▸ List.filter_sublist.map _)
    names := hs.names.sublist (hheaders ▸ List.filter_sublist.map _)
    properNames := fun q hq ↦ hs.properNames q (hmem.1 hq).1
    banded := by
      intro q hq
      obtain ⟨r, hr, hid⟩ := hs.banded q (hmem.1 hq).1
      exact ⟨r, hrow.2 ⟨hr, hid ▸ (hmem.1 hq).2⟩, hid⟩
    bandIds := hs.bandIds.sublist (hrows ▸ List.filter_sublist.map _)
    owned := by
      intro r hr
      obtain ⟨q, hq, hid⟩ := hs.owned r (hrow.1 hr).1
      exact ⟨q, hmem.2 ⟨hq, hid ▸ (hrow.1 hr).2⟩, hid⟩
    sound := fun r hr ↦ hsame.row_sound (hs.sound r (hrow.1 hr).1)
    disjoint := by
      intro q hq
      rw [hsame.toBand_eq, bandsOf_of_delete h (hmem.1 hq).2]
      exact hs.disjoint q (hmem.1 hq).1
    linkOwned := by
      intro l hl
      obtain ⟨hl, hne⟩ := hlink.1 hl
      obtain ⟨q, hq, hid⟩ := hs.linkOwned l hl
      exact ⟨q, hmem.2 ⟨hq, hid ▸ hne⟩, hid⟩
    linkBacked := by
      intro l hl
      rw [hsame.product_eq]
      exact hs.linkBacked l (hlink.1 hl).1
    linkUnique := by
      rw [hlinks]
      exact hs.linkUnique.sublist (List.filter_sublist.map _) }

end Delete
end Store
end Provisioning
