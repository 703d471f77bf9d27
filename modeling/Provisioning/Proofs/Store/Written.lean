import Provisioning.Proofs.Store.Read
import Provisioning.Proofs.Store.Write

namespace Provisioning

structure Store.Agrees (s t : Store) : Prop where
  foreignKeys : t.foreignKeys = s.foreignKeys
  categories : t.categories = s.categories
  accounts : t.accounts = s.accounts
  products : t.products = s.products
  entries : t.entries = s.entries

/-- The row that a band is written as: under its own id, or under an unused one if it has none. -/
structure Band.WrittenAs (b : Band) (criteriaId leastId : Int) (r : BandRow) : Prop where
  row : r = b.toRow r.id criteriaId
  kept : ∀ i, b.id = some i → r.id = i
  fresh : b.id = none → leastId ≤ r.id

section LastBands

/-- The last band of each id that has one. -/
def lastBands (ids : List Int) (bs : List Band) : List Band :=
  ids.filterMap fun i ↦ bs.reverse.find? fun b ↦ b.id == some i

variable {ids : List Int} {bs : List Band} {b : Band}

theorem mem_and_id_of_find?_reverse {i : Int}
    (h : (bs.reverse.find? fun b ↦ b.id == some i) = some b) : b ∈ bs ∧ b.id = some i :=
  ⟨List.mem_reverse.1 (List.mem_of_find?_eq_some h), by simpa using List.find?_some h⟩

theorem lastBands_cons_of_none {i : Int} (h : (bs.reverse.find? fun b ↦ b.id == some i) = none) :
    lastBands (i :: ids) bs = lastBands ids bs := List.filterMap_cons_none h

theorem lastBands_cons_of_some {i : Int} (h : (bs.reverse.find? fun b ↦ b.id == some i) = some b) :
    lastBands (i :: ids) bs = b :: lastBands ids bs := List.filterMap_cons_some h

theorem mem_of_mem_lastBands (h : b ∈ lastBands ids bs) : b ∈ bs := by
  obtain ⟨i, -, hfind⟩ := List.mem_filterMap.1 h
  exact (mem_and_id_of_find?_reverse hfind).1

theorem map_id_lastBands_sublist (ids : List Int) (bs : List Band) :
    ((lastBands ids bs).map Band.id).Sublist (ids.map some) :=
  map_filterMap_sublist (fun _ _ h ↦ (mem_and_id_of_find?_reverse h).2) ids

theorem bandIds_eq_filterMap (bs : List Band) : bandIds bs = (bs.map Band.id).filterMap id := by
  rw [List.filterMap_map]
  rfl

theorem lastBands_eq {old : List Band} (hdistinct : (bandIds bs).Nodup) (hold : ∀ b ∈ old, b ∈ bs)
    (hids : old.map Band.id = ids.map some) : lastBands ids bs = old := by
  induction ids generalizing old with
  | nil => exact (List.map_eq_nil_iff.1 hids).symm
  | cons i ids ih =>
    obtain ⟨b, old, rfl, hb, hids⟩ := List.map_eq_cons_iff.1 hids
    rw [List.forall_mem_cons] at hold
    rw [lastBands_cons_of_some (find?_reverse_eq_of_mem hdistinct hold.1 hb), ih hold.2 hids]

theorem map_id_filter_isSome (bs : List Band) :
    (bs.filter fun b ↦ b.id.isSome).map Band.id = (bandIds bs).map some := by
  induction bs with
  | nil => rfl
  | cons b bs ih => cases hb : b.id <;> simp_all [bandIds]

/-- Where all ids are among those asked for, every band with an id is one of the last ones. -/
theorem perm_lastBands (hdistinct : (bandIds bs).Nodup) (hids : ids.Nodup)
    (hown : ∀ b ∈ bs, ∀ i, b.id = some i → i ∈ ids) :
    (lastBands ids bs).Perm (bs.filter fun b ↦ b.id.isSome) := by
  have hsome : Function.Injective (some : Int → Option Int) := Option.some_injective _
  have hlast : (lastBands ids bs).Nodup :=
    ((hids.map hsome).sublist (map_id_lastBands_sublist ids bs)).of_map
  have hold : (bs.filter fun b ↦ b.id.isSome).Nodup := by
    refine List.Nodup.of_map Band.id ?_
    rw [map_id_filter_isSome]
    exact hdistinct.map hsome
  refine (List.perm_ext_iff_of_nodup hlast hold).2 fun b ↦ ?_
  rw [lastBands, List.mem_filterMap, List.mem_filter]
  constructor
  · rintro ⟨i, -, hfind⟩
    obtain ⟨hb, hi⟩ := mem_and_id_of_find?_reverse hfind
    exact ⟨hb, by rw [hi]; rfl⟩
  · rintro ⟨hb, hid⟩
    obtain ⟨i, hi⟩ := Option.isSome_iff_exists.1 hid
    exact ⟨i, hown b hb i hi, find?_reverse_eq_of_mem hdistinct hb hi⟩

end LastBands

section Rows

theorem forall₂_kept (id leastId : Int) (bs : List Band) (rows : List BandRow) :
    List.Forall₂ (fun b r ↦ b.WrittenAs id leastId r)
      (lastBands ((rows.filter fun r ↦ r.criteriaId == id).map BandRow.id) bs)
      ((rows.filterMap (BandRow.rewritten id bs)).filter fun r ↦ r.criteriaId == id) := by
  -- rows of other criteria are passed over; each row of this one takes the last band of its id
  induction rows with
  | nil => exact .nil
  | cons r rows ih =>
    by_cases hr : r.criteriaId = id
    · have hrb : (r.criteriaId == id) = true := beq_iff_eq.2 hr
      rw [List.filter_cons, if_pos hrb, List.map_cons]
      cases hfind : bs.reverse.find? fun b ↦ b.id == some r.id with
      | none =>
        have hrow : BandRow.rewritten id bs r = none := by
          rw [BandRow.rewritten, if_pos hr, hfind, Option.map_none]
        rw [lastBands_cons_of_none hfind, List.filterMap_cons_none hrow]
        exact ih
      | some b =>
        have hrow : BandRow.rewritten id bs r = some (b.toRow r.id id) := by
          rw [BandRow.rewritten, if_pos hr, hfind, Option.map_some]
        have howned : ((b.toRow r.id id).criteriaId == id) = true := beq_self_eq_true id
        have hb := (mem_and_id_of_find?_reverse hfind).2
        rw [lastBands_cons_of_some hfind, List.filterMap_cons_some hrow, List.filter_cons, if_pos howned]
        refine .cons ⟨rfl, fun i hi ↦ ?_, fun hnone ↦ ?_⟩ ih
        · exact Option.some.inj (hb.symm.trans hi)
        · rw [hb] at hnone
          cases hnone
    · have hrb : ¬ (r.criteriaId == id) = true := fun h ↦ hr (beq_iff_eq.1 h)
      have hrow : BandRow.rewritten id bs r = some r := if_neg hr
      rw [List.filter_cons, if_neg hrb, List.filterMap_cons_some hrow, List.filter_cons, if_neg hrb]
      exact ih

theorem forall₂_newRows {id leastId n : Int} {bs : List Band} (hn : leastId ≤ n)
    (hnew : ∀ b ∈ bs, b.id = none) :
    List.Forall₂ (fun b r ↦ b.WrittenAs id leastId r) bs (newRows id n bs) := by
  induction bs generalizing n with
  | nil => exact .nil
  | cons b bs ih =>
    rw [List.forall_mem_cons] at hnew
    refine .cons ⟨rfl, fun i hi ↦ ?_, fun _ ↦ hn⟩ (ih (by omega) hnew.2)
    rw [hnew.1] at hi
    cases hi

theorem criteriaId_of_mem_newRows {id n : Int} {bs : List Band} {r : BandRow}
    (hr : r ∈ newRows id n bs) : r.criteriaId = id := by
  obtain ⟨b, -, m, -, rfl⟩ := Store.exists_toRow_of_mem_newRows hr
  rfl

theorem pairwise_newRows (id n : Int) (bs : List Band) :
    ((newRows id n bs).map BandRow.id).Pairwise (· < ·) := by
  induction bs generalizing n with
  | nil => exact .nil
  | cons b bs ih =>
    rw [newRows, List.map_cons, List.pairwise_cons]
    refine ⟨fun m hm ↦ ?_, ih (n + 1)⟩
    obtain ⟨r, hr, rfl⟩ := List.mem_map.1 hm
    obtain ⟨b', -, k, hk, rfl⟩ := Store.exists_toRow_of_mem_newRows hr
    exact Int.lt_of_add_one_le hk

theorem id_of_rewritten {id : Int} {bs : List Band} {r r' : BandRow}
    (h : BandRow.rewritten id bs r = some r') : r'.id = r.id := by
  rw [BandRow.rewritten] at h
  split at h
  · obtain ⟨b, -, rfl⟩ := Option.map_eq_some_iff.1 h
    rfl
  · rw [← Option.some.inj h]

theorem filter_filterMap_rewritten {id j : Int} {bs : List Band} (hj : j ≠ id) (rows : List BandRow) :
    (rows.filterMap (BandRow.rewritten id bs)).filter (fun r ↦ r.criteriaId == j) =
      rows.filter fun r ↦ r.criteriaId == j := by
  induction rows with
  | nil => rfl
  | cons r rows ih =>
    by_cases hr : r.criteriaId = id
    · have hne : ¬ (r.criteriaId == j) = true := fun h ↦ hj ((beq_iff_eq.1 h).symm.trans hr)
      rw [List.filter_cons, if_neg hne, ← ih, List.filterMap_cons, BandRow.rewritten, if_pos hr]
      cases bs.reverse.find? fun b ↦ b.id == some r.id with
      | none => rfl
      | some b =>
        have hid : ¬ (id == j) = true := fun h ↦ hj (beq_iff_eq.1 h).symm
        exact List.filter_cons_of_neg hid
    · have hrow : BandRow.rewritten id bs r = some r := if_neg hr
      rw [List.filterMap_cons_some hrow, List.filter_cons, List.filter_cons, ih]

end Rows

namespace Store

structure Ordered (s : Store) : Prop where
  headerIds : (s.headers.map Header.id).Pairwise (· < ·)
  bandIds : (s.bands.map BandRow.id).Pairwise (· < ·)

/-- What a snapshot replaces is all there is under the id that it is written under. -/
structure Reserves (s : Store) (c : Snapshot) : Prop where
  bands : (s.bandsOf (s.headerId c)).map BandRow.id = s.ownBandIds c.id
  products : (s.productsOf (s.headerId c)).map Product.id = s.linkedIds c.id

variable {s t u : Store} {c : Snapshot} {name : String}

namespace Agrees

theorem refl (s : Store) : s.Agrees s := ⟨rfl, rfl, rfl, rfl, rfl⟩

theorem trans (h : s.Agrees t) (h' : t.Agrees u) : s.Agrees u where
  foreignKeys := h'.foreignKeys.trans h.foreignKeys
  categories := h'.categories.trans h.categories
  accounts := h'.accounts.trans h.accounts
  products := h'.products.trans h.products
  entries := h'.entries.trans h.entries

theorem category_eq (h : s.Agrees t) (n : Int) : t.category n = s.category n := by
  rw [category, category, h.categories]

theorem account_eq (h : s.Agrees t) (n : Int) : t.account n = s.account n := by
  rw [account, account, h.accounts]

theorem product_eq (h : s.Agrees t) (n : Int) : t.product n = s.product n := by
  rw [product, product, h.products]

theorem toBand_eq (h : s.Agrees t) : BandRow.toBand t = BandRow.toBand s := by
  funext r
  simp only [BandRow.toBand, categoryName, h.category_eq]

end Agrees

theorem agrees_written (s : Store) (c : Snapshot) (name : String) : s.Agrees (s.written c name) :=
  ⟨rfl, rfl, rfl, rfl, rfl⟩

section Headers

theorem headerId_stored_or_new (hc : s.Supports c) :
    (∃ id h, c.id = some id ∧ h ∈ s.headers ∧ h.id = id ∧ s.headerId c = id) ∨
      c.id = none ∧ ∀ h ∈ s.headers, h.id < s.headerId c := by
  cases hid : c.id with
  | none =>
    refine .inr ⟨rfl, fun h hh ↦ ?_⟩
    rw [headerId, hid]
    exact lt_nextId (List.mem_map_of_mem hh)
  | some id =>
    obtain ⟨h, hget⟩ := hc.stored id hid
    obtain ⟨hmem, hh⟩ := mem_and_id_of_getRow hget
    exact .inl ⟨id, h, rfl, hmem, hh, headerId_eq hid⟩

theorem header_stored_or_above (hc : s.Supports c) :
    (∃ h ∈ s.headers, h.id = s.headerId c) ∨ ∀ h ∈ s.headers, h.id < s.headerId c := by
  rcases headerId_stored_or_new hc with ⟨id, h, -, hmem, hh, hid⟩ | ⟨-, hnew⟩
  · exact .inl ⟨h, hmem, hh.trans hid.symm⟩
  · exact .inr hnew

theorem Ordered.nodup_headerIds (hs : s.Ordered) : (s.headers.map Header.id).Nodup :=
  hs.headerIds.imp Int.ne_of_lt

theorem Ordered.nodup_bandIds (hs : s.Ordered) : (s.bands.map BandRow.id).Nodup :=
  hs.bandIds.imp Int.ne_of_lt

theorem Ordered.mem_headers_written_iff (hs : s.Ordered) {h : Header} :
    h ∈ (s.written c name).headers ↔
      h = ⟨s.headerId c, name⟩ ∨ h ∈ s.headers ∧ h.id ≠ s.headerId c :=
  mem_putRow_iff hs.nodup_headerIds

theorem Ordered.exists_header_written (hs : s.Ordered) {h : Header} (hh : h ∈ s.headers) :
    ∃ h' ∈ (s.written c name).headers, h'.id = h.id := by
  by_cases hid : h.id = s.headerId c
  · exact ⟨_, hs.mem_headers_written_iff.2 (.inl rfl), hid.symm⟩
  · exact ⟨h, hs.mem_headers_written_iff.2 (.inr ⟨hh, hid⟩), rfl⟩

end Headers

section Bands

theorem bandsOf_written_of_ne {id : Int} (hid : id ≠ s.headerId c) :
    (s.written c name).bandsOf id = s.bandsOf id := by
  have hnew : (newRows (s.headerId c) (nextId (s.bands.map BandRow.id))
      (c.bands.filter fun b ↦ b.id.isNone)).filter (fun r ↦ r.criteriaId == id) = [] := by
    refine List.filter_eq_nil_iff.2 fun r hr he ↦ hid ?_
    exact (beq_iff_eq.1 he).symm.trans (criteriaId_of_mem_newRows hr)
  change List.filter _ (_ ++ _) = _
  rw [List.filter_append, hnew, List.append_nil]
  exact filter_filterMap_rewritten hid s.bands

theorem forall₂_bandsOf_written (s : Store) (c : Snapshot) (name : String) :
    List.Forall₂ (fun b r ↦ b.WrittenAs (s.headerId c) (nextId (s.bands.map BandRow.id)) r)
      (lastBands ((s.bandsOf (s.headerId c)).map BandRow.id) c.bands ++
        c.bands.filter fun b ↦ b.id.isNone)
      ((s.written c name).bandsOf (s.headerId c)) := by
  have hrows : (newRows (s.headerId c) (nextId (s.bands.map BandRow.id))
      (c.bands.filter fun b ↦ b.id.isNone)).filter (fun r ↦ r.criteriaId == s.headerId c) =
        newRows (s.headerId c) (nextId (s.bands.map BandRow.id)) (c.bands.filter fun b ↦ b.id.isNone) :=
    List.filter_eq_self.2 fun r hr ↦ beq_iff_eq.2 (criteriaId_of_mem_newRows hr)
  change List.Forall₂ _ _ (List.filter _ (_ ++ _))
  rw [List.filter_append, hrows]
  refine List.rel_append (forall₂_kept _ _ c.bands s.bands) (forall₂_newRows (Int.le_refl _) ?_)
  exact fun b hb ↦ Option.isNone_iff_eq_none.1 (List.mem_filter.1 hb).2

theorem Reserves.forall₂_bandsOf_written (hr : s.Reserves c) (hc : s.Supports c) (name : String)
    (hids : ∃ n, c.bands.map Band.id = (s.ownBandIds c.id).map some ++ List.replicate n none) :
    List.Forall₂ (fun b r ↦ b.WrittenAs (s.headerId c) (nextId (s.bands.map BandRow.id)) r) c.bands
      ((s.written c name).bandsOf (s.headerId c)) := by
  obtain ⟨n, hids⟩ := hids
  obtain ⟨old, new, hbands, hold, hnew⟩ := List.map_eq_append_iff.1 hids
  have hlast : lastBands ((s.bandsOf (s.headerId c)).map BandRow.id) c.bands = old := by
    refine lastBands_eq hc.distinct (fun b hb ↦ hbands ▸ List.mem_append_left new hb) ?_
    rw [hr.bands]
    exact hold
  have hnone : ∀ b ∈ new, b.id.isNone = true := by
    intro b hb
    have hid : b.id = none := (List.mem_replicate.1 (hnew ▸ List.mem_map_of_mem hb)).2
    rw [hid]
    rfl
  have hsome : ∀ b ∈ old, ¬ b.id.isNone = true := by
    intro b hb hbn
    have hmem : b.id ∈ (s.ownBandIds c.id).map some := hold ▸ List.mem_map_of_mem hb
    obtain ⟨i, -, hi⟩ := List.mem_map.1 hmem
    rw [← hi] at hbn
    cases hbn
  have hfilter : c.bands.filter (fun b ↦ b.id.isNone) = new := by
    rw [hbands, List.filter_append, List.filter_eq_nil_iff.2 hsome, List.nil_append,
      List.filter_eq_self.2 hnone]
  have hrows := Store.forall₂_bandsOf_written s c name
  rw [hlast, hfilter, ← hbands] at hrows
  exact hrows

theorem mem_bands_iff_mem_bandsOf {r : BandRow} : r ∈ s.bands ↔ r ∈ s.bandsOf r.criteriaId := by
  rw [bandsOf, List.mem_filter, beq_self_eq_true, and_iff_left rfl]

theorem exists_writtenAs {r : BandRow} (hr : r ∈ (s.written c name).bandsOf (s.headerId c)) :
    ∃ b ∈ c.bands, b.WrittenAs (s.headerId c) (nextId (s.bands.map BandRow.id)) r := by
  obtain ⟨b, hb, hrow⟩ := exists_of_mem_right (forall₂_bandsOf_written s c name) hr
  refine ⟨b, ?_, hrow⟩
  rcases List.mem_append.1 hb with hb | hb
  · exact mem_of_mem_lastBands hb
  · exact (List.mem_filter.1 hb).1

theorem row_cases_written {r : BandRow} (hr : r ∈ (s.written c name).bands) :
    (r.criteriaId = s.headerId c ∧
        ∃ b ∈ c.bands, b.WrittenAs (s.headerId c) (nextId (s.bands.map BandRow.id)) r) ∨
      r.criteriaId ≠ s.headerId c ∧ r ∈ s.bands := by
  have hr := mem_bands_iff_mem_bandsOf.1 hr
  by_cases hid : r.criteriaId = s.headerId c
  · rw [hid] at hr
    exact .inl ⟨hid, exists_writtenAs hr⟩
  · rw [bandsOf_written_of_ne hid] at hr
    exact .inr ⟨hid, mem_bands_iff_mem_bandsOf.2 hr⟩

theorem Ordered.written (hs : s.Ordered) (hc : s.Supports c) : (s.written c name).Ordered where
  headerIds := pairwise_map_putRow hs.headerIds (header_stored_or_above hc)
  bandIds := by
    have hkept : ((s.bands.filterMap (BandRow.rewritten (s.headerId c) c.bands)).map
        BandRow.id).Sublist (s.bands.map BandRow.id) :=
      map_filterMap_sublist (fun r r' h ↦ id_of_rewritten h) s.bands
    change (List.map BandRow.id (_ ++ _)).Pairwise _
    rw [List.map_append, List.pairwise_append]
    refine ⟨hs.bandIds.sublist hkept, pairwise_newRows _ _ _, fun n hn m hm ↦ ?_⟩
    obtain ⟨r, hr, rfl⟩ := List.mem_map.1 hm
    obtain ⟨b, -, k, hk, rfl⟩ := exists_toRow_of_mem_newRows hr
    exact (lt_nextId (hkept.subset hn)).trans_le hk

end Bands

section Links

theorem reserves_of_stored {id : Int} (hid : c.id = some id) : s.Reserves c := by
  constructor <;> rw [headerId_eq hid, hid] <;> rfl

theorem mem_addedIds_iff {n : Int} :
    n ∈ s.addedIds c ↔ n ∈ c.productIds ∧ n ∉ s.linkedIds c.id := by
  simp only [addedIds, mem_ascending, List.mem_filter, Bool.not_eq_true', List.contains_eq_mem,
    decide_eq_false_iff_not]

theorem mem_keptLinks_iff {l : Link} :
    l ∈ s.keptLinks c ↔
      l ∈ s.links ∧
        (l.criteriaId = s.headerId c → l.productId ∈ s.linkedIds c.id → l.productId ∈ c.productIds) := by
  simp only [keptLinks, List.mem_filter, Bool.or_eq_true, bne_iff_ne, List.contains_eq_mem,
    decide_eq_true_eq, Bool.not_eq_true', decide_eq_false_iff_not]
  refine and_congr_right fun _ ↦ ?_
  tauto

theorem mem_links_written_iff {l : Link} :
    l ∈ (s.written c name).links ↔
      l ∈ s.keptLinks c ∨ l.criteriaId = s.headerId c ∧ l.productId ∈ s.addedIds c := by
  change l ∈ s.keptLinks c ++ _ ↔ _
  rw [List.mem_append, List.mem_map]
  refine or_congr_right ⟨?_, ?_⟩
  · intro h
    obtain ⟨n, hn, rfl⟩ := h
    exact ⟨rfl, hn⟩
  · intro h
    obtain ⟨hid, hn⟩ := h
    refine ⟨_, hn, ?_⟩
    rw [← hid]

theorem Reserves.map_id_productsOf_written (hr : s.Reserves c) (hc : s.Supports c) (name : String) :
    ((s.written c name).productsOf (s.headerId c)).map Product.id = ascending c.productIds := by
  apply eq_ascending_of_mem_iff (pairwise_productsOf _ _)
  intro n
  have hlinked : n ∈ s.linkedIds c.id ↔ n ∈ s.linkedTo (s.headerId c) ∧ ∃ p ∈ s.products, p.id = n := by
    rw [← hr.products, mem_map_id_productsOf_iff]
  rw [mem_map_id_productsOf_iff, mem_linkedTo_iff]
  change (_ ∧ ∃ p ∈ s.products, p.id = n) ↔ _
  constructor
  · rintro ⟨⟨l, hl, hid, rfl⟩, hp⟩
    rcases mem_links_written_iff.1 hl with hl | ⟨-, hn⟩
    · obtain ⟨hl, hkept⟩ := mem_keptLinks_iff.1 hl
      exact hkept hid (hlinked.2 ⟨mem_linkedTo_iff.2 ⟨l, hl, hid, rfl⟩, hp⟩)
    · exact (mem_addedIds_iff.1 hn).1
  · intro hn
    obtain ⟨p, hp⟩ := hc.products n hn
    refine ⟨?_, p, mem_and_id_of_getRow hp⟩
    by_cases hold : n ∈ s.linkedIds c.id
    · obtain ⟨l, hl, hid, rfl⟩ := mem_linkedTo_iff.1 (hlinked.1 hold).1
      exact ⟨l, mem_links_written_iff.2 (.inl (mem_keptLinks_iff.2 ⟨hl, fun _ _ ↦ hn⟩)), hid, rfl⟩
    · exact ⟨⟨s.headerId c, n⟩,
        mem_links_written_iff.2 (.inr ⟨rfl, mem_addedIds_iff.2 ⟨hn, hold⟩⟩), rfl, rfl⟩

end Links

theorem criteria_written_of_ne {h : Header} (hid : h.id ≠ s.headerId c) :
    (s.written c name).criteria h = s.criteria h := by
  refine criteria_congr rfl rfl (bandsOf_written_of_ne hid) ?_
  have hadded : ((s.addedIds c).map fun n ↦ (⟨s.headerId c, n⟩ : Link)).filter
      (fun l ↦ l.criteriaId == h.id) = [] := by
    refine List.filter_eq_nil_iff.2 fun l hl he ↦ hid ?_
    obtain ⟨n, -, rfl⟩ := List.mem_map.1 hl
    exact (beq_iff_eq.1 he).symm
  change List.filter _ (s.keptLinks c ++ _) = _
  rw [List.filter_append, hadded, List.append_nil, keptLinks, List.filter_filter]
  apply List.filter_congr
  intro l _
  by_cases hl : l.criteriaId = h.id
  · simp [hl, hid]
  · simp [hl]

/-- Bands and links belong to criteria, and what they refer to is there. -/
structure Intact (s : Store) : Prop extends s.Ordered where
  owned : ∀ r ∈ s.bands, ∃ h ∈ s.headers, h.id = r.criteriaId
  readable : s.Readable
  linkOwned : ∀ l ∈ s.links, ∃ h ∈ s.headers, h.id = l.criteriaId
  linkBacked : ∀ l ∈ s.links, ∃ p, s.product l.productId = .ok p

namespace Intact

theorem linkedIds_eq (hs : s.Intact) (hc : s.Supports c) :
    s.linkedIds c.id = s.linkedTo (s.headerId c) := by
  rcases headerId_stored_or_new hc with ⟨id, h, hid, -, -, hheader⟩ | ⟨hid, hnew⟩
  · rw [hheader, hid]
    exact map_id_productsOf hs.linkBacked id
  · have hnone : s.linkedTo (s.headerId c) = [] := by
      rw [List.eq_nil_iff_forall_not_mem]
      intro n hn
      obtain ⟨l, hl, hlid, -⟩ := mem_linkedTo_iff.1 hn
      obtain ⟨h, hh, hhid⟩ := hs.linkOwned l hl
      exact (hnew h hh).ne (hhid.trans hlid)
    rw [hnone, hid]
    rfl

theorem reserves (hs : s.Intact) (hc : s.Supports c) : s.Reserves c where
  bands := by
    rcases headerId_stored_or_new hc with ⟨id, h, hid, -, -, hheader⟩ | ⟨hid, hnew⟩
    · rw [hheader, hid]
      rfl
    · have hnone : s.bandsOf (s.headerId c) = [] := by
        apply List.filter_eq_nil_iff.2
        intro r hr he
        obtain ⟨h, hh, hhid⟩ := hs.owned r hr
        exact (hnew h hh).ne (hhid.trans (beq_iff_eq.1 he))
      rw [hnone, hid]
      rfl
  products := by rw [map_id_productsOf hs.linkBacked, hs.linkedIds_eq hc]

theorem mem_keptLinks_iff (hs : s.Intact) (hc : s.Supports c) {l : Link} :
    l ∈ s.keptLinks c ↔
      l ∈ s.links ∧ (l.criteriaId = s.headerId c → l.productId ∈ c.productIds) := by
  rw [Store.mem_keptLinks_iff, hs.linkedIds_eq hc]
  refine and_congr_right fun hl ↦ ⟨fun h hid ↦ ?_, fun h hid _ ↦ h hid⟩
  exact h hid (mem_linkedTo_iff.2 ⟨l, hl, hid, rfl⟩)

theorem exists_of_productTaken (hs : s.Intact) (hc : s.Supports c) (h : s.ProductTaken c) :
    ∃ n ∈ c.productIds, ∃ l ∈ s.links, l.productId = n ∧ l.criteriaId ≠ s.headerId c := by
  obtain ⟨n, hn, l, hl, rfl⟩ := h
  obtain ⟨hwanted, hnew⟩ := mem_addedIds_iff.1 hn
  rw [hs.linkedIds_eq hc] at hnew
  obtain ⟨hl, -⟩ := (hs.mem_keptLinks_iff hc).1 hl
  exact ⟨_, hwanted, l, hl, rfl, fun hid ↦ hnew (mem_linkedTo_iff.2 ⟨l, hl, hid, rfl⟩)⟩

theorem written (hs : s.Intact) (hc : s.Supports c) : (s.written c name).Intact where
  toOrdered := hs.toOrdered.written hc
  owned := by
    intro r hr
    rcases row_cases_written hr with ⟨hid, -⟩ | ⟨-, hr⟩
    · exact ⟨_, hs.mem_headers_written_iff.2 (.inl rfl), hid.symm⟩
    · obtain ⟨h, hh, hid⟩ := hs.owned r hr
      obtain ⟨h', hh', hid'⟩ := hs.exists_header_written hh
      exact ⟨h', hh', hid'.trans hid⟩
  readable := by
    intro r hr
    rw [(s.agrees_written c name).category_eq]
    rcases row_cases_written hr with ⟨-, b, hb, hrow, -⟩ | ⟨-, hr⟩
    · rw [hrow]
      exact (hc.backed b hb).category
    · exact hs.readable r hr
  linkOwned := by
    intro l hl
    rcases mem_links_written_iff.1 hl with hl | ⟨hid, -⟩
    · obtain ⟨h, hh, hid⟩ := hs.linkOwned l (Store.mem_keptLinks_iff.1 hl).1
      obtain ⟨h', hh', hid'⟩ := hs.exists_header_written hh
      exact ⟨h', hh', hid'.trans hid⟩
    · exact ⟨_, hs.mem_headers_written_iff.2 (.inl rfl), hid.symm⟩
  linkBacked := by
    intro l hl
    rw [(s.agrees_written c name).product_eq]
    rcases mem_links_written_iff.1 hl with hl | ⟨-, hn⟩
    · exact hs.linkBacked l (Store.mem_keptLinks_iff.1 hl).1
    · exact hc.products _ (mem_addedIds_iff.1 hn).1

end Intact

end Store
end Provisioning
