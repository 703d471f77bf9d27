import Provisioning.Proofs.Assembly
import Provisioning.Proofs.Store.Written

namespace Provisioning

/-- The copy is what the account, which has this kind, says now. -/
def Store.Records (s : Store) (kind : AccountKind) (copy : AccountCopy) : Prop :=
  ∃ a, s.account copy.id = .ok a ∧ a.kind = kind ∧ copy = a.copy

structure Band.Sound (s : Store) (b : Band) : Prop where
  ages : 0 ≤ b.minAge ∧ b.minAge < b.maxAge
  percentage : b.percentage.IsPercentage
  category : ∃ c, s.category b.categoryId = .ok c ∧ b.categoryName = c.name
  liability : s.Records .liability b.liability
  expense : s.Records .expense b.expense

structure BandRow.Sound (s : Store) (r : BandRow) : Prop where
  band : (r.toBand s).Sound s
  scale : ∃ k : ℕ, r.percentage = .finite false k (-6)
  fits : inWord r.minAge = true ∧ inWord r.maxAge = true

structure Store.Consistent (s : Store) : Prop where
  headerIds : (s.headers.map Header.id).Pairwise (· < ·)
  names : (s.headers.map Header.name).Nodup
  properNames : ∀ h ∈ s.headers, ProperName h.name
  banded : ∀ h ∈ s.headers, ∃ r ∈ s.bands, r.criteriaId = h.id
  bandIds : (s.bands.map BandRow.id).Pairwise (· < ·)
  owned : ∀ r ∈ s.bands, ∃ h ∈ s.headers, h.id = r.criteriaId
  sound : ∀ r ∈ s.bands, r.Sound s
  disjoint : ∀ h ∈ s.headers, ((s.bandsOf h.id).map (BandRow.toBand s)).Pairwise Band.Disjoint
  linkOwned : ∀ l ∈ s.links, ∃ h ∈ s.headers, h.id = l.criteriaId
  linkBacked : ∀ l ∈ s.links, ∃ p, s.product l.productId = .ok p
  linkUnique : (s.links.map Link.productId).Nodup

structure Criteria.Lawful (s : Store) (c : Criteria) : Prop where
  name : ProperName c.name
  nonempty : c.bands ≠ []
  bands : ∀ b ∈ c.bands, b.Sound s
  disjoint : c.bands.Pairwise Band.Disjoint

/-- A criteria that may be written: it is lawful, its references are there, and its bands are those
that it has in the store and then new ones. -/
structure Criteria.Sound (s : Store) (c : Criteria) : Prop extends c.Lawful s where
  ids : ∃ n, c.bands.map Band.id = (s.ownBandIds c.id).map some ++ List.replicate n none
  products : ∀ p ∈ c.products, s.product p.id = .ok p
  stored : ∀ id, c.id = some id → ∃ h, getRow Header.id s.headers .criteria id = .ok h

theorem Band.Sound.backs {s : Store} {b : Band} (hb : b.Sound s) : s.Backs b where
  category := by
    obtain ⟨c, hc, -⟩ := hb.category
    exact ⟨c, hc⟩
  liability := by
    obtain ⟨a, ha, -⟩ := hb.liability
    obtain ⟨-, r, hr, -⟩ := Store.account_eq_ok_iff.1 ha
    exact fun _ ↦ ⟨r, mem_and_id_of_find? hr⟩
  expense := by
    obtain ⟨a, ha, -⟩ := hb.expense
    obtain ⟨-, r, hr, -⟩ := Store.account_eq_ok_iff.1 ha
    exact fun _ ↦ ⟨r, mem_and_id_of_find? hr⟩
  percentage := hb.percentage

theorem Band.Sound.fits_iff {s : Store} {b : Band} (hb : b.Sound s) :
    b.fits = true ↔ inWord b.minAge = true ∧ inWord b.maxAge = true := by
  obtain ⟨l, hl, -⟩ := hb.liability
  obtain ⟨x, hx, -⟩ := hb.expense
  simp only [Band.fits, (Store.account_eq_ok_iff.1 hl).1, (Store.account_eq_ok_iff.1 hx).1,
    Bool.and_true, Bool.and_eq_true]

theorem Band.Sound.categoryName_eq {s : Store} {b : Band} (hb : b.Sound s) :
    b.categoryName = s.categoryName b.categoryId := by
  obtain ⟨c, hc, hname⟩ := hb.category
  rw [hname, Store.categoryName_eq hc]

theorem percentage_toRow_eq {b : Band} (hb : b.percentage.IsPercentage) (id criteriaId : Int) :
    (∃ k : ℕ, k ≤ 100 * 10 ^ 6 ∧ (b.toRow id criteriaId).percentage = .finite false k (-6)) ∧
      (b.toRow id criteriaId).percentage.value? = b.percentage.value? := by
  obtain ⟨k, hk, hv⟩ := hb
  have hp : (b.toRow id criteriaId).percentage = .finite false k (-6) := by
    simp only [Band.toRow, Decimal.stored?_eq hk hv, Option.getD_some]
  refine ⟨⟨k, hk, hp⟩, ?_⟩
  rw [hp, hv, Decimal.value?_millionths]

theorem Band.Sound.toRow {s : Store} {b : Band} (hb : b.Sound s) (hfits : b.fits = true)
    (id criteriaId : Int) : (b.toRow id criteriaId).Sound s := by
  obtain ⟨⟨n, -, hscale⟩, hvalue⟩ := percentage_toRow_eq hb.percentage id criteriaId
  obtain ⟨k, hk, hv⟩ := hb.percentage
  obtain ⟨c, hc, -⟩ := hb.category
  exact {
    band := {
      ages := hb.ages
      percentage := ⟨k, hk, hvalue.trans hv⟩
      category := ⟨c, hc, Store.categoryName_eq hc⟩
      liability := hb.liability
      expense := hb.expense }
    scale := ⟨n, hscale⟩
    fits := hb.fits_iff.1 hfits }

theorem Store.HasAccount.records {s : Store} {kind : AccountKind} {id : Int}
    (h : s.HasAccount kind id) : s.Records kind (s.accountCopy id) := by
  obtain ⟨a, ha, hkind⟩ := h
  refine ⟨a, ?_, hkind, Store.accountCopy_eq ha⟩
  rw [Store.id_accountCopy]
  exact ha

theorem Request.BandEntry.Acceptable.sound {s : Store} {e : Request.BandEntry}
    (he : e.Acceptable s) (id : Option Int) : Band.Sound s { e.band s with id } where
  ages := he.ages
  percentage := he.percentage
  category := by
    obtain ⟨c, hc⟩ := he.category
    exact ⟨c, hc, Store.categoryName_eq hc⟩
  liability := he.liability.records
  expense := he.expense.records

namespace Store

variable {s : Store}

theorem Consistent.ordered (hs : s.Consistent) : s.Ordered := ⟨hs.headerIds, hs.bandIds⟩

theorem Consistent.readable (hs : s.Consistent) : s.Readable := by
  intro r hr
  obtain ⟨c, hc, -⟩ := (hs.sound r hr).band.category
  exact ⟨c, hc⟩

theorem Consistent.intact (hs : s.Consistent) : s.Intact :=
  ⟨hs.ordered, hs.owned, hs.readable, hs.linkOwned, hs.linkBacked⟩

theorem Consistent.product_of_mem (hs : s.Consistent) {id : Int} {p : Product}
    (hp : p ∈ s.productsOf id) : s.product p.id = .ok p :=
  product_eq_ok_of_mem_productsOf hs.linkBacked hp

theorem bandIds_criteria (s : Store) (h : Header) :
    Provisioning.bandIds (s.criteria h).bands = (s.bandsOf h.id).map BandRow.id := by
  rw [Provisioning.bandIds, criteria, List.filterMap_map]
  exact congrFun List.filterMap_eq_map _

theorem Ordered.nodup_ownBandIds (hs : s.Ordered) (id : Option Int) : (s.ownBandIds id).Nodup := by
  cases id with
  | none => exact .nil
  | some id => exact hs.nodup_bandIds.sublist (List.filter_sublist.map _)

theorem bandIds_of_map_id {bs : List Band} {ids : List Int}
    (h : ∃ n, bs.map Band.id = ids.map some ++ List.replicate n none) : Provisioning.bandIds bs = ids := by
  obtain ⟨n, hids⟩ := h
  rw [bandIds_eq_filterMap, hids, List.filterMap_append, List.filterMap_map]
  simp

theorem Ordered.supports (hs : s.Ordered) {c : Criteria} (hc : c.Sound s) : s.Supports c.snapshot where
  stored := hc.stored
  own b hb i hi := by
    change i ∈ s.ownBandIds c.id
    rw [← bandIds_of_map_id hc.ids]
    exact mem_bandIds_iff.2 ⟨b, hb, hi⟩
  distinct := by
    change (Provisioning.bandIds c.bands).Nodup
    rw [bandIds_of_map_id hc.ids]
    exact hs.nodup_ownBandIds c.id
  backed b hb := (hc.bands b hb).backs
  products n hn := by
    obtain ⟨p, hp, rfl⟩ := List.mem_map.1 hn
    exact ⟨p, hc.products p hp⟩

theorem Consistent.supports (hs : s.Consistent) {c : Criteria} (hc : c.Sound s) :
    s.Supports c.snapshot := hs.ordered.supports hc

theorem Consistent.criteria_lawful (hs : s.Consistent) {h : Header} (hh : h ∈ s.headers) :
    (s.criteria h).Lawful s where
  name := hs.properNames h hh
  nonempty := by
    obtain ⟨r, hr, hid⟩ := hs.banded h hh
    have hmem : r ∈ s.bandsOf h.id := List.mem_filter.2 ⟨hr, beq_iff_eq.2 hid⟩
    exact List.ne_nil_of_mem (List.mem_map_of_mem hmem)
  bands b hb := by
    obtain ⟨r, hr, rfl⟩ := List.mem_map.1 hb
    exact (hs.sound r (List.mem_filter.1 hr).1).band
  disjoint := hs.disjoint h hh

theorem Consistent.criteria_sound (hs : s.Consistent) {h : Header}
    (hget : getRow Header.id s.headers .criteria h.id = .ok h) : (s.criteria h).Sound s where
  toLawful := hs.criteria_lawful (mem_and_id_of_getRow hget).1
  ids := by
    refine ⟨0, ?_⟩
    rw [criteria, List.map_map, ownBandIds, List.map_map, List.replicate_zero, List.append_nil]
    rfl
  products p hp := hs.product_of_mem hp
  stored id hid := by
    obtain rfl : h.id = id := Option.some.inj hid
    exact ⟨h, hget⟩

end Store
end Provisioning
