import Provisioning.Proofs.Band.Entry
import Mathlib.Data.List.Sort

namespace Provisioning

theorem ascending_congr {ns ms : List Int} (h : ∀ n, n ∈ ns ↔ n ∈ ms) : ascending ns = ascending ms := by
  apply (pairwise_ascending ns).eq_of_mem_iff (pairwise_ascending ms)
  intro n
  rw [mem_ascending, mem_ascending, h]

theorem eq_ascending_of_mem_iff {ns ms : List Int} (hns : ns.Pairwise (· < ·))
    (h : ∀ n, n ∈ ns ↔ n ∈ ms) : ns = ascending ms := by
  apply hns.eq_of_mem_iff (pairwise_ascending ms)
  intro n
  rw [mem_ascending, h]

def BandRow.toBand (s : Store) (r : BandRow) : Band where
  id := some r.id
  categoryId := r.categoryId
  categoryName := s.categoryName r.categoryId
  minAge := r.minAge
  maxAge := r.maxAge
  percentage := r.percentage
  liability := r.liability
  expense := r.expense

namespace Store

variable {s t : Store} {h : Header} {id : Int}

def criteria (s : Store) (h : Header) : Criteria :=
  ⟨some h.id, h.name, (s.bandsOf h.id).map (BandRow.toBand s), s.productsOf h.id⟩

def Readable (s : Store) : Prop := ∀ r ∈ s.bands, ∃ c, s.category r.categoryId = .ok c

theorem readBand_eq {r : BandRow} (hr : ∃ c, s.category r.categoryId = .ok c) :
    s.readBand r = .ok (r.toBand s) := by
  obtain ⟨c, hc⟩ := hr
  have hfind := (category_eq_ok_iff.1 hc).2
  simp only [readBand, hfind, BandRow.toBand, categoryName_eq hc]

/-- Only the categories of its own bands matter to a criteria. -/
theorem read_eq_of_bands (hbands : ∀ r ∈ s.bandsOf h.id, ∃ c, s.category r.categoryId = .ok c) :
    s.read h = .ok (s.criteria h) := by
  rw [read, mapM_except_eq_ok fun r hr ↦ readBand_eq (hbands r hr)]
  rfl

theorem read_eq (hs : s.Readable) (h : Header) : s.read h = .ok (s.criteria h) :=
  read_eq_of_bands fun r hr ↦ hs r (List.mem_filter.1 hr).1

theorem category_of_readBand {r : BandRow} {b : Band} (hr : inWord r.categoryId = true)
    (h : s.readBand r = .ok b) : ∃ c, s.category r.categoryId = .ok c := by
  rw [readBand] at h
  split at h
  · cases h
  · exact ⟨_, category_eq_ok_iff.2 ⟨hr, ‹_›⟩⟩

theorem categories_of_read {c : Criteria} (hword : ∀ r ∈ s.bandsOf h.id, inWord r.categoryId = true)
    (hread : s.read h = .ok c) : ∀ r ∈ s.bandsOf h.id, ∃ k, s.category r.categoryId = .ok k := by
  intro r hr
  obtain ⟨bs, hbs, -⟩ := bind_eq_ok_iff.1 hread
  obtain ⟨b, hb⟩ := exists_of_mapM_eq_ok hbs r hr
  exact category_of_readBand (hword r hr) hb

theorem all_eq (hs : s.Readable) : s.all = .ok (s.headers.map s.criteria) :=
  mapM_except_eq_ok fun h _ ↦ read_eq hs h

theorem get_eq_ok_iff (hs : s.Readable) {c : Criteria} :
    s.get id = .ok c ↔ ∃ h, getRow Header.id s.headers .criteria id = .ok h ∧ c = s.criteria h := by
  rw [get, bind_eq_ok_iff]
  simp only [read_eq hs, Except.ok.injEq, eq_comm]

theorem criteria_congr (hcategories : t.categories = s.categories) (hproducts : t.products = s.products)
    (hbands : t.bandsOf h.id = s.bandsOf h.id)
    (hlinks : t.links.filter (fun l ↦ l.criteriaId == h.id) =
      s.links.filter fun l ↦ l.criteriaId == h.id) :
    t.criteria h = s.criteria h := by
  have hname (n : Int) : t.categoryName n = s.categoryName n := by
    simp only [categoryName, category, hcategories]
  have hband : BandRow.toBand t = BandRow.toBand s := by
    funext r
    simp only [BandRow.toBand, hname]
  simp only [criteria, hband, hbands, productsOf, hlinks, hproducts]

def linkedTo (s : Store) (id : Int) : List Int :=
  ascending ((s.links.filter fun l ↦ l.criteriaId == id).map Link.productId)

theorem mem_linkedTo_iff {n : Int} :
    n ∈ s.linkedTo id ↔ ∃ l ∈ s.links, l.criteriaId = id ∧ l.productId = n := by
  simp only [linkedTo, mem_ascending, List.mem_map, List.mem_filter, beq_iff_eq, and_assoc]

theorem productsOf_eq (s : Store) (id : Int) :
    s.productsOf id = (s.linkedTo id).filterMap fun n ↦ s.products.find? fun p ↦ p.id == n := rfl

theorem pairwise_productsOf (s : Store) (id : Int) :
    ((s.productsOf id).map Product.id).Pairwise (· < ·) := by
  have hfind (n : Int) (p : Product) (h : (s.products.find? fun p ↦ p.id == n) = some p) : p.id = n :=
    (mem_and_id_of_find? h).2
  have hsub := map_filterMap_sublist hfind (s.linkedTo id)
  rw [List.map_id'] at hsub
  exact (pairwise_ascending _).sublist hsub

theorem mem_map_id_productsOf_iff {n : Int} :
    n ∈ (s.productsOf id).map Product.id ↔ n ∈ s.linkedTo id ∧ ∃ p ∈ s.products, p.id = n := by
  rw [productsOf_eq, List.mem_map]
  constructor
  · rintro ⟨p, hp, rfl⟩
    obtain ⟨n, hn, hfind⟩ := List.mem_filterMap.1 hp
    obtain ⟨hmem, rfl⟩ := mem_and_id_of_find? hfind
    exact ⟨hn, p, hmem, rfl⟩
  · rintro ⟨hn, p, hp, rfl⟩
    have hfound : (s.products.find? fun q ↦ q.id == p.id).isSome = true :=
      List.find?_isSome.2 ⟨p, hp, beq_self_eq_true _⟩
    obtain ⟨q, hq⟩ := Option.isSome_iff_exists.1 hfound
    exact ⟨q, List.mem_filterMap.2 ⟨p.id, hn, hq⟩, (mem_and_id_of_find? hq).2⟩

theorem map_id_productsOf (h : ∀ l ∈ s.links, ∃ p, s.product l.productId = .ok p) (id : Int) :
    (s.productsOf id).map Product.id = s.linkedTo id := by
  apply map_id_filterMap_find?
  intro n hn
  obtain ⟨l, hl, -, rfl⟩ := mem_linkedTo_iff.1 hn
  obtain ⟨p, hp⟩ := h l hl
  have hmem : p ∈ s.products := List.mem_of_find?_eq_some (product_eq_ok_iff.1 hp).2
  exact id_of_product_eq_ok hp ▸ List.mem_map_of_mem hmem

theorem product_eq_ok_of_mem_productsOf (h : ∀ l ∈ s.links, ∃ p, s.product l.productId = .ok p)
    {p : Product} (hp : p ∈ s.productsOf id) : s.product p.id = .ok p := by
  obtain ⟨n, hn, hfind⟩ := List.mem_filterMap.1 hp
  obtain ⟨l, hl, -, rfl⟩ := mem_linkedTo_iff.1 hn
  obtain ⟨q, hq⟩ := h l hl
  have hqp : q = p := Option.some.inj ((product_eq_ok_iff.1 hq).2.symm.trans hfind)
  rw [← hqp, id_of_product_eq_ok hq]
  exact hq

end Store
end Provisioning
