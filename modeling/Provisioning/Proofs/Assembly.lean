import Provisioning.Proofs.Assembly.Lookups
import Provisioning.Proofs.Band.Entry

namespace Provisioning

namespace Store

variable {s : Store}

theorem directory_keyed (s : Store) : s.directory.Keyed := fun _ _ h ↦ id_of_product_eq_ok h

theorem validate_eq_ok_iff {e : Request.BandEntry} {others : List Band} {b : Band} :
    (s.directory.validate e.newRequest others).answer = .ok b ↔
      e.Acceptable s ∧ b = e.newBand s ∧ b.checkNoOverlap others = .ok () := by
  rw [Directory.validate_eq_ok_iff]
  constructor
  · intro h
    obtain ⟨k, l, x, hk, hl, hx, hb, hfree⟩ := h
    obtain ⟨hacc, hb⟩ := (Request.BandEntry.describes_iff hk hl hx).1 hb
    exact ⟨hacc, hb, hfree⟩
  · intro h
    obtain ⟨hacc, hb, hfree⟩ := h
    obtain ⟨k, hk⟩ := hacc.category
    obtain ⟨l, hl, -⟩ := hacc.liability
    obtain ⟨x, hx, -⟩ := hacc.expense
    exact ⟨k, l, x, hk, hl, hx, (Request.BandEntry.describes_iff hk hl hx).2 ⟨hacc, hb⟩, hfree⟩

theorem builds_iff {es : List Request.BandEntry} {bs : List Band} :
    s.directory.Builds es bs ↔ (∀ e ∈ es, e.Acceptable s) ∧
      (es.map (Request.BandEntry.newBand s)).Pairwise Band.Disjoint ∧
        bs = es.map (Request.BandEntry.newBand s) := by
  have halone : List.Forall₂ (fun e b ↦ (s.directory.validate e.newRequest []).answer = .ok b) es bs ↔
      (∀ e ∈ es, e.Acceptable s) ∧ bs = es.map (Request.BandEntry.newBand s) := by
    simp only [validate_eq_ok_iff, Band.checkNoOverlap_nil, and_true, List.forall₂_and_left]
    rw [eq_comm, ← List.forall₂_eq_eq_eq, List.forall₂_map_left_iff]
    simp only [eq_comm]
  have htogether (hacc : ∀ e ∈ es, e.Acceptable s) :
      checkBands (es.map (Request.BandEntry.newBand s)) = .ok () ↔
        (es.map (Request.BandEntry.newBand s)).Pairwise Band.Disjoint := by
    have hids : bandIds (es.map (Request.BandEntry.newBand s)) = [] := by
      apply List.filterMap_eq_nil_iff.2
      intro b hb
      obtain ⟨e, -, rfl⟩ := List.mem_map.1 hb
      rfl
    apply checkBands_eq_ok_iff_disjoint
    · simp [hids]
    · intro b hb
      obtain ⟨e, he, rfl⟩ := List.mem_map.1 hb
      exact (hacc e he).ages.2
  constructor
  · intro h
    obtain ⟨hacc, rfl⟩ := halone.1 h.alone
    exact ⟨hacc, (htogether hacc).1 h.together, rfl⟩
  · intro h
    obtain ⟨hacc, hpair, rfl⟩ := h
    exact ⟨halone.2 ⟨hacc, rfl⟩, (htogether hacc).2 hpair⟩

theorem findProducts_eq_ok_iff {ids : List Int} {ps : List Product} :
    (s.directory.findProducts ids).answer = .ok ps ↔
      ps.map Product.id = ids ∧ ∀ p ∈ ps, s.product p.id = .ok p := by
  rw [Directory.findProducts_eq_ok_iff, s.directory_keyed.forall₂_product_iff]
  rfl

/-- Everything that a request for a new criteria has to obey but for what the store holds already. -/
structure Assembles (s : Store) (r : Request.NewCriteria) : Prop where
  name : ProperName r.name
  nonempty : r.bands ≠ []
  entries : ∀ e ∈ r.bands, e.Acceptable s
  disjoint : (r.bands.map (Request.BandEntry.newBand s)).Pairwise Band.Disjoint
  products : ∀ n ∈ r.productIds, ∃ p, s.product n = .ok p

theorem assemble_eq_ok_iff {r : Request.NewCriteria} {c : Criteria} :
    (s.directory.assemble r).answer = .ok c ↔
      s.Assembles r ∧ ∃ ps, c = ⟨none, r.name, r.bands.map (Request.BandEntry.newBand s), ps⟩ ∧
        ps.map Product.id = r.productIds.eraseDups ∧ ∀ p ∈ ps, s.product p.id = .ok p := by
  simp only [s.directory_keyed.assemble_eq_ok_iff, builds_iff]
  constructor
  · intro h
    obtain ⟨⟨hname, hne⟩, _, ps, rfl, ⟨hacc, hpair, rfl⟩, hids, hps⟩ := h
    refine ⟨⟨hname, hne, hacc, hpair, fun n hn ↦ ?_⟩, ps, rfl, hids, hps⟩
    exact s.directory_keyed.exists_products_iff.1 ⟨ps, hids, hps⟩ n (List.mem_eraseDups.2 hn)
  · intro h
    obtain ⟨hr, ps, rfl, hids, hps⟩ := h
    exact ⟨⟨hr.name, hr.nonempty⟩, _, ps, rfl, ⟨hr.entries, hr.disjoint, rfl⟩, hids, hps⟩

theorem exists_products (ids : List Int) (h : ∀ n ∈ ids, ∃ p, s.product n = .ok p) :
    ∃ ps : List Product, ps.map Product.id = ids ∧ ∀ p ∈ ps, s.product p.id = .ok p :=
  s.directory_keyed.exists_products_iff.2 h

end Store
end Provisioning
