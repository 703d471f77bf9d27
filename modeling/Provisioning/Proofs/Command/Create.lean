import Provisioning.Proofs.Command.Run
import Provisioning.Proofs.Request
import Provisioning.Proofs.Schema
import Provisioning.Proofs.Store.ReadBack

namespace Provisioning

namespace Request

/-- The ages of the entry are integers that the store takes. -/
def BandEntry.AgesFit (e : BandEntry) : Prop := inWord e.minAge = true ∧ inWord e.maxAge = true

structure NewCriteria.Valid (s : Store) (r : NewCriteria) : Prop where
  name : NotBlank r.name
  entries : ∀ e ∈ r.bands, e.Acceptable s
  disjoint : (r.bands.map (BandEntry.newBand s)).Pairwise Band.Disjoint
  products : ∀ n ∈ r.productIds, ∃ p, s.product n = .ok p

/-- The criteria is what was asked for, with bands that have ids of their own. -/
structure NewCriteria.CreatedAs (s : Store) (r : NewCriteria) (c : Criteria) : Prop where
  name : c.name = r.name
  bands : List.Forall₂ (Band.StoredAs (s.bands.map BandRow.id)) (r.bands.map (BandEntry.newBand s))
    c.bands
  distinct : (bandIds c.bands).Nodup
  products : c.products.map Product.id = ascending r.productIds
  resolved : ∀ p ∈ c.products, s.product p.id = .ok p

variable {s : Store} {r : NewCriteria} {payload : Value} {origin : Origin}

theorem NewCriteria.assembles_iff (hread : NewCriteria.read origin payload = .ok r) :
    s.Assembles r ↔ r.Valid s := by
  obtain ⟨hlength, hnonempty⟩ := NewCriteria.bounds_of_read hread
  constructor
  · intro h
    exact ⟨h.name.1, h.entries, h.disjoint, h.products⟩
  · intro h
    exact ⟨⟨h.name, hlength⟩, hnonempty, h.entries, h.disjoint, h.products⟩

end Request

namespace Store

variable {s t : Store} {r : Request.NewCriteria} {c : Criteria} {payload : Value}

theorem create_eq_close (hread : Request.NewCriteria.read .call payload = .ok r) :
    s.create payload none = .close .create s (some r.name) ((createFrom none r).run s) := by
  rw [create, hread]

theorem exists_read_of_create {fault : Option Fault} {res : CommandResult}
    (h : (s.create payload fault).answer = .ok res) :
    ∃ r, Request.NewCriteria.read .call payload = .ok r := by
  rw [create] at h
  split at h
  · cases h
  · exact ⟨_, ‹_›⟩

theorem run_createFrom_of_ok {h : Header} (hc : (s.directory.assemble r).answer = .ok c)
    (hwrite : (write c.snapshot).run s = (.ok h, t)) :
    (createFrom none r).run s = (.ok ⟨h.id, .empty⟩, t) := by
  rw [createFrom, Transaction.run_current_bind, Transaction.run_ofExcept_bind_of_ok hc,
    Transaction.run_bind_of_ok (run_reach_none .save), Transaction.run_bind_of_ok hwrite,
    Transaction.run_bind_of_ok (run_reach_none .commit), Transaction.run_pure]

theorem run_createFrom_of_error {e : Failure} (hc : (s.directory.assemble r).answer = .ok c)
    (hwrite : (write c.snapshot).run s = (.error e, t)) :
    (createFrom none r).run s = (.error e, t) := by
  rw [createFrom, Transaction.run_current_bind, Transaction.run_ofExcept_bind_of_ok hc,
    Transaction.run_bind_of_ok (run_reach_none .save), Transaction.run_bind_of_error hwrite]

theorem Ordered.create_eq_ok_iff (hs : s.Ordered) (hread : Request.NewCriteria.read .call payload = .ok r)
    {res : CommandResult} :
    ((s.create payload none).answer = .ok res ∧ (s.create payload none).store = t) ↔
      ∃ c, (s.directory.assemble r).answer = .ok c ∧
        ((∀ b ∈ c.bands, b.fits = true) ∧ ¬ s.NameTaken (s.headerId c.snapshot) c.name ∧
          ¬ s.ProductTaken c.snapshot) ∧
        res = ⟨s.headerId c.snapshot, .empty⟩ ∧ t = s.written c.snapshot c.name := by
  rw [create_eq_close hread]
  constructor
  · rintro ⟨hok, hstore⟩
    obtain ⟨u, hwork⟩ := Report.close_answer_eq_ok_iff.1 hok
    obtain ⟨c, q, hc, hwrite, rfl⟩ := createFrom_eq_ok hwork
    obtain ⟨hfree, rfl, rfl⟩ := (run_write_eq_ok_iff (hs.supports (sound_of_assemble hc)) rfl).1 hwrite
    rw [hwork, Report.close_of_ok.2] at hstore
    exact ⟨c, hc, hfree, rfl, hstore.symm⟩
  · rintro ⟨c, hc, hfree, rfl, rfl⟩
    have hname : c.snapshot.name = some c.name := rfl
    have hwrite := (run_write_eq_ok_iff (hs.supports (sound_of_assemble hc)) hname).2 ⟨hfree, rfl, rfl⟩
    rw [run_createFrom_of_ok hc hwrite]
    exact Report.close_of_ok

theorem kind_ofRule_name :
    (Violation.ofRule (.unique [.ofCriteria "criteria_name"])).kind = .criteriaName :=
  (Violation.kind_ofRule_eq_criteriaName_iff (by decide)).2 (List.mem_singleton_self _)

theorem kind_ofRule_product :
    (Violation.ofRule (.unique [.ofLink "product_id"])).kind = .productAssociation :=
  (Violation.kind_ofRule_eq_productAssociation_iff (by decide)).2
    ⟨by decide, List.mem_singleton_self _⟩

theorem fits_iff_of_assemble (hc : (s.directory.assemble r).answer = .ok c) :
    (∀ b ∈ c.bands, b.fits = true) ↔ ∀ e ∈ r.bands, e.AgesFit := by
  have hsound := sound_of_assemble hc
  obtain ⟨-, ps, rfl, -⟩ := assemble_eq_ok_iff.1 hc
  constructor
  · intro h e he
    have hmem := List.mem_map_of_mem (f := Request.BandEntry.newBand s) he
    exact (hsound.bands _ hmem).fits_iff.1 (h _ hmem)
  · intro h b hb
    obtain ⟨e, he, rfl⟩ := List.mem_map.1 hb
    exact (hsound.bands _ hb).fits_iff.2 (h e he)

theorem exists_assemble_of_valid (hread : Request.NewCriteria.read .call payload = .ok r)
    (hr : r.Valid s) : ∃ c, (s.directory.assemble r).answer = .ok c := by
  have hassembles := (Request.NewCriteria.assembles_iff hread).2 hr
  obtain ⟨ps, hps⟩ := exists_products r.productIds.eraseDups fun n hn ↦
    hr.products n (List.mem_eraseDups.1 hn)
  exact ⟨_, assemble_eq_ok_iff.2 ⟨hassembles, ps, rfl, hps⟩⟩

section Assembled

variable (hs : s.Consistent) (hc : (s.directory.assemble r).answer = .ok c)

include hs hc

theorem Consistent.others_headerId :
    others (s.headerId c.snapshot) (s.headers.map s.criteria) = s.headers.map s.criteria := by
  apply List.filter_eq_self.2
  intro d hd
  apply bne_iff_ne.2
  intro he
  obtain ⟨h, hh, rfl⟩ := List.mem_map.1 hd
  rcases headerId_stored_or_new (hs.supports (sound_of_assemble hc)) with
    ⟨id, -, hsome, -⟩ | ⟨-, hnew⟩
  · obtain ⟨-, ps, rfl, -⟩ := assemble_eq_ok_iff.1 hc
    cases hsome
  · exact (hnew h hh).ne (Option.some.inj he)

theorem Consistent.nameFree_iff_of_assemble :
    NameFree (s.headers.map s.criteria) r.name ↔ ¬ s.NameTaken (s.headerId c.snapshot) c.name := by
  rw [← nameFree_others_iff, hs.others_headerId hc]
  obtain ⟨-, ps, rfl, -⟩ := assemble_eq_ok_iff.1 hc
  exact Iff.rfl

theorem Consistent.productsFree_iff_of_assemble :
    ProductsFree (s.headers.map s.criteria) r.productIds ↔ ¬ s.ProductTaken c.snapshot := by
  rw [← hs.productsFree_others_iff (sound_of_assemble hc), hs.others_headerId hc]
  obtain ⟨-, ps, rfl, hids, -⟩ := assemble_eq_ok_iff.1 hc
  apply productsFree_congr
  intro n
  rw [hids]
  exact List.mem_eraseDups.symm

end Assembled

theorem Consistent.create_answer_eq_ok_iff (hs : s.Consistent)
    (hread : Request.NewCriteria.read .call payload = .ok r) :
    (∃ res, (s.create payload none).answer = .ok res) ↔
      r.Valid s ∧ (∀ e ∈ r.bands, e.AgesFit) ∧ NameFree (s.headers.map s.criteria) r.name ∧
        ProductsFree (s.headers.map s.criteria) r.productIds := by
  simp only [create_eq_close hread, Report.close_answer_eq_ok_iff]
  constructor
  · intro h
    obtain ⟨res, t, hwork⟩ := h
    obtain ⟨c, q, hc, hwrite, -⟩ := createFrom_eq_ok hwork
    have hr := (Request.NewCriteria.assembles_iff hread).1 (assemble_eq_ok_iff.1 hc).1
    obtain ⟨⟨hfits, hname, hproduct⟩, -⟩ := (hs.run_write_eq_ok_iff (sound_of_assemble hc)).1 hwrite
    exact ⟨hr, (fits_iff_of_assemble hc).1 hfits, (hs.nameFree_iff_of_assemble hc).2 hname,
      (hs.productsFree_iff_of_assemble hc).2 hproduct⟩
  · intro h
    obtain ⟨hr, hages, hname, hproduct⟩ := h
    obtain ⟨c, hc⟩ := exists_assemble_of_valid hread hr
    have hwrite := (hs.run_write_eq_ok_iff (sound_of_assemble hc)).2
      ⟨⟨(fits_iff_of_assemble hc).2 hages, (hs.nameFree_iff_of_assemble hc).1 hname,
        (hs.productsFree_iff_of_assemble hc).1 hproduct⟩, rfl, rfl⟩
    exact ⟨_, _, run_createFrom_of_ok hc hwrite⟩

theorem Consistent.create_answer_of_name_taken (hs : s.Consistent)
    (hread : Request.NewCriteria.read .call payload = .ok r) (hr : r.Valid s)
    (htaken : ¬ NameFree (s.headers.map s.criteria) r.name) :
    (s.create payload none).answer = .error (.domain (.nameTaken (some r.name))) := by
  obtain ⟨c, hc⟩ := exists_assemble_of_valid hread hr
  have hname := not_not.1 (mt (hs.nameFree_iff_of_assemble hc).2 htaken)
  have hwrite := run_write_of_name_taken (hs.supports (sound_of_assemble hc)) rfl hname
  rw [create_eq_close hread, run_createFrom_of_error hc hwrite]
  simp only [Report.close, refuse, Violation.conflict, kind_ofRule_name]

theorem Consistent.create_answer_of_product_taken (hs : s.Consistent)
    (hread : Request.NewCriteria.read .call payload = .ok r) (hages : ∀ e ∈ r.bands, e.AgesFit)
    (hr : r.Valid s) (hfree : NameFree (s.headers.map s.criteria) r.name)
    (htaken : ¬ ProductsFree (s.headers.map s.criteria) r.productIds) :
    (s.create payload none).answer = .error (.domain .productTaken) := by
  obtain ⟨c, hc⟩ := exists_assemble_of_valid hread hr
  have hname := (hs.nameFree_iff_of_assemble hc).1 hfree
  have hproduct := not_not.1 (mt (hs.productsFree_iff_of_assemble hc).2 htaken)
  have hwrite := run_write_of_product_taken (hs.supports (sound_of_assemble hc)) rfl
    ((fits_iff_of_assemble hc).2 hages) hname hproduct
  rw [create_eq_close hread, run_createFrom_of_error hc hwrite]
  simp only [Report.close, refuse, Violation.conflict, kind_ofRule_product]

theorem Consistent.create_reread (hs : s.Consistent)
    (hread : Request.NewCriteria.read .call payload = .ok r) {res : CommandResult}
    (hok : (s.create payload none).answer = .ok res) :
    ∃ c, (s.create payload none).store.all = .ok (s.headers.map s.criteria ++ [c]) ∧
      c.id = some res.resourceId ∧ (∀ d ∈ s.headers.map s.criteria, d.id ≠ some res.resourceId) ∧
      r.CreatedAs s c ∧ res.changes = .empty ∧ s.Agrees (s.create payload none).store ∧
      (inWord res.resourceId = true → (s.create payload none).store.get res.resourceId = .ok c) := by
  rw [create_eq_close hread] at hok ⊢
  obtain ⟨t, hwork⟩ := Report.close_answer_eq_ok_iff.1 hok
  obtain ⟨c, q, hc, hwrite, rfl⟩ := createFrom_eq_ok hwork
  have hsound := sound_of_assemble hc
  have hsup := hs.supports hsound
  have hothers := hs.others_headerId hc
  obtain ⟨⟨hfits, hname, hproduct⟩, rfl, rfl⟩ := (hs.run_write_eq_ok_iff hsound).1 hwrite
  have hwritten := hs.written hsound hfits hname hproduct
  rw [hwork, Report.close_of_ok.2]
  refine ⟨s.rereadAs c, hs.intact.all_written_of_new hsup ?_, rfl, ?_, ?_, rfl, s.agrees_written _ _,
    hs.ordered.get_written hsup⟩
  · obtain ⟨-, ps, rfl, -⟩ := assemble_eq_ok_iff.1 hc
    rfl
  · intro d hd
    rw [← hothers] at hd
    exact (mem_others_iff.1 hd).2
  · have hbands := hs.bands_rereadAs hsound
    have hproducts := hsup.products_rereadAs (hs.intact.reserves hsup)
    have hresolved {p : Product} (hp : p ∈ (s.rereadAs c).products) := hs.intact.product_of_mem_rereadAs hsup hp
    obtain ⟨-, ps, rfl, hids, -⟩ := assemble_eq_ok_iff.1 hc
    refine ⟨rfl, hbands, hwritten.ordered.distinct_bandIds _, ?_, fun p hp ↦ hresolved hp⟩
    refine hproducts.trans (ascending_congr fun n ↦ ?_)
    rw [hids]
    exact List.mem_eraseDups

theorem Reachable.create_spec (hs : s.Reachable)
    (hread : Request.NewCriteria.read .call payload = .ok r) (hages : ∀ e ∈ r.bands, e.AgesFit) :
    ∃ cs, s.all = .ok cs ∧
      ((∃ res, (s.create payload none).answer = .ok res) ↔
        r.Valid s ∧ NameFree cs r.name ∧ ProductsFree cs r.productIds) ∧
      (r.Valid s → ¬ NameFree cs r.name →
        (s.create payload none).answer = .error (.domain (.nameTaken (some r.name)))) ∧
      (r.Valid s → NameFree cs r.name → ¬ ProductsFree cs r.productIds →
        (s.create payload none).answer = .error (.domain .productTaken)) ∧
      ∀ res, (s.create payload none).answer = .ok res →
        ∃ c, (s.create payload none).store.all = .ok (cs ++ [c]) ∧ c.id = some res.resourceId ∧
          (∀ d ∈ cs, d.id ≠ some res.resourceId) ∧ r.CreatedAs s c ∧ res.changes = .empty ∧
          s.Agrees (s.create payload none).store ∧
          (inWord res.resourceId = true →
            (s.create payload none).store.get res.resourceId = .ok c) := by
  have hs := hs.consistent
  refine ⟨s.headers.map s.criteria, all_eq hs.readable, ?_, ?_, ?_,
    fun res hok ↦ hs.create_reread hread hok⟩
  · rw [hs.create_answer_eq_ok_iff hread, and_iff_right hages]
  · exact fun hr htaken ↦ hs.create_answer_of_name_taken hread hr htaken
  · exact fun hr hfree htaken ↦ hs.create_answer_of_product_taken hread hages hr hfree htaken

theorem create_spec_of_second :
    let s := ((Service.start Sample.store).runAll [⟨.create Sample.monthly.dump, none⟩]).2.store
    s.Reachable ∧ Request.NewCriteria.read .call Sample.weekly.dump = .ok Sample.weekly ∧
      (∀ e ∈ Sample.weekly.bands, e.AgesFit) ∧
      ∃ c, (s.create Sample.weekly.dump none).store.get 2 = .ok c ∧ Sample.weekly.CreatedAs s c := by
  intro s
  have hs : s.Reachable := ⟨Service.start Sample.store, ⟨rfl, rfl, rfl⟩, _, rfl⟩
  have hread : Request.NewCriteria.read .call Sample.weekly.dump = .ok Sample.weekly := rfl
  have hages : ∀ e ∈ Sample.weekly.bands, e.AgesFit := by
    intro e he
    rw [List.mem_singleton.1 he]
    exact ⟨rfl, rfl⟩
  have hok : (s.create Sample.weekly.dump none).answer = .ok ⟨2, .empty⟩ := rfl
  obtain ⟨cs, -, -, -, -, hsuccess⟩ := Reachable.create_spec hs hread hages
  obtain ⟨c, -, -, -, hc, -, -, hget⟩ := hsuccess ⟨2, .empty⟩ hok
  exact ⟨hs, hread, hages, c, hget rfl, hc⟩

end Store
end Provisioning
