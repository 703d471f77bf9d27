import Provisioning.Proofs.Command.Create
import Provisioning.Proofs.Store.Coherent

namespace Provisioning

namespace Request.Changes

structure Valid (s : Store) (r : Changes) (c : Criteria) : Prop where
  name : ∀ n, r.name.value? = some n → NotBlank n
  products : ∀ ids, r.products.value? = some ids → ∀ n ∈ ids, ∃ p, s.product n = .ok p
  entries : ∀ e ∈ r.entries, e.Applicable s (bandIds c.bands)
  disjoint : (revisedBands s r.entries c.bands).Pairwise Band.Disjoint

structure Free (r : Changes) (cs : List Criteria) : Prop where
  name : ∀ n, r.name.value? = some n → NameFree cs n
  products : ∀ ids, r.products.value? = some ids → ProductsFree cs ids

/-- `c'` is what was asked for, and what `c` says where nothing was asked for. -/
structure UpdatedTo (s : Store) (r : Changes) (c c' : Criteria) : Prop where
  id : c'.id = c.id
  name : c'.name = r.name.value?.getD c.name
  bands : List.Forall₂ (Band.StoredAs (s.bands.map BandRow.id)) (revisedBands s r.entries c.bands)
    c'.bands
  distinct : (bandIds c'.bands).Nodup
  products : c'.products.map Product.id =
    ascending (r.products.value?.getD (c.products.map Product.id))
  resolved : ∀ p ∈ c'.products, s.product p.id = .ok p

variable {s : Store} {r : Changes} {c : Criteria} {payload : Value} {origin : Origin}

theorem applicable_iff (hread : Changes.read origin payload = .ok r) :
    r.Applicable s c ↔ r.Valid s c := by
  constructor
  · intro h
    exact ⟨fun n hn ↦ (h.name n hn).1, h.products, h.entries, h.disjoint⟩
  · intro h
    exact ⟨fun n hn ↦ ⟨h.name n hn, length_of_read hread hn⟩, h.products, h.entries, h.disjoint⟩

end Request.Changes

theorem Band.Alike.storedAs_toBand {s : Store} {a : Band} {w : BandRow} {used : List Int}
    (h : a.Alike (w.toBand s)) : a.StoredAs used (w.toBand s) where
  rest := by
    rw [← h.id_eq]
    exact h.rest.symm
  value := h.value.symm
  kept i hi := h.id_eq.symm.trans hi
  fresh hnone := by cases h.id_eq.symm.trans hnone

theorem Band.Alike.fits_eq {a b : Band} (h : a.Alike b) : b.fits = a.fits := by
  rw [← h.rest]
  rfl

theorem Band.Alike.storedAs {a b b' : Band} {used : List Int} (h : a.Alike b)
    (h' : b.StoredAs used b') : a.StoredAs used b' where
  rest := h'.rest.trans (by rw [← h.rest])
  value := h'.value.trans h.value.symm
  kept i hi := h'.kept i (h.id_eq.symm.trans hi)
  fresh hnone := h'.fresh (h.id_eq.symm.trans hnone)

namespace Store

/-- How a successful update takes the store from `s` to `t`: it reads `c` and revises it to `c'`, and `d`
is read afterwards. -/
structure Updates (s t : Store) (id : Int) (r : Request.Changes) (c c' d : Criteria)
    (written : List (Option Int)) : Prop where
  before : s.get id = .ok c
  stored : ∀ b ∈ c.bands, b.id ≠ none
  distinct : (Provisioning.bandIds c.bands).Nodup
  revision : r.Revision s c c' written
  after : t.get id = .ok d
  updatedTo : r.UpdatedTo s c d
  agrees : s.Agrees t
  coherent : t.Coherent
  same : (c.changesTo c' written).isEmpty = true → d = c
  saved : (c.changesTo c' written).isEmpty = false →
    (∀ b ∈ c'.bands, b.fits = true) ∧ ¬ t.NameTaken id d.name

variable {s t : Store} {r : Request.Changes} {c c' : Criteria} {ch : ChangeSet} {id : Int}
  {payload : Value}

theorem update_eq_close (hread : Request.Changes.read .call payload = .ok r) (fault : Option Fault) :
    s.update id payload fault = .close .update s r.name.value? ((updateFrom fault id r).run s) := by
  rw [update, hread]

theorem exists_read_of_update {fault : Option Fault} {res : CommandResult}
    (h : (s.update id payload fault).answer = .ok res) :
    ∃ r, Request.Changes.read .call payload = .ok r := by
  rw [update] at h
  split at h
  · cases h
  · exact ⟨_, ‹_›⟩

theorem run_updateFrom_of_unchanged {fault : Option Fault} (hrevise : s.revise id r = .ok (c', ch))
    (hempty : ch.isEmpty = true) (hcommit : (reach fault .commit).run s = (.ok (), s)) :
    (updateFrom fault id r).run s = (.ok ⟨id, ch⟩, s) := by
  rw [updateFrom, Transaction.run_current_bind, Transaction.run_ofExcept_bind_of_ok hrevise]
  dsimp only
  rw [hempty, if_neg (by decide), Transaction.run_bind_of_ok hcommit, Transaction.run_pure]

theorem run_updateFrom_of_ok {h : Header} (hrevise : s.revise id r = .ok (c', ch))
    (hempty : ch.isEmpty = false) (hwrite : (write c'.snapshot).run s = (.ok h, t)) :
    (updateFrom none id r).run s = (.ok ⟨id, ch⟩, t) := by
  rw [updateFrom, Transaction.run_current_bind, Transaction.run_ofExcept_bind_of_ok hrevise]
  dsimp only
  rw [hempty, if_pos (by decide), Transaction.run_bind_of_ok (run_reach_none .save),
    Transaction.run_bind_of_ok hwrite, Transaction.run_bind_of_ok (run_reach_none .commit),
    Transaction.run_pure]

theorem id_of_get (hget : s.get id = .ok c) : c.id = some id := by
  obtain ⟨q, hq, hread⟩ := bind_eq_ok_iff.1 hget
  obtain ⟨bands, -, hread⟩ := bind_eq_ok_iff.1 hread
  rw [← Except.ok.inj hread]
  exact congrArg some (mem_and_id_of_getRow hq).2

theorem inWord_of_get (hget : s.get id = .ok c) : inWord id = true := by
  obtain ⟨q, hq, -⟩ := bind_eq_ok_iff.1 hget
  exact (getRow_eq_ok_iff.1 hq).1

section Coherent

variable {written : List (Option Int)} {fault : Option Fault} {res : CommandResult}

/-- A success leaves the store as it was if nothing differs, and else with the revised criteria
written. -/
theorem Coherent.update_eq_ok (hs : s.Coherent) (hread : Request.Changes.read .call payload = .ok r)
    (hok : (s.update id payload fault).answer = .ok res) :
    ∃ c c' written, s.get id = .ok c ∧ r.Revision s c c' written ∧
      s.revise id r = .ok (c', c.changesTo c' written) ∧ res = ⟨id, c.changesTo c' written⟩ ∧
      ((c.changesTo c' written).isEmpty = true ∧ c' = c ∧ (s.update id payload fault).store = s ∨
        (c.changesTo c' written).isEmpty = false ∧
          ((∀ b ∈ c'.bands, b.fits = true) ∧ ¬ s.NameTaken (s.headerId c'.snapshot) c'.name ∧
            ¬ s.ProductTaken c'.snapshot) ∧
          (s.update id payload fault).store = s.written c'.snapshot c'.name) := by
  rw [update_eq_close hread] at hok ⊢
  obtain ⟨t, hwork⟩ := Report.close_answer_eq_ok_iff.1 hok
  obtain ⟨c', ch, hrevise, rfl, hdone⟩ := updateFrom_eq_ok hwork
  obtain ⟨c, hget⟩ := get_eq_ok_of_revise hrevise
  obtain ⟨written, hrevision, rfl, hsame⟩ := revision_of_revise hget (hs.distinct_of_get hget) hrevise
  refine ⟨c, c', written, hget, hrevision, hrevise, rfl, ?_⟩
  rw [hwork, Report.close_of_ok.2]
  rcases hdone with ⟨hempty, rfl⟩ | ⟨hsome, q, hwrite⟩
  · exact .inl ⟨hempty, hsame hempty, rfl⟩
  · obtain ⟨hfree, -, rfl⟩ := (run_write_eq_ok_iff (hs.supports_of_revision hget hrevision) rfl).1 hwrite
    exact .inr ⟨hsome, hfree, rfl⟩

theorem Coherent.updatedTo_of_unchanged (hs : s.Coherent) (hget : s.get id = .ok c)
    (hrevises : r.Revises s c c) : r.UpdatedTo s c c := by
  obtain ⟨q, -, rfl, -⟩ := hs.exists_of_get hget
  refine ⟨rfl, hrevises.name, ?_, hs.distinct_bandIds q, ?_, fun p hp ↦ hs.product_of_get hget hp⟩
  · refine List.forall₂_map_right_iff.2 ?_
    exact (List.forall₂_map_right_iff.1 hrevises.bands).imp fun a w haw ↦ haw.storedAs_toBand
  · exact eq_ascending_of_mem_iff (pairwise_productsOf s q.id) hrevises.products

theorem Coherent.get_written_of_revision (hs : s.Coherent) (hget : s.get id = .ok c)
    (h : r.Revision s c c' written) :
    (s.written c'.snapshot c'.name).get id = .ok (s.rereadAs c') := by
  have hheader : s.headerId c'.snapshot = id := headerId_eq (h.id.trans (id_of_get hget))
  have hget' := hs.get_written (hs.supports_of_revision hget h) (hheader ▸ inWord_of_get hget)
  rw [hheader] at hget'
  exact hget'

theorem Coherent.categoryName_of_revision (hs : s.Coherent) (hget : s.get id = .ok c)
    (h : r.Revision s c c' written) {b : Band} (hb : b ∈ c'.bands) :
    b.categoryName = s.categoryName b.categoryId := by
  obtain ⟨a, ha, hab⟩ := exists_of_mem_right h.bands hb
  rw [← hab.rest]
  rcases mem_revisedBands ha with ha | ⟨e, -, rfl⟩
  · obtain ⟨q, -, rfl, -⟩ := hs.exists_of_get hget
    obtain ⟨w, -, rfl⟩ := List.mem_map.1 ha
    rfl
  · rfl

theorem Coherent.updatedTo_rereadAs (hs : s.Coherent) (hget : s.get id = .ok c)
    (h : r.Revision s c c' written) : r.UpdatedTo s c (s.rereadAs c') := by
  have hsup := hs.supports_of_revision hget h
  have hid : c'.id = some id := h.id.trans (id_of_get hget)
  have hreserves : s.Reserves c'.snapshot := reserves_of_stored hid
  have hget' := hs.get_written_of_revision hget h
  exact {
    id := (id_of_get hget').trans (id_of_get hget).symm
    name := h.name
    bands := by
      have hnamed (b : Band) (hb : b ∈ c'.bands) := hs.categoryName_of_revision hget h hb
      have hsaved := hsup.bands_rereadAs_of_ids hreserves (hs.map_id_of_revision hget h)
      refine forall₂_comp (fun (a b b' : Band) (hab : a.Alike b) hb ↦ hab.storedAs hb) h.bands ?_
      exact ((List.forall₂_and_left _ _).2 ⟨hnamed, hsaved⟩).imp fun b b' hb ↦
        storedAs_of_savedAs hb.1 hb.2
    distinct := (hs.toOrdered.written hsup).distinct_bandIds _
    products := (hsup.products_rereadAs hreserves).trans (ascending_congr h.products)
    resolved := by
      intro p hp
      rw [← (s.agrees_written c'.snapshot c'.name).product_eq]
      exact (hs.written hsup).product_of_get hget' hp }

theorem Coherent.id_ne_none_of_get (hs : s.Coherent) (hget : s.get id = .ok c) {b : Band}
    (hb : b ∈ c.bands) : b.id ≠ none := by
  obtain ⟨q, -, rfl, -⟩ := hs.exists_of_get hget
  obtain ⟨w, -, rfl⟩ := List.mem_map.1 hb
  exact nofun

theorem Coherent.not_nameTaken_written (hs : s.Coherent) (hid : c'.id = some id)
    (h : ¬ s.NameTaken (s.headerId c'.snapshot) c'.name) :
    ¬ (s.written c'.snapshot c'.name).NameTaken id c'.name := by
  have hheader : s.headerId c'.snapshot = id := headerId_eq hid
  rintro ⟨q, hq, hqid, hqname⟩
  rcases hs.mem_headers_written_iff.1 hq with rfl | ⟨hq, hne⟩
  · exact hqid hheader
  · exact h ⟨q, hq, hne, hqname⟩

theorem Coherent.exists_updates (hs : s.Coherent) (hread : Request.Changes.read .call payload = .ok r)
    (hok : (s.update id payload fault).answer = .ok res) :
    ∃ c c' d written, s.Updates (s.update id payload fault).store id r c c' d written ∧
      res = ⟨id, c.changesTo c' written⟩ := by
  obtain ⟨c, c', written, hget, hrevision, -, hres, hdone⟩ := hs.update_eq_ok hread hok
  have hdistinct := hs.distinct_of_get hget
  have hstored (b : Band) (hb : b ∈ c.bands) := hs.id_ne_none_of_get hget hb
  rcases hdone with ⟨hempty, rfl, hstore⟩ | ⟨hsome, ⟨hfits, hname, -⟩, hstore⟩
  · rw [hstore]
    refine ⟨c', c', c', written, ?_, hres⟩
    exact {
      before := hget
      stored := hstored
      distinct := hdistinct
      revision := hrevision
      after := hget
      updatedTo := hs.updatedTo_of_unchanged hget hrevision.toRevises
      agrees := .refl s
      coherent := hs
      same := fun _ ↦ rfl
      saved := fun hsome ↦ by cases hempty.symm.trans hsome }
  · rw [hstore]
    refine ⟨c, c', s.rereadAs c', written, ?_, hres⟩
    exact {
      before := hget
      stored := hstored
      distinct := hdistinct
      revision := hrevision
      after := hs.get_written_of_revision hget hrevision
      updatedTo := hs.updatedTo_rereadAs hget hrevision
      agrees := s.agrees_written _ _
      coherent := hs.written (hs.supports_of_revision hget hrevision)
      same := fun hempty ↦ by cases hempty.symm.trans hsome
      saved := fun _ ↦ ⟨hfits, hs.not_nameTaken_written (hrevision.id.trans (id_of_get hget)) hname⟩ }

end Coherent

theorem Consistent.not_taken_of_get (hs : s.Consistent) (hget : s.get id = .ok c) :
    ¬ s.NameTaken (s.headerId c.snapshot) c.name ∧ ¬ s.ProductTaken c.snapshot := by
  have hsound := hs.sound_of_get hget
  obtain ⟨q, hq, rfl⟩ := (get_eq_ok_iff hs.readable).1 hget
  have hmem := (mem_and_id_of_getRow hq).1
  rw [hs.productTaken_iff (hs.supports hsound)]
  constructor
  · intro h
    obtain ⟨h, hh, hid, hname⟩ := h
    rw [List.inj_on_of_nodup_map hs.names hh hmem hname] at hid
    exact hid rfl
  · intro h
    obtain ⟨n, hn, l, hl, rfl, hid⟩ := h
    have hlinked : l.productId ∈ (s.productsOf q.id).map Product.id := hn
    rw [map_id_productsOf hs.linkBacked] at hlinked
    obtain ⟨l', hl', hlid, hpid⟩ := mem_linkedTo_iff.1 hlinked
    rw [List.inj_on_of_nodup_map hs.linkUnique hl hl' hpid.symm] at hid
    exact hid hlid

theorem Consistent.free_iff (hs : s.Consistent) (hget : s.get id = .ok c) (hrevises : r.Revises s c c')
    (hsound : c'.Sound s) :
    r.Free (others id (s.headers.map s.criteria)) ↔
      ¬ s.NameTaken (s.headerId c'.snapshot) c'.name ∧ ¬ s.ProductTaken c'.snapshot := by
  have hstored := hs.not_taken_of_get hget
  have hcid : c.id = some id := id_of_get hget
  have hheader : s.headerId c.snapshot = id := headerId_eq hcid
  have hheader' : s.headerId c'.snapshot = id := headerId_eq (hrevises.id.trans hcid)
  rw [← hs.productsFree_others_iff (hs.sound_of_get hget), ← nameFree_others_iff, hheader] at hstored
  rw [← hs.productsFree_others_iff hsound, ← nameFree_others_iff, hheader', hrevises.name,
    productsFree_congr hrevises.products]
  constructor
  · intro hfree
    constructor
    · cases hname : r.name.value? with
      | none => exact hstored.1
      | some n => exact hfree.name n hname
    · cases hids : r.products.value? with
      | none => exact hstored.2
      | some ids => exact hfree.products ids hids
  · intro h
    obtain ⟨hname, hproducts⟩ := h
    refine ⟨fun n hn ↦ ?_, fun ids hids ↦ ?_⟩
    · rw [hn] at hname
      exact hname
    · rw [hids] at hproducts
      exact hproducts

theorem forall_fits_iff_of_alike {as bs : List Band} (h : List.Forall₂ Band.Alike as bs) :
    (∀ a ∈ as, a.fits = true) ↔ ∀ b ∈ bs, b.fits = true := by
  induction h with
  | nil => simp
  | cons hab _ ih => rw [List.forall_mem_cons, List.forall_mem_cons, ih, hab.fits_eq]

theorem Consistent.fits_of_get (hs : s.Consistent) (hget : s.get id = .ok c) :
    ∀ b ∈ c.bands, b.fits = true := by
  intro b hb
  refine ((hs.sound_of_get hget).bands b hb).fits_iff.2 ?_
  obtain ⟨q, -, rfl⟩ := (get_eq_ok_iff hs.readable).1 hget
  obtain ⟨w, hw, rfl⟩ := List.mem_map.1 hb
  exact (hs.sound w (List.mem_filter.1 hw).1).fits

theorem Consistent.fits_of_entries (hs : s.Consistent) (hget : s.get id = .ok c)
    (hentries : ∀ e ∈ r.entries, e.Applicable s (Provisioning.bandIds c.bands))
    (hages : ∀ e ∈ r.entries, e.AgesFit) :
    ∀ b ∈ revisedBands s r.entries c.bands, b.fits = true := by
  intro b hb
  rcases mem_revisedBands hb with hb | ⟨e, he, rfl⟩
  · exact hs.fits_of_get hget b hb
  · exact ((hentries e he).1.sound e.id.value?).fits_iff.2 (hages e he)

theorem Consistent.update_answer_eq_ok_iff (hs : s.Consistent)
    (hread : Request.Changes.read .call payload = .ok r) :
    (∃ res, (s.update id payload none).answer = .ok res) ↔
      ∃ c, s.get id = .ok c ∧ r.Valid s c ∧
        (∀ b ∈ revisedBands s r.entries c.bands, b.fits = true) ∧
        r.Free (others id (s.headers.map s.criteria)) := by
  simp only [update_eq_close hread none, Report.close_answer_eq_ok_iff]
  constructor
  · intro h
    obtain ⟨res, t, hwork⟩ := h
    obtain ⟨c', ch, hrevise, -, hdone⟩ := updateFrom_eq_ok hwork
    obtain ⟨c, hget⟩ := get_eq_ok_of_revise hrevise
    obtain ⟨happlicable, hrevises, hsound, hsame⟩ := hs.revise_eq_ok (hs.sound_of_get hget) hget hrevise
    refine ⟨c, hget, (Request.Changes.applicable_iff hread).1 happlicable, ?_⟩
    rw [forall_fits_iff_of_alike hrevises.bands, hs.free_iff hget hrevises hsound]
    rcases hdone with ⟨hempty, -⟩ | ⟨-, q, hwrite⟩
    · rw [hsame hempty]
      exact ⟨hs.fits_of_get hget, hs.not_taken_of_get hget⟩
    · exact ((hs.run_write_eq_ok_iff hsound).1 hwrite).1
  · intro h
    obtain ⟨c, hget, hvalid, hfits, hfree⟩ := h
    have happlicable := (Request.Changes.applicable_iff hread).2 hvalid
    obtain ⟨c', ch, hrevise⟩ := hs.exists_revise_eq_ok (hs.sound_of_get hget) hget happlicable
    obtain ⟨-, hrevises, hsound, -⟩ := hs.revise_eq_ok (hs.sound_of_get hget) hget hrevise
    rw [forall_fits_iff_of_alike hrevises.bands] at hfits
    cases hempty : ch.isEmpty with
    | true => exact ⟨_, _, run_updateFrom_of_unchanged hrevise hempty (run_reach_none .commit)⟩
    | false =>
      have hwrite := (hs.run_write_eq_ok_iff hsound).2
        ⟨⟨hfits, (hs.free_iff hget hrevises hsound).1 hfree⟩, rfl, rfl⟩
      exact ⟨_, _, run_updateFrom_of_ok hrevise hempty hwrite⟩

theorem Consistent.map_replace_get (hs : s.Consistent) (hget : s.get id = .ok c) :
    ((s.headers.map s.criteria).map fun d ↦ if d.id = some id then c else d) =
      s.headers.map s.criteria := by
  obtain ⟨q, hq, rfl⟩ := (get_eq_ok_iff hs.readable).1 hget
  obtain ⟨hmem, hqid⟩ := mem_and_id_of_getRow hq
  rw [List.map_map]
  apply List.map_congr_left
  intro h hh
  rw [Function.comp_apply]
  split
  · rename_i hid
    have hheader : h.id = q.id := (Option.some.inj hid).trans hqid.symm
    rw [List.inj_on_of_nodup_map hs.ordered.nodup_headerIds hh hmem hheader]
  · rfl

theorem Consistent.update_reread (hs : s.Consistent)
    (hread : Request.Changes.read .call payload = .ok r) (hget : s.get id = .ok c)
    {res : CommandResult} (hok : (s.update id payload none).answer = .ok res) :
    ∃ c', (s.update id payload none).store.all =
        .ok ((s.headers.map s.criteria).map fun d ↦ if d.id = some id then c' else d) ∧
      (s.update id payload none).store.get id = .ok c' ∧ r.UpdatedTo s c c' ∧
      s.Agrees (s.update id payload none).store ∧ res.resourceId = id := by
  obtain ⟨c₀, c', written, hget₀, hrevision, -, rfl, hdone⟩ := hs.coherent.update_eq_ok hread hok
  obtain rfl := Except.ok.inj (hget.symm.trans hget₀)
  rcases hdone with ⟨-, rfl, hstore⟩ | ⟨-, -, hstore⟩
  · rw [hstore]
    refine ⟨c', ?_, hget, hs.coherent.updatedTo_of_unchanged hget hrevision.toRevises, .refl _, rfl⟩
    rw [hs.map_replace_get hget]
    exact all_eq hs.readable
  · rw [hstore]
    have hsup := hs.coherent.supports_of_revision hget hrevision
    exact ⟨s.rereadAs c', hs.intact.all_written_of_stored hsup (hrevision.id.trans (id_of_get hget)),
      hs.coherent.get_written_of_revision hget hrevision, hs.coherent.updatedTo_rereadAs hget hrevision,
      s.agrees_written _ _, rfl⟩

theorem Reachable.update_spec (hs : s.Reachable)
    (hread : Request.Changes.read .call payload = .ok r) (hages : ∀ e ∈ r.entries, e.AgesFit) :
    ∃ cs, s.all = .ok cs ∧
      ((∃ res, (s.update id payload none).answer = .ok res) ↔
        ∃ c, s.get id = .ok c ∧ r.Valid s c ∧ r.Free (others id cs)) ∧
      ∀ c res, s.get id = .ok c → (s.update id payload none).answer = .ok res →
        ∃ c', (s.update id payload none).store.all =
            .ok (cs.map fun d ↦ if d.id = some id then c' else d) ∧
          (s.update id payload none).store.get id = .ok c' ∧ r.UpdatedTo s c c' ∧
          s.Agrees (s.update id payload none).store ∧ res.resourceId = id := by
  have hs := hs.consistent
  refine ⟨s.headers.map s.criteria, all_eq hs.readable, ?_,
    fun c res hget hok ↦ hs.update_reread hread hget hok⟩
  rw [hs.update_answer_eq_ok_iff hread]
  refine exists_congr fun c ↦ and_congr_right fun hget ↦ and_congr_right fun hvalid ↦ ?_
  exact and_iff_right (hs.fits_of_entries hget hvalid.entries hages)

theorem update_spec_of_second :
    let s := ((Service.start Sample.store).runAll
      [⟨.create Sample.monthly.dump, none⟩, ⟨.create Sample.weekly.dump, none⟩]).2.store
    s.Reachable ∧ Request.Changes.read .call (Sample.changes 3 2).dump = .ok (Sample.changes 3 2) ∧
      (∀ e ∈ (Sample.changes 3 2).entries, e.AgesFit) ∧
      ∃ c c', s.get 2 = .ok c ∧
        (s.update 2 (Sample.changes 3 2).dump none).store.get 2 = .ok c' ∧
        (Sample.changes 3 2).UpdatedTo s c c' := by
  intro s
  have hs : s.Reachable := ⟨Service.start Sample.store, ⟨rfl, rfl, rfl⟩, _, rfl⟩
  have hread : Request.Changes.read .call (Sample.changes 3 2).dump = .ok (Sample.changes 3 2) := rfl
  have hages : ∀ e ∈ (Sample.changes 3 2).entries, e.AgesFit := by
    intro e he
    obtain rfl | rfl | rfl : e = Sample.entry (.given 3) 0 90 ∨ e = Sample.entry .absent 90 180 ∨
        e = Sample.entry (.given 3) 0 20 := by
      simpa [Sample.changes, Request.Changes.entries, Request.Presence.value?] using he
    all_goals exact ⟨rfl, rfl⟩
  obtain ⟨res, hok⟩ : ∃ res, (s.update 2 (Sample.changes 3 2).dump none).answer = .ok res := ⟨_, rfl⟩
  obtain ⟨c, hget⟩ : ∃ c, s.get 2 = .ok c := ⟨_, rfl⟩
  obtain ⟨cs, -, -, hsuccess⟩ := Reachable.update_spec hs hread hages
  obtain ⟨c', -, hget', hc', -⟩ := hsuccess c res hget hok
  exact ⟨hs, hread, hages, c, c', hget, hget', hc'⟩

end Store
end Provisioning
