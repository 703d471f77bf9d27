import Provisioning.Proofs.Command.Changes

namespace Provisioning

/-- The entries ask for the same values, percentages as numbers. -/
structure Request.BandEntry.Matches (e e' : BandEntry) : Prop where
  rest : { e with id := e'.id, percentage := e'.percentage } = e'
  value : e.percentage.value? = e'.percentage.value?

section Agrees

variable {s t : Store} {e : Request.BandEntry}

namespace Store.Agrees

theorem band_eq (h : s.Agrees t) : Request.BandEntry.band t = Request.BandEntry.band s := by
  funext e
  simp only [Request.BandEntry.band, categoryName, accountCopy, h.category_eq, h.account_eq]

theorem revisedBands_eq (h : s.Agrees t) (es : List Request.BandEntry) (bs : List Band) :
    revisedBands t es bs = revisedBands s es bs := by
  have hrevised : Band.revised t es = Band.revised s es := by
    funext b
    simp only [Band.revised, h.band_eq]
  simp only [revisedBands, hrevised, h.band_eq]

theorem hasAccount (h : s.Agrees t) {kind : AccountKind} {n : Int} (hs : s.HasAccount kind n) :
    t.HasAccount kind n := by
  obtain ⟨a, ha, hkind⟩ := hs
  exact ⟨a, (h.account_eq n).trans ha, hkind⟩

theorem acceptable (h : s.Agrees t) (he : e.Acceptable s) : e.Acceptable t where
  ages := he.ages
  percentage := he.percentage
  category := by
    obtain ⟨k, hk⟩ := he.category
    exact ⟨k, (h.category_eq _).trans hk⟩
  liability := h.hasAccount he.liability
  expense := h.hasAccount he.expense

end Store.Agrees

end Agrees

section Bands

variable {s : Store} {e e' : Request.BandEntry} {es : List Request.BandEntry} {b : Band} {bs : List Band}
  {i : Int}

theorem alike_band_iff (hid : e.id.value? = e'.id.value?) :
    (e.band s).Alike (e'.band s) ↔ e.Matches e' := by
  constructor
  · intro h
    have hcategory : e.categoryId = e'.categoryId := congrArg Band.categoryId h.rest
    have hmin : e.minAge = e'.minAge := congrArg Band.minAge h.rest
    have hmax : e.maxAge = e'.maxAge := congrArg Band.maxAge h.rest
    have hliability : (s.accountCopy e.liability).id = (s.accountCopy e'.liability).id :=
      congrArg (fun b ↦ b.liability.id) h.rest
    have hexpense : (s.accountCopy e.expense).id = (s.accountCopy e'.expense).id :=
      congrArg (fun b ↦ b.expense.id) h.rest
    rw [Store.id_accountCopy, Store.id_accountCopy] at hliability hexpense
    exact ⟨by rw [hcategory, hmin, hmax, hliability, hexpense], h.value⟩
  · intro h
    refine ⟨?_, h.value⟩
    rw [← h.rest, Request.BandEntry.band, hid]
    rfl

theorem exists_revised_eq_band (he : e ∈ es) (hid : e.id.value? = some i) (hb : b.id = some i) :
    ∃ e' ∈ es, e'.id.value? = some i ∧ b.revised s es = e'.band s := by
  have hfound : (es.reverse.find? fun e ↦ e.id.value? == some i).isSome = true :=
    List.find?_isSome.2 ⟨e, List.mem_reverse.2 he, beq_iff_eq.2 hid⟩
  obtain ⟨e', he'⟩ := Option.isSome_iff_exists.1 hfound
  have hid' := List.find?_some he'
  refine ⟨e', List.mem_reverse.1 (List.mem_of_find?_eq_some he'), beq_iff_eq.1 hid', ?_⟩
  simp only [Band.revised, hb, he', Option.map_some, Option.getD_some]

theorem revised_revised : (b.revised s es).revised s es = b.revised s es := by
  cases hb : b.id with
  | none => rw [revised_of_id_eq_none hb, revised_of_id_eq_none hb]
  | some i =>
    have hid : (b.revised s es).id = some i := id_revised.trans hb
    cases hfind : es.reverse.find? fun e ↦ e.id.value? == some i with
    | none => simp only [Band.revised, hb, hfind, Option.map_none, Option.getD_none]
    | some e =>
      rw [Band.revised, hid]
      simp only [Band.revised, hb, hfind, Option.map_some, Option.getD_some]

theorem revisedBands_of_ids (hids : ∀ e ∈ es, e.id.value? ≠ none) :
    revisedBands s es bs = bs.map (Band.revised s es) := by
  have hnew : es.filter (fun e ↦ e.id.value?.isNone) = [] :=
    List.filter_eq_nil_iff.2 fun e he hnone ↦ hids e he (Option.isNone_iff_eq_none.1 hnone)
  rw [revisedBands, hnew, List.map_nil, List.append_nil]

theorem revisedBands_revisedBands (hids : ∀ e ∈ es, e.id.value? ≠ none) :
    revisedBands s es (revisedBands s es bs) = revisedBands s es bs := by
  rw [revisedBands_of_ids hids, revisedBands_of_ids hids, List.map_map]
  exact List.map_congr_left fun b _ ↦ revised_revised

/-- Entries that all ask for what is there ask for the same. -/
theorem alike_of_not_alters (happlicable : ∀ e ∈ es, e.Applicable s (bandIds bs))
    (hnone : ∀ e ∈ es, ¬ e.Alters s bs) (he : e ∈ es) (he' : e' ∈ es) (hid : e.id.value? = some i)
    (hid' : e'.id.value? = some i) : (e.band s).Alike (e'.band s) := by
  obtain ⟨b, hb, hbi⟩ := mem_bandIds_iff.1 ((happlicable e he).2 i hid)
  have halike := (not_alters_iff hid).1 (hnone e he) b hb hbi
  have halike' := (not_alters_iff hid').1 (hnone e' he') b hb hbi
  exact halike.trans halike'.symm

end Bands

namespace Store

variable {s t : Store} {admitted : Store → Event → Prop} {r : Request.Changes} {id : Int}
  {payload : Value} {fault : Option Fault} {res : CommandResult} {c c' c₂ d : Criteria}
  {written written₂ : List (Option Int)}

namespace Updates

theorem alike_revisedBands (h : s.Updates t id r c c' d written)
    (hids : ∀ e ∈ r.entries, e.id.value? ≠ none) :
    List.Forall₂ Band.Alike (revisedBands s r.entries c.bands) d.bands := by
  have hsome : ∀ b ∈ revisedBands s r.entries c.bands, b.id ≠ none := by
    intro b hb
    rw [revisedBands_of_ids hids] at hb
    obtain ⟨a, ha, rfl⟩ := List.mem_map.1 hb
    exact id_revised.trans_ne (h.stored a ha)
  exact ((List.forall₂_and_left _ _).2 ⟨hsome, h.updatedTo.bands⟩).imp fun b b' hb ↦ hb.2.alike hb.1

/-- The bands that an update leaves are not revised any further by its entries. -/
theorem alike_revisedBands_again (h : s.Updates t id r c c' d written)
    (hids : ∀ e ∈ r.entries, e.id.value? ≠ none) :
    List.Forall₂ Band.Alike (revisedBands t r.entries d.bands) d.bands := by
  have halike := h.alike_revisedBands hids
  have hagain : List.Forall₂ Band.Alike (revisedBands s r.entries (revisedBands s r.entries c.bands))
      (revisedBands s r.entries d.bands) := forall₂_revisedBands halike
  rw [revisedBands_revisedBands hids] at hagain
  rw [h.agrees.revisedBands_eq]
  exact forall₂_alike_trans (forall₂_alike_symm hagain) halike

theorem applicable_again (h : s.Updates t id r c c' d written) :
    ∀ e ∈ r.entries, e.Applicable t (Provisioning.bandIds d.bands) := by
  intro e he
  obtain ⟨hacceptable, hown⟩ := h.revision.entries e he
  refine ⟨h.agrees.acceptable hacceptable, fun i hi ↦ ?_⟩
  obtain ⟨b, hb, hbi⟩ := mem_bandIds_iff.1 (hown i hi)
  obtain ⟨b', hb', halike⟩ := h.updatedTo.exists_alike_revised hb (h.stored b hb)
  exact mem_bandIds_iff.2 ⟨b', hb', halike.id_eq.symm.trans (id_revised.trans hbi)⟩

/-- No entry asks for a change any more unless another one with its id contradicts it. -/
theorem not_alters_again_iff (h : s.Updates t id r c c' d written)
    (hids : ∀ e ∈ r.entries, e.id.value? ≠ none) :
    (∀ e ∈ r.entries, ¬ e.Alters t d.bands) ↔
      ∀ e ∈ r.entries, ∀ e' ∈ r.entries, e.id.value? = e'.id.value? → e.Matches e' := by
  constructor
  · intro hnone e he e' he' hsame
    obtain ⟨i, hi⟩ := Option.ne_none_iff_exists'.1 (hids e he)
    exact (alike_band_iff hsame).1
      (alike_of_not_alters h.applicable_again hnone he he' hi (hsame.symm.trans hi))
  · intro hmatches e he
    obtain ⟨i, hi⟩ := Option.ne_none_iff_exists'.1 (hids e he)
    rw [not_alters_iff hi]
    intro b' hb' hb'i
    -- the band is what the last entry with its id asked for
    obtain ⟨a, ha, hab⟩ := exists_of_mem_right (h.alike_revisedBands hids) hb'
    rw [revisedBands_of_ids hids] at ha
    obtain ⟨b, hb, rfl⟩ := List.mem_map.1 ha
    have hbi : b.id = some i := id_revised.symm.trans (hab.id_eq.trans hb'i)
    obtain ⟨e', he', hi', hrevised⟩ := exists_revised_eq_band (s := s) he hi hbi
    have hsame : e.id.value? = e'.id.value? := hi.trans hi'.symm
    rw [hrevised] at hab
    rw [h.agrees.band_eq]
    exact ((alike_band_iff hsame).2 (hmatches e he e' he' hsame)).trans hab

theorem not_alters_again_of_nil (h : s.Updates t id r c c' d written)
    (hids : ∀ e ∈ r.entries, e.id.value? ≠ none) (hnone : written = []) :
    ∀ e ∈ r.entries, ¬ e.Alters t d.bands := by
  rw [h.not_alters_again_iff hids]
  intro e he e' he' hsame
  obtain ⟨i, hi⟩ := Option.ne_none_iff_exists'.1 (hids e he)
  exact (alike_band_iff hsame).1 (alike_of_not_alters h.revision.entries (h.revision.unaltered.1 hnone)
    he he' hi (hsame.symm.trans hi))

theorem exists_revise_again (h : s.Updates t id r c c' d written)
    (hids : ∀ e ∈ r.entries, e.id.value? ≠ none) : ∃ c₂ ch, t.revise id r = .ok (c₂, ch) := by
  refine exists_revise_of_applicable h.after h.updatedTo.distinct (fun n hn ↦ .inl ?_)
    (fun ids hids n hn ↦ ?_) h.applicable_again fun hsome ↦ ?_
  · rw [h.updatedTo.name, hn, Option.getD_some]
  · obtain ⟨p, hp⟩ := h.revision.requested ids hids n hn
    exact ⟨p, (h.agrees.product_eq n).trans hp⟩
  · have hne : written ≠ [] := by
      intro hnone
      obtain ⟨e, he, halters⟩ := hsome
      exact h.not_alters_again_of_nil hids hnone e he halters
    have hchecked := checkBands_of_alike (forall₂_alike_symm h.revision.bands) (h.revision.checked hne)
    have hread := checkBands_of_alike (h.alike_revisedBands hids) hchecked
    exact checkBands_of_alike (forall₂_alike_symm (h.alike_revisedBands_again hids)) hread

theorem name_again (h : s.Updates t id r c c' d written) (h₂ : r.Revision t d c₂ written₂) :
    c₂.name = d.name := by
  rw [h₂.name, h.updatedTo.name]
  cases r.name.value? <;> rfl

theorem mem_products_again_iff (h : s.Updates t id r c c' d written)
    (h₂ : r.Revision t d c₂ written₂) {n : Int} :
    n ∈ c₂.products.map Product.id ↔ n ∈ d.products.map Product.id := by
  rw [h₂.products, h.updatedTo.products]
  cases r.products.value? with
  | none => rfl
  | some ids => exact mem_ascending.symm

theorem alike_bands_again (h : s.Updates t id r c c' d written)
    (hids : ∀ e ∈ r.entries, e.id.value? ≠ none) (h₂ : r.Revision t d c₂ written₂) :
    List.Forall₂ Band.Alike d.bands c₂.bands :=
  forall₂_alike_trans (forall₂_alike_symm (h.alike_revisedBands_again hids)) h₂.bands

theorem isEmpty_again_iff (h : s.Updates t id r c c' d written) (h₂ : r.Revision t d c₂ written₂) :
    (d.changesTo c₂ written₂).isEmpty = true ↔ written₂ = [] := by
  rw [isEmpty_changesTo_iff, and_iff_right (h.name_again h₂),
    and_iff_right fun n ↦ h.mem_products_again_iff h₂]

/-- Where contradicting entries ask for a save once more, it finds every row as it writes it. -/
theorem run_write_again (h : s.Updates t id r c c' d written)
    (hids : ∀ e ∈ r.entries, e.id.value? ≠ none) (h₂ : r.Revision t d c₂ written₂)
    (hne : written₂ ≠ []) : (write c₂.snapshot).run t = (.ok ⟨t.headerId c₂.snapshot, c₂.name⟩, t) := by
  have hfirst : (c.changesTo c' written).isEmpty = false := by
    rw [Bool.eq_false_iff, Ne, isEmpty_changesTo_iff]
    rintro ⟨-, -, hnone⟩
    exact hne (h₂.unaltered.2 (h.not_alters_again_of_nil hids hnone))
  obtain ⟨hfits, hname⟩ := h.saved hfirst
  have hid : c₂.id = some id := h₂.id.trans (id_of_get h.after)
  have hbands := h.alike_bands_again hids h₂
  have hsame : t.written c₂.snapshot c₂.name = t :=
    h.coherent.written_eq_self h.after h₂.id (h.name_again h₂) (fun n ↦ h.mem_products_again_iff h₂) hbands
  refine (run_write_eq_ok_iff (h.coherent.supports_of_revision h.after h₂) rfl).2
    ⟨⟨?_, ?_, ?_⟩, rfl, hsame.symm⟩
  · have halike := forall₂_alike_trans (forall₂_alike_symm h.revision.bands) (h.alike_revisedBands hids)
    exact (forall_fits_iff_of_alike (forall₂_alike_trans halike hbands)).1 hfits
  · rw [headerId_eq hid, h.name_again h₂]
    exact hname
  · obtain ⟨q, hq, hd, -⟩ := h.coherent.exists_of_get h.after
    rintro ⟨n, hn, -⟩
    have hadded : t.addedIds c₂.snapshot = [] := by
      refine addedIds_eq_nil (h := q) ?_ fun n ↦ ?_
      · rw [hid, (mem_and_id_of_getRow hq).2]
      · rw [← hd]
        exact h.mem_products_again_iff h₂
    rw [hadded] at hn
    exact List.not_mem_nil hn

end Updates

/-- Given a second time, an update whose entries all name a band succeeds and leaves every row as it is, the
times of saves aside. It reports entries at most that contradict each other, and saves nothing if and only if
there are none. -/
theorem Arises.update_again (hs : s.Arises admitted)
    (hread : Request.Changes.read .call payload = .ok r) (hids : ∀ e ∈ r.entries, e.id.value? ≠ none)
    (hok : (s.update id payload fault).answer = .ok res) :
    let t := (s.update id payload fault).store
    ∃ res', (t.update id payload none).answer = .ok res' ∧ (t.update id payload none).store = t ∧
      res'.resourceId = id ∧ (∀ key, key ≠ "definitions" → res'.changes.get? key = none) ∧
      (res'.changes.isEmpty = true ↔
        ∀ e ∈ r.entries, ∀ e' ∈ r.entries, e.id.value? = e'.id.value? → e.Matches e') ∧
      (t.SavesNothing id payload ↔ res'.changes.isEmpty = true) := by
  intro t
  obtain ⟨c, c', d, written, h, rfl⟩ := hs.coherent.exists_updates hread hok
  obtain ⟨c₂, ch, hrevise⟩ := h.exists_revise_again hids
  obtain ⟨written₂, h₂, rfl, -⟩ := revision_of_revise h.after h.updatedTo.distinct hrevise
  have hempty := h.isEmpty_again_iff h₂
  have hrun : (updateFrom none id r).run t = (.ok ⟨id, d.changesTo c₂ written₂⟩, t) := by
    cases hsome : (d.changesTo c₂ written₂).isEmpty with
    | true => exact run_updateFrom_of_unchanged hrevise hsome (run_reach_none .commit)
    | false =>
      refine run_updateFrom_of_ok hrevise hsome (h.run_write_again hids h₂ fun hnone ↦ ?_)
      cases (hempty.2 hnone).symm.trans hsome
  have hanswer : (t.update id payload none).answer = .ok ⟨id, d.changesTo c₂ written₂⟩ := by
    rw [update_eq_close hread, hrun, Report.close_of_ok.1]
  refine ⟨_, hanswer, ?_, rfl, fun key hkey ↦ ?_, ?_, isEmpty_of_savesNothing hread hanswer, fun h ↦ ?_⟩
  · rw [update_eq_close hread, hrun, Report.close_of_ok.2]
  · have hname := nameChange_eq_none_iff.2 (h.name_again h₂)
    have hproducts := productChange_eq_none_iff.2 fun n ↦ h.mem_products_again_iff h₂
    rw [get?_changesTo, if_neg hkey, hname, hproducts, ite_self, ite_self]
  · rw [hempty, h₂.unaltered, h.not_alters_again_iff hids]
  · exact (savesNothing_of_isEmpty hread hanswer h).2

end Store

namespace Sample

/-- One entry for the second band, and two for the first that differ in the spelling only. -/
def agreeing : Request.Changes :=
  ⟨.given "Quarterly",
    .given [entry (.given 2) 30 60, entry (.given 1) 0 20,
      { entry (.given 1) 0 20 with percentage := .finite false 2500 (-3) }],
    .given [2, 1, 2]⟩

/-- Two entries for the first band, with different ages. -/
def contradicting : Request.Changes :=
  ⟨.absent, .given [entry (.given 1) 0 10, entry (.given 1) 0 20], .absent⟩

theorem arises_created : created.Arises Event.Ordinary := (Store.Arises.blank ⟨rfl, rfl, rfl⟩ rfl).step (.call _)

end Sample

theorem Store.update_again_of_agreeing :
    Sample.created.Arises Event.Ordinary ∧
      Request.Changes.read .call Sample.agreeing.dump = .ok Sample.agreeing ∧
      (∀ e ∈ Sample.agreeing.entries, e.id.value? ≠ none) ∧
      ∃ res res', (Sample.created.update 1 Sample.agreeing.dump none).answer = .ok res ∧
        ((Sample.created.update 1 Sample.agreeing.dump none).store.update 1 Sample.agreeing.dump
          none).answer = .ok res' ∧ res'.changes.isEmpty = true := by
  have hread : Request.Changes.read .call Sample.agreeing.dump = .ok Sample.agreeing := rfl
  have hids : ∀ e ∈ Sample.agreeing.entries, e.id.value? ≠ none := by decide
  obtain ⟨res, hok⟩ : ∃ res, (Sample.created.update 1 Sample.agreeing.dump none).answer = .ok res :=
    ⟨_, rfl⟩
  have hmatches : ∀ e ∈ Sample.agreeing.entries, ∀ e' ∈ Sample.agreeing.entries,
      e.id.value? = e'.id.value? → e.Matches e' := by
    have hall : ∀ e ∈ Sample.agreeing.entries, ∀ e' ∈ Sample.agreeing.entries,
        e.id.value? = e'.id.value? → { e with id := e'.id, percentage := e'.percentage } = e' ∧
          e.percentage.isFinite = true ∧ e.percentage.eqv e'.percentage = true := by decide
    intro e he e' he' hid
    obtain ⟨hrest, hfinite, hvalue⟩ := hall e he e' he' hid
    exact ⟨hrest, (Decimal.eqv_iff_of_isFinite hfinite).1 hvalue⟩
  obtain ⟨res', hok', -, -, -, hempty, -⟩ := Arises.update_again Sample.arises_created hread hids hok
  exact ⟨Sample.arises_created, hread, hids, res, res', hok, hok', hempty.2 hmatches⟩

/-- The second update finds the band as the last entry left it, and reports each entry once more. -/
theorem Store.update_again_of_contradicting :
    Sample.created.Arises Event.Ordinary ∧
      Request.Changes.read .call Sample.contradicting.dump = .ok Sample.contradicting ∧
      (∀ e ∈ Sample.contradicting.entries, e.id.value? ≠ none) ∧
      (∃ res, (Sample.created.update 1 Sample.contradicting.dump none).answer = .ok res) ∧
      ∃ res', ((Sample.created.update 1 Sample.contradicting.dump none).store.update 1
          Sample.contradicting.dump none).answer = .ok res' ∧ res'.changes.isEmpty = false ∧
        ¬ (Sample.created.update 1 Sample.contradicting.dump none).store.SavesNothing 1
          Sample.contradicting.dump := by
  have hsome : ((Sample.created.update 1 Sample.contradicting.dump none).store.update 1
      Sample.contradicting.dump none).answer = .ok ⟨1, ⟨[("definitions", .list [.int 1, .int 1])]⟩⟩ := rfl
  have hstopped : ((Sample.created.update 1 Sample.contradicting.dump none).store.update 1
      Sample.contradicting.dump (some ⟨.save, .tooLarge⟩)).answer = .error .tooLarge := rfl
  refine ⟨Sample.arises_created, rfl, by decide, ⟨_, rfl⟩, _, hsome, rfl, fun hsaves ↦ ?_⟩
  rw [hsaves, hsome] at hstopped
  cases hstopped

end Provisioning
