import Provisioning.Proofs.Command.Resumed
import Provisioning.Proofs.Request.Definitions
import Provisioning.Proofs.Store.Shuffle

namespace Provisioning

section Lists

variable {s : Store} {bs : List Band} {b : Band} {es es' : List Request.BandEntry}
  {old new new' : List Int}

theorem Request.ReadAs.exists_perm {vs vs' : List Value} (h : ReadAs vs es) (hperm : vs.Perm vs') :
    ∃ es', es.Perm es' ∧ ReadAs vs' es' := by
  obtain ⟨es', hes', hsame⟩ := List.perm_comp_forall₂ hperm.symm h
  exact ⟨es', hsame.symm, hes'⟩

theorem Request.DistinctIds.perm (h : DistinctIds es) (hperm : es.Perm es') : DistinctIds es' := by
  refine (hperm.pairwise_iff fun {e e'} hne hid heq ↦ ?_).1 h
  exact hne (fun hnone ↦ hid (heq.trans hnone)) heq.symm

theorem revised_of_perm (hperm : es.Perm es') (hdistinct : Request.DistinctIds es) :
    b.revised s es = b.revised s es' := by
  cases hb : b.id with
  | none => rw [revised_of_id_eq_none hb, revised_of_id_eq_none hb]
  | some i =>
    by_cases hnamed : ∃ e ∈ es, e.id.value? = some i
    · obtain ⟨e, he, hid⟩ := hnamed
      simp only [Band.revised, hb, hdistinct.find?_reverse_eq he hid,
        (hdistinct.perm hperm).find?_reverse_eq (hperm.mem_iff.1 he) hid]
    · rw [revised_of_forall_ne hb fun e he hid ↦ hnamed ⟨e, he, hid⟩,
        revised_of_forall_ne hb fun e he hid ↦ hnamed ⟨e, hperm.mem_iff.2 he, hid⟩]

theorem perm_revisedBands (hperm : es.Perm es') (hdistinct : Request.DistinctIds es) :
    (revisedBands s es bs).Perm (revisedBands s es' bs) := by
  have hrevised : bs.map (Band.revised s es) = bs.map (Band.revised s es') :=
    List.map_congr_left fun b _ ↦ revised_of_perm hperm hdistinct
  rw [revisedBands, revisedBands, hrevised]
  exact ((hperm.filter _).map _).append_left _

theorem productChange_congr (h : ∀ n, n ∈ new ↔ n ∈ new') : productChange old new = productChange old new' := by
  have hadded : lacking old new = lacking old new' := lacking_congr (fun _ ↦ Iff.rfl) h
  have hremoved : lacking new old = lacking new' old := lacking_congr h fun _ ↦ Iff.rfl
  rw [productChange, productChange, hadded, hremoved]

end Lists

section Revision

variable {s : Store} {r r' : Request.Changes} {c c₁ c₂ : Criteria} {written written' : List (Option Int)}

namespace Request.Changes.Revision

variable (h : r.Revision s c c₁ written) (h' : r'.Revision s c c₂ written')
  (hperm : r.entries.Perm r'.entries) (hdistinct : Request.DistinctIds r.entries)

include h h' hperm hdistinct

theorem perm_written : written.Perm written' := by
  classical
  -- an id stands for at most one entry, so that it says whether its entry asks for a change
  let p : Option Int → Bool := fun i ↦ decide (∃ e ∈ r.entries, e.id.value? = i ∧ e.Alters s c.bands)
  have hp : ∀ e ∈ r.entries, p e.id.value? = true ↔ e.Alters s c.bands := by
    intro e he
    rw [decide_eq_true_eq]
    refine ⟨?_, fun halters ↦ ⟨e, he, rfl, halters⟩⟩
    rintro ⟨e', he', hsame, halters⟩ i hi
    have hfind := hdistinct.find?_reverse_eq he' (hsame.trans hi)
    rw [hdistinct.find?_reverse_eq he hi] at hfind
    obtain rfl := Option.some.inj hfind
    exact halters i hi
  rw [h.altered hdistinct p hp, h'.altered (hdistinct.perm hperm) p fun e he ↦ hp e (hperm.mem_iff.2 he)]
  exact (hperm.map _).filter _

theorem shuffles (hpercentage : ∀ b ∈ c₁.bands, b.percentage.IsPercentage) :
    Band.Shuffles c₁.bands c₂.bands := by
  have hrevised : (revisedBands s r'.entries c.bands).Perm (revisedBands s r.entries c.bands) :=
    (perm_revisedBands hperm hdistinct).symm
  obtain ⟨bs, hbs, hsame⟩ := List.perm_comp_forall₂ hrevised h.bands
  refine ⟨bs, hsame.symm, ?_⟩
  have halike := forall₂_alike_trans (forall₂_alike_symm hbs) h'.bands
  refine ((List.forall₂_and_left _ _).2 ⟨fun b hb ↦ hpercentage b (hsame.mem_iff.1 hb), halike⟩).imp ?_
  exact fun a b hab ↦ ⟨hab.2.sameRow hab.1, hab.2.id_eq⟩

end Request.Changes.Revision
end Revision

namespace Request

inductive Reordered : Value → Value → Prop
  | intro {fields : Value.Fields} {vs vs' : List Value} :
    fields.get? "definitions" = some (.list vs) → vs.Perm vs' →
      Reordered (.object fields) (.object (fields.insert "definitions" (.list vs')))

variable {payload payload' : Value}

theorem Reordered.symm (h : Reordered payload payload') : Reordered payload' payload := by
  cases h with
  | @intro fields vs vs' hget hperm =>
    have hself : (fields.insert "definitions" (.list vs')).get? "definitions" = some (.list vs') :=
      get?_insert_self _
    have hback := Reordered.intro hself hperm.symm
    rw [Value.Fields.insert_insert, Value.Fields.insert_eq_self hget] at hback
    exact hback

theorem Reordered.read_create {r : NewCriteria} (h : Reordered payload payload')
    (hread : NewCriteria.read .call payload = .ok r) :
    ∃ es, r.bands.Perm es ∧ NewCriteria.read .call payload' = .ok { r with bands := es } := by
  obtain ⟨hget, hperm⟩ := h
  obtain ⟨es, hes, hreadAs⟩ := (NewCriteria.readAs_of_read hget hread).exists_perm hperm
  have hne : es ≠ [] := fun hnil ↦ (NewCriteria.bounds_of_read hread).2 (List.perm_nil.1 (hnil ▸ hes))
  exact ⟨es, hes, NewCriteria.read_insert hget hread hreadAs hne⟩

theorem Reordered.read_update {r : Changes} (h : Reordered payload payload')
    (hread : Changes.read .call payload = .ok r) :
    ∃ es, r.entries.Perm es ∧ Changes.read .call payload' = .ok { r with bands := .given es } := by
  obtain ⟨hget, hperm⟩ := h
  obtain ⟨es, hbands, hes⟩ := Changes.bands_of_read hget hread
  obtain ⟨es', hes', hreadAs⟩ := hes.exists_perm hperm
  refine ⟨es', ?_, Changes.read_insert hget hread hreadAs⟩
  rw [Changes.entries, hbands]
  exact hes'

end Request

def Value.SameItems (v v' : Value) : Prop := ∃ vs vs', v = .list vs ∧ v' = .list vs' ∧ vs.Perm vs'

structure CommandResult.Reorders (res res' : CommandResult) : Prop where
  resourceId : res'.resourceId = res.resourceId
  others : ∀ key, key ≠ "definitions" → res'.changes.get? key = res.changes.get? key
  bands : Option.Rel Value.SameItems (res.changes.get? "definitions") (res'.changes.get? "definitions")

section ChangesTo

variable {c c₁ c₂ : Criteria} {written written' : List (Option Int)}

theorem bandChange_of_perm (h : written.Perm written') :
    Option.Rel Value.SameItems (bandChange written) (bandChange written') := by
  have hnil : written = [] ↔ written' = [] := by
    rw [← List.isEmpty_iff, h.isEmpty_eq, List.isEmpty_iff]
  rw [bandChange, bandChange]
  by_cases hwritten : written = []
  · rw [if_pos hwritten, if_pos (hnil.1 hwritten)]
    exact .none
  · rw [if_neg hwritten, if_neg (mt hnil.2 hwritten)]
    exact .some ⟨_, _, rfl, rfl, h.map _⟩

variable (hname : c₂.name = c₁.name)
  (hproducts : ∀ n, n ∈ c₂.products.map Product.id ↔ n ∈ c₁.products.map Product.id)
  (hwritten : written.Perm written')

include hname hproducts hwritten

theorem reorders_changesTo (id : Int) :
    CommandResult.Reorders ⟨id, c.changesTo c₁ written⟩ ⟨id, c.changesTo c₂ written'⟩ := by
  refine ⟨rfl, fun key hkey ↦ ?_, ?_⟩
  · rw [get?_changesTo, get?_changesTo, if_neg hkey, if_neg hkey, productChange_congr hproducts, hname]
  · rw [get?_changesTo, get?_changesTo, if_pos rfl, if_pos rfl]
    exact bandChange_of_perm hwritten

theorem isEmpty_changesTo_of_perm :
    (c.changesTo c₂ written').isEmpty = (c.changesTo c₁ written).isEmpty := by
  have hnil : written' = [] ↔ written = [] := by
    rw [← List.isEmpty_iff, ← hwritten.isEmpty_eq, List.isEmpty_iff]
  rw [Bool.eq_iff_iff, isEmpty_changesTo_iff, isEmpty_changesTo_iff, hname, hnil]
  simp only [hproducts]

end ChangesTo

namespace Store

variable {s : Store} {payload payload' : Value}

section Create

variable {r : Request.NewCriteria} {es : List Request.BandEntry} {c : Criteria} {res : CommandResult}

theorem assemble_of_perm (hperm : r.bands.Perm es) (h : (s.directory.assemble r).answer = .ok c) :
    c.bands.Perm (es.map (Request.BandEntry.newBand s)) ∧
      (s.directory.assemble { r with bands := es }).answer =
        .ok { c with bands := es.map (Request.BandEntry.newBand s) } := by
  obtain ⟨hr, ps, rfl, hids, hps⟩ := assemble_eq_ok_iff.1 h
  refine ⟨hperm.map _, assemble_eq_ok_iff.2 ⟨?_, ps, rfl, hids, hps⟩⟩
  exact {
    name := hr.name
    nonempty := fun hnil ↦ hr.nonempty (List.perm_nil.1 (hnil ▸ hperm))
    entries := fun e he ↦ hr.entries e (hperm.mem_iff.2 he)
    disjoint := ((hperm.map _).pairwise_iff Band.Disjoint.symm).1 hr.disjoint
    products := hr.products }

theorem Ordered.create_of_perm (hs : s.Ordered) (hread : Request.NewCriteria.read .call payload = .ok r)
    (hread' : Request.NewCriteria.read .call payload' = .ok { r with bands := es })
    (hperm : r.bands.Perm es) (hok : (s.create payload none).answer = .ok res) :
    (s.create payload' none).answer = .ok res ∧
      s.AgreesButNew (s.create payload none).store (s.create payload' none).store := by
  obtain ⟨c, hc, ⟨hfits, hname, hproduct⟩, hres, hstore⟩ := (hs.create_eq_ok_iff hread).1 ⟨hok, rfl⟩
  obtain ⟨hbands, hc'⟩ := assemble_of_perm hperm hc
  obtain ⟨hok', hstore'⟩ := (hs.create_eq_ok_iff hread').2
    ⟨_, hc', ⟨fun b hb ↦ hfits b (hbands.mem_iff.2 hb), hname, hproduct⟩, hres, rfl⟩
  rw [hstore, hstore']
  exact ⟨hok', agreesButNew_written rfl (fun n ↦ Iff.rfl) (.of_perm hbands)
    (hs.supports (sound_of_assemble hc)).distinct⟩

end Create

section Update

variable {r r' : Request.Changes} {c c₁ : Criteria} {written : List (Option Int)} {id : Int}
  {res : CommandResult}

theorem exists_revise_of_perm (hget : s.get id = .ok c) (hids : (Provisioning.bandIds c.bands).Nodup)
    (h : r.Revision s c c₁ written) (hname : r'.name = r.name) (hproducts : r'.products = r.products)
    (hperm : r.entries.Perm r'.entries) (hdistinct : Request.DistinctIds r.entries) :
    ∃ c₂ ch, s.revise id r' = .ok (c₂, ch) := by
  refine exists_revise_of_applicable hget hids (hname ▸ h.proper) (hproducts ▸ h.requested)
    (fun e he ↦ h.entries e (hperm.mem_iff.2 he)) fun ⟨e, he, halters⟩ ↦ ?_
  have hwritten : written ≠ [] := fun hnil ↦ h.unaltered.1 hnil e (hperm.mem_iff.2 he) halters
  have hchecked := checkBands_of_alike (forall₂_alike_symm h.bands) (h.checked hwritten)
  exact checkBands_of_perm (perm_revisedBands hperm hdistinct) hchecked

theorem Coherent.update_of_perm (hs : s.Coherent) (hread : Request.Changes.read .call payload = .ok r)
    (hread' : Request.Changes.read .call payload' = .ok r') (hname : r'.name = r.name)
    (hproducts : r'.products = r.products) (hperm : r.entries.Perm r'.entries)
    (hdistinct : Request.DistinctIds r.entries) (hok : (s.update id payload none).answer = .ok res) :
    ∃ res', (s.update id payload' none).answer = .ok res' ∧ res.Reorders res' ∧
      s.AgreesButNew (s.update id payload none).store (s.update id payload' none).store := by
  obtain ⟨c, c₁, written, hget, hrevision, -, rfl, hdone⟩ := hs.update_eq_ok hread hok
  have hids := hs.distinct_of_get hget
  obtain ⟨c₂, _, hrevise⟩ := exists_revise_of_perm hget hids hrevision hname hproducts hperm hdistinct
  obtain ⟨written', hrevision', rfl, -⟩ := revision_of_revise hget hids hrevise
  have hwritten := hrevision.perm_written hrevision' hperm hdistinct
  have hnames : c₂.name = c₁.name := by rw [hrevision'.name, hname, hrevision.name]
  have hset (n : Int) : n ∈ c₂.products.map Product.id ↔ n ∈ c₁.products.map Product.id := by
    rw [hrevision'.products, hproducts, hrevision.products]
  have hreorders := reorders_changesTo (c := c) hnames hset hwritten id
  have hempty := isEmpty_changesTo_of_perm (c := c) hnames hset hwritten
  rw [update_eq_close hread']
  rcases hdone with ⟨hnone, -, hstore⟩ | ⟨hsome, ⟨hfits, hfree, hproduct⟩, hstore⟩
  · rw [run_updateFrom_of_unchanged hrevise (hempty.trans hnone) (run_reach_none .commit)]
    refine ⟨_, Report.close_of_ok.1, hreorders, ?_⟩
    rw [Report.close_of_ok.2, hstore]
    exact .refl s
  · have hsup := hs.supports_of_revision hget hrevision
    have hshuffles := hrevision.shuffles hrevision' hperm hdistinct fun b hb ↦ (hsup.backed b hb).percentage
    have hid : c₂.snapshot.id = c₁.snapshot.id := hrevision'.id.trans hrevision.id.symm
    have hfits' : ∀ b ∈ c₂.bands, b.fits = true := by
      intro b hb
      have hsame := hshuffles.perm_map (f := Band.fits) fun _ _ hrow _ ↦ hrow.fits_eq
      obtain ⟨a, ha, hab⟩ := List.mem_map.1 (hsame.mem_iff.2 (List.mem_map_of_mem hb))
      exact hab.symm.trans (hfits a ha)
    have hfree' : ¬ s.NameTaken (s.headerId c₂.snapshot) c₂.name := by
      rw [headerId_congr hid, hnames]
      exact hfree
    have hproduct' : ¬ s.ProductTaken c₂.snapshot := mt (productTaken_congr hid hset).1 hproduct
    have hnamed : c₂.snapshot.name = some c₂.name := rfl
    have hwrite := (run_write_eq_ok_iff (hs.supports_of_revision hget hrevision') hnamed).2
      ⟨⟨hfits', hfree', hproduct'⟩, rfl, rfl⟩
    rw [run_updateFrom_of_ok hrevise (hempty.trans hsome) hwrite]
    refine ⟨_, Report.close_of_ok.1, hreorders, ?_⟩
    rw [Report.close_of_ok.2, hstore, hnames]
    exact agreesButNew_written hid hset hshuffles hsup.distinct

end Update

section Reordered

variable {admitted : Store → Event → Prop} {id : Int} {res : CommandResult}

theorem Ordered.create_of_reordered (hs : s.Ordered) (h : Request.Reordered payload payload')
    (hok : (s.create payload none).answer = .ok res) :
    (s.create payload' none).answer = .ok res ∧
      s.AgreesButNew (s.create payload none).store (s.create payload' none).store := by
  obtain ⟨r, hread⟩ := exists_read_of_create hok
  obtain ⟨es, hperm, hread'⟩ := h.read_create hread
  exact hs.create_of_perm hread hread' hperm hok

theorem Coherent.update_of_reordered (hs : s.Coherent) (h : Request.Reordered payload payload')
    (hdistinct : ∀ r, Request.Changes.read .call payload = .ok r → Request.DistinctIds r.entries)
    (hok : (s.update id payload none).answer = .ok res) :
    ∃ res', (s.update id payload' none).answer = .ok res' ∧ res.Reorders res' ∧
      s.AgreesButNew (s.update id payload none).store (s.update id payload' none).store := by
  obtain ⟨r, hread⟩ := exists_read_of_update hok
  obtain ⟨es, hperm, hread'⟩ := h.read_update hread
  exact hs.update_of_perm hread hread' rfl rfl hperm (hdistinct r hread) hok

/-- The order of the bands decides neither whether a request is accepted nor, as long as it names no
band twice, what becomes of any band. -/
theorem Arises.accepts_reordered (hs : s.Arises admitted) (h : Request.Reordered payload payload') :
    (∀ res, (s.create payload none).answer = .ok res ↔ (s.create payload' none).answer = .ok res) ∧
      (∀ res, (s.create payload none).answer = .ok res →
        s.AgreesButNew (s.create payload none).store (s.create payload' none).store) ∧
      ((∀ r, Request.Changes.read .call payload = .ok r → Request.DistinctIds r.entries) → ∀ id,
        ((∃ res, (s.update id payload none).answer = .ok res) ↔
          ∃ res, (s.update id payload' none).answer = .ok res) ∧
        ∀ res res', (s.update id payload none).answer = .ok res →
          (s.update id payload' none).answer = .ok res' → res.Reorders res' ∧
            s.AgreesButNew (s.update id payload none).store (s.update id payload' none).store) := by
  have hs := hs.coherent
  refine ⟨fun res ↦ ⟨fun hok ↦ (hs.create_of_reordered h hok).1,
    fun hok ↦ (hs.create_of_reordered h.symm hok).1⟩,
    fun res hok ↦ (hs.create_of_reordered h hok).2, fun hdistinct id ↦ ⟨⟨?_, ?_⟩, ?_⟩⟩
  · rintro ⟨res, hok⟩
    obtain ⟨res', hok', -⟩ := hs.update_of_reordered h hdistinct hok
    exact ⟨res', hok'⟩
  · rintro ⟨res', hok'⟩
    have hdistinct' : ∀ r, Request.Changes.read .call payload' = .ok r → Request.DistinctIds r.entries := by
      intro r hread
      obtain ⟨es, hperm, hread'⟩ := h.symm.read_update hread
      exact (hdistinct _ hread').perm hperm.symm
    obtain ⟨res, hok, -⟩ := hs.update_of_reordered h.symm hdistinct' hok'
    exact ⟨res, hok⟩
  · intro res res' hok hok'
    obtain ⟨res₁, hok₁, hres⟩ := hs.update_of_reordered h hdistinct hok
    obtain rfl := Except.ok.inj (hok₁.symm.trans hok')
    exact hres

end Reordered
end Store

namespace Sample

def shifted : List Request.BandEntry :=
  [entry (.given 1) 0 40, entry .absent 60 90, entry (.given 2) 40 60]

end Sample

theorem Store.accepts_reordered_of_shifted :
    Sample.created.Arises Event.Ordinary ∧
      Request.Reordered (Request.bandsOnly (Sample.shifted.map Request.BandEntry.dump))
        (Request.bandsOnly (Sample.shifted.reverse.map Request.BandEntry.dump)) ∧
      (∀ r, Request.Changes.read .call (Request.bandsOnly (Sample.shifted.map Request.BandEntry.dump)) = .ok r →
        Request.DistinctIds r.entries) ∧
      ∃ res res', (Sample.created.update 1
          (Request.bandsOnly (Sample.shifted.map Request.BandEntry.dump)) none).answer = .ok res ∧
        (Sample.created.update 1
          (Request.bandsOnly (Sample.shifted.reverse.map Request.BandEntry.dump)) none).answer = .ok res' ∧
        res.changes.get? "definitions" = some (.list [.int 1, .null, .int 2]) ∧ res.Reorders res' := by
  have hreordered : Request.Reordered (Request.bandsOnly (Sample.shifted.map Request.BandEntry.dump))
      (Request.bandsOnly (Sample.shifted.reverse.map Request.BandEntry.dump)) :=
    .intro rfl
      ((List.reverse_perm _).symm.map _)
  have hread : Request.Changes.read .call (Request.bandsOnly (Sample.shifted.map Request.BandEntry.dump)) =
      .ok (.ofBands Sample.shifted) := rfl
  have hdistinct : ∀ r, Request.Changes.read .call
      (Request.bandsOnly (Sample.shifted.map Request.BandEntry.dump)) = .ok r →
        Request.DistinctIds r.entries := by
    intro r hr
    obtain rfl := Except.ok.inj (hread.symm.trans hr)
    simp [Request.DistinctIds, Sample.shifted, Sample.entry, Request.Changes.entries,
      Request.Changes.ofBands, Request.Presence.value?]
  obtain ⟨res, hok⟩ : ∃ res, (Sample.created.update 1
      (Request.bandsOnly (Sample.shifted.map Request.BandEntry.dump)) none).answer = .ok res := ⟨_, rfl⟩
  have hbands : (Sample.created.update 1
      (Request.bandsOnly (Sample.shifted.map Request.BandEntry.dump)) none).answer.map
        (fun res ↦ res.changes.get? "definitions") = .ok (some (.list [.int 1, .null, .int 2])) := rfl
  rw [hok] at hbands
  obtain ⟨-, -, hupdate⟩ := Arises.accepts_reordered Sample.arises_created hreordered
  obtain ⟨haccepted, hsame⟩ := hupdate hdistinct 1
  obtain ⟨res', hok'⟩ := haccepted.1 ⟨res, hok⟩
  exact ⟨Sample.arises_created, hreordered, hdistinct, res, res', hok, hok', Except.ok.inj hbands,
    (hsame res res' hok hok').1⟩

end Provisioning
