import Provisioning.Proofs.Command.Delete
import Provisioning.Proofs.Command.Resumed
import Provisioning.Proofs.Request.Definitions

namespace Provisioning

theorem ChangeSet.empty_merge_single (key : String) (v : Option Value) :
    empty.merge (single key v) = single key v := by cases v <;> rfl

/-- One update for each entry. -/
def bandCalls (id : Int) (vs : List Value) : List Call :=
  vs.map fun v ↦ ⟨.update id (Request.bandsOnly [v]), none⟩

section Entries

variable {s t : Store} {own used : List Int} {e : Request.BandEntry} {as bs : List Band}
  {r : Request.Changes} {b c d : Criteria}

theorem revisedBands_singleton : revisedBands s [e] bs = appliedBands s e bs :=
  revisedBands_cons.trans revisedBands_nil

theorem Store.Agrees.alters_iff (h : s.Agrees t) : e.Alters t bs ↔ e.Alters s bs := by
  simp only [Request.BandEntry.Alters, h.band_eq]

theorem alters_iff_of_storedAs (h : List.Forall₂ (Band.StoredAs used) as bs)
    (hused : ∀ i ∈ bandIds as, i ∈ used) (hknown : ∀ i, e.id.value? = some i → i ∈ bandIds as) :
    e.Alters s bs ↔ e.Alters s as := by
  refine forall₂_congr fun i hi ↦ ⟨?_, ?_⟩
  · rintro ⟨b, hb, hbi, hnot⟩
    obtain ⟨a, ha, hab⟩ := exists_of_mem_right h hb
    have hid : a.id ≠ none := by
      intro hnone
      obtain ⟨j, hj, hnew⟩ := hab.fresh hnone
      obtain rfl := Option.some.inj (hj.symm.trans hbi)
      exact hnew (hused j (hknown j hi))
    have halike := hab.alike hid
    exact ⟨a, ha, halike.id_eq.trans hbi, fun hea ↦ hnot (hea.trans halike)⟩
  · rintro ⟨a, ha, hai, hnot⟩
    obtain ⟨b, hb, hab⟩ := exists_of_mem_right h.flip ha
    have halike := hab.alike (by rw [hai]; exact nofun)
    exact ⟨b, hb, halike.id_eq.symm.trans hai, fun heb ↦ hnot (heb.trans halike.symm)⟩

/-- A sound criteria whose bands are revised stays sound as long as they share no day. -/
theorem Criteria.Sound.revised (hb : b.Sound s) (hentries : ∀ e ∈ r.entries, e.Applicable s own)
    (hd : r.Revises s b d) (hname : d.name = b.name) (hproducts : d.products = b.products)
    (hdisjoint : d.bands.Pairwise Band.Disjoint) : d.Sound s where
  name := hname ▸ hb.name
  nonempty := ne_nil_of_alike hd.bands hb.nonempty
  bands _ ha := sound_of_alike hentries hb.bands hd.bands ha
  disjoint := hdisjoint
  ids := by
    rw [hd.id]
    exact exists_map_id_of_alike hd.bands hb.ids
  products := hproducts ▸ hb.products
  stored := by
    rw [hd.id]
    exact hb.stored

end Entries

namespace Store

variable {s t : Store} {id : Int} {c b b' : Criteria} {v : Value} {vs : List Value}
  {e : Request.BandEntry} {res : CommandResult} {written : List (Option Int)}

/-- The store after some single updates of the criteria `c`, and the working copy `b` of a batch after
the same entries. -/
structure Follows (s t : Store) (c b : Criteria) : Prop where
  id : b.id = c.id
  name : b.name = c.name
  products : b.products = c.products
  sound : b.Sound s
  ids : Provisioning.bandIds b.bands = Provisioning.bandIds c.bands
  store : t = s.written b.snapshot b.name
  consistent : t.Consistent

namespace Follows

theorem start (hs : s.Consistent) (hget : s.get id = .ok c) : s.Follows s c c where
  id := rfl
  name := rfl
  products := rfl
  sound := hs.sound_of_get hget
  ids := rfl
  store := (hs.coherent.written_eq_self hget rfl rfl (fun _ ↦ Iff.rfl)
    (List.forall₂_same.2 fun b _ ↦ .refl b)).symm
  consistent := hs

theorem get_eq (h : s.Follows t c b) (hs : s.Consistent) (hget : s.get id = .ok c) :
    s.headerId b.snapshot = id ∧ t.get id = .ok (s.rereadAs b) := by
  have hid : b.id = some id := h.id.trans (id_of_get hget)
  have hheader : s.headerId b.snapshot = id := headerId_eq hid
  refine ⟨hheader, ?_⟩
  have hreread := hs.ordered.get_written (hs.supports h.sound) (hheader.symm ▸ inWord_of_get hget)
  rw [hheader] at hreread
  rw [h.store]
  exact hreread

theorem alters_iff (h : s.Follows t c b) (hs : s.Consistent)
    (hknown : ∀ i, e.id.value? = some i → i ∈ Provisioning.bandIds b.bands) :
    e.Alters t (s.rereadAs b).bands ↔ e.Alters s b.bands := by
  have hused : ∀ i ∈ Provisioning.bandIds b.bands, i ∈ s.bands.map BandRow.id := by
    intro i hi
    rw [bandIds_of_map_id h.sound.ids] at hi
    obtain ⟨r, hr, rfl, -⟩ := (mem_ownBandIds_iff (c := b.snapshot)).1 hi
    exact List.mem_map_of_mem hr
  rw [h.store, (s.agrees_written b.snapshot b.name).alters_iff]
  exact alters_iff_of_storedAs (hs.bands_rereadAs h.sound) hused hknown

theorem disjoint_appliedBands (h : s.Follows t c b) (hs : s.Consistent) (hget : s.get id = .ok c)
    (hknown : ∀ i, e.id.value? = some i → i ∈ Provisioning.bandIds b.bands) {c' : Criteria}
    (hrevision : (Request.Changes.ofBands [e]).Revision t (s.rereadAs b) c' written)
    (hne : written ≠ []) : (appliedBands s e b.bands).Pairwise Band.Disjoint := by
  obtain ⟨hheader, hreread⟩ := h.get_eq hs hget
  have hword : inWord (s.headerId b.snapshot) = true := hheader.symm ▸ inWord_of_get hget
  have hsound : ∀ a ∈ c'.bands, a.Sound t := fun a ha ↦
    sound_of_alike hrevision.entries (h.consistent.sound_of_get hreread).bands hrevision.bands ha
  have hdistinct := (h.consistent.coherent.supports_of_revision hreread hrevision).distinct
  have hdisjoint := (checkBands_eq_ok_iff_disjoint hdistinct fun a ha ↦ (hsound a ha).ages.2).1
    (hrevision.checked hne)
  rw [h.store] at hrevision
  have hrecalls := hs.recalls_of_revision h.sound hword
    (fun e' he' ↦ by rw [List.mem_singleton.1 he']; exact hknown) hrevision
  refine pairwise_disjoint_of_sameRow ?_ hdisjoint
  rw [← revisedBands_singleton]
  exact hrecalls.imp fun _ _ hab ↦ hab.row

/-- An entry that is stored on its own is applied to the working copy as well, and reported if it makes
a difference there. -/
theorem step (h : s.Follows t c b) (hs : s.Consistent) (hget : s.get id = .ok c)
    (hread : Request.BandEntry.read .call v = .ok e)
    (hknown : ∀ i, e.id.value? = some i → i ∈ Provisioning.bandIds c.bands)
    (hok : (t.update id (Request.bandsOnly [v]) none).answer = .ok res) :
    ∃ b' changed, b.applyEntry s.directory e.request = .ok (b', changed) ∧
      s.Follows (t.update id (Request.bandsOnly [v]) none).store c b' ∧
      res.changes.bandValues = if changed then [Value.optional .int e.id.value?] else [] := by
  have hread' := Request.Changes.read_bandsOnly (.cons hread .nil)
  obtain ⟨c₁, c', written, hget₁, hrevision, -, rfl, hdone⟩ := h.consistent.coherent.update_eq_ok hread' hok
  have hnext := (h.consistent.of_becomes (becomes_run t none (.update id (Request.bandsOnly [v])))).1
  change (t.update id (Request.bandsOnly [v]) none).store.Consistent at hnext
  obtain ⟨hheader, hreread⟩ := h.get_eq hs hget
  obtain rfl := Except.ok.inj (hget₁.symm.trans hreread)
  have hword : inWord (s.headerId b.snapshot) = true := hheader.symm ▸ inWord_of_get hget
  have hvalues : ((s.rereadAs b).changesTo c' written).bandValues = written.map (Value.optional .int) :=
    ChangeSet.bandValues_of_get? (get?_changesTo "definitions")
  rw [← h.ids] at hknown
  have hentry := hrevision.entries e (List.mem_singleton_self e)
  have happlicable : e.Applicable s (Provisioning.bandIds b.bands) := by
    refine ⟨?_, hknown⟩
    have hacceptable := hentry.1
    rw [h.store] at hacceptable
    exact (s.agrees_written b.snapshot b.name).symm.acceptable hacceptable
  have hids := hs.nodup_bandIds_of_sound h.sound
  obtain ⟨b', changed, happly⟩ := exists_applyEntry_eq_ok hids happlicable
  refine ⟨b', changed, happly, ?_⟩
  obtain ⟨-, ⟨rfl, halters, rfl⟩ | ⟨rfl, hsame, rfl, -⟩⟩ := applyEntry_eq_ok hids happly
  · have hwritten : written = [e.id.value?] := by
      refine hrevision.altered (List.pairwise_singleton _ _) (fun _ ↦ true) fun e' he' ↦ ?_
      rw [List.mem_singleton.1 he', h.alters_iff hs hknown]
      exact iff_of_true rfl halters
    have hne : written ≠ [] := by
      rw [hwritten]
      exact List.cons_ne_nil _ _
    rcases hdone with ⟨hempty, -⟩ | ⟨-, -, hstore⟩
    · exact absurd (isEmpty_changesTo_iff.1 hempty).2.2 hne
    have hdisjoint := h.disjoint_appliedBands hs hget hknown hrevision hne
    have hrevises : (Request.Changes.ofBands [e]).Revises s b
        { b with bands := appliedBands s e b.bands } := by
      refine ⟨rfl, rfl, fun _ ↦ Iff.rfl, ?_⟩
      rw [← revisedBands_singleton]
      exact List.forall₂_same.2 fun a _ ↦ .refl a
    have hentries : ∀ e' ∈ (Request.Changes.ofBands [e]).entries,
        e'.Applicable s (Provisioning.bandIds b.bands) := by
      intro e' he'
      rw [List.mem_singleton.1 he']
      exact happlicable
    have hsound := h.sound.revised hentries hrevises rfl rfl hdisjoint
    refine ⟨⟨h.id, h.name, h.products, hsound, ?_, ?_, hnext⟩, ?_⟩
    · exact (bandIds_of_applyEntry (hs.nodup_bandIds_of_sound h.sound) happly).trans h.ids
    · rw [hstore]
      rw [h.store] at hrevision ⊢
      exact hs.written_of_revision h.sound hword (fun e' he' ↦ (hentries e' he').2) hrevision rfl hrevises
    · rw [hvalues, hwritten]
      rfl
  · have hwritten : written = [] := by
      rw [hrevision.unaltered]
      intro e' he'
      rw [List.mem_singleton.1 he', h.alters_iff hs hknown]
      exact hsame
    rcases hdone with ⟨-, -, hstore⟩ | ⟨hsome, -⟩
    · rw [hstore, hvalues, hwritten]
      exact ⟨h, rfl⟩
    · rw [isEmpty_changesTo_iff.2 ⟨hrevision.name, hrevision.products, hwritten⟩] at hsome
      cases hsome

theorem runAll {w : Service} {results : List CommandResult} (h : s.Follows w.store c b)
    (hs : s.Consistent) (hget : s.get id = .ok c)
    (hknown : ∀ v ∈ vs, ∀ e, Request.BandEntry.read .call v = .ok e →
      ∀ i, e.id.value? = some i → i ∈ Provisioning.bandIds c.bands)
    (hok : (w.runAll (bandCalls id vs)).1.map Report.answer = results.map .ok) :
    ∃ es b' written, Request.ReadAs vs es ∧
      b.applyAll s.directory (es.map Request.BandEntry.request) = .ok (b', written) ∧
      s.Follows (w.runAll (bandCalls id vs)).2.store c b' ∧
      results.flatMap (fun res ↦ res.changes.bandValues) = written.map (Value.optional .int) := by
  induction vs generalizing w b results with
  | nil =>
    obtain rfl := List.map_eq_nil_iff.1 hok.symm
    exact ⟨[], b, [], .nil, rfl, h, rfl⟩
  | cons v vs ih =>
    obtain ⟨res, results, rfl, hres, hrest⟩ := List.map_eq_cons_iff.1 hok.symm
    have hfirst : (w.store.update id (Request.bandsOnly [v]) none).answer = .ok res := hres.symm
    obtain ⟨r, hread⟩ := exists_read_of_update hfirst
    obtain ⟨_, hread, -⟩ := Request.Changes.readAs_of_bandsOnly hread
    obtain ⟨e, _, hread, -, -⟩ := List.forall₂_cons_left_iff.1 hread
    rw [List.forall_mem_cons] at hknown
    obtain ⟨b₁, changed, happly, hnext, hvalues⟩ :=
      h.step hs hget hread (hknown.1 e hread) hfirst
    obtain ⟨es, b', written, hes, happlies, hlast, hconcat⟩ := ih (w := (w.call ⟨.update id
      (Request.bandsOnly [v]), none⟩).2) hnext hknown.2 hrest.symm
    refine ⟨e :: es, b', if changed then e.id.value? :: written else written, .cons hread hes, ?_, hlast, ?_⟩
    · simp only [List.map_cons, Criteria.applyAll, bind_eq_ok_iff]
      exact ⟨_, happly, _, happlies, rfl⟩
    · rw [List.flatMap_cons, hvalues, hconcat]
      cases changed <;> rfl

theorem run_write (h : s.Follows t c b) (hs : s.Consistent) (hget : s.get id = .ok c) :
    (write b.snapshot).run s = (.ok ⟨s.headerId b.snapshot, b.name⟩, t) := by
  obtain ⟨-, hreread⟩ := h.get_eq hs hget
  have hrows := (hs.recalls_rereadAs h.sound).imp fun _ _ hab ↦ hab.row
  have hfits : ∀ a ∈ b.bands, a.fits = true :=
    (forall_fits_iff_of_sameRow hrows).1 (h.consistent.fits_of_get hreread)
  obtain ⟨hname, hproducts⟩ := hs.not_taken_of_get hget
  have hids : ∀ n, n ∈ b.snapshot.productIds ↔ n ∈ c.snapshot.productIds := by
    intro n
    rw [Criteria.snapshot, h.products]
    rfl
  refine (hs.run_write_eq_ok_iff h.sound).2 ⟨⟨hfits, ?_, ?_⟩, rfl, h.store⟩
  · rw [headerId_congr (c := c.snapshot) h.id, h.name]
    exact hname
  · rw [productTaken_congr (c := c.snapshot) h.id hids]
    exact hproducts

/-- The batch is carried out as its working copy says. -/
theorem run_updateFrom (h : s.Follows t c b) (hs : s.Consistent) (hget : s.get id = .ok c)
    {es : List Request.BandEntry}
    (happlies : c.applyAll s.directory (es.map Request.BandEntry.request) = .ok (b, written)) :
    ∃ ch, (updateFrom none id (.ofBands es)).run s = (.ok ⟨id, ch⟩, t) ∧
      ch.bandValues = written.map (Value.optional .int) := by
  have hdistinct := hs.nodup_bandIds_of_sound h.sound
  have hcheck : written ≠ [] → checkBands b.bands = .ok () := fun _ ↦
    (checkBands_eq_ok_iff_disjoint hdistinct fun a ha ↦ (h.sound.bands a ha).ages.2).2 h.sound.disjoint
  have hrevise : s.revise id (.ofBands es) = .ok (b, .single "definitions" (bandChange written)) :=
    revise_eq_ok_iff.2 ⟨c, none, c, .empty, _, hget, rfl, rfl,
      withBands_eq_ok_iff.2 ⟨written, happlies, rfl, hcheck⟩, (ChangeSet.empty_merge_single _ _).symm⟩
  refine ⟨_, ?_, ChangeSet.bandValues_of_get? (ChangeSet.get?_single.trans (if_pos rfl))⟩
  cases hempty : (ChangeSet.single "definitions" (bandChange written)).isEmpty with
  | true =>
    have hnil : written = [] := by
      rw [ChangeSet.isEmpty_single, Option.isNone_iff_eq_none, bandChange_eq_none_iff] at hempty
      exact hempty
    have hsame : b = c :=
      (applyAll_eq_ok (hs.nodup_bandIds_of_sound (hs.sound_of_get hget)) happlies).2.2.2 hnil
    have hstore : t = s := by
      rw [h.store, hsame]
      exact (start hs hget).store.symm
    rw [hstore]
    exact run_updateFrom_of_unchanged hrevise hempty (run_reach_none .commit)
  | false => exact run_updateFrom_of_ok hrevise hempty (h.run_write hs hget)

end Follows

/-- Entries that are accepted one by one, each of which names a band that was there before all of them
or none, are accepted together. The store ends the same, and what was reported of each is reported. -/
theorem Arises.update_batch {results : List CommandResult} (hs : s.Arises Event.Ordinary)
    (hget : s.get id = .ok c)
    (hknown : ∀ v ∈ vs, ∀ e, Request.BandEntry.read .call v = .ok e →
      ∀ i, e.id.value? = some i → i ∈ Provisioning.bandIds c.bands)
    (hok : ((Service.start s).runAll (bandCalls id vs)).1.map Report.answer = results.map .ok) :
    ∃ res, (s.update id (Request.bandsOnly vs) none).answer = .ok res ∧
      (s.update id (Request.bandsOnly vs) none).store =
        ((Service.start s).runAll (bandCalls id vs)).2.store ∧
      res.resourceId = id ∧
      res.changes.bandValues = results.flatMap fun res ↦ res.changes.bandValues := by
  have hs := hs.consistent.1
  have hstart : s.Follows (Service.start s).store c c := .start hs hget
  obtain ⟨es, b, written, hes, happlies, hlast, hconcat⟩ := hstart.runAll hs hget hknown hok
  obtain ⟨ch, hrun, hvalues⟩ := hlast.run_updateFrom hs hget happlies
  refine ⟨⟨id, ch⟩, ?_, ?_, rfl, hvalues.trans hconcat.symm⟩
  · rw [update_eq_close (Request.Changes.read_bandsOnly hes), hrun, Report.close_of_ok.1]
  · rw [update_eq_close (Request.Changes.read_bandsOnly hes), hrun, Report.close_of_ok.2]

end Store

namespace Sample

def boundary : List Request.BandEntry :=
  [entry (.given 2) 30 60, entry (.given 1) 0 20, entry .absent 20 30, entry (.given 1) 0 10]

end Sample

theorem Store.update_batch_of_boundary :
    Sample.created.Arises Event.Ordinary ∧
      ∃ c, Sample.created.get 1 = .ok c ∧
        (∀ v ∈ Sample.boundary.map Request.BandEntry.dump, ∀ e,
          Request.BandEntry.read .call v = .ok e → ∀ i, e.id.value? = some i → i ∈ bandIds c.bands) ∧
        ∃ res, (Sample.created.update 1
            (Request.bandsOnly (Sample.boundary.map Request.BandEntry.dump)) none).answer = .ok res ∧
          res.changes.bandValues = [.int 1, .null, .int 1] := by
  obtain ⟨c, hget⟩ : ∃ c, Sample.created.get 1 = .ok c := ⟨_, rfl⟩
  have hids : bandIds c.bands = [1, 2] := by
    have hread : (Sample.created.get 1).map (fun c ↦ bandIds c.bands) = .ok [1, 2] := rfl
    rw [hget] at hread
    exact Except.ok.inj hread
  have hknown : ∀ v ∈ Sample.boundary.map Request.BandEntry.dump, ∀ e,
      Request.BandEntry.read .call v = .ok e → ∀ i, e.id.value? = some i → i ∈ bandIds c.bands := by
    intro v hv e hread i hi
    obtain ⟨e', he', rfl⟩ := List.mem_map.1 hv
    have hsame : ∀ e ∈ Sample.boundary, Request.BandEntry.read .call e.dump = .ok e := by
      simp only [Sample.boundary, List.forall_mem_cons]
      exact ⟨rfl, rfl, rfl, rfl, List.forall_mem_nil _⟩
    have hall : ∀ e ∈ Sample.boundary, ∀ i ∈ e.id.value?, i ∈ [1, 2] := by decide
    obtain rfl := Except.ok.inj ((hsame e' he').symm.trans hread)
    rw [hids]
    exact hall e' he' i hi
  have hok : ((Service.start Sample.created).runAll
      (bandCalls 1 (Sample.boundary.map Request.BandEntry.dump))).1.map Report.answer =
        [⟨1, ⟨[]⟩⟩, ⟨1, ⟨[("definitions", .list [.int 1])]⟩⟩, ⟨1, ⟨[("definitions", .list [.null])]⟩⟩,
          ⟨1, ⟨[("definitions", .list [.int 1])]⟩⟩].map .ok := rfl
  obtain ⟨res, hanswer, -, -, hvalues⟩ := Arises.update_batch Sample.arises_created hget hknown hok
  exact ⟨Sample.arises_created, c, hget, hknown, res, hanswer, hvalues⟩

end Provisioning
