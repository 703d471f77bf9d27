import Provisioning.Proofs.Command.History
import Provisioning.Proofs.Command.Update

namespace Provisioning

/-- The band with this id is there before and after, with the same values. -/
def Criteria.KeepsBand (c c' : Criteria) (i : Option Int) : Prop :=
  ∃ b ∈ c.bands, b.id = i ∧ ∃ b' ∈ c'.bands, b.Alike b'

instance (c c' : Criteria) (i : Option Int) : Decidable (c.KeepsBand c' i) :=
  inferInstanceAs (Decidable (∃ b ∈ c.bands, b.id = i ∧ ∃ b' ∈ c'.bands, b.Alike b'))

/-- The changes say how `c'` differs from `c`, where `ids` are those of the requested bands and `none`
stands for a new band. -/
structure ChangeSet.Describes (ch : ChangeSet) (ids : List (Option Int)) (c c' : Criteria) : Prop where
  name : ch.get? "criteria_name" = if c'.name = c.name then none else some (.str c'.name)
  products_none : ch.get? "loan_products" = none ↔
    ∀ n, n ∈ c'.products.map Product.id ↔ n ∈ c.products.map Product.id
  products : ∀ v, ch.get? "loan_products" = some v → ∃ added removed : List Int,
    v = .object [("added", .ofInts added), ("removed", .ofInts removed)] ∧
      added.Pairwise (· < ·) ∧ removed.Pairwise (· < ·) ∧
      (∀ n, n ∈ added ↔ n ∈ c'.products.map Product.id ∧ n ∉ c.products.map Product.id) ∧
      ∀ n, n ∈ removed ↔ n ∈ c.products.map Product.id ∧ n ∉ c'.products.map Product.id
  bands_none : ch.get? "definitions" = none ↔ List.Forall₂ Band.Alike c.bands c'.bands
  bands : ∀ v, ch.get? "definitions" = some v →
    v = .list ((ids.filter fun i ↦ decide (i = none ∨ ¬ c.KeepsBand c' i)).map (Value.optional .int))
  others : ∀ key, key ≠ "criteria_name" → key ≠ "loan_products" → key ≠ "definitions" →
    ch.get? key = none

def ChangeSet.bandValues (ch : ChangeSet) : List Value :=
  match ch.get? "definitions" with
  | some (.list vs) => vs
  | _ => []

section ChangesTo

variable {c c' : Criteria} {written : List (Option Int)}

theorem get?_changesTo (key : String) :
    (c.changesTo c' written).get? key =
      if key = "definitions" then bandChange written
      else if key = "loan_products" then
        productChange (c.products.map Product.id) (c'.products.map Product.id)
      else if key = "criteria_name" then nameChange c.name c'.name
      else none := by
  simp only [Criteria.changesTo, ChangeSet.get?_merge_single, ChangeSet.get?_single]
  split_ifs <;> simp_all

theorem ChangeSet.bandValues_of_get? {ch : ChangeSet}
    (h : ch.get? "definitions" = bandChange written) :
    ch.bandValues = written.map (Value.optional .int) := by
  rw [bandValues, h, bandChange]
  split_ifs with hnil
  · rw [hnil, List.map_nil]
  · rfl

theorem isEmpty_changesTo_iff :
    (c.changesTo c' written).isEmpty = true ↔
      c'.name = c.name ∧ (∀ n, n ∈ c'.products.map Product.id ↔ n ∈ c.products.map Product.id) ∧
        written = [] := by
  simp only [Criteria.changesTo, ChangeSet.isEmpty_merge_iff, ChangeSet.isEmpty_single,
    Option.isNone_iff_eq_none, nameChange_eq_none_iff, productChange_eq_none_iff, bandChange_eq_none_iff,
    and_assoc]

end ChangesTo

section Entries

variable {s : Store} {r : Request.Changes} {c d : Criteria} {e : Request.BandEntry}
  {es : List Request.BandEntry} {b : Band} {i : Int}

theorem Band.StoredAs.alike {used : List Int} {b' : Band} (h : b.StoredAs used b') (hid : b.id ≠ none) :
    b.Alike b' := by
  obtain ⟨i, hi⟩ := Option.ne_none_iff_exists'.1 hid
  have hsame : b'.id = b.id := (h.kept i hi).trans hi.symm
  refine ⟨?_, h.value.symm⟩
  calc
    { b with percentage := b'.percentage } = { b with id := b'.id, percentage := b'.percentage } := by
      rw [hsame]
    _ = b' := h.rest.symm

theorem Request.DistinctIds.find?_reverse_eq (h : Request.DistinctIds es) (he : e ∈ es)
    (hid : e.id.value? = some i) : (es.reverse.find? fun e ↦ e.id.value? == some i) = some e := by
  induction es with
  | nil => exact absurd he List.not_mem_nil
  | cons a es ih =>
    obtain ⟨hothers, hrest⟩ := List.pairwise_cons.1 h
    rw [List.reverse_cons, List.find?_append]
    rcases List.mem_cons.1 he with rfl | he
    · have hnone : (es.reverse.find? fun e ↦ e.id.value? == some i) = none := by
        refine List.find?_eq_none.2 fun a ha hai ↦ ?_
        have hsame := hid.trans (beq_iff_eq.1 hai).symm
        exact hothers a (List.mem_reverse.1 ha) (by rw [hid]; exact nofun) hsame
      rw [hnone, Option.none_or, List.find?_singleton, if_pos (beq_iff_eq.2 hid)]
    · rw [ih hrest he, Option.some_or]

theorem Request.Changes.UpdatedTo.exists_alike_revised (hd : r.UpdatedTo s c d) (hb : b ∈ c.bands)
    (hid : b.id ≠ none) : ∃ b' ∈ d.bands, (b.revised s r.entries).Alike b' := by
  have hmem : b.revised s r.entries ∈ revisedBands s r.entries c.bands :=
    List.mem_append_left _ (List.mem_map_of_mem hb)
  obtain ⟨b', hb', hstored⟩ := exists_of_mem_right hd.bands.flip hmem
  exact ⟨b', hb', hstored.alike (id_revised.trans_ne hid)⟩

end Entries

namespace Store

variable {s t : Store} {admitted : Store → Event → Prop} {r : Request.Changes} {id : Int}
  {payload : Value} {fault : Option Fault} {res : CommandResult} {c c' d : Criteria}
  {written : List (Option Int)} {e : Request.BandEntry}

namespace Updates

theorem name_eq (h : s.Updates t id r c c' d written) : c'.name = d.name :=
  h.revision.name.trans h.updatedTo.name.symm

theorem mem_products_iff (h : s.Updates t id r c c' d written) {n : Int} :
    n ∈ c'.products.map Product.id ↔ n ∈ d.products.map Product.id := by
  rw [h.revision.products, h.updatedTo.products, mem_ascending]

theorem alters_iff (h : s.Updates t id r c c' d written) (hdistinct : Request.DistinctIds r.entries)
    (he : e ∈ r.entries) : e.Alters s c.bands ↔ e.id.value? = none ∨ ¬ c.KeepsBand d e.id.value? := by
  cases hid : e.id.value? with
  | none =>
    refine iff_of_true (fun i hi ↦ ?_) (.inl rfl)
    cases hid.symm.trans hi
  | some i =>
    obtain ⟨b, hb, hbi⟩ := mem_bandIds_iff.1 ((h.revision.entries e he).2 i hid)
    obtain ⟨b', hb', halike⟩ := h.updatedTo.exists_alike_revised hb (h.stored b hb)
    -- no other entry names the band, so that it ends as this one asks
    have hrevised : b.revised s r.entries = e.band s := by
      simp only [Band.revised, hbi, hdistinct.find?_reverse_eq he hid, Option.map_some, Option.getD_some]
    rw [hrevised] at halike
    have hb'i : b'.id = some i := halike.id_eq.symm.trans hid
    have halters : ¬ e.Alters s c.bands ↔ (e.band s).Alike b := by
      rw [not_alters_iff hid]
      refine ⟨fun hall ↦ hall b hb hbi, fun hband a ha hai ↦ ?_⟩
      rw [eq_of_id_eq h.distinct ha hb hai hbi]
      exact hband
    have hkeeps : c.KeepsBand d (some i) ↔ b.Alike b' := by
      constructor
      · rintro ⟨a, ha, hai, a', ha', haa'⟩
        rw [← eq_of_id_eq h.distinct ha hb hai hbi,
          ← eq_of_id_eq h.updatedTo.distinct ha' hb' (haa'.id_eq.symm.trans hai) hb'i]
        exact haa'
      · intro hbb'
        exact ⟨b, hb, hbi, b', hb', hbb'⟩
    rw [or_iff_right (Option.some_ne_none i), ← not_iff_not, halters, not_not, hkeeps]
    exact ⟨fun h ↦ h.symm.trans halike, fun h ↦ halike.trans h.symm⟩

theorem written_eq_nil_iff (h : s.Updates t id r c c' d written)
    (hdistinct : Request.DistinctIds r.entries) :
    written = [] ↔ List.Forall₂ Band.Alike c.bands d.bands := by
  constructor
  · intro hnone
    have hrevised := h.revision.bands
    rw [h.revision.same hnone] at hrevised
    have hback := (List.forall₂_and_left _ _).2 ⟨h.stored, hrevised.flip⟩
    exact forall₂_comp (fun b a b' hba hab' ↦
      hba.2.symm.trans (hab'.alike (hba.2.id_eq.trans_ne hba.1))) hback h.updatedTo.bands
  · intro hall
    rw [h.revision.unaltered]
    intro e he halters
    cases hid : e.id.value? with
    | none =>
      have hlength := hall.length_eq.trans h.updatedTo.bands.length_eq.symm
      have hnew : 0 < (r.entries.filter fun e ↦ e.id.value?.isNone).length :=
        List.length_pos_of_mem (List.mem_filter.2 ⟨he, by rw [hid]; rfl⟩)
      simp only [revisedBands, List.length_append, List.length_map] at hlength
      omega
    | some i =>
      obtain ⟨b, hb, hbi⟩ := mem_bandIds_iff.1 ((h.revision.entries e he).2 i hid)
      obtain ⟨b', hb', hbb'⟩ := exists_of_mem_right hall.flip hb
      rw [h.alters_iff hdistinct he, hid, or_iff_right (Option.some_ne_none i)] at halters
      exact halters ⟨b, hb, hbi, b', hb', hbb'⟩

theorem describes (h : s.Updates t id r c c' d written) (hdistinct : Request.DistinctIds r.entries) :
    (c.changesTo c' written).Describes (r.entries.map fun e ↦ e.id.value?) c d := by
  have hwritten := h.revision.altered hdistinct (fun i ↦ decide (i = none ∨ ¬ c.KeepsBand d i))
    fun e he ↦ by rw [decide_eq_true_eq, h.alters_iff hdistinct he]
  refine ⟨?_, ?_, fun v hv ↦ ?_, ?_, fun v hv ↦ ?_, fun key hname hproducts hbands ↦ ?_⟩
  · rw [get?_changesTo]
    simp [nameChange, h.name_eq]
  · rw [get?_changesTo]
    simp [productChange_eq_none_iff, h.mem_products_iff]
  · rw [get?_changesTo, if_neg (by decide), if_pos rfl, productChange] at hv
    split at hv
    · cases hv
    · obtain rfl := Option.some.inj hv
      refine ⟨_, _, rfl, pairwise_ascending _, pairwise_ascending _, fun n ↦ ?_, fun n ↦ ?_⟩
      · rw [mem_lacking_iff, h.mem_products_iff]
      · rw [mem_lacking_iff, h.mem_products_iff]
  · rw [get?_changesTo, if_pos rfl, bandChange_eq_none_iff, h.written_eq_nil_iff hdistinct]
  · rw [get?_changesTo, if_pos rfl, bandChange] at hv
    split at hv
    · cases hv
    · rw [← Option.some.inj hv, hwritten]
  · rw [get?_changesTo, if_neg hbands, if_neg hproducts, if_neg hname]

end Updates

/-- The update does not come to a save, so that it goes the same way where every save fails. -/
def SavesNothing (s : Store) (id : Int) (payload : Value) : Prop :=
  ∀ f, s.update id payload (some ⟨.save, f⟩) = s.update id payload none

theorem savesNothing_of_isEmpty (hread : Request.Changes.read .call payload = .ok r)
    (hok : (s.update id payload fault).answer = .ok res) (hempty : res.changes.isEmpty = true) :
    (s.update id payload fault).store = s ∧ s.SavesNothing id payload := by
  rw [update_eq_close hread] at hok ⊢
  obtain ⟨t, hwork⟩ := Report.close_answer_eq_ok_iff.1 hok
  obtain ⟨c', ch, hrevise, rfl, ⟨-, rfl⟩ | ⟨hsome, -⟩⟩ := updateFrom_eq_ok hwork
  · refine ⟨?_, fun f ↦ ?_⟩
    · rw [hwork, Report.close_of_ok.2]
    · rw [update_eq_close hread, update_eq_close hread, run_updateFrom_of_unchanged hrevise hempty rfl,
        run_updateFrom_of_unchanged hrevise hempty rfl]
  · cases hempty.symm.trans hsome

theorem isEmpty_of_savesNothing (hread : Request.Changes.read .call payload = .ok r)
    (hok : (s.update id payload none).answer = .ok res) (h : s.SavesNothing id payload) :
    res.changes.isEmpty = true := by
  have hstopped := congrArg Report.answer (h .tooLarge)
  rw [hok, update_eq_close hread, Report.close_answer_eq_ok_iff] at hstopped
  obtain ⟨t, hwork⟩ := hstopped
  obtain ⟨c', ch, hrevise, rfl, ⟨hempty, -⟩ | ⟨hsome, -⟩⟩ := updateFrom_eq_ok hwork
  · exact hempty
  · rw [updateFrom, Transaction.run_current_bind, Transaction.run_ofExcept_bind_of_ok hrevise] at hwork
    dsimp only at hwork
    rw [hsome, if_pos (by decide)] at hwork
    cases hwork

/-- An update reports the difference between what is read before and after it. -/
theorem Arises.update_changes (hs : s.Arises admitted)
    (hread : Request.Changes.read .call payload = .ok r) (hdistinct : Request.DistinctIds r.entries)
    (hok : (s.update id payload fault).answer = .ok res) :
    ∃ c c', s.get id = .ok c ∧ (s.update id payload fault).store.get id = .ok c' ∧
      res.changes.Describes (r.entries.map fun e ↦ e.id.value?) c c' ∧
      (res.changes.isEmpty = true ↔ c' = c) ∧
      (res.changes.isEmpty = true →
        (s.update id payload fault).store = s ∧ s.SavesNothing id payload) := by
  obtain ⟨c, c', d, written, h, rfl⟩ := hs.coherent.exists_updates hread hok
  refine ⟨c, d, h.before, h.after, h.describes hdistinct, ⟨h.same, ?_⟩,
    savesNothing_of_isEmpty hread hok⟩
  rintro rfl
  refine isEmpty_changesTo_iff.2 ⟨h.name_eq, fun n ↦ h.mem_products_iff, ?_⟩
  rw [h.written_eq_nil_iff hdistinct]
  exact List.forall₂_same.2 fun b _ ↦ .refl b

end Store

namespace Sample

def created : Store := store.after (.call ⟨.create monthly.dump, none⟩)

def both : Store := created.after (.call ⟨.create weekly.dump, none⟩)

def renamed : Store := created.after (.putAccount ⟨1, "Reserve", "2100", 2⟩)

def extended : Request.Changes :=
  ⟨.absent, .given [entry (.given 1) 0 30, entry .absent 60 90], .given [2, 1, 2]⟩

end Sample

theorem Store.update_changes_of_renamed :
    Sample.renamed.Arises (fun _ _ ↦ True) ∧
      Request.Changes.read .call Sample.extended.dump = .ok Sample.extended ∧
      Request.DistinctIds Sample.extended.entries ∧
      ∃ res c c', (Sample.renamed.update 1 Sample.extended.dump none).answer = .ok res ∧
        Sample.renamed.get 1 = .ok c ∧
        (Sample.renamed.update 1 Sample.extended.dump none).store.get 1 = .ok c' ∧
        res.changes.Describes [some 1, none] c c' ∧
        res.changes.get? "definitions" = some (.list [.int 1, .null]) := by
  have hs : Sample.renamed.Arises (fun _ _ ↦ True) :=
    ((Arises.blank ⟨rfl, rfl, rfl⟩ rfl).step trivial).step trivial
  have hread : Request.Changes.read .call Sample.extended.dump = .ok Sample.extended := rfl
  have hdistinct : Request.DistinctIds Sample.extended.entries := by
    simp [Request.DistinctIds, Sample.extended, Sample.entry, Request.Changes.entries,
      Request.Presence.value?]
  obtain ⟨res, hok⟩ : ∃ res, (Sample.renamed.update 1 Sample.extended.dump none).answer = .ok res :=
    ⟨_, rfl⟩
  have hbands : (Sample.renamed.update 1 Sample.extended.dump none).answer.map
      (fun res ↦ res.changes.get? "definitions") = .ok (some (.list [.int 1, .null])) := rfl
  rw [hok] at hbands
  obtain ⟨c, c', hget, hget', hchanges, -⟩ := Arises.update_changes hs hread hdistinct hok
  exact ⟨hs, hread, hdistinct, res, c, c', hok, hget, hget', hchanges, Except.ok.inj hbands⟩

end Provisioning
