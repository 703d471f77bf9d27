import Provisioning.Proofs.Command.History
import Provisioning.Proofs.Command.Update

namespace Provisioning

theorem BandRow.Sound.with_entries {s : Store} {r : BandRow} (hr : r.Sound s) (entries : List Int) :
    r.Sound { s with entries } :=
  ⟨⟨hr.band.ages, hr.band.percentage, hr.band.category, hr.band.liability, hr.band.expense⟩, hr.scale,
    hr.fits⟩

namespace Store

structure WithoutCriteria (s t : Store) (id : Int) : Prop where
  headers : t.headers = s.headers.filter fun h ↦ h.id != id
  bands : t.bands = s.bands.filter fun r ↦ r.criteriaId != id
  links : t.links = s.links.filter fun l ↦ l.criteriaId != id
  agrees : s.Agrees t

def EntriesStored (s : Store) : Prop := ∀ id ∈ s.entries, ∃ h ∈ s.headers, h.id = id

variable {s t : Store} {id : Int}

section Run

theorem Consistent.with_entries (hs : s.Consistent) (entries : List Int) :
    Consistent { s with entries } :=
  { hs with sound := fun r hr ↦ (hs.sound r hr).with_entries entries }

theorem EntriesStored.of_write (h : s.EntriesStored) (hs : s.Consistent) {c : Criteria} (hc : c.Sound s)
    {q : Header} (hwrite : (write c.snapshot).run s = (.ok q, t)) : t.EntriesStored := by
  obtain ⟨-, -, rfl⟩ := (hs.run_write_eq_ok_iff hc).1 hwrite
  intro id hid
  obtain ⟨h, hh, rfl⟩ := h id hid
  exact hs.ordered.exists_header_written hh

theorem EntriesStored.of_becomes (h : s.EntriesStored) (hs : s.Consistent) (hst : s.Becomes t) :
    t.EntriesStored := by
  cases hst with
  | same => exact h
  | created hc hwrite => exact h.of_write hs (sound_of_assemble hc) hwrite
  | updated hget hrevise hwrite =>
    obtain ⟨-, -, hsound, -⟩ := hs.revise_eq_ok (hs.sound_of_get hget) hget hrevise
    exact h.of_write hs hsound hwrite
  | deleted hdelete hfree =>
    intro id hid
    rw [(agrees_of_delete hdelete).entries] at hid
    obtain ⟨q, hq, rfl⟩ := h id hid
    rw [delete_eq_ok hdelete]
    refine ⟨q, List.mem_filter.2 ⟨hq, bne_iff_ne.2 fun he ↦ ?_⟩, rfl⟩
    exact hfree (he ▸ hid)

theorem Arises.consistent (hs : s.Arises Event.Ordinary) : s.Consistent ∧ s.EntriesStored := by
  induction hs with
  | @blank s hs hentries =>
    refine ⟨hs.consistent, fun id hid ↦ ?_⟩
    rw [hentries] at hid
    exact absurd hid List.not_mem_nil
  | @step s e _ he ih =>
    obtain ⟨hs, hstored⟩ := ih
    cases he with
    | call c =>
      have hstep := becomes_run s c.fault c.command
      exact ⟨(hs.of_becomes hstep).1, hstored.of_becomes hs hstep⟩
    | @entry h hh =>
      apply changedBy_preserves (P := fun t ↦ t.Consistent ∧ t.EntriesStored) ⟨hs, hstored⟩
      intro t ht
      rw [addEntry_eq_ok ht]
      refine ⟨hs.with_entries _, fun id hid ↦ ?_⟩
      rcases List.mem_append.1 hid with hid | hid
      · exact hstored id hid
      · exact ⟨h, hh, (List.mem_singleton.1 hid).symm⟩

end Run

section Answer

theorem get_of_not_inWord (hid : inWord id = false) : s.get id = .error .tooLarge := by
  simp [get, getRow, findRow, hid, bind, Except.bind]

theorem get_of_not_stored (hid : inWord id = true) (h : ∀ q ∈ s.headers, q.id ≠ id) :
    s.get id = .error (.missing .criteria id) := by
  have hfind : (s.headers.find? fun q ↦ q.id == id) = none := by simpa using h
  simp [get, getRow, findRow, hid, hfind, bind, Except.bind, throw, throwThe, MonadExceptOf.throw]

theorem Consistent.getRow_of_stored (hs : s.Consistent) (hid : inWord id = true)
    (h : ∃ q ∈ s.headers, q.id = id) :
    ∃ q, getRow Header.id s.headers .criteria id = .ok q := by
  obtain ⟨q, hq, rfl⟩ := h
  exact ⟨q, getRow_eq_ok_iff.2 ⟨hid, find?_eq_some_of_nodup hs.ordered.nodup_headerIds hq⟩⟩

theorem Consistent.get_of_stored (hs : s.Consistent) (hid : inWord id = true)
    (h : ∃ q ∈ s.headers, q.id = id) : ∃ c, s.get id = .ok c := by
  obtain ⟨q, hq⟩ := hs.getRow_of_stored hid h
  exact ⟨s.criteria q, (get_eq_ok_iff hs.readable).2 ⟨q, hq, rfl⟩⟩

theorem run_deleteUnused_of_error {e : Failure} (hget : s.get id = .error e) :
    (deleteUnused none id).run s = (.error e, s) := by
  rw [deleteUnused, Transaction.run_current_bind, Transaction.run_ofExcept_bind_of_error hget]

theorem run_deleteUnused_of_used {c : Criteria} (hget : s.get id = .ok c) (hused : id ∈ s.entries) :
    (deleteUnused none id).run s = (.error (.domain (.inUse (.int id))), s) := by
  have hisUsed : s.isUsed id = .ok true := by simp [isUsed, inWord_of_get hget, hused]
  rw [deleteUnused, Transaction.run_current_bind, Transaction.run_ofExcept_bind_of_ok hget,
    Transaction.run_ofExcept_bind_of_ok hisUsed]
  rfl

theorem run_deleteUnused_of_free {c : Criteria} (hget : s.get id = .ok c) (hfree : id ∉ s.entries) :
    ∃ t, (deleteUnused none id).run s = (.ok ⟨id, .empty⟩, t) := by
  have hisUsed : s.isUsed id = .ok false := by simp [isUsed, inWord_of_get hget, hfree]
  obtain ⟨q, hq, -⟩ := bind_eq_ok_iff.1 hget
  have hqid := (mem_and_id_of_getRow hq).2
  have hunreferenced : s.unreferenced (s.entries.contains q.id) = .ok () := by
    simp [unreferenced, hqid, hfree]
  obtain ⟨t, ht⟩ : ∃ t, s.delete id = .ok t :=
    ⟨_, bind_eq_ok_iff.2 ⟨q, hq, bind_eq_ok_iff.2 ⟨(), hunreferenced, rfl⟩⟩⟩
  refine ⟨t, ?_⟩
  rw [deleteUnused, Transaction.run_current_bind, Transaction.run_ofExcept_bind_of_ok hget,
    Transaction.run_ofExcept_bind_of_ok hisUsed]
  dsimp only
  rw [if_neg Bool.false_ne_true, Transaction.run_bind_of_ok (run_reach_none .delete),
    Transaction.run_ofExcept_bind_of_ok ht, Transaction.run_modify_bind,
    Transaction.run_bind_of_ok (run_reach_none .commit), Transaction.run_pure]

end Answer

theorem Consistent.withoutCriteria_of_delete (hs : s.Consistent) (h : s.delete id = .ok t) :
    s.WithoutCriteria t id where
  headers := by rw [delete_eq_ok h]
  bands := by rw [delete_eq_ok h]
  links := hs.links_of_delete h
  agrees := agrees_of_delete h

theorem Consistent.all_of_delete (hs : s.Consistent) (h : s.delete id = .ok t) :
    t.all = .ok (others id (s.headers.map s.criteria)) := by
  have hsame := agrees_of_delete h
  have hheaders : t.headers = s.headers.filter fun q ↦ q.id != id := by rw [delete_eq_ok h]
  have hothers : others id (s.headers.map s.criteria) =
      (s.headers.filter fun q ↦ q.id != id).map s.criteria := by
    rw [others, List.filter_map]
    rfl
  rw [all_eq (hs.of_delete h).readable, hothers, hheaders]
  congr 1
  apply List.map_congr_left
  intro q hq
  have hne : q.id ≠ id := bne_iff_ne.1 (List.mem_filter.1 hq).2
  refine criteria_congr hsame.categories hsame.products (bandsOf_of_delete h hne) ?_
  rw [hs.links_of_delete h, List.filter_filter]
  refine List.filter_congr fun l _ ↦ ?_
  by_cases hl : l.criteriaId = q.id <;> simp [hl, hne]

theorem exists_criteria_iff : (∃ c ∈ s.headers.map s.criteria, c.id = some id) ↔ ∃ q ∈ s.headers, q.id = id := by
  simp [criteria]

/-- An id that needs more than 64 bits is no criteria's, but is not answered as one that is missing. -/
theorem Arises.remove_spec (hs : s.Arises Event.Ordinary) :
    ∃ cs, s.all = .ok cs ∧ (∀ i ∈ s.entries, ∃ c ∈ cs, c.id = some i) ∧
      (∀ id, inWord id = true →
        ((∃ res, (s.remove id none).answer = .ok res) ↔ (∃ c ∈ cs, c.id = some id) ∧ id ∉ s.entries) ∧
        ((∀ c ∈ cs, c.id ≠ some id) → (s.remove id none).answer = .error (.missing .criteria id)) ∧
        ((∃ c ∈ cs, c.id = some id) → id ∈ s.entries →
          (s.remove id none).answer = .error (.domain (.inUse (.int id))))) ∧
      (∀ id, inWord id = false →
        (s.remove id none).answer = .error .tooLarge ∧ (s.remove id none).store = s) ∧
      (∀ id fault res, (s.remove id fault).answer = .ok res →
        (s.remove id fault).store.all = .ok (others id cs) ∧
          s.WithoutCriteria (s.remove id fault).store id) ∧
      (∀ payload r, Request.NewCriteria.read .call payload = .ok r →
        ((∃ res, (s.create payload none).answer = .ok res) ↔
          r.Valid s ∧ (∀ e ∈ r.bands, e.AgesFit) ∧ NameFree cs r.name ∧
            ProductsFree cs r.productIds)) ∧
      ∀ id payload r, Request.Changes.read .call payload = .ok r →
        ((∃ res, (s.update id payload none).answer = .ok res) ↔
          ∃ c, s.get id = .ok c ∧ r.Valid s c ∧ (∀ b ∈ revisedBands s r.entries c.bands, b.fits = true) ∧
            r.Free (others id cs)) := by
  obtain ⟨hs, hstored⟩ := hs.consistent
  refine ⟨s.headers.map s.criteria, all_eq hs.readable, fun i hi ↦ exists_criteria_iff.2 (hstored i hi),
    fun id hid ↦ ⟨?_, fun hnone ↦ ?_, fun hsome hused ↦ ?_⟩, fun id hid ↦ ?_, fun id fault res hok ↦ ?_,
    fun payload r hread ↦ hs.create_answer_eq_ok_iff hread,
    fun id payload r hread ↦ hs.update_answer_eq_ok_iff hread⟩
  · rw [exists_criteria_iff]
    constructor
    · rintro ⟨res, hok⟩
      obtain ⟨t, hwork⟩ := Report.close_answer_eq_ok_iff.1 hok
      obtain ⟨hdelete, hfree, -⟩ := deleteUnused_eq_ok hwork
      obtain ⟨q, hq, -⟩ := bind_eq_ok_iff.1 hdelete
      exact ⟨⟨q, mem_and_id_of_getRow hq⟩, hfree⟩
    · rintro ⟨hsome, hfree⟩
      obtain ⟨c, hget⟩ := hs.get_of_stored hid hsome
      obtain ⟨t, hwork⟩ := run_deleteUnused_of_free hget hfree
      exact ⟨_, Report.close_answer_eq_ok_iff.2 ⟨t, hwork⟩⟩
  · have hmissing : ∀ q ∈ s.headers, q.id ≠ id := fun q hq he ↦
      hnone (s.criteria q) (List.mem_map_of_mem hq) (congrArg some he)
    rw [remove, run_deleteUnused_of_error (get_of_not_stored hid hmissing)]
    rfl
  · obtain ⟨c, hget⟩ := hs.get_of_stored hid (exists_criteria_iff.1 hsome)
    rw [remove, run_deleteUnused_of_used hget hused]
    rfl
  · rw [remove, run_deleteUnused_of_error (get_of_not_inWord hid)]
    exact ⟨rfl, rfl⟩
  · obtain ⟨t, hwork⟩ := Report.close_answer_eq_ok_iff.1 hok
    obtain ⟨hdelete, -⟩ := deleteUnused_eq_ok hwork
    rw [remove, hwork, Report.close_of_ok.2]
    exact ⟨hs.all_of_delete hdelete, hs.withoutCriteria_of_delete hdelete⟩

theorem remove_spec_of_used :
    let s := ((Sample.store.after (.call ⟨.create Sample.monthly.dump, none⟩)).after
      (.call ⟨.create Sample.weekly.dump, none⟩)).after (.entry 1)
    s.Arises Event.Ordinary ∧ (s.remove 1 none).answer = .error (.domain (.inUse (.int 1))) ∧
      ∃ cs, s.all = .ok cs ∧ (s.remove 2 none).store.all = .ok (others 2 cs) := by
  intro s
  have hs : s.Arises Event.Ordinary :=
    ((Arises.blank ⟨rfl, rfl, rfl⟩ rfl).step (.call _)).step (.call _) |>.step
      (.entry (h := ⟨1, "Monthly"⟩) (.head _))
  have hused : 1 ∈ s.entries := .head _
  have hok : (s.remove 2 none).answer = .ok ⟨2, .empty⟩ := rfl
  obtain ⟨cs, hall, hentries, hremove, -, hgone, -⟩ := Arises.remove_spec hs
  exact ⟨hs, (hremove 1 rfl).2.2 (hentries 1 hused) hused, cs, hall, (hgone 2 none _ hok).1⟩

/-- No criteria is stored, yet the answer is not that it is missing. -/
theorem remove_of_large_id :
    Sample.store.Arises Event.Ordinary ∧ Sample.store.all = .ok [] ∧
      (Sample.store.remove 9223372036854775808 none).answer = .error .tooLarge ∧
      (Sample.store.remove 9223372036854775808 none).answer ≠
        .error (.missing .criteria 9223372036854775808) := by
  have hanswer : (Sample.store.remove 9223372036854775808 none).answer = .error .tooLarge := rfl
  refine ⟨.blank ⟨rfl, rfl, rfl⟩ rfl, rfl, hanswer, ?_⟩
  rw [hanswer]
  exact nofun

end Store
end Provisioning
