import Provisioning.Command
import Provisioning.Proofs.Revision
import Provisioning.Proofs.Store.Preservation

namespace Provisioning

namespace Report

variable {a : Action} {s t : Store} {name : Option String} {x : Except Failure CommandResult × Store}
  {r : CommandResult} {e : Failure}

theorem close_of_ok : (close a s name (.ok r, t)).answer = .ok r ∧ (close a s name (.ok r, t)).store = t :=
  ⟨rfl, rfl⟩

theorem close_of_error :
    (∃ e', (close a s name (.error e, t)).answer = .error e') ∧
      (close a s name (.error e, t)).store = s := by
  cases e <;> exact ⟨⟨_, rfl⟩, rfl⟩

theorem close_answer_eq_ok_iff :
    (close a s name x).answer = .ok r ↔ ∃ t, x = (.ok r, t) := by
  obtain ⟨e | r', t⟩ := x
  · obtain ⟨e', he⟩ : ∃ e', (close a s name (.error e, t)).answer = .error e' := close_of_error.1
    simp [he]
  · simp [close]

/-- Whatever the working copy has become, a failed command ends with the store it began with. -/
theorem store_eq_of_close_error (h : (close a s name x).answer = .error e) :
    (close a s name x).store = s := by
  obtain ⟨e' | r', t⟩ := x
  · exact close_of_error.2
  · cases h

theorem close_preserves {P : Store → Prop} (hs : P s) (hx : ∀ r t, x = (.ok r, t) → P t) :
    P (close a s name x).store := by
  obtain ⟨e | r, t⟩ := x
  · rw [close_of_error.2]
    exact hs
  · exact hx r t rfl

end Report

namespace Store

variable {s t : Store} {fault : Option Fault}

theorem run_of_run_reach_bind {point : CallPoint} {f : Unit → Transaction CommandResult}
    {res : CommandResult} (h : (reach fault point >>= f).run s = (.ok res, t)) :
    (f ()).run s = (.ok res, t) := by
  obtain ⟨_, u, hreach, hf⟩ := Transaction.run_bind_eq_ok_iff.1 h
  have hu : u = s := by
    cases fault with
    | none => exact (congrArg Prod.snd hreach).symm
    | some f => exact (congrArg Prod.snd hreach).symm
  rw [hu] at hf
  exact hf

theorem eq_of_run_commit {res res' : CommandResult}
    (h : (reach fault .commit >>= fun _ ↦ pure res').run s = (.ok res, t)) : res = res' ∧ t = s := by
  have hpure := run_of_run_reach_bind h
  rw [Transaction.run_pure, Prod.mk.injEq] at hpure
  exact ⟨(Except.ok.inj hpure.1).symm, hpure.2.symm⟩

theorem run_reach_none (point : CallPoint) : (reach none point).run s = (.ok (), s) := rfl

theorem Consistent.run_write_eq_ok_iff (hs : s.Consistent) {c : Criteria} (hc : c.Sound s) {h : Header} :
    (write c.snapshot).run s = (.ok h, t) ↔
      ((∀ b ∈ c.bands, b.fits = true) ∧ ¬ s.NameTaken (s.headerId c.snapshot) c.name ∧
        ¬ s.ProductTaken c.snapshot) ∧
      h = ⟨s.headerId c.snapshot, c.name⟩ ∧ t = s.written c.snapshot c.name :=
  Store.run_write_eq_ok_iff (hs.supports hc) rfl

theorem Consistent.of_run_write (hs : s.Consistent) {c : Criteria} (hc : c.Sound s) {h : Header}
    (hok : (write c.snapshot).run s = (.ok h, t)) : t.Consistent ∧ s.Agrees t := by
  obtain ⟨⟨hfits, htaken, hproduct⟩, -, rfl⟩ := (hs.run_write_eq_ok_iff hc).1 hok
  exact ⟨hs.written hc hfits htaken hproduct, agrees_written s _ _⟩

theorem sound_of_assemble {r : Request.NewCriteria} {c : Criteria}
    (h : (s.directory.assemble r).answer = .ok c) : c.Sound s := by
  obtain ⟨hr, ps, rfl, -, hps⟩ := assemble_eq_ok_iff.1 h
  exact {
    name := hr.name
    nonempty := fun hnil ↦ hr.nonempty (List.map_eq_nil_iff.1 hnil)
    bands := by
      intro b hb
      obtain ⟨e, he, rfl⟩ := List.mem_map.1 hb
      exact (hr.entries e he).sound none
    disjoint := hr.disjoint
    ids := by
      refine ⟨r.bands.length, ?_⟩
      rw [List.map_map]
      exact List.map_const'
    products := hps
    stored := nofun }

section Work

variable {id : Int} {res : CommandResult}

theorem createFrom_eq_ok {r : Request.NewCriteria} (h : (createFrom fault r).run s = (.ok res, t)) :
    ∃ c q, (s.directory.assemble r).answer = .ok c ∧ (write c.snapshot).run s = (.ok q, t) ∧
      res = ⟨q.id, .empty⟩ := by
  rw [createFrom, Transaction.run_current_bind] at h
  obtain ⟨c, hc, h⟩ := Transaction.run_ofExcept_bind_eq_ok_iff.1 h
  obtain ⟨q, u, hq, h⟩ := Transaction.run_bind_eq_ok_iff.1 (run_of_run_reach_bind h)
  obtain ⟨hres, hu⟩ := eq_of_run_commit h
  exact ⟨c, q, hc, hu ▸ hq, hres⟩

theorem updateFrom_eq_ok {r : Request.Changes} (h : (updateFrom fault id r).run s = (.ok res, t)) :
    ∃ c ch, s.revise id r = .ok (c, ch) ∧ res = ⟨id, ch⟩ ∧
      (ch.isEmpty = true ∧ t = s ∨
        ch.isEmpty = false ∧ ∃ q, (write c.snapshot).run s = (.ok q, t)) := by
  rw [updateFrom, Transaction.run_current_bind] at h
  obtain ⟨⟨c, ch⟩, hc, h⟩ := Transaction.run_ofExcept_bind_eq_ok_iff.1 h
  refine ⟨c, ch, hc, ?_⟩
  dsimp only at h
  cases hempty : ch.isEmpty with
  | true =>
    rw [hempty, if_neg (by decide)] at h
    obtain ⟨hres, ht⟩ := eq_of_run_commit h
    exact ⟨hres, .inl ⟨rfl, ht⟩⟩
  | false =>
    rw [hempty, if_pos (by decide)] at h
    obtain ⟨q, u, hq, h⟩ := Transaction.run_bind_eq_ok_iff.1 (run_of_run_reach_bind h)
    obtain ⟨hres, hu⟩ := eq_of_run_commit h
    exact ⟨hres, .inr ⟨rfl, q, hu ▸ hq⟩⟩

theorem not_mem_entries_of_isUsed (h : s.isUsed id = .ok false) : id ∉ s.entries := by
  rw [isUsed] at h
  split at h
  · simpa using h
  · cases h

theorem deleteUnused_eq_ok (h : (deleteUnused fault id).run s = (.ok res, t)) :
    s.delete id = .ok t ∧ id ∉ s.entries ∧ res = ⟨id, .empty⟩ := by
  rw [deleteUnused, Transaction.run_current_bind] at h
  obtain ⟨c, hc, h⟩ := Transaction.run_ofExcept_bind_eq_ok_iff.1 h
  obtain ⟨used, hused, h⟩ := Transaction.run_ofExcept_bind_eq_ok_iff.1 h
  dsimp only at h
  cases used with
  | true =>
    rw [if_pos rfl] at h
    obtain ⟨_, hbad, -⟩ := Transaction.run_ofExcept_bind_eq_ok_iff.1 h
    cases hbad
  | false =>
    rw [if_neg Bool.false_ne_true] at h
    obtain ⟨u, hu, h⟩ := Transaction.run_ofExcept_bind_eq_ok_iff.1 (run_of_run_reach_bind h)
    rw [Transaction.run_modify_bind] at h
    obtain ⟨hres, ht⟩ := eq_of_run_commit h
    exact ⟨ht ▸ hu, not_mem_entries_of_isUsed hused, hres⟩

end Work

/-- All that a command can make of a store, whether it is stopped or not. -/
inductive Becomes (s : Store) : Store → Prop
  | same : Becomes s s
  | created {r : Request.NewCriteria} {c : Criteria} {h : Header} {t : Store} :
    (s.directory.assemble r).answer = .ok c → (write c.snapshot).run s = (.ok h, t) → Becomes s t
  | updated {id : Int} {r : Request.Changes} {c c' : Criteria} {ch : ChangeSet} {h : Header} {t : Store} :
    s.get id = .ok c → s.revise id r = .ok (c', ch) → (write c'.snapshot).run s = (.ok h, t) → Becomes s t
  | deleted {id : Int} {t : Store} : s.delete id = .ok t → id ∉ s.entries → Becomes s t

theorem get_eq_ok_of_revise {id : Int} {r : Request.Changes} {c : Criteria} {ch : ChangeSet}
    (h : s.revise id r = .ok (c, ch)) : ∃ stored, s.get id = .ok stored := by
  obtain ⟨stored, hget, -⟩ := bind_eq_ok_iff.1 h
  exact ⟨stored, hget⟩

theorem becomes_run (s : Store) (fault : Option Fault) (c : Command) :
    s.Becomes (c.run s fault).store := by
  cases c with
  | create payload =>
    rw [Command.run, create]
    cases Request.NewCriteria.read .call payload with
    | error e => exact .same
    | ok r =>
      apply Report.close_preserves .same
      intro res t hwork
      obtain ⟨c, q, hc, hwrite, -⟩ := createFrom_eq_ok hwork
      exact .created hc hwrite
  | update id payload =>
    rw [Command.run, update]
    cases Request.Changes.read .call payload with
    | error e => exact .same
    | ok r =>
      apply Report.close_preserves .same
      intro res t hwork
      obtain ⟨c', ch, hrevise, -, ⟨-, rfl⟩ | ⟨-, q, hwrite⟩⟩ := updateFrom_eq_ok hwork
      · exact .same
      · obtain ⟨c, hget⟩ := get_eq_ok_of_revise hrevise
        exact .updated hget hrevise hwrite
  | delete id =>
    apply Report.close_preserves .same
    intro res t hwork
    obtain ⟨hdelete, hfree, -⟩ := deleteUnused_eq_ok hwork
    exact .deleted hdelete hfree

end Store
end Provisioning
