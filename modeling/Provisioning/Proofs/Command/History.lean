import Provisioning.Proofs.Command.Run
import Provisioning.Proofs.Store.Coherent

namespace Provisioning

inductive Event where
  | call (c : Call)
  | entry (id : Int)
  | putCategory (c : Category)
  | putAccount (a : AccountRow)
  | putProduct (p : Product)
  | dropCategory (id : Int)
  | dropAccount (id : Int)
  | dropProduct (id : Int)

inductive Event.Ordinary (s : Store) : Event → Prop
  | call (c : Call) : Ordinary s (.call c)
  | entry {h : Header} : h ∈ s.headers → Ordinary s (.entry h.id)

namespace Store

def changedBy (s : Store) : Except Failure Store → Store
  | .ok t => t
  | .error _ => s

def after (s : Store) : Event → Store
  | .call c => (c.command.run s c.fault).store
  | .entry id => s.changedBy (s.addEntry id)
  | .putCategory c => s.putCategory c
  | .putAccount a => s.putAccount a
  | .putProduct p => s.putProduct p
  | .dropCategory id => s.changedBy (s.dropCategory id)
  | .dropAccount id => s.changedBy (s.dropAccount id)
  | .dropProduct id => s.changedBy (s.dropProduct id)

/-- The store comes from one without criteria and entries, by events that were admitted when they
happened. -/
inductive Arises (admitted : Store → Event → Prop) : Store → Prop
  | blank {s : Store} : s.Blank → s.entries = [] → Arises admitted s
  | step {s : Store} {e : Event} : Arises admitted s → admitted s e → Arises admitted (s.after e)

variable {s t : Store} {admitted : Store → Event → Prop}

theorem changedBy_preserves {P : Store → Prop} (hs : P s) {x : Except Failure Store}
    (hx : ∀ t, x = .ok t → P t) : P (s.changedBy x) := by
  cases x with
  | error e => exact hs
  | ok t => exact hx t rfl

section Entries

theorem addEntry_eq_ok {id : Int} (h : s.addEntry id = .ok t) :
    t = { s with entries := s.entries ++ [id] } := by
  simp only [addEntry] at h
  split at h
  · cases h
  · split at h
    · cases h
    · exact (Except.ok.inj h).symm

theorem dropCategory_eq_ok {id : Int} (h : s.dropCategory id = .ok t) :
    t = { s with categories := s.categories.filter fun c ↦ c.id != id } := by
  obtain ⟨_, -, h⟩ := bind_eq_ok_iff.1 h
  exact (Except.ok.inj h).symm

theorem dropProduct_eq_ok {id : Int} (h : s.dropProduct id = .ok t) :
    t = { s with products := s.products.filter fun p ↦ p.id != id } := by
  obtain ⟨_, -, h⟩ := bind_eq_ok_iff.1 h
  exact (Except.ok.inj h).symm

theorem dropAccount_eq_ok {id : Int} (h : s.dropAccount id = .ok t) :
    t = { s with accounts := s.accounts.filter fun a ↦ a.id != id } ∧
      (s.foreignKeys = true → ∀ r ∈ s.bands, r.liability.id ≠ id ∧ r.expense.id ≠ id) := by
  obtain ⟨_, hfree, h⟩ := bind_eq_ok_iff.1 h
  refine ⟨(Except.ok.inj h).symm, fun hkeys r hr ↦ ?_⟩
  rw [unreferenced, hkeys, Bool.true_and] at hfree
  split at hfree
  · cases hfree
  · rename_i hnone
    simp only [List.any_eq_true, not_exists, not_and, Bool.or_eq_true, beq_iff_eq, not_or] at hnone
    exact hnone r hr

end Entries

section Coherent

theorem Blank.coherent (hs : s.Blank) : s.Coherent := by
  obtain ⟨hheaders, hbands, hlinks⟩ := hs
  exact {
    headerIds := by simp [hheaders]
    bandIds := by simp [hbands]
    rows := by simp [hbands]
    links := by simp [hlinks] }

theorem Coherent.of_same_rows (hs : s.Coherent) (hheaders : t.headers = s.headers)
    (hbands : t.bands = s.bands) (hlinks : t.links = s.links)
    (haccounts : ∀ r ∈ s.bands, s.hasAccounts r = true → t.hasAccounts r = true) : t.Coherent where
  headerIds := hheaders ▸ hs.headerIds
  bandIds := hbands ▸ hs.bandIds
  rows r hr := by
    rw [hbands] at hr
    have hrow := hs.rows r hr
    exact ⟨hrow.percentage, hrow.category, haccounts r hr hrow.accounts⟩
  links := hlinks ▸ hs.links

theorem Coherent.putAccount (hs : s.Coherent) (a : AccountRow) : (s.putAccount a).Coherent := by
  refine hs.of_same_rows rfl rfl rfl fun r _ hr ↦ ?_
  rw [hasAccounts_eq_true_iff] at hr ⊢
  exact ⟨fun hkeys ↦ exists_mem_putRow (hr.1 hkeys), fun hkeys ↦ exists_mem_putRow (hr.2 hkeys)⟩

theorem Coherent.of_dropAccount (hs : s.Coherent) {id : Int} (h : s.dropAccount id = .ok t) :
    t.Coherent := by
  obtain ⟨rfl, hfree⟩ := dropAccount_eq_ok h
  refine hs.of_same_rows rfl rfl rfl fun r hr haccounts ↦ ?_
  rw [hasAccounts_eq_true_iff] at haccounts ⊢
  constructor
  · intro hkeys
    obtain ⟨a, ha, hid⟩ := haccounts.1 hkeys
    exact ⟨a, List.mem_filter.2 ⟨ha, bne_iff_ne.2 (hid ▸ (hfree hkeys r hr).1)⟩, hid⟩
  · intro hkeys
    obtain ⟨a, ha, hid⟩ := haccounts.2 hkeys
    exact ⟨a, List.mem_filter.2 ⟨ha, bne_iff_ne.2 (hid ▸ (hfree hkeys r hr).2)⟩, hid⟩

theorem Coherent.of_run_write (hs : s.Coherent) {c : Criteria} (hc : s.Supports c.snapshot) {h : Header}
    (hok : (write c.snapshot).run s = (.ok h, t)) : t.Coherent := by
  obtain ⟨-, -, rfl⟩ := (run_write_eq_ok_iff hc rfl).1 hok
  exact hs.written hc

theorem Coherent.of_becomes (hs : s.Coherent) (h : s.Becomes t) : t.Coherent := by
  cases h with
  | same => exact hs
  | created hc hwrite => exact hs.of_run_write (hs.supports (sound_of_assemble hc)) hwrite
  | updated hget hrevise hwrite =>
    obtain ⟨written, hrevision, -⟩ := revision_of_revise hget (hs.distinct_of_get hget) hrevise
    exact hs.of_run_write (hs.supports_of_revision hget hrevision) hwrite
  | deleted hdelete _ => exact hs.of_delete hdelete

theorem Coherent.after (hs : s.Coherent) (e : Event) : (s.after e).Coherent := by
  cases e with
  | call c => exact hs.of_becomes (becomes_run s c.fault c.command)
  | entry id =>
    refine changedBy_preserves hs fun t h ↦ ?_
    rw [addEntry_eq_ok h]
    exact hs.of_same_rows rfl rfl rfl fun _ _ h ↦ h
  | putCategory c => exact hs.of_same_rows rfl rfl rfl fun _ _ h ↦ h
  | putAccount a => exact hs.putAccount a
  | putProduct p => exact hs.of_same_rows rfl rfl rfl fun _ _ h ↦ h
  | dropCategory id =>
    refine changedBy_preserves hs fun t h ↦ ?_
    rw [dropCategory_eq_ok h]
    exact hs.of_same_rows rfl rfl rfl fun _ _ h ↦ h
  | dropAccount id => exact changedBy_preserves hs fun t h ↦ hs.of_dropAccount h
  | dropProduct id =>
    refine changedBy_preserves hs fun t h ↦ ?_
    rw [dropProduct_eq_ok h]
    exact hs.of_same_rows rfl rfl rfl fun _ _ h ↦ h

theorem Arises.coherent (hs : s.Arises admitted) : s.Coherent := by
  induction hs with
  | blank hs _ => exact hs.coherent
  | step _ _ ih => exact ih.after _

end Coherent

end Store
end Provisioning
