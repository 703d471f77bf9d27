import Provisioning.Proofs.Command.Grow
import Provisioning.Proofs.Command.Repeat
import Provisioning.Proofs.Store.Commute

namespace Provisioning

namespace Store

variable {s t : Store} {p q : Value} {rp rq r : Request.Changes} {c c' : Criteria} {a b id : Int}
  {written : List (Option Int)} {resa resb resa' resb' : CommandResult}

theorem revise_congr (hget : t.get id = s.get id) (hsame : s.Agrees t) : t.revise id r = s.revise id r := by
  rw [revise, revise, hget, hsame.directory_eq]

theorem Coherent.id_ne_none_of_revision (hs : s.Coherent) (hget : s.get id = .ok c)
    (h : r.Revision s c c' written) (hids : ∀ e ∈ r.entries, e.id.value? ≠ none) :
    ∀ b ∈ c'.bands, b.id ≠ none := by
  intro b hb
  obtain ⟨a, ha, hab⟩ := exists_of_mem_right h.bands hb
  rw [← hab.id_eq]
  rcases mem_revisedBands ha with ha | ⟨e, he, rfl⟩
  · exact hs.id_ne_none_of_get hget ha
  · exact hids e he

section Two

variable (hs : s.Coherent) (hab : a ≠ b) (hp : Request.Changes.read .call p = .ok rp)
  (hq : Request.Changes.read .call q = .ok rq)

include hs hab hp hq

/-- The second of two updates does what it would have done alone. -/
theorem Coherent.update_after_update (hokp : (s.update a p none).answer = .ok resa)
    (hokq : (s.update b q none).answer = .ok resb)
    (hokq' : ((s.update a p none).store.update b q none).answer = .ok resb') :
    ∃ c d, s.revise a rp = .ok (c, resa.changes) ∧ s.revise b rq = .ok (d, resb.changes) ∧ resb' = resb ∧
      ((s.update a p none).store.update b q none).store =
        (s.written c.snapshot c.name).written d.snapshot d.name := by
  obtain ⟨c₀, c, writtenc, hgeta, hrevc, hrevisec, rfl, hstorec⟩ := hs.exists_revision_of_update hp hokp
  obtain ⟨d₀, d, writtend, hgetb, hrevd, hrevised, rfl, -⟩ := hs.exists_revision_of_update hq hokq
  have hheader : s.headerId c.snapshot = a := headerId_eq (hrevc.id.trans (id_of_get hgeta))
  have ht : (s.written c.snapshot c.name).Coherent := hs.written (hs.supports_of_revision hgeta hrevc)
  have hsame : (s.written c.snapshot c.name).get b = s.get b :=
    get_written_of_ne fun h ↦ hab (hheader.symm.trans h.symm)
  rw [hstorec] at hokq' ⊢
  obtain ⟨_, d', writtend', -, -, hrevised', rfl, hstored⟩ := ht.exists_revision_of_update hq hokq'
  rw [revise_congr hsame (s.agrees_written _ _), hrevised] at hrevised'
  obtain ⟨rfl, hchanges⟩ := Prod.mk.inj (Except.ok.inj hrevised')
  rw [← hchanges]
  exact ⟨c, d, hrevisec, hrevised, rfl, hstored⟩

variable (hpids : ∀ e ∈ rp.entries, e.id.value? ≠ none) (hqids : ∀ e ∈ rq.entries, e.id.value? ≠ none)

include hpids hqids

theorem Coherent.update_comm (hokp : (s.update a p none).answer = .ok resa)
    (hokq' : ((s.update a p none).store.update b q none).answer = .ok resb')
    (hokq : (s.update b q none).answer = .ok resb)
    (hokp' : ((s.update b q none).store.update a p none).answer = .ok resa') :
    resa' = resa ∧ resb' = resb ∧
      ((s.update a p none).store.update b q none).store.SameRows
        ((s.update b q none).store.update a p none).store := by
  obtain ⟨c, d, hrevisec, hrevised, hresb, hstore⟩ := hs.update_after_update hab hp hq hokp hokq hokq'
  obtain ⟨d', c', hrevised', hrevisec', hresa, hstore'⟩ :=
    hs.update_after_update hab.symm hq hp hokq hokp hokp'
  obtain ⟨rfl, -⟩ := Prod.mk.inj (Except.ok.inj (hrevisec.symm.trans hrevisec'))
  obtain ⟨rfl, -⟩ := Prod.mk.inj (Except.ok.inj (hrevised.symm.trans hrevised'))
  obtain ⟨c₀, hgeta⟩ := get_eq_ok_of_revise hrevisec
  obtain ⟨d₀, hgetb⟩ := get_eq_ok_of_revise hrevised
  obtain ⟨_, hrevc, -⟩ := revision_of_revise hgeta (hs.distinct_of_get hgeta) hrevisec
  obtain ⟨_, hrevd, -⟩ := revision_of_revise hgetb (hs.distinct_of_get hgetb) hrevised
  obtain ⟨h, hh, -⟩ := hs.exists_of_get hgeta
  refine ⟨hresa, hresb, ?_⟩
  rw [hstore, hstore']
  exact sameRows_written_comm (hrevc.id.trans (id_of_get hgeta)) (hrevd.id.trans (id_of_get hgetb)) hab
    ⟨h, mem_and_id_of_getRow hh⟩ (hs.id_ne_none_of_revision hgeta hrevc hpids)
    (hs.id_ne_none_of_revision hgetb hrevd hqids)

end Two

/-- Updates of two criteria that add no bands may change places where both orders are carried out: each
reports the same in both, and the same criteria are stored in the end. -/
theorem Arises.update_commutes (hs : s.Arises Event.Ordinary) (hab : a ≠ b)
    (hp : Request.Changes.read .call p = .ok rp) (hq : Request.Changes.read .call q = .ok rq)
    (hpids : ∀ e ∈ rp.entries, e.id.value? ≠ none) (hqids : ∀ e ∈ rq.entries, e.id.value? ≠ none)
    (hokp : (s.update a p none).answer = .ok resa)
    (hokq' : ((s.update a p none).store.update b q none).answer = .ok resb')
    (hokq : (s.update b q none).answer = .ok resb)
    (hokp' : ((s.update b q none).store.update a p none).answer = .ok resa') :
    resa' = resa ∧ resb' = resb ∧
      ∃ cs, ((s.update a p none).store.update b q none).store.all = .ok cs ∧
        ((s.update b q none).store.update a p none).store.all = .ok cs ∧
        ((s.update a p none).store.update b q none).store.SameRows
          ((s.update b q none).store.update a p none).store := by
  obtain ⟨hresa, hresb, hsame⟩ :=
    hs.coherent.update_comm hab hp hq hpids hqids hokp hokq' hokq hokp'
  have ht : ((s.update a p none).store.update b q none).store.Arises Event.Ordinary :=
    (hs.step (.call ⟨.update a p, none⟩)).step (.call ⟨.update b q, none⟩)
  have hall := Store.all_eq ht.consistent.1.readable
  exact ⟨hresa, hresb, _, hall, hsame.all_eq.trans hall, hsame⟩

end Store

namespace Sample

def shortened : Request.Changes := ⟨.given "Quarterly", .given [entry (.given 1) 0 20], .given []⟩

def widened : Request.Changes := ⟨.given "Biweekly", .given [entry (.given 3) 0 14], .absent⟩

end Sample

theorem Store.update_commutes_of_both :
    Sample.both.Arises Event.Ordinary ∧ (1 : Int) ≠ 2 ∧
      Request.Changes.read .call Sample.shortened.dump = .ok Sample.shortened ∧
      Request.Changes.read .call Sample.widened.dump = .ok Sample.widened ∧
      (∀ e ∈ Sample.shortened.entries, e.id.value? ≠ none) ∧
      (∀ e ∈ Sample.widened.entries, e.id.value? ≠ none) ∧
      ∃ resa resb cs, (Sample.both.update 1 Sample.shortened.dump none).answer = .ok resa ∧
        (Sample.both.update 2 Sample.widened.dump none).answer = .ok resb ∧
        ((Sample.both.update 1 Sample.shortened.dump none).store.update 2 Sample.widened.dump
          none).answer = .ok resb ∧
        ((Sample.both.update 1 Sample.shortened.dump none).store.update 2 Sample.widened.dump
          none).store.all = .ok cs ∧
        ((Sample.both.update 2 Sample.widened.dump none).store.update 1 Sample.shortened.dump
          none).store.all = .ok cs := by
  have hs : Sample.both.Arises Event.Ordinary := Sample.arises_created.step (.call _)
  have hp : Request.Changes.read .call Sample.shortened.dump = .ok Sample.shortened := rfl
  have hq : Request.Changes.read .call Sample.widened.dump = .ok Sample.widened := rfl
  have hpids : ∀ e ∈ Sample.shortened.entries, e.id.value? ≠ none := by decide
  have hqids : ∀ e ∈ Sample.widened.entries, e.id.value? ≠ none := by decide
  obtain ⟨resa, hokp⟩ : ∃ res, (Sample.both.update 1 Sample.shortened.dump none).answer = .ok res :=
    ⟨_, rfl⟩
  obtain ⟨resb', hokq'⟩ : ∃ res, ((Sample.both.update 1 Sample.shortened.dump none).store.update 2
      Sample.widened.dump none).answer = .ok res := ⟨_, rfl⟩
  obtain ⟨resb, hokq⟩ : ∃ res, (Sample.both.update 2 Sample.widened.dump none).answer = .ok res :=
    ⟨_, rfl⟩
  obtain ⟨resa', hokp'⟩ : ∃ res, ((Sample.both.update 2 Sample.widened.dump none).store.update 1
      Sample.shortened.dump none).answer = .ok res := ⟨_, rfl⟩
  obtain ⟨-, rfl, cs, hall, hall', -⟩ :=
    Arises.update_commutes hs (by decide) hp hq hpids hqids hokp hokq' hokq hokp'
  exact ⟨hs, by decide, hp, hq, hpids, hqids, resa, resb', cs, hokp, hokq, hokq', hall, hall'⟩

end Provisioning
