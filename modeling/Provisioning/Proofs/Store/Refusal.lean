import Provisioning.Proofs.Failure
import Provisioning.Proofs.Store.Read
import Provisioning.Proofs.Store.Write

namespace Provisioning

namespace Transaction

variable {α β : Type} {P : Failure → Prop} {x : Transaction α} {f : α → Transaction β} {s : Store}

theorem failsOnly_bind (hx : FailsOnly P (x.run s).1)
    (hf : ∀ a t, x.run s = (.ok a, t) → FailsOnly P ((f a).run t).1) :
    FailsOnly P ((x >>= f).run s).1 := by
  rcases hrun : x.run s with ⟨e | a, t⟩
  · rw [run_bind_of_error hrun]
    rw [hrun] at hx
    exact fun e' h ↦ hx e' (congrArg Except.error (Except.error.inj h))
  · rw [run_bind_of_ok hrun]
    exact hf a t hrun

theorem failsOnly_ofExcept_bind {y : Except Failure α} (hy : FailsOnly P y)
    (hf : ∀ a, y = .ok a → FailsOnly P ((f a).run s).1) : FailsOnly P ((ofExcept y >>= f).run s).1 :=
  failsOnly_bind hy fun a t h ↦ by
    obtain ⟨hy, rfl⟩ := Prod.mk.inj h
    exact hf a hy

end Transaction

namespace Store

variable {s : Store} {c : Snapshot}

/-- The name of the snapshot belongs to another criteria. -/
def NameHeld (s : Store) (c : Snapshot) : Prop :=
  ∃ h ∈ s.headers, c.name = some h.name ∧ c.id ≠ some h.id

/-- One of the products of the snapshot is linked to another criteria. -/
def ProductHeld (s : Store) (c : Snapshot) : Prop :=
  ∃ l ∈ s.links, l.productId ∈ c.productIds ∧ c.id ≠ some l.criteriaId

/-- The rules of the tables that a snapshot breaks. -/
inductive Breaks (s : Store) (c : Snapshot) : TableRule → Prop
  | unnamed : c.name = none → Breaks s c (.notNull (.ofCriteria "criteria_name"))
  | nameHeld : s.NameHeld c → Breaks s c (.unique [.ofCriteria "criteria_name"])
  | uncategorized {b : Band} : b ∈ c.bands → (∀ k ∈ s.categories, k.id ≠ b.categoryId) →
    Breaks s c (.notNull (.ofBand "category_id"))
  | unstorable {b : Band} : b ∈ c.bands → b.percentage.stored? = none →
    Breaks s c (.notNull (.ofBand "provision_percentage"))
  | unbooked {b : Band} : b ∈ c.bands → s.foreignKeys = true →
    ((∀ a ∈ s.accounts, a.id ≠ b.liability.id) ∨ ∀ a ∈ s.accounts, a.id ≠ b.expense.id) →
    Breaks s c .foreignKey
  | productHeld : s.ProductHeld c → Breaks s c (.unique [.ofLink "product_id"])

/-- The failure is no conflict, or a refusal for a rule that the snapshot breaks. -/
def Justified (s : Store) (c : Snapshot) (e : Failure) : Prop :=
  e.kind? = none ∨ ∃ rule, e = refuse rule ∧ s.Breaks c rule

theorem Breaks.justified {rule : TableRule} (h : s.Breaks c rule) : s.Justified c (refuse rule) :=
  .inr ⟨rule, rfl, h⟩

theorem justified_of_conflictless {α : Type} {x : Except Failure α} (h : Conflictless x) :
    FailsOnly (s.Justified c) x := h.mono fun _ ↦ .inl

theorem justified_of_breaks {α : Type} {x : Except TableRule α} (h : FailsOnly (s.Breaks c) x) :
    FailsOnly (s.Justified c) (x.mapError refuse) := FailsOnly.mapError (h.mono fun _ ↦ Breaks.justified)

section Draft

structure Drafts (s : Store) (c : Snapshot) (d : Draft) : Prop where
  band : d.band ∈ c.bands
  category : d.categoryId = none → ∀ k ∈ s.categories, k.id ≠ d.band.categoryId

variable {own : List Int} {d : Draft} {drafts : List Draft} {id criteriaId : Int}

theorem conflictless_draft (b : Band) : Conflictless (s.draft own b) := by
  have hfind : Conflictless (findRow Category.id s.categories b.categoryId >>= fun category ↦
      (pure ⟨b, category.map Category.id⟩ : Except Failure Draft)) :=
    (Conflictless.findRow _ _ _).bind fun _ _ ↦ .ok _
  rw [draft]
  split
  · split
    · exact .error (Failure.kind?_ofError _)
    · exact hfind
  · exact hfind

theorem draft_eq_ok {b : Band} (h : s.draft own b = .ok d) :
    ∃ category, findRow Category.id s.categories b.categoryId = .ok category ∧
      d = ⟨b, category.map Category.id⟩ := by
  have hfound : (findRow Category.id s.categories b.categoryId >>= fun category ↦
      (pure ⟨b, category.map Category.id⟩ : Except Failure Draft)) = .ok d := by
    rw [draft] at h
    split at h
    · split at h
      · cases h
      · exact h
    · exact h
  obtain ⟨category, hfind, h⟩ := bind_eq_ok_iff.1 hfound
  exact ⟨category, hfind, (Except.ok.inj h).symm⟩

theorem drafts_of_draft {b : Band} (hb : b ∈ c.bands) (h : s.draft own b = .ok d) : s.Drafts c d := by
  obtain ⟨category, hfind, rfl⟩ := draft_eq_ok h
  refine ⟨hb, fun hnone k hk hid ↦ ?_⟩
  rw [findRow] at hfind
  split at hfind
  · rw [Option.map_eq_none_iff.1 hnone] at hfind
    have hnot := List.find?_eq_none.1 (Except.ok.inj hfind) k hk
    exact hnot (beq_iff_eq.2 hid)
  · cases hfind

theorem drafts_of_mapM (h : c.bands.mapM (s.draft own) = .ok drafts) : ∀ d ∈ drafts, s.Drafts c d := by
  intro d hd
  obtain ⟨b, hb, hdraft⟩ := exists_of_mem_right (forall₂_of_mapM_eq_ok h) hd
  exact drafts_of_draft hb hdraft

theorem Drafts.row (hd : s.Drafts c d) : FailsOnly (s.Breaks c) (d.row id criteriaId) := by
  rw [Draft.row]
  split
  · exact .error (.uncategorized hd.band (hd.category ‹_›))
  · exact .error (.unstorable hd.band ‹_›)
  · exact .ok _

theorem row_eq_ok {r : BandRow} (h : d.row id criteriaId = .ok r) :
    r.liability = d.band.liability ∧ r.expense = d.band.expense := by
  rw [Draft.row] at h
  split at h <;> cases h
  exact ⟨rfl, rfl⟩

theorem failsOnly_rows (hds : ∀ d ∈ drafts, s.Drafts c d) :
    FailsOnly (s.Breaks c) (Draft.rows criteriaId id drafts) := by
  induction drafts generalizing id with
  | nil => exact .ok []
  | cons d drafts ih =>
    rw [List.forall_mem_cons] at hds
    exact hds.1.row.bind fun r _ ↦ (ih hds.2).bind fun rs _ ↦ .ok (r :: rs)

theorem exists_of_mem_rows {rows : List BandRow} (h : Draft.rows criteriaId id drafts = .ok rows)
    {r : BandRow} (hr : r ∈ rows) :
    ∃ d ∈ drafts, r.liability = d.band.liability ∧ r.expense = d.band.expense := by
  induction drafts generalizing id rows with
  | nil => exact absurd (Except.ok.inj h ▸ hr) List.not_mem_nil
  | cons d drafts ih =>
    obtain ⟨q, hq, h⟩ := bind_eq_ok_iff.1 h
    obtain ⟨qs, hqs, h⟩ := bind_eq_ok_iff.1 h
    rw [← Except.ok.inj h] at hr
    rcases List.mem_cons.1 hr with rfl | hr
    · exact ⟨d, List.mem_cons_self, row_eq_ok hq⟩
    · obtain ⟨d', hd', hsame⟩ := ih hqs hr
      exact ⟨d', List.mem_cons_of_mem d hd', hsame⟩

theorem Drafts.breaks_foreignKey (hd : s.Drafts c d) {r : BandRow}
    (hsame : r.liability = d.band.liability ∧ r.expense = d.band.expense)
    (h : ¬ s.hasAccounts r = true) : s.Breaks c .foreignKey := by
  rw [hasAccounts_eq_true_iff, hsame.1, hsame.2, ← forall_and, Classical.not_forall] at h
  obtain ⟨hchecked, h⟩ := h
  refine .unbooked hd.band hchecked ?_
  exact (not_and_or.1 h).imp (fun h a ha hid ↦ h ⟨a, ha, hid⟩) fun h a ha hid ↦ h ⟨a, ha, hid⟩

theorem Drafts.updateBand (hd : s.Drafts c d) (r : BandRow) :
    FailsOnly (s.Justified c) (s.updateBand d r) := by
  rw [Store.updateBand]
  split
  · exact .error (.inl rfl)
  · refine (justified_of_breaks hd.row).bind fun q hq ↦ ?_
    split
    · exact .ok q
    · exact .error (hd.breaks_foreignKey (row_eq_ok (mapError_eq_ok_iff.1 hq)) ‹_›).justified

theorem failsOnly_updateBands {rows : List BandRow} (hds : ∀ d ∈ drafts, s.Drafts c d) :
    FailsOnly (s.Justified c) (s.updateBands criteriaId drafts rows) := by
  induction rows with
  | nil => exact .ok []
  | cons r rows ih =>
    rw [updateBands]
    split
    · split
      · exact ih
      · rename_i d hfind
        have hd : d ∈ drafts := List.mem_reverse.1 (List.mem_of_find?_eq_some hfind)
        exact ((hds d hd).updateBand r).bind fun q _ ↦ ih.bind fun qs _ ↦ .ok (q :: qs)
    · exact ih.bind fun qs _ ↦ .ok (r :: qs)

theorem failsOnly_newBands (hds : ∀ d ∈ drafts, s.Drafts c d) :
    FailsOnly (s.Justified c) (s.newBands criteriaId drafts) := by
  rw [newBands]
  split
  · exact .error (.inl rfl)
  · refine (justified_of_breaks (failsOnly_rows hds)).bind fun rows hrows ↦ ?_
    split
    · exact .ok rows
    · rename_i hall
      rw [List.all_eq_true, Classical.not_forall] at hall
      obtain ⟨r, hr⟩ := hall
      rw [Classical.not_imp] at hr
      obtain ⟨d, hd, hsame⟩ := exists_of_mem_rows (mapError_eq_ok_iff.1 hrows) hr.1
      exact .error ((hds d hd).breaks_foreignKey hsame hr.2).justified

end Draft

theorem failsOnly_header : FailsOnly (s.Justified c) (s.header c) := by
  rw [header]
  split
  · exact .error (Breaks.unnamed ‹_›).justified
  · rename_i name hname
    split
    · rename_i hany
      obtain ⟨h, hh, htaken⟩ := List.any_eq_true.1 hany
      rw [Bool.and_eq_true, bne_iff_ne, beq_iff_eq] at htaken
      refine .error (Breaks.nameHeld ⟨h, hh, ?_, fun hid ↦ htaken.1 ?_⟩).justified
      · rw [hname, htaken.2]
      · rw [hid, Option.getD_some]
    · exact .ok _

theorem conflictless_current (id : Option Int) : Conflictless (s.current id) := by
  cases id with
  | none => exact .ok _
  | some id => exact (Conflictless.getRow _ _ _ _).bind fun _ _ ↦ .ok _

theorem mem_linked_of_link {own linked : List Int} (hcurrent : s.current c.id = .ok (own, linked))
    {l : Link} (hl : l ∈ s.links) (hid : c.id = some l.criteriaId)
    (hp : ∃ p, s.product l.productId = .ok p) : l.productId ∈ linked := by
  rw [hid] at hcurrent
  obtain ⟨h, hget, hcurrent⟩ := bind_eq_ok_iff.1 hcurrent
  obtain ⟨-, rfl⟩ := Prod.mk.inj (Except.ok.inj hcurrent)
  obtain ⟨p, hp⟩ := hp
  obtain ⟨hmem, hpid⟩ := mem_and_id_of_getRow hp
  refine mem_map_id_productsOf_iff.2 ⟨mem_linkedTo_iff.2 ⟨l, hl, ?_, rfl⟩, p, hmem, hpid⟩
  exact (mem_and_id_of_getRow hget).2.symm

theorem failsOnly_relink {own linked added : List Int} {id : Int}
    (hcurrent : s.current c.id = .ok (own, linked))
    (hadded : ∀ n ∈ added, n ∈ c.productIds ∧ n ∉ linked)
    (hproducts : ∀ n ∈ added, ∃ p, s.product n = .ok p) :
    FailsOnly (s.Justified c) (s.relink id linked c.productIds added) := by
  rw [relink]
  split
  · rename_i hany
    obtain ⟨n, hn, hany⟩ := List.any_eq_true.1 hany
    obtain ⟨l, hl, hln⟩ := List.any_eq_true.1 hany
    obtain rfl := beq_iff_eq.1 hln
    have hstored := (List.mem_filter.1 hl).1
    refine .error (Breaks.productHeld ⟨l, hstored, (hadded _ hn).1, fun hid ↦ ?_⟩).justified
    exact (hadded _ hn).2 (mem_linked_of_link hcurrent hstored hid (hproducts _ hn))
  · exact .ok _

/-- The store refuses nothing but what breaks its rules, and says which rule that is. -/
theorem failsOnly_write (s : Store) (c : Snapshot) :
    FailsOnly (s.Justified c) ((write c).run s).1 := by
  rw [write, Transaction.run_current_bind]
  refine Transaction.failsOnly_ofExcept_bind (justified_of_conflictless (conflictless_current _)) ?_
  rintro ⟨own, linked⟩ hcurrent
  refine Transaction.failsOnly_ofExcept_bind
    (justified_of_conflictless (FailsOnly.mapM fun b _ ↦ conflictless_draft b)) fun drafts hdrafts ↦ ?_
  refine Transaction.failsOnly_ofExcept_bind
    (justified_of_conflictless (FailsOnly.mapM fun n _ ↦ s.conflictless_product n)) fun ps hps ↦ ?_
  refine Transaction.failsOnly_ofExcept_bind failsOnly_header fun h _ ↦ ?_
  have hds := drafts_of_mapM hdrafts
  rw [Transaction.run_modify_bind]
  refine Transaction.failsOnly_ofExcept_bind (failsOnly_updateBands hds) fun kept _ ↦ ?_
  refine Transaction.failsOnly_ofExcept_bind
    (failsOnly_newBands fun d hd ↦ hds d (List.mem_filter.1 hd).1) fun new _ ↦ ?_
  rw [Transaction.run_modify_bind]
  refine Transaction.failsOnly_ofExcept_bind
    (failsOnly_relink hcurrent (fun n hn ↦ ?_) (exists_of_mapM_eq_ok hps)) fun links _ ↦ ?_
  · simpa using hn
  · exact .ok h

theorem failsOnly_save (s : Store) (c : Snapshot) : FailsOnly (s.Justified c) (s.save c) := by
  have hrun : FailsOnly (s.Justified c) ((write c >>= fun h ↦ Transaction.current >>= fun t ↦
      Transaction.ofExcept (t.read h)).run s).1 := by
    refine Transaction.failsOnly_bind (failsOnly_write s c) fun h t _ ↦ ?_
    rw [Transaction.run_current_bind]
    exact justified_of_conflictless (t.conflictless_read h)
  intro e he
  rw [save, Transaction.commit] at he
  split at he
  · cases he
  · rename_i e' t hwork
    rw [hwork] at hrun
    exact hrun e (congrArg Except.error (Except.error.inj he))

end Store
end Provisioning
