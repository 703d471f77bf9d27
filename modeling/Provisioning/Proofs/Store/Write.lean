import Provisioning.Proofs.Band.Entry
import Provisioning.Proofs.Store.Percentage

namespace Provisioning

variable {α β : Type}

namespace Transaction

variable {x : Transaction α} {f : α → Transaction β} {s t u : Store}

theorem run_bind_of_ok {a : α} (h : x.run s = (.ok a, t)) : (x >>= f).run s = (f a).run t := by
  change (Transaction.bind x f).run s = _
  simp only [Transaction.bind, h]

theorem run_bind_of_error {e : Failure} (h : x.run s = (.error e, t)) :
    (x >>= f).run s = (.error e, t) := by
  change (Transaction.bind x f).run s = _
  simp only [Transaction.bind, h]

theorem run_bind_eq_ok_iff {b : β} :
    (x >>= f).run s = (.ok b, u) ↔ ∃ a t, x.run s = (.ok a, t) ∧ (f a).run t = (.ok b, u) := by
  rcases hx : x.run s with ⟨e | a, t⟩
  · rw [run_bind_of_error hx]
    simp
  · rw [run_bind_of_ok hx]
    simp

theorem run_pure (a : α) : (pure a : Transaction α).run s = (.ok a, s) := rfl

theorem run_ofExcept_bind_of_ok {a : α} {y : Except Failure α} (h : y = .ok a) :
    (ofExcept y >>= f).run s = (f a).run s := run_bind_of_ok (congrArg (·, s) h)

theorem run_ofExcept_bind_of_error {e : Failure} {y : Except Failure α} (h : y = .error e) :
    (ofExcept y >>= f).run s = (.error e, s) := run_bind_of_error (congrArg (·, s) h)

theorem run_current_bind {f : Store → Transaction β} : (current >>= f).run s = (f s).run s :=
  run_bind_of_ok rfl

theorem run_modify_bind {g : Store → Store} {f : Unit → Transaction β} :
    (modify g >>= f).run s = (f ()).run (g s) := run_bind_of_ok rfl

theorem run_ofExcept_bind_eq_ok_iff {y : Except Failure α} {b : β} :
    (ofExcept y >>= f).run s = (.ok b, u) ↔ ∃ a, y = .ok a ∧ (f a).run s = (.ok b, u) := by
  rw [run_bind_eq_ok_iff]
  constructor
  · intro h
    obtain ⟨a, t, hy, h⟩ := h
    obtain ⟨rfl, rfl⟩ := Prod.mk.inj hy
    exact ⟨a, rfl, h⟩
  · intro h
    obtain ⟨a, rfl, h⟩ := h
    exact ⟨a, s, rfl, h⟩

end Transaction

def Band.fits (b : Band) : Bool :=
  inWord b.minAge && inWord b.maxAge && inWord b.liability.id && inWord b.expense.id

def Band.toRow (b : Band) (id criteriaId : Int) : BandRow where
  id
  criteriaId
  categoryId := b.categoryId
  minAge := b.minAge
  maxAge := b.maxAge
  percentage := b.percentage.stored?.getD b.percentage
  liability := b.liability
  expense := b.expense

/-- What the store keeps of a row when the criteria `id` is written with the bands `bs`. -/
def BandRow.rewritten (id : Int) (bs : List Band) (r : BandRow) : Option BandRow :=
  if r.criteriaId = id then
    (bs.reverse.find? fun b ↦ b.id == some r.id).map fun b ↦ b.toRow r.id id
  else some r

/-- Rows for new bands, with ids that count up. -/
def newRows (criteriaId : Int) : Int → List Band → List BandRow
  | _, [] => []
  | id, b :: bs => b.toRow id criteriaId :: newRows criteriaId (id + 1) bs

namespace Store

structure Backs (s : Store) (b : Band) : Prop where
  category : ∃ c, s.category b.categoryId = .ok c
  liability : s.foreignKeys = true → ∃ a ∈ s.accounts, a.id = b.liability.id
  expense : s.foreignKeys = true → ∃ a ∈ s.accounts, a.id = b.expense.id
  percentage : b.percentage.IsPercentage

def headerId (s : Store) (c : Snapshot) : Int := c.id.getD (nextId (s.headers.map Header.id))

def ownBandIds (s : Store) : Option Int → List Int
  | none => []
  | some id => (s.bandsOf id).map BandRow.id

def linkedIds (s : Store) : Option Int → List Int
  | none => []
  | some id => (s.productsOf id).map Product.id

/-- The products that writing a snapshot links anew. -/
def addedIds (s : Store) (c : Snapshot) : List Int :=
  ascending (c.productIds.filter fun n ↦ !(s.linkedIds c.id).contains n)

def keptLinks (s : Store) (c : Snapshot) : List Link :=
  s.links.filter fun l ↦ l.criteriaId != s.headerId c || c.productIds.contains l.productId ||
    !(s.linkedIds c.id).contains l.productId

/-- The store after a snapshot is written. -/
def written (s : Store) (c : Snapshot) (name : String) : Store :=
  { s with
    headers := putRow Header.id ⟨s.headerId c, name⟩ s.headers
    bands := s.bands.filterMap (BandRow.rewritten (s.headerId c) c.bands) ++
      newRows (s.headerId c) (nextId (s.bands.map BandRow.id)) (c.bands.filter fun b ↦ b.id.isNone)
    links := s.keptLinks c ++ (s.addedIds c).map fun n ↦ ⟨s.headerId c, n⟩ }

/-- All that a snapshot refers to is there, and its bands are its own. -/
structure Supports (s : Store) (c : Snapshot) : Prop where
  stored : ∀ id, c.id = some id → ∃ h, getRow Header.id s.headers .criteria id = .ok h
  own : ∀ b ∈ c.bands, ∀ i, b.id = some i → i ∈ s.ownBandIds c.id
  distinct : (bandIds c.bands).Nodup
  backed : ∀ b ∈ c.bands, s.Backs b
  products : ∀ n ∈ c.productIds, ∃ p, s.product n = .ok p

def NameTaken (s : Store) (id : Int) (name : String) : Prop :=
  ∃ h ∈ s.headers, h.id ≠ id ∧ h.name = name

/-- A link that stays is to a product that is linked anew. -/
def ProductTaken (s : Store) (c : Snapshot) : Prop :=
  ∃ n ∈ s.addedIds c, ∃ l ∈ s.keptLinks c, l.productId = n

variable {s : Store} {c : Snapshot}

theorem current_eq (hc : s.Supports c) : s.current c.id = .ok (s.ownBandIds c.id, s.linkedIds c.id) := by
  cases hid : c.id with
  | none => rfl
  | some id =>
    obtain ⟨h, hget⟩ := hc.stored id hid
    have hh : h.id = id := (mem_and_id_of_getRow hget).2
    rw [current, hget]
    simp only [bind, Except.bind, pure, Except.pure, hh, ownBandIds, linkedIds]

theorem draft_eq {own : List Int} {b : Band} (hown : ∀ i, b.id = some i → i ∈ own)
    (hcat : ∃ c, s.category b.categoryId = .ok c) : s.draft own b = .ok ⟨b, some b.categoryId⟩ := by
  obtain ⟨k, hk⟩ := hcat
  have hfind : findRow Category.id s.categories b.categoryId = .ok (some k) :=
    findRow_eq_ok_of_getRow hk
  have hid := id_of_category_eq_ok hk
  rw [draft]
  cases hb : b.id with
  | none => simp [hfind, hid, bind, Except.bind, pure, Except.pure]
  | some i =>
    have hi : i ∈ own := hown i hb
    simp [hi, hfind, hid, bind, Except.bind, pure, Except.pure]

theorem exists_mapM_product_eq {ids : List Int} (h : ∀ n ∈ ids, ∃ p, s.product n = .ok p) :
    ∃ ps, ids.mapM s.product = .ok ps := by
  induction ids with
  | nil => exact ⟨[], rfl⟩
  | cons id ids ih =>
    rw [List.forall_mem_cons] at h
    obtain ⟨p, hp⟩ := h.1
    obtain ⟨ps, hps⟩ := ih h.2
    refine ⟨p :: ps, ?_⟩
    rw [List.mapM_cons, hp, hps]
    rfl

def toDraft (b : Band) : Draft := ⟨b, some b.categoryId⟩

theorem row_toDraft_eq {b : Band} (hb : b.percentage.IsPercentage) (id criteriaId : Int) :
    (toDraft b).row id criteriaId = .ok (b.toRow id criteriaId) := by
  obtain ⟨k, hk, hv⟩ := hb
  simp only [Draft.row, toDraft, Band.toRow, Decimal.stored?_eq hk hv, Option.getD_some]

theorem hasAccounts_eq_true_iff {r : BandRow} :
    s.hasAccounts r = true ↔
      (s.foreignKeys = true → ∃ a ∈ s.accounts, a.id = r.liability.id) ∧
        (s.foreignKeys = true → ∃ a ∈ s.accounts, a.id = r.expense.id) := by
  rw [hasAccounts]
  cases s.foreignKeys <;> simp

theorem hasAccounts_toRow {b : Band} (hb : s.Backs b) (id criteriaId : Int) :
    s.hasAccounts (b.toRow id criteriaId) = true :=
  hasAccounts_eq_true_iff.2 ⟨hb.liability, hb.expense⟩

theorem updateBand_toDraft_eq {b : Band} (hb : s.Backs b) (hfits : b.fits = true) (r : BandRow) :
    s.updateBand (toDraft b) r = .ok (b.toRow r.id r.criteriaId) := by
  have hfits' : (toDraft b).fits = true := hfits
  simp [updateBand, hfits', row_toDraft_eq hb.percentage, hasAccounts_toRow hb, Except.mapError,
    bind, Except.bind, pure, Except.pure]

theorem fits_of_updateBand_eq_ok {b : Band} {r r' : BandRow}
    (h : s.updateBand (toDraft b) r = .ok r') : b.fits = true := by
  by_contra hfits
  have hfits' : (toDraft b).fits = false := Bool.eq_false_iff.2 hfits
  simp [updateBand, hfits', bind, Except.bind, throw, throwThe, MonadExceptOf.throw] at h

theorem find?_toDraft (bs : List Band) (n : Int) :
    (bs.map toDraft).reverse.find? (fun d ↦ d.band.id == some n) =
      (bs.reverse.find? fun b ↦ b.id == some n).map toDraft := by
  rw [← List.map_reverse, List.find?_map]
  rfl

theorem updateBands_eq {id : Int} {bs : List Band} (rows : List BandRow)
    (hbs : ∀ b ∈ bs, s.Backs b) (hfits : ∀ b ∈ bs, b.fits = true) :
    s.updateBands id (bs.map toDraft) rows = .ok (rows.filterMap (BandRow.rewritten id bs)) := by
  induction rows with
  | nil => rfl
  | cons r rows ih =>
    rw [updateBands, find?_toDraft, ih, List.filterMap_cons, BandRow.rewritten]
    split
    · rename_i hr
      cases hfind : bs.reverse.find? fun b ↦ b.id == some r.id with
      | none => rfl
      | some b =>
        have hb : b ∈ bs := List.mem_reverse.1 (List.mem_of_find?_eq_some hfind)
        simp [updateBand_toDraft_eq (hbs b hb) (hfits b hb), hr, bind, Except.bind, pure, Except.pure]
    · rfl

theorem fits_of_updateBands_eq_ok {id : Int} {bs : List Band} {rows rows' : List BandRow}
    (h : s.updateBands id (bs.map toDraft) rows = .ok rows') {r : BandRow} (hr : r ∈ rows)
    (hid : r.criteriaId = id) {b : Band}
    (hfind : bs.reverse.find? (fun b ↦ b.id == some r.id) = some b) : b.fits = true := by
  induction rows generalizing rows' with
  | nil => exact absurd hr List.not_mem_nil
  | cons q rows ih =>
    rw [updateBands, find?_toDraft] at h
    rcases List.mem_cons.1 hr with rfl | hr
    · rw [if_pos hid, hfind] at h
      obtain ⟨r', hr', -⟩ := bind_eq_ok_iff.1 h
      exact fits_of_updateBand_eq_ok hr'
    · split at h
      · cases hq : bs.reverse.find? fun b ↦ b.id == some q.id with
        | none =>
          rw [hq] at h
          exact ih h hr
        | some d =>
          rw [hq] at h
          obtain ⟨q', -, h⟩ := bind_eq_ok_iff.1 h
          obtain ⟨rows', h, -⟩ := bind_eq_ok_iff.1 h
          exact ih h hr
      · obtain ⟨rows', h, -⟩ := bind_eq_ok_iff.1 h
        exact ih h hr

theorem rows_toDraft_eq {bs : List Band} (id criteriaId : Int)
    (hbs : ∀ b ∈ bs, b.percentage.IsPercentage) :
    Draft.rows criteriaId id (bs.map toDraft) = .ok (newRows criteriaId id bs) := by
  induction bs generalizing id with
  | nil => rfl
  | cons b bs ih =>
    rw [List.forall_mem_cons] at hbs
    rw [List.map_cons, Draft.rows, row_toDraft_eq hbs.1, ih (id + 1) hbs.2]
    rfl

theorem exists_toRow_of_mem_newRows {criteriaId id : Int} {bs : List Band} {r : BandRow}
    (hr : r ∈ newRows criteriaId id bs) :
    ∃ b ∈ bs, ∃ n, id ≤ n ∧ r = b.toRow n criteriaId := by
  induction bs generalizing id with
  | nil => exact absurd hr List.not_mem_nil
  | cons b bs ih =>
    rcases List.mem_cons.1 hr with rfl | hr
    · exact ⟨b, List.mem_cons_self, id, Int.le_refl _, rfl⟩
    · obtain ⟨b', hb', n, hn, rfl⟩ := ih hr
      exact ⟨b', List.mem_cons_of_mem _ hb', n, by omega, rfl⟩

theorem newBands_eq {criteriaId : Int} {bs : List Band} (hbs : ∀ b ∈ bs, s.Backs b)
    (hfits : ∀ b ∈ bs, b.fits = true) :
    s.newBands criteriaId (bs.map toDraft) =
      .ok (newRows criteriaId (nextId (s.bands.map BandRow.id)) bs) := by
  have hall : (bs.map toDraft).all Draft.fits = true := by
    rw [List.all_map]
    exact List.all_eq_true.2 hfits
  have hrows : (newRows criteriaId (nextId (s.bands.map BandRow.id)) bs).all s.hasAccounts = true := by
    apply List.all_eq_true.2
    intro r hr
    obtain ⟨b, hb, n, -, rfl⟩ := exists_toRow_of_mem_newRows hr
    exact hasAccounts_toRow (hbs b hb) _ _
  simp [newBands, hall, hrows, rows_toDraft_eq _ _ fun b hb ↦ (hbs b hb).percentage, Except.mapError,
    bind, Except.bind, pure, Except.pure]

theorem fits_of_newBands_eq_ok {criteriaId : Int} {bs : List Band} {rows : List BandRow}
    (h : s.newBands criteriaId (bs.map toDraft) = .ok rows) : ∀ b ∈ bs, b.fits = true := by
  by_contra hbad
  have hall : (bs.map toDraft).all Draft.fits = false := by
    rw [List.all_map, Bool.eq_false_iff]
    exact fun h ↦ hbad (List.all_eq_true.1 h)
  simp [newBands, hall, bind, Except.bind, throw, throwThe, MonadExceptOf.throw] at h

theorem filter_isNone_toDraft (bs : List Band) :
    (bs.map toDraft).filter (fun d ↦ d.band.id.isNone) =
      (bs.filter fun b ↦ b.id.isNone).map toDraft := by
  rw [List.filter_map]
  rfl

theorem relink_eq_of_taken (h : s.ProductTaken c) :
    s.relink (s.headerId c) (s.linkedIds c.id) c.productIds (s.addedIds c) =
      .error (refuse (.unique [.ofLink "product_id"])) := by
  obtain ⟨n, hn, l, hl, hln⟩ := h
  have hany : (s.addedIds c).any (fun n ↦ (s.keptLinks c).any fun l ↦ l.productId == n) = true :=
    List.any_eq_true.2 ⟨n, hn, List.any_eq_true.2 ⟨l, hl, by simp [hln]⟩⟩
  exact if_pos hany

theorem relink_eq_of_free (h : ¬ s.ProductTaken c) :
    s.relink (s.headerId c) (s.linkedIds c.id) c.productIds (s.addedIds c) =
      .ok (s.keptLinks c ++ (s.addedIds c).map fun n ↦ ⟨s.headerId c, n⟩) := by
  have hany : ¬ (s.addedIds c).any (fun n ↦ (s.keptLinks c).any fun l ↦ l.productId == n) = true := by
    intro hany
    obtain ⟨n, hn, hbad⟩ := List.any_eq_true.1 hany
    obtain ⟨l, hl, hln⟩ := List.any_eq_true.1 hbad
    exact h ⟨n, hn, l, hl, beq_iff_eq.1 hln⟩
  exact if_neg hany

theorem header_eq_of_taken {name : String} (hname : c.name = some name)
    (h : s.NameTaken (s.headerId c) name) :
    s.header c = .error (refuse (.unique [.ofCriteria "criteria_name"])) := by
  obtain ⟨q, hq, hid, hqn⟩ := h
  have hany : s.headers.any (fun h ↦ h.id != s.headerId c && h.name == name) = true :=
    List.any_eq_true.2 ⟨q, hq, by simp [hid, hqn]⟩
  simp only [headerId] at hany
  simp only [header, hname, hany, ↓reduceIte]

theorem header_eq_of_free {name : String} (hname : c.name = some name)
    (h : ¬ s.NameTaken (s.headerId c) name) : s.header c = .ok ⟨s.headerId c, name⟩ := by
  have hany : s.headers.any (fun h ↦ h.id != s.headerId c && h.name == name) = false := by
    rw [List.any_eq_false]
    intro q hq
    by_contra hbad
    simp only [Bool.and_eq_true, bne_iff_ne, beq_iff_eq, ne_eq] at hbad
    exact h ⟨q, hq, hbad.1, hbad.2⟩
  simp only [headerId] at hany ⊢
  simp only [header, hname, hany, Bool.false_eq_true, ↓reduceIte]

def writeRows (s : Store) (c : Snapshot) : Transaction Header := do
  let h ← .ofExcept (s.header c)
  Transaction.modify fun t ↦ { t with headers := putRow Header.id h t.headers }
  let kept ← .ofExcept (s.updateBands h.id (c.bands.map toDraft) s.bands)
  let new ← .ofExcept (s.newBands h.id ((c.bands.filter fun b ↦ b.id.isNone).map toDraft))
  Transaction.modify fun t ↦ { t with bands := kept ++ new }
  let links ← .ofExcept (s.relink h.id (s.linkedIds c.id) c.productIds (s.addedIds c))
  Transaction.modify fun t ↦ { t with links }
  return h

theorem run_write_eq_writeRows (hc : s.Supports c) : (write c).run s = (s.writeRows c).run s := by
  have hdrafts : c.bands.mapM (s.draft (s.ownBandIds c.id)) = .ok (c.bands.map toDraft) :=
    mapM_except_eq_ok fun b hb ↦ draft_eq (hc.own b hb) (hc.backed b hb).category
  obtain ⟨ps, hps⟩ : ∃ ps, (s.addedIds c).mapM s.product = .ok ps := by
    refine exists_mapM_product_eq fun n hn ↦ hc.products n ?_
    exact (List.mem_filter.1 (mem_ascending.1 hn)).1
  rw [write, Transaction.run_current_bind, Transaction.run_ofExcept_bind_of_ok (current_eq hc),
    Transaction.run_ofExcept_bind_of_ok hdrafts]
  change (Transaction.ofExcept ((s.addedIds c).mapM s.product) >>= _).run s = _
  rw [Transaction.run_ofExcept_bind_of_ok hps]
  simp only [filter_isNone_toDraft]
  rfl

theorem run_write_of_name_taken {name : String} (hc : s.Supports c) (hname : c.name = some name)
    (h : s.NameTaken (s.headerId c) name) :
    (write c).run s = (.error (refuse (.unique [.ofCriteria "criteria_name"])), s) := by
  rw [run_write_eq_writeRows hc, writeRows,
    Transaction.run_ofExcept_bind_of_error (header_eq_of_taken hname h)]

theorem run_write_of_name_free {name : String} (hc : s.Supports c) (hname : c.name = some name)
    (hfits : ∀ b ∈ c.bands, b.fits = true) (hfree : ¬ s.NameTaken (s.headerId c) name) :
    (write c).run s = ((do
      let links ← .ofExcept (s.relink (s.headerId c) (s.linkedIds c.id) c.productIds (s.addedIds c))
      Transaction.modify fun t ↦ { t with links }
      return ⟨s.headerId c, name⟩) : Transaction Header).run
        { s.written c name with links := s.links } := by
  have hnew (b : Band) (hb : b ∈ c.bands.filter fun b ↦ b.id.isNone) := (List.mem_filter.1 hb).1
  rw [run_write_eq_writeRows hc, writeRows,
    Transaction.run_ofExcept_bind_of_ok (header_eq_of_free hname hfree),
    Transaction.run_modify_bind,
    Transaction.run_ofExcept_bind_of_ok (updateBands_eq s.bands hc.backed hfits),
    Transaction.run_ofExcept_bind_of_ok (newBands_eq (fun b hb ↦ hc.backed b (hnew b hb))
      fun b hb ↦ hfits b (hnew b hb)),
    Transaction.run_modify_bind]
  rfl

/-- A product that is taken is only refused when the name and the bands are written. -/
theorem run_write_of_product_taken {name : String} (hc : s.Supports c) (hname : c.name = some name)
    (hfits : ∀ b ∈ c.bands, b.fits = true) (hfree : ¬ s.NameTaken (s.headerId c) name)
    (h : s.ProductTaken c) :
    (write c).run s =
      (.error (refuse (.unique [.ofLink "product_id"])), { s.written c name with links := s.links }) := by
  rw [run_write_of_name_free hc hname hfits hfree,
    Transaction.run_ofExcept_bind_of_error (relink_eq_of_taken h)]

theorem run_write_of_free {name : String} (hc : s.Supports c) (hname : c.name = some name)
    (hfits : ∀ b ∈ c.bands, b.fits = true) (hfree : ¬ s.NameTaken (s.headerId c) name)
    (h : ¬ s.ProductTaken c) :
    (write c).run s = (.ok ⟨s.headerId c, name⟩, s.written c name) := by
  rw [run_write_of_name_free hc hname hfits hfree,
    Transaction.run_ofExcept_bind_of_ok (relink_eq_of_free h), Transaction.run_modify_bind]
  rfl

theorem mem_ownBandIds_iff {i : Int} :
    i ∈ s.ownBandIds c.id ↔ ∃ r ∈ s.bands, r.id = i ∧ c.id = some r.criteriaId := by
  cases hid : c.id with
  | none => simp [ownBandIds]
  | some id =>
    simp only [ownBandIds, bandsOf, List.mem_map, List.mem_filter, beq_iff_eq, Option.some_inj]
    exact exists_congr fun r ↦ by rw [and_assoc, and_comm (a := r.criteriaId = id), eq_comm (a := id)]

theorem headerId_eq {id : Int} (hid : c.id = some id) : s.headerId c = id := by
  rw [headerId, hid, Option.getD_some]

theorem fits_of_run_write_eq_ok {name : String} (hc : s.Supports c) (hname : c.name = some name)
    {h : Header} {t : Store} (hok : (write c).run s = (.ok h, t)) :
    ∀ b ∈ c.bands, b.fits = true := by
  rw [run_write_eq_writeRows hc, writeRows] at hok
  obtain ⟨h', hh, hok⟩ := Transaction.run_ofExcept_bind_eq_ok_iff.1 hok
  have hid : h'.id = s.headerId c := by
    by_cases htaken : s.NameTaken (s.headerId c) name
    · rw [header_eq_of_taken hname htaken] at hh
      cases hh
    · rw [header_eq_of_free hname htaken] at hh
      rw [← Except.ok.inj hh]
  rw [Transaction.run_modify_bind] at hok
  obtain ⟨kept, hkept, hok⟩ := Transaction.run_ofExcept_bind_eq_ok_iff.1 hok
  obtain ⟨new, hnew, -⟩ := Transaction.run_ofExcept_bind_eq_ok_iff.1 hok
  intro b hb
  cases hbid : b.id with
  | none => exact fits_of_newBands_eq_ok hnew b (List.mem_filter.2 ⟨hb, by rw [hbid]; rfl⟩)
  | some i =>
    obtain ⟨r, hr, rfl, hrid⟩ := mem_ownBandIds_iff.1 (hc.own b hb i hbid)
    refine fits_of_updateBands_eq_ok hkept hr ?_ (find?_reverse_eq_of_mem hc.distinct hb hbid)
    rw [hid, headerId_eq hrid]

/-- A snapshot whose references are there is written unless an integer is too large, or its name or one
of its products is taken. -/
theorem run_write_eq_ok_iff {name : String} (hc : s.Supports c) (hname : c.name = some name)
    {h : Header} {t : Store} :
    (write c).run s = (.ok h, t) ↔
      ((∀ b ∈ c.bands, b.fits = true) ∧ ¬ s.NameTaken (s.headerId c) name ∧ ¬ s.ProductTaken c) ∧
        h = ⟨s.headerId c, name⟩ ∧ t = s.written c name := by
  constructor
  · intro hok
    have hfits := fits_of_run_write_eq_ok hc hname hok
    by_cases htaken : s.NameTaken (s.headerId c) name
    · rw [run_write_of_name_taken hc hname htaken] at hok
      cases hok
    by_cases hproduct : s.ProductTaken c
    · rw [run_write_of_product_taken hc hname hfits htaken hproduct] at hok
      cases hok
    · rw [run_write_of_free hc hname hfits htaken hproduct] at hok
      obtain ⟨hh, rfl⟩ := Prod.mk.inj hok
      exact ⟨⟨hfits, htaken, hproduct⟩, (Except.ok.inj hh).symm, rfl⟩
  · intro h
    obtain ⟨⟨hfits, htaken, hproduct⟩, rfl, rfl⟩ := h
    exact run_write_of_free hc hname hfits htaken hproduct

end Store
end Provisioning
