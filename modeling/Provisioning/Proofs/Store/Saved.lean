import Provisioning.Proofs.Store.ReadBack

namespace Provisioning

/-- The criteria may be saved: what it refers to is there, its integers fit, and no other criteria has
its name or one of its products. -/
structure Criteria.Savable (s : Store) (c : Criteria) : Prop extends s.Supports c.snapshot where
  fits : ∀ b ∈ c.bands, b.fits = true
  nameFree : ∀ h ∈ s.headers, h.name = c.name → c.id = some h.id
  productsFree : ∀ l ∈ s.links, l.productId ∈ c.products.map Product.id → c.id = some l.criteriaId

/-- The bands that have ids come first, by id, and new bands follow in their order, with ids above all
that were in use. -/
structure Criteria.SavedAs (s : Store) (c c' : Criteria) : Prop where
  id : ∀ i, c.id = some i → c'.id = some i
  name : c'.name = c.name
  bands : ∃ old, old.Perm (c.bands.filter fun b ↦ b.id.isSome) ∧
    List.Forall₂ (Band.SavedAs s) (old ++ c.bands.filter fun b ↦ b.id.isNone) c'.bands
  ordered : (bandIds c'.bands).Pairwise (· < ·)
  products : c'.products.map Product.id = ascending (c.products.map Product.id)
  resolved : ∀ p ∈ c'.products, s.product p.id = .ok p

/-- Under `id` the tables hold the bands and the products of `c`, under every other id what they held
before. -/
structure Store.Replaces (s t : Store) (id : Int) (c : Criteria) : Prop where
  bands : (t.bandsOf id).map (BandRow.toBand t) = c.bands
  otherBands : ∀ j, j ≠ id → t.bandsOf j = s.bandsOf j
  links : ∀ l, l ∈ t.links ↔
    if l.criteriaId = id then l.productId ∈ c.products.map Product.id else l ∈ s.links
  agrees : s.Agrees t

section Others

variable {id : Int} {c : Criteria}

theorem others_append_singleton (hc : c.id = some id) (cs : List Criteria) :
    others id (cs ++ [c]) = others id cs := by
  simp [others, hc]

theorem others_map_replace (hc : c.id = some id) (cs : List Criteria) :
    others id (cs.map fun d ↦ if d.id = some id then c else d) = others id cs := by
  induction cs with
  | nil => rfl
  | cons d cs ih =>
    rw [others, others] at ih
    by_cases hd : d.id = some id <;> simp [others, hd, hc, ih]

end Others

namespace Store

variable {s : Store} {c : Criteria}

theorem save_eq (hc : c.Savable s) (hname : ¬ s.NameTaken (s.headerId c.snapshot) c.name)
    (hproduct : ¬ s.ProductTaken c.snapshot) :
    s.save c.snapshot = .ok (s.rereadAs c, s.written c.snapshot c.name) := by
  have hwrite := run_write_of_free hc.toSupports rfl hc.fits hname hproduct
  rw [save, Transaction.commit, Transaction.run_bind_of_ok hwrite, Transaction.run_current_bind]
  simp only [Transaction.ofExcept, hc.read_written]

theorem not_nameTaken_of_savable (hc : c.Savable s) :
    ¬ s.NameTaken (s.headerId c.snapshot) c.name := by
  rintro ⟨h, hh, hid, hname⟩
  exact hid (headerId_eq (hc.nameFree h hh hname)).symm

theorem Intact.not_productTaken_of_savable (hs : s.Intact) (hc : c.Savable s) :
    ¬ s.ProductTaken c.snapshot := by
  intro h
  obtain ⟨n, hn, l, hl, rfl, hid⟩ := hs.exists_of_productTaken hc.toSupports h
  exact hid (headerId_eq (hc.productsFree l hl hn)).symm

theorem bandIds_rereadAs (s : Store) (c : Criteria) :
    Provisioning.bandIds (s.rereadAs c).bands =
      ((s.written c.snapshot c.name).bandsOf (s.headerId c.snapshot)).map BandRow.id :=
  bandIds_criteria _ _

theorem Intact.savedAs_rereadAs (hs : s.Intact) (hc : s.Supports c.snapshot) :
    c.SavedAs s (s.rereadAs c) where
  id i hi := congrArg some (headerId_eq hi)
  name := rfl
  bands := by
    refine ⟨_, perm_lastBands hc.distinct ?_ fun b hb i hi ↦ ?_, hc.bands_rereadAs⟩
    · exact hs.nodup_bandIds.sublist (List.filter_sublist.map _)
    · rw [(hs.reserves hc).bands]
      exact hc.own b hb i hi
  ordered := by
    rw [bandIds_rereadAs]
    exact (hs.written hc).bandIds.sublist (List.filter_sublist.map _)
  products := hc.products_rereadAs (hs.reserves hc)
  resolved p hp := hs.product_of_mem_rereadAs hc hp

theorem Ordered.find?_written (hs : s.Ordered) (hc : s.Supports c.snapshot)
    (hid : inWord (s.headerId c.snapshot) = true) :
    (s.written c.snapshot c.name).find? (s.headerId c.snapshot) = .ok (some (s.rereadAs c)) := by
  rw [find?, findRow_eq_ok_of_getRow (hs.getRow_written hc hid .criteria)]
  change some <$> (s.written c.snapshot c.name).read _ = _
  rw [hc.read_written]
  rfl

theorem Intact.replaces_written (hs : s.Intact) (hc : s.Supports c.snapshot) :
    s.Replaces (s.written c.snapshot c.name) (s.headerId c.snapshot) (s.rereadAs c) where
  bands := rfl
  otherBands j hj := bandsOf_written_of_ne hj
  links l := by
    have hlinked : l.productId ∈ (s.rereadAs c).products.map Product.id ↔
        ∃ k ∈ (s.written c.snapshot c.name).links,
          k.criteriaId = s.headerId c.snapshot ∧ k.productId = l.productId := by
      rw [← mem_linkedTo_iff, ← map_id_productsOf (hs.written hc).linkBacked]
      rfl
    split
    · rename_i hid
      rw [hlinked]
      refine ⟨fun hl ↦ ⟨l, hl, hid, rfl⟩, fun ⟨k, hk, hkid, hkp⟩ ↦ ?_⟩
      have hkl : k = l := by
        cases k
        cases l
        simp_all
      exact hkl ▸ hk
    · rename_i hid
      rw [mem_links_written_iff, hs.mem_keptLinks_iff hc]
      simp [hid]
  agrees := s.agrees_written _ _

theorem Intact.others_written (hs : s.Intact) (hc : s.Supports c.snapshot) :
    ∃ ds, (s.written c.snapshot c.name).all = .ok ds ∧
      others (s.headerId c.snapshot) ds = others (s.headerId c.snapshot) (s.headers.map s.criteria) := by
  have hsome : (s.rereadAs c).id = some (s.headerId c.snapshot) := rfl
  cases hid : c.id with
  | none => exact ⟨_, hs.all_written_of_new hc hid, others_append_singleton hsome _⟩
  | some id =>
    have hheader : s.headerId c.snapshot = id := headerId_eq hid
    rw [hheader] at hsome ⊢
    exact ⟨_, hs.all_written_of_stored hc hid, others_map_replace hsome _⟩

theorem Intact.mem_all_written_iff (hs : s.Intact) (hc : s.Supports c.snapshot) {ds : List Criteria}
    (hall : (s.written c.snapshot c.name).all = .ok ds) (d : Criteria) :
    (d ∈ ds ∧ d.id = some (s.headerId c.snapshot)) ↔ d = s.rereadAs c := by
  rw [all_eq (hs.written hc).readable] at hall
  obtain rfl := Except.ok.inj hall
  constructor
  · rintro ⟨hd, hid⟩
    obtain ⟨h, hh, rfl⟩ := List.mem_map.1 hd
    rcases hs.mem_headers_written_iff.1 hh with rfl | ⟨-, hne⟩
    · rfl
    · exact absurd (Option.some.inj hid) hne
  · rintro rfl
    exact ⟨List.mem_map_of_mem (hs.mem_headers_written_iff.2 (.inl rfl)), rfl⟩

end Store

namespace Sample

def reserve : AccountCopy := ⟨1, "2100", "Loan loss reserve"⟩

def expense : AccountCopy := ⟨2, "6100", "Loan loss expense"⟩

def ledger : Store where
  foreignKeys := true
  categories := [⟨1, "Standard", none⟩]
  accounts := [⟨1, "Loan loss reserve", "2100", 2⟩, ⟨2, "Loan loss expense", "6100", 5⟩]
  products := [⟨1, "Micro"⟩, ⟨2, "Rural"⟩]
  headers := [⟨1, "Monthly"⟩]
  bands := [⟨1, 1, 1, 0, 30, .finite false 2500000 (-6), reserve, expense⟩,
    ⟨2, 1, 1, 30, 60, .finite false 2500000 (-6), reserve, expense⟩]
  links := [⟨1, 1⟩]
  entries := []

def moved : Criteria where
  id := some 1
  name := "Quarterly"
  bands := [⟨none, 1, "", 60, 90, .finite false 5 0, reserve, expense⟩,
    ⟨some 2, 1, "", 0, 60, .finite false 25 (-1), reserve, expense⟩]
  products := [⟨2, "Rural"⟩]

theorem ledger_intact : ledger.Intact where
  headerIds := by decide
  bandIds := by decide
  owned := by decide
  readable := by simpa [Store.Readable, ledger] using ⟨_, rfl⟩
  linkOwned := by decide
  linkBacked := by simpa [ledger] using ⟨_, rfl⟩

theorem moved_savable : moved.Savable ledger where
  stored id hid := by
    cases hid
    exact ⟨_, rfl⟩
  own := by simp [Criteria.snapshot, moved, Store.ownBandIds, Store.bandsOf, ledger]
  distinct := by decide
  backed b hb := by
    have hpercentage : ∀ b ∈ moved.bands, ∃ p, checkPercentage (.decimal b.percentage) = .ok p := by
      simpa [moved] using ⟨⟨_, rfl⟩, _, rfl⟩
    obtain ⟨p, hp⟩ := hpercentage b hb
    have hids : ∀ b ∈ moved.bands, b.categoryId = 1 ∧
        (∃ a ∈ ledger.accounts, a.id = b.liability.id) ∧ ∃ a ∈ ledger.accounts, a.id = b.expense.id := by
      decide
    obtain ⟨hcategory, hliability, hexpense⟩ := hids b hb
    refine ⟨?_, fun _ ↦ hliability, fun _ ↦ hexpense, (checkPercentage_decimal_eq_ok_iff.1 hp).1⟩
    rw [hcategory]
    exact ⟨_, rfl⟩
  products := by simpa [Criteria.snapshot, moved] using ⟨_, rfl⟩
  fits := by decide
  nameFree := by decide
  productsFree := by decide

end Sample

end Provisioning
