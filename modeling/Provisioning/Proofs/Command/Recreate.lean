import Provisioning.Proofs.Command.Delete
import Provisioning.Proofs.Command.Repeat
import Provisioning.Proofs.Decimal.Text
import Provisioning.Proofs.Request.Dump

namespace Provisioning

open Request

/-- The values of a band as a client would ask for them, with the percentage as text. -/
def Band.payload (b : Band) : Value :=
  .object [
    ("category_id", .int b.categoryId),
    ("min_age", .int b.minAge),
    ("max_age", .int b.maxAge),
    ("provisioning_percentage", .str b.percentage.text),
    ("liability_account", .int b.liability.id),
    ("expense_account", .int b.expense.id)]

def Criteria.payload (c : Criteria) : Value :=
  .object [
    ("criteria_name", .str c.name),
    ("definitions", .list (c.bands.map Band.payload)),
    ("loan_products", .ofInts (c.products.map Product.id))]

def Band.entry (b : Band) : BandEntry :=
  ⟨.absent, b.categoryId, b.minAge, b.maxAge, b.percentage, b.liability.id, b.expense.id⟩

def Criteria.request (c : Criteria) : NewCriteria :=
  ⟨c.name, c.bands.map Band.entry, some (c.products.map Product.id)⟩

/-- The criteria agree in all but their ids and those of their bands. -/
structure Criteria.SameButIds (c d : Criteria) : Prop where
  name : d.name = c.name
  products : d.products = c.products
  bands : List.Forall₂ (fun b b' ↦ b' = { b with id := b'.id }) c.bands d.bands

section Payload

variable {s t : Store} {c : Criteria} {b : Band} {n : String} {origin : Origin}

theorem name_of_properName (h : ProperName n) : Request.name (.str n) = .ok n := by
  have hne : n.isEmpty = false := by
    rw [Bool.eq_false_iff, Ne, String.isEmpty_iff]
    rintro rfl
    obtain ⟨c, hc, -⟩ := h.1
    exact List.not_mem_nil hc
  refine mapError_eq_ok_iff.2 ?_
  rw [readName, hne, if_neg Bool.false_ne_true, if_neg (Nat.not_lt.2 h.2)]

theorem representable_millionths {k : ℕ} (hk : k ≤ 100 * 10 ^ 6) :
    (Decimal.finite false k (-6)).Representable := by
  have hdigits : digitCount k ≤ 9 := Decimal.digitCount_le (by decide) (hk.trans_lt (by decide))
  exact Decimal.representable_of_digitCount_le (by omega) (by decide)

theorem decimal_of_text {d : Decimal} (hd : d.Representable) (hfinite : d.isFinite = true) :
    decimal (.str d.text) = .ok d := by
  have hread : Value.toDecimal? (.str d.text) = some d := Decimal.ofText?_text hd
  refine mapError_eq_ok_iff.2 ?_
  rw [readDecimal, hread]
  exact if_pos hfinite

theorem Band.read_payload {k : ℕ} (hk : k ≤ 100 * 10 ^ 6) (hb : b.percentage = .finite false k (-6)) :
    BandEntry.read origin b.payload = .ok b.entry := by
  have hpercentage : decimal (.str b.percentage.text) = .ok b.percentage := by
    rw [hb]
    exact decimal_of_text (representable_millionths hk) rfl
  exact BandEntry.read_eq_ok_iff.2
    ⟨_, rfl, rfl, rfl, rfl, rfl, required_eq_ok_iff.2 ⟨_, rfl, hpercentage⟩, rfl, rfl, rfl⟩

theorem Criteria.Lawful.read_payload (h : c.Lawful s)
    (hplaces : ∀ b ∈ c.bands, ∃ k : ℕ, k ≤ 100 * 10 ^ 6 ∧ b.percentage = .finite false k (-6)) :
    NewCriteria.read origin c.payload = .ok c.request := by
  have hbands : list (BandEntry.read origin) (.list (c.bands.map Band.payload)) =
      .ok (c.bands.map Band.entry) := by
    refine list_eq_ok_iff.2 ⟨_, rfl, List.forall₂_map_left_iff.2 (List.forall₂_map_right_iff.2 ?_)⟩
    refine List.forall₂_same.2 fun b hb ↦ ?_
    obtain ⟨k, hk, hp⟩ := hplaces b hb
    exact Band.read_payload hk hp
  have hne : c.bands.map Band.entry ≠ [] := mt List.map_eq_nil_iff.1 h.nonempty
  exact NewCriteria.read_eq_ok_iff.2 ⟨_, rfl,
    required_eq_ok_iff.2 ⟨_, rfl, name_of_properName h.name⟩,
    required_eq_ok_iff.2 ⟨_, rfl, nonEmptyList_eq_ok_iff.2 ⟨hbands, hne⟩⟩,
    optional_eq_ok_iff.2 (.inr ⟨_, _, rfl, list_ofInts _, rfl⟩), rfl⟩

theorem Store.Records.accountCopy_eq {kind : AccountKind} {copy : AccountCopy} (h : s.Records kind copy) :
    s.accountCopy copy.id = copy := by
  obtain ⟨a, ha, -, hcopy⟩ := h
  rw [Store.accountCopy_eq ha, ← hcopy]

theorem Store.Records.hasAccount {kind : AccountKind} {copy : AccountCopy} (h : s.Records kind copy) :
    s.HasAccount kind copy.id := by
  obtain ⟨a, ha, hkind, -⟩ := h
  exact ⟨a, ha, hkind⟩

/-- Asked for again, a band becomes what it is, without its id. -/
theorem Band.Sound.newBand_entry (hb : b.Sound s) : b.entry.newBand s = { b with id := none } := by
  rw [BandEntry.newBand, BandEntry.band]
  dsimp only [Band.entry]
  rw [← hb.categoryName_eq, hb.liability.accountCopy_eq, hb.expense.accountCopy_eq]

theorem Band.Sound.acceptable_entry (hb : b.Sound s) : b.entry.Acceptable s where
  ages := hb.ages
  percentage := hb.percentage
  category := by
    obtain ⟨k, hk, -⟩ := hb.category
    exact ⟨k, hk⟩
  liability := hb.liability.hasAccount
  expense := hb.expense.hasAccount

theorem Criteria.Lawful.newBands_eq (h : c.Lawful s) :
    c.request.bands.map (BandEntry.newBand s) = c.bands.map fun b ↦ { b with id := none } := by
  rw [Criteria.request, List.map_map]
  exact List.map_congr_left fun b hb ↦ (h.bands b hb).newBand_entry

theorem Criteria.Sound.valid_request (h : c.Sound s) : c.request.Valid s where
  name := h.name.1
  entries e he := by
    obtain ⟨b, hb, rfl⟩ := List.mem_map.1 he
    exact (h.bands b hb).acceptable_entry
  disjoint := by
    rw [h.newBands_eq]
    exact List.pairwise_map.2 h.disjoint
  products n hn := by
    obtain ⟨p, hp, rfl⟩ := List.mem_map.1 hn
    exact ⟨p, h.products p hp⟩

end Payload

namespace Store

variable {s t : Store} {c d : Criteria} {id : Int}

theorem Agrees.newBand_eq (h : s.Agrees t) : BandEntry.newBand t = BandEntry.newBand s := by
  funext e
  rw [BandEntry.newBand, BandEntry.newBand, h.band_eq]

theorem Agrees.valid (h : s.Agrees t) {r : NewCriteria} (hr : r.Valid s) : r.Valid t where
  name := hr.name
  entries e he := h.acceptable (hr.entries e he)
  disjoint := by
    rw [h.newBand_eq]
    exact hr.disjoint
  products n hn := by
    obtain ⟨p, hp⟩ := hr.products n hn
    exact ⟨p, (h.product_eq n).trans hp⟩

theorem Coherent.percentage_of_criteria (hs : s.Coherent) {h : Header} {b : Band}
    (hb : b ∈ (s.criteria h).bands) :
    ∃ k : ℕ, k ≤ 100 * 10 ^ 6 ∧ b.percentage = .finite false k (-6) := by
  obtain ⟨w, hw, rfl⟩ := List.mem_map.1 hb
  exact (hs.rows w (List.mem_filter.1 hw).1).percentage

theorem eq_of_map_id_eq {ps qs : List Product} (h : ps.map Product.id = qs.map Product.id)
    (hps : ∀ p ∈ ps, s.product p.id = .ok p) (hqs : ∀ q ∈ qs, s.product q.id = .ok q) : ps = qs := by
  have hfound {rs : List Product} (hrs : ∀ p ∈ rs, s.product p.id = .ok p) :
      (rs.map Product.id).map s.product = rs.map .ok := by
    rw [List.map_map]
    exact List.map_congr_left hrs
  have hsame : ps.map (Except.ok (ε := Failure)) = qs.map .ok := by
    rw [← hfound hps, h, hfound hqs]
  exact List.map_injective_iff.2 (fun _ _ ↦ Except.ok.inj) hsame

/-- What was made from the values of a criteria is that criteria again. -/
theorem Consistent.sameButIds_of_createdAs (hs : s.Consistent) (hget : s.get id = .ok c)
    (hagrees : s.Agrees t) (hd : c.request.CreatedAs t d)
    (hplaces : ∀ b ∈ d.bands, ∃ k : ℕ, k ≤ 100 * 10 ^ 6 ∧ b.percentage = .finite false k (-6)) :
    c.SameButIds d where
  name := hd.name
  products := by
    have hsound := hs.sound_of_get hget
    obtain ⟨q, -, rfl⟩ := (get_eq_ok_iff hs.readable).1 hget
    refine eq_of_map_id_eq ?_ (fun p hp ↦ (hagrees.product_eq _).symm.trans (hd.resolved p hp))
      hsound.products
    exact hd.products.trans (eq_ascending_of_mem_iff (pairwise_productsOf s q.id) fun _ ↦ Iff.rfl).symm
  bands := by
    have hsound := hs.sound_of_get hget
    have hown : ∀ b ∈ c.bands, ∃ k : ℕ, k ≤ 100 * 10 ^ 6 ∧ b.percentage = .finite false k (-6) := by
      obtain ⟨q, -, rfl⟩ := (get_eq_ok_iff hs.readable).1 hget
      exact fun b hb ↦ hs.coherent.percentage_of_criteria hb
    have hbands := hd.bands
    rw [hagrees.newBand_eq, hsound.newBands_eq, List.forall₂_map_left_iff] at hbands
    have hboth := ((List.forall₂_and_left _ _).2 ⟨hplaces, hbands.flip⟩).flip
    refine ((List.forall₂_and_left _ _).2 ⟨hown, hboth⟩).imp ?_
    rintro b b' ⟨⟨k, -, hk⟩, ⟨m, -, hm⟩, hstored⟩
    have hvalue := hstored.value
    dsimp only at hvalue
    rw [hk, hm] at hvalue
    have hpercentage : b'.percentage = b.percentage := by rw [hk, hm, Decimal.millionths_inj hvalue]
    rw [← hpercentage]
    exact hstored.rest

theorem Consistent.map_criteria_of_delete (hs : s.Consistent) (hdelete : s.delete id = .ok t) :
    t.headers.map t.criteria = others id (s.headers.map s.criteria) :=
  Except.ok.inj ((all_eq (hs.of_delete hdelete).readable).symm.trans (hs.all_of_delete hdelete))

/-- Without the criteria nothing stands in the way of what it was. -/
theorem Consistent.exists_create_payload (hs : s.Consistent) (hget : s.get id = .ok c)
    (hdelete : s.delete id = .ok t) :
    NewCriteria.read .call c.payload = .ok c.request ∧
      ∃ res, (t.create c.payload none).answer = .ok res := by
  have hsound := hs.sound_of_get hget
  have ht := hs.of_delete hdelete
  have hagrees := agrees_of_delete hdelete
  have hread : NewCriteria.read .call c.payload = .ok c.request := by
    refine hsound.read_payload ?_
    obtain ⟨q, -, rfl⟩ := (get_eq_ok_iff hs.readable).1 hget
    exact fun b hb ↦ hs.coherent.percentage_of_criteria hb
  refine ⟨hread, (ht.create_answer_eq_ok_iff hread).2 ⟨hagrees.valid hsound.valid_request, ?_, ?_, ?_⟩⟩
  · intro e he
    obtain ⟨b, hb, rfl⟩ := List.mem_map.1 he
    exact (hsound.bands b hb).fits_iff.1 (hs.fits_of_get hget b hb)
  all_goals
    have hfree := hs.not_taken_of_get hget
    rw [← hs.productsFree_others_iff hsound, ← nameFree_others_iff, headerId_eq (id_of_get hget)] at hfree
    rw [hs.map_criteria_of_delete hdelete]
  · exact hfree.1
  · exact hfree.2

/-- A criteria that no entry uses can be deleted and then created again from its own values: the new one
differs from it in ids only, and all others are as before. -/
theorem Arises.recreate (hs : s.Arises Event.Ordinary) (hget : s.get id = .ok c) (hfree : id ∉ s.entries) :
    (s.remove id none).answer = .ok ⟨id, .empty⟩ ∧
      ∃ cs res d, s.all = .ok cs ∧ (s.remove id none).store.all = .ok (others id cs) ∧
        ((s.remove id none).store.create c.payload none).answer = .ok res ∧
        ((s.remove id none).store.create c.payload none).store.all = .ok (others id cs ++ [d]) ∧
        d.id = some res.resourceId ∧ (∀ e ∈ others id cs, e.id ≠ some res.resourceId) ∧
        c.SameButIds d ∧ s.Agrees ((s.remove id none).store.create c.payload none).store := by
  obtain ⟨t, hwork⟩ := run_deleteUnused_of_free hget hfree
  obtain ⟨hanswer, hstore⟩ : (s.remove id none).answer = .ok ⟨id, .empty⟩ ∧ (s.remove id none).store = t := by
    rw [remove, hwork]
    exact Report.close_of_ok
  have hdelete := (deleteUnused_eq_ok hwork).1
  have ht : t.Arises Event.Ordinary := hstore ▸ hs.step (.call ⟨.delete id, none⟩)
  have hu : (t.create c.payload none).store.Arises Event.Ordinary := ht.step (.call ⟨.create c.payload, none⟩)
  have hs := hs.consistent.1
  obtain ⟨hread, res, hok⟩ := hs.exists_create_payload hget hdelete
  obtain ⟨d, hall, hid, hnew, hcreated, -, hagrees, -⟩ := ht.consistent.1.create_reread hread hok
  have hplaces : ∀ b ∈ d.bands, ∃ k : ℕ, k ≤ 100 * 10 ^ 6 ∧ b.percentage = .finite false k (-6) := by
    have hd : d ∈ (t.create c.payload none).store.headers.map (t.create c.payload none).store.criteria := by
      rw [Except.ok.inj ((all_eq hu.consistent.1.readable).symm.trans hall)]
      exact List.mem_append_right _ (List.mem_singleton_self d)
    obtain ⟨q, -, rfl⟩ := List.mem_map.1 hd
    exact fun b hb ↦ hu.coherent.percentage_of_criteria hb
  rw [hs.map_criteria_of_delete hdelete] at hall hnew
  rw [hstore]
  exact ⟨hanswer, _, res, d, all_eq hs.readable, hs.all_of_delete hdelete, hok, hall, hid, hnew,
    hs.sameButIds_of_createdAs hget (agrees_of_delete hdelete) hcreated hplaces,
    (agrees_of_delete hdelete).trans hagrees⟩

theorem recreate_of_first :
    Sample.both.Arises Event.Ordinary ∧ 1 ∉ Sample.both.entries ∧
      ∃ c res d, Sample.both.get 1 = .ok c ∧
        ((Sample.both.remove 1 none).store.create c.payload none).answer = .ok res ∧
        d.id = some res.resourceId ∧ c.SameButIds d := by
  have hs : Sample.both.Arises Event.Ordinary := Sample.arises_created.step (.call _)
  have hfree : 1 ∉ Sample.both.entries := by decide
  obtain ⟨c, hget⟩ : ∃ c, Sample.both.get 1 = .ok c := ⟨_, rfl⟩
  obtain ⟨-, cs, res, d, -, -, hok, -, hid, -, hsame, -⟩ := Arises.recreate hs hget hfree
  exact ⟨hs, hfree, c, res, d, hget, hok, hid, hsame⟩

end Store
end Provisioning
