import Provisioning.Proofs.Band.Build

namespace Provisioning

namespace Store

variable {s : Store} {n : Int}

def categoryName (s : Store) (id : Int) : String :=
  match s.category id with
  | .ok c => c.name
  | .error _ => ""

def accountCopy (s : Store) (id : Int) : AccountCopy :=
  match s.account id with
  | .ok a => a.copy
  | .error _ => ⟨id, "", ""⟩

theorem category_eq_ok_iff {c : Category} :
    s.category n = .ok c ↔
      inWord n = true ∧ s.categories.find? (fun c ↦ c.id == n) = some c := getRow_eq_ok_iff

theorem account_eq_ok_iff {a : Account} :
    s.account n = .ok a ↔ inWord n = true ∧ ∃ r, s.accounts.find? (fun r ↦ r.id == n) = some r ∧
      r.account = .ok a := by
  rw [account, bind_eq_ok_iff]
  simp only [getRow_eq_ok_iff, and_assoc]
  exact exists_and_left

theorem product_eq_ok_iff {p : Product} :
    s.product n = .ok p ↔
      inWord n = true ∧ s.products.find? (fun p ↦ p.id == n) = some p := getRow_eq_ok_iff

theorem id_of_category_eq_ok {c : Category} (h : s.category n = .ok c) : c.id = n :=
  (mem_and_id_of_getRow h).2

theorem id_of_product_eq_ok {p : Product} (h : s.product n = .ok p) : p.id = n :=
  (mem_and_id_of_getRow h).2

theorem id_of_account_eq_ok {a : Account} (h : s.account n = .ok a) : a.id = n := by
  obtain ⟨-, r, hfind, hr⟩ := account_eq_ok_iff.1 h
  rw [AccountRow.account] at hr
  split at hr
  · rw [← Except.ok.inj hr]
    exact (mem_and_id_of_find? hfind).2
  · cases hr

theorem categoryName_eq {c : Category} (h : s.category n = .ok c) : s.categoryName n = c.name := by
  rw [categoryName, h]

theorem accountCopy_eq {a : Account} (h : s.account n = .ok a) : s.accountCopy n = a.copy := by
  rw [accountCopy, h]

theorem id_accountCopy (s : Store) (n : Int) : (s.accountCopy n).id = n := by
  rw [accountCopy]
  split
  · exact id_of_account_eq_ok ‹_›
  · rfl

def HasAccount (s : Store) (kind : AccountKind) (id : Int) : Prop :=
  ∃ a, s.account id = .ok a ∧ a.kind = kind

end Store

namespace Request.BandEntry

/-- The entry obeys every rule that looks at no other band. -/
structure Acceptable (s : Store) (e : BandEntry) : Prop where
  ages : 0 ≤ e.minAge ∧ e.minAge < e.maxAge
  percentage : e.percentage.IsPercentage
  category : ∃ c, s.category e.categoryId = .ok c
  liability : s.HasAccount .liability e.liability
  expense : s.HasAccount .expense e.expense

def band (s : Store) (e : BandEntry) : Band where
  id := e.id.value?
  categoryId := e.categoryId
  categoryName := s.categoryName e.categoryId
  minAge := e.minAge
  maxAge := e.maxAge
  percentage := e.percentage
  liability := s.accountCopy e.liability
  expense := s.accountCopy e.expense

def newBand (s : Store) (e : BandEntry) : Band := { e.band s with id := none }

variable {s : Store} {e : BandEntry} {c : Category} {l x : Account}

theorem describes_iff {id : Option Int} {b : Band} (hc : s.category e.categoryId = .ok c)
    (hl : s.account e.liability = .ok l) (hx : s.account e.expense = .ok x) :
    { e.request with id }.Describes c l x b ↔ e.Acceptable s ∧ b = { e.band s with id } := by
  have hband : ({ e.band s with id } : Band) =
      ⟨id, c.id, c.name, e.minAge, e.maxAge, e.percentage, l.copy, x.copy⟩ := by
    simp only [band, Store.categoryName_eq hc, Store.accountCopy_eq hl, Store.accountCopy_eq hx,
      Store.id_of_category_eq_ok hc]
  rw [hband]
  constructor
  · intro h
    obtain ⟨hid, ⟨hk, hname⟩, ⟨hmin, hlow⟩, ⟨hmax, hlt⟩, ⟨⟨hp, -⟩, hpct⟩, ⟨hlc, hlk⟩, hxc, hxk⟩ := h
    obtain rfl : id = b.id := hid.symm
    have hmin' : e.minAge = b.minAge := Value.int.inj hmin
    have hmax' : e.maxAge = b.maxAge := Value.int.inj hmax
    have hp' : e.percentage = b.percentage := hp
    refine ⟨⟨by omega, hp' ▸ hpct, ⟨c, hc⟩, ⟨l, hl, hlk⟩, x, hx, hxk⟩, ?_⟩
    rw [hmin', hmax', hp', ← hk, ← hname, ← hlc, ← hxc]
  · intro h
    obtain ⟨⟨⟨hlow, hlt⟩, hpct, -, ⟨l', hl', hlk⟩, x', hx', hxk⟩, rfl⟩ := h
    obtain rfl : l = l' := Except.ok.inj (hl.symm.trans hl')
    obtain rfl : x = x' := Except.ok.inj (hx.symm.trans hx')
    exact ⟨rfl, ⟨rfl, rfl⟩, ⟨rfl, hlow⟩, ⟨rfl, hlt⟩, ⟨⟨rfl, hpct.isFinite⟩, hpct⟩, ⟨rfl, hlk⟩, rfl, hxk⟩

end Request.BandEntry
end Provisioning
