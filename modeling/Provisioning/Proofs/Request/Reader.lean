import Provisioning.Proofs.Request

namespace Provisioning.Request

variable {α : Type} {read : Reader α} {fields : Value.Fields} {key : String}

theorem field_eq_ok_iff {v : Value} {a : α} : field read key v = .ok a ↔ read v = .ok a :=
  mapError_eq_ok_iff

theorem required_eq_ok_iff {a : α} :
    required read fields key = .ok a ↔ ∃ v, fields.get? key = some v ∧ read v = .ok a := by
  rw [required]
  cases fields.get? key with
  | none => simp
  | some v => simp [field_eq_ok_iff]

theorem optional_eq_ok_iff {o : Option α} :
    optional read fields key = .ok o ↔
      (fields.get? key = none ∧ o = none) ∨
        ∃ v a, fields.get? key = some v ∧ read v = .ok a ∧ o = some a := by
  rw [optional]
  cases fields.get? key with
  | none => simp [eq_comm (a := o)]
  | some v => simp [map_eq_ok_iff, field_eq_ok_iff, eq_comm (a := o)]

/-- A field that is `null` is not read, whatever the reader makes of a `null`. -/
theorem nullable_eq_ok_iff {p : Presence α} :
    nullable read fields key = .ok p ↔
      (fields.get? key = none ∧ p = .absent) ∨ (fields.get? key = some .null ∧ p = .null) ∨
        ∃ v a, fields.get? key = some v ∧ v ≠ .null ∧ read v = .ok a ∧ p = .given a := by
  rw [nullable]
  cases fields.get? key with
  | none => simp [eq_comm (a := p)]
  | some v => cases v <;> simp [map_eq_ok_iff, field_eq_ok_iff, eq_comm (a := p)]

theorem checkKeys_eq_ok_iff {known : List String} {u : Unit} :
    checkKeys known fields = .ok u ↔ ∀ key ∈ fields.keys, key ∈ known := by
  rw [checkKeys]
  cases hfind : fields.keys.find? fun key ↦ !known.contains key with
  | none => simpa using hfind
  | some key =>
    have hunknown := List.find?_some hfind
    simp only [reduceCtorEq, false_iff, not_forall]
    exact ⟨key, List.mem_of_find?_eq_some hfind, by simpa using hunknown⟩

theorem items_eq_ok_iff {n : ℕ} {vs : List Value} {as : List α} :
    items read n vs = .ok as ↔ List.Forall₂ (fun v a ↦ read v = .ok a) vs as := by
  induction vs generalizing n as with
  | nil =>
    rw [items, Except.ok.injEq, List.forall₂_nil_left_iff]
    exact eq_comm
  | cons v vs ih =>
    simp only [items, bind_eq_ok_iff, mapError_eq_ok_iff, ih, List.forall₂_cons_left_iff]
    constructor
    · rintro ⟨a, ha, as, has, hlast⟩
      exact ⟨a, as, ha, has, (Except.ok.inj hlast).symm⟩
    · rintro ⟨a, as, ha, has, rfl⟩
      exact ⟨a, ha, as, has, rfl⟩

theorem list_eq_ok_iff {v : Value} {as : List α} :
    list read v = .ok as ↔ ∃ vs, v = .list vs ∧ List.Forall₂ (fun v a ↦ read v = .ok a) vs as := by
  cases v with
  | list vs => simp [list, items_eq_ok_iff]
  | _ => exact iff_of_false nofun fun ⟨_, h, _⟩ ↦ by cases h

theorem nonEmptyList_eq_ok_iff {v : Value} {as : List α} :
    nonEmptyList read v = .ok as ↔ list read v = .ok as ∧ as ≠ [] := by
  rw [nonEmptyList, bind_eq_ok_iff]
  constructor
  · rintro ⟨bs, hbs, h⟩
    cases bs with
    | nil => cases h
    | cons b bs =>
      rw [← Except.ok.inj h]
      exact ⟨hbs, List.cons_ne_nil b bs⟩
  · rintro ⟨has, hne⟩
    refine ⟨as, has, ?_⟩
    rw [if_neg (mt List.isEmpty_iff.1 hne)]
    rfl

section Requests

variable {origin : Origin} {v : Value}

theorem BandEntry.read_eq_ok_iff {e : BandEntry} :
    BandEntry.read origin v = .ok e ↔ ∃ fields, v = .object fields ∧
      nullable integer fields "id" = .ok e.id ∧
      required integer fields "category_id" = .ok e.categoryId ∧
      required integer fields "min_age" = .ok e.minAge ∧
      required integer fields "max_age" = .ok e.maxAge ∧
      required decimal fields "provisioning_percentage" = .ok e.percentage ∧
      required integer fields "liability_account" = .ok e.liability ∧
      required integer fields "expense_account" = .ok e.expense ∧
      checkKeys BandEntry.keys fields = .ok () := by
  cases v with
  | object fields =>
    simp only [read, bind_eq_ok_iff, Value.object.injEq, exists_eq_left']
    constructor
    · rintro ⟨_, hid, _, hcategory, _, hmin, _, hmax, _, hpercentage, _, hliability, _, hexpense, _,
        hkeys, h⟩
      rw [← Except.ok.inj h]
      exact ⟨hid, hcategory, hmin, hmax, hpercentage, hliability, hexpense, hkeys⟩
    · rintro ⟨hid, hcategory, hmin, hmax, hpercentage, hliability, hexpense, hkeys⟩
      exact ⟨_, hid, _, hcategory, _, hmin, _, hmax, _, hpercentage, _, hliability, _, hexpense, _,
        hkeys, rfl⟩
  | _ => exact iff_of_false nofun fun ⟨_, h, _⟩ ↦ by cases h

theorem NewCriteria.read_eq_ok_iff {r : NewCriteria} :
    NewCriteria.read origin v = .ok r ↔ ∃ fields, v = .object fields ∧
      required Request.name fields "criteria_name" = .ok r.name ∧
      required (nonEmptyList (BandEntry.read origin)) fields "definitions" = .ok r.bands ∧
      optional (list integer) fields "loan_products" = .ok r.products ∧
      checkKeys Request.keys fields = .ok () := by
  cases v with
  | object fields =>
    simp only [read, bind_eq_ok_iff, Value.object.injEq, exists_eq_left']
    constructor
    · rintro ⟨_, hname, _, hbands, _, hproducts, _, hkeys, h⟩
      rw [← Except.ok.inj h]
      exact ⟨hname, hbands, hproducts, hkeys⟩
    · rintro ⟨hname, hbands, hproducts, hkeys⟩
      exact ⟨_, hname, _, hbands, _, hproducts, _, hkeys, rfl⟩
  | _ => exact iff_of_false nofun fun ⟨_, h, _⟩ ↦ by cases h

theorem Changes.read_eq_ok_iff {r : Changes} :
    Changes.read origin v = .ok r ↔ ∃ fields, v = .object fields ∧
      nullable Request.name fields "criteria_name" = .ok r.name ∧
      nullable (list (BandEntry.read origin)) fields "definitions" = .ok r.bands ∧
      nullable (list integer) fields "loan_products" = .ok r.products ∧
      checkKeys Request.keys fields = .ok () := by
  cases v with
  | object fields =>
    simp only [read, bind_eq_ok_iff, Value.object.injEq, exists_eq_left']
    constructor
    · rintro ⟨_, hname, _, hbands, _, hproducts, _, hkeys, h⟩
      rw [← Except.ok.inj h]
      exact ⟨hname, hbands, hproducts, hkeys⟩
    · rintro ⟨hname, hbands, hproducts, hkeys⟩
      exact ⟨_, hname, _, hbands, _, hproducts, _, hkeys, rfl⟩
  | _ => exact iff_of_false nofun fun ⟨_, h, _⟩ ↦ by cases h

/-- Where a request comes from only matters to what is said of one that is refused. -/
theorem BandEntry.read_of_read {origin' : Origin} {e : BandEntry}
    (h : BandEntry.read origin v = .ok e) : BandEntry.read origin' v = .ok e :=
  BandEntry.read_eq_ok_iff.2 (BandEntry.read_eq_ok_iff.1 h)

theorem list_read_of_read {origin' : Origin} {es : List BandEntry}
    (h : list (BandEntry.read origin) v = .ok es) : list (BandEntry.read origin') v = .ok es := by
  obtain ⟨vs, rfl, hvs⟩ := list_eq_ok_iff.1 h
  exact list_eq_ok_iff.2 ⟨vs, rfl, hvs.imp fun _ _ ↦ BandEntry.read_of_read⟩

theorem NewCriteria.read_of_read {origin' : Origin} {r : NewCriteria}
    (h : NewCriteria.read origin v = .ok r) : NewCriteria.read origin' v = .ok r := by
  obtain ⟨fields, rfl, hname, hbands, hproducts, hkeys⟩ := NewCriteria.read_eq_ok_iff.1 h
  obtain ⟨w, hw, hbands⟩ := required_eq_ok_iff.1 hbands
  obtain ⟨hbands, hne⟩ := nonEmptyList_eq_ok_iff.1 hbands
  have hbands' : nonEmptyList (BandEntry.read origin') w = .ok r.bands :=
    nonEmptyList_eq_ok_iff.2 ⟨list_read_of_read hbands, hne⟩
  exact NewCriteria.read_eq_ok_iff.2
    ⟨fields, rfl, hname, required_eq_ok_iff.2 ⟨w, hw, hbands'⟩, hproducts, hkeys⟩

theorem Changes.read_of_read {origin' : Origin} {r : Changes}
    (h : Changes.read origin v = .ok r) : Changes.read origin' v = .ok r := by
  obtain ⟨fields, rfl, hname, hbands, hproducts, hkeys⟩ := Changes.read_eq_ok_iff.1 h
  refine Changes.read_eq_ok_iff.2 ⟨fields, rfl, hname, nullable_eq_ok_iff.2 ?_, hproducts, hkeys⟩
  rcases nullable_eq_ok_iff.1 hbands with hnone | hnull | ⟨w, es, hw, hne, hes, hr⟩
  · exact .inl hnone
  · exact .inr (.inl hnull)
  · exact .inr (.inr ⟨w, es, hw, hne, list_read_of_read hes, hr⟩)

end Requests
end Provisioning.Request
