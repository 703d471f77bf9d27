import Provisioning.Proofs.Request.Reader

namespace Provisioning

namespace Value.Fields

variable {fields : Value.Fields} {key : String} {v w : Value}

theorem keys_insert (h : fields.get? key = some w) : (fields.insert key v).keys = fields.keys := by
  induction fields with
  | nil => cases h
  | cons f fields ih =>
    obtain ⟨k, u⟩ := f
    rw [insert]
    split
    · rfl
    · rename_i hk
      rw [get?, List.lookup_cons, beq_eq_false_iff_ne.2 (Ne.symm hk)] at h
      exact congrArg (k :: ·) (ih h)

theorem insert_insert : (fields.insert key v).insert key w = fields.insert key w := by
  induction fields with
  | nil => exact if_pos rfl
  | cons f fields ih =>
    obtain ⟨k, u⟩ := f
    rw [insert, insert]
    split
    · exact if_pos ‹_›
    · rw [insert, if_neg ‹_›, ih]

theorem insert_eq_self (h : fields.get? key = some v) : fields.insert key v = fields := by
  induction fields with
  | nil => cases h
  | cons f fields ih =>
    obtain ⟨k, u⟩ := f
    rw [insert]
    split
    · rename_i hk
      rw [get?, hk, List.lookup_cons_self] at h
      rw [Option.some.inj h]
    · rename_i hk
      rw [get?, List.lookup_cons, beq_eq_false_iff_ne.2 (Ne.symm hk)] at h
      rw [ih h]

end Value.Fields

namespace Request

def ReadAs (vs : List Value) (es : List BandEntry) : Prop :=
  List.Forall₂ (fun v e ↦ BandEntry.read .call v = .ok e) vs es

def bandsOnly (vs : List Value) : Value := .object [("definitions", .list vs)]

def Changes.ofBands (es : List BandEntry) : Changes := ⟨.absent, .given es, .absent⟩

variable {fields : Value.Fields} {vs vs' : List Value} {es : List BandEntry}

theorem get?_insert_of_ne {key : String} (h : key ≠ "definitions") (v : Value) :
    (fields.insert "definitions" v).get? key = fields.get? key := by
  rw [Value.Fields.get?_insert, if_neg h]

theorem get?_insert_self (v : Value) : (fields.insert "definitions" v).get? "definitions" = some v := by
  rw [Value.Fields.get?_insert, if_pos rfl]

theorem required_congr {α : Type} {read : Reader α} {fields' : Value.Fields} {key : String}
    (h : fields'.get? key = fields.get? key) : required read fields' key = required read fields key := by
  rw [required, required, h]

theorem optional_congr {α : Type} {read : Reader α} {fields' : Value.Fields} {key : String}
    (h : fields'.get? key = fields.get? key) : optional read fields' key = optional read fields key := by
  rw [optional, optional, h]

theorem nullable_congr {α : Type} {read : Reader α} {fields' : Value.Fields} {key : String}
    (h : fields'.get? key = fields.get? key) : nullable read fields' key = nullable read fields key := by
  rw [nullable, nullable, h]

theorem checkKeys_insert {known : List String} {v w : Value} (h : fields.get? "definitions" = some w) :
    checkKeys known (fields.insert "definitions" v) = checkKeys known fields := by
  rw [checkKeys, checkKeys, Value.Fields.keys_insert h]

section Create

variable {r : NewCriteria}

theorem NewCriteria.readAs_of_read (hget : fields.get? "definitions" = some (.list vs))
    (h : NewCriteria.read .call (.object fields) = .ok r) : ReadAs vs r.bands := by
  obtain ⟨_, hfields, -, hbands, -⟩ := NewCriteria.read_eq_ok_iff.1 h
  obtain rfl := Value.object.inj hfields
  obtain ⟨w, hw, hbands⟩ := required_eq_ok_iff.1 hbands
  obtain rfl := Option.some.inj (hget.symm.trans hw)
  obtain ⟨us, hus, hbands⟩ := list_eq_ok_iff.1 (nonEmptyList_eq_ok_iff.1 hbands).1
  rw [Value.list.inj hus]
  exact hbands

theorem NewCriteria.read_insert (hget : fields.get? "definitions" = some (.list vs))
    (h : NewCriteria.read .call (.object fields) = .ok r) (hes : ReadAs vs' es) (hne : es ≠ []) :
    NewCriteria.read .call (.object (fields.insert "definitions" (.list vs'))) =
      .ok { r with bands := es } := by
  obtain ⟨_, hfields, hname, -, hproducts, hkeys⟩ := NewCriteria.read_eq_ok_iff.1 h
  obtain rfl := Value.object.inj hfields
  refine NewCriteria.read_eq_ok_iff.2 ⟨_, rfl, ?_, required_eq_ok_iff.2 ⟨_, get?_insert_self _, ?_⟩, ?_, ?_⟩
  · rw [required_congr (get?_insert_of_ne (by decide) _)]
    exact hname
  · exact nonEmptyList_eq_ok_iff.2 ⟨list_eq_ok_iff.2 ⟨vs', rfl, hes⟩, hne⟩
  · rw [optional_congr (get?_insert_of_ne (by decide) _)]
    exact hproducts
  · rw [checkKeys_insert hget]
    exact hkeys

end Create

section Update

variable {r : Changes}

theorem Changes.bands_of_read (hget : fields.get? "definitions" = some (.list vs))
    (h : Changes.read .call (.object fields) = .ok r) : ∃ es, r.bands = .given es ∧ ReadAs vs es := by
  obtain ⟨_, hfields, -, hbands, -⟩ := Changes.read_eq_ok_iff.1 h
  obtain rfl := Value.object.inj hfields
  rcases nullable_eq_ok_iff.1 hbands with ⟨hnone, -⟩ | ⟨hnull, -⟩ | ⟨w, es, hw, -, hes, hr⟩
  · cases hget.symm.trans hnone
  · cases hget.symm.trans hnull
  · obtain rfl := Option.some.inj (hget.symm.trans hw)
    obtain ⟨us, hus, hes⟩ := list_eq_ok_iff.1 hes
    rw [Value.list.inj hus]
    exact ⟨es, hr, hes⟩

theorem Changes.read_insert (hget : fields.get? "definitions" = some (.list vs))
    (h : Changes.read .call (.object fields) = .ok r) (hes : ReadAs vs' es) :
    Changes.read .call (.object (fields.insert "definitions" (.list vs'))) =
      .ok { r with bands := .given es } := by
  obtain ⟨_, hfields, hname, -, hproducts, hkeys⟩ := Changes.read_eq_ok_iff.1 h
  obtain rfl := Value.object.inj hfields
  refine Changes.read_eq_ok_iff.2 ⟨_, rfl, ?_, nullable_eq_ok_iff.2 (.inr (.inr
    ⟨_, es, get?_insert_self _, nofun, list_eq_ok_iff.2 ⟨vs', rfl, hes⟩, rfl⟩)), ?_, ?_⟩
  · rw [nullable_congr (get?_insert_of_ne (by decide) _)]
    exact hname
  · rw [nullable_congr (get?_insert_of_ne (by decide) _)]
    exact hproducts
  · rw [checkKeys_insert hget]
    exact hkeys

theorem Changes.read_bandsOnly (h : ReadAs vs es) :
    Changes.read .call (bandsOnly vs) = .ok (.ofBands es) := by
  have hlist : nullable (list (BandEntry.read .call)) [("definitions", .list vs)] "definitions" =
      .ok (.given es) :=
    nullable_eq_ok_iff.2 (.inr (.inr ⟨_, es, rfl, nofun, list_eq_ok_iff.2 ⟨vs, rfl, h⟩, rfl⟩))
  exact Changes.read_eq_ok_iff.2 ⟨_, rfl, rfl, hlist, rfl, rfl⟩

theorem Changes.readAs_of_bandsOnly (h : Changes.read .call (bandsOnly vs) = .ok r) :
    ∃ es, ReadAs vs es ∧ r = .ofBands es := by
  have hget : Value.Fields.get? [("definitions", .list vs)] "definitions" = some (.list vs) := rfl
  obtain ⟨es, -, hes⟩ := Changes.bands_of_read hget h
  exact ⟨es, hes, Except.ok.inj (h.symm.trans (Changes.read_bandsOnly hes))⟩

end Update
end Request
end Provisioning
