import Provisioning.Proofs.Assembly

namespace Provisioning.Request

variable {α : Type} {fields : Value.Fields} {key : String} {payload : Value}

theorem length_of_name {v : Value} {n : String} (h : Request.name v = .ok n) :
    n.length ≤ maxNameLength := by
  have hread := mapError_eq_ok_iff.1 h
  cases v with
  | str s =>
    rw [readName] at hread
    split at hread
    · cases hread
    · split at hread
      · cases hread
      · rename_i hlength
        rw [← Except.ok.inj hread]
        exact not_lt.1 hlength
  | _ => cases hread

theorem ne_nil_of_nonEmptyList {read : Reader α} {v : Value} {vs : List α}
    (h : nonEmptyList read v = .ok vs) : vs ≠ [] := by
  obtain ⟨us, -, h⟩ := bind_eq_ok_iff.1 h
  split at h
  · cases h
  · rename_i hempty
    rw [← Except.ok.inj h]
    exact fun hnil ↦ hempty (List.isEmpty_iff.2 hnil)

theorem exists_of_required {read : Reader α} {a : α} (h : required read fields key = .ok a) :
    ∃ v, read v = .ok a := by
  rw [required] at h
  split at h
  · cases h
  · exact ⟨_, mapError_eq_ok_iff.1 h⟩

theorem exists_of_nullable {read : Reader α} {p : Presence α} (h : nullable read fields key = .ok p)
    {a : α} (ha : p.value? = some a) : ∃ v, read v = .ok a := by
  rw [nullable] at h
  split at h
  · rw [← Except.ok.inj h] at ha
    cases ha
  · rw [← Except.ok.inj h] at ha
    cases ha
  · obtain ⟨b, hb, rfl⟩ := map_eq_ok_iff.1 h
    rw [← Option.some.inj ha]
    exact ⟨_, mapError_eq_ok_iff.1 hb⟩

theorem NewCriteria.bounds_of_read {origin : Origin} {r : NewCriteria}
    (h : NewCriteria.read origin payload = .ok r) :
    r.name.length ≤ maxNameLength ∧ r.bands ≠ [] := by
  cases payload with
  | object fields =>
    obtain ⟨name, hname, h⟩ := bind_eq_ok_iff.1 h
    obtain ⟨bands, hbands, h⟩ := bind_eq_ok_iff.1 h
    obtain ⟨products, -, h⟩ := bind_eq_ok_iff.1 h
    obtain ⟨_, -, h⟩ := bind_eq_ok_iff.1 h
    obtain ⟨v, hv⟩ := exists_of_required hname
    obtain ⟨w, hw⟩ := exists_of_required hbands
    rw [← Except.ok.inj h]
    exact ⟨length_of_name hv, ne_nil_of_nonEmptyList hw⟩
  | _ => cases h

theorem Changes.length_of_read {origin : Origin} {r : Changes}
    (h : Changes.read origin payload = .ok r) {n : String} (hn : r.name.value? = some n) :
    n.length ≤ maxNameLength := by
  cases payload with
  | object fields =>
    obtain ⟨name, hname, h⟩ := bind_eq_ok_iff.1 h
    obtain ⟨bands, -, h⟩ := bind_eq_ok_iff.1 h
    obtain ⟨products, -, h⟩ := bind_eq_ok_iff.1 h
    obtain ⟨_, -, h⟩ := bind_eq_ok_iff.1 h
    rw [← Except.ok.inj h] at hn
    obtain ⟨v, hv⟩ := exists_of_nullable hname hn
    exact length_of_name hv
  | _ => cases h

end Provisioning.Request
