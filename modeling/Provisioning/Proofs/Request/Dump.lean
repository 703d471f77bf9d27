import Provisioning.Proofs.Request.Reader

namespace Provisioning.Request

def presence (v : Value) (key : String) : Presence Unit :=
  match v with
  | .object fields =>
    match Value.Fields.get? fields key with
    | none => .absent
    | some .null => .null
    | some _ => .given ()
  | _ => .absent

def listedEntries : Value → List Value
  | .object fields =>
    match Value.Fields.get? fields "definitions" with
    | some (.list vs) => vs
    | _ => []
  | _ => []

/-- The values have the same fields, and the same ones are `null`, in the entries that they list too. -/
structure Mirrors (v w : Value) : Prop where
  fields : ∀ key, presence v key = presence w key
  entries : List.Forall₂ (fun a b ↦ ∀ key, presence a key = presence b key) (listedEntries v)
    (listedEntries w)

section Presence

variable {α : Type} {read : Reader α} {fields : Value.Fields} {key : String}

def Presence.erase : Presence α → Presence Unit
  | absent => .absent
  | null => .null
  | given _ => .given ()

theorem presence_of_ne_null {v : Value} (hv : fields.get? key = some v) (hne : v ≠ .null) :
    presence (.object fields) key = .given () := by
  rw [presence, hv]
  cases v with
  | null => exact absurd rfl hne
  | _ => rfl

theorem presence_of_nullable {p : Presence α} (h : nullable read fields key = .ok p) :
    presence (.object fields) key = p.erase := by
  obtain ⟨hnone, rfl⟩ | ⟨hnull, rfl⟩ | ⟨v, a, hv, hne, -, rfl⟩ := nullable_eq_ok_iff.1 h
  · rw [presence, hnone]
    rfl
  · rw [presence, hnull]
    rfl
  · exact presence_of_ne_null hv hne

theorem presence_of_required {a : α} (hnull : ∀ a, read .null ≠ .ok a)
    (h : required read fields key = .ok a) : presence (.object fields) key = .given () := by
  obtain ⟨v, hv, hread⟩ := required_eq_ok_iff.1 h
  exact presence_of_ne_null hv fun hv' ↦ hnull a (hv' ▸ hread)

theorem presence_of_optional {o : Option α} (hnull : ∀ a, read .null ≠ .ok a)
    (h : optional read fields key = .ok o) :
    presence (.object fields) key = if o.isSome then .given () else .absent := by
  obtain ⟨hnone, rfl⟩ | ⟨v, a, hv, hread, rfl⟩ := optional_eq_ok_iff.1 h
  · rw [presence, hnone]
    rfl
  · exact presence_of_ne_null hv fun hv' ↦ hnull a (hv' ▸ hread)

theorem presence_of_unknown {known : List String} (h : checkKeys known fields = .ok ())
    (hkey : key ∉ known) : presence (.object fields) key = .absent := by
  have hnone : fields.get? key = none := by
    refine List.lookup_eq_none_iff.2 fun f hf ↦ bne_iff_ne.2 fun he ↦ hkey ?_
    rw [he]
    exact checkKeys_eq_ok_iff.1 h f.1 (List.mem_map_of_mem hf)
  rw [presence, hnone]

theorem nonEmptyList_null (a : List α) : nonEmptyList read .null ≠ .ok a :=
  fun h ↦ by cases (nonEmptyList_eq_ok_iff.1 h).1

end Presence

variable {origin origin' : Origin} {v w : Value}

theorem BandEntry.presence_eq {e : BandEntry} (hv : BandEntry.read origin v = .ok e)
    (hw : BandEntry.read origin' w = .ok e) (key : String) : presence v key = presence w key := by
  obtain ⟨fields, rfl, hid, hcategory, hmin, hmax, hpercentage, hliability, hexpense, hkeys⟩ :=
    BandEntry.read_eq_ok_iff.1 hv
  obtain ⟨fields', rfl, hid', hcategory', hmin', hmax', hpercentage', hliability', hexpense',
    hkeys'⟩ := BandEntry.read_eq_ok_iff.1 hw
  have hgiven {α : Type} {read : Reader α} {key : String} {a : α} (hnull : ∀ a, read .null ≠ .ok a)
      (h : required read fields key = .ok a) (h' : required read fields' key = .ok a) :
      presence (.object fields) key = presence (.object fields') key := by
    rw [presence_of_required hnull h, presence_of_required hnull h']
  by_cases hkey : key ∈ BandEntry.keys
  · simp only [BandEntry.keys, List.mem_cons, List.not_mem_nil, or_false] at hkey
    rcases hkey with rfl | rfl | rfl | rfl | rfl | rfl | rfl
    · rw [presence_of_nullable hid, presence_of_nullable hid']
    · exact hgiven nofun hcategory hcategory'
    · exact hgiven nofun hmin hmin'
    · exact hgiven nofun hmax hmax'
    · exact hgiven nofun hpercentage hpercentage'
    · exact hgiven nofun hliability hliability'
    · exact hgiven nofun hexpense hexpense'
  · rw [presence_of_unknown hkeys hkey, presence_of_unknown hkeys' hkey]

theorem forall₂_presence_eq {vs ws : List Value} {es : List BandEntry}
    (hvs : List.Forall₂ (fun v e ↦ BandEntry.read origin v = .ok e) vs es)
    (hws : List.Forall₂ (fun w e ↦ BandEntry.read origin' w = .ok e) ws es) :
    List.Forall₂ (fun a b ↦ ∀ key, presence a key = presence b key) vs ws := by
  refine forall₂_comp (fun v e w hv hw ↦ ?_) hvs hws.flip
  exact BandEntry.presence_eq hv hw

theorem forall₂_listedEntries {fields : Value.Fields} {p : Presence (List BandEntry)}
    (h : nullable (list (BandEntry.read origin)) fields "definitions" = .ok p) :
    List.Forall₂ (fun v e ↦ BandEntry.read origin v = .ok e) (listedEntries (.object fields))
      (p.value?.getD []) := by
  rw [listedEntries]
  obtain ⟨hnone, rfl⟩ | ⟨hnull, rfl⟩ | ⟨_, es, hget, -, hlist, rfl⟩ := nullable_eq_ok_iff.1 h
  · rw [hnone]
    exact .nil
  · rw [hnull]
    exact .nil
  · obtain ⟨vs, rfl, hvs⟩ := list_eq_ok_iff.1 hlist
    rw [hget]
    exact hvs

theorem NewCriteria.mirrors {r : NewCriteria} (hv : NewCriteria.read origin v = .ok r)
    (hw : NewCriteria.read origin' w = .ok r) : Mirrors v w := by
  obtain ⟨fields, rfl, hname, hbands, hproducts, hkeys⟩ := NewCriteria.read_eq_ok_iff.1 hv
  obtain ⟨fields', rfl, hname', hbands', hproducts', hkeys'⟩ := NewCriteria.read_eq_ok_iff.1 hw
  refine ⟨fun key ↦ ?_, ?_⟩
  · by_cases hkey : key ∈ Request.keys
    · simp only [Request.keys, List.mem_cons, List.not_mem_nil, or_false] at hkey
      rcases hkey with rfl | rfl | rfl
      · rw [presence_of_required nofun hname, presence_of_required nofun hname']
      · rw [presence_of_required nonEmptyList_null hbands, presence_of_required nonEmptyList_null hbands']
      · rw [presence_of_optional nofun hproducts, presence_of_optional nofun hproducts']
    · rw [presence_of_unknown hkeys hkey, presence_of_unknown hkeys' hkey]
  · obtain ⟨_, hget, hlist⟩ := required_eq_ok_iff.1 hbands
    obtain ⟨_, hget', hlist'⟩ := required_eq_ok_iff.1 hbands'
    obtain ⟨vs, rfl, hvs⟩ := list_eq_ok_iff.1 (nonEmptyList_eq_ok_iff.1 hlist).1
    obtain ⟨ws, rfl, hws⟩ := list_eq_ok_iff.1 (nonEmptyList_eq_ok_iff.1 hlist').1
    simp only [listedEntries, hget, hget']
    exact forall₂_presence_eq hvs hws

theorem Changes.mirrors {r : Changes} (hv : Changes.read origin v = .ok r)
    (hw : Changes.read origin' w = .ok r) : Mirrors v w := by
  obtain ⟨fields, rfl, hname, hbands, hproducts, hkeys⟩ := Changes.read_eq_ok_iff.1 hv
  obtain ⟨fields', rfl, hname', hbands', hproducts', hkeys'⟩ := Changes.read_eq_ok_iff.1 hw
  refine ⟨fun key ↦ ?_, ?_⟩
  · by_cases hkey : key ∈ Request.keys
    · simp only [Request.keys, List.mem_cons, List.not_mem_nil, or_false] at hkey
      rcases hkey with rfl | rfl | rfl
      · rw [presence_of_nullable hname, presence_of_nullable hname']
      · rw [presence_of_nullable hbands, presence_of_nullable hbands']
      · rw [presence_of_nullable hproducts, presence_of_nullable hproducts']
    · rw [presence_of_unknown hkeys hkey, presence_of_unknown hkeys' hkey]
  · exact forall₂_presence_eq (forall₂_listedEntries hbands) (forall₂_listedEntries hbands')

section Dump

theorem name_str {n : String} (h : Request.name v = .ok n) : Request.name (.str n) = .ok n := by
  have hread := mapError_eq_ok_iff.1 h
  cases v with
  | str s =>
    have hs : s = n := by
      rw [readName] at hread
      split_ifs at hread
      exact Except.ok.inj hread
    rw [← hs] at h ⊢
    exact h
  | _ => cases hread

theorem decimal_decimal {d : Decimal} (h : decimal v = .ok d) : decimal (.decimal d) = .ok d := by
  have hfinite : d.isFinite = true := by
    have hread := mapError_eq_ok_iff.1 h
    simp only [readDecimal] at hread
    split at hread
    case h_6 => cases hread
    all_goals
      split at hread
      · cases hread
      · split_ifs at hread with hd
        exact Except.ok.inj hread ▸ hd
  refine mapError_eq_ok_iff.2 ?_
  rw [readDecimal]
  exact if_pos hfinite

theorem list_map {α : Type} {read : Reader α} {f : α → Value} {as : List α}
    (h : ∀ a ∈ as, read (f a) = .ok a) : list read (.list (as.map f)) = .ok as := by
  refine list_eq_ok_iff.2 ⟨_, rfl, List.forall₂_map_left_iff.2 ?_⟩
  exact List.forall₂_same.2 h

theorem list_ofInts (ns : List Int) : list integer (.ofInts ns) = .ok ns := list_map fun _ _ ↦ rfl

theorem BandEntry.read_dump {e : BandEntry} (h : BandEntry.read origin v = .ok e) :
    BandEntry.read origin' e.dump = .ok e := by
  obtain ⟨_, -, -, -, -, -, hpercentage, -⟩ := BandEntry.read_eq_ok_iff.1 h
  obtain ⟨_, -, hpercentage⟩ := required_eq_ok_iff.1 hpercentage
  have hback := decimal_decimal hpercentage
  obtain ⟨id, categoryId, minAge, maxAge, percentage, liability, expense⟩ := e
  cases id <;>
    exact BandEntry.read_eq_ok_iff.2 ⟨_, rfl, rfl, rfl, rfl, rfl,
      required_eq_ok_iff.2 ⟨_, rfl, hback⟩, rfl, rfl, rfl⟩

theorem list_read_dump {es : List BandEntry} (h : list (BandEntry.read origin) v = .ok es) :
    list (BandEntry.read origin') (.list (es.map BandEntry.dump)) = .ok es := by
  obtain ⟨vs, -, hvs⟩ := list_eq_ok_iff.1 h
  refine list_map fun e he ↦ ?_
  obtain ⟨v, -, hv⟩ := exists_of_mem_right hvs he
  exact BandEntry.read_dump hv

theorem NewCriteria.read_dump {r : NewCriteria} (h : NewCriteria.read origin v = .ok r) :
    NewCriteria.read origin' r.dump = .ok r := by
  obtain ⟨fields, rfl, hname, hbands, -⟩ := NewCriteria.read_eq_ok_iff.1 h
  obtain ⟨_, -, hname⟩ := required_eq_ok_iff.1 hname
  obtain ⟨_, -, hbands⟩ := required_eq_ok_iff.1 hbands
  obtain ⟨hbands, hne⟩ := nonEmptyList_eq_ok_iff.1 hbands
  have hname := name_str hname
  have hbands : nonEmptyList (BandEntry.read origin') (.list (r.bands.map BandEntry.dump)) =
      .ok r.bands := nonEmptyList_eq_ok_iff.2 ⟨list_read_dump hbands, hne⟩
  obtain ⟨name, bands, products⟩ := r
  cases products with
  | none =>
    exact NewCriteria.read_eq_ok_iff.2 ⟨_, rfl, required_eq_ok_iff.2 ⟨_, rfl, hname⟩,
      required_eq_ok_iff.2 ⟨_, rfl, hbands⟩, rfl, rfl⟩
  | some ids =>
    exact NewCriteria.read_eq_ok_iff.2 ⟨_, rfl, required_eq_ok_iff.2 ⟨_, rfl, hname⟩,
      required_eq_ok_iff.2 ⟨_, rfl, hbands⟩,
      optional_eq_ok_iff.2 (.inr ⟨_, _, rfl, list_ofInts ids, rfl⟩), rfl⟩

theorem Changes.read_dump {r : Changes} (h : Changes.read origin v = .ok r) :
    Changes.read origin' r.dump = .ok r := by
  obtain ⟨fields, rfl, hname, hbands, -, -⟩ := Changes.read_eq_ok_iff.1 h
  have hname' : ∀ n, r.name = .given n → Request.name (.str n) = .ok n := by
    intro n hn
    obtain ⟨v, hv⟩ := exists_of_nullable hname (by rw [hn]; rfl)
    exact name_str hv
  have hbands' : ∀ es, r.bands = .given es →
      list (BandEntry.read origin') (.list (es.map BandEntry.dump)) = .ok es := by
    intro es hes
    obtain ⟨v, hv⟩ := exists_of_nullable hbands (by rw [hes]; rfl)
    exact list_read_dump hv
  obtain ⟨name, bands, products⟩ := r
  refine Changes.read_eq_ok_iff.2 ⟨_, rfl, ?_, ?_, ?_, ?_⟩
  · cases name with
    | given n => exact nullable_eq_ok_iff.2 (.inr (.inr ⟨_, n, rfl, nofun, hname' n rfl, rfl⟩))
    | _ => cases bands <;> cases products <;> rfl
  · cases bands with
    | given es =>
      have hget : nullable (list (BandEntry.read origin'))
          [("definitions", .list (es.map BandEntry.dump))] "definitions" = .ok (.given es) :=
        nullable_eq_ok_iff.2 (.inr (.inr ⟨_, es, rfl, nofun, hbands' es rfl, rfl⟩))
      cases name <;> cases products <;> exact hget
    | _ => cases name <;> cases products <;> rfl
  · cases products with
    | given ids =>
      have hget : nullable (list integer) [("loan_products", .ofInts ids)] "loan_products" =
          .ok (.given ids) :=
        nullable_eq_ok_iff.2 (.inr (.inr ⟨_, ids, rfl, nofun, list_ofInts ids, rfl⟩))
      cases name <;> cases bands <;> exact hget
    | _ => cases name <;> cases bands <;> rfl
  · cases name <;> cases bands <;> cases products <;> rfl

end Dump
end Provisioning.Request
