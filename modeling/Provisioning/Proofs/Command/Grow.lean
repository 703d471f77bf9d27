import Provisioning.Proofs.Command.Delete
import Provisioning.Proofs.Command.Resumed
import Provisioning.Proofs.Request.Definitions

namespace Provisioning

def Value.withoutId : Value → Value
  | .object fields => .object (fields.filter fun f ↦ f.1 != "id")
  | v => v

/-- If this is an entry, its id can be read. -/
def Value.IdReads (v : Value) : Prop :=
  ∀ fields, v = .object fields → ∃ p, Request.nullable Request.integer fields "id" = .ok p

namespace Value.Fields

variable {fields : Value.Fields} {key : String}

theorem get?_filter_id : Fields.get? (fields.filter fun f ↦ f.1 != "id") key =
    if key = "id" then none else fields.get? key := by
  induction fields with
  | nil => exact (ite_self none).symm
  | cons f fields ih =>
    obtain ⟨k, u⟩ := f
    rw [get?] at ih ⊢
    rw [List.filter_cons, get?, List.lookup_cons]
    by_cases hk : k = "id"
    · rw [if_neg (by simp [hk]), ih]
      split_ifs with hkey
      · rfl
      · rw [hk, beq_eq_false_iff_ne.2 hkey, get?]
    · rw [if_pos (bne_iff_ne.2 hk), List.lookup_cons, ih]
      split_ifs with hkey
      · rw [hkey, beq_eq_false_iff_ne.2 (Ne.symm hk)]
      · rfl

end Value.Fields

namespace Request

def BandEntry.withoutId (e : BandEntry) : BandEntry := { e with id := .absent }

section Reads

variable {fields : Value.Fields} {v : Value} {vs ws : List Value} {e : BandEntry}
  {as bs es : List BandEntry}

theorem checkKeys_filter_id :
    checkKeys BandEntry.keys (fields.filter fun f ↦ f.1 != "id") = .ok () ↔
      checkKeys BandEntry.keys fields = .ok () := by
  rw [checkKeys_eq_ok_iff, checkKeys_eq_ok_iff]
  simp only [Value.Fields.keys, List.forall_mem_map, List.mem_filter, bne_iff_ne, and_imp]
  refine forall₂_congr fun f _ ↦ ⟨fun h ↦ ?_, fun h _ ↦ h⟩
  by_cases hid : f.1 = "id"
  · rw [hid]
    exact List.mem_cons_self
  · exact h hid

theorem required_filter_id {α : Type} {read : Reader α} {key : String} (hkey : key ≠ "id") :
    required read (fields.filter fun f ↦ f.1 != "id") key = required read fields key :=
  required_congr (Value.Fields.get?_filter_id.trans (if_neg hkey))

/-- Without its id an entry is read as before, as long as the id could be read. -/
theorem BandEntry.read_withoutId_iff :
    BandEntry.read .call v.withoutId = .ok e ∧ v.IdReads ↔
      ∃ e', BandEntry.read .call v = .ok e' ∧ e'.withoutId = e := by
  cases v with
  | object fields =>
    have hnone : nullable integer (fields.filter fun f ↦ f.1 != "id") "id" = .ok .absent :=
      nullable_eq_ok_iff.2 (.inl ⟨Value.Fields.get?_filter_id, rfl⟩)
    simp only [Value.withoutId, Value.IdReads, BandEntry.read_eq_ok_iff, Value.object.injEq, forall_eq',
      exists_eq_left', hnone, Except.ok.injEq, required_filter_id (by decide : "category_id" ≠ "id"),
      required_filter_id (by decide : "min_age" ≠ "id"), required_filter_id (by decide : "max_age" ≠ "id"),
      required_filter_id (by decide : "provisioning_percentage" ≠ "id"),
      required_filter_id (by decide : "liability_account" ≠ "id"),
      required_filter_id (by decide : "expense_account" ≠ "id"), checkKeys_filter_id]
    constructor
    · rintro ⟨⟨hid, hrest⟩, p, hp⟩
      refine ⟨{ e with id := p }, ⟨hp, hrest⟩, ?_⟩
      rw [withoutId, hid]
    · rintro ⟨e', ⟨hid, hrest⟩, rfl⟩
      exact ⟨⟨rfl, hrest⟩, e'.id, hid⟩
  | _ => exact iff_of_false (fun h ↦ by cases h.1) fun ⟨_, h, _⟩ ↦ by cases h

theorem readAs_withoutId_iff :
    ReadAs (ws.map Value.withoutId) es ∧ (∀ w ∈ ws, w.IdReads) ↔
      ∃ bs, ReadAs ws bs ∧ bs.map BandEntry.withoutId = es := by
  induction ws generalizing es with
  | nil =>
    simp only [ReadAs, List.map_nil, List.forall₂_nil_left_iff, List.not_mem_nil, false_implies,
      implies_true, and_true, exists_eq_left]
    exact eq_comm
  | cons w ws ih =>
    simp only [ReadAs, List.map_cons, List.forall₂_cons_left_iff, List.forall_mem_cons] at ih ⊢
    constructor
    · rintro ⟨⟨e, rest, he, hrest, rfl⟩, hw, hws⟩
      obtain ⟨e', he', rfl⟩ := BandEntry.read_withoutId_iff.1 ⟨he, hw⟩
      obtain ⟨bs, hbs, rfl⟩ := ih.1 ⟨hrest, hws⟩
      exact ⟨_, ⟨e', bs, he', hbs, rfl⟩, rfl⟩
    · rintro ⟨_, ⟨e', bs, he', hbs, rfl⟩, rfl⟩
      obtain ⟨he, hw⟩ := BandEntry.read_withoutId_iff.2 ⟨e', he', rfl⟩
      obtain ⟨hrest, hws⟩ := ih.2 ⟨bs, hbs, rfl⟩
      exact ⟨⟨_, _, he, hrest, rfl⟩, hw, hws⟩

theorem readAs_append_iff :
    ReadAs (vs ++ ws) es ↔ ∃ as bs, ReadAs vs as ∧ ReadAs ws bs ∧ es = as ++ bs := by
  constructor
  · intro h
    exact ⟨_, _, List.forall₂_take_append _ _ _ h.flip |>.flip,
      List.forall₂_drop_append _ _ _ h.flip |>.flip, (List.take_append_drop vs.length es).symm⟩
  · rintro ⟨as, bs, has, hbs, rfl⟩
    exact List.rel_append has hbs

variable {r r₁ : NewCriteria} {r₂ : Changes} (hget : fields.get? "definitions" = some (.list (vs ++ ws)))

include hget

theorem NewCriteria.read_parts (hvs : vs ≠ []) (h : NewCriteria.read .call (.object fields) = .ok r) :
    ∃ as bs, r.bands = as ++ bs ∧
      NewCriteria.read .call (.object (fields.insert "definitions" (.list vs))) =
        .ok { r with bands := as } ∧
      Changes.read .call (bandsOnly (ws.map Value.withoutId)) = .ok (.ofBands (bs.map BandEntry.withoutId)) := by
  obtain ⟨as, bs, has, hbs, hbands⟩ := readAs_append_iff.1 (NewCriteria.readAs_of_read hget h)
  have hne : as ≠ [] := by
    rintro rfl
    exact hvs (List.forall₂_nil_right_iff.1 has)
  exact ⟨as, bs, hbands, NewCriteria.read_insert hget h has hne,
    Changes.read_bandsOnly (readAs_withoutId_iff.2 ⟨bs, hbs, rfl⟩).1⟩

theorem NewCriteria.exists_read_of_parts (hids : ∀ w ∈ ws, w.IdReads)
    (hfirst : NewCriteria.read .call (.object (fields.insert "definitions" (.list vs))) = .ok r₁)
    (hrest : Changes.read .call (bandsOnly (ws.map Value.withoutId)) = .ok r₂) :
    ∃ r, NewCriteria.read .call (.object fields) = .ok r := by
  have has := NewCriteria.readAs_of_read (get?_insert_self _) hfirst
  obtain ⟨es, hes, -⟩ := Changes.readAs_of_bandsOnly hrest
  obtain ⟨bs, hbs, -⟩ := readAs_withoutId_iff.1 ⟨hes, hids⟩
  have hne : r₁.bands ++ bs ≠ [] := fun hnil ↦
    (NewCriteria.bounds_of_read hfirst).2 (List.append_eq_nil_iff.1 hnil).1
  have hwhole := NewCriteria.read_insert (get?_insert_self _) hfirst (readAs_append_iff.2
    ⟨_, bs, has, hbs, rfl⟩) hne
  rw [Value.Fields.insert_insert, Value.Fields.insert_eq_self hget] at hwhole
  exact ⟨_, hwhole⟩

end Reads
end Request

section Entries

variable {s : Store} {as bs : List Request.BandEntry} {e : Request.BandEntry}

theorem acceptable_withoutId_iff : e.withoutId.Acceptable s ↔ e.Acceptable s :=
  ⟨fun h ↦ ⟨h.ages, h.percentage, h.category, h.liability, h.expense⟩,
    fun h ↦ ⟨h.ages, h.percentage, h.category, h.liability, h.expense⟩⟩

theorem revisedBands_withoutId :
    revisedBands s (bs.map Request.BandEntry.withoutId) (as.map (Request.BandEntry.newBand s)) =
      (as ++ bs).map (Request.BandEntry.newBand s) := by
  have hsame : (as.map (Request.BandEntry.newBand s)).map
      (Band.revised s (bs.map Request.BandEntry.withoutId)) = as.map (Request.BandEntry.newBand s) := by
    rw [List.map_map]
    exact List.map_congr_left fun e _ ↦ revised_of_id_eq_none rfl
  have hall : (bs.map Request.BandEntry.withoutId).filter (fun e ↦ e.id.value?.isNone) =
      bs.map Request.BandEntry.withoutId := by
    refine List.filter_eq_self.2 fun e he ↦ ?_
    obtain ⟨e', -, rfl⟩ := List.mem_map.1 he
    rfl
  rw [revisedBands, hsame, hall, List.map_map, List.map_append]
  rfl

end Entries

namespace Store

variable {s : Store} {r : Request.NewCriteria} {as bs : List Request.BandEntry} {c : Criteria} {id : Int}
  {payload whole first rest : Value} {res res₁ res₂ : CommandResult}

theorem Coherent.exists_revision_of_update (hs : s.Coherent) {r : Request.Changes}
    (hread : Request.Changes.read .call payload = .ok r)
    (hok : (s.update id payload none).answer = .ok res) :
    ∃ c c' written, s.get id = .ok c ∧ r.Revision s c c' written ∧
      s.revise id r = .ok (c', c.changesTo c' written) ∧ res = ⟨id, c.changesTo c' written⟩ ∧
      (s.update id payload none).store = s.written c'.snapshot c'.name := by
  obtain ⟨c, c', written, hget, hrevision, hrevise, hres, hdone⟩ := hs.update_eq_ok hread hok
  refine ⟨c, c', written, hget, hrevision, hrevise, hres, ?_⟩
  rcases hdone with ⟨-, rfl, hstore⟩ | ⟨-, -, hstore⟩
  · rw [hstore]
    exact (hs.written_eq_self hget rfl rfl (fun _ ↦ Iff.rfl) (List.forall₂_same.2 fun b _ ↦ .refl b)).symm
  · exact hstore

section Assembled

variable (hs : s.Consistent) (hc : (s.directory.assemble { r with bands := as }).answer = .ok c)
  (hword : inWord (s.headerId c.snapshot) = true)
  (hrest : Request.Changes.read .call rest = .ok (.ofBands (bs.map Request.BandEntry.withoutId)))

include hs hc

variable (bs) in
theorem Consistent.recalls_withoutId :
    List.Forall₂ Band.SameRow
      (revisedBands (s.written c.snapshot c.name) (bs.map Request.BandEntry.withoutId) (s.rereadAs c).bands)
      ((as ++ bs).map (Request.BandEntry.newBand s)) := by
  have hnew : ∀ e ∈ bs.map Request.BandEntry.withoutId, ∀ i, e.id.value? = some i →
      i ∈ Provisioning.bandIds c.bands := by
    intro e he i hi
    obtain ⟨e', -, rfl⟩ := List.mem_map.1 he
    cases hi
  have hrows := hs.recalls_revisedBands (sound_of_assemble hc) hnew
  obtain ⟨-, ps, rfl, -⟩ := assemble_eq_ok_iff.1 hc
  rw [revisedBands_withoutId] at hrows
  exact hrows.imp fun _ _ hab ↦ hab.row

include hword hrest

/-- Once the first bands are stored, an update adds the others if they are acceptable, fit, and share no
day with each other and the first. -/
theorem Consistent.update_written_eq_ok_iff (ht : (s.written c.snapshot c.name).Consistent) :
    (∃ res, ((s.written c.snapshot c.name).update (s.headerId c.snapshot) rest none).answer = .ok res) ↔
      (∀ e ∈ bs, e.Acceptable s) ∧
        ((as ++ bs).map (Request.BandEntry.newBand s)).Pairwise Band.Disjoint ∧
        ∀ b ∈ (as ++ bs).map (Request.BandEntry.newBand s), b.fits = true := by
  have hget := hs.ordered.get_written (hs.supports (sound_of_assemble hc)) hword
  have hrows := hs.recalls_withoutId bs hc
  have hagrees := s.agrees_written c.snapshot c.name
  rw [ht.update_answer_eq_ok_iff hrest, ← pairwise_disjoint_iff_of_sameRow hrows,
    ← forall_fits_iff_of_sameRow hrows]
  constructor
  · rintro ⟨d, hd, hvalid, hfits, -⟩
    obtain rfl := Except.ok.inj (hd.symm.trans hget)
    refine ⟨fun e he ↦ ?_, hvalid.disjoint, hfits⟩
    have happlicable := hvalid.entries e.withoutId (List.mem_map_of_mem he)
    exact acceptable_withoutId_iff.1 (hagrees.symm.acceptable happlicable.1)
  · rintro ⟨hacceptable, hdisjoint, hfits⟩
    refine ⟨_, hget, ⟨nofun, nofun, fun e he ↦ ?_, hdisjoint⟩, hfits, ⟨nofun, nofun⟩⟩
    obtain ⟨e', he', rfl⟩ := List.mem_map.1 he
    exact ⟨hagrees.acceptable (acceptable_withoutId_iff.2 (hacceptable e' he')), nofun⟩

/-- The update leaves what is left where all bands are written at once. -/
theorem Consistent.store_update_written {d : Criteria}
    (hd : (s.directory.assemble { r with bands := as ++ bs }).answer = .ok d)
    (hok : ((s.written c.snapshot c.name).update (s.headerId c.snapshot) rest none).answer = .ok res) :
    ((s.written c.snapshot c.name).update (s.headerId c.snapshot) rest none).store =
      s.written d.snapshot d.name := by
  have hsound := sound_of_assemble hc
  have hget := hs.ordered.get_written (hs.supports hsound) hword
  have ht : (s.written c.snapshot c.name).Coherent := hs.coherent.written (hs.supports hsound)
  obtain ⟨c₁, c', written, hget₁, hrevision, -, -, hstore⟩ := ht.exists_revision_of_update hrest hok
  obtain rfl := Except.ok.inj (hget₁.symm.trans hget)
  rw [hstore]
  refine hs.written_of_revision hsound hword (fun e he i hi ↦ ?_) hrevision rfl ?_
  · obtain ⟨e', -, rfl⟩ := List.mem_map.1 he
    cases hi
  · obtain ⟨-, ps, rfl, hps, -⟩ := assemble_eq_ok_iff.1 hc
    obtain ⟨-, qs, rfl, hqs, -⟩ := assemble_eq_ok_iff.1 hd
    refine ⟨rfl, rfl, fun n ↦ ?_, ?_⟩
    · change n ∈ qs.map Product.id ↔ n ∈ ps.map Product.id
      rw [hps, hqs]
      exact Iff.rfl
    · change List.Forall₂ _ (revisedBands s (bs.map Request.BandEntry.withoutId) _) _
      rw [revisedBands_withoutId]
      exact List.forall₂_same.2 fun b _ ↦ .refl b

end Assembled

section Parts

variable (hs : s.Consistent) (hword : inWord (nextId (s.headers.map Header.id)) = true)
  (hwhole : Request.NewCriteria.read .call whole = .ok { r with bands := as ++ bs })
  (hfirst : Request.NewCriteria.read .call first = .ok { r with bands := as })
  (hrest : Request.Changes.read .call rest = .ok (.ofBands (bs.map Request.BandEntry.withoutId)))

include hs hfirst

theorem Consistent.exists_of_create (hok : (s.create first none).answer = .ok res) :
    ∃ c, (s.directory.assemble { r with bands := as }).answer = .ok c ∧
      res.resourceId = s.headerId c.snapshot ∧
      s.headerId c.snapshot = nextId (s.headers.map Header.id) ∧
      (s.create first none).store = s.written c.snapshot c.name ∧
      (s.written c.snapshot c.name).Consistent := by
  obtain ⟨c, hc, ⟨hfits, hname, hproducts⟩, rfl, hstore⟩ := (hs.ordered.create_eq_ok_iff hfirst).1 ⟨hok, rfl⟩
  refine ⟨c, hc, rfl, ?_, hstore, hs.written (sound_of_assemble hc) hfits hname hproducts⟩
  obtain ⟨-, ps, rfl, -⟩ := assemble_eq_ok_iff.1 hc
  rfl

include hword hwhole hrest

theorem Consistent.create_parts_iff :
    (∃ res, (s.create whole none).answer = .ok res) ↔
      ∃ res, (s.create first none).answer = .ok res ∧
        ∃ res', ((s.create first none).store.update res.resourceId rest none).answer = .ok res' := by
  have hfitting (h : ∀ e ∈ as ++ bs, e.Acceptable s) :
      (∀ b ∈ (as ++ bs).map (Request.BandEntry.newBand s), b.fits = true) ↔ ∀ e ∈ as ++ bs, e.AgesFit := by
    rw [List.forall_mem_map]
    exact forall₂_congr fun e he ↦ ((h e he).sound none).fits_iff
  rw [hs.create_answer_eq_ok_iff hwhole]
  constructor
  · rintro ⟨hvalid, hages, hname, hproducts⟩
    have hentries : ∀ e ∈ as ++ bs, e.Acceptable s := hvalid.entries
    have hdisjoint : ((as ++ bs).map (Request.BandEntry.newBand s)).Pairwise Band.Disjoint := hvalid.disjoint
    have hparts := hdisjoint
    rw [List.map_append, List.pairwise_append] at hparts
    obtain ⟨res, hok⟩ := (hs.create_answer_eq_ok_iff hfirst).2
      ⟨⟨hvalid.name, fun e he ↦ hentries e (List.mem_append_left bs he), hparts.1, hvalid.products⟩,
        fun e he ↦ hages e (List.mem_append_left bs he), hname, hproducts⟩
    obtain ⟨c, hc, hres, hnext, hstore, ht⟩ := hs.exists_of_create hfirst hok
    rw [← hnext] at hword
    refine ⟨res, hok, ?_⟩
    rw [hstore, hres, hs.update_written_eq_ok_iff hc hword hrest ht]
    exact ⟨fun e he ↦ hentries e (List.mem_append_right as he), hdisjoint, (hfitting hentries).2 hages⟩
  · rintro ⟨res, hok, hrest'⟩
    obtain ⟨c, hc, hres, hnext, hstore, ht⟩ := hs.exists_of_create hfirst hok
    rw [← hnext] at hword
    rw [hstore, hres, hs.update_written_eq_ok_iff hc hword hrest ht] at hrest'
    obtain ⟨hacceptable, hdisjoint, hfits⟩ := hrest'
    obtain ⟨hvalid, -, hname, hproducts⟩ := (hs.create_answer_eq_ok_iff hfirst).1 ⟨res, hok⟩
    have hentries : ∀ e ∈ as ++ bs, e.Acceptable s := by
      intro e he
      rcases List.mem_append.1 he with he | he
      · exact hvalid.entries e he
      · exact hacceptable e he
    exact ⟨⟨hvalid.name, hentries, hdisjoint, hvalid.products⟩, (hfitting hentries).1 hfits, hname, hproducts⟩

theorem Consistent.create_parts_store (hok : (s.create whole none).answer = .ok res)
    (hok₁ : (s.create first none).answer = .ok res₁)
    (hok₂ : ((s.create first none).store.update res₁.resourceId rest none).answer = .ok res₂) :
    res₁.resourceId = res.resourceId ∧ res₂.resourceId = res.resourceId ∧
      ((s.create first none).store.update res₁.resourceId rest none).store =
        (s.create whole none).store := by
  obtain ⟨c, hc, hres, hnext, hstore, ht⟩ := hs.exists_of_create hfirst hok₁
  obtain ⟨d, hd, -, rfl, hwritten⟩ := (hs.ordered.create_eq_ok_iff hwhole).1 ⟨hok, rfl⟩
  have hheader : s.headerId d.snapshot = nextId (s.headers.map Header.id) := by
    obtain ⟨-, ps, rfl, -⟩ := assemble_eq_ok_iff.1 hd
    rfl
  rw [← hnext] at hword hheader
  rw [hres, hstore] at hok₂
  obtain ⟨_, _, _, -, -, -, rfl, -⟩ := ht.coherent.update_eq_ok hrest hok₂
  rw [hres, hstore, hwritten]
  exact ⟨hheader.symm, hheader.symm, hs.store_update_written hc hword hrest hd hok₂⟩

end Parts

/-- Creating a criteria with its first bands and then adding the others without their ids succeeds if
and only if creating it at once does, and then every row is the same. An update reads no id outside of a
word, so that the id that comes next has to be in one. -/
theorem Arises.create_grow {fields : Value.Fields} {vs ws : List Value} (hs : s.Arises Event.Ordinary)
    (hword : inWord (nextId (s.headers.map Header.id)) = true)
    (hget : fields.get? "definitions" = some (.list (vs ++ ws))) (hvs : vs ≠ [])
    (hids : ∀ w ∈ ws, w.IdReads) :
    let whole : Value := .object fields
    let first : Value := .object (fields.insert "definitions" (.list vs))
    let rest := Request.bandsOnly (ws.map Value.withoutId)
    ((∃ res, (s.create whole none).answer = .ok res) ↔
        ∃ res, (s.create first none).answer = .ok res ∧
          ∃ res', ((s.create first none).store.update res.resourceId rest none).answer = .ok res') ∧
      ∀ res res₁ res₂, (s.create whole none).answer = .ok res → (s.create first none).answer = .ok res₁ →
        ((s.create first none).store.update res₁.resourceId rest none).answer = .ok res₂ →
        res₁.resourceId = res.resourceId ∧ res₂.resourceId = res.resourceId ∧
          ((s.create first none).store.update res₁.resourceId rest none).store =
            (s.create whole none).store := by
  intro whole first rest
  have hs := hs.consistent.1
  cases hwhole : Request.NewCriteria.read .call whole with
  | ok r =>
    obtain ⟨as, bs, hbands, hfirst, hrest⟩ := Request.NewCriteria.read_parts hget hvs hwhole
    have hwhole : Request.NewCriteria.read .call whole = .ok { r with bands := as ++ bs } := by
      rw [hwhole, ← hbands]
    exact ⟨hs.create_parts_iff hword hwhole hfirst hrest,
      fun _ _ _ hok hok₁ hok₂ ↦ hs.create_parts_store hword hwhole hfirst hrest hok hok₁ hok₂⟩
  | error e =>
    have hrefused : ¬ ∃ res, (s.create whole none).answer = .ok res := by
      rintro ⟨res, hok⟩
      obtain ⟨r, hread⟩ := exists_read_of_create hok
      cases hwhole.symm.trans hread
    refine ⟨iff_of_false hrefused ?_, fun res _ _ hok ↦ absurd ⟨res, hok⟩ hrefused⟩
    rintro ⟨res, hok, res', hok'⟩
    obtain ⟨r₁, hfirst⟩ := exists_read_of_create hok
    obtain ⟨r₂, hrest⟩ := exists_read_of_update hok'
    obtain ⟨r, hread⟩ := Request.NewCriteria.exists_read_of_parts hget hids hfirst hrest
    cases hwhole.symm.trans hread

end Store

namespace Sample

def numbered : Value.Fields :=
  [("criteria_name", .str "Monthly"),
    ("definitions", .list ([(entry .absent 0 30).dump] ++ [(entry (.given 7) 30 60).dump])),
    ("loan_products", .ofInts [1])]

end Sample

theorem Store.create_grow_of_numbered :
    let first : Value := .object (Sample.numbered.insert "definitions" (.list [(Sample.entry .absent 0 30).dump]))
    let rest := Request.bandsOnly [(Sample.entry (.given 7) 30 60).dump.withoutId]
    Sample.store.Arises Event.Ordinary ∧
      inWord (nextId (Sample.store.headers.map Header.id)) = true ∧
      (Sample.entry (.given 7) 30 60).dump.IdReads ∧
      (∃ res, (Sample.store.create (.object Sample.numbered) none).answer = .ok res) ∧
      (Sample.store.create first none).store ≠ (Sample.store.create (.object Sample.numbered) none).store ∧
      ((Sample.store.create first none).store.update 1 rest none).store =
        (Sample.store.create (.object Sample.numbered) none).store := by
  intro first rest
  have hs : Sample.store.Arises Event.Ordinary := .blank ⟨rfl, rfl, rfl⟩ rfl
  have hids : (Sample.entry (.given 7) 30 60).dump.IdReads := by
    rintro _ ⟨⟩
    exact ⟨.given 7, rfl⟩
  have hok : (Sample.store.create (.object Sample.numbered) none).answer = .ok ⟨1, .empty⟩ := rfl
  have hok₁ : (Sample.store.create first none).answer = .ok ⟨1, .empty⟩ := rfl
  obtain ⟨res₂, hok₂⟩ : ∃ res, ((Sample.store.create first none).store.update 1 rest none).answer = .ok res :=
    ⟨_, rfl⟩
  have hfewer : (Sample.store.create first none).store.bands.length ≠
      (Sample.store.create (.object Sample.numbered) none).store.bands.length := by decide
  have hget : Sample.numbered.get? "definitions" =
      some (.list ([(Sample.entry .absent 0 30).dump] ++ [(Sample.entry (.given 7) 30 60).dump])) := rfl
  obtain ⟨-, hstores⟩ := Arises.create_grow hs rfl hget (List.cons_ne_nil _ _)
    (List.forall_mem_singleton.2 hids)
  exact ⟨hs, rfl, hids, ⟨_, hok⟩, fun h ↦ hfewer (by rw [h]), (hstores _ _ _ hok hok₁ hok₂).2.2⟩

end Provisioning
