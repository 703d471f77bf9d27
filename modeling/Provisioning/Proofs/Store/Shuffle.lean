import Provisioning.Proofs.Store.Rewrite

namespace Provisioning

namespace Band

/-- `bs` lists the bands of `as` in some order, as far as the ids and the rows that they are written as
are concerned. -/
def Shuffles (as bs : List Band) : Prop :=
  ∃ cs, as.Perm cs ∧ List.Forall₂ (fun c b ↦ c.SameRow b ∧ c.id = b.id) cs bs

variable {as bs : List Band} {a b : Band}

theorem Shuffles.of_perm (h : as.Perm bs) : Shuffles as bs :=
  ⟨bs, h, List.forall₂_same.2 fun _ _ ↦ ⟨fun _ _ ↦ rfl, rfl⟩⟩

theorem Shuffles.exists_mem (h : Shuffles as bs) (ha : a ∈ as) :
    ∃ b ∈ bs, a.SameRow b ∧ a.id = b.id := by
  obtain ⟨cs, hperm, hcs⟩ := h
  exact exists_of_mem_right hcs.flip (hperm.mem_iff.1 ha)

theorem Shuffles.perm_map {γ : Type} {f : Band → γ} (h : Shuffles as bs)
    (hf : ∀ a b, a.SameRow b → a.id = b.id → f a = f b) : (as.map f).Perm (bs.map f) := by
  obtain ⟨cs, hperm, hcs⟩ := h
  have hsame : cs.map f = bs.map f := by
    rw [← List.forall₂_eq_eq_eq, List.forall₂_map_left_iff, List.forall₂_map_right_iff]
    exact hcs.imp fun a b hab ↦ hf a b hab.1 hab.2
  rw [← hsame]
  exact hperm.map f

theorem Shuffles.perm_bandIds (h : Shuffles as bs) : (bandIds as).Perm (bandIds bs) := by
  have hids := (h.perm_map (f := Band.id) fun _ _ _ hid ↦ hid).filterMap fun i ↦ i
  rw [List.filterMap_map, List.filterMap_map] at hids
  exact hids

theorem Shuffles.filter_isNone (h : Shuffles as bs) :
    Shuffles (as.filter fun b ↦ b.id.isNone) (bs.filter fun b ↦ b.id.isNone) := by
  obtain ⟨cs, hperm, hcs⟩ := h
  refine ⟨_, hperm.filter _, List.rel_filter (fun c b hcb ↦ ?_) hcs⟩
  dsimp only
  rw [hcb.2]

end Band

def BandRow.content (r : BandRow) : BandRow := { r with id := 0 }

section Rows

variable {id n : Int} {as bs : List Band} {r : BandRow}

theorem rewritten_of_shuffles (h : Band.Shuffles as bs) (hdistinct : (bandIds as).Nodup) :
    BandRow.rewritten id as r = BandRow.rewritten id bs r := by
  have hdistinct' := h.perm_bandIds.nodup_iff.1 hdistinct
  rw [BandRow.rewritten, BandRow.rewritten]
  refine if_congr Iff.rfl ?_ rfl
  by_cases hmem : r.id ∈ bandIds as
  · obtain ⟨a, ha, hai⟩ := mem_bandIds_iff.1 hmem
    obtain ⟨b, hb, hrow, hid⟩ := h.exists_mem ha
    rw [find?_reverse_eq_of_mem hdistinct ha hai, find?_reverse_eq_of_mem hdistinct' hb (hid.symm.trans hai),
      Option.map_some, Option.map_some, hrow]
  · have hnone {cs : List Band} (hcs : r.id ∉ bandIds cs) :
        (cs.reverse.find? fun c ↦ c.id == some r.id) = none :=
      List.find?_eq_none.2 fun c hc hid ↦
        hcs (mem_bandIds_iff.2 ⟨c, List.mem_reverse.1 hc, beq_iff_eq.1 hid⟩)
    rw [hnone hmem, hnone (mt h.perm_bandIds.mem_iff.2 hmem)]

theorem map_content_newRows (bs : List Band) :
    (newRows id n bs).map BandRow.content = bs.map fun b ↦ b.toRow 0 id := by
  induction bs generalizing n with
  | nil => rfl
  | cons b bs ih =>
    rw [newRows, List.map_cons, List.map_cons, ih]
    rfl

theorem map_id_newRows (h : as.length = bs.length) :
    (newRows id n as).map BandRow.id = (newRows id n bs).map BandRow.id := by
  induction as generalizing bs n with
  | nil => rw [List.length_eq_zero_iff.1 h.symm]
  | cons a as ih =>
    obtain ⟨b, bs, rfl⟩ := List.exists_cons_of_length_eq_add_one h.symm
    rw [newRows, newRows, List.map_cons, List.map_cons, ih (Nat.succ.inj h)]
    rfl

end Rows

namespace Store

/-- The stores hold the same, except that of the bands that were not there in `s` one may have got the
id that another one has got in the other store. -/
structure AgreesButNew (s t t' : Store) : Prop where
  agrees : t.Agrees t'
  headers : t'.headers = t.headers
  links : t'.links = t.links
  bands : ∃ old new new', t.bands = old ++ new ∧ t'.bands = old ++ new' ∧
    (∀ r ∈ old, ∃ q ∈ s.bands, q.id = r.id ∧ q.criteriaId = r.criteriaId) ∧
    (∀ r ∈ new, ∀ q ∈ s.bands, q.id < r.id) ∧ new.map BandRow.id = new'.map BandRow.id ∧
    (new.map BandRow.content).Perm (new'.map BandRow.content)

variable {s t : Store} {c c' : Snapshot} {name : String}

theorem AgreesButNew.refl (s : Store) : s.AgreesButNew s s := by
  have hself : s.bands = s.bands ++ [] := (List.append_nil _).symm
  refine ⟨.refl s, rfl, rfl, s.bands, [], [], hself, hself, ?_, ?_, rfl, .nil⟩
  · exact fun r hr ↦ ⟨r, hr, rfl, rfl⟩
  · exact fun r hr ↦ absurd hr List.not_mem_nil

theorem criteriaId_of_rewritten {id : Int} {bs : List Band} {r r' : BandRow}
    (h : BandRow.rewritten id bs r = some r') : r'.criteriaId = r.criteriaId := by
  rw [BandRow.rewritten] at h
  split at h
  · rename_i hid
    obtain ⟨b, -, rfl⟩ := Option.map_eq_some_iff.1 h
    exact hid.symm
  · rw [Option.some.inj h]

/-- Written in another order, bands leave the same rows but for the ids of new ones. -/
theorem agreesButNew_written (hid : c'.id = c.id) (hproducts : ∀ n, n ∈ c'.productIds ↔ n ∈ c.productIds)
    (hbands : Band.Shuffles c.bands c'.bands) (hdistinct : (Provisioning.bandIds c.bands).Nodup) :
    s.AgreesButNew (s.written c name) (s.written c' name) := by
  have hheader : s.headerId c' = s.headerId c := headerId_congr hid
  have hnew := hbands.filter_isNone
  have hlength : (c.bands.filter fun b ↦ b.id.isNone).length =
      (c'.bands.filter fun b ↦ b.id.isNone).length := by
    have hids := (hnew.perm_map (f := Band.id) fun _ _ _ hid ↦ hid).length_eq
    rwa [List.length_map, List.length_map] at hids
  have habove (bs : List Band) : ∀ r ∈ newRows (s.headerId c) (nextId (s.bands.map BandRow.id)) bs,
      ∀ q ∈ s.bands, q.id < r.id := by
    intro r hr q hq
    obtain ⟨b, -, k, hk, rfl⟩ := exists_toRow_of_mem_newRows hr
    exact (lt_nextId (List.mem_map_of_mem hq)).trans_le hk
  refine ⟨⟨rfl, rfl, rfl, rfl, rfl⟩, ?_, links_written_congr hid hproducts,
    s.bands.filterMap (BandRow.rewritten (s.headerId c) c.bands),
    newRows (s.headerId c) (nextId (s.bands.map BandRow.id)) (c.bands.filter fun b ↦ b.id.isNone),
    newRows (s.headerId c) (nextId (s.bands.map BandRow.id)) (c'.bands.filter fun b ↦ b.id.isNone),
    rfl, ?_, fun r hr ↦ ?_, habove _, map_id_newRows hlength, ?_⟩
  · change putRow Header.id ⟨s.headerId c', name⟩ s.headers = putRow Header.id ⟨s.headerId c, name⟩ s.headers
    rw [hheader]
  · change List.filterMap (BandRow.rewritten (s.headerId c') c'.bands) s.bands ++
      newRows (s.headerId c') _ _ = _
    rw [hheader, List.filterMap_congr fun r _ ↦ rewritten_of_shuffles hbands hdistinct]
  · obtain ⟨q, hq, hrow⟩ := List.mem_filterMap.1 hr
    exact ⟨q, hq, (id_of_rewritten hrow).symm, (criteriaId_of_rewritten hrow).symm⟩
  · rw [map_content_newRows, map_content_newRows]
    exact hnew.perm_map fun a b hrow _ ↦ hrow 0 _

end Store
end Provisioning
