import Provisioning.Proofs.Store.Consistent

namespace Provisioning

section Lists

variable {α β γ : Type} {R : α → β → Prop} {xs : List α} {ys : List β}

theorem map_find?_eq_of_forall₂ {p : α → Bool} {q : β → Bool} {f : α → γ} {g : β → γ}
    (h : List.Forall₂ R xs ys) (hpq : ∀ x y, R x y → p x = q y) (hfg : ∀ x y, R x y → f x = g y) :
    (xs.find? p).map f = (ys.find? q).map g := by
  induction h with
  | nil => rfl
  | @cons x y xs ys hxy _ ih =>
    rw [List.find?_cons, List.find?_cons, hpq x y hxy]
    cases q y with
    | false => exact ih
    | true => exact congrArg some (hfg x y hxy)

theorem filter_append_eq_right {p : α → Bool} {xs ys : List α} (hxs : ∀ x ∈ xs, p x = false)
    (hys : ∀ y ∈ ys, p y = true) : (xs ++ ys).filter p = ys := by
  rw [List.filter_append, List.filter_eq_self.2 hys, List.filter_eq_nil_iff.2, List.nil_append]
  exact fun x hx ↦ Bool.eq_false_iff.1 (hxs x hx)

theorem putRow_putRow {id : α → Int} {row row' : α} (h : id row = id row') (rows : List α) :
    putRow id row' (putRow id row rows) = putRow id row' rows := by
  induction rows with
  | nil => exact if_pos h
  | cons r rows ih =>
    rw [putRow, putRow, h]
    split
    · exact if_pos h
    · rename_i hr
      rw [putRow, if_neg hr, ih]

theorem foldr_max_concat (ids : List Int) (n : Int) :
    (ids ++ [n]).foldr max 0 = max (ids.foldr max 0) n := by
  induction ids with
  | nil => exact Int.max_comm n 0
  | cons m ids ih => rw [List.cons_append, List.foldr_cons, ih, List.foldr_cons, Int.max_assoc]

theorem foldr_max_nonneg (ids : List Int) : 0 ≤ ids.foldr max 0 := by
  induction ids with
  | nil => exact Int.le_refl 0
  | cons n ids ih => exact ih.trans (Int.le_max_right _ _)

theorem nextId_concat (ids : List Int) : nextId (ids ++ [nextId ids]) = nextId ids + 1 := by
  have hnonneg := foldr_max_nonneg ids
  rw [nextId, foldr_max_concat, nextId]
  omega

end Lists

namespace Band

/-- The bands are written as the same row. -/
def SameRow (a b : Band) : Prop := ∀ id criteriaId, a.toRow id criteriaId = b.toRow id criteriaId

/-- `b` is written as `a` is, with its id only if that is one of `own`. -/
structure Recalls (own : List Int) (a b : Band) : Prop where
  row : a.SameRow b
  id : b.id = a.id.filter own.contains

theorem Recalls.id_eq_some_iff {own : List Int} {a b : Band} (h : a.Recalls own b) {i : Int}
    (hi : i ∈ own) : a.id = some i ↔ b.id = some i := by
  rw [h.id, Option.filter_eq_some_iff]
  exact (and_iff_left (List.contains_iff_mem.2 hi)).symm

end Band

section Rows

variable {id : Int} {as bs ds : List Band} {r : BandRow} {rows : List BandRow}

theorem rewritten_congr
    (h : List.Forall₂ (fun a b ↦ a.SameRow b ∧ (a.id = some r.id ↔ b.id = some r.id)) as bs) :
    BandRow.rewritten id as r = BandRow.rewritten id bs r := by
  rw [BandRow.rewritten, BandRow.rewritten]
  refine if_congr Iff.rfl ?_ rfl
  refine map_find?_eq_of_forall₂ (List.forall₂_reverse_iff.2 h) (fun a b hab ↦ ?_) fun a b hab ↦ hab.1 _ _
  rw [Bool.eq_iff_iff, beq_iff_eq, beq_iff_eq]
  exact hab.2

/-- Each row of the criteria has a band. -/
def Covered (id : Int) (bs : List Band) (rows : List BandRow) : Prop :=
  ∀ r ∈ rows, r.criteriaId = id → r.id ∈ bandIds bs

theorem exists_rewritten_of_covered (h : Covered id bs rows) (hr : r ∈ rows) :
    ∃ r', BandRow.rewritten id bs r = some r' ∧ r'.id = r.id ∧ r'.criteriaId = r.criteriaId := by
  rw [BandRow.rewritten]
  split
  · rename_i hid
    obtain ⟨b, hb, hbi⟩ := mem_bandIds_iff.1 (h r hr hid)
    have hfound : (bs.reverse.find? fun b ↦ b.id == some r.id).isSome = true :=
      List.find?_isSome.2 ⟨b, List.mem_reverse.2 hb, beq_iff_eq.2 hbi⟩
    obtain ⟨a, ha⟩ := Option.isSome_iff_exists.1 hfound
    exact ⟨a.toRow r.id id, by rw [ha, Option.map_some], rfl, hid.symm⟩
  · exact ⟨r, rfl, rfl, rfl⟩

theorem map_filterMap_rewritten {β : Type} {f : BandRow → β}
    (hf : ∀ r r' : BandRow, r'.id = r.id → r'.criteriaId = r.criteriaId → f r' = f r)
    (h : Covered id bs rows) : (rows.filterMap (BandRow.rewritten id bs)).map f = rows.map f := by
  induction rows with
  | nil => rfl
  | cons r rows ih =>
    obtain ⟨r', hr', hid, hcriteria⟩ := exists_rewritten_of_covered h List.mem_cons_self
    rw [List.filterMap_cons_some hr', List.map_cons, List.map_cons, hf r r' hid hcriteria,
      ih fun q hq ↦ h q (List.mem_cons_of_mem r hq)]

/-- A row that was rewritten is rewritten as it would have been before. -/
theorem filterMap_rewritten_rewritten (h : Covered id bs rows) :
    (rows.filterMap (BandRow.rewritten id bs)).filterMap (BandRow.rewritten id ds) =
      rows.filterMap (BandRow.rewritten id ds) := by
  rw [List.filterMap_filterMap]
  refine List.filterMap_congr fun r hr ↦ ?_
  obtain ⟨r', hr', hid, hcriteria⟩ := exists_rewritten_of_covered h hr
  rw [hr', Option.bind_some]
  by_cases howned : r.criteriaId = id
  · rw [BandRow.rewritten, BandRow.rewritten, if_pos (hcriteria.trans howned), if_pos howned, hid]
  · have hself : r' = r := Option.some.inj (hr'.symm.trans (if_neg howned))
    rw [hself]

end Rows

section Ids

variable {bs : List Band} {b : Band}

theorem exists_id_of_map_id {ids : List Int} (h : bs.map Band.id = ids.map some) (hb : b ∈ bs) :
    ∃ i ∈ ids, b.id = some i := by
  have hmem : b.id ∈ ids.map some := h ▸ List.mem_map_of_mem hb
  obtain ⟨i, hi, hbi⟩ := List.mem_map.1 hmem
  exact ⟨i, hi, hbi.symm⟩

theorem id_eq_none_of_map_id {n : ℕ} (h : bs.map Band.id = List.replicate n none) (hb : b ∈ bs) :
    b.id = none := (List.mem_replicate.1 (h ▸ List.mem_map_of_mem hb)).2

theorem filter_isNone_eq {old : List Band} {ids : List Int} {n : ℕ} (hold : old.map Band.id = ids.map some)
    (hnew : bs.map Band.id = List.replicate n none) :
    (old ++ bs).filter (fun b ↦ b.id.isNone) = bs := by
  refine filter_append_eq_right (fun b hb ↦ ?_) fun b hb ↦ ?_
  · obtain ⟨i, -, hi⟩ := exists_id_of_map_id hold hb
    rw [hi]
    rfl
  · rw [id_eq_none_of_map_id hnew hb]
    rfl

theorem filter_isNone_filter_eq {own : List Int} {old : List Band} (hold : old.map Band.id = own.map some)
    (hother : ∀ b ∈ bs, ∀ i ∈ own, b.id ≠ some i) :
    (old ++ bs).filter (fun b ↦ (b.id.filter own.contains).isNone) = bs := by
  refine filter_append_eq_right (fun b hb ↦ ?_) fun b hb ↦ ?_
  · obtain ⟨i, hi, hbi⟩ := exists_id_of_map_id hold hb
    rw [hbi, Option.filter_some, if_pos (List.contains_iff_mem.2 hi)]
    rfl
  · rw [Option.isNone_iff_eq_none, Option.filter_eq_none_iff]
    intro i hi hmem
    exact hother b hb i (List.contains_iff_mem.1 hmem) hi

theorem forall₂_recalls_filter {own : List Int} {as : List Band}
    (h : List.Forall₂ (Band.Recalls own) as bs) :
    List.Forall₂ (Band.Recalls own) (as.filter fun a ↦ (a.id.filter own.contains).isNone)
      (bs.filter fun b ↦ b.id.isNone) := by
  refine List.rel_filter (fun a b hab ↦ ?_) h
  dsimp only
  rw [hab.id]

end Ids

section NewRows

variable {criteriaId n : Int} {as bs ds : List Band}

theorem length_newRows (criteriaId n : Int) (bs : List Band) :
    (newRows criteriaId n bs).length = bs.length := by
  induction bs generalizing n with
  | nil => rfl
  | cons b bs ih => rw [newRows, List.length_cons, List.length_cons, ih]

theorem newRows_append (as bs : List Band) :
    newRows criteriaId n (as ++ bs) = newRows criteriaId n as ++ newRows criteriaId (n + as.length) bs := by
  induction as generalizing n with
  | nil => rw [List.nil_append, List.length_nil, Nat.cast_zero, Int.add_zero]; rfl
  | cons a as ih =>
    rw [List.cons_append, newRows, newRows, ih, List.cons_append, List.length_cons, Nat.cast_add_one,
      add_assoc, add_comm (1 : Int)]

theorem newRows_congr (h : List.Forall₂ Band.SameRow as bs) :
    newRows criteriaId n as = newRows criteriaId n bs := by
  induction h generalizing n with
  | nil => rfl
  | cons hab _ ih => rw [newRows, newRows, hab, ih]

theorem nextId_append_newRows (ids : List Int) (criteriaId : Int) (bs : List Band) :
    nextId (ids ++ (newRows criteriaId (nextId ids) bs).map BandRow.id) = nextId ids + bs.length := by
  induction bs generalizing ids with
  | nil => simp [newRows]
  | cons b bs ih =>
    have hrest := ih (ids ++ [nextId ids])
    rw [nextId_concat, List.append_assoc] at hrest
    rw [newRows, List.map_cons, List.length_cons]
    refine hrest.trans ?_
    push_cast
    ring

theorem filterMap_rewritten_newRows (hdistinct : (bandIds ds).Nodup) (hmem : ∀ a ∈ as, a ∈ ds)
    (hids : as.map Band.id = ((newRows criteriaId n bs).map BandRow.id).map some) :
    (newRows criteriaId n bs).filterMap (BandRow.rewritten criteriaId ds) = newRows criteriaId n as := by
  induction bs generalizing n as with
  | nil => rw [List.map_eq_nil_iff.1 hids]; rfl
  | cons b bs ih =>
    obtain ⟨a, as, rfl, ha, hids⟩ := List.map_eq_cons_iff.1 hids
    rw [List.forall_mem_cons] at hmem
    have hrow : BandRow.rewritten criteriaId ds (b.toRow n criteriaId) = some (a.toRow n criteriaId) := by
      have hfind : (ds.reverse.find? fun b ↦ b.id == some n) = some a :=
        find?_reverse_eq_of_mem hdistinct hmem.1 ha
      exact (if_pos rfl).trans (congrArg (Option.map _) hfind)
    rw [newRows, newRows, List.filterMap_cons_some hrow, ih hmem.2 hids]

end NewRows

namespace Store

variable {s t : Store} {c d c' : Snapshot} {name name' : String}

theorem Agrees.eq (h : s.Agrees t) (hheaders : t.headers = s.headers) (hbands : t.bands = s.bands)
    (hlinks : t.links = s.links) : t = s := by
  obtain ⟨hkeys, hcategories, haccounts, hproducts, hentries⟩ := h
  cases s
  cases t
  simp_all

section Congr

theorem headerId_congr (hid : c'.id = c.id) : s.headerId c' = s.headerId c := by
  rw [headerId, headerId, hid]

variable (hid : c'.id = c.id) (hproducts : ∀ n, n ∈ c'.productIds ↔ n ∈ c.productIds)

include hid hproducts

theorem addedIds_congr : s.addedIds c' = s.addedIds c := by
  rw [addedIds, addedIds, hid]
  refine ascending_congr fun n ↦ ?_
  rw [List.mem_filter, List.mem_filter, hproducts]

theorem keptLinks_congr : s.keptLinks c' = s.keptLinks c := by
  refine List.filter_congr fun l _ ↦ ?_
  have hwanted : c'.productIds.contains l.productId = c.productIds.contains l.productId := by
    rw [Bool.eq_iff_iff, List.contains_iff_mem, List.contains_iff_mem, hproducts]
  rw [headerId_congr hid, hid, hwanted]

theorem productTaken_congr : s.ProductTaken c' ↔ s.ProductTaken c := by
  rw [ProductTaken, ProductTaken, addedIds_congr hid hproducts, keptLinks_congr hid hproducts]

theorem links_written_congr : (s.written c' name').links = (s.written c name).links := by
  change s.keptLinks c' ++ _ = s.keptLinks c ++ _
  rw [keptLinks_congr hid hproducts, addedIds_congr hid hproducts, headerId_congr hid]

end Congr

section Twice

variable (hr : s.Reserves c) (hc : s.Supports c) (hid : d.id = some (s.headerId c))

include hr hc hid

theorem Reserves.links_written_written (hproducts : ∀ n, n ∈ d.productIds ↔ n ∈ c.productIds) :
    ((s.written c name).written d name').links = (s.written c name).links := by
  have hlinked : ∀ n, n ∈ (s.written c name).linkedIds d.id ↔ n ∈ c.productIds := by
    intro n
    rw [hid, linkedIds, hr.map_id_productsOf_written hc, mem_ascending]
  have hadded : (s.written c name).addedIds d = [] := by
    refine List.eq_nil_iff_forall_not_mem.2 fun n hn ↦ ?_
    rw [mem_addedIds_iff, hlinked, hproducts] at hn
    exact hn.2 hn.1
  have hkept : (s.written c name).keptLinks d = (s.written c name).links := by
    refine List.filter_eq_self.2 fun l hl ↦ (List.mem_filter.1 (mem_keptLinks_iff.2 ⟨hl, ?_⟩)).2
    intro _ hn
    exact (hproducts _).2 ((hlinked _).1 hn)
  change (s.written c name).keptLinks d ++ ((s.written c name).addedIds d).map _ = _
  rw [hkept, hadded, List.map_nil, List.append_nil]

omit hc hid in
theorem Reserves.covered
    (hids : ∃ n, c.bands.map Band.id = (s.ownBandIds c.id).map some ++ List.replicate n none) :
    Covered (s.headerId c) c.bands s.bands := by
  intro r hmem howned
  rw [bandIds_of_map_id hids, ← hr.bands]
  exact List.mem_map_of_mem (List.mem_filter.2 ⟨hmem, beq_iff_eq.2 howned⟩)

omit hc in
theorem Reserves.ownBandIds_written
    (hids : ∃ n, c.bands.map Band.id = (s.ownBandIds c.id).map some ++ List.replicate n none) :
    (s.written c name).ownBandIds d.id = s.ownBandIds c.id ++
      (newRows (s.headerId c) (nextId (s.bands.map BandRow.id))
        (c.bands.filter fun b ↦ b.id.isNone)).map BandRow.id := by
  have hnew : (newRows (s.headerId c) (nextId (s.bands.map BandRow.id))
      (c.bands.filter fun b ↦ b.id.isNone)).filter (fun r ↦ r.criteriaId == s.headerId c) =
        newRows (s.headerId c) (nextId (s.bands.map BandRow.id)) (c.bands.filter fun b ↦ b.id.isNone) :=
    List.filter_eq_self.2 fun r hr ↦ beq_iff_eq.2 (criteriaId_of_mem_newRows hr)
  have hkept := map_filterMap_rewritten (f := fun r ↦ (r.id, r.criteriaId))
    (fun r r' hid hcriteria ↦ by rw [hid, hcriteria]) (hr.covered hids)
  have hfilter (rows : List BandRow) : (rows.filter fun r ↦ r.criteriaId == s.headerId c).map BandRow.id =
      ((rows.map fun r ↦ (r.id, r.criteriaId)).filter fun x ↦ x.2 == s.headerId c).map Prod.fst := by
    rw [List.filter_map, List.map_map]
    rfl
  rw [hid, ← hr.bands]
  change (List.filter _ (_ ++ _)).map BandRow.id = _
  rw [List.filter_append, hnew, List.map_append, hfilter, hkept, ← hfilter]
  rfl

omit hc hid in
theorem Reserves.lt_of_mem_ownBandIds {i : Int} (hi : i ∈ s.ownBandIds c.id) :
    i < nextId (s.bands.map BandRow.id) := by
  rw [← hr.bands] at hi
  exact lt_nextId ((List.filter_sublist.map _).subset hi)

omit hc in
theorem Reserves.bands_written_written
    (hids : ∃ n, c.bands.map Band.id = (s.ownBandIds c.id).map some ++ List.replicate n none)
    (hids' : ∃ n, d.bands.map Band.id =
      ((s.written c name).ownBandIds d.id).map some ++ List.replicate n none)
    (hdistinct : (Provisioning.bandIds d.bands).Nodup) (hsame : c'.id = c.id)
    (hbands : List.Forall₂ (Band.Recalls (s.ownBandIds c.id)) d.bands c'.bands) :
    ((s.written c name).written d name').bands = (s.written c' name').bands := by
  have hheader : (s.written c name).headerId d = s.headerId c := headerId_eq hid
  have hheader' : s.headerId c' = s.headerId c := headerId_congr hsame
  -- the bands of `d` are those that were there first, those that `c` added, and new ones
  obtain ⟨n, hids'⟩ := hids'
  rw [hr.ownBandIds_written hid hids, List.map_append, List.append_assoc] at hids'
  obtain ⟨old, rest, hd, hold, hrest⟩ := List.map_eq_append_iff.1 hids'
  obtain ⟨added, new, rfl, hadded, hnew⟩ := List.map_eq_append_iff.1 hrest
  have hkept : (s.bands.filterMap (BandRow.rewritten (s.headerId c) c.bands)).filterMap
      (BandRow.rewritten (s.headerId c) d.bands) =
        s.bands.filterMap (BandRow.rewritten (s.headerId c) c'.bands) := by
    rw [filterMap_rewritten_rewritten (hr.covered hids)]
    refine List.filterMap_congr fun r hmem ↦ ?_
    by_cases howned : r.criteriaId = s.headerId c
    · have hown : r.id ∈ s.ownBandIds c.id := by
        rw [← hr.bands]
        exact List.mem_map_of_mem (List.mem_filter.2 ⟨hmem, beq_iff_eq.2 howned⟩)
      exact rewritten_congr (hbands.imp fun a b hab ↦ ⟨hab.row, hab.id_eq_some_iff hown⟩)
    · rw [BandRow.rewritten, BandRow.rewritten, if_neg howned, if_neg howned]
  have hrows := filterMap_rewritten_newRows hdistinct
    (fun b hb ↦ hd ▸ List.mem_append_right old (List.mem_append_left new hb)) hadded
  have hnext : nextId ((s.written c name).bands.map BandRow.id) =
      nextId (s.bands.map BandRow.id) + added.length := by
    have hlength : added.length = (c.bands.filter fun b ↦ b.id.isNone).length := by
      have hlength := congrArg List.length hadded
      rwa [List.length_map, List.length_map, List.length_map, length_newRows] at hlength
    have hkeptIds := map_filterMap_rewritten (f := BandRow.id) (fun _ _ hid _ ↦ hid) (hr.covered hids)
    change nextId (List.map BandRow.id (_ ++ _)) = _
    rw [List.map_append, hkeptIds, nextId_append_newRows, hlength]
  have hnew' : d.bands.filter (fun b ↦ b.id.isNone) = new := by
    have hknown := List.map_append.trans (congrArg₂ (· ++ ·) hold hadded)
    rw [← List.map_append] at hknown
    rw [hd, ← List.append_assoc, filter_isNone_eq hknown hnew]
  have hafter : List.Forall₂ Band.SameRow (added ++ new) (c'.bands.filter fun b ↦ b.id.isNone) := by
    have hother : ∀ b ∈ added ++ new, ∀ i ∈ s.ownBandIds c.id, b.id ≠ some i := by
      intro b hb i hi hbi
      rcases List.mem_append.1 hb with hb | hb
      · obtain ⟨j, hj, hbj⟩ := exists_id_of_map_id hadded hb
        obtain ⟨r, hmem, rfl⟩ := List.mem_map.1 hj
        obtain ⟨_, -, k, hk, rfl⟩ := exists_toRow_of_mem_newRows hmem
        obtain rfl : k = i := Option.some.inj (hbj.symm.trans hbi)
        exact absurd (hr.lt_of_mem_ownBandIds hi) (not_lt.2 hk)
      · cases (id_eq_none_of_map_id hnew hb).symm.trans hbi
    have hfilter := forall₂_recalls_filter hbands
    rw [hd, filter_isNone_filter_eq hold hother] at hfilter
    exact hfilter.imp fun _ _ hab ↦ hab.row
  calc
    ((s.written c name).written d name').bands =
        (s.written c name).bands.filterMap (BandRow.rewritten (s.headerId c) d.bands) ++
          newRows (s.headerId c) (nextId ((s.written c name).bands.map BandRow.id))
            (d.bands.filter fun b ↦ b.id.isNone) := by rw [← hheader]; rfl
    _ = s.bands.filterMap (BandRow.rewritten (s.headerId c) c'.bands) ++
          newRows (s.headerId c) (nextId (s.bands.map BandRow.id)) (added ++ new) := by
      rw [hnext, hnew', newRows_append, ← List.append_assoc, ← hrows, ← hkept, ← List.filterMap_append]
      rfl
    _ = (s.written c' name').bands := by
      rw [newRows_congr hafter, ← hheader']
      rfl

/-- Two writes of a criteria with the same products are one write of the bands that the second one
writes. -/
theorem Reserves.written_written
    (hids : ∃ n, c.bands.map Band.id = (s.ownBandIds c.id).map some ++ List.replicate n none)
    (hids' : ∃ n, d.bands.map Band.id =
      ((s.written c name).ownBandIds d.id).map some ++ List.replicate n none)
    (hdistinct : (Provisioning.bandIds d.bands).Nodup) (hsame : c'.id = c.id)
    (hbands : List.Forall₂ (Band.Recalls (s.ownBandIds c.id)) d.bands c'.bands)
    (hproducts : ∀ n, n ∈ d.productIds ↔ n ∈ c.productIds)
    (hproducts' : ∀ n, n ∈ c'.productIds ↔ n ∈ c.productIds) :
    (s.written c name).written d name' = s.written c' name' := by
  have hheader : (s.written c name).headerId d = s.headerId c := headerId_eq hid
  have hheader' : s.headerId c' = s.headerId c := headerId_congr hsame
  have hagrees : (s.written c' name').Agrees ((s.written c name).written d name') :=
    ⟨rfl, rfl, rfl, rfl, rfl⟩
  refine hagrees.eq ?_ (hr.bands_written_written hid hids hids' hdistinct hsame hbands) ?_
  · change putRow Header.id _ (putRow Header.id _ s.headers) = putRow Header.id _ s.headers
    have hsame : Header.id ⟨s.headerId c, name⟩ = Header.id ⟨s.headerId c, name'⟩ := rfl
    rw [hheader, hheader', putRow_putRow hsame]
  · exact (hr.links_written_written hc hid hproducts).trans (links_written_congr hsame hproducts').symm

end Twice
end Store
end Provisioning
