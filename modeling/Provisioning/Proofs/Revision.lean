import Provisioning.Proofs.Band.Revised
import Provisioning.Proofs.ChangeSet
import Provisioning.Proofs.Store.Consistent

namespace Provisioning

section Products

variable {c c' : Criteria} {ch : ChangeSet} {ps : List Product}

theorem insert_eq_append {p : Product} (h : p.id ∉ ps.map Product.id) : p.insert ps = ps ++ [p] := by
  induction ps with
  | nil => rfl
  | cons q ps ih =>
    rw [List.map_cons, List.mem_cons, not_or] at h
    rw [Product.insert, if_neg (Ne.symm h.1), ih h.2, List.cons_append]

theorem foldl_insert_eq {qs : List Product} (h : ((qs ++ ps).map Product.id).Nodup) :
    ps.foldl (fun qs p ↦ p.insert qs) qs = qs ++ ps := by
  induction ps generalizing qs with
  | nil => rw [List.foldl_nil, List.append_nil]
  | cons p ps ih =>
    have hp : p.id ∉ qs.map Product.id := by
      rw [List.map_append, List.nodup_append] at h
      exact fun hmem ↦ h.2.2 _ hmem _ List.mem_cons_self rfl
    rw [List.append_cons] at h
    rw [List.foldl_cons, insert_eq_append hp, ih h, ← List.append_cons]

theorem mem_productIds_iff {n : Int} : n ∈ c.productIds ↔ n ∈ c.products.map Product.id :=
  mem_ascending

theorem lacking_congr {ns ms ns' ms' : List Int} (hns : ∀ n, n ∈ ns ↔ n ∈ ns') (hms : ∀ n, n ∈ ms ↔ n ∈ ms') :
    lacking ns ms = lacking ns' ms' := by
  refine ascending_congr fun n ↦ ?_
  simp only [List.mem_filter, hms, Bool.not_eq_true', List.contains_eq_mem, decide_eq_false_iff_not, hns]

theorem added_eq_lacking {ids ids' : List Int} (h : ∀ n, n ∈ ids' ↔ n ∈ ids) :
    ascending (ids.filter fun n ↦ !c.productIds.contains n) = lacking (c.products.map Product.id) ids' :=
  lacking_congr (fun _ ↦ mem_productIds_iff) fun n ↦ (h n).symm

theorem removed_eq_lacking {ids ids' : List Int} (h : ∀ n, n ∈ ids' ↔ n ∈ ids) :
    c.productIds.filter (fun n ↦ !ids.contains n) = lacking ids' (c.products.map Product.id) := by
  refine eq_ascending_of_mem_iff ((pairwise_ascending _).sublist List.filter_sublist) fun n ↦ ?_
  have hcurrent : n ∈ c.productIds ↔ n ∈ c.products.map Product.id := mem_productIds_iff
  simp only [List.mem_filter, h, Bool.not_eq_true', List.contains_eq_mem, decide_eq_false_iff_not, hcurrent]

theorem mem_kept_append_added_iff (hps : (ps.map Product.id).Nodup) (n : Int) :
    n ∈ (c.products.filter (fun p ↦ (ps.map Product.id).contains p.id) ++
        (ascending ((ps.map Product.id).filter fun id ↦ !c.productIds.contains id)).filterMap
          fun id ↦ ps.find? fun p ↦ p.id == id).map Product.id ↔ n ∈ ps.map Product.id := by
  rw [List.map_append, List.mem_append, List.mem_map, List.mem_map]
  constructor
  · intro h
    rcases h with ⟨p, hp, rfl⟩ | ⟨p, hp, rfl⟩
    · exact List.contains_iff_mem.1 (List.mem_filter.1 hp).2
    · obtain ⟨n, -, hfind⟩ := List.mem_filterMap.1 hp
      exact List.mem_map_of_mem (List.mem_of_find?_eq_some hfind)
  · intro hn
    by_cases hcurrent : n ∈ c.productIds
    · obtain ⟨p, hp, rfl⟩ := List.mem_map.1 (mem_productIds_iff.1 hcurrent)
      exact .inl ⟨p, List.mem_filter.2 ⟨hp, List.contains_iff_mem.2 hn⟩, rfl⟩
    · obtain ⟨q, hq, rfl⟩ := List.mem_map.1 hn
      have hfind := find?_eq_some_of_nodup hps hq
      refine .inr ⟨q, List.mem_filterMap.2 ⟨q.id, ?_, hfind⟩, rfl⟩
      exact mem_ascending.2 (List.mem_filter.2 ⟨hn, by simpa using hcurrent⟩)

theorem withProducts_eq (hps : (ps.map Product.id).Nodup) (h : c.withProducts ps = (c', ch)) :
    c' = { c with products := c'.products } ∧
      (∀ n, n ∈ c'.products.map Product.id ↔ n ∈ ps.map Product.id) ∧
      (∀ p ∈ c'.products, p ∈ c.products ∨ p ∈ ps) ∧
      ch = .single "loan_products"
        (productChange (c.products.map Product.id) (c'.products.map Product.id)) ∧
      (ch.isEmpty = true → c' = c) := by
  have hfold : ps.foldl (fun qs p ↦ p.insert qs) [] = ps := foldl_insert_eq hps
  simp only [Criteria.withProducts, hfold] at h
  split at h
  · rename_i hnone
    obtain ⟨rfl, rfl⟩ := Prod.mk.inj h
    rw [Bool.and_eq_true, List.isEmpty_iff, List.isEmpty_iff, added_eq_lacking fun _ ↦ Iff.rfl,
      removed_eq_lacking fun _ ↦ Iff.rfl] at hnone
    have hsame := productChange_eq_none_iff.1 (if_pos hnone)
    refine ⟨rfl, fun n ↦ (hsame n).symm, fun p hp ↦ .inl hp, ?_, fun _ ↦ rfl⟩
    rw [productChange_eq_none_iff.2 fun n ↦ Iff.rfl]
    rfl
  · rename_i hsome
    obtain ⟨rfl, rfl⟩ := Prod.mk.inj h
    have hset := mem_kept_append_added_iff (c := c) hps
    refine ⟨rfl, hset, fun p hp ↦ ?_, ?_, fun hempty ↦ by cases hempty⟩
    · rcases List.mem_append.1 hp with hp | hp
      · exact .inl (List.mem_filter.1 hp).1
      · obtain ⟨n, -, hfind⟩ := List.mem_filterMap.1 hp
        exact .inr (List.mem_of_find?_eq_some hfind)
    · rw [Bool.and_eq_true, List.isEmpty_iff, List.isEmpty_iff, added_eq_lacking hset,
        removed_eq_lacking hset] at hsome
      rw [productChange, if_neg hsome, ← added_eq_lacking hset, ← removed_eq_lacking hset]
      rfl

end Products

section Head

variable {s : Store} {c c' : Criteria} {ch : ChangeSet} {name : Option String}

theorem rename_eq_ok (h : c.rename (Value.optional .str name) = .ok (c', ch)) :
    (∀ n, name = some n → n = c.name ∨ ProperName n) ∧ c' = { c with name := name.getD c.name } ∧
      ch = .single "criteria_name" (nameChange c.name c'.name) ∧ (ch.isEmpty = true → c' = c) := by
  have hself : nameChange c.name c.name = none := nameChange_eq_none_iff.2 rfl
  cases name with
  | none =>
    obtain ⟨rfl, rfl⟩ := Prod.mk.inj (Except.ok.inj h)
    rw [hself]
    exact ⟨nofun, rfl, rfl, fun _ ↦ rfl⟩
  | some n =>
    simp only [Value.optional, Criteria.rename] at h
    split at h
    · rename_i hn
      obtain ⟨rfl, rfl⟩ := Prod.mk.inj (Except.ok.inj h)
      rw [Option.getD_some, hn, hself]
      exact ⟨fun m hm ↦ .inl (Option.some.inj hm ▸ rfl), rfl, rfl, fun _ ↦ rfl⟩
    · rename_i hn
      obtain ⟨m, hm, heq⟩ := map_eq_ok_iff.1 h
      obtain ⟨hproper, rfl⟩ := checkName_eq_ok_iff.1 hm
      obtain ⟨rfl, rfl⟩ := Prod.mk.inj heq
      refine ⟨fun k hk ↦ .inr (Option.some.inj hk ▸ hproper), rfl, ?_, nofun⟩
      rw [nameChange, if_neg hn]
      rfl

theorem exists_rename_eq_ok (h : ∀ n, name = some n → n = c.name ∨ ProperName n) :
    ∃ c' ch, c.rename (Value.optional .str name) = .ok (c', ch) := by
  cases name with
  | none => exact ⟨c, .empty, rfl⟩
  | some n =>
    simp only [Value.optional, Criteria.rename]
    split
    · exact ⟨_, _, rfl⟩
    · rw [checkName_eq_ok_iff.2 ⟨(h n rfl).resolve_left ‹_›, rfl⟩]
      exact ⟨_, _, rfl⟩

theorem assembleProducts_eq_ok_iff {r : Request.Changes} {ps : Option (List Product)} :
    (s.directory.assembleProducts r).answer = .ok ps ↔
      (r.products.value? = none ∧ ps = none) ∨
        ∃ ids qs, r.products.value? = some ids ∧ ps = some qs ∧
          qs.map Product.id = ids.eraseDups ∧ ∀ p ∈ qs, s.product p.id = .ok p := by
  rw [Directory.assembleProducts]
  cases hids : r.products.value? with
  | none =>
    simp only [Traced.answer_pure, Except.ok.injEq, true_and, reduceCtorEq, false_and,
      exists_false, or_false]
    exact eq_comm
  | some ids =>
    simp only [Directory.distinctProducts, Traced.answer_bind, bind_eq_ok_iff,
      Store.findProducts_eq_ok_iff, Traced.answer_pure, Except.ok.injEq, reduceCtorEq, false_and, false_or,
      Option.some.injEq]
    constructor
    · intro h
      obtain ⟨qs, hqs, rfl⟩ := h
      exact ⟨ids, qs, rfl, rfl, hqs⟩
    · intro h
      obtain ⟨_, qs, rfl, rfl, hqs⟩ := h
      exact ⟨qs, hqs, rfl⟩

theorem nodup_of_assembleProducts {r : Request.Changes} {ps : Option (List Product)}
    (h : (s.directory.assembleProducts r).answer = .ok ps) :
    ∀ qs, ps = some qs → (qs.map Product.id).Nodup := by
  rintro qs rfl
  obtain ⟨-, hnone⟩ | ⟨ids, qs', -, heq, hids, -⟩ := assembleProducts_eq_ok_iff.1 h
  · cases hnone
  · rw [Option.some.inj heq, hids]
    exact nodup_eraseDups ids

theorem update_eq_ok {ps : Option (List Product)}
    (hps : ∀ qs, ps = some qs → (qs.map Product.id).Nodup)
    (h : c.update (Value.optional .str name) ps = .ok (c', ch)) :
    (∀ n, name = some n → n = c.name ∨ ProperName n) ∧
      c' = { c with name := name.getD c.name, products := c'.products } ∧
      (∀ n, n ∈ c'.products.map Product.id ↔
        n ∈ (ps.map (List.map Product.id)).getD (c.products.map Product.id)) ∧
      (∀ p ∈ c'.products, p ∈ c.products ∨ p ∈ ps.getD []) ∧
      ch = (ChangeSet.single "criteria_name" (nameChange c.name c'.name)).merge
        (.single "loan_products"
          (productChange (c.products.map Product.id) (c'.products.map Product.id))) ∧
      (ch.isEmpty = true → c' = c) := by
  obtain ⟨⟨c₁, head⟩, hrename, h⟩ := bind_eq_ok_iff.1 h
  obtain ⟨hname, rfl, rfl, hhead⟩ := rename_eq_ok hrename
  cases ps with
  | none =>
    obtain ⟨rfl, rfl⟩ := Prod.mk.inj (Except.ok.inj h)
    have hself : productChange (c.products.map Product.id) (c.products.map Product.id) = none :=
      productChange_eq_none_iff.2 fun n ↦ Iff.rfl
    refine ⟨hname, rfl, fun n ↦ Iff.rfl, fun p hp ↦ .inl hp, ?_, hhead⟩
    rw [hself, ChangeSet.merge_single_none]
  | some qs =>
    obtain ⟨rfl, rfl⟩ := Prod.mk.inj (Except.ok.inj h)
    obtain ⟨hframe, hset, hmem, hmoved, hsame⟩ := withProducts_eq (hps qs rfl) rfl
    refine ⟨hname, hframe, hset, hmem, ?_, fun hempty ↦ ?_⟩
    · rw [hmoved, hframe]
    · rw [ChangeSet.isEmpty_merge_iff] at hempty
      exact (hsame hempty.2).trans (hhead hempty.1)

theorem exists_update_eq_ok (ps : Option (List Product))
    (h : ∀ n, name = some n → n = c.name ∨ ProperName n) :
    ∃ c' ch, c.update (Value.optional .str name) ps = .ok (c', ch) := by
  obtain ⟨c₁, head, hrename⟩ := exists_rename_eq_ok h
  cases ps with
  | none => exact ⟨c₁, head, bind_eq_ok_iff.2 ⟨_, hrename, rfl⟩⟩
  | some qs => exact ⟨_, _, bind_eq_ok_iff.2 ⟨_, hrename, rfl⟩⟩

end Head

section Bands

variable {s : Store} {c c' : Criteria} {ch : ChangeSet} {es : List Request.BandEntry}

theorem Band.Sound.alike {a b : Band} (ha : a.Sound s) (h : a.Alike b) : b.Sound s := by
  have hsame := h.rest
  refine ⟨?_, ?_, ?_, ?_, ?_⟩
  · rw [← hsame]
    exact ha.ages
  · obtain ⟨k, hk, hv⟩ := ha.percentage
    exact ⟨k, hk, h.value.symm.trans hv⟩
  · rw [← hsame]
    exact ha.category
  · rw [← hsame]
    exact ha.liability
  · rw [← hsame]
    exact ha.expense

theorem mem_revisedBands {bs : List Band} {b : Band} (hb : b ∈ revisedBands s es bs) :
    b ∈ bs ∨ ∃ e ∈ es, b = e.band s := by
  rcases List.mem_append.1 hb with hb | hb
  · obtain ⟨a, ha, rfl⟩ := List.mem_map.1 hb
    rw [Band.revised]
    cases a.id with
    | none => exact .inl ha
    | some i =>
      dsimp only
      cases hfind : es.reverse.find? fun e ↦ e.id.value? == some i with
      | none => exact .inl ha
      | some e => exact .inr ⟨e, List.mem_reverse.1 (List.mem_of_find?_eq_some hfind), rfl⟩
  · obtain ⟨e, he, rfl⟩ := List.mem_map.1 hb
    exact .inr ⟨e, (List.mem_filter.1 he).1, rfl⟩

theorem sound_of_mem_revisedBands {bs : List Band} (hes : ∀ e ∈ es, e.Acceptable s)
    (hbs : ∀ b ∈ bs, b.Sound s) {b : Band} (hb : b ∈ revisedBands s es bs) : b.Sound s := by
  rcases mem_revisedBands hb with hb | ⟨e, he, rfl⟩
  · exact hbs b hb
  · exact (hes e he).sound e.id.value?

theorem pairwise_disjoint_of_alike {as bs : List Band} (h : List.Forall₂ Band.Alike as bs)
    (has : as.Pairwise Band.Disjoint) : bs.Pairwise Band.Disjoint :=
  pairwise_of_forall₂ (fun _ _ _ _ ha hb hab ↦ ha.disjoint hb hab) h has

theorem pairwise_disjoint_iff_of_alike {as bs : List Band} (h : List.Forall₂ Band.Alike as bs) :
    as.Pairwise Band.Disjoint ↔ bs.Pairwise Band.Disjoint :=
  ⟨pairwise_disjoint_of_alike h, pairwise_disjoint_of_alike (forall₂_alike_symm h)⟩

theorem sound_of_alike {own : List Int} {bs bs' : List Band} (hes : ∀ e ∈ es, e.Applicable s own)
    (hbs : ∀ b ∈ bs, b.Sound s) (h : List.Forall₂ Band.Alike (revisedBands s es bs) bs') {b : Band}
    (hb : b ∈ bs') : b.Sound s := by
  obtain ⟨a, ha, hab⟩ := exists_of_mem_right h hb
  exact (sound_of_mem_revisedBands (fun e he ↦ (hes e he).1) hbs ha).alike hab

theorem map_id_of_alike {as bs : List Band} (h : List.Forall₂ Band.Alike as bs) :
    bs.map Band.id = as.map Band.id := by
  induction h with
  | nil => rfl
  | cons hab _ ih => rw [List.map_cons, List.map_cons, hab.id_eq, ih]

theorem bandIds_of_alike {bs bs' : List Band}
    (h : List.Forall₂ Band.Alike (revisedBands s es bs) bs') : bandIds bs' = bandIds bs := by
  obtain ⟨n, hn⟩ := map_id_revisedBands s es bs
  exact bandIds_eq_of_map_id ((map_id_of_alike h).trans hn)

theorem ne_nil_of_alike {bs bs' : List Band}
    (h : List.Forall₂ Band.Alike (revisedBands s es bs) bs') (hbs : bs ≠ []) : bs' ≠ [] := by
  intro h
  subst h
  have hnil := List.forall₂_nil_right_iff.1 h
  exact hbs (List.map_eq_nil_iff.1 (List.append_eq_nil_iff.1 hnil).1)

theorem exists_map_id_of_alike {own : List Int} {bs bs' : List Band}
    (h : List.Forall₂ Band.Alike (revisedBands s es bs) bs')
    (hbs : ∃ n, bs.map Band.id = own.map some ++ List.replicate n none) :
    ∃ n, bs'.map Band.id = own.map some ++ List.replicate n none := by
  obtain ⟨n, hn⟩ := hbs
  obtain ⟨m, hm⟩ := map_id_revisedBands s es bs
  refine ⟨n + m, ?_⟩
  rw [map_id_of_alike h, hm, hn, List.append_assoc, List.replicate_append_replicate]

/-- The bands are checked together if one of them differs. -/
theorem withBands_eq_ok_iff {d : Directory} {rs : List BandRequest} :
    c.withBands d rs = .ok (c', ch) ↔
      ∃ written, c.applyAll d rs = .ok (c', written) ∧ ch = .single "definitions" (bandChange written) ∧
        (written ≠ [] → checkBands c'.bands = .ok ()) := by
  rw [Criteria.withBands, bind_eq_ok_iff, Prod.exists]
  constructor
  · rintro ⟨c₁, written, happly, h⟩
    dsimp only at h
    split at h
    · rename_i hempty
      obtain ⟨rfl, rfl⟩ := Prod.mk.inj (Except.ok.inj h)
      rw [List.isEmpty_iff] at hempty
      subst hempty
      exact ⟨[], happly, rfl, fun hne ↦ absurd rfl hne⟩
    · rename_i hne
      rw [List.isEmpty_iff] at hne
      obtain ⟨u, hcheck, h⟩ := bind_eq_ok_iff.1 h
      obtain ⟨rfl, rfl⟩ := Prod.mk.inj (Except.ok.inj h)
      refine ⟨written, happly, ?_, fun _ ↦ mapError_eq_ok_iff.1 hcheck⟩
      rw [bandChange, if_neg hne]
      rfl
  · rintro ⟨written, happly, rfl, hcheck⟩
    refine ⟨c', written, happly, ?_⟩
    dsimp only
    split
    · rename_i hempty
      rw [List.isEmpty_iff.1 hempty]
      rfl
    · rename_i hne
      rw [List.isEmpty_iff] at hne
      rw [Criteria.checkBands, hcheck hne, bandChange, if_neg hne]
      rfl

end Bands

namespace Request.Changes

def entries (r : Changes) : List BandEntry := r.bands.value?.getD []

structure Applicable (s : Store) (r : Changes) (c : Criteria) : Prop where
  name : ∀ n, r.name.value? = some n → ProperName n
  products : ∀ ids, r.products.value? = some ids → ∀ n ∈ ids, ∃ p, s.product n = .ok p
  entries : ∀ e ∈ r.entries, e.Applicable s (bandIds c.bands)
  disjoint : (revisedBands s r.entries c.bands).Pairwise Band.Disjoint

structure Revises (s : Store) (r : Changes) (c c' : Criteria) : Prop where
  id : c'.id = c.id
  name : c'.name = r.name.value?.getD c.name
  products : ∀ n, n ∈ c'.products.map Product.id ↔
    n ∈ r.products.value?.getD (c.products.map Product.id)
  bands : List.Forall₂ Band.Alike (revisedBands s r.entries c.bands) c'.bands

end Request.Changes

/-- What an update reports where `c` became `c'` and the entries `written` made a difference. -/
def Criteria.changesTo (c c' : Criteria) (written : List (Option Int)) : ChangeSet :=
  ((ChangeSet.single "criteria_name" (nameChange c.name c'.name)).merge
    (.single "loan_products"
      (productChange (c.products.map Product.id) (c'.products.map Product.id)))).merge
    (.single "definitions" (bandChange written))

/-- How a stored criteria `c` is revised to `c'`, when the entries `written` make a difference. -/
structure Request.Changes.Revision (s : Store) (r : Changes) (c c' : Criteria)
    (written : List (Option Int)) : Prop extends r.Revises s c c' where
  proper : ∀ n, r.name.value? = some n → n = c.name ∨ ProperName n
  requested : ∀ ids, r.products.value? = some ids → ∀ n ∈ ids, ∃ p, s.product n = .ok p
  resolved : ∀ p ∈ c'.products, p ∈ c.products ∨ s.product p.id = .ok p
  entries : ∀ e ∈ r.entries, e.Applicable s (bandIds c.bands)
  same : written = [] → c'.bands = c.bands
  checked : written ≠ [] → checkBands c'.bands = .ok ()
  unaltered : written = [] ↔ ∀ e ∈ r.entries, ¬ e.Alters s c.bands
  altered : Request.DistinctIds r.entries → ∀ p : Option Int → Bool,
    (∀ e ∈ r.entries, p e.id.value? = true ↔ e.Alters s c.bands) →
      written = (r.entries.map fun e ↦ e.id.value?).filter p

namespace Store

variable {s : Store} {id : Int} {r : Request.Changes} {c c' : Criteria} {ch : ChangeSet}

theorem revise_eq_ok_iff :
    s.revise id r = .ok (c', ch) ↔
      ∃ c ps c₁ head bands, s.get id = .ok c ∧ (s.directory.assembleProducts r).answer = .ok ps ∧
        c.update (Value.optional .str r.name.value?) ps = .ok (c₁, head) ∧
        c₁.withBands s.directory (r.entries.map Request.BandEntry.request) = .ok (c', bands) ∧
        ch = head.merge bands := by
  simp only [revise, bind_eq_ok_iff, mapError_eq_ok_iff, Prod.exists]
  constructor
  · rintro ⟨c, hget, ps, hps, c₁, head, hupdate, c₂, bands, hbands, hlast⟩
    obtain ⟨rfl, rfl⟩ := Prod.mk.inj (Except.ok.inj hlast)
    exact ⟨c, ps, c₁, head, bands, hget, hps, hupdate, hbands, rfl⟩
  · rintro ⟨c, ps, c₁, head, bands, hget, hps, hupdate, hbands, rfl⟩
    exact ⟨c, hget, ps, hps, c₁, head, hupdate, c', bands, hbands, rfl⟩

theorem revision_of_revise (hget : s.get id = .ok c) (hids : (Provisioning.bandIds c.bands).Nodup)
    (h : s.revise id r = .ok (c', ch)) :
    ∃ written, r.Revision s c c' written ∧ ch = c.changesTo c' written ∧
      (ch.isEmpty = true → c' = c) := by
  obtain ⟨_, ps, c₁, head, bands, hget', hps, hupdate, hbands, rfl⟩ := revise_eq_ok_iff.1 h
  obtain rfl := Except.ok.inj (hget.symm.trans hget')
  obtain ⟨written, happly, rfl, hcheck⟩ := withBands_eq_ok_iff.1 hbands
  obtain ⟨hname, hframe, hset, hmem, hhead, hhead'⟩ :=
    update_eq_ok (nodup_of_assembleProducts hps) hupdate
  have hbands₁ : c₁.bands = c.bands := by rw [hframe]
  have hids₁ : (Provisioning.bandIds c₁.bands).Nodup := hbands₁ ▸ hids
  obtain ⟨hes, hframe', halike, hsame⟩ := applyAll_eq_ok hids₁ happly
  have hunaltered := applyAll_written_eq_nil_iff hids₁ happly
  rw [hbands₁] at hes halike hunaltered
  have hname' : c'.name = c₁.name := by rw [hframe']
  have hproducts' : c'.products = c₁.products := by rw [hframe']
  refine ⟨written, ?_, ?_, fun hempty ↦ ?_⟩
  · exact {
      id := by rw [hframe', hframe]
      name := by rw [hframe', hframe]
      products := by
        intro n
        rw [hproducts', hset]
        obtain ⟨hnone, rfl⟩ | ⟨ids, qs, hids, rfl, hqs, -⟩ := assembleProducts_eq_ok_iff.1 hps
        · rw [hnone]
          rfl
        · rw [hids, Option.map_some, hqs]
          exact List.mem_eraseDups
      bands := halike
      proper := hname
      requested := by
        intro ids hids n hn
        obtain ⟨hnone, -⟩ | ⟨ids', qs, hids', -, hqs, hfound⟩ := assembleProducts_eq_ok_iff.1 hps
        · rw [hids] at hnone
          cases hnone
        · rw [hids, Option.some.injEq] at hids'
          have hmem : n ∈ qs.map Product.id := hqs ▸ hids' ▸ List.mem_eraseDups.2 hn
          obtain ⟨p, hp, rfl⟩ := List.mem_map.1 hmem
          exact ⟨p, hfound p hp⟩
      resolved := by
        intro p hp
        rw [hproducts'] at hp
        rcases hmem p hp with hp | hp
        · exact .inl hp
        · obtain ⟨-, rfl⟩ | ⟨ids, qs, -, rfl, -, hfound⟩ := assembleProducts_eq_ok_iff.1 hps
          · cases hp
          · exact .inr (hfound p hp)
      entries := hes
      same := fun hnone ↦ by rw [hsame hnone, hbands₁]
      checked := hcheck
      unaltered := hunaltered
      altered := fun hdistinct p hp ↦
        applyAll_written_eq hids₁ hdistinct (fun e he ↦ hbands₁ ▸ hp e he) happly }
  · rw [Criteria.changesTo, hname', hproducts', hhead]
  · rw [ChangeSet.isEmpty_merge_iff, ChangeSet.isEmpty_single, Option.isNone_iff_eq_none,
      bandChange_eq_none_iff] at hempty
    rw [hsame hempty.2, hhead' hempty.1]

theorem exists_revise_of_applicable (hget : s.get id = .ok c)
    (hids : (Provisioning.bandIds c.bands).Nodup)
    (hname : ∀ n, r.name.value? = some n → n = c.name ∨ ProperName n)
    (hproducts : ∀ ids, r.products.value? = some ids → ∀ n ∈ ids, ∃ p, s.product n = .ok p)
    (hentries : ∀ e ∈ r.entries, e.Applicable s (Provisioning.bandIds c.bands))
    (hcheck : (∃ e ∈ r.entries, e.Alters s c.bands) →
      checkBands (revisedBands s r.entries c.bands) = .ok ()) :
    ∃ c' ch, s.revise id r = .ok (c', ch) := by
  obtain ⟨ps, hps⟩ : ∃ ps, (s.directory.assembleProducts r).answer = .ok ps := by
    cases hids : r.products.value? with
    | none => exact ⟨none, assembleProducts_eq_ok_iff.2 (.inl ⟨hids, rfl⟩)⟩
    | some ids =>
      obtain ⟨qs, hqs, hfound⟩ := exists_products ids.eraseDups fun n hn ↦
        hproducts ids hids n (List.mem_eraseDups.1 hn)
      exact ⟨some qs, assembleProducts_eq_ok_iff.2 (.inr ⟨ids, qs, hids, rfl, hqs, hfound⟩)⟩
  obtain ⟨c₁, head, hupdate⟩ := exists_update_eq_ok ps hname
  have hbands₁ : c₁.bands = c.bands := by
    obtain ⟨-, hframe, -⟩ := update_eq_ok (nodup_of_assembleProducts hps) hupdate
    rw [hframe]
  have hids₁ : (Provisioning.bandIds c₁.bands).Nodup := hbands₁ ▸ hids
  obtain ⟨c₂, written, happly⟩ := exists_applyAll_eq_ok hids₁ (hbands₁ ▸ hentries)
  obtain ⟨-, -, halike, -⟩ := applyAll_eq_ok hids₁ happly
  have hunaltered := applyAll_written_eq_nil_iff hids₁ happly
  rw [hbands₁] at halike hunaltered
  have hchecked : written ≠ [] → checkBands c₂.bands = .ok () := by
    intro hne
    rw [Ne, hunaltered] at hne
    push Not at hne
    exact checkBands_of_alike halike (hcheck hne)
  exact ⟨c₂, _, revise_eq_ok_iff.2 ⟨c, ps, c₁, head, _, hget, hps, hupdate,
    withBands_eq_ok_iff.2 ⟨written, happly, rfl, hchecked⟩, rfl⟩⟩

theorem Consistent.nodup_bandIds_of_sound (hs : s.Consistent) (hc : c.Sound s) :
    (Provisioning.bandIds c.bands).Nodup := (hs.supports hc).distinct

theorem Consistent.revise_eq_ok (hs : s.Consistent) (hc : c.Sound s) (hget : s.get id = .ok c)
    (h : s.revise id r = .ok (c', ch)) :
    r.Applicable s c ∧ r.Revises s c c' ∧ c'.Sound s ∧ (ch.isEmpty = true → c' = c) := by
  have hdistinct := hs.nodup_bandIds_of_sound hc
  obtain ⟨written, hrevision, -, hsame⟩ := revision_of_revise hget hdistinct h
  have hrevises := hrevision.toRevises
  have hproper : ∀ n, r.name.value? = some n → ProperName n := fun n hn ↦
    (hrevision.proper n hn).elim (fun h ↦ h ▸ hc.name) fun h ↦ h
  have hsound : ∀ b ∈ c'.bands, b.Sound s := fun b hb ↦
    sound_of_alike hrevision.entries hc.bands hrevises.bands hb
  have hdisjoint : c'.bands.Pairwise Band.Disjoint := by
    by_cases hwritten : written = []
    · rw [hrevision.same hwritten]
      exact hc.disjoint
    · refine (checkBands_eq_ok_iff_disjoint ?_ fun b hb ↦ (hsound b hb).ages.2).1
        (hrevision.checked hwritten)
      rw [bandIds_of_alike hrevises.bands]
      exact hdistinct
  refine ⟨⟨hproper, hrevision.requested, hrevision.entries, ?_⟩, hrevises, ?_, hsame⟩
  · exact (pairwise_disjoint_iff_of_alike hrevises.bands).2 hdisjoint
  · exact {
      name := by
        rw [hrevises.name]
        cases hn : r.name.value? with
        | none => exact hc.name
        | some n => exact hproper n hn
      nonempty := ne_nil_of_alike hrevises.bands hc.nonempty
      bands := hsound
      disjoint := hdisjoint
      ids := by
        rw [hrevises.id]
        exact exists_map_id_of_alike hrevises.bands hc.ids
      products := fun p hp ↦ (hrevision.resolved p hp).elim (hc.products p) fun h ↦ h
      stored := by
        rw [hrevises.id]
        exact hc.stored }

theorem Consistent.exists_revise_eq_ok (hs : s.Consistent) (hc : c.Sound s) (hget : s.get id = .ok c)
    (h : r.Applicable s c) : ∃ c' ch, s.revise id r = .ok (c', ch) := by
  have hdistinct := hs.nodup_bandIds_of_sound hc
  have halike : List.Forall₂ Band.Alike (revisedBands s r.entries c.bands)
      (revisedBands s r.entries c.bands) := List.forall₂_same.2 fun b _ ↦ .refl b
  refine exists_revise_of_applicable hget hdistinct (fun n hn ↦ .inr (h.name n hn)) h.products h.entries
    fun _ ↦ (checkBands_eq_ok_iff_disjoint ?_ fun b hb ↦ ?_).2 h.disjoint
  · rw [bandIds_of_alike halike]
    exact hdistinct
  · exact (sound_of_alike h.entries hc.bands halike hb).ages.2

end Store
end Provisioning
