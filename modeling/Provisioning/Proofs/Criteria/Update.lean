import Provisioning.Proofs.Revision

namespace Provisioning

/-- The products by id, as a list of them is read: of those with one id the last counts. -/
def latest (ps : List Product) : List Product := ps.foldl (fun qs p ↦ p.insert qs) []

/-- No later product of the list has the id of this one. -/
def Product.LastOf (p : Product) (ps : List Product) : Prop :=
  ps.reverse.find? (fun q ↦ q.id == p.id) = some p

section Latest

variable {ps : List Product} {p q : Product} {n : Int}

theorem mem_map_id_insert_iff : n ∈ (p.insert ps).map Product.id ↔ n = p.id ∨ n ∈ ps.map Product.id := by
  induction ps with
  | nil => simp [Product.insert]
  | cons q ps ih =>
    by_cases hq : q.id = p.id
    · simp [Product.insert, hq]
    · simp only [Product.insert, hq, ↓reduceIte, List.map_cons, List.mem_cons, ih]
      exact or_left_comm

theorem nodup_insert (h : (ps.map Product.id).Nodup) : ((p.insert ps).map Product.id).Nodup := by
  induction ps with
  | nil => simp [Product.insert]
  | cons q ps ih =>
    obtain ⟨hq, hps⟩ := List.nodup_cons.1 h
    by_cases hqp : q.id = p.id
    · simp only [Product.insert, hqp, ↓reduceIte, List.map_cons, List.nodup_cons]
      exact ⟨hqp ▸ hq, hps⟩
    · have hlost : q.id ∉ (p.insert ps).map Product.id := by simpa [mem_map_id_insert_iff, hqp] using hq
      simp only [Product.insert, hqp, ↓reduceIte, List.map_cons, List.nodup_cons]
      exact ⟨hlost, ih hps⟩

theorem mem_insert_iff (h : (ps.map Product.id).Nodup) : q ∈ p.insert ps ↔ q = p ∨ q ∈ ps ∧ q.id ≠ p.id := by
  induction ps with
  | nil => simp [Product.insert]
  | cons a ps ih =>
    obtain ⟨ha, hps⟩ := List.nodup_cons.1 h
    by_cases hap : a.id = p.id
    · have hne : q ∈ ps → q.id ≠ p.id := fun hq he ↦ ha (hap ▸ he ▸ List.mem_map_of_mem hq)
      simp only [Product.insert, hap, ↓reduceIte, List.mem_cons]
      grind
    · simp only [Product.insert, hap, ↓reduceIte, List.mem_cons, ih hps]
      grind

theorem latest_concat : latest (ps ++ [p]) = p.insert (latest ps) := by simp [latest]

theorem nodup_latest (ps : List Product) : ((latest ps).map Product.id).Nodup := by
  induction ps using List.reverseRecOn with
  | nil => simp [latest]
  | append_singleton ps p ih => simpa only [latest_concat] using nodup_insert ih

theorem mem_map_id_latest_iff : n ∈ (latest ps).map Product.id ↔ n ∈ ps.map Product.id := by
  induction ps using List.reverseRecOn with
  | nil => simp [latest]
  | append_singleton ps p ih => simp [latest_concat, mem_map_id_insert_iff, ih, or_comm]

theorem Product.lastOf_concat_iff : p.LastOf (ps ++ [q]) ↔ p = q ∨ p.LastOf ps ∧ p.id ≠ q.id := by
  by_cases h : q.id = p.id
  · simp [LastOf, h, eq_comm]
  · have hne : p ≠ q := fun he ↦ h (congrArg Product.id he.symm)
    simp [LastOf, h, hne, Ne.symm h]

theorem lastOf_of_mem_latest (h : p ∈ latest ps) : p.LastOf ps := by
  induction ps using List.reverseRecOn with
  | nil => simp [latest] at h
  | append_singleton ps q ih =>
    rw [latest_concat, mem_insert_iff (nodup_latest ps)] at h
    rw [Product.lastOf_concat_iff]
    exact h.imp_right fun h ↦ ⟨ih h.1, h.2⟩

theorem latest_eq_self (h : (ps.map Product.id).Nodup) : latest ps = ps := foldl_insert_eq h

end Latest

namespace Criteria

section Products

variable {c c' : Criteria} {ch : ChangeSet} {ps : List Product}

theorem withProducts_latest : c.withProducts (latest ps) = c.withProducts ps := by
  have hlatest : (latest ps).foldl (fun qs p ↦ p.insert qs) [] = latest ps := latest_eq_self (nodup_latest ps)
  simp only [withProducts, hlatest]
  rfl

/-- The products that stay come first, and the added ones follow. -/
theorem exists_added (hps : (ps.map Product.id).Nodup) (h : c.withProducts ps = (c', ch)) :
    ∃ new : List Product, c'.products = c.products.filter (fun p ↦ (ps.map Product.id).contains p.id) ++ new ∧
      new.map Product.id = lacking (c.products.map Product.id) (ps.map Product.id) ∧ ∀ p ∈ new, p ∈ ps := by
  have hlatest : ps.foldl (fun qs p ↦ p.insert qs) [] = ps := latest_eq_self hps
  simp only [withProducts, hlatest, added_eq_lacking fun _ ↦ Iff.rfl, removed_eq_lacking fun _ ↦ Iff.rfl] at h
  split at h
  · rename_i hsame
    obtain ⟨rfl, -⟩ := Prod.mk.inj h
    rw [Bool.and_eq_true, List.isEmpty_iff, List.isEmpty_iff] at hsame
    refine ⟨[], ?_, hsame.1.symm, List.forall_mem_nil _⟩
    have hkept : ∀ p ∈ c.products, (ps.map Product.id).contains p.id = true := by
      intro p hp
      by_contra hlost
      have hremoved : p.id ∈ lacking (ps.map Product.id) (c.products.map Product.id) :=
        mem_lacking_iff.2 ⟨List.mem_map_of_mem hp, by simpa using hlost⟩
      simp [hsame.2] at hremoved
    rw [List.append_nil, List.filter_eq_self.2 hkept]
  · obtain ⟨rfl, -⟩ := Prod.mk.inj h
    refine ⟨_, rfl, map_id_filterMap_find? fun n hn ↦ (mem_lacking_iff.1 hn).1, fun p hp ↦ ?_⟩
    obtain ⟨n, -, hfind⟩ := List.mem_filterMap.1 hp
    exact List.mem_of_find?_eq_some hfind

theorem withProducts_eq_self (h : ∀ n, n ∈ c.products.map Product.id ↔ n ∈ ps.map Product.id) :
    c.withProducts ps = (c, .empty) := by
  obtain ⟨-, hset, -, hch, hsame⟩ := withProducts_eq (nodup_latest ps) (Prod.eta (c.withProducts (latest ps))).symm
  rw [withProducts_latest] at hset hch hsame
  have hnone : productChange (c.products.map Product.id) ((c.withProducts ps).1.products.map Product.id) = none :=
    productChange_eq_none_iff.2 fun n ↦ by rw [hset, mem_map_id_latest_iff, h]
  rw [hnone] at hch
  exact Prod.ext (hsame (by rw [hch]; rfl)) hch

end Products

/-- What an update makes of a criteria: `wanted` are the products that it asks for, or those that are there,
`new` the ones that are added and `removed` the ids of those that go. -/
structure UpdatesTo (c : Criteria) (name : Value) (wanted : List Product) (c' : Criteria) (ch : ChangeSet)
    (new : List Product) (removed : List Int) : Prop where
  id : c'.id = c.id
  bands : c'.bands = c.bands
  name : name = .null ∧ c'.name = c.name ∨ name = .str c'.name ∧ (c'.name = c.name ∨ ProperName c'.name)
  products : c'.products = c.products.filter (fun p ↦ (wanted.map Product.id).contains p.id) ++ new
  last : ∀ p ∈ new, p.LastOf wanted
  distinct : (c'.products.map Product.id).Nodup
  asked : ∀ n, n ∈ c'.products.map Product.id ↔ n ∈ wanted.map Product.id
  new_ascending : (new.map Product.id).Pairwise (· < ·)
  new_lacking : ∀ n ∈ new.map Product.id, n ∉ c.products.map Product.id
  removed_ascending : removed.Pairwise (· < ·)
  removed_stored : ∀ n ∈ removed, n ∈ c.products.map Product.id
  balance : ∀ n, n ∈ wanted.map Product.id ↔
    n ∈ c.products.map Product.id ∧ n ∉ removed ∨ n ∈ new.map Product.id
  renamed : ch.get? "criteria_name" = if c'.name = c.name then none else some (.str c'.name)
  moved : ch.get? "loan_products" = if new = [] ∧ removed = [] then none
    else some (.object [("added", .ofInts (new.map Product.id)), ("removed", .ofInts removed)])
  others : ∀ key, key ≠ "criteria_name" → key ≠ "loan_products" → ch.get? key = none
  isEmpty_iff : ch.isEmpty = true ↔
    c'.name = c.name ∧ ∀ n, n ∈ c'.products.map Product.id ↔ n ∈ c.products.map Product.id
  unchanged : ch.isEmpty = true → c' = c

section Header

variable {c c' : Criteria} {ch : ChangeSet} {name : Value} {requested : Option (List Product)}

theorem field_of_checkName {v : Value} {p : Problem} (h : checkName v = .error p) : p.field = "criteria_name" := by
  cases v with
  | str s =>
    simp only [checkName] at h
    split_ifs at h <;> cases h <;> rfl
  | _ => cases h; rfl

theorem rename_cases (c : Criteria) (name : Value) :
    (∃ o, name = Value.optional .str o ∧ ∀ n, o = some n → n = c.name ∨ ProperName n) ∨
      ∃ p, c.rename name = .error p ∧ p.field = "criteria_name" ∧ name ≠ .null ∧ name ≠ .str c.name ∧
        ∀ n, name = .str n → ¬ ProperName n := by
  cases name with
  | null => exact .inl ⟨none, rfl, by simp⟩
  | str n =>
    by_cases hn : n = c.name ∨ ProperName n
    · refine .inl ⟨some n, rfl, fun m hm ↦ ?_⟩
      exact Option.some.inj hm ▸ hn
    · obtain ⟨hother, himproper⟩ := not_or.1 hn
      cases hcheck : checkName (.str n) with
      | ok m => exact absurd (checkName_eq_ok_iff.1 hcheck).1 himproper
      | error p =>
        have hrefused : c.rename (.str n) = .error p := by
          rw [rename, if_neg hother, hcheck]
          rfl
        refine .inr ⟨p, hrefused, field_of_checkName hcheck, by simp, ?_, ?_⟩
        · simpa using hother
        · intro m hm
          exact Value.str.inj hm ▸ himproper
  | _ => exact .inr ⟨.blankName, rfl, rfl, by simp, by simp, by simp⟩

theorem update_map_latest : c.update name (requested.map latest) = c.update name requested := by
  cases requested with
  | none => rfl
  | some ps => simp only [update, Option.map_some, withProducts_latest]

/-- The added products are those that lack, and each is as it is asked for last. -/
theorem exists_added_of_update {o : Option String}
    (h : c.update (Value.optional .str o) requested = .ok (c', ch)) :
    ∃ new : List Product,
      c'.products = c.products.filter
        (fun p ↦ ((requested.getD c.products).map Product.id).contains p.id) ++ new ∧
      new.map Product.id = lacking (c.products.map Product.id) ((requested.getD c.products).map Product.id) ∧
      ∀ p ∈ new, p.LastOf (requested.getD c.products) := by
  obtain ⟨⟨c₁, head⟩, hrename, h⟩ := bind_eq_ok_iff.1 h
  obtain ⟨-, rfl, -, -⟩ := rename_eq_ok hrename
  cases requested with
  | none =>
    obtain ⟨rfl, -⟩ := Prod.mk.inj (Except.ok.inj h)
    have hall : ∀ p ∈ c.products, (c.products.map Product.id).contains p.id = true := fun p hp ↦
      List.contains_iff_mem.2 (List.mem_map_of_mem hp)
    have hnone : lacking (c.products.map Product.id) (c.products.map Product.id) = [] :=
      List.eq_nil_iff_forall_not_mem.2 fun n hn ↦ absurd (mem_lacking_iff.1 hn).1 (mem_lacking_iff.1 hn).2
    exact ⟨[], by rw [Option.getD_none, List.filter_eq_self.2 hall, List.append_nil], hnone.symm, by simp⟩
  | some ps =>
    cases hmoved : withProducts { c with name := o.getD c.name } ps with
    | mk c₂ moved =>
      simp only [hmoved] at h
      obtain ⟨rfl, -⟩ := Prod.mk.inj (Except.ok.inj h)
      rw [← withProducts_latest] at hmoved
      obtain ⟨new, hproducts, hids, hnew⟩ := exists_added (nodup_latest ps) hmoved
      have hsame : ∀ n, n ∈ (latest ps).map Product.id ↔ n ∈ ps.map Product.id := fun n ↦ mem_map_id_latest_iff
      have hcontains (n : Int) : ((latest ps).map Product.id).contains n = (ps.map Product.id).contains n := by
        rw [Bool.eq_iff_iff, List.contains_iff_mem, List.contains_iff_mem, hsame]
      refine ⟨new, ?_, ?_, fun p hp ↦ lastOf_of_mem_latest (hnew p hp)⟩
      · simpa only [hcontains, Option.getD_some] using hproducts
      · rw [hids, Option.getD_some]
        exact lacking_congr (fun _ ↦ Iff.rfl) hsame

theorem updatesTo_of_update {o : Option String} (hc : (c.products.map Product.id).Nodup)
    (h : c.update (Value.optional .str o) requested = .ok (c', ch)) :
    ∃ new, c.UpdatesTo (Value.optional .str o) (requested.getD c.products) c' ch new
      (lacking ((requested.getD c.products).map Product.id) (c.products.map Product.id)) := by
  obtain ⟨new, hproducts, hids, hlast⟩ := exists_added_of_update h
  have hlatest : ∀ qs, requested.map latest = some qs → (qs.map Product.id).Nodup := by
    intro qs hqs
    obtain ⟨ps, -, rfl⟩ := Option.map_eq_some_iff.1 hqs
    exact nodup_latest ps
  -- what is known of updates asks for distinct ids, which the last products have and the request need not
  rw [← update_map_latest] at h
  obtain ⟨hname, hframe, hset, -, rfl, hsame⟩ := update_eq_ok hlatest h
  have hasked (n : Int) : n ∈ c'.products.map Product.id ↔ n ∈ (requested.getD c.products).map Product.id := by
    rw [hset]
    cases requested with
    | none => rfl
    | some ps => exact mem_map_id_latest_iff
  have hname' : c'.name = o.getD c.name := by rw [hframe]
  have hadded : lacking (c.products.map Product.id) (c'.products.map Product.id) = new.map Product.id := by
    rw [hids]
    exact lacking_congr (fun _ ↦ Iff.rfl) hasked
  have hremoved := lacking_congr hasked fun n ↦ (Iff.rfl : n ∈ c.products.map Product.id ↔ _)
  have hnew : ∀ n ∈ new.map Product.id, n ∉ c.products.map Product.id := fun n hn ↦
    (mem_lacking_iff.1 (hids ▸ hn)).2
  have hascending : (new.map Product.id).Pairwise (· < ·) := hids ▸ pairwise_ascending _
  exact ⟨new, {
    id := by rw [hframe]
    bands := by rw [hframe]
    name := by
      cases o with
      | none => exact .inl ⟨rfl, hname'⟩
      | some n =>
        obtain rfl : c'.name = n := hname'
        exact .inr ⟨rfl, hname _ rfl⟩
    products := hproducts
    last := hlast
    distinct := by
      rw [hproducts, List.map_append, List.nodup_append]
      refine ⟨hc.sublist (List.filter_sublist.map _), hascending.imp ne_of_lt, fun n hkept m hm hnm ↦ ?_⟩
      exact hnew m hm (hnm ▸ (List.filter_sublist.map _).subset hkept)
    asked := hasked
    new_ascending := hascending
    new_lacking := hnew
    removed_ascending := pairwise_ascending _
    removed_stored := fun n hn ↦ (mem_lacking_iff.1 hn).1
    balance := by
      intro n
      rw [hids, mem_lacking_iff, mem_lacking_iff]
      tauto
    renamed := by
      simp [ChangeSet.get?_merge_single, ChangeSet.get?_single, nameChange]
    moved := by
      simp [ChangeSet.get?_merge_single, ChangeSet.get?_single, productChange, hadded, hremoved]
    others := by
      intro key hkey hkey'
      simp [ChangeSet.get?_merge_single, ChangeSet.get?_single, hkey, hkey']
    isEmpty_iff := by
      simp only [ChangeSet.isEmpty_merge_iff, ChangeSet.isEmpty_single, Option.isNone_iff_eq_none,
        nameChange_eq_none_iff, productChange_eq_none_iff]
    unchanged := hsame }⟩

/-- What is asked for is there, so that the same update finds nothing to do. -/
theorem UpdatesTo.update_eq_self {new : List Product} {removed : List Int}
    (h : c.UpdatesTo name (requested.getD c.products) c' ch new removed) :
    c'.update name requested = .ok (c', .empty) := by
  have hrename : c'.rename name = .ok (c', .empty) := by
    obtain ⟨rfl, -⟩ | ⟨rfl, -⟩ := h.name
    · rfl
    · exact if_pos rfl
  cases requested with
  | none => simp [update, hrename]
  | some ps =>
    have hmoved : c'.withProducts ps = (c', .empty) := withProducts_eq_self h.asked
    have hnone : ChangeSet.empty.merge .empty = .empty := rfl
    simp [update, hrename, hmoved, hnone]

/-- An update is refused for its name alone, which is then another one and no proper name. Otherwise the
criteria has the name and the products that are asked for, or else its own. The same update once more reports
nothing and changes nothing. -/
theorem updatesTo_or_refuses (hc : (c.products.map Product.id).Nodup) :
    (∃ p, c.update name requested = .error p ∧ p.field = "criteria_name" ∧ name ≠ .null ∧ name ≠ .str c.name ∧
      ∀ n, name = .str n → ¬ ProperName n) ∨
    ∃ c' ch new removed, c.update name requested = .ok (c', ch) ∧
      c.UpdatesTo name (requested.getD c.products) c' ch new removed ∧
      c'.update name requested = .ok (c', .empty) := by
  rcases rename_cases c name with ⟨o, rfl, ho⟩ | ⟨p, hp, hrefused⟩
  · obtain ⟨c', ch, hupdate⟩ := exists_update_eq_ok requested ho
    obtain ⟨new, hto⟩ := updatesTo_of_update hc hupdate
    exact .inr ⟨c', ch, new, _, hupdate, hto, hto.update_eq_self⟩
  · refine .inl ⟨p, ?_, hrefused⟩
    rw [update, hp]
    rfl

end Header
end Criteria

namespace Sample

def stocked : Criteria := ⟨some 4, "Monthly", [], [⟨3, "Auto"⟩, ⟨1, "Home"⟩, ⟨2, "Boat"⟩]⟩

def assortment : List Product :=
  [⟨5, "Small"⟩, ⟨2, "Boat"⟩, ⟨4, "Farm"⟩, ⟨5, "Large"⟩, ⟨2, "Ship"⟩, ⟨3, "Car"⟩]

end Sample

theorem Criteria.updatesTo_of_repeated :
    let c' : Criteria := ⟨some 4, "Quarterly", [], [⟨3, "Auto"⟩, ⟨2, "Boat"⟩, ⟨4, "Farm"⟩, ⟨5, "Large"⟩]⟩
    (Sample.stocked.products.map Product.id).Nodup ∧
      ∃ ch, Sample.stocked.update (.str "Quarterly") (some Sample.assortment) = .ok (c', ch) ∧
        ch.get? "criteria_name" = some (.str "Quarterly") ∧
        ch.get? "loan_products" = some (.object [("added", .ofInts [4, 5]), ("removed", .ofInts [1])]) ∧
        c'.update (.str "Quarterly") (some Sample.assortment) = .ok (c', .empty) := by
  intro c'
  have hids : (Sample.stocked.products.map Product.id).Nodup := by decide
  let added : Value := .object [("added", .ofInts [4, 5]), ("removed", .ofInts [1])]
  let ch : ChangeSet := ⟨[("criteria_name", .str "Quarterly"), ("loan_products", added)]⟩
  have hupdate : Sample.stocked.update (.str "Quarterly") (some Sample.assortment) = .ok (c', ch) := by rfl
  rcases Criteria.updatesTo_or_refuses hids with ⟨p, hrefused, -⟩ | ⟨c₂, ch₂, new, removed, htaken, hto, hagain⟩
  · exact absurd (hupdate.symm.trans hrefused) nofun
  · obtain ⟨rfl, rfl⟩ := Prod.mk.inj (Except.ok.inj (hupdate.symm.trans htaken))
    exact ⟨hids, ch, hupdate, hto.renamed, rfl, hagain⟩

end Provisioning
