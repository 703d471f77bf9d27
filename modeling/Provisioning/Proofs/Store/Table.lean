import Provisioning.Store.Basic
import Mathlib.Data.List.Nodup

namespace Provisioning

variable {α β : Type}

theorem bind_eq_ok_iff {ε : Type} {x : Except ε α} {f : α → Except ε β} {b : β} :
    (x >>= f) = .ok b ↔ ∃ a, x = .ok a ∧ f a = .ok b := by
  cases x with
  | error e => simp [bind, Except.bind]
  | ok a => simp [bind, Except.bind]

theorem mapM_except_eq_ok {ε : Type} {f : α → Except ε β} {g : α → β} {xs : List α}
    (h : ∀ x ∈ xs, f x = .ok (g x)) : xs.mapM f = .ok (xs.map g) := by
  induction xs with
  | nil => rfl
  | cons x xs ih =>
    rw [List.forall_mem_cons] at h
    rw [List.mapM_cons, h.1, ih h.2]
    rfl

theorem exists_of_mem_right {R : α → β → Prop} {xs : List α} {ys : List β}
    (h : List.Forall₂ R xs ys) {y : β} (hy : y ∈ ys) : ∃ x ∈ xs, R x y := by
  induction h with
  | nil => exact absurd hy List.not_mem_nil
  | @cons x z xs ys hxz _ ih =>
    rcases List.mem_cons.1 hy with rfl | hy
    · exact ⟨x, List.mem_cons_self, hxz⟩
    · obtain ⟨x', hx', hxy⟩ := ih hy
      exact ⟨x', List.mem_cons_of_mem _ hx', hxy⟩

theorem forall₂_of_mapM_eq_ok {ε : Type} {f : α → Except ε β} {xs : List α} {ys : List β}
    (h : xs.mapM f = .ok ys) : List.Forall₂ (fun x y ↦ f x = .ok y) xs ys := by
  induction xs generalizing ys with
  | nil =>
    rw [← Except.ok.inj h]
    exact .nil
  | cons x xs ih =>
    rw [List.mapM_cons] at h
    obtain ⟨y, hy, h⟩ := bind_eq_ok_iff.1 h
    obtain ⟨zs, hzs, h⟩ := bind_eq_ok_iff.1 h
    rw [← Except.ok.inj h]
    exact .cons hy (ih hzs)

theorem exists_of_mapM_eq_ok {ε : Type} {f : α → Except ε β} {xs : List α} {ys : List β}
    (h : xs.mapM f = .ok ys) : ∀ x ∈ xs, ∃ y, f x = .ok y := by
  intro x hx
  obtain ⟨y, -, hy⟩ := exists_of_mem_right (forall₂_of_mapM_eq_ok h).flip hx
  exact ⟨y, hy⟩

theorem map_filterMap_sublist {γ : Type} {f : α → Option β} {g : β → γ} {g' : α → γ}
    (h : ∀ a b, f a = some b → g b = g' a) (xs : List α) :
    ((xs.filterMap f).map g).Sublist (xs.map g') := by
  induction xs with
  | nil => exact .slnil
  | cons x xs ih =>
    cases hx : f x with
    | none =>
      rw [List.filterMap_cons_none hx]
      exact ih.cons _
    | some b =>
      rw [List.filterMap_cons_some hx, List.map_cons, List.map_cons, h x b hx]
      exact ih.cons_cons _

theorem forall₂_comp {γ : Type} {R : α → β → Prop} {S : β → γ → Prop} {T : α → γ → Prop}
    {xs : List α} {ys : List β} {zs : List γ} (h : ∀ x y z, R x y → S y z → T x z)
    (hR : List.Forall₂ R xs ys) (hS : List.Forall₂ S ys zs) : List.Forall₂ T xs zs := by
  induction hR generalizing zs with
  | nil =>
    rw [List.forall₂_nil_left_iff.1 hS]
    exact .nil
  | cons hxy _ ih =>
    obtain ⟨z, zs, hyz, hrest, rfl⟩ := List.forall₂_cons_left_iff.1 hS
    exact .cons (h _ _ _ hxy hyz) (ih hrest)

theorem pairwise_of_forall₂ {R : α → β → Prop} {S : α → α → Prop} {T : β → β → Prop} {xs : List α}
    {ys : List β} (hR : ∀ a b a' b', R a b → R a' b' → S a a' → T b b') (h : List.Forall₂ R xs ys)
    (hS : xs.Pairwise S) : ys.Pairwise T := by
  induction h with
  | nil => exact .nil
  | @cons x y xs ys hxy hxys ih =>
    rw [List.pairwise_cons] at hS ⊢
    refine ⟨fun y' hy' ↦ ?_, ih hS.2⟩
    obtain ⟨x', hx', hxy'⟩ := exists_of_mem_right hxys hy'
    exact hR x y x' y' hxy hxy' (hS.1 x' hx')

section Table

variable {id : α → Int} {rows : List α} {row : α} {n : Int}

theorem find?_eq_some_of_nodup (hids : (rows.map id).Nodup) (hrow : row ∈ rows) :
    rows.find? (fun r ↦ id r == id row) = some row := by
  induction rows with
  | nil => exact absurd hrow List.not_mem_nil
  | cons r rows ih =>
    rw [List.map_cons, List.nodup_cons] at hids
    rcases List.mem_cons.1 hrow with rfl | hrow
    · exact List.find?_cons_of_pos (beq_self_eq_true _)
    · have hne : id r ≠ id row := fun he ↦ hids.1 (he ▸ List.mem_map_of_mem hrow)
      rw [List.find?_cons_of_neg (by simpa using hne), ih hids.2 hrow]

theorem mem_and_id_of_find? (h : rows.find? (fun r ↦ id r == n) = some row) :
    row ∈ rows ∧ id row = n :=
  ⟨List.mem_of_find?_eq_some h, by simpa using List.find?_some h⟩

theorem map_id_filterMap_find? {ns : List Int} (h : ∀ n ∈ ns, n ∈ rows.map id) :
    (ns.filterMap fun n ↦ rows.find? fun r ↦ id r == n).map id = ns := by
  induction ns with
  | nil => rfl
  | cons n ns ih =>
    obtain ⟨hn, hns⟩ := List.forall_mem_cons.1 h
    obtain ⟨row, hrow, rfl⟩ := List.mem_map.1 hn
    have hsome : (rows.find? fun r ↦ id r == id row).isSome = true := by simpa using ⟨row, hrow, rfl⟩
    obtain ⟨r, hr⟩ := Option.isSome_iff_exists.1 hsome
    simp [hr, ih hns, (mem_and_id_of_find? hr).2]

theorem getRow_eq_ok_iff {entity : Entity} :
    getRow id rows entity n = .ok row ↔
      inWord n = true ∧ rows.find? (fun r ↦ id r == n) = some row := by
  rw [getRow, bind_eq_ok_iff]
  simp only [findRow]
  cases inWord n with
  | false => simp
  | true =>
    cases hfind : rows.find? fun r ↦ id r == n with
    | none => simp [throw, throwThe, MonadExceptOf.throw]
    | some r => simp [pure, Except.pure]

theorem mem_and_id_of_getRow {entity : Entity} (h : getRow id rows entity n = .ok row) :
    row ∈ rows ∧ id row = n := mem_and_id_of_find? (getRow_eq_ok_iff.1 h).2

theorem findRow_eq_ok_of_getRow {entity : Entity} (h : getRow id rows entity n = .ok row) :
    findRow id rows n = .ok (some row) := by
  obtain ⟨hn, hfind⟩ := getRow_eq_ok_iff.1 h
  rw [findRow, if_pos hn, hfind]

theorem putRow_eq_append (h : ∀ r ∈ rows, id r ≠ id row) : putRow id row rows = rows ++ [row] := by
  induction rows with
  | nil => rfl
  | cons r rows ih =>
    rw [List.forall_mem_cons] at h
    rw [putRow, if_neg h.1, ih h.2, List.cons_append]

theorem putRow_eq_map (hids : (rows.map id).Nodup) (h : ∃ r ∈ rows, id r = id row) :
    putRow id row rows = rows.map fun r ↦ if id r = id row then row else r := by
  induction rows with
  | nil =>
    obtain ⟨r, hr, -⟩ := h
    exact absurd hr List.not_mem_nil
  | cons r rows ih =>
    rw [List.map_cons, List.nodup_cons] at hids
    rw [putRow, List.map_cons]
    split
    · rename_i hr
      have hrest : rows.map (fun q ↦ if id q = id row then row else q) = rows.map fun q ↦ q := by
        apply List.map_congr_left
        intro q hq
        apply if_neg
        intro he
        exact hids.1 ((hr.trans he.symm) ▸ List.mem_map_of_mem hq)
      rw [hrest, List.map_id']
    · rename_i hr
      obtain ⟨q, hq, hqid⟩ := h
      rcases List.mem_cons.1 hq with rfl | hq
      · exact absurd hqid hr
      · rw [ih hids.2 ⟨q, hq, hqid⟩]

theorem putRow_eq_self (hids : (rows.map id).Nodup) (h : row ∈ rows) : putRow id row rows = rows := by
  rw [putRow_eq_map hids ⟨row, h, rfl⟩]
  have hself : ∀ r ∈ rows, (if id r = id row then row else r) = r := by
    intro r hr
    split
    · exact List.inj_on_of_nodup_map hids h hr (Eq.symm ‹_›)
    · rfl
  rw [List.map_congr_left hself, List.map_id']

theorem mem_putRow_iff {q : α} (hids : (rows.map id).Nodup) :
    q ∈ putRow id row rows ↔ q = row ∨ q ∈ rows ∧ id q ≠ id row := by
  by_cases h : ∃ r ∈ rows, id r = id row
  · rw [putRow_eq_map hids h]
    constructor
    · intro hq
      obtain ⟨r, hr, rfl⟩ := List.mem_map.1 hq
      split
      · exact .inl rfl
      · exact .inr ⟨hr, ‹_›⟩
    · intro h
      rcases h with rfl | ⟨hq, hne⟩
      · obtain ⟨r, hr, hrid⟩ := h
        exact List.mem_map.2 ⟨r, hr, if_pos hrid⟩
      · exact List.mem_map.2 ⟨q, hq, if_neg hne⟩
  · have hne : ∀ r ∈ rows, id r ≠ id row := fun r hr he ↦ h ⟨r, hr, he⟩
    rw [putRow_eq_append hne, List.mem_append, List.mem_singleton, or_comm]
    exact or_congr_right (iff_self_and.2 (hne q))

theorem exists_mem_putRow (h : ∃ r ∈ rows, id r = n) : ∃ r ∈ putRow id row rows, id r = n := by
  induction rows with
  | nil => simp at h
  | cons q rows ih =>
    obtain ⟨r, hr, rfl⟩ := h
    rw [putRow]
    split
    · rename_i hq
      rcases List.mem_cons.1 hr with rfl | hr
      · exact ⟨row, List.mem_cons_self, hq.symm⟩
      · exact ⟨r, List.mem_cons_of_mem _ hr, rfl⟩
    · rcases List.mem_cons.1 hr with rfl | hr
      · exact ⟨r, List.mem_cons_self, rfl⟩
      · obtain ⟨r', hr', hid⟩ := ih ⟨r, hr, rfl⟩
        exact ⟨r', List.mem_cons_of_mem _ hr', hid⟩

theorem pairwise_map_putRow (hids : (rows.map id).Pairwise (· < ·))
    (h : (∃ r ∈ rows, id r = id row) ∨ ∀ r ∈ rows, id r < id row) :
    ((putRow id row rows).map id).Pairwise (· < ·) := by
  rcases h with h | h
  · have hsame : (putRow id row rows).map id = rows.map id := by
      rw [putRow_eq_map (hids.imp Int.ne_of_lt) h, List.map_map]
      apply List.map_congr_left
      intro r _
      rw [Function.comp_apply]
      split
      · exact Eq.symm ‹_›
      · rfl
    rw [hsame]
    exact hids
  · rw [putRow_eq_append fun r hr ↦ Int.ne_of_lt (h r hr), List.map_append, List.pairwise_append]
    refine ⟨hids, List.pairwise_singleton _ _, fun n hn m hm ↦ ?_⟩
    obtain ⟨r, hr, rfl⟩ := List.mem_map.1 hn
    obtain rfl := List.mem_singleton.1 hm
    exact h r hr

theorem nodup_map_putRow {g : α → β} (hids : (rows.map id).Nodup) (hg : (rows.map g).Nodup)
    (h : ∀ q ∈ rows, id q ≠ id row → g q ≠ g row) : ((putRow id row rows).map g).Nodup := by
  induction rows with
  | nil => exact List.nodup_singleton _
  | cons r rows ih =>
    rw [List.map_cons, List.nodup_cons] at hids hg
    rw [List.forall_mem_cons] at h
    rw [putRow]
    split
    · rename_i hr
      rw [List.map_cons, List.nodup_cons]
      refine ⟨fun hmem ↦ ?_, hg.2⟩
      obtain ⟨q, hq, hqg⟩ := List.mem_map.1 hmem
      refine h.2 q hq (fun he ↦ ?_) hqg
      exact hids.1 ((hr.trans he.symm) ▸ List.mem_map_of_mem hq)
    · rename_i hr
      rw [List.map_cons, List.nodup_cons]
      refine ⟨fun hmem ↦ ?_, ih hids.2 hg.2 h.2⟩
      obtain ⟨q, hq, hqg⟩ := List.mem_map.1 hmem
      rcases (mem_putRow_iff hids.2).1 hq with rfl | ⟨hq, -⟩
      · exact h.1 hr hqg.symm
      · exact hg.1 (hqg ▸ List.mem_map_of_mem hq)

end Table

theorem le_foldr_max {ids : List Int} {n : Int} (h : n ∈ ids) : n ≤ ids.foldr max 0 := by
  induction ids with
  | nil => exact absurd h List.not_mem_nil
  | cons m ids ih =>
    rw [List.foldr_cons]
    rcases List.mem_cons.1 h with rfl | h
    · exact Int.le_max_left _ _
    · exact Int.le_trans (ih h) (Int.le_max_right _ _)

theorem lt_nextId {ids : List Int} {n : Int} (h : n ∈ ids) : n < nextId ids := by
  have := le_foldr_max h
  rw [nextId]
  omega

end Provisioning
