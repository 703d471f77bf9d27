namespace Provisioning

def insertAscending (n : Int) : List Int → List Int
  | [] => [n]
  | m :: ms =>
    if n < m then n :: m :: ms else if n = m then m :: ms else m :: insertAscending n ms

def ascending (ns : List Int) : List Int := ns.foldr insertAscending []

theorem mem_insertAscending {k n : Int} {ns : List Int} :
    k ∈ insertAscending n ns ↔ k = n ∨ k ∈ ns := by
  induction ns with
  | nil => simp [insertAscending]
  | cons m ms ih =>
    rw [insertAscending]
    split
    · simp
    · split
      · rename_i h
        simp [h]
      · simp only [List.mem_cons, ih]
        exact or_left_comm

@[simp]
theorem mem_ascending {k : Int} {ns : List Int} : k ∈ ascending ns ↔ k ∈ ns := by
  induction ns with
  | nil => simp [ascending]
  | cons n ns ih =>
    rw [ascending, List.foldr_cons, mem_insertAscending, ← ascending, ih, List.mem_cons]

theorem pairwise_insertAscending {n : Int} {ns : List Int} (h : ns.Pairwise (· < ·)) :
    (insertAscending n ns).Pairwise (· < ·) := by
  induction ns with
  | nil => simp [insertAscending]
  | cons m ms ih =>
    rw [List.pairwise_cons] at h
    rw [insertAscending]
    split
    · rename_i hn
      simp only [List.pairwise_cons, List.mem_cons, forall_eq_or_imp]
      exact ⟨⟨hn, fun k hk ↦ Int.lt_trans hn (h.1 k hk)⟩, h.1, h.2⟩
    · split
      · exact List.pairwise_cons.2 h
      · refine List.pairwise_cons.2 ⟨fun k hk ↦ ?_, ih h.2⟩
        rcases mem_insertAscending.1 hk with rfl | hk
        · omega
        · exact h.1 k hk

theorem pairwise_ascending (ns : List Int) : (ascending ns).Pairwise (· < ·) := by
  induction ns with
  | nil => simp [ascending]
  | cons n ns ih => exact pairwise_insertAscending ih

end Provisioning
