import Provisioning.ChangeSet
import Mathlib.Data.List.Sort
import Provisioning.Ascending

namespace Provisioning

section Merge

variable {fields other : Value.Fields}

theorem insert_ne_nil (key : String) (v : Value) : fields.insert key v ≠ [] := by
  cases fields with
  | nil => exact List.cons_ne_nil _ _
  | cons f fields =>
    obtain ⟨k, w⟩ := f
    rw [Value.Fields.insert]
    split <;> exact List.cons_ne_nil _ _

theorem merge_eq_nil_iff : fields.merge other = [] ↔ fields = [] ∧ other = [] := by
  rw [Value.Fields.merge]
  induction other generalizing fields with
  | nil => simp
  | cons f other ih =>
    rw [List.foldl_cons, ih]
    exact iff_of_false (fun h ↦ insert_ne_nil _ _ h.1) fun h ↦ List.cons_ne_nil _ _ h.2

end Merge

namespace ChangeSet

variable {ch ch' : ChangeSet} {key k : String} {v : Option Value}

theorem isEmpty_iff : ch.isEmpty = true ↔ ch.changes = [] := List.isEmpty_iff

theorem isEmpty_merge_iff : (ch.merge ch').isEmpty = true ↔ ch.isEmpty = true ∧ ch'.isEmpty = true := by
  simp only [isEmpty_iff, merge, merge_eq_nil_iff]

def single (key : String) (v : Option Value) : ChangeSet := ⟨v.toList.map (Prod.mk key)⟩

@[simp]
theorem isEmpty_single : (single key v).isEmpty = v.isNone := by cases v <;> rfl

theorem get?_single : (single key v).get? k = if k = key then v else none := by
  cases v with
  | none => exact (ite_self none).symm
  | some w =>
    by_cases h : k = key
    · simp [single, get?, Value.Fields.get?, h]
    · simp [single, get?, Value.Fields.get?, List.lookup_cons, h, beq_eq_false_iff_ne.2 h]

theorem merge_single_none : ch.merge (single key none) = ch := rfl

theorem get?_merge_single :
    (ch.merge (single key v)).get? k = if k = key then v.or (ch.get? key) else ch.get? k := by
  cases v with
  | none =>
    rw [merge_single_none, Option.none_or]
    split
    · rw [‹k = key›]
    · rfl
  | some w =>
    change (ch.changes.insert key w).get? k = _
    rw [Value.Fields.get?_insert]
    rfl

end ChangeSet

section Changes

def nameChange (old new : String) : Option Value := if new = old then none else some (.str new)

theorem nameChange_eq_none_iff {old new : String} : nameChange old new = none ↔ new = old := by
  simp [nameChange]

def lacking (ns ms : List Int) : List Int := ascending (ms.filter fun n ↦ !ns.contains n)

theorem mem_lacking_iff {ns ms : List Int} {n : Int} : n ∈ lacking ns ms ↔ n ∈ ms ∧ n ∉ ns := by
  simp [lacking]

def productChange (old new : List Int) : Option Value :=
  if lacking old new = [] ∧ lacking new old = [] then none
  else some (.object [("added", .ofInts (lacking old new)), ("removed", .ofInts (lacking new old))])

theorem productChange_eq_none_iff {old new : List Int} :
    productChange old new = none ↔ ∀ n, n ∈ new ↔ n ∈ old := by
  simp only [productChange, ite_eq_left_iff, reduceCtorEq, imp_false, not_not,
    List.eq_nil_iff_forall_not_mem, mem_lacking_iff]
  constructor
  · rintro ⟨hadded, hremoved⟩ n
    have := hadded n
    have := hremoved n
    tauto
  · intro h
    simp [h]

/-- A `null` stands for a band that is new. -/
def bandChange (ids : List (Option Int)) : Option Value :=
  if ids = [] then none else some (.list (ids.map (Value.optional .int)))

theorem bandChange_eq_none_iff {ids : List (Option Int)} : bandChange ids = none ↔ ids = [] := by
  simp [bandChange]

end Changes
end Provisioning
