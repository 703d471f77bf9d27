import Provisioning.Conflict
import Mathlib.Data.List.Infix

namespace Provisioning

namespace ConstraintKind

variable {k : ConstraintKind} {constraint : Option String} {message : String}

theorem occursIn_eq_true_iff {marker text : List Char} :
    occursIn marker text = true ↔ marker <:+: text := by
  induction text with
  | nil => rw [occursIn, List.isEmpty_iff, List.infix_nil]
  | cons c cs ih =>
    rw [occursIn, Bool.or_eq_true, List.isPrefixOf_iff_prefix, ih, List.infix_cons_iff]

/-- The text holds a marker of this kind. -/
def Mentioned (k : ConstraintKind) (text : String) : Prop :=
  ∃ marker ∈ k.markers, marker.toList <:+: text.toList

theorem any_occursIn_iff :
    (k.markers.any fun marker ↦ occursIn marker.toList message.toList) = true ↔
      k.Mentioned message := by
  simp only [List.any_eq_true, occursIn_eq_true_iff, Mentioned]

instance (k : ConstraintKind) (text : String) : Decidable (k.Mentioned text) :=
  decidable_of_iff _ any_occursIn_iff

theorem isMeant_none_iff : k.isMeant none message = true ↔ k.Mentioned message := by
  rw [isMeant, Bool.false_or, any_occursIn_iff]

theorem isMeant_some_iff {name : String} :
    k.isMeant (some name) message = true ↔ name ∈ k.markers ∨ k.Mentioned message := by
  rw [isMeant, Bool.or_eq_true, any_occursIn_iff, List.contains_iff_mem]

/-- The name of a criteria is looked for first, then the link of a product. -/
theorem classify_eq :
    classify constraint message =
      if criteriaName.isMeant constraint message then criteriaName
      else if productAssociation.isMeant constraint message then productAssociation
      else other := by
  rw [classify, List.find?_cons, List.find?_cons, List.find?_nil]
  cases criteriaName.isMeant constraint message <;>
    cases productAssociation.isMeant constraint message <;> rfl

theorem classify_eq_productAssociation_iff :
    classify constraint message = productAssociation ↔
      ¬ criteriaName.isMeant constraint message = true ∧
        productAssociation.isMeant constraint message = true := by
  rw [classify_eq]
  split_ifs <;> simp_all

theorem classify_eq_other_iff :
    classify constraint message = other ↔
      ¬ criteriaName.isMeant constraint message = true ∧
        ¬ productAssociation.isMeant constraint message = true := by
  rw [classify_eq]
  split_ifs <;> simp_all

def ofConstraint (name : String) : ConstraintKind :=
  if name = "uq_provisioning_criteria_name" then criteriaName
  else if name = "uq_provisioning_product" then productAssociation
  else other

/-- The message mentions no kind that is looked for before this one. -/
def Unopposed (message : String) : ConstraintKind → Prop
  | criteriaName => True
  | productAssociation => ¬ criteriaName.Mentioned message
  | other => ¬ criteriaName.Mentioned message ∧ ¬ productAssociation.Mentioned message

instance (message : String) : (k : ConstraintKind) → Decidable (Unopposed message k)
  | criteriaName => .isTrue trivial
  | productAssociation => inferInstanceAs (Decidable (¬ criteriaName.Mentioned message))
  | other => inferInstanceAs (Decidable (_ ∧ _))

def columns : ConstraintKind → List Column
  | criteriaName => [.ofCriteria "criteria_name"]
  | productAssociation => [.ofLink "product_id"]
  | other => []

/-- A constraint that has the name of a column is taken for the one on that column. -/
theorem mem_markers_iff {name : String} (hk : k ≠ other) :
    name ∈ k.markers ↔ ofConstraint name = k ∨ ∃ c ∈ k.columns, name = c.text := by
  cases k with
  | criteriaName =>
    simp only [markers, columns, List.mem_cons, List.not_mem_nil, or_false, exists_eq_left]
    refine or_congr_left ⟨fun h ↦ if_pos h, fun h ↦ ?_⟩
    rw [ofConstraint] at h
    split_ifs at h with hname
    exact hname
  | productAssociation =>
    simp only [markers, columns, List.mem_cons, List.not_mem_nil, or_false, exists_eq_left]
    refine or_congr_left ⟨fun h ↦ ?_, fun h ↦ ?_⟩
    · rw [h]
      decide
    · rw [ofConstraint] at h
      split_ifs at h with hname hname'
      exact hname'
  | other => exact absurd rfl hk

theorem mem_markers_ofConstraint {name : String} (hk : k ≠ other) (h : ofConstraint name = k) :
    name ∈ k.markers := (mem_markers_iff hk).2 (.inl h)

/-- What the name says is what counts, if nothing in the message comes before it. -/
theorem classify_some_of_unopposed {name : String} (h : Unopposed message (ofConstraint name)) :
    classify (some name) message =
      if name ∈ criteriaName.markers then criteriaName
      else if name ∈ productAssociation.markers then productAssociation
      else other := by
  simp only [classify_eq, isMeant_some_iff]
  cases hname : ofConstraint name with
  | criteriaName =>
    have hmem : name ∈ criteriaName.markers := mem_markers_ofConstraint (by decide) hname
    rw [if_pos (.inl hmem), if_pos hmem]
  | productAssociation =>
    rw [hname] at h
    have hmem : name ∈ productAssociation.markers := mem_markers_ofConstraint (by decide) hname
    simp only [or_iff_left (show ¬ criteriaName.Mentioned message from h), hmem, true_or]
  | other =>
    rw [hname] at h
    simp only [or_iff_left h.1, or_iff_left h.2]

theorem unopposed_of_classify_eq {name : String}
    (h : classify (some name) message = ofConstraint name) :
    Unopposed message (ofConstraint name) := by
  cases hname : ofConstraint name with
  | criteriaName => trivial
  | productAssociation =>
    rw [hname, classify_eq_productAssociation_iff, isMeant_some_iff, not_or] at h
    exact h.1.2
  | other =>
    rw [hname, classify_eq_other_iff, isMeant_some_iff, isMeant_some_iff, not_or, not_or] at h
    exact ⟨h.1.2, h.2.2⟩

theorem classify_some_text_ne {c : Column} (hc : c ∈ k.columns) :
    classify (some c.text) message ≠ ofConstraint c.text := by
  have hother : ofConstraint c.text = other := by
    cases k <;> simp only [columns, List.mem_singleton, List.not_mem_nil] at hc <;> rw [hc] <;> decide
  have hk : k ≠ other := fun h ↦ absurd (h ▸ hc) List.not_mem_nil
  have hmeant : k.isMeant (some c.text) message = true :=
    isMeant_some_iff.2 (.inl ((mem_markers_iff hk).2 (.inr ⟨c, hc, rfl⟩)))
  rw [hother, Ne, classify_eq_other_iff]
  rintro ⟨hcriteria, hproduct⟩
  cases k with
  | criteriaName => exact hcriteria hmeant
  | productAssociation => exact hproduct hmeant
  | other => exact hk rfl

/-- The name of a constraint decides by itself exactly if it is not the name of a column and no
constraint that is looked for before it is mentioned. -/
theorem classify_some_eq_iff {name : String} :
    classify (some name) message = ofConstraint name ↔
      (∀ k : ConstraintKind, ∀ c ∈ k.columns, name ≠ c.text) ∧
        Unopposed message (ofConstraint name) := by
  constructor
  · intro h
    exact ⟨fun k c hc hname ↦ classify_some_text_ne hc (hname ▸ h), unopposed_of_classify_eq h⟩
  · rintro ⟨hcolumns, hunopposed⟩
    have hmem (k : ConstraintKind) (hk : k ≠ other) : name ∈ k.markers ↔ ofConstraint name = k := by
      rw [mem_markers_iff hk, or_iff_left]
      exact fun ⟨c, hc, hname⟩ ↦ hcolumns k c hc hname
    rw [classify_some_of_unopposed hunopposed]
    simp only [hmem criteriaName (by decide), hmem productAssociation (by decide)]
    cases ofConstraint name <;> rfl

end ConstraintKind

namespace Violation

theorem code_conflict_congr {v w : Violation} (h : v.kind = w.kind) (asked asked' : Option String) :
    (v.conflict asked).code = (w.conflict asked').code := by
  rw [conflict, conflict, h]
  cases w.kind <;> rfl

/-- A constraint whose name is known decides alone exactly where the message mentions no constraint
that is looked for before it; errors with its name and such messages are one kind of conflict. -/
theorem decided_by_constraint (name : String) :
    (∀ message, (ofMessage (some name) message).kind = .ofConstraint name ↔
      (∀ k : ConstraintKind, ∀ c ∈ k.columns, name ≠ c.text) ∧
        ConstraintKind.Unopposed message (.ofConstraint name)) ∧
    ∀ message message', ConstraintKind.Unopposed message (.ofConstraint name) →
      ConstraintKind.Unopposed message' (.ofConstraint name) →
        (ofMessage (some name) message).kind = (ofMessage (some name) message').kind ∧
        ∀ asked asked', ((ofMessage (some name) message).conflict asked).code =
          ((ofMessage (some name) message').conflict asked').code := by
  refine ⟨fun message ↦ ConstraintKind.classify_some_eq_iff, fun message message' h h' ↦ ?_⟩
  have hkind : (ofMessage (some name) message).kind = (ofMessage (some name) message').kind :=
    (ConstraintKind.classify_some_of_unopposed h).trans
      (ConstraintKind.classify_some_of_unopposed h').symm
  exact ⟨hkind, code_conflict_congr hkind⟩

theorem alike_of_product_constraint :
    let message := "duplicate key value violates unique constraint \"uq_provisioning_product\""
    let message' := "Key (product_id)=(1) already exists."
    ConstraintKind.Unopposed message (.ofConstraint "uq_provisioning_product") ∧
      ConstraintKind.Unopposed message' (.ofConstraint "uq_provisioning_product") ∧
      (ofMessage (some "uq_provisioning_product") message).kind = .productAssociation ∧
      (ofMessage (some "uq_provisioning_product") message).kind =
        (ofMessage (some "uq_provisioning_product") message').kind := by
  intro message message'
  have h : ConstraintKind.Unopposed message (.ofConstraint "uq_provisioning_product") := by
    decide +kernel
  have h' : ConstraintKind.Unopposed message' (.ofConstraint "uq_provisioning_product") := by
    decide +kernel
  obtain ⟨hname, halike⟩ := decided_by_constraint "uq_provisioning_product"
  have hcolumns : ∀ k : ConstraintKind, ∀ c ∈ k.columns, "uq_provisioning_product" ≠ c.text := by
    intro k
    cases k <;> decide
  exact ⟨h, h', (hname message).2 ⟨hcolumns, h⟩, (halike message message' h h').1⟩

/-- A criteria name that a client chose, quoted by the store, outweighs the name of the constraint. -/
theorem kind_of_quoted_constraint :
    let quoting := "violates check constraint \"name_length\": (7, uq_provisioning_product)"
    let silent := "violates check constraint \"name_length\": (7, Monthly)"
    ConstraintKind.ofConstraint "name_length" = .other ∧
      (ofMessage (some "name_length") silent).kind = .other ∧
      (ofMessage (some "name_length") quoting).kind = .productAssociation ∧
      ((ofMessage (some "name_length") quoting).conflict none).code ≠
        ((ofMessage (some "name_length") silent).conflict none).code := by
  decide +kernel

end Violation

end Provisioning
