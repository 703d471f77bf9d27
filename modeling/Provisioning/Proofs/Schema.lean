import Provisioning.Proofs.Conflict
import Mathlib.Data.List.Basic

namespace Provisioning

section Infix

variable {α : Type} {sep : α}

theorem infix_append_cons_iff {w a b : List α} (hsep : sep ∉ w) :
    w <:+: a ++ sep :: b ↔ w <:+: a ∨ w <:+: b := by
  have hfirst {v : List α} (hv : sep ∉ v) (h : v <+: sep :: b) : v = [] := by
    rcases List.prefix_cons_iff.1 h with hnil | ⟨u, rfl, -⟩
    · exact hnil
    · exact absurd List.mem_cons_self hv
  constructor
  · intro h
    rcases List.infix_append_iff.1 h with h | h | ⟨u, v, rfl, hu, hv⟩
    · exact .inl h
    · rcases List.infix_cons_iff.1 h with h | h
      · rw [hfirst hsep h]
        exact .inl List.nil_infix
      · exact .inr h
    · rw [hfirst (fun h ↦ hsep (List.mem_append_right u h)) hv, List.append_nil]
      exact .inl hu.isInfix
  · intro h
    rcases h with h | h
    · exact h.trans (List.prefix_append a (sep :: b)).isInfix
    · exact h.trans ((List.suffix_cons sep b).trans (List.suffix_append a (sep :: b))).isInfix

/-- If only one separator is there, it is the one of the word. -/
theorem prefix_of_append_cons_infix {a b c d : List α} (hc : sep ∉ c) (hd : sep ∉ d)
    (h : a ++ sep :: b <:+: c ++ sep :: d) : b <+: d := by
  obtain ⟨u, v, h⟩ := h
  have hsplit : c ++ sep :: d = (u ++ a) ++ sep :: (b ++ v) := by simp [← h]
  obtain ⟨-, -, rfl⟩ := (List.append_cons_inj_of_notMem hc hd).1 hsplit
  exact List.prefix_append b v

end Infix

def schema : List (String × List String) := [
  ("m_provision_category", ["id", "category_name", "description"]),
  ("acc_gl_account", ["id", "name", "gl_code", "classification_enum"]),
  ("m_product_loan", ["id", "name"]),
  ("m_loanproduct_provisioning_mapping", ["criteria_id", "product_id"]),
  ("m_provisioning_criteria", ["id", "criteria_name", "created_at", "updated_at"]),
  ("m_provisioning_criteria_definition", ["id", "criteria_id", "category_id", "min_age", "max_age",
    "provision_percentage", "liability_account", "liability_code", "liability_name",
    "expense_account", "expense_code", "expense_name"]),
  ("m_provisioning_history", ["id", "criteria_id", "journal_entry_created", "created_at"])]

namespace Column

def all : List Column := schema.flatMap fun (table, names) ↦ names.map (Column.mk table)

theorem mem_all_iff {c : Column} : c ∈ all ↔ ∃ p ∈ schema, p.1 = c.table ∧ c.name ∈ p.2 := by
  simp only [all, List.mem_flatMap, List.mem_map]
  constructor
  · rintro ⟨p, hp, name, hname, rfl⟩
    exact ⟨p, hp, rfl, hname⟩
  · rintro ⟨p, hp, htable, hname⟩
    exact ⟨p, hp, c.name, hname, by rw [htable]⟩

theorem toList_text (c : Column) : c.text.toList = c.table.toList ++ '.' :: c.name.toList := by
  simp [text, String.toList_append]

end Column

theorem schema_spec : ∀ p ∈ schema, ('.' ∉ p.1.toList ∧ 'q' ∉ p.1.toList) ∧
    ∀ name ∈ p.2, ('.' ∉ name.toList ∧ 'q' ∉ name.toList) ∧
      ("criteria_name".toList <+: name.toList → Column.mk p.1 name = .ofCriteria "criteria_name") ∧
      ("product_id".toList <+: name.toList → Column.mk p.1 name = .ofLink "product_id") := by
  decide +kernel

namespace TableRule

def columns : TableRule → List Column
  | unique columns => columns
  | notNull column => [column]
  | check columns => columns
  | foreignKey => []

/-- What a broken rule is evidence of: a value is there already only where it has to be unique. -/
def kind : TableRule → ConstraintKind
  | unique columns =>
    if .ofCriteria "criteria_name" ∈ columns then .criteriaName
    else if .ofLink "product_id" ∈ columns then .productAssociation
    else .other
  | _ => .other

def InSchema (rule : TableRule) : Prop := ∀ c ∈ rule.columns, c ∈ Column.all

instance (rule : TableRule) : Decidable rule.InSchema :=
  inferInstanceAs (Decidable (∀ c ∈ rule.columns, c ∈ Column.all))

end TableRule

namespace ConstraintKind

variable {k : ConstraintKind}

theorem mem_markers_spec (k : ConstraintKind) :
    ∀ marker ∈ k.markers, '_' ∈ marker.toList ∧ ' ' ∉ marker.toList ∧ ',' ∉ marker.toList := by
  cases k <;> decide +kernel

theorem not_mentioned_of_not_mem {text : String} (h : '_' ∉ text.toList) : ¬ k.Mentioned text := by
  rintro ⟨marker, hmarker, hin⟩
  exact h (hin.subset (mem_markers_spec k marker hmarker).1)

/-- No marker spans a blank or a comma. -/
theorem mentioned_iff_of_toList {text a b : String} {sep : Char} (hsep : sep = ' ' ∨ sep = ',')
    (h : text.toList = a.toList ++ sep :: b.toList) :
    k.Mentioned text ↔ k.Mentioned a ∨ k.Mentioned b := by
  have hnot : ∀ marker ∈ k.markers, sep ∉ marker.toList := by
    intro marker hmarker
    obtain ⟨-, hblank, hcomma⟩ := mem_markers_spec k marker hmarker
    rcases hsep with rfl | rfl
    · exact hblank
    · exact hcomma
  simp only [Mentioned, h]
  constructor
  · rintro ⟨marker, hmarker, hin⟩
    exact ((infix_append_cons_iff (hnot marker hmarker)).1 hin).imp (⟨marker, hmarker, ·⟩)
      (⟨marker, hmarker, ·⟩)
  · rintro (⟨marker, hmarker, hin⟩ | ⟨marker, hmarker, hin⟩)
    · exact ⟨marker, hmarker, (infix_append_cons_iff (hnot marker hmarker)).2 (.inl hin)⟩
    · exact ⟨marker, hmarker, (infix_append_cons_iff (hnot marker hmarker)).2 (.inr hin)⟩

theorem not_mentioned_empty : ¬ k.Mentioned "" := not_mentioned_of_not_mem (by simp)

theorem mentioned_columnTexts_iff {columns : List Column} :
    k.Mentioned (columnTexts columns) ↔ ∃ c ∈ columns, k.Mentioned c.text := by
  induction columns with
  | nil => simpa [columnTexts] using not_mentioned_empty
  | cons c columns ih =>
    cases columns with
    | nil => simp [columnTexts]
    | cons d columns =>
      have htext : (columnTexts (c :: d :: columns)).toList =
          c.text.toList ++ ',' :: (" " ++ columnTexts (d :: columns)).toList := by
        simp [columnTexts, String.toList_append]
      have hrest : (" " ++ columnTexts (d :: columns)).toList =
          "".toList ++ ' ' :: (columnTexts (d :: columns)).toList := by
        simp
      rw [mentioned_iff_of_toList (.inr rfl) htext, mentioned_iff_of_toList (.inl rfl) hrest,
        or_iff_right not_mentioned_empty, ih]
      exact (List.exists_mem_cons_iff (fun c : Column ↦ k.Mentioned c.text) _ _).symm

theorem mentioned_text_iff (rule : TableRule) :
    k.Mentioned rule.text ↔ ∃ c ∈ rule.columns, k.Mentioned c.text := by
  have hlead {lead words columns : String} (hlead : lead.toList = words.toList ++ [' '])
      (hwords : '_' ∉ words.toList) : k.Mentioned (lead ++ columns) ↔ k.Mentioned columns := by
    have htext : (lead ++ columns).toList = words.toList ++ ' ' :: columns.toList := by
      rw [String.toList_append, hlead, List.append_assoc, List.singleton_append]
    rw [mentioned_iff_of_toList (.inl rfl) htext, or_iff_right (not_mentioned_of_not_mem hwords)]
  cases rule with
  | unique columns =>
    have hwords : '_' ∉ "UNIQUE constraint failed:".toList := by decide +kernel
    exact (hlead (by decide +kernel) hwords).trans mentioned_columnTexts_iff
  | notNull column =>
    have hwords : '_' ∉ "NOT NULL constraint failed:".toList := by decide +kernel
    refine (hlead (by decide +kernel) hwords).trans ?_
    simp [TableRule.columns]
  | check columns =>
    have hwords : '_' ∉ "CHECK constraint failed:".toList := by decide +kernel
    exact (hlead (by decide +kernel) hwords).trans mentioned_columnTexts_iff
  | foreignKey =>
    have hwords : '_' ∉ "FOREIGN KEY constraint failed".toList := by decide +kernel
    refine iff_of_false (not_mentioned_of_not_mem hwords) ?_
    rintro ⟨c, hc, -⟩
    exact absurd hc List.not_mem_nil

theorem mentioned_column_iff {c : Column} (hc : c ∈ Column.all) :
    k.Mentioned c.text ↔ c ∈ k.columns := by
  obtain ⟨p, hp, htable, hname⟩ := Column.mem_all_iff.1 hc
  obtain ⟨⟨hpoint, hq⟩, hnames⟩ := schema_spec p hp
  obtain ⟨⟨hpoint', hq'⟩, hcriteria, hproduct⟩ := hnames c.name hname
  rw [htable] at hpoint hq hcriteria hproduct
  have hconstraint {name : String} (hmem : 'q' ∈ name.toList) : ¬ name.toList <:+: c.text.toList := by
    intro hin
    have hin := hin.subset hmem
    rw [Column.toList_text, List.mem_append, List.mem_cons] at hin
    rcases hin with h | h | h
    · exact hq h
    · exact absurd h (by decide)
    · exact hq' h
  have hcolumn {d : Column} (hin : d.text.toList <:+: c.text.toList) : d.name.toList <+: c.name.toList := by
    rw [Column.toList_text, Column.toList_text] at hin
    exact prefix_of_append_cons_infix hpoint hpoint' hin
  cases k with
  | criteriaName =>
    have hmem : 'q' ∈ "uq_provisioning_criteria_name".toList := by decide +kernel
    simp only [Mentioned, markers, columns, List.mem_cons, List.not_mem_nil, or_false, exists_eq_or_imp,
      exists_eq_left, or_iff_right (hconstraint hmem)]
    refine ⟨fun h ↦ hcriteria (hcolumn (d := .ofCriteria "criteria_name") h), fun h ↦ ?_⟩
    rw [h]
  | productAssociation =>
    have hmem : 'q' ∈ "uq_provisioning_product".toList := by decide +kernel
    simp only [Mentioned, markers, columns, List.mem_cons, List.not_mem_nil, or_false, exists_eq_or_imp,
      exists_eq_left, or_iff_right (hconstraint hmem)]
    refine ⟨fun h ↦ hproduct (hcolumn (d := .ofLink "product_id") h), fun h ↦ ?_⟩
    rw [h]
  | other =>
    refine iff_of_false ?_ List.not_mem_nil
    rintro ⟨marker, hmarker, -⟩
    exact absurd hmarker List.not_mem_nil

theorem mentioned_rule_iff {rule : TableRule} (h : rule.InSchema) :
    k.Mentioned rule.text ↔ ∃ c ∈ k.columns, c ∈ rule.columns := by
  rw [mentioned_text_iff]
  constructor
  · rintro ⟨c, hc, hin⟩
    exact ⟨c, (mentioned_column_iff (h c hc)).1 hin, hc⟩
  · rintro ⟨c, hc, hin⟩
    exact ⟨c, hin, (mentioned_column_iff (h c hin)).2 hc⟩

end ConstraintKind

namespace Violation

variable {rule : TableRule}

theorem kind_ofRule (h : rule.InSchema) :
    (ofRule rule).kind =
      if .ofCriteria "criteria_name" ∈ rule.columns then .criteriaName
      else if .ofLink "product_id" ∈ rule.columns then .productAssociation
      else .other := by
  simp only [ofRule, ofMessage, ConstraintKind.classify_eq, ConstraintKind.isMeant_none_iff,
    ConstraintKind.mentioned_rule_iff h, ConstraintKind.columns, List.mem_singleton, exists_eq_left]

theorem kind_ofRule_eq_criteriaName_iff (h : rule.InSchema) :
    (ofRule rule).kind = .criteriaName ↔ .ofCriteria "criteria_name" ∈ rule.columns := by
  rw [kind_ofRule h]
  split_ifs <;> simp_all

theorem kind_ofRule_eq_productAssociation_iff (h : rule.InSchema) :
    (ofRule rule).kind = .productAssociation ↔
      .ofCriteria "criteria_name" ∉ rule.columns ∧ .ofLink "product_id" ∈ rule.columns := by
  rw [kind_ofRule h]
  split_ifs <;> simp_all

/-- The kind is right for all rules that are about no marked column, and for those that say that a
value has to be unique. -/
theorem kind_ofRule_eq_kind_iff (h : rule.InSchema) :
    (ofRule rule).kind = rule.kind ↔
      (∃ columns, rule = .unique columns) ∨ ∀ k : ConstraintKind, ∀ c ∈ k.columns, c ∉ rule.columns := by
  have hmarked : (∀ k : ConstraintKind, ∀ c ∈ k.columns, c ∉ rule.columns) ↔
      .ofCriteria "criteria_name" ∉ rule.columns ∧ .ofLink "product_id" ∉ rule.columns := by
    constructor
    · intro hfree
      exact ⟨hfree .criteriaName _ (List.mem_singleton_self _),
        hfree .productAssociation _ (List.mem_singleton_self _)⟩
    · rintro ⟨hcriteria, hproduct⟩ k
      cases k <;> simp [ConstraintKind.columns, hcriteria, hproduct]
  have hother : (ofRule rule).kind = .other ↔
      .ofCriteria "criteria_name" ∉ rule.columns ∧ .ofLink "product_id" ∉ rule.columns := by
    rw [kind_ofRule h]
    split_ifs <;> simp_all
  have hnot (hkind : rule.kind = .other) (hunique : ∀ columns, rule ≠ .unique columns) :
      (ofRule rule).kind = rule.kind ↔ (∃ columns, rule = .unique columns) ∨
        .ofCriteria "criteria_name" ∉ rule.columns ∧ .ofLink "product_id" ∉ rule.columns := by
    rw [hkind, hother, or_iff_right (not_exists.2 hunique)]
  rw [hmarked]
  cases rule with
  | unique columns => exact iff_of_true (kind_ofRule h) (.inl ⟨columns, rfl⟩)
  | notNull column => exact hnot rfl fun columns h ↦ by cases h
  | check columns => exact hnot rfl fun columns h ↦ by cases h
  | foreignKey => exact hnot rfl fun columns h ↦ by cases h

end Violation

end Provisioning
