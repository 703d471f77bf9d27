import Provisioning.Error

namespace Provisioning

structure Column where
  table : String
  name : String
  deriving DecidableEq, Repr

def Column.text (c : Column) : String := c.table ++ "." ++ c.name

def Column.ofCriteria (name : String) : Column := ⟨"m_provisioning_criteria", name⟩

def Column.ofBand (name : String) : Column := ⟨"m_provisioning_criteria_definition", name⟩

def Column.ofLink (name : String) : Column := ⟨"m_loanproduct_provisioning_mapping", name⟩

/-- The rules of the tables that a write can break. -/
inductive TableRule where
  | unique (columns : List Column)
  | notNull (column : Column)
  | check (columns : List Column)
  | foreignKey
  deriving DecidableEq, Repr

def columnTexts (columns : List Column) : String :=
  String.intercalate ", " (columns.map Column.text)

def TableRule.text : TableRule → String
  | unique columns => "UNIQUE constraint failed: " ++ columnTexts columns
  | notNull column => "NOT NULL constraint failed: " ++ column.text
  | check columns => "CHECK constraint failed: " ++ columnTexts columns
  | foreignKey => "FOREIGN KEY constraint failed"

namespace ConstraintKind

def markers : ConstraintKind → List String
  | criteriaName => ["uq_provisioning_criteria_name", (Column.ofCriteria "criteria_name").text]
  | productAssociation => ["uq_provisioning_product", (Column.ofLink "product_id").text]
  | other => []

def occursIn (marker text : List Char) : Bool :=
  match text with
  | [] => marker.isEmpty
  | c :: cs => marker.isPrefixOf (c :: cs) || occursIn marker cs

def isMeant (k : ConstraintKind) (constraint : Option String) (message : String) : Bool :=
  (match constraint with
    | some name => k.markers.contains name
    | none => false)
  || k.markers.any fun marker ↦ occursIn marker.toList message.toList

def classify (constraint : Option String) (message : String) : ConstraintKind :=
  ([criteriaName, productAssociation].find? fun k ↦ k.isMeant constraint message).getD other

end ConstraintKind

namespace Violation

def ofMessage (constraint : Option String) (message : String) : Violation :=
  ⟨.classify constraint message, message⟩

def ofRule (rule : TableRule) : Violation := ofMessage none rule.text

/-- What a client is told. `name` is the name that the client asked for. -/
def conflict (v : Violation) (name : Option String) : DomainError :=
  match v.kind with
  | .criteriaName => .nameTaken name
  | .productAssociation => .productTaken
  | .other => .integrity v.message

end Violation
end Provisioning
