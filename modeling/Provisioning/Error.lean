import Provisioning.Reference
import Provisioning.Shape
import Provisioning.Value.Shown

namespace Provisioning

structure AgeRange where
  low : Int
  high : Int
  deriving DecidableEq, Repr

def AgeRange.text (r : AgeRange) : String := s!"[{r.low}, {r.high})"

def AgeRange.canShow (r : AgeRange) : Bool := Value.canWrite r.low && Value.canWrite r.high

inductive Problem where
  | minAge (got : Value)
  | maxAge (got : Value)
  | emptyRange (ages : AgeRange)
  | notDecimal (got : Value)
  | outOfRange (got : Value)
  | tooPrecise (got : Value)
  | notLiability (account : Account)
  | notExpense (account : Account)
  | overlap (band other : AgeRange) (category : String)
  | blankName
  | longName
  | noBands
  | shape (refusal : Refusal)
  | other (field text : String)

def Problem.field : Problem → String
  | minAge _ => "min_age"
  | maxAge _ | emptyRange _ => "max_age"
  | notDecimal _ | outOfRange _ | tooPrecise _ => "provisioning_percentage"
  | notLiability _ => "liability_account"
  | notExpense _ => "expense_account"
  | overlap .. | noBands => "definitions"
  | blankName | longName => "criteria_name"
  | shape r => r.path.text
  | other field _ => field

def Problem.text : Problem → String
  | minAge got | maxAge got => "must be a non-negative integer, got " ++ got.inspected
  | emptyRange r => s!"must be greater than min_age ({r.low}), got {r.high}"
  | notDecimal got => "must be a decimal number, got " ++ got.inspected
  | outOfRange got => "must be between 0 and 100, got " ++ got.display
  | tooPrecise got => "must have at most 6 decimal places, got " ++ got.display
  | notLiability a => s!"GL account {a.id} is {a.kind.name}, expected LIABILITY"
  | notExpense a => s!"GL account {a.id} is {a.kind.name}, expected EXPENSE"
  | overlap b o category =>
    "age band " ++ b.text ++ " overlaps " ++ o.text ++ " for category " ++ category
  | blankName => "must not be blank"
  | longName => "must be at most 200 characters"
  | noBands => "at least one definition is required"
  | shape r => r.fault.message
  | other _ text => text

def Problem.canShow : Problem → Bool
  | minAge got | maxAge got | notDecimal got | outOfRange got | tooPrecise got => got.canShow
  | emptyRange r => r.canShow
  | notLiability a | notExpense a => Value.canWrite a.id
  | overlap b o _ => b.canShow && o.canShow
  | _ => true

inductive Entity where
  | resource | category | account | product | criteria | band
  deriving DecidableEq, Repr

def Entity.title : Entity → String
  | resource => "Resource"
  | category => "Provisioning category"
  | account => "Gl account"
  | product => "Loan product"
  | criteria => "Provisioning criteria"
  | band => "Provisioning criteria definition"

inductive DomainError where
  | general (text : String)
  | invalid (problem : Problem)
  | notFound (entity : Entity) (id : Value)
  | conflict (text : String)
  | nameTaken (name : Option String)
  | productTaken
  | inUse (criteria : Value)
  | integrity (cause : String)

namespace DomainError

def message : DomainError → String
  | general text | conflict text => text
  | invalid p => p.field ++ ": " ++ p.text
  | notFound entity id => entity.title ++ " with identifier " ++ id.display ++ " does not exist"
  | nameTaken name =>
    "Provisioning Criteria with name `" ++ name.getD "None" ++ "` already exists"
  | productTaken => "The selected products already associated with another Provisioning Criteria"
  | inUse criteria =>
    "Provisioning Criteria with identifier " ++ criteria.display
      ++ " cannot be deleted as it is already used in loan provisioning"
  | integrity cause => "Unknown data integrity issue with resource: " ++ cause

def canShow : DomainError → Bool
  | invalid p => p.canShow
  | notFound _ id | inUse id => id.canShow
  | _ => true

def code : DomainError → String
  | general _ => "error.msg.provisioning.domain"
  | invalid _ => "error.msg.provisioning.validation"
  | notFound .resource _ => "error.msg.provisioning.not.found"
  | notFound .category _ => "error.msg.provisioning.category.id.invalid"
  | notFound .account _ => "error.msg.glaccount.id.invalid"
  | notFound .product _ => "error.msg.loanproduct.id.invalid"
  | notFound .criteria _ => "error.msg.provisioning.criteria.id.invalid"
  | notFound .band _ => "error.msg.provisioning.definition.id.invalid"
  | conflict _ => "error.msg.provisioning.conflict"
  | nameTaken _ => "error.msg.provisioning.duplicate.criterianame"
  | productTaken =>
    "error.msg.provisioning.product.id(s).already.associated.existing.criteria"
  | inUse _ => "error.msg.provisioning.criteria.cannot.be.deleted"
  | integrity _ => "error.msg.provisioning.unknown.data.integrity.issue"

end DomainError

inductive ConstraintKind where
  | criteriaName | productAssociation | other
  deriving DecidableEq, Repr

def ConstraintKind.name : ConstraintKind → String
  | criteriaName => "criteria_name"
  | productAssociation => "product_association"
  | other => "other"

def ConstraintKind.ofName? (s : String) : Option ConstraintKind :=
  [criteriaName, productAssociation, other].find? fun k ↦ k.name == s

structure Violation where
  kind : ConstraintKind
  message : String
  deriving DecidableEq, Repr

inductive Failure where
  | domain (e : DomainError)
  | violation (v : Violation)
  /-- An integer that needs more than 64 bits reached the store. -/
  | tooLarge
  | unknownKind (code : Int)
  | lostCategory
  /-- A text was to hold a whole number that cannot be written. -/
  | unwritable
  /-- The store stopped for a reason of its own. -/
  | halted (text : String)

/-- An error is raised with its text, so that one that cannot be written is never told. -/
def Failure.ofError (e : DomainError) : Failure := if e.canShow then .domain e else .unwritable

def Failure.problem (p : Problem) : Failure := .ofError (.invalid p)

def Failure.unknown (entity : Entity) (id : Int) : Failure := .ofError (.notFound entity (.int id))

/-- What the store misses was asked for by an id that it takes, and so can be told. -/
def Failure.missing (entity : Entity) (id : Int) : Failure := .domain (.notFound entity (.int id))

end Provisioning
