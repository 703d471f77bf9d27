import Provisioning.Value.Basic

namespace Provisioning

inductive Step where
  | key (name : String)
  | index (n : Nat)
  deriving DecidableEq, Repr

def Step.text : Step → String
  | key name => name
  | index n => toString n

abbrev Path := List Step

/-- The root of a request is called `payload`, and so is a place whose text would be empty. -/
def Path.text (p : Path) : String :=
  let s := String.intercalate "." (p.map Step.text)
  if s = "" then "payload" else s

inductive Form where
  | newCriteria | changes | band
  deriving DecidableEq, Repr

def Form.name : Form → String
  | newCriteria => "CriteriaCreatePayload"
  | changes => "CriteriaUpdatePayload"
  | band => "DefinitionPayload"

inductive ShapeFault where
  | missing
  | unknownKey
  /-- Something else stands where an object of this form was asked for by name. -/
  | notForm (form : Form)
  | notObject
  | notList
  | emptyList
  | notText
  | brokenText
  | emptyText
  | longText
  | notInteger
  | fractional
  | notIntegerText
  | integerTooLong
  | notFinite
  | notDecimalText
  | notNumeric
  deriving DecidableEq, Repr

def maxNameLength : Nat := 200

def maxIntegerText : Nat := 4300

def ShapeFault.message : ShapeFault → String
  | missing => "Field required"
  | unknownKey => "Extra inputs are not permitted"
  | notForm form => "Input should be a valid dictionary or instance of " ++ form.name
  | notObject => "Input should be a valid dictionary or object to extract fields from"
  | notList => "Input should be a valid list"
  | emptyList => "List should have at least 1 item after validation, not 0"
  | notText => "Input should be a valid string"
  | brokenText => "Input should be a valid string, unable to parse raw data as a unicode string"
  | emptyText => "String should have at least 1 character"
  | longText => "String should have at most 200 characters"
  | notInteger => "Input should be a valid integer"
  | fractional => "Input should be a valid integer, got a number with a fractional part"
  | notIntegerText => "Input should be a valid integer, unable to parse string as an integer"
  | integerTooLong => "Unable to parse input string as an integer, exceeded maximum size"
  | notFinite => "Input should be a finite number"
  | notDecimalText => "Input should be a valid decimal"
  | notNumeric => "Decimal input should be an integer, float, string or Decimal object"

structure Refusal where
  path : Path
  fault : ShapeFault
  deriving DecidableEq, Repr

def Refusal.under (s : Step) (r : Refusal) : Refusal := { r with path := s :: r.path }

end Provisioning
