import Provisioning.Percentage

namespace Provisioning

/-- What a band remembers of an account, as it was when the band was written. -/
structure AccountCopy where
  id : Int
  code : String
  name : String
  deriving DecidableEq, Repr

def Account.copy (a : Account) : AccountCopy := ⟨a.id, a.glCode, a.name⟩

structure Band where
  id : Option Int
  categoryId : Int
  categoryName : String
  minAge : Int
  maxAge : Int
  percentage : Decimal
  liability : AccountCopy
  expense : AccountCopy
  deriving DecidableEq, Repr

structure BandRequest where
  id : Option Int
  categoryId : Int
  minAge : Value
  maxAge : Value
  percentage : Value
  liability : Int
  expense : Int

namespace Band

def ages (b : Band) : AgeRange := ⟨b.minAge, b.maxAge⟩

def overlaps (a b : Band) : Bool :=
  a.categoryId == b.categoryId && decide (a.minAge < b.maxAge) && decide (b.minAge < a.maxAge)

def Covers (b : Band) (category day : Int) : Prop :=
  b.categoryId = category ∧ b.minAge ≤ day ∧ day < b.maxAge

/-- Bands with the same id are versions of one band. -/
def isVersionOf (a b : Band) : Bool := a.id.isSome && b.id == a.id

/-- The bands agree in everything, percentages as numbers. -/
def same (a b : Band) : Bool :=
  { a with percentage := b.percentage } == b && a.percentage.eqv b.percentage

def overlapProblem (b other : Band) : Problem := .overlap b.ages other.ages b.categoryName

def checkNoOverlap (b : Band) (others : List Band) : Except Problem Unit :=
  match others.find? fun o ↦ !b.isVersionOf o && b.overlaps o with
  | some o => .error (b.overlapProblem o)
  | none => .ok ()

end Band

def checkBands : List Band → Except Problem Unit
  | [] => .ok ()
  | b :: bands =>
    match b.checkNoOverlap bands with
    | .error p => .error p
    | .ok () => checkBands bands

def Value.natural? : Value → Option Int
  | .int n => if 0 ≤ n then some n else none
  | _ => none

def checkAges (minAge maxAge : Value) : Except Problem AgeRange :=
  match minAge.natural?, maxAge.natural? with
  | none, _ => .error (.minAge minAge)
  | _, none => .error (.maxAge maxAge)
  | some low, some high => if low < high then .ok ⟨low, high⟩ else .error (.emptyRange ⟨low, high⟩)

def checkAccounts (liability expense : Account) : Except Problem Unit :=
  if !liability.isLiability then .error (.notLiability liability)
  else if !expense.isExpense then .error (.notExpense expense)
  else .ok ()

/-- The requested band, once every rule holds. `id` overrides the id of the request. -/
def BandRequest.build (r : BandRequest) (category : Category) (liability expense : Account)
    (others : List Band) (id : Option Int) : Except Problem Band := do
  let ages ← checkAges r.minAge r.maxAge
  let percentage ← checkPercentage r.percentage
  checkAccounts liability expense
  let band : Band := {
    id := id.or r.id
    categoryId := category.id
    categoryName := category.name
    minAge := ages.low
    maxAge := ages.high
    percentage
    liability := liability.copy
    expense := expense.copy }
  band.checkNoOverlap others
  return band

end Provisioning
