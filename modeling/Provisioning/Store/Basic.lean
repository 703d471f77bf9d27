import Provisioning.Conflict
import Provisioning.Criteria
import Provisioning.Directory
import Provisioning.Double.Basic

namespace Provisioning

structure AccountRow where
  id : Int
  name : String
  glCode : String
  kind : Int
  deriving DecidableEq, Repr

def AccountRow.account (r : AccountRow) : Except Failure Account :=
  match AccountKind.ofCode? r.kind with
  | some kind => .ok ⟨r.id, r.name, r.glCode, kind⟩
  | none => .error (.unknownKind r.kind)

structure Header where
  id : Int
  name : String
  deriving DecidableEq, Repr

structure BandRow where
  id : Int
  criteriaId : Int
  categoryId : Int
  minAge : Int
  maxAge : Int
  percentage : Decimal
  liability : AccountCopy
  expense : AccountCopy
  deriving DecidableEq, Repr

structure Link where
  criteriaId : Int
  productId : Int
  deriving DecidableEq, Repr

/-- Headers and bands are in the order of their ids. An entry is the id of the criteria it uses. -/
structure Store where
  foreignKeys : Bool
  categories : List Category
  accounts : List AccountRow
  products : List Product
  headers : List Header
  bands : List BandRow
  links : List Link
  entries : List Int
  deriving DecidableEq, Repr

/-- The integers that the store takes, from `-2 ^ 63` to below `2 ^ 63`. -/
def inWord (n : Int) : Bool := -9223372036854775808 ≤ n && n < 9223372036854775808

def nextId (ids : List Int) : Int := ids.foldr max 0 + 1

def findRow (id : α → Int) (rows : List α) (n : Int) : Except Failure (Option α) :=
  if inWord n then .ok (rows.find? fun row ↦ id row == n) else .error .tooLarge

def getRow (id : α → Int) (rows : List α) (entity : Entity) (n : Int) : Except Failure α := do
  match ← findRow id rows n with
  | some row => return row
  | none => throw (.missing entity n)

/-- Puts a row in the place of the one with its id, or after all rows. -/
def putRow (id : α → Int) (row : α) : List α → List α
  | [] => [row]
  | r :: rows => if id r = id row then row :: rows else r :: putRow id row rows

namespace Store

def category (s : Store) (id : Int) : Except Failure Category :=
  getRow Category.id s.categories .category id

def account (s : Store) (id : Int) : Except Failure Account := do
  (← getRow AccountRow.id s.accounts .account id).account

def product (s : Store) (id : Int) : Except Failure Product :=
  getRow Product.id s.products .product id

def directory (s : Store) : Directory := ⟨s.category, s.account, s.product⟩

def bandsOf (s : Store) (id : Int) : List BandRow := s.bands.filter fun r ↦ r.criteriaId == id

/-- The products that a criteria is linked to, by id. A link to a product that is gone does not
count. -/
def productsOf (s : Store) (id : Int) : List Product :=
  (ascending ((s.links.filter fun l ↦ l.criteriaId == id).map Link.productId)).filterMap fun n ↦
    s.products.find? fun p ↦ p.id == n

def readBand (s : Store) (r : BandRow) : Except Failure Band :=
  match s.categories.find? fun c ↦ c.id == r.categoryId with
  | none => .error .lostCategory
  | some category => .ok {
      id := some r.id
      categoryId := r.categoryId
      categoryName := category.name
      minAge := r.minAge
      maxAge := r.maxAge
      percentage := r.percentage
      liability := r.liability
      expense := r.expense }

def read (s : Store) (h : Header) : Except Failure Criteria := do
  let bands ← (s.bandsOf h.id).mapM s.readBand
  return ⟨some h.id, h.name, bands, s.productsOf h.id⟩

def find? (s : Store) (id : Int) : Except Failure (Option Criteria) := do
  match ← findRow Header.id s.headers id with
  | none => return none
  | some h => some <$> s.read h

def get (s : Store) (id : Int) : Except Failure Criteria := do
  s.read (← getRow Header.id s.headers .criteria id)

def all (s : Store) : Except Failure (List Criteria) := s.headers.mapM s.read

def isUsed (s : Store) (id : Int) : Except Failure Bool :=
  if inWord id then .ok (s.entries.contains id) else .error .tooLarge

def addEntry (s : Store) (id : Int) : Except Failure Store :=
  if !inWord id then .error .tooLarge
  else if s.foreignKeys && !(s.headers.any fun h ↦ h.id == id) then
    .error (.violation (.ofRule .foreignKey))
  else .ok { s with entries := s.entries ++ [id] }

def putCategory (s : Store) (c : Category) : Store :=
  { s with categories := putRow Category.id c s.categories }

def putAccount (s : Store) (a : AccountRow) : Store :=
  { s with accounts := putRow AccountRow.id a s.accounts }

def putProduct (s : Store) (p : Product) : Store :=
  { s with products := putRow Product.id p s.products }

def unreferenced (s : Store) (referred : Bool) : Except Failure Unit :=
  if s.foreignKeys && referred then .error (.violation (.ofRule .foreignKey)) else .ok ()

def dropCategory (s : Store) (id : Int) : Except Failure Store := do
  s.unreferenced (s.bands.any fun r ↦ r.categoryId == id)
  return { s with categories := s.categories.filter fun c ↦ c.id != id }

def dropAccount (s : Store) (id : Int) : Except Failure Store := do
  s.unreferenced (s.bands.any fun r ↦ r.liability.id == id || r.expense.id == id)
  return { s with accounts := s.accounts.filter fun a ↦ a.id != id }

def dropProduct (s : Store) (id : Int) : Except Failure Store := do
  s.unreferenced (s.links.any fun l ↦ l.productId == id)
  return { s with products := s.products.filter fun p ↦ p.id != id }

/-- Removes a criteria with its bands and links. Unless foreign keys are checked, links to products
that are gone stay. -/
def delete (s : Store) (id : Int) : Except Failure Store := do
  let h ← getRow Header.id s.headers .criteria id
  s.unreferenced (s.entries.contains h.id)
  return { s with
    headers := s.headers.filter fun r ↦ r.id != id
    bands := s.bands.filter fun r ↦ r.criteriaId != id
    links := s.links.filter fun l ↦
      l.criteriaId != id || !s.foreignKeys && !(s.products.any fun p ↦ p.id == l.productId) }

end Store
end Provisioning
