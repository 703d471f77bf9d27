import Provisioning.Error

namespace Provisioning

inductive Lookup where
  | category (id : Int)
  | account (id : Int)
  | product (id : Int)
  deriving DecidableEq, Repr

structure Traced (α : Type) where
  lookups : List Lookup
  answer : Except Failure α

namespace Traced

def ofExcept (answer : Except Failure α) : Traced α := ⟨[], answer⟩

def check (answer : Except Problem α) : Traced α := ofExcept (answer.mapError .problem)

def bind (x : Traced α) (f : α → Traced β) : Traced β :=
  match x.answer with
  | .error e => ⟨x.lookups, .error e⟩
  | .ok a => ⟨x.lookups ++ (f a).lookups, (f a).answer⟩

instance : Monad Traced where
  pure a := ofExcept (.ok a)
  bind := bind

end Traced

structure Directory where
  category : Int → Except Failure Category
  account : Int → Except Failure Account
  product : Int → Except Failure Product

namespace Directory

def findCategory (d : Directory) (id : Int) : Traced Category := ⟨[.category id], d.category id⟩

def findAccount (d : Directory) (id : Int) : Traced Account := ⟨[.account id], d.account id⟩

def findProduct (d : Directory) (id : Int) : Traced Product := ⟨[.product id], d.product id⟩

/-- The last row of an id counts. -/
def findLast (id : α → Int) (rows : List α) (entity : Entity) (n : Int) : Except Failure α :=
  match rows.reverse.find? fun row ↦ id row == n with
  | some row => .ok row
  | none => .error (.unknown entity n)

def ofRows (categories : List Category) (accounts : List Account) (products : List Product) :
    Directory where
  category := findLast Category.id categories .category
  account := findLast Account.id accounts .account
  product := findLast Product.id products .product

end Directory
end Provisioning
