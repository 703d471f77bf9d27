import Provisioning.Ascending
import Provisioning.Band
import Provisioning.ChangeSet

namespace Provisioning

structure Criteria where
  id : Option Int
  name : String
  bands : List Band
  products : List Product
  deriving DecidableEq, Repr

/-- A name is a text of at most 200 characters that are not all blank. -/
def checkName : Value → Except Problem String
  | .str s =>
    if s.toList.all Text.isBlank then .error .blankName
    else if maxNameLength < s.length then .error .longName
    else .ok s
  | _ => .error .blankName

def Product.insert (p : Product) : List Product → List Product
  | [] => [p]
  | q :: products => if q.id = p.id then p :: products else q :: p.insert products

namespace Criteria

def productIds (c : Criteria) : List Int := ascending (c.products.map Product.id)

/-- Of products with one id the first stays. -/
def distinctProducts : List Product → List Product
  | [] => []
  | p :: products => p :: (distinctProducts products).filter fun q ↦ q.id != p.id

def create (name : Value) (bands : List Band) (products : List Product) :
    Except Problem Criteria :=
  if bands.isEmpty then .error .noBands
  else (checkName name).map fun name ↦ ⟨none, name, bands, distinctProducts products⟩

/-- A name that is asked for and differs is a change, and has to be a proper name. -/
def rename (c : Criteria) : Value → Except Problem (Criteria × ChangeSet)
  | .null => .ok (c, .empty)
  | .str s =>
    if s = c.name then .ok (c, .empty)
    else (checkName (.str s)).map fun name ↦ ({ c with name }, ⟨[("criteria_name", .str name)]⟩)
  | v => (checkName v).map fun name ↦ ({ c with name }, ⟨[("criteria_name", .str name)]⟩)

/-- Products count as a set. Those that stay keep their order and come first, the added ones follow
by id; of requested products with one id the last counts. -/
def withProducts (c : Criteria) (requested : List Product) : Criteria × ChangeSet :=
  let requested := requested.foldl (fun ps p ↦ p.insert ps) []
  let ids := requested.map Product.id
  let current := c.productIds
  let added := ascending (ids.filter fun id ↦ !current.contains id)
  let removed := current.filter fun id ↦ !ids.contains id
  if added.isEmpty && removed.isEmpty then (c, .empty)
  else
    let kept := c.products.filter fun p ↦ ids.contains p.id
    let new := added.filterMap fun id ↦ requested.find? fun p ↦ p.id == id
    ({ c with products := kept ++ new },
      ⟨[("loan_products", .object [("added", .ofInts added), ("removed", .ofInts removed)])]⟩)

/-- Changes of the name and the products. What is `null` or `none` is not asked for. -/
def update (c : Criteria) (name : Value) (products : Option (List Product)) :
    Except Problem (Criteria × ChangeSet) := do
  let (c, renamed) ← c.rename name
  match products with
  | none => return (c, renamed)
  | some requested =>
    let (c, moved) := c.withProducts requested
    return (c, renamed.merge moved)

def replaceBand (b : Band) : List Band → List Band
  | [] => []
  | a :: bands => if a.id = b.id then b :: bands else a :: replaceBand b bands

/-- Replaces the band that the request names, or appends one if it names none, and says whether that
makes a difference. Without `checkOverlap` the bands may share days until they are checked. -/
def apply (c : Criteria) (r : BandRequest) (category : Category) (liability expense : Account)
    (checkOverlap : Bool) : Except DomainError (Criteria × Bool) :=
  let built := r.build category liability expense (if checkOverlap then c.bands else []) none
  match r.id with
  | none =>
    match built with
    | .error p => .error (.invalid p)
    | .ok b => .ok ({ c with bands := c.bands ++ [b] }, true)
  | some id =>
    match c.bands.find? fun b ↦ b.id == some id with
    | none => .error (.notFound .band (.int id))
    | some stored =>
      match built with
      | .error p => .error (.invalid p)
      | .ok b =>
        if b.same stored then .ok (c, false)
        else .ok ({ c with bands := replaceBand b c.bands }, true)

def checkBands (c : Criteria) : Except Problem Unit := Provisioning.checkBands c.bands

end Criteria
end Provisioning
